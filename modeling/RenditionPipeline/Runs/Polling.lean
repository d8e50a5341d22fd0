import RenditionPipeline.Browser.Dashboard
import RenditionPipeline.Lifecycle.Publication
import RenditionPipeline.Runs.Jobs

/-!
# Statuses that are not polled any more

The dashboard stops asking for a video that is done or failed. A video that is done has
nothing left to do, so its status is final. A video is failed as soon as one of its
renditions is and none is done, and the others may still be under way: then the status
is final as long as none of them succeeds, and it is partial once one does
(`RenditionPipeline.Settled.status_of_unpolled`).

So, in every run, the status that the dashboard has stopped at is the one the video keeps
just when no later operation records a success for it
(`RenditionPipeline.unpolled_status_final`), and only a failed video can have one.
-/

namespace RenditionPipeline

/-! ### What the renditions say -/

/-- The statuses of a video that is given up: a rendition is failed, and none is done. -/
def GivenUp (statuses : List ProcessingStatus) : Prop :=
  (∃ s ∈ statuses, s = .failed) ∧ ∀ s ∈ statuses, s ≠ .done

section Statuses

variable {statuses : List ProcessingStatus}

/-- A status that is not skipped is among those that count. -/
theorem mem_available {s : ProcessingStatus} :
    s ∈ statuses.filter (fun s => s ≠ .skipped) ↔ s ∈ statuses ∧ s ≠ .skipped := by
  rw [List.mem_filter, decide_eq_true_iff]

/-- **A video that is given up is failed.** -/
theorem GivenUp.deriveVideoStatus (h : GivenUp statuses) :
    deriveVideoStatus statuses = .failed := by
  obtain ⟨⟨s, hs, rfl⟩, hnone⟩ := h
  have hmem : ProcessingStatus.failed ∈ statuses.filter (fun s => s ≠ .skipped) :=
    mem_available.mpr ⟨hs, by decide⟩
  rw [RenditionPipeline.deriveVideoStatus]
  rw [if_neg (List.ne_nil_of_mem hs), if_neg (List.ne_nil_of_mem hmem), if_neg, if_pos, if_neg]
  · intro hany
    obtain ⟨t, ht, hdone⟩ := List.any_eq_true.mp hany
    exact hnone t (mem_available.mp ht).1 (of_decide_eq_true hdone)
  · exact List.any_eq_true.mpr ⟨_, hmem, by decide⟩
  · intro hall
    exact absurd (List.all_eq_true.mp hall _ hmem) (by decide)

/-- **A failure beside a success makes a partial video.** -/
theorem deriveVideoStatus_eq_partial (hfailed : .failed ∈ statuses) (hdone : .done ∈ statuses) :
    deriveVideoStatus statuses = .partialStatus := by
  have hmem : ProcessingStatus.failed ∈ statuses.filter (fun s => s ≠ .skipped) :=
    mem_available.mpr ⟨hfailed, by decide⟩
  rw [deriveVideoStatus]
  rw [if_neg (List.ne_nil_of_mem hfailed), if_neg (List.ne_nil_of_mem hmem), if_neg, if_pos,
    if_pos]
  · exact List.any_eq_true.mpr ⟨_, mem_available.mpr ⟨hdone, by decide⟩, by decide⟩
  · exact List.any_eq_true.mpr ⟨_, hmem, by decide⟩
  · intro hall
    exact absurd (List.all_eq_true.mp hall _ hmem) (by decide)

/-- **A status that is not polled**, while a rendition is still active, is that of a video that
is given up. -/
theorem givenUp_of_unpolled {s : ProcessingStatus} (hs : s ∈ statuses) (hactive : s.isActive = true)
    (h : isPollableStatus (mapVideoStatus (deriveVideoStatus statuses)) = false) :
    GivenUp statuses := by
  have hskip : s ≠ .skipped := by
    rintro rfl
    cases hactive
  have hmem := mem_available.mpr ⟨hs, hskip⟩
  rw [deriveVideoStatus] at h
  rw [if_neg (List.ne_nil_of_mem hs), if_neg (List.ne_nil_of_mem hmem)] at h
  split_ifs at h with hall hfailed hdone
  · have hs' := of_decide_eq_true (List.all_eq_true.mp hall s hmem)
    subst hs'
    cases hactive
  · cases h
  · obtain ⟨t, ht, hte⟩ := List.any_eq_true.mp hfailed
    obtain ⟨htmem, -⟩ := mem_available.mp ht
    refine ⟨⟨t, htmem, of_decide_eq_true hte⟩, ?_⟩
    rintro u hu rfl
    exact hdone (List.any_eq_true.mpr ⟨_, mem_available.mpr ⟨hu, by decide⟩, by decide⟩)
  all_goals cases h

end Statuses

/-! ### What settling a job does to the status -/

/-- The outcome of a success. -/
def Outcome.isDone : Outcome → Bool
  | .done _ _ => true
  | _ => false

/-- Only a success makes a rendition done. -/
theorem Outcome.rendition_status_eq_done {o : Outcome} {r : Rendition}
    (h : (o.rendition r).status = .done) : o.isDone = true := by
  cases o with
  | done outputPath now => rfl
  | _ => cases h

section Settling

variable {db db' : Db} {loaded : LoadedJob db} {o : Outcome} {publication : Option Publication}

/-- The rendition of a job that is settled is active. -/
theorem Settled.isActive_rendition (hs : Settled loaded o publication db') (hc : db.Coherent) :
    loaded.rendition.status.isActive = true := by
  obtain ⟨r, hr, hpaired⟩ := hc.paired _ _ loaded.get?_job
  obtain rfl : r = loaded.rendition := Option.some.inj (hr.symm.trans loaded.get?_rendition)
  rw [hpaired.isActive, hs.enabled.isActive]

/-- A rendition other than the job's stays in the list of its video. -/
theorem Settled.mem_statusesOf (hs : Settled loaded o publication db') {s : ProcessingStatus}
    (hmem : s ∈ statusesOf (db.renditionsOf loaded.rendition.videoId))
    (hne : s ≠ loaded.rendition.status) :
    s ∈ statusesOf (db'.renditionsOf loaded.rendition.videoId) := by
  obtain ⟨p, hp, rfl⟩ := List.mem_map.mp hmem
  have hid : p.1 ≠ loaded.job.renditionId := by
    intro he
    obtain ⟨hget, -⟩ := Db.mem_renditionsOf.mp (show (p.1, p.2) ∈ _ from hp)
    rw [he, loaded.get?_rendition] at hget
    exact hne (congrArg Rendition.status (Option.some.inj hget)).symm
  rw [statusesOf, hs.renditionsOf, List.map_map]
  exact List.mem_map.mpr ⟨p, hp, by rw [Function.comp_apply, if_neg hid]⟩

/-- The rendition of the job is in the list with its outcome. -/
theorem Settled.mem_statusesOf_self (hs : Settled loaded o publication db') :
    (o.rendition loaded.rendition).status ∈
      statusesOf (db'.renditionsOf loaded.rendition.videoId) := by
  rw [hs.renditionsOf]
  exact List.mem_map.mpr ⟨_, mem_settledRenditions loaded o, rfl⟩

/-- Every status after settling is the outcome's or one from before. -/
theorem Settled.status_cases (hs : Settled loaded o publication db') {s : ProcessingStatus}
    (hmem : s ∈ statusesOf (db'.renditionsOf loaded.rendition.videoId)) :
    s = (o.rendition loaded.rendition).status ∨
      s ∈ statusesOf (db.renditionsOf loaded.rendition.videoId) := by
  rw [statusesOf, hs.renditionsOf, List.map_map] at hmem
  obtain ⟨p, hp, rfl⟩ := List.mem_map.mp hmem
  rw [Function.comp_apply]
  split
  · rename_i hid
    obtain ⟨hget, -⟩ := Db.mem_renditionsOf.mp (show (p.1, p.2) ∈ _ from hp)
    rw [hid, loaded.get?_rendition] at hget
    rw [Option.some.inj hget]
    exact Or.inl rfl
  · exact Or.inr (List.mem_map.mpr ⟨p, hp, rfl⟩)

/-- **Settling a job of a video whose status is not polled**: the video is failed, and stays so
unless the outcome is a success, which makes it partial. -/
theorem Settled.status_of_unpolled (hs : Settled loaded o publication db') (hc : db.Coherent)
    (h : isPollableStatus (mapVideoStatus loaded.video.status) = false) :
    loaded.video.status = .failed ∧
      ∃ video', db'.videos.get? loaded.rendition.videoId = some video' ∧
        video'.status = if o.isDone then .partialStatus else .failed := by
  have hself : loaded.rendition.status ∈ statusesOf (db.renditionsOf loaded.rendition.videoId) :=
    List.mem_map.mpr ⟨_, loaded.mem_renditionsOf, rfl⟩
  have hderived := hc.derived _ _ loaded.get?_video fun hnil => by
    rw [hnil] at hself
    cases hself
  have hactive := hs.isActive_rendition hc
  rw [hderived] at h
  have hgiven := givenUp_of_unpolled hself hactive h
  refine ⟨hderived.trans hgiven.deriveVideoStatus, ?_⟩
  obtain ⟨video', hvideo', hstatus, -⟩ := hs.get?_video_self
  refine ⟨video', hvideo', hstatus.trans ?_⟩
  -- the failed rendition is another one, since that of the job was active
  obtain ⟨⟨s, hs', rfl⟩, hnone⟩ := hgiven
  have hfailed := hs.mem_statusesOf hs' (by rintro he; rw [← he] at hactive; cases hactive)
  by_cases hdone : o.isDone = true
  · rw [if_pos hdone]
    refine deriveVideoStatus_eq_partial hfailed ?_
    cases o with
    | done outputPath now => exact hs.mem_statusesOf_self
    | _ => cases hdone
  · rw [if_neg hdone]
    refine GivenUp.deriveVideoStatus ⟨⟨_, hfailed, rfl⟩, ?_⟩
    rintro t ht rfl
    rcases hs.status_cases ht with he | hold
    · exact hdone (Outcome.rendition_status_eq_done he.symm)
    · exact hnone _ hold rfl

end Settling

/-! ### What a move and an operation do to the status -/

/-- A video that is uploading is polled. -/
theorem OpenUpload.ne_of_unpolled {db : Db} {videoId videoId' sessionId : UUID}
    {video video' : Video} {session : UploadSession}
    (hopen : OpenUpload db videoId' sessionId video' session)
    (hv : db.videos.get? videoId = some video)
    (h : isPollableStatus (mapVideoStatus video.status) = false) : videoId ≠ videoId' := by
  rintro rfl
  obtain rfl : video = video' := Option.some.inj (hv.symm.trans hopen.get?_video)
  rw [hopen.uploading] at h
  cases h

/-- **A move without a success keeps a status that is not polled.** -/
theorem Move.status_of_unpolled {scope : Scope} {w w' : World} {e : List Settlement}
    (hm : Move scope w e w') (hc : w.db.Coherent) {videoId : UUID} {video : Video}
    (hv : w.db.videos.get? videoId = some video)
    (h : isPollableStatus (mapVideoStatus video.status) = false)
    (hscope : ∀ (loaded : LoadedJob w.db) o publication, scope.settles w.db loaded o publication →
      loaded.rendition.videoId = videoId → o.isDone = false) :
    ∃ video', w'.db.videos.get? videoId = some video' ∧ video'.status = video.status := by
  cases hm with
  | heartbeat now hget hrun => exact ⟨video, hv, rfl⟩
  | outbox _ hmessages => exact ⟨video, hv, rfl⟩
  | uploadFailed error _ hopen => exact ⟨video, hv, rfl⟩
  | @settled loaded o publication db' hsettles hs =>
    by_cases hvid : videoId = loaded.rendition.videoId
    · subst hvid
      obtain rfl : video = loaded.video := Option.some.inj (hv.symm.trans loaded.get?_video)
      obtain ⟨hfailed, video', hv', hstatus⟩ := hs.status_of_unpolled hc h
      rw [hscope loaded o publication hsettles rfl] at hstatus
      exact ⟨video', hv', hstatus.trans hfailed.symm⟩
    · exact ⟨video, (hs.get?_video_of_ne hvid).trans hv, rfl⟩
  | created hvideo hsession _ _ _ _ =>
    exact ⟨video, Table.get?_insert_of_some hv _ hvideo, rfl⟩
  | completed _ hopen hcomp =>
    refine ⟨video, ?_, rfl⟩
    rw [hcomp.videos, Table.get?_modify_of_ne (hopen.ne_of_unpolled hv h), hv]
  | aborted now _ hopen =>
    refine ⟨video, ?_, rfl⟩
    exact (Table.get?_modify_of_ne (hopen.ne_of_unpolled hv h) _ _).trans hv

/-! ### Recording a success -/

/-- The output paths that the master playlist of a video lists once the job of a rendition
has succeeded. -/
def pathsAfterSuccess (db : Db) (videoId renditionId : UUID) (outputPath : Option String) :
    List String :=
  (db.renditionsOf videoId).filterMap fun p =>
    if p.1 = renditionId then (if outputPath.isSome then outputPath else p.2.outputPath)
    else if p.2.status = .done then p.2.outputPath
    else none

/-- The success of a rendition's job does not fail on the master playlist: another rendition
is active, or no path is to be listed, or the paths lie below the video's prefix and the
upload returns. -/
def PublishesAfterSuccess (db : Db) (videoId renditionId : UUID) (outputPath : Option String)
    (uploadOk : Bool) : Prop :=
  (∃ p ∈ db.renditionsOf videoId, p.1 ≠ renditionId ∧ p.2.status.isActive = true) ∨
    pathsAfterSuccess db videoId renditionId outputPath = [] ∨
    (uploadOk = true ∧ ∀ path ∈ pathsAfterSuccess db videoId renditionId outputPath,
      Text.startsWith path ("hls/" ++ videoId.str ++ "/") = true)

/-- **An operation records a success** of a video: it is `mark_encoding_job_succeeded` of a
job of the video that is running for the caller, and does not fail on the playlist. -/
def RecordsSuccess (videoId : UUID) (db : Db) : Op → Prop
  | .markEncodingJobSucceeded jobId workerId outputPath _ _ uploadOk =>
    ∃ job, db.jobs.get? jobId = some job ∧ job.videoId = videoId ∧
      ownsRunningJob job workerId = true ∧
      PublishesAfterSuccess db videoId job.renditionId outputPath uploadOk
  | _ => False

section Success

variable {db : Db} {renditionId : UUID} {outputPath : Option String} {now : Timestamp}
  {renditions : List (UUID × Rendition)}

/-- The renditions of a video once one of them is done. -/
def succeeded (renditionId : UUID) (outputPath : Option String) (now : Timestamp)
    (p : UUID × Rendition) : UUID × Rendition :=
  if p.1 = renditionId then (p.1, (Outcome.done outputPath now).rendition p.2) else p

theorem hasActiveRenditions_succeeded :
    hasActiveRenditions (renditions.map (succeeded renditionId outputPath now)) = true ↔
      ∃ p ∈ renditions, p.1 ≠ renditionId ∧ p.2.status.isActive = true := by
  rw [hasActiveRenditions, List.any_map, List.any_eq_true]
  refine exists_congr fun p => and_congr_right fun _ => ?_
  rw [Function.comp_apply, succeeded]
  by_cases hp : p.1 = renditionId
  · rw [if_pos hp]
    exact iff_of_false Bool.false_ne_true fun h => h.1 hp
  · rw [if_neg hp, and_iff_right hp]

theorem outputPath_completedRenditions_succeeded :
    (completedRenditions (renditions.map (succeeded renditionId outputPath now))).map
        MasterPlaylistRendition.outputPath =
      renditions.filterMap fun p =>
        if p.1 = renditionId then (if outputPath.isSome then outputPath else p.2.outputPath)
        else if p.2.status = .done then p.2.outputPath
        else none := by
  have hpath : ∀ (r : Rendition) (path : Option String),
      (path.map (MasterPlaylistRendition.mk r.resolution)).map
        MasterPlaylistRendition.outputPath = path := fun r path => by cases path <;> rfl
  rw [completedRenditions, List.filterMap_map, List.map_filterMap]
  refine List.filterMap_congr fun p _ => ?_
  rw [Function.comp_apply, succeeded]
  by_cases hp : p.1 = renditionId
  · rw [if_pos hp, if_pos hp]
    exact hpath p.2 _
  · rw [if_neg hp, if_neg hp, completedRendition]
    by_cases hdone : p.2.status = .done
    · rw [if_pos hdone, if_pos hdone]
      exact hpath p.2 _
    · rw [if_neg hdone, if_neg hdone]
      rfl

/-- The publication after a success, in terms of the renditions before it. -/
theorem isOk_publish_succeeded_iff {videoId : UUID} {uploadOk : Bool} :
    (publishMasterPlaylistIfReady videoId
      ((db.renditionsOf videoId).map (succeeded renditionId outputPath now)) uploadOk).isOk = true ↔
      PublishesAfterSuccess db videoId renditionId outputPath uploadOk := by
  have hpaths : pathsAfterSuccess db videoId renditionId outputPath =
      (completedRenditions ((db.renditionsOf videoId).map
        (succeeded renditionId outputPath now))).map MasterPlaylistRendition.outputPath :=
    outputPath_completedRenditions_succeeded.symm
  rw [isOk_publishMasterPlaylistIfReady_iff, hasActiveRenditions_succeeded, PublishesAfterSuccess,
    hpaths, List.map_eq_nil_iff, List.forall_mem_map]

/-- The renditions that the publication finds after a success: neither the metadata nor the
status of the video is written to them. -/
theorem renditionsOf_succeeded {loaded : LoadedJob db} {workerId : String}
    (howns : ownsRunningJob loaded.job workerId = true) {metadata : Option VideoSourceMetadata}
    {videoId : UUID} :
    (applySourceMetadata (db.settle loaded.ref (Outcome.done outputPath now).job
        (Outcome.done outputPath now).rendition) loaded.ref metadata).renditionsOf videoId =
      (db.renditionsOf videoId).map (succeeded loaded.job.renditionId outputPath now) := by
  obtain ⟨g, hg, -⟩ := applySourceMetadata_eq (db.settle loaded.ref
    (Outcome.done outputPath now).job (Outcome.done outputPath now).rendition) loaded.ref metadata
  have hsettled : Settled loaded (.done outputPath now) none (db.settle loaded.ref
      (Outcome.done outputPath now).job (Outcome.done outputPath now).rendition) :=
    settled_settle (status_of_ownsRunningJob howns).1 rfl rfl rfl rfl rfl
  rw [hg]
  exact hsettled.renditionsOf videoId

/-- **When a success of its own job is recorded**: just when it does not fail on the playlist. -/
theorem isOk_markEncodingJobSucceeded_iff (hl : db.Linked) {jobId : UUID} {workerId : String}
    {job : Job} (hj : db.jobs.get? jobId = some job) (howns : ownsRunningJob job workerId = true)
    (metadata : Option VideoSourceMetadata) (now : Timestamp) (uploadOk : Bool) :
    (markEncodingJobSucceeded db jobId workerId outputPath metadata now uploadOk).isOk = true ↔
      PublishesAfterSuccess db job.videoId job.renditionId outputPath uploadOk := by
  obtain ⟨loaded, hloaded, rfl, rfl⟩ := hl.exists_loaded hj
  obtain ⟨r, hr, hvid⟩ := hl.job_rendition _ _ hj
  obtain rfl : loaded.rendition = r := Option.some.inj (loaded.get?_rendition.symm.trans hr)
  have hreturns : (markEncodingJobSucceeded db loaded.jobId workerId outputPath metadata now
      uploadOk).isOk = (publishMasterPlaylistIfReady loaded.job.videoId
        ((applySourceMetadata (db.settle loaded.ref (Outcome.done outputPath now).job
          (Outcome.done outputPath now).rendition) loaded.ref metadata).renditionsOf
            loaded.job.videoId) uploadOk).isOk := by
    rw [markEncodingJobSucceeded, hloaded]
    simp only [bind, Except.bind, pure, Except.pure]
    rw [if_pos howns, ← hvid]
    split
    · rename_i e he
      exact (isOk_publishVideo.symm.trans (congrArg Except.isOk he)).symm
    · rename_i p hp
      exact (isOk_publishVideo.symm.trans (congrArg Except.isOk hp)).symm
  rw [hreturns, renditionsOf_succeeded howns]
  exact isOk_publish_succeeded_iff

/-- **A success is recorded** when the job runs for the caller and the call returns. -/
theorem recordsSuccess_iff (hl : db.Linked) {videoId jobId : UUID} {workerId : String}
    {metadata : Option VideoSourceMetadata} {uploadOk : Bool} :
    RecordsSuccess videoId db
        (.markEncodingJobSucceeded jobId workerId outputPath metadata now uploadOk) ↔
      (∃ job, db.jobs.get? jobId = some job ∧ job.videoId = videoId ∧
        ownsRunningJob job workerId = true) ∧
      (markEncodingJobSucceeded db jobId workerId outputPath metadata now
        uploadOk).isOk = true := by
  constructor
  · rintro ⟨job, hj, rfl, howns, hpublishes⟩
    have hok := (isOk_markEncodingJobSucceeded_iff hl hj howns metadata now uploadOk).mpr hpublishes
    exact ⟨⟨job, hj, rfl, howns⟩, hok⟩
  · rintro ⟨⟨job, hj, rfl, howns⟩, hok⟩
    exact ⟨job, hj, rfl, howns, (isOk_markEncodingJobSucceeded_iff hl hj howns _ _ _).mp hok⟩

end Success

section Operations

variable {w : World} {videoId : UUID} {video : Video}

/-- An operation all of whose settlements are no successes of a video keeps its status. -/
theorem status_exec_of_scope (hl : w.db.Linked) (hc : w.db.Coherent)
    (hv : w.db.videos.get? videoId = some video)
    (h : isPollableStatus (mapVideoStatus video.status) = false) (op : Op)
    (hscope : ∀ db (loaded : LoadedJob db) o publication,
      (op.scope w).settles db loaded o publication → loaded.rendition.videoId = videoId →
        o.isDone = false) :
    ∃ video', (op.exec w).1.db.videos.get? videoId = some video' ∧
      video'.status = video.status := by
  obtain ⟨es, hes, -⟩ := op.exec_chain hl
  refine (hes.keep (I := fun w' => w'.db.Linked ∧ w'.db.Coherent ∧
    ∃ video', w'.db.videos.get? videoId = some video' ∧ video'.status = video.status) ?_
    ⟨hl, hc, video, hv, rfl⟩).2.2
  rintro w₁ e w₂ ⟨hl₁, hc₁, v₁, hv₁, hstatus⟩ hm
  obtain ⟨v₂, hv₂, hsame⟩ := hm.status_of_unpolled hc₁ hv₁ (by rw [hstatus]; exact h)
    fun loaded o publication => hscope _ loaded o publication
  exact ⟨hm.linked hl₁, hm.coherent hl₁ hc₁, v₂, hv₂, hsame.trans hstatus⟩

/-- **An operation that records no success** of a video keeps its status. -/
theorem status_exec_of_no_success (hl : w.db.Linked) (hc : w.db.Coherent)
    (hv : w.db.videos.get? videoId = some video)
    (h : isPollableStatus (mapVideoStatus video.status) = false) {op : Op}
    (hop : ¬ RecordsSuccess videoId w.db op) :
    ∃ video', (op.exec w).1.db.videos.get? videoId = some video' ∧
      video'.status = video.status := by
  cases op with
  | markEncodingJobSucceeded jobId workerId outputPath metadata now uploadOk =>
    by_cases hok : (markEncodingJobSucceeded w.db jobId workerId outputPath metadata now
        uploadOk).isOk = true
    · -- a success that is recorded is of another video
      refine status_exec_of_scope hl hc hv h _ ?_
      rintro _ loaded o publication ⟨rfl, hid, howns, -, -⟩ hvid
      refine absurd ((recordsSuccess_iff hl).mpr ⟨⟨loaded.job, ?_, ?_, howns⟩, hok⟩) hop
      · rw [← hid, loaded.get?_job]
      · obtain ⟨r, hr, hrv⟩ := hl.job_rendition _ _ loaded.get?_job
        rw [loaded.get?_rendition, Option.some.injEq] at hr
        rw [← hrv, ← hr, hvid]
    · rw [Op.exec]
      split
      · rename_i m hm
        rw [hm] at hok
        exact absurd rfl hok
      · exact ⟨video, hv, rfl⟩
  -- the other calls on a job end in no outcome that is done
  | claimEncodingJob =>
    refine status_exec_of_scope hl hc hv h _ ?_
    rintro _ loaded o publication ⟨-, -, -, rfl | rfl⟩ - <;> rfl
  | markEncodingJobSkipped =>
    refine status_exec_of_scope hl hc hv h _ ?_
    rintro _ loaded o publication ⟨-, -, -, rfl, -⟩ -
    rfl
  | markEncodingJobFailed =>
    refine status_exec_of_scope hl hc hv h _ ?_
    rintro _ loaded o publication ⟨-, -, -, ⟨nextRunAt, rfl⟩ | rfl, -⟩ - <;> rfl
  | reapStaleEncodingJobs =>
    refine status_exec_of_scope hl hc hv h _ ?_
    rintro _ loaded o publication ⟨-, -, -, ⟨-, now, nextRunAt, rfl⟩ | ⟨-, now, rfl⟩⟩ - <;> rfl
  | _ => exact status_exec_of_scope hl hc hv h _ fun _ _ _ _ hsettles _ => hsettles.elim

/-- **An operation that records a success** of a video whose status is not polled makes it
partial. -/
theorem RecordsSuccess.revives (hl : w.db.Linked) (hc : w.db.Coherent)
    (hv : w.db.videos.get? videoId = some video)
    (h : isPollableStatus (mapVideoStatus video.status) = false) {op : Op}
    (hop : RecordsSuccess videoId w.db op) :
    video.status = .failed ∧ ∃ video', (op.exec w).1.db.videos.get? videoId = some video' ∧
      video'.status = .partialStatus := by
  cases op with
  | markEncodingJobSucceeded jobId workerId outputPath metadata now uploadOk =>
    obtain ⟨⟨job, hj, rfl, howns⟩, hok⟩ := (recordsSuccess_iff hl).mp hop
    rw [Op.exec]
    split
    swap
    · rename_i herror
      rw [herror] at hok
      cases hok
    rename_i m hm
    obtain ⟨loaded, rfl, ⟨hno, -⟩ | ⟨-, -, hs⟩⟩ := markEncodingJobSucceeded_eq_ok hm
    · rw [Option.some.inj (loaded.get?_job.symm.trans hj), howns] at hno
      cases hno
    obtain rfl : loaded.job = job := Option.some.inj (loaded.get?_job.symm.trans hj)
    obtain ⟨r, hr, hrv⟩ := hl.job_rendition _ _ loaded.get?_job
    obtain rfl : loaded.rendition = r := Option.some.inj (loaded.get?_rendition.symm.trans hr)
    rw [← hrv] at hv ⊢
    obtain rfl : video = loaded.video := Option.some.inj (hv.symm.trans loaded.get?_video)
    exact hs.status_of_unpolled hc h
  | _ => exact hop.elim

end Operations

/-! ### Whole runs -/

/-- The status of a video in a run. -/
def Run.statusOf (r : Run) (videoId : UUID) : Option ProcessingStatus :=
  (r.world.db.videos.get? videoId).map Video.status

/-- The run after the first operations of a list. -/
theorem Run.exec_take_succ (r : Run) {ops : List Op} {n : ℕ} {op : Op} (h : ops[n]? = some op) :
    r.exec (ops.take (n + 1)) = (r.exec (ops.take n)).exec [op] := by
  rw [List.take_add_one, h, Run.exec, List.foldl_append]
  rfl

section Runs

variable {r : Run} {videoId : UUID} {video : Video} {ops : List Op}

/-- **A run without a success** of a video keeps a status that is not polled. -/
theorem Run.statusOf_of_no_success (hr : ReachableRun Unguarded r)
    (hv : r.world.db.videos.get? videoId = some video)
    (h : isPollableStatus (mapVideoStatus video.status) = false)
    (hnone : ∀ n op, ops[n]? = some op →
      ¬ RecordsSuccess videoId (r.exec (ops.take n)).world.db op) (n : ℕ) :
    (r.exec (ops.take n)).statusOf videoId = some video.status := by
  induction n with
  | zero => exact congrArg (Option.map Video.status) hv
  | succ n ih =>
    cases hop : ops[n]? with
    | none =>
      rw [List.take_add_one, hop, Option.toList_none, List.append_nil]
      exact ih
    | some op =>
      have hn : ReachableRun Unguarded (r.exec (ops.take n)) := reaches_exec hr _
      obtain ⟨v, hv', hstatus⟩ := Option.map_eq_some_iff.mp ih
      obtain ⟨v', hv'', hsame⟩ := status_exec_of_no_success hn.linked hn.coherent
        hv' (by rw [hstatus]; exact h) (hnone n op hop)
      rw [Run.exec_take_succ r hop, ← hstatus, ← hsame]
      exact congrArg (Option.map Video.status) hv''

/-- **What the dashboard shows for good**: a row that shows such a status outlives every later
poll, whatever is answered, and shows the status of the video as long as no success is
recorded. -/
theorem shown_status_of_no_success (hr : ReachableRun Unguarded r)
    (hv : r.world.db.videos.get? videoId = some video) {row : UploadedVideo}
    (hid : row.videoId = some videoId) (hshown : row.status = mapVideoStatus video.status)
    (h : isPollableStatus row.status = false)
    (hnone : ∀ n op, ops[n]? = some op →
      ¬ RecordsSuccess videoId (r.exec (ops.take n)).world.db op) (n : ℕ)
    {answers : UUID → Option VideoState} {requested current : List UploadedVideo}
    (hrow : row ∈ current)
    (hrequested : ∀ row' ∈ requested, row'.videoId = some videoId → row' = row) :
    row ∈ pollVideoStates answers requested current ∧
      ((r.exec (ops.take n)).statusOf videoId).map mapVideoStatus = some row.status := by
  constructor
  · refine mem_pollVideoStates_of_not_polled hrow hid fun hpolled => ?_
    obtain ⟨row', hrow', hid', hpollable⟩ := mem_pollableVideos.mp hpolled
    rw [hrequested row' hrow' hid', h] at hpollable
    cases hpollable
  · rw [hshown] at h
    rw [Run.statusOf_of_no_success hr hv h hnone n, hshown, Option.map_some]

/-- **A status that the dashboard has stopped polling on is final just when** no later
operation records a success of the video, in every run. -/
theorem unpolled_status_final (hr : ReachableRun Unguarded r)
    (hv : r.world.db.videos.get? videoId = some video)
    (h : isPollableStatus (mapVideoStatus video.status) = false) (ops : List Op) :
    (∀ n, (r.exec (ops.take n)).statusOf videoId = some video.status) ↔
      ∀ n op, ops[n]? = some op →
        ¬ RecordsSuccess videoId (r.exec (ops.take n)).world.db op := by
  refine ⟨fun hstays n op hop hrecords => ?_, fun hnone => Run.statusOf_of_no_success hr hv h hnone⟩
  have hn : ReachableRun Unguarded (r.exec (ops.take n)) := reaches_exec hr _
  obtain ⟨v, hv', hstatus⟩ := Option.map_eq_some_iff.mp (hstays n)
  obtain ⟨hfailed, v', hv'', hpartial⟩ := hrecords.revives hn.linked hn.coherent hv'
    (by rw [hstatus]; exact h)
  have hnow : ((r.exec (ops.take n)).exec [op]).statusOf videoId = some .partialStatus := by
    rw [Run.statusOf, ← hpartial]
    exact congrArg (Option.map Video.status) hv''
  have hnext := hstays (n + 1)
  rw [Run.exec_take_succ r hop, hnow, ← hstatus, hfailed] at hnext
  cases hnext

end Runs

/-- A video whose jobs have one attempt each: the first has failed, and the others wait. -/
def failedRun : Run :=
  Run.start.exec
    [.createVideoUpload "media" "clip.mp4" "video/mp4" 10 1
      (fun key => some ⟨"media", key, "upload", []⟩) sampleId 0,
    .completeVideoUpload ⟨1, .ok [30]⟩ ⟨true, some (some ⟨10, some "video/mp4"⟩), true⟩
      (sampleId 0) [⟨1, "etag"⟩] (fun n => sampleId (10 + n)) 1 1,
    .claimEncodingJob (sampleId 11) (sampleId 0) (sampleId 10) "first" 2 2,
    .markEncodingJobFailed ⟨1, .ok [30]⟩ (sampleId 11) "ffmpeg failed" "first" (sampleId 99) 3 true]

/-- The second job is claimed and skipped, and the video stays failed. -/
theorem unpolled_status_final_skipped :
    (failedRun.exec [.claimEncodingJob (sampleId 13) (sampleId 0) (sampleId 12) "second" 4 4,
      .markEncodingJobSkipped (sampleId 13) "too large" "second" none 5 true]).statusOf
        (sampleId 0) = some .failed := by
  obtain ⟨video, hv, hfailed⟩ : ∃ video, failedRun.world.db.videos.get? (sampleId 0) = some video ∧
      video.status = .failed := ⟨_, rfl, rfl⟩
  have h := (unpolled_status_final (ReachableRun.exec _) hv (by rw [hfailed]; rfl)
    [.claimEncodingJob (sampleId 13) (sampleId 0) (sampleId 12) "second" 4 4,
      .markEncodingJobSkipped (sampleId 13) "too large" "second" none 5 true]).mpr ?_
  · rw [hfailed] at h
    exact h 2
  · rintro (_ | _ | n) op hop hrecords
    · obtain rfl := Option.some.inj hop
      exact hrecords
    · obtain rfl := Option.some.inj hop
      exact hrecords
    · cases hop

/-- **A failed video becomes partial**: the dashboard has stopped polling, and the second job
succeeds. -/
theorem failed_video_revived : ReachableRun Unguarded failedRun ∧ ∃ video,
    failedRun.world.db.videos.get? (sampleId 0) = some video ∧
      isPollableStatus (mapVideoStatus video.status) = false ∧
      (failedRun.exec [.claimEncodingJob (sampleId 13) (sampleId 0) (sampleId 12) "second" 4 4,
        .markEncodingJobSucceeded (sampleId 13) "second"
          (some "hls/00000000-0000-0000-0000-000000000000/720p/index.m3u8") none 5 true]).statusOf
        (sampleId 0) = some .partialStatus :=
  ⟨ReachableRun.exec _, _, rfl, rfl, rfl⟩

end RenditionPipeline
