import RenditionPipeline.Lifecycle.Publication
import RenditionPipeline.Runs.Jobs

/-!
# The master playlist over whole runs

The master playlist of a video is to be published once all the work on its
renditions is over. Successes, skips and final failures do publish; an exhausted
claim does not and need not, since no rendition of such a video can be completed
(`RenditionPipeline.Budget`). The reaper does not publish either, and it should:
where its batch fails the last renditions of a video that has a completed one,
the video is over and has no playlist, for good
(`RenditionPipeline.reaped_without_playlist`).

That is the only way to miss it. In every run whose batches leave some work on
every such video, the playlist is there as soon as the work is over
(`RenditionPipeline.playlist_published`).
-/

namespace RenditionPipeline

/-! ### The attempts of a video's jobs -/

/-- **The jobs of a video have one maximum of attempts**, and a job that has ever
run has a positive one. -/
structure Budget (db : Db) : Prop where
  uniform : ∀ jid jid' job job', db.jobs.get? jid = some job → db.jobs.get? jid' = some job' →
    job.videoId = job'.videoId → job.maxAttempts = job'.maxAttempts
  tried : ∀ jid job, db.jobs.get? jid = some job → job.status = .running ∨ job.status = .done →
    0 < job.maxAttempts

namespace Budget

theorem empty : Budget Db.empty where
  uniform := fun _ _ _ _ h => by cases h
  tried := fun _ _ h => by cases h

theorem of_jobs_eq {db db' : Db} (h : Budget db) (hj : db'.jobs = db.jobs) : Budget db' :=
  ⟨by rw [hj]; exact h.uniform, by rw [hj]; exact h.tried⟩

/-- What the account of the attempts needs to know of a job. -/
theorem of_view {db db' : Db} (h : Budget db)
    (hj : db'.jobs.view (fun job => (job.videoId, job.maxAttempts, job.status)) =
      db.jobs.view fun job => (job.videoId, job.maxAttempts, job.status)) : Budget db' := by
  have hback : ∀ jid job, db'.jobs.get? jid = some job → ∃ job₀, db.jobs.get? jid = some job₀ ∧
      job₀.videoId = job.videoId ∧ job₀.maxAttempts = job.maxAttempts ∧
        job₀.status = job.status := by
    intro jid job hget
    obtain ⟨job₀, hget₀, he⟩ := Table.get?_of_view_eq hj.symm hget
    simp only [Prod.mk.injEq] at he
    exact ⟨job₀, hget₀, he⟩
  refine ⟨fun jid jid' job job' hget hget' hv => ?_, fun jid job hget hs => ?_⟩
  · obtain ⟨a, ha, hav, ham, -⟩ := hback jid job hget
    obtain ⟨b, hb, hbv, hbm, -⟩ := hback jid' job' hget'
    rw [← ham, ← hbm]
    exact h.uniform jid jid' a b ha hb (by rw [hav, hbv, hv])
  · obtain ⟨a, ha, -, ham, has⟩ := hback jid job hget
    rw [← ham]
    exact h.tried jid a ha (by rw [has]; exact hs)

theorem settled {db db' : Db} (h : Budget db) {loaded : LoadedJob db} {o : Outcome}
    {publication : Option Publication} (hs : Settled loaded o publication db') : Budget db' where
  uniform := by
    have hback : ∀ jid job, db'.jobs.get? jid = some job → ∃ job₀, db.jobs.get? jid = some job₀ ∧
        job₀.videoId = job.videoId ∧ job₀.maxAttempts = job.maxAttempts := by
      intro jid job hj
      rcases hs.get?_job hj with ⟨rfl, rfl⟩ | ⟨-, hj⟩
      · exact ⟨_, loaded.get?_job, by simp, by simp⟩
      · exact ⟨job, hj, rfl, rfl⟩
    intro jid jid' job job' hj hj' hv
    obtain ⟨a, ha, hav, ham⟩ := hback jid job hj
    obtain ⟨b, hb, hbv, hbm⟩ := hback jid' job' hj'
    rw [← ham, ← hbm]
    exact h.uniform jid jid' a b ha hb (by rw [hav, hbv, hv])
  tried := by
    intro jid job hj hrun
    rcases hs.get?_job hj with ⟨-, rfl⟩ | ⟨-, hj⟩
    · rw [Outcome.job_maxAttempts]
      have henabled := hs.enabled
      cases o with
      | running workerId now => exact Nat.zero_lt_of_lt henabled.2
      | done outputPath now => exact h.tried _ _ loaded.get?_job (Or.inl henabled)
      | skipped reason now => exact h.tried _ _ loaded.get?_job (Or.inl henabled)
      | exhausted now => rcases hrun with hrun | hrun <;> cases hrun
      | retried error now nextRunAt => rcases hrun with hrun | hrun <;> cases hrun
      | failed error now => rcases hrun with hrun | hrun <;> cases hrun
    · exact h.tried jid job hj hrun

theorem completed {db db' : Db} (h : Budget db) (hl : db.Linked) {videoId sessionId : UUID}
    {maxAttempts : ℕ} {uploadedAt completedAt : Timestamp} {works : List Work}
    (hc : Completed db videoId sessionId maxAttempts uploadedAt completedAt works db')
    (hnone : db.renditionsOf videoId = []) : Budget db' where
  uniform := by
    -- the video had no jobs before
    have hold : ∀ jid job, db.jobs.get? jid = some job → job.videoId ≠ videoId := by
      intro jid job hj hv
      obtain ⟨r, hr, hrv⟩ := hl.job_rendition jid job hj
      have hmem : (job.renditionId, r) ∈ db.renditionsOf videoId :=
        Db.mem_renditionsOf.mpr ⟨hr, by rw [hrv, hv]⟩
      rw [hnone] at hmem
      cases hmem
    intro jid jid' job job' hj hj' hv
    rcases hc.get?_job.mp hj with hj | ⟨w, -, -, rfl⟩ <;>
      rcases hc.get?_job.mp hj' with hj' | ⟨w', -, -, rfl⟩
    · exact h.uniform jid jid' job job' hj hj' hv
    · exact absurd hv (hold jid job hj)
    · exact absurd hv.symm (hold jid' job' hj')
    · rfl
  tried := by
    intro jid job hj hrun
    rcases hc.get?_job.mp hj with hj | ⟨w, -, -, rfl⟩
    · exact h.tried jid job hj hrun
    · rcases hrun with hrun | hrun <;> cases hrun

end Budget

theorem Move.budget {scope : Scope} {w w' : World} {e : List Settlement}
    (hm : Move scope w e w') (hl : w.db.Linked) (h : Budget w.db) : Budget w'.db := by
  cases hm with
  | heartbeat now hget hrun => exact h.of_view (Table.view_modify fun _ _ => rfl)
  | settled _ hs => exact h.settled hs
  | outbox _ hmessages => exact h.of_jobs_eq rfl
  | created hvideo hsession _ _ _ _ => exact h.of_jobs_eq rfl
  | completed _ hopen hc => exact h.completed hl hc (hopen.renditionsOf_eq_nil hl)
  | uploadFailed error _ hopen => exact h.of_jobs_eq rfl
  | aborted now _ hopen => exact h.of_jobs_eq rfl

/-! ### What a run knows -/

/-- Publishing is due for every video without work to come. -/
def AlwaysDue : List (UUID × Rendition) → Prop := fun _ => True

/-- **What holds in a run** whose operations keep to the condition: the
references, the agreement of the rows, the attempts, and the publications. -/
structure Sound (w : World) (granted : List UUID) : Prop where
  linked : w.db.Linked
  coherent : w.db.Coherent
  attempts : Attempts w.db granted
  budget : Budget w.db
  publications : PublicationState AlwaysDue w

theorem Sound.empty : Sound World.empty [] :=
  ⟨Db.Linked.empty, Db.Coherent.empty, Attempts.empty, Budget.empty, PublicationState.empty⟩

theorem Move.sound {w w' : World} {e : List Settlement} {granted : List UUID}
    (hm : Move (publishScope AlwaysDue) w e w') (h : Sound w granted) :
    Sound w' (granted ++ grantedJobs e) :=
  ⟨hm.linked h.linked, hm.coherent h.linked h.coherent, hm.attempts h.attempts,
    hm.budget h.linked h.budget, hm.publicationState h.linked h.coherent h.publications⟩

/-- The job of a rendition, with its status. -/
theorem Sound.exists_job {w : World} {granted : List UUID} (h : Sound w granted) {vid rid : UUID}
    {r : Rendition} (hr : (rid, r) ∈ w.db.renditionsOf vid) :
    ∃ jid job, w.db.jobs.get? jid = some job ∧ job.renditionId = rid ∧ job.videoId = vid ∧
      Paired job.status r.status := by
  obtain ⟨hget, hv⟩ := Db.mem_renditionsOf.mp hr
  obtain ⟨jid, job, hj, rfl⟩ := h.linked.rendition_job rid r hget
  obtain ⟨r', hr', hrv⟩ := h.linked.job_rendition jid job hj
  obtain ⟨r'', hr'', hp⟩ := h.coherent.paired jid job hj
  obtain rfl : r' = r := Option.some.inj (hr'.symm.trans hget)
  obtain rfl : r'' = r' := Option.some.inj (hr''.symm.trans hget)
  exact ⟨jid, job, hj, rfl, by rw [← hrv, hv], hp⟩

/-- **A claim that finds no attempts left** ends a rendition of a video without
completed ones: its jobs never had any. -/
theorem Sound.exhausted {w : World} {granted : List UUID} (h : Sound w granted)
    {loaded : LoadedJob w.db} {now : Timestamp} (he : (Outcome.exhausted now).Enabled loaded.job) :
    completedRenditions (settledRenditions loaded (.exhausted now)) = [] := by
  have hzero : loaded.job.maxAttempts = 0 := by
    rcases h.attempts.pending _ _ loaded.get?_job he.1 with hlt | hz
    · exact absurd he.2 (by omega)
    · exact hz
  have hvid : loaded.job.videoId = loaded.rendition.videoId := by
    obtain ⟨r, hr, hrv⟩ := h.linked.job_rendition _ _ loaded.get?_job
    rw [← hrv, Option.some.inj (hr.symm.trans loaded.get?_rendition)]
  refine completedRenditions_eq_nil_of fun p hp hdone => ?_
  obtain ⟨q, hq, rfl⟩ := List.mem_map.mp hp
  by_cases hrid : q.1 = loaded.job.renditionId
  · rw [if_pos hrid] at hdone
    cases hdone
  · rw [if_neg hrid] at hdone
    obtain ⟨jid, job, hj, -, hv, hpair⟩ := h.exists_job (show (q.1, q.2) ∈ _ from hq)
    rw [hdone] at hpair
    have hstatus : job.status = .done := by
      generalize hs : job.status = s at hpair
      cases hpair
      rfl
    have hpos := h.budget.tried jid job hj (Or.inr hstatus)
    rw [h.budget.uniform jid _ job _ hj loaded.get?_job (by rw [hv, hvid]), hzero] at hpos
    exact absurd hpos (lt_irrefl 0)

/-! ### The condition on the operations -/

/-- A success brings the key of its rendition's playlist, as the worker does. -/
def usesPlaylistKey (db : Db) : Op → Bool
  | .markEncodingJobSucceeded jobId _ outputPath _ _ _ =>
    match getJobForUpdate db jobId with
    | .error _ => true
    | .ok loaded =>
      match buildHlsPlaylistKey loaded.rendition.videoId loaded.rendition.resolution with
      | .error _ => false
      | .ok key => outputPath = some key
  | _ => true

/-- Whether a batch of the reaper fails a rendition: its job is in the batch and
has no attempt left. -/
def batchFails (db : Db) (stale : List UUID) (rid : UUID) : Bool :=
  db.jobs.rows.any fun q => q.2.renditionId = rid && stale.contains q.1 && !shouldRetry q.2

/-- A batch of the reaper does not end a video that has a completed rendition: it
leaves one of its active renditions active, unless it has none. -/
def reaperLeavesWork (db : Db) : Op → Bool
  | .reapStaleEncodingJobs _ staleBefore limit locked _ _ =>
    db.videos.rows.all fun v =>
      !((db.renditionsOf v.1).any fun p => p.2.status = .done) ||
      !hasActiveRenditions (db.renditionsOf v.1) ||
      (db.renditionsOf v.1).any fun p =>
        p.2.status.isActive && !batchFails db (staleJobs db staleBefore limit locked) p.1
  | _ => true

/-- The condition on the operations of a run: successes bring their playlist's
key, and no batch of the reaper ends a video that has a completed rendition. -/
def keepsPlaylists (r : Run) (op : Op) : Prop :=
  usesPlaylistKey r.world.db op = true ∧ reaperLeavesWork r.world.db op = true

instance (r : Run) (op : Op) : Decidable (keepsPlaylists r op) := by
  rw [keepsPlaylists]
  exact inferInstance

theorem batchFails_eq_true {db : Db} {stale : List UUID} {jid : UUID} {job : Job}
    (hj : db.jobs.get? jid = some job) (hmem : jid ∈ stale) (hretry : shouldRetry job = false) :
    batchFails db stale job.renditionId = true := by
  rw [batchFails, List.any_eq_true]
  refine ⟨(jid, job), Table.get?_eq_some_iff.mp hj, ?_⟩
  simp [hmem, hretry]

theorem exists_active_of_reaperLeavesWork {db : Db} {settings : Settings}
    {staleBefore now : Timestamp} {limit : ℕ} {locked : UUID → Bool} {newId : UUID → UUID}
    (h : reaperLeavesWork db
      (.reapStaleEncodingJobs settings staleBefore limit locked newId now) = true)
    {vid : UUID} {video : Video} (hv : db.videos.get? vid = some video)
    (hdone : ∃ p ∈ db.renditionsOf vid, p.2.status = .done)
    (hactive : hasActiveRenditions (db.renditionsOf vid) = true) :
    ∃ p ∈ db.renditionsOf vid, p.2.status.isActive = true ∧
      batchFails db (staleJobs db staleBefore limit locked) p.1 = false := by
  have hrow := List.all_eq_true.mp h (vid, video) (Table.get?_eq_some_iff.mp hv)
  have hany : (db.renditionsOf vid).any (fun p => decide (p.2.status = .done)) = true := by
    rw [List.any_eq_true]
    obtain ⟨p, hp, hs⟩ := hdone
    exact ⟨p, hp, by simpa using hs⟩
  simp only [hany, hactive, Bool.not_true, Bool.false_or] at hrow
  rw [List.any_eq_true] at hrow
  obtain ⟨p, hp, hcond⟩ := hrow
  rw [Bool.and_eq_true, Bool.not_eq_true'] at hcond
  exact ⟨p, hp, hcond⟩

/-! ### Every operation keeps it -/

/-- The reaper is the one operation that settles more than one job. -/
def Op.isReap : Op → Bool
  | .reapStaleEncodingJobs _ _ _ _ _ _ => true
  | _ => false

/-- A worker that concludes its job settles within the scope of publishing. -/
theorem markScope_within {w : World} {jobId : UUID} {workerId : String} {outcomes : Outcome → Prop}
    {db : Db} {loaded : LoadedJob db} {o : Outcome} {publication : Option Publication}
    (h : (markScope w.db jobId workerId outcomes).settles db loaded o publication)
    (hdone : ∀ outputPath now, o = .done outputPath now → ∃ key, outputPath = some key ∧
      buildHlsPlaylistKey loaded.rendition.videoId loaded.rendition.resolution = .ok key) :
    (publishScope AlwaysDue).settles db loaded o publication := by
  refine ⟨hdone, ?_⟩
  rintro rfl hover -
  obtain ⟨-, -, -, -, hsome | ⟨error, now, nextRunAt, rfl⟩⟩ := h
  · cases hsome
  · rw [hasActiveRenditions_settled rfl] at hover
    cases hover

/-- **Apart from the reaper, an operation settles within the scope of publishing.** -/
theorem Sound.within {w : World} {granted : List UUID} (h : Sound w granted) {op : Op}
    (hpath : usesPlaylistKey w.db op = true) (hreap : op.isReap = false) {db : Db}
    {loaded : LoadedJob db} {o : Outcome} {publication : Option Publication}
    (hscope : (op.scope w).settles db loaded o publication) (henabled : o.Enabled loaded.job) :
    (publishScope AlwaysDue).settles db loaded o publication := by
  cases op with
  | claimEncodingJob jobId videoId renditionId workerId checkedAt now =>
    obtain ⟨rfl, -, rfl, rfl | rfl⟩ := hscope
    · exact ⟨nofun, fun _ _ _ => h.exhausted henabled⟩
    · refine ⟨nofun, fun _ hover _ => ?_⟩
      rw [hasActiveRenditions_settled rfl] at hover
      cases hover
  | markEncodingJobSucceeded jobId workerId path metadata now uploadOk =>
    refine markScope_within hscope ?_
    rintro outputPath now' rfl
    obtain ⟨rfl, rfl, -, ho, -⟩ := hscope
    obtain ⟨rfl, -⟩ : outputPath = path ∧ now' = now := by simpa using ho
    have hload := getJobForUpdate_eq_ok loaded.get?_job loaded.get?_rendition loaded.get?_video
    simp only [usesPlaylistKey, hload] at hpath
    split at hpath
    · cases hpath
    · rename_i key hkey
      exact ⟨key, by simpa using hpath, hkey⟩
  | markEncodingJobSkipped jobId reason workerId metadata now uploadOk =>
    refine markScope_within hscope ?_
    rintro outputPath now' rfl
    obtain ⟨-, -, -, ho, -⟩ := hscope
    cases ho
  | markEncodingJobFailed settings jobId error workerId newId now uploadOk =>
    refine markScope_within hscope ?_
    rintro outputPath now' rfl
    obtain ⟨-, -, -, ho, -⟩ := hscope
    rcases ho with ⟨nextRunAt, ho⟩ | ho <;> cases ho
  | reapStaleEncodingJobs => cases hreap
  | _ => exact absurd hscope id

/-! ### A batch of the reaper -/

/-- What a batch keeps of the renditions it has found: no more of them are
completed than before, and an active one stays active unless the batch fails it. -/
structure BatchKeeps (db₀ : Db) (stale : List UUID) (db : Db) : Prop where
  shape : SameShape db₀ db
  done : ∀ rid r, db.renditions.get? rid = some r → r.status = .done →
    ∃ r₀, db₀.renditions.get? rid = some r₀ ∧ r₀.status = .done
  active : ∀ rid r₀, db₀.renditions.get? rid = some r₀ → r₀.status.isActive = true →
    batchFails db₀ stale rid = false → ∃ r, db.renditions.get? rid = some r ∧
      r.status.isActive = true

theorem BatchKeeps.refl (db₀ : Db) (stale : List UUID) : BatchKeeps db₀ stale db₀ :=
  ⟨SameShape.refl db₀, fun _ r hr hdone => ⟨r, hr, hdone⟩, fun _ r hr hactive _ => ⟨r, hr, hactive⟩⟩

theorem BatchKeeps.settled {db₀ : Db} {stale : List UUID} {db db' : Db}
    (h : BatchKeeps db₀ stale db) (hl : db.Linked) {loaded : LoadedJob db} {o : Outcome}
    {publication : Option Publication}
    (hscope : (reapScope db₀ stale).settles db loaded o publication)
    (hs : Settled loaded o publication db') : BatchKeeps db₀ stale db' where
  shape := h.shape.trans (hs.sameShape hl.toReferenced)
  done := by
    intro rid r hr hdone
    by_cases hrid : rid = loaded.job.renditionId
    · rw [hrid, hs.get?_rendition_self, Option.some.injEq] at hr
      subst hr
      obtain ⟨-, -, -, ⟨-, now, next, rfl⟩ | ⟨-, now, rfl⟩⟩ := hscope <;> cases hdone
    · rw [hs.get?_rendition_of_ne hrid] at hr
      exact h.done rid r hr hdone
  active := by
    intro rid r₀ hr₀ hactive hfails
    by_cases hrid : rid = loaded.job.renditionId
    · subst hrid
      obtain ⟨hmem, hjob, -, ⟨-, now, next, rfl⟩ | ⟨hretry, -⟩⟩ := hscope
      · exact ⟨_, hs.get?_rendition_self, rfl⟩
      · rw [batchFails_eq_true hjob hmem hretry] at hfails
        cases hfails
    · rw [hs.get?_rendition_of_ne hrid]
      exact h.active rid r₀ hr₀ hactive hfails

/-- **A batch that leaves work settles within the scope of publishing.** -/
theorem BatchKeeps.within {db₀ : Db} {stale : List UUID} {w : World} (h₀ : db₀.Coherent)
    (hb : BatchKeeps db₀ stale w.db)
    (hwork : ∀ vid video, db₀.videos.get? vid = some video →
      (∃ p ∈ db₀.renditionsOf vid, p.2.status = .done) →
      hasActiveRenditions (db₀.renditionsOf vid) = true →
      ∃ p ∈ db₀.renditionsOf vid, p.2.status.isActive = true ∧ batchFails db₀ stale p.1 = false)
    {loaded : LoadedJob w.db} {o : Outcome} {publication : Option Publication}
    (hscope : (reapScope db₀ stale).settles w.db loaded o publication)
    (henabled : o.Enabled loaded.job) :
    (publishScope AlwaysDue).settles w.db loaded o publication := by
  obtain ⟨hmem, hjob, rfl, ho⟩ := hscope
  refine ⟨fun outputPath now he => ?_, fun _ hover _ => ?_⟩
  · rcases ho with ⟨-, now, next, rfl⟩ | ⟨-, now, rfl⟩ <;> cases he
  rcases ho with ⟨-, now, next, rfl⟩ | ⟨hretry, now, rfl⟩
  · rw [hasActiveRenditions_settled rfl] at hover
    cases hover
  -- the last rendition of its video: the video has no completed one, or the batch
  -- has left some work on it
  refine completedRenditions_eq_nil_of fun p hp hdone => ?_
  obtain ⟨q, hq, rfl⟩ := List.mem_map.mp hp
  by_cases hrid : q.1 = loaded.job.renditionId
  · rw [if_pos hrid] at hdone
    cases hdone
  rw [if_neg hrid] at hdone
  obtain ⟨hqget, hqv⟩ := Db.mem_renditionsOf.mp (show (q.1, q.2) ∈ _ from hq)
  obtain ⟨r₀, hr₀, hdone₀⟩ := hb.done q.1 q.2 hqget hdone
  obtain ⟨r₀', hr₀', hv₀, -⟩ := hb.shape.symm.get?_rendition hqget
  obtain rfl : r₀' = r₀ := Option.some.inj (hr₀'.symm.trans hr₀)
  obtain ⟨video, hvideo, -⟩ := hb.shape.symm.get?_video loaded.get?_video
  -- the rendition of the settled job was active when the batch began
  obtain ⟨s₀, hs₀, hpair⟩ := h₀.paired _ _ hjob
  obtain ⟨s₀', hs₀', hsv₀, -⟩ := hb.shape.symm.get?_rendition loaded.get?_rendition
  obtain rfl : s₀' = s₀ := Option.some.inj (hs₀'.symm.trans hs₀)
  have hactive₀ : hasActiveRenditions (db₀.renditionsOf loaded.rendition.videoId) = true :=
    hasActiveRenditions_eq_true_iff.mpr
      ⟨(loaded.job.renditionId, s₀'), Db.mem_renditionsOf.mpr ⟨hs₀, hsv₀⟩,
        by rw [hpair.isActive, henabled.isActive]⟩
  obtain ⟨⟨rid, r⟩, hr, hractive, hrfails⟩ := hwork _ _ hvideo
    ⟨(q.1, r₀'), Db.mem_renditionsOf.mpr ⟨hr₀, by rw [hv₀, hqv]⟩, hdone₀⟩ hactive₀
  obtain ⟨hrget, hrv⟩ := Db.mem_renditionsOf.mp hr
  obtain ⟨r', hr', hr'active⟩ := hb.active rid r hrget hractive hrfails
  obtain ⟨r'', hr'', hr''v, -⟩ := hb.shape.get?_rendition hrget
  obtain rfl : r'' = r' := Option.some.inj (hr''.symm.trans hr')
  have hne : rid ≠ loaded.job.renditionId := by
    rintro rfl
    rw [batchFails_eq_true hjob hmem hretry] at hrfails
    cases hrfails
  have hstill : hasActiveRenditions (settledRenditions loaded
      (.failed heartbeatTimedOut now)) = true := by
    refine hasActiveRenditions_eq_true_iff.mpr ⟨_, List.mem_map.mpr
      ⟨(rid, r''), Db.mem_renditionsOf.mpr ⟨hr', by rw [hr''v, hrv]⟩, rfl⟩, ?_⟩
    rw [if_neg hne]
    exact hr'active
  rw [hstill] at hover
  cases hover

/-! ### Runs -/

theorem Sound.reap {w : World} {granted : List UUID} (h : Sound w granted) {settings : Settings}
    {staleBefore now : Timestamp} {limit : ℕ} {locked : UUID → Bool} {newId : UUID → UUID}
    (hwork : reaperLeavesWork w.db
      (.reapStaleEncodingJobs settings staleBefore limit locked newId now) = true) :
    Sound ((Op.reapStaleEncodingJobs settings staleBefore limit locked newId now).exec w).1
      (granted ++
        ((Op.reapStaleEncodingJobs settings staleBefore limit locked newId now).exec w).2) := by
  simp only [Op.exec]
  split
  · rename_i db' count hr
    obtain ⟨es, hes, -, hg⟩ := reap_chain hr
    have key := hes.keep_log (I := fun w₁ log => Sound w₁ (granted ++ grantedJobs log) ∧
        BatchKeeps w.db (staleJobs w.db staleBefore limit locked) w₁.db) (l := [])
      (fun w₁ e w₂ log hi hm => by
        refine ⟨?_, ?_⟩
        · rw [grantedJobs_append, ← List.append_assoc]
          refine (hm.move.mono (fun _ _ _ hs he => hi.2.within h.coherent ?_ hs he)
            (fun _ _ => trivial) fun _ => trivial).sound hi.1
          exact fun vid video hv => exists_active_of_reaperLeavesWork hwork hv
        · cases hm with
          | intro hscope hs => exact hi.2.settled hi.1.linked hscope hs)
      ⟨by simpa using h, BatchKeeps.refl _ _⟩
    have hsound := key.1
    rw [List.nil_append, hg] at hsound
    exact hsound
  · simpa using h

/-- **Every operation that keeps to the condition keeps the run sound.** -/
theorem Sound.exec {w : World} {granted : List UUID} (h : Sound w granted) {op : Op}
    (hpath : usesPlaylistKey w.db op = true) (hwork : reaperLeavesWork w.db op = true) :
    Sound (op.exec w).1 (granted ++ (op.exec w).2) := by
  cases hreap : op.isReap with
  | false =>
    obtain ⟨es, hes, hg⟩ := op.exec_chain h.linked
    have key := hes.keep_log (I := fun w log => Sound w (granted ++ grantedJobs log)) (l := [])
      (fun w₁ e w₂ log hi hm => by
        rw [grantedJobs_append, ← List.append_assoc]
        exact (hm.mono (fun _ _ _ hs he => h.within hpath hreap hs he)
          (fun _ _ => trivial) fun _ => trivial).sound hi)
      (by simpa using h)
    rw [hg]
    simpa using key
  | true =>
    cases op with
    | reapStaleEncodingJobs settings staleBefore limit locked newId now =>
      exact h.reap hwork
    | _ => cases hreap

theorem ReachableRun.sound {r : Run} (h : ReachableRun keepsPlaylists r) :
    Sound r.world r.granted := by
  refine Reaches.invariant (I := fun r => Sound r.world r.granted) ?_ ?_ h
  · rintro _ rfl
    exact Sound.empty
  · rintro s op _ hi ⟨hpath, hwork⟩ ⟨⟩
    exact hi.exec hpath hwork

/-- The completed renditions of a list, as entries of a master playlist. -/
def doneRenditions (renditions : List (UUID × Rendition)) : List MasterPlaylistRendition :=
  (renditions.filter fun p => p.2.status = .done).map fun p =>
    ⟨p.2.resolution, p.2.outputPath.getD ""⟩

/-- **The master playlist is published once all work is over**: a video whose
renditions are all done, skipped or failed has its master key as the playback
path, and there the playlist of exactly the renditions that are done – or no
playback path, if none is. -/
def PlaylistsPublished (w : World) : Prop :=
  ∀ vid video, w.db.videos.get? vid = some video →
    (∀ p ∈ w.db.renditionsOf vid, p.2.status.isTerminal = true) →
    ((∃ p ∈ w.db.renditionsOf vid, p.2.status = .done) →
      video.playbackPath = some (buildHlsMasterKey vid) ∧
      ∃ playlist, buildHlsMasterPlaylist vid (doneRenditions (w.db.renditionsOf vid)) =
          .ok playlist ∧
        w.bucket (buildHlsMasterKey vid) = some (masterObject playlist)) ∧
    ((∀ p ∈ w.db.renditionsOf vid, p.2.status ≠ .done) → video.playbackPath = none)

/-- Where every done rendition has an output path, the completed renditions are
the done ones. -/
theorem completedRenditions_eq_doneRenditions {renditions : List (UUID × Rendition)}
    (h : ∀ p ∈ renditions, p.2.status = .done → p.2.outputPath.isSome) :
    completedRenditions renditions = doneRenditions renditions := by
  induction renditions with
  | nil => rfl
  | cons p renditions ih =>
    have hrest := ih fun q hq => h q (by simp [hq])
    unfold completedRenditions doneRenditions at hrest ⊢
    by_cases hp : p.2.status = .done
    · obtain ⟨path, hpath⟩ := Option.isSome_iff_exists.mp (h p (by simp) hp)
      simp [completedRendition, hp, hpath, hrest]
    · simp [completedRendition, hp, hrest]

theorem isActive_eq_false_of_isTerminal {s : ProcessingStatus} (h : s.isTerminal = true) :
    s.isActive = false := by
  cases s <;> first | rfl | cases h

theorem hasActiveRenditions_eq_false_of_isTerminal {renditions : List (UUID × Rendition)}
    (h : ∀ p ∈ renditions, p.2.status.isTerminal = true) :
    hasActiveRenditions renditions = false := by
  rw [hasActiveRenditions, List.any_eq_false]
  intro p hp
  rw [isActive_eq_false_of_isTerminal (h p hp)]
  exact Bool.false_ne_true

/-- Up-to-date publications are published playlists. -/
theorem PublicationState.playlistsPublished {w : World} (h : PublicationState AlwaysDue w) :
    PlaylistsPublished w := by
  intro vid video hv hterminal
  by_cases hne : w.db.renditionsOf vid = []
  · -- a video that is not uploaded yet
    refine ⟨?_, fun _ => h.path_none vid video hv (Or.inr hne)⟩
    rintro ⟨p, hp, -⟩
    rw [hne] at hp
    cases hp
  have hover := hasActiveRenditions_eq_false_of_isTerminal hterminal
  obtain ⟨hnone, hsome⟩ := h.published vid video hv hne hover trivial
  have hpaths : ∀ p ∈ w.db.renditionsOf vid, p.2.status = .done → p.2.outputPath.isSome := by
    intro p hp hdone
    obtain ⟨key, -, hkey⟩ :=
      h.outputPath p.1 p.2 (Db.mem_renditionsOf.mp (show (p.1, p.2) ∈ _ from hp)).1 hdone
    rw [hkey]
    rfl
  rw [completedRenditions_eq_doneRenditions hpaths] at hnone hsome
  refine ⟨?_, ?_⟩
  · rintro ⟨p, hp, hdone⟩
    refine hsome (List.ne_nil_of_mem (List.mem_map.mpr
      ⟨p, List.mem_filter.mpr ⟨hp, by simpa using hdone⟩, rfl⟩))
  · intro hall
    refine hnone ?_
    rw [doneRenditions, List.map_eq_nil_iff, List.filter_eq_nil_iff]
    exact fun p hp => by simpa using hall p hp

/-- **In every run whose batches of the reaper leave work on the videos with a
completed rendition, the master playlist is published once all work is over.** -/
theorem playlist_published {r : Run} (h : ReachableRun keepsPlaylists r) :
    PlaylistsPublished r.world :=
  h.sound.publications.playlistsPublished

/-- The path a worker brings for a rendition of the first video. -/
def samplePath (resolution : String) : Option String :=
  some ("hls/" ++ (sampleId 0).str ++ "/" ++ resolution ++ "/index.m3u8")

/-- The first rendition is completed, the four after it are skipped. -/
def sampleWork : List Op :=
  [.claimEncodingJob (sampleId 11) (sampleId 0) (sampleId 10) "worker" 2 2,
    .markEncodingJobSucceeded (sampleId 11) "worker" (samplePath "1080p") none 3 true,
    .claimEncodingJob (sampleId 13) (sampleId 0) (sampleId 12) "worker" 4 4,
    .markEncodingJobSkipped (sampleId 13) "too large" "worker" none 5 true,
    .claimEncodingJob (sampleId 15) (sampleId 0) (sampleId 14) "worker" 4 4,
    .markEncodingJobSkipped (sampleId 15) "too large" "worker" none 5 true,
    .claimEncodingJob (sampleId 17) (sampleId 0) (sampleId 16) "worker" 4 4,
    .markEncodingJobSkipped (sampleId 17) "too large" "worker" none 5 true,
    .claimEncodingJob (sampleId 19) (sampleId 0) (sampleId 18) "worker" 4 4,
    .markEncodingJobSkipped (sampleId 19) "too large" "worker" none 5 true,
    .claimEncodingJob (sampleId 21) (sampleId 0) (sampleId 20) "worker" 6 6]

set_option maxRecDepth 1000 in
/-- The worker ends the last rendition, and the playlist is there. -/
theorem playlist_published_by_worker :
    ∃ r, ReachableRun keepsPlaylists r ∧
      hasActiveRenditions (r.world.db.renditionsOf (sampleId 0)) = false ∧
      PlaylistsPublished r.world := by
  obtain ⟨r, hr⟩ : ∃ r, guardedRun Run.step keepsPlaylists Run.start
      (sampleUpload ++ sampleWork ++
        [.markEncodingJobSkipped (sampleId 21) "too large" "worker" none 7 true]) = some r :=
    ⟨_, rfl⟩
  have hstart : ReachableRun keepsPlaylists Run.start := Reaches.start rfl
  have hreach := hstart.of_guardedRun hr
  refine ⟨r, hreach, ?_, playlist_published hreach⟩
  obtain rfl := Option.some.inj hr
  rfl

/-- The worker of the last rendition stops three times, and is reaped. -/
def sampleReaping : List Op :=
  [.reapStaleEncodingJobs sampleSettings 7 5 (fun _ => false) id 8,
    .claimEncodingJob (sampleId 21) (sampleId 0) (sampleId 20) "worker" 40000000 40000000,
    .reapStaleEncodingJobs sampleSettings 40000001 5 (fun _ => false) id 40000002,
    .claimEncodingJob (sampleId 21) (sampleId 0) (sampleId 20) "worker" 80000000 80000000,
    .reapStaleEncodingJobs sampleSettings 80000001 5 (fun _ => false) id 80000002]

/-- **The reaper ends a video without publishing it.** One rendition is done,
four are skipped, and the worker of the sixth stops on its third and last
attempt: the reaper fails it, the video is over, and it has no playlist. -/
theorem reaped_without_playlist :
    ¬ ∀ r, ReachableRun (fun r op => usesPlaylistKey r.world.db op = true) r →
      PlaylistsPublished r.world := by
  intro h
  obtain ⟨r, hr⟩ : ∃ r, guardedRun Run.step (fun r op => usesPlaylistKey r.world.db op = true)
      Run.start (sampleUpload ++ sampleWork ++ sampleReaping) = some r := ⟨_, rfl⟩
  have hstart : ReachableRun (fun r op => usesPlaylistKey r.world.db op = true) Run.start :=
    Reaches.start rfl
  have hpublished := h r (hstart.of_guardedRun hr)
  obtain rfl := Option.some.inj hr
  have hterminal := List.all_eq_true.mp (show ((Run.start.exec
    (sampleUpload ++ sampleWork ++ sampleReaping)).world.db.renditionsOf (sampleId 0)).all
      (fun p => p.2.status.isTerminal) = true from rfl)
  have hdone := List.any_eq_true.mp (show ((Run.start.exec
    (sampleUpload ++ sampleWork ++ sampleReaping)).world.db.renditionsOf (sampleId 0)).any
      (fun p => decide (p.2.status = .done)) = true from rfl)
  obtain ⟨p, hp, hs⟩ := hdone
  have hpath := ((hpublished (sampleId 0) _ rfl hterminal).1
    ⟨p, hp, by simpa using hs⟩).1
  cases hpath

end RenditionPipeline
