import RenditionPipeline.Runs.Polling
import RenditionPipeline.System.Playback

/-!
# Finished videos

The detail page of a video asks for its state until it is done, and plays it from then on
by the answers of the playback routes, each of which reads the rows anew. Nothing locks
the rows of a video that is done: duplicates of its messages are still delivered, workers
that have lost their claims go on, the reaper and the outbox pass over its jobs.

All of them leave it alone. Once no rendition of a video is active, no move changes the
video, its renditions or its jobs (`RenditionPipeline.Move.sameVideo`), so that what the
API says of it is final (`RenditionPipeline.finished_video_stays`).
-/

namespace RenditionPipeline

/-- **The work of a video is over**: it has renditions, and none of them is active. -/
structure Db.Finished (db : Db) (videoId : UUID) : Prop where
  nonempty : db.renditionsOf videoId ≠ []
  idle : ∀ p ∈ db.renditionsOf videoId, p.2.status.isActive = false

/-- The rows of a video are the same in two databases: its own, those of its renditions
and those of their jobs. -/
structure SameVideo (videoId : UUID) (db db' : Db) : Prop where
  video : db'.videos.get? videoId = db.videos.get? videoId
  renditions : db'.renditionsOf videoId = db.renditionsOf videoId
  jobs : ∀ jid job, db.jobs.get? jid = some job →
    (∃ r, (job.renditionId, r) ∈ db.renditionsOf videoId) → db'.jobs.get? jid = some job

theorem SameVideo.refl (videoId : UUID) (db : Db) : SameVideo videoId db db :=
  ⟨rfl, rfl, fun _ _ hj _ => hj⟩

theorem SameVideo.trans {videoId : UUID} {db db' db'' : Db} (h : SameVideo videoId db db')
    (h' : SameVideo videoId db' db'') : SameVideo videoId db db'' where
  video := h'.video.trans h.video
  renditions := h'.renditions.trans h.renditions
  jobs := fun jid job hj hr => h'.jobs jid job (h.jobs jid job hj hr) (by rwa [h.renditions])

theorem Db.Finished.of_sameVideo {videoId : UUID} {db db' : Db} (h : db.Finished videoId)
    (hsame : SameVideo videoId db db') : db'.Finished videoId :=
  ⟨by rw [hsame.renditions]; exact h.nonempty, by rw [hsame.renditions]; exact h.idle⟩

/-! ### The moves leave a finished video alone -/

section Moves

variable {db : Db} {videoId : UUID}

/-- The open upload of another video is not that of a finished one. -/
theorem Db.Finished.ne_of_openUpload (h : db.Finished videoId) (hl : db.Linked) {vid sid : UUID}
    {video : Video} {session : UploadSession} (hopen : OpenUpload db vid sid video session) :
    videoId ≠ vid := by
  rintro rfl
  exact h.nonempty (hopen.renditionsOf_eq_nil hl)

/-- The jobs of a finished video are over. -/
theorem Db.Finished.job_idle (h : db.Finished videoId) (hc : db.Coherent) {jid : UUID} {job : Job}
    {r : Rendition} (hj : db.jobs.get? jid = some job)
    (hr : (job.renditionId, r) ∈ db.renditionsOf videoId) :
    db.renditions.get? job.renditionId = some r ∧ job.status.isActive = false := by
  obtain ⟨hget, -⟩ := Db.mem_renditionsOf.mp hr
  obtain ⟨r', hr', hpaired⟩ := hc.paired jid job hj
  obtain rfl : r = r' := Option.some.inj (hget.symm.trans hr')
  exact ⟨hget, by rw [← hpaired.isActive]; exact h.idle _ hr⟩

/-- **Nothing is settled for a finished video.** -/
theorem Db.Finished.ne_of_settled (h : db.Finished videoId) (hc : db.Coherent)
    {loaded : LoadedJob db} {o : Outcome} {publication : Option Publication} {db' : Db}
    (hs : Settled loaded o publication db') : videoId ≠ loaded.rendition.videoId := by
  rintro rfl
  have hmem : (loaded.job.renditionId, loaded.rendition) ∈
      db.renditionsOf loaded.rendition.videoId :=
    Db.mem_renditionsOf.mpr ⟨loaded.get?_rendition, rfl⟩
  have hidle := h.idle _ hmem
  rw [hs.isActive_rendition hc] at hidle
  cases hidle

/-- **Every move leaves a finished video alone.** -/
theorem Move.sameVideo {scope : Scope} {w w' : World} {e : List Settlement}
    (hm : Move scope w e w') (hl : w.db.Linked) (hc : w.db.Coherent)
    (h : w.db.Finished videoId) : SameVideo videoId w.db w'.db := by
  have hjobs : ∀ jid job, w.db.jobs.get? jid = some job →
      (∃ r, (job.renditionId, r) ∈ w.db.renditionsOf videoId) →
        w'.db.jobs.get? jid = some job := by
    rintro jid job hj ⟨r, hr⟩
    obtain ⟨hget, hidle⟩ := h.job_idle hc hj hr
    exact (hm.frozen hl hj hget hidle).1
  refine ⟨?_, ?_, hjobs⟩
  · cases hm with
    | settled _ hs => exact hs.get?_video_of_ne (h.ne_of_settled hc hs)
    | created hvideo hsession _ _ _ _ =>
      obtain ⟨video, hv, -⟩ := hl.exists_video h.nonempty
      exact (Table.get?_insert_of_some hv _ hvideo).trans hv.symm
    | completed _ hopen hcompleted =>
      rw [hcompleted.videos, Table.get?_modify_of_ne (h.ne_of_openUpload hl hopen)]
    | aborted now _ hopen => exact Table.get?_modify_of_ne (h.ne_of_openUpload hl hopen) _ _
    | heartbeat _ _ _ => rfl
    | outbox _ _ => rfl
    | uploadFailed _ _ _ => rfl
  · cases hm with
    | settled _ hs => exact hs.renditionsOf_of_ne (h.ne_of_settled hc hs)
    | completed _ hopen hcompleted =>
      exact hcompleted.renditionsOf_of_ne (h.ne_of_openUpload hl hopen)
    | created _ _ _ _ _ _ => rfl
    | aborted _ _ _ => rfl
    | heartbeat _ _ _ => rfl
    | outbox _ _ => rfl
    | uploadFailed _ _ _ => rfl

end Moves

/-! ### Runs -/

/-- **A step of the system leaves a finished video alone.** -/
theorem System.sameVideo_of_step {guard : System → Action → Prop} {s s' : System} {a : Action}
    {videoId : UUID} (hs : ReachableSystem guard s) (h : s.db.Finished videoId)
    (hstep : s.step a = some s') : SameVideo videoId s.db s'.db := by
  obtain ⟨t, ht, rfl⟩ := System.step_cases hstep
  have hkeep := ht.keep_db (I := fun db => db.Coherent ∧ SameVideo videoId s.db db) hs.linked
    (fun w e w' hl hw hm => ⟨hm.coherent hl hw.1,
      hw.2.trans (hm.sameVideo hl hw.1 (h.of_sameVideo hw.2))⟩)
    ⟨hs.coherent, SameVideo.refl videoId s.db⟩
  exact hkeep.2

/-- What the API says of a video is read off its rows. -/
theorem SameVideo.answers {videoId : UUID} {db db' : Db} (h : SameVideo videoId db db') :
    getVideoState db' videoId = getVideoState db videoId ∧
    (∀ sign url now expires, getVideoPlayback db' sign videoId url now expires =
      getVideoPlayback db sign videoId url now expires) ∧
    ∀ variantUrl, buildPlaybackMasterPlaylist db' videoId variantUrl =
      buildPlaybackMasterPlaylist db videoId variantUrl := by
  refine ⟨?_, fun sign url now expires => ?_, fun variantUrl => ?_⟩
  · rw [getVideoState, getVideoState, h.video, h.renditions]
  · rw [getVideoPlayback, getVideoPlayback, h.video, h.renditions]
  · rw [buildPlaybackMasterPlaylist, buildPlaybackMasterPlaylist, h.video, h.renditions]

/-- A video that is done is finished. -/
theorem ReachableSystem.finished_of_done {guard : System → Action → Prop} {s : System}
    (hs : ReachableSystem guard s) {videoId : UUID} {video : Video}
    (hv : s.db.videos.get? videoId = some video) (hdone : video.status = .done) :
    s.db.Finished videoId := by
  have hne : s.db.renditionsOf videoId ≠ [] := fun hnil =>
    hs.idleNotDone videoId video hv hnil hdone
  have hderived := hs.coherent.derived videoId video hv hne
  rw [hdone] at hderived
  obtain ⟨-, hall⟩ := deriveVideoStatus_eq_done hderived.symm
  refine ⟨hne, fun p hp => ?_⟩
  rcases hall p.2.status (List.mem_map.mpr ⟨p, hp, rfl⟩) with hstatus | hstatus
  · rw [hstatus]
    rfl
  · rw [hstatus]
    rfl

/-- **What the API says of a finished video is final.** From the moment a video is done,
or is given up with none of its renditions active, every run of the system – redelivered
messages, stale workers, reapers and passes included – leaves its row, its renditions and
their jobs as they are, and with them the state, the playback and the master playlist that
the API answers. -/
theorem finished_video_stays {guard : System → Action → Prop} [∀ s a, Decidable (guard s a)]
    {s s' : System} {as : List Action} (hs : ReachableSystem guard s)
    (hrun : guardedRun System.step guard s as = some s') {videoId : UUID}
    (hover : s.db.Finished videoId ∨
      ∃ video, s.db.videos.get? videoId = some video ∧ video.status = .done) :
    SameVideo videoId s.db s'.db ∧
    getVideoState s'.db videoId = getVideoState s.db videoId ∧
    (∀ sign url now expires, getVideoPlayback s'.db sign videoId url now expires =
      getVideoPlayback s.db sign videoId url now expires) ∧
    ∀ variantUrl, buildPlaybackMasterPlaylist s'.db videoId variantUrl =
      buildPlaybackMasterPlaylist s.db videoId variantUrl := by
  have hfinished : s.db.Finished videoId := by
    rcases hover with h | ⟨video, hv, hdone⟩
    · exact h
    · exact hs.finished_of_done hv hdone
  suffices hsame : SameVideo videoId s.db s'.db from ⟨hsame, hsame.answers⟩
  induction as generalizing s with
  | nil =>
    obtain rfl : s = s' := by simpa [guardedRun] using hrun
    exact SameVideo.refl videoId s.db
  | cons a as ih =>
    obtain ⟨hg, t, ht, hrest⟩ := guardedRun_cons_iff.mp hrun
    have hsame := System.sameVideo_of_step hs hfinished ht
    have hfinished' := hfinished.of_sameVideo hsame
    exact hsame.trans (ih (Reaches.step hs hg ht) hrest (Or.inl hfinished') hfinished')

set_option maxRecDepth 2000 in
/-- A pass sends a message and is rolled back, so that it is sent twice, and the second time
it comes when the video is done. -/
theorem finished_video_stays_duplicate :
    ∃ s s' video, ReachableSystem Unguarded s ∧ s.db.videos.get? (sampleId 0) = some video ∧
      video.status = .done ∧
      guardedRun System.step Unguarded s
        [.deliver "late" 0, .work "late" (.claim 5 5), .settle "late"] = some s' ∧
      getVideoState s'.db (sampleId 0) = getVideoState s.db (sampleId 0) := by
  obtain ⟨s', hrun⟩ : ∃ s', guardedRun System.step Unguarded System.start
      ((sampleUpload.map Action.request ++
        [.openPass 2 (.limit 1), .publish 0 (.ok 2) true, .abandonPass 0] ++ samplePublishing ++
          sampleEncoding ++ (List.replicate 5 sampleSkipping).flatten) ++
        [.deliver "late" 0, .work "late" (.claim 5 5), .settle "late"]) = some s' := ⟨_, rfl⟩
  obtain ⟨s, hs, hs'⟩ := guardedRun_append_iff.mp hrun
  have hstart : ReachableSystem Unguarded System.start := Reaches.start rfl
  have hreach := hstart.of_guardedRun hs
  obtain ⟨video, hv, hdone⟩ : ∃ video, s.db.videos.get? (sampleId 0) = some video ∧
      video.status = .done := by
    obtain rfl := Option.some.inj hs
    exact ⟨_, rfl, rfl⟩
  exact ⟨s, s', video, hreach, hv, hdone, hs',
    (finished_video_stays hreach hs' (Or.inr ⟨video, hv, hdone⟩)).2.1⟩

end RenditionPipeline
