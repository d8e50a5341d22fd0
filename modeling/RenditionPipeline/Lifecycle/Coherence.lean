import RenditionPipeline.Lifecycle.Moves

/-!
# The rows agree

A job, its rendition and their video are three rows that six functions rewrite by
hand, and nothing in the schema ties their columns together. They agree all the
same (`RenditionPipeline.Db.Coherent`): the statuses of a job and its rendition
are one of five pairs, owner and heartbeat are there exactly while the job runs,
a next run is scheduled only for a pending job, and the status of a video is the
one its renditions give.

An outcome is what decides the pair, so the invariant of a job and its rendition
is checked once for each outcome (`RenditionPipeline.Outcome.paired`,
`RenditionPipeline.Outcome.owned`) and carried through the moves.
-/

namespace RenditionPipeline

/-- The pairs of statuses of a job and its rendition. -/
inductive Paired : ProcessingStatus → ProcessingStatus → Prop
  | pending : Paired .pending .pending
  | running : Paired .running .running
  | failed : Paired .failed .failed
  | done : Paired .done .done
  | skipped : Paired .done .skipped

/-- The columns of a job agree with its status: the owner and the heartbeat are
there exactly while it runs, and a next run only while it is pending. -/
structure Job.Owned (job : Job) : Prop where
  workerId : job.workerId.isSome ↔ job.status = .running
  heartbeatAt : job.heartbeatAt.isSome ↔ job.status = .running
  nextRunAt : job.nextRunAt.isSome → job.status = .pending

/-- **The rows agree.** -/
structure Db.Coherent (db : Db) : Prop where
  paired : ∀ jid job, db.jobs.get? jid = some job →
    ∃ r, db.renditions.get? job.renditionId = some r ∧ Paired job.status r.status
  owned : ∀ jid job, db.jobs.get? jid = some job → job.Owned
  derived : ∀ vid video, db.videos.get? vid = some video → db.renditionsOf vid ≠ [] →
    video.status = deriveVideoStatus (statusesOf (db.renditionsOf vid))

/-! ### One check for each outcome -/

namespace Outcome

theorem paired (o : Outcome) (job : Job) (r : Rendition) :
    Paired (o.job job).status (o.rendition r).status := by
  cases o with
  | exhausted now => exact Paired.failed
  | running workerId now => exact Paired.running
  | done outputPath now => exact Paired.done
  | skipped reason now => exact Paired.skipped
  | retried error now nextRunAt => exact Paired.pending
  | failed error now => exact Paired.failed

theorem owned (o : Outcome) (job : Job) : (o.job job).Owned := by
  cases o <;> constructor <;>
    simp [Outcome.job, exhaustedJob, runningJob, doneJob, retriedJob, failedJob, clearJobOwner]

end Outcome

theorem newJob_owned (videoId renditionId : UUID) (maxAttempts : ℕ) :
    (newJob videoId renditionId maxAttempts).Owned := by
  constructor <;> simp [newJob]

/-! ### The moves keep it -/

theorem Db.Coherent.empty : Db.empty.Coherent where
  paired := fun _ _ h => by cases h
  owned := fun _ _ h => by cases h
  derived := fun _ _ h => by cases h

theorem Db.Coherent.heartbeat {db : Db} (h : db.Coherent) {jobId : UUID} {job : Job}
    (now : Timestamp) (hget : db.jobs.get? jobId = some job) (hrun : job.status = .running) :
    Db.Coherent { db with
      jobs := db.jobs.modify jobId fun job => { job with heartbeatAt := some now } } where
  paired := by
    intro jid job' hj
    rw [Table.get?_modify] at hj
    by_cases hid : jid = jobId
    · rw [if_pos hid, hid, hget, Option.map_some, Option.some.injEq] at hj
      obtain ⟨r, hr, hp⟩ := h.paired jobId job hget
      exact ⟨r, by rw [← hj]; exact hr, by rw [← hj]; exact hp⟩
    · rw [if_neg hid] at hj
      exact h.paired jid job' hj
  owned := by
    intro jid job' hj
    rw [Table.get?_modify] at hj
    by_cases hid : jid = jobId
    · rw [if_pos hid, hid, hget, Option.map_some, Option.some.injEq] at hj
      subst hj
      obtain ⟨hw, -, hn⟩ := h.owned jobId job hget
      exact ⟨hw, by simp [hrun], hn⟩
    · rw [if_neg hid] at hj
      exact h.owned jid job' hj
  derived := h.derived

/-- **Settling a job keeps the rows in agreement.** -/
theorem Db.Coherent.settled {db db' : Db} (h : db.Coherent) (hl : db.Linked)
    {loaded : LoadedJob db} {o : Outcome} {publication : Option Publication}
    (hs : Settled loaded o publication db') : db'.Coherent where
  paired := by
    intro jid job hj
    rcases hs.get?_job hj with ⟨-, rfl⟩ | ⟨hid, hj⟩
    · exact ⟨_, by rw [Outcome.job_renditionId]; exact hs.get?_rendition_self, o.paired _ _⟩
    · have hne : job.renditionId ≠ loaded.job.renditionId := fun he =>
        hid (hl.job_unique _ _ _ _ hj loaded.get?_job he)
      rw [hs.get?_rendition_of_ne hne]
      exact h.paired jid job hj
  owned := by
    intro jid job hj
    rcases hs.get?_job hj with ⟨-, rfl⟩ | ⟨-, hj⟩
    · exact o.owned _
    · exact h.owned jid job hj
  derived := by
    intro vid video hv hne
    by_cases hvid : vid = loaded.rendition.videoId
    · subst hvid
      obtain ⟨video', hv', hstatus, -⟩ := hs.get?_video_self
      obtain rfl : video' = video := Option.some.inj (hv'.symm.trans hv)
      exact hstatus
    · rw [hs.renditionsOf_of_ne hvid] at hne ⊢
      rw [hs.get?_video_of_ne hvid] at hv
      exact h.derived vid video hv hne

/-- A completed upload leaves a pending video with six pending renditions. -/
theorem Db.Coherent.completed {db db' : Db} (h : db.Coherent) {videoId sessionId : UUID}
    {maxAttempts : ℕ} {uploadedAt completedAt : Timestamp} {works : List Work}
    (hc : Completed db videoId sessionId maxAttempts uploadedAt completedAt works db')
    (hnone : db.renditionsOf videoId = []) : db'.Coherent where
  paired := by
    intro jid job hj
    rcases hc.get?_job.mp hj with hj | ⟨w, hw, rfl, rfl⟩
    · obtain ⟨r, hr, hp⟩ := h.paired jid job hj
      exact ⟨r, hc.get?_rendition.mpr (Or.inl hr), hp⟩
    · exact ⟨_, hc.get?_rendition.mpr (Or.inr ⟨w, hw, rfl, rfl⟩), Paired.pending⟩
  owned := by
    intro jid job hj
    rcases hc.get?_job.mp hj with hj | ⟨w, -, -, rfl⟩
    · exact h.owned jid job hj
    · exact newJob_owned _ _ _
  derived := by
    intro vid video hv hne
    by_cases hvid : vid = videoId
    · subst hvid
      have hstatuses : statusesOf (db'.renditionsOf vid) =
          defaultHlsRenditions.map fun _ => ProcessingStatus.pending := by
        rw [hc.renditionsOf_self hnone, ← hc.presets, statusesOf, List.map_map, List.map_map]
        rfl
      rw [hc.videos, Table.get?_modify_self, Option.map_eq_some_iff] at hv
      obtain ⟨v, -, rfl⟩ := hv
      rw [hstatuses]
      exact (by decide :
        ProcessingStatus.pending = deriveVideoStatus (defaultHlsRenditions.map fun _ => .pending))
    · rw [hc.renditionsOf_of_ne hvid] at hne ⊢
      rw [hc.videos, Table.get?_modify_of_ne hvid] at hv
      exact h.derived vid video hv hne

/-- **The rows agree after every move.** -/
theorem Move.coherent {scope : Scope} {w w' : World} {e : List Settlement}
    (hm : Move scope w e w') (hl : w.db.Linked) (h : w.db.Coherent) : w'.db.Coherent := by
  cases hm with
  | heartbeat now hget hrun => exact h.heartbeat now hget hrun
  | settled _ hs => exact h.settled hl hs
  | outbox _ hmessages => exact ⟨h.paired, h.owned, h.derived⟩
  | @created videoId sessionId video session hvideo hsession _ _ _ _ =>
    refine ⟨h.paired, h.owned, ?_⟩
    intro vid v hv hne
    rw [Table.get?_insert] at hv
    by_cases hvid : vid = videoId
    · -- a new video has no renditions
      rw [hvid] at hne
      exact absurd (hl.renditionsOf_eq_nil_of_none hvideo) hne
    · rw [if_neg hvid] at hv
      exact h.derived vid v hv hne
  | completed _ hopen hc => exact h.completed hc (hopen.renditionsOf_eq_nil hl)
  | uploadFailed error _ hopen => exact ⟨h.paired, h.owned, h.derived⟩
  | @aborted videoId sessionId video session now _ hopen =>
    refine ⟨h.paired, h.owned, ?_⟩
    intro vid v hv hne
    have hvid : vid ≠ videoId := by
      rintro rfl
      exact hne (hopen.renditionsOf_eq_nil hl)
    exact h.derived vid v (by rw [← hv]; exact (Table.get?_modify_of_ne hvid _ _).symm) hne

end RenditionPipeline
