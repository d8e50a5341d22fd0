import RenditionPipeline.Lifecycle.Coherence

/-!
# Attempts are bounded and the end is final

The decision to try a job again is taken in two places, on a failure and in the
reaper, and checked in a third, at the claim, which alone counts. Over a whole
run the three come to one bound: the count is the number of claims that were
granted, and it never passes the maximum of the job
(`RenditionPipeline.Attempts`). And a job that is over stays as it is, with its
rendition, whatever comes after (`RenditionPipeline.Move.frozen`).
-/

namespace RenditionPipeline

/-- **The attempts of every job are accounted for.** -/
structure Attempts (db : Db) (granted : List UUID) : Prop where
  /-- Claims are granted for jobs that exist. -/
  known : ∀ jid ∈ granted, (db.jobs.get? jid).isSome
  counted : ∀ jid job, db.jobs.get? jid = some job → job.attemptCount = granted.count jid
  bounded : ∀ jid job, db.jobs.get? jid = some job → job.attemptCount ≤ job.maxAttempts
  pending : ∀ jid job, db.jobs.get? jid = some job → job.status = .pending →
    job.attemptCount < job.maxAttempts ∨ job.maxAttempts = 0

/-! ### One check for each outcome -/

namespace Outcome

/-- The attempts that an outcome counts: one for a granted claim. -/
theorem attemptCount (o : Outcome) (jid : UUID) (job : Job) :
    (o.job job).attemptCount = job.attemptCount + (grantedJobs [(jid, o)]).count jid := by
  cases o <;> simp [Outcome.job, grantedJobs, exhaustedJob, runningJob, doneJob, retriedJob,
    failedJob, clearJobOwner]

theorem grantedJobs_subset (o : Outcome) (jid : UUID) : grantedJobs [(jid, o)] ⊆ [jid] := by
  cases o <;> simp [grantedJobs]

/-- An outcome stays within the attempts of the job. -/
theorem Enabled.attemptCount_le {o : Outcome} {job : Job} (h : o.Enabled job)
    (hle : job.attemptCount ≤ job.maxAttempts) : (o.job job).attemptCount ≤ job.maxAttempts := by
  cases o with
  | running workerId now => exact h.2
  | _ => exact hle

/-- A job that an outcome leaves pending has an attempt left. -/
theorem Enabled.lt_of_pending {o : Outcome} {job : Job} (h : o.Enabled job)
    (hp : (o.job job).status = .pending) : (o.job job).attemptCount < job.maxAttempts := by
  cases o with
  | retried error now nextRunAt => exact h.2
  | _ => cases hp

end Outcome

/-! ### The moves keep the account -/

theorem Attempts.empty : Attempts Db.empty [] where
  known := fun _ h => by cases h
  counted := fun _ _ h => by cases h
  bounded := fun _ _ h => by cases h
  pending := fun _ _ h => by cases h

/-- The account is a matter of the jobs. -/
theorem Attempts.of_jobs_eq {db db' : Db} {granted : List UUID} (h : Attempts db granted)
    (hj : db'.jobs = db.jobs) : Attempts db' granted :=
  ⟨by rw [hj]; exact h.known, by rw [hj]; exact h.counted, by rw [hj]; exact h.bounded,
    by rw [hj]; exact h.pending⟩

theorem Attempts.heartbeat {db : Db} {granted : List UUID} (h : Attempts db granted)
    (jobId : UUID) (now : Timestamp) :
    Attempts { db with
      jobs := db.jobs.modify jobId fun job => { job with heartbeatAt := some now } } granted := by
  have hback : ∀ jid job,
      (db.jobs.modify jobId fun job => { job with heartbeatAt := some now }).get? jid = some job →
      ∃ job₀, db.jobs.get? jid = some job₀ ∧ job.attemptCount = job₀.attemptCount ∧
        job.maxAttempts = job₀.maxAttempts ∧ job.status = job₀.status := by
    intro jid job hj
    rw [Table.get?_modify] at hj
    by_cases hid : jid = jobId
    · rw [if_pos hid, Option.map_eq_some_iff] at hj
      obtain ⟨job₀, hj₀, rfl⟩ := hj
      exact ⟨job₀, hj₀, rfl, rfl, rfl⟩
    · rw [if_neg hid] at hj
      exact ⟨job, hj, rfl, rfl, rfl⟩
  refine ⟨fun jid hg => ?_, fun jid job hj => ?_, fun jid job hj => ?_, fun jid job hj hp => ?_⟩
  · rw [Table.get?_modify]
    by_cases hid : jid = jobId
    · rw [if_pos hid, Option.isSome_map]
      exact h.known jid hg
    · rw [if_neg hid]
      exact h.known jid hg
  · obtain ⟨job₀, hj₀, ha, -, -⟩ := hback jid job hj
    rw [ha, h.counted jid job₀ hj₀]
  · obtain ⟨job₀, hj₀, ha, hm, -⟩ := hback jid job hj
    rw [ha, hm]
    exact h.bounded jid job₀ hj₀
  · obtain ⟨job₀, hj₀, ha, hm, hs⟩ := hback jid job hj
    rw [ha, hm]
    exact h.pending jid job₀ hj₀ (hs ▸ hp)

/-- **Settling a job keeps the account**, and a granted claim enters it. -/
theorem Attempts.settled {db db' : Db} {granted : List UUID} (h : Attempts db granted)
    {loaded : LoadedJob db} {o : Outcome} {publication : Option Publication}
    (hs : Settled loaded o publication db') :
    Attempts db' (granted ++ grantedJobs [(loaded.jobId, o)]) where
  known := by
    intro jid hg
    by_cases hid : jid = loaded.jobId
    · rw [hid, hs.get?_job_self]
      rfl
    · rw [hs.get?_job_of_ne hid]
      rcases List.mem_append.mp hg with hg | hg
      · exact h.known jid hg
      · exact absurd (List.mem_singleton.mp (o.grantedJobs_subset _ hg)) hid
  counted := by
    intro jid job hj
    rw [List.count_append]
    -- only the settled job can be granted, and then it counts one attempt more
    rcases hs.get?_job hj with ⟨rfl, rfl⟩ | ⟨hid, hj⟩
    · rw [o.attemptCount loaded.jobId, h.counted _ _ loaded.get?_job]
    · have hnot : jid ∉ grantedJobs [(loaded.jobId, o)] := fun hg =>
        hid (List.mem_singleton.mp (o.grantedJobs_subset _ hg))
      rw [h.counted jid job hj, List.count_eq_zero_of_not_mem hnot, Nat.add_zero]
  bounded := by
    intro jid job hj
    rcases hs.get?_job hj with ⟨-, rfl⟩ | ⟨-, hj⟩
    · rw [Outcome.job_maxAttempts]
      exact hs.enabled.attemptCount_le (h.bounded _ _ loaded.get?_job)
    · exact h.bounded jid job hj
  pending := by
    intro jid job hj hp
    rcases hs.get?_job hj with ⟨-, rfl⟩ | ⟨-, hj⟩
    · left
      rw [Outcome.job_maxAttempts]
      exact hs.enabled.lt_of_pending hp
    · exact h.pending jid job hj hp

/-- New jobs have no attempts yet. -/
theorem Attempts.completed {db db' : Db} {granted : List UUID} (h : Attempts db granted)
    {videoId sessionId : UUID} {maxAttempts : ℕ} {uploadedAt completedAt : Timestamp}
    {works : List Work}
    (hc : Completed db videoId sessionId maxAttempts uploadedAt completedAt works db') :
    Attempts db' granted where
  known := by
    intro jid hg
    obtain ⟨job, hj⟩ := Option.isSome_iff_exists.mp (h.known jid hg)
    rw [hc.get?_job.mpr (Or.inl hj)]
    rfl
  counted := by
    intro jid job hj
    rcases hc.get?_job.mp hj with hj | ⟨w, hw, rfl, rfl⟩
    · exact h.counted jid job hj
    · refine (List.count_eq_zero_of_not_mem fun hg => ?_).symm
      have hsome := h.known _ hg
      rw [hc.get?_job_eq_none hw] at hsome
      cases hsome
  bounded := by
    intro jid job hj
    rcases hc.get?_job.mp hj with hj | ⟨w, hw, rfl, rfl⟩
    · exact h.bounded jid job hj
    · exact Nat.zero_le _
  pending := by
    intro jid job hj hp
    rcases hc.get?_job.mp hj with hj | ⟨w, hw, rfl, rfl⟩
    · exact h.pending jid job hj hp
    · exact (Nat.eq_zero_or_pos maxAttempts).symm

/-- **The account holds after every move.** -/
theorem Move.attempts {scope : Scope} {w w' : World} {e : List Settlement} {granted : List UUID}
    (hm : Move scope w e w') (h : Attempts w.db granted) :
    Attempts w'.db (granted ++ grantedJobs e) := by
  cases hm with
  | settled _ hs => exact h.settled hs
  | heartbeat now hget hrun =>
    rw [grantedJobs_nil, List.append_nil]
    exact h.heartbeat _ now
  | completed _ hopen hc =>
    rw [grantedJobs_nil, List.append_nil]
    exact h.completed hc
  | outbox _ hmessages =>
    rw [grantedJobs_nil, List.append_nil]
    exact h.of_jobs_eq rfl
  | created hvideo hsession _ _ _ _ =>
    rw [grantedJobs_nil, List.append_nil]
    exact h.of_jobs_eq rfl
  | uploadFailed error _ hopen =>
    rw [grantedJobs_nil, List.append_nil]
    exact h.of_jobs_eq rfl
  | aborted now _ hopen =>
    rw [grantedJobs_nil, List.append_nil]
    exact h.of_jobs_eq rfl

/-! ### The end is final -/

/-- **A job that is over, and its rendition, are left alone by every move.** -/
theorem Move.frozen {scope : Scope} {w w' : World} {e : List Settlement}
    (hm : Move scope w e w') (hl : w.db.Linked) {jid : UUID} {job : Job} {r : Rendition}
    (hj : w.db.jobs.get? jid = some job) (hr : w.db.renditions.get? job.renditionId = some r)
    (hover : job.status.isActive = false) :
    w'.db.jobs.get? jid = some job ∧ w'.db.renditions.get? job.renditionId = some r := by
  cases hm with
  | @heartbeat jobId job' now hget hrun =>
    have hne : jid ≠ jobId := by
      rintro rfl
      obtain rfl : job = job' := Option.some.inj (hj.symm.trans hget)
      rw [hrun] at hover
      cases hover
    exact ⟨by rw [Table.get?_modify_of_ne hne, hj], hr⟩
  | @settled loaded o publication db' _ hs =>
    have hne : jid ≠ loaded.jobId := by
      rintro rfl
      obtain rfl : job = loaded.job := Option.some.inj (hj.symm.trans loaded.get?_job)
      rw [hs.enabled.isActive] at hover
      cases hover
    have hrid : job.renditionId ≠ loaded.job.renditionId := fun he =>
      hne (hl.job_unique _ _ _ _ hj loaded.get?_job he)
    exact ⟨by rw [hs.get?_job_of_ne hne, hj], by rw [hs.get?_rendition_of_ne hrid, hr]⟩
  | completed _ hopen hc =>
    exact ⟨hc.get?_job.mpr (Or.inl hj), hc.get?_rendition.mpr (Or.inl hr)⟩
  | outbox _ hmessages => exact ⟨hj, hr⟩
  | created hvideo hsession _ _ _ _ => exact ⟨hj, hr⟩
  | uploadFailed error _ hopen => exact ⟨hj, hr⟩
  | aborted now _ hopen => exact ⟨hj, hr⟩

end RenditionPipeline
