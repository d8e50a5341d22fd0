import RenditionPipeline.Lifecycle.Attempts
import RenditionPipeline.Runs.Operations

/-!
# Jobs over whole runs

What the move invariants come to over runs of any length, of any number of
videos, with any arguments: the rows of a job, its rendition and its video agree
(`RenditionPipeline.coherent_of_reachable`), and the attempts of a job are
bounded and its end is final (`RenditionPipeline.attempts_bounded_and_end_final`).
-/

namespace RenditionPipeline

/-! ### The rows agree -/

theorem ReachableRun.coherent {guard : Run → Op → Prop} {r : Run} (h : ReachableRun guard r) :
    r.world.db.Coherent :=
  h.invariant (I := fun w _ => w.db.Coherent) Db.Coherent.empty
    fun _ _ _ _ hl hi hm => hm.coherent hl hi

/-- **In every run the rows agree**: after any sequence of uploads, claims,
heartbeats, conclusions, reaping batches and publishing passes, the statuses of a
job and its rendition are one of the five pairs, owner and heartbeat mark the
running jobs, only pending jobs have a next run, and every video with renditions
has the status they give. -/
theorem coherent_of_reachable {r : Run} (h : ReachableRun Unguarded r) : r.world.db.Coherent :=
  h.coherent

/-- Two jobs of one video are claimed and reaped in one batch. -/
def reapedRun : Run :=
  Run.start.exec (sampleUpload ++
    [.claimEncodingJob (sampleId 11) (sampleId 0) (sampleId 10) "worker" 2 2,
      .claimEncodingJob (sampleId 13) (sampleId 0) (sampleId 12) "worker" 3 3,
      .reapStaleEncodingJobs sampleSettings 9 5 (fun _ => false) id 10])

theorem coherent_reapedRun :
    (reapedRun.world.db.jobs.get? (sampleId 13)).map Job.attemptCount = some 1 ∧
      reapedRun.world.db.Coherent :=
  ⟨rfl, coherent_of_reachable (ReachableRun.exec _)⟩

/-! ### Attempts and ends -/

theorem ReachableRun.attempts {guard : Run → Op → Prop} {r : Run} (h : ReachableRun guard r) :
    Attempts r.world.db r.granted :=
  h.invariant (I := fun w granted => Attempts w.db granted) Attempts.empty
    fun _ _ _ _ _ hi hm => hm.attempts hi

/-- **Attempts are bounded and the end is final.** In every run the count of a
job is the number of its granted claims and at most its maximum, and a pending
job has an attempt left unless it never had one; and once a job is done or
failed, no continuation of the run changes it or its rendition. -/
theorem attempts_bounded_and_end_final {r : Run} (h : ReachableRun Unguarded r) :
    (∀ jid job, r.world.db.jobs.get? jid = some job →
      job.attemptCount = r.granted.count jid ∧ job.attemptCount ≤ job.maxAttempts ∧
        (job.status = .pending → job.attemptCount < job.maxAttempts ∨ job.maxAttempts = 0)) ∧
    (∀ jid job rendition, r.world.db.jobs.get? jid = some job →
      r.world.db.renditions.get? job.renditionId = some rendition →
      job.status = .done ∨ job.status = .failed →
      ∀ r', Reaches Run.step Unguarded (· = r) r' →
        r'.world.db.jobs.get? jid = some job ∧
          r'.world.db.renditions.get? job.renditionId = some rendition) := by
  have ha := h.attempts
  refine ⟨fun jid job hj => ⟨ha.counted jid job hj, ha.bounded jid job hj, ha.pending jid job hj⟩,
    ?_⟩
  intro jid job rendition hj hr hend r' hr'
  have hover : job.status.isActive = false := by
    rcases hend with he | he <;> rw [he] <;> rfl
  -- the references are carried along, since a move needs them to keep its hands off
  refine (hr'.invariant (I := fun s => s.world.db.Linked ∧ s.world.db.jobs.get? jid = some job ∧
    s.world.db.renditions.get? job.renditionId = some rendition) ?_ ?_).2
  · rintro _ rfl
    exact ⟨h.linked, hj, hr⟩
  · rintro s op _ hi - ⟨⟩
    obtain ⟨es, hes, -⟩ := op.exec_chain hi.1
    exact hes.keep (I := fun w => w.db.Linked ∧ w.db.jobs.get? jid = some job ∧
      w.db.renditions.get? job.renditionId = some rendition)
      (fun _ _ _ hw hm => ⟨hm.linked hw.1, hm.frozen hw.1 hw.2.1 hw.2.2 hover⟩) hi

/-- A job is claimed, reaped, claimed again and finished. -/
def finishedRun : Run :=
  Run.start.exec (sampleUpload ++
    [.claimEncodingJob (sampleId 11) (sampleId 0) (sampleId 10) "first" 2 2,
      .reapStaleEncodingJobs sampleSettings 9 5 (fun _ => false) id 10,
      .claimEncodingJob (sampleId 11) (sampleId 0) (sampleId 10) "second" 40000000 40000000,
      .markEncodingJobSkipped (sampleId 11) "too large" "second" none 40000001 true])

theorem attempts_finishedRun :
    (finishedRun.world.db.jobs.get? (sampleId 11)).map Job.status = some .done ∧
    (∀ job, finishedRun.world.db.jobs.get? (sampleId 11) = some job →
      job.attemptCount = finishedRun.granted.count (sampleId 11)) ∧
    finishedRun.granted.count (sampleId 11) = 2 :=
  ⟨rfl, fun job hj =>
    ((attempts_bounded_and_end_final (ReachableRun.exec _)).1 (sampleId 11) job hj).1, rfl⟩

end RenditionPipeline
