import RenditionPipeline.Library.Refinement
import RenditionPipeline.System.Fencing

/-!
# The life of a job

Seen from one job, the whole pipeline is a small automaton
(`RenditionPipeline.JobLife.Step`): the job waits, a claim takes one of its attempts, and
the attempt ends it or sends it back to wait. Seven services write the columns that this is
read off, from any number of processes; nothing they do is anything but a path of the
automaton (`RenditionPipeline.refines_jobLife`).

An attempt that is taken is never given back, so every path is finite: whatever workers,
passes and reapers do, and for however long, a job changes its state at most twice for each
attempt it has left (`RenditionPipeline.job_comes_to_rest`).
-/

namespace RenditionPipeline

open Relation

/-- **The life of a job**, with the attempts that it has left. -/
inductive JobLife where
  | absent
  | waiting (left : ℕ)
  | running (left : ℕ)
  | over (succeeded : Bool)
deriving DecidableEq

namespace JobLife

/-- What can happen to a job. -/
inductive Step : JobLife → JobLife → Prop
  | created (n : ℕ) : Step absent (waiting n)
  | granted (n : ℕ) : Step (waiting (n + 1)) (running n)
  /-- A claim finds no attempt left. -/
  | exhausted : Step (waiting 0) (.over false)
  | retried (n : ℕ) : Step (running (n + 1)) (waiting (n + 1))
  | concluded (n : ℕ) : Step (running n) (.over true)
  | failed : Step (running 0) (.over false)

/-- How often a job that has been created can still change. -/
def budget : JobLife → ℕ
  | absent => 0
  | waiting left => max 1 (2 * left)
  | running left => 2 * left + 1
  | .over _ => 0

/-- **A job that has been created stays**, and every step takes of its budget. -/
theorem Step.budget_lt {l l' : JobLife} (hl : l ≠ absent) (h : Step l l') :
    l' ≠ absent ∧ l'.budget < l.budget := by
  cases h with
  | created n => exact absurd rfl hl
  | granted n => exact ⟨by simp, by simp only [budget]; omega⟩
  | exhausted => exact ⟨by simp, by simp [budget]⟩
  | retried n => exact ⟨by simp, by simp only [budget]; omega⟩
  | concluded n => exact ⟨by simp, by simp [budget]⟩
  | failed => exact ⟨by simp, by simp [budget]⟩

end JobLife

/-! ### Reading the life of a job off its row -/

/-- The life of a job with a row. -/
def Job.life (job : Job) : JobLife :=
  match job.status with
  | .pending => .waiting (job.maxAttempts - job.attemptCount)
  | .running => .running (job.maxAttempts - job.attemptCount)
  | .done => .over true
  | _ => .over false

/-- The life of a job. -/
def Db.life (db : Db) (jobId : UUID) : JobLife :=
  (db.jobs.get? jobId).elim .absent Job.life

theorem Db.life_of_get? {db : Db} {jobId : UUID} {job : Job}
    (h : db.jobs.get? jobId = some job) : db.life jobId = job.life := by
  rw [Db.life, h, Option.elim_some]

/-- The life of a job is a matter of its row. -/
theorem Db.life_congr {db db' : Db} {jobId : UUID}
    (h : db'.jobs.get? jobId = db.jobs.get? jobId) : db'.life jobId = db.life jobId := by
  rw [Db.life, Db.life, h]

theorem Db.path_of_get?_eq {db db' : Db} {jobId : UUID}
    (h : db'.jobs.get? jobId = db.jobs.get? jobId) :
    ReflTransGen JobLife.Step (db.life jobId) (db'.life jobId) := by
  rw [Db.life_congr h]

theorem Db.life_ne_absent {db : Db} {jobId : UUID} {job : Job}
    (h : db.jobs.get? jobId = some job) : db.life jobId ≠ .absent := by
  rw [Db.life_of_get? h, Job.life]
  split <;> simp

/-- **An outcome is a step of the automaton.** -/
theorem Outcome.Enabled.life {o : Outcome} {job : Job} (h : o.Enabled job) :
    JobLife.Step job.life (o.job job).life := by
  cases o with
  | exhausted now =>
    obtain ⟨hs, hle⟩ := h
    have hleft : job.maxAttempts - job.attemptCount = 0 := by omega
    simp only [Job.life, hs, hleft, Outcome.job, exhaustedJob]
    exact JobLife.Step.exhausted
  | running workerId now =>
    obtain ⟨hs, hlt⟩ := h
    have hleft : job.maxAttempts - job.attemptCount =
        job.maxAttempts - (job.attemptCount + 1) + 1 := by omega
    simp only [Job.life, hs, hleft, Outcome.job, runningJob]
    exact JobLife.Step.granted _
  | done outputPath now =>
    simp only [Job.life, show job.status = .running from h, Outcome.job, doneJob]
    exact JobLife.Step.concluded _
  | skipped reason now =>
    simp only [Job.life, show job.status = .running from h, Outcome.job, doneJob]
    exact JobLife.Step.concluded _
  | retried error now nextRunAt =>
    obtain ⟨hs, hlt⟩ := h
    obtain ⟨n, hn⟩ : ∃ n, job.maxAttempts - job.attemptCount = n + 1 :=
      ⟨job.maxAttempts - job.attemptCount - 1, by omega⟩
    simp only [Job.life, hs, hn, Outcome.job, retriedJob, clearJobOwner]
    exact JobLife.Step.retried n
  | failed error now =>
    obtain ⟨hs, hle⟩ := h
    have hleft : job.maxAttempts - job.attemptCount = 0 := by omega
    simp only [Job.life, hs, hleft, Outcome.job, failedJob]
    exact JobLife.Step.failed

/-- **A move is a step of every job's automaton, or nothing.** -/
theorem Move.life {scope : Scope} {w w' : World} {e : List Settlement}
    (hm : Move scope w e w') (jobId : UUID) :
    ReflTransGen JobLife.Step (w.db.life jobId) (w'.db.life jobId) := by
  cases hm with
  | @heartbeat id job now hget hrun =>
    by_cases hid : jobId = id
    · subst hid
      have hget' : (w.db.jobs.modify jobId fun job =>
          { job with heartbeatAt := some now }).get? jobId =
          some { job with heartbeatAt := some now } := by
        rw [Table.get?_modify_self, hget, Option.map_some]
      rw [Db.life_of_get? hget, Db.life_of_get? hget']
      exact ReflTransGen.refl
    · exact Db.path_of_get?_eq (Table.get?_modify_of_ne hid _ _)
  | @settled loaded o publication db' _ hs =>
    by_cases hid : jobId = loaded.jobId
    · subst hid
      rw [Db.life_of_get? loaded.get?_job, Db.life_of_get? hs.get?_job_self]
      exact ReflTransGen.single hs.enabled.life
    · exact Db.path_of_get?_eq (hs.get?_job_of_ne hid)
  | @completed videoId sessionId video session maxAttempts _ _ works db' _ _ hc =>
    cases hj : w.db.jobs.get? jobId with
    | some job =>
      exact Db.path_of_get?_eq (by rw [hj]; exact hc.get?_job.mpr (Or.inl hj))
    | none =>
      rw [Db.life, hj, Option.elim_none]
      cases hj' : db'.jobs.get? jobId with
      | none => rw [Db.life, hj', Option.elim_none]
      | some job =>
        rcases hc.get?_job.mp hj' with hold | ⟨work, -, -, rfl⟩
        · rw [hj] at hold
          cases hold
        · rw [Db.life_of_get? hj']
          exact ReflTransGen.single (JobLife.Step.created _)
  | outbox _ _ => exact ReflTransGen.refl
  | created _ _ _ _ _ _ => exact ReflTransGen.refl
  | uploadFailed _ _ _ => exact ReflTransGen.refl
  | aborted _ _ _ => exact ReflTransGen.refl

/-! ### Runs of the system -/

/-- The life of a job in a state of the system. -/
def System.life (s : System) (jobId : UUID) : JobLife := s.db.life jobId

/-- **The system refines the life of every job.** -/
theorem refines_jobLife (guard : System → Action → Prop) (jobId : UUID) :
    Refines System.step guard (ReachableSystem guard) (fun s => s.life jobId) JobLife.Step where
  keeps := fun _ _ _ hs hg hstep => Reaches.step hs hg hstep
  path := by
    intro s a s' hs _ hstep
    obtain ⟨t, ht, rfl⟩ := System.step_cases hstep
    exact ht.keep_db (I := fun db => ReflTransGen JobLife.Step (s.life jobId) (db.life jobId))
      hs.linked (fun _ _ _ _ hpath hm => hpath.trans (hm.life jobId)) ReflTransGen.refl

/-- **A job comes to rest.** In every run of the system the life of a job is a path of its
automaton; and once the job is there, in every run from then on – whatever is delivered
twice, crashes, times out or is reaped – it changes at most twice for each attempt that it
has left, and once if it has none. -/
theorem job_comes_to_rest {s s' : System} {as : List Action} (hs : ReachableSystem Unguarded s)
    (hrun : guardedRun System.step Unguarded s as = some s') (jobId : UUID) :
    ReflTransGen JobLife.Step (s.life jobId) (s'.life jobId) ∧
    ∀ job, s.db.jobs.get? jobId = some job →
      changes System.step (fun s => s.life jobId) s as + (s'.life jobId).budget ≤
        job.life.budget := by
  have href := refines_jobLife Unguarded jobId
  refine ⟨(href.run hs hrun).2, fun job hj => ?_⟩
  have hne : s.life jobId ≠ .absent := Db.life_ne_absent hj
  have hbound := href.changes_add_le (P := fun l => l ≠ .absent) (m := JobLife.budget)
    (fun _ _ hl hstep => hstep.budget_lt hl) hs hne hrun
  rwa [show s.life jobId = job.life from Db.life_of_get? hj] at hbound

/-- A new job with three attempts is claimed, reaped and claimed again: three of its six
changes, with the budget of the last attempt left. -/
theorem job_comes_to_rest_takeover :
    ∃ s s' job, ReachableSystem Unguarded s ∧
      guardedRun System.step Unguarded s (sampleTakeover.drop 2) = some s' ∧
      s.db.jobs.get? (sampleId 11) = some job ∧ job.life = .waiting 3 ∧
      s'.life (sampleId 11) = .running 1 ∧
      changes System.step (fun s => s.life (sampleId 11)) s (sampleTakeover.drop 2) + 3 ≤ 6 := by
  obtain ⟨s, s', hs, hs'⟩ : ∃ s s',
      guardedRun System.step Unguarded System.start (sampleTakeover.take 2) = some s ∧
        guardedRun System.step Unguarded s (sampleTakeover.drop 2) = some s' := ⟨_, _, rfl, rfl⟩
  have hstart : ReachableSystem Unguarded System.start := Reaches.start rfl
  have hreach := hstart.of_guardedRun hs
  have hbound := (job_comes_to_rest hreach hs' (sampleId 11)).2
  obtain rfl := Option.some.inj hs
  obtain rfl := Option.some.inj hs'
  exact ⟨_, _, _, hreach, hs', rfl, rfl, rfl, hbound _ rfl⟩

end RenditionPipeline
