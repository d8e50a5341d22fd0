import RenditionPipeline.Races.Sessions
import RenditionPipeline.System.Wakeups

/-!
# Job transactions that overlap

A step of `RenditionPipeline.System.step` that claims, concludes, fails or reaps jobs is
a whole transaction. In the database the transaction locks the rows of its jobs, reads
them and what belongs to them at one instant, and writes back at a later one; it locks no
row of the outbox, so that a publishing pass may send and commit in between.

The system is taken apart accordingly (`RenditionPipeline.JobRace`): a transaction begins
by reading and working out what it makes of the rows, uploads the playlist that it
publishes, and commits with the column-wise write-back of its session, or is rolled back.
A call that has nothing to write is over with its reads; everything else is a step of the
system as before. What every open transaction has read and worked out is
`RenditionPipeline.Underway`.
-/

namespace RenditionPipeline

/-! ### What a step locks -/

/-- The calls of the heartbeat and of the ownership check. -/
def WorkerAction.isBeat : WorkerAction → Bool
  | .heartbeat _ => true
  | .checkOwnership _ => true
  | _ => false

/-- The job whose row a step of a worker locks. -/
def Phase.lockedJob (message : EncodingJobMessage) : Phase → WorkerAction → Option UUID
  | .received, .claim _ _ => some message.jobId
  | .processing e _, .heartbeat _ => some e.context.jobId
  | .processing e _, .checkOwnership _ => some e.context.jobId
  | .failing e _, .heartbeat _ => some e.context.jobId
  | .failing e _, .fail _ _ _ _ _ => some e.context.jobId
  | .concluding e _, .conclude _ _ _ =>
    if e.heartbeatLost then none else some e.context.jobId
  | _, _ => none

/-- What a step of a worker publishes on the rows that it reads. -/
def Phase.publication (db : Db) : Phase → WorkerAction → Publication
  | .failing e error, .fail settings newId now uploadOk _ =>
    match markEncodingJobFailed settings db e.context.jobId error e.context.workerId newId now
        uploadOk with
    | .error _ => .notReady
    | .ok m => m.publication
  | .concluding e result, .conclude now uploadOk _ =>
    match recordResult db e result now uploadOk with
    | .error _ => .notReady
    | .ok m => m.publication
  | _, _ => .notReady

/-! ### The race -/

/-- A transaction on jobs between its reads and its commit: the worker it is of, with the
phase that comes after it (the reaper's has none), the jobs it has locked, the rows that it
has read, what it has made of them, what it publishes and whether that is uploaded, and
what its commit does to the claims. -/
structure JobTransaction where
  party : Option (String × Phase)
  jobs : List UUID
  loaded : Db
  new : Db
  publication : Publication
  uploaded : Bool
  events : List Event

/-- **The transaction that a step is**, if it is one that writes jobs. -/
def System.transaction (s : System) : Action → Option JobTransaction
  | .work worker action =>
    match s.workers worker with
    | .handling message phase _ =>
      match phase.lockedJob message action,
        workerStep s.db s.bucket (claims s.history) worker message phase action with
      | some jobId, some r =>
        -- a beat writes one column of one row, and a call that does not own its job nothing
        if action.isBeat || r.db.jobs.get? jobId = s.db.jobs.get? jobId then none
        else some ⟨some (worker, r.phase), [jobId], s.db, r.db, phase.publication s.db action,
          false, r.events⟩
      | _, _ => none
    | _ => none
  | .reap settings staleBefore limit locked newId now =>
    match reapStaleEncodingJobs settings s.db staleBefore limit locked newId now with
    | .error _ => none
    | .ok (db, _) => some ⟨none, staleJobs s.db staleBefore limit locked, s.db, db, .notReady,
        false, (staleJobs s.db staleBefore limit locked).map Event.reaped⟩
  | _ => none

namespace JobTransaction

/-- The worker whose transaction it is. -/
def worker (t : JobTransaction) : Option String := t.party.map Prod.fst

/-- A worker goes on with its message. -/
def goOn (workers : String → Worker) : Option (String × Phase) → String → Worker
  | none => workers
  | some (worker, phase) =>
    match workers worker with
    | .handling message _ connected =>
      Function.update workers worker (.handling message phase connected)
    | _ => workers

/-- What a transaction commits. -/
def commit (t : JobTransaction) (s : System) : System :=
  { s with
    db := Db.flush t.loaded t.new s.db
    workers := goOn s.workers t.party
    history := t.events ++ s.history }

/-- A transaction that is rolled back: the message of its worker is to come again. -/
def rollback (t : JobTransaction) (s : System) : System :=
  { s with workers := goOn s.workers (t.worker.map fun worker => (worker, .settling .requeue)) }

end JobTransaction

/-- The system and the transactions on jobs that are under way. -/
structure JobRace where
  system : System
  transactions : List JobTransaction

inductive JobRaceStep where
  /-- A step of the system that is no transaction on jobs, or one that writes nothing. -/
  | one (a : Action)
  /-- A transaction locks its jobs and reads. -/
  | begin (a : Action)
  /-- A transaction uploads what it publishes. -/
  | upload (index : ℕ)
  /-- A transaction writes back and commits. -/
  | commit (index : ℕ)
  /-- A transaction is rolled back. -/
  | rollback (index : ℕ)

namespace JobRace

/-- The race before any request. -/
def start : JobRace := ⟨System.start, []⟩

/-- **A step that cannot be taken now**: a worker is in a transaction, or waits for the
lock of another one, and the reaper passes over the rows that are locked. -/
def blocks (s : JobRace) : Action → Bool
  | .work worker action =>
    (s.transactions.any fun t => t.worker = some worker) ||
      match s.system.workers worker with
      | .handling message phase _ =>
        match phase.lockedJob message action with
        | some jobId => s.transactions.any fun t => decide (jobId ∈ t.jobs)
        | none => false
      | _ => false
  | .reap _ _ _ locked _ _ => s.transactions.any fun t => t.jobs.any fun jobId => !locked jobId
  | _ => false

/-- The transactions that a step ends: those of a worker that dies. -/
def ends (t : JobTransaction) : Action → Bool
  | .crash worker => t.worker = some worker
  | _ => false

/-- **A step of the race.** -/
def step (s : JobRace) : JobRaceStep → Option JobRace
  | .one a =>
    if s.blocks a || (s.system.transaction a).isSome then none
    else (s.system.step a).map fun system =>
      ⟨system, s.transactions.filter fun t => !ends t a⟩
  | .begin a =>
    if s.blocks a then none
    else (s.system.transaction a).map fun t =>
      ⟨{ s.system with clock := a.readings.getLastD s.system.clock }, t :: s.transactions⟩
  | .upload index =>
    match s.transactions[index]? with
    | none => none
    | some t => some {
        system := { s.system with bucket := t.publication.store s.system.bucket }
        transactions := s.transactions.set index { t with uploaded := true } }
  | .commit index =>
    match s.transactions[index]? with
    | none => none
    | some t =>
      if t.uploaded then some ⟨t.commit s.system, s.transactions.eraseIdx index⟩ else none
  | .rollback index =>
    match s.transactions[index]? with
    | none => none
    | some t => some ⟨t.rollback s.system, s.transactions.eraseIdx index⟩

end JobRace

/-! ### What a step writes -/

/-- **What a step of a worker does to the jobs**: nothing, or a beat, or it settles the job
that it locks. -/
inductive JobWrite (db : Db) (m : EncodingJobMessage) (phase : Phase) (action : WorkerAction) :
    Db → Prop
  | nothing : JobWrite db m phase action db
  | beat {e : Execution} {now : Timestamp} (hbeat : action.isBeat = true)
      (hlock : phase.lockedJob m action = some e.context.jobId) :
      JobWrite db m phase action (beat db e now).1
  | settled {loaded : LoadedJob db} {o : Outcome} {p : Option Publication} {db' : Db}
      (hlock : phase.lockedJob m action = some loaded.jobId) (hs : Settled loaded o p db')
      (hphase : phase = .received ∧ o.isRetry = false ∨ phase.execution.isSome = true) :
      JobWrite db m phase action db'

section JobWrites

variable {w : World} {claims : UUID → ℕ} {workerId : String} {m : EncodingJobMessage}
  {r : WorkerStep}

theorem jobWrite_fail {e : Execution} {error : String} {settings : Settings} {newId : UUID}
    {now : Timestamp} {uploadOk commitOk : Bool}
    (h : workerStep w.db w.bucket claims workerId m (.failing e error)
      (.fail settings newId now uploadOk commitOk) = some r) :
    JobWrite w.db m (.failing e error) (.fail settings newId now uploadOk commitOk) r.db := by
  simp only [workerStep] at h
  split at h
  · obtain rfl := Option.some.inj h
    exact .nothing
  rename_i marked hok
  obtain rfl := Option.some.inj h
  cases commitOk with
  | false => exact .nothing
  | true =>
    obtain ⟨loaded, hid, ⟨-, rfl⟩ | ⟨-, -, -, nextRunAt, -, hs⟩ | ⟨-, -, hs⟩⟩ :=
      markEncodingJobFailed_eq_ok hok
    · exact .nothing
    · exact .settled (congrArg some hid.symm) hs (Or.inr rfl)
    · exact .settled (congrArg some hid.symm) hs (Or.inr rfl)

theorem jobWrite_conclude {e : Execution} {result : EncodingProcessorResult} {now : Timestamp}
    {uploadOk commitOk : Bool}
    (h : workerStep w.db w.bucket claims workerId m (.concluding e result)
      (.conclude now uploadOk commitOk) = some r) :
    JobWrite w.db m (.concluding e result) (.conclude now uploadOk commitOk) r.db := by
  simp only [workerStep] at h
  split at h
  · obtain rfl := Option.some.inj h
    exact .nothing
  rename_i hlost
  split at h
  · obtain rfl := Option.some.inj h
    exact .nothing
  rename_i marked hok
  obtain rfl := Option.some.inj h
  cases commitOk with
  | false => exact .nothing
  | true =>
    obtain rfl | ⟨loaded, hid, -, -, o, -, hs⟩ := recordResult_eq_ok true hok
    · exact .nothing
    · exact .settled ((if_neg hlost).trans (congrArg some hid.symm)) hs (Or.inr rfl)

theorem jobWrite_claim {checkedAt now : Timestamp}
    (h : workerStep w.db w.bucket claims workerId m .received (.claim checkedAt now) = some r) :
    JobWrite w.db m .received (.claim checkedAt now) r.db := by
  simp only [workerStep] at h
  split at h
  · obtain rfl := Option.some.inj h
    exact .nothing
  all_goals
    rename_i hok
    obtain rfl := Option.some.inj h
    obtain ⟨loaded, hid, ⟨-, rfl, -⟩ | ⟨-, hs⟩ | ⟨-, hs⟩⟩ := claimEncodingJob_eq_ok hok
    · exact .nothing
    · exact .settled (congrArg some hid.symm) hs (Or.inl ⟨rfl, rfl⟩)
    · exact .settled (congrArg some hid.symm) hs (Or.inl ⟨rfl, rfl⟩)

/-- **Every step of a worker writes in one of these ways.** -/
theorem workerStep_jobWrite {phase : Phase} {action : WorkerAction}
    (h : workerStep w.db w.bucket claims workerId m phase action = some r) :
    JobWrite w.db m phase action r.db := by
  cases phase with
  | received =>
    cases action with
    | claim checkedAt now => exact jobWrite_claim h
    | unavailable =>
      obtain rfl := Option.some.inj h
      exact .nothing
    | _ => cases h
  | processing e progress =>
    cases action with
    | heartbeat now =>
      obtain rfl := Option.some.inj h
      exact .beat rfl rfl
    | checkOwnership now =>
      obtain rfl := Option.some.inj h
      exact .beat rfl rfl
    | _ =>
      obtain ⟨_, -, rfl⟩ := Option.map_eq_some_iff.mp h
      exact .nothing
  | failing e error =>
    cases action with
    | heartbeat now =>
      obtain rfl := Option.some.inj h
      exact .beat rfl rfl
    | fail settings newId now uploadOk commitOk => exact jobWrite_fail h
    | unavailable =>
      obtain rfl := Option.some.inj h
      exact .nothing
    | _ => cases h
  | concluding e result =>
    cases action with
    | conclude now uploadOk commitOk => exact jobWrite_conclude h
    | unavailable =>
      simp only [workerStep, Option.ite_none_left_eq_some, Option.some.injEq] at h
      obtain ⟨-, rfl⟩ := h
      exact .nothing
    | _ => cases h
  | settling action => cases h

end JobWrites

/-- A beat writes the row of the execution's job alone. -/
theorem beat_get?_job (db : Db) (e : Execution) (now : Timestamp) {jid : UUID}
    (hne : jid ≠ e.context.jobId) : (beat db e now).1.jobs.get? jid = db.jobs.get? jid := by
  rw [beat]
  split
  · rfl
  · rename_i db' owned hok
    obtain ⟨loaded, -, -, rfl⟩ := heartbeatEncodingJob_eq_ok hok
    split
    · exact Table.get?_modify_of_ne hne _ _
    · rfl

/-- **A step writes no row of a job but the one that it locks.** -/
theorem JobWrite.get?_job {db db' : Db} {m : EncodingJobMessage} {phase : Phase}
    {action : WorkerAction} (h : JobWrite db m phase action db') {jid : UUID}
    (hlock : phase.lockedJob m action ≠ some jid) : db'.jobs.get? jid = db.jobs.get? jid := by
  cases h with
  | nothing => rfl
  | beat _ hlock' =>
    refine beat_get?_job db _ _ fun he => hlock ?_
    rw [hlock', he]
  | settled hlock' hs _ =>
    refine hs.get?_job_of_ne fun he => hlock ?_
    rw [hlock', he]

/-- Only what settles the job that it locks changes its row, beats aside. -/
theorem JobWrite.exists_settled {db db' : Db} {m : EncodingJobMessage} {phase : Phase}
    {action : WorkerAction} (h : JobWrite db m phase action db') {jobId : UUID}
    (hlock : phase.lockedJob m action = some jobId) (hbeat : action.isBeat = false)
    (hne : db'.jobs.get? jobId ≠ db.jobs.get? jobId) :
    ∃ (loaded : LoadedJob db) (o : Outcome) (p : Option Publication), loaded.jobId = jobId ∧
      Settled loaded o p db' ∧ (phase = .received ∧ jobId = m.jobId ∧ o.isRetry = false ∨
        phase.execution.isSome = true) := by
  cases h with
  | nothing => exact absurd rfl hne
  | beat hbeat' => rw [hbeat] at hbeat'; cases hbeat'
  | @settled loaded o p db' hlock' hs hphase =>
    obtain rfl : loaded.jobId = jobId := Option.some.inj (hlock'.symm.trans hlock)
    refine ⟨loaded, o, p, rfl, hs, hphase.imp_left fun ⟨hreceived, ho⟩ => ⟨hreceived, ?_, ho⟩⟩
    -- what a step locks on a message it has just got is the job of the message
    subst hreceived
    cases action with
    | claim checkedAt now => exact (Option.some.inj hlock).symm
    | _ => cases hlock

end RenditionPipeline
