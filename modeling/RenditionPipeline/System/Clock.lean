import RenditionPipeline.System.Fencing

/-!
# The system on a clock

That a worker still owns its job is checked before every upload, but not always by
asking: the ownership checker asks the database at most once in five seconds, and
answers in between from memory, while the reaper goes by a cutoff that it has computed
some time before. Whether the answers are right is a matter of time, and here the system
of `RenditionPipeline.System.State` is put on a clock that all parties share
(`RenditionPipeline.TimedSystem`). A step takes a stretch of time, and every reading of
the clock in it falls into the stretch, in order.

To the steps of the system are added the two halves of a round of the reaper, and the
calls of the checker (`RenditionPipeline.TimedSystem.isLost`), each with the answer of
the database – that it returns, or that it raises. A heartbeat that raises is logged and
forgotten, and is no step. A check and the start of the upload that it guards are one
step; the upload itself ends at any time after.
-/

namespace RenditionPipeline

/-- `min_check_interval_seconds` -/
def minCheckInterval : Timestamp := seconds 5

/-- The timing of a run: the setting of the reaper, and when the clocks of the processes
began to count. -/
structure Timing where
  /-- `JOB_STALE_TIMEOUT_SECONDS` -/
  jobStaleTimeoutSeconds : ℕ
  /-- It is at least the interval between two checks. -/
  interval_le : 5 ≤ jobStaleTimeoutSeconds
  /-- The instant at which the run begins. -/
  start : Timestamp
  /-- The instant from which `time.monotonic` counts in a worker. -/
  boot : String → Timestamp
  boot_le : ∀ worker, boot worker ≤ start

namespace Timing

/-- The timeout of a heartbeat. -/
def staleTimeout (timing : Timing) : Timestamp := seconds timing.jobStaleTimeoutSeconds

theorem minCheckInterval_le (timing : Timing) : minCheckInterval ≤ timing.staleTimeout := by
  have h := timing.interval_le
  show (5 : ℤ) * 1000000 ≤ (timing.jobStaleTimeoutSeconds : ℤ) * 1000000
  omega

/-- `time.monotonic()` in a worker, at an instant. -/
def monotonic (timing : Timing) (worker : String) (instant : Timestamp) : Timestamp :=
  instant - timing.boot worker

end Timing

/-- The execution whose processor is running in a worker. -/
def Worker.processing : Worker → Option Execution
  | .handling _ (.processing e _) _ => some e
  | _ => none

/-- Whether the heartbeat or the checker has found the job of an execution lost. -/
def Execution.lost (e : Execution) : Bool := e.checkLost || e.heartbeatLost

/-- Whether the processor has come to the uploads. -/
def Worker.isUploading : Worker → Bool
  | .handling _ (.processing _ (.uploading _ _ _)) _ => true
  | _ => false

/-- How the database answers a check: it raises, or it returns after the heartbeat has read
the clock. -/
inductive CheckAnswer where
  | raises
  | returns (now : Timestamp)
deriving DecidableEq

/-- A check that has let a worker pass, with the system as it then was, and whether an
upload has started with it. It is an observer's record; no code reads it. -/
structure Passed where
  worker : String
  execution : Execution
  uploads : Bool
  system : System

/-- **The worker may go on**: the job of its execution is running and is its own, and no
other claim of the job has been granted since its own. -/
def Passed.Sound (p : Passed) : Prop :=
  (∃ job, p.system.db.jobs.get? p.execution.context.jobId = some job ∧
    ownsRunningJob job p.execution.context.workerId = true) ∧
    claims p.system.history p.execution.context.jobId = p.execution.claim

/-- The state of the system on the clock. -/
structure TimedSystem where
  system : System
  now : Timestamp
  /-- The cutoff that the reaper has computed. -/
  staleBefore : Option Timestamp
  /-- `last_checked_at` of the checker in a worker. -/
  lastCheckedAt : String → Timestamp
  /-- Whether `upload_file` is running in a worker. -/
  uploading : String → Bool
  /-- When a worker has last recorded a heartbeat – with a claim, a beat of its heartbeat or
  a check. It is an observer's; no code reads it. -/
  renewedAt : String → Timestamp
  /-- The checks that have let a worker pass, the latest first. -/
  passed : List Passed

/-- A step of the system on the clock. -/
inductive TimedAction where
  /-- A step of the system. -/
  | run (action : Action)
  /-- `reap_once` computes its cutoff. -/
  | readStaleBefore (now : Timestamp)
  /-- `_raise_if_cancelled` calls the checker, and `upload_file` starts if it lets the
  worker pass and an upload comes next. -/
  | check (worker : String) (uploads : Bool) (checkedAt : Timestamp) (answer : CheckAnswer)

/-- The readings of the clock in a step, in order. -/
def TimedAction.readings : TimedAction → List Timestamp
  | run action => action.readings
  | readStaleBefore now => [now]
  | check _ _ checkedAt .raises => [checkedAt]
  | check _ _ checkedAt (.returns now) => [checkedAt, now]

namespace TimedSystem

/-- The system before any request. -/
def start (timing : Timing) : TimedSystem :=
  ⟨System.start, timing.start, none, fun _ => 0, fun _ => false, fun _ => timing.start, []⟩

/-- Whether a check comes too soon after the one before. -/
def throttles (timing : Timing) (s : TimedSystem) (worker : String) (checkedAt : Timestamp) :
    Bool :=
  timing.monotonic worker checkedAt - s.lastCheckedAt worker < minCheckInterval

/-- The record of the heartbeats after a call for an execution that returns, which is one
more if the call has found the job owned. -/
def renew (s : TimedSystem) (worker : String) (e : Execution) (now : Timestamp) :
    String → Timestamp :=
  if (beat s.system.db e now).2 then s.renewedAt else Function.update s.renewedAt worker now

/-- **`is_lost`**: the answer of the ownership checker, and the state it leaves. -/
def isLost (timing : Timing) (s : TimedSystem) (worker : String) (e : Execution)
    (checkedAt : Timestamp) (answer : CheckAnswer) : Option (Bool × TimedSystem) :=
  if e.lost then some (true, s)
  else if s.throttles timing worker checkedAt then some (false, s)
  else
    let s := { s with
      lastCheckedAt := Function.update s.lastCheckedAt worker
        (timing.monotonic worker checkedAt) }
    match answer with
    | .raises => some (false, s)
    | .returns now =>
      (s.system.step (.work worker (.checkOwnership now))).map fun system =>
        ((beat s.system.db e now).2,
          { s with system := system, renewedAt := s.renew worker e now })

/-- The steps of the system that can be taken as they are: no ownership check, no upload
that has not started, and no reaping by another cutoff. -/
def admits (s : TimedSystem) : Action → Bool
  | .work _ (.checkOwnership _) => false
  | .work worker .upload => s.uploading worker
  | .reap _ staleBefore _ _ _ _ => s.staleBefore = some staleBefore
  | _ => true

/-- The state after a step of the system: a claim makes a new checker, an upload is over,
and a cutoff is used up. -/
def after (s : TimedSystem) (system : System) : Action → TimedSystem
  | .work worker (.claim _ now) => { s with
      system := system
      lastCheckedAt := Function.update s.lastCheckedAt worker 0
      uploading := Function.update s.uploading worker false
      renewedAt := Function.update s.renewedAt worker now }
  | .work worker (.heartbeat now) => { s with
      system := system
      renewedAt := (s.system.workers worker).execution.elim s.renewedAt
        fun e => s.renew worker e now }
  | .work worker .upload => { s with
      system := system
      uploading := Function.update s.uploading worker false }
  | .reap _ _ _ _ _ _ => { s with system := system, staleBefore := none }
  | _ => { s with system := system }

/-- Whether a check of a worker comes to ask the database. -/
def asks (timing : Timing) (s : TimedSystem) (worker : String) (checkedAt : Timestamp) : Bool :=
  (s.system.workers worker).processing.any fun e =>
    !e.lost && !s.throttles timing worker checkedAt

/-- The state after a check that lets a worker pass. -/
def pass (s : TimedSystem) (worker : String) (e : Execution) (uploads : Bool) : TimedSystem :=
  { s with
    uploading := if uploads then Function.update s.uploading worker true else s.uploading
    passed := ⟨worker, e, uploads, s.system⟩ :: s.passed }

/-- A step, the clock aside. -/
def act (timing : Timing) (s : TimedSystem) : TimedAction → Option TimedSystem
  | .run action =>
    if s.admits action then (s.system.step action).map fun system => s.after system action
    else none
  | .readStaleBefore now => some { s with staleBefore := some (now - timing.staleTimeout) }
  | .check worker uploads checkedAt answer =>
    match (s.system.workers worker).processing with
    | none => none
    | some e =>
      if uploads && !(s.system.workers worker).isUploading then none
      else (s.isLost timing worker e checkedAt answer).map fun r =>
        if r.1 then r.2 else r.2.pass worker e uploads

/-- **A step on the clock**, with the instant at which it ends. -/
def step (timing : Timing) (s : TimedSystem) (a : TimedAction × Timestamp) : Option TimedSystem :=
  if (s.now :: (a.1.readings ++ [a.2])).Pairwise (· ≤ ·) then
    (s.act timing a.1).map fun s' => { s' with now := a.2 }
  else none

/-- **A check that raises comes in time**: the last heartbeat that the worker has recorded
outlives the time in which no other check asks. -/
def RaisesInTime (timing : Timing) (s : TimedSystem) : TimedAction × Timestamp → Prop
  | (.check worker _ checkedAt .raises, _) => s.asks timing worker checkedAt = true →
    checkedAt + minCheckInterval ≤ s.renewedAt worker + timing.staleTimeout
  | _ => True

instance (timing : Timing) (s : TimedSystem) (a : TimedAction × Timestamp) :
    Decidable (s.RaisesInTime timing a) :=
  match a with
  | (.check worker _ checkedAt .raises, _) =>
    inferInstanceAs (Decidable (s.asks timing worker checkedAt = true →
      checkedAt + minCheckInterval ≤ s.renewedAt worker + timing.staleTimeout))
  | (.run _, _) => isTrue trivial
  | (.readStaleBefore _, _) => isTrue trivial
  | (.check _ _ _ (.returns _), _) => isTrue trivial

end TimedSystem

/-- **The states of the system on the clock** in runs whose steps meet a condition. -/
abbrev ReachableTimed (timing : Timing)
    (guard : TimedSystem → TimedAction × Timestamp → Prop) (s : TimedSystem) : Prop :=
  Reaches (TimedSystem.step timing) guard (· = TimedSystem.start timing) s

end RenditionPipeline
