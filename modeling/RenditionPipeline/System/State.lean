import RenditionPipeline.Library.Run
import RenditionPipeline.Models.WriteBack
import RenditionPipeline.Runs.Operations
import RenditionPipeline.System.Worker

/-!
# The system

The whole pipeline as one machine: the database and the bucket, the broker with
the messages that are ready, any number of workers, the publishing passes that
are under way, and the reaper. A step is one transaction, one call of the broker
or the storage, or the loss of a process or a connection
(`RenditionPipeline.System.step`), so that a run is any interleaving of these. Transactions that
overlap have models of their own (`RenditionPipeline.MarkingRace`, `RenditionPipeline.JobRace`
and `RenditionPipeline.UploadRace`).

A publishing pass is split where the code lets others in between: it selects and
locks its rows, sends them one by one, and commits what it has made of them with
the column-wise write-back of its session. A worker's message stays with the
broker while the worker is connected, and is ready again once the connection or
the worker is lost.
-/

namespace RenditionPipeline

/-- A worker process. A worker that is handling a message may have lost its
connection, and with it the message. -/
inductive Worker where
  | idle
  | handling (message : EncodingJobMessage) (phase : Phase) (connected : Bool)
  | stopped
deriving DecidableEq

/-- A publishing pass between its query and its commit: what its session has
loaded, the rows it has selected, and what the calls for the first of them have
answered. -/
structure Pass where
  loaded : Db
  rows : List (UUID × OutboxMessage)
  answers : List (Except String Timestamp)

/-- The state of the system. -/
structure System where
  db : Db
  bucket : Bucket
  /-- The messages of the queue that are not with a worker. -/
  ready : List EncodingJobMessage
  workers : String → Worker
  passes : List Pass
  /-- What has happened to the claims, the latest first. -/
  history : List Event
  /-- The last reading of a clock. -/
  clock : Timestamp

namespace System

/-- The system before any request. -/
def start : System :=
  ⟨Db.empty, Bucket.empty, [], fun _ => .idle, [], [], 0⟩

/-- The database and the bucket. -/
def world (s : System) : World := ⟨s.db, s.bucket⟩

end System

/-- A step of the system. -/
inductive Action where
  /-- An upload request. -/
  | request (op : Op)
  /-- The broker delivers a ready message to an idle worker. -/
  | deliver (worker : String) (index : ℕ)
  /-- A worker goes on with its message. -/
  | work (worker : String) (action : WorkerAction)
  /-- A worker tells the broker what to do with its message, or, if it has lost
  its connection, stops. -/
  | settle (worker : String)
  /-- A worker that is handling a message loses its connection. -/
  | disconnect (worker : String)
  /-- A worker dies. -/
  | crash (worker : String)
  /-- A publishing pass selects and locks its rows. -/
  | openPass (now : Timestamp) (choice : OutboxChoice)
  /-- A publishing pass sends its next row. A call that raises may have reached
  the broker all the same. -/
  | publish (pass : ℕ) (answer : Except String Timestamp) (accepted : Bool)
  /-- A publishing pass commits. -/
  | commitPass (pass : ℕ) (openError closeError : Option String)
  /-- A publishing pass is rolled back. -/
  | abandonPass (pass : ℕ)
  | reap (settings : Settings) (staleBefore : Timestamp) (limit : ℕ) (locked : UUID → Bool)
      (newId : UUID → UUID) (now : Timestamp)

/-! ### Readings of the clock -/

/-- The readings of the clock in an upload request. -/
def Op.readings : Op → List Timestamp
  | .createVideoUpload _ _ _ _ _ _ _ now => [now]
  | .completeVideoUpload _ _ _ _ _ uploadedAt completedAt => [uploadedAt, completedAt]
  | .abortVideoUpload _ _ now => [now]
  | _ => []

/-- The readings of the clock in a step of a worker. -/
def WorkerAction.readings : WorkerAction → List Timestamp
  | .claim checkedAt now => [checkedAt, now]
  | .heartbeat now => [now]
  | .checkOwnership now => [now]
  | .conclude now _ _ => [now]
  | .fail _ _ now _ _ => [now]
  | _ => []

/-- The readings of the clock in a step, in order. -/
def Action.readings : Action → List Timestamp
  | .request op => op.readings
  | .work _ action => action.readings
  | .openPass now _ => [now]
  | .publish _ (.ok now) _ => [now]
  | .reap _ _ _ _ _ now => [now]
  | _ => []

/-! ### Claims -/

/-- How often the claim of a job has been granted. -/
def claims (history : List Event) (jobId : UUID) : ℕ := history.count (.granted jobId)

/-- **The open claim of a job**, by its number: the latest that was granted, unless
it has been concluded or reaped since. -/
def openClaim (jobId : UUID) : List Event → Option ℕ
  | [] => none
  | .granted jobId' :: history =>
    if jobId' = jobId then some (claims history jobId + 1) else openClaim jobId history
  | .concluded jobId' _ :: history =>
    if jobId' = jobId then none else openClaim jobId history
  | .reaped jobId' :: history => if jobId' = jobId then none else openClaim jobId history

/-! ### The broker and the passes -/

namespace Worker

/-- The messages that the broker holds for a worker. -/
def held : Worker → List EncodingJobMessage
  | handling message _ true => [message]
  | _ => []

/-- The messages that are ready again once a worker has settled. -/
def released : Worker → List EncodingJobMessage
  | handling message (.settling .requeue) true => [message]
  | _ => []

/-- The execution that is going on in a worker. -/
def execution : Worker → Option Execution
  | handling _ phase _ => phase.execution
  | _ => none

end Worker

namespace Pass

/-- Whether a pass has selected a row. -/
def selects (pass : Pass) (messageId : UUID) : Bool := pass.rows.any fun p => p.1 = messageId

/-- The answers of a pass, as its publisher's. -/
def session (pass : Pass) (openError closeError : Option String) : PublisherSession where
  openError := openError
  publish := fun messageId =>
    (((pass.rows.map Prod.fst).zip pass.answers).lookup messageId).getD (.error "")
  closeError := closeError

/-- Whether a pass has come to its commit: opening its session has raised, or
every row has been sent. -/
def isComplete (pass : Pass) (openError : Option String) : Bool :=
  if openError.isSome then pass.answers.length = 0
  else pass.answers.length = pass.rows.length

/-- The database that a pass commits, where `db` is committed. -/
def commit (pass : Pass) (openError closeError : Option String) (db : Db) : Db :=
  Db.flush pass.loaded (pass.loaded.setOutboxRows
    (publishRows (pass.session openError closeError) pass.rows).1) db

end Pass

/-! ### Steps -/

namespace System

/-- A step, the clock aside. -/
def act (s : System) : Action → Option System
  | .request op =>
    if op.isUploadRequest then
      some { s with db := (op.exec s.world).1.db, bucket := (op.exec s.world).1.bucket }
    else none
  | .deliver worker index =>
    match s.workers worker, s.ready[index]? with
    | .idle, some message => some { s with
        ready := s.ready.eraseIdx index
        workers := Function.update s.workers worker (.handling message .received true) }
    | _, _ => none
  | .work worker action =>
    match s.workers worker with
    | .handling message phase connected =>
      (workerStep s.db s.bucket (claims s.history) worker message phase action).map fun r =>
        { s with
          db := r.db
          bucket := r.bucket
          workers := Function.update s.workers worker (.handling message r.phase connected)
          history := r.events ++ s.history }
    | _ => none
  | .settle worker =>
    match s.workers worker with
    | .handling message (.settling action) connected => some { s with
        ready := (Worker.handling message (.settling action) connected).released ++ s.ready
        workers := Function.update s.workers worker (if connected then .idle else .stopped) }
    | _ => none
  | .disconnect worker =>
    match s.workers worker with
    | .handling message phase true => some { s with
        ready := message :: s.ready
        workers := Function.update s.workers worker (.handling message phase false) }
    | _ => none
  | .crash worker => some { s with
      ready := (s.workers worker).held ++ s.ready
      workers := Function.update s.workers worker .stopped }
  | .openPass now choice =>
    let rows := publishableMessages s.db now choice fun messageId =>
      s.passes.any fun pass => pass.selects messageId
    if rows = [] then some s else some { s with passes := ⟨s.db, rows, []⟩ :: s.passes }
  | .publish index answer accepted =>
    match s.passes[index]? with
    | none => none
    | some pass =>
      match pass.rows[pass.answers.length]? with
      | none => none
      | some row =>
        -- a call that returns has reached the broker
        if answer.isOk && !accepted then none
        else some { s with
          ready := (if accepted then [row.2.toEncodingJobMessage] else []) ++ s.ready
          passes := s.passes.set index { pass with answers := pass.answers ++ [answer] } }
  | .commitPass index openError closeError =>
    match s.passes[index]? with
    | none => none
    | some pass =>
      if pass.isComplete openError then some { s with
        db := pass.commit openError closeError s.db
        passes := s.passes.eraseIdx index }
      else none
  | .abandonPass index => some { s with passes := s.passes.eraseIdx index }
  | .reap settings staleBefore limit locked newId now =>
    match reapStaleEncodingJobs settings s.db staleBefore limit locked newId now with
    | .error _ => some s
    | .ok (db, _) => some { s with
        db := db
        history := (staleJobs s.db staleBefore limit locked).map Event.reaped ++ s.history }

/-- **A step of the system.** -/
def step (s : System) (a : Action) : Option System :=
  (s.act a).map fun s' => { s' with clock := a.readings.getLastD s.clock }

end System

/-- **The states of the system** in runs whose steps meet a condition. -/
abbrev ReachableSystem (guard : System → Action → Prop) (s : System) : Prop :=
  Reaches System.step guard (· = System.start) s

end RenditionPipeline
