import RenditionPipeline.Services.Jobs

/-!
# The outbox service

Messages for the broker are rows first: a job's message is added in the
transaction that creates the job, and a publishing pass later reads the pending
ones, sends them and marks them published. What the broker answers is a
parameter of the pass (`RenditionPipeline.PublisherSession`): opening the session
may raise, so may each publish call, and so may closing it.
-/

namespace RenditionPipeline

/-- `EncodingJobMessage` -/
structure EncodingJobMessage where
  jobId : UUID
  videoId : UUID
  renditionId : UUID
deriving DecidableEq

/-- The message that a row of the outbox is published as. -/
def OutboxMessage.toEncodingJobMessage (message : OutboxMessage) : EncodingJobMessage :=
  ⟨message.jobId, message.videoId, message.renditionId⟩

/-- Adding a message, under its primary key and `uq_outbox_messages_job_id`. -/
def Db.addOutboxMessage (db : Db) (id : UUID) (message : OutboxMessage) : Except Raised Db :=
  if db.outboxMessages.rows.any fun p => p.2.jobId = message.jobId then .error .integrityError
  else
    match db.outboxMessages.insert? id message with
    | none => .error .integrityError
    | some outboxMessages => .ok { db with outboxMessages := outboxMessages }

/-- `create_outbox_messages`: the ids of the new messages, which `newId` draws
for the jobs. -/
def createOutboxMessages (newId : UUID → UUID) (now : Timestamp) :
    List (UUID × Job) → Db → Except Raised (Db × List UUID)
  | [], db => .ok (db, [])
  | (jobId, job) :: jobs, db => do
    let db ← db.addOutboxMessage (newId jobId)
      (newOutboxMessage jobId job.videoId job.renditionId now)
    let (db, ids) ← createOutboxMessages newId now jobs db
    return (db, newId jobId :: ids)

/-! ### A publishing pass -/

/-- Which pending messages a pass looks at: so many of the oldest, or the given ones. -/
inductive OutboxChoice where
  | limit (n : ℕ)
  | ids (outboxMessageIds : List UUID)

/-- The condition of the query of `publish_pending_outbox_messages`: a pending
message of a pending job that is due. -/
def isPublishable (db : Db) (now : Timestamp) (message : OutboxMessage) : Bool :=
  message.status = .pending &&
    match db.jobs.get? message.jobId with
    | none => false
    | some job => isClaimable job now

/-- The order of `created_at`. -/
def createdBefore (p q : UUID × OutboxMessage) : Prop := p.2.createdAt ≤ q.2.createdAt

instance : DecidableRel createdBefore := fun p q => by
  rw [createdBefore]
  exact inferInstance

/-- The query of `publish_pending_outbox_messages`. -/
def publishableMessages (db : Db) (now : Timestamp) (choice : OutboxChoice)
    (locked : UUID → Bool) : List (UUID × OutboxMessage) :=
  let due := (db.outboxMessages.select fun id message =>
    isPublishable db now message && !locked id).insertionSort createdBefore
  match choice with
  | .limit n => due.take n
  | .ids outboxMessageIds => due.filter fun p => p.1 ∈ outboxMessageIds

/-- What the publisher answers during one pass: the text of the exception that
opening or closing the session raises, and for each message the text of the
exception of its publish call or the instant at which the call has returned. -/
structure PublisherSession where
  openError : Option String
  publish : UUID → Except String Timestamp
  closeError : Option String

/-- A row whose publish call has raised, and a row under a failed session. -/
def failedMessage (error : String) (message : OutboxMessage) : OutboxMessage :=
  { message with attemptCount := message.attemptCount + 1, lastError := some error }

/-- A row whose publish call has returned. -/
def publishedMessage (now : Timestamp) (message : OutboxMessage) : OutboxMessage :=
  { message with status := .published, publishedAt := some now, lastError := none }

/-- The row after its publish call. -/
def afterPublish (answer : Except String Timestamp) (message : OutboxMessage) : OutboxMessage :=
  match answer with
  | .error error => failedMessage error message
  | .ok now => publishedMessage now message

/-- The rows as a pass leaves them in memory, and the count it returns. -/
def publishRows (session : PublisherSession) (rows : List (UUID × OutboxMessage)) :
    List (UUID × OutboxMessage) × ℕ :=
  match session.openError with
  | some error => (rows.map fun p => (p.1, failedMessage error p.2), 0)
  | none =>
    let sent := rows.map fun p => (p.1, afterPublish (session.publish p.1) p.2)
    match session.closeError with
    | some error => (sent.map fun p => (p.1, failedMessage error p.2), 0)
    | none => (sent, (rows.filter fun p => (session.publish p.1).isOk).length)

/-- The outbox with rows of a session written over its own. -/
def Db.setOutboxRows (db : Db) (rows : List (UUID × OutboxMessage)) : Db :=
  { db with
    outboxMessages := rows.foldl (fun table p => table.modify p.1 fun _ => p.2) db.outboxMessages }

/-- `publish_pending_outbox_messages`: the database it commits and the count it
returns. -/
def publishPendingOutboxMessages (db : Db) (session : PublisherSession) (now : Timestamp)
    (choice : OutboxChoice) (locked : UUID → Bool) : Db × ℕ :=
  let rows := publishableMessages db now choice locked
  if rows = [] then (db, 0)
  else (db.setOutboxRows (publishRows session rows).1, (publishRows session rows).2)

end RenditionPipeline
