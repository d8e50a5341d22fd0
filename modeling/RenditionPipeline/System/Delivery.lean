import RenditionPipeline.Lifecycle.Attempts
import RenditionPipeline.System.Fencing

/-!
# The settlement of a delivery

`handle_delivery` runs one message through `process_encoding_message` and tells the
broker, once, what to do with it. The worker of `RenditionPipeline.System.Worker` takes
this road step by step, among others who move in between; here it is one function
(`RenditionPipeline.processEncodingMessage`, `RenditionPipeline.handleDelivery`), with
the four kinds of transactions that it makes and what each of them leaves, so that its
answer to the broker can be held against them.

A rejected message is dead-lettered, and that is meant for a job that has come to its
end in failure. The answer fits the transactions (`RenditionPipeline.Dispatched`) unless
the claim itself has failed the job, for want of attempts: then the message is
acknowledged, and in every run this is so for the jobs that were given no attempts at all
and for no others (`RenditionPipeline.delivery_settled`). The two models agree: what a worker
settles on, in any run of the system, is the answer of the function
(`RenditionPipeline.handled_of_settling`).
-/

namespace RenditionPipeline

/-- A transaction: the database it has read, and the one it has left. -/
structure DbTransaction where
  before : Db
  after : Db

namespace DbTransaction

/-- A transaction that has changed nothing, or that is rolled back. -/
def unchanged (db : Db) : DbTransaction := ⟨db, db⟩

/-- **A transaction fails a job**: it commits the change of the job to failed. -/
def FailsJob (t : DbTransaction) (jobId : UUID) : Prop :=
  ∃ job job', t.before.jobs.get? jobId = some job ∧ t.after.jobs.get? jobId = some job' ∧
    job.status ≠ .failed ∧ job'.status = .failed

end DbTransaction

/-- An exception that leaves `process_encoding_message`: one of the job service's, or
the database's own. -/
inductive ProcessingError where
  | raised (error : Raised)
  | unavailable

/-- How `processor.process` ends: it returns, raises `EncodingJobOwnershipLost`, or raises
any other exception with this text. -/
inductive ProcessorOutcome where
  | returned (result : EncodingProcessorResult)
  | ownershipLost
  | raised (error : String)

/-- A call of `heartbeat_encoding_job`: the database it reads, the clock, and whether the
database is available to it. -/
structure HeartbeatCall where
  db : Db
  now : Timestamp
  available : Bool

/-- What a marking transaction comes upon: the settings, the database, a new id, the
clock, the answer of the storage, and whether the database is available to it, to its
commit. -/
structure Marking where
  settings : Settings
  db : Db
  newId : UUID
  now : Timestamp
  uploadOk : Bool
  available : Bool

/-- What the handling of a message draws from outside. -/
structure Surroundings where
  /-- Whether the database is available to the claim, to its commit. -/
  claimAvailable : Bool
  checkedAt : Timestamp
  claimedAt : Timestamp
  /-- The number of the claim, for the observer. -/
  claim : ℕ
  /-- The calls of the heartbeat thread. -/
  beats : List HeartbeatCall
  /-- The calls of the ownership checker. -/
  checks : List HeartbeatCall
  outcome : ProcessorOutcome
  marking : Marking

/-- The transactions that a call has made, in order, and how it has ended. -/
abbrev Processed : Type := List DbTransaction × Except ProcessingError WorkerMessageAction

/-! ### Handling a message -/

namespace HeartbeatCall

/-- The database that a call leaves, and whether it has found the claim lost. -/
def run (call : HeartbeatCall) (e : Execution) : Db × Bool :=
  if call.available then beat call.db e call.now else (call.db, false)

/-- The transaction of a call. -/
def transaction (call : HeartbeatCall) (e : Execution) : DbTransaction :=
  ⟨call.db, (call.run e).1⟩

end HeartbeatCall

/-- `JobHeartbeat._run`: the calls go on until one of them finds the claim lost. -/
def runHeartbeat (e : Execution) : List HeartbeatCall → Execution × List DbTransaction
  | [] => (e, [])
  | call :: calls =>
    if (call.run e).2 then ({ e with heartbeatLost := true }, [call.transaction e])
    else ((runHeartbeat e calls).1, call.transaction e :: (runHeartbeat e calls).2)

/-- The handler of an exception of the processor. -/
def recordFailure (marking : Marking) (e : Execution) (error : String) : Processed :=
  if marking.available then
    match markEncodingJobFailed marking.settings marking.db e.context.jobId error
        e.context.workerId marking.newId marking.now marking.uploadOk with
    | .error error => ([.unchanged marking.db], .error (.raised error))
    | .ok m => ([⟨marking.db, m.db⟩], .ok (failureAction m.result))
  else ([.unchanged marking.db], .error .unavailable)

/-- The transaction of a result of the processor. -/
def recordReturned (marking : Marking) (e : Execution) (result : EncodingProcessorResult) :
    Processed :=
  if marking.available then
    match recordResult marking.db e result marking.now marking.uploadOk with
    | .error error => ([.unchanged marking.db], .error (.raised error))
    | .ok m => ([⟨marking.db, m.db⟩], .ok .ack)
  else ([.unchanged marking.db], .error .unavailable)

/-- What is left to do when the processor has ended. -/
def recordOutcome (marking : Marking) (e : Execution) : ProcessorOutcome → Processed
  | .ownershipLost => ([], .ok .ack)
  | .raised error => recordFailure marking e error
  | .returned result =>
    if e.heartbeatLost then ([], .ok .ack) else recordReturned marking e result

/-- `process_encoding_message`, after a claim that is granted. -/
def processClaimedJob (env : Surroundings) (e : Execution) : Processed :=
  let recorded := recordOutcome env.marking (runHeartbeat e env.beats).1 env.outcome
  ((runHeartbeat e env.beats).2 ++ env.checks.map (HeartbeatCall.transaction · e) ++ recorded.1,
    recorded.2)

/-- **`process_encoding_message`**, where the claim comes upon the database `db`. -/
def processEncodingMessage (workerId : String) (db : Db) (env : Surroundings)
    (message : EncodingJobMessage) : Processed :=
  if env.claimAvailable then
    match claimEncodingJob db message.jobId message.videoId message.renditionId workerId
        env.checkedAt env.claimedAt with
    | .error error => ([.unchanged db],
      if error.isEncodingJobError then .ok .reject else .error (.raised error))
    | .ok (db', none) => ([⟨db, db'⟩], .ok .ack)
    | .ok (db', some context) =>
      let claimed := processClaimedJob env ⟨context, env.claim, false, false⟩
      (⟨db, db'⟩ :: claimed.1, claimed.2)
  else ([.unchanged db], .error .unavailable)

/-- A call of the channel about the delivery. -/
inductive ChannelCall where
  | basicAck
  | basicNack (requeue : Bool)
  | basicReject (requeue : Bool)
deriving DecidableEq

/-- What the end of `process_encoding_message` comes to: an exception is caught, and the
message is to come again. -/
def settledAction : Except ProcessingError WorkerMessageAction → WorkerMessageAction
  | .error _ => .requeue
  | .ok action => action

/-- The call for an action. -/
def WorkerMessageAction.call : WorkerMessageAction → ChannelCall
  | .ack => .basicAck
  | .requeue => .basicNack true
  | .reject => .basicReject false

/-- **`handle_delivery`**: the calls of the channel. Whether a body is a message is for the
model's validation to say. -/
def handleDelivery (modelValidateJson : ByteArray → Option EncodingJobMessage)
    (workerId : String) (db : Db) (env : Surroundings) (body : ByteArray) : List ChannelCall :=
  match modelValidateJson body with
  | none => [.basicReject false]
  | some message => [(settledAction (processEncodingMessage workerId db env message).2).call]

/-! ### What the transactions do -/

section Transactions

variable {env : Surroundings} {e : Execution} {jobId : UUID}

theorem not_failsJob_unchanged (db : Db) (jobId : UUID) :
    ¬ (DbTransaction.unchanged db).FailsJob jobId := by
  rintro ⟨job, job', hj, hj', hne, hfailed⟩
  obtain rfl : job = job' := Option.some.inj (hj.symm.trans hj')
  exact hne hfailed

/-- A settled job is failed when its outcome is a failure. -/
theorem Settled.failsJob_iff {db db' : Db} {loaded : LoadedJob db} {o : Outcome}
    {publication : Option Publication} (hs : Settled loaded o publication db') :
    DbTransaction.FailsJob ⟨db, db'⟩ loaded.jobId ↔ (o.job loaded.job).status = .failed := by
  constructor
  · rintro ⟨job, job', hj, hj', -, hfailed⟩
    rw [hs.get?_job_self, Option.some.injEq] at hj'
    rw [hj']
    exact hfailed
  · intro hfailed
    refine ⟨loaded.job, _, loaded.get?_job, hs.get?_job_self, fun h => ?_, hfailed⟩
    have hactive := hs.enabled.isActive
    rw [h] at hactive
    cases hactive

/-- A heartbeat fails no job. -/
theorem HeartbeatCall.not_failsJob (call : HeartbeatCall) (e : Execution) (jobId : UUID) :
    ¬ (call.transaction e).FailsJob jobId := by
  rintro ⟨job, job', hj, hj', hne, hfailed⟩
  refine hne ?_
  suffices hstatus : job'.status = job.status by rw [← hstatus, hfailed]
  simp only [HeartbeatCall.transaction, HeartbeatCall.run, beat] at hj hj'
  split at hj'
  · split at hj'
    · rw [Option.some.inj (hj'.symm.trans hj)]
    · rename_i db' owned hok
      obtain ⟨loaded, -, -, rfl⟩ := heartbeatEncodingJob_eq_ok hok
      cases owned with
      | false => rw [Option.some.inj (hj'.symm.trans hj)]
      | true =>
        rw [if_pos rfl] at hj'
        by_cases hid : jobId = e.context.jobId
        · rw [hid] at hj hj'
          rw [Table.get?_modify_self, hj, Option.map_some, Option.some.injEq] at hj'
          rw [← hj']
        · rw [Table.get?_modify_of_ne hid] at hj'
          rw [Option.some.inj (hj'.symm.trans hj)]
  · rw [Option.some.inj (hj'.symm.trans hj)]

theorem not_failsJob_of_mem_runHeartbeat {calls : List HeartbeatCall} {t : DbTransaction}
    (ht : t ∈ (runHeartbeat e calls).2) : ¬ t.FailsJob jobId := by
  induction calls with
  | nil => cases ht
  | cons call calls ih =>
    rw [runHeartbeat] at ht
    split at ht
    · rw [List.mem_singleton.mp ht]
      exact call.not_failsJob e jobId
    · rcases List.mem_cons.mp ht with rfl | ht
      · exact call.not_failsJob e jobId
      · exact ih ht

/-- The heartbeat changes nothing of an execution but the flag of the heartbeat. -/
theorem context_runHeartbeat (e : Execution) (calls : List HeartbeatCall) :
    (runHeartbeat e calls).1.context = e.context := by
  induction calls with
  | nil => rfl
  | cons call calls ih =>
    rw [runHeartbeat]
    split
    · rfl
    · exact ih

end Transactions

/-! ### The answer fits the transactions -/

/-- **An answer fits the transactions** of a call, as to a job: the message is rejected
just when one of them has failed the job, comes again only because of an exception, and
then the last transaction has changed nothing. -/
structure Fits (jobId : UUID) (p : Processed) : Prop where
  reject_iff : p.2 = .ok .reject ↔ ∃ t ∈ p.1, t.FailsJob jobId
  not_requeue : p.2 ≠ .ok .requeue
  rolledBack : ∀ error, p.2 = .error error → ∃ t, p.1.getLast? = some t ∧ t.after = t.before

section Fitting

variable {jobId : UUID} {env : Surroundings} {e : Execution}

/-- A call that only acknowledges fits when its transactions fail no job. -/
theorem Fits.ack {ts : List DbTransaction} (hts : ∀ t ∈ ts, ¬ t.FailsJob jobId) :
    Fits jobId (ts, .ok .ack) where
  reject_iff := ⟨fun h => (by cases h), fun ⟨t, ht, hfails⟩ => absurd hfails (hts t ht)⟩
  not_requeue := fun h => by cases h
  rolledBack := fun _ h => by cases h

/-- A call that raises fits when its one transaction is rolled back. -/
theorem Fits.raised (db : Db) (error : ProcessingError) :
    Fits jobId ([.unchanged db], .error error) where
  reject_iff := by
    refine ⟨fun h => (by cases h), ?_⟩
    rintro ⟨t, ht, hfails⟩
    rw [List.mem_singleton.mp ht] at hfails
    exact absurd hfails (not_failsJob_unchanged db jobId)
  not_requeue := fun h => by cases h
  rolledBack := fun _ _ => ⟨_, rfl, rfl⟩

/-- Transactions that fail no job can come before. -/
theorem Fits.prepend {p : Processed} (h : Fits jobId p) {ts : List DbTransaction}
    (hts : ∀ t ∈ ts, ¬ t.FailsJob jobId) : Fits jobId (ts ++ p.1, p.2) where
  reject_iff := by
    refine h.reject_iff.trans ⟨fun ⟨t, ht, hfails⟩ => ⟨t, List.mem_append_right _ ht, hfails⟩, ?_⟩
    rintro ⟨t, ht, hfails⟩
    rcases List.mem_append.mp ht with ht | ht
    · exact absurd hfails (hts t ht)
    · exact ⟨t, ht, hfails⟩
  not_requeue := h.not_requeue
  rolledBack := fun error he => by
    obtain ⟨t, ht, hsame⟩ := h.rolledBack error he
    exact ⟨t, by rw [List.getLast?_append, ht, Option.some_or], hsame⟩

/-- One transaction that does not fail the job can come before. -/
theorem Fits.cons {p : Processed} (h : Fits jobId p) {t : DbTransaction} (ht : ¬ t.FailsJob jobId) :
    Fits jobId (t :: p.1, p.2) :=
  h.prepend (List.forall_mem_singleton.mpr ht)

/-- **A failure that is recorded** fails the job, or schedules a retry, or finds the job
with someone else. -/
theorem fits_recordFailure (marking : Marking) (e : Execution) (error : String) :
    Fits e.context.jobId (recordFailure marking e error) := by
  rw [recordFailure]
  split
  swap
  · exact Fits.raised _ _
  split
  · exact Fits.raised _ _
  rename_i m hok
  obtain ⟨loaded, hid, ⟨-, rfl⟩ | ⟨-, hr, -, nextRunAt, -, hs⟩ | ⟨-, hr, hs⟩⟩ :=
    markEncodingJobFailed_eq_ok hok
  · refine Fits.ack fun t ht => ?_
    rw [List.mem_singleton.mp ht]
    exact not_failsJob_unchanged _ _
  · rw [hr, ← hid]
    refine Fits.ack fun t ht hfails => ?_
    rw [List.mem_singleton.mp ht, hs.failsJob_iff] at hfails
    cases hfails
  · rw [hr, ← hid]
    have hfails : DbTransaction.FailsJob ⟨marking.db, m.db⟩ loaded.jobId := hs.failsJob_iff.mpr rfl
    exact ⟨⟨fun _ => ⟨_, List.mem_singleton_self _, hfails⟩, fun _ => rfl⟩,
      fun h => (by cases h), fun _ h => (by cases h)⟩

/-- **A result that is recorded** fails no job. -/
theorem fits_recordReturned (marking : Marking) (e : Execution) (result : EncodingProcessorResult) :
    Fits e.context.jobId (recordReturned marking e result) := by
  rw [recordReturned]
  split
  swap
  · exact Fits.raised _ _
  split
  · exact Fits.raised _ _
  rename_i m hok
  refine Fits.ack fun t ht hfails => ?_
  rw [List.mem_singleton.mp ht] at hfails
  rw [recordResult] at hok
  split at hok
  · obtain ⟨loaded, hid, ⟨-, rfl⟩ | ⟨-, -, hs⟩⟩ := markEncodingJobSkipped_eq_ok hok
    · exact not_failsJob_unchanged _ _ hfails
    · rw [← hid, hs.failsJob_iff] at hfails
      cases hfails
  · obtain ⟨loaded, hid, ⟨-, rfl⟩ | ⟨-, -, hs⟩⟩ := markEncodingJobSucceeded_eq_ok hok
    · exact not_failsJob_unchanged _ _ hfails
    · rw [← hid, hs.failsJob_iff] at hfails
      cases hfails

theorem fits_recordOutcome (marking : Marking) (e : Execution) (outcome : ProcessorOutcome) :
    Fits e.context.jobId (recordOutcome marking e outcome) := by
  cases outcome with
  | ownershipLost => exact Fits.ack fun t ht => by cases ht
  | raised error => exact fits_recordFailure marking e error
  | returned result =>
    rw [recordOutcome]
    split
    · exact Fits.ack fun t ht => by cases ht
    · exact fits_recordReturned marking e result

theorem fits_processClaimedJob (env : Surroundings) (e : Execution) :
    Fits e.context.jobId (processClaimedJob env e) := by
  have hrecorded := fits_recordOutcome env.marking (runHeartbeat e env.beats).1 env.outcome
  rw [context_runHeartbeat] at hrecorded
  refine hrecorded.prepend fun t ht => ?_
  rcases List.mem_append.mp ht with ht | ht
  · exact not_failsJob_of_mem_runHeartbeat ht
  · obtain ⟨call, -, rfl⟩ := List.mem_map.mp ht
    exact call.not_failsJob e _

end Fitting

/-! ### What the claim finds -/

/-- A message is that of a job, which it names with its video and its rendition. -/
def EncodingJobMessage.Matches (message : EncodingJobMessage) (job : Job) : Prop :=
  job.videoId = message.videoId ∧ job.renditionId = message.renditionId

/-- **The claim finds no job** that the message is of. -/
def Unmatched (db : Db) (env : Surroundings) (message : EncodingJobMessage) : Prop :=
  env.claimAvailable = true ∧
    ∀ job, db.jobs.get? message.jobId = some job → ¬ message.Matches job

/-- **The claim finds the job of the message without attempts left**, when it is to be
claimed. -/
def Exhausts (db : Db) (env : Surroundings) (message : EncodingJobMessage) : Prop :=
  env.claimAvailable = true ∧ ∃ job, db.jobs.get? message.jobId = some job ∧
    message.Matches job ∧ isClaimable job env.checkedAt = true ∧ hasExhaustedAttempts job = true

section Claims

variable {db : Db} {env : Surroundings} {message : EncodingJobMessage} {workerId : String}

/-- The claim of a job that can be loaded. -/
theorem claimEncodingJob_of_loaded {loaded : LoadedJob db} {jobId : UUID}
    (hl : getJobForUpdate db jobId = .ok loaded) (videoId renditionId : UUID) (workerId : String)
    (checkedAt now : Timestamp) :
    claimEncodingJob db jobId videoId renditionId workerId checkedAt now =
      (validateJobMessage loaded.job videoId renditionId).bind fun _ =>
        if isClaimable loaded.job checkedAt = false then .ok (db, none)
        else if hasExhaustedAttempts loaded.job then
          .ok (markJobAttemptsExhausted db loaded.ref now, none)
        else .ok (markJobRunning db loaded.ref workerId now,
          some (buildEncodingContext loaded workerId now)) := by
  rw [claimEncodingJob, hl]
  rfl

/-- A message that matches its job is valid. -/
theorem validateJobMessage_eq_ok_iff {job : Job} {videoId renditionId : UUID} :
    validateJobMessage job videoId renditionId = .ok () ↔
      job.videoId = videoId ∧ job.renditionId = renditionId := by
  rw [validateJobMessage]
  split
  · rename_i h
    exact ⟨fun he => (by cases he), fun he => absurd he (by tauto)⟩
  · rename_i h
    exact ⟨fun _ => by tauto, fun _ => rfl⟩

/-- **The message of no job** is rejected, and nothing is changed. -/
theorem processEncodingMessage_of_unmatched (hl : db.Linked) (h : Unmatched db env message) :
    processEncodingMessage workerId db env message = ([.unchanged db], .ok .reject) := by
  obtain ⟨havailable, hno⟩ := h
  rw [processEncodingMessage, if_pos havailable]
  cases hj : db.jobs.get? message.jobId with
  | none =>
    have hnone : getJobForUpdate db message.jobId =
        .error (.encodingJobNotFoundError "encoding job not found") := by
      rw [getJobForUpdate]
      split
      · rfl
      · rename_i job hsome
        rw [hsome] at hj
        cases hj
    rw [claimEncodingJob, hnone]
    rfl
  | some job =>
    obtain ⟨loaded, hloaded, -, rfl⟩ := hl.exists_loaded hj
    have hmatch := hno _ hj
    rw [claimEncodingJob_of_loaded hloaded, validateJobMessage, if_pos]
    · rfl
    · by_contra hboth
      exact hmatch (by simpa [EncodingJobMessage.Matches] using hboth)

/-- **A claim for want of attempts** fails the job, and the message is acknowledged. -/
theorem processEncodingMessage_of_exhausts (workerId : String) (hl : db.Linked)
    (h : Exhausts db env message) :
    (processEncodingMessage workerId db env message).2 = .ok .ack ∧
      ∃ t ∈ (processEncodingMessage workerId db env message).1, t.FailsJob message.jobId := by
  obtain ⟨havailable, job, hj, hmatch, hclaimable, hexhausted⟩ := h
  obtain ⟨loaded, hloaded, hid, rfl⟩ := hl.exists_loaded hj
  have hclaim : claimEncodingJob db message.jobId message.videoId message.renditionId workerId
      env.checkedAt env.claimedAt =
        .ok (markJobAttemptsExhausted db loaded.ref env.claimedAt, none) := by
    rw [claimEncodingJob_of_loaded hloaded, validateJobMessage_eq_ok_iff.mpr hmatch]
    exact (if_neg (by simp [hclaimable])).trans (if_pos hexhausted)
  rw [processEncodingMessage, if_pos havailable, hclaim]
  refine ⟨rfl, _, List.mem_singleton_self _, ?_⟩
  obtain ⟨loaded', hid', ⟨hno, -⟩ | ⟨-, hs⟩ | ⟨hsome, -⟩⟩ := claimEncodingJob_eq_ok hclaim
  · rw [← hid'] at hj
    rw [Option.some.inj (loaded'.get?_job.symm.trans hj), hclaimable] at hno
    cases hno
  · rw [← hid']
    exact hs.failsJob_iff.mpr rfl
  · cases hsome

/-- **Every other message** gets the answer that fits. -/
theorem fits_processEncodingMessage (workerId : String) (hl : db.Linked)
    (hmatched : ¬ Unmatched db env message) (hattempts : ¬ Exhausts db env message) :
    Fits message.jobId (processEncodingMessage workerId db env message) := by
  rw [processEncodingMessage]
  by_cases havailable : env.claimAvailable = true
  swap
  · rw [if_neg havailable]
    exact Fits.raised _ _
  rw [if_pos havailable]
  -- neither exception applies: the job matches, and it has attempts left
  obtain ⟨job, hj, hmatch⟩ : ∃ job, db.jobs.get? message.jobId = some job ∧
      message.Matches job := by
    by_contra hno
    exact hmatched ⟨havailable, fun job hj hm => hno ⟨job, hj, hm⟩⟩
  obtain ⟨loaded, hloaded, hid, rfl⟩ := hl.exists_loaded hj
  have hclaim := claimEncodingJob_of_loaded hloaded message.videoId message.renditionId workerId
    env.checkedAt env.claimedAt
  rw [validateJobMessage_eq_ok_iff.mpr hmatch] at hclaim
  by_cases hclaimable : isClaimable loaded.job env.checkedAt = true
  swap
  · rw [hclaim.trans (if_pos (by simpa using hclaimable))]
    refine Fits.ack fun t ht => ?_
    rw [List.mem_singleton.mp ht]
    exact not_failsJob_unchanged _ _
  have hleft : ¬ hasExhaustedAttempts loaded.job = true := fun h =>
    hattempts ⟨havailable, loaded.job, hj, hmatch, hclaimable, h⟩
  rw [hclaim.trans ((if_neg (by simp [hclaimable])).trans (if_neg hleft))]
  have hrest := fits_processClaimedJob env
    ⟨buildEncodingContext loaded workerId env.claimedAt, env.claim, false, false⟩
  have hjob : (buildEncodingContext loaded workerId env.claimedAt).jobId = message.jobId := hid
  rw [hjob] at hrest
  refine hrest.cons fun hfails => ?_
  have hok : claimEncodingJob db message.jobId message.videoId message.renditionId workerId
      env.checkedAt env.claimedAt = .ok (markJobRunning db loaded.ref workerId env.claimedAt,
        some (buildEncodingContext loaded workerId env.claimedAt)) :=
    hclaim.trans ((if_neg (by simp [hclaimable])).trans (if_neg hleft))
  obtain ⟨loaded', hid', ⟨-, -, hnone⟩ | ⟨hnone, -⟩ | ⟨-, hs⟩⟩ := claimEncodingJob_eq_ok hok
  · cases hnone
  · cases hnone
  · rw [← hid', hs.failsJob_iff] at hfails
    cases hfails

end Claims

/-! ### Every delivery is settled once -/

/-- **A delivery is settled as it should be.** -/
structure Dispatched (modelValidateJson : ByteArray → Option EncodingJobMessage)
    (workerId : String) (db : Db) (env : Surroundings) (body : ByteArray) : Prop where
  /-- There is one call of the channel, and it is one of the three. -/
  once : ∃ action : WorkerMessageAction,
    handleDelivery modelValidateJson workerId db env body = [action.call]
  /-- The message is rejected just when it is none, or of no job, or when a transaction of
  this handling has failed the job. -/
  rejected : .basicReject false ∈ handleDelivery modelValidateJson workerId db env body ↔
    modelValidateJson body = none ∨ ∃ message, modelValidateJson body = some message ∧
      (Unmatched db env message ∨
        ∃ t ∈ (processEncodingMessage workerId db env message).1, t.FailsJob message.jobId)
  /-- The message comes again just when an exception has escaped. -/
  requeued : .basicNack true ∈ handleDelivery modelValidateJson workerId db env body ↔
    ∃ message error, modelValidateJson body = some message ∧
      (processEncodingMessage workerId db env message).2 = .error error
  /-- The transaction that has raised, the last, has changed nothing. -/
  rolledBack : ∀ message error, modelValidateJson body = some message →
    (processEncodingMessage workerId db env message).2 = .error error →
      ∃ t, (processEncodingMessage workerId db env message).1.getLast? = some t ∧
        t.after = t.before

section Deliveries

variable {modelValidateJson : ByteArray → Option EncodingJobMessage} {workerId : String}
  {db : Db} {env : Surroundings} {body : ByteArray} {message : EncodingJobMessage}

theorem WorkerMessageAction.call_inj {a b : WorkerMessageAction} : a.call = b.call ↔ a = b := by
  cases a <;> cases b <;> simp [WorkerMessageAction.call]

/-- The call for an action is made just when the message is settled on it. -/
theorem mem_handleDelivery (hbody : modelValidateJson body = some message)
    (action : WorkerMessageAction) :
    action.call ∈ handleDelivery modelValidateJson workerId db env body ↔
      settledAction (processEncodingMessage workerId db env message).2 = action := by
  rw [handleDelivery, hbody, List.mem_singleton, WorkerMessageAction.call_inj, eq_comm]

theorem settledAction_eq_reject_iff {p : Except ProcessingError WorkerMessageAction} :
    settledAction p = .reject ↔ p = .ok .reject := by
  cases p <;> simp [settledAction]

theorem settledAction_eq_requeue_iff {p : Except ProcessingError WorkerMessageAction}
    (hp : p ≠ .ok .requeue) : settledAction p = .requeue ↔ ∃ error, p = .error error := by
  cases p with
  | error error => simp [settledAction]
  | ok action => simpa [settledAction] using hp

/-- A delivery whose answer fits is settled as it should be. -/
theorem Dispatched.of_fits (hbody : modelValidateJson body = some message)
    (hp : (processEncodingMessage workerId db env message).2 = .ok .reject ↔
      Unmatched db env message ∨
        ∃ t ∈ (processEncodingMessage workerId db env message).1, t.FailsJob message.jobId)
    (hrequeue : (processEncodingMessage workerId db env message).2 ≠ .ok .requeue)
    (hback : ∀ error, (processEncodingMessage workerId db env message).2 = .error error →
      ∃ t, (processEncodingMessage workerId db env message).1.getLast? = some t ∧
        t.after = t.before) : Dispatched modelValidateJson workerId db env body where
  once := ⟨_, by rw [handleDelivery, hbody]⟩
  rejected := by
    refine (mem_handleDelivery hbody .reject).trans ?_
    rw [settledAction_eq_reject_iff, hp]
    refine ⟨fun h => Or.inr ⟨message, hbody, h⟩, ?_⟩
    rintro (hnone | ⟨m, hm, h⟩)
    · rw [hbody] at hnone
      cases hnone
    · obtain rfl := Option.some.inj (hbody.symm.trans hm)
      exact h
  requeued := by
    refine (mem_handleDelivery hbody .requeue).trans ?_
    rw [settledAction_eq_requeue_iff hrequeue]
    refine ⟨fun ⟨error, he⟩ => ⟨message, error, hbody, he⟩, ?_⟩
    rintro ⟨m, error, hm, he⟩
    obtain rfl := Option.some.inj (hbody.symm.trans hm)
    exact ⟨error, he⟩
  rolledBack := by
    intro m error hm he
    obtain rfl := Option.some.inj (hbody.symm.trans hm)
    exact hback error he

/-- A body that is no message is rejected. -/
theorem Dispatched.of_invalid (hbody : modelValidateJson body = none) :
    Dispatched modelValidateJson workerId db env body where
  once := ⟨.reject, by rw [handleDelivery, hbody]; rfl⟩
  rejected := by
    rw [handleDelivery, hbody]
    exact ⟨fun _ => Or.inl rfl, fun _ => List.mem_singleton_self _⟩
  requeued := by
    rw [handleDelivery, hbody]
    refine ⟨fun h => by simp at h, ?_⟩
    rintro ⟨m, error, hm, -⟩
    cases hm
  rolledBack := fun m error hm => by rw [hbody] at hm; cases hm

/-- A claim that fails the job for want of attempts is not settled as it should be. -/
theorem not_dispatched_of_exhausts (hl : db.Linked) (hbody : modelValidateJson body = some message)
    (h : Exhausts db env message) : ¬ Dispatched modelValidateJson workerId db env body := by
  intro hd
  obtain ⟨hack, hfails⟩ := processEncodingMessage_of_exhausts workerId hl h
  have hreject := hd.rejected.mpr (Or.inr ⟨message, hbody, Or.inr hfails⟩)
  rw [handleDelivery, hbody] at hreject
  dsimp only at hreject
  rw [hack] at hreject
  cases List.mem_singleton.mp hreject

/-- **Only a job that is to have no attempts at all** is without attempts when it is claimed:
the attempts of any other end in failure before. -/
theorem ReachableSystem.exhausts_iff {guard : System → Action → Prop} {s : System}
    (h : ReachableSystem guard s) : Exhausts s.db env message ↔
      env.claimAvailable = true ∧ ∃ job, s.db.jobs.get? message.jobId = some job ∧
        message.Matches job ∧ isClaimable job env.checkedAt = true ∧ job.maxAttempts = 0 := by
  obtain ⟨granted, hattempts⟩ : ∃ granted, Attempts s.db granted :=
    h.invariant_db (I := fun db => ∃ granted, Attempts db granted) ⟨[], Attempts.empty⟩
      fun _ _ _ _ ⟨_, hw⟩ hm => ⟨_, hm.attempts hw⟩
  refine and_congr_right fun _ => exists_congr fun job => and_congr_right fun hj =>
    and_congr_right fun _ => and_congr_right fun hclaimable => ?_
  have hpending : job.status = .pending := by
    by_contra hne
    rw [isClaimable, if_pos hne] at hclaimable
    cases hclaimable
  have hleft := hattempts.pending _ job hj hpending
  rw [hasExhaustedAttempts, decide_eq_true_iff]
  omega

/-- **A delivery is settled as it should be just when** its claim does not find a job that is
to be claimed and was given no attempts, in every state of the system. -/
theorem delivery_settled {s : System} (h : ReachableSystem Unguarded s)
    (modelValidateJson : ByteArray → Option EncodingJobMessage) (workerId : String)
    (env : Surroundings) (body : ByteArray) :
    Dispatched modelValidateJson workerId s.db env body ↔
      ∀ message, modelValidateJson body = some message → ¬ (env.claimAvailable = true ∧
        ∃ job, s.db.jobs.get? message.jobId = some job ∧ message.Matches job ∧
          isClaimable job env.checkedAt = true ∧ job.maxAttempts = 0) := by
  have hl := h.linked
  simp only [← h.exhausts_iff]
  constructor
  · exact fun hd message hbody hexhausts => not_dispatched_of_exhausts hl hbody hexhausts hd
  · intro hattempts
    cases hbody : modelValidateJson body with
    | none => exact Dispatched.of_invalid hbody
    | some message =>
      by_cases hmatched : Unmatched s.db env message
      · refine Dispatched.of_fits hbody ?_ ?_ ?_ <;>
          rw [processEncodingMessage_of_unmatched hl hmatched]
        · exact ⟨fun _ => Or.inl hmatched, fun _ => rfl⟩
        · exact fun h => by cases h
        · exact fun _ h => by cases h
      · have hfits := fits_processEncodingMessage workerId hl hmatched
          (hattempts message hbody)
        refine Dispatched.of_fits hbody ?_ hfits.not_requeue hfits.rolledBack
        rw [hfits.reject_iff]
        exact ⟨Or.inr, fun h => h.resolve_left hmatched⟩

end Deliveries

/-- The text of a message, as the publisher sends it. -/
def EncodingJobMessage.modelDumpJson (message : EncodingJobMessage) : String :=
  "\x7b\"job_id\":\"" ++ message.jobId.str ++ "\",\"video_id\":\"" ++ message.videoId.str ++
    "\",\"rendition_id\":\"" ++ message.renditionId.str ++ "\"\x7d"

/-- The message of the first job of the sample. -/
def sampleMessage : EncodingJobMessage := ⟨sampleId 11, sampleId 0, sampleId 10⟩

/-- A handling that loses the job to another worker, if it is granted at all. -/
def sampleSurroundings : Surroundings where
  claimAvailable := true
  checkedAt := 2
  claimedAt := 2
  claim := 1
  beats := []
  checks := []
  outcome := .ownershipLost
  marking := ⟨sampleSettings, Db.empty, sampleId 99, 3, true, true⟩

/-- The requests of the sample, where a job has the given number of attempts. -/
def sampleUploadRequests (retryCount : ℕ) : List Action :=
  [.request (.createVideoUpload "media" "clip.mp4" "video/mp4" 10 1
      (fun key => some ⟨"media", key, "upload", []⟩) sampleId 0),
    .request (.completeVideoUpload ⟨retryCount, .ok [30]⟩
      ⟨true, some (some ⟨10, some "video/mp4"⟩), true⟩
      (sampleId 0) [⟨1, "etag"⟩] (fun n => sampleId (10 + n)) 1 1)]

/-- A job that has attempts left. -/
theorem delivery_settled_claimed : ∃ s, ReachableSystem Unguarded s ∧
    Dispatched (fun _ => some sampleMessage) "worker" s.db sampleSurroundings
      sampleMessage.modelDumpJson.toUTF8 := by
  obtain ⟨s, hs, hjob⟩ : ∃ s,
      guardedRun System.step Unguarded System.start (sampleUploadRequests 3) = some s ∧
        (s.db.jobs.get? sampleMessage.jobId).all (fun job => job.maxAttempts ≠ 0) :=
    ⟨_, rfl, by decide⟩
  have hstart : ReachableSystem Unguarded System.start := Reaches.start rfl
  have hreach := hstart.of_guardedRun hs
  refine ⟨s, hreach, (delivery_settled hreach _ _ _ _).mpr ?_⟩
  rintro _ ⟨⟩ ⟨-, job, hj, -, -, hnone⟩
  rw [hj] at hjob
  simp [hnone] at hjob

/-- **A job without attempts is failed by its claim, and its message acknowledged**: nothing
of it comes to the dead letters. -/
theorem exhausted_claim_acknowledged : ∃ s, ReachableSystem Unguarded s ∧
    ¬ Dispatched (fun _ => some sampleMessage) "worker" s.db sampleSurroundings
      sampleMessage.modelDumpJson.toUTF8 := by
  obtain ⟨s, job, hs, hj, hmatches, hclaimable, hexhausted⟩ : ∃ s job,
      guardedRun System.step Unguarded System.start (sampleUploadRequests 0) = some s ∧
      s.db.jobs.get? sampleMessage.jobId = some job ∧ sampleMessage.Matches job ∧
      isClaimable job sampleSurroundings.checkedAt = true ∧ hasExhaustedAttempts job = true :=
    ⟨_, _, rfl, rfl, ⟨rfl, rfl⟩, rfl, rfl⟩
  have hstart : ReachableSystem Unguarded System.start := Reaches.start rfl
  have hreach : ReachableSystem Unguarded s := hstart.of_guardedRun hs
  exact ⟨s, hreach, not_dispatched_of_exhausts hreach.linked rfl
    ⟨rfl, job, hj, hmatches, hclaimable, hexhausted⟩⟩

/-! ### The worker of the system settles alike -/

/-- **An execution goes on as a handling of its message**: the claim of the handling has
granted it, and its heartbeats have left the flag as it is. -/
structure HandledSoFar (workerId : String) (message : EncodingJobMessage) (e : Execution)
    (db : Db) (env : Surroundings) : Prop where
  claimAvailable : env.claimAvailable = true
  claimed : ∃ db', claimEncodingJob db message.jobId message.videoId message.renditionId workerId
    env.checkedAt env.claimedAt = .ok (db', some e.context)
  heartbeatLost :
    (runHeartbeat ⟨e.context, env.claim, false, false⟩ env.beats).1.heartbeatLost = e.heartbeatLost

/-- **A phase of a worker is one that a handling of its message goes through**: its
execution, if there is one, goes on as a handling, and what it settles on is the answer of
one. -/
structure Handled (workerId : String) (message : EncodingJobMessage) (phase : Phase) : Prop where
  execution : ∀ e, phase.execution = some e → ∃ db env, HandledSoFar workerId message e db env
  settling : ∀ action, phase = .settling action → ∃ db env,
    settledAction (processEncodingMessage workerId db env message).2 = action

section Workers

variable {workerId : String} {message : EncodingJobMessage} {e e' : Execution} {db : Db}
  {env : Surroundings}

/-- What is recorded depends on the context and on the flag of the heartbeat alone. -/
theorem recordOutcome_congr {marking : Marking} {outcome : ProcessorOutcome}
    (hcontext : e'.context = e.context) (hlost : e'.heartbeatLost = e.heartbeatLost) :
    recordOutcome marking e' outcome = recordOutcome marking e outcome := by
  cases outcome with
  | ownershipLost => rfl
  | raised error => simp only [recordOutcome, recordFailure, hcontext]
  | returned result =>
    simp only [recordOutcome, recordReturned, recordResult, hcontext, hlost]

theorem Handled.of_answer (db : Db) (env : Surroundings) {action : WorkerMessageAction}
    (h : settledAction (processEncodingMessage workerId db env message).2 = action) :
    Handled workerId message (.settling action) where
  execution := fun e he => by cases he
  settling := fun a ha => ⟨db, env, h.trans (Phase.settling.inj ha)⟩

theorem Handled.of_execution {phase : Phase} (h : HandledSoFar workerId message e db env)
    (he : phase.execution = some e) : Handled workerId message phase where
  execution := fun e' he' => ⟨db, env, Option.some.inj (he.symm.trans he') ▸ h⟩
  settling := fun action ha => by rw [ha] at he; cases he

/-- **However an execution ends, the handling ends.** -/
theorem HandledSoFar.settles (h : HandledSoFar workerId message e db env)
    (outcome : ProcessorOutcome) (marking : Marking) {action : WorkerMessageAction}
    (haction : settledAction (recordOutcome marking e outcome).2 = action) :
    Handled workerId message (.settling action) := by
  refine .of_answer db { env with outcome := outcome, marking := marking } ?_
  obtain ⟨db', hclaim⟩ := h.claimed
  rw [processEncodingMessage, if_pos h.claimAvailable]
  dsimp only
  rw [hclaim, ← haction]
  have hcontext : (runHeartbeat ⟨e.context, env.claim, false, false⟩ env.beats).1.context =
      e.context := context_runHeartbeat _ _
  show settledAction (recordOutcome marking
    (runHeartbeat ⟨e.context, env.claim, false, false⟩ env.beats).1 outcome).2 = _
  rw [recordOutcome_congr hcontext h.heartbeatLost]

/-- A beat in between is a call of the heartbeat thread. -/
theorem HandledSoFar.beat (h : HandledSoFar workerId message e db env) (db₁ : Db)
    (now : Timestamp) : ∃ env', HandledSoFar workerId message
      { e with heartbeatLost := e.heartbeatLost || (RenditionPipeline.beat db₁ e now).2 } db
      env' := by
  by_cases hbeat : (RenditionPipeline.beat db₁ e now).2 = true
  · refine ⟨{ env with beats := [⟨db₁, now, true⟩] }, h.claimAvailable, h.claimed, ?_⟩
    have hrun : ((⟨db₁, now, true⟩ : HeartbeatCall).run
        ⟨e.context, env.claim, false, false⟩).2 = true := hbeat
    rw [runHeartbeat, if_pos hrun, hbeat, Bool.or_true]
  · refine ⟨env, h.claimAvailable, h.claimed, ?_⟩
    rw [Bool.eq_false_of_not_eq_true hbeat, Bool.or_false]
    exact h.heartbeatLost

/-- The claim of a handling, where it grants the job. -/
theorem handledSoFar_claimed {context : EncodingJobContext} {checkedAt now : Timestamp} {db' : Db}
    (h : claimEncodingJob db message.jobId message.videoId message.renditionId workerId checkedAt
      now = .ok (db', some context)) (claim : ℕ) (marking : Marking) :
    HandledSoFar workerId message ⟨context, claim, false, false⟩ db
      ⟨true, checkedAt, now, claim, [], [], .ownershipLost, marking⟩ :=
  ⟨rfl, ⟨db', h⟩, rfl⟩

/-- The processor goes on with the handling. -/
theorem handled_processStep {bucket bucket' : Bucket} {progress : Progress}
    {action : WorkerAction} {phase : Phase} (h : HandledSoFar workerId message e db env)
    (hstep : processStep bucket e progress action = some (bucket', phase)) :
    Handled workerId message phase := by
  cases processStep_move hstep with
  | lost =>
    -- the processor settles nothing but the loss of the claim
    refine ⟨nofun, ?_⟩
    rintro answer ⟨⟩
    exact (h.settles .ownershipLost env.marking rfl).settling _ rfl
  | _ => exact .of_execution h rfl

/-- A marking that is free, where nothing is marked. -/
def Marking.idle : Marking := ⟨⟨0, .ok []⟩, Db.empty, ⟨0⟩, 0, true, true⟩

/-- **The claim is that of a handling**, which goes on with the execution or is over. -/
theorem handled_received {bucket : Bucket} {claims : UUID → ℕ} {action : WorkerAction}
    {r : WorkerStep}
    (hstep : workerStep db bucket claims workerId message .received action = some r) :
    Handled workerId message r.phase := by
  cases action with
  | claim checkedAt now =>
    simp only [workerStep] at hstep
    split at hstep
    · rename_i error herror
      obtain rfl := Option.some.inj hstep
      refine .of_answer db ⟨true, checkedAt, now, 0, [], [], .ownershipLost, .idle⟩ ?_
      rw [processEncodingMessage, if_pos rfl]
      dsimp only
      rw [herror]
      by_cases hrejects : error.isEncodingJobError = true <;> simp [hrejects, settledAction]
    · rename_i db' hok
      obtain rfl := Option.some.inj hstep
      refine .of_answer db ⟨true, checkedAt, now, 0, [], [], .ownershipLost, .idle⟩ ?_
      rw [processEncodingMessage, if_pos rfl]
      dsimp only
      rw [hok]
      rfl
    · rename_i db' context hok
      obtain rfl := Option.some.inj hstep
      exact .of_execution (handledSoFar_claimed hok _ .idle) rfl
  | unavailable =>
    obtain rfl := Option.some.inj hstep
    refine .of_answer db ⟨false, 0, 0, 0, [], [], .ownershipLost, .idle⟩ ?_
    rw [processEncodingMessage, if_neg Bool.false_ne_true]
    rfl
  | _ => cases hstep

/-- **The processor is that of the handling**, and so are the calls in between: a beat is one
more call of the heartbeat thread, and a check leaves its flag alone. -/
theorem handled_processing {bucket : Bucket} {claims : UUID → ℕ} {progress : Progress}
    {action : WorkerAction} {r : WorkerStep} {db₀ : Db}
    (h : HandledSoFar workerId message e db₀ env)
    (hstep : workerStep db bucket claims workerId message (.processing e progress) action =
      some r) : Handled workerId message r.phase := by
  have hprocess : ∀ {action}, (processStep bucket e progress action).map
      (fun result => (⟨db, result.1, result.2, []⟩ : WorkerStep)) = some r →
      Handled workerId message r.phase := by
    intro action hmap
    obtain ⟨⟨bucket', phase'⟩, hprocess, rfl⟩ := Option.map_eq_some_iff.mp hmap
    exact handled_processStep h hprocess
  cases action with
  | heartbeat now =>
    obtain rfl := Option.some.inj hstep
    obtain ⟨env', hbeat⟩ := h.beat db now
    exact .of_execution hbeat rfl
  | checkOwnership now =>
    obtain rfl := Option.some.inj hstep
    have hchecked : HandledSoFar workerId message
        { e with checkLost := e.checkLost || (beat db e now).2 } db₀ env :=
      ⟨h.claimAvailable, h.claimed, h.heartbeatLost⟩
    exact .of_execution hchecked rfl
  | _ => exact hprocess hstep

/-- **A failure is recorded as in the handling.** -/
theorem handled_failing {bucket : Bucket} {claims : UUID → ℕ} {error : String}
    {action : WorkerAction} {r : WorkerStep} {db₀ : Db}
    (h : HandledSoFar workerId message e db₀ env)
    (hstep : workerStep db bucket claims workerId message (.failing e error) action = some r) :
    Handled workerId message r.phase := by
  cases action with
  | heartbeat now =>
    obtain rfl := Option.some.inj hstep
    obtain ⟨env', hbeat⟩ := h.beat db now
    exact .of_execution hbeat rfl
  | fail settings newId now uploadOk commitOk =>
    simp only [workerStep] at hstep
    split at hstep
    · rename_i error' herror
      obtain rfl := Option.some.inj hstep
      refine h.settles (.raised error) ⟨settings, db, newId, now, uploadOk, true⟩ ?_
      simp only [recordOutcome, recordFailure, herror, if_true]
      rfl
    · rename_i m hok
      obtain rfl := Option.some.inj hstep
      cases commitOk with
      | true =>
        refine h.settles (.raised error) ⟨settings, db, newId, now, uploadOk, true⟩ ?_
        simp only [recordOutcome, recordFailure, hok, if_true]
        rfl
      | false =>
        exact h.settles (.raised error) ⟨settings, db, newId, now, uploadOk, false⟩ rfl
  | unavailable =>
    obtain rfl := Option.some.inj hstep
    exact h.settles (.raised error) ⟨⟨0, .ok []⟩, db, ⟨0⟩, 0, true, false⟩ rfl
  | _ => cases hstep

/-- **A result is recorded as in the handling**, unless the heartbeat has found the job
lost. -/
theorem handled_concluding {bucket : Bucket} {claims : UUID → ℕ}
    {result : EncodingProcessorResult} {action : WorkerAction} {r : WorkerStep} {db₀ : Db}
    (h : HandledSoFar workerId message e db₀ env)
    (hstep : workerStep db bucket claims workerId message (.concluding e result) action =
      some r) : Handled workerId message r.phase := by
  cases action with
  | conclude now uploadOk commitOk =>
    simp only [workerStep] at hstep
    -- a claim known to be lost is not concluded any more
    by_cases hlost : e.heartbeatLost = true
    · rw [if_pos hlost] at hstep
      obtain rfl := Option.some.inj hstep
      refine h.settles (.returned result) .idle ?_
      rw [recordOutcome, if_pos hlost]
      rfl
    rw [if_neg hlost] at hstep
    split at hstep
    · -- the call raises
      rename_i error herror
      obtain rfl := Option.some.inj hstep
      refine h.settles (.returned result) ⟨⟨0, .ok []⟩, db, ⟨0⟩, now, uploadOk, true⟩ ?_
      simp only [recordOutcome, if_neg hlost, recordReturned, herror, if_true]
      rfl
    · rename_i m hok
      obtain rfl := Option.some.inj hstep
      cases commitOk with
      | true =>
        refine h.settles (.returned result) ⟨⟨0, .ok []⟩, db, ⟨0⟩, now, uploadOk, true⟩ ?_
        simp only [recordOutcome, if_neg hlost, recordReturned, hok, if_true]
        rfl
      | false =>
        refine h.settles (.returned result) ⟨⟨0, .ok []⟩, db, ⟨0⟩, now, uploadOk, false⟩ ?_
        rw [recordOutcome, if_neg hlost]
        rfl
  | unavailable =>
    simp only [workerStep, Option.ite_none_left_eq_some, Option.some.injEq] at hstep
    obtain ⟨hlost, rfl⟩ := hstep
    refine h.settles (.returned result) ⟨⟨0, .ok []⟩, db, ⟨0⟩, 0, true, false⟩ ?_
    rw [recordOutcome, if_neg hlost]
    rfl
  | _ => cases hstep

/-- **Every step of a worker is a step of a handling.** -/
theorem Handled.step {bucket : Bucket} {claims : UUID → ℕ} {phase : Phase}
    {action : WorkerAction} {r : WorkerStep} (h : Handled workerId message phase)
    (hstep : workerStep db bucket claims workerId message phase action = some r) :
    Handled workerId message r.phase := by
  cases phase with
  | received => exact handled_received hstep
  | processing e progress =>
    obtain ⟨db₀, env, hsofar⟩ := h.execution e rfl
    exact handled_processing hsofar hstep
  | failing e error =>
    obtain ⟨db₀, env, hsofar⟩ := h.execution e rfl
    exact handled_failing hsofar hstep
  | concluding e result =>
    obtain ⟨db₀, env, hsofar⟩ := h.execution e rfl
    exact handled_concluding hsofar hstep
  | settling answer => cases hstep

end Workers

/-- **A step of the system keeps every worker on its handling.** -/
theorem handled_step {s s' : System} {a : Action} (h : ∀ worker message phase connected,
      s.workers worker = .handling message phase connected → Handled worker message phase)
    (hstep : s.step a = some s') (w : String) (message : EncodingJobMessage) (phase : Phase)
    (connected : Bool) (hw : s'.workers w = .handling message phase connected) :
    Handled w message phase := by
  by_cases hwork : ∃ action, a = .work w action
  · obtain ⟨action, rfl⟩ := hwork
    obtain ⟨m, p, c, r, hphase, hr, -, hworkers⟩ := System.step_work hstep
    rw [hworkers, Function.update_self] at hw
    obtain ⟨rfl, rfl, rfl⟩ := Worker.handling.inj hw
    exact (h w m p c hphase).step hr
  · obtain ⟨t, hstepped, rfl⟩ := System.step_cases hstep
    have hworker := hstepped.worker w
    rw [show t.workers w = _ from hw] at hworker
    generalize hv : Worker.handling message phase connected = v at hworker
    cases hworker with
    | same => exact h w message phase connected hv.symm
    | received m =>
      obtain ⟨rfl, rfl, rfl⟩ := Worker.handling.inj hv
      exact ⟨nofun, nofun⟩
    | moved ha => exact absurd ⟨_, ha⟩ hwork
    | disconnected hphase =>
      obtain ⟨rfl, rfl, rfl⟩ := Worker.handling.inj hv
      exact h w message phase true hphase
    | free hfree => rcases hfree with rfl | rfl <;> cases hv

/-- Every phase of every worker is one that a handling of its message goes through. -/
theorem handled_of_reachable {s : System} (h : ReachableSystem Unguarded s) {worker : String}
    {message : EncodingJobMessage} {phase : Phase} {connected : Bool}
    (hw : s.workers worker = .handling message phase connected) :
    Handled worker message phase := by
  refine Reaches.invariant (I := fun s => ∀ worker message phase connected,
    s.workers worker = .handling message phase connected → Handled worker message phase)
    ?_ ?_ h worker message phase connected hw
  · rintro _ rfl w m p c hw
    cases hw
  · exact fun s a s' hs _ hstep => handled_step hs hstep

/-- **The worker of the system settles as the function does**: whatever a worker settles on,
in any run, is the answer to its message of some handling. -/
theorem handled_of_settling {s : System} (h : ReachableSystem Unguarded s) {worker : String}
    {message : EncodingJobMessage} {action : WorkerMessageAction} {connected : Bool}
    (hw : s.workers worker = .handling message (.settling action) connected) :
    ∃ db env, settledAction (processEncodingMessage worker db env message).2 = action :=
  (handled_of_reachable h hw).settling action rfl

end RenditionPipeline
