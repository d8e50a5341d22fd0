import RenditionPipeline.Services.Playback

/-!
# The job service

Claiming an encoding job, keeping it alive, concluding it, and reaping the jobs
whose worker has stopped. Each function is one transaction: it is given the
database as it reads it and what it draws from outside (the clock, a new id, the
answer of the storage), and either returns the database it commits or raises, and
then commits nothing.

All of them rewrite the same three rows – a job, its rendition and, through
`RenditionPipeline.deriveVideoStatus`, their video – so that they share one
definition, `RenditionPipeline.Db.settle`, and differ in the two row functions
they give it and in what they do around it.
-/

namespace RenditionPipeline

/-- The settings that the services read. -/
structure Settings where
  /-- `WORKER_JOB_RETRY_COUNT` -/
  workerJobRetryCount : ℕ
  /-- What the property `job_retry_backoff_seconds` answers: the parsed list, or
  the exception of a text that is no number. -/
  jobRetryBackoffSeconds : Except Raised (List ℕ)

/-- `EncodingJobContext` -/
structure EncodingJobContext where
  jobId : UUID
  videoId : UUID
  renditionId : UUID
  source : String
  sourceBucket : Option String
  sourceFilename : Option String
  resolution : String
  bitrate : ℕ
  attemptCount : ℕ
  maxAttempts : ℕ
  workerId : String
deriving DecidableEq

/-! ### The status of a video -/

/-- `derive_video_status`, of the statuses of the renditions. -/
def deriveVideoStatus (statuses : List ProcessingStatus) : ProcessingStatus :=
  let available := statuses.filter fun s => s ≠ .skipped
  if statuses = [] then .pending
  else if available = [] then .failed
  else if available.all fun s => s = .done then .done
  else if available.any fun s => s = .failed then
    if available.any fun s => s = .done then .partialStatus else .failed
  else if available.any fun s => s = .running then .running
  else if available.any fun s => s = .done then .partialStatus
  else .pending

/-- The statuses of a list of renditions. -/
def statusesOf (renditions : List (UUID × Rendition)) : List ProcessingStatus :=
  renditions.map fun p => p.2.status

/-! ### Loading a job -/

/-- The ids of a job, its rendition and its video. -/
structure JobRef where
  jobId : UUID
  renditionId : UUID
  videoId : UUID
deriving DecidableEq

/-- A job as `_get_job_for_update` loads it: its row, the row of its rendition
and the row of the rendition's video, each the one the database holds. -/
structure LoadedJob (db : Db) where
  jobId : UUID
  job : Job
  rendition : Rendition
  video : Video
  get?_job : db.jobs.get? jobId = some job
  get?_rendition : db.renditions.get? job.renditionId = some rendition
  get?_video : db.videos.get? rendition.videoId = some video

namespace LoadedJob

/-- The ids of the rows that were loaded. -/
def ref {db : Db} (loaded : LoadedJob db) : JobRef :=
  ⟨loaded.jobId, loaded.job.renditionId, loaded.rendition.videoId⟩

end LoadedJob

/-- `_get_job_for_update`, with the exception that every caller raises when there
is no such job. A job whose rendition or video is missing, which the foreign keys
exclude, ends in an attribute read of `None`. -/
def getJobForUpdate (db : Db) (jobId : UUID) : Except Raised (LoadedJob db) :=
  match hj : db.jobs.get? jobId with
  | none => .error (.encodingJobNotFoundError "encoding job not found")
  | some job =>
    match hr : db.renditions.get? job.renditionId with
    | none => .error .attributeError
    | some rendition =>
      match hv : db.videos.get? rendition.videoId with
      | none => .error .attributeError
      | some video => .ok ⟨jobId, job, rendition, video, hj, hr, hv⟩

/-! ### Rewriting the rows of a job -/

namespace Db

/-- Assign `job.rendition.video`'s columns. -/
def setVideo (db : Db) (videoId : UUID) (f : Video → Video) : Db :=
  { db with videos := db.videos.modify videoId f }

/-- **Rewrite a job and its rendition, and derive the status of the video** from
its renditions as they are then. -/
def settle (db : Db) (ref : JobRef) (job : Job → Job) (rendition : Rendition → Rendition) :
    Db :=
  let db := { db with
    jobs := db.jobs.modify ref.jobId job
    renditions := db.renditions.modify ref.renditionId rendition }
  db.setVideo ref.videoId fun video =>
    { video with status := deriveVideoStatus (statusesOf (db.renditionsOf ref.videoId)) }

end Db

/-- `_clear_job_owner` -/
def clearJobOwner (job : Job) : Job := { job with workerId := none, heartbeatAt := none }

/-- The job row in `_mark_job_attempts_exhausted`. -/
def exhaustedJob (now : Timestamp) (job : Job) : Job :=
  { clearJobOwner job with
    status := .failed
    nextRunAt := none
    finishedAt := some now
    error := some "encoding job exceeded maximum attempts" }

/-- The job row in `_mark_job_running`. -/
def runningJob (workerId : String) (now : Timestamp) (job : Job) : Job :=
  { job with
    status := .running
    workerId := some workerId
    heartbeatAt := some now
    attemptCount := job.attemptCount + 1
    startedAt := some now
    finishedAt := none
    error := none
    nextRunAt := none }

/-- The job row in `mark_encoding_job_succeeded` and `mark_encoding_job_skipped`,
which differ in the error they leave. -/
def doneJob (error : Option String) (now : Timestamp) (job : Job) : Job :=
  { clearJobOwner job with
    status := .done
    nextRunAt := none
    finishedAt := some now
    error := error }

/-- The job row of an attempt that failed and is retried. -/
def retriedJob (error : String) (now nextRunAt : Timestamp) (job : Job) : Job :=
  { clearJobOwner job with
    status := .pending
    nextRunAt := some nextRunAt
    finishedAt := some now
    error := some error }

/-- The job row of an attempt that failed and was the last. -/
def failedJob (error : String) (now : Timestamp) (job : Job) : Job :=
  { clearJobOwner job with
    status := .failed
    nextRunAt := none
    finishedAt := some now
    error := some error }

/-- `_mark_job_attempts_exhausted` -/
def markJobAttemptsExhausted (db : Db) (ref : JobRef) (now : Timestamp) : Db :=
  db.settle ref (exhaustedJob now) fun rendition => { rendition with status := .failed }

/-- `_mark_job_running` -/
def markJobRunning (db : Db) (ref : JobRef) (workerId : String) (now : Timestamp) : Db :=
  db.settle ref (runningJob workerId now) fun rendition =>
    { rendition with status := .running, error := none }

/-- `_apply_source_metadata` -/
def applySourceMetadata (db : Db) (ref : JobRef) : Option VideoSourceMetadata → Db
  | none => db
  | some metadata => db.setVideo ref.videoId fun video =>
    { video with
      sourceWidth := some metadata.width
      sourceHeight := some metadata.height
      sourceBitrate := metadata.bitrate
      sourceDurationSeconds := metadata.durationSeconds }

/-! ### Claiming a job -/

/-- `_validate_job_message` -/
def validateJobMessage (job : Job) (videoId renditionId : UUID) : Except Raised Unit :=
  if job.videoId ≠ videoId ∨ job.renditionId ≠ renditionId then
    .error (.encodingJobMessageMismatchError "encoding job message does not match job")
  else .ok ()

/-- `_is_claimable` -/
def isClaimable (job : Job) (now : Timestamp) : Bool :=
  if job.status ≠ .pending then false
  else
    match job.nextRunAt with
    | none => true
    | some nextRunAt => decide (nextRunAt ≤ now)

/-- `_has_exhausted_attempts` -/
def hasExhaustedAttempts (job : Job) : Bool := decide (job.attemptCount ≥ job.maxAttempts)

/-- `_build_encoding_context`, of the rows after `_mark_job_running`. -/
def buildEncodingContext {db : Db} (loaded : LoadedJob db) (workerId : String)
    (now : Timestamp) : EncodingJobContext :=
  let job := runningJob workerId now loaded.job
  { jobId := loaded.jobId
    videoId := job.videoId
    renditionId := job.renditionId
    source := loaded.video.source
    sourceBucket := loaded.video.sourceBucket
    sourceFilename := loaded.video.sourceFilename
    resolution := loaded.rendition.resolution
    bitrate := loaded.rendition.bitrate
    attemptCount := job.attemptCount
    maxAttempts := job.maxAttempts
    workerId := job.workerId.getD "" }

/-- `claim_encoding_job`. The clock is read once for the check, at `checkedAt`,
and once more where the rows are rewritten. -/
def claimEncodingJob (db : Db) (jobId videoId renditionId : UUID) (workerId : String)
    (checkedAt now : Timestamp) : Except Raised (Db × Option EncodingJobContext) := do
  let loaded ← getJobForUpdate db jobId
  validateJobMessage loaded.job videoId renditionId
  if isClaimable loaded.job checkedAt = false then
    return (db, none)
  else if hasExhaustedAttempts loaded.job then
    return (markJobAttemptsExhausted db loaded.ref now, none)
  else
    return (markJobRunning db loaded.ref workerId now,
      some (buildEncodingContext loaded workerId now))

/-- `_owns_running_job` -/
def ownsRunningJob (job : Job) (workerId : String) : Bool :=
  job.status = .running && job.workerId = some workerId

/-- `heartbeat_encoding_job` -/
def heartbeatEncodingJob (db : Db) (jobId : UUID) (workerId : String) (now : Timestamp) :
    Except Raised (Db × Bool) := do
  let loaded ← getJobForUpdate db jobId
  if ownsRunningJob loaded.job workerId then
    return ({ db with
      jobs := db.jobs.modify jobId fun job => { job with heartbeatAt := some now } }, true)
  else
    return (db, false)

/-! ### Retrying -/

/-- The number of seconds from which `timedelta(seconds=…)` overflows. -/
def timedeltaLimitSeconds : ℕ := 1000000000 * 86400

/-- The last representable instant, at the end of the year 9999. -/
def datetimeMax : Timestamp := 253402300799999999

/-- `_retry_backoff_for_attempt` -/
def retryBackoffForAttempt (settings : Settings) (attemptCount : ℕ) : Except Raised ℤ := do
  let backoffs ← settings.jobRetryBackoffSeconds
  let index := if attemptCount - 1 ≥ backoffs.length then backoffs.length - 1 else attemptCount - 1
  match backoffs[index]? with
  | none => throw .indexError
  | some backoff =>
    if backoff < timedeltaLimitSeconds then return seconds backoff else throw .overflowError

/-- `_schedule_retry`: the instant of the next run. -/
def scheduleRetry (settings : Settings) (job : Job) (now : Timestamp) :
    Except Raised Timestamp := do
  let backoff ← retryBackoffForAttempt settings job.attemptCount
  if now + backoff ≤ datetimeMax then return now + backoff else throw .overflowError

/-- `ENCODING_EXCHANGE` -/
def encodingExchange : String := "rendition"

/-- `ENCODING_ROUTING_KEY` -/
def encodingRoutingKey : String := "job.encode"

/-- A new outbox message of a job. -/
def newOutboxMessage (jobId videoId renditionId : UUID) (now : Timestamp) : OutboxMessage where
  jobId := jobId
  videoId := videoId
  renditionId := renditionId
  exchange := encodingExchange
  routingKey := encodingRoutingKey
  status := .pending
  attemptCount := 0
  lastError := none
  createdAt := now
  publishedAt := none

/-- An outbox message that is to be published again. -/
def rearmedMessage (message : OutboxMessage) : OutboxMessage :=
  { message with status := .pending, publishedAt := none, lastError := none }

/-- `_queue_job_for_publish`. The id of a message that has to be added is `newId`. -/
def queueJobForPublish (db : Db) (jobId : UUID) (job : Job) (newId : UUID) (now : Timestamp) :
    Except Raised Db :=
  match db.outboxOf jobId with
  | none =>
    match db.outboxMessages.insert? newId
        (newOutboxMessage jobId job.videoId job.renditionId now) with
    | none => .error .integrityError
    | some outboxMessages => .ok { db with outboxMessages := outboxMessages }
  | some (messageId, _) =>
    .ok { db with outboxMessages := db.outboxMessages.modify messageId rearmedMessage }

/-! ### Concluding a job -/

/-- What a marking transaction commits, returns and publishes. -/
structure Marked (α : Type) where
  db : Db
  result : α
  publication : Publication

/-- A marking transaction that has found the job not to be its worker's. -/
def Marked.unchanged {α : Type} (db : Db) (result : α) : Marked α := ⟨db, result, .notReady⟩

/-- `publish_master_playlist_if_ready(job.rendition.video, …)`, on the rows as the
session has them. -/
def publishVideo (db : Db) (videoId : UUID) (uploadOk : Bool) :
    Except Raised (Db × Publication) := do
  let publication ← publishMasterPlaylistIfReady videoId (db.renditionsOf videoId) uploadOk
  return (db.setVideo videoId fun video =>
    { video with playbackPath := publication.playbackPath video.playbackPath }, publication)

/-- `mark_encoding_job_succeeded` -/
def markEncodingJobSucceeded (db : Db) (jobId : UUID) (workerId : String)
    (outputPath : Option String) (sourceMetadata : Option VideoSourceMetadata)
    (now : Timestamp) (uploadOk : Bool) : Except Raised (Marked Bool) := do
  let loaded ← getJobForUpdate db jobId
  if ownsRunningJob loaded.job workerId then
    let db := db.settle loaded.ref (doneJob none now) fun rendition =>
      { rendition with
        status := .done
        completedAt := some now
        error := none
        outputPath := if outputPath.isSome then outputPath else rendition.outputPath }
    let db := applySourceMetadata db loaded.ref sourceMetadata
    let (db, publication) ← publishVideo db loaded.ref.videoId uploadOk
    return ⟨db, true, publication⟩
  else
    return Marked.unchanged db false

/-- `mark_encoding_job_skipped` -/
def markEncodingJobSkipped (db : Db) (jobId : UUID) (reason : String) (workerId : String)
    (sourceMetadata : Option VideoSourceMetadata) (now : Timestamp) (uploadOk : Bool) :
    Except Raised (Marked Bool) := do
  let loaded ← getJobForUpdate db jobId
  if ownsRunningJob loaded.job workerId then
    let db := db.settle loaded.ref (doneJob (some reason) now) fun rendition =>
      { rendition with
        status := .skipped
        completedAt := some now
        error := some reason
        outputPath := none }
    let db := applySourceMetadata db loaded.ref sourceMetadata
    let (db, publication) ← publishVideo db loaded.ref.videoId uploadOk
    return ⟨db, true, publication⟩
  else
    return Marked.unchanged db false

/-- The retry branch that `mark_encoding_job_failed` and the reaper share. -/
def retryJob (settings : Settings) (db : Db) (ref : JobRef) (job : Job) (error : String)
    (newId : UUID) (now : Timestamp) : Except Raised Db := do
  let nextRunAt ← scheduleRetry settings job now
  let db ← queueJobForPublish db ref.jobId job newId now
  return db.settle ref (retriedJob error now nextRunAt) fun rendition =>
    { rendition with status := .pending, error := some error }

/-- The final branch that `mark_encoding_job_failed` and the reaper share. -/
def failJob (db : Db) (ref : JobRef) (error : String) (now : Timestamp) : Db :=
  db.settle ref (failedJob error now) fun rendition =>
    { rendition with status := .failed, error := some error }

/-- `should_retry` -/
def shouldRetry (job : Job) : Bool := decide (job.attemptCount < job.maxAttempts)

/-- `mark_encoding_job_failed` -/
def markEncodingJobFailed (settings : Settings) (db : Db) (jobId : UUID) (error : String)
    (workerId : String) (newId : UUID) (now : Timestamp) (uploadOk : Bool) :
    Except Raised (Marked (Option Bool)) := do
  let loaded ← getJobForUpdate db jobId
  if ownsRunningJob loaded.job workerId then
    if shouldRetry loaded.job then
      let db ← retryJob settings db loaded.ref loaded.job error newId now
      return ⟨db, some true, .notReady⟩
    else
      let (db, publication) ← publishVideo (failJob db loaded.ref error now) loaded.ref.videoId
        uploadOk
      return ⟨db, some false, publication⟩
  else
    return Marked.unchanged db none

/-! ### Reaping -/

/-- The order of `started_at`, with nulls last. -/
def startedBefore (p q : UUID × Job) : Prop :=
  match p.2.startedAt, q.2.startedAt with
  | some a, some b => a ≤ b
  | _, none => True
  | none, some _ => False

instance : DecidableRel startedBefore := fun p q => by
  rw [startedBefore]
  split <;> exact inferInstance

/-- The query of `reap_stale_encoding_jobs`: the running jobs without a recent
heartbeat, oldest first, up to the limit, skipping the locked ones. -/
def staleJobs (db : Db) (staleBefore : Timestamp) (limit : ℕ) (locked : UUID → Bool) :
    List UUID :=
  (((db.jobs.select fun id job =>
    job.status = .running &&
      (match job.heartbeatAt with
        | none => true
        | some heartbeatAt => decide (heartbeatAt < staleBefore)) &&
      !locked id).insertionSort startedBefore).take limit).map Prod.fst

/-- The error that the reaper leaves. -/
def heartbeatTimedOut : String := "encoding job heartbeat timed out"

/-- The body of the loop of `reap_stale_encoding_jobs`. -/
def reapJob (settings : Settings) (db : Db) (jobId newId : UUID) (now : Timestamp) :
    Except Raised Db := do
  let loaded ← getJobForUpdate db jobId
  if shouldRetry loaded.job then
    retryJob settings db loaded.ref loaded.job heartbeatTimedOut newId now
  else
    return failJob db loaded.ref heartbeatTimedOut now

/-- The loop of `reap_stale_encoding_jobs`. -/
def reapJobs (settings : Settings) (newId : UUID → UUID) (now : Timestamp) :
    List UUID → Db → Except Raised Db
  | [], db => .ok db
  | jobId :: jobIds, db => do
    let db ← reapJob settings db jobId (newId jobId) now
    reapJobs settings newId now jobIds db

/-- `reap_stale_encoding_jobs`: the database and the number of jobs reaped. -/
def reapStaleEncodingJobs (settings : Settings) (db : Db) (staleBefore : Timestamp)
    (limit : ℕ) (locked : UUID → Bool) (newId : UUID → UUID) (now : Timestamp) :
    Except Raised (Db × ℕ) := do
  let stale := staleJobs db staleBefore limit locked
  let db ← reapJobs settings newId now stale db
  return (db, stale.length)

end RenditionPipeline
