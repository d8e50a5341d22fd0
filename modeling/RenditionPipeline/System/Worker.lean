import RenditionPipeline.Services.Outbox

/-!
# A worker

A worker process takes one message at a time, and what it does with it is a
walk through phases (`RenditionPipeline.Phase`): it claims the job, processes it
– probes the source, encodes it, uploads the segments and then the playlist – and
concludes or fails it, while a heartbeat keeps the claim alive and notices when
it is lost; then it tells the broker what to do with the message.

Everything that a step draws from outside is part of its action
(`RenditionPipeline.WorkerAction`): the readings of the clock, what the prober
and the encoder find, which calls raise, whether a transaction commits.
-/

namespace RenditionPipeline

/-- `WorkerMessageAction` -/
inductive WorkerMessageAction where
  | ack
  | requeue
  | reject
deriving DecidableEq

/-- `EncodingProcessorResult` -/
structure EncodingProcessorResult where
  outputPath : Option String
  sourceMetadata : Option VideoSourceMetadata
  skippedReason : Option String
deriving DecidableEq

/-- A segment file: its name and its content, where that is text. -/
structure Segment where
  name : String
  body : Option String
deriving DecidableEq

/-- What the encoder leaves in the output directory: the `*.ts` files of
`segments/`, sorted, and the content of `index.m3u8`. -/
structure HlsOutput where
  segments : List Segment
  playlist : Option String
deriving DecidableEq

/-- `HLS_PLAYLIST_CONTENT_TYPE` -/
def hlsPlaylistContentType : String := "application/vnd.apple.mpegurl"

/-- `HLS_SEGMENT_CONTENT_TYPE` -/
def hlsSegmentContentType : String := "video/mp2t"

/-- `HLS_PLAYLIST_CACHE_CONTROL` -/
def hlsPlaylistCacheControl : String := "max-age=60"

/-- `HLS_SEGMENT_CACHE_CONTROL` -/
def hlsSegmentCacheControl : String := "max-age=31536000, immutable"

/-- The object a segment is uploaded as. -/
def Segment.object (segment : Segment) : StoredObject :=
  ⟨segment.body, hlsSegmentContentType, some hlsSegmentCacheControl⟩

/-- The object a playlist is uploaded as. -/
def HlsOutput.playlistObject (output : HlsOutput) : StoredObject :=
  ⟨output.playlist, hlsPlaylistContentType, some hlsPlaylistCacheControl⟩

/-! ### Phases -/

/-- What happens to the claim of a job. Events are an observer's; no code reads
them. -/
inductive Event where
  /-- It is granted. -/
  | granted (jobId : UUID)
  /-- The execution with this claim has settled the job. -/
  | concluded (jobId : UUID) (claim : ℕ)
  /-- The reaper has settled the job. -/
  | reaped (jobId : UUID)
deriving DecidableEq

/-- The execution that a granted claim has started: its context, the number of
the claim among those of its job, and whether the heartbeat or the ownership check
has found the claim lost. The number is an observer's; no code reads it. -/
structure Execution where
  context : EncodingJobContext
  claim : ℕ
  heartbeatLost : Bool
  checkLost : Bool
deriving DecidableEq

/-- How far `FfmpegEncodingProcessor.process` has come. -/
inductive Progress where
  /-- The source is downloaded and probed. -/
  | probing
  /-- The source is encoded. -/
  | encoding (metadata : VideoSourceMetadata)
  /-- The output is uploaded, and these segments are still to come. -/
  | uploading (metadata : VideoSourceMetadata) (output : HlsOutput) (todo : List Segment)
deriving DecidableEq

/-- What a worker is doing with its message. -/
inductive Phase where
  /-- The message has been delivered. -/
  | received
  /-- `processor.process` is running. -/
  | processing (execution : Execution) (progress : Progress)
  /-- It has raised an exception with this text. -/
  | failing (execution : Execution) (error : String)
  /-- It has returned this result. -/
  | concluding (execution : Execution) (result : EncodingProcessorResult)
  /-- The message has been handled. -/
  | settling (action : WorkerMessageAction)
deriving DecidableEq

namespace Phase

/-- The execution that is still going on in a phase. -/
def execution : Phase → Option Execution
  | processing e _ => some e
  | failing e _ => some e
  | concluding e _ => some e
  | _ => none

end Phase

/-- A step of a worker on its message. -/
inductive WorkerAction where
  /-- The claim. -/
  | claim (checkedAt now : Timestamp)
  /-- A beat of the heartbeat thread. -/
  | heartbeat (now : Timestamp)
  /-- A call of `is_cancelled` that asks the database. -/
  | checkOwnership (now : Timestamp)
  /-- `EncodingJobOwnershipLost` is raised. -/
  | cancelled
  /-- The prober returns. -/
  | probed (metadata : VideoSourceMetadata)
  /-- The encoder returns. -/
  | encoded (output : HlsOutput)
  /-- The next upload returns. -/
  | upload
  /-- The processor raises any other exception. -/
  | raised (error : String)
  /-- The transaction of a result; at the end the commit itself may fail. -/
  | conclude (now : Timestamp) (uploadOk commitOk : Bool)
  /-- The transaction of a failure; at the end the commit itself may fail. -/
  | fail (settings : Settings) (newId : UUID) (now : Timestamp) (uploadOk commitOk : Bool)
  /-- The database or the storage is not available, and the exception leaves
  `process_encoding_message`. -/
  | unavailable

/-- What a step of a worker leaves: the database, the bucket, the next phase, and
what has happened to its claim. -/
structure WorkerStep where
  db : Db
  bucket : Bucket
  phase : Phase
  events : List Event

/-! ### Steps -/

/-- The skip reason in `FfmpegEncodingProcessor.process`. -/
def skippedReason (resolution : String) (metadata : VideoSourceMetadata) : String :=
  resolution ++ " is not applicable for " ++ toString metadata.width ++ "x" ++
    toString metadata.height ++ " source"

/-- A step of `FfmpegEncodingProcessor.process`: the bucket and the next phase. -/
def processStep (bucket : Bucket) (e : Execution) : Progress → WorkerAction →
    Option (Bucket × Phase)
  | .probing, .probed metadata =>
    if isHlsPresetApplicable (getHlsPreset e.context.resolution) metadata
        defaultBitrateHeadroom then
      some (bucket, .processing e (.encoding metadata))
    else
      some (bucket, .concluding e
        ⟨none, some metadata, some (skippedReason e.context.resolution metadata)⟩)
  | .encoding metadata, .encoded output =>
    if output.segments = [] then
      some (bucket, .failing e "HLS encoder did not create any segments")
    else some (bucket, .processing e (.uploading metadata output output.segments))
  | .uploading metadata output (segment :: todo), .upload =>
    match buildHlsSegmentKey e.context.videoId e.context.resolution segment.name with
    | .error error => some (bucket, .failing e error.str)
    | .ok key =>
      some (bucket.put key segment.object, .processing e (.uploading metadata output todo))
  | .uploading metadata output [], .upload =>
    match buildHlsPlaylistKey e.context.videoId e.context.resolution with
    | .error error => some (bucket, .failing e error.str)
    | .ok key =>
      some (bucket.put key output.playlistObject,
        .concluding e ⟨some key, some metadata, none⟩)
  | _, .raised error => some (bucket, .failing e error)
  | _, .cancelled =>
    if e.heartbeatLost || e.checkLost then some (bucket, .settling .ack) else none
  | _, _ => none

/-- The heartbeat of an execution: the database, and whether the claim is lost. A
call that raises is logged and forgotten. -/
def beat (db : Db) (e : Execution) (now : Timestamp) : Db × Bool :=
  match heartbeatEncodingJob db e.context.jobId e.context.workerId now with
  | .error _ => (db, false)
  | .ok (db, owned) => (db, !owned)

/-- The call that records the result of an execution. -/
def recordResult (db : Db) (e : Execution) (result : EncodingProcessorResult) (now : Timestamp)
    (uploadOk : Bool) : Except Raised (Marked Bool) :=
  match result.skippedReason with
  | some reason => markEncodingJobSkipped db e.context.jobId reason e.context.workerId
    result.sourceMetadata now uploadOk
  | none => markEncodingJobSucceeded db e.context.jobId e.context.workerId result.outputPath
    result.sourceMetadata now uploadOk

/-- What the message comes to after a failure has been recorded. -/
def failureAction : Option Bool → WorkerMessageAction
  | some false => .reject
  | _ => .ack

/-- What a marking call tells: that it has concluded its execution, if it has
changed anything. -/
def concludedBy (e : Execution) (changed : Bool) : List Event :=
  if changed then [.concluded e.context.jobId e.claim] else []

/-- **A step of a worker**: `handle_delivery` with `process_encoding_message`. The
number of claims that have been granted before, job by job, is `claims`. -/
def workerStep (db : Db) (bucket : Bucket) (claims : UUID → ℕ) (workerId : String)
    (message : EncodingJobMessage) : Phase → WorkerAction → Option WorkerStep
  | .received, .claim checkedAt now =>
    match claimEncodingJob db message.jobId message.videoId message.renditionId workerId
        checkedAt now with
    | .error error => some ⟨db, bucket,
      .settling (if error.isEncodingJobError then .reject else .requeue), []⟩
    | .ok (db, none) => some ⟨db, bucket, .settling .ack, []⟩
    | .ok (db, some context) => some ⟨db, bucket,
      .processing ⟨context, claims context.jobId + 1, false, false⟩ .probing,
      [.granted context.jobId]⟩
  | .received, .unavailable => some ⟨db, bucket, .settling .requeue, []⟩
  | .processing e progress, .heartbeat now =>
    some ⟨(beat db e now).1, bucket,
      .processing { e with heartbeatLost := e.heartbeatLost || (beat db e now).2 } progress, []⟩
  | .processing e progress, .checkOwnership now =>
    some ⟨(beat db e now).1, bucket,
      .processing { e with checkLost := e.checkLost || (beat db e now).2 } progress, []⟩
  | .processing e progress, action =>
    (processStep bucket e progress action).map fun result => ⟨db, result.1, result.2, []⟩
  | .failing e error, .heartbeat now =>
    some ⟨(beat db e now).1, bucket,
      .failing { e with heartbeatLost := e.heartbeatLost || (beat db e now).2 } error, []⟩
  | .failing e error, .fail settings newId now uploadOk commitOk =>
    match markEncodingJobFailed settings db e.context.jobId error e.context.workerId newId now
        uploadOk with
    | .error _ => some ⟨db, bucket, .settling .requeue, []⟩
    | .ok m => some (
      if commitOk then ⟨m.db, m.publication.store bucket, .settling (failureAction m.result),
        concludedBy e m.result.isSome⟩
      else ⟨db, m.publication.store bucket, .settling .requeue, []⟩)
  | .failing _ _, .unavailable => some ⟨db, bucket, .settling .requeue, []⟩
  | .concluding e result, .conclude now uploadOk commitOk =>
    if e.heartbeatLost then some ⟨db, bucket, .settling .ack, []⟩
    else
      match recordResult db e result now uploadOk with
      | .error _ => some ⟨db, bucket, .settling .requeue, []⟩
      | .ok m => some (
        if commitOk then ⟨m.db, m.publication.store bucket, .settling .ack,
          concludedBy e m.result⟩
        else ⟨db, m.publication.store bucket, .settling .requeue, []⟩)
  | .concluding e _, .unavailable =>
    if e.heartbeatLost then none else some ⟨db, bucket, .settling .requeue, []⟩
  | _, _ => none

end RenditionPipeline
