import RenditionPipeline.Services.Videos

/-!
# The upload service

The life of a multipart upload: creating it, refreshing its addresses, completing
it – which creates the video's work – and aborting it. A request may commit and
then raise, so each function returns the database it commits together with its
answer. What the storage answers to its calls is a parameter.

Completing and aborting are written in the pieces between their storage calls,
which the interleaved semantics runs one at a time
(`RenditionPipeline.UploadRace`); here they run through.
-/

namespace RenditionPipeline

/-- `CompletedUploadPart` -/
structure CompletedUploadPart where
  partNumber : ℤ
  etag : String
deriving DecidableEq

/-- `MultipartUploadPart` -/
structure MultipartUploadPart where
  partNumber : ℤ
  uploadUrl : String
deriving DecidableEq

/-- `MultipartUploadSession`: what the storage answers to a multipart creation. -/
structure MultipartUpload where
  bucket : String
  key : String
  uploadId : String
  parts : List MultipartUploadPart
deriving DecidableEq

/-- `ObjectMetadata` -/
structure ObjectMetadata where
  contentLength : ℤ
  contentType : Option String
deriving DecidableEq

/-- `VideoCreateResponse` -/
structure VideoCreateResponse where
  videoId : UUID
  bucket : String
  key : String
  uploadId : String
  parts : List MultipartUploadPart
deriving DecidableEq

/-- `VideoUploadCompletion` -/
structure VideoUploadCompletion where
  state : VideoState
  outboxMessageIds : List UUID
deriving DecidableEq

/-! ### Reading the upload session -/

/-- The query for a video's active upload sessions. -/
def activeSessions (db : Db) (videoId : UUID) : List (UUID × UploadSession) :=
  db.uploadSessions.select fun _ session => session.videoId = videoId && session.status = .active

/-- `_get_active_upload_session` and `_get_active_upload_session_for_update`,
which differ in the lock they take. -/
def getActiveUploadSession (db : Db) (videoId : UUID) (video : Video) :
    Except Raised (UUID × UploadSession) :=
  if video.status ≠ .uploading then
    .error (.videoUploadConflictError "video upload is not active")
  else
    match activeSessions db videoId with
    | [] => .error (.videoUploadConflictError "video upload is missing multipart state")
    | [session] => .ok session
    | _ => .error .multipleResultsFound

/-- `_validate_completed_upload_parts` -/
def validateCompletedUploadParts (session : UploadSession) (parts : List CompletedUploadPart) :
    Except Raised Unit :=
  if parts.map CompletedUploadPart.partNumber ≠
      (List.range session.partCount.toNat).map fun i => (i : ℤ) + 1 then
    .error (.videoUploadValidationError
      "upload parts must be ordered and complete from 1 to part_count")
  else .ok ()

/-- `_validate_completed_upload_metadata`, where the storage answers `none` if the
metadata call raises. -/
def validateCompletedUploadMetadata (metadata : Option (Option ObjectMetadata))
    (session : UploadSession) : Except Raised Unit :=
  match metadata with
  | none => .error .objectStorageError
  | some none => .error (.videoUploadStorageError "completed upload object was not found")
  | some (some metadata) =>
    if metadata.contentLength ≠ session.sizeBytes then
      .error (.videoUploadStorageError "completed upload size mismatch")
    else if metadata.contentType ≠ some session.contentType then
      .error (.videoUploadStorageError "completed upload content type mismatch")
    else .ok ()

/-! ### Writing the upload session -/

/-- The session after a storage failure. -/
def failedSession (error : String) (session : UploadSession) : UploadSession :=
  { session with status := .failed, error := some error }

/-- The session after its completion. -/
def completedSession (now : Timestamp) (session : UploadSession) : UploadSession :=
  { session with status := .completed, completedAt := some now }

/-- The session after its abort. -/
def abortedSession (now : Timestamp) (session : UploadSession) : UploadSession :=
  { session with status := .aborted, abortedAt := some now }

/-- The video after its upload has been completed. -/
def uploadedVideo (now : Timestamp) (video : Video) : Video :=
  { video with status := .pending, uploadedAt := some now }

/-- The video after its upload has been aborted. -/
def abortedVideo (video : Video) : Video := { video with status := .failed }

namespace Db

/-- Assign the columns of an upload session. -/
def setSession (db : Db) (sessionId : UUID) (f : UploadSession → UploadSession) : Db :=
  { db with uploadSessions := db.uploadSessions.modify sessionId f }

end Db

/-! ### Creating and refreshing an upload -/

/-- Whether the columns of a new video hold what is written to them when it is flushed. -/
def NewVideoFits (bucket filename contentType : String) (sizeBytes : ℤ) : Prop :=
  FitsString bucket ∧ FitsString filename ∧ FitsString contentType ∧ FitsBigInteger sizeBytes

/-- Whether the columns of a new session hold the answer of the storage. -/
def NewSessionFits (upload : MultipartUpload) (partCount : ℤ) : Prop :=
  FitsString upload.bucket ∧ FitsString upload.key ∧ FitsString upload.uploadId ∧
    FitsInteger partCount

instance (bucket filename contentType : String) (sizeBytes : ℤ) :
    Decidable (NewVideoFits bucket filename contentType sizeBytes) :=
  inferInstanceAs (Decidable (FitsString bucket ∧ FitsString filename ∧ FitsString contentType ∧
    FitsBigInteger sizeBytes))

instance (upload : MultipartUpload) (partCount : ℤ) :
    Decidable (NewSessionFits upload partCount) :=
  inferInstanceAs (Decidable (FitsString upload.bucket ∧ FitsString upload.key ∧
    FitsString upload.uploadId ∧ FitsInteger partCount))

/-- `create_video_upload`. The storage answers `none` if the multipart creation
raises; the video's id and the session's are the first two that are drawn. -/
def createVideoUpload (db : Db) (bucket filename contentType : String)
    (sizeBytes partCount : ℤ) (upload : String → Option MultipartUpload) (ids : IdStream)
    (now : Timestamp) : Db × Except Raised VideoCreateResponse :=
  if ¬NewVideoFits bucket filename contentType sizeBytes then (db, .error .dataError) else
  match buildSourceKey (ids 0) filename with
  | .error e => (db, .error e)
  | .ok key =>
    match upload key with
    | none => (db, .error (.videoUploadStorageError "storage upload creation failed"))
    | some upload =>
      if ¬NewSessionFits upload partCount then (db, .error .dataError) else
      let video : Video :=
        { source := key
          sourceBucket := some bucket
          sourceFilename := some filename
          sourceContentType := some contentType
          sourceSizeBytes := some sizeBytes
          sourceWidth := none
          sourceHeight := none
          sourceBitrate := none
          sourceDurationSeconds := none
          playbackPath := none
          status := .uploading
          createdAt := now
          uploadedAt := none }
      let session : UploadSession :=
        { videoId := ids 0
          bucket := upload.bucket
          objectKey := upload.key
          objectUploadId := upload.uploadId
          filename := filename
          contentType := contentType
          sizeBytes := sizeBytes
          partCount := partCount
          status := .active
          error := none
          completedAt := none
          abortedAt := none }
      match db.videos.insert? (ids 0) video, db.uploadSessions.insert? (ids 1) session with
      | some videos, some uploadSessions =>
        ({ db with videos := videos, uploadSessions := uploadSessions },
          .ok ⟨ids 0, upload.bucket, upload.key, upload.uploadId, upload.parts⟩)
      | _, _ => (db, .error .integrityError)

/-- `refresh_video_upload`. The storage answers `none` if the call raises. -/
def refreshVideoUpload (db : Db) (videoId : UUID) (partCount : ℤ)
    (upload : Option MultipartUpload) : Except Raised (Option VideoCreateResponse) :=
  match db.videos.get? videoId with
  | none => .ok none
  | some video => do
    let (_, session) ← getActiveUploadSession db videoId video
    if partCount ≠ session.partCount then
      throw (.videoUploadValidationError "refresh part count must match upload session")
    match upload with
    | none => throw (.videoUploadStorageError "storage upload URL refresh failed")
    | some upload =>
      return some ⟨videoId, upload.bucket, upload.key, upload.uploadId, upload.parts⟩

/-! ### Completing an upload -/

/-- What the storage answers to the calls of a completion: whether
`complete_multipart_upload` returns, what `get_object_metadata` returns, or
`none` if it raises, and whether `delete_object` returns. -/
structure CompletionAnswers where
  complete : Bool
  metadata : Option (Option ObjectMetadata)
  delete : Bool
deriving DecidableEq

/-- The two storage calls in the `try` block of a completion. -/
def storageCompletion (answers : CompletionAnswers) (session : UploadSession) :
    Except Raised Unit :=
  if answers.complete then validateCompletedUploadMetadata answers.metadata session
  else .error .objectStorageError

/-- The handlers of a completion whose storage calls have raised: the error that
is recorded on the session and the exception that is raised. -/
def completionFailure (answers : CompletionAnswers) : Raised → String × Raised
  | .videoUploadStorageError message =>
    if answers.delete then (message, .videoUploadStorageError message)
    else (message ++ "; cleanup failed", .videoUploadStorageError "storage upload cleanup failed")
  | _ => ("storage upload completion failed",
      .videoUploadStorageError "storage upload completion failed")

/-- The last piece of `complete_video_upload`: the rows of a completed upload and
the work of its video. The clock is read once for the video and once for the
session. -/
def finishCompletion (settings : Settings) (db : Db) (videoId sessionId : UUID)
    (ids : IdStream) (uploadedAt completedAt : Timestamp) :
    Except Raised (Db × List UUID) := do
  let db := (db.setVideo videoId (uploadedVideo uploadedAt)).setSession sessionId
    (completedSession completedAt)
  let (db, jobs) ← createRenditionsAndJobs db ids videoId settings.workerJobRetryCount
  createOutboxMessages (fun jobId => ids (12 + (jobs.map Prod.fst).idxOf jobId)) completedAt jobs db

/-- `complete_video_upload` -/
def completeVideoUpload (settings : Settings) (db : Db) (answers : CompletionAnswers)
    (videoId : UUID) (parts : List CompletedUploadPart) (ids : IdStream)
    (uploadedAt completedAt : Timestamp) :
    Db × Except Raised (Option VideoUploadCompletion) :=
  match db.videos.get? videoId with
  | none => (db, .ok none)
  | some video =>
    match getActiveUploadSession db videoId video with
    | .error e => (db, .error e)
    | .ok (sessionId, session) =>
      match validateCompletedUploadParts session parts with
      | .error e => (db, .error e)
      | .ok () =>
        match storageCompletion answers session with
        | .error e =>
          (db.setSession sessionId (failedSession (completionFailure answers e).1),
            .error (completionFailure answers e).2)
        | .ok () =>
          match finishCompletion settings db videoId sessionId ids uploadedAt completedAt with
          | .error e => (db, .error e)
          | .ok (db', outboxMessageIds) =>
            (db', .ok ((getVideoState db' videoId).map fun state => ⟨state, outboxMessageIds⟩))

/-! ### Aborting an upload -/

/-- The rows of an abort after its storage call, which has returned or raised. -/
def finishAbort (db : Db) (videoId sessionId : UUID) (abortOk : Bool) (now : Timestamp) : Db :=
  if abortOk then (db.setVideo videoId abortedVideo).setSession sessionId (abortedSession now)
  else db.setSession sessionId (failedSession "storage upload abort failed")

/-- `abort_video_upload` -/
def abortVideoUpload (db : Db) (videoId : UUID) (abortOk : Bool) (now : Timestamp) :
    Db × Except Raised (Option Bool) :=
  match db.videos.get? videoId with
  | none => (db, .ok none)
  | some video =>
    match getActiveUploadSession db videoId video with
    | .error e => (db, .error e)
    | .ok (sessionId, _) =>
      (finishAbort db videoId sessionId abortOk now,
        if abortOk then .ok (some true)
        else .error (.videoUploadStorageError "storage upload abort failed"))

end RenditionPipeline
