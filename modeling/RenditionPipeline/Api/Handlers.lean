import RenditionPipeline.Api.Requests
import RenditionPipeline.Services.Outbox
import RenditionPipeline.Services.Playback

/-!
# The API

The handlers of `api/routers/videos.py` for requests about one video, and what becomes of
the exceptions that leave them. A handler calls a service and turns an answer of `None` into
a `VideoNotFoundError`; `register_exception_handlers` gives each exception that it knows a
status, a code and a message, and all others the status 500. What the storage, the broker,
the clock and the source of ids answer to a request is one argument
(`RenditionPipeline.Outside`).
-/

namespace RenditionPipeline

/-- A request about one video, as a handler gets it. -/
inductive VideoRequest where
  | createVideo (payload : VideoCreateRequest)
  | getVideo (videoId : UUID)
  | getPlayback (videoId : UUID)
  | getPlaybackMasterPlaylist (videoId : UUID)
  | getPlaybackVariantPlaylist (videoId : UUID) (resolution : String)
  | completeUpload (videoId : UUID) (parts : List CompletedUploadPart)
  | refreshUpload (videoId : UUID) (partCount : ℤ)
  | abortUpload (videoId : UUID)
deriving DecidableEq

/-- What a request gets from outside. -/
structure Outside where
  /-- `storage.bucket` -/
  bucket : String
  /-- `create_multipart_upload`, or `none` where it raises. -/
  create : String → Option MultipartUpload
  /-- `refresh_multipart_upload_urls` -/
  refresh : Option MultipartUpload
  completion : CompletionAnswers
  /-- Whether `abort_multipart_upload` returns. -/
  abortOk : Bool
  /-- `generate_playback_url` -/
  sign : String → Option String
  /-- `download_bytes` with the decoding of its answer. -/
  download : String → Option String
  publisher : PublisherSession
  locked : UUID → Bool
  ids : IdStream
  uploadedAt : Timestamp
  completedAt : Timestamp
  now : Timestamp

/-- The settings that the handlers read. -/
structure ApiSettings where
  worker : Settings
  uploads : UploadSettings
  /-- `STORAGE_PRESIGNED_URL_EXPIRES_SECONDS` -/
  urlExpiresSeconds : ℤ

/-- What is sent with a status of success. -/
inductive ApiContent where
  | upload (response : VideoCreateResponse)
  | state (state : VideoState)
  | playback (playback : VideoPlayback)
  | playlist (content : String)
  | nothing
deriving DecidableEq

/-- An exception that leaves a handler, or the validation of its arguments. -/
inductive ApiException where
  | raised (error : Raised)
  | videoNotFoundError (message : String)
  | requestValidationError
deriving DecidableEq

/-! ### The responses -/

/-- `ErrorBody`, without the id of the request. -/
structure ErrorBody where
  code : String
  message : String
deriving DecidableEq

/-- A response: its status, and what it says. -/
structure ApiResponse where
  status : ℕ
  body : Except ErrorBody ApiContent

/-- `_error_response` -/
def errorResponse (status : ℕ) (code message : String) : ApiResponse :=
  ⟨status, .error ⟨code, message⟩⟩

/-- `register_exception_handlers` -/
def exceptionResponse : ApiException → ApiResponse
  | .videoNotFoundError message => errorResponse 404 "video_not_found" message
  | .raised (.videoUploadConflictError message) => errorResponse 409 "upload_not_active" message
  | .raised (.videoUploadStorageError _) =>
    errorResponse 502 "storage_unavailable" "Storage unavailable"
  | .raised (.videoPlaybackNotReadyError message) =>
    errorResponse 409 "video_not_playable" message
  | .raised (.videoPlaybackStorageError _) =>
    errorResponse 502 "storage_unavailable" "Storage unavailable"
  | .raised (.videoUploadValidationError message) =>
    errorResponse 400 "invalid_upload_parts" message
  | .requestValidationError => errorResponse 422 "validation_error" "Request validation failed"
  | .raised _ => errorResponse 500 "internal_error" "Internal server error"

/-! ### The handlers -/

/-- `_playback_path` -/
def playbackPath (videoId : UUID) : String := "/api/v1/videos/" ++ videoId.str ++ "/playback"

/-- The address of the master playlist. -/
def masterPlaylistPath (videoId : UUID) : String := playbackPath videoId ++ "/master.m3u8"

/-- The address of the playlist of a rendition. -/
def variantPlaylistPath (videoId : UUID) (resolution : String) : String :=
  playbackPath videoId ++ "/" ++ resolution ++ "/index.m3u8"

/-- What a handler makes of the answer of its service. -/
def foundOr404 {α : Type} (content : α → ApiContent) :
    Except Raised (Option α) → Except ApiException ApiContent
  | .error e => .error (.raised e)
  | .ok none => .error (.videoNotFoundError "Video not found")
  | .ok (some a) => .ok (content a)

namespace VideoRequest

variable (settings : ApiSettings) (o : Outside) (db : Db)

/-- Whether the arguments of a request pass their validation. -/
def Valid : VideoRequest → Prop
  | createVideo payload => payload.Accepts settings.uploads
  | completeUpload _ parts => VideoUploadCompleteRequest.Accepts parts
  | refreshUpload _ partCount => VideoUploadRefreshRequest.Accepts settings.uploads partCount
  | _ => True

instance validDecidable : (request : VideoRequest) → Decidable (request.Valid settings)
  | createVideo payload => inferInstanceAs (Decidable (payload.Accepts settings.uploads))
  | completeUpload _ parts => inferInstanceAs (Decidable (VideoUploadCompleteRequest.Accepts parts))
  | refreshUpload _ partCount =>
    inferInstanceAs (Decidable (VideoUploadRefreshRequest.Accepts settings.uploads partCount))
  | getVideo _ | getPlayback _ | getPlaybackMasterPlaylist _ | getPlaybackVariantPlaylist _ _
  | abortUpload _ => isTrue trivial

/-- The handlers: the database that a request commits, and its answer. -/
def handle : VideoRequest → Db × Except ApiException ApiContent
  | createVideo payload =>
    let result := createVideoUpload db o.bucket payload.filename payload.contentType
      payload.sizeBytes payload.partCount o.create o.ids o.now
    (result.1, foundOr404 .upload (result.2.map some))
  | getVideo videoId => (db, foundOr404 .state (.ok (getVideoState db videoId)))
  | getPlayback videoId =>
    (db, foundOr404 .playback (getVideoPlayback db o.sign videoId (masterPlaylistPath videoId) o.now
      settings.urlExpiresSeconds))
  | getPlaybackMasterPlaylist videoId =>
    (db, foundOr404 .playlist (buildPlaybackMasterPlaylist db videoId
      (variantPlaylistPath videoId)))
  | getPlaybackVariantPlaylist videoId resolution =>
    (db, foundOr404 .playlist
      (buildPlaybackVariantPlaylist db o.download o.sign videoId resolution).2)
  | completeUpload videoId parts =>
    match completeVideoUpload settings.worker db o.completion videoId parts o.ids o.uploadedAt
        o.completedAt with
    | (db', .ok (some completion)) =>
      ((publishPendingOutboxMessages db' o.publisher o.now (.ids completion.outboxMessageIds)
        o.locked).1, .ok (.state completion.state))
    | (db', result) => (db', foundOr404 (fun completion => .state completion.state) result)
  | refreshUpload videoId partCount =>
    (db, foundOr404 .upload (refreshVideoUpload db videoId partCount o.refresh))
  | abortUpload videoId =>
    let result := abortVideoUpload db videoId o.abortOk o.now
    (result.1, foundOr404 (fun _ => .nothing) result.2)

/-- The status of a success. -/
def successStatus : VideoRequest → ℕ
  | createVideo _ => 201
  | abortUpload _ => 204
  | _ => 200

/-- The response to a request. -/
def response (request : VideoRequest) : Except ApiException ApiContent → ApiResponse
  | .ok content => ⟨request.successStatus, .ok content⟩
  | .error e => exceptionResponse e

/-- **A request and its response**, where no other request for the same upload overlaps it: one
that is not valid does not reach its handler. -/
def respond (request : VideoRequest) : Db × ApiResponse :=
  if request.Valid settings then
    ((request.handle settings o db).1, request.response (request.handle settings o db).2)
  else (db, exceptionResponse .requestValidationError)

end VideoRequest

end RenditionPipeline
