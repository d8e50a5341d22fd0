import RenditionPipeline.Api.Requests
import RenditionPipeline.Races.Requests
import RenditionPipeline.Transfer.S3

/-!
# Uploads from end to end

Browsers, the API and the storage as one machine. Each browser uploads a file of its own
with a controller; its requests to the API and its parts to the storage travel on their own,
so that any request that has been sent may be handled at any time, late, more than once or
never, and any answer that has been given may arrive at any time, or never. Nothing is
assumed of what the parties do in between (`RenditionPipeline.Transfer.step`): between two
requests of an upload the other services may run, and any call of the storage may fail, with
its effect or without.
-/

namespace RenditionPipeline

open Multipart

/-- The file of a browser: its name, its type and its content. -/
structure Client (α : Type) where
  file : UploadFile
  filename : String
  contentType : String
  content : List α
  content_length : content.length = file.sizeBytes

/-- An answer to a browser. -/
inductive Answer where
  | created (response : VideoCreateResponse)
  | refreshed (response : VideoCreateResponse)
  | completed (state : VideoState)
  /-- The storage has stored what was sent to an address. -/
  | stored (uploadUrl etag : String)
deriving DecidableEq

/-- **The state**: the database, the storage, the controllers of the browsers, and the
answers that have been given to them. -/
structure Transfer (σ ι : Type) where
  db : Db
  store : σ
  controllers : ι → UploadController
  answers : List (ι × Answer)

/-- A step of one of the parties. -/
inductive TransferAction (ι : Type) where
  /-- The controller of a browser takes a step. -/
  | browser (client : ι) (event : UploadEvent)
  /-- The API handles a request that a browser has sent. -/
  | create (client : ι) (request : ℕ) (created : CallEnd) (presigned : Bool) (uploadId : String)
      (ids : IdStream) (now : Timestamp)
  | refresh (client : ι) (request : ℕ) (presigned : Bool)
  | complete (client : ι) (request : ℕ) (settings : Settings) (ends : CompletionEnds)
      (ids : IdStream) (uploadedAt completedAt : Timestamp)
  | abort (client : ι) (request : ℕ) (aborted : CallEnd) (now : Timestamp)
  /-- The storage handles a part that a browser has sent. -/
  | put (client : ι) (request : ℕ) (stored : CallEnd)
  /-- One of the other services runs. -/
  | service (op : Op)

/-- Whether an event of a controller brings it an answer. -/
def UploadEvent.isAnswer : UploadEvent → Bool
  | .created _ _ _ => true
  | .refreshed _ _ => true
  | .completed _ _ => true
  | .loaded _ _ => true
  | _ => false

/-- Whether an answer is the one that an event brings to a controller. -/
def Answer.fits (c : UploadController) : UploadEvent → Answer → Bool
  | .created _ videoId parts, .created response =>
    response.videoId = videoId && response.parts = parts
  | .refreshed _ parts, .refreshed response => response.parts = parts
  | .completed _ status, .completed state => state.status = status
  | .loaded u etag, .stored uploadUrl tag =>
    (c.uploads[u]?).map (fun upload => upload.part.uploadUrl) = some uploadUrl && tag = etag
  | _, _ => false

/-- The answers of an API request. -/
def answered {ι β : Type} (client : ι) (toAnswer : β → Answer) : Except Raised (Option β) →
    List (ι × Answer)
  | .ok (some response) => [(client, toAnswer response)]
  | _ => []

theorem mem_answered {ι β : Type} {client i : ι} {toAnswer : β → Answer}
    {result : Except Raised (Option β)} {a : Answer} :
    (i, a) ∈ answered client toAnswer result ↔
      i = client ∧ ∃ response, result = .ok (some response) ∧ a = toAnswer response := by
  rcases result with e | _ | response
  · simp [answered]
  · simp [answered]
  · simp [answered, eq_comm]

namespace Transfer

variable {σ α ι : Type} (storage : S3ObjectStorage σ α) (settings : UploadSettings)
  (clients : ι → Client α)

/-- Before any event. -/
def start : Transfer σ ι :=
  ⟨Db.empty, storage.service.initial, fun i => UploadController.initial (clients i).file, []⟩

variable [DecidableEq ι]

/-- **A step.** A request that the API does not accept changes nothing, and neither does a
part that the storage refuses. -/
def step (t : Transfer σ ι) : TransferAction ι → Option (Transfer σ ι)
  | .browser i event =>
    if event.isAnswer && !(t.answers.any fun a => a.1 = i && a.2.fits (t.controllers i) event) then
      none
    else
      ((t.controllers i).step event).map fun c =>
        { t with controllers := Function.update t.controllers i c }
  | .create i k created presigned uploadId ids now =>
    match (t.controllers i).requests[k]? with
    | some (.createVideoUpload sizeBytes partCount) =>
      if VideoCreateRequest.Accepts settings
          ⟨(clients i).filename, (clients i).contentType, sizeBytes, partCount⟩ then
        let result := createUpload storage t.db t.store created presigned (clients i).filename
          (clients i).contentType sizeBytes partCount uploadId ids now
        some { t with
          db := result.1.1
          store := result.1.2
          answers := answered i .created (result.2.map some) ++ t.answers }
      else some t
    | _ => none
  | .refresh i k presigned =>
    match (t.controllers i).requests[k]? with
    | some (.refreshVideoUpload videoId partCount) =>
      if VideoUploadRefreshRequest.Accepts settings partCount then
        some { t with
          answers := answered i .refreshed
            (refreshUpload storage t.db videoId partCount presigned) ++ t.answers }
      else some t
    | _ => none
  | .complete i k workerSettings ends ids uploadedAt completedAt =>
    match (t.controllers i).requests[k]? with
    | some (.completeVideoUpload videoId parts) =>
      if VideoUploadCompleteRequest.Accepts parts then
        let result := completeUpload storage t.db t.store workerSettings ends videoId parts ids
          uploadedAt completedAt
        some { t with
          db := result.1.1
          store := result.1.2
          answers := answered i (fun completion => .completed completion.state) result.2 ++
            t.answers }
      else some t
    | _ => none
  | .abort i k aborted now =>
    match (t.controllers i).requests[k]? with
    | some (.abortVideoUpload videoId) =>
      let result := abortUpload storage t.db t.store aborted videoId now
      some { t with db := result.1.1, store := result.1.2 }
    | _ => none
  | .put i k stored =>
    match (t.controllers i).requests[k]? with
    | some (.putPart uploadUrl blob) =>
      let body := slice (clients i).content blob
      let result := stored.run t.store ((storage.service.resolve uploadUrl).bind fun address =>
        storage.service.putPart t.store address.1 address.2.1 address.2.2 body)
      some { t with
        store := result.1
        answers := (if result.2 then [(i, .stored uploadUrl (storage.service.tag body))] else []) ++
          t.answers }
    | _ => none
  | .service op =>
    if op.isUploadRequest then none
    else some { t with db := (op.exec ⟨t.db, Bucket.empty⟩).1.db }

end Transfer

/-- **The states of runs** whose steps meet a condition. -/
abbrev ReachableTransfer {σ α ι : Type} [DecidableEq ι] (storage : S3ObjectStorage σ α)
    (settings : UploadSettings) (clients : ι → Client α)
    (guard : Transfer σ ι → TransferAction ι → Prop) (t : Transfer σ ι) : Prop :=
  Reaches (Transfer.step storage settings clients) guard (· = Transfer.start storage clients) t

end RenditionPipeline
