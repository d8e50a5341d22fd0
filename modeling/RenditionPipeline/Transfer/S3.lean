import RenditionPipeline.Browser.Splitting
import RenditionPipeline.Library.Multipart
import RenditionPipeline.Runs.Uploads

/-!
# The upload service on a storage

The upload service takes what the storage answers to its calls as it comes. Here the
answers are those of a storage with multipart uploads, of which only its protocol is known, so
that a request changes the database and the storage together. Every call may end in one of
three ways (`RenditionPipeline.CallEnd`): it is refused, it goes through, or it goes through
and its answer is lost on the way back, which the service cannot tell from the first.
-/

namespace RenditionPipeline

open Multipart

variable {σ α : Type}

/-- How a call of the storage ends. -/
inductive CallEnd where
  | refused
  /-- It has its effect, and raises. -/
  | lost
  | returned
deriving DecidableEq

/-- The storage after a call that would leave it as `after`, and whether the call has
returned. A call that cannot be made is refused. -/
def CallEnd.run (e : CallEnd) (s : σ) (after : Option σ) : σ × Bool :=
  match e, after with
  | .lost, some s' => (s', false)
  | .returned, some s' => (s', true)
  | _, _ => (s, false)

/-- `S3ObjectStorage` -/
structure S3ObjectStorage (σ α : Type) where
  bucket : String
  service : Service σ α

namespace S3ObjectStorage

variable (storage : S3ObjectStorage σ α) (s : σ)

/-- `refresh_multipart_upload_urls`, which raises where no address can be signed. -/
def refreshMultipartUploadUrls (key uploadId : String) (partCount : ℤ) (presigned : Bool) :
    Option MultipartUpload :=
  if presigned then
    some ⟨storage.bucket, key, uploadId, (List.range partCount.toNat).map fun i : ℕ =>
      ⟨(i : ℤ) + 1, storage.service.presign key uploadId ((i : ℤ) + 1)⟩⟩
  else none

/-- `create_multipart_upload` -/
def createMultipartUpload (e : CallEnd) (uploadId key contentType : String) (partCount : ℤ)
    (presigned : Bool) : σ × Option MultipartUpload :=
  let created := e.run s (storage.service.create s uploadId key contentType)
  (created.1, if created.2 then
    storage.refreshMultipartUploadUrls key uploadId partCount presigned else none)

/-- `complete_multipart_upload` -/
def completeMultipartUpload (e : CallEnd) (key uploadId : String)
    (parts : List CompletedUploadPart) : σ × Bool :=
  e.run s (storage.service.complete s key uploadId
    ((completeMultipartUploadParts parts).map fun part => (part.partNumber, part.etag)))

/-- `abort_multipart_upload` -/
def abortMultipartUpload (e : CallEnd) (key uploadId : String) : σ × Bool :=
  e.run s (storage.service.abort s key uploadId)

/-- `get_object_metadata`, or `none` where it raises. -/
def getObjectMetadata (returned : Bool) (key : String) : Option (Option ObjectMetadata) :=
  if returned then
    some ((storage.service.objects s key).map fun object =>
      ⟨object.body.length, some object.contentType⟩)
  else none

/-- `delete_object` -/
def deleteObject (e : CallEnd) (key : String) : σ × Bool :=
  e.run s (some (storage.service.delete s key))

end S3ObjectStorage

/-- How the calls of a completion end. -/
structure CompletionEnds where
  complete : CallEnd
  head : Bool
  delete : CallEnd
deriving DecidableEq

section Requests

variable (storage : S3ObjectStorage σ α) (db : Db) (s : σ)

/-- The storage calls of `complete_video_upload` for a session. -/
def completionCalls (ends : CompletionEnds) (session : UploadSession)
    (parts : List CompletedUploadPart) : σ × CompletionAnswers :=
  let completed := storage.completeMultipartUpload s ends.complete session.objectKey
    session.objectUploadId parts
  let metadata := storage.getObjectMetadata completed.1 ends.head session.objectKey
  match completed.2, validateCompletedUploadMetadata metadata session with
  | true, .error (.videoUploadStorageError _) =>
    let deleted := storage.deleteObject completed.1 ends.delete session.objectKey
    (deleted.1, ⟨true, metadata, deleted.2⟩)
  | returned, _ => (completed.1, ⟨returned, metadata, true⟩)

/-- The session whose upload a completion asks the storage to complete. -/
def sessionToComplete (videoId : UUID) (parts : List CompletedUploadPart) :
    Option UploadSession :=
  (requestSession db videoId).filter fun session =>
    (validateCompletedUploadParts session parts).isOk

/-- `create_video_upload`: the row of the video is written before the storage is called. -/
def createUpload (e : CallEnd) (presigned : Bool) (filename contentType : String)
    (sizeBytes partCount : ℤ) (uploadId : String) (ids : IdStream) (now : Timestamp) :
    (Db × σ) × Except Raised VideoCreateResponse :=
  if ¬NewVideoFits storage.bucket filename contentType sizeBytes then ((db, s), .error .dataError)
  else if (db.videos.get? (ids 0)).isSome then ((db, s), .error .integrityError)
  else
    match buildSourceKey (ids 0) filename with
    | .error e => ((db, s), .error e)
    | .ok key =>
      let created := storage.createMultipartUpload s e uploadId key contentType partCount presigned
      let result := createVideoUpload db storage.bucket filename contentType sizeBytes partCount
        (fun _ => created.2) ids now
      ((result.1, created.1), result.2)

/-- `refresh_video_upload` -/
def refreshUpload (videoId : UUID) (partCount : ℤ) (presigned : Bool) :
    Except Raised (Option VideoCreateResponse) :=
  refreshVideoUpload db videoId partCount ((requestSession db videoId).bind fun session =>
    storage.refreshMultipartUploadUrls session.objectKey session.objectUploadId partCount presigned)

/-- `complete_video_upload` -/
def completeUpload (settings : Settings) (ends : CompletionEnds) (videoId : UUID)
    (parts : List CompletedUploadPart) (ids : IdStream) (uploadedAt completedAt : Timestamp) :
    (Db × σ) × Except Raised (Option VideoUploadCompletion) :=
  let calls : σ × CompletionAnswers := match sessionToComplete db videoId parts with
    | none => (s, ⟨false, none, false⟩)
    | some session => completionCalls storage s ends session parts
  let result := completeVideoUpload settings db calls.2 videoId parts ids uploadedAt completedAt
  ((result.1, calls.1), result.2)

/-- `abort_video_upload` -/
def abortUpload (e : CallEnd) (videoId : UUID) (now : Timestamp) :
    (Db × σ) × Except Raised (Option Bool) :=
  let call : σ × Bool := match requestSession db videoId with
    | none => (s, true)
    | some session =>
      storage.abortMultipartUpload s e session.objectKey session.objectUploadId
  let result := abortVideoUpload db videoId call.2 now
  ((result.1, call.1), result.2)

end Requests

/-! ### What the calls do -/

section Calls

variable {storage : S3ObjectStorage σ α} {s s' : σ} {e : CallEnd} {after : Option σ}
  {returned : Bool}

/-- **A call has its effect or none**, and has it where it returns. -/
theorem CallEnd.run_eq (h : e.run s after = (s', returned)) :
    (s' = s ∧ returned = false) ∨ after = some s' := by
  cases e <;> cases after <;> simp_all [run]

theorem CallEnd.after_of_returned (h : e.run s after = (s', true)) : after = some s' := by
  rcases CallEnd.run_eq h with ⟨-, hfalse⟩ | hafter
  · cases hfalse
  · exact hafter

@[simp] theorem CallEnd.returned_run (s s' : σ) :
    CallEnd.returned.run s (some s') = (s', true) := rfl

/-- The parts of the addresses that are signed. -/
theorem mem_refreshMultipartUploadUrls {key uploadId : String} {partCount : ℤ} {presigned : Bool}
    {upload : MultipartUpload}
    (h : storage.refreshMultipartUploadUrls key uploadId partCount presigned = some upload) :
    upload.bucket = storage.bucket ∧ upload.key = key ∧ upload.uploadId = uploadId ∧
      upload.parts.map MultipartUploadPart.partNumber =
        (List.range partCount.toNat).map (fun i : ℕ => (i : ℤ) + 1) ∧
      ∀ part ∈ upload.parts, part.uploadUrl =
        storage.service.presign key uploadId part.partNumber := by
  rw [S3ObjectStorage.refreshMultipartUploadUrls, Option.ite_none_right_eq_some,
    Option.some.injEq] at h
  obtain ⟨-, rfl⟩ := h
  refine ⟨rfl, rfl, rfl, ?_, ?_⟩
  · simp
  · intro part hpart
    obtain ⟨i, -, rfl⟩ := List.mem_map.mp hpart
    rfl

end Calls

end RenditionPipeline
