import RenditionPipeline.Library.Path
import RenditionPipeline.Storage.Keys

/-!
# Requests of the API

What the API accepts as a request for an upload, with the settings that bound it.
Of all that a request says only its filename becomes a name in the object storage
and on the disk of a worker, and the test of the filename is the only one that
looks at it (`RenditionPipeline.validateFilename`): an accepted filename is a
single segment of a key (`RenditionPipeline.VideoCreateRequest.Accepts.isKeyPart`).
-/

namespace RenditionPipeline

/-- The upload settings, with the bounds that they are declared with. -/
structure UploadSettings where
  /-- `UPLOAD_MAX_SIZE_BYTES` -/
  uploadMaxSizeBytes : ℤ
  /-- `UPLOAD_MAX_PART_COUNT` -/
  uploadMaxPartCount : ℤ
  /-- `UPLOAD_PART_SIZE_BYTES` -/
  uploadPartSizeBytes : ℕ
  /-- `UPLOAD_ALLOWED_CONTENT_TYPES` -/
  uploadAllowedContentTypes : String
  uploadMaxSizeBytes_pos : 0 < uploadMaxSizeBytes
  one_le_uploadMaxPartCount : 1 ≤ uploadMaxPartCount
  uploadMaxPartCount_le : uploadMaxPartCount ≤ 10000
  le_uploadPartSizeBytes : 5242880 ≤ uploadPartSizeBytes

namespace UploadSettings

/-- The property `upload_allowed_content_types`. -/
def allowedContentTypes (settings : UploadSettings) : List String :=
  ((Text.split settings.uploadAllowedContentTypes ',').map Text.strip).filter fun s => s ≠ ""

/-- The settings as they are by default. -/
def default : UploadSettings where
  uploadMaxSizeBytes := 5368709120
  uploadMaxPartCount := 10000
  uploadPartSizeBytes := 8388608
  uploadAllowedContentTypes := "video/mp4,video/quicktime,video/x-matroska"
  uploadMaxSizeBytes_pos := by decide
  one_le_uploadMaxPartCount := by decide
  uploadMaxPartCount_le := by decide
  le_uploadPartSizeBytes := by decide

end UploadSettings

/-- `VideoCreateRequest` -/
structure VideoCreateRequest where
  filename : String
  contentType : String
  sizeBytes : ℤ
  partCount : ℤ
deriving DecidableEq

/-- `VideoCreateRequest.validate_filename` -/
def validateFilename (value : String) : Except Raised String :=
  if Text.hasChar value '/' || Text.hasChar value '\\' || value = "." || value = ".." then
    .error (.valueError "filename must not contain path separators")
  else .ok value

/-- `VideoCreateRequest.validate_content_type` -/
def validateContentType (settings : UploadSettings) (value : String) : Except Raised String :=
  if value ∈ settings.allowedContentTypes then .ok value
  else .error (.valueError "unsupported video content type")

/-- `VideoCreateRequest.validate_size_bytes` -/
def validateSizeBytes (settings : UploadSettings) (value : ℤ) : Except Raised ℤ :=
  if value > settings.uploadMaxSizeBytes then
    .error (.valueError "file exceeds maximum upload size")
  else .ok value

/-- `VideoCreateRequest.validate_part_count` -/
def validatePartCount (settings : UploadSettings) (value : ℤ) : Except Raised ℤ :=
  if value > settings.uploadMaxPartCount then
    .error (.valueError "file exceeds maximum upload part count")
  else .ok value

/-- A text of a length between two bounds, as a field declares it. -/
def hasLength (minLength maxLength : ℕ) (value : String) : Bool :=
  minLength ≤ value.length && value.length ≤ maxLength

namespace VideoCreateRequest

/-- **The requests that are accepted**: every field is in its declared bounds and passes its
validator. -/
structure Accepts (settings : UploadSettings) (request : VideoCreateRequest) : Prop where
  filename_length : hasLength 1 255 request.filename = true
  filename : validateFilename request.filename = .ok request.filename
  contentType_length : hasLength 1 255 request.contentType = true
  contentType : validateContentType settings request.contentType = .ok request.contentType
  sizeBytes_pos : 0 < request.sizeBytes
  sizeBytes : validateSizeBytes settings request.sizeBytes = .ok request.sizeBytes
  partCount_pos : 1 ≤ request.partCount
  partCount : validatePartCount settings request.partCount = .ok request.partCount

/-- **An accepted filename is a single segment of a key.** -/
theorem Accepts.isKeyPart {settings : UploadSettings} {request : VideoCreateRequest}
    (h : Accepts settings request) : IsKeyPart request.filename := by
  have hne : request.filename ≠ "" := by
    intro he
    have hlength := h.filename_length
    rw [he] at hlength
    exact absurd hlength (by decide)
  have hvalid := h.filename
  rw [validateFilename] at hvalid
  split at hvalid
  · cases hvalid
  · rename_i hno
    simp only [Bool.or_eq_true, decide_eq_true_eq, Text.hasChar_iff, not_or] at hno
    obtain ⟨⟨⟨hslash, hback⟩, hdot⟩, hdots⟩ := hno
    exact ⟨hne, hdot, hdots, hslash, hback⟩

end VideoCreateRequest

end RenditionPipeline
