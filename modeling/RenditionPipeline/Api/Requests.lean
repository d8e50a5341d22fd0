import RenditionPipeline.Api.Schemas
import RenditionPipeline.Services.Uploads

/-!
# Requests about an upload

What the API accepts as a request to refresh the addresses of an upload or to complete it.
A completion names its parts by their tags, which the storage has made up and the browser
hands on as they came; the API lets only tags of one form through.
-/

namespace RenditionPipeline

/-- A digit of `[A-Fa-f0-9]`. -/
def isHexDigit (c : Char) : Bool :=
  ('0' ≤ c && c ≤ '9') || ('a' ≤ c && c ≤ 'f') || ('A' ≤ c && c ≤ 'F')

/-- `[A-Fa-f0-9]{32}` -/
def isHex32 (chars : List Char) : Bool := chars.length = 32 && chars.all isHexDigit

/-- `PART_ETAG_PATTERN.fullmatch` -/
def isPartEtag (value : String) : Bool :=
  match value.toList with
  | '"' :: chars => chars.getLast? = some '"' && isHex32 chars.dropLast
  | chars => isHex32 chars

/-- `CompletedUploadPart.validate_etag` -/
def validateEtag (value : String) : Except Raised String :=
  if isPartEtag value then .ok value
  else .error (.valueError "etag must be a 32-character hex value")

/-- The completed parts that are accepted. -/
structure CompletedUploadPart.Accepts (part : CompletedUploadPart) : Prop where
  partNumber_pos : 1 ≤ part.partNumber
  etag_length : hasLength 1 1024 part.etag = true
  etag : validateEtag part.etag = .ok part.etag

/-- `VideoUploadCompleteRequest`: the lists of parts that are accepted. -/
structure VideoUploadCompleteRequest.Accepts (parts : List CompletedUploadPart) : Prop where
  nonempty : 1 ≤ parts.length
  parts : ∀ part ∈ parts, part.Accepts

/-- `VideoUploadRefreshRequest`: the part counts that are accepted. -/
structure VideoUploadRefreshRequest.Accepts (settings : UploadSettings) (partCount : ℤ) :
    Prop where
  partCount_pos : 1 ≤ partCount
  partCount : validatePartCount settings partCount = .ok partCount

instance CompletedUploadPart.acceptsDecidable (part : CompletedUploadPart) :
    Decidable part.Accepts :=
  decidable_of_iff (1 ≤ part.partNumber ∧ hasLength 1 1024 part.etag = true ∧
      validateEtag part.etag = .ok part.etag)
    ⟨fun h => ⟨h.1, h.2.1, h.2.2⟩, fun h => ⟨h.1, h.2, h.3⟩⟩

instance VideoUploadCompleteRequest.acceptsDecidable (parts : List CompletedUploadPart) :
    Decidable (VideoUploadCompleteRequest.Accepts parts) :=
  decidable_of_iff (1 ≤ parts.length ∧ ∀ part ∈ parts, part.Accepts)
    ⟨fun h => ⟨h.1, h.2⟩, fun h => ⟨h.1, h.2⟩⟩

instance VideoUploadRefreshRequest.acceptsDecidable (settings : UploadSettings) (partCount : ℤ) :
    Decidable (VideoUploadRefreshRequest.Accepts settings partCount) :=
  decidable_of_iff (1 ≤ partCount ∧ validatePartCount settings partCount = .ok partCount)
    ⟨fun h => ⟨h.1, h.2⟩, fun h => ⟨h.1, h.2⟩⟩

instance VideoCreateRequest.acceptsDecidable (settings : UploadSettings)
    (request : VideoCreateRequest) : Decidable (request.Accepts settings) :=
  decidable_of_iff (hasLength 1 255 request.filename = true ∧
      validateFilename request.filename = .ok request.filename ∧
      hasLength 1 255 request.contentType = true ∧
      validateContentType settings request.contentType = .ok request.contentType ∧
      0 < request.sizeBytes ∧ validateSizeBytes settings request.sizeBytes = .ok request.sizeBytes ∧
      1 ≤ request.partCount ∧ validatePartCount settings request.partCount = .ok request.partCount)
    ⟨fun h => ⟨h.1, h.2.1, h.2.2.1, h.2.2.2.1, h.2.2.2.2.1, h.2.2.2.2.2.1, h.2.2.2.2.2.2.1,
      h.2.2.2.2.2.2.2⟩,
      fun h => ⟨h.filename_length, h.filename, h.contentType_length, h.contentType,
        h.sizeBytes_pos, h.sizeBytes, h.partCount_pos, h.partCount⟩⟩

theorem length_of_isHex32 {chars : List Char} (h : isHex32 chars = true) : chars.length = 32 := by
  rw [isHex32, Bool.and_eq_true, decide_eq_true_eq] at h
  exact h.1

/-- **A tag of the right form is accepted** for a part of a positive number. -/
theorem CompletedUploadPart.accepts_of_isPartEtag {part : CompletedUploadPart}
    (hpos : 1 ≤ part.partNumber) (h : isPartEtag part.etag = true) : part.Accepts := by
  refine ⟨hpos, ?_, by rw [validateEtag, if_pos h]⟩
  rw [hasLength, Bool.and_eq_true, decide_eq_true_eq, decide_eq_true_eq, ← String.length_toList]
  rw [isPartEtag] at h
  split at h
  · rename_i chars hchars
    rw [Bool.and_eq_true] at h
    have hlength := length_of_isHex32 h.2
    rw [List.length_dropLast] at hlength
    rw [hchars, List.length_cons]
    omega
  · have hlength := length_of_isHex32 h
    omega

/-- A tag of 32 digits, as it is and between quotation marks. -/
example : isPartEtag "0123456789abcdefABCDEF0123456789" = true ∧
    isPartEtag "\"0123456789abcdefABCDEF0123456789\"" = true ∧
    isPartEtag "\"0123456789abcdefABCDEF0123456789" = false := by decide

end RenditionPipeline
