import RenditionPipeline.Storage.KeySpace
import RenditionPipeline.Transfer.Requests
import RenditionPipeline.Transfer.State

/-!
# What the parties know of an upload

An upload has a session in the database, an upload at the storage, and a controller in a
browser, and each knows the others by what it has been told: the session by the id of the
upload, the controller by addresses and tags. That they speak of the same file is the
invariant here (`RenditionPipeline.Transfer.Sound`): every session is that of an answered
creation, the upload of a creation holds pieces of the file of the browser that it was
answered to, each in its place, and whatever a browser sends bears addresses and tags of its
own uploads. The object of a completed session is the file.
-/

namespace RenditionPipeline

open Multipart

variable {σ α ι : Type}

/-- The piece of the file that a part is. -/
def Client.piece (client : Client α) (n : ℤ) : List α :=
  slice client.content (client.file.partBlob n)

/-- The file as an object. -/
def Client.object (client : Client α) : Multipart.Object α := ⟨client.content, client.contentType⟩

/-- A session is that of a creation, as it was answered to a client. -/
structure SessionOf (client : Client α) (response : VideoCreateResponse) (s : UploadSession) :
    Prop where
  key : buildSourceKey response.videoId client.filename = .ok response.key
  videoId : s.videoId = response.videoId
  objectKey : s.objectKey = response.key
  objectUploadId : s.objectUploadId = response.uploadId
  contentType : s.contentType = client.contentType
  sizeBytes : s.sizeBytes = client.file.sizeBytes
  partCount : s.partCount = client.file.getPartCount

/-- What a session is of does not change. -/
structure SameUpload (s s' : UploadSession) : Prop where
  videoId : s'.videoId = s.videoId
  objectKey : s'.objectKey = s.objectKey
  objectUploadId : s'.objectUploadId = s.objectUploadId
  contentType : s'.contentType = s.contentType
  sizeBytes : s'.sizeBytes = s.sizeBytes
  partCount : s'.partCount = s.partCount

theorem SameUpload.refl (s : UploadSession) : SameUpload s s := ⟨rfl, rfl, rfl, rfl, rfl, rfl⟩

theorem SessionOf.congr {client : Client α} {response : VideoCreateResponse} {s s' : UploadSession}
    (h : SameUpload s s') : SessionOf client response s' ↔ SessionOf client response s := by
  constructor
  · rintro ⟨hkey, hv, hk, hu, hc, hs, hp⟩
    exact ⟨hkey, h.videoId ▸ hv, h.objectKey ▸ hk, h.objectUploadId ▸ hu, h.contentType ▸ hc,
      h.sizeBytes ▸ hs, h.partCount ▸ hp⟩
  · rintro ⟨hkey, hv, hk, hu, hc, hs, hp⟩
    exact ⟨hkey, h.videoId.trans hv, h.objectKey.trans hk, h.objectUploadId.trans hu,
      h.contentType.trans hc, h.sizeBytes.trans hs, h.partCount.trans hp⟩

/-- **A later state of an upload** that is sent pieces of a file: it has the parts it had, it
holds nothing else but pieces if it held nothing else, and it is not opened again. -/
structure Multipart.Upload.Later (piece : ℤ → List α) (u u' : Multipart.Upload α) : Prop where
  key : u'.key = u.key
  contentType : u'.contentType = u.contentType
  isSome : ∀ n, (u.parts n).isSome = true → (u'.parts n).isSome = true
  pieces : (∀ n body, u.parts n = some body → body = piece n) →
    ∀ n body, u'.parts n = some body → body = piece n
  closed : u.isOpen = false → u'.isOpen = false

theorem Multipart.Upload.Later.refl (piece : ℤ → List α) (u : Multipart.Upload α) :
    u.Later piece u := ⟨rfl, rfl, fun _ h => h, fun h => h, fun h => h⟩

namespace Transfer

/-- A creation has been answered to a client. -/
def Created (t : Transfer σ ι) (i : ι) (response : VideoCreateResponse) : Prop :=
  (i, .created response) ∈ t.answers

section

variable (storage : S3ObjectStorage σ α) (clients : ι → Client α) (t : Transfer σ ι)

/-- A part as the API names it to a client: a part of its file, with an address at one of its
uploads. -/
def Names (i : ι) (part : MultipartUploadPart) : Prop :=
  ∃ r, t.Created i r ∧
    UploadController.IsPartNumber (clients i).file.getPartCount part.partNumber ∧
    part.uploadUrl = storage.service.presign r.key r.uploadId part.partNumber

/-- A part as a client reports it: it is stored in one of its uploads, and has the tag of the
piece of the file. -/
def Tags (i : ι) (part : CompletedUploadPart) : Prop :=
  part.etag = storage.service.tag ((clients i).piece part.partNumber) ∧
  ∃ r u, t.Created i r ∧ storage.service.uploads t.store r.uploadId = some u ∧
    (u.parts part.partNumber).isSome = true

/-- What an answer to a client says is true. -/
def Truthful (i : ι) : Answer → Prop
  | .created response | .refreshed response =>
    response.parts.map MultipartUploadPart.partNumber =
      (List.range (clients i).file.getPartCount).map (fun k : ℕ => (k : ℤ) + 1) ∧
    ∀ part ∈ response.parts, Names storage clients t i part
  | .completed _ => True
  | .stored uploadUrl etag => ∃ r u n, t.Created i r ∧
    uploadUrl = storage.service.presign r.key r.uploadId n ∧
    etag = storage.service.tag ((clients i).piece n) ∧
    storage.service.uploads t.store r.uploadId = some u ∧ (u.parts n).isSome = true

/-- The upload of a creation, which holds pieces of the client's file. -/
def Holds (i : ι) (response : VideoCreateResponse) : Prop :=
  ∃ u, storage.service.uploads t.store response.uploadId = some u ∧ u.key = response.key ∧
    u.contentType = (clients i).contentType ∧
    ∀ n body, u.parts n = some body → body = (clients i).piece n

/-- The upload of a creation is over, and its object is the client's file. -/
def Delivered (i : ι) (response : VideoCreateResponse) : Prop :=
  (∃ u, storage.service.uploads t.store response.uploadId = some u ∧ u.isOpen = false) ∧
    storage.service.objects t.store response.key = some (clients i).object

/-- **The parties agree on every upload.** -/
structure Sound : Prop where
  linked : t.db.Linked
  /-- Every session is that of an answered creation. -/
  session : ∀ sid s, t.db.uploadSessions.get? sid = some s →
    (t.db.videos.get? s.videoId).isSome = true ∧
      ∃ i r, t.Created i r ∧ SessionOf (clients i) r s
  /-- Every answered creation has its session and its upload. -/
  created : ∀ i r, t.Created i r → Holds storage clients t i r ∧
    ∃ sid s, t.db.uploadSessions.get? sid = some s ∧ SessionOf (clients i) r s
  /-- Creations are told apart by their videos and by their uploads. -/
  apart : ∀ i i' r r', t.Created i r → t.Created i' r' →
    r.videoId = r'.videoId ∨ r.uploadId = r'.uploadId → i = i' ∧ r = r'
  truthful : ∀ i a, (i, a) ∈ t.answers → Truthful storage clients t i a
  carries : ∀ i, UploadController.Carries (fun videoId => ∃ r, t.Created i r ∧ r.videoId = videoId)
    (Names storage clients t i) (clients i).file (t.controllers i)
  reports : ∀ i, UploadController.Reports (Tags storage clients t i) (clients i).file
    (t.controllers i)
  delivered : ∀ sid s i r, t.db.uploadSessions.get? sid = some s → t.Created i r →
    SessionOf (clients i) r s → s.status = .completed → Delivered storage clients t i r

end

/-! ### What a step may do to the storage -/

section Storage

variable {storage : S3ObjectStorage σ α} {clients : ι → Client α} {t t' : Transfer σ ι}

/-- **The storage has gone on**: the uploads of creations are later ones, and the object of a
creation has changed only where its upload was open. -/
structure GoesOn (storage : S3ObjectStorage σ α) (clients : ι → Client α) (t : Transfer σ ι)
    (store' : σ) : Prop where
  later : ∀ i r u, t.Created i r → storage.service.uploads t.store r.uploadId = some u →
    ∃ u', storage.service.uploads store' r.uploadId = some u' ∧ u.Later (clients i).piece u'
  objects : ∀ i r, t.Created i r →
    storage.service.objects store' r.key = storage.service.objects t.store r.key ∨
    ∃ u, storage.service.uploads t.store r.uploadId = some u ∧ u.isOpen = true

theorem GoesOn.refl (clients : ι → Client α) (t : Transfer σ ι) :
    GoesOn storage clients t t.store where
  later := fun _ _ u _ hu => ⟨u, hu, Upload.Later.refl _ u⟩
  objects := fun _ _ _ => Or.inl rfl

section

variable (t') (hgo : GoesOn storage clients t t'.store)
  (hanswers : ∀ a ∈ t.answers, a ∈ t'.answers)
include hgo hanswers

omit hgo in
theorem Names.mono {i : ι} {part : MultipartUploadPart} (h : Names storage clients t i part) :
    Names storage clients t' i part := by
  obtain ⟨r, hr, hrest⟩ := h
  exact ⟨r, hanswers _ hr, hrest⟩

theorem Tags.mono {i : ι} {part : CompletedUploadPart} (h : Tags storage clients t i part) :
    Tags storage clients t' i part := by
  obtain ⟨htag, r, u, hr, hu, hpart⟩ := h
  obtain ⟨u', hu', hlater⟩ := hgo.later i r u hr hu
  exact ⟨htag, r, u', hanswers _ hr, hu', hlater.isSome _ hpart⟩

theorem Truthful.mono {i : ι} {a : Answer} (h : Truthful storage clients t i a) :
    Truthful storage clients t' i a := by
  cases a with
  | created response => exact ⟨h.1, fun part hpart => (h.2 part hpart).mono t' hanswers⟩
  | refreshed response => exact ⟨h.1, fun part hpart => (h.2 part hpart).mono t' hanswers⟩
  | completed state => trivial
  | stored uploadUrl etag =>
    obtain ⟨r, u, n, hr, hurl, htag, hu, hpart⟩ := h
    obtain ⟨u', hu', hlater⟩ := hgo.later i r u hr hu
    exact ⟨r, u', n, hanswers _ hr, hurl, htag, hu', hlater.isSome _ hpart⟩

omit hanswers in
theorem Holds.mono {i : ι} {r : VideoCreateResponse} (hr : t.Created i r)
    (h : Holds storage clients t i r) : Holds storage clients t' i r := by
  obtain ⟨u, hu, hkey, htype, hpieces⟩ := h
  obtain ⟨u', hu', hlater⟩ := hgo.later i r u hr hu
  exact ⟨u', hu', hlater.key.trans hkey, hlater.contentType.trans htype, hlater.pieces hpieces⟩

omit hanswers in
/-- **What has been delivered stays.** -/
theorem Delivered.mono {i : ι} {r : VideoCreateResponse} (hr : t.Created i r)
    (h : Delivered storage clients t i r) : Delivered storage clients t' i r := by
  obtain ⟨⟨u, hu, hclosed⟩, hobject⟩ := h
  obtain ⟨u', hu', hlater⟩ := hgo.later i r u hr hu
  refine ⟨⟨u', hu', hlater.closed hclosed⟩, ?_⟩
  rcases hgo.objects i r hr with he | ⟨v, hv, hopen⟩
  · rw [he, hobject]
  · rw [hu, Option.some.injEq] at hv
    rw [← hv, hclosed] at hopen
    cases hopen

end

end Storage

end Transfer

end RenditionPipeline
