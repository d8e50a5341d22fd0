import RenditionPipeline.Lifecycle.Fresh
import RenditionPipeline.Transfer.Runs

/-!
# Completions go through

Where each browser's upload has been created once, what a browser reports is what the storage
has: a completion that it asks for while the upload is open goes through
(`RenditionPipeline.completion_goes_through`). The API lets the request pass, the storage
makes the object, the object has the length and the type of the file, and the rows are
written, as long as the ids that are drawn for them are new.
-/

namespace RenditionPipeline

open Multipart

/-! ### One creation for each browser -/

variable {σ α ι : Type} {storage : S3ObjectStorage σ α} {settings : UploadSettings}
  {clients : ι → Client α}

/-- The guard under which no browser is answered two creations. -/
def CreatesOnce (t : Transfer σ ι) : TransferAction ι → Prop
  | .create i _ _ _ _ _ _ => ∀ r, ¬ t.Created i r
  | _ => True

/-- Whether an answer is that of a creation. -/
def Answer.isCreated : Answer → Bool
  | .created _ => true
  | _ => false

instance createsOnceDecidable [DecidableEq ι] (t : Transfer σ ι) (action : TransferAction ι) :
    Decidable (CreatesOnce t action) :=
  match action with
  | .create i _ _ _ _ _ _ =>
    decidable_of_iff (t.answers.all (fun a => !(a.1 = i && a.2.isCreated)) = true) (by
      rw [List.all_eq_true]
      constructor
      · intro h r hr
        have := h _ hr
        simp [Answer.isCreated] at this
      · rintro h ⟨j, a⟩ ha
        by_cases hj : j = i
        · subst hj
          cases a with
          | created r => exact absurd ha (h r)
          | _ => simp [Answer.isCreated]
        · simp [hj])
  | .browser _ _ | .refresh _ _ _ | .complete _ _ _ _ _ _ _ | .abort _ _ _ _ | .put _ _ _
  | .service _ => isTrue trivial

namespace Transfer

variable {t t' : Transfer σ ι}

/-- The request that the API has let a browser create its upload with. -/
def Accepted (settings : UploadSettings) (client : Client α) : Prop :=
  VideoCreateRequest.Accepts settings
    ⟨client.filename, client.contentType, client.file.sizeBytes, client.file.getPartCount⟩

section Creations

variable [DecidableEq ι]

/-- **Only a creation creates**, one upload at most, of a file that the API accepts. -/
theorem Sound.created_of_step (h : Sound storage clients t) {action : TransferAction ι}
    (hstep : t.step storage settings clients action = some t') {i : ι} {r : VideoCreateResponse}
    (hr : t'.Created i r) : t.Created i r ∨
      Accepted settings (clients i) ∧ (∀ r', t'.Created i r' → t.Created i r' ∨ r' = r) ∧
        ∃ k created presigned uploadId ids now,
          action = .create i k created presigned uploadId ids now := by
  cases step_cases hstep with
  | browser _ _ => exact Or.inl hr
  | @created j k sizeBytes partCount created presigned uploadId ids now result hrequest haccepts
      hresult =>
    obtain ⟨hsize, hcount⟩ := (h.carries j).requests _ hrequest
    rcases List.mem_append.mp hr with hnew | hold
    · obtain ⟨rfl, response, hresponse, he⟩ := mem_answered.mp hnew
      obtain rfl := Answer.created.inj he
      refine Or.inr ⟨?_, fun r' hr' => ?_, k, created, presigned, uploadId, ids, now, rfl⟩
      · rw [Accepted, ← hsize, ← hcount]
        exact haccepts
      · rcases List.mem_append.mp hr' with hnew' | hold'
        · obtain ⟨-, response', hresponse', he'⟩ := mem_answered.mp hnew'
          rw [hresponse, Except.ok.injEq, Option.some.injEq] at hresponse'
          rw [hresponse', Answer.created.inj he']
          exact Or.inr rfl
        · exact Or.inl hold'
    · exact Or.inl hold
  | refreshed _ =>
    rcases List.mem_append.mp hr with hnew | hold
    · obtain ⟨_, _, _, he⟩ := mem_answered.mp hnew
      cases he
    · exact Or.inl hold
  | completed _ =>
    rcases List.mem_append.mp hr with hnew | hold
    · obtain ⟨_, _, _, he⟩ := mem_answered.mp hnew
      cases he
    · exact Or.inl hold
  | put _ _ =>
    rcases List.mem_append.mp hr with hnew | hold
    · split at hnew
      · cases List.mem_singleton.mp hnew
      · cases hnew
    · exact Or.inl hold
  | aborted _ => exact Or.inl hr
  | ignored => exact Or.inl hr
  | service _ => exact Or.inl hr

/-- **Each browser has one upload**, of a file that the API accepts. -/
structure Once (settings : UploadSettings) (clients : ι → Client α) (t : Transfer σ ι) : Prop where
  unique : ∀ i r r', t.Created i r → t.Created i r' → r = r'
  accepted : ∀ i r, t.Created i r → Accepted settings (clients i)

theorem once_of_reachable (h : ReachableTransfer storage settings clients CreatesOnce t) :
    Once settings clients t := by
  refine h.invariant_of (fun t ht => sound_of_reachable ht) (fun t ht => ?_)
    fun t action t' hsound ht hguard hstep => ⟨fun i r r' hr hr' => ?_, fun i r hr => ?_⟩
  · rw [ht]
    exact ⟨fun _ _ _ hr => (List.not_mem_nil hr).elim, fun _ _ hr => (List.not_mem_nil hr).elim⟩
  · rcases hsound.created_of_step hstep hr with hold | ⟨-, honly, k, e, p, u, ids, now, rfl⟩
    · rcases hsound.created_of_step hstep hr' with hold' | ⟨-, -, k, e, p, u, ids, now, rfl⟩
      · exact ht.unique i r r' hold hold'
      · exact absurd hold (hguard r)
    · rcases honly r' hr' with hold' | he
      · exact absurd hold' (hguard r')
      · exact he.symm
  · rcases hsound.created_of_step hstep hr with hold | ⟨haccepted, -⟩
    · exact ht.accepted i r hold
    · exact haccepted

end Creations

/-! ### What a browser reports -/

/-- A piece that another one follows is full. -/
theorem length_piece (client : Client α) {n : ℕ} (h : n + 1 < client.file.getPartCount) :
    (client.piece ((n : ℤ) + 1)).length = client.file.partSizeBytes := by
  have hfull := UploadFile.offset_add_le h
  rw [Client.piece, UploadFile.slice_partBlob client.content_length (by omega),
    Blocks.length_block, client.content_length]
  omega

/-- **What a browser reports is stored** in its upload. -/
theorem Sound.parts_eq (h : Sound storage clients t) {i : ι} {r : VideoCreateResponse}
    (hunique : ∀ r', t.Created i r' → r' = r) {part : CompletedUploadPart}
    (hpart : Tags storage clients t i part) {u : Upload α}
    (hu : storage.service.uploads t.store r.uploadId = some u) :
    u.parts part.partNumber = some ((clients i).piece part.partNumber) := by
  obtain ⟨-, r', v, hr', hv, hn⟩ := hpart
  obtain rfl := hunique r' hr'
  obtain rfl := Option.some.inj (hu.symm.trans hv)
  obtain ⟨⟨w, hw, -, -, hpieces⟩, -⟩ := h.created i r' hr'
  obtain rfl := Option.some.inj (hu.symm.trans hw)
  obtain ⟨body, hbody⟩ := Option.isSome_iff_exists.mp hn
  rw [hbody, hpieces _ _ hbody]

/-- **What a browser reports completes its upload**, where the storage takes parts of the length
that the browser cuts. -/
theorem Sound.completes (h : Sound storage clients t) {i : ι} {r : VideoCreateResponse}
    (hunique : ∀ r', t.Created i r' → r' = r) {parts : List CompletedUploadPart}
    (hpos : 0 < (clients i).file.getPartCount)
    (hnumbers : parts.map CompletedUploadPart.partNumber =
      (List.range (clients i).file.getPartCount).map fun k : ℕ => (k : ℤ) + 1)
    (htags : ∀ part ∈ parts, Tags storage clients t i part)
    (hmin : storage.service.minPartLength ≤ (clients i).file.partSizeBytes) {u : Upload α}
    (hu : storage.service.uploads t.store r.uploadId = some u) :
    u.Completes storage.service.tag storage.service.minPartLength
      (parts.map fun part => (part.partNumber, part.etag)) where
  nonempty := by
    intro he
    rw [List.map_eq_nil_iff.mp he] at hnumbers
    have := congrArg List.length hnumbers
    simp only [List.map_nil, List.length_nil, List.length_map, List.length_range] at this
    omega
  ascending := by
    rw [List.map_map]
    show (parts.map CompletedUploadPart.partNumber).Pairwise (· < ·)
    rw [hnumbers, List.pairwise_map]
    exact List.pairwise_lt_range.imp fun hlt => by omega
  stored := by
    intro p hp
    obtain ⟨part, hpart, rfl⟩ := List.mem_map.mp hp
    rw [h.parts_eq hunique (htags part hpart) hu, Option.map_some, (htags part hpart).1]
  long := by
    intro p hp
    -- the number of a part that is not the last one
    have hmem : p.1 ∈ (List.range ((clients i).file.getPartCount - 1)).map
        fun k : ℕ => (k : ℤ) + 1 := by
      have hdrop : p.1 ∈ ((parts.map fun part => (part.partNumber, part.etag)).map
          Prod.fst).dropLast := by
        rw [← List.map_dropLast]
        exact List.mem_map_of_mem hp
      have hfst : (parts.map fun part => (part.partNumber, part.etag)).map Prod.fst =
          parts.map CompletedUploadPart.partNumber := by rw [List.map_map]; rfl
      rw [hfst, hnumbers, ← List.map_dropLast, List.dropLast_eq_take, List.length_range,
        List.take_range, min_eq_left (by omega)] at hdrop
      exact hdrop
    obtain ⟨k, hk, hpk⟩ := List.mem_map.mp hmem
    obtain ⟨part, hpart, rfl⟩ := List.mem_map.mp (List.mem_of_mem_dropLast hp)
    rw [h.parts_eq hunique (htags part hpart) hu, Option.getD_some]
    replace hpk : (k : ℤ) + 1 = part.partNumber := hpk
    rw [← hpk, length_piece (clients i) (by have := List.mem_range.mp hk; omega)]
    exact hmin

/-- **The API lets through what a browser reports**, where the storage's tags have their form. -/
theorem accepts_of_tags {i : ι} {parts : List CompletedUploadPart}
    (hpos : 0 < (clients i).file.getPartCount)
    (hnumbers : parts.map CompletedUploadPart.partNumber =
      (List.range (clients i).file.getPartCount).map fun k : ℕ => (k : ℤ) + 1)
    (htags : ∀ part ∈ parts, Tags storage clients t i part)
    (hform : ∀ body, isPartEtag (storage.service.tag body) = true) :
    VideoUploadCompleteRequest.Accepts parts := by
  have hlength : parts.length = (clients i).file.getPartCount := by
    rw [← List.length_map CompletedUploadPart.partNumber, hnumbers, List.length_map,
      List.length_range]
  refine ⟨by omega, fun part hpart => ?_⟩
  have hnumber := List.mem_map_of_mem (f := CompletedUploadPart.partNumber) hpart
  rw [hnumbers] at hnumber
  obtain ⟨n, -, hn⟩ := List.mem_map.mp hnumber
  refine CompletedUploadPart.accepts_of_isPartEtag (by omega) ?_
  rw [(htags part hpart).1]
  exact hform _

end Transfer

/-! ### Completing -/

/-- **A completion of an open upload writes the rows**, where its storage calls have gone through
and the new rows have new ids: the session is completed, and the video waits for its renditions. -/
theorem completeVideoUpload_of_fresh {db : Db} (hl : db.Linked) (settings : Settings)
    {videoId sid : UUID} {video : Video} {session : UploadSession}
    (hopen : OpenUpload db videoId sid video session) {parts : List CompletedUploadPart}
    (hparts : validateCompletedUploadParts session parts = .ok ()) {answers : CompletionAnswers}
    (hstorage : storageCompletion answers session = .ok ()) {ids : IdStream}
    (hids : FreshIds db ids) (uploadedAt completedAt : Timestamp) :
    ∃ db' messageIds, completeVideoUpload settings db answers videoId parts ids uploadedAt
        completedAt = (db', .ok (some ⟨⟨videoId, .pending,
          defaultHlsRenditions.map fun preset => (preset.resolution, .pending)⟩, messageIds⟩)) ∧
      db'.uploadSessions.get? sid = some (completedSession completedAt session) := by
  have hnone := hopen.renditionsOf_eq_nil hl
  obtain ⟨⟨db', messageIds⟩, hfinish⟩ : ∃ result, finishCompletion settings db videoId sid ids
      uploadedAt completedAt = .ok result :=
    finishCompletion_of_fresh hl hnone hids uploadedAt completedAt
  obtain ⟨works, hc, -⟩ := finishCompletion_eq_ok hnone hfinish
  have hvideo : db'.videos.get? videoId = some (uploadedVideo uploadedAt video) := by
    rw [hc.videos, Table.get?_modify_self, hopen.get?_video, Option.map_some]
  have hstate : getVideoState db' videoId = some ⟨videoId, .pending,
      defaultHlsRenditions.map fun preset => (preset.resolution, .pending)⟩ := by
    rw [getVideoState, hvideo, Option.map_some, hc.renditionsOf_self hnone, ← hc.presets,
      List.map_map, List.map_map]
    rfl
  refine ⟨db', messageIds, ?_, ?_⟩
  · simp only [completeVideoUpload, hopen.get?_video, hopen.getActiveUploadSession_eq, hparts,
      hstorage, hfinish, hstate, Option.map_some]
  · rw [hc.uploadSessions, Table.get?_modify_self, hopen.get?_session.1, Option.map_some]

/-- **The storage calls of a completion go through** where the object has the length and the
type that the session says. -/
theorem completionCalls_of_complete {s s₁ : σ} {ends : CompletionEnds}
    (hends : ends.complete = .returned ∧ ends.head = true) {session : UploadSession}
    {parts : List CompletedUploadPart}
    (hcomplete : storage.service.complete s session.objectKey session.objectUploadId
      ((completeMultipartUploadParts parts).map fun part => (part.partNumber, part.etag)) = some s₁)
    {object : Multipart.Object α}
    (hobject : storage.service.objects s₁ session.objectKey = some object)
    (hlength : (object.body.length : ℤ) = session.sizeBytes)
    (htype : object.contentType = session.contentType) :
    ∃ answers, completionCalls storage s ends session parts = (s₁, answers) ∧
      storageCompletion answers session = .ok () := by
  have hmetadata : validateCompletedUploadMetadata
      (storage.getObjectMetadata s₁ true session.objectKey) session = .ok () := by
    rw [S3ObjectStorage.getObjectMetadata, if_pos rfl, hobject]
    simp [validateCompletedUploadMetadata, hlength, htype]
  have hcall : storage.completeMultipartUpload s ends.complete session.objectKey
      session.objectUploadId parts = (s₁, true) := by
    rw [S3ObjectStorage.completeMultipartUpload, hcomplete, hends.1, CallEnd.returned_run]
  refine ⟨⟨true, storage.getObjectMetadata s₁ true session.objectKey, true⟩, ?_, ?_⟩
  · simp only [completionCalls, hcall, hends.2, hmetadata]
  · rw [storageCompletion, if_pos rfl, hmetadata]

/-- **A completion goes through**: where each browser's upload has been created once, a
completion that a browser has asked for, handled while the upload is open in the database and
at the storage, is let through by the API and accepted by the storage, makes the object the
browser's file, and is answered with the video waiting for its six renditions. -/
theorem completion_goes_through [DecidableEq ι] {t : Transfer σ ι}
    (h : ReachableTransfer storage settings clients CreatesOnce t) {i : ι} {k : ℕ}
    {videoId : UUID} {parts : List CompletedUploadPart}
    (hrequest : (t.controllers i).requests[k]? = some (.completeVideoUpload videoId parts))
    {sid : UUID} {video : Video} {session : UploadSession}
    (hopen : OpenUpload t.db videoId sid video session)
    (hupload :
      (openUpload (storage.service.uploads t.store) session.objectKey
        session.objectUploadId).isSome = true)
    (htags : ∀ body, isPartEtag (storage.service.tag body) = true)
    (hmin : storage.service.minPartLength ≤ (clients i).file.partSizeBytes)
    (workerSettings : Settings) {ends : CompletionEnds}
    (hends : ends.complete = .returned ∧ ends.head = true) {ids : IdStream}
    (hids : FreshIds t.db ids) (uploadedAt completedAt : Timestamp) :
    ∃ t', t.step storage settings clients
        (.complete i k workerSettings ends ids uploadedAt completedAt) = some t' ∧
      t'.answers = (i, .completed ⟨videoId, .pending,
        defaultHlsRenditions.map fun preset => (preset.resolution, .pending)⟩) :: t.answers ∧
      t'.db.uploadSessions.get? sid = some (completedSession completedAt session) ∧
      storage.service.objects t'.store session.objectKey = some (clients i).object := by
  have hsound := Transfer.sound_of_reachable h
  have honce := Transfer.once_of_reachable h
  have hmem := List.mem_of_getElem? hrequest
  obtain ⟨r, hr, hrv, hs⟩ := hsound.session_of_request ((hsound.carries i).requests _ hmem) hopen
  have hunique : ∀ r', t.Created i r' → r' = r := fun r' hr' => honce.unique i r' r hr' hr
  obtain ⟨hnumbers, hreported⟩ := (hsound.reports i).completions videoId parts hmem
  have haccepted := honce.accepted i r hr
  have hpos : 0 < (clients i).file.getPartCount := by
    have hone : (1 : ℤ) ≤ (clients i).file.getPartCount := haccepted.partCount_pos
    omega
  have haccepts := Transfer.accepts_of_tags hpos hnumbers hreported htags
  have hvalid : validateCompletedUploadParts session parts = .ok () :=
    (UploadController.validateCompletedUploadParts_eq_ok hs.partCount).mpr hnumbers
  -- the storage makes the object
  obtain ⟨u, hu⟩ := Option.isSome_iff_exists.mp hupload
  obtain ⟨hget, hopened, hkey⟩ := openUpload_eq_some_iff.mp hu
  have hcompletes := hsound.completes hunique hpos hnumbers hreported hmin
    (by rw [← hs.objectUploadId]; exact hget)
  obtain ⟨s₁, hcomplete⟩ : ∃ s₁, storage.service.complete t.store session.objectKey
      session.objectUploadId ((completeMultipartUploadParts parts).map fun part =>
        (part.partNumber, part.etag)) = some s₁ := by
    rw [(UploadFile.completeMultipartUploadParts_eq hs.partCount hvalid).2]
    exact Option.isSome_iff_exists.mp
      (storage.service.isSome_complete hget hopened hkey hcompletes)
  obtain ⟨-, hdelivered⟩ := hsound.delivered_of_complete hr hs hvalid hcomplete
    { t with store := s₁ } rfl
  have hobject : storage.service.objects s₁ session.objectKey = some (clients i).object := by
    rw [hs.objectKey]
    exact hdelivered
  obtain ⟨answers, hcalls, hstorage⟩ := completionCalls_of_complete hends hcomplete hobject
    (by rw [hs.sizeBytes, ← (clients i).content_length]; rfl)
    (by rw [hs.contentType]; rfl)
  -- the rows are written
  obtain ⟨db', messageIds, hwritten, hcompleted⟩ := completeVideoUpload_of_fresh hsound.linked
    workerSettings hopen hvalid hstorage hids uploadedAt completedAt
  have hresult : completeUpload storage t.db t.store workerSettings ends videoId parts ids
      uploadedAt completedAt = ((db', s₁), .ok (some ⟨⟨videoId, .pending,
        defaultHlsRenditions.map fun preset => (preset.resolution, .pending)⟩, messageIds⟩)) := by
    simp only [completeUpload, sessionToComplete_eq hopen hvalid, hcalls, hwritten]
  refine ⟨{ t with
    db := db'
    store := s₁
    answers := (i, .completed ⟨videoId, .pending,
      defaultHlsRenditions.map fun preset => (preset.resolution, .pending)⟩) :: t.answers },
    ?_, rfl, hcompleted, hobject⟩
  simp only [Transfer.step, hrequest, if_pos haccepts, hresult]
  rfl

set_option maxRecDepth 4000 in
/-- An upload is completed. -/
theorem completion_goes_through_sample : ∃ t t',
    ReachableTransfer sampleStorage .default sampleClients CreatesOnce t ∧
    t.step sampleStorage .default sampleClients sampleCompletion = some t' ∧
    t'.store.objects "source/00000000-0000-0000-0000-000000000000/a.mp4" =
      some ⟨[1, 2, 3], "video/mp4"⟩ := by
  obtain ⟨t, ht⟩ : ∃ t, guardedRun (Transfer.step sampleStorage .default sampleClients) CreatesOnce
      (Transfer.start sampleStorage sampleClients) sampleTransfer = some t := ⟨_, rfl⟩
  have hstart : ReachableTransfer sampleStorage .default sampleClients CreatesOnce
      (Transfer.start sampleStorage sampleClients) := Reaches.start rfl
  have hreach := hstart.of_guardedRun ht
  have hdb : ∃ video session, OpenUpload t.db ⟨0⟩ ⟨1⟩ video session ∧
      session.objectKey = "source/00000000-0000-0000-0000-000000000000/a.mp4" ∧
      (openUpload (sampleService.uploads t.store) session.objectKey
        session.objectUploadId).isSome = true := by
    obtain rfl := Option.some.inj ht
    exact ⟨_, _, ⟨rfl, rfl, rfl⟩, rfl, rfl⟩
  obtain ⟨video, session, hopen, hkey, hupload⟩ := hdb
  have hrequest : (t.controllers ()).requests[3]? = some (.completeVideoUpload ⟨0⟩
      [⟨1, sampleTag [1, 2]⟩, ⟨2, sampleTag [3]⟩]) := by
    obtain rfl := Option.some.inj ht
    rfl
  have hids : FreshIds t.db (sampleIds 2) := by
    obtain rfl := Option.some.inj ht
    refine ⟨fun j k hj hk he => ?_, fun k _ => rfl, fun k _ => rfl, fun k _ => rfl⟩
    have hval := congrArg (fun u : UUID => (u.int : ℕ)) he
    rw [completionIds] at hj hk
    simp only [sampleIds, Fin.ofNat] at hval
    rw [Nat.mod_eq_of_lt (by omega), Nat.mod_eq_of_lt (by omega)] at hval
    omega
  have hgoes : ∃ t', t.step sampleStorage .default sampleClients sampleCompletion = some t' ∧ _ :=
    completion_goes_through hreach hrequest hopen hupload (fun _ => isPartEtag_hexDigits _)
      (le_refl 2) sampleSettings ⟨rfl, rfl⟩ hids 1 2
  obtain ⟨t', hstep, -, -, hobject⟩ := hgoes
  exact ⟨t, t', hreach, hstep, by rw [← hkey]; exact hobject⟩

end RenditionPipeline
