import RenditionPipeline.Transfer.Handling
import RenditionPipeline.Transfer.Sound

/-!
# The parties agree in every run

Each step leaves the parties agreed. What a step can do is listed once
(`RenditionPipeline.Transfer.Stepped`), and so is what is common to the steps
(`RenditionPipeline.Transfer.Sound.frame`): a step that creates nothing, keeps what the
sessions are of, lets the storage go on and says nothing untrue keeps the agreement. What is
left of each step is then its own part: what a browser is told, what the storage stores, and
what a completion makes of the parts it has.
-/

namespace RenditionPipeline

open Multipart

variable {σ α ι : Type} {storage : S3ObjectStorage σ α} {clients : ι → Client α}

namespace Transfer

variable {t t' : Transfer σ ι}

/-! ### What a step does -/

section Inversion

variable [DecidableEq ι] {settings : UploadSettings}

/-- **What a step can do**: a browser takes a step, a request that has been sent is handled or
ignored, or another service runs. -/
inductive Stepped (storage : S3ObjectStorage σ α) (settings : UploadSettings)
    (clients : ι → Client α) (t : Transfer σ ι) : TransferAction ι → Transfer σ ι → Prop
  | browser {i : ι} {event : UploadEvent} {c : UploadController}
      (hanswer : event.isAnswer = true →
        ∃ a, (i, a) ∈ t.answers ∧ a.fits (t.controllers i) event = true)
      (hc : (t.controllers i).step event = some c) :
      Stepped storage settings clients t (.browser i event)
        { t with controllers := Function.update t.controllers i c }
  | created {i : ι} {k sizeBytes partCount : ℕ} {created : CallEnd} {presigned : Bool}
      {uploadId : String} {ids : IdStream} {now : Timestamp}
      {result : (Db × σ) × Except Raised VideoCreateResponse}
      (hrequest : .createVideoUpload sizeBytes partCount ∈ (t.controllers i).requests)
      (haccepts : VideoCreateRequest.Accepts settings
        ⟨(clients i).filename, (clients i).contentType, sizeBytes, partCount⟩)
      (hresult : CreateStep storage t.db t.store (clients i).filename (clients i).contentType
        sizeBytes partCount result) :
      Stepped storage settings clients t (.create i k created presigned uploadId ids now)
        { t with
          db := result.1.1
          store := result.1.2
          answers := answered i .created (result.2.map some) ++ t.answers }
  | refreshed {i : ι} {k partCount : ℕ} {presigned : Bool} {videoId : UUID}
      (hrequest : .refreshVideoUpload videoId partCount ∈ (t.controllers i).requests) :
      Stepped storage settings clients t (.refresh i k presigned)
        { t with
          answers := answered i .refreshed
            (refreshUpload storage t.db videoId partCount presigned) ++ t.answers }
  | completed {i : ι} {k : ℕ} {workerSettings : Settings} {ends : CompletionEnds} {ids : IdStream}
      {uploadedAt completedAt : Timestamp} {videoId : UUID} {parts : List CompletedUploadPart}
      {result : (Db × σ) × Except Raised (Option VideoUploadCompletion)}
      (hresult : t.db.Linked →
        CompleteStep storage t.db t.store ends videoId parts result.1) :
      Stepped storage settings clients t
        (.complete i k workerSettings ends ids uploadedAt completedAt)
        { t with
          db := result.1.1
          store := result.1.2
          answers := answered i (fun completion => .completed completion.state) result.2 ++
            t.answers }
  | aborted {i : ι} {k : ℕ} {aborted : CallEnd} {now : Timestamp} {videoId : UUID}
      {result : Db × σ} (hresult : AbortStep storage t.db t.store videoId result) :
      Stepped storage settings clients t (.abort i k aborted now)
        { t with db := result.1, store := result.2 }
  | put {i : ι} {k : ℕ} {stored : CallEnd} {uploadUrl : String} {blob : ℤ × ℤ} {result : σ × Bool}
      (hrequest : .putPart uploadUrl blob ∈ (t.controllers i).requests)
      (hresult : stored.run t.store ((storage.service.resolve uploadUrl).bind fun address =>
        storage.service.putPart t.store address.1 address.2.1 address.2.2
          (slice (clients i).content blob)) = result) :
      Stepped storage settings clients t (.put i k stored)
        { t with
          store := result.1
          answers := (if result.2 then
            [(i, .stored uploadUrl (storage.service.tag (slice (clients i).content blob)))]
              else []) ++ t.answers }
  | ignored {action : TransferAction ι} : Stepped storage settings clients t action t
  | service {op : Op} (hop : op.isUploadRequest = false) :
      Stepped storage settings clients t (.service op)
        { t with db := (op.exec ⟨t.db, Bucket.empty⟩).1.db }

/-- **Every step is one of these.** -/
theorem step_cases {action : TransferAction ι}
    (h : t.step storage settings clients action = some t') :
    Stepped storage settings clients t action t' := by
  cases action with
  | browser i event =>
    simp only [Transfer.step, Option.ite_none_left_eq_some, Option.map_eq_some_iff] at h
    obtain ⟨hanswer, c, hc, rfl⟩ := h
    refine .browser (fun hevent => ?_) hc
    rw [hevent, Bool.true_and, Bool.not_eq_true, Bool.not_eq_false', List.any_eq_true] at hanswer
    obtain ⟨⟨j, a⟩, ha, hfits⟩ := hanswer
    rw [Bool.and_eq_true, decide_eq_true_eq] at hfits
    obtain ⟨rfl, hfits⟩ := hfits
    exact ⟨a, ha, hfits⟩
  | create i k created presigned uploadId ids now =>
    simp only [Transfer.step] at h
    split at h
    · rename_i sizeBytes partCount hrequest
      split at h
      · rename_i haccepts
        obtain rfl := Option.some.inj h
        exact .created (List.mem_of_getElem? hrequest) haccepts (createUpload_step ..)
      · obtain rfl := Option.some.inj h
        exact .ignored
    · cases h
  | refresh i k presigned =>
    simp only [Transfer.step] at h
    split at h
    · rename_i videoId partCount hrequest
      split at h
      · obtain rfl := Option.some.inj h
        exact .refreshed (List.mem_of_getElem? hrequest)
      · obtain rfl := Option.some.inj h
        exact .ignored
    · cases h
  | complete i k workerSettings ends ids uploadedAt completedAt =>
    simp only [Transfer.step] at h
    split at h
    · split at h
      · obtain rfl := Option.some.inj h
        exact .completed fun hl => completeUpload_step hl ..
      · obtain rfl := Option.some.inj h
        exact .ignored
    · cases h
  | abort i k aborted now =>
    simp only [Transfer.step] at h
    split at h
    · obtain rfl := Option.some.inj h
      exact .aborted (abortUpload_step ..)
    · cases h
  | put i k stored =>
    simp only [Transfer.step] at h
    split at h
    · rename_i uploadUrl blob hrequest
      obtain rfl := Option.some.inj h
      exact .put (List.mem_of_getElem? hrequest) rfl
    · cases h
  | service op =>
    simp only [Transfer.step, Option.ite_none_left_eq_some, Bool.not_eq_true] at h
    obtain ⟨hop, h⟩ := h
    obtain rfl := Option.some.inj h
    exact .service hop

end Inversion

/-! ### Keys and ids -/

/-- Creations with one key are one. -/
theorem Sound.eq_of_key (h : Sound storage clients t) {i i' : ι} {r r' : VideoCreateResponse}
    (hr : t.Created i r) (hr' : t.Created i' r') (hkey : r.key = r'.key) : i = i' ∧ r = r' := by
  obtain ⟨-, sid, s, -, hs⟩ := h.created i r hr
  obtain ⟨-, sid', s', -, hs'⟩ := h.created i' r' hr'
  refine h.apart i i' r r' hr hr' (Or.inl ?_)
  have hinj := ObjectKey.build_inj (.source r.videoId (clients i).filename)
    (.source r'.videoId (clients i').filename) hs.key (hs'.key.trans (by rw [hkey]))
  exact (ObjectKey.source.inj hinj).1

/-- The creation of a session is the one with its video. -/
theorem Sound.sessionOf (h : Sound storage clients t) {i : ι} {r : VideoCreateResponse}
    (hr : t.Created i r) {sid : UUID} {s : UploadSession}
    (hs : t.db.uploadSessions.get? sid = some s) (hvideo : s.videoId = r.videoId) :
    SessionOf (clients i) r s := by
  obtain ⟨-, i', r', hr', hsession⟩ := h.session sid s hs
  obtain ⟨rfl, rfl⟩ := h.apart i i' r r' hr hr' (Or.inl (hvideo.symm.trans hsession.videoId))
  exact hsession

/-! ### The storage goes on -/

/-- **One upload is changed**, and the object under its key only while it is open. -/
theorem Sound.goesOn_update (h : Sound storage clients t) {i : ι} {r : VideoCreateResponse}
    (hr : t.Created i r) {u u' : Upload α}
    (hu : storage.service.uploads t.store r.uploadId = some u)
    (hlater : u.Later (clients i).piece u') {store' : σ}
    (huploads : storage.service.uploads store' =
      Function.update (storage.service.uploads t.store) r.uploadId (some u'))
    (hother : ∀ key, key ≠ r.key →
      storage.service.objects store' key = storage.service.objects t.store key)
    (hopen : storage.service.objects store' r.key = storage.service.objects t.store r.key ∨
      u.isOpen = true) : GoesOn storage clients t store' where
  later := by
    intro i' r' v hr' hv
    rw [huploads]
    by_cases hid : r'.uploadId = r.uploadId
    · obtain ⟨rfl, rfl⟩ := h.apart i' i r' r hr' hr (Or.inr hid)
      obtain rfl := Option.some.inj (hu.symm.trans hv)
      exact ⟨u', Function.update_self _ _ _, hlater⟩
    · exact ⟨v, by rw [Function.update_of_ne hid, hv], Upload.Later.refl _ v⟩
  objects := by
    intro i' r' hr'
    by_cases hkey : r'.key = r.key
    · obtain ⟨rfl, rfl⟩ := h.eq_of_key hr' hr hkey
      exact hopen.imp id fun ho => ⟨u, hu, ho⟩
    · exact Or.inl (hother r'.key hkey)

/-- A part that is sent to an address of a client's upload. -/
theorem later_put (client : Client α) (n : ℤ) (u : Upload α) :
    u.Later client.piece (u.put n (client.piece n)) where
  key := rfl
  contentType := rfl
  isSome := by
    intro k hk
    rw [Upload.parts_put, Function.update_apply]
    split
    · rfl
    · exact hk
  pieces := by
    intro h k body hbody
    rw [Upload.parts_put, Function.update_apply] at hbody
    split at hbody
    · rename_i hkn
      rw [hkn, ← Option.some.inj hbody]
    · exact h k body hbody
  closed := fun h => h

theorem later_close (client : Client α) (u : Upload α) : u.Later client.piece u.close :=
  ⟨rfl, rfl, fun _ h => h, fun h => h, fun _ => rfl⟩

/-- A new upload is nobody's. -/
theorem goesOn_create (clients : ι → Client α) (t : Transfer σ ι)
    {uploadId key contentType : String} {store' : σ}
    (hcreate : storage.service.create t.store uploadId key contentType = some store') :
    GoesOn storage clients t store' := by
  obtain ⟨hid, huploads, hobjects⟩ := storage.service.create_eq_some hcreate
  refine ⟨fun i r v _ hv => ⟨v, ?_, Upload.Later.refl _ v⟩, fun _ _ _ => Or.inl (by rw [hobjects])⟩
  rw [huploads, Function.update_of_ne, hv]
  intro he
  rw [he, hid] at hv
  cases hv

/-- **The storage calls of a completion** let the storage go on. -/
theorem Sound.goesOn_completionCalls (h : Sound storage clients t) {i : ι}
    {r : VideoCreateResponse} (hr : t.Created i r) {session : UploadSession}
    (hs : SessionOf (clients i) r session) (ends : CompletionEnds)
    (parts : List CompletedUploadPart) :
    GoesOn storage clients t (completionCalls storage t.store ends session parts).1 := by
  rcases hcalls : completionCalls storage t.store ends session parts with ⟨s', answers⟩
  rcases completionCalls_eq hcalls with ⟨rfl, -⟩ | ⟨s₁, hcomplete, hcase⟩
  · exact GoesOn.refl clients t
  rw [hs.objectKey, hs.objectUploadId] at hcomplete
  obtain ⟨u, hu, hopen, -, -, huploads, hobjects⟩ := storage.service.complete_eq_some hcomplete
  rcases hcase with rfl | ⟨rfl, -⟩
  · exact h.goesOn_update hr hu (later_close (clients i) u) huploads
      (fun key hkey => by rw [hobjects, Function.update_of_ne hkey]) (Or.inr hopen)
  · refine h.goesOn_update hr hu (later_close (clients i) u)
      (by rw [storage.service.uploads_delete, huploads]) (fun key hkey => ?_) (Or.inr hopen)
    rw [storage.service.objects_delete, hobjects, hs.objectKey, Function.update_of_ne hkey,
      Function.update_of_ne hkey]

/-! ### The frame -/

/-- **A step that creates nothing keeps the agreement** where it keeps what each session is of,
lets the storage go on, tells the truth, and delivers what it completes. -/
theorem Sound.frame (h : Sound storage clients t) (t' : Transfer σ ι) (hlinked : t'.db.Linked)
    (hgo : GoesOn storage clients t t'.store)
    (hanswers : ∃ new, t'.answers = new ++ t.answers ∧ ∀ a ∈ new, (∀ r, a.2 ≠ .created r) ∧
      Truthful storage clients t' a.1 a.2)
    (hsessions : ∀ sid s', t'.db.uploadSessions.get? sid = some s' →
      ∃ s, t.db.uploadSessions.get? sid = some s ∧ SameUpload s s' ∧
        (s'.status = .completed → s.status = .completed ∨
          ∀ i r, t.Created i r → SessionOf (clients i) r s → Delivered storage clients t' i r))
    (hkept : ∀ sid s, t.db.uploadSessions.get? sid = some s →
      ∃ s', t'.db.uploadSessions.get? sid = some s' ∧ SameUpload s s')
    (hvideos : ∀ vid, (t.db.videos.get? vid).isSome = true → (t'.db.videos.get? vid).isSome = true)
    (hcontrollers : t'.controllers = t.controllers) : Sound storage clients t' := by
  obtain ⟨new, hnew, htrue⟩ := hanswers
  have hmem : ∀ a ∈ t.answers, a ∈ t'.answers := fun a ha => by
    rw [hnew]
    exact List.mem_append_right new ha
  have hcreated : ∀ i r, t'.Created i r → t.Created i r := by
    intro i r hr
    rw [Created, hnew] at hr
    rcases List.mem_append.mp hr with hr | hr
    · exact absurd rfl ((htrue _ hr).1 r)
    · exact hr
  refine ⟨hlinked, fun sid s' hs' => ?_, fun i r hr => ?_, fun i i' r r' hr hr' => ?_,
    fun i a ha => ?_, fun i => ?_, fun i => ?_, fun sid s' i r hs' hr hsession hstatus => ?_⟩
  · obtain ⟨s, hs, hsame, -⟩ := hsessions sid s' hs'
    obtain ⟨hvideo, i, r, hr, hsession⟩ := h.session sid s hs
    exact ⟨hvideos _ (by rwa [hsame.videoId]), i, r, hmem _ hr,
      (SessionOf.congr hsame).mpr hsession⟩
  · have hr := hcreated i r hr
    obtain ⟨hholds, sid, s, hs, hsession⟩ := h.created i r hr
    obtain ⟨s', hs', hsame⟩ := hkept sid s hs
    exact ⟨Holds.mono t' hgo hr hholds, sid, s', hs', (SessionOf.congr hsame).mpr hsession⟩
  · exact h.apart i i' r r' (hcreated i r hr) (hcreated i' r' hr')
  · rw [hnew] at ha
    rcases List.mem_append.mp ha with ha | ha
    · exact (htrue _ ha).2
    · exact (h.truthful i a ha).mono t' hgo hmem
  · rw [hcontrollers]
    exact (h.carries i).mono (fun videoId ⟨r, hr, hv⟩ => ⟨r, hmem _ hr, hv⟩)
      fun part hpart => hpart.mono t' hmem
  · rw [hcontrollers]
    exact (h.reports i).mono fun part hpart => hpart.mono t' hgo hmem
  · have hr := hcreated i r hr
    obtain ⟨s, hs, hsame, hcompleted⟩ := hsessions sid s' hs'
    have hsession := (SessionOf.congr hsame).mp hsession
    rcases hcompleted hstatus with hold | hdelivered
    · exact Delivered.mono t' hgo hr (h.delivered sid s i r hs hr hsession hold)
    · exact hdelivered i r hr hsession

/-- Sessions that are not rewritten. -/
theorem exists_session_of_eq (db db' : Db) (h : db'.uploadSessions = db.uploadSessions) :
    (∀ sid s', db'.uploadSessions.get? sid = some s' →
      ∃ s, db.uploadSessions.get? sid = some s ∧ SameUpload s s' ∧ s' = s) ∧
    ∀ sid s, db.uploadSessions.get? sid = some s →
      ∃ s', db'.uploadSessions.get? sid = some s' ∧ SameUpload s s' := by
  rw [h]
  exact ⟨fun sid s' hs' => ⟨s', hs', SameUpload.refl s', rfl⟩,
    fun sid s hs => ⟨s, hs, SameUpload.refl s⟩⟩

/-- One session is rewritten, and is of what it was of. -/
theorem exists_session_of_modify {db db' : Db} {sid₀ : UUID} {f : UploadSession → UploadSession}
    (h : db'.uploadSessions = db.uploadSessions.modify sid₀ f) (hf : ∀ s, SameUpload s (f s)) :
    (∀ sid s', db'.uploadSessions.get? sid = some s' →
      ∃ s, db.uploadSessions.get? sid = some s ∧ SameUpload s s' ∧
        ((sid = sid₀ ∧ s' = f s) ∨ s' = s)) ∧
    ∀ sid s, db.uploadSessions.get? sid = some s →
      ∃ s', db'.uploadSessions.get? sid = some s' ∧ SameUpload s s' := by
  rw [h]
  refine ⟨fun sid s' hs' => ?_, fun sid s hs => ?_⟩
  · rw [Table.get?_modify] at hs'
    by_cases hsid : sid = sid₀
    · rw [if_pos hsid, Option.map_eq_some_iff] at hs'
      obtain ⟨s, hs, rfl⟩ := hs'
      exact ⟨s, by rw [hsid, ← hs, hsid], hf s, Or.inl ⟨hsid, rfl⟩⟩
    · rw [if_neg hsid] at hs'
      exact ⟨s', hs', SameUpload.refl s', Or.inr rfl⟩
  · rw [Table.get?_modify]
    by_cases hsid : sid = sid₀
    · rw [if_pos hsid, hs, Option.map_some]
      exact ⟨f s, rfl, hf s⟩
    · rw [if_neg hsid]
      exact ⟨s, hs, SameUpload.refl s⟩

end Transfer

end RenditionPipeline
