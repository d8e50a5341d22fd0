import RenditionPipeline.Transfer.Steps

/-!
# Uploads arrive whole

Here the steps are put together: every party keeps the agreement
(`RenditionPipeline.Transfer.Sound.step`), so that it holds in every run, and what an upload
session that is completed stands for is the file that its browser was given
(`RenditionPipeline.completed_upload_is_file`). That holds of every run whatever: parts sent
twice or late, rounds that are repeated, an upload that is started twice, storage calls that
fail or lose their answers.
-/

namespace RenditionPipeline

open Multipart

/-! ### The other services -/

theorem uploadSessions_of_settleChain {scope : Scope} {w w' : World} {es : List Settlement}
    (h : Chain (SettleMove scope) w es w') : w'.db.uploadSessions = w.db.uploadSessions :=
  h.keep (I := fun v => v.db.uploadSessions = w.db.uploadSessions)
    (fun _ _ _ hi hm => by
      cases hm with
      | intro _ hs => exact hs.uploadSessions.trans hi) rfl

/-- **The other services leave the sessions alone.** -/
theorem uploadSessions_exec {w : World} {op : Op} (h : op.isUploadRequest = false) :
    (op.exec w).1.db.uploadSessions = w.db.uploadSessions := by
  cases op with
  | createVideoUpload _ _ _ _ _ _ _ _ => cases h
  | refreshVideoUpload _ _ _ => cases h
  | completeVideoUpload _ _ _ _ _ _ _ => cases h
  | abortVideoUpload _ _ _ => cases h
  | claimEncodingJob jobId videoId renditionId workerId checkedAt now =>
    simp only [Op.exec]
    split
    · rename_i hok
      obtain ⟨es, hes, -⟩ := claim_chain hok
      exact uploadSessions_of_settleChain hes
    · rfl
  | heartbeatEncodingJob jobId workerId now =>
    simp only [Op.exec]
    split
    · rename_i owned hok
      obtain ⟨loaded, -, -, rfl⟩ := heartbeatEncodingJob_eq_ok hok
      cases owned with
      | true => rfl
      | false => rfl
    · rfl
  | markEncodingJobSucceeded jobId workerId outputPath metadata now uploadOk =>
    simp only [Op.exec]
    split
    · rename_i hok
      obtain ⟨es, hes, -⟩ := succeeded_chain hok
      exact uploadSessions_of_settleChain hes
    · rfl
  | markEncodingJobSkipped jobId reason workerId metadata now uploadOk =>
    simp only [Op.exec]
    split
    · rename_i hok
      obtain ⟨es, hes, -⟩ := skipped_chain hok
      exact uploadSessions_of_settleChain hes
    · rfl
  | markEncodingJobFailed settings jobId error workerId newId now uploadOk =>
    simp only [Op.exec]
    split
    · rename_i hok
      obtain ⟨es, hes, -⟩ := failed_chain hok
      exact uploadSessions_of_settleChain hes
    · rfl
  | reapStaleEncodingJobs workerSettings staleBefore limit locked newId now =>
    simp only [Op.exec]
    split
    · rename_i hok
      obtain ⟨es, hes, -, -⟩ := reap_chain hok
      exact uploadSessions_of_settleChain hes
    · rfl
  | publishPendingOutboxMessages session now choice locked =>
    simp only [Op.exec, publishPendingOutboxMessages]
    split
    · rfl
    · rfl

namespace Transfer

variable {σ α ι : Type} {storage : S3ObjectStorage σ α} {clients : ι → Client α} {t : Transfer σ ι}

/-! ### The steps that create nothing -/

theorem Sound.service (h : Sound storage clients t) {op : Op} (hop : op.isUploadRequest = false) :
    Sound storage clients { t with db := (op.exec ⟨t.db, Bucket.empty⟩).1.db } := by
  have hends : op.endsUpload = false := by
    cases op <;> first | rfl | cases hop
  obtain ⟨hlinked, hspares⟩ := Op.spares (w := ⟨t.db, Bucket.empty⟩) h.linked hends
  obtain ⟨hsessions, hkept⟩ :=
    exists_session_of_eq _ _ (uploadSessions_exec (w := ⟨t.db, Bucket.empty⟩) hop)
  refine h.frame _ hlinked (GoesOn.refl clients t) ⟨[], rfl, by simp⟩ (fun sid s' hs' => ?_) hkept
    (fun vid hvid => ?_) rfl
  · obtain ⟨s, hs, hsame, rfl⟩ := hsessions sid s' hs'
    exact ⟨s', hs, hsame, Or.inl⟩
  · obtain ⟨v, hv⟩ := Option.isSome_iff_exists.mp hvid
    obtain ⟨v', hv', -⟩ := hspares.video vid v hv
    exact Option.isSome_iff_exists.mpr ⟨v', hv'⟩

/-- A session whose upload ends without being completed. -/
theorem Sound.ended (h : Sound storage clients t) (t' : Transfer σ ι) (hlinked : t'.db.Linked)
    (hgo : GoesOn storage clients t t'.store) (hanswers : t'.answers = t.answers)
    (hcontrollers : t'.controllers = t.controllers) {sid₀ : UUID}
    {f : UploadSession → UploadSession}
    (hsessions : t'.db.uploadSessions = t.db.uploadSessions.modify sid₀ f)
    (hsame : ∀ s, SameUpload s (f s)) (hstatus : ∀ s, (f s).status ≠ .completed)
    (hvideos : ∀ vid, (t.db.videos.get? vid).isSome = true →
      (t'.db.videos.get? vid).isSome = true) : Sound storage clients t' := by
  obtain ⟨hback, hkept⟩ := exists_session_of_modify hsessions hsame
  refine h.frame _ hlinked hgo ⟨[], hanswers, by simp⟩ (fun sid s' hs' => ?_) hkept hvideos
    hcontrollers
  obtain ⟨s, hs, hss', hcase⟩ := hback sid s' hs'
  refine ⟨s, hs, hss', fun hcompleted => ?_⟩
  rcases hcase with ⟨-, rfl⟩ | rfl
  · exact absurd hcompleted (hstatus s)
  · exact Or.inl hcompleted

theorem sameUpload_failed (error : String) (s : UploadSession) :
    SameUpload s (failedSession error s) := ⟨rfl, rfl, rfl, rfl, rfl, rfl⟩

theorem sameUpload_completed (now : Timestamp) (s : UploadSession) :
    SameUpload s (completedSession now s) := ⟨rfl, rfl, rfl, rfl, rfl, rfl⟩

theorem sameUpload_aborted (now : Timestamp) (s : UploadSession) :
    SameUpload s (abortedSession now s) := ⟨rfl, rfl, rfl, rfl, rfl, rfl⟩

/-- A video that is there stays when videos are rewritten. -/
theorem isSome_modify {K V : Type} [DecidableEq K] {table : Table K V} {k k' : K} {f : V → V}
    (h : (table.get? k').isSome = true) : ((table.modify k f).get? k').isSome = true := by
  rw [Table.get?_modify]
  split
  · rw [Option.isSome_map]
    exact h
  · exact h

/-- The creation that an open upload is of. -/
theorem Sound.exists_created (h : Sound storage clients t) {videoId sid : UUID} {video : Video}
    {session : UploadSession} (hopen : OpenUpload t.db videoId sid video session) :
    ∃ i r, t.Created i r ∧ SessionOf (clients i) r session ∧ r.videoId = videoId := by
  obtain ⟨hget, hvideo, -⟩ := hopen.get?_session
  obtain ⟨-, i, r, hr, hs⟩ := h.session sid session hget
  exact ⟨i, r, hr, hs, hs.videoId.symm.trans hvideo⟩

/-- **An abort keeps the agreement.** -/
theorem Sound.abort (h : Sound storage clients t) {videoId : UUID} {result : Db × σ}
    (hstep : AbortStep storage t.db t.store videoId result) :
    Sound storage clients { t with db := result.1, store := result.2 } := by
  cases hstep with
  | refused => exact h
  | @aborted sid video session s' abortOk now hopen hcall =>
    obtain ⟨i, r, hr, hs, -⟩ := h.exists_created hopen
    have hgo : GoesOn storage clients t s' := by
      rcases hcall with rfl | hcall
      · exact GoesOn.refl clients t
      · rw [hs.objectKey, hs.objectUploadId] at hcall
        obtain ⟨u, hu, -, -, huploads, hobjects⟩ := storage.service.abort_eq_some hcall
        exact h.goesOn_update hr hu (later_close (clients i) u) huploads
          (fun _ _ => by rw [hobjects]) (Or.inl (by rw [hobjects]))
    cases abortOk with
    | true =>
      have hmove : Move Scope.all ⟨t.db, Bucket.empty⟩ [] _ := .aborted now trivial hopen
      have hlinked := hmove.linked h.linked
      exact h.ended { t with db := _, store := s' } hlinked hgo rfl rfl rfl
        (sameUpload_aborted now) (by simp [abortedSession]) fun vid hvid => isSome_modify hvid
    | false =>
      exact h.ended { t with db := _, store := s' } (h.linked.setSession _ _) hgo rfl rfl rfl
        (sameUpload_failed _) (by simp [failedSession]) fun vid hvid => hvid

/-- **What a completion makes is the file.** -/
theorem Sound.delivered_of_complete (h : Sound storage clients t) {i : ι}
    {r : VideoCreateResponse} (hr : t.Created i r) {session : UploadSession}
    (hs : SessionOf (clients i) r session) {parts : List CompletedUploadPart}
    (hparts : validateCompletedUploadParts session parts = .ok ()) {store' : σ}
    (hcomplete : storage.service.complete t.store session.objectKey session.objectUploadId
      ((completeMultipartUploadParts parts).map fun part => (part.partNumber, part.etag)) =
        some store') (t' : Transfer σ ι) (hstore : t'.store = store') :
    Delivered storage clients t' i r := by
  obtain ⟨⟨v, hv, hkey, htype, hpieces⟩, -⟩ := h.created i r hr
  rw [hs.objectKey, hs.objectUploadId] at hcomplete
  obtain ⟨u, hu, -, -, hcompletes, huploads, hobjects⟩ :=
    storage.service.complete_eq_some hcomplete
  rw [hv, Option.some.injEq] at hu
  subst hu
  obtain ⟨hnumbers, hsorted⟩ := UploadFile.completeMultipartUploadParts_eq hs.partCount hparts
  have hbody := Upload.assemble_eq (clients i).piece hpieces hcompletes
  have hcontent : (parts.map CompletedUploadPart.partNumber).flatMap (clients i).piece =
      (clients i).content := by
    rw [List.flatMap_map]
    exact UploadFile.concatenate_eq (clients i).content_length hnumbers
  rw [hsorted, List.map_map] at hbody
  refine ⟨⟨v.close, ?_, rfl⟩, ?_⟩
  · rw [hstore, huploads, Function.update_self]
  · rw [hstore, hobjects, Function.update_self, hsorted, hbody, htype, Client.object]
    exact congrArg some (congrArg (Multipart.Object.mk · _) hcontent)

/-- **A completion keeps the agreement**, and delivers what it completes. -/
theorem Sound.complete (h : Sound storage clients t) {ends : CompletionEnds} {videoId : UUID}
    {parts : List CompletedUploadPart} {result : Db × σ} {new : List (ι × Answer)}
    (hnew : ∀ a ∈ new, ∃ state, a.2 = .completed state)
    (hstep : CompleteStep storage t.db t.store ends videoId parts result) :
    Sound storage clients
      { t with db := result.1, store := result.2, answers := new ++ t.answers } := by
  have hanswers : ∀ t' : Transfer σ ι, ∀ a ∈ new, (∀ r, a.2 ≠ .created r) ∧
      Truthful storage clients t' a.1 a.2 := by
    intro t' a ha
    obtain ⟨state, hstate⟩ := hnew a ha
    rw [hstate]
    exact ⟨fun r he => (by cases he), trivial⟩
  cases hstep with
  | refused =>
    obtain ⟨-, hkept⟩ := exists_session_of_eq t.db t.db rfl
    refine h.frame _ h.linked (GoesOn.refl clients t) ⟨new, rfl, hanswers _⟩
      (fun sid s' hs' => ?_) hkept (fun vid hvid => hvid) rfl
    exact ⟨s', hs', SameUpload.refl s', Or.inl⟩
  | @rolledBack sid video session hopen hparts =>
    obtain ⟨i, r, hr, hs, -⟩ := h.exists_created hopen
    obtain ⟨-, hkept⟩ := exists_session_of_eq t.db t.db rfl
    refine h.frame { t with store := _, answers := new ++ t.answers } h.linked
      (h.goesOn_completionCalls hr hs ends parts) ⟨new, rfl, hanswers _⟩
      (fun sid s' hs' => ?_) hkept (fun vid hvid => hvid) rfl
    exact ⟨s', hs', SameUpload.refl s', Or.inl⟩
  | @failed sid video session error hopen hparts =>
    obtain ⟨i, r, hr, hs, -⟩ := h.exists_created hopen
    have hsessions : (t.db.setSession sid (failedSession error)).uploadSessions =
        t.db.uploadSessions.modify sid (failedSession error) := rfl
    obtain ⟨hback, hkept⟩ := exists_session_of_modify hsessions (sameUpload_failed error)
    refine h.frame _ (h.linked.setSession _ _) (h.goesOn_completionCalls hr hs ends parts)
      ⟨new, rfl, hanswers _⟩ (fun sid' s' hs' => ?_) hkept (fun vid hvid => hvid) rfl
    obtain ⟨s, hget, hss', ⟨-, rfl⟩ | rfl⟩ := hback sid' s' hs'
    · exact ⟨s, hget, hss', fun hc => absurd hc (by simp [failedSession])⟩
    · exact ⟨s', hget, hss', Or.inl⟩
  | @completed sid video session maxAttempts uploadedAt completedAt works db' hopen hparts hcalls
      hc =>
    obtain ⟨i, r, hr, hs, -⟩ := h.exists_created hopen
    obtain ⟨hback, hkept⟩ := exists_session_of_modify hc.uploadSessions
      (sameUpload_completed completedAt)
    have hlinked : db'.Linked := hc.linked h.linked (hopen.renditionsOf_eq_nil h.linked)
      hopen.get?_video
    -- the calls have gone through, so that the object is there
    obtain ⟨s₁, hcomplete, hs₁⟩ : ∃ s₁, storage.service.complete t.store session.objectKey
        session.objectUploadId ((completeMultipartUploadParts parts).map fun part =>
          (part.partNumber, part.etag)) = some s₁ ∧
        (completionCalls storage t.store ends session parts).1 = s₁ := by
      rcases hcases : completionCalls storage t.store ends session parts with ⟨s', answers⟩
      rw [hcases] at hcalls
      rcases completionCalls_eq hcases with ⟨-, hno⟩ | ⟨s₁, hcomplete, rfl | ⟨-, hno⟩⟩
      · exact absurd hcalls hno
      · exact ⟨_, hcomplete, rfl⟩
      · exact absurd hcalls hno
    refine h.frame _ hlinked (h.goesOn_completionCalls hr hs ends parts) ⟨new, rfl, hanswers _⟩
      (fun sid' s' hs' => ?_) hkept (fun vid hvid => ?_) rfl
    · obtain ⟨s, hget, hss', ⟨rfl, rfl⟩ | rfl⟩ := hback sid' s' hs'
      · refine ⟨s, hget, hss', fun _ => Or.inr fun i' r' hr' hs'' => ?_⟩
        obtain rfl : s = session := Option.some.inj (hget.symm.trans hopen.get?_session.1)
        exact h.delivered_of_complete hr' hs'' hparts hcomplete _ hs₁
      · exact ⟨s', hget, hss', Or.inl⟩
    · show (db'.videos.get? vid).isSome = true
      rw [hc.videos]
      exact isSome_modify hvid

/-- The answer of a completion. -/
theorem completed_of_mem_answered (i : ι) (result : Except Raised (Option VideoUploadCompletion)) :
    ∀ a ∈ answered i (fun completion => .completed completion.state) result,
      ∃ state, a.2 = .completed state := by
  intro a ha
  obtain ⟨-, completion, -, hstate⟩ := mem_answered.mp ha
  exact ⟨completion.state, hstate⟩

/-- The session of a video that a browser asks about is its own. -/
theorem Sound.session_of_request (h : Sound storage clients t) {i : ι} {videoId sid : UUID}
    {video : Video} {session : UploadSession}
    (hvideo : ∃ r, t.Created i r ∧ r.videoId = videoId)
    (hopen : OpenUpload t.db videoId sid video session) :
    ∃ r, t.Created i r ∧ r.videoId = videoId ∧ SessionOf (clients i) r session := by
  obtain ⟨r, hr, hrv⟩ := hvideo
  obtain ⟨hget, hsv, -⟩ := hopen.get?_session
  exact ⟨r, hr, hrv, h.sessionOf hr hget (hsv.trans hrv.symm)⟩

/-- The parts that the API names for an upload of a client. -/
theorem names_of_presigned {i : ι} {r : VideoCreateResponse} (hr : t.Created i r)
    {parts : List MultipartUploadPart}
    (hnumbers : parts.map MultipartUploadPart.partNumber =
      (List.range (clients i).file.getPartCount).map fun k : ℕ => (k : ℤ) + 1)
    (hparts : ∀ part ∈ parts,
      part.uploadUrl = storage.service.presign r.key r.uploadId part.partNumber) :
    ∀ part ∈ parts, Names storage clients t i part := fun part hpart =>
  ⟨r, hr, UploadController.isPartNumber_of_numbered hnumbers part hpart, hparts part hpart⟩

/-- **A refresh keeps the agreement**: the addresses that it answers are of the same upload. -/
theorem Sound.refresh (h : Sound storage clients t) {i : ι} {videoId : UUID} {partCount : ℕ}
    {presigned : Bool}
    (hrequest : .refreshVideoUpload videoId partCount ∈ (t.controllers i).requests) :
    Sound storage clients { t with
      answers := answered i .refreshed
        (refreshUpload storage t.db videoId partCount presigned) ++ t.answers } := by
  obtain ⟨-, hkept⟩ := exists_session_of_eq t.db t.db rfl
  refine h.frame _ h.linked (GoesOn.refl clients t) ⟨_, rfl, fun a ha => ?_⟩
    (fun sid s' hs' => ⟨s', hs', SameUpload.refl s', Or.inl⟩) hkept (fun vid hvid => hvid) rfl
  obtain ⟨hi, response, hresult, ha⟩ := mem_answered.mp ha
  obtain ⟨sid, video, session, hopen, hcount, hvideo, hnumbers, hparts⟩ :=
    refreshUpload_eq_ok hresult
  have hcarries := (h.carries i).requests _ hrequest
  obtain ⟨r, hr, hrv, hs⟩ := h.session_of_request hcarries.1 hopen
  rw [hs.partCount, Int.toNat_natCast] at hnumbers
  rw [hs.objectKey, hs.objectUploadId] at hparts
  have hnames := names_of_presigned hr hnumbers hparts
  rw [ha, hi]
  exact ⟨fun r' he => (by cases he), hnumbers, fun part hpart =>
    (hnames part hpart).mono _ fun a ha => List.mem_append_right _ ha⟩

/-- **A part that arrives keeps the agreement**: it is a piece of the file, and is stored where
it belongs. -/
theorem Sound.put (h : Sound storage clients t) {i : ι} {uploadUrl : String} {blob : ℤ × ℤ}
    {stored : CallEnd} (hrequest : .putPart uploadUrl blob ∈ (t.controllers i).requests)
    {result : σ × Bool}
    (hresult : stored.run t.store ((storage.service.resolve uploadUrl).bind fun address =>
      storage.service.putPart t.store address.1 address.2.1 address.2.2
        (slice (clients i).content blob)) = result) :
    Sound storage clients { t with
      store := result.1
      answers := (if result.2 then
        [(i, .stored uploadUrl (storage.service.tag (slice (clients i).content blob)))] else []) ++
          t.answers } := by
  obtain ⟨part, ⟨r, hr, -, hurl⟩, rfl, rfl⟩ := (h.carries i).requests _ hrequest
  obtain ⟨⟨v, hv, -⟩, -⟩ := h.created i r hr
  rw [hurl, storage.service.resolve_presign, Option.bind_some] at hresult
  obtain ⟨store', returned⟩ := result
  obtain ⟨-, hkept⟩ := exists_session_of_eq t.db t.db rfl
  have hsame : ∀ {t' : Transfer σ ι}, t'.db = t.db →
      ∀ sid s', t'.db.uploadSessions.get? sid = some s' →
      ∃ s, t.db.uploadSessions.get? sid = some s ∧ SameUpload s s' ∧
        (s'.status = .completed → s.status = .completed ∨
          ∀ i r, t.Created i r → SessionOf (clients i) r s → Delivered storage clients t' i r) := by
    intro t' hdb sid s' hs'
    rw [hdb] at hs'
    exact ⟨s', hs', SameUpload.refl s', Or.inl⟩
  rcases CallEnd.run_eq hresult with ⟨rfl, rfl⟩ | hput
  · exact h.frame { t with answers := _ } h.linked (GoesOn.refl clients t)
      ⟨[], rfl, by simp⟩ (hsame rfl) hkept (fun vid hvid => hvid) rfl
  · obtain ⟨u, hu, -, -, huploads, hobjects⟩ := storage.service.putPart_eq_some hput
    refine h.frame _ h.linked (h.goesOn_update hr hu (later_put (clients i) part.partNumber u)
        huploads (fun _ _ => by rw [hobjects]) (Or.inl (by rw [hobjects]))) ⟨_, rfl, fun a ha => ?_⟩
      (hsame rfl) hkept (fun vid hvid => hvid) rfl
    cases returned with
    | false => cases ha
    | true =>
      obtain rfl := List.mem_singleton.mp ha
      refine ⟨fun r' he => (by cases he), r,
        u.put part.partNumber ((clients i).piece part.partNumber), part.partNumber,
        List.mem_append_right _ hr, hurl, rfl, ?_, ?_⟩
      · exact (congrFun huploads r.uploadId).trans (Function.update_self _ _ _)
      · rw [Upload.parts_put, Function.update_self]
        rfl

/-! ### What a browser is told -/

/-- Addresses of one part are addresses of one number. -/
theorem presign_inj {key key' id id' : String} {n n' : ℤ}
    (h : storage.service.presign key id n = storage.service.presign key' id' n') : n = n' := by
  have hresolve := storage.service.resolve_presign key id n
  rw [h, storage.service.resolve_presign, Option.some.injEq, Prod.mk.injEq,
    Prod.mk.injEq] at hresolve
  exact hresolve.2.2.symm

section Browser

variable [DecidableEq ι]

/-- **A step of a browser keeps the agreement**, as it is told the truth. -/
theorem Sound.browser (h : Sound storage clients t) {i : ι} {event : UploadEvent}
    {c : UploadController}
    (hanswer : event.isAnswer = true →
      ∃ a, (i, a) ∈ t.answers ∧ a.fits (t.controllers i) event = true)
    (hstep : (t.controllers i).step event = some c) :
    Sound storage clients { t with controllers := Function.update t.controllers i c } := by
  have hcount : (t.controllers i).partCount = (clients i).file.getPartCount := by
    rw [UploadController.partCount, (h.carries i).file_eq]
  -- whatever the event brings has been answered, and is true
  have hnamed : (t.controllers i).Numbered event ∧
      (∀ videoId ∈ (UploadController.named event).1, ∃ r, t.Created i r ∧ r.videoId = videoId) ∧
      ∀ part ∈ (UploadController.named event).2, Names storage clients t i part := by
    cases event with
    | created call videoId parts =>
      obtain ⟨a, ha, hfits⟩ := hanswer rfl
      cases a with
      | created response =>
        simp only [Answer.fits, Bool.and_eq_true, decide_eq_true_eq] at hfits
        obtain ⟨rfl, rfl⟩ := hfits
        obtain ⟨hnumbers, hparts⟩ := h.truthful i _ ha
        refine ⟨hnumbers.trans (by rw [hcount]), fun videoId hv => ?_, hparts⟩
        exact ⟨response, ha, Option.some.inj hv⟩
      | _ => cases hfits
    | refreshed call parts =>
      obtain ⟨a, ha, hfits⟩ := hanswer rfl
      cases a with
      | refreshed response =>
        obtain rfl : response.parts = parts := of_decide_eq_true hfits
        obtain ⟨hnumbers, hparts⟩ := h.truthful i _ ha
        exact ⟨hnumbers.trans (by rw [hcount]), fun videoId hv => (by cases hv), hparts⟩
      | _ => cases hfits
    | _ => exact ⟨trivial, fun videoId hv => (by cases hv), fun part hpart => (by cases hpart)⟩
  obtain ⟨hnumbered, hvideo, hparts⟩ := hnamed
  have htags : ∀ u etag upload, event = .loaded u etag →
      (t.controllers i).uploads[u]? = some upload →
        Tags storage clients t i ⟨upload.part.partNumber, etag⟩ := by
    rintro u etag upload rfl hu
    obtain ⟨a, ha, hfits⟩ := hanswer rfl
    cases a with
    | stored uploadUrl tag =>
      simp only [Answer.fits, hu, Option.map_some, Bool.and_eq_true, decide_eq_true_eq,
        Option.some.injEq] at hfits
      obtain ⟨rfl, rfl⟩ := hfits
      obtain ⟨r, v, n, hr, hurl, htag, hv, hn⟩ := h.truthful i _ ha
      obtain ⟨r', -, -, hurl'⟩ := (h.carries i).uploads upload (List.mem_of_getElem? hu)
      obtain rfl := presign_inj (hurl.symm.trans hurl')
      exact ⟨htag, r, v, hr, hv, hn⟩
    | _ => cases hfits
  refine ⟨h.linked, h.session, h.created, h.apart, h.truthful, fun j => ?_, fun j => ?_,
    h.delivered⟩
  · by_cases hj : j = i
    · subst hj
      show UploadController.Carries _ _ _ (Function.update t.controllers j c j)
      rw [Function.update_self]
      exact (h.carries j).step hvideo hparts hstep
    · show UploadController.Carries _ _ _ (Function.update t.controllers i c j)
      rw [Function.update_of_ne hj]
      exact h.carries j
  · by_cases hj : j = i
    · subst hj
      show UploadController.Reports _ _ (Function.update t.controllers j c j)
      rw [Function.update_self]
      exact (h.reports j).step hnumbered htags hstep
    · show UploadController.Reports _ _ (Function.update t.controllers i c j)
      rw [Function.update_of_ne hj]
      exact h.reports j

end Browser

/-! ### Creating -/

/-- **A creation that has been answered** has neither a new video nor a new upload. -/
theorem Sound.created_ne (h : Sound storage clients t) {videoId : UUID} {uploadId : String}
    (hvideo : t.db.videos.get? videoId = none)
    (hid : storage.service.uploads t.store uploadId = none) {j : ι} {r : VideoCreateResponse}
    (hr : t.Created j r) : r.videoId ≠ videoId ∧ r.uploadId ≠ uploadId := by
  obtain ⟨⟨u, hu, -⟩, sid, s, hs, hsr⟩ := h.created j r hr
  refine ⟨?_, ?_⟩
  · rintro rfl
    have hsome := (h.session sid s hs).1
    rw [hsr.videoId, hvideo] at hsome
    cases hsome
  · rintro rfl
    rw [hid] at hu
    cases hu

/-- **A new upload is nobody else's.** -/
theorem Sound.created_upload (h : Sound storage clients t) {i : ι} {videoId sessionId : UUID}
    {uploadId key : String} {video : Video} {session : UploadSession}
    {parts : List MultipartUploadPart} {store' : σ}
    (hcreate : storage.service.create t.store uploadId key (clients i).contentType = some store')
    (hvideo : t.db.videos.get? videoId = none)
    (hsession : t.db.uploadSessions.get? sessionId = none)
    (hrow : SessionOf (clients i) ⟨videoId, storage.bucket, key, uploadId, parts⟩ session)
    (hactive : session.status = .active)
    (hnumbers : parts.map MultipartUploadPart.partNumber =
      (List.range (clients i).file.getPartCount).map fun k : ℕ => (k : ℤ) + 1)
    (hparts : ∀ part ∈ parts,
      part.uploadUrl = storage.service.presign key uploadId part.partNumber) :
    Sound storage clients { t with
      db := { t.db with
        videos := t.db.videos.insert videoId video hvideo
        uploadSessions := t.db.uploadSessions.insert sessionId session hsession }
      store := store'
      answers := (i, .created ⟨videoId, storage.bucket, key, uploadId, parts⟩) :: t.answers } := by
  have hgo := goesOn_create clients t hcreate
  obtain ⟨hid, huploads, -⟩ := storage.service.create_eq_some hcreate
  have hmem : ∀ a ∈ t.answers, a ∈
      (i, Answer.created ⟨videoId, storage.bucket, key, uploadId, parts⟩) :: t.answers :=
    fun a ha => List.mem_cons_of_mem _ ha
  have hcases : ∀ {j r}, (j, Answer.created r) ∈
      (i, Answer.created ⟨videoId, storage.bucket, key, uploadId, parts⟩) :: t.answers →
      (j = i ∧ r = ⟨videoId, storage.bucket, key, uploadId, parts⟩) ∨ t.Created j r := by
    intro j r hr
    rcases List.mem_cons.mp hr with he | hr
    · rw [Prod.mk.injEq, Answer.created.injEq] at he
      exact Or.inl he
    · exact Or.inr hr
  refine ⟨h.linked.created hvideo hsession, fun sid s hs => ?_, fun j r hr => ?_,
    fun j j' r r' hr hr' hsame => ?_, fun j a ha => ?_, fun j => ?_, fun j => ?_,
    fun sid s j r hs hr hsr hcompleted => ?_⟩
  · rcases (Table.get?_insert_eq_some_iff hsession).mp hs with ⟨rfl, rfl⟩ | hs
    · refine ⟨?_, i, _, List.mem_cons_self, hrow⟩
      show ((t.db.videos.insert videoId video hvideo).get? s.videoId).isSome = true
      rw [hrow.videoId, Table.get?_insert_self]
      rfl
    · obtain ⟨hsome, j, r, hr, hsr⟩ := h.session sid s hs
      obtain ⟨v, hv⟩ := Option.isSome_iff_exists.mp hsome
      exact ⟨Option.isSome_iff_exists.mpr ⟨v, Table.get?_insert_of_some hv _ hvideo⟩, j, r,
        hmem _ hr, hsr⟩
  · rcases hcases hr with ⟨rfl, rfl⟩ | hr
    · refine ⟨⟨.new key (clients j).contentType, ?_, rfl, rfl, ?_⟩, sessionId, session, ?_, hrow⟩
      · exact (congrFun huploads uploadId).trans (Function.update_self _ _ _)
      · exact fun n body hbody => (by cases hbody)
      · exact Table.get?_insert_self _ _ _ hsession
    · obtain ⟨hholds, sid, s, hs, hsr⟩ := h.created j r hr
      exact ⟨Holds.mono { t with store := _ } hgo hr hholds, sid, s,
        Table.get?_insert_of_some hs _ hsession, hsr⟩
  · rcases hcases hr with ⟨rfl, rfl⟩ | hold₁ <;> rcases hcases hr' with ⟨rfl, rfl⟩ | hold₂
    · exact ⟨rfl, rfl⟩
    · obtain ⟨hv, hu⟩ := h.created_ne hvideo hid hold₂
      exact absurd hsame (not_or.mpr ⟨fun he => hv he.symm, fun he => hu he.symm⟩)
    · obtain ⟨hv, hu⟩ := h.created_ne hvideo hid hold₁
      exact absurd hsame (not_or.mpr ⟨hv, hu⟩)
    · exact h.apart j j' r r' hold₁ hold₂ hsame
  · rcases List.mem_cons.mp ha with he | ha
    · rw [Prod.mk.injEq] at he
      obtain ⟨rfl, rfl⟩ := he
      exact ⟨hnumbers, fun part hpart => ⟨_, List.mem_cons_self,
        UploadController.isPartNumber_of_numbered hnumbers part hpart, hparts part hpart⟩⟩
    · exact (h.truthful j a ha).mono { t with store := _, answers := _ } hgo hmem
  · exact (h.carries j).mono (fun vid ⟨r, hr, hv⟩ => ⟨r, hmem _ hr, hv⟩)
      fun part hpart => hpart.mono _ hmem
  · exact (h.reports j).mono fun part hpart =>
      hpart.mono { t with store := _, answers := _ } hgo hmem
  · rcases (Table.get?_insert_eq_some_iff hsession).mp hs with ⟨-, rfl⟩ | hs₀
    · rw [hactive] at hcompleted
      cases hcompleted
    · rcases hcases hr with ⟨rfl, rfl⟩ | hr
      · have hsome := (h.session sid s hs₀).1
        rw [hsr.videoId, hvideo] at hsome
        cases hsome
      · exact Delivered.mono { t with store := _ } hgo hr
          (h.delivered sid s j r hs₀ hr hsr hcompleted)

/-- **A creation keeps the agreement**: it leaves an upload that is nobody's, or a session and
an upload that are its browser's. -/
theorem Sound.create (h : Sound storage clients t) {i : ι} {sizeBytes partCount : ℤ}
    (hsize : sizeBytes = (clients i).file.sizeBytes)
    (hcount : partCount = (clients i).file.getPartCount)
    {result : (Db × σ) × Except Raised VideoCreateResponse}
    (hstep : CreateStep storage t.db t.store (clients i).filename (clients i).contentType sizeBytes
      partCount result) :
    Sound storage clients { t with
      db := result.1.1
      store := result.1.2
      answers := answered i .created (result.2.map some) ++ t.answers } := by
  obtain ⟨-, hkept⟩ := exists_session_of_eq t.db t.db rfl
  cases hstep with
  | refused error => exact h
  | orphaned hcreate error =>
    exact h.frame { t with store := _ } h.linked (goesOn_create clients t hcreate)
      ⟨[], rfl, by simp⟩ (fun sid s' hs' => ⟨s', hs', SameUpload.refl s', Or.inl⟩) hkept
      (fun vid hvid => hvid) rfl
  | created hkey hcreate hvideo hsession hrow hsource hnumbers hparts =>
    obtain ⟨hv, hk, hu, hc, hs, hp, hactive⟩ := hrow
    rw [hcount, Int.toNat_natCast] at hnumbers
    exact h.created_upload hcreate hvideo hsession
      ⟨hkey, hv, hk, hu, hc, hs.trans hsize, hp.trans hcount⟩ hactive hnumbers hparts

/-! ### Runs -/

theorem sound_start (storage : S3ObjectStorage σ α) (clients : ι → Client α) :
    Sound storage clients (start storage clients) where
  linked := Db.Linked.empty
  session := fun _ _ h => by cases h
  created := fun _ _ h => (List.not_mem_nil h).elim
  apart := fun _ _ _ _ h => (List.not_mem_nil h).elim
  truthful := fun _ _ h => (List.not_mem_nil h).elim
  carries := fun i => UploadController.Carries.initial _ _ _
  reports := fun i => UploadController.Reports.initial _ _
  delivered := fun _ _ _ _ h => by cases h

section Run

variable [DecidableEq ι]

/-- **Every step keeps the agreement.** -/
theorem Sound.step {settings : UploadSettings} {t' : Transfer σ ι} {action : TransferAction ι}
    (h : Sound storage clients t) (hstep : t.step storage settings clients action = some t') :
    Sound storage clients t' := by
  cases step_cases hstep with
  | browser hanswer hc => exact h.browser hanswer hc
  | @created i _ _ _ _ _ _ _ _ _ hrequest _ hresult =>
    obtain ⟨hsize, hcount⟩ := (h.carries i).requests _ hrequest
    exact h.create (by rw [hsize]) (by rw [hcount]) hresult
  | refreshed hrequest => exact h.refresh hrequest
  | completed hresult => exact h.complete (completed_of_mem_answered _ _) (hresult h.linked)
  | aborted hresult => exact h.abort hresult
  | put hrequest hresult => exact h.put hrequest hresult
  | ignored => exact h
  | service hop => exact h.service hop

/-- **The parties agree in every run.** -/
theorem sound_of_reachable {settings : UploadSettings}
    {guard : Transfer σ ι → TransferAction ι → Prop}
    (h : ReachableTransfer storage settings clients guard t) : Sound storage clients t := by
  refine h.invariant (fun t ht => ?_) fun t action t' ht _ hstep => ht.step hstep
  rw [ht]
  exact sound_start storage clients

end Run

/-- What a completed session has made, and for whom. -/
theorem Sound.exists_object (h : Sound storage clients t) {sid : UUID} {s : UploadSession}
    (hs : t.db.uploadSessions.get? sid = some s) (hcompleted : s.status = .completed) :
    ∃ i r, t.Created i r ∧ SessionOf (clients i) r s ∧
      storage.service.objects t.store s.objectKey = some (clients i).object := by
  obtain ⟨-, i, r, hr, hsession⟩ := h.session sid s hs
  obtain ⟨-, hobject⟩ := h.delivered sid s i r hs hr hsession hcompleted
  exact ⟨i, r, hr, hsession, by rw [hsession.objectKey]; exact hobject⟩

end Transfer

/-- **A completed upload is the file**: in every run, a session that is completed was answered
to one browser, and the object under its key is the file of that browser, its content and its
type. -/
theorem completed_upload_is_file {σ α ι : Type} [DecidableEq ι] {storage : S3ObjectStorage σ α}
    {settings : UploadSettings} {clients : ι → Client α}
    {guard : Transfer σ ι → TransferAction ι → Prop} {t : Transfer σ ι}
    (h : ReachableTransfer storage settings clients guard t) {sid : UUID} {s : UploadSession}
    (hs : t.db.uploadSessions.get? sid = some s) (hcompleted : s.status = .completed) :
    ∃ i r, t.Created i r ∧ r.videoId = s.videoId ∧
      (∀ j r', t.Created j r' → r'.videoId = s.videoId → j = i) ∧
      buildSourceKey s.videoId (clients i).filename = .ok s.objectKey ∧
      storage.service.objects t.store s.objectKey =
        some ⟨(clients i).content, (clients i).contentType⟩ := by
  have hsound := Transfer.sound_of_reachable h
  obtain ⟨i, r, hr, hsession, hobject⟩ := hsound.exists_object hs hcompleted
  refine ⟨i, r, hr, hsession.videoId.symm, fun j r' hr' hv => ?_, ?_, hobject⟩
  · exact (hsound.apart j i r' r hr' hr (Or.inl (hv.trans hsession.videoId))).1
  · rw [hsession.videoId, hsession.objectKey]
    exact hsession.key

/-! ### An upload -/

section Sample

/-- A text with its length in front, and what follows it. -/
def lengthFirst (text rest : List Char) : List Char :=
  List.replicate text.length 'x' ++ '/' :: (text ++ rest)

/-- A text that has its length in front, and what follows it. -/
def readLengthFirst (chars : List Char) : List Char × List Char :=
  let length := (chars.takeWhile (· = 'x')).length
  ((chars.drop (length + 1)).take length, (chars.drop (length + 1)).drop length)

theorem readLengthFirst_lengthFirst (text rest : List Char) :
    readLengthFirst (lengthFirst text rest) = (text, rest) := by
  have hwhile : ((lengthFirst text rest).takeWhile (· = 'x')).length = text.length := by
    rw [lengthFirst, List.takeWhile_append_of_pos (fun c hc => by
      simp [List.eq_of_mem_replicate hc])]
    simp
  have hdrop : (lengthFirst text rest).drop (text.length + 1) = text ++ rest := by
    rw [lengthFirst, ← List.drop_drop, List.drop_left' (List.length_replicate ..)]
    rfl
  rw [readLengthFirst]
  simp only [hwhile, hdrop, List.take_left, List.drop_left]

/-- The last 32 hexadecimal digits of a number. -/
def hexDigits (n : ℕ) : String :=
  String.ofList ((List.range 32).map fun k => Nat.digitChar (n / 16 ^ (31 - k) % 16))

/-- The digits are a tag of the form that the API lets through. -/
theorem isPartEtag_hexDigits (n : ℕ) : isPartEtag (hexDigits n) = true := by
  have hdigit : ∀ k < 16, isHexDigit (Nat.digitChar k) = true ∧ Nat.digitChar k ≠ '"' := by decide
  have hhex : isHex32 (hexDigits n).toList = true := by
    rw [hexDigits, String.toList_ofList, isHex32, Bool.and_eq_true, decide_eq_true_eq,
      List.all_eq_true]
    refine ⟨by simp, fun c hc => ?_⟩
    obtain ⟨k, -, rfl⟩ := List.mem_map.mp hc
    exact (hdigit _ (Nat.mod_lt _ (by decide))).1
  rw [isPartEtag]
  split
  · -- no digit is a quotation mark
    rename_i chars hchars
    have hquote : '"' ∈ (hexDigits n).toList := hchars ▸ List.mem_cons_self
    rw [hexDigits, String.toList_ofList, List.mem_map] at hquote
    obtain ⟨k, -, hk⟩ := hquote
    exact absurd hk (hdigit _ (Nat.mod_lt _ (by decide))).2
  · exact hhex

/-- The tag of a content: its bytes, read as the digits of a number. -/
def sampleTag (body : List ℕ) : String := hexDigits (body.foldl (fun n b => 257 * n + b + 1) 0)

/-- A storage that takes parts of two bytes and more, and whose addresses list what they lead
to. -/
def sampleService : Service (Store ℕ) ℕ :=
  Store.service sampleTag 2
    (fun key id n => String.ofList (lengthFirst key.toList (lengthFirst id.toList
      (List.replicate n.toNat 'p' ++ List.replicate (-n).toNat 'm'))))
    (fun url =>
      let first := readLengthFirst url.toList
      let second := readLengthFirst first.2
      some (String.ofList first.1, String.ofList second.1,
        (second.2.count 'p' : ℤ) - second.2.count 'm')) <| by
    intro key id n
    simp only [String.toList_ofList, readLengthFirst_lengthFirst, String.ofList_toList,
      List.count_append, List.count_replicate]
    have hne : ('m' == 'p') = false ∧ ('p' == 'm') = false := by decide
    simp only [beq_self_eq_true, hne.1, hne.2, if_true, Bool.false_eq_true, if_false,
      Option.some.injEq, Prod.mk.injEq, true_and]
    omega

def sampleStorage : S3ObjectStorage (Store ℕ) ℕ := ⟨"videos", sampleService⟩

/-- A browser with a file of three bytes in two parts. -/
def sampleClients : Unit → Client ℕ := fun _ =>
  ⟨⟨3, 2, by decide⟩, "a.mp4", "video/mp4", [1, 2, 3], rfl⟩

/-- The ids that are drawn from one on. -/
def sampleIds (start : ℕ) : IdStream := fun k => ⟨Fin.ofNat (2 ^ 128) (start + k)⟩

/-- The address of a part of the upload. -/
def samplePart (n : ℤ) : MultipartUploadPart :=
  ⟨n, sampleService.presign "source/00000000-0000-0000-0000-000000000000/a.mp4" "upload" n⟩

/-- An upload up to its completion, the second part first. -/
def sampleTransfer : List (TransferAction Unit) :=
  [.browser () .start, .create () 0 .returned true "upload" (sampleIds 0) 0,
    .browser () (.created 0 ⟨0⟩ [samplePart 1, samplePart 2]),
    .put () 2 .returned, .browser () (.loaded 1 (sampleTag [3])),
    .put () 1 .lost, .put () 1 .returned, .browser () (.loaded 0 (sampleTag [1, 2]))]

/-- Its completion. -/
def sampleCompletion : TransferAction Unit :=
  .complete () 3 sampleSettings ⟨.returned, true, .returned⟩ (sampleIds 2) 1 2

/-- An upload, and the object that it has made. -/
theorem completed_upload_is_file_sample : ∃ t sid s,
    ReachableTransfer sampleStorage .default sampleClients Unguarded t ∧
    t.db.uploadSessions.get? sid = some s ∧ s.status = .completed ∧
    t.store.objects s.objectKey = some ⟨[1, 2, 3], "video/mp4"⟩ := by
  have hstatus : ((guardedRun (Transfer.step sampleStorage .default sampleClients) Unguarded
      (Transfer.start sampleStorage sampleClients) (sampleTransfer ++ [sampleCompletion])).bind
        fun t => (t.db.uploadSessions.get? ⟨1⟩).map UploadSession.status) = some .completed := by
    decide +kernel
  obtain ⟨t, ht, hsession⟩ := Option.bind_eq_some_iff.mp hstatus
  obtain ⟨s, hs, hcompleted⟩ := Option.map_eq_some_iff.mp hsession
  have hstart : ReachableTransfer sampleStorage .default sampleClients Unguarded
      (Transfer.start sampleStorage sampleClients) := Reaches.start rfl
  have hreach := hstart.of_guardedRun ht
  obtain ⟨i, r, -, -, -, -, hobject⟩ := completed_upload_is_file hreach hs hcompleted
  exact ⟨t, ⟨1⟩, s, hreach, hs, hcompleted, hobject⟩

end Sample

end RenditionPipeline
