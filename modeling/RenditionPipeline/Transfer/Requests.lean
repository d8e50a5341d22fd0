import RenditionPipeline.Browser.Completion

/-!
# What a browser sends

A controller is told where to send its parts and what their tags are, and says both again:
the addresses come back in its transfers, the tags in its completion. Here it is followed
what becomes of what it has been told. Whatever holds of all the parts that the API has
named to it holds of every part in its queues, in transfer or sent
(`RenditionPipeline.UploadController.Carries`), each with the piece of the file that its
number says; and a completion lists the parts of the file with tags that have been reported
to it (`RenditionPipeline.UploadController.Reports`).
-/

namespace RenditionPipeline

namespace UploadController

/-! ### Where the parts are sent -/

/-- The requests of an upload of a file whose videos and whose parts have a property. -/
def RequestOf (V : UUID → Prop) (P : MultipartUploadPart → Prop) (file : UploadFile) :
    BrowserRequest → Prop
  | .createVideoUpload sizeBytes partCount =>
    sizeBytes = file.sizeBytes ∧ partCount = file.getPartCount
  | .refreshVideoUpload videoId partCount => V videoId ∧ partCount = file.getPartCount
  | .completeVideoUpload videoId _ => V videoId
  | .abortVideoUpload videoId => V videoId
  | .putPart uploadUrl blob => ∃ part, P part ∧ uploadUrl = part.uploadUrl ∧
    blob = file.partBlob part.partNumber

/-- **The videos and the parts of a controller have a property**: the parts that wait, those
in transfer and those that have been sent, with the pieces of the file that are theirs. -/
structure Carries (V : UUID → Prop) (P : MultipartUploadPart → Prop) (file : UploadFile)
    (c : UploadController) : Prop where
  file_eq : c.file = file
  video : ∀ videoId, c.videoId = some videoId → V videoId
  queue : ∀ call ∈ c.calls, ∀ part ∈ call.queue, P part
  uploads : ∀ upload ∈ c.uploads, P upload.part
  requests : ∀ request ∈ c.requests, RequestOf V P file request

namespace Carries

variable {V V' : UUID → Prop} {P P' : MultipartUploadPart → Prop} {file : UploadFile}
  {c c' : UploadController}

theorem initial (V : UUID → Prop) (P : MultipartUploadPart → Prop) (file : UploadFile) :
    Carries V P file (initial file) :=
  ⟨rfl, fun _ h => (by cases h), fun _ h => (List.not_mem_nil h).elim,
    fun _ h => (List.not_mem_nil h).elim, fun _ h => (List.not_mem_nil h).elim⟩

theorem mono (h : Carries V P file c) (hV : ∀ videoId, V videoId → V' videoId)
    (hP : ∀ part, P part → P' part) : Carries V' P' file c where
  file_eq := h.file_eq
  video := fun videoId hvideo => hV videoId (h.video videoId hvideo)
  queue := fun call hcall part hpart => hP part (h.queue call hcall part hpart)
  uploads := fun upload hu => hP upload.part (h.uploads upload hu)
  requests := by
    intro request hmem
    have hreq := h.requests request hmem
    cases request with
    | putPart uploadUrl blob =>
      obtain ⟨part, hpart, hrest⟩ := hreq
      exact ⟨part, hP part hpart, hrest⟩
    | createVideoUpload _ _ => exact hreq
    | refreshVideoUpload videoId _ => exact ⟨hV videoId hreq.1, hreq.2⟩
    | completeVideoUpload videoId _ => exact hV videoId hreq
    | abortVideoUpload videoId => exact hV videoId hreq

/-- A controller that has no parts but those it had, and sends nothing else but requests of
its upload. -/
theorem frame (h : Carries V P file c) (hfile : c'.file = c.file)
    (hvideo : c'.videoId = c.videoId)
    (hcalls : ∀ call ∈ c'.calls, ∀ part ∈ call.queue, ∃ old ∈ c.calls, part ∈ old.queue)
    (huploads : ∀ upload ∈ c'.uploads, upload ∈ c.uploads)
    (hrequests : ∀ request ∈ c'.requests, request ∈ c.requests ∨ RequestOf V P file request) :
    Carries V P file c' where
  file_eq := hfile.trans h.file_eq
  video := fun videoId hv => h.video videoId (by rw [← hvideo, hv])
  queue := by
    intro call hcall part hpart
    obtain ⟨old, hold, hmem⟩ := hcalls call hcall part hpart
    exact h.queue old hold part hmem
  uploads := fun upload hu => h.uploads upload (huploads upload hu)
  requests := by
    intro request hmem
    rcases hrequests request hmem with hold | hnew
    · exact h.requests request hold
    · exact hnew

/-- Only what has no parts is changed, and one more request is sent, or none. -/
theorem of_eq (h : Carries V P file c) (hfile : c'.file = c.file)
    (hvideo : c'.videoId = c.videoId) (hcalls : c'.calls = c.calls)
    (huploads : c'.uploads = c.uploads)
    (hrequests : ∀ request ∈ c'.requests, request ∈ c.requests ∨ RequestOf V P file request) :
    Carries V P file c' := by
  refine h.frame hfile hvideo (fun call hcall part hpart => ?_) (fun upload hu => ?_) hrequests
  · exact ⟨call, by rwa [← hcalls], hpart⟩
  · rwa [← huploads]

/-- One more request. -/
theorem send (h : Carries V P file c) {request : BrowserRequest}
    (hrequest : RequestOf V P file request) : Carries V P file (c.send request) := by
  refine h.of_eq rfl rfl rfl rfl fun r hr => ?_
  rcases List.mem_append.mp hr with hold | hnew
  · exact Or.inl hold
  · rw [List.mem_singleton.mp hnew]
    exact Or.inr hrequest

theorem setPhase (h : Carries V P file c) (i : ℕ) (phase : CallPhase) :
    Carries V P file (c.setPhase i phase) := by
  refine h.frame rfl rfl (fun call hcall part hpart => ?_) (fun _ hu => hu) fun _ hr => Or.inl hr
  obtain ⟨j, hj⟩ := List.mem_iff_getElem?.mp hcall
  simp only [UploadController.setPhase, List.getElem?_modify, Option.map_eq_map,
    Option.map_eq_some_iff] at hj
  obtain ⟨old, hold, rfl⟩ := hj
  refine ⟨old, List.mem_of_getElem? hold, ?_⟩
  split at hpart
  · exact hpart
  · exact hpart

theorem caught (h : Carries V P file c) (i : ℕ) : Carries V P file (c.caught i) := by
  have hover := h.setPhase i .over
  rw [UploadController.caught]
  split
  · exact hover
  · exact hover.of_eq rfl rfl rfl rfl fun _ hr => Or.inl hr

theorem finishRound (h : Carries V P file c) (i : ℕ) : Carries V P file (c.finishRound i) := by
  unfold UploadController.finishRound completeUpload
  split
  · exact h.caught i
  · split
    · exact h.setPhase i .over
    · rename_i videoId hvideo
      split
      · exact h.caught i
      · exact (h.setPhase i .completing).send (h.video videoId hvideo)

theorem worker (h : Carries V P file c) (i : ℕ) : Carries V P file (c.worker i) := by
  rw [UploadController.worker]
  split
  · exact h
  rename_i call hcall
  have hmem : call ∈ c.calls := List.mem_of_getElem? hcall
  split
  · rename_i part queue hqueue
    have hpart : P part := h.queue call hmem part (by rw [hqueue]; exact List.mem_cons_self)
    -- the part leaves the queue, is sent and is in transfer
    refine ⟨h.file_eq, h.video, fun d hd => ?_, fun upload hu => ?_, fun request hr => ?_⟩
    · rcases List.mem_or_eq_of_mem_set hd with hd | rfl
      · exact h.queue d hd
      · exact fun p hp => h.queue call hmem p (by rw [hqueue]; exact List.mem_cons_of_mem _ hp)
    · rcases List.mem_append.mp hu with hu | hu
      · exact h.uploads upload hu
      · obtain rfl := List.mem_singleton.mp hu
        exact hpart
    · rcases List.mem_append.mp hr with hr | hr
      · exact h.requests request hr
      · obtain rfl := List.mem_singleton.mp hr
        exact ⟨part, hpart, rfl, by rw [← h.file_eq]⟩
  · split
    · exact h.finishRound i
    · exact h

theorem iterate_worker (h : Carries V P file c) (i k : ℕ) :
    Carries V P file ((fun c => UploadController.worker c i)^[k] c) := by
  induction k generalizing c with
  | zero => exact h
  | succ k ih =>
    rw [Function.iterate_succ_apply]
    exact ih (h.worker i)

theorem uploadMissingParts (h : Carries V P file c) (i : ℕ) {parts : List MultipartUploadPart}
    (hparts : ∀ part ∈ parts, P part) : Carries V P file (c.uploadMissingParts i parts) := by
  have hopen : Carries V P file (c.openRound i
      (parts.insertionSort fun p q => p.partNumber ≤ q.partNumber)) := by
    refine ⟨h.file_eq, h.video, fun call hcall => ?_, h.uploads, h.requests⟩
    rcases List.mem_or_eq_of_mem_set hcall with hcall | rfl
    · exact h.queue call hcall
    · exact fun part hpart => hparts part ((List.mem_insertionSort _).mp hpart)
  unfold UploadController.uploadMissingParts
  dsimp only
  split
  · exact hopen.finishRound i
  · exact hopen.iterate_worker i _

/-- A new call has no parts. -/
theorem newCall (h : Carries V P file c) (phase : CallPhase) (hfile : c'.file = c.file)
    (hvideo : c'.videoId = c.videoId) (hcalls : c'.calls = c.calls ++ [⟨phase, []⟩])
    (huploads : c'.uploads = c.uploads)
    (hrequests : ∀ request ∈ c'.requests, request ∈ c.requests ∨ RequestOf V P file request) :
    Carries V P file c' := by
  refine h.frame hfile hvideo (fun call hcall part hpart => ?_)
    (fun u hu => by rwa [← huploads]) hrequests
  rw [hcalls] at hcall
  rcases List.mem_append.mp hcall with hold | hnew
  · exact ⟨call, hold, hpart⟩
  · rw [List.mem_singleton.mp hnew] at hpart
    exact (List.not_mem_nil hpart).elim

theorem cancel (h : Carries V P file c) : Carries V P file c.cancel := by
  have habort : Carries V P file c.abort := by
    refine h.frame rfl rfl (fun call hcall part hpart => ?_)
      (fun upload hu => (List.mem_filter.mp hu).1) fun _ hr => Or.inl hr
    obtain ⟨j, hj⟩ := List.mem_iff_getElem?.mp hcall
    rw [abort, List.getElem?_mapIdx] at hj
    obtain ⟨old, hold, rfl⟩ := Option.map_eq_some_iff.mp hj
    refine ⟨old, List.mem_of_getElem? hold, ?_⟩
    split at hpart
    · exact hpart
    · exact hpart
  rw [UploadController.cancel]
  split
  · exact habort
  · rename_i videoId hvideo
    exact habort.send (h.video videoId hvideo)

theorem start (h : Carries V P file c) : Carries V P file c.start := by
  refine h.newCall .creating rfl rfl rfl rfl fun request hr => ?_
  rcases List.mem_append.mp hr with hold | hnew
  · exact Or.inl hold
  · rw [List.mem_singleton.mp hnew]
    exact Or.inr ⟨by rw [h.file_eq], by rw [partCount, h.file_eq]⟩

theorem retryFailedParts (h : Carries V P file c) : Carries V P file c.retryFailedParts := by
  rw [UploadController.retryFailedParts]
  split
  · exact h
  · rename_i videoId hvideo
    split
    · exact h
    · refine h.newCall .refreshing rfl rfl rfl rfl fun request hr => ?_
      rcases List.mem_append.mp hr with hold | hnew
      · exact Or.inl hold
      · rw [List.mem_singleton.mp hnew]
        exact Or.inr ⟨h.video videoId hvideo, by rw [partCount, h.file_eq]⟩

theorem endTransfer (h : Carries V P file c) (u : ℕ) : Carries V P file (c.endTransfer u) :=
  h.frame rfl rfl (fun call hcall _ hpart => ⟨call, hcall, hpart⟩)
    (fun _ hu => List.mem_of_mem_eraseIdx hu) fun _ hr => Or.inl hr

end Carries

/-! ### What a controller is told -/

/-- The video that an event names to a controller, and the parts. -/
def named : UploadEvent → Option UUID × List MultipartUploadPart
  | .created _ videoId parts => (some videoId, parts)
  | .refreshed _ parts => (none, parts)
  | _ => (none, [])

section Steps

variable {V : UUID → Prop} {P : MultipartUploadPart → Prop} {Q : CompletedUploadPart → Prop}
  {file : UploadFile} {c c' : UploadController} {event : UploadEvent}

/-- **What holds of all that is named to a controller holds of all that it sends.** -/
theorem Carries.step (h : Carries V P file c) (hvideo : ∀ videoId ∈ (named event).1, V videoId)
    (hparts : ∀ part ∈ (named event).2, P part) (hstep : c.step event = some c') :
    Carries V P file c' := by
  cases event with
  | start =>
    obtain rfl := Option.some.inj hstep
    exact h.start
  | retryFailedParts =>
    obtain rfl := Option.some.inj hstep
    exact h.retryFailedParts
  | cancel =>
    obtain rfl := Option.some.inj hstep
    exact h.cancel
  | created i videoId parts =>
    simp only [UploadController.step, Option.ite_none_right_eq_some, Option.some.injEq] at hstep
    obtain ⟨-, rfl⟩ := hstep
    have hset : Carries V P file { c with videoId := some videoId } := by
      refine ⟨h.file_eq, fun v hv => ?_, h.queue, h.uploads, h.requests⟩
      obtain rfl := Option.some.inj hv
      exact hvideo _ rfl
    exact hset.uploadMissingParts i hparts
  | refreshed i parts =>
    simp only [UploadController.step, Option.ite_none_right_eq_some, Option.some.injEq] at hstep
    obtain ⟨-, rfl⟩ := hstep
    exact h.uploadMissingParts i fun part hpart => hparts part (List.mem_filter.mp hpart).1
  | completed i status =>
    simp only [UploadController.step, Option.ite_none_right_eq_some, Option.some.injEq] at hstep
    obtain ⟨-, rfl⟩ := hstep
    exact (h.setPhase i .over).of_eq rfl rfl rfl rfl fun _ hr => Or.inl hr
  | rejected i =>
    simp only [UploadController.step, Option.ite_none_right_eq_some, Option.some.injEq] at hstep
    obtain ⟨-, rfl⟩ := hstep
    exact h.caught i
  | loaded u etag =>
    cases hu : c.uploads[u]? with
    | none => simp [UploadController.step, hu] at hstep
    | some upload =>
      simp only [UploadController.step, hu, Option.some.injEq] at hstep
      obtain rfl := hstep
      have hrecord : Carries V P file
          ((c.endTransfer u).recordPart ⟨upload.part.partNumber, etag⟩) :=
        (h.endTransfer u).of_eq rfl rfl rfl rfl fun _ hr => Or.inl hr
      exact hrecord.worker upload.call
  | uploadFailed u =>
    cases hu : c.uploads[u]? with
    | none => simp [UploadController.step, hu] at hstep
    | some upload =>
      simp only [UploadController.step, hu, Option.some.injEq] at hstep
      obtain rfl := hstep
      have hend := h.endTransfer u
      rw [partFailed]
      split
      · split
        · exact hend.caught _
        · exact hend
      · have hnote : Carries V P file ((c.endTransfer u).notePart upload.part.partNumber) :=
          hend.of_eq rfl rfl rfl rfl fun _ hr => Or.inl hr
        exact hnote.worker _

/-- **The parts stored** are those before and, where a transfer has loaded, its part. -/
theorem stored_of_step (hstep : c.step event = some c') :
    c'.stored = c.stored ∨ ∃ u etag upload, event = .loaded u etag ∧
      c.uploads[u]? = some upload ∧
      c'.stored = ⟨upload.part.partNumber, etag⟩ :: c.stored := by
  cases event with
  | loaded u etag =>
    cases hu : c.uploads[u]? with
    | none => simp [UploadController.step, hu] at hstep
    | some upload =>
      simp only [UploadController.step, hu, Option.some.injEq] at hstep
      obtain rfl := hstep
      exact Or.inr ⟨u, etag, upload, rfl, hu, (goesOn_worker _ _).stored⟩
  | start =>
    obtain rfl := Option.some.inj hstep
    exact Or.inl (goesOn_start c).stored
  | retryFailedParts =>
    obtain rfl := Option.some.inj hstep
    exact Or.inl (goesOn_retryFailedParts c).stored
  | cancel =>
    obtain rfl := Option.some.inj hstep
    exact Or.inl (goesOn_cancel c).stored
  | created i videoId parts =>
    simp only [UploadController.step, Option.ite_none_right_eq_some, Option.some.injEq] at hstep
    obtain ⟨-, rfl⟩ := hstep
    exact Or.inl (goesOn_uploadMissingParts _ i parts).stored
  | refreshed i parts =>
    simp only [UploadController.step, Option.ite_none_right_eq_some, Option.some.injEq] at hstep
    obtain ⟨-, rfl⟩ := hstep
    exact Or.inl (goesOn_uploadMissingParts c i _).stored
  | completed i status =>
    simp only [UploadController.step, Option.ite_none_right_eq_some, Option.some.injEq] at hstep
    obtain ⟨-, rfl⟩ := hstep
    exact Or.inl rfl
  | rejected i =>
    simp only [UploadController.step, Option.ite_none_right_eq_some, Option.some.injEq] at hstep
    obtain ⟨-, rfl⟩ := hstep
    exact Or.inl (goesOn_caught c i).stored
  | uploadFailed u =>
    cases hu : c.uploads[u]? with
    | none => simp [UploadController.step, hu] at hstep
    | some upload =>
      simp only [UploadController.step, hu, Option.some.injEq] at hstep
      obtain rfl := hstep
      left
      rw [partFailed]
      split
      · split
        · exact (goesOn_caught _ _).stored
        · rfl
      · exact (goesOn_worker _ _).stored

/-- **What a controller reports has a property**: the parts it has stored, and the parts of
its completions, which are those of the file in order. -/
structure Reports (Q : CompletedUploadPart → Prop) (file : UploadFile) (c : UploadController) :
    Prop where
  recorded : Recorded file c
  stored : ∀ part ∈ c.stored, Q part
  completions : ∀ videoId parts, .completeVideoUpload videoId parts ∈ c.requests →
    parts.map CompletedUploadPart.partNumber =
      (List.range file.getPartCount).map (fun i : ℕ => (i : ℤ) + 1) ∧
    ∀ part ∈ parts, Q part

theorem Reports.initial (Q : CompletedUploadPart → Prop) (file : UploadFile) :
    Reports Q file (initial file) :=
  ⟨recorded_initial file, fun _ h => (List.not_mem_nil h).elim,
    fun _ _ h => (List.not_mem_nil h).elim⟩

theorem Reports.mono {Q' : CompletedUploadPart → Prop} (h : Reports Q file c)
    (hQ : ∀ part, Q part → Q' part) : Reports Q' file c := by
  refine ⟨h.recorded, fun part hpart => hQ part (h.stored part hpart), fun videoId parts hmem => ?_⟩
  obtain ⟨hnumbers, hparts⟩ := h.completions videoId parts hmem
  exact ⟨hnumbers, fun part hpart => hQ part (hparts part hpart)⟩

/-- **What holds of the parts that load holds of the parts that are reported.** -/
theorem Reports.step (h : Reports Q file c) (hg : c.Numbered event)
    (hloaded : ∀ u etag upload, event = .loaded u etag → c.uploads[u]? = some upload →
      Q ⟨upload.part.partNumber, etag⟩) (hstep : c.step event = some c') :
    Reports Q file c' := by
  obtain ⟨d, hd, hrequests, hgo, hparts⟩ := h.recorded.goesOn_of_step hg hstep
  have hstored : ∀ part ∈ c'.stored, Q part := by
    rcases stored_of_step hstep with he | ⟨u, etag, upload, hevent, hu, he⟩
    · rw [he]
      exact h.stored
    · rw [he]
      intro part hpart
      rcases List.mem_cons.mp hpart with rfl | hpart
      · exact hloaded u etag upload hevent hu
      · exact h.stored part hpart
  obtain ⟨new, hnew, hsent⟩ := hgo.requests
  refine ⟨hd.goesOn hgo hparts, hstored, fun videoId parts hmem => ?_⟩
  rw [hnew, hrequests] at hmem
  rcases List.mem_append.mp hmem with hold | hmem
  · exact h.completions videoId parts hold
  · obtain ⟨rfl, hlength⟩ := hsent videoId parts hmem
    rw [partCount, hd.file_eq] at hlength
    obtain ⟨hnumbers, hlatest⟩ := hd.sortedParts hlength
    refine ⟨hnumbers, fun part hpart => hstored part ?_⟩
    rw [hgo.stored]
    exact List.mem_of_find?_eq_some (hlatest part hpart)

end Steps

end UploadController

end RenditionPipeline
