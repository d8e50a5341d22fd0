import RenditionPipeline.Browser.Completion

/-!
# Cancelling an upload

A cancelled upload is meant to stop: no part is sent any more, and the API is not
asked to complete it. `cancel` aborts the current signal, and a part that listens to
it is aborted; its worker throws, so that the round rejects and nothing is taken from
its queue. What the abort does not reach is what does not listen: a call that waits
for the API, which goes on to its parts when the answer comes, and a part of an earlier
round, whose signal is no longer the current one.

Without any of them (`RenditionPipeline.UploadController.Stoppable`) the controller is
quiet after `cancel`, and stays so until a method opens a round again
(`RenditionPipeline.UploadController.cancel_stops_upload`).
-/

namespace RenditionPipeline

namespace UploadEvent

/-- The events that open a round. -/
def opensRound : UploadEvent → Bool
  | start => true
  | retryFailedParts => true
  | _ => false

end UploadEvent

namespace UploadController

/-- The requests that upload: a part, or the completion. -/
def isUpload : BrowserRequest → Bool
  | .putPart _ _ => true
  | .completeVideoUpload _ _ => true
  | _ => false

/-- The requests for parts and for completions sent so far. -/
def uploadRequests (c : UploadController) : List BrowserRequest := c.requests.filter isUpload

/-- A call waits for the answer that its parts are uploaded after. -/
def AwaitsParts (call : UploadCall) : Prop := call.phase = .creating ∨ call.phase = .refreshing

instance (call : UploadCall) : Decidable (AwaitsParts call) := by
  rw [AwaitsParts]
  exact inferInstance

/-- **`cancel` reaches everything that is under way**: no call waits for the answer to a
creation or to a refresh, and every part in transfer hears the abort. -/
def Stoppable (c : UploadController) : Prop :=
  (∀ call ∈ c.calls, ¬AwaitsParts call) ∧ ∀ upload ∈ c.uploads, c.hearsAbort upload = true

instance (c : UploadController) : Decidable c.Stoppable := by
  rw [Stoppable]
  exact inferInstance

/-- `cancel` is called only where it reaches everything. -/
def StopsOnCancel (c : UploadController) (event : UploadEvent) : Prop :=
  event = .cancel → c.Stoppable

instance (c : UploadController) (event : UploadEvent) : Decidable (c.StopsOnCancel event) := by
  rw [StopsOnCancel]
  exact inferInstance

/-- The controller has been aborted, and waits for nothing that uploads. -/
structure Quiet (c : UploadController) : Prop where
  aborted : c.aborted = true
  uploads : c.uploads = []
  calls : ∀ call ∈ c.calls, ¬AwaitsParts call

section Quiet

variable {c c' : UploadController}

/-- A call of a list has been there before, with its own phase or another. -/
theorem mem_modify_phase {calls : List UploadCall} {i : ℕ} {phase : CallPhase} {call : UploadCall}
    (h : call ∈ calls.modify i fun call => { call with phase := phase }) :
    call ∈ calls ∨ call.phase = phase := by
  obtain ⟨j, hj⟩ := List.mem_iff_getElem?.mp h
  rw [List.getElem?_modify] at hj
  cases hold : calls[j]? with
  | none => simp [hold] at hj
  | some old =>
    rw [hold, Option.map_eq_map, Option.map_some, Option.some.injEq] at hj
    split at hj
    · exact Or.inr (by rw [← hj])
    · exact Or.inl (List.mem_iff_getElem?.mpr ⟨j, by rw [hold, ← hj]⟩)

theorem Quiet.setPhase (h : c.Quiet) (i : ℕ) : (c.setPhase i .over).Quiet := by
  refine ⟨h.aborted, h.uploads, fun call hcall => ?_⟩
  rcases mem_modify_phase hcall with hcall | hphase
  · exact h.calls call hcall
  · rw [AwaitsParts, hphase]
    decide

/-- A call of a quiet controller waits for no parts. -/
theorem Quiet.phase_ne (h : c.Quiet) {i : ℕ} {phase : CallPhase}
    (hphase : (c.calls[i]?).map UploadCall.phase = some phase) :
    phase ≠ .creating ∧ phase ≠ .refreshing := by
  obtain ⟨call, hcall, rfl⟩ := Option.map_eq_some_iff.mp hphase
  exact not_or.mp (h.calls call (List.mem_of_getElem? hcall))

/-- Aborting once more does nothing. -/
theorem abort_of_aborted (h : c.aborted = true) : c.abort = c := by
  have hdeaf : ∀ upload, c.hearsAbort upload = false := fun upload => by simp [hearsAbort, h]
  have hcalls : c.calls.mapIdx (fun i call =>
      if call.phase = .uploading ∧ ∃ upload ∈ c.uploads, c.hearsAbort upload ∧ upload.call = i then
        { call with phase := CallPhase.over }
      else call) = c.calls := by
    refine List.ext_getElem? fun i => ?_
    rw [List.getElem?_mapIdx]
    simp [hdeaf]
  have huploads : c.uploads.filter (fun upload => !c.hearsAbort upload) = c.uploads :=
    List.filter_eq_self.mpr fun upload _ => by simp [hdeaf]
  rw [abort, hcalls, huploads]
  cases c
  cases h
  rfl

theorem uploadRequests_cancel (c : UploadController) :
    c.cancel.uploadRequests = c.uploadRequests := by
  rw [cancel]
  split
  · rfl
  · simp [uploadRequests, send, abort, isUpload]

theorem Quiet.cancel (h : c.Quiet) : c.cancel.Quiet := by
  rw [UploadController.cancel]
  rw [abort_of_aborted h.aborted]
  split
  · exact h
  · exact ⟨h.aborted, h.uploads, h.calls⟩

/-- **A quiet controller stays quiet** until a round is opened, and sends neither parts
nor completions. -/
theorem Quiet.step (h : c.Quiet) {event : UploadEvent} (hopen : event.opensRound = false)
    (hstep : c.step event = some c') : c'.Quiet ∧ c'.uploadRequests = c.uploadRequests := by
  cases event with
  | start => cases hopen
  | retryFailedParts => cases hopen
  | cancel =>
    obtain rfl := Option.some.inj hstep
    exact ⟨h.cancel, uploadRequests_cancel c⟩
  | created i videoId parts =>
    simp only [UploadController.step] at hstep
    split at hstep
    -- no call of a quiet controller waits for parts
    · rename_i hphase
      exact absurd rfl (h.phase_ne hphase).1
    · cases hstep
  | refreshed i parts =>
    simp only [UploadController.step] at hstep
    split at hstep
    · rename_i hphase
      exact absurd rfl (h.phase_ne hphase).2
    · cases hstep
  | completed i status =>
    simp only [UploadController.step] at hstep
    split at hstep
    · obtain rfl := Option.some.inj hstep
      have hover := h.setPhase i
      exact ⟨⟨hover.aborted, hover.uploads, hover.calls⟩, rfl⟩
    · cases hstep
  | rejected i =>
    simp only [UploadController.step] at hstep
    split at hstep
    · obtain rfl := Option.some.inj hstep
      rw [caught, if_pos h.aborted]
      exact ⟨h.setPhase i, rfl⟩
    · cases hstep
  | loaded u etag => simp [UploadController.step, h.uploads] at hstep
  | uploadFailed u => simp [UploadController.step, h.uploads] at hstep

/-- **A controller that `cancel` reaches is quiet after it.** -/
theorem Stoppable.quiet (h : c.Stoppable) : c.cancel.Quiet := by
  have habort : c.abort.Quiet := by
    refine ⟨rfl, ?_, fun call hcall => ?_⟩
    · rw [abort, List.filter_eq_nil_iff]
      intro upload hu
      simp [h.2 upload hu]
    · obtain ⟨i, hi⟩ := List.mem_iff_getElem?.mp hcall
      rw [abort, List.getElem?_mapIdx] at hi
      obtain ⟨old, hold, rfl⟩ := Option.map_eq_some_iff.mp hi
      split
      · rw [AwaitsParts]
        simp
      · exact h.1 old (List.mem_of_getElem? hold)
  rw [UploadController.cancel]
  split
  · exact habort
  · exact ⟨habort.aborted, habort.uploads, habort.calls⟩

end Quiet

/-! ### What `cancel` does not reach -/

theorem GoesOn.uploadRequests_extend {c c' : UploadController} (h : GoesOn c c') :
    c.uploadRequests <+: c'.uploadRequests := by
  obtain ⟨new, hnew, -⟩ := h.requests
  rw [uploadRequests, uploadRequests, hnew, List.filter_append]
  exact List.prefix_append _ _

/-- A call that has parts to send begins with the first of them. -/
theorem uploadMissingParts_sends {c : UploadController} {i : ℕ} {parts : List MultipartUploadPart}
    (hi : i < c.calls.length) (hparts : parts ≠ []) : ∃ uploadUrl blob,
      c.uploadRequests ++ [.putPart uploadUrl blob] <+:
        (c.uploadMissingParts i parts).uploadRequests := by
  obtain ⟨part, queue, hqueue⟩ := List.exists_cons_of_ne_nil
    (l := parts.insertionSort fun p q => p.partNumber ≤ q.partNumber) fun hnil =>
      hparts (List.perm_nil.mp (hnil ▸ (List.perm_insertionSort _ parts).symm))
  refine ⟨part.uploadUrl, c.file.partBlob part.partNumber, ?_⟩
  obtain ⟨k, hk⟩ : ∃ k, min maxConcurrentPartUploads (part :: queue).length = k + 1 :=
    ⟨min 2 queue.length, by simp [maxConcurrentPartUploads]; omega⟩
  unfold uploadMissingParts
  dsimp only
  rw [hqueue, if_neg (List.cons_ne_nil _ _), hk, Function.iterate_succ_apply]
  -- the first worker sends the first part, and the others only add to it
  have hfirst : ((c.openRound i (part :: queue)).worker i).uploadRequests =
      c.uploadRequests ++ [.putPart part.uploadUrl (c.file.partBlob part.partNumber)] := by
    have hcall : (c.openRound i (part :: queue)).calls[i]? =
        some ⟨.uploading, part :: queue⟩ := by
      simp [openRound, hi]
    simp only [UploadController.worker, hcall]
    simp [uploadRequests, uploadSinglePart, send, openRound, isUpload]
  rw [← hfirst]
  exact (goesOn_iterate_worker _ i k).uploadRequests_extend

/-- **Cancelled while the creation is under way, an upload sends its parts** when the
answer comes. -/
theorem created_after_cancel {c c' : UploadController} {i : ℕ} {videoId : UUID}
    {parts : List MultipartUploadPart} (hparts : parts ≠ [])
    (hstep : c.cancel.step (.created i videoId parts) = some c') : ∃ uploadUrl blob,
      c.uploadRequests ++ [.putPart uploadUrl blob] <+: c'.uploadRequests := by
  simp only [UploadController.step, Option.ite_none_right_eq_some, Option.some.injEq] at hstep
  obtain ⟨hphase, rfl⟩ := hstep
  have hi : i < c.cancel.calls.length := by
    obtain ⟨call, hcall, -⟩ := Option.map_eq_some_iff.mp hphase
    exact (List.getElem?_eq_some_iff.mp hcall).1
  rw [← uploadRequests_cancel c]
  exact uploadMissingParts_sends (c := { c.cancel with videoId := some videoId }) hi hparts

/-! ### Runs -/

/-- A quiet controller stays quiet through a run that opens no round. -/
theorem Quiet.run {c c' : UploadController} (h : c.Quiet) {events : List UploadEvent}
    (hopen : ∀ event ∈ events, event.opensRound = false)
    (hrun : guardedRun UploadController.step StopsOnCancel c events = some c') :
    c'.uploadRequests = c.uploadRequests := by
  induction events generalizing c with
  | nil =>
    obtain rfl : c = c' := by simpa [guardedRun] using hrun
    rfl
  | cons event events ih =>
    obtain ⟨-, t, hstep, hrest⟩ := guardedRun_cons_iff.mp hrun
    obtain ⟨ht, hsame⟩ := h.step (hopen event (by simp)) hstep
    rw [ih ht (fun e he => hopen e (by simp [he])) hrest, hsame]

/-- **Cancelling an upload stops it**, in every run where `cancel` is called only when it
reaches everything under way: once it has been called, and as long as no round is
opened again, no part is sent and no completion is asked for. -/
theorem cancel_stops_upload (file : UploadFile) (before after : List UploadEvent)
    (c' : UploadController)
    (hrun : guardedRun UploadController.step StopsOnCancel (initial file)
      (before ++ .cancel :: after) = some c')
    (hopen : ∀ event ∈ after, event.opensRound = false) :
    ∃ c, guardedRun UploadController.step StopsOnCancel (initial file) before = some c ∧
      c'.uploadRequests = c.uploadRequests := by
  obtain ⟨c, hbefore, hafter⟩ := guardedRun_append_iff.mp hrun
  obtain ⟨hstops, t, ht, hrest⟩ := guardedRun_cons_iff.mp hafter
  obtain rfl : c.cancel = t := Option.some.inj ht
  have hquiet : c.cancel.Quiet := (hstops rfl).quiet
  exact ⟨c, hbefore, (hquiet.run hopen hrest).trans (uploadRequests_cancel c)⟩

/-- Cancelled while a part is in transfer, the upload has sent two parts and sends no
other. -/
theorem cancel_stops_upload_uploading : ∃ c c',
    guardedRun UploadController.step StopsOnCancel (initial sampleFile)
      [.start, .created 0 ⟨0⟩ sampleParts, .loaded 0 "a"] = some c ∧
    guardedRun UploadController.step StopsOnCancel (initial sampleFile)
      ([.start, .created 0 ⟨0⟩ sampleParts, .loaded 0 "a"] ++ [.cancel]) = some c' ∧
    c'.uploadRequests = c.uploadRequests ∧ c'.uploadRequests.length = 2 := by
  obtain ⟨c', hrun⟩ : ∃ c', guardedRun UploadController.step StopsOnCancel (initial sampleFile)
      ([.start, .created 0 ⟨0⟩ sampleParts, .loaded 0 "a"] ++ [.cancel]) = some c' := ⟨_, rfl⟩
  obtain ⟨c, hbefore, hsame⟩ := cancel_stops_upload sampleFile _ [] c' hrun (by decide)
  refine ⟨c, c', hbefore, hrun, hsame, ?_⟩
  obtain rfl := Option.some.inj hrun
  rfl

/-- **Cancelled while the creation is under way, the upload goes on**: the answer of the
API starts its parts, and the last of them its completion. -/
theorem cancelled_upload_completes : ∃ c c',
    guardedRun UploadController.step Unguarded (initial sampleFile) [.start, .cancel] = some c ∧
    guardedRun UploadController.step Unguarded c
      [.created 0 ⟨0⟩ sampleParts, .loaded 0 "a", .loaded 0 "b"] = some c' ∧
    c.uploadRequests = [] ∧
    c'.uploadRequests =
      [.putPart "/part/1" (0, 10), .putPart "/part/2" (10, 15),
        .completeVideoUpload ⟨0⟩ [⟨1, "a"⟩, ⟨2, "b"⟩]] :=
  ⟨_, _, rfl, rfl, rfl, rfl⟩

end UploadController

end RenditionPipeline
