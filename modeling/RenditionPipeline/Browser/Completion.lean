import Mathlib.Data.List.Perm.Subperm
import RenditionPipeline.Browser.Controller
import RenditionPipeline.Library.Run

/-!
# Completing an upload

The controller asks the API to complete an upload when the number of the parts it has
recorded is the number of the parts of the file; it does not look at which parts they
are. The API does: it refuses any list but the parts from the first to the last in
order.

That the count is enough is a matter of what is recorded. Every part in transfer or
waiting in a queue is one of the file's (`RenditionPipeline.UploadController.PartsOf`),
and what is recorded under a number is the last transfer of that part that loaded
(`RenditionPipeline.UploadController.Recorded`). So as many numbers as the file has
parts are all of them, and sorted they are those the API expects
(`RenditionPipeline.UploadController.completion_request_accepted`), in whichever order,
rounds and calls the transfers have come.
-/

namespace RenditionPipeline

/-- **Distinct numbers from 1 to `n`, as many as there are, are all of them.** -/
theorem eq_range_of_sorted {l : List ℤ} {n : ℕ} (hsorted : l.Pairwise (· ≤ ·)) (hnodup : l.Nodup)
    (hrange : ∀ x ∈ l, 1 ≤ x ∧ x ≤ n) (hlength : l.length = n) :
    l = (List.range n).map fun i : ℕ => (i : ℤ) + 1 := by
  have hsub : l ⊆ (List.range n).map fun i : ℕ => (i : ℤ) + 1 := by
    intro x hx
    obtain ⟨hone, hle⟩ := hrange x hx
    exact List.mem_map.mpr ⟨(x - 1).toNat, List.mem_range.mpr (by omega), by omega⟩
  have hperm : l.Perm ((List.range n).map fun i : ℕ => (i : ℤ) + 1) :=
    (List.subperm_of_subset hnodup hsub).perm_of_length_le (by simp [hlength])
  refine hperm.eq_of_pairwise' hsorted (List.pairwise_map.mpr ?_)
  exact List.pairwise_lt_range.imp fun h => by omega

namespace UploadController

/-! ### What a step of the controller sends -/

/-- **The controller goes on** without a transfer that ends: what it has recorded stays
as it is, and a completion that it sends is that of the recorded parts, as many as the
file has. -/
structure GoesOn (c c' : UploadController) : Prop where
  file : c'.file = c.file
  completedParts : c'.completedParts = c.completedParts
  stored : c'.stored = c.stored
  requests : ∃ new, c'.requests = c.requests ++ new ∧
    ∀ videoId parts, BrowserRequest.completeVideoUpload videoId parts ∈ new →
      parts = c.sortedParts ∧ parts.length = c.partCount

namespace GoesOn

variable {c c' c'' : UploadController}

theorem of_requests_eq (hfile : c'.file = c.file) (hparts : c'.completedParts = c.completedParts)
    (hstored : c'.stored = c.stored) (hrequests : c'.requests = c.requests) : GoesOn c c' :=
  ⟨hfile, hparts, hstored, [], by simp [hrequests], by simp⟩

theorem trans (h : GoesOn c c') (h' : GoesOn c' c'') : GoesOn c c'' := by
  obtain ⟨new, hnew, hsent⟩ := h.requests
  obtain ⟨new', hnew', hsent'⟩ := h'.requests
  refine ⟨h'.file.trans h.file, h'.completedParts.trans h.completedParts,
    h'.stored.trans h.stored, new ++ new', by rw [hnew', hnew, List.append_assoc], ?_⟩
  intro videoId parts hmem
  rcases List.mem_append.mp hmem with hmem | hmem
  · exact hsent videoId parts hmem
  · have hlater := hsent' videoId parts hmem
    rw [sortedParts, partCount, h.completedParts, h.file] at hlater
    exact hlater

/-- A request that is no completion is sent. -/
theorem of_send {request : BrowserRequest} (hfile : c'.file = c.file)
    (hparts : c'.completedParts = c.completedParts) (hstored : c'.stored = c.stored)
    (hrequests : c'.requests = c.requests ++ [request])
    (hrequest : ∀ videoId parts, request ≠ .completeVideoUpload videoId parts) : GoesOn c c' :=
  ⟨hfile, hparts, hstored, [request], hrequests, fun videoId parts hmem =>
    absurd (List.mem_singleton.mp hmem).symm (hrequest videoId parts)⟩

end GoesOn

section GoesOn

variable {c : UploadController}

theorem goesOn_setPhase (c : UploadController) (i : ℕ) (phase : CallPhase) :
    GoesOn c (c.setPhase i phase) := .of_requests_eq rfl rfl rfl rfl

theorem goesOn_caught (c : UploadController) (i : ℕ) : GoesOn c (c.caught i) := by
  rw [caught]
  split <;> exact .of_requests_eq rfl rfl rfl rfl

/-- **The one place a completion is sent.** -/
theorem goesOn_completeUpload (c : UploadController) (i : ℕ) : GoesOn c (c.completeUpload i) := by
  rw [completeUpload]
  split
  · exact goesOn_setPhase c i .over
  · rename_i videoId hvideo
    split
    · exact goesOn_caught c i
    · rename_i hlength
      refine ⟨rfl, rfl, rfl, [.completeVideoUpload videoId c.sortedParts], rfl, ?_⟩
      intro v parts hmem
      obtain ⟨-, rfl⟩ : v = videoId ∧ parts = c.sortedParts := by simpa using hmem
      exact ⟨rfl, not_not.mp hlength⟩

theorem goesOn_finishRound (c : UploadController) (i : ℕ) : GoesOn c (c.finishRound i) := by
  rw [finishRound]
  split
  · exact goesOn_caught c i
  · exact goesOn_completeUpload c i

theorem goesOn_worker (c : UploadController) (i : ℕ) : GoesOn c (c.worker i) := by
  rw [worker]
  split
  · exact .of_requests_eq rfl rfl rfl rfl
  · split
    · exact .of_send rfl rfl rfl rfl (by simp)
    · split
      · exact goesOn_finishRound c i
      · exact .of_requests_eq rfl rfl rfl rfl

theorem goesOn_iterate_worker (c : UploadController) (i n : ℕ) :
    GoesOn c ((fun c => worker c i)^[n] c) := by
  induction n generalizing c with
  | zero => exact .of_requests_eq rfl rfl rfl rfl
  | succ n ih =>
    rw [Function.iterate_succ_apply]
    exact (goesOn_worker c i).trans (ih _)

theorem goesOn_openRound (c : UploadController) (i : ℕ) (queue : List MultipartUploadPart) :
    GoesOn c (c.openRound i queue) := .of_requests_eq rfl rfl rfl rfl

theorem goesOn_uploadMissingParts (c : UploadController) (i : ℕ)
    (parts : List MultipartUploadPart) : GoesOn c (c.uploadMissingParts i parts) := by
  unfold uploadMissingParts
  dsimp only
  split
  · exact (goesOn_openRound c i _).trans (goesOn_finishRound _ i)
  · exact (goesOn_openRound c i _).trans (goesOn_iterate_worker _ i _)

theorem goesOn_notePart (c : UploadController) (partNumber : ℤ) :
    GoesOn c (c.notePart partNumber) := .of_requests_eq rfl rfl rfl rfl

theorem goesOn_start (c : UploadController) : GoesOn c c.start :=
  .of_send rfl rfl rfl rfl (by simp)

theorem goesOn_retryFailedParts (c : UploadController) : GoesOn c c.retryFailedParts := by
  rw [retryFailedParts]
  split
  · exact .of_requests_eq rfl rfl rfl rfl
  · split
    · exact .of_requests_eq rfl rfl rfl rfl
    · exact .of_send rfl rfl rfl rfl (by simp)

theorem goesOn_cancel (c : UploadController) : GoesOn c c.cancel := by
  rw [cancel]
  split
  · exact .of_requests_eq rfl rfl rfl rfl
  · exact .of_send rfl rfl rfl rfl (by simp)

end GoesOn

/-! ### The parts under way -/

/-- The number of a part of a file with `n` of them. -/
def IsPartNumber (n : ℕ) (partNumber : ℤ) : Prop := 1 ≤ partNumber ∧ partNumber ≤ n

/-- Every part in transfer or waiting in a queue is one of `n`. -/
structure PartsOf (n : ℕ) (c : UploadController) : Prop where
  queue : ∀ call ∈ c.calls, ∀ part ∈ call.queue, IsPartNumber n part.partNumber
  uploads : ∀ upload ∈ c.uploads, IsPartNumber n upload.part.partNumber

section PartsOf

variable {n : ℕ} {c c' : UploadController}

/-- Calls with the queues they had, and no new transfers. -/
theorem PartsOf.mono (h : PartsOf n c)
    (hcalls : ∀ call ∈ c'.calls, ∃ old ∈ c.calls, call.queue = old.queue)
    (huploads : ∀ upload ∈ c'.uploads, upload ∈ c.uploads) : PartsOf n c' := by
  refine ⟨fun call hcall part hpart => ?_, fun upload hu => h.uploads upload (huploads upload hu)⟩
  obtain ⟨old, hold, hqueue⟩ := hcalls call hcall
  exact h.queue old hold part (by rwa [← hqueue])

theorem PartsOf.setPhase (h : PartsOf n c) (i : ℕ) (phase : CallPhase) :
    PartsOf n (c.setPhase i phase) := by
  refine h.mono (fun call hcall => ?_) fun _ hu => hu
  obtain ⟨j, hj⟩ := List.mem_iff_getElem?.mp hcall
  simp only [UploadController.setPhase, List.getElem?_modify, Option.map_eq_map,
    Option.map_eq_some_iff] at hj
  obtain ⟨old, hold, rfl⟩ := hj
  exact ⟨old, List.mem_of_getElem? hold, by split <;> rfl⟩

theorem PartsOf.caught (h : PartsOf n c) (i : ℕ) : PartsOf n (c.caught i) := by
  have hover := h.setPhase i .over
  rw [UploadController.caught]
  split
  · exact hover
  · exact ⟨hover.queue, hover.uploads⟩

theorem PartsOf.finishRound (h : PartsOf n c) (i : ℕ) : PartsOf n (c.finishRound i) := by
  unfold UploadController.finishRound completeUpload
  split
  · exact h.caught i
  · split
    · exact h.setPhase i .over
    · split
      · exact h.caught i
      · have hphase := h.setPhase i .completing
        exact ⟨hphase.queue, hphase.uploads⟩

theorem PartsOf.worker (h : PartsOf n c) (i : ℕ) : PartsOf n (c.worker i) := by
  rw [UploadController.worker]
  split
  · exact h
  rename_i call hcall
  have hmem : call ∈ c.calls := List.mem_of_getElem? hcall
  split
  · rename_i part queue hqueue
    -- the part leaves the queue and is in transfer
    refine ⟨fun d hd => ?_, fun upload hu => ?_⟩
    · rcases List.mem_or_eq_of_mem_set hd with hd | rfl
      · exact h.queue d hd
      · exact fun p hp => h.queue call hmem p (by rw [hqueue]; exact List.mem_cons_of_mem _ hp)
    · rcases List.mem_append.mp hu with hu | hu
      · exact h.uploads upload hu
      · obtain rfl := List.mem_singleton.mp hu
        exact h.queue call hmem part (by rw [hqueue]; exact List.mem_cons_self)
  · split
    · exact h.finishRound i
    · exact h

theorem PartsOf.iterate_worker (h : PartsOf n c) (i k : ℕ) :
    PartsOf n ((fun c => UploadController.worker c i)^[k] c) := by
  induction k generalizing c with
  | zero => exact h
  | succ k ih =>
    rw [Function.iterate_succ_apply]
    exact ih (h.worker i)

theorem PartsOf.uploadMissingParts (h : PartsOf n c) (i : ℕ) {parts : List MultipartUploadPart}
    (hparts : ∀ part ∈ parts, IsPartNumber n part.partNumber) :
    PartsOf n (c.uploadMissingParts i parts) := by
  have hopen : PartsOf n (c.openRound i
      (parts.insertionSort fun p q => p.partNumber ≤ q.partNumber)) := by
    refine ⟨fun call hcall => ?_, h.uploads⟩
    rcases List.mem_or_eq_of_mem_set hcall with hcall | rfl
    · exact h.queue call hcall
    · exact fun part hpart => hparts part ((List.mem_insertionSort _).mp hpart)
  unfold UploadController.uploadMissingParts
  dsimp only
  split
  · exact hopen.finishRound i
  · exact hopen.iterate_worker i _

theorem PartsOf.cancel (h : PartsOf n c) : PartsOf n c.cancel := by
  have habort : PartsOf n c.abort := by
    refine h.mono (fun call hcall => ?_) fun upload hu => (List.mem_filter.mp hu).1
    obtain ⟨j, hj⟩ := List.mem_iff_getElem?.mp hcall
    rw [abort, List.getElem?_mapIdx] at hj
    obtain ⟨old, hold, rfl⟩ := Option.map_eq_some_iff.mp hj
    exact ⟨old, List.mem_of_getElem? hold, by split <;> rfl⟩
  rw [UploadController.cancel]
  split
  · exact habort
  · exact ⟨habort.queue, habort.uploads⟩

/-- A new call has no queue. -/
theorem PartsOf.newCall (h : PartsOf n c) {phase : CallPhase}
    (hcalls : c'.calls = c.calls ++ [⟨phase, []⟩]) (huploads : c'.uploads = c.uploads) :
    PartsOf n c' := by
  refine ⟨fun call hcall => ?_, fun upload hu => h.uploads upload (by rwa [← huploads])⟩
  rw [hcalls] at hcall
  rcases List.mem_append.mp hcall with hcall | hcall
  · exact h.queue call hcall
  · obtain rfl := List.mem_singleton.mp hcall
    exact fun part hpart => (List.not_mem_nil hpart).elim

end PartsOf

/-! ### What is recorded -/

/-- **The record of an upload**: the parts under way and the parts stored are the
file's, and what is kept under a number is the part of that number that was stored
last. -/
structure Recorded (file : UploadFile) (c : UploadController) : Prop where
  file_eq : c.file = file
  parts : PartsOf file.getPartCount c
  stored : ∀ part ∈ c.stored, IsPartNumber file.getPartCount part.partNumber
  latest : ∀ k, c.completedParts.get? k = c.stored.find? fun part => part.partNumber = k

section Recorded

variable {file : UploadFile} {c c' : UploadController}

theorem Recorded.goesOn (h : Recorded file c) (hgo : GoesOn c c')
    (hparts : PartsOf file.getPartCount c') : Recorded file c' := by
  refine ⟨hgo.file.trans h.file_eq, hparts, ?_, ?_⟩
  · rw [hgo.stored]
    exact h.stored
  · rw [hgo.completedParts, hgo.stored]
    exact h.latest

/-- A part that is stored replaces the one recorded under its number. -/
theorem Recorded.recordPart (h : Recorded file c) {part : CompletedUploadPart}
    (hpart : IsPartNumber file.getPartCount part.partNumber) :
    Recorded file (c.recordPart part) := by
  refine ⟨h.file_eq, ⟨h.parts.queue, h.parts.uploads⟩, fun p hp => ?_, fun k => ?_⟩
  · rcases List.mem_cons.mp hp with rfl | hp
    · exact hpart
    · exact h.stored p hp
  · change (c.completedParts.put part.partNumber part).get? k = (part :: c.stored).find? _
    rw [Table.get?_put, List.find?_cons]
    by_cases hk : part.partNumber = k
    · simp [hk]
    · rw [if_neg fun he => hk he.symm, h.latest]
      simp [hk]

theorem Recorded.endTransfer (h : Recorded file c) (u : ℕ) : Recorded file (c.endTransfer u) :=
  ⟨h.file_eq, h.parts.mono (fun call hcall => ⟨call, hcall, rfl⟩) fun _ hu =>
    List.mem_of_mem_eraseIdx hu, h.stored, h.latest⟩

/-- **The parts sent for the completion are those of the file**, in order, each as it was
stored last. -/
theorem Recorded.sortedParts (h : Recorded file c)
    (hlength : c.sortedParts.length = file.getPartCount) :
    c.sortedParts.map CompletedUploadPart.partNumber =
        (List.range file.getPartCount).map (fun i : ℕ => (i : ℤ) + 1) ∧
      ∀ part ∈ c.sortedParts,
        (c.stored.find? fun p => p.partNumber = part.partNumber) = some part := by
  have hfind : ∀ row ∈ c.completedParts.rows,
      (c.stored.find? fun p => p.partNumber = row.1) = some row.2 := by
    intro row hrow
    rw [← h.latest]
    exact Table.get?_eq_some_iff.mpr hrow
  have hkey : ∀ row ∈ c.completedParts.rows, row.2.partNumber = row.1 := fun row hrow => by
    simpa using List.find?_some (hfind row hrow)
  -- the map is keyed by part number, so sorting the parts sorts the keys
  have hkeys : c.sortedParts.map CompletedUploadPart.partNumber =
      (c.completedParts.rows.map Prod.fst).insertionSort (· ≤ ·) := by
    rw [UploadController.sortedParts, List.map_insertionSort (s := (· ≤ ·)) _ _ _
      (fun _ _ _ _ => Iff.rfl), List.map_map]
    congr 1
    exact List.map_congr_left hkey
  refine ⟨?_, fun part hpart => ?_⟩
  · refine eq_range_of_sorted ?_ ?_ ?_ (by rw [List.length_map, hlength])
    · rw [hkeys]
      exact List.pairwise_insertionSort _ _
    · rw [hkeys]
      exact (List.perm_insertionSort _ _).nodup_iff.mpr c.completedParts.nodup_keys
    · intro k hk
      rw [hkeys, List.mem_insertionSort] at hk
      obtain ⟨row, hrow, rfl⟩ := List.mem_map.mp hk
      rw [← hkey row hrow]
      exact h.stored row.2 (List.mem_of_find?_eq_some (hfind row hrow))
  · rw [UploadController.sortedParts, List.mem_insertionSort] at hpart
    obtain ⟨row, hrow, rfl⟩ := List.mem_map.mp hpart
    rw [hkey row hrow]
    exact hfind row hrow

end Recorded

/-! ### Runs -/

/-- The API answers a creation and a refresh with the parts of the file. -/
def Numbered (c : UploadController) : UploadEvent → Prop
  | .created _ _ parts => parts.map MultipartUploadPart.partNumber =
      (List.range c.partCount).map fun i : ℕ => (i : ℤ) + 1
  | .refreshed _ parts => parts.map MultipartUploadPart.partNumber =
      (List.range c.partCount).map fun i : ℕ => (i : ℤ) + 1
  | _ => True

instance (c : UploadController) (event : UploadEvent) : Decidable (c.Numbered event) := by
  cases event <;> unfold Numbered <;> exact inferInstance

section Runs

variable {file : UploadFile} {c c' : UploadController} {event : UploadEvent}

theorem isPartNumber_of_numbered {n : ℕ} {parts : List MultipartUploadPart}
    (h : parts.map MultipartUploadPart.partNumber = (List.range n).map fun i : ℕ => (i : ℤ) + 1) :
    ∀ part ∈ parts, IsPartNumber n part.partNumber := by
  intro part hpart
  have hmem : part.partNumber ∈ parts.map MultipartUploadPart.partNumber :=
    List.mem_map.mpr ⟨part, hpart, rfl⟩
  rw [h] at hmem
  obtain ⟨i, hi, he⟩ := List.mem_map.mp hmem
  rw [IsPartNumber, ← he]
  have hlt := List.mem_range.mp hi
  omega

/-- **One step**: it records the part whose transfer has loaded, if that is the event, and
goes on from there. -/
theorem Recorded.goesOn_of_step (h : Recorded file c) (hg : c.Numbered event)
    (hstep : c.step event = some c') :
    ∃ d, Recorded file d ∧ d.requests = c.requests ∧ GoesOn d c' ∧
      PartsOf file.getPartCount c' := by
  have hcount : c.partCount = file.getPartCount := by rw [partCount, h.file_eq]
  cases event with
  | start =>
    obtain rfl := Option.some.inj hstep
    exact ⟨c, h, rfl, goesOn_start c, h.parts.newCall rfl rfl⟩
  | retryFailedParts =>
    obtain rfl := Option.some.inj hstep
    refine ⟨c, h, rfl, goesOn_retryFailedParts c, ?_⟩
    rw [retryFailedParts]
    split
    · exact h.parts
    · split
      · exact h.parts
      · exact h.parts.newCall rfl rfl
  | cancel =>
    obtain rfl := Option.some.inj hstep
    exact ⟨c, h, rfl, goesOn_cancel c, h.parts.cancel⟩
  | created i videoId parts =>
    simp only [step, Option.ite_none_right_eq_some, Option.some.injEq] at hstep
    obtain ⟨-, rfl⟩ := hstep
    have hvideo : Recorded file { c with videoId := some videoId } :=
      ⟨h.file_eq, ⟨h.parts.queue, h.parts.uploads⟩, h.stored, h.latest⟩
    refine ⟨_, hvideo, rfl, goesOn_uploadMissingParts _ i parts, ?_⟩
    exact hvideo.parts.uploadMissingParts i (isPartNumber_of_numbered (by rw [← hcount]; exact hg))
  | refreshed i parts =>
    simp only [step, Option.ite_none_right_eq_some, Option.some.injEq] at hstep
    obtain ⟨-, rfl⟩ := hstep
    refine ⟨c, h, rfl, goesOn_uploadMissingParts c i _, h.parts.uploadMissingParts i ?_⟩
    exact fun part hpart => isPartNumber_of_numbered (by rw [← hcount]; exact hg) part
      (List.mem_filter.mp hpart).1
  | completed i status =>
    simp only [step, Option.ite_none_right_eq_some, Option.some.injEq] at hstep
    obtain ⟨-, rfl⟩ := hstep
    have hover := h.parts.setPhase i .over
    exact ⟨c, h, rfl, .of_requests_eq rfl rfl rfl rfl, ⟨hover.queue, hover.uploads⟩⟩
  | rejected i =>
    simp only [step, Option.ite_none_right_eq_some, Option.some.injEq] at hstep
    obtain ⟨-, rfl⟩ := hstep
    exact ⟨c, h, rfl, goesOn_caught c i, h.parts.caught i⟩
  | loaded u etag =>
    cases hu : c.uploads[u]? with
    | none => simp [step, hu] at hstep
    | some upload =>
      simp only [step, hu, Option.some.injEq] at hstep
      obtain rfl := hstep
      -- the controller in between has recorded the part, and its worker goes on
      have hrecord := @Recorded.recordPart _ _ (h.endTransfer u) ⟨upload.part.partNumber, etag⟩
        (h.parts.uploads upload (List.mem_of_getElem? hu))
      exact ⟨_, hrecord, rfl, goesOn_worker _ _, hrecord.parts.worker _⟩
  | uploadFailed u =>
    cases hu : c.uploads[u]? with
    | none => simp [step, hu] at hstep
    | some upload =>
      simp only [step, hu, Option.some.injEq] at hstep
      obtain rfl := hstep
      have hend := h.endTransfer u
      refine ⟨_, hend, rfl, ?_⟩
      rw [partFailed]
      split
      · split
        · exact ⟨goesOn_caught _ _, hend.parts.caught _⟩
        · exact ⟨.of_requests_eq rfl rfl rfl rfl, hend.parts⟩
      · have hnote : PartsOf file.getPartCount
            ((c.endTransfer u).notePart upload.part.partNumber) :=
          ⟨hend.parts.queue, hend.parts.uploads⟩
        exact ⟨(goesOn_notePart _ _).trans (goesOn_worker _ _), hnote.worker _⟩

theorem recorded_initial (file : UploadFile) : Recorded file (initial file) :=
  ⟨rfl, ⟨fun _ h => (List.not_mem_nil h).elim, fun _ h => (List.not_mem_nil h).elim⟩,
    fun _ h => (List.not_mem_nil h).elim, fun _ => rfl⟩

/-- The record is kept in every run. -/
theorem recorded_of_reaches (h : Reaches step Numbered (· = initial file) c) : Recorded file c := by
  refine h.invariant ?_ fun s event s' hs hg hstep => ?_
  · rintro s rfl
    exact recorded_initial file
  · obtain ⟨d, hd, -, hgo, hparts⟩ := hs.goesOn_of_step hg hstep
    exact hd.goesOn hgo hparts

/-- What the API accepts as the parts of a session with `n` of them. -/
theorem validateCompletedUploadParts_eq_ok {session : UploadSession}
    {parts : List CompletedUploadPart} {n : ℕ} (hn : session.partCount = n) :
    validateCompletedUploadParts session parts = .ok () ↔
      parts.map CompletedUploadPart.partNumber = (List.range n).map fun i : ℕ => (i : ℤ) + 1 := by
  have hcast : (do let i ← List.range n; pure (i : ℤ)) = (List.range n).map fun i : ℕ => (i : ℤ) :=
    List.flatMap_pure_eq_map _ _
  rw [validateCompletedUploadParts, hn, Int.toNat_natCast, hcast, List.map_map,
    Function.comp_def]
  constructor
  · intro h
    by_contra hne
    rw [if_pos hne] at h
    cases h
  · exact fun h => if_neg fun hne => hne h

/-- **Every completion that the browser asks for is one that the API accepts.** In every
run in which the API answers creations and refreshes with the parts of the file, the
parts of a completion request are those from the first to the last in order, each with
the tag of the last transfer of it that loaded, and they pass the check of the session
with this part count. -/
theorem completion_request_accepted (file : UploadFile) (c c' : UploadController)
    (event : UploadEvent) (h : Reaches step Numbered (· = initial file) c)
    (hg : c.Numbered event) (hstep : c.step event = some c') :
    ∃ new, c'.requests = c.requests ++ new ∧
      ∀ videoId parts, .completeVideoUpload videoId parts ∈ new →
        parts.map CompletedUploadPart.partNumber =
          (List.range file.getPartCount).map (fun i : ℕ => (i : ℤ) + 1) ∧
        (∀ part ∈ parts, (c'.stored.find? fun p => p.partNumber = part.partNumber) = some part) ∧
        ∀ session : UploadSession, session.partCount = file.getPartCount →
          validateCompletedUploadParts session parts = .ok () := by
  obtain ⟨d, hd, hrequests, hgo, hparts⟩ := (recorded_of_reaches h).goesOn_of_step hg hstep
  obtain ⟨new, hnew, hsent⟩ := hgo.requests
  refine ⟨new, by rw [hnew, hrequests], fun videoId parts hmem => ?_⟩
  obtain ⟨rfl, hlength⟩ := hsent videoId parts hmem
  rw [partCount, hd.file_eq] at hlength
  obtain ⟨hnumbers, hlatest⟩ := hd.sortedParts hlength
  refine ⟨hnumbers, ?_, fun session hsession =>
    (validateCompletedUploadParts_eq_ok hsession).mpr hnumbers⟩
  rw [hgo.stored]
  exact hlatest

end Runs

/-- A part fails and is sent again: the completion has both parts in order, the second of
them from the first round. -/
theorem completion_request_accepted_retried : ∃ c c',
    Reaches step Numbered (· = initial sampleFile) c ∧ c.step (.loaded 0 "b") = some c' ∧
    c'.requests = c.requests ++ [.completeVideoUpload ⟨0⟩ [⟨1, "b"⟩, ⟨2, "a"⟩]] ∧
    ∀ session : UploadSession, session.partCount = 2 →
      validateCompletedUploadParts session [⟨1, "b"⟩, ⟨2, "a"⟩] = .ok () := by
  obtain ⟨c, hc⟩ : ∃ c, guardedRun step Numbered (initial sampleFile)
      [.start, .created 0 ⟨0⟩ sampleParts, .uploadFailed 0, .loaded 0 "a", .retryFailedParts,
        .refreshed 1 sampleParts] = some c := ⟨_, rfl⟩
  have hstart : Reaches step Numbered (· = initial sampleFile) (initial sampleFile) :=
    Reaches.start rfl
  have hreach := hstart.of_guardedRun hc
  obtain ⟨c', hstep⟩ : ∃ c', c.step (.loaded 0 "b") = some c' := by
    obtain rfl := Option.some.inj hc
    exact ⟨_, rfl⟩
  obtain ⟨new, hnew, hsent⟩ :=
    completion_request_accepted sampleFile c c' (.loaded 0 "b") hreach trivial hstep
  have hlast : c'.requests = c.requests ++ [.completeVideoUpload ⟨0⟩ [⟨1, "b"⟩, ⟨2, "a"⟩]] := by
    obtain rfl := Option.some.inj hc
    obtain rfl := Option.some.inj hstep
    rfl
  rw [hlast] at hnew
  obtain rfl := List.append_cancel_left hnew
  exact ⟨c, c', hreach, hstep, hlast, (hsent _ _ List.mem_cons_self).2.2⟩

end UploadController

end RenditionPipeline
