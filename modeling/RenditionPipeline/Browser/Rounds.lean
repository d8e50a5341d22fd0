import RenditionPipeline.Browser.Controller
import RenditionPipeline.Library.Run

/-!
# A round of transfers

The workers of a round share an index into the queue, the map of the parts that are
completed and the set of those that have failed, and every transfer ends in its own
time. Whatever the order, a part is in one place only: still in the queue, in transfer,
or ended (`RenditionPipeline.UploadController.UnderWay`), and while parts are waiting
there are three in transfer. So each part is sent once, and what a round leaves behind is
decided by how the transfers have ended
(`RenditionPipeline.UploadController.RoundOver`): the set of failed parts is that of the
round, and a retry, whose parts are picked by that set before it is replaced, sends these
and no others (`RenditionPipeline.UploadController.round_attempts_each_part_once`).
-/

namespace RenditionPipeline

/-- Whether a request sends a part. -/
def BrowserRequest.isPut : BrowserRequest → Bool
  | .putPart _ _ => true
  | _ => false

namespace UploadController

/-! ### The end of a transfer -/

/-- A part whose transfer has ended, with the `ETag` it was answered with if it has
loaded. -/
structure EndedPart where
  part : MultipartUploadPart
  etag : Option String
deriving DecidableEq

/-- A transfer ends. -/
inductive Transfer (c : UploadController) : List EndedPart → UploadController → Prop
  | loaded {u : ℕ} {upload : PartUpload} {etag : String} {c' : UploadController}
      (hu : c.uploads[u]? = some upload) (h : c.step (.loaded u etag) = some c') :
      Transfer c [⟨upload.part, some etag⟩] c'
  | failed {u : ℕ} {upload : PartUpload} {c' : UploadController}
      (hu : c.uploads[u]? = some upload) (h : c.step (.uploadFailed u) = some c') :
      Transfer c [⟨upload.part, none⟩] c'

/-- What the ended transfers have recorded under a number, the last one first. -/
def loadedPart (log : List EndedPart) (k : ℤ) : Option CompletedUploadPart :=
  log.reverse.findSome? fun e =>
    if e.part.partNumber = k then e.etag.map fun etag => ⟨k, etag⟩ else none

/-- A transfer of the part number `k` has failed. -/
def HasFailed (log : List EndedPart) (k : ℤ) : Prop :=
  ∃ e ∈ log, e.etag = none ∧ e.part.partNumber = k

section Log

variable {log : List EndedPart} {e : EndedPart} {k : ℤ}

theorem loadedPart_append : loadedPart (log ++ [e]) k =
    (if e.part.partNumber = k then e.etag.map fun etag => ⟨k, etag⟩ else none).or
      (loadedPart log k) := by
  rw [loadedPart, List.reverse_append, List.reverse_singleton, List.singleton_append,
    List.findSome?_cons]
  cases (if e.part.partNumber = k then e.etag.map fun etag => CompletedUploadPart.mk k etag
    else none) <;> rfl

theorem hasFailed_append :
    HasFailed (log ++ [e]) k ↔ HasFailed log k ∨ e.etag = none ∧ e.part.partNumber = k := by
  simp [HasFailed, or_and_right, exists_or]

/-- A number that no transfer had is not recorded. -/
theorem loadedPart_eq_none (h : ∀ e ∈ log, e.part.partNumber ≠ k) : loadedPart log k = none := by
  rw [loadedPart, List.findSome?_eq_none_iff]
  intro e he
  rw [if_neg (h e (List.mem_reverse.mp he))]

/-- A part that has been transferred once is recorded as it was answered. -/
theorem loadedPart_of_mem (hnodup : (log.map fun e => e.part.partNumber).Nodup) (he : e ∈ log) :
    loadedPart log e.part.partNumber = e.etag.map fun etag => ⟨e.part.partNumber, etag⟩ := by
  induction log using List.reverseRecOn with
  | nil => cases he
  | append_singleton log last ih =>
    rw [List.map_append, List.nodup_append] at hnodup
    obtain ⟨hlog, -, hdisjoint⟩ := hnodup
    rw [loadedPart_append]
    rcases List.mem_append.mp he with he | he
    · have hne : last.part.partNumber ≠ e.part.partNumber := fun heq =>
        hdisjoint _ (List.mem_map.mpr ⟨e, he, rfl⟩) _ (List.mem_singleton.mpr rfl) heq.symm
      rw [if_neg hne, Option.none_or, ih hlog he]
    · obtain rfl := List.mem_singleton.mp he
      have hnone : loadedPart log e.part.partNumber = none :=
        loadedPart_eq_none fun e' he' heq => hdisjoint _ (List.mem_map.mpr ⟨e', he', rfl⟩) _
          (List.mem_singleton.mpr rfl) heq
      rw [if_pos rfl, hnone, Option.or_none]

end Log

/-! ### A round under way -/

/-- The queue of a round. -/
def byNumber (parts : List MultipartUploadPart) : List MultipartUploadPart :=
  parts.insertionSort fun p q => p.partNumber ≤ q.partNumber

theorem perm_byNumber (parts : List MultipartUploadPart) : (byNumber parts).Perm parts :=
  List.perm_insertionSort _ _

/-- The request that sends a part. -/
def putRequest (file : UploadFile) (part : MultipartUploadPart) : BrowserRequest :=
  .putPart part.uploadUrl (file.partBlob part.partNumber)

/-- The parts sent so far. -/
def puts (c : UploadController) : List BrowserRequest := c.requests.filter BrowserRequest.isPut

/-- **A round under way**: where `c` was the controller before it, the parts of `taken`
have been sent and are in transfer or ended, as the log tells, and those of `queue` are
still waiting. -/
structure UnderWay (c : UploadController) (i : ℕ) (parts : List MultipartUploadPart)
    (log : List EndedPart) (taken queue : List MultipartUploadPart) (s : UploadController) :
    Prop where
  sorted : byNumber parts = taken ++ queue
  perm : (log.map EndedPart.part ++ s.uploads.map PartUpload.part).Perm taken
  calls : s.calls = c.calls.set i ⟨.uploading, queue⟩
  call : ∀ upload ∈ s.uploads, upload.call = i
  requests : s.requests = c.requests ++ taken.map (putRequest c.file)
  file : s.file = c.file
  aborted : s.aborted = false
  videoId : s.videoId = c.videoId
  failed : ∀ k, k ∈ s.failedPartNumbers ↔ HasFailed log k
  completed : ∀ k, s.completedParts.get? k = (loadedPart log k).or (c.completedParts.get? k)

section UnderWay

variable {c s : UploadController} {i : ℕ} {parts : List MultipartUploadPart}
  {log : List EndedPart} {taken queue : List MultipartUploadPart}

/-- A round that is opened while nothing is in transfer. -/
theorem underWay_openRound (hidle : c.uploads = []) (haborted : c.aborted = false) :
    UnderWay c i parts [] [] (byNumber parts) (c.openRound i (byNumber parts)) where
  sorted := rfl
  perm := by simp [openRound, hidle]
  calls := rfl
  call := fun upload hu => by
    rw [openRound, hidle] at hu
    cases hu
  requests := by simp [openRound]
  file := rfl
  aborted := haborted
  videoId := rfl
  failed := fun k => by simp [openRound, HasFailed]
  completed := fun k => by simp [openRound, loadedPart]

theorem UnderWay.calls_getElem? (h : UnderWay c i parts log taken queue s)
    (hcall : i < c.calls.length) : s.calls[i]? = some ⟨.uploading, queue⟩ := by
  rw [h.calls, List.getElem?_set_self hcall]

/-- **A worker takes the next part.** -/
theorem UnderWay.worker_cons {part : MultipartUploadPart}
    (h : UnderWay c i parts log taken (part :: queue) s) (hcall : i < c.calls.length) :
    UnderWay c i parts log (taken ++ [part]) queue (s.worker i) ∧
      (s.worker i).uploads = s.uploads ++ [⟨i, part, s.signal⟩] := by
  have hworker : s.worker i =
      { s with calls := s.calls.set i ⟨.uploading, queue⟩ }.uploadSinglePart i part := by
    rw [worker, h.calls_getElem? hcall]
  rw [hworker]
  refine ⟨⟨?_, ?_, ?_, ?_, ?_, h.file, h.aborted, h.videoId, h.failed, h.completed⟩, rfl⟩
  · rw [h.sorted, List.append_assoc, List.singleton_append]
  · rw [uploadSinglePart, List.map_append, ← List.append_assoc]
    exact h.perm.append (List.Perm.refl [part])
  · show s.calls.set i _ = _
    rw [h.calls, List.set_set]
  · intro upload hu
    rcases List.mem_append.mp hu with hu | hu
    · exact h.call upload hu
    · rw [List.mem_singleton.mp hu]
  · show s.requests ++ [putRequest s.file part] = _
    rw [h.requests, h.file, List.map_append, List.append_assoc]
    rfl

/-- A worker that finds the queue empty returns, and the last one ends the round. -/
theorem UnderWay.worker_nil (h : UnderWay c i parts log taken [] s) (hcall : i < c.calls.length) :
    s.worker i = if s.uploads = [] then s.finishRound i else s := by
  rw [worker, h.calls_getElem? hcall]
  by_cases hidle : s.uploads = []
  · simp [hidle]
  · obtain ⟨upload, hu⟩ := List.exists_mem_of_ne_nil _ hidle
    rw [if_neg hidle]
    exact if_neg fun hall => hall.2 upload hu (h.call upload hu)

/-- **The transfer of a part ends**, and what it has come to is noted. -/
theorem UnderWay.ended (h : UnderWay c i parts log taken queue s) {u : ℕ} {upload : PartUpload}
    (hu : s.uploads[u]? = some upload) {etag : Option String} {t : UploadController}
    (huploads : t.uploads = s.uploads.eraseIdx u) (hcalls : t.calls = s.calls)
    (hrequests : t.requests = s.requests) (hfile : t.file = s.file)
    (haborted : t.aborted = s.aborted) (hvideo : t.videoId = s.videoId)
    (hfailed : ∀ k, k ∈ t.failedPartNumbers ↔
      k ∈ s.failedPartNumbers ∨ etag = none ∧ upload.part.partNumber = k)
    (hcompleted : ∀ k, t.completedParts.get? k =
      (if upload.part.partNumber = k then etag.map fun etag => ⟨k, etag⟩ else none).or
        (s.completedParts.get? k)) :
    UnderWay c i parts (log ++ [⟨upload.part, etag⟩]) taken queue t where
  sorted := h.sorted
  perm := by
    -- the part goes over from those in transfer to those that have ended
    obtain ⟨hlt, rfl⟩ := List.getElem?_eq_some_iff.mp hu
    have hmoved := (List.getElem_cons_eraseIdx_perm hlt).map PartUpload.part
    rw [huploads, List.map_append, List.append_assoc]
    exact (List.Perm.append_left _ hmoved).trans h.perm
  calls := hcalls.trans h.calls
  call := fun upload' hu' => h.call upload' (by
    rw [huploads] at hu'
    exact List.mem_of_mem_eraseIdx hu')
  requests := hrequests.trans h.requests
  file := hfile.trans h.file
  aborted := haborted.trans h.aborted
  videoId := hvideo.trans h.videoId
  failed := fun k => by rw [hfailed, h.failed, hasFailed_append]
  completed := fun k => by rw [hcompleted, h.completed, loadedPart_append, Option.or_assoc]

theorem UnderWay.partLoaded (h : UnderWay c i parts log taken queue s) {u : ℕ}
    {upload : PartUpload} (hu : s.uploads[u]? = some upload) (etag : String) :
    UnderWay c i parts (log ++ [⟨upload.part, some etag⟩]) taken queue
      ((s.endTransfer u).recordPart ⟨upload.part.partNumber, etag⟩) := by
  refine h.ended hu rfl rfl rfl rfl rfl rfl (fun k => ?_) fun k => ?_
  · simp [recordPart, endTransfer]
  · simp only [recordPart, endTransfer, Table.get?_put]
    by_cases hk : k = upload.part.partNumber
    · simp [hk]
    · simp [hk, Ne.symm hk]

theorem UnderWay.partFailed (h : UnderWay c i parts log taken queue s) {u : ℕ}
    {upload : PartUpload} (hu : s.uploads[u]? = some upload) :
    UnderWay c i parts (log ++ [⟨upload.part, none⟩]) taken queue
      ((s.endTransfer u).notePart upload.part.partNumber) := by
  refine h.ended hu rfl rfl rfl rfl rfl rfl (fun k => ?_) fun k => ?_
  · simp [notePart, endTransfer, List.mem_insert_iff, or_comm, eq_comm]
  · simp [notePart, endTransfer]

end UnderWay

/-! ### A round from its first transfer to its last -/

/-- **A round between two transfers**: it is under way, with as many parts in transfer as
there are workers while parts are waiting, or all its transfers have ended. -/
def Round (c : UploadController) (i : ℕ) (parts : List MultipartUploadPart)
    (log : List EndedPart) (s : UploadController) : Prop :=
  (∃ taken queue, UnderWay c i parts log taken queue s ∧ s.uploads ≠ [] ∧
      s.uploads.length ≤ maxConcurrentPartUploads ∧
      (queue ≠ [] → s.uploads.length = maxConcurrentPartUploads)) ∨
    ∃ d, UnderWay c i parts log (byNumber parts) [] d ∧ d.uploads = [] ∧ s = d.finishRound i

section Round

variable {c s s' : UploadController} {i : ℕ} {parts : List MultipartUploadPart}
  {log e : List EndedPart} {taken queue : List MultipartUploadPart}

/-- After a transfer has ended its worker goes on. -/
theorem UnderWay.round_worker (h : UnderWay c i parts log taken queue s)
    (hcall : i < c.calls.length) (hle : s.uploads.length + 1 ≤ maxConcurrentPartUploads)
    (hbusy : queue ≠ [] → s.uploads.length + 1 = maxConcurrentPartUploads) :
    Round c i parts log (s.worker i) := by
  cases queue with
  | nil =>
    rw [h.worker_nil hcall]
    by_cases hidle : s.uploads = []
    · rw [if_pos hidle]
      have hall : byNumber parts = taken := by rw [h.sorted, List.append_nil]
      exact Or.inr ⟨s, by rw [hall]; exact h, hidle, rfl⟩
    · rw [if_neg hidle]
      exact Or.inl ⟨taken, [], h, hidle, by omega, fun hne => absurd rfl hne⟩
  | cons part queue =>
    obtain ⟨hnext, huploads⟩ := h.worker_cons hcall
    have hlength : (s.worker i).uploads.length = s.uploads.length + 1 := by
      rw [huploads, List.length_append, List.length_singleton]
    refine Or.inl ⟨_, _, hnext, ?_, by rw [hlength]; exact hle, fun _ => ?_⟩
    · rw [huploads]
      exact List.append_ne_nil_of_right_ne_nil _ (List.cons_ne_nil _ _)
    · rw [hlength]
      exact hbusy (List.cons_ne_nil _ _)

/-- The first workers take the first parts. -/
theorem UnderWay.iterate_worker (hcall : i < c.calls.length) (n : ℕ) :
    ∀ {taken queue s}, UnderWay c i parts log taken queue s → n ≤ queue.length →
      UnderWay c i parts log (taken ++ queue.take n) (queue.drop n)
          ((fun c => worker c i)^[n] s) ∧
        ((fun c => worker c i)^[n] s).uploads.length = s.uploads.length + n := by
  induction n with
  | zero =>
    intro taken queue s h _
    simpa using h
  | succ n ih =>
    intro taken queue s h hn
    cases queue with
    | nil => cases hn
    | cons part queue =>
      obtain ⟨hnext, huploads⟩ := h.worker_cons hcall
      obtain ⟨hlater, hlength⟩ := ih hnext (Nat.le_of_succ_le_succ hn)
      rw [Function.iterate_succ_apply, List.take_succ_cons, List.drop_succ_cons]
      refine ⟨?_, ?_⟩
      · rw [List.append_assoc, List.singleton_append] at hlater
        exact hlater
      · rw [hlength, huploads, List.length_append, List.length_singleton]
        omega

/-- **A round begins.** -/
theorem round_uploadMissingParts (hcall : i < c.calls.length) (hidle : c.uploads = [])
    (haborted : c.aborted = false) : Round c i parts [] (c.uploadMissingParts i parts) := by
  have hopen : UnderWay c i parts [] [] (byNumber parts) (c.openRound i (byNumber parts)) :=
    underWay_openRound hidle haborted
  have huploads : (c.openRound i (byNumber parts)).uploads = [] := hidle
  have hdef : c.uploadMissingParts i parts =
      if byNumber parts = [] then (c.openRound i (byNumber parts)).finishRound i
      else (fun c => worker c i)^[min maxConcurrentPartUploads (byNumber parts).length]
        (c.openRound i (byNumber parts)) := rfl
  rw [hdef]
  by_cases hnil : byNumber parts = []
  · rw [if_pos hnil]
    refine Or.inr ⟨_, ?_, huploads, rfl⟩
    rw [hnil] at hopen ⊢
    exact hopen
  · rw [if_neg hnil]
    obtain ⟨hround, hlength⟩ :=
      hopen.iterate_worker hcall (min maxConcurrentPartUploads (byNumber parts).length)
        (min_le_right _ _)
    have hpos : 0 < (byNumber parts).length := List.length_pos_iff.mpr hnil
    rw [huploads, List.length_nil, Nat.zero_add] at hlength
    refine Or.inl ⟨_, _, hround, ?_, by rw [hlength]; exact min_le_left _ _, fun hwaiting => ?_⟩
    · refine List.ne_nil_of_length_pos ?_
      rw [hlength]
      exact lt_min (by decide) hpos
    · -- parts are left over, so there were more than workers
      have hlt := List.length_pos_iff.mpr hwaiting
      rw [List.length_drop] at hlt
      rw [hlength]
      omega

/-- What the end of a round leaves as it is. -/
theorem finishRound_eq (d : UploadController) (i : ℕ) : ∃ calls status new,
    d.finishRound i =
      { d with calls := calls, status := status, requests := d.requests ++ new } ∧
    calls.length = d.calls.length ∧ ∀ request ∈ new, request.isPut = false := by
  have hphase : ∀ phase, (d.setPhase i phase).calls.length = d.calls.length := fun phase =>
    List.length_modify _ _ _
  have hcaught : ∃ calls status new, d.caught i =
      { d with calls := calls, status := status, requests := d.requests ++ new } ∧
      calls.length = d.calls.length ∧ ∀ request ∈ new, request.isPut = false := by
    rw [caught]
    split
    · exact ⟨_, d.status, [], by rw [List.append_nil]; rfl, hphase .over, nofun⟩
    · exact ⟨_, .uploadFailed, [], by rw [List.append_nil]; rfl, hphase .over, nofun⟩
  rw [finishRound]
  split
  · exact hcaught
  · rw [completeUpload]
    split
    · exact ⟨_, d.status, [], by rw [List.append_nil]; rfl, hphase .over, nofun⟩
    · split
      · exact hcaught
      · rename_i videoId _ _
        refine ⟨_, d.status, [.completeVideoUpload videoId d.sortedParts], rfl,
          hphase .completing, fun request hrequest => ?_⟩
        rw [List.mem_singleton.mp hrequest]
        rfl

theorem uploads_finishRound (d : UploadController) (i : ℕ) :
    (d.finishRound i).uploads = d.uploads := by
  obtain ⟨calls, status, new, he, -⟩ := finishRound_eq d i
  rw [he]

/-- **The end of a transfer leads from one state of a round to the next.** -/
theorem Round.transfer (hcall : i < c.calls.length) (h : Round c i parts log s)
    (ht : Transfer s e s') : Round c i parts (log ++ e) s' := by
  rcases h with ⟨taken, queue, h, -, hle, hbusy⟩ | ⟨d, h, hidle, rfl⟩
  · have hlength : ∀ {u : ℕ} {upload : PartUpload}, s.uploads[u]? = some upload →
        (s.uploads.eraseIdx u).length + 1 = s.uploads.length := by
      intro u upload hu
      obtain ⟨hlt, -⟩ := List.getElem?_eq_some_iff.mp hu
      rw [List.length_eraseIdx_of_lt hlt]
      omega
    cases ht with
    | @loaded u upload etag _ hu hstep =>
      simp only [step, hu, Option.some.injEq] at hstep
      subst hstep
      rw [UploadController.partLoaded, h.call upload (List.mem_of_getElem? hu)]
      exact (h.partLoaded hu etag).round_worker hcall ((hlength hu).trans_le hle)
        fun hne => (hlength hu).trans (hbusy hne)
    | @failed u upload _ hu hstep =>
      simp only [step, hu, Option.some.injEq] at hstep
      subst hstep
      rw [UploadController.partFailed, if_neg (by rw [h.aborted]; exact Bool.false_ne_true),
        h.call upload (List.mem_of_getElem? hu)]
      exact (h.partFailed hu).round_worker hcall ((hlength hu).trans_le hle)
        fun hne => (hlength hu).trans (hbusy hne)
  · -- nothing is in transfer any more
    have hnone : ∀ {u : ℕ} {upload : PartUpload},
        (d.finishRound i).uploads[u]? = some upload → False := by
      intro u upload hu
      rw [uploads_finishRound, hidle] at hu
      cases hu
    cases ht with
    | loaded hu hstep => exact (hnone hu).elim
    | failed hu hstep => exact (hnone hu).elim

theorem round_of_chain (hcall : i < c.calls.length) (hidle : c.uploads = [])
    (haborted : c.aborted = false) (h : Chain Transfer (c.uploadMissingParts i parts) log s) :
    Round c i parts log s :=
  h.keep_log (I := fun s log => Round c i parts log s)
    (fun _ _ _ _ hr ht => hr.transfer hcall ht) (round_uploadMissingParts hcall hidle haborted)

end Round

/-! ### What a round leaves behind -/

/-- **What a round leaves behind**, as its transfers have ended. -/
structure RoundOver (c : UploadController) (i : ℕ) (parts : List MultipartUploadPart)
    (log : List EndedPart) (c' : UploadController) : Prop where
  /-- Every part has been in one transfer. -/
  once : (log.map EndedPart.part).Perm parts
  /-- Every part has been sent once. -/
  puts : c'.puts = c.puts ++ (byNumber parts).map (putRequest c.file)
  failed : ∀ k, k ∈ c'.failedPartNumbers ↔ HasFailed log k
  /-- The parts that have not failed are recorded as they were answered. -/
  loaded : ∀ part ∈ parts, ¬ HasFailed log part.partNumber → ∃ etag, ⟨part, some etag⟩ ∈ log ∧
    c'.completedParts.get? part.partNumber = some ⟨part.partNumber, etag⟩
  /-- Of the parts of other rounds nothing changes. -/
  kept : ∀ k ∉ parts.map MultipartUploadPart.partNumber,
    c'.completedParts.get? k = c.completedParts.get? k
  /-- The round rejects if a part has failed, and if not the call goes on to complete the
  upload. -/
  ends : ∃ d : UploadController, d.calls = c.calls.set i ⟨.uploading, []⟩ ∧
    ((∃ k, HasFailed log k) → c' = d.caught i) ∧
    ((¬ ∃ k, HasFailed log k) → c' = d.completeUpload i)

section Over

variable {c s : UploadController} {i : ℕ} {parts : List MultipartUploadPart}
  {log : List EndedPart} {taken queue : List MultipartUploadPart}

theorem UnderWay.puts (h : UnderWay c i parts log taken queue s) :
    s.puts = c.puts ++ taken.map (putRequest c.file) := by
  have hall : (taken.map (putRequest c.file)).filter BrowserRequest.isPut =
      taken.map (putRequest c.file) := by
    refine List.filter_eq_self.mpr fun request hrequest => ?_
    obtain ⟨part, -, rfl⟩ := List.mem_map.mp hrequest
    rfl
  rw [UploadController.puts, h.requests, List.filter_append, hall]
  rfl

/-- The end of a round sends no part. -/
theorem puts_finishRound (d : UploadController) (i : ℕ) : (d.finishRound i).puts = d.puts := by
  obtain ⟨calls, status, new, he, -, hnew⟩ := finishRound_eq d i
  have hnone : new.filter BrowserRequest.isPut = [] :=
    List.filter_eq_nil_iff.mpr fun request hrequest => by simp [hnew request hrequest]
  rw [he, puts, List.filter_append, hnone, List.append_nil]
  rfl

/-- **A round whose transfers have all ended is over.** -/
theorem UnderWay.over (hnodup : (parts.map MultipartUploadPart.partNumber).Nodup)
    (h : UnderWay c i parts log (byNumber parts) [] s) (hidle : s.uploads = []) :
    RoundOver c i parts log (s.finishRound i) := by
  obtain ⟨calls, status, new, he, -⟩ := finishRound_eq s i
  have hperm : (log.map EndedPart.part).Perm parts := by
    have hlog := h.perm
    rw [hidle, List.map_nil, List.append_nil] at hlog
    exact hlog.trans (perm_byNumber parts)
  have hnumbers : (log.map fun e => e.part.partNumber).Nodup := by
    have hmapped := (hperm.map MultipartUploadPart.partNumber).nodup_iff.mpr hnodup
    rwa [List.map_map] at hmapped
  have hcompleted : ∀ k, (s.finishRound i).completedParts.get? k =
      (loadedPart log k).or (c.completedParts.get? k) := by
    rw [he]
    exact h.completed
  have hfailed : ∀ k, k ∈ (s.finishRound i).failedPartNumbers ↔ HasFailed log k := by
    rw [he]
    exact h.failed
  have hany : s.failedPartNumbers ≠ [] ↔ ∃ k, HasFailed log k :=
    ⟨fun hne => (List.exists_mem_of_ne_nil _ hne).imp fun k hk => (h.failed k).mp hk,
      fun ⟨k, hk⟩ => List.ne_nil_of_mem ((h.failed k).mpr hk)⟩
  refine ⟨hperm, by rw [puts_finishRound, h.puts], hfailed, fun part hpart hok => ?_,
    fun k hk => ?_, s, h.calls, fun hex => ?_, fun hex => ?_⟩
  · obtain ⟨⟨p, etag⟩, hmem, rfl⟩ := List.mem_map.mp (hperm.mem_iff.mpr hpart)
    cases etag with
    | none => exact absurd ⟨_, hmem, rfl, rfl⟩ hok
    | some etag =>
      have hloaded := loadedPart_of_mem hnumbers hmem
      exact ⟨etag, hmem, by rw [hcompleted, hloaded]; rfl⟩
  · have hnone : loadedPart log k = none := loadedPart_eq_none fun e hmem heq =>
      hk (List.mem_map.mpr ⟨e.part, hperm.mem_iff.mp (List.mem_map.mpr ⟨e, hmem, rfl⟩), heq⟩)
    rw [hcompleted, hnone, Option.none_or]
  · rw [finishRound, if_pos (hany.mpr hex)]
  · rw [finishRound, if_neg fun hne => hex (hany.mp hne)]

/-- The state of a round that is over, for the round after it. -/
theorem Round.over (h : Round c i parts log s) (hidle : s.uploads = [])
    (hnodup : (parts.map MultipartUploadPart.partNumber).Nodup) :
    RoundOver c i parts log s ∧ s.videoId = c.videoId := by
  rcases h with ⟨taken, queue, -, hne, -⟩ | ⟨d, hd, hdone, rfl⟩
  · exact absurd hidle hne
  · obtain ⟨calls, status, new, he, -⟩ := finishRound_eq d i
    refine ⟨hd.over hnodup hdone, ?_⟩
    rw [he]
    exact hd.videoId

/-- A retry opens a call of its own, which asks for the addresses of the parts. -/
theorem retryFailedParts_of_failed {videoId : UUID} (hvideo : c.videoId = some videoId)
    (hfailed : c.failedPartNumbers ≠ []) :
    c.retryFailedParts =
      { c.send (.refreshVideoUpload videoId c.partCount) with
        signal := c.signal + 1
        aborted := false
        status := .uploading
        calls := c.calls ++ [⟨.refreshing, []⟩] } := by
  rw [retryFailedParts, hvideo]
  exact if_neg hfailed

/-- **The parts that a retry picks**, from a refresh that returns all parts, are those that
have failed. -/
theorem RoundOver.picked {c' : UploadController} (hover : RoundOver c i parts log c')
    {refreshed : List MultipartUploadPart}
    (hall : ∀ part ∈ parts, part.partNumber ∈ refreshed.map MultipartUploadPart.partNumber)
    (k : ℤ) :
    k ∈ (refreshed.filter fun part => c'.failedPartNumbers.contains part.partNumber).map
      MultipartUploadPart.partNumber ↔ HasFailed log k := by
  rw [← hover.failed k]
  constructor
  · intro hk
    obtain ⟨part, hpart, rfl⟩ := List.mem_map.mp hk
    simpa using (List.mem_filter.mp hpart).2
  · intro hk
    -- a failed part is one of the round, so the refresh has returned it
    obtain ⟨e, he, -, rfl⟩ := (hover.failed k).mp hk
    have hpart := hover.once.mem_iff.mp (List.mem_map.mpr ⟨e, he, rfl⟩)
    obtain ⟨part, hmem, hnumber⟩ := List.mem_map.mp (hall e.part hpart)
    refine List.mem_map.mpr ⟨part, List.mem_filter.mpr ⟨hmem, ?_⟩, hnumber⟩
    rw [hnumber]
    simpa using hk

/-- **A retry after a round** whose refresh returns all parts sends again, once each,
those that have failed. -/
theorem RoundOver.retry {c' : UploadController} (hover : RoundOver c i parts log c')
    (hdone : c'.uploads = []) {videoId : UUID} (hvideo : c'.videoId = some videoId)
    (hex : ∃ k, HasFailed log k) {refreshed : List MultipartUploadPart}
    (hrefreshed : (refreshed.map MultipartUploadPart.partNumber).Nodup)
    (hall : ∀ part ∈ parts, part.partNumber ∈ refreshed.map MultipartUploadPart.partNumber) :
    ∃ again c₂, (again.map MultipartUploadPart.partNumber).Nodup ∧
      (∀ k, k ∈ again.map MultipartUploadPart.partNumber ↔ HasFailed log k) ∧
      c'.retryFailedParts.step (.refreshed c'.calls.length refreshed) = some c₂ ∧
      ∀ log' c'', Chain Transfer c₂ log' c'' → c''.uploads = [] →
        RoundOver c'.retryFailedParts c'.calls.length again log' c'' := by
  obtain ⟨k₀, hk₀⟩ := hex
  have hretry := retryFailedParts_of_failed hvideo
    (List.ne_nil_of_mem ((hover.failed k₀).mpr hk₀))
  have hphase : (c'.retryFailedParts.calls[c'.calls.length]?).map UploadCall.phase =
      some .refreshing := by simp [hretry]
  have hidle : c'.retryFailedParts.uploads = [] := by
    rw [hretry]
    exact hdone
  have hcall : c'.calls.length < c'.retryFailedParts.calls.length := by simp [hretry]
  have hpicked : c'.retryFailedParts.failedPartNumbers = c'.failedPartNumbers := by
    rw [hretry]
    rfl
  obtain ⟨again, hagain⟩ : ∃ again, again =
      refreshed.filter fun part => c'.failedPartNumbers.contains part.partNumber := ⟨_, rfl⟩
  have hnodup : (again.map MultipartUploadPart.partNumber).Nodup := by
    rw [hagain]
    exact hrefreshed.sublist (List.filter_sublist.map _)
  refine ⟨again, c'.retryFailedParts.uploadMissingParts c'.calls.length again, hnodup,
    fun k => ?_, ?_, fun log' c'' h' hdone' => ?_⟩
  · rw [hagain]
    exact hover.picked hall k
  · rw [step, if_pos hphase, hpicked, hagain]
  · have hround := round_of_chain hcall hidle (by rw [hretry]) h'
    exact (hround.over hdone' hnodup).1

/-- **A round sends each of its parts once.** Whatever the order in which its transfers
load and fail, at most three parts are in transfer, and those that have been taken from
the queue are in transfer or ended, each once; and once nothing is in transfer, the round
is over, having rejected just if a part has failed, and a retry whose refresh returns all
parts sends again, once each, those that have failed. -/
theorem round_attempts_each_part_once (c : UploadController) (i : ℕ)
    (parts : List MultipartUploadPart) (hcall : i < c.calls.length) (hidle : c.uploads = [])
    (haborted : c.aborted = false) (hnodup : (parts.map MultipartUploadPart.partNumber).Nodup)
    (log : List EndedPart) (c' : UploadController)
    (h : Chain Transfer (c.uploadMissingParts i parts) log c') :
    c'.uploads.length ≤ maxConcurrentPartUploads ∧
    (∃ taken queue, byNumber parts = taken ++ queue ∧
      (log.map EndedPart.part ++ c'.uploads.map PartUpload.part).Perm taken ∧
      c'.puts = c.puts ++ taken.map (putRequest c.file)) ∧
    (c'.uploads = [] → RoundOver c i parts log c' ∧
      ∀ videoId, c.videoId = some videoId → (∃ k, HasFailed log k) →
      ∀ refreshed : List MultipartUploadPart,
        (refreshed.map MultipartUploadPart.partNumber).Nodup →
        (∀ part ∈ parts, part.partNumber ∈ refreshed.map MultipartUploadPart.partNumber) →
      ∃ again c₂, (again.map MultipartUploadPart.partNumber).Nodup ∧
        (∀ k, k ∈ again.map MultipartUploadPart.partNumber ↔ HasFailed log k) ∧
        c'.retryFailedParts.step (.refreshed c'.calls.length refreshed) = some c₂ ∧
        ∀ log' c'', Chain Transfer c₂ log' c'' → c''.uploads = [] →
          RoundOver c'.retryFailedParts c'.calls.length again log' c'') := by
  have hround := round_of_chain hcall hidle haborted h
  refine ⟨?_, ?_, fun hdone => ?_⟩
  · rcases hround with ⟨taken, queue, -, -, hle, -⟩ | ⟨d, -, hd, rfl⟩
    · exact hle
    · rw [uploads_finishRound, hd]
      exact Nat.zero_le _
  · rcases hround with ⟨taken, queue, hu, -⟩ | ⟨d, hu, -, rfl⟩
    · exact ⟨taken, queue, hu.sorted, hu.perm, hu.puts⟩
    · refine ⟨byNumber parts, [], hu.sorted, ?_, ?_⟩
      · rw [uploads_finishRound]
        exact hu.perm
      · rw [puts_finishRound]
        exact hu.puts
  · obtain ⟨hover, hvideo⟩ := hround.over hdone hnodup
    refine ⟨hover, fun videoId hv hex refreshed hrefreshed hall => ?_⟩
    exact hover.retry hdone (hvideo.trans hv) hex hrefreshed hall

end Over

/-- The controller of a file of two parts whose upload has been created. -/
def sampleCreated : UploadController :=
  { initial sampleFile with videoId := some ⟨0⟩, calls := [⟨.creating, []⟩] }

/-- The first part fails and the second one loads: the round rejects, and the retry sends
the first part only. -/
theorem round_attempts_each_part_once_retried : ∃ c' c₂,
    RoundOver sampleCreated 0 sampleParts [⟨⟨1, "/part/1"⟩, none⟩, ⟨⟨2, "/part/2"⟩, some "a"⟩] c' ∧
    c'.status = .uploadFailed ∧ c'.failedPartNumbers = [1] ∧
    c'.retryFailedParts.step (.refreshed 1 sampleParts) = some c₂ ∧
    c₂.uploads.map (fun upload => upload.part.partNumber) = [1] := by
  obtain ⟨c₁, hc₁⟩ : ∃ c₁,
      (sampleCreated.uploadMissingParts 0 sampleParts).step (.uploadFailed 0) = some c₁ := ⟨_, rfl⟩
  obtain ⟨c', hc'⟩ : ∃ c', c₁.step (.loaded 0 "a") = some c' := by
    obtain rfl := Option.some.inj hc₁
    exact ⟨_, rfl⟩
  have hfailed : Transfer (sampleCreated.uploadMissingParts 0 sampleParts)
      [⟨⟨1, "/part/1"⟩, none⟩] c₁ :=
    @Transfer.failed _ 0 ⟨0, ⟨1, "/part/1"⟩, 0⟩ _ rfl hc₁
  have hloaded : Transfer c₁ [⟨⟨2, "/part/2"⟩, some "a"⟩] c' := by
    obtain rfl := Option.some.inj hc₁
    exact @Transfer.loaded _ 0 ⟨0, ⟨2, "/part/2"⟩, 0⟩ _ _ rfl hc'
  have hchain := Chain.cons hfailed (Chain.cons hloaded (Chain.nil c'))
  obtain ⟨-, -, hover⟩ := round_attempts_each_part_once sampleCreated 0 sampleParts (by decide)
    rfl rfl (by decide) _ c' hchain
  obtain rfl := Option.some.inj hc₁
  obtain rfl := Option.some.inj hc'
  exact ⟨_, _, (hover rfl).1, rfl, rfl, rfl, rfl⟩

end UploadController

end RenditionPipeline
