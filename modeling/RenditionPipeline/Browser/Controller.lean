import Mathlib.Data.List.Sort
import RenditionPipeline.Services.Uploads

/-!
# The upload controller of the browser

The object that uploads one file from a browser: it creates the upload at the API,
sends the parts to the storage with three requests at a time, and asks the API to
complete the upload. It runs on one thread, so what it does between two answers of
the outside is one step (`RenditionPipeline.UploadController.step`): a call of one
of its three methods, the answer to an API request, or the end of a part's
transfer. Every answer may come at any time and in any order, and a method may be
called while earlier calls are still under way.

A call of `start` or of `retryFailedParts` is a
`RenditionPipeline.UploadCall`, which waits for an answer of the API or for the
workers of its round; a worker that waits is a
`RenditionPipeline.PartUpload`, a part in transfer. A part listens to the abort
signal that was the controller's own when its transfer began, and a signal that has
been aborted before is never heard.

Beside the variables of the controller the state keeps two records of the past: the
requests that have been sent, and the parts that have been stored.
-/

namespace RenditionPipeline

/-- `VideoStatus`, the status of a row of the dashboard. -/
inductive VideoStatus where
  | uploading
  | uploadFailed
  | pending
  | processing
  /-- `partial`, which is a keyword here. -/
  | partialStatus
  | done
  | failed
deriving DecidableEq

/-- `mapVideoStatus` -/
def mapVideoStatus : ProcessingStatus → VideoStatus
  | .running => .processing
  | .partialStatus => .partialStatus
  | .done => .done
  | .skipped => .done
  | .failed => .failed
  | _ => .pending

/-- `MAX_CONCURRENT_PART_UPLOADS` -/
def maxConcurrentPartUploads : ℕ := 3

/-- The file and the part size of an upload: the API allows no empty parts. -/
structure UploadFile where
  sizeBytes : ℕ
  partSizeBytes : ℕ
  partSizeBytes_pos : 0 < partSizeBytes
deriving DecidableEq

namespace UploadFile

/-- `getPartCount`: the quotient rounded up. -/
def getPartCount (file : UploadFile) : ℕ :=
  (file.sizeBytes + file.partSizeBytes - 1) / file.partSizeBytes

/-- `partBlob`: where the part begins in the file and where it ends. -/
def partBlob (file : UploadFile) (partNumber : ℤ) : ℤ × ℤ :=
  ((partNumber - 1) * file.partSizeBytes,
    min ((partNumber - 1) * file.partSizeBytes + file.partSizeBytes) file.sizeBytes)

end UploadFile

/-- A request that the controller sends. -/
inductive BrowserRequest where
  | createVideoUpload (sizeBytes partCount : ℕ)
  | refreshVideoUpload (videoId : UUID) (partCount : ℕ)
  | completeVideoUpload (videoId : UUID) (parts : List CompletedUploadPart)
  | abortVideoUpload (videoId : UUID)
  /-- The `PUT` of a part to the storage. -/
  | putPart (uploadUrl : String) (blob : ℤ × ℤ)
deriving DecidableEq

/-- What a call of `start` or `retryFailedParts` waits for. -/
inductive CallPhase where
  | creating
  | refreshing
  | uploading
  | completing
  /-- It has returned or thrown. -/
  | over
deriving DecidableEq

/-- A call of `start` or `retryFailedParts`, with the parts of its round that no
worker has taken yet. -/
structure UploadCall where
  phase : CallPhase
  queue : List MultipartUploadPart
deriving DecidableEq

/-- A part in transfer: the call whose worker waits for it, and the signal it
listens to. -/
structure PartUpload where
  call : ℕ
  part : MultipartUploadPart
  signal : ℕ
deriving DecidableEq

/-- The state of a controller. -/
structure UploadController where
  file : UploadFile
  /-- The number of the current `abortController`. -/
  signal : ℕ
  /-- Whether the current signal is aborted. -/
  aborted : Bool
  completedParts : Table ℤ CompletedUploadPart
  failedPartNumbers : List ℤ
  videoId : Option UUID
  status : VideoStatus
  calls : List UploadCall
  uploads : List PartUpload
  /-- The requests sent so far, in order. -/
  requests : List BrowserRequest
  /-- The parts stored so far, the last one first. -/
  stored : List CompletedUploadPart

/-- An event of the outside. -/
inductive UploadEvent where
  | start
  | retryFailedParts
  | cancel
  /-- `createVideoUpload` resolves. -/
  | created (call : ℕ) (videoId : UUID) (parts : List MultipartUploadPart)
  /-- `refreshVideoUpload` resolves. -/
  | refreshed (call : ℕ) (parts : List MultipartUploadPart)
  /-- `completeVideoUpload` resolves. -/
  | completed (call : ℕ) (status : ProcessingStatus)
  /-- An API request of the call rejects. -/
  | rejected (call : ℕ)
  /-- The transfer of a part loads, with an `ETag`. -/
  | loaded (upload : ℕ) (etag : String)
  /-- The transfer of a part fails: by its status, without an `ETag`, or aborted by
  the browser. -/
  | uploadFailed (upload : ℕ)
deriving DecidableEq

namespace UploadController

/-- A new controller. -/
def initial (file : UploadFile) : UploadController where
  file := file
  signal := 0
  aborted := false
  completedParts := Table.empty
  failedPartNumbers := []
  videoId := none
  status := .uploading
  calls := []
  uploads := []
  requests := []
  stored := []

/-- The number of parts of the file. -/
def partCount (c : UploadController) : ℕ := c.file.getPartCount

/-- Send a request. -/
def send (c : UploadController) (request : BrowserRequest) : UploadController :=
  { c with requests := c.requests ++ [request] }

/-- A call goes on to another phase. -/
def setPhase (c : UploadController) (i : ℕ) (phase : CallPhase) : UploadController :=
  { c with calls := c.calls.modify i fun call => { call with phase := phase } }

/-- The `catch` block of `start` and of `retryFailedParts`. -/
def caught (c : UploadController) (i : ℕ) : UploadController :=
  if c.aborted then c.setPhase i .over
  else { c.setPhase i .over with status := .uploadFailed }

/-- `uploadSinglePart` with `uploadPart`, up to the end of the transfer. -/
def uploadSinglePart (c : UploadController) (i : ℕ) (part : MultipartUploadPart) :
    UploadController :=
  { c.send (.putPart part.uploadUrl (c.file.partBlob part.partNumber)) with
    uploads := c.uploads ++ [⟨i, part, c.signal⟩] }

/-- The completed parts by their numbers. -/
def sortedParts (c : UploadController) : List CompletedUploadPart :=
  (c.completedParts.rows.map Prod.snd).insertionSort fun p q => p.partNumber ≤ q.partNumber

/-- `completeUpload`, up to the answer of the API. -/
def completeUpload (c : UploadController) (i : ℕ) : UploadController :=
  match c.videoId with
  | none => c.setPhase i .over
  | some videoId =>
    if c.sortedParts.length ≠ c.partCount then c.caught i
    else (c.setPhase i .completing).send (.completeVideoUpload videoId c.sortedParts)

/-- The end of `uploadMissingParts` in a round whose workers have all returned, and what
the call does next. -/
def finishRound (c : UploadController) (i : ℕ) : UploadController :=
  if c.failedPartNumbers ≠ [] then c.caught i else c.completeUpload i

/-- One turn of a `worker`: it takes the next part of its round or returns, and the
round is over when the last worker has returned and none has thrown. -/
def worker (c : UploadController) (i : ℕ) : UploadController :=
  match c.calls[i]? with
  | none => c
  | some call =>
    match call.queue with
    | part :: queue =>
      { c with calls := c.calls.set i { call with queue := queue } }.uploadSinglePart i part
    | [] =>
      if call.phase = .uploading ∧ ∀ upload ∈ c.uploads, upload.call ≠ i then c.finishRound i
      else c

/-- The first lines of `uploadMissingParts`. -/
def openRound (c : UploadController) (i : ℕ) (queue : List MultipartUploadPart) :
    UploadController :=
  { c with calls := c.calls.set i ⟨.uploading, queue⟩, failedPartNumbers := [] }

/-- `uploadMissingParts`, up to the end of the first transfer. -/
def uploadMissingParts (c : UploadController) (i : ℕ) (parts : List MultipartUploadPart) :
    UploadController :=
  let queue := parts.insertionSort fun p q => p.partNumber ≤ q.partNumber
  if queue = [] then (c.openRound i queue).finishRound i
  else (fun c => worker c i)^[min maxConcurrentPartUploads queue.length] (c.openRound i queue)

/-- `start`, up to the answer of the API. -/
def start (c : UploadController) : UploadController :=
  { c.send (.createVideoUpload c.file.sizeBytes c.partCount) with
    signal := c.signal + 1
    aborted := false
    calls := c.calls ++ [⟨.creating, []⟩] }

/-- `retryFailedParts`, up to the answer of the API. -/
def retryFailedParts (c : UploadController) : UploadController :=
  match c.videoId with
  | none => c
  | some videoId =>
    if c.failedPartNumbers = [] then c
    else
      { c.send (.refreshVideoUpload videoId c.partCount) with
        signal := c.signal + 1
        aborted := false
        status := .uploading
        calls := c.calls ++ [⟨.refreshing, []⟩] }

/-- Whether a part in transfer hears the abort of the current signal. -/
def hearsAbort (c : UploadController) (upload : PartUpload) : Bool :=
  !c.aborted && upload.signal = c.signal

/-- `abortController.abort()`: the parts that hear it are aborted, so that their workers
throw and their rounds reject. -/
def abort (c : UploadController) : UploadController :=
  { c with
    aborted := true
    uploads := c.uploads.filter fun upload => !c.hearsAbort upload
    calls := c.calls.mapIdx fun i call =>
      if call.phase = .uploading ∧ ∃ upload ∈ c.uploads, c.hearsAbort upload ∧ upload.call = i then
        { call with phase := .over }
      else call }

/-- `cancel` -/
def cancel (c : UploadController) : UploadController :=
  match c.videoId with
  | none => c.abort
  | some videoId => c.abort.send (.abortVideoUpload videoId)

/-- A transfer is over. -/
def endTransfer (c : UploadController) (u : ℕ) : UploadController :=
  { c with uploads := c.uploads.eraseIdx u }

/-- A part that has been stored is recorded. -/
def recordPart (c : UploadController) (part : CompletedUploadPart) : UploadController :=
  { c with
    completedParts := c.completedParts.put part.partNumber part
    stored := part :: c.stored }

/-- A part that has not been stored is noted. -/
def notePart (c : UploadController) (partNumber : ℤ) : UploadController :=
  { c with failedPartNumbers := c.failedPartNumbers.insert partNumber }

/-- The rest of a turn of `worker` after a part has been stored, and its next turn. -/
def partLoaded (c : UploadController) (u : ℕ) (upload : PartUpload) (etag : String) :
    UploadController :=
  ((c.endTransfer u).recordPart ⟨upload.part.partNumber, etag⟩).worker upload.call

/-- The rest of a turn of `worker` after a part has not been stored: it throws if the
upload has been aborted, and if not it notes the part and takes its next turn. -/
def partFailed (c : UploadController) (u : ℕ) (upload : PartUpload) : UploadController :=
  if c.aborted then
    if (c.calls[upload.call]?).map UploadCall.phase = some .uploading then
      (c.endTransfer u).caught upload.call
    else c.endTransfer u
  else ((c.endTransfer u).notePart upload.part.partNumber).worker upload.call

/-- **What the controller does on an event**, if it can happen: an answer needs a call
that waits for it, and the end of a transfer a part in transfer. -/
def step (c : UploadController) : UploadEvent → Option UploadController
  | .start => some c.start
  | .retryFailedParts => some c.retryFailedParts
  | .cancel => some c.cancel
  | .created i videoId parts =>
    if (c.calls[i]?).map UploadCall.phase = some .creating then
      some ({ c with videoId := some videoId }.uploadMissingParts i parts)
    else none
  | .refreshed i parts =>
    if (c.calls[i]?).map UploadCall.phase = some .refreshing then
      some (c.uploadMissingParts i
        (parts.filter fun part => c.failedPartNumbers.contains part.partNumber))
    else none
  | .completed i status =>
    if (c.calls[i]?).map UploadCall.phase = some .completing then
      some { c.setPhase i .over with status := mapVideoStatus status }
    else none
  | .rejected i =>
    if (c.calls[i]?).map UploadCall.phase ∈
        [some .creating, some .refreshing, some .completing] then
      some (c.caught i)
    else none
  | .loaded u etag =>
    match c.uploads[u]? with
    | none => none
    | some upload => some (c.partLoaded u upload etag)
  | .uploadFailed u =>
    match c.uploads[u]? with
    | none => none
    | some upload => some (c.partFailed u upload)

/-- A file of two parts. -/
def sampleFile : UploadFile := ⟨15, 10, by decide⟩

/-- The parts of that file, as the API numbers them. -/
def sampleParts : List MultipartUploadPart := [⟨1, "/part/1"⟩, ⟨2, "/part/2"⟩]

end UploadController

end RenditionPipeline
