import RenditionPipeline.Services.Outbox

/-!
# The video service

Creating the work of an uploaded video – one rendition for each preset of the
ladder, and one job for each rendition – and reading a video's state. The ids
that `uuid4` draws while the work is created come from a stream
(`RenditionPipeline.IdStream`), in the order in which they are drawn; the
constraints of the schema refuse an id that is in use.
-/

namespace RenditionPipeline

/-- The ids that `uuid4` draws during one transaction, in order. -/
abbrev IdStream := ℕ → UUID

/-- Adding a rendition, under its primary key and
`uq_renditions_video_id_resolution`. -/
def Db.addRendition (db : Db) (id : UUID) (rendition : Rendition) : Except Raised Db :=
  if db.renditions.rows.any fun p =>
      p.2.videoId = rendition.videoId && p.2.resolution = rendition.resolution then
    .error .integrityError
  else
    match db.renditions.insert? id rendition with
    | none => .error .integrityError
    | some renditions => .ok { db with renditions := renditions }

/-- Adding a job, under its primary key and `uq_jobs_rendition_id`. -/
def Db.addJob (db : Db) (id : UUID) (job : Job) : Except Raised Db :=
  if db.jobs.rows.any fun p => p.2.renditionId = job.renditionId then .error .integrityError
  else
    match db.jobs.insert? id job with
    | none => .error .integrityError
    | some jobs => .ok { db with jobs := jobs }

/-- The rendition of a preset. -/
def newRendition (videoId : UUID) (preset : EncodingPreset) : Rendition where
  videoId := videoId
  resolution := preset.resolution
  bitrate := preset.videoBitrate
  status := .pending
  outputPath := none
  error := none
  completedAt := none

/-- The job of a rendition. -/
def newJob (videoId renditionId : UUID) (maxAttempts : ℕ) : Job where
  videoId := videoId
  renditionId := renditionId
  status := .pending
  error := none
  attemptCount := 0
  maxAttempts := maxAttempts
  workerId := none
  startedAt := none
  finishedAt := none
  heartbeatAt := none
  nextRunAt := none

/-- The loop of `_create_renditions_and_jobs`, which has drawn `drawn` ids so far. -/
def createForPresets (ids : IdStream) (videoId : UUID) (maxAttempts : ℕ) :
    List EncodingPreset → ℕ → Db → Except Raised (Db × List (UUID × Job))
  | [], _, db => .ok (db, [])
  | preset :: presets, drawn, db => do
    let db ← db.addRendition (ids drawn) (newRendition videoId preset)
    let job := newJob videoId (ids drawn) maxAttempts
    let db ← db.addJob (ids (drawn + 1)) job
    let (db, jobs) ← createForPresets ids videoId maxAttempts presets (drawn + 2) db
    return (db, (ids (drawn + 1), job) :: jobs)

/-- `_create_renditions_and_jobs` -/
def createRenditionsAndJobs (db : Db) (ids : IdStream) (videoId : UUID) (maxAttempts : ℕ) :
    Except Raised (Db × List (UUID × Job)) :=
  if db.renditionsOf videoId ≠ [] then .ok (db, [])
  else createForPresets ids videoId maxAttempts defaultHlsRenditions 0 db

/-- `VideoState` -/
structure VideoState where
  videoId : UUID
  status : ProcessingStatus
  renditions : List (String × ProcessingStatus)
deriving DecidableEq

/-- `get_video_state` -/
def getVideoState (db : Db) (videoId : UUID) : Option VideoState :=
  (db.videos.get? videoId).map fun video =>
    { videoId := videoId
      status := video.status
      renditions := (db.renditionsOf videoId).map fun p => (p.2.resolution, p.2.status) }

end RenditionPipeline
