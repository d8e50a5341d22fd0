import RenditionPipeline.Models.Rows

/-!
# Writing a session back

A session changes its copies of rows, and its commit writes the columns whose
value differs from the one it has loaded. `RenditionPipeline.Db.flush` is that
write-back for the whole database: it is given what the session has loaded, what
it has made of it, and what is committed by the time it commits. The references
of a row are never assigned, so they are not among the columns that are written.

A table that the session has not touched stays as it is committed, so that the
write-back of a session that has changed one table is a write-back of that table
(`RenditionPipeline.Db.flush_outboxMessages`).
-/

namespace RenditionPipeline

open Table (flushColumn)

/-- The write-back of a row of `videos`. -/
def Video.flush (loaded new committed : Video) : Video where
  source := flushColumn loaded.source new.source committed.source
  sourceBucket := flushColumn loaded.sourceBucket new.sourceBucket committed.sourceBucket
  sourceFilename := flushColumn loaded.sourceFilename new.sourceFilename committed.sourceFilename
  sourceContentType :=
    flushColumn loaded.sourceContentType new.sourceContentType committed.sourceContentType
  sourceSizeBytes :=
    flushColumn loaded.sourceSizeBytes new.sourceSizeBytes committed.sourceSizeBytes
  sourceWidth := flushColumn loaded.sourceWidth new.sourceWidth committed.sourceWidth
  sourceHeight := flushColumn loaded.sourceHeight new.sourceHeight committed.sourceHeight
  sourceBitrate := flushColumn loaded.sourceBitrate new.sourceBitrate committed.sourceBitrate
  sourceDurationSeconds := flushColumn loaded.sourceDurationSeconds new.sourceDurationSeconds
    committed.sourceDurationSeconds
  playbackPath := flushColumn loaded.playbackPath new.playbackPath committed.playbackPath
  status := flushColumn loaded.status new.status committed.status
  createdAt := committed.createdAt
  uploadedAt := flushColumn loaded.uploadedAt new.uploadedAt committed.uploadedAt

/-- The write-back of a row of `renditions`. -/
def Rendition.flush (loaded new committed : Rendition) : Rendition where
  videoId := committed.videoId
  resolution := committed.resolution
  bitrate := committed.bitrate
  status := flushColumn loaded.status new.status committed.status
  outputPath := flushColumn loaded.outputPath new.outputPath committed.outputPath
  error := flushColumn loaded.error new.error committed.error
  completedAt := flushColumn loaded.completedAt new.completedAt committed.completedAt

/-- The write-back of a row of `jobs`. -/
def Job.flush (loaded new committed : Job) : Job where
  videoId := committed.videoId
  renditionId := committed.renditionId
  status := flushColumn loaded.status new.status committed.status
  error := flushColumn loaded.error new.error committed.error
  attemptCount := flushColumn loaded.attemptCount new.attemptCount committed.attemptCount
  maxAttempts := committed.maxAttempts
  workerId := flushColumn loaded.workerId new.workerId committed.workerId
  startedAt := flushColumn loaded.startedAt new.startedAt committed.startedAt
  finishedAt := flushColumn loaded.finishedAt new.finishedAt committed.finishedAt
  heartbeatAt := flushColumn loaded.heartbeatAt new.heartbeatAt committed.heartbeatAt
  nextRunAt := flushColumn loaded.nextRunAt new.nextRunAt committed.nextRunAt

/-- The write-back of a row of `outbox_messages`. -/
def OutboxMessage.flush (loaded new committed : OutboxMessage) : OutboxMessage where
  jobId := committed.jobId
  videoId := committed.videoId
  renditionId := committed.renditionId
  exchange := committed.exchange
  routingKey := committed.routingKey
  status := flushColumn loaded.status new.status committed.status
  attemptCount := flushColumn loaded.attemptCount new.attemptCount committed.attemptCount
  lastError := flushColumn loaded.lastError new.lastError committed.lastError
  createdAt := committed.createdAt
  publishedAt := flushColumn loaded.publishedAt new.publishedAt committed.publishedAt

/-- The write-back of a row of `upload_sessions`. -/
def UploadSession.flush (loaded new committed : UploadSession) : UploadSession where
  videoId := committed.videoId
  bucket := committed.bucket
  objectKey := committed.objectKey
  objectUploadId := committed.objectUploadId
  filename := committed.filename
  contentType := committed.contentType
  sizeBytes := committed.sizeBytes
  partCount := committed.partCount
  status := flushColumn loaded.status new.status committed.status
  error := flushColumn loaded.error new.error committed.error
  completedAt := flushColumn loaded.completedAt new.completedAt committed.completedAt
  abortedAt := flushColumn loaded.abortedAt new.abortedAt committed.abortedAt

namespace Db

/-- **The write-back of a session**: what it has loaded, what it has made of it,
and what is committed. -/
def flush (loaded new committed : Db) : Db where
  videos := Table.flush Video.flush loaded.videos new.videos committed.videos
  uploadSessions := Table.flush UploadSession.flush loaded.uploadSessions new.uploadSessions
    committed.uploadSessions
  renditions := Table.flush Rendition.flush loaded.renditions new.renditions committed.renditions
  jobs := Table.flush Job.flush loaded.jobs new.jobs committed.jobs
  outboxMessages := Table.flush OutboxMessage.flush loaded.outboxMessages new.outboxMessages
    committed.outboxMessages

end Db

/-! ### What is not changed is not written -/

@[simp] theorem Video.flush_same (a c : Video) : Video.flush a a c = c := by
  simp [Video.flush]

@[simp] theorem Rendition.flush_same (a c : Rendition) : Rendition.flush a a c = c := by
  simp [Rendition.flush]

@[simp] theorem Job.flush_same (a c : Job) : Job.flush a a c = c := by
  simp [Job.flush]

@[simp] theorem OutboxMessage.flush_same (a c : OutboxMessage) :
    OutboxMessage.flush a a c = c := by
  simp [OutboxMessage.flush]

@[simp] theorem UploadSession.flush_same (a c : UploadSession) :
    UploadSession.flush a a c = c := by
  simp [UploadSession.flush]

/-- A session that has changed nothing writes nothing. -/
@[simp] theorem Db.flush_same (loaded committed : Db) : Db.flush loaded loaded committed =
    committed := by
  simp only [Db.flush, Table.flush_unchanged Video.flush_same,
    Table.flush_unchanged Rendition.flush_same, Table.flush_unchanged Job.flush_same,
    Table.flush_unchanged OutboxMessage.flush_same, Table.flush_unchanged UploadSession.flush_same]

/-- **A session that has changed outbox rows alone writes outbox rows alone.** -/
theorem Db.flush_outboxMessages (loaded committed : Db) (messages : Table UUID OutboxMessage) :
    Db.flush loaded { loaded with outboxMessages := messages } committed =
      { committed with
        outboxMessages := Table.flush OutboxMessage.flush loaded.outboxMessages messages
          committed.outboxMessages } := by
  simp only [Db.flush, Table.flush_unchanged Video.flush_same,
    Table.flush_unchanged Rendition.flush_same, Table.flush_unchanged Job.flush_same,
    Table.flush_unchanged UploadSession.flush_same]

end RenditionPipeline
