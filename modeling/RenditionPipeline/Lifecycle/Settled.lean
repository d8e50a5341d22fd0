import RenditionPipeline.Services.Outbox

/-!
# What a job transaction does

Claiming, concluding and reaping are written row by row, with the same three
rows rewritten in every branch. This file reads each of them back once, and
nothing above has to unfold one of them again: a transaction on a job either
leaves the database as it is, or moves the heartbeat, or *settles* the job with
one of six outcomes (`RenditionPipeline.Outcome`). What settling means – which
outcome is open to which job, what becomes of the job, of its rendition, of the
video and of the outbox – is `RenditionPipeline.Settled`, and the theorems at the
end say for every function of the job service which outcomes it has.
-/

namespace RenditionPipeline

/-- How a transaction leaves a job. -/
inductive Outcome where
  /-- A claim that finds no attempt left. -/
  | exhausted (now : Timestamp)
  /-- A granted claim. -/
  | running (workerId : String) (now : Timestamp)
  | done (outputPath : Option String) (now : Timestamp)
  | skipped (reason : String) (now : Timestamp)
  /-- A failed attempt that is not the last. -/
  | retried (error : String) (now nextRunAt : Timestamp)
  /-- A failed attempt that is the last. -/
  | failed (error : String) (now : Timestamp)
deriving DecidableEq

namespace Outcome

/-- The job row under an outcome. -/
def job : Outcome → Job → Job
  | exhausted now => exhaustedJob now
  | running workerId now => runningJob workerId now
  | done _ now => doneJob none now
  | skipped reason now => doneJob (some reason) now
  | retried error now nextRunAt => retriedJob error now nextRunAt
  | failed error now => failedJob error now

/-- The rendition row under an outcome. -/
def rendition : Outcome → Rendition → Rendition
  | exhausted _, rendition => { rendition with status := .failed }
  | running _ _, rendition => { rendition with status := .running, error := none }
  | done outputPath now, rendition =>
    { rendition with
      status := .done
      completedAt := some now
      error := none
      outputPath := if outputPath.isSome then outputPath else rendition.outputPath }
  | skipped reason now, rendition =>
    { rendition with
      status := .skipped
      completedAt := some now
      error := some reason
      outputPath := none }
  | retried error _ _, rendition => { rendition with status := .pending, error := some error }
  | failed error _, rendition => { rendition with status := .failed, error := some error }

/-- The jobs an outcome is open to: a claim finds a pending job, everything else
a running one, and the attempts decide between going on and giving up. -/
def Enabled : Outcome → Job → Prop
  | exhausted _, job => job.status = .pending ∧ job.maxAttempts ≤ job.attemptCount
  | running _ _, job => job.status = .pending ∧ job.attemptCount < job.maxAttempts
  | done _ _, job => job.status = .running
  | skipped _ _, job => job.status = .running
  | retried _ _ _, job => job.status = .running ∧ job.attemptCount < job.maxAttempts
  | failed _ _, job => job.status = .running ∧ job.maxAttempts ≤ job.attemptCount

/-- The outbox under an outcome: a retry arms the job's message again, and
nothing else touches the outbox. -/
def Outbox {db : Db} (loaded : LoadedJob db) (db' : Db) : Outcome → Prop
  | retried _ now _ => ∃ newId db₁,
    queueJobForPublish db loaded.jobId loaded.job newId now = .ok db₁ ∧
      db'.outboxMessages = db₁.outboxMessages
  | _ => db'.outboxMessages = db.outboxMessages

/-! ### What no outcome changes -/

@[simp] theorem job_videoId (o : Outcome) (job : Job) : (o.job job).videoId = job.videoId := by
  cases o <;> rfl

@[simp] theorem job_renditionId (o : Outcome) (job : Job) :
    (o.job job).renditionId = job.renditionId := by
  cases o <;> rfl

@[simp] theorem job_maxAttempts (o : Outcome) (job : Job) :
    (o.job job).maxAttempts = job.maxAttempts := by
  cases o <;> rfl

@[simp] theorem rendition_videoId (o : Outcome) (r : Rendition) :
    (o.rendition r).videoId = r.videoId := by
  cases o <;> rfl

@[simp] theorem rendition_resolution (o : Outcome) (r : Rendition) :
    (o.rendition r).resolution = r.resolution := by
  cases o <;> rfl

@[simp] theorem rendition_bitrate (o : Outcome) (r : Rendition) :
    (o.rendition r).bitrate = r.bitrate := by
  cases o <;> rfl

/-- **Only active jobs are settled.** -/
theorem Enabled.isActive {o : Outcome} {job : Job} (h : o.Enabled job) :
    job.status.isActive = true := by
  cases o <;> simp_all [Enabled, ProcessingStatus.isActive]

end Outcome

/-! ### Settling -/

/-- **A transaction has settled a job.** It has rewritten the job and its
rendition by the outcome, the status of the video by its renditions, and the
playback path by the publication, where it has come to one. -/
structure Settled {db : Db} (loaded : LoadedJob db) (o : Outcome)
    (publication : Option Publication) (db' : Db) : Prop where
  /-- The outcome was open to the job. -/
  enabled : o.Enabled loaded.job
  jobs : db'.jobs = db.jobs.modify loaded.jobId o.job
  renditions : db'.renditions = db.renditions.modify loaded.job.renditionId o.rendition
  videos : ∃ f : Video → Video,
    db'.videos = db.videos.modify loaded.rendition.videoId f ∧
    ∀ v, (f v).status = deriveVideoStatus (statusesOf (db'.renditionsOf loaded.rendition.videoId)) ∧
      (f v).playbackPath = (publication.getD .notReady).playbackPath v.playbackPath
  uploadSessions : db'.uploadSessions = db.uploadSessions
  outbox : o.Outbox loaded db'
  /-- A publication is the one of the renditions as they are committed. -/
  published : ∀ p, publication = some p → ∃ uploadOk,
    publishMasterPlaylistIfReady loaded.rendition.videoId
      (db'.renditionsOf loaded.rendition.videoId) uploadOk = .ok p

namespace Settled

variable {db db' : Db} {loaded : LoadedJob db} {o : Outcome} {publication : Option Publication}
  (h : Settled loaded o publication db')
include h

theorem get?_job_self : db'.jobs.get? loaded.jobId = some (o.job loaded.job) := by
  rw [h.jobs, Table.get?_modify_self, loaded.get?_job, Option.map_some]

theorem get?_job_of_ne {jid : UUID} (hne : jid ≠ loaded.jobId) :
    db'.jobs.get? jid = db.jobs.get? jid := by
  rw [h.jobs, Table.get?_modify_of_ne hne]

/-- A job after settling is the settled one or one from before. -/
theorem get?_job {jid : UUID} {job : Job} (hj : db'.jobs.get? jid = some job) :
    (jid = loaded.jobId ∧ job = o.job loaded.job) ∨
      (jid ≠ loaded.jobId ∧ db.jobs.get? jid = some job) := by
  by_cases hid : jid = loaded.jobId
  · rw [hid, h.get?_job_self] at hj
    exact Or.inl ⟨hid, (Option.some.inj hj).symm⟩
  · exact Or.inr ⟨hid, by rw [← h.get?_job_of_ne hid]; exact hj⟩

theorem get?_rendition_self :
    db'.renditions.get? loaded.job.renditionId = some (o.rendition loaded.rendition) := by
  rw [h.renditions, Table.get?_modify_self, loaded.get?_rendition, Option.map_some]

theorem get?_rendition_of_ne {rid : UUID} (hne : rid ≠ loaded.job.renditionId) :
    db'.renditions.get? rid = db.renditions.get? rid := by
  rw [h.renditions, Table.get?_modify_of_ne hne]

theorem get?_video_of_ne {vid : UUID} (hne : vid ≠ loaded.rendition.videoId) :
    db'.videos.get? vid = db.videos.get? vid := by
  obtain ⟨f, hf, -⟩ := h.videos
  rw [hf, Table.get?_modify_of_ne hne]

/-- The video of a settled job has the status its renditions give, and the
playback path its publication gives. -/
theorem get?_video_self : ∃ video, db'.videos.get? loaded.rendition.videoId = some video ∧
    video.status = deriveVideoStatus (statusesOf (db'.renditionsOf loaded.rendition.videoId)) ∧
    video.playbackPath = (publication.getD .notReady).playbackPath loaded.video.playbackPath := by
  obtain ⟨f, hf, hfv⟩ := h.videos
  refine ⟨f loaded.video, ?_, hfv _⟩
  rw [hf, Table.get?_modify_self, loaded.get?_video, Option.map_some]

/-- Rewriting one rendition by an outcome keeps the list of its video in order. -/
theorem renditionsOf (videoId : UUID) :
    db'.renditionsOf videoId = (db.renditionsOf videoId).map fun p =>
      if p.1 = loaded.job.renditionId then (p.1, o.rendition p.2) else p :=
  Db.renditionsOf_modify h.renditions (by simp) (by simp) videoId

/-- The renditions of every other video stay. -/
theorem renditionsOf_of_ne {videoId : UUID} (hne : videoId ≠ loaded.rendition.videoId) :
    db'.renditionsOf videoId = db.renditionsOf videoId := by
  rw [h.renditionsOf]
  refine (List.map_congr_left fun p hp => ?_).trans (List.map_id _)
  obtain ⟨hget, hv⟩ := Db.mem_renditionsOf.mp (show (p.1, p.2) ∈ _ from hp)
  rw [if_neg, id]
  intro he
  rw [he, loaded.get?_rendition] at hget
  exact hne (by rw [← hv, ← Option.some.inj hget])

end Settled

/-- A job that is loaded is the one that was asked for. -/
theorem getJobForUpdate_jobId {db : Db} {jobId : UUID} {loaded : LoadedJob db}
    (h : getJobForUpdate db jobId = .ok loaded) : loaded.jobId = jobId := by
  rw [getJobForUpdate] at h
  split at h
  · cases h
  split at h
  · cases h
  split at h
  · cases h
  · rw [← Except.ok.inj h]

/-- A job whose rendition and video are there can be loaded. -/
theorem getJobForUpdate_eq_ok {db : Db} {jobId : UUID} {job : Job} {r : Rendition} {v : Video}
    (hj : db.jobs.get? jobId = some job) (hr : db.renditions.get? job.renditionId = some r)
    (hv : db.videos.get? r.videoId = some v) :
    getJobForUpdate db jobId = .ok ⟨jobId, job, r, v, hj, hr, hv⟩ := by
  rw [getJobForUpdate]
  split
  · rename_i h; rw [h] at hj; cases hj
  rename_i job' hj'
  obtain rfl : job' = job := Option.some.inj (hj'.symm.trans hj)
  split
  · rename_i h; rw [h] at hr; cases hr
  rename_i r' hr'
  obtain rfl : r' = r := Option.some.inj (hr'.symm.trans hr)
  split
  · rename_i h; rw [h] at hv; cases hv
  rename_i v' hv'
  obtain rfl : v' = v := Option.some.inj (hv'.symm.trans hv)
  rfl

namespace Db

variable (db : Db) (ref : JobRef) (fj : Job → Job) (fr : Rendition → Rendition)

@[simp] theorem settle_jobs : (db.settle ref fj fr).jobs = db.jobs.modify ref.jobId fj := rfl

@[simp] theorem settle_renditions :
    (db.settle ref fj fr).renditions = db.renditions.modify ref.renditionId fr := rfl

theorem settle_videos : (db.settle ref fj fr).videos = db.videos.modify ref.videoId fun v =>
    { v with
      status := deriveVideoStatus (statusesOf ((db.settle ref fj fr).renditionsOf ref.videoId)) } :=
  rfl

end Db

/-- **Settling without publishing.** The outbox may have been changed before, and
nothing else. -/
theorem settled_settle {db db₁ : Db} {loaded : LoadedJob db} {o : Outcome}
    (henabled : o.Enabled loaded.job) (hjobs : db₁.jobs = db.jobs)
    (hrenditions : db₁.renditions = db.renditions) (hvideos : db₁.videos = db.videos)
    (hsessions : db₁.uploadSessions = db.uploadSessions)
    (houtbox : o.Outbox loaded (db₁.settle loaded.ref o.job o.rendition)) :
    Settled loaded o none (db₁.settle loaded.ref o.job o.rendition) where
  enabled := henabled
  jobs := by rw [Db.settle_jobs, hjobs]; rfl
  renditions := by rw [Db.settle_renditions, hrenditions]; rfl
  videos := by
    refine ⟨fun v => { v with
      status := deriveVideoStatus (statusesOf
        ((db₁.settle loaded.ref o.job o.rendition).renditionsOf loaded.rendition.videoId)) },
      ?_, fun _ => ⟨rfl, rfl⟩⟩
    rw [Db.settle_videos, hvideos]
    rfl
  uploadSessions := hsessions
  outbox := houtbox
  published := fun _ h => by cases h

/-- What `publish_master_playlist_if_ready` leaves of the rows: it writes the
playback path of its video. -/
theorem publishVideo_eq_ok {db db' : Db} {videoId : UUID} {uploadOk : Bool}
    {publication : Publication} (h : publishVideo db videoId uploadOk = .ok (db', publication)) :
    publishMasterPlaylistIfReady videoId (db.renditionsOf videoId) uploadOk = .ok publication ∧
      db' = db.setVideo videoId fun v =>
        { v with playbackPath := publication.playbackPath v.playbackPath } := by
  rw [publishVideo] at h
  cases hp : publishMasterPlaylistIfReady videoId (db.renditionsOf videoId) uploadOk with
  | error e => rw [hp] at h; cases h
  | ok p =>
    rw [hp] at h
    simp only [bind, Except.bind, pure, Except.pure, Except.ok.injEq, Prod.mk.injEq] at h
    obtain ⟨rfl, rfl⟩ := h
    exact ⟨rfl, rfl⟩

/-- It raises where the publication does. -/
theorem isOk_publishVideo {db : Db} {videoId : UUID} {uploadOk : Bool} :
    (publishVideo db videoId uploadOk).isOk =
      (publishMasterPlaylistIfReady videoId (db.renditionsOf videoId) uploadOk).isOk := by
  rw [publishVideo]
  cases publishMasterPlaylistIfReady videoId (db.renditionsOf videoId) uploadOk <;> rfl

/-- The source metadata are written over a video in place. -/
theorem applySourceMetadata_eq (db : Db) (ref : JobRef) (metadata : Option VideoSourceMetadata) :
    ∃ g : Video → Video, applySourceMetadata db ref metadata = db.setVideo ref.videoId g ∧
      ∀ v, (g v).status = v.status ∧ (g v).playbackPath = v.playbackPath := by
  cases metadata with
  | none =>
    refine ⟨id, ?_, fun _ => ⟨rfl, rfl⟩⟩
    have hid : db.videos.modify ref.videoId id = db.videos :=
      Table.modify_eq_self fun _ _ => rfl
    rw [Db.setVideo, hid]
    rfl
  | some metadata => exact ⟨_, rfl, fun _ => ⟨rfl, rfl⟩⟩

/-- **Settling and publishing**, with the source metadata written in between. -/
theorem settled_publish {db db' : Db} {loaded : LoadedJob db} {o : Outcome}
    (metadata : Option VideoSourceMetadata) {uploadOk : Bool} {publication : Publication}
    (henabled : o.Enabled loaded.job)
    (houtbox : o.Outbox loaded (db.settle loaded.ref o.job o.rendition))
    (hpublish : publishVideo
      (applySourceMetadata (db.settle loaded.ref o.job o.rendition) loaded.ref metadata)
      loaded.ref.videoId uploadOk = .ok (db', publication)) :
    Settled loaded o (some publication) db' := by
  obtain ⟨g, hg, hgv⟩ :=
    applySourceMetadata_eq (db.settle loaded.ref o.job o.rendition) loaded.ref metadata
  rw [hg] at hpublish
  obtain ⟨hpub, rfl⟩ := publishVideo_eq_ok hpublish
  let derived : Video → Video := fun v => { v with
    status := deriveVideoStatus (statusesOf
      ((db.settle loaded.ref o.job o.rendition).renditionsOf loaded.rendition.videoId)) }
  let played : Video → Video := fun v =>
    { v with playbackPath := publication.playbackPath v.playbackPath }
  refine ⟨henabled, rfl, rfl, ⟨played ∘ g ∘ derived, ?_, fun v => ⟨?_, ?_⟩⟩, rfl, ?_, ?_⟩
  · rw [← Table.modify_modify, ← Table.modify_modify]
    rfl
  · exact (hgv (derived v)).1
  · exact congrArg (fun before => publication.playbackPath before) (hgv (derived v)).2
  · cases o <;> exact houtbox
  · rintro p ⟨⟩
    exact ⟨uploadOk, hpub⟩

/-! ### The functions of the job service, read back -/

section Transactions

variable {settings : Settings} {db db' : Db} {jobId videoId renditionId newId : UUID}
  {workerId error reason : String} {outputPath : Option String}
  {metadata : Option VideoSourceMetadata} {checkedAt now : Timestamp} {uploadOk : Bool}

/-- **What a claim does**: nothing to a job that is not claimable; otherwise it
fails a job without attempts left, and grants any other. -/
theorem claimEncodingJob_eq_ok {context : Option EncodingJobContext}
    (h : claimEncodingJob db jobId videoId renditionId workerId checkedAt now =
      .ok (db', context)) :
    ∃ loaded : LoadedJob db, loaded.jobId = jobId ∧
      ((isClaimable loaded.job checkedAt = false ∧ db' = db ∧ context = none) ∨
        (context = none ∧ Settled loaded (.exhausted now) none db') ∨
        (context = some (buildEncodingContext loaded workerId now) ∧
          Settled loaded (.running workerId now) none db')) := by
  rw [claimEncodingJob] at h
  cases hl : getJobForUpdate db jobId with
  | error e => rw [hl] at h; cases h
  | ok loaded =>
    refine ⟨loaded, getJobForUpdate_jobId hl, ?_⟩
    rw [hl] at h
    cases hm : validateJobMessage loaded.job videoId renditionId with
    | error e => simp [bind, Except.bind, hm] at h
    | ok u =>
      simp only [bind, Except.bind, hm, pure, Except.pure] at h
      by_cases hc : isClaimable loaded.job checkedAt = false
      · rw [if_pos hc, Except.ok.injEq, Prod.mk.injEq] at h
        exact Or.inl ⟨hc, h.1.symm, h.2.symm⟩
      rw [if_neg hc] at h
      have hpending : loaded.job.status = .pending := by
        by_contra hne
        exact hc (by rw [isClaimable, if_pos hne])
      -- a claimable job is run, or failed where no attempt is left
      by_cases he : hasExhaustedAttempts loaded.job = true
      · rw [if_pos he, Except.ok.injEq, Prod.mk.injEq] at h
        obtain ⟨rfl, rfl⟩ := h
        refine Or.inr (Or.inl ⟨rfl, ?_⟩)
        exact settled_settle (o := .exhausted now)
          ⟨hpending, by simpa [hasExhaustedAttempts] using he⟩ rfl rfl rfl rfl rfl
      · rw [if_neg he, Except.ok.injEq, Prod.mk.injEq] at h
        obtain ⟨rfl, rfl⟩ := h
        refine Or.inr (Or.inr ⟨rfl, ?_⟩)
        exact settled_settle (o := .running workerId now)
          ⟨hpending, by simpa [hasExhaustedAttempts] using he⟩ rfl rfl rfl rfl rfl

/-- **The check of the owner** that a heartbeat and all conclusions begin with: they load the
job, and go on if it runs for the worker. -/
theorem ifOwned_eq_ok {β : Type} {act : LoadedJob db → Except Raised β} {unowned result : β}
    (h : (getJobForUpdate db jobId >>= fun loaded =>
      if ownsRunningJob loaded.job workerId = true then act loaded else pure unowned) =
        .ok result) :
    ∃ loaded : LoadedJob db, loaded.jobId = jobId ∧
      ((ownsRunningJob loaded.job workerId = false ∧ result = unowned) ∨
        (ownsRunningJob loaded.job workerId = true ∧ act loaded = .ok result)) := by
  cases hl : getJobForUpdate db jobId with
  | error e => rw [hl] at h; cases h
  | ok loaded =>
    refine ⟨loaded, getJobForUpdate_jobId hl, ?_⟩
    rw [hl] at h
    simp only [bind, Except.bind, pure, Except.pure] at h
    by_cases ho : ownsRunningJob loaded.job workerId = true
    · rw [if_pos ho] at h
      exact Or.inr ⟨ho, h⟩
    · rw [if_neg ho, Except.ok.injEq] at h
      exact Or.inl ⟨by simpa using ho, h.symm⟩

/-- **What a heartbeat does**: it moves the heartbeat of a running job for its
worker, and nothing for anyone else. -/
theorem heartbeatEncodingJob_eq_ok {owned : Bool}
    (h : heartbeatEncodingJob db jobId workerId now = .ok (db', owned)) :
    ∃ loaded : LoadedJob db, loaded.jobId = jobId ∧
      owned = ownsRunningJob loaded.job workerId ∧
      db' = if owned then { db with
        jobs := db.jobs.modify jobId fun job => { job with heartbeatAt := some now } } else db := by
  rw [heartbeatEncodingJob] at h
  obtain ⟨loaded, hid, ⟨ho, h⟩ | ⟨ho, h⟩⟩ := ifOwned_eq_ok h
  · obtain ⟨rfl, rfl⟩ := Prod.mk.inj h
    exact ⟨loaded, hid, ho.symm, rfl⟩
  · obtain ⟨rfl, rfl⟩ := Prod.mk.inj (Except.ok.inj h)
    exact ⟨loaded, hid, ho.symm, rfl⟩

theorem status_of_ownsRunningJob {job : Job} (h : ownsRunningJob job workerId = true) :
    job.status = .running ∧ job.workerId = some workerId := by
  simpa [ownsRunningJob] using h

/-- What is published is what is committed, with the publication beside it. -/
theorem publishVideo_marked {α : Type} {result : α} {m : Marked α}
    (h : (publishVideo db videoId uploadOk >>= fun p =>
      pure (⟨p.1, result, p.2⟩ : Marked α)) = .ok m) :
    m.result = result ∧ publishVideo db videoId uploadOk = .ok (m.db, m.publication) := by
  cases hp : publishVideo db videoId uploadOk with
  | error e => rw [hp] at h; cases h
  | ok p =>
    rw [hp] at h
    obtain rfl := Except.ok.inj h
    exact ⟨rfl, rfl⟩

/-- A success settles its worker's job as done, writes the metadata and publishes. -/
theorem markEncodingJobSucceeded_cases {m : Marked Bool}
    (h : markEncodingJobSucceeded db jobId workerId outputPath metadata now uploadOk = .ok m) :
    ∃ loaded : LoadedJob db, loaded.jobId = jobId ∧
      ((ownsRunningJob loaded.job workerId = false ∧ m = Marked.unchanged db false) ∨
        (ownsRunningJob loaded.job workerId = true ∧ m.result = true ∧
          publishVideo (applySourceMetadata (db.settle loaded.ref (Outcome.done outputPath now).job
            (Outcome.done outputPath now).rendition) loaded.ref metadata)
              loaded.ref.videoId uploadOk = .ok (m.db, m.publication))) := by
  rw [markEncodingJobSucceeded] at h
  obtain ⟨loaded, hid, hunowned | ⟨ho, h⟩⟩ := ifOwned_eq_ok h
  · exact ⟨loaded, hid, Or.inl hunowned⟩
  · exact ⟨loaded, hid, Or.inr ⟨ho, publishVideo_marked h⟩⟩

/-- A skip settles its worker's job as skipped, writes the metadata and publishes. -/
theorem markEncodingJobSkipped_cases {m : Marked Bool}
    (h : markEncodingJobSkipped db jobId reason workerId metadata now uploadOk = .ok m) :
    ∃ loaded : LoadedJob db, loaded.jobId = jobId ∧
      ((ownsRunningJob loaded.job workerId = false ∧ m = Marked.unchanged db false) ∨
        (ownsRunningJob loaded.job workerId = true ∧ m.result = true ∧
          publishVideo (applySourceMetadata (db.settle loaded.ref (Outcome.skipped reason now).job
            (Outcome.skipped reason now).rendition) loaded.ref metadata)
              loaded.ref.videoId uploadOk = .ok (m.db, m.publication))) := by
  rw [markEncodingJobSkipped] at h
  obtain ⟨loaded, hid, hunowned | ⟨ho, h⟩⟩ := ifOwned_eq_ok h
  · exact ⟨loaded, hid, Or.inl hunowned⟩
  · exact ⟨loaded, hid, Or.inr ⟨ho, publishVideo_marked h⟩⟩

/-- **What a success does**: it settles its worker's job as done and publishes,
and nothing to a job that is not its worker's. -/
theorem markEncodingJobSucceeded_eq_ok {m : Marked Bool}
    (h : markEncodingJobSucceeded db jobId workerId outputPath metadata now uploadOk = .ok m) :
    ∃ loaded : LoadedJob db, loaded.jobId = jobId ∧
      ((ownsRunningJob loaded.job workerId = false ∧ m = Marked.unchanged db false) ∨
        (ownsRunningJob loaded.job workerId = true ∧ m.result = true ∧
          Settled loaded (.done outputPath now) (some m.publication) m.db)) := by
  obtain ⟨loaded, hid, hunowned | ⟨ho, hresult, hp⟩⟩ := markEncodingJobSucceeded_cases h
  · exact ⟨loaded, hid, Or.inl hunowned⟩
  · exact ⟨loaded, hid, Or.inr ⟨ho, hresult,
      settled_publish metadata (status_of_ownsRunningJob ho).1 rfl hp⟩⟩

/-- **What a skip does**: it settles its worker's job as skipped and publishes,
and nothing to a job that is not its worker's. -/
theorem markEncodingJobSkipped_eq_ok {m : Marked Bool}
    (h : markEncodingJobSkipped db jobId reason workerId metadata now uploadOk = .ok m) :
    ∃ loaded : LoadedJob db, loaded.jobId = jobId ∧
      ((ownsRunningJob loaded.job workerId = false ∧ m = Marked.unchanged db false) ∨
        (ownsRunningJob loaded.job workerId = true ∧ m.result = true ∧
          Settled loaded (.skipped reason now) (some m.publication) m.db)) := by
  obtain ⟨loaded, hid, hunowned | ⟨ho, hresult, hp⟩⟩ := markEncodingJobSkipped_cases h
  · exact ⟨loaded, hid, Or.inl hunowned⟩
  · exact ⟨loaded, hid, Or.inr ⟨ho, hresult,
      settled_publish metadata (status_of_ownsRunningJob ho).1 rfl hp⟩⟩

/-- Arming a message again changes the outbox alone. -/
theorem queueJobForPublish_eq_ok {job : Job}
    (h : queueJobForPublish db jobId job newId now = .ok db') :
    db'.jobs = db.jobs ∧ db'.renditions = db.renditions ∧ db'.videos = db.videos ∧
      db'.uploadSessions = db.uploadSessions := by
  rw [queueJobForPublish] at h
  split at h
  · split at h
    · cases h
    · rw [← Except.ok.inj h]
      exact ⟨rfl, rfl, rfl, rfl⟩
  · rw [← Except.ok.inj h]
    exact ⟨rfl, rfl, rfl, rfl⟩

theorem retryJob_eq_ok {loaded : LoadedJob db} (hrun : loaded.job.status = .running)
    (hretry : shouldRetry loaded.job = true)
    (h : retryJob settings db loaded.ref loaded.job error newId now = .ok db') :
    ∃ nextRunAt, scheduleRetry settings loaded.job now = .ok nextRunAt ∧
      Settled loaded (.retried error now nextRunAt) none db' := by
  rw [retryJob] at h
  cases hs : scheduleRetry settings loaded.job now with
  | error e => rw [hs] at h; cases h
  | ok nextRunAt =>
    refine ⟨nextRunAt, rfl, ?_⟩
    simp only [hs, bind, Except.bind, pure, Except.pure] at h
    split at h
    · cases h
    · rename_i db₁ hq
      rw [← Except.ok.inj h]
      obtain ⟨hj, hr, hv, hu⟩ := queueJobForPublish_eq_ok hq
      exact settled_settle (o := .retried error now nextRunAt)
        ⟨hrun, by simpa [shouldRetry] using hretry⟩ hj hr hv hu ⟨newId, db₁, hq, rfl⟩

/-- A failure retries its worker's job, or settles it as failed and publishes. -/
theorem markEncodingJobFailed_cases {m : Marked (Option Bool)}
    (h : markEncodingJobFailed settings db jobId error workerId newId now uploadOk = .ok m) :
    ∃ loaded : LoadedJob db, loaded.jobId = jobId ∧
      ((ownsRunningJob loaded.job workerId = false ∧ m = Marked.unchanged db none) ∨
        (ownsRunningJob loaded.job workerId = true ∧ shouldRetry loaded.job = true ∧
          m.result = some true ∧ m.publication = .notReady ∧
          retryJob settings db loaded.ref loaded.job error newId now = .ok m.db) ∨
        (ownsRunningJob loaded.job workerId = true ∧ shouldRetry loaded.job = false ∧
          m.result = some false ∧
          publishVideo (failJob db loaded.ref error now) loaded.ref.videoId uploadOk =
            .ok (m.db, m.publication))) := by
  rw [markEncodingJobFailed] at h
  obtain ⟨loaded, hid, hunowned | ⟨ho, h⟩⟩ := ifOwned_eq_ok h
  · exact ⟨loaded, hid, Or.inl hunowned⟩
  · refine ⟨loaded, hid, Or.inr ?_⟩
    by_cases hretry : shouldRetry loaded.job = true
    · rw [if_pos hretry] at h
      cases hq : retryJob settings db loaded.ref loaded.job error newId now with
      | error e => rw [hq] at h; cases h
      | ok db₁ =>
        rw [hq] at h
        obtain rfl := Except.ok.inj h
        exact Or.inl ⟨ho, hretry, rfl, rfl, rfl⟩
    · rw [if_neg hretry] at h
      exact Or.inr ⟨ho, by simpa using hretry, publishVideo_marked h⟩

/-- **What a failure does**: to its worker's job, a retry while attempts are
left, and else the final failure with a publication; nothing to a job that is not
its worker's. -/
theorem markEncodingJobFailed_eq_ok {m : Marked (Option Bool)}
    (h : markEncodingJobFailed settings db jobId error workerId newId now uploadOk = .ok m) :
    ∃ loaded : LoadedJob db, loaded.jobId = jobId ∧
      ((ownsRunningJob loaded.job workerId = false ∧ m = Marked.unchanged db none) ∨
        (ownsRunningJob loaded.job workerId = true ∧ m.result = some true ∧
          m.publication = .notReady ∧ ∃ nextRunAt,
            scheduleRetry settings loaded.job now = .ok nextRunAt ∧
              Settled loaded (.retried error now nextRunAt) none m.db) ∨
        (ownsRunningJob loaded.job workerId = true ∧ m.result = some false ∧
          Settled loaded (.failed error now) (some m.publication) m.db)) := by
  obtain ⟨loaded, hid, hunowned | ⟨ho, hretry, hresult, hnotReady, hq⟩ |
    ⟨ho, hretry, hresult, hp⟩⟩ := markEncodingJobFailed_cases h
  · exact ⟨loaded, hid, Or.inl hunowned⟩
  · have hrun := (status_of_ownsRunningJob ho).1
    exact ⟨loaded, hid, Or.inr (Or.inl ⟨ho, hresult, hnotReady, retryJob_eq_ok hrun hretry hq⟩)⟩
  · refine ⟨loaded, hid, Or.inr (Or.inr ⟨ho, hresult, ?_⟩)⟩
    exact settled_publish (o := .failed error now) none
      ⟨(status_of_ownsRunningJob ho).1, by simpa [shouldRetry] using hretry⟩ rfl hp

/-- **What reaping a running job does**: the retry or the final failure of a
failed attempt, without a publication. -/
theorem reapJob_eq_ok (h : reapJob settings db jobId newId now = .ok db')
    (hrun : ∀ job, db.jobs.get? jobId = some job → job.status = .running) :
    ∃ loaded : LoadedJob db, loaded.jobId = jobId ∧ ∃ o, Settled loaded o none db' ∧
      ((shouldRetry loaded.job = true ∧ ∃ nextRunAt,
          scheduleRetry settings loaded.job now = .ok nextRunAt ∧
            o = .retried heartbeatTimedOut now nextRunAt) ∨
        (shouldRetry loaded.job = false ∧ o = .failed heartbeatTimedOut now)) := by
  rw [reapJob] at h
  cases hl : getJobForUpdate db jobId with
  | error e => rw [hl] at h; cases h
  | ok loaded =>
    obtain rfl := getJobForUpdate_jobId hl
    refine ⟨loaded, rfl, ?_⟩
    have hstatus := hrun _ loaded.get?_job
    rw [hl] at h
    simp only [bind, Except.bind, pure, Except.pure] at h
    by_cases hretry : shouldRetry loaded.job = true
    · rw [if_pos hretry] at h
      obtain ⟨nextRunAt, hs, hset⟩ := retryJob_eq_ok hstatus hretry h
      exact ⟨_, hset, Or.inl ⟨hretry, nextRunAt, hs, rfl⟩⟩
    · rw [if_neg hretry, Except.ok.injEq] at h
      subst h
      refine ⟨.failed heartbeatTimedOut now, ?_, Or.inr ⟨by simpa using hretry, rfl⟩⟩
      exact settled_settle (o := .failed heartbeatTimedOut now)
        ⟨hstatus, by simpa [shouldRetry] using hretry⟩ rfl rfl rfl rfl rfl

end Transactions

end RenditionPipeline
