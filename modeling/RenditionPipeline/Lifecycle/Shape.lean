import RenditionPipeline.Lifecycle.Settled
import RenditionPipeline.Services.Uploads

/-!
# The shape of the database

Which rows there are and how they refer to one another is settled when a video's
upload is completed and never changes afterwards: no job transaction adds a
rendition, a job or a message, or moves one to another owner. The part of the
database that stays is its *shape* (`RenditionPipeline.SameShape`), and the
references that the schema promises are a property of the shape
(`RenditionPipeline.Db.Referenced`, and with the ladder `RenditionPipeline.Db.Linked`),
so that they survive every job transaction at once
(`RenditionPipeline.Db.Linked.of_sameShape`).
-/

namespace RenditionPipeline

/-- Whether a video's upload is still going on. -/
def Video.isUploading (video : Video) : Bool := video.status = .uploading

/-- The columns of a rendition that stay. -/
def Rendition.shape (r : Rendition) : UUID × String := (r.videoId, r.resolution)

/-- The columns of a job that stay. -/
def Job.shape (job : Job) : UUID × UUID × ℕ := (job.videoId, job.renditionId, job.maxAttempts)

/-- The entry of the ladder that a rendition is of: its resolution and its bitrate. -/
def Rendition.entry (r : Rendition) : String × ℕ := (r.resolution, r.bitrate)

/-- The entries of a list of renditions, with their ids. -/
def entriesOf (renditions : List (UUID × Rendition)) : List (UUID × String × ℕ) :=
  renditions.map fun p => (p.1, p.2.entry)

/-- The entry of a preset. -/
def EncodingPreset.entry (preset : EncodingPreset) : String × ℕ :=
  (preset.resolution, preset.videoBitrate)

/-- **Two databases of one shape**: the same rows under the same keys, with the
same references. -/
structure SameShape (db db' : Db) : Prop where
  videos : db'.videos.view Video.isUploading = db.videos.view Video.isUploading
  uploadSessions : db'.uploadSessions.view UploadSession.videoId =
    db.uploadSessions.view UploadSession.videoId
  renditions : db'.renditions.view Rendition.shape = db.renditions.view Rendition.shape
  ladder : ∀ videoId, entriesOf (db'.renditionsOf videoId) = entriesOf (db.renditionsOf videoId)
  jobs : db'.jobs.view Job.shape = db.jobs.view Job.shape
  outboxMessages : db'.outboxMessages.view OutboxMessage.toEncodingJobMessage =
    db.outboxMessages.view OutboxMessage.toEncodingJobMessage

namespace SameShape

theorem refl (db : Db) : SameShape db db := ⟨rfl, rfl, rfl, fun _ => rfl, rfl, rfl⟩

theorem trans {db db' db'' : Db} (h : SameShape db db') (h' : SameShape db' db'') :
    SameShape db db'' where
  videos := h'.videos.trans h.videos
  uploadSessions := h'.uploadSessions.trans h.uploadSessions
  renditions := h'.renditions.trans h.renditions
  ladder := fun v => (h'.ladder v).trans (h.ladder v)
  jobs := h'.jobs.trans h.jobs
  outboxMessages := h'.outboxMessages.trans h.outboxMessages

theorem symm {db db' : Db} (h : SameShape db db') : SameShape db' db where
  videos := h.videos.symm
  uploadSessions := h.uploadSessions.symm
  renditions := h.renditions.symm
  ladder := fun v => (h.ladder v).symm
  jobs := h.jobs.symm
  outboxMessages := h.outboxMessages.symm

/-! ### What is found in the one is found in the other -/

section Rows

variable {db db' : Db} (h : SameShape db db') {k : UUID}
include h

theorem get?_video {v : Video} (hv : db.videos.get? k = some v) :
    ∃ v', db'.videos.get? k = some v' ∧ v'.isUploading = v.isUploading :=
  Table.get?_of_view_eq h.videos hv

theorem get?_rendition {r : Rendition} (hr : db.renditions.get? k = some r) :
    ∃ r', db'.renditions.get? k = some r' ∧ r'.videoId = r.videoId ∧
      r'.resolution = r.resolution := by
  obtain ⟨r', hr', he⟩ := Table.get?_of_view_eq h.renditions hr
  exact ⟨r', hr', congrArg Prod.fst he, congrArg Prod.snd he⟩

theorem get?_job {job : Job} (hj : db.jobs.get? k = some job) :
    ∃ job', db'.jobs.get? k = some job' ∧ job'.videoId = job.videoId ∧
      job'.renditionId = job.renditionId ∧ job'.maxAttempts = job.maxAttempts := by
  obtain ⟨job', hj', he⟩ := Table.get?_of_view_eq h.jobs hj
  simp only [Job.shape, Prod.mk.injEq] at he
  exact ⟨job', hj', he⟩

theorem get?_outboxMessage {m : OutboxMessage} (hm : db.outboxMessages.get? k = some m) :
    ∃ m', db'.outboxMessages.get? k = some m' ∧ m'.jobId = m.jobId ∧ m'.videoId = m.videoId ∧
      m'.renditionId = m.renditionId := by
  obtain ⟨m', hm', he⟩ := Table.get?_of_view_eq h.outboxMessages hm
  simp only [OutboxMessage.toEncodingJobMessage, EncodingJobMessage.mk.injEq] at he
  exact ⟨m', hm', he⟩

theorem renditionsOf_eq_nil_iff (videoId : UUID) :
    db'.renditionsOf videoId = [] ↔ db.renditionsOf videoId = [] := by
  have hl := h.ladder videoId
  rw [← List.map_eq_nil_iff (f := fun p : UUID × Rendition => (p.1, p.2.entry)),
    ← List.map_eq_nil_iff (f := fun p : UUID × Rendition => (p.1, p.2.entry))]
  exact ⟨fun he => hl.symm.trans he, fun he => hl.trans he⟩

end Rows

end SameShape

/-! ### The references of the schema -/

/-- **The references of the schema hold**: a rendition of a video that is no longer
uploading, one job to each rendition and one message to each job, with matching ids
throughout. -/
structure Db.Referenced (db : Db) : Prop where
  rendition_video : ∀ rid r, db.renditions.get? rid = some r →
    ∃ v, db.videos.get? r.videoId = some v ∧ v.isUploading = false
  rendition_job : ∀ rid r, db.renditions.get? rid = some r →
    ∃ jid job, db.jobs.get? jid = some job ∧ job.renditionId = rid
  job_rendition : ∀ jid job, db.jobs.get? jid = some job →
    ∃ r, db.renditions.get? job.renditionId = some r ∧ r.videoId = job.videoId
  job_unique : ∀ jid jid' job job', db.jobs.get? jid = some job → db.jobs.get? jid' = some job' →
    job.renditionId = job'.renditionId → jid = jid'
  job_outbox : ∀ jid job, db.jobs.get? jid = some job →
    ∃ mid m, db.outboxMessages.get? mid = some m ∧ m.jobId = jid
  outbox_job : ∀ mid m, db.outboxMessages.get? mid = some m →
    ∃ job, db.jobs.get? m.jobId = some job ∧ job.videoId = m.videoId ∧
      job.renditionId = m.renditionId
  outbox_unique : ∀ mid mid' m m', db.outboxMessages.get? mid = some m →
    db.outboxMessages.get? mid' = some m' → m.jobId = m'.jobId → mid = mid'

/-- **The fan-out of completed uploads is whole**: the references hold, and the
renditions of a video are either absent or those of the ladder. -/
structure Db.Linked (db : Db) : Prop extends Db.Referenced db where
  ladder : ∀ videoId, db.renditionsOf videoId = [] ∨
    (entriesOf (db.renditionsOf videoId)).map Prod.snd =
      defaultHlsRenditions.map EncodingPreset.entry

namespace Db.Referenced

/-- **The references are a matter of the shape.** -/
theorem of_sameShape {db db' : Db} (h : db.Referenced) (hs : SameShape db db') :
    db'.Referenced where
  rendition_video := by
    intro rid r hr
    obtain ⟨r₀, hr₀, hv₀, -⟩ := hs.symm.get?_rendition hr
    obtain ⟨v, hv, hup⟩ := h.rendition_video rid r₀ hr₀
    obtain ⟨v', hv', hup'⟩ := hs.get?_video hv
    exact ⟨v', by rw [← hv₀]; exact hv', hup'.trans hup⟩
  rendition_job := by
    intro rid r hr
    obtain ⟨r₀, hr₀, -⟩ := hs.symm.get?_rendition hr
    obtain ⟨jid, job, hj, rfl⟩ := h.rendition_job rid r₀ hr₀
    obtain ⟨job', hj', -, hrid, -⟩ := hs.get?_job hj
    exact ⟨jid, job', hj', hrid⟩
  job_rendition := by
    intro jid job hj
    obtain ⟨job₀, hj₀, hv₀, hr₀, -⟩ := hs.symm.get?_job hj
    obtain ⟨r, hr, hrv⟩ := h.job_rendition jid job₀ hj₀
    obtain ⟨r', hr', hrv', -⟩ := hs.get?_rendition hr
    exact ⟨r', by rw [← hr₀]; exact hr', by rw [hrv', hrv, hv₀]⟩
  job_unique := by
    intro jid jid' job job' hj hj' he
    obtain ⟨a, ha, -, har, -⟩ := hs.symm.get?_job hj
    obtain ⟨b, hb, -, hbr, -⟩ := hs.symm.get?_job hj'
    exact h.job_unique jid jid' a b ha hb (by rw [har, hbr, he])
  job_outbox := by
    intro jid job hj
    obtain ⟨job₀, hj₀, -⟩ := hs.symm.get?_job hj
    obtain ⟨mid, m, hm, rfl⟩ := h.job_outbox jid job₀ hj₀
    obtain ⟨m', hm', hmj, -⟩ := hs.get?_outboxMessage hm
    exact ⟨mid, m', hm', hmj⟩
  outbox_job := by
    intro mid m hm
    obtain ⟨m₀, hm₀, hmj, hmv, hmr⟩ := hs.symm.get?_outboxMessage hm
    obtain ⟨job, hj, hjv, hjr⟩ := h.outbox_job mid m₀ hm₀
    obtain ⟨job', hj', hjv', hjr', -⟩ := hs.get?_job hj
    exact ⟨job', by rw [← hmj]; exact hj', by rw [hjv', hjv, hmv], by rw [hjr', hjr, hmr]⟩
  outbox_unique := by
    intro mid mid' m m' hm hm' he
    obtain ⟨a, ha, haj, -⟩ := hs.symm.get?_outboxMessage hm
    obtain ⟨b, hb, hbj, -⟩ := hs.symm.get?_outboxMessage hm'
    exact h.outbox_unique mid mid' a b ha hb (by rw [haj, hbj, he])

section Rows

variable {db : Db} (h : db.Referenced) {jid : UUID} {job : Job}
include h

/-- **Every job can be loaded**: its rendition and its video are there. -/
theorem exists_loaded (hj : db.jobs.get? jid = some job) :
    ∃ loaded : LoadedJob db, getJobForUpdate db jid = .ok loaded ∧ loaded.jobId = jid ∧
      loaded.job = job := by
  obtain ⟨r, hr, -⟩ := h.job_rendition jid job hj
  obtain ⟨v, hv, -⟩ := h.rendition_video _ r hr
  exact ⟨⟨jid, job, r, v, hj, hr, hv⟩, getJobForUpdate_eq_ok hj hr hv, rfl, rfl⟩

/-- A video that has renditions is there, and its upload is over. -/
theorem exists_video {videoId : UUID} (hne : db.renditionsOf videoId ≠ []) :
    ∃ video, db.videos.get? videoId = some video ∧ video.isUploading = false := by
  obtain ⟨⟨rid, r⟩, hr⟩ := List.exists_mem_of_ne_nil _ hne
  obtain ⟨hget, hrv⟩ := Db.mem_renditionsOf.mp hr
  rw [← hrv]
  exact h.rendition_video rid r hget

/-- A video that is not there has no renditions. -/
theorem renditionsOf_eq_nil_of_none {videoId : UUID} (hvideo : db.videos.get? videoId = none) :
    db.renditionsOf videoId = [] := by
  by_contra hne
  obtain ⟨video, hv, -⟩ := h.exists_video hne
  rw [hvideo] at hv
  cases hv

/-- The message of a job is the one the relationship gives. -/
theorem exists_outboxOf (hj : db.jobs.get? jid = some job) :
    ∃ mid m, db.outboxOf jid = some (mid, m) ∧ db.outboxMessages.get? mid = some m ∧
      m.jobId = jid := by
  obtain ⟨mid, m, hm, hmj⟩ := h.job_outbox jid job hj
  have hmem : (mid, m) ∈ db.outboxMessages.select fun _ m => decide (m.jobId = jid) :=
    Table.mem_select.mpr ⟨hm, by simpa using hmj⟩
  cases hl : db.outboxMessages.select fun _ m => decide (m.jobId = jid) with
  | nil => rw [hl] at hmem; cases hmem
  | cons p ps =>
    have hp : p ∈ db.outboxMessages.select fun _ m => decide (m.jobId = jid) := by
      rw [hl]
      exact List.mem_cons_self
    obtain ⟨hget, hpj⟩ := Table.mem_select.mp (show (p.1, p.2) ∈ _ from hp)
    exact ⟨p.1, p.2, by rw [outboxOf, hl]; rfl, hget, by simpa using hpj⟩

end Rows

end Db.Referenced

/-- **The fan-out is a matter of the shape.** -/
theorem Db.Linked.of_sameShape {db db' : Db} (h : db.Linked) (hs : SameShape db db') :
    db'.Linked where
  toReferenced := h.toReferenced.of_sameShape hs
  ladder := by
    intro videoId
    rw [hs.renditionsOf_eq_nil_iff, hs.ladder]
    exact h.ladder videoId

theorem Db.Linked.empty : Db.empty.Linked where
  rendition_video := fun _ _ h => by cases h
  rendition_job := fun _ _ h => by cases h
  ladder := fun _ => Or.inl rfl
  job_rendition := fun _ _ h => by cases h
  job_unique := fun _ _ _ _ h => by cases h
  job_outbox := fun _ _ h => by cases h
  outbox_job := fun _ _ h => by cases h
  outbox_unique := fun _ _ _ _ h => by cases h

/-! ### Job transactions keep the shape -/

theorem deriveVideoStatus_ne_uploading (statuses : List ProcessingStatus) :
    deriveVideoStatus statuses ≠ .uploading := by
  simp only [deriveVideoStatus]
  split_ifs <;> decide

/-- **A retry arms the one message of the job again**, and adds none. -/
theorem queueJobForPublish_eq {db db' : Db} {jobId newId : UUID} {job job₀ : Job}
    {now : Timestamp} (hl : db.Referenced) (hj : db.jobs.get? jobId = some job₀)
    (h : queueJobForPublish db jobId job newId now = .ok db') :
    ∃ mid m, db.outboxMessages.get? mid = some m ∧ m.jobId = jobId ∧
      db'.outboxMessages = db.outboxMessages.modify mid rearmedMessage := by
  obtain ⟨mid, m, hm, hget, hmj⟩ := hl.exists_outboxOf hj
  rw [queueJobForPublish] at h
  rw [hm] at h
  rw [← Except.ok.inj h]
  exact ⟨mid, m, hget, hmj, rfl⟩

/-- What an outcome does to the outbox is invisible in its shape. -/
theorem view_outbox_settled {db db' : Db} {loaded : LoadedJob db} {o : Outcome} (hl : db.Referenced)
    (h : o.Outbox loaded db') :
    db'.outboxMessages.view OutboxMessage.toEncodingJobMessage =
      db.outboxMessages.view OutboxMessage.toEncodingJobMessage := by
  cases o with
  | retried error now nextRunAt =>
    obtain ⟨newId, db₁, hq, he⟩ := h
    obtain ⟨mid, m, -, -, hm⟩ := queueJobForPublish_eq hl loaded.get?_job hq
    rw [he, hm]
    exact Table.view_modify fun _ _ => rfl
  | exhausted now => rw [show db'.outboxMessages = db.outboxMessages from h]
  | running workerId now => rw [show db'.outboxMessages = db.outboxMessages from h]
  | done outputPath now => rw [show db'.outboxMessages = db.outboxMessages from h]
  | skipped reason now => rw [show db'.outboxMessages = db.outboxMessages from h]
  | failed error now => rw [show db'.outboxMessages = db.outboxMessages from h]

/-- **Settling keeps the shape.** -/
theorem Settled.sameShape {db db' : Db} {loaded : LoadedJob db} {o : Outcome}
    {publication : Option Publication} (hl : db.Referenced)
    (h : Settled loaded o publication db') : SameShape db db' where
  videos := by
    obtain ⟨f, hf, hfv⟩ := h.videos
    rw [hf]
    refine Table.view_modify fun v hv => ?_
    obtain ⟨w, hw, hup⟩ := hl.rendition_video _ _ loaded.get?_rendition
    obtain rfl : w = v := Option.some.inj (hw.symm.trans hv)
    rw [hup, Video.isUploading, (hfv w).1, decide_eq_false_iff_not]
    exact deriveVideoStatus_ne_uploading _
  uploadSessions := by rw [h.uploadSessions]
  renditions := by
    rw [h.renditions]
    exact Table.view_modify fun r _ => by simp [Rendition.shape]
  ladder := by
    intro videoId
    rw [h.renditionsOf, entriesOf, List.map_map]
    refine List.map_congr_left fun p _ => ?_
    by_cases hp : p.1 = loaded.job.renditionId <;> simp [hp, Rendition.entry]
  jobs := by
    rw [h.jobs]
    exact Table.view_modify fun job _ => by simp [Job.shape]
  outboxMessages := view_outbox_settled hl h.outbox

/-- A heartbeat keeps the shape. -/
theorem sameShape_heartbeat (db : Db) (jobId : UUID) (now : Timestamp) :
    SameShape db { db with
      jobs := db.jobs.modify jobId fun job => { job with heartbeatAt := some now } } :=
  { SameShape.refl db with jobs := Table.view_modify fun _ _ => rfl }

end RenditionPipeline
