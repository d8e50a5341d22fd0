import RenditionPipeline.Runs.Operations

/-!
# What becomes of jobs and messages

The interleaved system is watched through two tables, the jobs and the outbox.
This file says what every transaction makes of their rows: an upload request and
a heartbeat leave them alone and may add new ones (`RenditionPipeline.Grown`), a
settled job is rewritten by its outcome and so is its message
(`RenditionPipeline.Settled.get?_outboxMessage`), and a transaction that settles
several jobs does that to each of them (`RenditionPipeline.Settles`), as the reaper
does with its batch (`RenditionPipeline.Batch`).
-/

namespace RenditionPipeline

/-! ### A settled job -/

namespace Outcome

/-- Whether an outcome arms the job's message again. -/
def isRetry : Outcome → Bool
  | retried _ _ _ => true
  | _ => false

/-- A message under an outcome of a job. -/
def message (o : Outcome) (jobId : UUID) (m : OutboxMessage) : OutboxMessage :=
  if o.isRetry ∧ m.jobId = jobId then rearmedMessage m else m

end Outcome

/-- **What settling a job makes of the messages**: a retry arms the one of the job,
and every other one stays. -/
theorem Settled.get?_outboxMessage {db db' : Db} {loaded : LoadedJob db} {o : Outcome}
    {publication : Option Publication} (h : Settled loaded o publication db') (hl : db.Linked)
    (mid : UUID) : db'.outboxMessages.get? mid =
      (db.outboxMessages.get? mid).map (o.message loaded.jobId) := by
  have hkeep : ∀ {t : Table UUID OutboxMessage}, t = db.outboxMessages → o.isRetry = false →
      t.get? mid = (db.outboxMessages.get? mid).map (o.message loaded.jobId) := by
    rintro t rfl ho
    cases hm : db.outboxMessages.get? mid with
    | none => rfl
    | some m => simp [Outcome.message, ho]
  have houtbox := h.outbox
  cases o with
  | retried error now nextRunAt =>
    obtain ⟨newId, db₁, hq, he⟩ := houtbox
    obtain ⟨mid₀, m₀, hm₀, hmj, ht⟩ := queueJobForPublish_eq hl.toReferenced loaded.get?_job hq
    rw [he, ht, Table.get?_modify]
    by_cases hmid : mid = mid₀
    · subst hmid
      simp [hm₀, Outcome.message, Outcome.isRetry, hmj]
    · rw [if_neg hmid]
      cases hm : db.outboxMessages.get? mid with
      | none => rfl
      | some m =>
        have hne : m.jobId ≠ loaded.jobId := fun hj =>
          hmid (hl.outbox_unique _ _ _ _ hm hm₀ (hj.trans hmj.symm))
        simp [Outcome.message, hne]
  | exhausted now => exact hkeep houtbox rfl
  | running workerId now => exact hkeep houtbox rfl
  | done outputPath now => exact hkeep houtbox rfl
  | skipped reason now => exact hkeep houtbox rfl
  | failed error now => exact hkeep houtbox rfl

/-! ### A database that has grown -/

/-- **A database that has only grown**, heartbeats aside: the jobs and messages of
before are there, and a new job is pending, with a pending message. -/
structure Grown (db db' : Db) : Prop where
  job : ∀ jid job, db.jobs.get? jid = some job →
    ∃ heartbeatAt, db'.jobs.get? jid = some { job with heartbeatAt := heartbeatAt }
  newJob : ∀ jid job, db'.jobs.get? jid = some job → db.jobs.get? jid = none →
    job.status = .pending ∧
      ∃ mid m, db'.outboxMessages.get? mid = some m ∧ m.jobId = jid ∧ m.status = .pending
  message : ∀ mid m, db.outboxMessages.get? mid = some m → db'.outboxMessages.get? mid = some m

namespace Grown

variable {db db' db'' : Db}

theorem of_eq (hj : db'.jobs = db.jobs) (hm : db'.outboxMessages = db.outboxMessages) :
    Grown db db' where
  job := fun jid job h => ⟨job.heartbeatAt, by rw [hj]; exact h⟩
  newJob := fun jid job h hnone => by
    rw [hj, hnone] at h
    cases h
  message := fun mid m h => by rw [hm]; exact h

theorem refl (db : Db) : Grown db db := of_eq rfl rfl

theorem trans (h : Grown db db') (h' : Grown db' db'') : Grown db db'' where
  job := by
    intro jid job hj
    obtain ⟨t, ht⟩ := h.job jid job hj
    obtain ⟨t', ht'⟩ := h'.job jid _ ht
    exact ⟨t', ht'⟩
  newJob := by
    intro jid job hj hnone
    cases hmid : db'.jobs.get? jid with
    | none => exact h'.newJob jid job hj hmid
    | some job' =>
      obtain ⟨hp, mid, m, hm, hmj, hmp⟩ := h.newJob jid job' hmid hnone
      obtain ⟨t, ht⟩ := h'.job jid job' hmid
      obtain rfl := Option.some.inj (ht.symm.trans hj)
      exact ⟨hp, mid, m, h'.message mid m hm, hmj, hmp⟩
  message := fun mid m hm => h'.message mid m (h.message mid m hm)

/-- A job that is there is one from before, up to its heartbeat, or a new one. -/
theorem get?_job (h : Grown db db') {jid : UUID} {job' : Job}
    (hj : db'.jobs.get? jid = some job') :
    (∃ job, db.jobs.get? jid = some job ∧ ∃ t, job' = { job with heartbeatAt := t }) ∨
      db.jobs.get? jid = none := by
  cases hnone : db.jobs.get? jid with
  | none => exact Or.inr rfl
  | some job =>
    obtain ⟨t, ht⟩ := h.job jid job hnone
    exact Or.inl ⟨job, rfl, t, Option.some.inj (hj.symm.trans ht)⟩

end Grown

/-- A completed upload adds its jobs and their messages. -/
theorem Completed.grown {db db' : Db} {videoId sessionId : UUID} {maxAttempts : ℕ}
    {uploadedAt completedAt : Timestamp} {works : List Work}
    (h : Completed db videoId sessionId maxAttempts uploadedAt completedAt works db') :
    Grown db db' where
  job := fun jid job hj => ⟨job.heartbeatAt, h.get?_job.mpr (Or.inl hj)⟩
  newJob := by
    intro jid job hj hnone
    rcases h.get?_job.mp hj with hj | ⟨w, hw, rfl, rfl⟩
    · rw [hnone] at hj
      cases hj
    · exact ⟨rfl, w.messageId, _, h.get?_outboxMessage.mpr (Or.inr ⟨w, hw, rfl, rfl⟩), rfl, rfl⟩
  message := fun mid m hm => h.get?_outboxMessage.mpr (Or.inl hm)

/-- **A move that settles no job and does not rewrite the outbox** lets the
database grow. -/
theorem Move.grown {scope : Scope} {w w' : World} {e : List Settlement}
    (hm : Move scope w e w')
    (hsettles : ∀ (db : Db) (loaded : LoadedJob db) o p, ¬ scope.settles db loaded o p)
    (hrewrites : ¬ scope.rewritesOutbox) : Grown w.db w'.db := by
  cases hm with
  | @heartbeat jobId job now hget hrun =>
    refine ⟨fun jid job hj => ?_, fun jid job hj hnone => ?_, fun _ _ hm => hm⟩
    · by_cases hid : jid = jobId
      · exact ⟨some now, by rw [hid, Table.get?_modify_self, ← hid, hj, Option.map_some]⟩
      · exact ⟨job.heartbeatAt, by rw [Table.get?_modify_of_ne hid, hj]⟩
    · rw [Table.get?_modify, hnone] at hj
      split at hj <;> cases hj
  | settled hs _ => exact absurd hs (hsettles _ _ _ _)
  | outbox hs _ => exact absurd hs hrewrites
  | created hvideo hsession _ _ _ _ => exact Grown.of_eq rfl rfl
  | completed _ hopen hc => exact hc.grown
  | uploadFailed error _ hopen => exact Grown.of_eq rfl rfl
  | aborted now _ hopen => exact Grown.of_eq rfl rfl

theorem Chain.grown {scope : Scope} {w w' : World} {es : List Settlement}
    (h : Chain (Move scope) w es w')
    (hsettles : ∀ (db : Db) (loaded : LoadedJob db) o p, ¬ scope.settles db loaded o p)
    (hrewrites : ¬ scope.rewritesOutbox) : Grown w.db w'.db :=
  h.keep (I := fun w' => Grown w.db w'.db)
    (fun _ _ _ hg hm => hg.trans (hm.grown hsettles hrewrites)) (Grown.refl _)

/-! ### Transactions that settle jobs -/

/-- **A transaction has settled the jobs that it tells**, and has left the others
alone. -/
structure Settles (db : Db) (log : List Settlement) (db' : Db) : Prop where
  job_of_mem : ∀ jid o, (jid, o) ∈ log → ∃ job, db.jobs.get? jid = some job ∧ o.Enabled job ∧
    db'.jobs.get? jid = some (o.job job)
  job_of_not_mem : ∀ jid, jid ∉ log.map Prod.fst → db'.jobs.get? jid = db.jobs.get? jid
  rearmed : ∀ mid m o, db.outboxMessages.get? mid = some m → (m.jobId, o) ∈ log →
    o.isRetry = true → db'.outboxMessages.get? mid = some (rearmedMessage m)
  message : ∀ mid m, db.outboxMessages.get? mid = some m →
    (∀ o, (m.jobId, o) ∈ log → o.isRetry = false) → db'.outboxMessages.get? mid = some m
  sameShape : SameShape db db'
  /-- Of the videos, it writes those of the jobs that it tells. -/
  video : ∀ vid v v', db.videos.get? vid = some v → db'.videos.get? vid = some v' → v' = v ∨
    v'.status ≠ .uploading ∧ ∃ jid job, jid ∈ log.map Prod.fst ∧
      db.jobs.get? jid = some job ∧ job.videoId = vid

namespace Settles

variable {db₀ db db' : Db} {log : List Settlement}

theorem refl (db : Db) : Settles db [] db where
  job_of_mem := fun _ _ h => by cases h
  job_of_not_mem := fun _ _ => rfl
  rearmed := fun _ _ _ _ h => by cases h
  message := fun _ _ hm _ => hm
  sameShape := SameShape.refl db
  video := fun _ _ _ hv hv' => Or.inl (Option.some.inj (hv'.symm.trans hv))

/-- A job after the transaction, settled by it or left alone. -/
theorem get?_job (h : Settles db log db') {jid : UUID} {job' : Job}
    (hj' : db'.jobs.get? jid = some job') :
    (jid ∈ log.map Prod.fst ∧ ∃ o job, (jid, o) ∈ log ∧ db.jobs.get? jid = some job ∧
      o.Enabled job ∧ job' = o.job job) ∨
      (jid ∉ log.map Prod.fst ∧ db.jobs.get? jid = some job') := by
  by_cases hmem : jid ∈ log.map Prod.fst
  · obtain ⟨⟨jid, o⟩, hlog, rfl⟩ := List.mem_map.mp hmem
    obtain ⟨job, hj, he, hjob⟩ := h.job_of_mem jid o hlog
    exact Or.inl ⟨hmem, o, job, hlog, hj, he, Option.some.inj (hj'.symm.trans hjob)⟩
  · exact Or.inr ⟨hmem, (h.job_of_not_mem jid hmem).symm.trans hj'⟩

/-- Jobs that are settled are there, so a missing one is not settled. -/
theorem not_mem_of_none (h : Settles db log db') {jid : UUID} (hnone : db'.jobs.get? jid = none) :
    jid ∉ log.map Prod.fst := by
  intro hmem
  obtain ⟨⟨jid, o⟩, hlog, rfl⟩ := List.mem_map.mp hmem
  obtain ⟨job, -, -, hjob⟩ := h.job_of_mem jid o hlog
  rw [hnone] at hjob
  cases hjob

/-- **One more job is settled**, which was as it had been found. -/
theorem settled (h : Settles db₀ log db) (hl : db.Linked) {loaded : LoadedJob db} {o : Outcome}
    {publication : Option Publication} (hnew : loaded.jobId ∉ log.map Prod.fst)
    (hget : db₀.jobs.get? loaded.jobId = some loaded.job)
    (hs : Settled loaded o publication db') : Settles db₀ (log ++ [(loaded.jobId, o)]) db' := by
  -- the job is not among those settled before
  have hne : ∀ {jid o'}, (jid, o') ∈ log → jid ≠ loaded.jobId := fun hmem he =>
    hnew (List.mem_map.mpr ⟨_, hmem, he⟩)
  refine ⟨fun jid o' hmem => ?_, fun jid hmem => ?_, fun mid m o' hm hmem hretry => ?_,
    fun mid m hm hnone => ?_, h.sameShape.trans (hs.sameShape hl.toReferenced),
    fun vid v v' hv hv' => ?_⟩
  · rcases List.mem_append.mp hmem with hmem | hmem
    · rw [hs.get?_job_of_ne (hne hmem)]
      exact h.job_of_mem jid o' hmem
    · obtain ⟨rfl, rfl⟩ : jid = loaded.jobId ∧ o' = o := by simpa using hmem
      exact ⟨loaded.job, hget, hs.enabled, hs.get?_job_self⟩
  · rw [List.map_append, List.mem_append, not_or] at hmem
    rw [hs.get?_job_of_ne fun he => hmem.2 (by simp [he])]
    exact h.job_of_not_mem jid hmem.1
  · rw [hs.get?_outboxMessage hl]
    rcases List.mem_append.mp hmem with hmem | hmem
    · rw [h.rearmed mid m o' hm hmem hretry, Option.map_some, Outcome.message,
        if_neg fun hc => hne hmem hc.2]
    · obtain ⟨hj, rfl⟩ : m.jobId = loaded.jobId ∧ o' = o := by simpa using hmem
      rw [h.message mid m hm fun o' ho' => absurd hj (hne ho'), Option.map_some, Outcome.message,
        if_pos ⟨hretry, hj⟩]
  · rw [hs.get?_outboxMessage hl, h.message mid m hm fun o' ho' => hnone o' (by simp [ho']),
      Option.map_some, Outcome.message, if_neg]
    rintro ⟨hretry, hj⟩
    rw [hnone o (by simp [hj])] at hretry
    cases hretry
  · by_cases hvid : vid = loaded.rendition.videoId
    · -- the video of the job has the status that its renditions give
      subst hvid
      obtain ⟨video, hvideo, hstatus, -⟩ := hs.get?_video_self
      obtain rfl : v' = video := Option.some.inj (hv'.symm.trans hvideo)
      obtain ⟨r, hr, hrv⟩ := hl.job_rendition _ _ loaded.get?_job
      obtain rfl : r = loaded.rendition := Option.some.inj (hr.symm.trans loaded.get?_rendition)
      refine Or.inr ⟨?_, loaded.jobId, loaded.job, by simp, hget, hrv.symm⟩
      rw [hstatus]
      exact deriveVideoStatus_ne_uploading _
    · rw [hs.get?_video_of_ne hvid] at hv'
      refine (h.video vid v v' hv hv').imp_right fun ⟨hne', jid, job, hmem, hrest⟩ =>
        ⟨hne', jid, job, ?_, hrest⟩
      rw [List.map_append]
      exact List.mem_append_left _ hmem

/-- A transaction that settles one job. -/
theorem of_settled (hl : db.Linked) {loaded : LoadedJob db} {o : Outcome}
    {publication : Option Publication} (hs : Settled loaded o publication db') :
    Settles db [(loaded.jobId, o)] db' :=
  (refl db).settled hl List.not_mem_nil loaded.get?_job hs

end Settles

/-! ### A batch of the reaper -/

/-- The outcomes of the reaper. -/
def Outcome.IsReaped (o : Outcome) : Prop :=
  (∃ error now nextRunAt, o = .retried error now nextRunAt) ∨ ∃ error now, o = .failed error now

theorem Outcome.IsReaped.status_ne_running {o : Outcome} (h : o.IsReaped) (job : Job) :
    (o.job job).status ≠ .running := by
  rcases h with ⟨error, now, nextRunAt, rfl⟩ | ⟨error, now, rfl⟩ <;> exact nofun

theorem Outcome.IsReaped.running {o : Outcome} (h : o.IsReaped) {job : Job}
    (he : o.Enabled job) : job.status = .running := by
  rcases h with ⟨error, now, nextRunAt, rfl⟩ | ⟨error, now, rfl⟩ <;> exact he.1

/-- **A batch**: the reaper has retried or failed every job that it tells. -/
structure Batch (db : Db) (log : List Settlement) (db' : Db) : Prop extends
    Settles db log db' where
  outcome : ∀ jid o, (jid, o) ∈ log → o.IsReaped

namespace Batch

variable {db₀ db db' : Db} {log : List Settlement}

theorem refl (db : Db) : Batch db [] db := ⟨Settles.refl db, fun _ _ h => by cases h⟩

/-- A job that is as the batch has found it has not been settled by the batch. -/
theorem not_mem (h : Batch db₀ log db) {loaded : LoadedJob db}
    (hget : db₀.jobs.get? loaded.jobId = some loaded.job) (hrun : loaded.job.status = .running) :
    loaded.jobId ∉ log.map Prod.fst := by
  intro hmem
  obtain ⟨⟨jid, o⟩, hlog, rfl⟩ := List.mem_map.mp hmem
  obtain ⟨job, hj, -, hj'⟩ := h.job_of_mem _ o hlog
  obtain rfl : loaded.job = job := Option.some.inj (hget.symm.trans hj)
  have hself : loaded.job = o.job loaded.job := Option.some.inj (loaded.get?_job.symm.trans hj')
  exact (h.outcome _ o hlog).status_ne_running loaded.job (by rw [← hself]; exact hrun)

/-- **One more job of the batch.** -/
theorem settled (h : Batch db₀ log db) (hl : db.Linked) {loaded : LoadedJob db} {o : Outcome}
    {publication : Option Publication} (ho : o.IsReaped)
    (hget : db₀.jobs.get? loaded.jobId = some loaded.job)
    (hs : Settled loaded o publication db') : Batch db₀ (log ++ [(loaded.jobId, o)]) db' := by
  refine ⟨h.toSettles.settled hl (h.not_mem hget (ho.running hs.enabled)) hget hs,
    fun jid o' hmem => ?_⟩
  rcases List.mem_append.mp hmem with hmem | hmem
  · exact h.outcome jid o' hmem
  · obtain ⟨rfl, rfl⟩ : jid = loaded.jobId ∧ o' = o := by simpa using hmem
    exact ho

end Batch

/-- **The reaper settles its batch**, every job of it once. -/
theorem reap_batch {settings : Settings} {db db' : Db} {staleBefore now : Timestamp}
    {limit count : ℕ} {locked : UUID → Bool} {newId : UUID → UUID} (hl : db.Linked)
    (h : reapStaleEncodingJobs settings db staleBefore limit locked newId now = .ok (db', count)) :
    ∃ log, log.map Prod.fst = staleJobs db staleBefore limit locked ∧ Batch db log db' := by
  obtain ⟨es, hes, hids, -⟩ := reap_chain (w := ⟨db, Bucket.empty⟩) h
  refine ⟨es, hids, ?_⟩
  have key := hes.keep_log (I := fun w log => w.db.Linked ∧ Batch db log w.db) (l := [])
    (fun w e w' log hw hm => by
      refine ⟨hm.move.linked hw.1, ?_⟩
      cases hm with
      | intro hscope hs =>
        obtain ⟨-, hget, -, ho⟩ := hscope
        refine hw.2.settled hw.1 ?_ hget hs
        rcases ho with ⟨-, now, nextRunAt, rfl⟩ | ⟨-, now, rfl⟩
        · exact Or.inl ⟨_, _, _, rfl⟩
        · exact Or.inr ⟨_, _, rfl⟩)
    ⟨hl, Batch.refl db⟩
  exact key.2

/-! ### Upload requests -/

theorem createVideoUpload_jobs (db : Db) (bucket filename contentType : String)
    (sizeBytes partCount : ℤ) (upload : String → Option MultipartUpload) (ids : IdStream)
    (now : Timestamp) : (createVideoUpload db bucket filename contentType sizeBytes partCount
      upload ids now).1.jobs = db.jobs := by
  rw [createVideoUpload]
  split
  · rfl
  split
  · rfl
  split
  · rfl
  split
  · rfl
  dsimp only
  split <;> rfl

theorem abortVideoUpload_jobs (db : Db) (videoId : UUID) (abortOk : Bool) (now : Timestamp) :
    (abortVideoUpload db videoId abortOk now).1.jobs = db.jobs := by
  rw [abortVideoUpload]
  split
  · rfl
  split
  · rfl
  cases abortOk <;> rfl

/-- A completed upload adds jobs, and leaves the others as they are. -/
theorem completeVideoUpload_get?_job {db : Db} (hl : db.Linked) {jid : UUID} {job : Job}
    (hj : db.jobs.get? jid = some job) (settings : Settings) (answers : CompletionAnswers)
    (videoId : UUID) (parts : List CompletedUploadPart) (ids : IdStream)
    (uploadedAt completedAt : Timestamp) :
    (completeVideoUpload settings db answers videoId parts ids uploadedAt
      completedAt).1.jobs.get? jid = some job := by
  rw [completeVideoUpload]
  split
  · exact hj
  rename_i video hv
  split
  · exact hj
  rename_i sessionId session hs
  split
  · exact hj
  split
  · exact hj
  split
  · exact hj
  · rename_i hf
    have hopen := getActiveUploadSession_eq_ok hv hs
    obtain ⟨works, hw, -⟩ := finishCompletion_eq_ok (hopen.renditionsOf_eq_nil hl) hf
    exact hw.get?_job.mpr (Or.inl hj)

section UploadRequests

variable {w : World} {op : Op} (hop : op.isUploadRequest = true)
include hop

/-- An upload request settles no job. -/
theorem Op.not_settles (db : Db) (loaded : LoadedJob db) (o : Outcome)
    (publication : Option Publication) : ¬ (op.scope w).settles db loaded o publication := by
  cases op <;> first | exact id | cases hop

theorem Op.not_rewritesOutbox : ¬ (op.scope w).rewritesOutbox := by
  cases op <;> first | exact id | cases hop

/-- An upload request stores no object of its own. -/
theorem Op.bucket_exec : (op.exec w).1.bucket = w.bucket := by
  cases op <;> first | rfl | cases hop

/-- An upload request leaves every job that is there as it is, its heartbeat included. -/
theorem get?_job_of_isUploadRequest (hl : w.db.Linked) {jid : UUID} {job : Job}
    (hj : w.db.jobs.get? jid = some job) : (op.exec w).1.db.jobs.get? jid = some job := by
  cases op with
  | createVideoUpload => exact (congrArg (·.get? jid) (createVideoUpload_jobs ..)).trans hj
  | completeVideoUpload => exact completeVideoUpload_get?_job hl hj ..
  | refreshVideoUpload => exact hj
  | abortVideoUpload => exact (congrArg (·.get? jid) (abortVideoUpload_jobs ..)).trans hj
  | _ => cases hop

/-- An upload request lets the database grow. -/
theorem Op.grown (hl : w.db.Linked) : Grown w.db (op.exec w).1.db := by
  obtain ⟨es, hes, -⟩ := op.exec_chain hl
  exact hes.grown (Op.not_settles hop) (Op.not_rewritesOutbox hop)

end UploadRequests

end RenditionPipeline
