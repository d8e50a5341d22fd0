import RenditionPipeline.Lifecycle.Shape

/-!
# The fan-out of a completed upload

Completing an upload adds rows in three loops: a rendition for each preset, a job
for each rendition, a message for each job. Read as a whole
(`RenditionPipeline.Completed`) the three tables are extended by one list, with an
entry for each preset that names the three ids drawn for it
(`RenditionPipeline.Work`); that the constraints of the schema have let the rows
in says that the ids are new and different.
-/

namespace RenditionPipeline

/-- The rows of one preset. -/
structure Work where
  preset : EncodingPreset
  renditionId : UUID
  jobId : UUID
  messageId : UUID

/-- **An upload has been completed**: its video and session are rewritten, and
the work of each preset is added. -/
structure Completed (db : Db) (videoId sessionId : UUID) (maxAttempts : ℕ)
    (uploadedAt completedAt : Timestamp) (works : List Work) (db' : Db) : Prop where
  presets : works.map Work.preset = defaultHlsRenditions
  videos : db'.videos = db.videos.modify videoId (uploadedVideo uploadedAt)
  uploadSessions : db'.uploadSessions =
    db.uploadSessions.modify sessionId (completedSession completedAt)
  renditions : db'.renditions.rows =
    db.renditions.rows ++ works.map fun w => (w.renditionId, newRendition videoId w.preset)
  jobs : db'.jobs.rows =
    db.jobs.rows ++ works.map fun w => (w.jobId, newJob videoId w.renditionId maxAttempts)
  outboxMessages : db'.outboxMessages.rows = db.outboxMessages.rows ++ works.map fun w =>
    (w.messageId, newOutboxMessage w.jobId videoId w.renditionId completedAt)

/-! ### The three loops -/

theorem addRendition_eq_ok {db db' : Db} {id : UUID} {r : Rendition}
    (h : db.addRendition id r = .ok db') :
    ∃ t, db' = { db with renditions := t } ∧ t.rows = db.renditions.rows ++ [(id, r)] := by
  rw [Db.addRendition] at h
  split_ifs at h
  split at h
  · cases h
  · rename_i t ht
    exact ⟨t, (Except.ok.inj h).symm, Table.rows_insert?_eq_some ht⟩

theorem addJob_eq_ok {db db' : Db} {id : UUID} {job : Job} (h : db.addJob id job = .ok db') :
    ∃ t, db' = { db with jobs := t } ∧ t.rows = db.jobs.rows ++ [(id, job)] := by
  rw [Db.addJob] at h
  split_ifs at h
  split at h
  · cases h
  · rename_i t ht
    exact ⟨t, (Except.ok.inj h).symm, Table.rows_insert?_eq_some ht⟩

theorem addOutboxMessage_eq_ok {db db' : Db} {id : UUID} {m : OutboxMessage}
    (h : db.addOutboxMessage id m = .ok db') :
    ∃ t, db' = { db with outboxMessages := t } ∧
      t.rows = db.outboxMessages.rows ++ [(id, m)] := by
  rw [Db.addOutboxMessage] at h
  split_ifs at h
  split at h
  · cases h
  · rename_i t ht
    exact ⟨t, (Except.ok.inj h).symm, Table.rows_insert?_eq_some ht⟩

/-- **The loop over the presets** adds a rendition and a job for each. -/
theorem createForPresets_eq_ok {ids : IdStream} {videoId : UUID} {maxAttempts : ℕ} :
    ∀ {presets : List EncodingPreset} {drawn : ℕ} {db db' : Db} {jobs : List (UUID × Job)},
    createForPresets ids videoId maxAttempts presets drawn db = .ok (db', jobs) →
    ∃ works : List (EncodingPreset × UUID × UUID), works.map Prod.fst = presets ∧
      jobs = works.map (fun w => (w.2.2, newJob videoId w.2.1 maxAttempts)) ∧
      db'.renditions.rows =
        db.renditions.rows ++ works.map (fun w => (w.2.1, newRendition videoId w.1)) ∧
      db'.jobs.rows = db.jobs.rows ++ jobs ∧
      db'.videos = db.videos ∧ db'.uploadSessions = db.uploadSessions ∧
      db'.outboxMessages = db.outboxMessages
  | [], drawn, db, db', jobs, h => by
    rw [createForPresets, Except.ok.injEq, Prod.mk.injEq] at h
    obtain ⟨rfl, rfl⟩ := h
    exact ⟨[], rfl, rfl, by simp, by simp, rfl, rfl, rfl⟩
  | preset :: presets, drawn, db, db', jobs, h => by
    rw [createForPresets] at h
    cases h₁ : db.addRendition (ids drawn) (newRendition videoId preset) with
    | error e => rw [h₁] at h; cases h
    | ok db₁ =>
      simp only [h₁, bind, Except.bind] at h
      cases h₂ : db₁.addJob (ids (drawn + 1)) (newJob videoId (ids drawn) maxAttempts) with
      | error e => simp [h₂] at h
      | ok db₂ =>
        simp only [h₂] at h
        cases h₃ : createForPresets ids videoId maxAttempts presets (drawn + 2) db₂ with
        | error e => simp [h₃] at h
        | ok result =>
          obtain ⟨db₃, rest⟩ := result
          simp only [h₃, pure, Except.pure, Except.ok.injEq, Prod.mk.injEq] at h
          obtain ⟨rfl, rfl⟩ := h
          obtain ⟨t₁, rfl, hrows₁⟩ := addRendition_eq_ok h₁
          obtain ⟨t₂, rfl, hrows₂⟩ := addJob_eq_ok h₂
          obtain ⟨works, rfl, rfl, hr, hj, hv, hu, ho⟩ := createForPresets_eq_ok h₃
          refine ⟨(preset, ids drawn, ids (drawn + 1)) :: works, rfl, rfl, ?_, ?_, hv, hu, ho⟩
          · rw [hr, hrows₁, List.append_assoc]
            rfl
          · rw [hj, hrows₂, List.append_assoc]
            rfl

/-- **The loop over the jobs** adds a message for each. -/
theorem createOutboxMessages_eq_ok {newId : UUID → UUID} {now : Timestamp} :
    ∀ {jobs : List (UUID × Job)} {db db' : Db} {ids : List UUID},
    createOutboxMessages newId now jobs db = .ok (db', ids) →
    ids = jobs.map (fun p => newId p.1) ∧
      db'.outboxMessages.rows = db.outboxMessages.rows ++ jobs.map (fun p =>
        (newId p.1, newOutboxMessage p.1 p.2.videoId p.2.renditionId now)) ∧
      db'.videos = db.videos ∧ db'.uploadSessions = db.uploadSessions ∧
      db'.renditions = db.renditions ∧ db'.jobs = db.jobs
  | [], db, db', ids, h => by
    rw [createOutboxMessages, Except.ok.injEq, Prod.mk.injEq] at h
    obtain ⟨rfl, rfl⟩ := h
    exact ⟨rfl, by simp, rfl, rfl, rfl, rfl⟩
  | (jobId, job) :: jobs, db, db', ids, h => by
    rw [createOutboxMessages] at h
    cases h₁ : db.addOutboxMessage (newId jobId)
        (newOutboxMessage jobId job.videoId job.renditionId now) with
    | error e => rw [h₁] at h; cases h
    | ok db₁ =>
      simp only [h₁, bind, Except.bind] at h
      cases h₂ : createOutboxMessages newId now jobs db₁ with
      | error e => simp [h₂] at h
      | ok result =>
        obtain ⟨db₂, rest⟩ := result
        simp only [h₂, pure, Except.pure, Except.ok.injEq, Prod.mk.injEq] at h
        obtain ⟨rfl, rfl⟩ := h
        obtain ⟨t, rfl, hrows⟩ := addOutboxMessage_eq_ok h₁
        obtain ⟨rfl, ho, hv, hu, hr, hj⟩ := createOutboxMessages_eq_ok h₂
        refine ⟨rfl, ?_, hv, hu, hr, hj⟩
        rw [ho, hrows, List.append_assoc]
        rfl

/-- **What completing an upload does** to a video without renditions. -/
theorem finishCompletion_eq_ok {settings : Settings} {db db' : Db} {videoId sessionId : UUID}
    {ids : IdStream} {uploadedAt completedAt : Timestamp} {messageIds : List UUID}
    (hnone : db.renditionsOf videoId = [])
    (h : finishCompletion settings db videoId sessionId ids uploadedAt completedAt =
      .ok (db', messageIds)) :
    ∃ works, Completed db videoId sessionId settings.workerJobRetryCount uploadedAt completedAt
        works db' ∧ messageIds = works.map Work.messageId := by
  rw [finishCompletion] at h
  simp only [bind, Except.bind] at h
  -- the two rows are changed first, and the work is created over them
  generalize hdb₀ : (db.setVideo videoId (uploadedVideo uploadedAt)).setSession sessionId
    (completedSession completedAt) = db₀ at h
  have hnone₀ : db₀.renditionsOf videoId = [] := by
    rw [← hnone, ← hdb₀]
    exact Db.renditionsOf_congr rfl videoId
  cases h₁ : createRenditionsAndJobs db₀ ids videoId settings.workerJobRetryCount with
  | error e => simp [h₁] at h
  | ok result =>
    obtain ⟨db₁, jobs⟩ := result
    simp only [h₁] at h
    rw [createRenditionsAndJobs, if_neg (by simpa using hnone₀)] at h₁
    obtain ⟨works, hpresets, rfl, hr, hj, hv, hu, ho⟩ := createForPresets_eq_ok h₁
    obtain ⟨rfl, ho', hv', hu', hr', hj'⟩ := createOutboxMessages_eq_ok h
    refine ⟨works.map fun w => ⟨w.1, w.2.1, w.2.2, ids (12 + ((works.map fun w =>
      (w.2.2, newJob videoId w.2.1 settings.workerJobRetryCount)).map Prod.fst).idxOf w.2.2)⟩,
      ⟨?_, ?_, ?_, ?_, ?_, ?_⟩, ?_⟩
    · rw [List.map_map]
      exact hpresets
    · rw [hv', hv, ← hdb₀]
      rfl
    · rw [hu', hu, ← hdb₀]
      rfl
    · rw [hr', hr, ← hdb₀, List.map_map]
      rfl
    · rw [hj', hj, ← hdb₀, List.map_map]
      rfl
    · rw [ho', ho, ← hdb₀]
      simp only [List.map_map]
      rfl
    · simp only [List.map_map]
      rfl

/-! ### The rows that have been added -/

namespace Completed

section Rows

variable {db db' : Db} {videoId sessionId : UUID} {maxAttempts : ℕ}
  {uploadedAt completedAt : Timestamp} {works : List Work}
  (h : Completed db videoId sessionId maxAttempts uploadedAt completedAt works db')
include h

theorem get?_rendition {rid : UUID} {r : Rendition} :
    db'.renditions.get? rid = some r ↔ db.renditions.get? rid = some r ∨
      ∃ w ∈ works, w.renditionId = rid ∧ newRendition videoId w.preset = r := by
  rw [Table.get?_append_iff h.renditions, List.mem_map]
  simp only [Prod.mk.injEq]

theorem get?_job {jid : UUID} {job : Job} :
    db'.jobs.get? jid = some job ↔ db.jobs.get? jid = some job ∨
      ∃ w ∈ works, w.jobId = jid ∧ newJob videoId w.renditionId maxAttempts = job := by
  rw [Table.get?_append_iff h.jobs, List.mem_map]
  simp only [Prod.mk.injEq]

theorem get?_outboxMessage {mid : UUID} {m : OutboxMessage} :
    db'.outboxMessages.get? mid = some m ↔ db.outboxMessages.get? mid = some m ∨
      ∃ w ∈ works, w.messageId = mid ∧
        newOutboxMessage w.jobId videoId w.renditionId completedAt = m := by
  rw [Table.get?_append_iff h.outboxMessages, List.mem_map]
  simp only [Prod.mk.injEq]

/-- The renditions that are added are new. -/
theorem get?_rendition_eq_none {w : Work} (hw : w ∈ works) :
    db.renditions.get? w.renditionId = none :=
  Table.get?_eq_none_of_mem_append h.renditions (List.mem_map.mpr ⟨w, hw, rfl⟩)

/-- The jobs that are added are new. -/
theorem get?_job_eq_none {w : Work} (hw : w ∈ works) : db.jobs.get? w.jobId = none :=
  Table.get?_eq_none_of_mem_append h.jobs (List.mem_map.mpr ⟨w, hw, rfl⟩)

theorem eq_of_renditionId_eq {w w' : Work} (hw : w ∈ works) (hw' : w' ∈ works)
    (he : w.renditionId = w'.renditionId) : w = w' := by
  have hn := Table.nodup_keys_append h.renditions
  rw [List.map_map] at hn
  exact List.inj_on_of_nodup_map hn hw hw' he

theorem eq_of_jobId_eq {w w' : Work} (hw : w ∈ works) (hw' : w' ∈ works)
    (he : w.jobId = w'.jobId) : w = w' := by
  have hn := Table.nodup_keys_append h.jobs
  rw [List.map_map] at hn
  exact List.inj_on_of_nodup_map hn hw hw' he

/-- The renditions of every other video stay. -/
theorem renditionsOf_of_ne {v : UUID} (hv : v ≠ videoId) :
    db'.renditionsOf v = db.renditionsOf v := by
  have hnil : (works.map fun w => (w.renditionId, newRendition videoId w.preset)).filter
      (fun q => decide (q.2.videoId = v)) = [] := by
    rw [List.filter_eq_nil_iff]
    intro q hq
    obtain ⟨w, -, rfl⟩ := List.mem_map.mp hq
    simp [newRendition, hv.symm]
  rw [Db.renditionsOf, Table.select_append h.renditions, hnil, List.append_nil, Db.renditionsOf]

/-- **The renditions of the video are those of the ladder**, in its order. -/
theorem renditionsOf_self (hnone : db.renditionsOf videoId = []) :
    db'.renditionsOf videoId =
      works.map fun w => (w.renditionId, newRendition videoId w.preset) := by
  have hold : (db.renditions.select fun _ r => decide (r.videoId = videoId)) = [] := by
    have hperm := List.perm_insertionSort (fun p q : UUID × Rendition =>
      q.2.bitrate ≤ p.2.bitrate) (db.renditions.select fun _ r => decide (r.videoId = videoId))
    rw [show List.insertionSort _ _ = [] from hnone] at hperm
    exact hperm.symm.eq_nil
  have hall : (works.map fun w => (w.renditionId, newRendition videoId w.preset)).filter
      (fun q => decide (q.2.videoId = videoId)) =
      works.map fun w => (w.renditionId, newRendition videoId w.preset) := by
    rw [List.filter_eq_self]
    intro q hq
    obtain ⟨w, -, rfl⟩ := List.mem_map.mp hq
    simp [newRendition]
  have hsorted : (works.map fun w => (w.renditionId, newRendition videoId w.preset)).Pairwise
      fun p q => q.2.bitrate ≤ p.2.bitrate := by
    have hladder := pairwise_videoBitrate
    rw [← h.presets, List.pairwise_map] at hladder
    rw [List.pairwise_map]
    exact hladder.imp fun hlt => le_of_lt hlt
  rw [Db.renditionsOf, Table.select_append h.renditions, hold, List.nil_append, hall]
  exact hsorted.insertionSort_eq

theorem renditionsOf_ne_nil (hnone : db.renditionsOf videoId = []) :
    db'.renditionsOf videoId ≠ [] := by
  rw [h.renditionsOf_self hnone]
  intro he
  have hpresets := h.presets
  rw [List.map_eq_nil_iff.mp he] at hpresets
  cases hpresets

end Rows

/-- **Completing an upload keeps the references.** -/
theorem linked {db db' : Db} {videoId sessionId : UUID} {maxAttempts : ℕ}
    {uploadedAt completedAt : Timestamp} {works : List Work} {v : Video}
    (h : Completed db videoId sessionId maxAttempts uploadedAt completedAt works db')
    (hl : db.Linked) (hnone : db.renditionsOf videoId = [])
    (hv : db.videos.get? videoId = some v) : db'.Linked where
  rendition_video := by
    intro rid r hr
    have hvideo : db'.videos.get? videoId = some (uploadedVideo uploadedAt v) := by
      rw [h.videos, Table.get?_modify_self, hv, Option.map_some]
    rcases h.get?_rendition.mp hr with hr | ⟨w, hw, rfl, rfl⟩
    · by_cases hrv : r.videoId = videoId
      · exact ⟨_, by rw [hrv]; exact hvideo, rfl⟩
      · rw [h.videos, Table.get?_modify_of_ne hrv]
        exact hl.rendition_video rid r hr
    · exact ⟨_, hvideo, rfl⟩
  rendition_job := by
    intro rid r hr
    rcases h.get?_rendition.mp hr with hr | ⟨w, hw, rfl, rfl⟩
    · obtain ⟨jid, job, hj, he⟩ := hl.rendition_job rid r hr
      exact ⟨jid, job, h.get?_job.mpr (Or.inl hj), he⟩
    · exact ⟨w.jobId, _, h.get?_job.mpr (Or.inr ⟨w, hw, rfl, rfl⟩), rfl⟩
  ladder := by
    intro v'
    by_cases hv' : v' = videoId
    · subst hv'
      right
      rw [h.renditionsOf_self hnone, ← h.presets, entriesOf, List.map_map, List.map_map,
        List.map_map]
      rfl
    · rw [h.renditionsOf_of_ne hv']
      exact hl.ladder v'
  job_rendition := by
    intro jid job hj
    rcases h.get?_job.mp hj with hj | ⟨w, hw, rfl, rfl⟩
    · obtain ⟨r, hr, he⟩ := hl.job_rendition jid job hj
      exact ⟨r, h.get?_rendition.mpr (Or.inl hr), he⟩
    · exact ⟨_, h.get?_rendition.mpr (Or.inr ⟨w, hw, rfl, rfl⟩), rfl⟩
  job_unique := by
    -- an old job's rendition is old, a new job's is new
    have hold : ∀ jid job w, db.jobs.get? jid = some job → w ∈ works →
        job.renditionId ≠ w.renditionId := by
      intro jid job w hj hw he
      obtain ⟨r, hr, -⟩ := hl.job_rendition jid job hj
      rw [he, h.get?_rendition_eq_none hw] at hr
      cases hr
    intro jid jid' job job' hj hj' he
    rcases h.get?_job.mp hj with hj | ⟨w, hw, rfl, rfl⟩ <;>
      rcases h.get?_job.mp hj' with hj' | ⟨w', hw', rfl, rfl⟩
    · exact hl.job_unique jid jid' job job' hj hj' he
    · exact absurd he (hold jid job w' hj hw')
    · exact absurd he.symm (hold jid' job' w hj' hw)
    · rw [h.eq_of_renditionId_eq hw hw' he]
  job_outbox := by
    intro jid job hj
    rcases h.get?_job.mp hj with hj | ⟨w, hw, rfl, rfl⟩
    · obtain ⟨mid, m, hm, he⟩ := hl.job_outbox jid job hj
      exact ⟨mid, m, h.get?_outboxMessage.mpr (Or.inl hm), he⟩
    · exact ⟨w.messageId, _, h.get?_outboxMessage.mpr (Or.inr ⟨w, hw, rfl, rfl⟩), rfl⟩
  outbox_job := by
    intro mid m hm
    rcases h.get?_outboxMessage.mp hm with hm | ⟨w, hw, rfl, rfl⟩
    · obtain ⟨job, hj, he⟩ := hl.outbox_job mid m hm
      exact ⟨job, h.get?_job.mpr (Or.inl hj), he⟩
    · exact ⟨_, h.get?_job.mpr (Or.inr ⟨w, hw, rfl, rfl⟩), rfl, rfl⟩
  outbox_unique := by
    have hold : ∀ mid m w, db.outboxMessages.get? mid = some m → w ∈ works →
        m.jobId ≠ w.jobId := by
      intro mid m w hm hw he
      obtain ⟨job, hj, -⟩ := hl.outbox_job mid m hm
      rw [he, h.get?_job_eq_none hw] at hj
      cases hj
    intro mid mid' m m' hm hm' he
    rcases h.get?_outboxMessage.mp hm with hm | ⟨w, hw, rfl, rfl⟩ <;>
      rcases h.get?_outboxMessage.mp hm' with hm' | ⟨w', hw', rfl, rfl⟩
    · exact hl.outbox_unique mid mid' m m' hm hm' he
    · exact absurd he (hold mid m w' hm hw')
    · exact absurd he.symm (hold mid' m' w hm' hw)
    · rw [h.eq_of_jobId_eq hw hw' he]

end Completed

/-! ### The work of a video -/

/-- **The work of a rendition**: its one job and the one message of the job, which
carry the same ids. -/
structure WorkOf (db : Db) (videoId renditionId jobId messageId : UUID) : Prop where
  job : ∃ job, db.jobs.get? jobId = some job ∧ job.videoId = videoId ∧
    job.renditionId = renditionId
  job_unique : ∀ jid job, db.jobs.get? jid = some job → job.renditionId = renditionId →
    jid = jobId
  message : db.outboxMessages.view OutboxMessage.toEncodingJobMessage messageId =
    some ⟨jobId, videoId, renditionId⟩
  message_unique : ∀ mid m, db.outboxMessages.get? mid = some m →
    m.jobId = jobId ∨ m.renditionId = renditionId → mid = messageId

/-- **The work of a video is whole**: a rendition for each entry of the ladder, with
its work, and no job or message besides. -/
structure FannedOut (db : Db) (videoId : UUID) : Prop where
  ladder : (db.renditionsOf videoId).map (fun p => p.2.entry) =
    defaultHlsRenditions.map EncodingPreset.entry
  work : ∀ p ∈ db.renditionsOf videoId, ∃ jobId messageId, WorkOf db videoId p.1 jobId messageId
  job : ∀ jid job, db.jobs.get? jid = some job → job.videoId = videoId →
    ∃ p ∈ db.renditionsOf videoId, p.1 = job.renditionId
  message : ∀ mid m, db.outboxMessages.get? mid = some m → m.videoId = videoId →
    ∃ p ∈ db.renditionsOf videoId, p.1 = m.renditionId

/-- **A video without work**: no rendition, no job and no message. -/
structure NoWork (db : Db) (videoId : UUID) : Prop where
  rendition : db.renditionsOf videoId = []
  job : ∀ jid job, db.jobs.get? jid = some job → job.videoId ≠ videoId
  message : ∀ mid m, db.outboxMessages.get? mid = some m → m.videoId ≠ videoId

namespace Db.Linked

variable {db : Db} (hl : db.Linked) {videoId : UUID}
include hl

theorem exists_rendition_of_job {jid : UUID} {job : Job} (hj : db.jobs.get? jid = some job)
    (hv : job.videoId = videoId) : ∃ p ∈ db.renditionsOf videoId, p.1 = job.renditionId := by
  obtain ⟨r, hr, hrv⟩ := hl.job_rendition jid job hj
  exact ⟨(job.renditionId, r), Db.mem_renditionsOf.mpr ⟨hr, hrv.trans hv⟩, rfl⟩

theorem exists_rendition_of_message {mid : UUID} {m : OutboxMessage}
    (hm : db.outboxMessages.get? mid = some m) (hv : m.videoId = videoId) :
    ∃ p ∈ db.renditionsOf videoId, p.1 = m.renditionId := by
  obtain ⟨job, hj, hjv, hjr⟩ := hl.outbox_job mid m hm
  rw [← hjr]
  exact hl.exists_rendition_of_job hj (hjv.trans hv)

/-- **A rendition has its work.** -/
theorem workOf {rid : UUID} {r : Rendition} (hr : (rid, r) ∈ db.renditionsOf videoId) :
    ∃ jobId messageId, WorkOf db videoId rid jobId messageId := by
  obtain ⟨hget, hrv⟩ := Db.mem_renditionsOf.mp hr
  obtain ⟨jobId, job, hj, hjr⟩ := hl.rendition_job rid r hget
  obtain ⟨mid, m, hm, hmj⟩ := hl.job_outbox jobId job hj
  obtain ⟨r', hr', hjv⟩ := hl.job_rendition jobId job hj
  obtain rfl : r' = r := by rw [hjr, hget] at hr'; exact (Option.some.inj hr').symm
  -- the message of the job is the only one that names it or its rendition
  have hunique : ∀ mid' m', db.outboxMessages.get? mid' = some m' →
      m'.jobId = jobId ∨ m'.renditionId = rid → m'.jobId = jobId := by
    rintro mid' m' hm' (hj' | hr')
    · exact hj'
    · obtain ⟨job', hget', -, hren⟩ := hl.outbox_job mid' m' hm'
      exact hl.job_unique _ _ _ _ hget' hj (by rw [hren, hr', hjr])
  obtain ⟨job', hj', hv', hren'⟩ := hl.outbox_job mid m hm
  obtain rfl : job' = job := by rw [hmj, hj] at hj'; exact (Option.some.inj hj').symm
  refine ⟨jobId, mid, ⟨job', hj, hjv.symm.trans hrv, hjr⟩, fun jid job₂ hj₂ hr₂ => ?_, ?_,
    fun mid' m' hm' he => ?_⟩
  · exact hl.job_unique _ _ _ _ hj₂ hj (by rw [hr₂, hjr])
  · rw [Table.view_of_get? hm, OutboxMessage.toEncodingJobMessage, hmj, ← hv', ← hren', hjr,
      ← hjv, hrv]
  · exact hl.outbox_unique _ _ _ _ hm' hm (by rw [hunique mid' m' hm' he, hmj])

/-- **The work of a video is whole as soon as it has a rendition.** -/
theorem fannedOut (hne : db.renditionsOf videoId ≠ []) : FannedOut db videoId where
  ladder := by
    have hladder := (hl.ladder videoId).resolve_left hne
    rw [entriesOf, List.map_map] at hladder
    exact hladder
  work := fun _ hp => hl.workOf hp
  job := fun _ _ hj hv => hl.exists_rendition_of_job hj hv
  message := fun _ _ hm hv => hl.exists_rendition_of_message hm hv

/-- A video without renditions has no work at all. -/
theorem noWork (hnil : db.renditionsOf videoId = []) : NoWork db videoId where
  rendition := hnil
  job := by
    intro jid job hj hv
    obtain ⟨p, hp, -⟩ := hl.exists_rendition_of_job hj hv
    rw [hnil] at hp
    cases hp
  message := by
    intro mid m hm hv
    obtain ⟨p, hp, -⟩ := hl.exists_rendition_of_message hm hv
    rw [hnil] at hp
    cases hp

end Db.Linked

end RenditionPipeline
