import RenditionPipeline.Transfer.Runs

/-!
# Where a worker finds the source

A worker downloads its source from the bucket and the key in the row of the video. They are
written once, when the video is created, and nobody rewrites them
(`RenditionPipeline.sources_exec`), so that they stay the bucket of the storage and the key of
the upload session; and a video has work only once its session is completed
(`RenditionPipeline.Db.Sourced`).
-/

namespace RenditionPipeline

open Multipart

/-- The keys and buckets that the videos name as their sources. -/
def sources (db : Db) : UUID → Option (String × Option String) :=
  db.videos.view Video.sourceAddress

/-! ### Nobody rewrites a source -/

section Rewriting

variable {db db' : Db}

theorem sources_setVideo (videoId : UUID) {f : Video → Video}
    (hf : ∀ v, (f v).sourceAddress = v.sourceAddress) :
    sources (db.setVideo videoId f) = sources db :=
  Table.view_modify fun v _ => hf v

theorem sources_settle (ref : JobRef) (fj : Job → Job) (fr : Rendition → Rendition) :
    sources (db.settle ref fj fr) = sources db := by
  rw [sources, Db.settle_videos]
  exact Table.view_modify fun _ _ => rfl

theorem sources_applySourceMetadata (ref : JobRef) (metadata : Option VideoSourceMetadata) :
    sources (applySourceMetadata db ref metadata) = sources db := by
  cases metadata with
  | none => rfl
  | some metadata => exact sources_setVideo _ fun _ => rfl

theorem sources_publishVideo {videoId : UUID} {uploadOk : Bool} {publication : Publication}
    (h : publishVideo db videoId uploadOk = .ok (db', publication)) : sources db' = sources db := by
  obtain ⟨-, rfl⟩ := publishVideo_eq_ok h
  exact sources_setVideo _ fun _ => rfl

theorem sources_retryJob {settings : Settings} {ref : JobRef} {job : Job} {error : String}
    {newId : UUID} {now : Timestamp} (h : retryJob settings db ref job error newId now = .ok db') :
    sources db' = sources db := by
  rw [retryJob] at h
  cases hs : scheduleRetry settings job now with
  | error e => rw [hs] at h; cases h
  | ok nextRunAt =>
    simp only [hs, bind, Except.bind, pure, Except.pure] at h
    split at h
    · cases h
    · rename_i db₁ hq
      obtain ⟨-, -, hv, -⟩ := queueJobForPublish_eq_ok hq
      rw [← Except.ok.inj h, sources_settle, sources, sources, hv]

theorem sources_claim {jobId videoId renditionId : UUID} {workerId : String}
    {checkedAt now : Timestamp} {context : Option EncodingJobContext}
    (h : claimEncodingJob db jobId videoId renditionId workerId checkedAt now =
      .ok (db', context)) : sources db' = sources db := by
  rw [claimEncodingJob] at h
  cases hl : getJobForUpdate db jobId with
  | error e => rw [hl] at h; cases h
  | ok loaded =>
    rw [hl] at h
    cases hm : validateJobMessage loaded.job videoId renditionId with
    | error e => simp [bind, Except.bind, hm] at h
    | ok u =>
      simp only [bind, Except.bind, hm, pure, Except.pure] at h
      split_ifs at h
      · rw [Except.ok.injEq, Prod.mk.injEq] at h
        rw [h.1]
      · rw [Except.ok.injEq, Prod.mk.injEq] at h
        rw [← h.1]
        exact sources_settle _ _ _
      · rw [Except.ok.injEq, Prod.mk.injEq] at h
        rw [← h.1]
        exact sources_settle _ _ _

theorem sources_heartbeat {jobId : UUID} {workerId : String} {now : Timestamp} {owned : Bool}
    (h : heartbeatEncodingJob db jobId workerId now = .ok (db', owned)) :
    sources db' = sources db := by
  obtain ⟨loaded, -, -, rfl⟩ := heartbeatEncodingJob_eq_ok h
  cases owned with
  | true => rfl
  | false => rfl

theorem sources_succeeded {jobId : UUID} {workerId : String} {outputPath : Option String}
    {metadata : Option VideoSourceMetadata} {now : Timestamp} {uploadOk : Bool} {m : Marked Bool}
    (h : markEncodingJobSucceeded db jobId workerId outputPath metadata now uploadOk = .ok m) :
    sources m.db = sources db := by
  obtain ⟨loaded, -, ⟨-, rfl⟩ | ⟨-, -, hp⟩⟩ := markEncodingJobSucceeded_cases h
  · rfl
  · rw [sources_publishVideo hp, sources_applySourceMetadata, sources_settle]

theorem sources_skipped {jobId : UUID} {reason workerId : String}
    {metadata : Option VideoSourceMetadata} {now : Timestamp} {uploadOk : Bool} {m : Marked Bool}
    (h : markEncodingJobSkipped db jobId reason workerId metadata now uploadOk = .ok m) :
    sources m.db = sources db := by
  obtain ⟨loaded, -, ⟨-, rfl⟩ | ⟨-, -, hp⟩⟩ := markEncodingJobSkipped_cases h
  · rfl
  · rw [sources_publishVideo hp, sources_applySourceMetadata, sources_settle]

theorem sources_failed {settings : Settings} {jobId newId : UUID} {error workerId : String}
    {now : Timestamp} {uploadOk : Bool} {m : Marked (Option Bool)}
    (h : markEncodingJobFailed settings db jobId error workerId newId now uploadOk = .ok m) :
    sources m.db = sources db := by
  obtain ⟨loaded, -, ⟨-, rfl⟩ | ⟨-, -, -, -, hq⟩ | ⟨-, -, -, hp⟩⟩ :=
    markEncodingJobFailed_cases h
  · rfl
  · exact sources_retryJob hq
  · rw [sources_publishVideo hp, failJob, sources_settle]

theorem sources_reapJobs {settings : Settings} {newId : UUID → UUID} {now : Timestamp} :
    ∀ {ids : List UUID} {db db' : Db}, reapJobs settings newId now ids db = .ok db' →
      sources db' = sources db
  | [], db, db', h => by
    rw [reapJobs, Except.ok.injEq] at h
    rw [h]
  | id :: ids, db, db', h => by
    rw [reapJobs] at h
    cases h₁ : reapJob settings db id (newId id) now with
    | error e => rw [h₁] at h; cases h
    | ok db₁ =>
      simp only [h₁, bind, Except.bind] at h
      rw [sources_reapJobs h]
      rw [reapJob] at h₁
      cases hl : getJobForUpdate db id with
      | error e => rw [hl] at h₁; cases h₁
      | ok loaded =>
        rw [hl] at h₁
        simp only [bind, Except.bind, pure, Except.pure] at h₁
        split_ifs at h₁
        · exact sources_retryJob h₁
        · rw [← Except.ok.inj h₁, failJob, sources_settle]

end Rewriting

/-- **The other services leave the sources alone.** -/
theorem sources_exec {w : World} {op : Op} (h : op.isUploadRequest = false) :
    sources (op.exec w).1.db = sources w.db := by
  cases op with
  | createVideoUpload _ _ _ _ _ _ _ _ => cases h
  | refreshVideoUpload _ _ _ => cases h
  | completeVideoUpload _ _ _ _ _ _ _ => cases h
  | abortVideoUpload _ _ _ => cases h
  | claimEncodingJob jobId videoId renditionId workerId checkedAt now =>
    simp only [Op.exec]
    split
    · rename_i hok
      exact sources_claim hok
    · rfl
  | heartbeatEncodingJob jobId workerId now =>
    simp only [Op.exec]
    split
    · rename_i hok
      exact sources_heartbeat hok
    · rfl
  | markEncodingJobSucceeded jobId workerId outputPath metadata now uploadOk =>
    simp only [Op.exec]
    split
    · rename_i hok
      exact sources_succeeded hok
    · rfl
  | markEncodingJobSkipped jobId reason workerId metadata now uploadOk =>
    simp only [Op.exec]
    split
    · rename_i hok
      exact sources_skipped hok
    · rfl
  | markEncodingJobFailed settings jobId error workerId newId now uploadOk =>
    simp only [Op.exec]
    split
    · rename_i hok
      exact sources_failed hok
    · rfl
  | reapStaleEncodingJobs settings staleBefore limit locked newId now =>
    simp only [Op.exec]
    split
    · rename_i hok
      rw [reapStaleEncodingJobs] at hok
      cases h₁ : reapJobs settings newId now (staleJobs w.db staleBefore limit locked) w.db with
      | error e => simp [h₁, bind, Except.bind] at hok
      | ok db₁ =>
        simp only [h₁, bind, Except.bind, pure, Except.pure, Except.ok.injEq, Prod.mk.injEq] at hok
        rw [← hok.1]
        exact sources_reapJobs h₁
    · rfl
  | publishPendingOutboxMessages session now choice locked =>
    simp only [Op.exec, publishPendingOutboxMessages]
    split
    · rfl
    · rfl

/-! ### What there is work for -/

/-- **Work is for what has been uploaded**: the source of a video is at the key of its upload
session in the bucket of the storage, and a video that has renditions has a session that is
completed. -/
structure Db.Sourced (db : Db) (bucket : String) : Prop where
  source : ∀ sid s video, db.uploadSessions.get? sid = some s →
    db.videos.get? s.videoId = some video → video.sourceAddress = (s.objectKey, some bucket)
  worked : ∀ videoId, db.renditionsOf videoId ≠ [] →
    ∃ sid s, db.uploadSessions.get? sid = some s ∧ s.videoId = videoId ∧ s.status = .completed

namespace Db.Sourced

variable {db db' : Db} {bucket : String}

/-- Where sources and sessions stay, what is new has to be accounted for alone. -/
theorem frame (h : db.Sourced bucket) (hsources : sources db' = sources db)
    (hback : ∀ sid s', db'.uploadSessions.get? sid = some s' →
      ∃ s, db.uploadSessions.get? sid = some s ∧ SameUpload s s')
    (hdone : ∀ sid s, db.uploadSessions.get? sid = some s → s.status = .completed →
      db'.uploadSessions.get? sid = some s)
    (hwork : ∀ videoId, db'.renditionsOf videoId ≠ [] → db.renditionsOf videoId ≠ [] ∨
      ∃ sid s, db'.uploadSessions.get? sid = some s ∧ s.videoId = videoId ∧
        s.status = .completed) : db'.Sourced bucket where
  source := by
    intro sid s' video' hs' hv'
    obtain ⟨s, hs, hsame⟩ := hback sid s' hs'
    obtain ⟨video, hv, he⟩ := Table.get?_of_view_eq hsources.symm hv'
    rw [hsame.videoId] at hv
    rw [← he, h.source sid s video hs hv, hsame.objectKey]
  worked := by
    intro videoId hne
    rcases hwork videoId hne with hne | hnew
    · obtain ⟨sid, s, hs, hv, hc⟩ := h.worked videoId hne
      exact ⟨sid, s, hdone sid s hs hc, hv, hc⟩
    · exact hnew

/-- A session that is not completed is rewritten, and nothing else that matters. -/
theorem setSession (h : db.Sourced bucket) {sid : UUID} {session : UploadSession}
    {f : UploadSession → UploadSession} (hs : db.uploadSessions.get? sid = some session)
    (hactive : session.status = .active) (hf : ∀ s, SameUpload s (f s))
    (hsources : sources db' = sources db)
    (hsessions : db'.uploadSessions = db.uploadSessions.modify sid f)
    (hwork : ∀ videoId, db'.renditionsOf videoId ≠ [] → db.renditionsOf videoId ≠ [] ∨
      videoId = session.videoId ∧ (f session).status = .completed) : db'.Sourced bucket := by
  refine h.frame hsources (fun sid' s' hs' => ?_) (fun sid' s hs' hc => ?_) fun videoId hne => ?_
  · obtain ⟨s, hget, hsame, -⟩ := (Transfer.exists_session_of_modify hsessions hf).1 sid' s' hs'
    exact ⟨s, hget, hsame⟩
  · rw [hsessions, Table.get?_modify_of_ne, hs']
    rintro rfl
    rw [hs, Option.some.injEq] at hs'
    rw [← hs', hactive] at hc
    cases hc
  · rcases hwork videoId hne with hne | ⟨rfl, hc⟩
    · exact Or.inl hne
    · refine Or.inr ⟨sid, f session, ?_, (hf session).videoId, hc⟩
      rw [hsessions, Table.get?_modify_self, hs, Option.map_some]

end Db.Sourced

namespace Transfer

variable {σ α ι : Type} {storage : S3ObjectStorage σ α} {clients : ι → Client α}
  {t : Transfer σ ι}

theorem sourced_service (hl : t.db.Linked) (h : t.db.Sourced storage.bucket) {op : Op}
    (hop : op.isUploadRequest = false) :
    (op.exec ⟨t.db, Bucket.empty⟩).1.db.Sourced storage.bucket := by
  have hends : op.endsUpload = false := by
    cases op <;> first | rfl | cases hop
  have hsessions := uploadSessions_exec (w := ⟨t.db, Bucket.empty⟩) hop
  have hspares := (Op.spares (w := ⟨t.db, Bucket.empty⟩) hl hends).2
  refine h.frame (sources_exec hop) (fun sid s' hs' => ⟨s', by rwa [← hsessions],
    SameUpload.refl s'⟩) (fun sid s hs _ => by rwa [hsessions]) fun videoId hne => Or.inl ?_
  exact fun hnil => hne ((hspares.idle videoId).mpr hnil)

theorem sourced_create (hsound : Sound storage clients t) (h : t.db.Sourced storage.bucket)
    {filename contentType : String} {sizeBytes partCount : ℤ}
    {result : (Db × σ) × Except Raised VideoCreateResponse}
    (hstep : CreateStep storage t.db t.store filename contentType sizeBytes partCount result) :
    result.1.1.Sourced storage.bucket := by
  cases hstep with
  | refused error => exact h
  | orphaned hcreate error => exact h
  | @created videoId sessionId uploadId key video session parts s' hkey hcreate hvideo hsession
      hrow hsource hnumbers hparts =>
    refine ⟨fun sid s v hs hv => ?_, fun vid hne => ?_⟩
    · rcases (Table.get?_insert_eq_some_iff hsession).mp hs with ⟨rfl, rfl⟩ | hs₀
      · replace hv : (t.db.videos.insert videoId video hvideo).get? s.videoId = some v := hv
        rw [hrow.1, Table.get?_insert_self, Option.some.injEq] at hv
        rw [← hv, hsource, hrow.2.1]
      · rcases (Table.get?_insert_eq_some_iff hvideo).mp hv with ⟨he, -⟩ | hv₀
        · -- an old session is that of an old video
          have hsome := (hsound.session sid s hs₀).1
          rw [he, hvideo] at hsome
          cases hsome
        · exact h.source sid s v hs₀ hv₀
    · obtain ⟨sid, s, hs, hv, hc⟩ := h.worked vid hne
      exact ⟨sid, s, Table.get?_insert_of_some hs _ hsession, hv, hc⟩

theorem sourced_complete (h : t.db.Sourced storage.bucket) {ends : CompletionEnds}
    {videoId : UUID} {parts : List CompletedUploadPart} {result : Db × σ}
    (hstep : CompleteStep storage t.db t.store ends videoId parts result) :
    result.1.Sourced storage.bucket := by
  cases hstep with
  | refused => exact h
  | rolledBack _ _ => exact h
  | failed error hopen _ =>
    obtain ⟨hs, -, hactive⟩ := hopen.get?_session
    exact h.setSession hs hactive (sameUpload_failed error) rfl rfl fun videoId hne => Or.inl hne
  | @completed sid video session maxAttempts uploadedAt completedAt works db' hopen _ _ hc =>
    obtain ⟨hs, hvideo, hactive⟩ := hopen.get?_session
    refine h.setSession hs hactive (sameUpload_completed completedAt) ?_ hc.uploadSessions
      fun vid hne => ?_
    · rw [sources, hc.videos]
      exact Table.view_modify fun _ _ => rfl
    · by_cases hv : vid = videoId
      · exact Or.inr ⟨hv.trans hvideo.symm, rfl⟩
      · rw [hc.renditionsOf_of_ne hv] at hne
        exact Or.inl hne

theorem sourced_abort (h : t.db.Sourced storage.bucket) {videoId : UUID} {result : Db × σ}
    (hstep : AbortStep storage t.db t.store videoId result) :
    result.1.Sourced storage.bucket := by
  cases hstep with
  | refused => exact h
  | aborted abortOk now hopen _ =>
    obtain ⟨hs, -, hactive⟩ := hopen.get?_session
    cases abortOk with
    | true =>
      exact h.setSession hs hactive (sameUpload_aborted now)
        (sources_setVideo videoId fun _ => rfl) rfl fun vid hne => Or.inl hne
    | false =>
      exact h.setSession hs hactive (sameUpload_failed _) rfl rfl fun vid hne => Or.inl hne

/-- **Work is for what has been uploaded, in every run.** -/
theorem sourced_of_reachable [DecidableEq ι] {settings : UploadSettings}
    {guard : Transfer σ ι → TransferAction ι → Prop}
    (h : ReachableTransfer storage settings clients guard t) : t.db.Sourced storage.bucket := by
  refine Reaches.invariant_of (I := fun t => t.db.Sourced storage.bucket)
    (fun t ht => sound_of_reachable ht) (fun t ht => ?_) (fun t action t' hsound ht _ hstep => ?_) h
  · rw [ht]
    exact ⟨fun _ _ _ hs => (by cases hs), fun _ hne => absurd rfl hne⟩
  cases step_cases hstep with
  | created _ _ hresult => exact sourced_create hsound ht hresult
  | completed hresult => exact sourced_complete ht (hresult hsound.linked)
  | aborted hresult => exact sourced_abort ht hresult
  | service hop => exact sourced_service hsound.linked ht hop
  | _ => exact ht

end Transfer

section Delivery

variable {σ α ι : Type} [DecidableEq ι] {storage : S3ObjectStorage σ α} {settings : UploadSettings}
  {clients : ι → Client α} {guard : Transfer σ ι → TransferAction ι → Prop} {t : Transfer σ ι}

/-- **A worker gets the file**: in every run, the source that a claim names to a worker is an
object in the bucket of the storage, and the object is the file of the browser that was
answered the video. -/
theorem claimed_source_is_file (h : ReachableTransfer storage settings clients guard t)
    {jobId videoId renditionId : UUID} {workerId : String} {checkedAt now : Timestamp} {db' : Db}
    {context : EncodingJobContext}
    (hclaim : claimEncodingJob t.db jobId videoId renditionId workerId checkedAt now =
      .ok (db', some context)) :
    ∃ i r, t.Created i r ∧ r.videoId = context.videoId ∧
      context.sourceBucket = some storage.bucket ∧
      storage.service.objects t.store context.source =
        some ⟨(clients i).content, (clients i).contentType⟩ := by
  have hsound := Transfer.sound_of_reachable h
  have hsourced := Transfer.sourced_of_reachable h
  obtain ⟨loaded, -, ⟨-, -, hnone⟩ | ⟨hnone, -⟩ | ⟨hcontext, -⟩⟩ := claimEncodingJob_eq_ok hclaim
  · cases hnone
  · cases hnone
  obtain rfl := Option.some.inj hcontext
  have hne : t.db.renditionsOf loaded.rendition.videoId ≠ [] :=
    List.ne_nil_of_mem (Db.mem_renditionsOf.mpr ⟨loaded.get?_rendition, rfl⟩)
  obtain ⟨sid, s, hs, hv, hcompleted⟩ := hsourced.worked _ hne
  obtain ⟨i, r, hr, hsession, hobject⟩ := hsound.exists_object hs hcompleted
  obtain ⟨rendition, hrendition, hvideo⟩ := hsound.linked.job_rendition _ _ loaded.get?_job
  rw [loaded.get?_rendition, Option.some.injEq] at hrendition
  have haddress := hsourced.source sid s loaded.video hs (by rw [hv]; exact loaded.get?_video)
  refine ⟨i, r, hr, ?_, congrArg Prod.snd haddress, ?_⟩
  · rw [← hsession.videoId, hv, hrendition, hvideo]
    rfl
  · show storage.service.objects t.store loaded.video.sourceAddress.1 = _
    rw [haddress]
    exact hobject

end Delivery

set_option maxRecDepth 4000 in
/-- A job of the upload is claimed. -/
theorem claimed_source_is_file_sample : ∃ t db' context,
    ReachableTransfer sampleStorage .default sampleClients Unguarded t ∧
    claimEncodingJob t.db ⟨3⟩ ⟨0⟩ ⟨2⟩ "worker" 5 5 = .ok (db', some context) ∧
    context.sourceBucket = some sampleStorage.bucket ∧
    t.store.objects context.source = some ⟨[1, 2, 3], "video/mp4"⟩ := by
  obtain ⟨t, ht⟩ : ∃ t, guardedRun (Transfer.step sampleStorage .default sampleClients) Unguarded
      (Transfer.start sampleStorage sampleClients) (sampleTransfer ++ [sampleCompletion]) =
        some t := ⟨_, rfl⟩
  have hstart : ReachableTransfer sampleStorage .default sampleClients Unguarded
      (Transfer.start sampleStorage sampleClients) := Reaches.start rfl
  have hreach := hstart.of_guardedRun ht
  obtain ⟨db', context, hclaim⟩ : ∃ db' context,
      claimEncodingJob t.db ⟨3⟩ ⟨0⟩ ⟨2⟩ "worker" 5 5 = .ok (db', some context) := by
    obtain rfl := Option.some.inj ht
    exact ⟨_, _, rfl⟩
  obtain ⟨i, r, -, -, hbucket, hobject⟩ := claimed_source_is_file hreach hclaim
  exact ⟨t, db', context, hreach, hclaim, hbucket, hobject⟩

end RenditionPipeline
