import RenditionPipeline.Lifecycle.Moves

/-!
# Runs of transactions

The services as one machine: an operation is a call with everything it draws from
outside – clocks, ids, what the storage and the broker answer, which rows are
locked – and running it is committing what the call commits, or nothing where it
raises (`RenditionPipeline.Op.exec`). A run is any list of operations, in any
order and with any arguments, from the empty database
(`RenditionPipeline.ReachableRun`).

Every operation is a chain of moves in its scope
(`RenditionPipeline.Op.exec_chain`), which is the only fact about operations that
the invariants of runs use.
-/

namespace RenditionPipeline

/-- A call of a service. -/
inductive Op where
  | createVideoUpload (bucket filename contentType : String) (sizeBytes partCount : ℤ)
      (upload : String → Option MultipartUpload) (ids : IdStream) (now : Timestamp)
  | refreshVideoUpload (videoId : UUID) (partCount : ℤ) (upload : Option MultipartUpload)
  | completeVideoUpload (settings : Settings) (answers : CompletionAnswers) (videoId : UUID)
      (parts : List CompletedUploadPart) (ids : IdStream) (uploadedAt completedAt : Timestamp)
  | abortVideoUpload (videoId : UUID) (abortOk : Bool) (now : Timestamp)
  | claimEncodingJob (jobId videoId renditionId : UUID) (workerId : String)
      (checkedAt now : Timestamp)
  | heartbeatEncodingJob (jobId : UUID) (workerId : String) (now : Timestamp)
  | markEncodingJobSucceeded (jobId : UUID) (workerId : String) (outputPath : Option String)
      (metadata : Option VideoSourceMetadata) (now : Timestamp) (uploadOk : Bool)
  | markEncodingJobSkipped (jobId : UUID) (reason workerId : String)
      (metadata : Option VideoSourceMetadata) (now : Timestamp) (uploadOk : Bool)
  | markEncodingJobFailed (settings : Settings) (jobId : UUID) (error workerId : String)
      (newId : UUID) (now : Timestamp) (uploadOk : Bool)
  | reapStaleEncodingJobs (settings : Settings) (staleBefore : Timestamp) (limit : ℕ)
      (locked : UUID → Bool) (newId : UUID → UUID) (now : Timestamp)
  | publishPendingOutboxMessages (session : PublisherSession) (now : Timestamp)
      (choice : OutboxChoice) (locked : UUID → Bool)

namespace Op

/-- **Run an operation**: the world it commits, and the job whose claim it has
granted, if any. -/
def exec (w : World) : Op → World × List UUID
  | createVideoUpload bucket filename contentType sizeBytes partCount upload ids now =>
    ({ w with db := (RenditionPipeline.createVideoUpload w.db bucket filename contentType
      sizeBytes partCount upload ids now).1 }, [])
  | refreshVideoUpload _ _ _ => (w, [])
  | completeVideoUpload settings answers videoId parts ids uploadedAt completedAt =>
    ({ w with db := (RenditionPipeline.completeVideoUpload settings w.db answers videoId parts ids
      uploadedAt completedAt).1 }, [])
  | abortVideoUpload videoId abortOk now =>
    ({ w with db := (RenditionPipeline.abortVideoUpload w.db videoId abortOk now).1 }, [])
  | claimEncodingJob jobId videoId renditionId workerId checkedAt now =>
    match RenditionPipeline.claimEncodingJob w.db jobId videoId renditionId workerId checkedAt
        now with
    | .ok (db, context) => ({ w with db := db }, context.toList.map EncodingJobContext.jobId)
    | .error _ => (w, [])
  | heartbeatEncodingJob jobId workerId now =>
    match RenditionPipeline.heartbeatEncodingJob w.db jobId workerId now with
    | .ok (db, _) => ({ w with db := db }, [])
    | .error _ => (w, [])
  | markEncodingJobSucceeded jobId workerId outputPath metadata now uploadOk =>
    match RenditionPipeline.markEncodingJobSucceeded w.db jobId workerId outputPath metadata now
        uploadOk with
    | .ok m => (⟨m.db, m.publication.store w.bucket⟩, [])
    | .error _ => (w, [])
  | markEncodingJobSkipped jobId reason workerId metadata now uploadOk =>
    match RenditionPipeline.markEncodingJobSkipped w.db jobId reason workerId metadata now
        uploadOk with
    | .ok m => (⟨m.db, m.publication.store w.bucket⟩, [])
    | .error _ => (w, [])
  | markEncodingJobFailed settings jobId error workerId newId now uploadOk =>
    match RenditionPipeline.markEncodingJobFailed settings w.db jobId error workerId newId now
        uploadOk with
    | .ok m => (⟨m.db, m.publication.store w.bucket⟩, [])
    | .error _ => (w, [])
  | reapStaleEncodingJobs settings staleBefore limit locked newId now =>
    match RenditionPipeline.reapStaleEncodingJobs settings w.db staleBefore limit locked newId
        now with
    | .ok (db, _) => ({ w with db := db }, [])
    | .error _ => (w, [])
  | publishPendingOutboxMessages session now choice locked =>
    ({ w with db := (RenditionPipeline.publishPendingOutboxMessages w.db session now choice
      locked).1 }, [])

end Op

/-- Whether an operation is an upload request. -/
def Op.isUploadRequest : Op → Bool
  | .createVideoUpload _ _ _ _ _ _ _ _ => true
  | .refreshVideoUpload _ _ _ => true
  | .completeVideoUpload _ _ _ _ _ _ _ => true
  | .abortVideoUpload _ _ _ => true
  | _ => false

/-! ### The scopes of the operations -/

/-- The settlements of a claim. -/
def claimScope (db₀ : Db) (jobId : UUID) (workerId : String) (now : Timestamp) : Scope :=
  { Scope.none with
    settles := fun db loaded o publication => db = db₀ ∧ loaded.jobId = jobId ∧
      publication = none ∧ (o = .exhausted now ∨ o = .running workerId now) }

/-- The settlements of a worker that concludes a job of its own, which always
come to a publication unless the job is retried. -/
def markScope (db₀ : Db) (jobId : UUID) (workerId : String) (outcomes : Outcome → Prop) :
    Scope :=
  { Scope.none with
    settles := fun db loaded o publication => db = db₀ ∧ loaded.jobId = jobId ∧
      ownsRunningJob loaded.job workerId = true ∧ outcomes o ∧
      (publication.isSome ∨ ∃ error now nextRunAt, o = .retried error now nextRunAt) }

/-- The settlements of the reaper: of running jobs as they were when the batch
began. -/
def reapScope (db₀ : Db) (stale : List UUID) : Scope :=
  { Scope.none with
    settles := fun _ loaded o publication => loaded.jobId ∈ stale ∧
      db₀.jobs.get? loaded.jobId = some loaded.job ∧ publication = none ∧
      ((shouldRetry loaded.job = true ∧
          ∃ now nextRunAt, o = .retried heartbeatTimedOut now nextRunAt) ∨
        (shouldRetry loaded.job = false ∧ ∃ now, o = .failed heartbeatTimedOut now)) }

/-- The scope of a completion, which fails the upload where it has come to its
storage calls and they have not gone through. -/
def completeScope (db : Db) (answers : CompletionAnswers) (videoId : UUID)
    (parts : List CompletedUploadPart) : Scope :=
  { Scope.none with
    endsUpload := fun status => status = .completed ∨ status = .failed ∧
      ∃ sessionId video session, OpenUpload db videoId sessionId video session ∧
        validateCompletedUploadParts session parts = .ok () ∧
        storageCompletion answers session ≠ .ok () }

/-- The scope of an abort, which fails the upload where its storage call does. -/
def abortScope (db : Db) (videoId : UUID) (abortOk : Bool) : Scope :=
  { Scope.none with
    endsUpload := fun status => status = .aborted ∨ status = .failed ∧ abortOk = false ∧
      ∃ sessionId video session, OpenUpload db videoId sessionId video session }

/-- What an operation may settle. -/
def Op.scope (w : World) : Op → Scope
  | claimEncodingJob jobId _ _ workerId _ now => claimScope w.db jobId workerId now
  | markEncodingJobSucceeded jobId workerId outputPath _ now _ =>
    markScope w.db jobId workerId fun o => o = .done outputPath now
  | markEncodingJobSkipped jobId reason workerId _ now _ =>
    markScope w.db jobId workerId fun o => o = .skipped reason now
  | markEncodingJobFailed _ jobId error workerId _ now _ =>
    markScope w.db jobId workerId fun o => (∃ nextRunAt, o = .retried error now nextRunAt) ∨
      o = .failed error now
  | reapStaleEncodingJobs _ staleBefore limit locked _ _ =>
    reapScope w.db (staleJobs w.db staleBefore limit locked)
  | completeVideoUpload _ answers videoId parts _ _ _ => completeScope w.db answers videoId parts
  | abortVideoUpload videoId abortOk _ => abortScope w.db videoId abortOk
  | publishPendingOutboxMessages _ _ _ _ => { Scope.none with rewritesOutbox := True }
  | _ => Scope.none

/-! ### The functions of the job service as chains of moves -/

section Chains

variable {w : World} {settings : Settings} {db' : Db} {jobId videoId renditionId newId : UUID}
  {workerId error reason : String} {outputPath : Option String}
  {metadata : Option VideoSourceMetadata} {checkedAt now staleBefore : Timestamp}
  {uploadOk : Bool}

theorem claim_chain {context : Option EncodingJobContext}
    (h : claimEncodingJob w.db jobId videoId renditionId workerId checkedAt now =
      .ok (db', context)) :
    ∃ es, Chain (SettleMove (claimScope w.db jobId workerId now)) w es { w with db := db' } ∧
      context.toList.map EncodingJobContext.jobId = grantedJobs es := by
  obtain ⟨loaded, hid, hcase⟩ := claimEncodingJob_eq_ok h
  rcases hcase with ⟨-, rfl, rfl⟩ | ⟨rfl, hset⟩ | ⟨rfl, hset⟩
  · exact ⟨[], Chain.nil _, rfl⟩
  · refine ⟨_, Chain.single (SettleMove.intro ?_ hset), rfl⟩
    exact ⟨rfl, hid, rfl, Or.inl rfl⟩
  · refine ⟨_, Chain.single (SettleMove.intro ?_ hset), rfl⟩
    exact ⟨rfl, hid, rfl, Or.inr rfl⟩

theorem heartbeat_chain {owned : Bool}
    (h : heartbeatEncodingJob w.db jobId workerId now = .ok (db', owned)) (scope : Scope) :
    Chain (Move scope) w [] { w with db := db' } := by
  obtain ⟨loaded, rfl, howned, rfl⟩ := heartbeatEncodingJob_eq_ok h
  cases owned with
  | false => exact Chain.nil _
  | true =>
    have hrun := (status_of_ownsRunningJob howned.symm).1
    exact Chain.single (Move.heartbeat now loaded.get?_job hrun)

theorem succeeded_chain {m : Marked Bool}
    (h : markEncodingJobSucceeded w.db jobId workerId outputPath metadata now uploadOk = .ok m) :
    ∃ es, Chain (SettleMove (markScope w.db jobId workerId fun o => o = .done outputPath now)) w es
      ⟨m.db, m.publication.store w.bucket⟩ ∧ grantedJobs es = [] := by
  obtain ⟨loaded, hid, ⟨-, rfl⟩ | ⟨ho, -, hset⟩⟩ := markEncodingJobSucceeded_eq_ok h
  · exact ⟨[], Chain.nil _, rfl⟩
  · refine ⟨_, Chain.single (SettleMove.intro ?_ hset), rfl⟩
    exact ⟨rfl, hid, ho, rfl, Or.inl rfl⟩

theorem skipped_chain {m : Marked Bool}
    (h : markEncodingJobSkipped w.db jobId reason workerId metadata now uploadOk = .ok m) :
    ∃ es, Chain (SettleMove (markScope w.db jobId workerId fun o => o = .skipped reason now)) w es
      ⟨m.db, m.publication.store w.bucket⟩ ∧ grantedJobs es = [] := by
  obtain ⟨loaded, hid, ⟨-, rfl⟩ | ⟨ho, -, hset⟩⟩ := markEncodingJobSkipped_eq_ok h
  · exact ⟨[], Chain.nil _, rfl⟩
  · refine ⟨_, Chain.single (SettleMove.intro ?_ hset), rfl⟩
    exact ⟨rfl, hid, ho, rfl, Or.inl rfl⟩

theorem failed_chain {m : Marked (Option Bool)}
    (h : markEncodingJobFailed settings w.db jobId error workerId newId now uploadOk = .ok m) :
    ∃ es, Chain (SettleMove (markScope w.db jobId workerId fun o =>
        (∃ nextRunAt, o = .retried error now nextRunAt) ∨ o = .failed error now)) w es
      ⟨m.db, m.publication.store w.bucket⟩ ∧ grantedJobs es = [] := by
  obtain ⟨loaded, hid, ⟨-, rfl⟩ | ⟨ho, -, hp, nextRunAt, -, hset⟩ | ⟨ho, -, hset⟩⟩ :=
    markEncodingJobFailed_eq_ok h
  · exact ⟨[], Chain.nil _, rfl⟩
  · refine ⟨[(loaded.jobId, .retried error now nextRunAt)], ?_, rfl⟩
    rw [hp]
    refine Chain.single (SettleMove.intro ?_ hset)
    exact ⟨rfl, hid, ho, Or.inl ⟨nextRunAt, rfl⟩, Or.inr ⟨error, now, nextRunAt, rfl⟩⟩
  · refine ⟨_, Chain.single (SettleMove.intro ?_ hset), rfl⟩
    exact ⟨rfl, hid, ho, Or.inr rfl, Or.inl rfl⟩

/-- **Reaping a batch** is settling its jobs one after another. The jobs still to
come are as the batch has found them. -/
theorem reapJobs_chain {db₀ : Db} {stale : List UUID} {newId : UUID → UUID} :
    ∀ {ids : List UUID} {w : World}, ids.Nodup → ids ⊆ stale →
      (∀ id ∈ ids, w.db.jobs.get? id = db₀.jobs.get? id ∧
        ∀ job, db₀.jobs.get? id = some job → job.status = .running) →
      reapJobs settings newId now ids w.db = .ok db' →
    ∃ es, Chain (SettleMove (reapScope db₀ stale)) w es { w with db := db' } ∧
      es.map Prod.fst = ids ∧ grantedJobs es = []
  | [], w, _, _, _, h => by
    rw [reapJobs, Except.ok.injEq] at h
    subst h
    exact ⟨[], Chain.nil _, rfl, rfl⟩
  | id :: ids, w, hnodup, hsub, hrun, h => by
    rw [reapJobs] at h
    cases h₁ : reapJob settings w.db id (newId id) now with
    | error e => rw [h₁] at h; cases h
    | ok db₁ =>
      simp only [h₁, bind, Except.bind] at h
      obtain ⟨hsame, hrunning⟩ := hrun id (by simp)
      obtain ⟨loaded, rfl, o, hset, ho⟩ := reapJob_eq_ok h₁ (by rw [hsame]; exact hrunning)
      have hscope : (reapScope db₀ stale).settles w.db loaded o none := by
        refine ⟨hsub (by simp), by rw [← hsame]; exact loaded.get?_job, rfl, ?_⟩
        rcases ho with ⟨hr, nextRunAt, -, rfl⟩ | ⟨hr, rfl⟩
        · exact Or.inl ⟨hr, now, nextRunAt, rfl⟩
        · exact Or.inr ⟨hr, now, rfl⟩
      have hgranted : grantedJobs [(loaded.jobId, o)] = [] := by
        rcases ho with ⟨-, nextRunAt, -, rfl⟩ | ⟨-, rfl⟩ <;> rfl
      rw [List.nodup_cons] at hnodup
      -- the jobs still to come are untouched, as no id comes twice
      obtain ⟨es, hes, hids, hg⟩ := reapJobs_chain (w := { w with db := db₁ }) hnodup.2
        (fun x hx => hsub (by simp [hx])) (fun x hx => by
          refine ⟨?_, (hrun x (by simp [hx])).2⟩
          rw [hset.jobs, Table.get?_modify_of_ne (by rintro rfl; exact hnodup.1 hx)]
          exact (hrun x (by simp [hx])).1) h
      refine ⟨[(loaded.jobId, o)] ++ es, Chain.cons (SettleMove.intro hscope hset) hes, ?_, ?_⟩
      · rw [List.map_append, hids]
        rfl
      · rw [grantedJobs_append, hgranted, hg, List.append_nil]

/-- The jobs of a batch are running, and each is in it once. -/
theorem mem_staleJobs {db : Db} {limit : ℕ} {locked : UUID → Bool} {id : UUID}
    (h : id ∈ staleJobs db staleBefore limit locked) :
    ∃ job, db.jobs.get? id = some job ∧ job.status = .running := by
  obtain ⟨p, hp, rfl⟩ := List.mem_map.mp h
  have hp := (List.mem_insertionSort _).mp (List.mem_of_mem_take hp)
  obtain ⟨hget, hcond⟩ := Table.mem_select.mp (show (p.1, p.2) ∈ _ from hp)
  simp only [Bool.and_eq_true, decide_eq_true_eq] at hcond
  exact ⟨p.2, hget, hcond.1.1⟩

theorem nodup_staleJobs (db : Db) (staleBefore : Timestamp) (limit : ℕ) (locked : UUID → Bool) :
    (staleJobs db staleBefore limit locked).Nodup := by
  refine List.Nodup.sublist (List.Sublist.map _ (List.take_sublist _ _)) ?_
  exact ((List.perm_insertionSort _ _).map Prod.fst).nodup_iff.mpr (Table.nodup_keys_select _ _)

theorem reap_chain {limit count : ℕ} {locked : UUID → Bool} {newId : UUID → UUID}
    (h : reapStaleEncodingJobs settings w.db staleBefore limit locked newId now =
      .ok (db', count)) :
    ∃ es, Chain (SettleMove (reapScope w.db (staleJobs w.db staleBefore limit locked))) w es
      { w with db := db' } ∧ es.map Prod.fst = staleJobs w.db staleBefore limit locked ∧
        grantedJobs es = [] := by
  rw [reapStaleEncodingJobs] at h
  cases h₁ : reapJobs settings newId now (staleJobs w.db staleBefore limit locked) w.db with
  | error e => simp [h₁, bind, Except.bind] at h
  | ok db₁ =>
    simp only [h₁, bind, Except.bind, pure, Except.pure, Except.ok.injEq, Prod.mk.injEq] at h
    obtain ⟨rfl, -⟩ := h
    refine reapJobs_chain (nodup_staleJobs _ _ _ _) (fun _ hx => hx) (fun id hid => ⟨rfl, ?_⟩) h₁
    intro job hj
    obtain ⟨job', hj', hrun⟩ := mem_staleJobs hid
    obtain rfl : job' = job := Option.some.inj (hj'.symm.trans hj)
    exact hrun

end Chains

/-! ### The other services as chains of moves -/

section Chains

variable {w : World} {scope : Scope}

theorem create_chain (bucket filename contentType : String) (sizeBytes partCount : ℤ)
    (upload : String → Option MultipartUpload) (ids : IdStream) (now : Timestamp) :
    Chain (Move scope) w [] { w with db := (createVideoUpload w.db bucket filename contentType
      sizeBytes partCount upload ids now).1 } := by
  rw [createVideoUpload]
  split
  · exact Chain.nil _
  split
  · exact Chain.nil _
  split
  · exact Chain.nil _
  split
  · exact Chain.nil _
  dsimp only
  split
  · rename_i videos sessions hv hs
    obtain ⟨hv', rfl⟩ := Table.insert?_eq_some_iff.mp hv
    obtain ⟨hs', rfl⟩ := Table.insert?_eq_some_iff.mp hs
    exact Chain.single (Move.created hv' hs' rfl rfl rfl rfl)
  · exact Chain.nil _

theorem complete_chain (hl : w.db.Linked) (settings : Settings) (answers : CompletionAnswers)
    (videoId : UUID) (parts : List CompletedUploadPart) (ids : IdStream)
    (uploadedAt completedAt : Timestamp) :
    Chain (Move (completeScope w.db answers videoId parts)) w [] { w with
      db := (completeVideoUpload settings w.db answers videoId parts ids uploadedAt
        completedAt).1 } := by
  rw [completeVideoUpload]
  split
  · exact Chain.nil _
  rename_i video hv
  split
  · exact Chain.nil _
  rename_i sessionId session hs
  have hopen := getActiveUploadSession_eq_ok hv hs
  split
  · exact Chain.nil _
  rename_i hparts
  split
  · rename_i e he
    exact Chain.single (Move.uploadFailed _
      (Or.inr ⟨rfl, sessionId, video, session, hopen, hparts, by rw [he]; exact nofun⟩) hopen)
  split
  · exact Chain.nil _
  · rename_i db' messageIds hf
    obtain ⟨works, hw, -⟩ := finishCompletion_eq_ok (hopen.renditionsOf_eq_nil hl) hf
    exact Chain.single (Move.completed (Or.inl rfl) hopen hw)

theorem abort_chain (videoId : UUID) (abortOk : Bool) (now : Timestamp) :
    Chain (Move (abortScope w.db videoId abortOk)) w [] { w with
      db := (abortVideoUpload w.db videoId abortOk now).1 } := by
  rw [abortVideoUpload]
  split
  · exact Chain.nil _
  rename_i video hv
  split
  · exact Chain.nil _
  rename_i sessionId session hs
  have hopen := getActiveUploadSession_eq_ok hv hs
  cases abortOk with
  | false =>
    exact Chain.single (Move.uploadFailed _
      (Or.inr ⟨rfl, rfl, sessionId, video, session, hopen⟩) hopen)
  | true => exact Chain.single (Move.aborted now (Or.inl rfl) hopen)

theorem toEncodingJobMessage_failedMessage (error : String) (m : OutboxMessage) :
    (failedMessage error m).toEncodingJobMessage = m.toEncodingJobMessage := rfl

theorem toEncodingJobMessage_afterPublish (answer : Except String Timestamp) (m : OutboxMessage) :
    (afterPublish answer m).toEncodingJobMessage = m.toEncodingJobMessage := by
  cases answer <;> rfl

/-- A pass keeps the ids of its rows, and what each row is the message of. -/
theorem publishRows_shape (session : PublisherSession) (rows : List (UUID × OutboxMessage)) :
    (publishRows session rows).1.map (fun p => (p.1, p.2.toEncodingJobMessage)) =
      rows.map fun p => (p.1, p.2.toEncodingJobMessage) := by
  rw [publishRows]
  cases session.openError with
  | some error => simp [toEncodingJobMessage_failedMessage]
  | none =>
    cases session.closeError with
    | some error =>
      simp [toEncodingJobMessage_failedMessage, toEncodingJobMessage_afterPublish]
    | none => simp [toEncodingJobMessage_afterPublish]

/-- The rows a pass selects are rows of the outbox, pending, of a job that is
pending and due. -/
theorem mem_publishableMessages {db : Db} {now : Timestamp} {choice : OutboxChoice}
    {locked : UUID → Bool} {mid : UUID} {m : OutboxMessage}
    (h : (mid, m) ∈ publishableMessages db now choice locked) :
    db.outboxMessages.get? mid = some m ∧ isPublishable db now m = true ∧ locked mid = false := by
  have hmem : (mid, m) ∈ (db.outboxMessages.select fun id message =>
      isPublishable db now message && !locked id) := by
    cases choice with
    | limit n => exact (List.mem_insertionSort _).mp (List.mem_of_mem_take h)
    | ids l => exact (List.mem_insertionSort _).mp (List.mem_of_mem_filter h)
  obtain ⟨hget, hcond⟩ := Table.mem_select.mp hmem
  simp only [Bool.and_eq_true, Bool.not_eq_true'] at hcond
  exact ⟨hget, hcond.1, hcond.2⟩

/-- Writing rows back keeps what they are the messages of. -/
theorem view_setOutboxRows {rows : List (UUID × OutboxMessage)} {db : Db}
    (h : ∀ p ∈ rows, db.outboxMessages.view OutboxMessage.toEncodingJobMessage p.1 =
      some p.2.toEncodingJobMessage) :
    (db.setOutboxRows rows).outboxMessages.view OutboxMessage.toEncodingJobMessage =
      db.outboxMessages.view OutboxMessage.toEncodingJobMessage := by
  rw [Db.setOutboxRows]
  generalize db.outboxMessages = t at h ⊢
  induction rows generalizing t with
  | nil => rfl
  | cons p rows ih =>
    have hp : (t.modify p.1 fun _ => p.2).view OutboxMessage.toEncodingJobMessage =
        t.view OutboxMessage.toEncodingJobMessage := by
      refine Table.view_modify fun v hv => ?_
      have hrow := h p (by simp)
      rw [Table.view_of_get? hv] at hrow
      exact (Option.some.inj hrow).symm
    rw [← hp]
    refine ih _ fun q hq => ?_
    rw [hp]
    exact h q (by simp [hq])

/-- What a pass writes back names the jobs that the selected rows name. -/
theorem view_publishRows {db : Db} {rows : List (UUID × OutboxMessage)}
    (h : ∀ p ∈ rows, db.outboxMessages.get? p.1 = some p.2) (session : PublisherSession) :
    ∀ p ∈ (publishRows session rows).1,
      db.outboxMessages.view OutboxMessage.toEncodingJobMessage p.1 =
        some p.2.toEncodingJobMessage := by
  intro p hp
  have hmem : (p.1, p.2.toEncodingJobMessage) ∈
      (publishRows session rows).1.map fun p => (p.1, p.2.toEncodingJobMessage) :=
    List.mem_map.mpr ⟨p, hp, rfl⟩
  rw [publishRows_shape] at hmem
  obtain ⟨q, hq, he⟩ := List.mem_map.mp hmem
  rw [Prod.mk.injEq] at he
  rw [← he.1, ← he.2]
  exact Table.view_of_get? (h q hq)

theorem publish_chain (hscope : scope.rewritesOutbox) (session : PublisherSession)
    (now : Timestamp) (choice : OutboxChoice) (locked : UUID → Bool) :
    Chain (Move scope) w [] { w with db := (publishPendingOutboxMessages w.db session now choice
      locked).1 } := by
  rw [publishPendingOutboxMessages]
  by_cases hrows : publishableMessages w.db now choice locked = []
  · simp only [if_pos hrows]
    exact Chain.nil _
  · simp only [if_neg hrows]
    exact Chain.single (Move.outbox hscope (view_setOutboxRows
      (view_publishRows (fun p hp => (mem_publishableMessages hp).1) session)))

end Chains

/-! ### Operations and runs -/

/-- **Every operation is a chain of moves** in its scope, and the claims it
grants are those that the chain tells. -/
theorem Op.exec_chain {w : World} (hl : w.db.Linked) (op : Op) :
    ∃ es, Chain (Move (op.scope w)) w es (op.exec w).1 ∧ (op.exec w).2 = grantedJobs es := by
  cases op with
  | createVideoUpload => exact ⟨[], create_chain _ _ _ _ _ _ _ _, rfl⟩
  | refreshVideoUpload => exact ⟨[], Chain.nil _, rfl⟩
  | completeVideoUpload => exact ⟨[], complete_chain hl _ _ _ _ _ _ _, rfl⟩
  | abortVideoUpload => exact ⟨[], abort_chain _ _ _, rfl⟩
  | claimEncodingJob jobId videoId renditionId workerId checkedAt now =>
    simp only [exec]
    split
    · rename_i h
      obtain ⟨es, hes, hg⟩ := claim_chain h
      exact ⟨es, hes.mono fun _ _ _ => SettleMove.move, hg⟩
    · exact ⟨[], Chain.nil _, rfl⟩
  | heartbeatEncodingJob jobId workerId now =>
    simp only [exec]
    split
    · rename_i h
      exact ⟨[], heartbeat_chain h _, rfl⟩
    · exact ⟨[], Chain.nil _, rfl⟩
  | markEncodingJobSucceeded jobId workerId outputPath metadata now uploadOk =>
    simp only [exec]
    split
    · rename_i h
      obtain ⟨es, hes, hg⟩ := succeeded_chain h
      exact ⟨es, hes.mono fun _ _ _ => SettleMove.move, hg.symm⟩
    · exact ⟨[], Chain.nil _, rfl⟩
  | markEncodingJobSkipped jobId reason workerId metadata now uploadOk =>
    simp only [exec]
    split
    · rename_i h
      obtain ⟨es, hes, hg⟩ := skipped_chain h
      exact ⟨es, hes.mono fun _ _ _ => SettleMove.move, hg.symm⟩
    · exact ⟨[], Chain.nil _, rfl⟩
  | markEncodingJobFailed settings jobId error workerId newId now uploadOk =>
    simp only [exec]
    split
    · rename_i h
      obtain ⟨es, hes, hg⟩ := failed_chain h
      exact ⟨es, hes.mono fun _ _ _ => SettleMove.move, hg.symm⟩
    · exact ⟨[], Chain.nil _, rfl⟩
  | reapStaleEncodingJobs settings staleBefore limit locked newId now =>
    simp only [exec]
    split
    · rename_i h
      obtain ⟨es, hes, -, hg⟩ := reap_chain h
      exact ⟨es, hes.mono fun _ _ _ => SettleMove.move, hg.symm⟩
    · exact ⟨[], Chain.nil _, rfl⟩
  | publishPendingOutboxMessages => exact ⟨[], publish_chain trivial _ _ _ _, rfl⟩

/-- The state of a run: the world, and the jobs whose claims have been granted,
in order. -/
structure Run where
  world : World
  granted : List UUID

/-- The run before any operation. -/
def Run.start : Run := ⟨World.empty, []⟩

/-- One operation of a run. -/
def Run.step (r : Run) (op : Op) : Option Run :=
  some ⟨(op.exec r.world).1, r.granted ++ (op.exec r.world).2⟩

/-- **The states of runs** whose operations meet a condition. -/
abbrev ReachableRun (guard : Run → Op → Prop) (r : Run) : Prop :=
  Reaches Run.step guard (· = Run.start) r

/-- Run a list of operations. -/
def Run.exec (r : Run) (ops : List Op) : Run :=
  ops.foldl (fun r op => ⟨(op.exec r.world).1, r.granted ++ (op.exec r.world).2⟩) r

/-- Every list of operations is a run. -/
theorem reaches_exec {start : Run → Prop} {r : Run} (h : Reaches Run.step Unguarded start r)
    (ops : List Op) : Reaches Run.step Unguarded start (r.exec ops) := by
  induction ops generalizing r with
  | nil => exact h
  | cons op ops ih => exact ih (Reaches.step h trivial rfl)

theorem ReachableRun.exec (ops : List Op) : ReachableRun Unguarded (Run.start.exec ops) := by
  have hstart : ReachableRun Unguarded Run.start := Reaches.start rfl
  exact reaches_exec hstart ops

/-- The references hold in every run. -/
theorem ReachableRun.linked {guard : Run → Op → Prop} {r : Run} (h : ReachableRun guard r) :
    r.world.db.Linked := by
  refine h.invariant (I := fun r => r.world.db.Linked) ?_ ?_
  · rintro _ rfl
    exact Db.Linked.empty
  · rintro s op _ hl - ⟨⟩
    obtain ⟨es, hes, -⟩ := op.exec_chain hl
    exact hes.keep (I := fun w => w.db.Linked) (fun _ _ _ hw hm => hm.linked hw) hl

/-- **The invariant rule for runs**: what holds of the empty world and is kept by
every move, with the claims it grants, holds in every run. -/
theorem ReachableRun.invariant {guard : Run → Op → Prop} {I : World → List UUID → Prop}
    (hstart : I World.empty [])
    (hmove : ∀ w e w' granted, w.db.Linked → I w granted → Move Scope.all w e w' →
      I w' (granted ++ grantedJobs e)) {r : Run} (h : ReachableRun guard r) :
    I r.world r.granted := by
  refine Reaches.invariant_of (J := fun r => r.world.db.Linked)
    (I := fun r => I r.world r.granted) (fun s hs => ReachableRun.linked hs) ?_ ?_ h
  · rintro _ rfl
    exact hstart
  · rintro s op _ hl hi - ⟨⟩
    obtain ⟨es, hes, hg⟩ := op.exec_chain hl
    have key := hes.keep_log
      (I := fun w log => w.db.Linked ∧ I w (s.granted ++ grantedJobs log)) (l := [])
      (fun w e w' log hw hm => ⟨hm.linked hw.1, by
        rw [grantedJobs_append, ← List.append_assoc]
        exact hmove w e w' _ hw.1 hw.2 hm.toAll⟩)
      ⟨hl, by simpa using hi⟩
    rw [List.nil_append, ← hg] at key
    exact key.2

/-! ### A run to look at -/

/-- The id with a number. -/
def sampleId (n : ℕ) : UUID := ⟨Fin.ofNat _ n⟩

/-- Three attempts, and half a minute before another. -/
def sampleSettings : Settings := ⟨3, .ok [30]⟩

/-- A video is uploaded: it has the id 0, its renditions the ids 10, 12, … and
its jobs the ids 11, 13, …, and the largest rendition comes first. -/
def sampleUpload : List Op :=
  [.createVideoUpload "media" "clip.mp4" "video/mp4" 10 1
      (fun key => some ⟨"media", key, "upload", []⟩) sampleId 0,
    .completeVideoUpload sampleSettings ⟨true, some (some ⟨10, some "video/mp4"⟩), true⟩
      (sampleId 0) [⟨1, "etag"⟩] (fun n => sampleId (10 + n)) 1 1]

/-- Its largest rendition is claimed by a worker. -/
def claimedRun : Run :=
  Run.start.exec (sampleUpload ++
    [.claimEncodingJob (sampleId 11) (sampleId 0) (sampleId 10) "worker" 2 2])

end RenditionPipeline
