import RenditionPipeline.Runs.Operations
import RenditionPipeline.Services.Backoff

/-!
# Scheduling retries

A failed attempt that is not the last goes back to the queue with the instant of its next
run, and so do the stale jobs of a batch of the reaper. Both ask for the delay inside their
transaction, so that a text of `JOB_RETRY_BACKOFF_SECONDS` that is accepted and gives no
delay takes the transaction down with it: the job stays as it is, and with the reaper the
whole batch (`RenditionPipeline.retry_scheduled_iff`).

Where the delay is there, nothing else stands in the way. The rows of a job can be loaded and
its message armed again whenever the references of the schema hold, and a job that is settled
leaves the other jobs of the batch alone (`RenditionPipeline.exists_reapJobs`).
-/

namespace RenditionPipeline

/-- **A job is back in the queue**: pending, with a next run not before the end of the
attempt that has failed. -/
def Requeued (db : Db) (jobId : UUID) (now : Timestamp) : Prop :=
  ∃ job nextRunAt, db.jobs.get? jobId = some job ∧ job.status = .pending ∧
    job.finishedAt = some now ∧ job.nextRunAt = some nextRunAt ∧ now ≤ nextRunAt

section Transactions

variable {settings : Settings} {db db' : Db} {jobId : UUID} {now nextRunAt : Timestamp}

/-- A message of a job that is there can be armed again. -/
theorem exists_queueJobForPublish (hl : db.Referenced) (loaded : LoadedJob db) (newId : UUID)
    (now : Timestamp) :
    ∃ db', queueJobForPublish db loaded.jobId loaded.job newId now = .ok db' := by
  obtain ⟨mid, m, hm, -⟩ := hl.exists_outboxOf loaded.get?_job
  rw [queueJobForPublish]
  rw [hm]
  exact ⟨_, rfl⟩

/-- **Nothing but the delay stands in the way of a retry.** -/
theorem exists_retryJob (hl : db.Referenced) {loaded : LoadedJob db} (error : String)
    (newId : UUID) (hs : scheduleRetry settings loaded.job now = .ok nextRunAt) :
    ∃ db', retryJob settings db loaded.ref loaded.job error newId now = .ok db' := by
  obtain ⟨db₁, hq⟩ := exists_queueJobForPublish hl loaded newId now
  have hq : queueJobForPublish db loaded.ref.jobId loaded.job newId now = .ok db₁ := hq
  rw [retryJob, hs]
  simp only [bind, Except.bind, hq]
  exact ⟨_, rfl⟩

end Transactions

/-! ### The batch of the reaper -/

section Reaping

variable {settings : Settings} {now : Timestamp}

/-- A job is reaped unless it is to be retried and the retry cannot be scheduled. -/
theorem exists_reapJob {db : Db} (hl : db.Referenced) {id : UUID} {job : Job}
    (hj : db.jobs.get? id = some job) (newId : UUID)
    (h : shouldRetry job = true → ∃ nextRunAt, scheduleRetry settings job now = .ok nextRunAt) :
    ∃ db', reapJob settings db id newId now = .ok db' := by
  obtain ⟨loaded, hload, -, rfl⟩ := hl.exists_loaded hj
  rw [reapJob, hload]
  simp only [bind, Except.bind]
  split_ifs with hretry
  · obtain ⟨nextRunAt, hs⟩ := h hretry
    exact exists_retryJob hl heartbeatTimedOut newId hs
  · exact ⟨_, rfl⟩

/-- **What is left of a job that has been reaped**, and of everything else: the references
hold on, the other jobs are as they were, and a retry has its instant. -/
structure Reaped (settings : Settings) (now : Timestamp) (db : Db) (id : UUID) (job : Job)
    (db' : Db) : Prop where
  referenced : db'.Referenced
  others : ∀ id', id' ≠ id → db'.jobs.get? id' = db.jobs.get? id'
  retried : shouldRetry job = true → ∃ nextRunAt,
    scheduleRetry settings job now = .ok nextRunAt ∧
      db'.jobs.get? id = some (retriedJob heartbeatTimedOut now nextRunAt job)

theorem reaped_of_reapJob {db db' : Db} (hl : db.Referenced) {id newId : UUID} {job : Job}
    (hj : db.jobs.get? id = some job) (hrun : job.status = .running)
    (h : reapJob settings db id newId now = .ok db') : Reaped settings now db id job db' := by
  have hstatus : ∀ job', db.jobs.get? id = some job' → job'.status = .running := fun job' hj' => by
    rw [← Option.some.inj (hj.symm.trans hj')]
    exact hrun
  obtain ⟨loaded, rfl, o, hset, ho⟩ := reapJob_eq_ok h hstatus
  have hjob : loaded.job = job := Option.some.inj (loaded.get?_job.symm.trans hj)
  refine ⟨hl.of_sameShape (hset.sameShape hl), fun _ hne => hset.get?_job_of_ne hne, ?_⟩
  intro hretry
  rcases ho with ⟨-, nextRunAt, hs, rfl⟩ | ⟨hnot, -⟩
  · refine ⟨nextRunAt, by rw [← hjob]; exact hs, ?_⟩
    rw [hset.get?_job_self, hjob]
    rfl
  · rw [hjob, hretry] at hnot
    cases hnot

/-- Some jobs are running, as those before the reaper are. -/
def AllRunning (db : Db) (ids : List UUID) : Prop :=
  ∀ id ∈ ids, ∃ job, db.jobs.get? id = some job ∧ job.status = .running

/-- The jobs still to come are running after one of the batch has been reaped. -/
theorem AllRunning.tail {db db' : Db} {id : UUID} {ids : List UUID} {job : Job}
    (h : AllRunning db (id :: ids)) (hid : id ∉ ids) (hr : Reaped settings now db id job db') :
    AllRunning db' ids := by
  intro id' hid'
  obtain ⟨job', hj', hrun'⟩ := h id' (List.mem_cons_of_mem _ hid')
  refine ⟨job', ?_, hrun'⟩
  rw [hr.others id' (by rintro rfl; exact hid hid'), hj']

/-- **A batch is reaped** when every retry in it can be scheduled. -/
theorem exists_reapJobs {newId : UUID → UUID} {ids : List UUID} :
    ∀ {db : Db}, db.Referenced → ids.Nodup → AllRunning db ids →
      (∀ id ∈ ids, ∀ job, db.jobs.get? id = some job → shouldRetry job = true →
        ∃ nextRunAt, scheduleRetry settings job now = .ok nextRunAt) →
    ∃ db', reapJobs settings newId now ids db = .ok db' := by
  induction ids with
  | nil =>
    intro db _ _ _ _
    exact ⟨db, rfl⟩
  | cons id ids ih =>
    intro db hl hnodup hrunning hs
    rw [List.nodup_cons] at hnodup
    obtain ⟨job, hj, hrun⟩ := hrunning id List.mem_cons_self
    obtain ⟨db₁, h₁⟩ := exists_reapJob hl hj (newId id) (hs id List.mem_cons_self job hj)
    have hreaped := reaped_of_reapJob hl hj hrun h₁
    -- the jobs still to come are the ones the batch has found
    obtain ⟨db', h'⟩ := ih hreaped.referenced hnodup.2 (hrunning.tail hnodup.1 hreaped) (by
      intro id' hid' job' hj'
      rw [hreaped.others id' (by rintro rfl; exact hnodup.1 hid')] at hj'
      exact hs id' (List.mem_cons_of_mem _ hid') job' hj')
    refine ⟨db', ?_⟩
    rw [reapJobs, h₁]
    exact h'

/-- **What a batch leaves behind**: the jobs that are not in it, and of those in it that are
to be retried, each with the instant of its next run. -/
theorem retried_of_reapJobs {newId : UUID → UUID} {db' : Db} {ids : List UUID} :
    ∀ {db : Db}, db.Referenced → ids.Nodup → AllRunning db ids →
      reapJobs settings newId now ids db = .ok db' →
    (∀ id, id ∉ ids → db'.jobs.get? id = db.jobs.get? id) ∧
      ∀ id ∈ ids, ∀ job, db.jobs.get? id = some job → shouldRetry job = true →
        ∃ nextRunAt, scheduleRetry settings job now = .ok nextRunAt ∧
          db'.jobs.get? id = some (retriedJob heartbeatTimedOut now nextRunAt job) := by
  induction ids with
  | nil =>
    intro db _ _ _ h
    rw [reapJobs, Except.ok.injEq] at h
    subst h
    exact ⟨fun _ _ => rfl, fun _ hid => by cases hid⟩
  | cons id ids ih =>
    intro db hl hnodup hrunning h
    rw [List.nodup_cons] at hnodup
    rw [reapJobs] at h
    cases h₁ : reapJob settings db id (newId id) now with
    | error e => rw [h₁] at h; cases h
    | ok db₁ =>
      rw [h₁] at h
      obtain ⟨job, hj, hrun⟩ := hrunning id List.mem_cons_self
      have hreaped := reaped_of_reapJob hl hj hrun h₁
      obtain ⟨hothers, hretried⟩ :=
        ih hreaped.referenced hnodup.2 (hrunning.tail hnodup.1 hreaped) h
      refine ⟨fun id' hid' => ?_, fun id' hid' job' hj' hretry => ?_⟩
      · rw [List.mem_cons, not_or] at hid'
        rw [hothers id' hid'.2, hreaped.others id' hid'.1]
      · rcases List.mem_cons.mp hid' with rfl | hmem
        · obtain rfl : job = job' := Option.some.inj (hj.symm.trans hj')
          rw [hothers id' hnodup.1]
          exact hreaped.retried hretry
        · refine hretried id' hmem job' ?_ hretry
          rw [hreaped.others id' (by rintro rfl; exact hnodup.1 hmem), hj']

end Reaping

/-! ### Retries under a text of the settings -/

section Configured

variable {raw : String} {retryCount : ℕ} {db : Db} {jobId : UUID} {job : Job} {now : Timestamp}

/-- A row with the instant of its next run has gone back to the queue. -/
theorem requeued_of_get? {error : String} {nextRunAt : Timestamp}
    (hj : db.jobs.get? jobId = some (retriedJob error now nextRunAt job))
    (hs : scheduleRetry (settingsOf retryCount raw) job now = .ok nextRunAt) :
    Requeued db jobId now := by
  obtain ⟨-, rfl⟩ := scheduleRetry_eq_ok_iff.mp hs
  exact ⟨_, _, hj, rfl, rfl, rfl, le_add_of_nonneg_right (seconds_clampedEntry_nonneg _ _)⟩

/-- **A failed attempt goes back to the queue** just when its retry can be scheduled. -/
theorem markEncodingJobFailed_requeues_iff (hl : db.Referenced)
    (hj : db.jobs.get? jobId = some job) {workerId : String}
    (ho : ownsRunningJob job workerId = true) (hretry : job.attemptCount < job.maxAttempts)
    {error : String} {newId : UUID} {uploadOk : Bool} :
    (∃ m, markEncodingJobFailed (settingsOf retryCount raw) db jobId error workerId newId now
        uploadOk = .ok m ∧ m.result = some true ∧ Requeued m.db jobId now) ↔
      Schedulable raw job.attemptCount now := by
  have hshould : shouldRetry job = true := decide_eq_true hretry
  constructor
  · rintro ⟨m, hm, hresult, -⟩
    obtain ⟨loaded, rfl, h⟩ := markEncodingJobFailed_eq_ok hm
    obtain rfl : loaded.job = job := Option.some.inj (loaded.get?_job.symm.trans hj)
    rcases h with ⟨hnot, -⟩ | ⟨-, -, -, nextRunAt, hs, -⟩ | ⟨-, hfalse, -⟩
    · rw [ho] at hnot
      cases hnot
    · exact (scheduleRetry_eq_ok_iff.mp hs).1
    · rw [hfalse] at hresult
      cases hresult
  · intro h
    have hs : scheduleRetry (settingsOf retryCount raw) job now = .ok _ :=
      scheduleRetry_eq_ok_iff.mpr ⟨h, rfl⟩
    obtain ⟨loaded, hload, rfl, rfl⟩ := hl.exists_loaded hj
    obtain ⟨db', hdb'⟩ := exists_retryJob hl error newId hs
    have hrun : loaded.job.status = .running := (status_of_ownsRunningJob ho).1
    obtain ⟨nextRunAt, hs', hset⟩ := retryJob_eq_ok hrun hshould hdb'
    refine ⟨⟨db', some true, .notReady⟩, ?_, rfl, requeued_of_get? hset.get?_job_self hs'⟩
    rw [markEncodingJobFailed, hload]
    simp only [bind, Except.bind, if_pos ho, if_pos hshould, hdb']
    rfl

/-- The retries among some jobs can all be scheduled. -/
def AllSchedulable (raw : String) (db : Db) (now : Timestamp) (ids : List UUID) : Prop :=
  ∀ id ∈ ids, ∀ job, db.jobs.get? id = some job → job.attemptCount < job.maxAttempts →
    Schedulable raw job.attemptCount now

/-- The jobs among some that had attempts left are all back in the queue. -/
def AllRequeued (db db' : Db) (now : Timestamp) (ids : List UUID) : Prop :=
  ∀ id ∈ ids, ∀ job, db.jobs.get? id = some job → job.attemptCount < job.maxAttempts →
    Requeued db' id now

/-- **The reaper commits its batch** just when every retry in it can be scheduled. -/
theorem reapStaleEncodingJobs_requeues_iff (hl : db.Referenced) {staleBefore : Timestamp}
    {limit : ℕ} {locked : UUID → Bool} {newId : UUID → UUID} :
    (∃ db' count, reapStaleEncodingJobs (settingsOf retryCount raw) db staleBefore limit locked
        newId now = .ok (db', count) ∧
        AllRequeued db db' now (staleJobs db staleBefore limit locked)) ↔
      AllSchedulable raw db now (staleJobs db staleBefore limit locked) := by
  have hnodup := nodup_staleJobs db staleBefore limit locked
  have hrunning : AllRunning db (staleJobs db staleBefore limit locked) := fun _ hid =>
    mem_staleJobs hid
  constructor
  · rintro ⟨db', count, h, -⟩ id hid job hj hretry
    rw [reapStaleEncodingJobs] at h
    cases h₁ : reapJobs (settingsOf retryCount raw) newId now
        (staleJobs db staleBefore limit locked) db with
    | error e => simp [h₁, bind, Except.bind] at h
    | ok db₁ =>
      obtain ⟨nextRunAt, hs, -⟩ := (retried_of_reapJobs hl hnodup hrunning h₁).2 id hid job hj
        (decide_eq_true hretry)
      exact (scheduleRetry_eq_ok_iff.mp hs).1
  · intro h
    obtain ⟨db', h'⟩ : ∃ db', reapJobs (settingsOf retryCount raw) newId now
        (staleJobs db staleBefore limit locked) db = .ok db' :=
      exists_reapJobs hl hnodup hrunning fun id hid job hj hretry =>
        ⟨_, scheduleRetry_eq_ok_iff.mpr ⟨h id hid job hj (of_decide_eq_true hretry), rfl⟩⟩
    refine ⟨db', (staleJobs db staleBefore limit locked).length, ?_,
      fun id hid job hj hretry => ?_⟩
    · rw [reapStaleEncodingJobs, h']
      rfl
    · obtain ⟨nextRunAt, hs, hget⟩ := (retried_of_reapJobs hl hnodup hrunning h').2 id hid job hj
        (decide_eq_true hretry)
      exact requeued_of_get? hget hs

/-- **Retries are scheduled just as far as the text goes.** For every text of
`JOB_RETRY_BACKOFF_SECONDS`: an attempt gets the delay that counts for it just when the text
is usable for it; a failed attempt with attempts left goes back to the queue, and a batch of
stale jobs is committed with all of its retries, just when these can be scheduled. -/
theorem retry_scheduled_iff (raw : String) (retryCount : ℕ) :
    (∀ attemptCount, (∃ delay,
        retryBackoffForAttempt (settingsOf retryCount raw) attemptCount = .ok delay ∧ 0 ≤ delay ∧
          delay = seconds (clampedEntry (backoffEntries raw) attemptCount)) ↔
      Usable raw attemptCount) ∧
    (∀ (db : Db) (jobId : UUID) (job : Job) (error workerId : String) (newId : UUID)
        (now : Timestamp) (uploadOk : Bool), db.Referenced → db.jobs.get? jobId = some job →
        ownsRunningJob job workerId = true → job.attemptCount < job.maxAttempts →
      ((∃ m, markEncodingJobFailed (settingsOf retryCount raw) db jobId error workerId newId now
          uploadOk = .ok m ∧ m.result = some true ∧ Requeued m.db jobId now) ↔
        Schedulable raw job.attemptCount now)) ∧
    ∀ (db : Db) (staleBefore now : Timestamp) (limit : ℕ) (locked : UUID → Bool)
        (newId : UUID → UUID), db.Referenced →
      ((∃ db' count, reapStaleEncodingJobs (settingsOf retryCount raw) db staleBefore limit locked
          newId now = .ok (db', count) ∧
          AllRequeued db db' now (staleJobs db staleBefore limit locked)) ↔
        AllSchedulable raw db now (staleJobs db staleBefore limit locked)) := by
  refine ⟨fun attemptCount => ⟨?_, fun h => ?_⟩, ?_, ?_⟩
  · rintro ⟨delay, hdelay, -⟩
    exact (retryBackoffForAttempt_eq_ok_iff.mp hdelay).1
  · exact ⟨_, retryBackoffForAttempt_eq_ok_iff.mpr ⟨h, rfl⟩, seconds_clampedEntry_nonneg _ _, rfl⟩
  · intro db jobId job error workerId newId now uploadOk hl hj ho hretry
    exact markEncodingJobFailed_requeues_iff hl hj ho hretry
  · intro db staleBefore now limit locked newId hl
    exact reapStaleEncodingJobs_requeues_iff hl

end Configured

theorem retry_scheduled_iff_default : ∃ m,
    markEncodingJobFailed (settingsOf 3 "30,120,600") claimedRun.world.db (sampleId 11) "stalled"
      "worker" (sampleId 99) 5 true = .ok m ∧ m.result = some true ∧
        Requeued m.db (sampleId 11) 5 :=
  ((retry_scheduled_iff "30,120,600" 3).2.1 _ _ _ _ _ _ _ _
    (ReachableRun.exec _).linked.toReferenced rfl rfl
    (by decide)).mpr ⟨⟨by decide, by decide⟩, by decide⟩

/-- **A unit makes every retry fail.** With `30s` for `JOB_RETRY_BACKOFF_SECONDS` there is no
delay for the first attempt, and neither the worker that reports the failure of a claimed job
nor the reaper can conclude it. -/
theorem delay_with_unit :
    retryBackoffForAttempt (settingsOf 3 "30s") 1 = .error invalidLiteral ∧
    markEncodingJobFailed (settingsOf 3 "30s") claimedRun.world.db (sampleId 11) "stalled"
      "worker" (sampleId 99) 5 true = .error invalidLiteral ∧
    reapStaleEncodingJobs (settingsOf 3 "30s") claimedRun.world.db 9 5 (fun _ => false) id 10 =
      .error invalidLiteral :=
  ⟨rfl, rfl, rfl⟩

end RenditionPipeline
