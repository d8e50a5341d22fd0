import RenditionPipeline.Races.JobTransactions

/-!
# Pending jobs

A job that a transaction makes pending has its row of the outbox armed in the same
transaction, and a publishing pass commits a row as published over whatever has been
committed since it selected the row. Where transactions and passes overlap, the arming can
be lost in two ways. The pass may be the later one: the job has been claimed and armed
again under it, and the pass takes back the arming of which it knows nothing. Or the
transaction is: it has read the row while the pass was open, finds it pending, and so does
not write it, while the pass commits the row as published.

As long as neither happens, every pending job is queued or the broker has a message for it
(`RenditionPipeline.pending_job_remembered`). Whenever one of them does, a job is pending
and its row is not (`RenditionPipeline.JobRace.State.not_queued`), and if no message is left
from before, it is so for ever (`RenditionPipeline.forgotten_job`).
-/

namespace RenditionPipeline

/-! ### A transaction under way -/

/-- **A transaction under way and the committed rows**: it settles the jobs that it has
locked, which nobody else has written, the messages that it has read are still there, and
its worker is still with the message. -/
structure Underway (s : System) (t : JobTransaction) (log : List Settlement) : Prop where
  loaded : t.loaded.Linked
  jobs : log.map Prod.fst = t.jobs
  settles : Settles t.loaded log t.new
  job : ∀ jid ∈ t.jobs, s.db.jobs.get? jid = t.loaded.jobs.get? jid
  message : ∀ mid m, t.loaded.outboxMessages.get? mid = some m → ∃ m',
    s.db.outboxMessages.get? mid = some m' ∧ m'.toEncodingJobMessage = m.toEncodingJobMessage
  /-- A claim does not leave the job pending. -/
  worker : ∀ worker, t.worker = some worker → ∃ m phase connected,
    s.workers worker = .handling m phase connected ∧
      ((phase = .received ∧ ∃ o, (m.jobId, o) ∈ log ∧ o.isRetry = false) ∨
        phase.execution.isSome = true)

section Begin

variable {s : System} {t : JobTransaction}

/-- What a worker's transaction is made of. -/
theorem System.transaction_work {worker : String} {action : WorkerAction}
    (h : s.transaction (.work worker action) = some t) :
    ∃ m phase connected jobId r, s.workers worker = .handling m phase connected ∧
      phase.lockedJob m action = some jobId ∧
      workerStep s.db s.bucket (claims s.history) worker m phase action = some r ∧
      action.isBeat = false ∧ r.db.jobs.get? jobId ≠ s.db.jobs.get? jobId ∧
      t = ⟨some (worker, r.phase), [jobId], s.db, r.db, phase.publication s.db action, false,
        r.events⟩ := by
  simp only [System.transaction] at h
  split at h
  swap
  · cases h
  rename_i m phase connected hw
  split at h
  swap
  · cases h
  rename_i jobId r hlock hr
  split at h
  · cases h
  · rename_i hcond
    simp only [Bool.or_eq_true, decide_eq_true_eq, not_or, Bool.not_eq_true] at hcond
    exact ⟨m, phase, connected, jobId, r, hw, hlock, hr, hcond.1, hcond.2,
      (Option.some.inj h).symm⟩

/-- What a transaction of the reaper is made of. -/
theorem System.transaction_reap {settings : Settings} {staleBefore now : Timestamp} {limit : ℕ}
    {locked : UUID → Bool} {newId : UUID → UUID}
    (h : s.transaction (.reap settings staleBefore limit locked newId now) = some t) :
    ∃ db count, reapStaleEncodingJobs settings s.db staleBefore limit locked newId now =
        .ok (db, count) ∧
      t = ⟨none, staleJobs s.db staleBefore limit locked, s.db, db, .notReady, false,
        (staleJobs s.db staleBefore limit locked).map Event.reaped⟩ := by
  simp only [System.transaction] at h
  split at h
  · cases h
  · rename_i db count hreap
    exact ⟨db, count, hreap, (Option.some.inj h).symm⟩

/-- **A transaction that begins** settles the jobs that it locks. -/
theorem Underway.begun (hl : s.db.Linked) {a : Action} (h : s.transaction a = some t) :
    ∃ log, Underway s t log := by
  have hmessage : ∀ mid m, s.db.outboxMessages.get? mid = some m → ∃ m',
      s.db.outboxMessages.get? mid = some m' ∧
        m'.toEncodingJobMessage = m.toEncodingJobMessage := fun _ m hm => ⟨m, hm, rfl⟩
  cases a with
  | work worker action =>
    obtain ⟨m, phase, connected, jobId, r, hw, hlock, hr, hbeat, hne, rfl⟩ :=
      System.transaction_work h
    have hwrite := workerStep_jobWrite (w := s.world) hr
    obtain ⟨loaded, o, p, rfl, hs, hphase⟩ := hwrite.exists_settled hlock hbeat hne
    refine ⟨[(loaded.jobId, o)], hl, rfl, Settles.of_settled hl hs, fun _ _ => rfl, hmessage, ?_⟩
    intro worker' hworker
    obtain rfl : worker = worker' := Option.some.inj hworker
    refine ⟨m, phase, connected, hw, hphase.imp_left ?_⟩
    rintro ⟨hreceived, hid, ho⟩
    exact ⟨hreceived, o, by rw [hid]; exact List.mem_singleton_self _, ho⟩
  | reap settings staleBefore limit locked newId now =>
    obtain ⟨db, count, hreap, rfl⟩ := System.transaction_reap h
    obtain ⟨log, hlog, hb⟩ := reap_batch hl hreap
    exact ⟨log, hl, hlog, hb.toSettles, fun _ _ => rfl, hmessage, nofun⟩
  | _ => cases h

end Begin

/-! ### The commit of a transaction -/

/-- **A retry that does not see its row published**: the transaction has read the row of a job
that it arms again as pending, and so does not write its status, and a pass has committed
the row as published since. -/
def JobTransaction.missesPublication (t : JobTransaction) (db : Db) : Bool :=
  t.jobs.any fun jobId =>
    match t.new.jobs.get? jobId, t.loaded.outboxOf jobId with
    | some job, some (messageId, message) =>
      decide (job.status = .pending ∧ message.status = .pending) &&
        match db.outboxMessages.get? messageId with
        | some committed => decide (committed.status ≠ .pending)
        | none => false
    | _, _ => false

/-- How a worker goes on. -/
theorem goOn_of_handling {workers : String → Worker} {worker : String} {m : EncodingJobMessage}
    {phase : Phase} {connected : Bool} (hw : workers worker = .handling m phase connected)
    (phase' : Phase) : JobTransaction.goOn workers (some (worker, phase')) =
      Function.update workers worker (.handling m phase' connected) := by
  simp only [JobTransaction.goOn, hw]

namespace Underway

variable {s s' : System} {t : JobTransaction} {log : List Settlement}

/-- The jobs of the transaction are those that it settles. -/
theorem exists_outcome (h : Underway s t log) {jid : UUID} (hmem : jid ∈ t.jobs) :
    ∃ o, (jid, o) ∈ log := by
  rw [← h.jobs] at hmem
  obtain ⟨⟨jid, o⟩, hlog, rfl⟩ := List.mem_map.mp hmem
  exact ⟨o, hlog⟩

theorem mem_jobs (h : Underway s t log) {jid : UUID} {o : Outcome} (hlog : (jid, o) ∈ log) :
    jid ∈ t.jobs := by
  rw [← h.jobs]
  exact List.mem_map.mpr ⟨_, hlog, rfl⟩

/-- **A job that is locked is settled by the commit**, as it has been read. -/
theorem get?_job_of_mem (h : Underway s t log) {jid : UUID} {o : Outcome} (hlog : (jid, o) ∈ log) :
    ∃ job, t.loaded.jobs.get? jid = some job ∧ t.new.jobs.get? jid = some (o.job job) ∧
      s.db.jobs.get? jid = some job ∧ o.Enabled job ∧
      (t.commit s).db.jobs.get? jid = some (o.job job) := by
  obtain ⟨job, hj, he, hj'⟩ := h.settles.job_of_mem jid o hlog
  have hcommitted : s.db.jobs.get? jid = some job := (h.job jid (h.mem_jobs hlog)).trans hj
  refine ⟨job, hj, hj', hcommitted, he, ?_⟩
  refine (Table.get?_flush_of_some hj hj' hcommitted).trans ?_
  rw [o.flush_job]

/-- A job that is not locked stays. -/
theorem get?_job_of_not_mem (h : Underway s t log) {jid : UUID} (hmem : jid ∉ t.jobs) :
    (t.commit s).db.jobs.get? jid = s.db.jobs.get? jid :=
  Table.get?_flush_of_eq Job.flush_same (h.settles.job_of_not_mem jid (by rw [h.jobs]; exact hmem))

/-- **The commit keeps the shape.** -/
theorem sameShape_commit (h : Underway s t log) (hl : s.db.Linked) :
    SameShape s.db (t.commit s).db := by
  refine h.settles.sameShape.flush fun vid a b c ha hb hc => ?_
  rcases h.settles.video vid a b ha hb with rfl | ⟨hne, jid, job, hmem, hj, rfl⟩
  · rw [Video.flush_same]
  · -- the video of a job that is locked has renditions, and so its upload is over
    rw [h.jobs] at hmem
    obtain ⟨r, hr, hrv⟩ := hl.job_rendition jid job ((h.job jid hmem).trans hj)
    obtain ⟨c', hc', hup⟩ := hl.rendition_video _ _ hr
    rw [hrv] at hc'
    obtain rfl : c = c' := Option.some.inj (hc.symm.trans hc')
    rw [hup, Video.isUploading, decide_eq_false_iff_not]
    show Table.flushColumn a.status b.status c.status ≠ .uploading
    rw [Table.flushColumn]
    split
    · simpa [Video.isUploading] using hup
    · exact hne

/-- What the commit makes of a message: it may arm it, and does not touch it otherwise. -/
theorem get?_message (h : Underway s t log) {mid : UUID} {m' : OutboxMessage}
    (hm' : s.db.outboxMessages.get? mid = some m') :
    ∃ m'', (t.commit s).db.outboxMessages.get? mid = some m'' ∧
      m''.toEncodingJobMessage = m'.toEncodingJobMessage ∧
      (m'.status = .pending → m''.status = .pending) := by
  cases hm : t.loaded.outboxMessages.get? mid with
  | none =>
    exact ⟨m', Table.get?_flush_of_not_loaded hm hm', rfl, id⟩
  | some m =>
    have hnew : ∃ n, t.new.outboxMessages.get? mid = some n ∧ (n = m ∨ n = rearmedMessage m) := by
      by_cases hretry : ∃ o, (m.jobId, o) ∈ log ∧ o.isRetry = true
      · obtain ⟨o, hlog, ho⟩ := hretry
        exact ⟨_, h.settles.rearmed mid m o hm hlog ho, Or.inr rfl⟩
      · refine ⟨m, h.settles.message mid m hm fun o hlog => ?_, Or.inl rfl⟩
        by_contra ho
        exact hretry ⟨o, hlog, by simpa using ho⟩
    obtain ⟨n, hn, hcases⟩ := hnew
    refine ⟨_, Table.get?_flush_of_some hm hn hm', rfl, fun hp => ?_⟩
    show Table.flushColumn m.status n.status m'.status = .pending
    rw [Table.flushColumn]
    rcases hcases with rfl | rfl
    · rw [if_pos rfl, hp]
    · split
      · exact hp
      · rfl

/-- **A retry arms its row**, unless a publication of it has been missed. -/
theorem queued (h : Underway s t log) (hmisses : t.missesPublication s.db = false) {jid : UUID}
    {o : Outcome} (hlog : (jid, o) ∈ log) (hretry : o.isRetry = true) :
    (t.commit s).db.Queued jid := by
  obtain ⟨job, hj, hj', -⟩ := h.get?_job_of_mem hlog
  obtain ⟨mid, m, hof, hm, rfl⟩ := h.loaded.exists_outboxOf hj
  obtain ⟨m', hm', href⟩ := h.message mid m hm
  have hn := h.settles.rearmed mid m o hm hlog hretry
  refine ⟨mid, _, Table.get?_flush_of_some hm hn hm', congrArg EncodingJobMessage.jobId href, ?_⟩
  show Table.flushColumn m.status .pending m'.status = .pending
  rw [Table.flushColumn]
  split
  · rename_i hpending
    -- a row that was read as pending is still committed as pending
    have hjob : (o.job job).status = .pending := by
      cases o with
      | retried error now nextRunAt => rfl
      | _ => cases hretry
    have hkeeps := List.any_eq_false.mp hmisses _ (h.mem_jobs hlog)
    simp only [hj', hof, hm', hjob, ← hpending] at hkeeps
    simpa using hkeeps
  · rfl

/-- **The commit of a transaction forgets no job**, unless it has missed the publication of
a row that it arms. -/
theorem wakes (h : Underway s t log) (hmisses : t.missesPublication s.db = false) :
    Wakes s.db (t.commit s).db where
  job := by
    intro jid job job' hj hj'
    by_cases hmem : jid ∈ t.jobs
    · obtain ⟨o, hlog⟩ := h.exists_outcome hmem
      obtain ⟨job₁, -, -, hj₁, he, hj₂⟩ := h.get?_job_of_mem hlog
      obtain rfl : job = job₁ := Option.some.inj (hj.symm.trans hj₁)
      obtain rfl : job' = o.job job := Option.some.inj (hj'.symm.trans hj₂)
      exact ⟨he.follows, fun hp => Or.inl (h.queued hmisses hlog (Outcome.isRetry_of_pending hp))⟩
    · rw [h.get?_job_of_not_mem hmem, hj] at hj'
      obtain rfl := Option.some.inj hj'
      exact Wakes.job_heartbeat job job.heartbeatAt
  newJob := by
    intro jid job' hnone hj'
    by_cases hmem : jid ∈ t.jobs
    · obtain ⟨o, hlog⟩ := h.exists_outcome hmem
      obtain ⟨job, -, -, hj, -⟩ := h.get?_job_of_mem hlog
      rw [hnone] at hj
      cases hj
    · rw [h.get?_job_of_not_mem hmem, hnone] at hj'
      cases hj'
  message := fun mid m hm => h.get?_message hm

/-! ### The worker of a transaction -/

/-- **A transaction that ends** keeps the messages of the other workers. -/
theorem carries (h : Underway s t log) (hready : s'.ready = s.ready)
    (hnone : t.party = none → s'.workers = s.workers)
    (hself : ∀ worker m phase connected, t.worker = some worker →
      s.workers worker = .handling m phase connected → ∃ phase',
        s'.workers = Function.update s.workers worker (.handling m phase' connected) ∧
          (phase = .received → connected = true →
            phase' = .settling .requeue ∨
              ∀ job, s'.db.jobs.get? m.jobId = some job → job.status ≠ .pending)) :
    Carries s s' := by
  intro m' hm' _
  have hstays : ∀ m₁ ∈ s.ready, s'.Signalled m₁ := fun m₁ hm₁ => Or.inl (by rw [hready]; exact hm₁)
  cases hparty : t.party with
  | none =>
    rw [System.Signalled, hready, hnone hparty]
    exact Or.inl hm'
  | some p =>
    have hworker : t.worker = some p.1 := by rw [JobTransaction.worker, hparty, Option.map_some]
    obtain ⟨m, phase, connected, hw, hphase⟩ := h.worker p.1 hworker
    obtain ⟨phase', hworkers, hanswer⟩ := hself p.1 m phase connected hworker hw
    by_cases hmem : m' ∈ (s.workers p.1).unanswered
    swap
    · exact Or.inl (hm'.of_update hstays hworkers fun hself => absurd hself hmem)
    rw [hw] at hmem
    rcases Worker.mem_unanswered hmem with he | he
    · obtain ⟨rfl, rfl, rfl⟩ := Worker.handling.inj he
      rcases hanswer rfl rfl with rfl | hno
      · refine Or.inl (Or.inr ⟨p.1, ?_⟩)
        rw [hworkers, Function.update_self]
        exact List.mem_singleton_self _
      · exact Or.inr hno
    · -- a transaction is not that of a message that is given back
      obtain ⟨rfl, rfl, rfl⟩ := Worker.handling.inj he
      rcases hphase with ⟨hreceived, -⟩ | hsome
      · cases hreceived
      · cases hsome

/-- **A transaction that commits** answers its message only when its job is not pending. -/
theorem carries_commit (h : Underway s t log) : Carries s (t.commit s) := by
  refine h.carries rfl (fun hnone => ?_) fun worker m phase connected hworker hw => ?_
  · rw [JobTransaction.commit, hnone]
    rfl
  obtain ⟨⟨worker', phase'⟩, hparty, rfl⟩ := Option.map_eq_some_iff.mp hworker
  refine ⟨phase', ?_, fun hreceived _ => Or.inr fun job hj hp => ?_⟩
  · rw [JobTransaction.commit, hparty]
    exact goOn_of_handling hw phase'
  · obtain ⟨m₁, phase₁, connected₁, hw₁, hphase⟩ := h.worker worker' hworker
    obtain ⟨rfl, rfl, rfl⟩ := Worker.handling.inj (hw₁.symm.trans hw)
    subst hreceived
    rcases hphase with ⟨-, o, hlog, ho⟩ | hsome
    · obtain ⟨job₀, -, -, -, -, hj₀⟩ := h.get?_job_of_mem hlog
      obtain rfl : job = o.job job₀ := Option.some.inj (hj.symm.trans hj₀)
      rw [Outcome.isRetry_of_pending hp] at ho
      cases ho
    · cases hsome

/-- **A transaction that is rolled back** gives its message back. -/
theorem carries_rollback (h : Underway s t log) : Carries s (t.rollback s) := by
  refine h.carries rfl (fun hnone => ?_) fun worker m phase connected hworker hw => ?_
  · rw [JobTransaction.rollback, JobTransaction.worker, hnone]
    rfl
  · refine ⟨.settling .requeue, ?_, fun _ _ => Or.inl rfl⟩
    rw [JobTransaction.rollback, hworker]
    exact goOn_of_handling hw _

/-! ### Steps of others -/

/-- **A transaction under way under a step of another party**, which writes none of its
jobs, keeps the messages, and leaves its worker with its message. -/
theorem keep (h : Underway s t log)
    (hjob : ∀ jid ∈ t.jobs, s'.db.jobs.get? jid = s.db.jobs.get? jid)
    (hmessage : ∀ mid m, s.db.outboxMessages.get? mid = some m → ∃ m',
      s'.db.outboxMessages.get? mid = some m' ∧
        m'.toEncodingJobMessage = m.toEncodingJobMessage)
    (hworker : ∀ worker m phase connected, t.worker = some worker →
      s.workers worker = .handling m phase connected → (∀ action, phase ≠ .settling action) →
      ∃ connected', s'.workers worker = .handling m phase connected') :
    Underway s' t log where
  loaded := h.loaded
  jobs := h.jobs
  settles := h.settles
  job := fun jid hjid => (hjob jid hjid).trans (h.job jid hjid)
  message := by
    intro mid m hm
    obtain ⟨m', hm', href⟩ := h.message mid m hm
    obtain ⟨m'', hm'', href'⟩ := hmessage mid m' hm'
    exact ⟨m'', hm'', href'.trans href⟩
  worker := by
    intro worker hw
    obtain ⟨m, phase, connected, hhandling, hphase⟩ := h.worker worker hw
    obtain ⟨connected', hw'⟩ := hworker worker m phase connected hw hhandling fun action he => by
      subst he
      rcases hphase with ⟨hreceived, -⟩ | hsome
      · cases hreceived
      · cases hsome
    exact ⟨m, phase, connected', hw', hphase⟩

end Underway

/-- The reaper takes no job that is locked. -/
theorem not_locked_of_mem_staleJobs {db : Db} {staleBefore : Timestamp} {limit : ℕ}
    {locked : UUID → Bool} {id : UUID} (h : id ∈ staleJobs db staleBefore limit locked) :
    locked id = false := by
  obtain ⟨p, hp, rfl⟩ := List.mem_map.mp h
  have hp := (List.mem_insertionSort _).mp (List.mem_of_mem_take hp)
  obtain ⟨-, hcond⟩ := Table.mem_select.mp (show (p.1, p.2) ∈ _ from hp)
  simpa using (Bool.and_eq_true_iff.mp hcond).2

/-! ### Single steps beside transactions -/

section SingleSteps

variable {s s' : System} {a : Action}

/-- **A step that is no transaction on jobs** leaves every job whose row it does not
lock. -/
theorem System.step_get?_job (hl : s.db.Linked) (hstep : s.step a = some s')
    (hnone : s.transaction a = none) {jid : UUID} {job : Job}
    (hj : s.db.jobs.get? jid = some job)
    (hlock : ∀ worker action m phase connected, a = .work worker action →
      s.workers worker = .handling m phase connected → phase.lockedJob m action ≠ some jid) :
    s'.db.jobs.get? jid = some job := by
  obtain ⟨t, ht, rfl⟩ := System.step_cases hstep
  cases ht with
  | requested hop => exact get?_job_of_isUploadRequest hop (w := s.world) hl hj
  | worked =>
    obtain ⟨m, phase, connected, r, hw, hr, hdb, -⟩ := System.step_work hstep
    rw [hdb, (workerStep_jobWrite (w := s.world) hr).get?_job
      (hlock _ _ m phase connected rfl hw)]
    exact hj
  | committed =>
    rw [Pass.commit_eq]
    exact hj
  | reaped hreap =>
    simp only [System.transaction, hreap] at hnone
    cases hnone
  | _ => exact hj

/-- **A step keeps the messages** of the outbox. -/
theorem System.Stepped.get?_message (h : System.Stepped s a s') (hl : s.db.Linked) {mid : UUID}
    {m : OutboxMessage} (hm : s.db.outboxMessages.get? mid = some m) : ∃ m',
      s'.db.outboxMessages.get? mid = some m' ∧
        m'.toEncodingJobMessage = m.toEncodingJobMessage := by
  have hwakes : ∀ {db' : Db}, Wakes s.db db' → ∃ m', db'.outboxMessages.get? mid = some m' ∧
      m'.toEncodingJobMessage = m.toEncodingJobMessage := fun hw => by
    obtain ⟨m', hm', href, -⟩ := hw.message mid m hm
    exact ⟨m', hm', href⟩
  cases h with
  | requested hop => exact hwakes (Wakes.of_grown (Op.grown (w := s.world) hop hl))
  | worked hw hmove => exact hwakes (hmove.wakes hl)
  | @committed index openError closeError pass hpass hcomplete =>
    exact Table.get?_of_view_eq (pass.view_commit openError closeError s.db) hm
  | reaped hreap =>
    obtain ⟨log, -, hb⟩ := reap_batch hl hreap
    exact hwakes (Wakes.of_settles hl hb.toSettles)
  | _ => exact ⟨m, hm, rfl⟩

/-- **A worker that is not done with its message keeps it** under the steps of others,
though it may lose its connection. -/
theorem System.Stepped.handling (h : System.Stepped s a s') {worker : String}
    {m : EncodingJobMessage} {phase : Phase} {connected : Bool}
    (hw : s.workers worker = .handling m phase connected)
    (hphase : ∀ action, phase ≠ .settling action) (hown : ∀ action, a ≠ .work worker action)
    (hcrash : a ≠ .crash worker) :
    ∃ connected', s'.workers worker = .handling m phase connected' := by
  have hother : ∀ {worker' : String} {v : Worker}, worker ≠ worker' → ∃ connected',
      Function.update s.workers worker' v worker = .handling m phase connected' := fun hne =>
    ⟨connected, by rw [Function.update_of_ne hne]; exact hw⟩
  cases h with
  | @delivered worker' index m' hw' hready =>
    refine hother ?_
    rintro rfl
    rw [hw] at hw'
    cases hw'
  | @worked worker' m' phase' phase'' connected' action db' bucket' events hw' hmove =>
    refine hother ?_
    rintro rfl
    exact hown action rfl
  | @settled worker' m' action connected' hw' =>
    refine hother ?_
    rintro rfl
    obtain ⟨rfl, rfl, rfl⟩ := Worker.handling.inj (hw.symm.trans hw')
    exact hphase action rfl
  | @disconnected worker' m' phase' hw' =>
    by_cases hne : worker = worker'
    · subst hne
      obtain ⟨rfl, rfl, rfl⟩ := Worker.handling.inj (hw.symm.trans hw')
      exact ⟨false, Function.update_self worker _ s.workers⟩
    · exact hother hne
  | @crashed worker' =>
    refine hother ?_
    rintro rfl
    exact hcrash rfl
  | _ => exact ⟨connected, hw⟩

end SingleSteps

/-! ### The race -/

namespace JobTransaction

/-- Two transactions have locked no job and are of no worker in common. -/
def Apart (t t' : JobTransaction) : Prop :=
  (∀ jid ∈ t.jobs, jid ∉ t'.jobs) ∧ ∀ worker, t.worker = some worker → t'.worker ≠ some worker

theorem Apart.symm {t t' : JobTransaction} (h : t.Apart t') : t'.Apart t :=
  ⟨fun jid hjid hmem => h.1 jid hmem hjid, fun worker hw hw' => h.2 worker hw' hw⟩

end JobTransaction

namespace JobRace

/-- **A step of the race that forgets no job**: it reads the clock forwards, no pass
publishes a row that has been armed again since it has selected it, and no transaction
misses the publication of a row that it arms. -/
def Keeps (s : JobRace) : JobRaceStep → Prop
  | .one a => KeepsRearmed s.system a
  | .begin a => ClockForward s.system a
  | .commit index =>
    (s.transactions[index]?.any fun t => t.missesPublication s.system.db) = false
  | _ => True

/-- A step of the race that reads the clock forwards. -/
def Forward (s : JobRace) : JobRaceStep → Prop
  | .one a => ClockForward s.system a
  | .begin a => ClockForward s.system a
  | _ => True

instance (s : JobRace) : (a : JobRaceStep) → Decidable (s.Keeps a)
  | .one a => inferInstanceAs (Decidable (KeepsRearmed s.system a))
  | .begin a => inferInstanceAs (Decidable (ClockForward s.system a))
  | .commit index => inferInstanceAs (Decidable
    ((s.transactions[index]?.any fun t => t.missesPublication s.system.db) = false))
  | .upload _ => isTrue trivial
  | .rollback _ => isTrue trivial

instance (s : JobRace) : (a : JobRaceStep) → Decidable (s.Forward a)
  | .one a => inferInstanceAs (Decidable (ClockForward s.system a))
  | .begin a => inferInstanceAs (Decidable (ClockForward s.system a))
  | .commit _ => isTrue trivial
  | .upload _ => isTrue trivial
  | .rollback _ => isTrue trivial

/-- **No job is forgotten**, whatever is under way. -/
structure State (s : JobRace) : Prop where
  linked : s.system.db.Linked
  remembered : Remembered s.system
  apart : s.transactions.Pairwise JobTransaction.Apart
  underway : ∀ t ∈ s.transactions, ∃ log, Underway s.system t log

theorem State.start : State start where
  linked := Db.Linked.empty
  remembered := Remembered.start
  apart := List.Pairwise.nil
  underway := fun _ ht => absurd ht List.not_mem_nil

section Steps

variable {s : JobRace}

/-- What a step that is not blocked does not lock. -/
theorem lockedJob_ne {a : Action} (hfree : s.blocks a = false) {t : JobTransaction}
    (ht : t ∈ s.transactions) {worker : String} {action : WorkerAction} {m : EncodingJobMessage}
    {phase : Phase} {connected : Bool} (ha : a = .work worker action)
    (hw : s.system.workers worker = .handling m phase connected) :
    t.worker ≠ some worker ∧ ∀ jid ∈ t.jobs, phase.lockedJob m action ≠ some jid := by
  subst ha
  simp only [blocks, hw, Bool.or_eq_false_iff, List.any_eq_false, decide_eq_true_eq] at hfree
  refine ⟨hfree.1 t ht, fun jid hjid hlock => ?_⟩
  simp only [hlock, List.any_eq_false, decide_eq_true_eq] at hfree
  exact hfree.2 t ht hjid

/-- **A single step.** -/
theorem State.one (hs : State s) {a : Action} {system : System} (hkeeps : KeepsRearmed s.system a)
    (hfree : s.blocks a = false) (hnone : s.system.transaction a = none)
    (hstep : s.system.step a = some system) :
    State ⟨system, s.transactions.filter fun t => !ends t a⟩ := by
  obtain ⟨t', ht', rfl⟩ := System.step_cases hstep
  refine ⟨ht'.linked hs.linked, ht'.remembered hkeeps hs.linked hs.remembered,
    hs.apart.sublist List.filter_sublist, fun t hmem => ?_⟩
  obtain ⟨ht, hends⟩ := List.mem_filter.mp hmem
  obtain ⟨log, hunder⟩ := hs.underway t ht
  refine ⟨log, hunder.keep (fun jid hjid => ?_) (fun mid m hm => ?_) ?_⟩
  · obtain ⟨o, hlog⟩ := hunder.exists_outcome hjid
    obtain ⟨job, -, -, hj, -⟩ := hunder.get?_job_of_mem hlog
    rw [hj]
    exact System.step_get?_job hs.linked hstep hnone hj fun worker action m phase connected ha hw =>
      (lockedJob_ne hfree ht ha hw).2 jid hjid
  · exact ht'.get?_message hs.linked hm
  · intro worker m phase connected hworker hw hphase
    refine ht'.handling hw hphase ?_ ?_
    · rintro action rfl
      exact (lockedJob_ne hfree ht rfl hw).1 hworker
    · rintro rfl
      simp [ends, hworker] at hends

/-- **A transaction begins**, on rows that no other one has locked. -/
theorem apart_of_begin {a : Action} {t t' : JobTransaction} (hfree : s.blocks a = false)
    (ht : s.system.transaction a = some t) (ht' : t' ∈ s.transactions) : t.Apart t' := by
  cases a with
  | work worker action =>
    obtain ⟨m, phase, connected, jobId, r, hw, hlock, -, -, -, rfl⟩ := System.transaction_work ht
    obtain ⟨hworker, hjobs⟩ := lockedJob_ne hfree ht' rfl hw
    refine ⟨fun jid hjid hmem => ?_, fun worker' hw' => ?_⟩
    · obtain rfl := List.mem_singleton.mp hjid
      exact hjobs jid hmem hlock
    · obtain rfl : worker = worker' := Option.some.inj hw'
      exact hworker
  | reap settings staleBefore limit locked newId now =>
    obtain ⟨db, count, -, rfl⟩ := System.transaction_reap ht
    refine ⟨fun jid hjid hmem => ?_, fun worker hw => by cases hw⟩
    have hlocked : locked jid = true := by
      have hskips : ∀ jobId ∈ t'.jobs, locked jobId = true := by
        simpa using List.any_eq_false.mp hfree t' ht'
      exact hskips jid hmem
    rw [not_locked_of_mem_staleJobs hjid] at hlocked
    cases hlocked
  | _ => cases ht

theorem State.begun (hs : State s) {a : Action} {t : JobTransaction}
    (hclock : ClockForward s.system a) (hfree : s.blocks a = false)
    (ht : s.system.transaction a = some t) :
    State ⟨{ s.system with clock := a.readings.getLastD s.system.clock }, t :: s.transactions⟩ where
  linked := hs.linked
  remembered := hs.remembered.keep hs.linked (Wakes.refl _) hclock.le_clock
    (Carries.of_eq rfl rfl) rfl
  apart := List.pairwise_cons.mpr ⟨fun t' ht' => apart_of_begin hfree ht ht', hs.apart⟩
  underway := by
    refine List.forall_mem_cons.mpr ⟨?_, fun t' ht' => ?_⟩
    · obtain ⟨log, hunder⟩ := Underway.begun hs.linked ht
      exact ⟨log, { hunder with }⟩
    · obtain ⟨log, hunder⟩ := hs.underway t' ht'
      exact ⟨log, { hunder with }⟩

/-- **A transaction uploads.** -/
theorem State.uploaded (hs : State s) {index : ℕ} {t : JobTransaction}
    (ht : s.transactions[index]? = some t) :
    State {
      system := { s.system with bucket := t.publication.store s.system.bucket }
      transactions := s.transactions.set index { t with uploaded := true } } where
  linked := hs.linked
  remembered := hs.remembered.keep hs.linked (Wakes.refl _) le_rfl (Carries.of_eq rfl rfl) rfl
  apart := pairwise_set (f := fun t : JobTransaction => (t.jobs, t.worker))
    (R := fun p q => (∀ jid ∈ p.1, jid ∉ q.1) ∧ ∀ worker, p.2 = some worker → q.2 ≠ some worker)
    hs.apart ht rfl
  underway := by
    intro t' ht'
    rcases (List.mem_or_eq_of_mem_set ht').symm with rfl | ht'
    · obtain ⟨log, hunder⟩ := hs.underway t (List.mem_of_getElem? ht)
      exact ⟨log, { hunder with }⟩
    · obtain ⟨log, hunder⟩ := hs.underway t' ht'
      exact ⟨log, { hunder with }⟩

/-- **A transaction ends** and leaves those of the others under way. -/
theorem State.ended (hs : State s) {index : ℕ} {t : JobTransaction}
    (ht : s.transactions[index]? = some t) {system : System}
    (hlinked : system.db.Linked) (hremembered : Remembered system)
    (hjob : ∀ jid, jid ∉ t.jobs → system.db.jobs.get? jid = s.system.db.jobs.get? jid)
    (hmessage : ∀ mid m, s.system.db.outboxMessages.get? mid = some m → ∃ m',
      system.db.outboxMessages.get? mid = some m' ∧
        m'.toEncodingJobMessage = m.toEncodingJobMessage)
    (hworkers : ∀ worker, t.worker ≠ some worker →
      system.workers worker = s.system.workers worker) :
    State ⟨system, s.transactions.eraseIdx index⟩ where
  linked := hlinked
  remembered := hremembered
  apart := hs.apart.sublist (List.eraseIdx_sublist _ _)
  underway := by
    intro t' ht'
    have hapart : t.Apart t' := rel_of_mem_eraseIdx JobTransaction.Apart.symm hs.apart ht ht'
    obtain ⟨log, hunder⟩ := hs.underway t' (List.mem_of_mem_eraseIdx ht')
    refine ⟨log, hunder.keep (fun jid hjid => hjob jid fun hmem => hapart.1 jid hmem hjid)
      hmessage fun worker m phase connected hworker hw _ => ⟨connected, ?_⟩⟩
    rw [hworkers worker fun hself => hapart.2 worker hself hworker]
    exact hw

theorem goOn_of_ne {workers : String → Worker} {party : Option (String × Phase)} {worker : String}
    (hne : party.map Prod.fst ≠ some worker) :
    JobTransaction.goOn workers party worker = workers worker := by
  cases party with
  | none => rfl
  | some p =>
    obtain ⟨worker', phase⟩ := p
    cases hw : workers worker' with
    | handling m phase' connected =>
      rw [goOn_of_handling hw, Function.update_of_ne fun he => hne (congrArg some he.symm)]
    | _ => simp only [JobTransaction.goOn, hw]

/-- **A transaction commits.** -/
theorem State.committed (hs : State s) {index : ℕ} {t : JobTransaction}
    (ht : s.transactions[index]? = some t)
    (hmisses : t.missesPublication s.system.db = false) :
    State ⟨t.commit s.system, s.transactions.eraseIdx index⟩ := by
  obtain ⟨log, hunder⟩ := hs.underway t (List.mem_of_getElem? ht)
  refine hs.ended ht (hs.linked.of_sameShape (hunder.sameShape_commit hs.linked)) ?_
    (fun jid hjid => hunder.get?_job_of_not_mem hjid) (fun mid m hm => ?_)
    fun worker hne => goOn_of_ne hne
  · exact hs.remembered.keep hs.linked (hunder.wakes hmisses) le_rfl hunder.carries_commit rfl
  · obtain ⟨m', hm', href, -⟩ := hunder.get?_message hm
    exact ⟨m', hm', href⟩

/-- **A transaction is rolled back.** -/
theorem State.rolledBack (hs : State s) {index : ℕ} {t : JobTransaction}
    (ht : s.transactions[index]? = some t) :
    State ⟨t.rollback s.system, s.transactions.eraseIdx index⟩ := by
  obtain ⟨log, hunder⟩ := hs.underway t (List.mem_of_getElem? ht)
  refine hs.ended ht hs.linked ?_ (fun _ _ => rfl) (fun _ m hm => ⟨m, hm, rfl⟩) fun worker hne => ?_
  · exact hs.remembered.keep hs.linked (Wakes.refl _) le_rfl hunder.carries_rollback rfl
  · refine goOn_of_ne ?_
    rw [Option.map_map]
    simpa using hne

end Steps

/-- **Every step of the race that forgets no job** keeps the state. -/
theorem State.step {s s' : JobRace} (hs : State s) {a : JobRaceStep} (hkeeps : s.Keeps a)
    (hstep : s.step a = some s') : State s' := by
  cases a with
  | one a =>
    simp only [JobRace.step] at hstep
    split at hstep
    · cases hstep
    rename_i hcond
    simp only [Bool.or_eq_true, not_or, Bool.not_eq_true, Option.isSome_eq_false_iff,
      Option.isNone_iff_eq_none] at hcond
    obtain ⟨system, hsystem, rfl⟩ := Option.map_eq_some_iff.mp hstep
    exact hs.one hkeeps hcond.1 hcond.2 hsystem
  | begin a =>
    simp only [JobRace.step] at hstep
    split at hstep
    · cases hstep
    rename_i hfree
    obtain ⟨t, ht, rfl⟩ := Option.map_eq_some_iff.mp hstep
    exact hs.begun hkeeps (by simpa using hfree) ht
  | upload index =>
    simp only [JobRace.step] at hstep
    split at hstep
    · cases hstep
    · rename_i t ht
      obtain rfl := Option.some.inj hstep
      exact hs.uploaded ht
  | commit index =>
    simp only [JobRace.step] at hstep
    split at hstep
    · cases hstep
    rename_i t ht
    split at hstep
    · obtain rfl := Option.some.inj hstep
      rw [Keeps, ht, Option.any_some] at hkeeps
      exact hs.committed ht hkeeps
    · cases hstep
  | rollback index =>
    simp only [JobRace.step] at hstep
    split at hstep
    · cases hstep
    · rename_i t ht
      obtain rfl := Option.some.inj hstep
      exact hs.rolledBack ht

end JobRace

/-- The states of the races whose steps meet a condition. -/
abbrev ReachableJobRace (guard : JobRace → JobRaceStep → Prop) (s : JobRace) : Prop :=
  Reaches JobRace.step guard (· = JobRace.start) s

theorem ReachableJobRace.state {s : JobRace} (h : ReachableJobRace JobRace.Keeps s) : s.State := by
  refine Reaches.invariant ?_ (fun _ _ _ hs hkeeps hstep => hs.step hkeeps hstep) h
  rintro _ rfl
  exact JobRace.State.start

/-- **No job is forgotten**: in every race in which no pass publishes a row that has been
armed again since it has selected it, and no retry misses the publication of a row that it
arms, every pending job is queued, or the broker has a message for it. This holds while
passes and transactions are under way, too. -/
theorem pending_job_remembered {s : JobRace} (h : ReachableJobRace JobRace.Keeps s) (jid : UUID)
    (job : Job) (hj : s.system.db.jobs.get? jid = some job) (hp : job.status = .pending) :
    s.system.db.Queued jid ∨ s.system.Unsettled ⟨jid, job.videoId, job.renditionId⟩ :=
  (h.state.remembered.pending jid job hj hp).imp_right fun ⟨_, hs⟩ => hs.unsettled

/-! ### What is lost otherwise -/

/-- **A retry that has missed the publication of its row** leaves its job pending and not
queued. -/
theorem Underway.not_queued {s : System} {t : JobTransaction} {log : List Settlement}
    (h : Underway s t log) (hl : s.db.Linked) (hmisses : t.missesPublication s.db = true) :
    ∃ jid job, (t.commit s).db.jobs.get? jid = some job ∧ job.status = .pending ∧
      ¬ (t.commit s).db.Queued jid := by
  have hlinked : (t.commit s).db.Linked := hl.of_sameShape (h.sameShape_commit hl)
  obtain ⟨jid, hjid, hmissed⟩ := List.any_eq_true.mp hmisses
  obtain ⟨o, hlog⟩ := h.exists_outcome hjid
  obtain ⟨job, hj, hnew, -, -, hcommitted⟩ := h.get?_job_of_mem hlog
  obtain ⟨mid, m, hof, hm, rfl⟩ := h.loaded.exists_outboxOf hj
  obtain ⟨m', hm', href⟩ := h.message mid m hm
  simp only [hnew, hof, hm', Bool.and_eq_true, decide_eq_true_eq] at hmissed
  obtain ⟨⟨hpending, hread⟩, hpublished⟩ := hmissed
  refine ⟨m.jobId, _, hcommitted, hpending, ?_⟩
  rintro ⟨mid', m'', hm'', hmj, hp⟩
  have hn := h.settles.rearmed mid m o hm hlog (Outcome.isRetry_of_pending hpending)
  have hflush : (t.commit s).db.outboxMessages.get? mid = some _ :=
    Table.get?_flush_of_some hm hn hm'
  obtain rfl : mid' = mid := hlinked.outbox_unique _ _ _ _ hm'' hflush
    (hmj.trans (congrArg EncodingJobMessage.jobId href).symm)
  obtain rfl := Option.some.inj (hm''.symm.trans hflush)
  -- the row was read as pending, so its status is not written
  have hstatus : Table.flushColumn m.status .pending m'.status = .pending := hp
  rw [hread, Table.flushColumn_same] at hstatus
  exact hpublished hstatus

/-- **Every other step that reads the clock forwards leaves a pending job that is not
queued.** -/
theorem JobRace.State.not_queued {s s' : JobRace} (hs : s.State) {a : JobRaceStep}
    (hclock : s.Forward a) (hkeeps : ¬ s.Keeps a) (hstep : s.step a = some s') :
    ∃ jid job, s'.system.db.jobs.get? jid = some job ∧ job.status = .pending ∧
      ¬ s'.system.db.Queued jid := by
  cases a with
  | one a =>
    have hpublishes : publishesRearmed s.system a = true := by
      by_contra hno
      exact hkeeps ⟨hclock, by simpa using hno⟩
    simp only [JobRace.step] at hstep
    split at hstep
    · cases hstep
    obtain ⟨system, hsystem, rfl⟩ := Option.map_eq_some_iff.mp hstep
    obtain ⟨t, ht, rfl⟩ := System.step_cases hsystem
    exact ht.not_queued hs.linked hs.remembered hpublishes
  | commit index =>
    simp only [JobRace.step] at hstep
    split at hstep
    · cases hstep
    rename_i t ht
    split at hstep
    · obtain rfl := Option.some.inj hstep
      obtain ⟨log, hunder⟩ := hs.underway t (List.mem_of_getElem? ht)
      rw [Keeps, ht, Option.any_some, Bool.not_eq_false] at hkeeps
      exact hunder.not_queued hs.linked hkeeps
    · cases hstep
  | begin a => exact absurd hclock hkeeps
  | upload index => exact absurd trivial hkeeps
  | rollback index => exact absurd trivial hkeeps

/-- A publishing pass has sent the message of the first job of an upload. -/
def sampleSent : List JobRaceStep :=
  sampleUpload.map (fun op => .one (.request op)) ++
    [.one (.openPass 2 (.limit 1)), .one (.publish 0 (.ok 2) true)]

/-- A worker takes the message, claims the job, and its processor raises. -/
def sampleAttempt : List JobRaceStep :=
  [.one (.deliver "first" 0), .begin (.work "first" (.claim 3 3)), .upload 0, .commit 0,
    .one (.work "first" (.raised "no space"))]

/-- It begins to record the failure. -/
def sampleRetry : JobRaceStep :=
  .begin (.work "first" (.fail sampleSettings (sampleId 30) 4 true true))

/-- A job whose attempt fails after its message has been committed as published. -/
theorem pending_job_remembered_retried :
    ∃ s job, ReachableJobRace JobRace.Keeps s ∧ s.system.db.jobs.get? (sampleId 11) = some job ∧
      job.status = .pending ∧ job.attemptCount = 1 ∧
      (s.system.db.Queued (sampleId 11) ∨
        s.system.Unsettled ⟨sampleId 11, job.videoId, job.renditionId⟩) := by
  obtain ⟨s, hs⟩ : ∃ s, guardedRun JobRace.step JobRace.Keeps JobRace.start
      (sampleSent ++ [.one (.commitPass 0 none none)] ++ sampleAttempt ++
        [sampleRetry, .upload 0, .commit 0, .one (.settle "first")]) = some s := ⟨_, rfl⟩
  have hstart : ReachableJobRace JobRace.Keeps JobRace.start := Reaches.start rfl
  have hreach := hstart.of_guardedRun hs
  obtain rfl := Option.some.inj hs
  exact ⟨_, _, hreach, rfl, rfl, rfl, pending_job_remembered hreach _ _ rfl rfl⟩

/-- **A job is forgotten**: a pass sends its message, a worker takes it at once and
fails the attempt, which arms the row again, and then the pass commits the row as
published. The job is pending, and neither a row nor a message is left for it. -/
theorem forgotten_job :
    ¬ ∀ s, ReachableJobRace JobRace.Forward s → s.system.passes = [] → ∀ jid job,
      s.system.db.jobs.get? jid = some job → job.status = .pending →
        s.system.db.Queued jid ∨ ∃ m, m.jobId = jid ∧ s.system.Unsettled m := by
  intro h
  -- in the end no row of the job is pending, and the one worker has done with its message
  obtain ⟨s, hs, hrows, v₁, v₂, v₃, v₄, hworkers⟩ : ∃ s,
      guardedRun JobRace.step JobRace.Forward JobRace.start
        (sampleSent ++ sampleAttempt ++ [sampleRetry, .upload 0, .commit 0, .one (.settle "first"),
          .one (.commitPass 0 none none)]) = some s ∧
      (s.system.db.outboxMessages.rows.all fun q =>
        q.2.jobId ≠ sampleId 11 || q.2.status ≠ .pending) = true ∧
      ∃ v₁ v₂ v₃ v₄ : Worker, s.system.workers =
        Function.update (Function.update (Function.update (Function.update (Function.update
          System.start.workers "first" v₁) "first" v₂) "first" v₃) "first" v₄) "first" .idle :=
    ⟨_, rfl, rfl, _, _, _, _, rfl⟩
  have hidle : ∀ w, s.system.workers w = .idle := fun w => by
    simp only [hworkers, Function.update_idem]
    exact congrFun (Function.update_eq_self "first" System.start.workers) w
  have hstart : ReachableJobRace JobRace.Forward JobRace.start := Reaches.start rfl
  have hremembered := h s (hstart.of_guardedRun hs)
  obtain rfl := Option.some.inj hs
  rcases hremembered rfl (sampleId 11) _ rfl rfl with ⟨mid, m, hm, hj, hp⟩ | ⟨m, -, hm | ⟨w, hw⟩⟩
  · simpa [hj, hp] using List.all_eq_true.mp hrows _ (Table.get?_eq_some_iff.mp hm)
  · cases hm
  · rw [hidle w] at hw
    cases hw

-- a retry that begins under the pass and commits after it forgets the job, too
example : (guardedRun JobRace.step JobRace.Keeps JobRace.start
      (sampleSent ++ sampleAttempt ++ [sampleRetry, .one (.commitPass 0 none none),
        .upload 0])).map (fun s => decide (s.Keeps (.commit 0))) = some false := rfl

end RenditionPipeline
