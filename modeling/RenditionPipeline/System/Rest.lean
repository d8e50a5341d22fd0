import RenditionPipeline.System.Attempt

/-!
# Coming to rest

Left to the services alone – the publisher, the reaper and the workers, without another
request, but with the losses that may happen to them – every state can come to one in which
all jobs are over, save those that are forgotten
(`RenditionPipeline.services_come_to_rest`). So the rounds of the reaper and of the publisher
are enough to recover from any loss of workers, connections and passes; what they cannot undo
is a job that has been forgotten.

Three things are done in turn: the open passes are rolled back, the reaper takes every running
job back once its heartbeat has timed out, and then the pending jobs are brought to their end
one by one. A job whose row is still to be sent is published, in as many rounds as there are
older rows before it; a message that a worker holds is given back by the loss of the worker;
and a message that is delivered leads to an attempt that goes through. None of this forgets
another job (`RenditionPipeline.Recalls`).
-/

namespace RenditionPipeline

/-- **No more jobs are forgotten** than before. -/
def Recalls (s t : System) : Prop := ∀ jobId, t.Forgotten jobId → s.Forgotten jobId

theorem Recalls.trans {s t u : System} (h : Recalls s t) (h' : Recalls t u) : Recalls s u :=
  fun jobId hf => h jobId (h' jobId hf)

/-- No job is running. -/
def Db.NoneRuns (db : Db) : Prop :=
  ∀ jobId job, db.jobs.get? jobId = some job → job.status ≠ .running

/-! ### The messages that are left -/

section Addressed

variable {s t : System} {a : Action}

/-- Every message that is left is that of a row of the outbox. -/
def System.Addressed (s : System) : Prop :=
  ∀ m, s.HasMessage m → ∃ mid row, s.db.outboxMessages.get? mid = some row ∧
    row.toEncodingJobMessage = m

/-- The rows of the outbox stay, and name the jobs they named. -/
theorem System.Stepped.message_kept (h : System.Stepped s a t) (hl : s.db.Linked) {mid : UUID}
    {row : OutboxMessage} (hrow : s.db.outboxMessages.get? mid = some row) :
    ∃ row', t.db.outboxMessages.get? mid = some row' ∧
      row'.toEncodingJobMessage = row.toEncodingJobMessage := by
  have hwakes : Wakes s.db t.db → ∃ row', t.db.outboxMessages.get? mid = some row' ∧
      row'.toEncodingJobMessage = row.toEncodingJobMessage := fun hw => by
    obtain ⟨row', hrow', href, -⟩ := hw.message mid row hrow
    exact ⟨row', hrow', href⟩
  cases h with
  | requested hop => exact hwakes (Wakes.of_grown (Op.grown (w := s.world) hop hl))
  | worked hw hmove => exact hwakes (hmove.wakes hl)
  | reaped hreap =>
    obtain ⟨log, -, hb⟩ := reap_batch hl hreap
    exact hwakes (Wakes.of_settles hl hb.toSettles)
  | @committed index openError closeError pass hpass hcomplete =>
    exact Table.get?_of_view_eq (Pass.view_commit openError closeError s.db) hrow
  | _ => exact hwakes (Wakes.refl _)

theorem ReachableSystem.addressed {guard : System → Action → Prop}
    (h : ReachableSystem guard s) : s.Addressed := by
  refine Reaches.invariant_of (J := fun s => s.db.Linked ∧ PassesLock s) (I := System.Addressed)
    (fun _ hs => ⟨ReachableSystem.linked hs, ReachableSystem.passesLock hs⟩) ?_ ?_ h
  · rintro _ rfl m (hm | ⟨w, hm⟩) <;> cases hm
  · rintro s a _ ⟨hl, hp⟩ hi - hstep m hm
    obtain ⟨t, ht, rfl⟩ := System.step_cases hstep
    obtain ⟨mid, row, hrow, rfl⟩ : ∃ mid row, s.db.outboxMessages.get? mid = some row ∧
        row.toEncodingJobMessage = m := by
      rcases ht.hasMessage hm with hm | ⟨pass, hpass, p, hp', rfl⟩
      · exact hi m hm
      · obtain ⟨row, hrow, href, -⟩ := hp.pending pass hpass p hp'
        exact ⟨p.1, row, hrow, href⟩
    obtain ⟨row', hrow', href⟩ := ht.message_kept hl hrow
    exact ⟨mid, row', hrow', href⟩

/-- A message that is left is that of a job. -/
theorem System.Addressed.exists_job (h : s.Addressed) (hl : s.db.Linked) {m : EncodingJobMessage}
    (hm : s.HasMessage m) : ∃ job, s.db.jobs.get? m.jobId = some job ∧ m.Matches job := by
  obtain ⟨mid, row, hrow, rfl⟩ := h m hm
  exact hl.outbox_job mid row hrow

end Addressed

/-! ### No job is forgotten on the way -/

section Recalling

variable {s t : System}

/-- A transaction that forgets no job, and leaves all messages. -/
theorem Recalls.of_wakes (hw : Wakes s.db t.db)
    (hmessages : ∀ m, s.HasMessage m → t.HasMessage m) : Recalls s t := by
  rintro jobId ⟨⟨job', hj', hpending⟩, hq, hno⟩
  cases hj : s.db.jobs.get? jobId with
  | none => exact absurd (hw.newJob jobId job' hj hj') hq
  | some job =>
    rcases (hw.job jobId job job' hj hj').2 hpending with hq' | ⟨hpending₀, -⟩
    · exact absurd hq' hq
    · exact ⟨⟨job, hj, hpending₀⟩, fun hq₀ => hq (hw.queued hq₀),
        fun ⟨m, hm, hleft⟩ => hno ⟨m, hm, hmessages m hleft⟩⟩

/-- A job is brought to its end. -/
theorem BroughtToEnd.recalls {jobId : UUID} (hc : BroughtToEnd s jobId t) : Recalls s t := by
  rintro jid ⟨⟨job, hj, hpending⟩, hq, hno⟩
  obtain ⟨last, hlast, hactive⟩ := hc.ended
  have hne : jid ≠ jobId := by
    rintro rfl
    rw [← Option.some.inj (hj.symm.trans hlast), hpending] at hactive
    cases hactive
  rw [hc.others jid hne] at hj
  refine ⟨⟨job, hj, hpending⟩, ?_, ?_⟩
  · rintro ⟨mid, m, hm, hmj, hp⟩
    exact hq ⟨mid, m, (hc.messages mid).trans hm, hmj, hp⟩
  · rintro ⟨m, rfl, hm⟩
    exact hno ⟨m, rfl, hc.kept m hne hm⟩

/-- A round of the publisher. -/
theorem PublishRound.recalls {rows : List (UUID × OutboxMessage)}
    (hr : PublishRound s rows t) (hrows : ∀ p ∈ rows, s.db.outboxMessages.get? p.1 = some p.2) :
    Recalls s t := by
  rintro jid ⟨⟨job, hj, hpending⟩, hq, hno⟩
  rw [hr.jobs] at hj
  refine ⟨⟨job, hj, hpending⟩, ?_, ?_⟩
  · rintro ⟨mid, m, hm, rfl, hp⟩
    by_cases hmem : mid ∈ rows.map Prod.fst
    · obtain ⟨p, hp', rfl⟩ := List.mem_map.mp hmem
      obtain rfl : p.2 = m := Option.some.inj ((hrows p hp').symm.trans hm)
      exact hno ⟨_, rfl, Or.inl (hr.sent p hp')⟩
    · exact hq ⟨mid, m, (hr.kept mid hmem).trans hm, rfl, hp⟩
  · rintro ⟨m, rfl, hm | ⟨w, hm⟩⟩
    · exact hno ⟨m, rfl, Or.inl (hr.ready hm)⟩
    · exact hno ⟨m, rfl, Or.inr ⟨w, by rw [hr.workers]; exact hm⟩⟩

end Recalling

/-- **A state with no pass open**, on a clock that goes forwards, in which no more jobs are
forgotten than in the one before. -/
structure Quiet (s₀ s : System) : Prop where
  reachable : ReachableSystem Timely s
  recalls : Recalls s₀ s
  passes : s.passes = []

/-- The services go on. -/
theorem Quiet.leads {l : Loops} {s₀ s t : System} (h : Quiet s₀ s)
    (hst : Leads System.step (Serviced l) s t) (hrecalls : Recalls s t) (hpasses : t.passes = []) :
    Quiet s₀ t :=
  ⟨Leads.reaches hst Serviced.timely h.reachable, h.recalls.trans hrecalls, hpasses⟩

/-- How many jobs have a status. -/
def Db.countJobs (db : Db) (status : ProcessingStatus) : ℕ :=
  (db.jobs.select fun _ job => job.status = status).length

/-- How many rows of the outbox are to be sent. -/
def Db.countPending (db : Db) : ℕ :=
  (db.outboxMessages.select fun _ m => m.status = .pending).length

/-- A job is due at some instant that is not earlier than a given one. -/
theorem Job.exists_isDue (job : Job) (instant : Timestamp) :
    ∃ now, instant ≤ now ∧ job.IsDue now := by
  refine ⟨max instant (job.nextRunAt.getD instant), le_max_left _ _, fun at' hat => ?_⟩
  rw [hat]
  exact le_max_right _ _

section Phases

variable {l : Loops} {s₀ s : System}

/-! ### The passes are rolled back -/

theorem leads_abandoned (l : Loops) (s : System) :
    Leads System.step (Serviced l) s { s with passes := [] } := by
  obtain ⟨db, bucket, ready, workers, passes, history, clock⟩ := s
  induction passes with
  | nil => exact Leads.refl _
  | cons pass passes ih =>
    refine Leads.trans (Leads.single (a := .abandonPass 0) ?_ rfl) ih
    exact Serviced.of_forward (by simp [ClockForward, Action.readings]) rfl trivial trivial

/-- **The passes can be rolled back**, and no job is forgotten by that. -/
theorem exists_quiet (l : Loops) (hs : ReachableSystem Timely s) :
    ∃ t, Leads System.step (Serviced l) s t ∧ Quiet s t ∧ t.clock = s.clock := by
  have hleads := leads_abandoned l s
  exact ⟨_, hleads, ⟨Leads.reaches hleads Serviced.timely hs,
    Recalls.of_wakes (Wakes.refl _) fun _ hm => hm, rfl⟩, rfl⟩

/-! ### The running jobs are reaped -/

/-- A job that runs is stale once its heartbeat has timed out. -/
theorem staleJobs_ne_nil {db : Db} {instant staleBefore : Timestamp}
    (hc : db.Coherent) (hbeats : db.HeartbeatsBy instant) (hlate : instant < staleBefore)
    {jobId : UUID} {job : Job} (hj : db.jobs.get? jobId = some job)
    (hrun : job.status = .running) :
    staleJobs db staleBefore reapLimit (fun _ => false) ≠ [] := by
  obtain ⟨b, hb⟩ := Option.isSome_iff_exists.mp ((hc.owned jobId job hj).heartbeatAt.mpr hrun)
  intro hnil
  rw [staleJobs, List.map_eq_nil_iff, List.take_eq_nil_iff] at hnil
  rcases hnil with hnil | hnil
  · cases hnil
  · have hnone := List.eq_nil_iff_forall_not_mem.mp hnil (jobId, job)
    rw [List.mem_insertionSort, Table.mem_select] at hnone
    exact hnone ⟨hj, by simp [hrun, hb, (hbeats jobId job b hj hb).trans_lt hlate]⟩

/-- A batch of the reaper leaves fewer jobs running. -/
theorem Batch.countJobs_lt {db db' : Db} {log : List Settlement} (h : Batch db log db')
    (hne : log ≠ []) : db'.countJobs .running < db.countJobs .running := by
  have hnot : ∀ jid o job, (jid, o) ∈ log → (o.job job).status ≠ .running := by
    intro jid o job hlog
    rcases h.outcome jid o hlog with ⟨error, now, nextRunAt, rfl⟩ | ⟨error, now, rfl⟩ <;>
      exact nofun
  obtain ⟨⟨jobId, o⟩, hlog⟩ := List.exists_mem_of_ne_nil log hne
  obtain ⟨job, hj, he, hj'⟩ := h.job_of_mem jobId o hlog
  refine Table.length_select_lt ?_ hj (by simpa using (h.outcome jobId o hlog).running he) ?_
  · intro jid job' hget hrun
    rcases h.get?_job hget with ⟨-, o', job₀, hlog', -, -, rfl⟩ | ⟨-, hget⟩
    · exact absurd (of_decide_eq_true hrun) (hnot jid o' job₀ hlog')
    · exact ⟨job', hget, hrun⟩
  · intro job' hget
    obtain rfl := Option.some.inj (hget.symm.trans hj')
    exact decide_eq_false (hnot jobId o job hlog)

/-- **The reaper takes all running jobs back**, once the timeout has passed and retries can be
scheduled. -/
theorem exists_reaped (l : Loops) (hs : Quiet s₀ s)
    (hretry : l.CanRetry (s.clock + l.staleTimeout + 1)) :
    ∃ t, Leads System.step (Serviced l) s t ∧ Quiet s₀ t ∧ t.db.NoneRuns := by
  have htimeout : 0 ≤ l.staleTimeout := by
    rw [Loops.staleTimeout, seconds]
    exact mul_nonneg (Int.natCast_nonneg _) (by decide)
  have hbeats : s.db.HeartbeatsBy s.clock :=
    ReachableSystem.heartbeatsBy (hs.reachable.mono (fun _ _ h => h.1) fun _ h => h)
  have hround : ∀ t : System, (Quiet s₀ t ∧ t.db.HeartbeatsBy s.clock ∧
      t.clock ≤ s.clock + l.staleTimeout + 1) → ¬ t.db.NoneRuns →
      ∃ u, Leads System.step (Serviced l) t u ∧ (Quiet s₀ u ∧ u.db.HeartbeatsBy s.clock ∧
        u.clock ≤ s.clock + l.staleTimeout + 1) ∧
        u.db.countJobs .running < t.db.countJobs .running := by
    rintro t ⟨hquiet, hbeats, hclock⟩ hrun
    simp only [Db.NoneRuns, not_forall, not_not] at hrun
    obtain ⟨jobId, job, hj, hrun⟩ := hrun
    have hl := ReachableSystem.linked hquiet.reachable
    obtain ⟨u, log, htu, hlog, hbatch, hready, hworkers, hpasses, hnow⟩ :=
      exists_reapRound l hl hclock le_rfl hretry
    have hne : log ≠ [] := by
      rintro rfl
      exact staleJobs_ne_nil (ReachableSystem.coherent hquiet.reachable) hbeats (by linarith) hj
        hrun hlog.symm
    have hwakes := Wakes.of_settles hl hbatch.toSettles
    have hrecalls : Recalls t u := Recalls.of_wakes hwakes fun m hm => by
      rw [System.HasMessage, hready, hworkers]
      exact hm
    exact ⟨u, htu, ⟨hquiet.leads htu hrecalls (hpasses.trans hquiet.passes),
      hbeats.batch hbatch, hnow.le⟩, hbatch.countJobs_lt hne⟩
  obtain ⟨t, hst, ⟨hquiet, -⟩, hrest⟩ :=
    Leads.exists_of_measure _ hround ⟨hs, hbeats, by linarith⟩
  exact ⟨t, hst, hquiet, hrest⟩

/-! ### A pending job is published -/

/-- A row that is to be sent is published by a query that comes late enough. -/
theorem publishableMessages_ne_nil {db : Db} {now : Timestamp} {n : ℕ} (hn : 1 ≤ n) {mid : UUID}
    {row : OutboxMessage} (hrow : db.outboxMessages.get? mid = some row)
    (hp : row.status = .pending) {job : Job} (hj : db.jobs.get? row.jobId = some job)
    (hclaimable : isClaimable job now = true) :
    publishableMessages db now (.limit n) (fun _ => false) ≠ [] := by
  intro hnil
  rw [publishableMessages, List.take_eq_nil_iff] at hnil
  rcases hnil with hnil | hnil
  · omega
  · have hnone := List.eq_nil_iff_forall_not_mem.mp hnil (mid, row)
    rw [List.mem_insertionSort, Table.mem_select] at hnone
    exact hnone ⟨hrow, by simp [isPublishable, hp, hj, hclaimable]⟩

/-- A round of the publisher leaves fewer rows to be sent. -/
theorem PublishRound.countPending_lt {t : System} {rows : List (UUID × OutboxMessage)}
    (h : PublishRound s rows t) {p : UUID × OutboxMessage} (hp : p ∈ rows)
    (hget : s.db.outboxMessages.get? p.1 = some p.2) (hpending : p.2.status = .pending) :
    t.db.countPending < s.db.countPending := by
  have hsent : ∀ mid ∈ rows.map Prod.fst, ∀ m, t.db.outboxMessages.get? mid = some m →
      m.status = .published := by
    intro mid hmid m hm
    obtain ⟨q, hq, rfl⟩ := List.mem_map.mp hmid
    obtain ⟨m', hm', hpub⟩ := h.published q hq
    rw [Option.some.inj (hm.symm.trans hm'), hpub]
  refine Table.length_select_lt ?_ hget (decide_eq_true hpending) fun m hm => ?_
  · intro mid m hm hpend
    by_cases hmid : mid ∈ rows.map Prod.fst
    · rw [hsent mid hmid m hm] at hpend
      cases hpend
    · exact ⟨m, (h.kept mid hmid).symm.trans hm, hpend⟩
  · rw [hsent p.1 (List.mem_map_of_mem hp) m hm]
    rfl

/-- **A pending job that is not forgotten can get a message.** -/
theorem exists_awaited (l : Loops) (hs : Quiet s₀ s) {jobId : UUID}
    (hf : ¬ s₀.Forgotten jobId) {job : Job} (hj : s.db.jobs.get? jobId = some job)
    (hpending : job.status = .pending) :
    ∃ t, Leads System.step (Serviced l) s t ∧ Quiet s₀ t ∧ t.db.jobs = s.db.jobs ∧
      t.Awaits jobId := by
  have hround : ∀ t : System, (Quiet s₀ t ∧ t.db.jobs = s.db.jobs) → ¬ t.Awaits jobId →
      ∃ u, Leads System.step (Serviced l) t u ∧ (Quiet s₀ u ∧ u.db.jobs = s.db.jobs) ∧
        u.db.countPending < t.db.countPending := by
    rintro t ⟨hquiet, hjobs⟩ hno
    rw [← hjobs] at hj
    -- the row of the job is to be sent
    obtain ⟨mid, row, hrow, rfl, hp⟩ : t.db.Queued jobId := by
      by_contra hq
      exact hf (hquiet.recalls jobId ⟨⟨job, hj, hpending⟩, hq, hno⟩)
    obtain ⟨now, hnow, hdue⟩ := job.exists_isDue t.clock
    have hne := publishableMessages_ne_nil l.outboxPublishBatchSize_pos hrow hp hj
      (isClaimable_iff.mpr ⟨hpending, hdue⟩)
    obtain ⟨u, htu, hround, -⟩ := exists_publishRound l hquiet.passes hnow rfl hne
    have hmem : ∀ p ∈ publishableMessages t.db now (.limit l.outboxPublishBatchSize) fun _ => false,
        t.db.outboxMessages.get? p.1 = some p.2 ∧ p.2.status = .pending := fun p hp => by
      obtain ⟨hget, hpublishable, -⟩ := mem_publishableMessages (show (p.1, p.2) ∈ _ from hp)
      exact ⟨hget, (isPublishable_eq_true hpublishable).1⟩
    obtain ⟨p, hp'⟩ := List.exists_mem_of_ne_nil _ hne
    exact ⟨u, htu, ⟨hquiet.leads htu (hround.recalls fun p hp => (hmem p hp).1) hround.passes,
      hround.jobs.trans hjobs⟩, hround.countPending_lt hp' (hmem p hp').1 (hmem p hp').2⟩
  obtain ⟨t, hst, ⟨hquiet, hjobs⟩, hawaits⟩ := Leads.exists_of_measure _ hround ⟨hs, rfl⟩
  exact ⟨t, hst, hquiet, hjobs, hawaits⟩

/-! ### Its message is delivered -/

/-- A message in the queue is delivered to a worker that is idle. -/
theorem exists_delivered (l : Loops) (hs : Quiet s₀ s) {m : EncodingJobMessage} (hm : m ∈ s.ready) :
    ∃ t worker, Leads System.step (Serviced l) s t ∧ Quiet s₀ t ∧ t.db.jobs = s.db.jobs ∧
      t.workers worker = .handling m .received true := by
  obtain ⟨index, hindex⟩ := List.mem_iff_getElem?.mp hm
  obtain ⟨worker, hidle⟩ := (ReachableSystem.fewBusy hs.reachable).exists_idle
  let t : System := { s with
    ready := s.ready.eraseIdx index
    workers := Function.update s.workers worker (.handling m .received true) }
  have hself : t.workers worker = .handling m .received true := Function.update_self _ _ _
  have hst : Leads System.step (Serviced l) s t := by
    refine Leads.single (a := .deliver worker index) ?_ ?_
    · exact Serviced.of_forward (by simp [ClockForward, Action.readings]) rfl trivial trivial
    · simp only [System.step, System.act, hidle, hindex]
      rfl
  refine ⟨t, worker, hst, hs.leads hst ?_ hs.passes, rfl, hself⟩
  refine Recalls.of_wakes (Wakes.refl _) fun m' hm' => ?_
  rcases hm' with hm' | ⟨w, hm'⟩
  · obtain ⟨index', hindex'⟩ := List.mem_iff_getElem?.mp hm'
    by_cases he : index' = index
    · subst he
      obtain rfl : m = m' := Option.some.inj (hindex.symm.trans hindex')
      refine Or.inr ⟨worker, ?_⟩
      rw [hself, Worker.heeded_received]
      exact List.mem_singleton_self m
    · exact Or.inl (List.mem_eraseIdx_iff_getElem?.mpr ⟨index', he, hindex'⟩)
  · refine Or.inr ⟨w, ?_⟩
    have hne : w ≠ worker := by
      rintro rfl
      rw [hidle] at hm'
      cases hm'
    rw [show t.workers w = s.workers w from Function.update_of_ne hne _ _]
    exact hm'

/-- A worker that holds a message dies, and the message is in the queue again. -/
theorem exists_crashed (l : Loops) (hs : Quiet s₀ s) {worker : String} {m : EncodingJobMessage}
    {phase : Phase} (hw : s.workers worker = .handling m phase true) :
    ∃ t, Leads System.step (Serviced l) s t ∧ Quiet s₀ t ∧ t.db.jobs = s.db.jobs ∧ m ∈ t.ready := by
  let t : System := { s with
    ready := (s.workers worker).held ++ s.ready
    workers := Function.update s.workers worker .stopped }
  have hready : t.ready = m :: s.ready := by
    show (s.workers worker).held ++ s.ready = _
    rw [hw]
    rfl
  have hst : Leads System.step (Serviced l) s t := by
    refine Leads.single (a := .crash worker) ?_ rfl
    exact Serviced.of_forward (by simp [ClockForward, Action.readings]) rfl trivial trivial
  refine ⟨t, hst, hs.leads hst ?_ hs.passes, rfl, by rw [hready]; exact List.mem_cons_self⟩
  refine Recalls.of_wakes (Wakes.refl _) fun m' hm' => ?_
  rcases hm' with hm' | ⟨w, hm'⟩
  · exact Or.inl (by rw [hready]; exact List.mem_cons_of_mem _ hm')
  · by_cases hne : w = worker
    · subst hne
      rw [hw, Worker.heeded_connected] at hm'
      exact Or.inl (by rw [hready, List.mem_singleton.mp hm']; exact List.mem_cons_self)
    · refine Or.inr ⟨w, ?_⟩
      rw [show t.workers w = s.workers w from Function.update_of_ne hne _ _]
      exact hm'

/-- **A message that is left can be looked at**: it is delivered, or a worker still has it. -/
theorem exists_received (l : Loops) (hs : Quiet s₀ s) {m : EncodingJobMessage}
    (hm : s.HasMessage m) :
    ∃ t worker connected, Leads System.step (Serviced l) s t ∧ Quiet s₀ t ∧
      t.db.jobs = s.db.jobs ∧ t.workers worker = .handling m .received connected := by
  have hdeliver : ∀ {u : System}, Leads System.step (Serviced l) s u → Quiet s₀ u →
      u.db.jobs = s.db.jobs → m ∈ u.ready → ∃ t worker connected,
        Leads System.step (Serviced l) s t ∧ Quiet s₀ t ∧ t.db.jobs = s.db.jobs ∧
          t.workers worker = .handling m .received connected := fun hsu hu hjobs hm => by
    obtain ⟨t, worker, hut, ht, hjobs', hw⟩ := exists_delivered l hu hm
    exact ⟨t, worker, true, hsu.trans hut, ht, hjobs'.trans hjobs, hw⟩
  rcases hm with hm | ⟨worker, hm⟩
  · exact hdeliver (Leads.refl s) hs rfl hm
  cases hw : s.workers worker with
  | handling m' phase connected =>
    rw [hw] at hm
    by_cases hphase : phase = .received
    · subst hphase
      rw [Worker.heeded_received] at hm
      exact ⟨s, worker, connected, Leads.refl s, hs, rfl, by rw [hw, List.mem_singleton.mp hm]⟩
    · obtain ⟨rfl, rfl⟩ := Worker.heeded_of_ne_received hphase hm
      obtain ⟨u, hsu, hu, hjobs, hm⟩ := exists_crashed l hs hw
      exact hdeliver hsu hu hjobs hm
  | _ =>
    rw [hw] at hm
    cases hm

/-! ### All of it -/

/-- **A pending job that is not forgotten can be brought to its end**, and the other jobs stay
as they are. -/
theorem exists_concluded (l : Loops) (hs : Quiet s₀ s) {jobId : UUID}
    (hf : ¬ s₀.Forgotten jobId) {job : Job} (hj : s.db.jobs.get? jobId = some job)
    (hpending : job.status = .pending) :
    ∃ t, Leads System.step (Serviced l) s t ∧ Quiet s₀ t ∧
      (∃ last, t.db.jobs.get? jobId = some last ∧ last.status.isActive = false) ∧
      ∀ jid, jid ≠ jobId → t.db.jobs.get? jid = s.db.jobs.get? jid := by
  obtain ⟨u, hsu, hu, hjobs, m, rfl, hm⟩ := exists_awaited l hs hf hj hpending
  obtain ⟨v, worker, connected, huv, hv, hjobs', hw⟩ := exists_received l hu hm
  have hvjobs : v.db.jobs = s.db.jobs := hjobs'.trans hjobs
  rw [← hvjobs] at hj
  have hleft : v.HasMessage m := Or.inr ⟨worker, by
    rw [hw, Worker.heeded_received]
    exact List.mem_singleton_self m⟩
  obtain ⟨job', hj', hmatch⟩ := (ReachableSystem.addressed hv.reachable).exists_job
    (ReachableSystem.linked hv.reachable) hleft
  obtain rfl := Option.some.inj (hj'.symm.trans hj)
  obtain ⟨now, hnow, hdue⟩ := job'.exists_isDue v.clock
  obtain ⟨t, hvt, hc⟩ := exists_attempt l hv.reachable hw hj hmatch hpending hnow hdue
  exact ⟨t, (hsu.trans huv).trans hvt, hv.leads hvt hc.recalls (hc.passes.trans hv.passes),
    hc.ended, fun jid hne => by rw [hc.others jid hne, hvjobs]⟩

/-- **The pending jobs can be brought to their end**, where no job runs. -/
theorem exists_concludedAll (l : Loops) (hs : Quiet s₀ s) (hrun : s.db.NoneRuns) :
    ∃ t, Leads System.step (Serviced l) s t ∧
      ∀ jobId job, t.db.jobs.get? jobId = some job → job.status.isActive = true →
        s₀.Forgotten jobId := by
  have hattempt : ∀ t : System, (Quiet s₀ t ∧ t.db.NoneRuns) →
      ¬ (∀ jobId job, t.db.jobs.get? jobId = some job → job.status.isActive = true →
        s₀.Forgotten jobId) →
      ∃ u, Leads System.step (Serviced l) t u ∧ (Quiet s₀ u ∧ u.db.NoneRuns) ∧
        u.db.countJobs .pending < t.db.countJobs .pending := by
    rintro t ⟨hquiet, hrun⟩ hrest
    simp only [not_forall] at hrest
    obtain ⟨jobId, job, hj, hactive, hf⟩ := hrest
    have hpending : job.status = .pending := by
      have hne := hrun jobId job hj
      cases hstatus : job.status <;> simp_all [ProcessingStatus.isActive]
    obtain ⟨u, htu, hu, ⟨last, hlast, hidle⟩, hothers⟩ := exists_concluded l hquiet hf hj hpending
    have hkept : ∀ jid job', u.db.jobs.get? jid = some job' → job'.status.isActive = true →
        t.db.jobs.get? jid = some job' := by
      intro jid job' hget hact
      rw [← hothers jid, hget]
      rintro rfl
      rw [Option.some.inj (hget.symm.trans hlast), hidle] at hact
      cases hact
    refine ⟨u, htu, ⟨hu, fun jid job' hget hrun' => ?_⟩, ?_⟩
    · exact hrun jid job' (hkept jid job' hget (by rw [hrun']; rfl)) hrun'
    · refine Table.length_select_lt (fun jid job' hget hp => ?_) hj (decide_eq_true hpending) ?_
      · exact ⟨job', hkept jid job' hget (by rw [of_decide_eq_true hp]; rfl), hp⟩
      · intro job' hget
        rw [Option.some.inj (hget.symm.trans hlast)]
        refine decide_eq_false fun hp => ?_
        rw [hp] at hidle
        cases hidle
  obtain ⟨t, hst, -, hrest⟩ := Leads.exists_of_measure _ hattempt ⟨hs, hrun⟩
  exact ⟨t, hst, hrest⟩

end Phases

/-- **The services can come to rest.** From every state of a run on a clock that goes forwards –
with any passes open, any workers busy or lost, any messages left and jobs running – the rounds
of the publisher and of the reaper and the steps of the workers, together with losses (a pass
is rolled back, a worker that dies gives its message back), can lead to a state in which the
jobs that are not over are exactly those that are forgotten. -/
theorem services_come_to_rest (l : Loops) {s : System} (hs : ReachableSystem Timely s)
    (hretry : l.CanRetry (s.clock + l.staleTimeout + 1)) :
    ∃ t, Leads System.step (Serviced l) s t ∧
      ∀ jobId job, t.db.jobs.get? jobId = some job →
        (job.status.isActive = true ↔ s.Forgotten jobId) := by
  obtain ⟨u, hsu, hu, hclock⟩ := exists_quiet l hs
  obtain ⟨v, huv, hv, hrun⟩ := exists_reaped l hu (by rw [hclock]; exact hretry)
  obtain ⟨t, hvt, hrest⟩ := exists_concludedAll l hv hrun
  have hst := (hsu.trans huv).trans hvt
  refine ⟨t, hst, fun jobId job hj => ⟨hrest jobId job hj, fun hf => ?_⟩⟩
  -- a forgotten job is pending ever after
  obtain ⟨-, ⟨job', hj', hpending⟩, -⟩ := hf.stays (hs.mono (fun _ _ _ => trivial) fun _ h => h) hst
  rw [Option.some.inj (hj.symm.trans hj'), hpending]
  rfl

/-- The services with a delay of 30 seconds after every attempt. -/
def sampleLoops : Loops := ⟨sampleSettings, 100, by decide, 300⟩

/-- A worker dies with a claimed job, while the pass that has sent its message is still open. -/
def sampleLoss : List Action :=
  sampleUpload.map Action.request ++ [.openPass 2 (.limit 1), .publish 0 (.ok 2) true,
    .deliver "first" 0, .work "first" (.claim 3 3), .crash "first"]

/-- No job of it is forgotten, and all can be brought to their end. -/
theorem services_come_to_rest_loss :
    ∃ s t job, ReachableSystem Timely s ∧ s.workers "first" = .stopped ∧ s.passes ≠ [] ∧
      s.db.jobs.get? (sampleId 11) = some job ∧ job.status = .running ∧
      Leads System.step (Serviced sampleLoops) s t ∧
      ∀ jobId job, t.db.jobs.get? jobId = some job → job.status.isActive = false := by
  obtain ⟨s, hs, hworker, hpasses, hclock, hjob⟩ : ∃ s, guardedRun System.step
      (fun s a => KeepsRearmed s a ∧ EncoderListsSegments s a) System.start sampleLoss = some s ∧
      s.workers "first" = .stopped ∧ s.passes.length = 1 ∧ s.clock = 3 ∧
      (s.db.jobs.get? (sampleId 11)).map Job.status = some .running :=
    ⟨_, rfl, rfl, rfl, rfl, rfl⟩
  have hreach : ReachableSystem (fun s a => KeepsRearmed s a ∧ EncoderListsSegments s a) s :=
    Reaches.of_guardedRun (Reaches.start rfl) hs
  have htimely : ReachableSystem Timely s :=
    hreach.mono (fun _ _ h => ⟨h.1.1, h.2⟩) fun _ h => h
  have hkeeps : ReachableSystem KeepsRearmed s := hreach.mono (fun _ _ h => h.1) fun _ h => h
  obtain ⟨job, hj, hrun⟩ := Option.map_eq_some_iff.mp hjob
  obtain ⟨t, hst, hrest⟩ := services_come_to_rest sampleLoops htimely
    (Loops.canRetry rfl (by decide) (by rw [hclock]; decide))
  refine ⟨s, t, job, htimely, hworker, ?_, hj, hrun, hst, fun jobId job hj => ?_⟩
  · exact List.ne_nil_of_length_pos (by omega)
  · rw [Bool.eq_false_iff]
    exact fun hactive => hkeeps.not_forgotten jobId ((hrest jobId job hj).mp hactive)

end RenditionPipeline
