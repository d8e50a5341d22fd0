import RenditionPipeline.Runs.Effects
import RenditionPipeline.System.Steps

/-!
# Wake-ups

A pending job is looked at only when a message comes for it, and the reaper looks
at running jobs alone. So a pending job must have a row of the outbox that is still
to be sent, or a message that the broker still keeps.

Every transaction on the jobs keeps that up (`RenditionPipeline.Wakes`): a job that
becomes pending has its row armed. A publishing pass is where it can fail. The pass
selects a row while it is pending and commits it as published, whatever has been
committed in between; if the job has been claimed and armed again by then, the pass
takes back the arming of which it knows nothing
(`RenditionPipeline.System.Stepped.not_queued`). As long as no pass does that, no job is
forgotten (`RenditionPipeline.ReachableSystem.remembered`).
-/

namespace RenditionPipeline

/-- **A job is queued**: its row of the outbox is to be sent. -/
def Db.Queued (db : Db) (jobId : UUID) : Prop :=
  ∃ mid m, db.outboxMessages.get? mid = some m ∧ m.jobId = jobId ∧ m.status = .pending

/-! ### What transactions make of pending jobs -/

/-- **A later version of a job**: its attempts have not gone down, and if they have
not gone up either, the job has not been claimed. -/
structure Job.Follows (job job' : Job) : Prop where
  videoId : job'.videoId = job.videoId
  renditionId : job'.renditionId = job.renditionId
  attemptCount : job.attemptCount ≤ job'.attemptCount
  unclaimed : job'.attemptCount = job.attemptCount → job.status ≠ .running →
    job'.status ≠ .running ∧
      (job'.status = .pending → job.status = .pending ∧ job'.nextRunAt = job.nextRunAt)

theorem Job.Follows.heartbeat (job : Job) (heartbeatAt : Option Timestamp) :
    job.Follows { job with heartbeatAt := heartbeatAt } :=
  ⟨rfl, rfl, le_rfl, fun _ hrun => ⟨hrun, fun hp => ⟨hp, rfl⟩⟩⟩

/-- An outcome makes a later version of a job. -/
theorem Outcome.Enabled.follows {o : Outcome} {job : Job} (h : o.Enabled job) :
    job.Follows (o.job job) := by
  refine ⟨o.job_videoId job, o.job_renditionId job, ?_, ?_⟩
  · cases o with
    | running workerId now => exact Nat.le_succ _
    | _ => exact le_rfl
  · cases o with
    | running workerId now => exact fun hcount => absurd hcount (Nat.succ_ne_self _)
    | retried error now nextRunAt => exact fun _ hrun => absurd h.1 hrun
    | _ => exact fun _ _ => ⟨nofun, nofun⟩

/-- A job is pending after a retry alone. -/
theorem Outcome.isRetry_of_pending {o : Outcome} {job : Job}
    (h : (o.job job).status = .pending) : o.isRetry = true := by
  cases o with
  | retried error now nextRunAt => rfl
  | _ => cases h

/-- **A transaction that forgets no job**: a job that is pending afterwards is queued,
or it has been pending before. -/
structure Wakes (db db' : Db) : Prop where
  job : ∀ jid job job', db.jobs.get? jid = some job → db'.jobs.get? jid = some job' →
    job.Follows job' ∧ (job'.status = .pending →
      db'.Queued jid ∨ (job.status = .pending ∧ job'.nextRunAt = job.nextRunAt))
  newJob : ∀ jid job', db.jobs.get? jid = none → db'.jobs.get? jid = some job' → db'.Queued jid
  message : ∀ mid m, db.outboxMessages.get? mid = some m → ∃ m',
    db'.outboxMessages.get? mid = some m' ∧
      m'.toEncodingJobMessage = m.toEncodingJobMessage ∧
      (m.status = .pending → m'.status = .pending)

namespace Wakes

variable {db db' : Db}

/-- A queued job stays queued. -/
theorem queued (h : Wakes db db') {jid : UUID} (hq : db.Queued jid) : db'.Queued jid := by
  obtain ⟨mid, m, hm, hj, hp⟩ := hq
  obtain ⟨m', hm', href, hp'⟩ := h.message mid m hm
  exact ⟨mid, m', hm', (congrArg EncodingJobMessage.jobId href).trans hj, hp' hp⟩

/-- A job that is as before, up to its heartbeat. -/
theorem job_heartbeat (job : Job) (heartbeatAt : Option Timestamp) {Q : Prop} :
    job.Follows { job with heartbeatAt := heartbeatAt } ∧ (job.status = .pending →
      Q ∨ (job.status = .pending ∧ job.nextRunAt = job.nextRunAt)) :=
  ⟨Job.Follows.heartbeat job heartbeatAt, fun hp => Or.inr ⟨hp, rfl⟩⟩

/-- A database that has only grown. -/
theorem of_grown (h : Grown db db') : Wakes db db' where
  job := by
    intro jid job job' hj hj'
    obtain ⟨t, ht⟩ := h.job jid job hj
    obtain rfl := Option.some.inj (ht.symm.trans hj')
    exact job_heartbeat job t
  newJob := fun jid job' hnone hj' => (h.newJob jid job' hj' hnone).2
  message := fun mid m hm => ⟨m, h.message mid m hm, rfl, id⟩

theorem refl (db : Db) : Wakes db db := of_grown (Grown.refl db)

/-- **Settled jobs**: a retry arms the row of its job. -/
theorem of_settles {log : List Settlement} (hl : db.Linked) (h : Settles db log db') :
    Wakes db db' where
  job := by
    intro jid job job' hj hj'
    rcases h.get?_job hj' with ⟨-, o, job₁, hlog, hj₁, he, rfl⟩ | ⟨-, hj₁⟩
    · -- a job that is pending again is a retried one, whose message is armed again
      obtain rfl : job₁ = job := Option.some.inj (hj₁.symm.trans hj)
      refine ⟨he.follows, fun hp => Or.inl ?_⟩
      obtain ⟨mid, m, hm, rfl⟩ := hl.job_outbox _ _ hj
      exact ⟨mid, _, h.rearmed mid m o hm hlog (Outcome.isRetry_of_pending hp), rfl, rfl⟩
    · obtain rfl : job' = job := Option.some.inj (hj₁.symm.trans hj)
      exact job_heartbeat job' job'.heartbeatAt
  newJob := by
    intro jid job' hnone hj'
    rcases h.get?_job hj' with ⟨-, o, job, -, hj, -⟩ | ⟨-, hj⟩ <;>
    · rw [hnone] at hj
      cases hj
  message := by
    intro mid m hm
    by_cases hre : ∃ o, (m.jobId, o) ∈ log ∧ o.isRetry = true
    · obtain ⟨o, hlog, hretry⟩ := hre
      exact ⟨_, h.rearmed mid m o hm hlog hretry, rfl, fun _ => rfl⟩
    · refine ⟨m, h.message mid m hm fun o hlog => ?_, rfl, id⟩
      by_contra hretry
      exact hre ⟨o, hlog, by simpa using hretry⟩

end Wakes

/-! ### Messages with the broker -/

/-- The messages that a worker has still to look at, or gives back. -/
def Worker.unanswered : Worker → List EncodingJobMessage
  | handling message .received true => [message]
  | handling message (.settling .requeue) true => [message]
  | _ => []

namespace System

/-- The broker has a message that is not settled. -/
def Unsettled (s : System) (m : EncodingJobMessage) : Prop :=
  m ∈ s.ready ∨ ∃ w, m ∈ (s.workers w).held

/-- **A message that a worker will look at**, now or once it is given back. -/
def Signalled (s : System) (m : EncodingJobMessage) : Prop :=
  m ∈ s.ready ∨ ∃ w, m ∈ (s.workers w).unanswered

end System

theorem Worker.mem_unanswered {v : Worker} {m : EncodingJobMessage} (h : m ∈ v.unanswered) :
    v = .handling m .received true ∨ v = .handling m (.settling .requeue) true := by
  unfold unanswered at h
  split at h
  · obtain rfl := List.mem_singleton.mp h
    exact Or.inl rfl
  · obtain rfl := List.mem_singleton.mp h
    exact Or.inr rfl
  · cases h

theorem Worker.held_of_unanswered {v : Worker} {m : EncodingJobMessage} (h : m ∈ v.unanswered) :
    m ∈ v.held := by
  rcases mem_unanswered h with rfl | rfl <;> exact List.mem_singleton_self m

theorem System.Signalled.unsettled {s : System} {m : EncodingJobMessage} (h : s.Signalled m) :
    s.Unsettled m :=
  h.imp_right fun ⟨w, hw⟩ => ⟨w, Worker.held_of_unanswered hw⟩

/-- A job that may run at an instant, if it is pending. -/
def Job.IsDue (job : Job) (now : Timestamp) : Prop := ∀ t, job.nextRunAt = some t → t ≤ now

theorem Job.IsDue.mono {job : Job} {now now' : Timestamp} (h : job.IsDue now) (hle : now ≤ now') :
    job.IsDue now' := fun t ht => (h t ht).trans hle

theorem isClaimable_iff {job : Job} {now : Timestamp} :
    isClaimable job now = true ↔ job.status = .pending ∧ job.IsDue now := by
  unfold isClaimable Job.IsDue
  split
  · rename_i h
    simp [h]
  · rename_i h
    cases job.nextRunAt <;> simp_all

/-- A step that reads the clock forwards. -/
def ClockForward (s : System) (a : Action) : Prop := (s.clock :: a.readings).Pairwise (· ≤ ·)

instance (s : System) (a : Action) : Decidable (ClockForward s a) := by
  rw [ClockForward]
  exact inferInstance

theorem ClockForward.le_clock {s : System} {a : Action} (h : ClockForward s a) :
    s.clock ≤ a.readings.getLastD s.clock := by
  have hmem : a.readings.getLastD s.clock ∈ s.clock :: a.readings := List.getLastD_mem_cons
  rcases List.mem_cons.mp hmem with he | hmem
  · rw [he]
  · exact List.rel_of_pairwise_cons h hmem

/-- **A message is not answered while its job waits for it**: it stays, or the job is
not pending any more. -/
def Carries (s t : System) : Prop :=
  ∀ m, s.Signalled m →
    (∀ job, s.db.jobs.get? m.jobId = some job → job.status = .pending →
      (job.videoId = m.videoId ∧ job.renditionId = m.renditionId) ∧ job.IsDue s.clock) →
    t.Signalled m ∨ ∀ job, t.db.jobs.get? m.jobId = some job → job.status ≠ .pending

/-- A worker steps, and all messages of the others stay. -/
theorem System.Signalled.of_update {s t : System} {m : EncodingJobMessage} {worker : String}
    {v : Worker} (hm : s.Signalled m) (hready : ∀ m ∈ s.ready, t.Signalled m)
    (hworkers : t.workers = Function.update s.workers worker v)
    (hself : m ∈ (s.workers worker).unanswered → t.Signalled m) : t.Signalled m := by
  rcases hm with hm | ⟨w, hw⟩
  · exact hready m hm
  · by_cases hne : w = worker
    · subst hne
      exact hself hw
    · exact Or.inr ⟨w, by rw [hworkers, Function.update_of_ne hne]; exact hw⟩

/-- **A step of a worker answers its message** only when the job is not pending
then. -/
theorem WorkerMove.answered {w w' : World} {claims : UUID → ℕ} {workerId : String}
    {m : EncodingJobMessage} {phase' : Phase} {action : WorkerAction} {events : List Event}
    {clock : Timestamp} (h : WorkerMove w claims workerId m .received action w' phase' events)
    (hclock : ∀ now ∈ action.readings, clock ≤ now)
    (hdue : ∀ job, w.db.jobs.get? m.jobId = some job → job.status = .pending →
      (job.videoId = m.videoId ∧ job.renditionId = m.renditionId) ∧ job.IsDue clock) :
    phase' = .settling .requeue ∨
      ∀ job, w'.db.jobs.get? m.jobId = some job → job.status ≠ .pending := by
  cases h with
  | requeued => exact Or.inl rfl
  | mismatched hno => exact Or.inr fun job hj hp => hno job hj (hdue job hj hp).1
  | notClaimable hno =>
    refine Or.inr fun job hj hp => ?_
    have hclaimable := isClaimable_iff.mpr ⟨hp, (hdue job hj hp).2.mono (hclock _ (by
      exact List.mem_cons_self))⟩
    rw [hno job hj] at hclaimable
    cases hclaimable
  | exhausted hid hs =>
    refine Or.inr fun job hj => ?_
    rw [← hid] at hj
    obtain rfl := Option.some.inj (hs.get?_job_self.symm.trans hj)
    exact nofun
  | claimed hid hs =>
    refine Or.inr fun job hj => ?_
    rw [← hid] at hj
    obtain rfl := Option.some.inj (hs.get?_job_self.symm.trans hj)
    exact nofun
  | unchanged he => cases he
  | concluded hc => cases hc
  | rolledBack hc => cases hc

/-- A message that is delivered is with the worker. -/
theorem Carries.delivered {s t : System} {worker : String} {index : ℕ} {m : EncodingJobMessage}
    (hw : s.workers worker = .idle) (hready : s.ready[index]? = some m)
    (hready' : t.ready = s.ready.eraseIdx index)
    (hworkers : t.workers = Function.update s.workers worker (.handling m .received true)) :
    Carries s t := by
  have hself : m ∈ (t.workers worker).unanswered := by
    rw [hworkers, Function.update_self]
    exact List.mem_singleton_self m
  intro m' hm' _
  refine Or.inl (hm'.of_update (fun m₁ hmem => ?_) hworkers fun hmem => ?_)
  · obtain ⟨i, hi⟩ := List.mem_iff_getElem?.mp hmem
    by_cases he : i = index
    · subst he
      obtain rfl : m = m₁ := Option.some.inj (hready.symm.trans hi)
      exact Or.inr ⟨worker, hself⟩
    · refine Or.inl ?_
      rw [hready']
      exact List.mem_eraseIdx_iff_getElem?.mpr ⟨i, he, hi⟩
  · rw [hw] at hmem
    cases hmem

/-- **A worker that goes on keeps its message**, or answers it when the job is not pending
any more. -/
theorem Carries.worked {s t : System} {worker : String} {m : EncodingJobMessage}
    {phase phase' : Phase} {connected : Bool} {action : WorkerAction} {events : List Event}
    {w' : World} (hw : s.workers worker = .handling m phase connected)
    (hmove : WorkerMove s.world (claims s.history) worker m phase action w' phase' events)
    (hforward : ∀ now ∈ action.readings, s.clock ≤ now) (hdb : t.db = w'.db)
    (hready : t.ready = s.ready)
    (hworkers : t.workers = Function.update s.workers worker (.handling m phase' connected)) :
    Carries s t := by
  intro m' hm' hdue
  have hstays : ∀ m₁ ∈ s.ready, t.Signalled m₁ := fun m₁ hm₁ => by
    refine Or.inl ?_
    rw [hready]
    exact hm₁
  by_cases hmem : m' ∈ (s.workers worker).unanswered
  swap
  · exact Or.inl (hm'.of_update hstays hworkers fun h => absurd h hmem)
  rw [hw] at hmem
  rcases Worker.mem_unanswered hmem with he | he
  · obtain ⟨rfl, rfl, rfl⟩ := Worker.handling.inj he
    rcases hmove.answered hforward hdue with rfl | hno
    · refine Or.inl (Or.inr ⟨worker, ?_⟩)
      rw [hworkers, Function.update_self]
      exact List.mem_singleton_self _
    · rw [← hdb] at hno
      exact Or.inr hno
  · -- a message that is to be given back is not looked at any more
    obtain ⟨rfl, rfl, rfl⟩ := Worker.handling.inj he
    cases hmove with
    | unchanged he => cases he
    | concluded hc => cases hc
    | rolledBack hc => cases hc

/-- **No step answers a message whose job waits for it.** -/
theorem System.Stepped.carries {s t : System} {a : Action} (h : System.Stepped s a t)
    (hclock : ClockForward s a) : Carries s t := by
  cases h with
  | delivered hw hready => exact Carries.delivered hw hready rfl rfl
  | worked hw hmove =>
    exact Carries.worked hw hmove (fun _ hnow => List.rel_of_pairwise_cons hclock hnow) rfl rfl rfl
  | @settled worker m' action connected hw =>
    intro m hm _
    refine Or.inl (hm.of_update (fun m hm => Or.inl (List.mem_append_right _ hm)) rfl
      fun hmem => ?_)
    rw [hw] at hmem
    rcases Worker.mem_unanswered hmem with he | he
    · cases he
    · -- the message is given back
      rw [he]
      exact Or.inl (List.mem_append_left _ (List.mem_singleton_self m))
  | @disconnected worker m' phase hw =>
    intro m hm _
    refine Or.inl (hm.of_update (fun m hm => Or.inl (List.mem_cons_of_mem _ hm)) rfl
      fun hmem => ?_)
    rw [hw] at hmem
    rcases Worker.mem_unanswered hmem with he | he <;>
      (obtain ⟨rfl, -⟩ := Worker.handling.inj he; exact Or.inl List.mem_cons_self)
  | crashed =>
    intro m hm _
    exact Or.inl (hm.of_update (fun m hm => Or.inl (List.mem_append_right _ hm)) rfl
      fun hmem => Or.inl (List.mem_append_left _ (Worker.held_of_unanswered hmem)))
  | published hpass hrow haccepted =>
    exact fun m hm _ => Or.inl (hm.imp_left fun hm => List.mem_append_right _ hm)
  -- the other steps leave the queue and the workers
  | _ => exact fun m hm _ => Or.inl hm

/-! ### Rows that are armed again under a pass -/

namespace Pass

/-- Two passes have no row in common. -/
def Disjoint (pass pass' : Pass) : Prop := ∀ p ∈ pass.rows, ∀ q ∈ pass'.rows, p.1 ≠ q.1

theorem Disjoint.symm {pass pass' : Pass} (h : pass.Disjoint pass') : pass'.Disjoint pass :=
  fun p hp q hq => (h q hq p hp).symm

theorem selects_eq_false_iff {pass : Pass} {messageId : UUID} :
    pass.selects messageId = false ↔ ∀ p ∈ pass.rows, p.1 ≠ messageId := by
  simp [selects]

/-- Whether a pass has sent a row. -/
def HasSent (pass : Pass) (p : UUID × OutboxMessage) : Prop :=
  ∃ (i : ℕ) (now : Timestamp), pass.rows[i]? = some p ∧ pass.answers[i]? = some (.ok now)

/-- **A row that has been armed again** since the pass has selected it: its job is
pending, and there has been an attempt in between. -/
def isRearmed (pass : Pass) (db : Db) (p : UUID × OutboxMessage) : Bool :=
  match pass.loaded.jobs.get? p.2.jobId, db.jobs.get? p.2.jobId with
  | some loaded, some job =>
    job.status = .pending && decide (loaded.attemptCount < job.attemptCount)
  | _, _ => false

end Pass

/-- Whether a step publishes a row that has been armed again. -/
def publishesRearmed (s : System) : Action → Bool
  | .commitPass index openError closeError =>
    match s.passes[index]? with
    | none => false
    | some pass => pass.rows.any fun p =>
      decide ((pass.rowAfter openError closeError p).status = .published) && pass.isRearmed s.db p
  | _ => false

/-- **The clock goes forwards, and no pass publishes a row that has been armed
again** since the pass has selected it. -/
def KeepsRearmed (s : System) (a : Action) : Prop :=
  ClockForward s a ∧ publishesRearmed s a = false

instance (s : System) (a : Action) : Decidable (KeepsRearmed s a) := by
  rw [KeepsRearmed]
  exact inferInstance

/-! ### The invariant -/

/-- **A row of an open pass**, whose job was loaded as `job₀`: it is still pending,
and unless its job has been claimed since, the job is due, and if the row has been
sent, a worker will look at its message. -/
structure RowHeld (s : System) (pass : Pass) (p : UUID × OutboxMessage) (job₀ : Job) : Prop where
  loaded : pass.loaded.jobs.get? p.2.jobId = some job₀
  pending : p.2.status = .pending
  committed : ∃ m, s.db.outboxMessages.get? p.1 = some m ∧
    m.toEncodingJobMessage = p.2.toEncodingJobMessage ∧ m.status = .pending
  attemptCount : ∀ job, s.db.jobs.get? p.2.jobId = some job →
    job₀.attemptCount ≤ job.attemptCount
  unclaimed : ∀ job, s.db.jobs.get? p.2.jobId = some job →
    job.attemptCount = job₀.attemptCount →
      job.status ≠ .running ∧ (job.status = .pending → job.IsDue s.clock)
  sent : ∀ job, s.db.jobs.get? p.2.jobId = some job →
    job.attemptCount = job₀.attemptCount → job.status = .pending → pass.HasSent p →
      s.Signalled p.2.toEncodingJobMessage

/-- **No job is forgotten.** -/
structure Remembered (s : System) : Prop where
  pending : ∀ jid job, s.db.jobs.get? jid = some job → job.status = .pending →
    s.db.Queued jid ∨ (job.IsDue s.clock ∧ s.Signalled ⟨jid, job.videoId, job.renditionId⟩)
  loaded : ∀ pass ∈ s.passes, pass.Loaded
  /-- A row is locked by one pass at most. -/
  disjoint : s.passes.Pairwise Pass.Disjoint
  row : ∀ pass ∈ s.passes, ∀ p ∈ pass.rows, ∃ job₀, RowHeld s pass p job₀

theorem Remembered.start : Remembered System.start where
  pending := fun _ _ h => by cases h
  loaded := fun _ h => by cases h
  disjoint := List.Pairwise.nil
  row := fun _ h => by cases h

section Steps

variable {s t : System}

/-- The job of a row, with the ids that the row has. -/
theorem RowHeld.exists_job {pass : Pass} {p : UUID × OutboxMessage} {job₀ : Job}
    (hl : s.db.Linked) (h : RowHeld s pass p job₀) :
    ∃ job, s.db.jobs.get? p.2.jobId = some job ∧
      p.2.toEncodingJobMessage = ⟨p.2.jobId, job.videoId, job.renditionId⟩ := by
  obtain ⟨m, hm, href, -⟩ := h.committed
  obtain ⟨job, hj, hv, hr⟩ := hl.outbox_job _ _ hm
  have hjob : m.jobId = p.2.jobId := congrArg EncodingJobMessage.jobId href
  refine ⟨job, by rw [← hjob]; exact hj, ?_⟩
  rw [← href, hv, hr, ← hjob]
  rfl

/-- A message that its job waits for is carried over. -/
theorem Carries.signalled (h : Carries s t) {jid : UUID} {job job' : Job}
    (hj : s.db.jobs.get? jid = some job) (hj' : t.db.jobs.get? jid = some job')
    (hp : job'.status = .pending) (hdue : job.IsDue s.clock)
    (hs : s.Signalled ⟨jid, job.videoId, job.renditionId⟩) :
    t.Signalled ⟨jid, job.videoId, job.renditionId⟩ := by
  refine (h _ hs fun job₁ hj₁ _ => ?_).resolve_right fun hno => hno job' hj' hp
  obtain rfl : job = job₁ := Option.some.inj (hj.symm.trans hj₁)
  exact ⟨⟨rfl, rfl⟩, hdue⟩

/-- A row of a pass under a step that forgets no job. -/
theorem RowHeld.keep {pass : Pass} {p : UUID × OutboxMessage} {job₀ : Job} (hl : s.db.Linked)
    (h : RowHeld s pass p job₀) (hw : Wakes s.db t.db) (hclock : s.clock ≤ t.clock)
    (hc : Carries s t) : RowHeld t pass p job₀ := by
  obtain ⟨job, hj, href⟩ := h.exists_job hl
  obtain ⟨m, hm, hmp, hpending⟩ := h.committed
  obtain ⟨m', hm', hmm', hkeep⟩ := hw.message _ _ hm
  refine ⟨h.loaded, h.pending, ⟨m', hm', hmm'.trans hmp, hkeep hpending⟩, fun job' hj' => ?_,
    fun job' hj' hcount => ?_, fun job' hj' hcount hp hsent => ?_⟩
  · exact (h.attemptCount job hj).trans (hw.job _ _ _ hj hj').1.attemptCount
  -- with as many attempts as when it was loaded, the job has not been claimed
  all_goals
    have hfollows := (hw.job _ _ _ hj hj').1
    have hsame : job.attemptCount = job₀.attemptCount :=
      le_antisymm (hcount ▸ hfollows.attemptCount) (h.attemptCount job hj)
    obtain ⟨hrun, hdue⟩ := h.unclaimed job hj hsame
    obtain ⟨hrun', hpending'⟩ := hfollows.unclaimed (hcount.trans hsame.symm) hrun
  · refine ⟨hrun', fun hp => ?_⟩
    obtain ⟨hp₀, hnext⟩ := hpending' hp
    intro at' hat
    exact ((hdue hp₀).mono hclock) at' (by rw [← hnext]; exact hat)
  · obtain ⟨hp₀, -⟩ := hpending' hp
    have hsignalled := h.sent job hj hsame hp₀ hsent
    rw [href] at hsignalled ⊢
    exact hc.signalled hj hj' hp (hdue hp₀) hsignalled

/-- A job that is pending under a step that forgets no job. -/
theorem Remembered.pending_keep (h : Remembered s) (hw : Wakes s.db t.db)
    (hclock : s.clock ≤ t.clock) (hc : Carries s t) (jid : UUID) (job' : Job)
    (hj' : t.db.jobs.get? jid = some job') (hp : job'.status = .pending) :
    t.db.Queued jid ∨
      (job'.IsDue t.clock ∧ t.Signalled ⟨jid, job'.videoId, job'.renditionId⟩) := by
  cases hj : s.db.jobs.get? jid with
  | none => exact Or.inl (hw.newJob jid job' hj hj')
  | some job =>
    obtain ⟨hfollows, hpending⟩ := hw.job jid job job' hj hj'
    rcases hpending hp with hq | ⟨hp₀, hnext⟩
    · exact Or.inl hq
    rcases h.pending jid job hj hp₀ with hq | ⟨hdue, hs⟩
    · exact Or.inl (hw.queued hq)
    · refine Or.inr ⟨fun at' hat => hdue.mono hclock at' (by rw [← hnext]; exact hat), ?_⟩
      rw [hfollows.videoId, hfollows.renditionId]
      exact hc.signalled hj hj' hp hdue hs

/-- **A step that leaves the passes alone** forgets no job, where its transaction
forgets none. -/
theorem Remembered.keep (hl : s.db.Linked) (h : Remembered s) (hw : Wakes s.db t.db)
    (hclock : s.clock ≤ t.clock) (hc : Carries s t) (hpasses : t.passes = s.passes) :
    Remembered t where
  pending := h.pending_keep hw hclock hc
  loaded := by
    rw [hpasses]
    exact h.loaded
  disjoint := by
    rw [hpasses]
    exact h.disjoint
  row := by
    rw [hpasses]
    intro pass hpass p hp
    obtain ⟨job₀, hrow⟩ := h.row pass hpass p hp
    exact ⟨job₀, hrow.keep hl hw hclock hc⟩

/-- A step that leaves the broker alone. -/
theorem Carries.of_eq (hready : t.ready = s.ready) (hworkers : t.workers = s.workers) :
    Carries s t := by
  intro m hm _
  rw [System.Signalled, hready, hworkers]
  exact Or.inl hm

/-- A message is published for a pending job that is due. -/
theorem isPublishable_eq_true {db : Db} {now : Timestamp} {m : OutboxMessage}
    (h : isPublishable db now m = true) :
    m.status = .pending ∧ ∃ job, db.jobs.get? m.jobId = some job ∧ isClaimable job now = true := by
  rw [isPublishable, Bool.and_eq_true, decide_eq_true_eq] at h
  refine ⟨h.1, ?_⟩
  have hjob := h.2
  cases hj : db.jobs.get? m.jobId with
  | none =>
    rw [hj] at hjob
    cases hjob
  | some job =>
    rw [hj] at hjob
    exact ⟨job, rfl, hjob⟩

/-- **A pass that opens** selects rows of jobs that are due. -/
theorem Remembered.opened (hl : s.db.Linked) (h : Remembered s) {now : Timestamp}
    {choice : OutboxChoice} {rows : List (UUID × OutboxMessage)}
    (hrows : publishableMessages s.db now choice
      (fun messageId => s.passes.any fun pass => pass.selects messageId) = rows)
    (hclock : s.clock ≤ now) (hdb : t.db = s.db) (hready : t.ready = s.ready)
    (hworkers : t.workers = s.workers) (ht : t.clock = now)
    (hpasses : t.passes = ⟨s.db, rows, []⟩ :: s.passes) : Remembered t := by
  have hw : Wakes s.db t.db := by
    rw [hdb]
    exact Wakes.refl s.db
  have hc : Carries s t := Carries.of_eq hready hworkers
  -- the pass selects rows that are publishable and that no other pass has selected
  have hmem : ∀ p ∈ rows, s.db.outboxMessages.get? p.1 = some p.2 ∧
      isPublishable s.db now p.2 = true ∧
      (s.passes.any fun pass => pass.selects p.1) = false := fun p hp =>
    mem_publishableMessages (by rw [hrows]; exact hp)
  refine ⟨h.pending_keep hw (by rw [ht]; exact hclock) hc, ?_, ?_, ?_⟩ <;> rw [hpasses]
  · refine List.forall_mem_cons.mpr ⟨⟨fun p hp => (hmem p hp).1, ?_⟩, h.loaded⟩
    rw [← hrows]
    exact nodup_publishableMessages _ _ _ _
  · refine List.pairwise_cons.mpr ⟨fun pass hpass p hp q hq => ?_, h.disjoint⟩
    have hlocked : pass.selects p.1 = false := by
      simpa using List.any_eq_false.mp (hmem p hp).2.2 pass hpass
    exact (Pass.selects_eq_false_iff.mp hlocked q hq).symm
  · refine List.forall_mem_cons.mpr ⟨fun p hp => ?_, fun pass hpass p hp => ?_⟩
    · obtain ⟨hget, hpublishable, -⟩ := hmem p hp
      obtain ⟨hpending, job, hj, hclaim⟩ := isPublishable_eq_true hpublishable
      obtain ⟨hstatus, hdue⟩ := isClaimable_iff.mp hclaim
      have hsame : ∀ job', t.db.jobs.get? p.2.jobId = some job' → job' = job := fun job' hj' => by
        rw [hdb, hj] at hj'
        exact (Option.some.inj hj').symm
      refine ⟨job, hj, hpending, ⟨p.2, by rw [hdb]; exact hget, rfl, hpending⟩,
        fun job' hj' => ?_, fun job' hj' _ => ?_, fun job' hj' _ _ hsent => ?_⟩
      · rw [hsame job' hj']
      · rw [hsame job' hj', hstatus, ht]
        exact ⟨nofun, fun _ => hdue⟩
      · obtain ⟨i, at', -, hanswer⟩ := hsent
        cases hanswer
    · obtain ⟨job₀, hrow⟩ := h.row pass hpass p hp
      exact ⟨job₀, hrow.keep hl hw (by rw [ht]; exact hclock) hc⟩

/-- **A pass that sends a row** has its message with the broker. -/
theorem Remembered.published (hl : s.db.Linked) (h : Remembered s) {index : ℕ}
    {answer : Except String Timestamp} {accepted : Bool} {pass : Pass}
    {row : UUID × OutboxMessage} (hpass : s.passes[index]? = some pass)
    (hrow : pass.rows[pass.answers.length]? = some row)
    (haccepted : answer.isOk = true → accepted = true) (hclock : s.clock ≤ t.clock)
    (hdb : t.db = s.db) (hworkers : t.workers = s.workers)
    (hready : t.ready = (if accepted then [row.2.toEncodingJobMessage] else []) ++ s.ready)
    (hpasses : t.passes = s.passes.set index { pass with answers := pass.answers ++ [answer] }) :
    Remembered t := by
  have hw : Wakes s.db t.db := by
    rw [hdb]
    exact Wakes.refl s.db
  -- a message that is sent only adds to the ready ones
  have hc : Carries s t := fun m hm _ => by
    rw [System.Signalled, hready, hworkers]
    exact Or.inl (hm.imp_left fun hm => List.mem_append_right _ hm)
  have hpass' : pass ∈ s.passes := List.mem_of_getElem? hpass
  have hmem : ∀ q ∈ t.passes,
      q = { pass with answers := pass.answers ++ [answer] } ∨ q ∈ s.passes := fun q hq => by
    rw [hpasses] at hq
    exact (List.mem_or_eq_of_mem_set hq).symm
  refine ⟨h.pending_keep hw hclock hc, fun q hq => ?_, ?_, fun q hq p hp => ?_⟩
  · rcases hmem q hq with rfl | hq
    · exact { h.loaded pass hpass' with }
    · exact h.loaded q hq
  · rw [hpasses]
    exact pairwise_set (f := Pass.rows)
      (R := fun rows rows' => ∀ p ∈ rows, ∀ q ∈ rows', p.1 ≠ q.1) h.disjoint hpass rfl
  · rcases hmem q hq with rfl | hq
    · obtain ⟨job₀, hheld⟩ := h.row pass hpass' p hp
      have hkeep : RowHeld t pass p job₀ := hheld.keep hl hw hclock hc
      refine ⟨job₀, { hkeep with sent := fun job hj hcount hpend hsent => ?_ }⟩
      obtain ⟨i, at', hi, hanswer⟩ := hsent
      -- the row was sent before, or just now
      rw [List.getElem?_append] at hanswer
      split at hanswer
      · exact hkeep.sent job hj hcount hpend ⟨i, at', hi, hanswer⟩
      · -- it is the row that has just been sent
        rename_i hlen
        obtain ⟨hzero, rfl⟩ : i - pass.answers.length = 0 ∧ answer = .ok at' := by
          have hlt := (List.getElem?_eq_some_iff.mp hanswer).1
          have hz : i - pass.answers.length = 0 := by simpa using hlt
          rw [hz] at hanswer
          exact ⟨hz, by simpa using hanswer⟩
        obtain rfl : i = pass.answers.length := by omega
        obtain rfl : row = p := Option.some.inj (hrow.symm.trans hi)
        rw [System.Signalled, hready, haccepted rfl, if_pos rfl]
        exact Or.inl List.mem_cons_self
    · obtain ⟨job₀, hheld⟩ := h.row q hq p hp
      exact ⟨job₀, hheld.keep hl hw hclock hc⟩

/-- **A pass that ends without its commit** leaves everything as it is. -/
theorem Remembered.abandoned (h : Remembered s) {index : ℕ} (hclock : t.clock = s.clock)
    (hdb : t.db = s.db) (hready : t.ready = s.ready) (hworkers : t.workers = s.workers)
    (hpasses : t.passes = s.passes.eraseIdx index) : Remembered t := by
  have hsub : ∀ pass ∈ t.passes, pass ∈ s.passes := fun pass hpass => by
    rw [hpasses] at hpass
    exact List.mem_of_mem_eraseIdx hpass
  obtain ⟨db, bucket, ready, workers, passes, history, clock⟩ := t
  obtain rfl : db = s.db := hdb
  obtain rfl : ready = s.ready := hready
  obtain rfl : workers = s.workers := hworkers
  obtain rfl : clock = s.clock := hclock
  refine ⟨h.pending, fun pass hpass => h.loaded pass (hsub pass hpass), ?_,
    fun pass hpass p hp => ?_⟩
  · rw [hpasses]
    exact h.disjoint.sublist (List.eraseIdx_sublist _ _)
  · obtain ⟨job₀, hheld⟩ := h.row pass (hsub pass hpass) p hp
    exact ⟨job₀, { hheld with }⟩

/-- **A row that a pass publishes** has a message that a worker will look at, unless
the row has been armed again. -/
theorem RowHeld.signalled {pass : Pass} {p : UUID × OutboxMessage} {job₀ job : Job}
    (h : RowHeld s pass p job₀) (hrearmed : pass.isRearmed s.db p = false)
    (hsent : pass.HasSent p) (hj : s.db.jobs.get? p.2.jobId = some job)
    (hp : job.status = .pending) :
    job.IsDue s.clock ∧ s.Signalled p.2.toEncodingJobMessage := by
  have hcount : job.attemptCount = job₀.attemptCount := by
    refine le_antisymm ?_ (h.attemptCount job hj)
    simpa [Pass.isRearmed, h.loaded, hj, hp] using hrearmed
  exact ⟨(h.unclaimed job hj hcount).2 hp, h.sent job hj hcount hp hsent⟩

/-- **A pending message stays under the commit of a pass**, or is sent: a row that the pass
has not sent stays pending, and one that it has is that of a job a worker will look at. -/
theorem Remembered.pending_committed (hl : s.db.Linked) (h : Remembered s)
    {openError closeError : Option String} {pass : Pass} (hmem : pass ∈ s.passes)
    (hkeeps : ∀ p ∈ pass.rows, (pass.rowAfter openError closeError p).status = .published →
      pass.isRearmed s.db p = false)
    {jid mid : UUID} {job : Job} {m : OutboxMessage} (hj : s.db.jobs.get? jid = some job)
    (hp : job.status = .pending) (hm : s.db.outboxMessages.get? mid = some m)
    (hmj : m.jobId = jid) (hmp : m.status = .pending) :
    (∃ m', (pass.commit openError closeError s.db).outboxMessages.get? mid = some m' ∧
      m'.jobId = jid ∧ m'.status = .pending) ∨
    (job.IsDue s.clock ∧ s.Signalled ⟨jid, job.videoId, job.renditionId⟩) := by
  have hloaded := h.loaded pass hmem
  by_cases hselects : pass.selects mid = true
  swap
  · refine Or.inl ⟨m, ?_, hmj, hmp⟩
    rw [Pass.get?_commit_of_not_selects _ _ _ (by simpa using hselects)]
    exact hm
  obtain ⟨p, hp', hmid⟩ := List.any_eq_true.mp hselects
  obtain rfl : p.1 = mid := by simpa using hmid
  obtain ⟨job₀, hheld⟩ := h.row pass hmem p hp'
  obtain ⟨m', hm', href, -⟩ := hheld.committed
  obtain rfl : m = m' := Option.some.inj (hm.symm.trans hm')
  have hpj : p.2.jobId = jid := (congrArg EncodingJobMessage.jobId href).symm.trans hmj
  by_cases hpub : (pass.rowAfter openError closeError p).status = .published
  · subst hpj
    obtain ⟨hdue, hs⟩ := hheld.signalled (hkeeps p hp' hpub)
      (Pass.exists_answer_of_published _ _ hloaded hp' hheld.pending hpub) hj hp
    obtain ⟨job', hj', href'⟩ := hheld.exists_job hl
    obtain rfl : job = job' := Option.some.inj (hj.symm.trans hj')
    rw [href'] at hs
    exact Or.inr ⟨hdue, hs⟩
  · refine Or.inl ⟨_, Pass.get?_commit_of_mem openError closeError s.db hloaded hp' hm, hmj, ?_⟩
    rw [Pass.status_flush_rowAfter _ _ hheld.pending hpub, hmp]

/-- **A pass that commits** forgets no job, if it publishes no row that has been
armed again. -/
theorem Remembered.committed (hl : s.db.Linked) (h : Remembered s) {index : ℕ}
    {openError closeError : Option String} {pass : Pass} (hpass : s.passes[index]? = some pass)
    (hkeeps : ∀ p ∈ pass.rows, (pass.rowAfter openError closeError p).status = .published →
      pass.isRearmed s.db p = false)
    (hclock : t.clock = s.clock) (hdb : t.db = pass.commit openError closeError s.db)
    (hready : t.ready = s.ready) (hworkers : t.workers = s.workers)
    (hpasses : t.passes = s.passes.eraseIdx index) : Remembered t := by
  have hmem : pass ∈ s.passes := List.mem_of_getElem? hpass
  have hloaded := h.loaded pass hmem
  have hjobs : t.db.jobs = s.db.jobs := by rw [hdb, Pass.commit_eq]
  have hsignalled : ∀ {m}, s.Signalled m → t.Signalled m := fun hm => by
    rw [System.Signalled, hready, hworkers]
    exact hm
  -- the rows of the other passes are not written
  have hother : ∀ q ∈ t.passes, q ∈ s.passes ∧ ∀ p ∈ q.rows,
      t.db.outboxMessages.get? p.1 = s.db.outboxMessages.get? p.1 := by
    intro q hq
    rw [hpasses] at hq
    have hdisjoint := (rel_of_mem_eraseIdx Pass.Disjoint.symm h.disjoint hpass hq).symm
    refine ⟨List.mem_of_mem_eraseIdx hq, fun p hp => ?_⟩
    rw [hdb]
    exact Pass.get?_commit_of_not_selects _ _ _ (Pass.selects_eq_false_iff.mpr
      fun p' hp' => (hdisjoint p hp p' hp').symm)
  refine ⟨fun jid job hj hp => ?_, fun q hq => h.loaded q (hother q hq).1, ?_, fun q hq p hp => ?_⟩
  · rw [hjobs] at hj
    rw [hclock]
    rcases h.pending jid job hj hp with ⟨mid, m, hm, hmj, hmp⟩ | ⟨hdue, hs⟩
    · rcases h.pending_committed hl hmem hkeeps hj hp hm hmj hmp with ⟨m', hm', hrest⟩ | ⟨hdue, hs⟩
      · exact Or.inl ⟨mid, m', by rw [hdb]; exact hm', hrest⟩
      · exact Or.inr ⟨hdue, hsignalled hs⟩
    · exact Or.inr ⟨hdue, hsignalled hs⟩
  · rw [hpasses]
    exact h.disjoint.sublist (List.eraseIdx_sublist _ _)
  · obtain ⟨hq', hsame⟩ := hother q hq
    obtain ⟨job₀, hheld⟩ := h.row q hq' p hp
    refine ⟨job₀, hheld.loaded, hheld.pending, ?_, ?_, ?_, ?_⟩
    · rw [hsame p hp]
      exact hheld.committed
    · rw [hjobs]
      exact hheld.attemptCount
    · rw [hjobs, hclock]
      exact hheld.unclaimed
    · rw [hjobs]
      exact fun job hj hcount hpend hsent => hsignalled (hheld.sent job hj hcount hpend hsent)

end Steps

/-! ### Every step -/

/-- A step of a worker forgets no job. -/
theorem WorkerMove.wakes {w w' : World} {claims : UUID → ℕ} {workerId : String}
    {m : EncodingJobMessage} {phase phase' : Phase} {action : WorkerAction} {events : List Event}
    (hl : w.db.Linked) (h : WorkerMove w claims workerId m phase action w' phase' events) :
    Wakes w.db w'.db := by
  cases h with
  | exhausted hid hs => exact Wakes.of_settles hl (Settles.of_settled hl hs)
  | claimed hid hs => exact Wakes.of_settles hl (Settles.of_settled hl hs)
  | concluded hc hcommits hid howns hs hpublication =>
    exact Wakes.of_settles hl (Settles.of_settled hl hs)
  | @beaten e e' progress action now hcontext hclaim =>
    exact Wakes.of_grown ((beat_chain w e now Scope.none).grown (fun _ _ _ _ h => h) id)
  | @beatenFailing e e' error action now hcontext hclaim =>
    exact Wakes.of_grown ((beat_chain w e now Scope.none).grown (fun _ _ _ _ h => h) id)
  | _ => exact Wakes.refl _

/-- **Every step forgets no job**, if it publishes no row that has been armed
again. -/
theorem System.Stepped.remembered {s t : System} {a : Action} (h : System.Stepped s a t)
    (hguard : KeepsRearmed s a) (hl : s.db.Linked) (hr : Remembered s) :
    Remembered { t with clock := a.readings.getLastD s.clock } := by
  obtain ⟨hclock, hkeeps⟩ := hguard
  have hle := hclock.le_clock
  have hc : Carries s { t with clock := a.readings.getLastD s.clock } := h.carries hclock
  cases h with
  | requested hop =>
    exact hr.keep hl (Wakes.of_grown (Op.grown (w := s.world) hop hl)) hle hc rfl
  | delivered hw hready => exact hr.keep hl (Wakes.refl _) hle hc rfl
  | worked hw hmove => exact hr.keep hl (hmove.wakes hl) hle hc rfl
  | settled hw => exact hr.keep hl (Wakes.refl _) hle hc rfl
  | disconnected hw => exact hr.keep hl (Wakes.refl _) hle hc rfl
  | crashed => exact hr.keep hl (Wakes.refl _) hle hc rfl
  | @opened now choice rows hrows => exact hr.opened hl hrows hle rfl rfl rfl rfl rfl
  | unopened => exact hr.keep hl (Wakes.refl _) hle hc rfl
  | published hpass hrow haccepted =>
    exact hr.published hl hpass hrow haccepted hle rfl rfl rfl rfl
  | @committed index openError closeError pass hpass hcomplete =>
    refine hr.committed hl hpass (fun p hp hpub => ?_) rfl rfl rfl rfl rfl
    simp only [publishesRearmed, hpass, List.any_eq_false] at hkeeps
    simpa [hpub] using hkeeps p hp
  | abandoned => exact hr.abandoned rfl rfl rfl rfl rfl
  | reaped hreap =>
    obtain ⟨log, -, hb⟩ := reap_batch hl hreap
    exact hr.keep hl (Wakes.of_settles hl hb.toSettles) hle hc rfl
  | unreaped => exact hr.keep hl (Wakes.refl _) hle hc rfl

/-- **No job is forgotten** in a run in which no pass publishes a row that has been armed
again. -/
theorem ReachableSystem.remembered {s : System} (h : ReachableSystem KeepsRearmed s) :
    Remembered s := by
  refine Reaches.invariant_of (J := fun s => s.db.Linked) (I := Remembered)
    (fun _ hs => ReachableSystem.linked hs) ?_ ?_ h
  · rintro _ rfl
    exact Remembered.start
  · rintro s a _ hl hr hguard hstep
    obtain ⟨t, ht, rfl⟩ := System.step_cases hstep
    exact ht.remembered hguard hl hr

/-- **A pass that publishes a row that has been armed again takes the arming back**:
the job is pending and not queued any more, and only a message that is left over from
before can wake it up. -/
theorem System.Stepped.not_queued {s t : System} {a : Action} (h : System.Stepped s a t)
    (hl : s.db.Linked) (hr : Remembered s) (hpublishes : publishesRearmed s a = true) :
    ∃ jid job, t.db.jobs.get? jid = some job ∧ job.status = .pending ∧ ¬ t.db.Queued jid := by
  have hlinked : t.db.Linked := h.linked hl
  cases h with
  | @committed index openError closeError pass hpass hcomplete =>
    simp only [publishesRearmed, hpass, List.any_eq_true, Bool.and_eq_true, decide_eq_true_eq]
      at hpublishes
    obtain ⟨p, hp, hpub, hrearmed⟩ := hpublishes
    have hmem := List.mem_of_getElem? hpass
    obtain ⟨job₀, hheld⟩ := hr.row pass hmem p hp
    obtain ⟨job, hj, -⟩ := hheld.exists_job hl
    obtain ⟨m, hm, href, -⟩ := hheld.committed
    have hcommitted := Pass.get?_commit_of_mem openError closeError s.db (hr.loaded pass hmem) hp hm
    have hpending : job.status = .pending := by
      simp only [Pass.isRearmed, hheld.loaded, hj, Bool.and_eq_true, decide_eq_true_eq] at hrearmed
      exact hrearmed.1
    refine ⟨p.2.jobId, job, ?_, hpending, ?_⟩
    · rw [Pass.commit_eq]
      exact hj
    · rintro ⟨mid, m', hm', hj', hp'⟩
      obtain rfl : mid = p.1 := hlinked.outbox_unique _ _ _ _ hm' hcommitted
        (hj'.trans (congrArg EncodingJobMessage.jobId href).symm)
      obtain rfl := Option.some.inj (hm'.symm.trans hcommitted)
      -- the pass has loaded the row as pending, and so writes the status
      have hflush : Table.flushColumn p.2.status (pass.rowAfter openError closeError p).status
          m.status = .pending := hp'
      rw [hheld.pending, hpub] at hflush
      cases hflush
  | _ => cases hpublishes

/-- The attempt of the first worker fails, and its message is settled. -/
def sampleFailure : List Action :=
  [.deliver "first" 0, .work "first" (.claim 3 3), .work "first" (.raised "no space"),
    .work "first" (.fail sampleSettings (sampleId 30) 4 true true), .settle "first"]

end RenditionPipeline
