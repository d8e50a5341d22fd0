import Mathlib.Data.Fintype.EquivFin
import RenditionPipeline.Library.Progress
import RenditionPipeline.Runs.Retries
import RenditionPipeline.System.Playable
import RenditionPipeline.System.Wakeups

/-!
# The loops of the services

Three processes run for ever: the publisher of the outbox calls `publish_once`, the reaper
calls `reap_once`, and a worker waits for messages. Here is what becomes of them when they are
left alone, under the settings that they read (`RenditionPipeline.Loops`): the steps they take
and the losses they suffer (`RenditionPipeline.Serviced`), what one round of the publisher
leaves when all its calls return (`RenditionPipeline.exists_publishRound`), and when a round of
the reaper commits (`RenditionPipeline.exists_reapRound`).

On a clock that goes forwards no heartbeat is later than the clock
(`RenditionPipeline.ReachableSystem.heartbeatsBy`), so that every job that is running is stale
once the timeout has passed; and of the workers only finitely many have ever had anything to
do (`RenditionPipeline.ReachableSystem.fewBusy`).
-/

namespace RenditionPipeline

/-- The `limit` of `reap_stale_encoding_jobs`, which `reap_once` leaves at its default. -/
def reapLimit : ℕ := 100

/-- What the loops read from the settings. -/
structure Loops where
  settings : Settings
  /-- `OUTBOX_PUBLISH_BATCH_SIZE` -/
  outboxPublishBatchSize : ℕ
  outboxPublishBatchSize_pos : 1 ≤ outboxPublishBatchSize
  /-- `JOB_STALE_TIMEOUT_SECONDS` -/
  jobStaleTimeoutSeconds : ℕ

namespace Loops

/-- The timeout of a heartbeat. -/
def staleTimeout (l : Loops) : Timestamp := seconds l.jobStaleTimeoutSeconds

/-- `publish_once`, up to the query of its pass. -/
def publishOnce (l : Loops) (now : Timestamp) : Action :=
  .openPass now (.limit l.outboxPublishBatchSize)

/-- `reap_once`, with the instant at which it computes its cutoff. The id of a message that
has to be added is drawn by `newId`. -/
def reapOnce (l : Loops) (cutoffAt : Timestamp) (newId : UUID → UUID) (now : Timestamp) : Action :=
  .reap l.settings (cutoffAt - l.staleTimeout) reapLimit (fun _ => false) newId now

/-- What happens to the services when they are left alone. They take their steps: no request,
and the rounds of the two loops as they are called. And they suffer losses: a worker dies or
loses its connection, a pass is abandoned. -/
def Takes (l : Loops) (s : System) : Action → Prop
  | .request _ => False
  | .work _ (.fail settings _ _ _ _) => settings = l.settings
  | .openPass now choice => Action.openPass now choice = l.publishOnce now
  | .reap settings staleBefore limit locked newId now => ∃ cutoffAt, s.clock ≤ cutoffAt ∧
      cutoffAt ≤ now ∧
      Action.reap settings staleBefore limit locked newId now = l.reapOnce cutoffAt newId now
  | _ => True

/-- **A retry can be scheduled** at an instant, for every attempt. -/
def CanRetry (l : Loops) (now : Timestamp) : Prop :=
  ∀ job, ∃ nextRunAt, scheduleRetry l.settings job now = .ok nextRunAt

/-- Every delay that is configured has to end before the last instant of a `datetime`. -/
theorem canRetry {l : Loops} {now : Timestamp} {backoffs : List ℕ}
    (h : l.settings.jobRetryBackoffSeconds = .ok backoffs) (hne : backoffs ≠ [])
    (hall : ∀ backoff ∈ backoffs, backoff < timedeltaLimitSeconds ∧
      now + seconds backoff ≤ datetimeMax) : l.CanRetry now := by
  intro job
  have hpos := List.length_pos_of_ne_nil hne
  let index := if job.attemptCount - 1 ≥ backoffs.length then backoffs.length - 1
    else job.attemptCount - 1
  have hindex : index < backoffs.length := by
    simp only [index]
    split_ifs <;> omega
  obtain ⟨hlimit, hmax⟩ := hall backoffs[index] (List.getElem_mem hindex)
  have hbackoff : retryBackoffForAttempt l.settings job.attemptCount =
      .ok (seconds backoffs[index]) := by
    rw [retryBackoffForAttempt, h]
    simp only [bind, Except.bind]
    rw [show backoffs[if job.attemptCount - 1 ≥ backoffs.length then backoffs.length - 1
      else job.attemptCount - 1]? = some backoffs[index] from List.getElem?_eq_getElem hindex]
    exact if_pos hlimit
  refine ⟨now + seconds backoffs[index], ?_⟩
  rw [scheduleRetry, hbackoff]
  exact if_pos hmax

end Loops

/-- **The services left alone**, on a clock that goes forwards: their steps and their losses, with
an encoder that lists its segments, and no pass that publishes a row that has been armed
again. -/
structure Serviced (l : Loops) (s : System) (a : Action) : Prop where
  keeps : KeepsRearmed s a
  lists : EncoderListsSegments s a
  takes : l.Takes s a

/-- A clock that goes forwards, and an encoder that lists its segments. -/
abbrev Timely (s : System) (a : Action) : Prop := ClockForward s a ∧ EncoderListsSegments s a

theorem Serviced.timely {l : Loops} (s : System) (a : Action) (h : Serviced l s a) : Timely s a :=
  ⟨h.keeps.1, h.lists⟩

/-- A step that is no commit of a pass publishes nothing that has been armed again. -/
theorem Serviced.of_forward {l : Loops} {s : System} {a : Action} (hclock : ClockForward s a)
    (hno : publishesRearmed s a = false) (hlists : EncoderListsSegments s a)
    (htakes : l.Takes s a) :
    Serviced l s a :=
  ⟨⟨hclock, hno⟩, hlists, htakes⟩

/-! ### Heartbeats -/

/-- No heartbeat is later than an instant. -/
def Db.HeartbeatsBy (db : Db) (instant : Timestamp) : Prop :=
  ∀ jid job b, db.jobs.get? jid = some job → job.heartbeatAt = some b → b ≤ instant

section Heartbeats

variable {db db' : Db} {instant instant' : Timestamp}

theorem Db.HeartbeatsBy.mono (h : db.HeartbeatsBy instant) (hle : instant ≤ instant') :
    db.HeartbeatsBy instant' := fun jid job b hj hb => (h jid job b hj hb).trans hle

theorem Db.HeartbeatsBy.of_jobs (h : db.HeartbeatsBy instant) (hjobs : db'.jobs = db.jobs) :
    db'.HeartbeatsBy instant := by
  intro jid job b hj
  rw [hjobs] at hj
  exact h jid job b hj

/-- Settling a job sets its heartbeat to the instant of a claim, or takes it away. -/
theorem Db.HeartbeatsBy.settled (h : db.HeartbeatsBy instant) {loaded : LoadedJob db} {o : Outcome}
    {publication : Option Publication} (hs : Settled loaded o publication db')
    (hclaim : ∀ workerId now, o = .running workerId now → now ≤ instant) :
    db'.HeartbeatsBy instant := by
  intro jid job b hj hb
  rcases hs.get?_job hj with ⟨-, rfl⟩ | ⟨-, hj⟩
  · cases o with
    | running workerId now =>
      obtain rfl := Option.some.inj hb
      exact hclaim workerId now rfl
    | _ => cases hb
  · exact h jid job b hj hb

/-- A beat sets a heartbeat to its own instant. -/
theorem Db.HeartbeatsBy.beat (h : db.HeartbeatsBy instant) (e : Execution) {now : Timestamp}
    (hle : now ≤ instant) : (RenditionPipeline.beat db e now).1.HeartbeatsBy instant := by
  rw [RenditionPipeline.beat]
  split
  · exact h
  rename_i hok
  obtain ⟨loaded, hid, -, rfl⟩ := heartbeatEncodingJob_eq_ok hok
  split
  · intro jid job b hj hb
    rw [Table.get?_modify] at hj
    split at hj
    · obtain ⟨job₀, -, rfl⟩ := Option.map_eq_some_iff.mp hj
      obtain rfl := Option.some.inj hb
      exact hle
    · exact h jid job b hj hb
  · exact h

/-- A failure that is recorded sets no heartbeat. -/
theorem Db.HeartbeatsBy.failed {bucket : Bucket} {claims : UUID → ℕ} {workerId : String}
    {m : EncodingJobMessage} {e : Execution} {error : String} {settings : Settings} {newId : UUID}
    {now : Timestamp} {uploadOk commitOk : Bool} {r : WorkerStep} (h : db.HeartbeatsBy instant)
    (hstep : workerStep db bucket claims workerId m (.failing e error)
      (.fail settings newId now uploadOk commitOk) = some r) : r.db.HeartbeatsBy instant := by
  simp only [RenditionPipeline.workerStep] at hstep
  split at hstep
  · rw [← Option.some.inj hstep]
    exact h
  rename_i marked hok
  have hmarked : marked.db.HeartbeatsBy instant := by
    obtain ⟨loaded, -, ⟨-, rfl⟩ | ⟨-, -, -, nextRunAt, -, hs⟩ | ⟨-, -, hs⟩⟩ :=
      markEncodingJobFailed_eq_ok hok
    · exact h
    · exact h.settled hs fun _ _ ho => by cases ho
    · exact h.settled hs fun _ _ ho => by cases ho
  rw [← Option.some.inj hstep]
  split
  · exact hmarked
  · exact h

/-- **A step of a worker** sets no heartbeat later than its readings of the clock. -/
theorem Db.HeartbeatsBy.workerStep {bucket : Bucket} {claims : UUID → ℕ} {workerId : String}
    {m : EncodingJobMessage} {phase : Phase} {action : WorkerAction} {r : WorkerStep}
    (h : db.HeartbeatsBy instant) (hread : ∀ now ∈ action.readings, now ≤ instant)
    (hstep : workerStep db bucket claims workerId m phase action = some r) :
    r.db.HeartbeatsBy instant := by
  obtain ⟨db', bucket', phase', events⟩ := r
  have hmove := workerStep_move (w := ⟨db, bucket⟩) hstep
  have hnow : ∀ {now}, action.readings = [now] → now ≤ instant := fun hr =>
    hread _ (by rw [hr]; exact List.mem_singleton_self _)
  cases phase with
  | received =>
    cases hmove with
    | exhausted hid hs => exact h.settled hs nofun
    | claimed hid hs =>
      refine h.settled hs fun workerId now ho => ?_
      obtain ⟨-, rfl⟩ := Outcome.running.inj ho
      exact hread _ (List.mem_cons_of_mem _ (List.mem_singleton_self _))
    | concluded hc => cases hc
    | _ => exact h
  | processing e progress =>
    cases action with
    | heartbeat now =>
      obtain ⟨rfl, -⟩ := WorkerStep.mk.inj (Option.some.inj hstep)
      exact h.beat e (hnow rfl)
    | checkOwnership now =>
      obtain ⟨rfl, -⟩ := WorkerStep.mk.inj (Option.some.inj hstep)
      exact h.beat e (hnow rfl)
    | _ =>
      -- the processor does not write to the database
      obtain ⟨x, -, hx⟩ := Option.map_eq_some_iff.mp hstep
      obtain ⟨rfl, -⟩ := WorkerStep.mk.inj hx
      exact h
  | failing e error =>
    cases action with
    | heartbeat now =>
      obtain ⟨rfl, -⟩ := WorkerStep.mk.inj (Option.some.inj hstep)
      exact h.beat e (hnow rfl)
    | fail settings newId now uploadOk commitOk =>
      exact h.failed hstep
    | unavailable =>
      obtain ⟨rfl, -⟩ := WorkerStep.mk.inj (Option.some.inj hstep)
      exact h
    | _ => cases hstep
  | concluding e result =>
    cases hmove with
    | concluded hc hcommits hid howns hs =>
      refine h.settled hs ?_
      cases hc <;> exact nofun
    | _ => exact h
  | settling action => cases hstep

/-- A batch of the reaper takes heartbeats away. -/
theorem Db.HeartbeatsBy.batch {log : List Settlement} (h : db.HeartbeatsBy instant)
    (hb : Batch db log db') : db'.HeartbeatsBy instant := by
  intro jid job b hj hbeat
  rcases hb.get?_job hj with ⟨-, o, job₀, hlog, -, -, rfl⟩ | ⟨-, hj⟩
  · rcases hb.outcome _ o hlog with ⟨error, now, nextRunAt, rfl⟩ | ⟨error, now, rfl⟩ <;> cases hbeat
  · exact h jid job b hj hbeat

end Heartbeats

/-- A reading of a step is not later than the clock after it. -/
theorem ClockForward.reading_le {s : System} {a : Action} (h : ClockForward s a) {now : Timestamp}
    (hnow : now ∈ a.readings) : now ≤ a.readings.getLastD s.clock := by
  rw [List.getLastD_eq_getLast?]
  obtain ⟨last, hlast⟩ : ∃ last, a.readings.getLast? = some last :=
    Option.isSome_iff_exists.mp (by simpa using List.ne_nil_of_mem hnow)
  rw [hlast, Option.getD_some]
  have hpairwise : a.readings.Pairwise (· ≤ ·) := (List.pairwise_cons.mp h).2
  obtain ⟨l, hl⟩ := List.getLast?_eq_some_iff.mp hlast
  rw [hl] at hnow hpairwise
  rcases List.mem_append.mp hnow with hnow | hnow
  · exact (List.pairwise_append.mp hpairwise).2.2 _ hnow _ (List.mem_singleton_self _)
  · rw [List.mem_singleton.mp hnow]

/-- **A step keeps the heartbeats behind the clock.** -/
theorem System.heartbeatsBy_of_step {s s' : System} {a : Action} (hl : s.db.Linked)
    (hc : s'.db.Coherent) (h : s.db.HeartbeatsBy s.clock) (hclock : ClockForward s a)
    (hstep : s.step a = some s') : s'.db.HeartbeatsBy s'.clock := by
  obtain ⟨t, ht, rfl⟩ := System.step_cases hstep
  have hmono := h.mono hclock.le_clock
  cases ht with
  | @requested op hop =>
    intro jid job b hj hb
    cases hold : s.db.jobs.get? jid with
    | some job₀ =>
      obtain rfl := Option.some.inj
        ((get?_job_of_isUploadRequest (w := s.world) hop hl hold).symm.trans hj)
      exact hmono jid job₀ b hold hb
    | none =>
      -- a new job has no heartbeat
      have hpending := ((Op.grown (w := s.world) hop hl).newJob jid job hj hold).1
      have hrun := (hc.owned jid job hj).heartbeatAt.mp (by rw [hb]; rfl)
      rw [hpending] at hrun
      cases hrun
  | @worked worker m phase phase' connected action db' bucket' events hw hmove =>
    obtain ⟨m', phase₀, connected', r, -, hr, hdb, -⟩ := System.step_work hstep
    rw [show db' = r.db from hdb]
    exact hmono.workerStep (fun now hnow => hclock.reading_le hnow) hr
  | committed hpass hcomplete => exact hmono.of_jobs (by rw [Pass.commit_eq])
  | reaped hreap =>
    obtain ⟨log, -, hb⟩ := reap_batch hl hreap
    exact hmono.batch hb
  | _ => exact hmono

/-- **No heartbeat is later than the clock.** -/
theorem ReachableSystem.heartbeatsBy {s : System} (h : ReachableSystem ClockForward s) :
    s.db.HeartbeatsBy s.clock := by
  induction h with
  | start hs =>
    subst hs
    exact fun _ _ _ hj => by cases hj
  | step hr hg hstep ih =>
    exact System.heartbeatsBy_of_step (ReachableSystem.linked hr)
      (ReachableSystem.coherent (Reaches.step hr hg hstep)) ih hg hstep

/-! ### Workers -/

/-- Only finitely many workers have something to do, or are stopped. -/
def System.FewBusy (s : System) : Prop := ∃ ws : List String, ∀ w, w ∉ ws → s.workers w = .idle

/-- A step is a step of one worker at most. -/
theorem System.Stepped.workers_eq {s t : System} {a : Action} (h : System.Stepped s a t) :
    ∃ worker, ∀ w, w ≠ worker → t.workers w = s.workers w := by
  cases h with
  | @delivered worker => exact ⟨worker, fun w hne => Function.update_of_ne hne _ _⟩
  | @worked worker => exact ⟨worker, fun w hne => Function.update_of_ne hne _ _⟩
  | @settled worker => exact ⟨worker, fun w hne => Function.update_of_ne hne _ _⟩
  | @disconnected worker => exact ⟨worker, fun w hne => Function.update_of_ne hne _ _⟩
  | @crashed worker => exact ⟨worker, fun w hne => Function.update_of_ne hne _ _⟩
  | _ => exact ⟨"", fun _ _ => rfl⟩

theorem ReachableSystem.fewBusy {guard : System → Action → Prop} {s : System}
    (h : ReachableSystem guard s) : s.FewBusy := by
  refine h.invariant (I := System.FewBusy) ?_ ?_
  · rintro _ rfl
    exact ⟨[], fun _ _ => rfl⟩
  · rintro s a _ ⟨ws, hws⟩ - hstep
    obtain ⟨t, ht, rfl⟩ := System.step_cases hstep
    obtain ⟨worker, hother⟩ := ht.workers_eq
    refine ⟨worker :: ws, fun w hw => ?_⟩
    rw [List.mem_cons, not_or] at hw
    exact (hother w hw.1).trans (hws w hw.2)

/-- **There is always a worker that is idle.** -/
theorem System.FewBusy.exists_idle {s : System} (h : s.FewBusy) : ∃ w, s.workers w = .idle := by
  obtain ⟨ws, hws⟩ := h
  obtain ⟨w, hw⟩ := Infinite.exists_notMem_finset ws.toFinset
  exact ⟨w, hws w (by simpa using hw)⟩

/-! ### A round of the publisher -/

/-- A pass whose calls have all returned. -/
def sentPass (db : Db) (rows : List (UUID × OutboxMessage)) (now : Timestamp) : Pass :=
  ⟨db, rows, List.replicate rows.length (.ok now)⟩

/-- The state in which a pass has sent its first `n` rows. -/
def System.sending (s : System) (rows : List (UUID × OutboxMessage)) (now : Timestamp) (n : ℕ) :
    System :=
  { s with
    ready := ((rows.take n).map fun p => p.2.toEncodingJobMessage).reverse ++ s.ready
    passes := [⟨s.db, rows, List.replicate n (.ok now)⟩]
    clock := now }

section Publishing

variable {l : Loops} {s : System} {rows : List (UUID × OutboxMessage)} {now : Timestamp}

/-- A pass with nothing committed in between has no row that has been armed again. -/
theorem Pass.isRearmed_self (pass : Pass) (p : UUID × OutboxMessage) :
    pass.isRearmed pass.loaded p = false := by
  rw [isRearmed]
  cases pass.loaded.jobs.get? p.2.jobId with
  | none => rfl
  | some job => simp

/-- **The next row is sent.** -/
theorem System.leads_sending {n : ℕ} (hn : n ≤ rows.length) :
    Leads System.step (Serviced l) (s.sending rows now 0) (s.sending rows now n) := by
  induction n with
  | zero => exact Leads.refl _
  | succ n ih =>
    have hlt : n < rows.length := hn
    refine (ih (by omega)).trans (Leads.single (a := .publish 0 (.ok now) true) ?_ ?_)
    · exact Serviced.of_forward (by simp [ClockForward, Action.readings, System.sending]) rfl
        trivial trivial
    · have hrow : rows[n]? = some rows[n] := List.getElem?_eq_getElem hlt
      have hsent : rows.take (n + 1) = rows.take n ++ [rows[n]] := by
        rw [List.take_add_one, hrow, Option.toList_some]
      rw [System.sending, System.sending, hsent, List.replicate_succ', List.map_append,
        List.reverse_append]
      simp only [System.step, System.act, List.getElem?_cons_zero, List.length_replicate, hrow]
      rfl

/-- The answer of a pass whose calls have all returned. -/
theorem lookup_zip_replicate {α β γ : Type} [BEq α] [LawfulBEq α] {l : List (α × β)} {b : γ}
    {p : α × β} (hp : p ∈ l) :
    ((l.map Prod.fst).zip (List.replicate l.length b)).lookup p.1 = some b := by
  induction l with
  | nil => cases hp
  | cons q l ih =>
    rw [List.map_cons, List.length_cons, List.replicate_succ, List.zip_cons_cons,
      List.lookup_cons]
    split
    · rfl
    · rename_i hne
      rcases List.mem_cons.mp hp with rfl | hp
      · simp at hne
      · exact ih hp

theorem rowAfter_sentPass (db : Db) {p : UUID × OutboxMessage} (hp : p ∈ rows) :
    (sentPass db rows now).rowAfter none none p = publishedMessage now p.2 := by
  have hanswer : ((sentPass db rows now).session none none).publish p.1 = .ok now := by
    show (((rows.map Prod.fst).zip (List.replicate rows.length
      (.ok now : Except String Timestamp))).lookup p.1).getD (.error "") = .ok now
    rw [lookup_zip_replicate hp]
    rfl
  simp only [Pass.rowAfter, hanswer]
  rfl

/-- **What a round of the publisher leaves** when all its calls return: the messages of its
rows are in the queue, and these rows are published. -/
structure PublishRound (s : System) (rows : List (UUID × OutboxMessage)) (t : System) : Prop where
  jobs : t.db.jobs = s.db.jobs
  sent : ∀ p ∈ rows, p.2.toEncodingJobMessage ∈ t.ready
  published : ∀ p ∈ rows, ∃ m, t.db.outboxMessages.get? p.1 = some m ∧ m.status = .published
  kept : ∀ mid, mid ∉ rows.map Prod.fst →
    t.db.outboxMessages.get? mid = s.db.outboxMessages.get? mid
  ready : s.ready ⊆ t.ready
  workers : t.workers = s.workers
  passes : t.passes = []

/-- The rows of a pass that commits with all calls returned. -/
theorem publishRound_committed (s : System) (hrows : publishableMessages s.db now
      (.limit l.outboxPublishBatchSize) (fun _ => false) = rows) :
    PublishRound s rows { s.sending rows now rows.length with
      db := (sentPass s.db rows now).commit none none s.db
      passes := [] } where
  jobs := by rw [Pass.commit_eq]
  sent := by
    intro p hp
    refine List.mem_append_left _ (List.mem_reverse.mpr (List.mem_map.mpr ⟨p, ?_, rfl⟩))
    rwa [List.take_length]
  published := by
    intro p hp
    have hget : ∀ q ∈ rows, s.db.outboxMessages.get? q.1 = some q.2 ∧ q.2.status = .pending := by
      intro q hq
      obtain ⟨hget, hpublishable, -⟩ := mem_publishableMessages
        (show (q.1, q.2) ∈ publishableMessages s.db now (.limit l.outboxPublishBatchSize) _ by
          rw [hrows]
          exact hq)
      exact ⟨hget, (isPublishable_eq_true hpublishable).1⟩
    have hloaded : (sentPass s.db rows now).Loaded := by
      refine ⟨fun q hq => (hget q hq).1, ?_⟩
      show (rows.map Prod.fst).Nodup
      rw [← hrows]
      exact nodup_publishableMessages _ _ _ _
    obtain ⟨hp₁, hpending⟩ := hget p hp
    refine ⟨_, Pass.get?_commit_of_mem none none s.db hloaded hp hp₁, ?_⟩
    rw [rowAfter_sentPass s.db hp]
    show Table.flushColumn p.2.status .published p.2.status = .published
    rw [hpending]
    rfl
  kept := by
    intro mid hmid
    refine Pass.get?_commit_of_not_selects _ _ _ (Pass.selects_eq_false_iff.mpr fun p hp he => ?_)
    exact hmid (List.mem_map.mpr ⟨p, hp, he⟩)
  ready := List.subset_append_right _ _
  workers := rfl
  passes := rfl

/-- **A round of the publisher**, with every call returning, where no pass is open. -/
theorem exists_publishRound (l : Loops) (hpasses : s.passes = []) (hnow : s.clock ≤ now)
    (hrows : publishableMessages s.db now (.limit l.outboxPublishBatchSize) (fun _ => false) = rows)
    (hne : rows ≠ []) :
    ∃ t, Leads System.step (Serviced l) s t ∧ PublishRound s rows t ∧ t.clock = now := by
  have hopen : Leads System.step (Serviced l) s (s.sending rows now 0) := by
    refine Leads.single (a := l.publishOnce now) ?_ ?_
    · exact Serviced.of_forward (by simpa [ClockForward, Action.readings, Loops.publishOnce]) rfl
        trivial rfl
    · have hrows' : publishableMessages s.db now (.limit l.outboxPublishBatchSize)
          (fun messageId => s.passes.any fun pass => pass.selects messageId) = rows := by
        rw [hpasses]
        exact hrows
      have hact : s.act (l.publishOnce now) = some { s with passes := [⟨s.db, rows, []⟩] } := by
        simp only [Loops.publishOnce, System.act, hrows', if_neg hne]
        rw [hpasses]
      rw [System.step, hact]
      rfl
  have hcommit : Leads System.step (Serviced l) (s.sending rows now rows.length)
      { s.sending rows now rows.length with
        db := (sentPass s.db rows now).commit none none s.db
        passes := [] } := by
    refine Leads.single (a := .commitPass 0 none none) ?_ ?_
    · refine Serviced.of_forward (by simp [ClockForward, Action.readings]) ?_ trivial trivial
      simp only [publishesRearmed, System.sending, List.getElem?_cons_zero, List.any_eq_false,
        Bool.and_eq_true, not_and]
      intro p _ _
      rw [Bool.not_eq_true]
      exact Pass.isRearmed_self (sentPass s.db rows now) p
    · have hcomplete : (sentPass s.db rows now).isComplete none = true := by
        simp [Pass.isComplete, sentPass]
      have hact : (s.sending rows now rows.length).act (.commitPass 0 none none) =
          some { s.sending rows now rows.length with
            db := (sentPass s.db rows now).commit none none s.db
            passes := [] } := if_pos hcomplete
      rw [System.step, hact]
      rfl
  exact ⟨_, (hopen.trans (System.leads_sending le_rfl)).trans hcommit,
    publishRound_committed s hrows, rfl⟩

end Publishing

/-! ### A round of the reaper -/

/-- **A round of the reaper commits** when retries can be scheduled. -/
theorem exists_reapRound (l : Loops) {s : System} (hl : s.db.Linked) {cutoffAt now : Timestamp}
    (hcutoff : s.clock ≤ cutoffAt) (hnow : cutoffAt ≤ now) (hretry : l.CanRetry now) :
    ∃ t log, Leads System.step (Serviced l) s t ∧
      log.map Prod.fst = staleJobs s.db (cutoffAt - l.staleTimeout) reapLimit (fun _ => false) ∧
      Batch s.db log t.db ∧ t.ready = s.ready ∧ t.workers = s.workers ∧ t.passes = s.passes ∧
      t.clock = now := by
  obtain ⟨db', hreap⟩ : ∃ db', reapJobs l.settings id now
      (staleJobs s.db (cutoffAt - l.staleTimeout) reapLimit fun _ => false) s.db = .ok db' :=
    exists_reapJobs hl.toReferenced
      (nodup_staleJobs s.db (cutoffAt - l.staleTimeout) reapLimit fun _ => false)
      (fun _ hid => mem_staleJobs hid) (fun _ _ job _ _ => hretry job)
  have hok : reapStaleEncodingJobs l.settings s.db (cutoffAt - l.staleTimeout) reapLimit
      (fun _ => false) id now = .ok (db',
        (staleJobs s.db (cutoffAt - l.staleTimeout) reapLimit fun _ => false).length) := by
    rw [reapStaleEncodingJobs, hreap]
    rfl
  obtain ⟨log, hlog, hbatch⟩ := reap_batch hl hok
  let t : System := { s with
    db := db'
    history := (staleJobs s.db (cutoffAt - l.staleTimeout) reapLimit fun _ => false).map
      Event.reaped ++ s.history
    clock := now }
  refine ⟨t, log, Leads.single (a := l.reapOnce cutoffAt id now) ?_ ?_, hlog, hbatch, rfl, rfl,
    rfl, rfl⟩
  · refine Serviced.of_forward ?_ rfl trivial ⟨cutoffAt, hcutoff, hnow, rfl⟩
    simpa [ClockForward, Action.readings, Loops.reapOnce] using hcutoff.trans hnow
  · simp only [Loops.reapOnce, System.step, System.act, hok]
    rfl

end RenditionPipeline
