import RenditionPipeline.System.Clock

/-!
# Leases

A heartbeat is a lease. The reaper goes by a cutoff that lies the timeout back from when
it was computed, so that a job is not taken from its worker before the timeout of the
heartbeat that the worker has recorded last, whatever happens in between; and the
answers from memory end before that, because the timeout is no shorter than the interval
between two checks (`RenditionPipeline.Leases`).

What breaks this is a check whose call raises. The checker notes the time of the check
before the call, and answers that the job is not lost, so that for five seconds no one
asks again. It is harmless as long as the last heartbeat is young enough to outlive these
five seconds (`RenditionPipeline.TimedSystem.RaisesInTime`); in the runs in which every
check that raises is so, a worker that is let pass owns its job
(`RenditionPipeline.passed_check_owned`), and in others it may overwrite the output of
its successor (`RenditionPipeline.raising_check_passed`).
-/

namespace RenditionPipeline

/-- **A worker holds a job** by a heartbeat: the job is running under its id, and the
heartbeat is its latest. -/
def HeldBy (db : Db) (worker : String) (jobId : UUID) (heartbeatAt : Timestamp) : Prop :=
  ∃ job, db.jobs.get? jobId = some job ∧ ownsRunningJob job worker = true ∧
    job.heartbeatAt = some heartbeatAt

/-! ### Beats -/

section Beats

variable {db : Db} {e : Execution} {now : Timestamp}

/-- A beat is recorded in a job that is owned, and changes nothing in one that is not. -/
theorem beat_eq (hl : db.Linked) {job : Job} (hj : db.jobs.get? e.context.jobId = some job) :
    beat db e now = if ownsRunningJob job e.context.workerId then
      ({ db with jobs := db.jobs.modify e.context.jobId fun job =>
        { job with heartbeatAt := some now } }, false) else (db, true) := by
  obtain ⟨loaded, hload, -, rfl⟩ := hl.exists_loaded hj
  unfold beat heartbeatEncodingJob
  rw [hload]
  by_cases ho : ownsRunningJob loaded.job e.context.workerId = true
  · simp [bind, Except.bind, pure, Except.pure, ho]
  · simp [bind, Except.bind, pure, Except.pure, ho]

/-- A beat that finds its job owned renews the lease. -/
theorem held_of_beat (hl : db.Linked) (hsome : (db.jobs.get? e.context.jobId).isSome)
    (hb : (beat db e now).2 = false) :
    HeldBy (beat db e now).1 e.context.workerId e.context.jobId now := by
  obtain ⟨job, hj⟩ := Option.isSome_iff_exists.mp hsome
  rw [beat_eq hl hj] at hb ⊢
  split at hb
  · rename_i ho
    rw [if_pos ho]
    refine ⟨_, by rw [Table.get?_modify_self, hj]; rfl, ?_, rfl⟩
    exact ho
  · cases hb

/-- A beat that finds its job lost changes nothing. -/
theorem beat_of_lost (hl : db.Linked) (hsome : (db.jobs.get? e.context.jobId).isSome)
    (hb : (beat db e now).2 = true) : (beat db e now).1 = db := by
  obtain ⟨job, hj⟩ := Option.isSome_iff_exists.mp hsome
  rw [beat_eq hl hj] at hb ⊢
  split at hb
  · cases hb
  · rename_i ho
    rw [if_neg ho]

/-- A beat leaves the leases of the other workers. -/
theorem HeldBy.beat (hl : db.Linked) (hsome : (db.jobs.get? e.context.jobId).isSome)
    {worker : String} (hne : worker ≠ e.context.workerId) {jobId : UUID} {heartbeatAt : Timestamp}
    (h : HeldBy db worker jobId heartbeatAt) :
    HeldBy (RenditionPipeline.beat db e now).1 worker jobId heartbeatAt := by
  obtain ⟨job, hj, ho, hh⟩ := h
  obtain ⟨job', hj'⟩ := Option.isSome_iff_exists.mp hsome
  rw [beat_eq hl hj']
  split
  · rename_i ho'
    have hid : jobId ≠ e.context.jobId := by
      rintro rfl
      obtain rfl : job = job' := Option.some.inj (hj.symm.trans hj')
      have hw := (status_of_ownsRunningJob ho).2
      rw [(status_of_ownsRunningJob ho').2, Option.some.injEq] at hw
      exact hne hw.symm
    exact ⟨job, by rw [Table.get?_modify_of_ne hid]; exact hj, ho, hh⟩
  · exact ⟨job, hj, ho, hh⟩

end Beats

/-! ### What a step does to the jobs that workers hold -/

/-- A settled job was not another worker's: the others hold what they held. -/
theorem HeldBy.settled {db db' : Db} {loaded : LoadedJob db} {o : Outcome}
    {publication : Option Publication} (hs : Settled loaded o publication db') {worker : String}
    (ho : ownsRunningJob loaded.job worker = false) {jobId : UUID} {heartbeatAt : Timestamp}
    (h : HeldBy db worker jobId heartbeatAt) : HeldBy db' worker jobId heartbeatAt := by
  obtain ⟨job, hj, howns, hh⟩ := h
  have hne : jobId ≠ loaded.jobId := by
    rintro rfl
    obtain rfl : loaded.job = job := Option.some.inj (loaded.get?_job.symm.trans hj)
    rw [ho] at howns
    cases howns
  exact ⟨job, by rw [hs.get?_job_of_ne hne]; exact hj, howns, hh⟩

/-- **A step of a worker leaves the leases of the others.** -/
theorem WorkerMove.held {w w' : World} {claims : UUID → ℕ} {workerId : String}
    {m : EncodingJobMessage} {phase phase' : Phase} {action : WorkerAction} {events : List Event}
    (h : WorkerMove w claims workerId m phase action w' phase' events) (hl : w.db.Linked)
    (hcontext : ∀ e, phase.execution = some e →
      e.context.workerId = workerId ∧ (w.db.jobs.get? e.context.jobId).isSome)
    {worker : String} (hne : worker ≠ workerId) {jobId : UUID} {heartbeatAt : Timestamp}
    (hheld : HeldBy w.db worker jobId heartbeatAt) : HeldBy w'.db worker jobId heartbeatAt := by
  cases h with
  | exhausted hid hs =>
    exact hheld.settled hs (ownsRunningJob_eq_false (by rw [hs.enabled.1]; exact nofun))
  | claimed hid hs =>
    exact hheld.settled hs (ownsRunningJob_eq_false (by rw [hs.enabled.1]; exact nofun))
  | @beaten e e' progress action now =>
    obtain ⟨hw, hsome⟩ := hcontext e rfl
    exact hheld.beat hl hsome (by rw [hw]; exact hne)
  | @beatenFailing e e' error action now =>
    obtain ⟨hw, hsome⟩ := hcontext e rfl
    exact hheld.beat hl hsome (by rw [hw]; exact hne)
  | @concluded phase action e o loaded publication db' answer hc hcommits hid howns hs =>
    obtain ⟨hw, -⟩ := hcontext e (by cases hc <;> rfl)
    refine hheld.settled hs ?_
    by_contra ho
    rw [Bool.not_eq_false] at ho
    have hid := (status_of_ownsRunningJob ho).2
    rw [(status_of_ownsRunningJob howns).2, hw, Option.some.injEq] at hid
    exact hne hid.symm
  | _ => exact hheld

/-- A job with a heartbeat that is no older than the cutoff is not stale. -/
theorem not_mem_staleJobs {db : Db} {staleBefore : Timestamp} {limit : ℕ} {locked : UUID → Bool}
    {jobId : UUID} {job : Job} {heartbeatAt : Timestamp} (hj : db.jobs.get? jobId = some job)
    (hh : job.heartbeatAt = some heartbeatAt) (hle : staleBefore ≤ heartbeatAt) :
    jobId ∉ staleJobs db staleBefore limit locked := by
  intro hmem
  obtain ⟨p, hp, rfl⟩ := List.mem_map.mp hmem
  have hp := (List.mem_insertionSort _).mp (List.mem_of_mem_take hp)
  obtain ⟨hget, hcond⟩ := Table.mem_select.mp (show (p.1, p.2) ∈ _ from hp)
  obtain rfl : p.2 = job := Option.some.inj (hget.symm.trans hj)
  simp only [hh, Bool.and_eq_true, decide_eq_true_eq] at hcond
  exact absurd hcond.1.2 (not_lt.mpr hle)

/-- The cutoff of a round of the reaper. -/
def Action.staleBefore : Action → Option Timestamp
  | .reap _ staleBefore _ _ _ _ => some staleBefore
  | _ => none

/-- **A step that is not the worker's own** leaves its execution, and its lease too unless
the lease has run out at the cutoff of the reaper. -/
theorem System.Stepped.held {s t : System} {a : Action} (h : System.Stepped s a t)
    (hl : s.db.Linked) (hf : Fenced s) {worker : String} (hown : ∀ action, a ≠ .work worker action)
    {e : Execution} (he : (t.workers worker).processing = some e) :
    (s.workers worker).processing = some e ∧ ∀ heartbeatAt,
      (∀ staleBefore, a.staleBefore = some staleBefore → staleBefore ≤ heartbeatAt) →
      HeldBy s.db worker e.context.jobId heartbeatAt →
      HeldBy t.db worker e.context.jobId heartbeatAt := by
  have hstays : (s.workers worker).processing = some e := by
    have hstepped := h.worker worker
    generalize t.workers worker = v at he hstepped
    cases hstepped with
    | same => exact he
    | received m => cases he
    | @moved m phase phase' connected action events ha => exact absurd ha (hown action)
    | @disconnected m phase hw =>
      rw [hw]
      cases phase <;> exact he
    | free hv => rcases hv with rfl | rfl <;> cases he
  refine ⟨hstays, fun heartbeatAt hcutoff hheld => ?_⟩
  cases h with
  | requested hop =>
    obtain ⟨job, hj, ho, hh⟩ := hheld
    exact ⟨job, get?_job_of_isUploadRequest (w := s.world) hop hl hj, ho, hh⟩
  | @worked worker' m phase phase' connected action db' bucket' events hw hmove =>
    have hne : worker ≠ worker' := by
      rintro rfl
      exact hown action rfl
    refine hmove.held hl (fun e' he' => hf.context worker' e' ?_) hne hheld
    rw [hw]
    exact he'
  | committed hpass hcomplete =>
    rw [Pass.commit_eq]
    exact hheld
  | reaped hreap =>
    obtain ⟨job, hj, ho, hh⟩ := hheld
    obtain ⟨log, hlog, hb⟩ := reap_batch hl hreap
    -- the heartbeat is too young for the reaper
    refine ⟨job, ?_, ho, hh⟩
    rw [hb.job_of_not_mem]
    · exact hj
    · rw [hlog]
      exact not_mem_staleJobs hj hh (hcutoff _ rfl)
  | _ => exact hheld

/-! ### The steps of a worker that is processing -/

/-- The calls that record a heartbeat. -/
def WorkerAction.isCall : WorkerAction → Bool
  | .claim _ _ => true
  | .heartbeat _ => true
  | .checkOwnership _ => true
  | _ => false

/-- **How a worker comes to be processing**, by a step that leaves a database and an
execution. -/
inductive Processes (db : Db) (worker : String) : Phase → WorkerAction → Db → Execution → Prop
  /-- It has claimed the job. -/
  | claimed {db' : Db} {e : Execution} {checkedAt now : Timestamp}
      (h : HeldBy db' worker e.context.jobId now) :
      Processes db worker .received (.claim checkedAt now) db' e
  /-- Its heartbeat has beaten. -/
  | beaten {e : Execution} {progress : Progress} {now : Timestamp} :
      Processes db worker (.processing e progress) (.heartbeat now) (beat db e now).1
        { e with heartbeatLost := e.heartbeatLost || (beat db e now).2 }
  /-- The checker has asked. -/
  | checked {e : Execution} {progress : Progress} {now : Timestamp} :
      Processes db worker (.processing e progress) (.checkOwnership now) (beat db e now).1
        { e with checkLost := e.checkLost || (beat db e now).2 }
  /-- The processor has gone on. -/
  | processed {e : Execution} {progress : Progress} {action : WorkerAction}
      (haction : action.isCall = false) :
      Processes db worker (.processing e progress) action db e

/-- A granted claim leaves the job held. -/
theorem held_of_running {db db' : Db} {loaded : LoadedJob db} {worker : String} {now : Timestamp}
    {publication : Option Publication}
    (hs : Settled loaded (.running worker now) publication db') :
    HeldBy db' worker loaded.jobId now :=
  ⟨_, hs.get?_job_self, by simp [Outcome.job, runningJob, ownsRunningJob], rfl⟩

theorem processes_of_processing {w : World} {claims : UUID → ℕ} {worker : String}
    {m : EncodingJobMessage} {e e' : Execution} {progress progress' : Progress}
    {action : WorkerAction} {r : WorkerStep}
    (h : workerStep w.db w.bucket claims worker m (.processing e' progress') action = some r)
    (hr : r.phase = .processing e progress) :
    Processes w.db worker (.processing e' progress') action r.db e := by
  have hprocess : action.isCall = false →
      (processStep w.bucket e' progress' action).map
        (fun result => (⟨w.db, result.1, result.2, []⟩ : WorkerStep)) = some r →
      Processes w.db worker (.processing e' progress') action r.db e := by
    intro haction hr'
    obtain ⟨⟨bucket', phase'⟩, hstep, rfl⟩ := Option.map_eq_some_iff.mp hr'
    have hphase : phase' = .processing e progress := hr
    subst hphase
    rcases (processStep_move hstep).execution with he | hnone
    · obtain rfl := Option.some.inj he
      exact Processes.processed haction
    · cases hnone
  cases action with
  | heartbeat now =>
    obtain rfl := Option.some.inj h
    obtain ⟨rfl, -⟩ := Phase.processing.inj hr
    exact Processes.beaten
  | checkOwnership now =>
    obtain rfl := Option.some.inj h
    obtain ⟨rfl, -⟩ := Phase.processing.inj hr
    exact Processes.checked
  | claim checkedAt now =>
    obtain ⟨⟨bucket', phase'⟩, hstep, -⟩ := Option.map_eq_some_iff.mp h
    rcases progress' with _ | _ | ⟨_, _, _ | _⟩ <;> cases hstep
  | _ => exact hprocess rfl h

/-- A worker that was not processing has claimed a job. -/
theorem processes_of_move {w w' : World} {claims : UUID → ℕ} {worker : String}
    {m : EncodingJobMessage} {phase phase' : Phase} {action : WorkerAction} {events : List Event}
    (h : WorkerMove w claims worker m phase action w' phase' events)
    (hphase : ∀ e progress, phase ≠ .processing e progress) {e : Execution} {progress : Progress}
    (he : phase' = .processing e progress) : Processes w.db worker phase action w'.db e := by
  cases h with
  | @claimed loaded checkedAt now db' hid hs =>
    obtain ⟨rfl, -⟩ := Phase.processing.inj he
    exact Processes.claimed (held_of_running hs)
  | beaten => exact absurd rfl (hphase _ _)
  | processed => exact absurd rfl (hphase _ _)
  | _ => cases he

/-- **A worker comes to be processing in one of these ways.** -/
theorem workerStep_processes {w : World} {claims : UUID → ℕ} {worker : String}
    {m : EncodingJobMessage} {phase : Phase} {action : WorkerAction} {r : WorkerStep}
    (h : workerStep w.db w.bucket claims worker m phase action = some r) {e : Execution}
    {progress : Progress} (hr : r.phase = .processing e progress) :
    Processes w.db worker phase action r.db e := by
  by_cases hphase : ∃ e' progress', phase = .processing e' progress'
  · obtain ⟨e', progress', rfl⟩ := hphase
    exact processes_of_processing h hr
  · exact processes_of_move (workerStep_move h)
      (fun e' progress' hp => hphase ⟨e', progress', hp⟩) hr

/-! ### The lease of a worker -/

/-- **The lease of a processing worker**, at an instant: until the timeout of the last
heartbeat that it has recorded it holds its job, and what the checker answers from memory
ends before that. -/
structure Leased (timing : Timing) (now : Timestamp) (s : TimedSystem) (worker : String)
    (e : Execution) : Prop where
  held : now ≤ s.renewedAt worker + timing.staleTimeout →
    HeldBy s.system.db worker e.context.jobId (s.renewedAt worker)
  throttled : e.lost = false → timing.boot worker + s.lastCheckedAt worker + minCheckInterval ≤
    s.renewedAt worker + timing.staleTimeout

/-- **The leases of the system**, at an instant. -/
structure Leases (timing : Timing) (now : Timestamp) (s : TimedSystem) : Prop where
  reachable : ReachableSystem Unguarded s.system
  start_le : timing.start ≤ now
  cutoff : ∀ staleBefore, s.staleBefore = some staleBefore →
    staleBefore + timing.staleTimeout ≤ now
  renewed_le : ∀ worker, s.renewedAt worker ≤ now
  leased : ∀ worker e, (s.system.workers worker).processing = some e →
    Leased timing now s worker e
  passed : ∀ p ∈ s.passed, p.Sound

theorem Leases.start (timing : Timing) : Leases timing timing.start (TimedSystem.start timing) where
  reachable := Reaches.start rfl
  start_le := le_refl _
  cutoff := fun _ h => by cases h
  renewed_le := fun _ => le_refl _
  leased := fun _ _ h => by cases h
  passed := fun _ h => by cases h

/-- A lease runs out, and is not lost otherwise as time goes on. -/
theorem Leased.mono {timing : Timing} {now now' : Timestamp} {s : TimedSystem} {worker : String}
    {e : Execution} (h : Leased timing now s worker e) (hle : now ≤ now') :
    Leased timing now' s worker e :=
  ⟨fun hn => h.held (hle.trans hn), h.throttled⟩

theorem Leases.mono {timing : Timing} {now now' : Timestamp} {s : TimedSystem}
    (h : Leases timing now s) (hle : now ≤ now') : Leases timing now' s where
  reachable := h.reachable
  start_le := h.start_le.trans hle
  cutoff := fun k hk => (h.cutoff k hk).trans hle
  renewed_le := fun worker => (h.renewed_le worker).trans hle
  leased := fun worker e he => (h.leased worker e he).mono hle
  passed := h.passed

theorem Worker.execution_of_processing {v : Worker} {e : Execution} (h : v.processing = some e) :
    v.execution = some e := by
  unfold Worker.processing at h
  split at h
  · exact h
  · cases h

theorem Worker.eq_of_processing {v : Worker} {e : Execution} (h : v.processing = some e) :
    ∃ m progress connected, v = .handling m (.processing e progress) connected := by
  unfold Worker.processing at h
  split at h
  · obtain rfl := Option.some.inj h
    exact ⟨_, _, _, rfl⟩
  · cases h

/-- The number of the open claim of a job is that of its last one. -/
theorem claims_of_openClaim {jobId : UUID} {history : List Event} {claim : ℕ}
    (h : openClaim jobId history = some claim) : claims history jobId = claim := by
  induction history with
  | nil => cases h
  | cons event history ih =>
    have hother : openClaim jobId history = some claim → event ≠ .granted jobId →
        claims (event :: history) jobId = claim := by
      intro ho hne
      rw [claims, List.count_cons_of_ne hne]
      exact ih ho
    cases event with
    | granted jobId' =>
      rw [openClaim] at h
      split at h
      · rename_i hid
        rw [hid, claims, List.count_cons_self]
        exact Option.some.inj h
      · rename_i hid
        exact hother h fun he => hid (Event.granted.inj he)
    | concluded jobId' claim' =>
      rw [openClaim] at h
      split at h
      · cases h
      · exact hother h fun he => Event.noConfusion he
    | reaped jobId' =>
      rw [openClaim] at h
      split at h
      · cases h
      · exact hother h fun he => Event.noConfusion he

/-- A worker that holds the job of its execution may go on. -/
theorem Fenced.sound {s : System} (hf : Fenced s) {worker : String} {e : Execution}
    (he : (s.workers worker).execution = some e) {heartbeatAt : Timestamp}
    (hheld : HeldBy s.db worker e.context.jobId heartbeatAt) (uploads : Bool) :
    Passed.Sound ⟨worker, e, uploads, s⟩ := by
  obtain ⟨job, hj, ho, -⟩ := hheld
  refine ⟨⟨job, hj, ?_⟩, claims_of_openClaim (hf.owned worker e job he hj ho)⟩
  rw [(hf.context worker e he).1]
  exact ho

/-! ### A step of a worker -/

section Worked

variable {timing : Timing} {now : Timestamp} {s s' : TimedSystem} {worker : String}

/-- **What a worker that is processing after a step of its own has done.** -/
theorem System.step_processes {s s' : System} {action : WorkerAction}
    (h : s.step (.work worker action) = some s') {e : Execution}
    (he : (s'.workers worker).processing = some e) :
    ∃ m phase connected, s.workers worker = .handling m phase connected ∧
      Processes s.db worker phase action s'.db e := by
  obtain ⟨m, phase, connected, r, hw, hr, hdb, hworkers⟩ := System.step_work h
  rw [hworkers, Function.update_self] at he
  refine ⟨m, phase, connected, hw, ?_⟩
  rw [hdb]
  cases hphase : r.phase with
  | processing e' progress =>
    rw [hphase] at he
    obtain rfl := Option.some.inj he
    exact workerStep_processes (w := s.world) hr hphase
  | _ =>
    rw [hphase] at he
    cases he

/-- **A beat renews the lease**, or finds the job lost. -/
theorem Leased.beaten (h : Leases timing now s) {e e' : Execution}
    (he : (s.system.workers worker).processing = some e)
    (hdb : s'.system.db = (beat s.system.db e now).1)
    (hrenewed : s'.renewedAt = s.renew worker e now)
    (hchecked : e'.lost = false → timing.boot worker + s'.lastCheckedAt worker + minCheckInterval ≤
      now + timing.staleTimeout)
    (hcontext : e'.context = e.context) (hlost : (beat s.system.db e now).2 = true →
      e'.lost = true) : Leased timing now s' worker e' := by
  have hl := h.reachable.linked
  obtain ⟨hid, hsome⟩ := h.reachable.fenced.context worker e (Worker.execution_of_processing he)
  cases hb : (beat s.system.db e now).2 with
  | true =>
    have hrenewed' : s'.renewedAt worker = s.renewedAt worker := by
      rw [hrenewed, TimedSystem.renew, if_pos hb]
    refine ⟨fun hn => ?_, fun hfalse => ?_⟩
    · rw [hdb, beat_of_lost hl hsome hb, hrenewed', hcontext]
      exact (h.leased worker e he).held (by rw [← hrenewed']; exact hn)
    · rw [hlost hb] at hfalse
      cases hfalse
  | false =>
    have hrenewed' : s'.renewedAt worker = now := by
      rw [hrenewed, TimedSystem.renew, if_neg (by rw [hb]; exact nofun), Function.update_self]
    refine ⟨fun _ => ?_, fun hfalse => ?_⟩
    · rw [hdb, hrenewed', hcontext, ← hid]
      exact held_of_beat hl hsome hb
    · rw [hrenewed']
      exact hchecked hfalse

/-- A step that is not the worker's own leaves its lease. -/
theorem Leased.frame (h : Leases timing now s) {a : Action}
    (hstep : s.system.step a = some s'.system) (hown : ∀ action, a ≠ .work worker action)
    (hcutoff : ∀ k, a.staleBefore = some k → s.staleBefore = some k)
    (hrenewed : s'.renewedAt worker = s.renewedAt worker)
    (hchecked : s'.lastCheckedAt worker = s.lastCheckedAt worker) {e : Execution}
    (he : (s'.system.workers worker).processing = some e) : Leased timing now s' worker e := by
  obtain ⟨t, ht, hs'⟩ := System.step_cases hstep
  rw [hs'] at he
  obtain ⟨he', hheld⟩ := ht.held h.reachable.linked h.reachable.fenced hown he
  obtain ⟨hleased, hthrottled⟩ := h.leased worker e he'
  refine ⟨fun hn => ?_, fun hlost => ?_⟩
  · rw [hrenewed] at hn ⊢
    rw [hs']
    refine hheld _ (fun k hk => ?_) (hleased hn)
    -- the cutoff was computed the timeout ago
    have hk' := (h.cutoff k (hcutoff k hk)).trans hn
    exact le_of_add_le_add_right hk'
  · rw [hrenewed, hchecked]
    exact hthrottled hlost

end Worked

/-! ### A step of the system -/

namespace TimedSystem

variable {s : TimedSystem} {system : System} {a : Action}

@[simp]
theorem after_system : (s.after system a).system = system := by
  unfold after
  split <;> rfl

@[simp]
theorem after_passed : (s.after system a).passed = s.passed := by
  unfold after
  split <;> rfl

theorem after_staleBefore {k : Timestamp} (h : (s.after system a).staleBefore = some k) :
    s.staleBefore = some k := by
  unfold after at h
  split at h <;> first | exact h | cases h

theorem renew_of_ne {worker worker' : String} {e : Execution} {now : Timestamp}
    (hne : worker' ≠ worker) : s.renew worker e now worker' = s.renewedAt worker' := by
  rw [renew]
  split
  · rfl
  · exact Function.update_of_ne hne _ _

theorem renew_le {worker worker' : String} {e : Execution} {now now' : Timestamp}
    (h : s.renewedAt worker' ≤ now) (hle : now' ≤ now) : s.renew worker e now' worker' ≤ now := by
  rw [renew]
  split
  · exact h
  · by_cases hne : worker' = worker
    · rw [hne, Function.update_self]
      exact hle
    · rw [Function.update_of_ne hne]
      exact h

/-- The records of a worker change by its own claims and heartbeats only. -/
theorem after_eq (s : TimedSystem) (system : System) (worker : String) {a : Action}
    (h : ∀ action, a = .work worker action → action.isCall = false) :
    (s.after system a).renewedAt worker = s.renewedAt worker ∧
      (s.after system a).lastCheckedAt worker = s.lastCheckedAt worker := by
  unfold after
  split
  · rename_i worker' checkedAt now
    have hne : worker ≠ worker' := by
      rintro rfl
      exact absurd (h _ rfl) nofun
    exact ⟨Function.update_of_ne hne _ _, Function.update_of_ne hne _ _⟩
  · rename_i worker' now
    have hne : worker ≠ worker' := by
      rintro rfl
      exact absurd (h _ rfl) nofun
    refine ⟨?_, rfl⟩
    cases (s.system.workers worker').execution with
    | none => rfl
    | some e => exact renew_of_ne hne
  · exact ⟨rfl, rfl⟩
  · exact ⟨rfl, rfl⟩
  · exact ⟨rfl, rfl⟩

/-- The reaper goes by the cutoff that it has computed. -/
theorem staleBefore_of_admits (h : s.admits a = true) {k : Timestamp}
    (hk : a.staleBefore = some k) : s.staleBefore = some k := by
  cases a with
  | reap settings staleBefore limit locked newId now =>
    obtain rfl := Option.some.inj hk
    exact of_decide_eq_true h
  | _ => cases hk

theorem after_renewedAt_le {worker : String} {now : Timestamp} (h : s.renewedAt worker ≤ now)
    (hreadings : ∀ n ∈ a.readings, n ≤ now) : (s.after system a).renewedAt worker ≤ now := by
  unfold after
  split
  · rename_i worker' checkedAt now'
    have hle : now' ≤ now := hreadings now' (by simp [Action.readings, WorkerAction.readings])
    by_cases hne : worker = worker'
    · subst hne
      exact (le_of_eq (Function.update_self ..)).trans hle
    · exact (le_of_eq (Function.update_of_ne hne _ _)).trans h
  · rename_i worker' now'
    have hle : now' ≤ now := hreadings now' (by simp [Action.readings, WorkerAction.readings])
    cases (s.system.workers worker').execution with
    | none => exact h
    | some e => exact renew_le h hle
  · exact h
  · exact h
  · exact h

end TimedSystem

section Steps

variable {timing : Timing} {now b : Timestamp} {s : TimedSystem}

/-- The lease of a worker after a step of its own. -/
theorem Leased.worked (h : Leases timing now s) {worker : String} {action : WorkerAction}
    {system : System} (hadm : s.admits (.work worker action) = true)
    (hstep : s.system.step (.work worker action) = some system)
    (hreadings : ∀ n ∈ action.readings, now ≤ n ∧ n ≤ b) (hle : now ≤ b) {e : Execution}
    (he : (system.workers worker).processing = some e) :
    Leased timing b (s.after system (.work worker action)) worker e := by
  obtain ⟨m, phase, connected, hw, hp⟩ := System.step_processes hstep he
  generalize hdb : system.db = db' at hp
  have hinterval := timing.minCheckInterval_le
  cases hp with
  | @claimed db' e checkedAt n hheld =>
    obtain ⟨hn, -⟩ := hreadings n (by simp [WorkerAction.readings])
    -- the claim renews the lease and starts the throttle anew
    have hrenewed : (s.after system (.work worker (.claim checkedAt n))).renewedAt worker = n :=
      Function.update_self ..
    have hchecked : (s.after system (.work worker (.claim checkedAt n))).lastCheckedAt worker = 0 :=
      Function.update_self ..
    refine ⟨fun _ => ?_, fun _ => ?_⟩
    · rw [hrenewed, TimedSystem.after_system, hdb]
      exact hheld
    · rw [hrenewed, hchecked, add_zero]
      exact add_le_add (((timing.boot_le worker).trans h.start_le).trans hn) hinterval
  | @beaten e progress n =>
    obtain ⟨hn, hnb⟩ := hreadings n (by simp [WorkerAction.readings])
    have he' : (s.system.workers worker).processing = some e := by rw [hw]; rfl
    refine Leased.mono (Leased.beaten (h.mono hn) he' hdb ?_ (fun hlost => ?_) rfl fun hb => ?_) hnb
    · show (s.system.workers worker).execution.elim _ _ = _
      rw [Worker.execution_of_processing he']
      rfl
    · have hthrottled := (h.leased worker e he').throttled ?_
      · exact hthrottled.trans (add_le_add ((h.renewed_le worker).trans hn) (le_refl _))
      · simp only [Execution.lost, Bool.or_eq_false_iff] at hlost ⊢
        exact ⟨hlost.1, hlost.2.1⟩
    · simp [Execution.lost, hb]
  | @checked e progress n => cases hadm
  | @processed e progress action haction =>
    have he' : (s.system.workers worker).processing = some e := by rw [hw]; rfl
    -- no call is made, so that the lease stays as it is
    obtain ⟨hrenewed, hchecked⟩ := TimedSystem.after_eq s system worker
      (a := .work worker action) (by rintro _ ⟨⟩; exact haction)
    have hleased := (h.leased worker e he').mono hle
    refine ⟨fun hn => ?_, fun hlost => ?_⟩
    · rw [hrenewed, TimedSystem.after_system, hdb]
      exact hleased.held (by rw [← hrenewed]; exact hn)
    · rw [hrenewed, hchecked]
      exact hleased.throttled hlost

/-- **A step of the system keeps the leases.** -/
theorem Leases.run (h : Leases timing now s) {a : Action} {system : System}
    (hadm : s.admits a = true) (hstep : s.system.step a = some system)
    (hreadings : ∀ n ∈ a.readings, now ≤ n ∧ n ≤ b) (hle : now ≤ b) :
    Leases timing b (s.after system a) where
  reachable := by
    rw [TimedSystem.after_system]
    exact Reaches.step h.reachable trivial hstep
  start_le := h.start_le.trans hle
  cutoff := fun k hk => (h.cutoff k (TimedSystem.after_staleBefore hk)).trans hle
  renewed_le := fun worker => TimedSystem.after_renewedAt_le ((h.renewed_le worker).trans hle)
    fun n hn => (hreadings n hn).2
  leased := by
    intro worker e he
    rw [TimedSystem.after_system] at he
    by_cases hown : ∃ action, a = .work worker action
    · obtain ⟨action, rfl⟩ := hown
      exact Leased.worked h hadm hstep hreadings hle he
    · have hown' : ∀ action, a ≠ .work worker action := fun action ha => hown ⟨action, ha⟩
      obtain ⟨hrenewed, hchecked⟩ := TimedSystem.after_eq s system worker
        fun action ha => absurd ha (hown' action)
      refine (Leased.frame h ?_ hown' (fun k hk => TimedSystem.staleBefore_of_admits hadm hk)
        hrenewed hchecked ?_).mono hle
      · rw [TimedSystem.after_system]
        exact hstep
      · rw [TimedSystem.after_system]
        exact he
  passed := by
    rw [TimedSystem.after_passed]
    exact h.passed

/-- The reaper computes a cutoff. -/
theorem Leases.readStaleBefore (h : Leases timing now s) :
    Leases timing now { s with staleBefore := some (now - timing.staleTimeout) } where
  reachable := h.reachable
  start_le := h.start_le
  cutoff := by
    rintro _ ⟨⟩
    exact le_of_eq (sub_add_cancel _ _)
  renewed_le := h.renewed_le
  leased := fun worker e he => ⟨(h.leased worker e he).held, (h.leased worker e he).throttled⟩
  passed := h.passed

/-- A check that lets a sound worker pass. -/
theorem Leases.pass (h : Leases timing now s) {worker : String} {e : Execution} {uploads : Bool}
    (hsound : Passed.Sound ⟨worker, e, uploads, s.system⟩) :
    Leases timing now (s.pass worker e uploads) where
  reachable := h.reachable
  start_le := h.start_le
  cutoff := h.cutoff
  renewed_le := h.renewed_le
  leased := fun worker e he => ⟨(h.leased worker e he).held, (h.leased worker e he).throttled⟩
  passed := by
    intro p hp
    rcases List.mem_cons.mp hp with rfl | hp
    · exact hsound
    · exact h.passed p hp

/-! ### A check -/

/-- **A check that is answered from memory** comes before the timeout. -/
theorem Leased.held_of_throttles {worker : String} {e : Execution} {checkedAt : Timestamp}
    (h : Leased timing checkedAt s worker e) (hlost : e.lost = false)
    (hthrottles : s.throttles timing worker checkedAt = true) :
    HeldBy s.system.db worker e.context.jobId (s.renewedAt worker) := by
  have hsoon : checkedAt - timing.boot worker - s.lastCheckedAt worker < minCheckInterval :=
    of_decide_eq_true hthrottles
  have hlast := h.throttled hlost
  refine h.held ?_
  have hbefore : checkedAt < timing.boot worker + s.lastCheckedAt worker + minCheckInterval := by
    rw [sub_sub] at hsoon
    exact sub_lt_iff_lt_add'.mp hsoon
  exact le_of_lt (hbefore.trans_le hlast)

/-- **A check whose call raises in time** keeps the leases. -/
theorem Leases.raised (h : Leases timing now s) {worker : String}
    (hrenewed : now + minCheckInterval ≤ s.renewedAt worker + timing.staleTimeout) :
    Leases timing now { s with
      lastCheckedAt := Function.update s.lastCheckedAt worker
        (timing.monotonic worker now) } where
  reachable := h.reachable
  start_le := h.start_le
  cutoff := h.cutoff
  renewed_le := h.renewed_le
  leased := by
    intro worker' e he
    refine ⟨(h.leased worker' e he).held, fun hlost => ?_⟩
    by_cases hw : worker' = worker
    · subst hw
      dsimp only
      rw [Function.update_self, Timing.monotonic, add_sub_cancel]
      exact hrenewed
    · dsimp only
      rw [Function.update_of_ne hw]
      exact (h.leased worker' e he).throttled hlost
  passed := h.passed

/-- **A check whose call returns** keeps the leases. -/
theorem Leases.returned (h : Leases timing now s) {worker : String} {e : Execution}
    {checkedAt : Timestamp} {system : System}
    (he : (s.system.workers worker).processing = some e) (hle : checkedAt ≤ now)
    (hstep : s.system.step (.work worker (.checkOwnership now)) = some system) :
    Leases timing now { s with
      system := system
      lastCheckedAt := Function.update s.lastCheckedAt worker (timing.monotonic worker checkedAt)
      renewedAt := s.renew worker e now } where
  reachable := Reaches.step h.reachable trivial hstep
  start_le := h.start_le
  cutoff := h.cutoff
  renewed_le := fun worker' => TimedSystem.renew_le (h.renewed_le worker') (le_refl _)
  leased := by
    intro worker' e' he'
    by_cases hw : worker' = worker
    · subst hw
      obtain ⟨m, phase, connected, hphase, hp⟩ := System.step_processes hstep he'
      generalize hdb : system.db = db' at hp
      cases hp with
      | @checked e₀ progress n =>
        -- the execution is the one that has been checked
        have he₀ : e₀ = e := by
          rw [hphase] at he
          exact Option.some.inj he
        subst he₀
        refine Leased.beaten h he hdb rfl (fun _ => ?_) rfl fun hb => ?_
        · dsimp only
          rw [Function.update_self, Timing.monotonic, add_sub_cancel]
          exact add_le_add hle timing.minCheckInterval_le
        · simp [Execution.lost, hb]
      | processed haction => cases haction
    · refine Leased.frame h hstep (fun action ha => ?_) (fun k hk => by cases hk)
        (TimedSystem.renew_of_ne hw) (Function.update_of_ne hw _ _) he'
      exact hw (Action.work.inj ha).1.symm
  passed := h.passed

/-- The job is held after a check that finds it owned. -/
theorem Leases.sound_of_returned (h : Leases timing now s) {worker : String} {e : Execution}
    {system : System} (he : (s.system.workers worker).processing = some e)
    (hstep : s.system.step (.work worker (.checkOwnership now)) = some system)
    (hb : (beat s.system.db e now).2 = false) (uploads : Bool) :
    Passed.Sound ⟨worker, e, uploads, system⟩ := by
  have hf : Fenced system := ReachableSystem.fenced (Reaches.step h.reachable trivial hstep)
  obtain ⟨hid, hsome⟩ := h.reachable.fenced.context worker e (Worker.execution_of_processing he)
  obtain ⟨m, progress, connected, hw⟩ := Worker.eq_of_processing he
  have hsystem : system.db = (beat s.system.db e now).1 ∧
      ∃ e', (system.workers worker).execution = some e' ∧ e'.context = e.context ∧
        e'.claim = e.claim := by
    obtain ⟨m', phase, connected', r, hw', hr, hdb, hworkers⟩ := System.step_work hstep
    obtain ⟨rfl, rfl, rfl⟩ := Worker.handling.inj (hw.symm.trans hw')
    obtain rfl := Option.some.inj hr
    exact ⟨hdb, { e with checkLost := e.checkLost || (beat s.system.db e now).2 },
      by rw [hworkers, Function.update_self]; rfl, rfl, rfl⟩
  obtain ⟨hdb, e', he', hcontext, hclaim⟩ := hsystem
  have hheld := held_of_beat h.reachable.linked hsome hb
  rw [hid, ← hdb, ← hcontext] at hheld
  have hsound := hf.sound he' hheld uploads
  rw [Passed.Sound, hcontext, hclaim] at hsound
  exact hsound

/-- **A check keeps the leases, and lets only a worker pass that may go on.** -/
theorem Leases.check (h : Leases timing now s) {worker : String} {e : Execution}
    {checkedAt : Timestamp} {answer : CheckAnswer} {r : Bool × TimedSystem}
    (he : (s.system.workers worker).processing = some e)
    (hlost : s.isLost timing worker e checkedAt answer = some r) (hle : now ≤ checkedAt)
    (hreturns : ∀ n, answer = .returns n → checkedAt ≤ n ∧ n ≤ b) (hb : checkedAt ≤ b)
    (hraises : answer = .raises → s.asks timing worker checkedAt = true →
      checkedAt + minCheckInterval ≤ s.renewedAt worker + timing.staleTimeout) (uploads : Bool) :
    Leases timing b r.2 ∧ (r.1 = false → Passed.Sound ⟨worker, e, uploads, r.2.system⟩) := by
  have hchecked := h.mono hle
  have hleased := hchecked.leased worker e he
  have hsound : ∀ {heartbeatAt}, HeldBy s.system.db worker e.context.jobId heartbeatAt →
      Passed.Sound ⟨worker, e, uploads, s.system⟩ := fun hheld =>
    h.reachable.fenced.sound (Worker.execution_of_processing he) hheld uploads
  rw [TimedSystem.isLost] at hlost
  split at hlost
  · obtain rfl := Option.some.inj hlost
    exact ⟨hchecked.mono hb, fun hfalse => by cases hfalse⟩
  -- not lost so far: the check is throttled, or the heartbeat is asked
  rename_i hnotLost
  rw [Bool.not_eq_true] at hnotLost
  split at hlost
  · rename_i hthrottles
    obtain rfl := Option.some.inj hlost
    exact ⟨hchecked.mono hb, fun _ => hsound (hleased.held_of_throttles hnotLost hthrottles)⟩
  rename_i hthrottles
  cases answer with
  | raises =>
    obtain rfl := Option.some.inj hlost
    have hrenewed := hraises rfl (by simp [TimedSystem.asks, he, hnotLost, hthrottles])
    refine ⟨(hchecked.raised hrenewed).mono hb, fun _ => hsound (hleased.held ?_)⟩
    exact (le_add_of_nonneg_right (by decide)).trans hrenewed
  | returns n =>
    obtain ⟨hn, hnb⟩ := hreturns n rfl
    obtain ⟨system, hstep, rfl⟩ := Option.map_eq_some_iff.mp hlost
    have hmono := h.mono (hle.trans hn)
    exact ⟨(hmono.returned he hn hstep).mono hnb,
      fun hfalse => hmono.sound_of_returned he hstep hfalse uploads⟩

end Steps

/-! ### Runs on the clock -/

/-- The readings of a step lie between its ends, in order. -/
theorem readings_between {now b : Timestamp} {readings : List Timestamp}
    (h : (now :: (readings ++ [b])).Pairwise (· ≤ ·)) :
    now ≤ b ∧ ∀ n ∈ readings, now ≤ n ∧ n ≤ b := by
  rw [List.pairwise_cons, List.pairwise_append] at h
  obtain ⟨hnow, -, -, hb⟩ := h
  refine ⟨hnow b (by simp), fun n hn => ⟨hnow n (by simp [hn]), hb n hn b (by simp)⟩⟩

/-- **Every step on the clock keeps the leases**, where a check that raises does so in
time. -/
theorem Leases.step {timing : Timing} {s s' : TimedSystem} {a : TimedAction × Timestamp}
    (h : Leases timing s.now s) (hguard : s.RaisesInTime timing a)
    (hstep : s.step timing a = some s') : Leases timing s'.now s' := by
  obtain ⟨action, b⟩ := a
  rw [TimedSystem.step] at hstep
  split at hstep
  swap
  · cases hstep
  rename_i htimes
  obtain ⟨hle, hreadings⟩ := readings_between htimes
  obtain ⟨t, ht, rfl⟩ := Option.map_eq_some_iff.mp hstep
  suffices Leases timing b t by
    exact ⟨this.reachable, this.start_le, this.cutoff, this.renewed_le,
      fun worker e he => ⟨(this.leased worker e he).held, (this.leased worker e he).throttled⟩,
      this.passed⟩
  cases action with
  | run a =>
    simp only [TimedSystem.act] at ht
    split at ht
    · rename_i hadm
      obtain ⟨system, hsystem, rfl⟩ := Option.map_eq_some_iff.mp ht
      exact h.run hadm hsystem hreadings hle
    · cases ht
  | readStaleBefore now =>
    obtain rfl := Option.some.inj ht
    obtain ⟨hnow, hb⟩ := hreadings now (by simp [TimedAction.readings])
    exact (h.mono hnow).readStaleBefore.mono hb
  | check worker uploads checkedAt answer =>
    have hcheckedAt : checkedAt ∈ (TimedAction.check worker uploads checkedAt answer).readings := by
      cases answer <;> simp [TimedAction.readings]
    obtain ⟨hnow, hb⟩ := hreadings checkedAt hcheckedAt
    simp only [TimedSystem.act] at ht
    split at ht
    · cases ht
    rename_i e he
    split at ht
    · cases ht
    obtain ⟨r, hr, rfl⟩ := Option.map_eq_some_iff.mp ht
    -- a heartbeat that returns reads the clock once more, after the check
    have hreturns : ∀ n, answer = .returns n → checkedAt ≤ n ∧ n ≤ b := by
      rintro n rfl
      refine ⟨?_, (hreadings n (by simp [TimedAction.readings])).2⟩
      have hpair := (List.pairwise_cons.mp htimes).2
      simp only [TimedAction.readings, List.cons_append, List.pairwise_cons] at hpair
      exact hpair.1 n (by simp)
    have hraises : answer = .raises → s.asks timing worker checkedAt = true →
        checkedAt + minCheckInterval ≤ s.renewedAt worker + timing.staleTimeout := by
      rintro rfl
      exact hguard
    obtain ⟨hleases, hsound⟩ := h.check he hr hnow hreturns hb hraises uploads
    cases hlost : r.1 with
    | true => exact hleases
    | false => exact hleases.pass (hsound hlost)

theorem ReachableTimed.leases {timing : Timing} {s : TimedSystem}
    (h : ReachableTimed timing (TimedSystem.RaisesInTime timing) s) : Leases timing s.now s := by
  refine h.invariant (I := fun s => Leases timing s.now s) ?_ ?_
  · rintro _ rfl
    exact Leases.start timing
  · intro s a s' hs hguard hstep
    exact hs.step hguard hstep

/-- **A worker that is let pass owns its job**, in every run in which each check that
raises comes in time: whenever the checker answers that the job is not lost, the job is
running for the worker of the execution, and no other claim of it has been granted. -/
theorem passed_check_owned {timing : Timing} {s : TimedSystem}
    (h : ReachableTimed timing (TimedSystem.RaisesInTime timing) s) {p : Passed}
    (hp : p ∈ s.passed) : p.Sound :=
  h.leases.passed p hp

/-! ### A run in time, and one that is not -/

/-- The clocks begin to count with the run, and a heartbeat times out after five minutes. -/
def sampleTiming : Timing := ⟨300, by decide, 0, fun _ => 0, fun _ => le_refl _⟩

/-- Steps of the system, each of which ends with its last reading of the clock. -/
def clocked : Timestamp → List Action → List (TimedAction × Timestamp)
  | _, [] => []
  | now, action :: actions =>
    (.run action, action.readings.getLastD now) :: clocked (action.readings.getLastD now) actions

/-- The first worker has claimed the first job and encoded its source, in a minute. -/
def timedEncoding : List (TimedAction × Timestamp) :=
  clocked 0 sampleClaim ++
    [(.run (.work "first" (.probed ⟨1920, 1080, none, none⟩)), 4),
      (.run (.work "first" (.encoded ⟨[⟨"segment_000.ts", none⟩], some ""⟩)), seconds 60)]

/-- The first worker uploads, after a check that returns, one that is answered from memory
and one that raises. -/
def timedChecks : List (TimedAction × Timestamp) :=
  timedEncoding ++
    [(.check "first" true (seconds 61) (.returns (seconds 61)), seconds 61),
      (.run (.work "first" .upload), seconds 62),
      (.check "first" true (seconds 63) .raises, seconds 63),
      (.check "first" true (seconds 70) .raises, seconds 70)]

/-- The checks of the first worker let it pass, and it owns its job. -/
theorem passed_check_owned_checks :
    ∃ s, ReachableTimed sampleTiming (TimedSystem.RaisesInTime sampleTiming) s ∧
      s.passed.length = 3 ∧ ∀ p ∈ s.passed, p.Sound := by
  obtain ⟨s, hs⟩ : ∃ s, guardedRun (TimedSystem.step sampleTiming)
      (TimedSystem.RaisesInTime sampleTiming) (TimedSystem.start sampleTiming) timedChecks =
        some s := ⟨_, rfl⟩
  have hstart : ReachableTimed sampleTiming (TimedSystem.RaisesInTime sampleTiming)
      (TimedSystem.start sampleTiming) := Reaches.start rfl
  have hreach := hstart.of_guardedRun hs
  refine ⟨s, hreach, ?_, fun p hp => passed_check_owned hreach hp⟩
  obtain rfl := Option.some.inj hs
  rfl

/-- The heartbeats of the first worker raise for five minutes, the reaper takes its job, the
second worker claims it, and then a check of the first worker raises. -/
def timedOvertaking : List (TimedAction × Timestamp) :=
  timedEncoding ++
    (.readStaleBefore (seconds 310), seconds 310) ::
    clocked (seconds 310)
      [.reap sampleSettings (seconds 10) 5 (fun _ => false) id (seconds 310),
        .openPass (seconds 400) (.limit 1), .publish 0 (.ok (seconds 400)) true,
        .commitPass 0 none none, .deliver "second" 0,
        .work "second" (.claim (seconds 400) (seconds 400))] ++
    [(.check "first" true (seconds 401) .raises, seconds 401)]

/-- **A check that raises lets a superseded worker pass**: the first worker starts to
upload the output of a job that the second has claimed. -/
theorem raising_check_passed :
    ∃ s, ReachableTimed sampleTiming Unguarded s ∧ ∃ p ∈ s.passed, p.uploads = true ∧
      p.execution.context.workerId = "first" ∧
      (∃ job, p.system.db.jobs.get? p.execution.context.jobId = some job ∧
        ownsRunningJob job "second" = true ∧ ownsRunningJob job "first" = false) ∧
      p.execution.claim < claims p.system.history p.execution.context.jobId := by
  have hrun : (guardedRun (TimedSystem.step sampleTiming) Unguarded
      (TimedSystem.start sampleTiming) timedOvertaking).any (fun s => s.passed.any fun p =>
        p.uploads && p.execution.context.workerId = "first" &&
        (p.system.db.jobs.get? p.execution.context.jobId).any (fun job =>
          ownsRunningJob job "second" && !ownsRunningJob job "first") &&
        p.execution.claim < claims p.system.history p.execution.context.jobId) = true := by
    decide +kernel
  obtain ⟨s, hs, hpassed⟩ := (Option.any_eq_true _ _).mp hrun
  obtain ⟨p, hp, hovertaken⟩ := List.any_eq_true.mp hpassed
  simp only [Bool.and_eq_true, decide_eq_true_eq] at hovertaken
  obtain ⟨⟨⟨huploads, hworker⟩, hjob⟩, hclaim⟩ := hovertaken
  obtain ⟨job, hget, howned⟩ := (Option.any_eq_true _ _).mp hjob
  simp only [Bool.and_eq_true, Bool.not_eq_true'] at howned
  have hstart : ReachableTimed sampleTiming Unguarded (TimedSystem.start sampleTiming) :=
    Reaches.start rfl
  exact ⟨s, hstart.of_guardedRun hs, p, hp, huploads, hworker, ⟨job, hget, howned⟩, hclaim⟩

end RenditionPipeline
