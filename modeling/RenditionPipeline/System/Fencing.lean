import RenditionPipeline.Runs.Effects
import RenditionPipeline.System.Steps

/-!
# Fencing

No row counts the claims of a job: all that keeps a superseded worker from
recording its result is that a marking call asks for a running job with the
worker's own id. That is enough, because a worker handles one message at a time
and its id is its own: the job runs under the worker's id only after the worker
has claimed it, and while the worker is in an execution, its last claim is the
one of that execution (`RenditionPipeline.Fenced.owned`).

So a marking call changes nothing unless its execution has the open claim of the
job, two executions never have the same claim, and in the history of a job every
claim that is granted ends once, by its own execution or by the reaper
(`RenditionPipeline.claim_concluded_once`).
-/

namespace RenditionPipeline

/-- **The claims of a job follow one another**: one is granted where none is open,
and it ends by the conclusion of the execution with its number, or by the reaper. -/
def Alternates : List Event → Prop
  | [] => True
  | .granted jobId :: history => openClaim jobId history = none ∧ Alternates history
  | .concluded jobId claim :: history =>
    openClaim jobId history = some claim ∧ Alternates history
  | .reaped jobId :: history => (openClaim jobId history).isSome ∧ Alternates history

/-! ### The history under a batch of the reaper -/

theorem openClaim_reaped (history : List Event) (stale : List UUID) (jid : UUID) :
    openClaim jid (stale.map Event.reaped ++ history) =
      if jid ∈ stale then none else openClaim jid history := by
  induction stale with
  | nil => rfl
  | cons j stale ih =>
    rw [List.map_cons, List.cons_append, openClaim, ih]
    by_cases hj : j = jid
    · simp [hj]
    · simp [hj, Ne.symm hj]

theorem claims_reaped (history : List Event) (stale : List UUID) (jid : UUID) :
    claims (stale.map Event.reaped ++ history) jid = claims history jid := by
  have hnone : (stale.map Event.reaped).count (Event.granted jid) = 0 :=
    List.count_eq_zero_of_not_mem fun h => by
      obtain ⟨j, -, hj⟩ := List.mem_map.mp h
      cases hj
  rw [claims, List.count_append, hnone, Nat.zero_add, claims]

theorem Alternates.reaped {history : List Event} (h : Alternates history) {stale : List UUID}
    (hnodup : stale.Nodup) (hopen : ∀ jid ∈ stale, (openClaim jid history).isSome) :
    Alternates (stale.map Event.reaped ++ history) := by
  induction stale with
  | nil => exact h
  | cons j stale ih =>
    rw [List.nodup_cons] at hnodup
    rw [List.map_cons, List.cons_append]
    refine ⟨?_, ih hnodup.2 fun jid hj => hopen jid (by simp [hj])⟩
    rw [openClaim_reaped, if_neg hnodup.1]
    exact hopen j (by simp)

/-! ### The invariant -/

/-- **The claims are fenced.** -/
structure Fenced (s : System) : Prop where
  /-- A job is running just while its claim is open. -/
  running : ∀ jid job, s.db.jobs.get? jid = some job →
    ((openClaim jid s.history).isSome ↔ job.status = .running)
  known : ∀ jid, s.db.jobs.get? jid = none → openClaim jid s.history = none
  context : ∀ w e, (s.workers w).execution = some e →
    e.context.workerId = w ∧ (s.db.jobs.get? e.context.jobId).isSome
  numbered : ∀ w e, (s.workers w).execution = some e →
    e.claim ≤ claims s.history e.context.jobId
  distinct : ∀ w w' e e', (s.workers w).execution = some e → (s.workers w').execution = some e' →
    e.context.jobId = e'.context.jobId → e.claim = e'.claim → w = w'
  /-- An execution whose worker owns the job has the open claim. -/
  owned : ∀ w e job, (s.workers w).execution = some e →
    s.db.jobs.get? e.context.jobId = some job → ownsRunningJob job w = true →
    openClaim e.context.jobId s.history = some e.claim
  alternates : Alternates s.history

theorem Fenced.start : Fenced System.start where
  running := fun _ _ h => by cases h
  known := fun _ _ => rfl
  context := fun _ _ h => by cases h
  numbered := fun _ _ h => by cases h
  distinct := fun _ _ _ _ h => by cases h
  owned := fun _ _ _ h => by cases h
  alternates := trivial

/-- **A step that grants no claim**: every job is as it was and so is its claim, or
it is not running any more and its claim is closed, and every execution goes on
from an earlier one. -/
structure NoGrant (s t : System) : Prop where
  job : ∀ jid job', t.db.jobs.get? jid = some job' →
    (openClaim jid t.history = openClaim jid s.history ∧
      ((∃ job, s.db.jobs.get? jid = some job ∧ ∃ b, job' = { job with heartbeatAt := b }) ∨
        (s.db.jobs.get? jid = none ∧ job'.status = .pending))) ∨
    (openClaim jid t.history = none ∧ job'.status ≠ .running)
  known : ∀ jid, t.db.jobs.get? jid = none →
    s.db.jobs.get? jid = none ∧ openClaim jid t.history = openClaim jid s.history
  claims : ∀ jid, claims t.history jid = claims s.history jid
  execution : ∀ w e', (t.workers w).execution = some e' →
    ∃ e, (s.workers w).execution = some e ∧ e'.context = e.context ∧ e'.claim = e.claim
  alternates : Alternates t.history

theorem ownsRunningJob_eq_false {job : Job} {w : String} (h : job.status ≠ .running) :
    ownsRunningJob job w = false := by
  simp [ownsRunningJob, h]

/-- **A step that grants no claim keeps the claims fenced.** -/
theorem NoGrant.fenced {s t : System} (h : NoGrant s t) (hf : Fenced s) : Fenced t where
  running := by
    intro jid job' hj
    rcases h.job jid job' hj with ⟨ho, ⟨job, hjob, b, rfl⟩ | ⟨hnone, hp⟩⟩ | ⟨ho, hr⟩
    · rw [ho]
      exact hf.running jid job hjob
    · rw [ho, hf.known jid hnone, hp]
      exact ⟨nofun, nofun⟩
    · rw [ho]
      exact ⟨nofun, fun hrun => absurd hrun hr⟩
  known := by
    intro jid hnone
    obtain ⟨hs, ho⟩ := h.known jid hnone
    rw [ho, hf.known jid hs]
  context := by
    intro w e' he'
    obtain ⟨e, he, hctx, -⟩ := h.execution w e' he'
    obtain ⟨hw, hsome⟩ := hf.context w e he
    rw [hctx]
    refine ⟨hw, ?_⟩
    -- no job is ever taken out
    by_contra hnone
    rw [Option.not_isSome_iff_eq_none] at hnone
    rw [(h.known _ hnone).1] at hsome
    cases hsome
  numbered := by
    intro w e' he'
    obtain ⟨e, he, hctx, hclaim⟩ := h.execution w e' he'
    rw [hctx, hclaim, h.claims]
    exact hf.numbered w e he
  distinct := by
    intro w w' e₁ e₂ h₁ h₂ hjob hclaim
    obtain ⟨e, he, hctx, hn⟩ := h.execution w e₁ h₁
    obtain ⟨e', he', hctx', hn'⟩ := h.execution w' e₂ h₂
    rw [hctx, hctx'] at hjob
    rw [hn, hn'] at hclaim
    exact hf.distinct w w' e e' he he' hjob hclaim
  owned := by
    intro w e' job' he' hj' ho
    obtain ⟨e, he, hctx, hclaim⟩ := h.execution w e' he'
    rw [hctx] at hj' ⊢
    rw [hclaim]
    -- of the three kinds of jobs only one that was there may still be owned
    rcases h.job _ job' hj' with ⟨hopen, ⟨job, hjob, b, rfl⟩ | ⟨-, hp⟩⟩ | ⟨-, hr⟩
    · rw [hopen]
      exact hf.owned w e job he hjob ho
    · rw [ownsRunningJob_eq_false (by rw [hp]; exact nofun)] at ho
      cases ho
    · rw [ownsRunningJob_eq_false hr] at ho
      cases ho
  alternates := h.alternates

/-! ### The kinds of step -/

section Kinds

variable {s t : System}

/-- A step that leaves the jobs alone, new ones and heartbeats aside. -/
theorem NoGrant.of_grown {db : Db} (hf : Fenced s) (hg : Grown s.db db)
    (hjobs : t.db.jobs = db.jobs) (hhistory : t.history = s.history)
    (hexecution : ∀ w e', (t.workers w).execution = some e' →
      ∃ e, (s.workers w).execution = some e ∧ e'.context = e.context ∧ e'.claim = e.claim) :
    NoGrant s t where
  job := by
    intro jid job' hj
    rw [hjobs] at hj
    rw [hhistory]
    refine Or.inl ⟨rfl, ?_⟩
    rcases hg.get?_job hj with hold | hnone
    · exact Or.inl hold
    · exact Or.inr ⟨hnone, (hg.newJob jid job' hj hnone).1⟩
  known := by
    intro jid hnone
    rw [hjobs] at hnone
    refine ⟨?_, by rw [hhistory]⟩
    by_contra hsome
    obtain ⟨job, hjob⟩ := Option.ne_none_iff_exists'.mp hsome
    obtain ⟨b, hb⟩ := hg.job jid job hjob
    rw [hnone] at hb
    cases hb
  claims := fun jid => by rw [hhistory]
  execution := hexecution
  alternates := by rw [hhistory]; exact hf.alternates

/-- A step that settles one job, which is not running any more. -/
theorem NoGrant.of_settled {loaded : LoadedJob s.db} {o : Outcome}
    {publication : Option Publication} {events : List Event}
    (hs : Settled loaded o publication t.db) (ho : (o.job loaded.job).status ≠ .running)
    (hhistory : t.history = events ++ s.history)
    (hself : openClaim loaded.jobId t.history = none)
    (hother : ∀ jid ≠ loaded.jobId, openClaim jid t.history = openClaim jid s.history)
    (hevents : ∀ jid, events.count (.granted jid) = 0)
    (hexecution : ∀ w e', (t.workers w).execution = some e' →
      ∃ e, (s.workers w).execution = some e ∧ e'.context = e.context ∧ e'.claim = e.claim)
    (halternates : Alternates t.history) : NoGrant s t where
  job := by
    intro jid job' hj
    rcases hs.get?_job hj with ⟨rfl, rfl⟩ | ⟨hne, hj⟩
    · exact Or.inr ⟨hself, ho⟩
    · exact Or.inl ⟨hother jid hne, Or.inl ⟨job', hj, job'.heartbeatAt, rfl⟩⟩
  known := by
    intro jid hnone
    have hne : jid ≠ loaded.jobId := by
      rintro rfl
      rw [hs.get?_job_self] at hnone
      cases hnone
    exact ⟨by rw [← hs.get?_job_of_ne hne]; exact hnone, hother jid hne⟩
  claims := fun jid => by
    rw [hhistory, RenditionPipeline.claims, List.count_append, hevents, Nat.zero_add]
    rfl
  execution := hexecution
  alternates := halternates

/-- A batch of the reaper. -/
theorem NoGrant.of_batch {log : List Settlement} (hf : Fenced s) (hb : Batch s.db log t.db)
    (hnodup : (log.map Prod.fst).Nodup)
    (hhistory : t.history = (log.map Prod.fst).map Event.reaped ++ s.history)
    (hworkers : t.workers = s.workers) : NoGrant s t where
  job := by
    intro jid job' hj
    rw [hhistory, openClaim_reaped]
    rcases hb.get?_job hj with ⟨hmem, o, job, hlog, -, -, rfl⟩ | ⟨hmem, hj⟩
    · rw [if_pos hmem]
      exact Or.inr ⟨rfl, (hb.outcome jid o hlog).status_ne_running job⟩
    · rw [if_neg hmem]
      exact Or.inl ⟨rfl, Or.inl ⟨job', hj, job'.heartbeatAt, rfl⟩⟩
  known := by
    intro jid hnone
    have hmem := hb.not_mem_of_none hnone
    rw [hhistory, openClaim_reaped, if_neg hmem]
    exact ⟨by rw [← hb.job_of_not_mem jid hmem]; exact hnone, rfl⟩
  claims := fun jid => by rw [hhistory, claims_reaped]
  execution := fun w e' he' => ⟨e', by rw [← hworkers]; exact he', rfl, rfl⟩
  alternates := by
    rw [hhistory]
    refine hf.alternates.reaped hnodup fun jid hmem => ?_
    obtain ⟨⟨jid, o⟩, hlog, rfl⟩ := List.mem_map.mp hmem
    obtain ⟨job, hj, he, -⟩ := hb.job_of_mem jid o hlog
    exact (hf.running jid job hj).mpr ((hb.outcome jid o hlog).running he)

/-- The executions after a worker has begun one: that one, or one of another worker as
before. -/
theorem execution_of_update_processing {workers : String → Worker} {worker : String}
    {m : EncodingJobMessage} {e : Execution} {progress : Progress} {connected : Bool} {w : String}
    {e' : Execution} (he' : (Function.update workers worker
      (.handling m (.processing e progress) connected) w).execution = some e') :
    (w = worker ∧ e' = e) ∨ (w ≠ worker ∧ (workers w).execution = some e') := by
  by_cases hw : w = worker
  · rw [hw, Function.update_self] at he'
    exact Or.inl ⟨hw, (Option.some.inj he').symm⟩
  · rw [Function.update_of_ne hw] at he'
    exact Or.inr ⟨hw, he'⟩

/-- **A granted claim keeps the claims fenced**: it has a number of its own, and
its worker was in no execution before. -/
theorem Fenced.granted (hf : Fenced s) {worker : String} {m : EncodingJobMessage}
    {connected : Bool} {loaded : LoadedJob s.db} {now : Timestamp} {e : Execution}
    {progress : Progress} (hs : Settled loaded (.running worker now) none t.db)
    (hjobId : e.context.jobId = loaded.jobId) (hworkerId : e.context.workerId = worker)
    (hclaim : e.claim = claims s.history loaded.jobId + 1)
    (hworkers : t.workers = Function.update s.workers worker
      (.handling m (.processing e progress) connected))
    (hhistory : t.history = .granted loaded.jobId :: s.history) : Fenced t := by
  have hexecution : ∀ {w e'}, (t.workers w).execution = some e' →
      (w = worker ∧ e' = e) ∨ (w ≠ worker ∧ (s.workers w).execution = some e') := by
    intro w e' he'
    rw [hworkers] at he'
    exact execution_of_update_processing he'
  have hopen : openClaim loaded.jobId t.history = some e.claim := by
    rw [hhistory, openClaim, if_pos rfl, hclaim]
  have hopen_of_ne : ∀ jid ≠ loaded.jobId, openClaim jid t.history = openClaim jid s.history :=
    fun jid hne => by rw [hhistory, openClaim, if_neg (Ne.symm hne)]
  have hclaims : ∀ jid, claims s.history jid ≤ claims t.history jid := fun jid => by
    rw [hhistory, claims, claims]
    exact List.count_le_count_cons
  refine ⟨?_, ?_, ?_, ?_, ?_, ?_, ?_⟩
  · -- the claimed job runs and its claim is open, the other jobs are as before
    intro jid job hj
    rcases hs.get?_job hj with ⟨rfl, rfl⟩ | ⟨hne, hj⟩
    · rw [hopen]
      exact ⟨fun _ => rfl, fun _ => rfl⟩
    · rw [hopen_of_ne jid hne]
      exact hf.running jid job hj
  · intro jid hnone
    have hne : jid ≠ loaded.jobId := by
      rintro rfl
      rw [hs.get?_job_self] at hnone
      cases hnone
    rw [hopen_of_ne jid hne]
    exact hf.known jid (by rw [← hs.get?_job_of_ne hne]; exact hnone)
  · intro w e' he'
    rcases hexecution he' with ⟨rfl, rfl⟩ | ⟨-, he'⟩
    · exact ⟨hworkerId, by rw [hjobId, hs.get?_job_self]; rfl⟩
    · obtain ⟨hid, hsome⟩ := hf.context w e' he'
      refine ⟨hid, ?_⟩
      by_cases hne : e'.context.jobId = loaded.jobId
      · rw [hne, hs.get?_job_self]
        rfl
      · rw [hs.get?_job_of_ne hne]
        exact hsome
  · intro w e' he'
    rcases hexecution he' with ⟨rfl, rfl⟩ | ⟨-, he'⟩
    · rw [hjobId, hclaim, hhistory, claims, claims, List.count_cons_self]
    · exact (hf.numbered w e' he').trans (hclaims _)
  · -- the number of the new claim is larger than those of the earlier ones
    have hnew : ∀ w e', (s.workers w).execution = some e' →
        e'.context.jobId = loaded.jobId → e'.claim ≠ e.claim := by
      intro w e' he' hjob hc
      have hle := hf.numbered w e' he'
      rw [hjob, hc, hclaim] at hle
      omega
    intro w w' e₁ e₂ h₁ h₂ hjob hc
    rcases hexecution h₁ with ⟨hw, rfl⟩ | ⟨-, h₁⟩
    · rcases hexecution h₂ with ⟨hw', -⟩ | ⟨-, h₂⟩
      · rw [hw, hw']
      · exact absurd hc.symm (hnew w' e₂ h₂ (by rw [← hjob, hjobId]))
    · rcases hexecution h₂ with ⟨-, rfl⟩ | ⟨-, h₂⟩
      · exact absurd hc (hnew w e₁ h₁ (by rw [hjob, hjobId]))
      · exact hf.distinct w w' e₁ e₂ h₁ h₂ hjob hc
  · -- who owns a running job holds its open claim
    intro w e' job he' hj ho
    rcases hexecution he' with ⟨rfl, rfl⟩ | ⟨hw, he'⟩
    · rw [hjobId]
      exact hopen
    · rcases hs.get?_job hj with ⟨-, rfl⟩ | ⟨hne, hj⟩
      · -- the job runs under the new worker's id
        have hid : some worker = some w := (status_of_ownsRunningJob ho).2
        exact absurd (Option.some.inj hid).symm hw
      · rw [hopen_of_ne _ hne]
        exact hf.owned w e' job he' hj ho
  · -- the job was not running, so that no claim of it was open
    rw [hhistory]
    refine ⟨?_, hf.alternates⟩
    rw [← Option.not_isSome_iff_eq_none, hf.running _ _ loaded.get?_job, hs.enabled.1]
    exact nofun

end Kinds

/-! ### Every step keeps the claims fenced -/

/-- The processor goes on with its execution, or is done. -/
theorem ProcessMove.execution {bucket bucket' : Bucket} {e : Execution} {progress : Progress}
    {action : WorkerAction} {phase : Phase}
    (h : ProcessMove bucket e progress action bucket' phase) :
    phase.execution = some e ∨ phase.execution = none := by
  cases h with
  | lost => exact Or.inr rfl
  | _ => exact Or.inl rfl

/-- A phase whose execution, if it has one, is that of another phase, up to what
the heartbeat has found. -/
def Phase.Continues (phase phase' : Phase) : Prop :=
  ∀ e', phase'.execution = some e' →
    ∃ e, phase.execution = some e ∧ e'.context = e.context ∧ e'.claim = e.claim

theorem Phase.continues_settling (phase : Phase) (action : WorkerMessageAction) :
    phase.Continues (.settling action) := fun _ h => by cases h

theorem Phase.Continues.refl (phase : Phase) : phase.Continues phase :=
  fun e' h => ⟨e', h, rfl, rfl⟩

/-- A worker that goes on with its message, where all others stay. -/
theorem Phase.Continues.workers {phase phase' : Phase} (h : phase.Continues phase')
    {workers : String → Worker} {worker : String} {m : EncodingJobMessage}
    {connected connected' : Bool} (hw : workers worker = .handling m phase connected) (w : String)
    (e' : Execution) (he' : (Function.update workers worker (.handling m phase' connected')
      w).execution = some e') :
    ∃ e, (workers w).execution = some e ∧ e'.context = e.context ∧ e'.claim = e.claim := by
  by_cases hne : w = worker
  · subst hne
    rw [Function.update_self] at he'
    rw [hw]
    exact h e' he'
  · rw [Function.update_of_ne hne] at he'
    exact ⟨e', he', rfl, rfl⟩

/-- A worker that is in no execution any more, where all others stay. -/
theorem execution_of_update_none {workers : String → Worker} {worker : String} {v : Worker}
    (h : v.execution = none) (w : String) (e' : Execution)
    (he' : (Function.update workers worker v w).execution = some e') :
    ∃ e, (workers w).execution = some e ∧ e'.context = e.context ∧ e'.claim = e.claim := by
  by_cases hne : w = worker
  · subst hne
    rw [Function.update_self, h] at he'
    cases he'
  · rw [Function.update_of_ne hne] at he'
    exact ⟨e', he', rfl, rfl⟩

/-- **A step of a worker keeps the claims fenced.** -/
theorem Fenced.worked {s t : System} (hf : Fenced s) {worker : String}
    {m : EncodingJobMessage} {phase phase' : Phase} {connected : Bool} {action : WorkerAction}
    {events : List Event} (hw : s.workers worker = .handling m phase connected)
    (hmove : WorkerMove s.world (claims s.history) worker m phase action ⟨t.db, t.bucket⟩ phase'
      events)
    (hworkers : t.workers = Function.update s.workers worker (.handling m phase' connected))
    (hhistory : t.history = events ++ s.history) : Fenced t := by
  have hquiet : ∀ db, Grown s.db db → t.db = db → events = [] → phase.Continues phase' →
      Fenced t := by
    rintro db hg rfl rfl hc
    refine (NoGrant.of_grown hf hg rfl hhistory ?_).fenced hf
    rw [hworkers]
    exact hc.workers hw
  -- the executions after a step that has settled the message
  have hover : ∀ answer, phase' = .settling answer → ∀ w e', (t.workers w).execution = some e' →
      ∃ e, (s.workers w).execution = some e ∧ e'.context = e.context ∧ e'.claim = e.claim := by
    rintro answer rfl
    rw [hworkers]
    exact (phase.continues_settling answer).workers hw
  generalize hworld : (⟨t.db, t.bucket⟩ : World) = world at hmove
  have hdb : t.db = world.db := by rw [← hworld]
  cases hmove with
  | requeued => exact hquiet _ (Grown.refl _) hdb rfl (Phase.continues_settling _ _)
  | mismatched h => exact hquiet _ (Grown.refl _) hdb rfl (Phase.continues_settling _ _)
  | notClaimable h => exact hquiet _ (Grown.refl _) hdb rfl (Phase.continues_settling _ _)
  | rolledBack hc howns hs => exact hquiet _ (Grown.refl _) hdb rfl (Phase.continues_settling _ _)
  | unchanged he => exact hquiet _ (Grown.refl _) hdb rfl (Phase.continues_settling _ _)
  | processed h =>
    refine hquiet _ (Grown.refl _) hdb rfl fun e' he' => ?_
    rcases (processStep_move h).execution with he | hnone
    · exact ⟨_, rfl, by rw [← Option.some.inj (he.symm.trans he')], by
        rw [← Option.some.inj (he.symm.trans he')]⟩
    · rw [hnone] at he'
      cases he'
  | @beaten e e' progress action now hcontext hclaim =>
    refine hquiet _ ((beat_chain s.world e now Scope.none).grown (fun _ _ _ _ h => h) id) hdb rfl ?_
    rintro _ ⟨⟩
    exact ⟨e, rfl, hcontext, hclaim⟩
  | @beatenFailing e e' error action now hcontext hclaim =>
    refine hquiet _ ((beat_chain s.world e now Scope.none).grown (fun _ _ _ _ h => h) id) hdb rfl ?_
    rintro _ ⟨⟩
    exact ⟨e, rfl, hcontext, hclaim⟩
  | @exhausted loaded checkedAt now db' hid hs =>
    obtain rfl := hdb
    refine (NoGrant.of_settled hs nofun hhistory ?_ (fun _ _ => by rw [hhistory]; rfl)
      (fun _ => rfl) (hover _ rfl) (by rw [hhistory]; exact hf.alternates)).fenced hf
    rw [hhistory, ← Option.not_isSome_iff_eq_none]
    show ¬ (openClaim loaded.jobId s.history).isSome
    rw [hf.running _ _ loaded.get?_job, hs.enabled.1]
    exact nofun
  | @claimed loaded checkedAt now db' hid hs =>
    obtain rfl := hdb
    rw [← hid] at hhistory hworkers
    exact hf.granted hs rfl rfl rfl hworkers hhistory
  | @concluded phase action e o loaded publication db' answer hc hcommits hid howns hs hpub =>
    obtain rfl := hdb
    have he : (s.workers worker).execution = some e := by
      rw [hw]
      cases hc <;> rfl
    have hopen : openClaim e.context.jobId s.history = some e.claim := by
      refine hf.owned worker e loaded.job he (by rw [← hid]; exact loaded.get?_job) ?_
      rw [← (hf.context worker e he).1]
      exact howns
    have hstatus : (o.job loaded.job).status ≠ .running := by
      cases hc <;> exact nofun
    refine (NoGrant.of_settled hs hstatus hhistory ?_ (fun jid hne => ?_) (fun _ => rfl)
      (hover _ rfl) ?_).fenced hf
    · rw [hhistory, List.singleton_append, openClaim, if_pos hid.symm]
    · rw [hhistory, List.singleton_append, openClaim, if_neg]
      rw [← hid]
      exact hne.symm
    · rw [hhistory]
      exact ⟨hopen, hf.alternates⟩

/-- **Every step keeps the claims fenced.** -/
theorem System.Stepped.fenced {s t : System} {a : Action} (h : System.Stepped s a t)
    (hl : s.db.Linked) (hf : Fenced s) : Fenced t := by
  cases h with
  | requested hop =>
    refine NoGrant.fenced ?_ hf
    exact NoGrant.of_grown hf (Op.grown (w := s.world) hop hl) rfl rfl fun w e he =>
      ⟨e, he, rfl, rfl⟩
  | delivered hw hready =>
    refine NoGrant.fenced ?_ hf
    exact NoGrant.of_grown hf (Grown.refl _) rfl rfl (execution_of_update_none rfl)
  | worked hw hmove => exact hf.worked hw hmove rfl rfl
  | @settled worker m action connected hw =>
    refine NoGrant.fenced ?_ hf
    refine NoGrant.of_grown hf (Grown.refl _) rfl rfl (execution_of_update_none ?_)
    cases connected <;> rfl
  | @disconnected worker m phase hw =>
    refine NoGrant.fenced ?_ hf
    exact NoGrant.of_grown hf (Grown.refl _) rfl rfl ((Phase.Continues.refl phase).workers hw)
  | crashed =>
    refine NoGrant.fenced ?_ hf
    exact NoGrant.of_grown hf (Grown.refl _) rfl rfl (execution_of_update_none rfl)
  | @committed index openError closeError pass hpass hcomplete =>
    refine NoGrant.fenced ?_ hf
    refine NoGrant.of_grown hf (Grown.refl _) ?_ rfl fun w e he => ⟨e, he, rfl, rfl⟩
    rw [Pass.commit_eq]
  | reaped hreap =>
    obtain ⟨log, hlog, hb⟩ := reap_batch hl hreap
    refine NoGrant.fenced ?_ hf
    exact NoGrant.of_batch hf hb (by rw [hlog]; exact nodup_staleJobs _ _ _ _) (by rw [hlog]) rfl
  | opened hrows => exact { hf with }
  | published hpass hrow haccepted => exact { hf with }
  | abandoned => exact { hf with }
  | unopened => exact hf
  | unreaped => exact hf

theorem ReachableSystem.fenced {guard : System → Action → Prop} {s : System}
    (h : ReachableSystem guard s) : Fenced s := by
  refine Reaches.invariant_of (J := fun s => s.db.Linked) (I := Fenced)
    (fun _ hs => ReachableSystem.linked hs) ?_ ?_ h
  · rintro _ rfl
    exact Fenced.start
  · rintro s a _ hl hf - hstep
    obtain ⟨t, ht, rfl⟩ := System.step_cases hstep
    -- the clock is not looked at
    exact { ht.fenced hl hf with }

/-! ### A superseded execution changes nothing -/

/-- **No marking call of an execution changes anything** in a database: it answers
that the job is not its worker's, and all rows stay. -/
structure Superseded (db : Db) (e : Execution) : Prop where
  succeeded : ∀ outputPath metadata now uploadOk,
    markEncodingJobSucceeded db e.context.jobId e.context.workerId outputPath metadata now
      uploadOk = .ok (Marked.unchanged db false)
  skipped : ∀ reason metadata now uploadOk,
    markEncodingJobSkipped db e.context.jobId reason e.context.workerId metadata now uploadOk =
      .ok (Marked.unchanged db false)
  failed : ∀ settings error newId now uploadOk,
    markEncodingJobFailed settings db e.context.jobId error e.context.workerId newId now
      uploadOk = .ok (Marked.unchanged db none)

/-- A worker that does not own the job is superseded. -/
theorem Superseded.of_not_owned {db : Db} {e : Execution} {loaded : LoadedJob db}
    (hload : getJobForUpdate db e.context.jobId = .ok loaded)
    (ho : ownsRunningJob loaded.job e.context.workerId = false) : Superseded db e where
  succeeded := by
    intro outputPath metadata now uploadOk
    simp [markEncodingJobSucceeded, hload, ho, bind, Except.bind, pure, Except.pure]
  skipped := by
    intro reason metadata now uploadOk
    simp [markEncodingJobSkipped, hload, ho, bind, Except.bind, pure, Except.pure]
  failed := by
    intro settings error newId now uploadOk
    simp [markEncodingJobFailed, hload, ho, bind, Except.bind, pure, Except.pure]

/-- An execution without the open claim of its job is superseded. -/
theorem Fenced.superseded {s : System} (hf : Fenced s) (hl : s.db.Linked) {w : String}
    {e : Execution} (he : (s.workers w).execution = some e)
    (hopen : openClaim e.context.jobId s.history ≠ some e.claim) : Superseded s.db e := by
  obtain ⟨hw, hsome⟩ := hf.context w e he
  obtain ⟨job, hjob⟩ := Option.isSome_iff_exists.mp hsome
  obtain ⟨loaded, hload, -, rfl⟩ := hl.exists_loaded hjob
  refine Superseded.of_not_owned hload ?_
  rw [hw]
  by_contra ho
  exact hopen (hf.owned w e loaded.job he hjob (by simpa using ho))

/-- **Each granted claim is concluded at most once, and only by its own execution
or by the reaper.** In every run of the system the claims of a job follow one
another, no two executions have the same claim, and a marking call of an
execution whose claim is not the open one changes nothing. -/
theorem claim_concluded_once {s : System} (h : ReachableSystem Unguarded s) :
    Alternates s.history ∧
    (∀ w w' e e', (s.workers w).execution = some e → (s.workers w').execution = some e' →
      e.context.jobId = e'.context.jobId → e.claim = e'.claim → w = w') ∧
    (∀ w e, (s.workers w).execution = some e →
      openClaim e.context.jobId s.history ≠ some e.claim → Superseded s.db e) :=
  ⟨h.fenced.alternates, h.fenced.distinct,
    fun _ _ he hopen => h.fenced.superseded h.linked he hopen⟩

/-- The first worker has claimed the first job. -/
def sampleClaim : List Action :=
  sampleUpload.map Action.request ++
    [.openPass 2 (.limit 1), .publish 0 (.ok 2) true, .commitPass 0 none none,
      .deliver "first" 0, .work "first" (.claim 3 3)]

/-- The first worker is reaped, and the second claims the job again. -/
def sampleTakeover : List Action :=
  sampleClaim ++
    [.reap sampleSettings 5 5 (fun _ => false) id 6, .openPass 40000000 (.limit 1),
      .publish 0 (.ok 40000000) true, .commitPass 0 none none, .deliver "second" 0,
      .work "second" (.claim 40000001 40000001)]

/-- The first worker goes on with its execution, and cannot conclude the job. -/
theorem claim_concluded_once_takeover :
    ∃ s e e', ReachableSystem Unguarded s ∧ (s.workers "first").execution = some e ∧
      (s.workers "second").execution = some e' ∧ e.context.jobId = e'.context.jobId ∧
      Superseded s.db e := by
  obtain ⟨s, hs⟩ : ∃ s, guardedRun System.step Unguarded System.start sampleTakeover = some s :=
    ⟨_, rfl⟩
  have hstart : ReachableSystem Unguarded System.start := Reaches.start rfl
  have hreach := hstart.of_guardedRun hs
  obtain rfl := Option.some.inj hs
  refine ⟨_, _, _, hreach, rfl, rfl, rfl, (claim_concluded_once hreach).2.2 "first" _ rfl ?_⟩
  decide

end RenditionPipeline
