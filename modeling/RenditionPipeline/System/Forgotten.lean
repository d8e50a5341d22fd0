import RenditionPipeline.Library.Progress
import RenditionPipeline.System.Playback
import RenditionPipeline.System.Wakeups

/-!
# Forgotten jobs

A pending job is woken up by a message, and the messages come from its row of the outbox.
A job whose row is not to be sent, and for which no message is left – neither in the queue
nor with a worker that may still look at it or give it back – is forgotten
(`RenditionPipeline.System.Forgotten`), and it stays so: no request, no pass, no worker and
no reaper of any run comes back to it, and its video is never done
(`RenditionPipeline.forgotten_job_stays`).

What makes this true is that the rows of an open pass are locked, and pending as they are
committed (`RenditionPipeline.PassesLock`): a message that is still to be sent by a pass is
one whose row is still to be sent.
-/

namespace RenditionPipeline

/-! ### The rows of the open passes -/

/-- **The rows of the open passes are locked**: none belongs to two of them, and all are
pending as they are committed. -/
structure PassesLock (s : System) : Prop where
  disjoint : s.passes.Pairwise Pass.Disjoint
  pending : ∀ pass ∈ s.passes, ∀ p ∈ pass.rows, ∃ m, s.db.outboxMessages.get? p.1 = some m ∧
    m.toEncodingJobMessage = p.2.toEncodingJobMessage ∧ m.status = .pending

theorem PassesLock.start : PassesLock System.start where
  disjoint := List.Pairwise.nil
  pending := fun _ h => by cases h

section Locks

variable {s t : System} {a : Action}

/-- A step that leaves the passes alone, and the pending messages pending. -/
theorem PassesLock.keep (h : PassesLock s) (hw : Wakes s.db t.db) (hpasses : t.passes = s.passes) :
    PassesLock t where
  disjoint := by
    rw [hpasses]
    exact h.disjoint
  pending := by
    rw [hpasses]
    intro pass hpass p hp
    obtain ⟨m, hm, href, hpending⟩ := h.pending pass hpass p hp
    obtain ⟨m', hm', href', hkeep⟩ := hw.message _ _ hm
    exact ⟨m', hm', href'.trans href, hkeep hpending⟩

/-- A pass that opens selects rows that are pending and that no other pass has. -/
theorem PassesLock.opened (h : PassesLock s) {now : Timestamp} {choice : OutboxChoice}
    {rows : List (UUID × OutboxMessage)}
    (hrows : publishableMessages s.db now choice
      (fun messageId => s.passes.any fun pass => pass.selects messageId) = rows) :
    PassesLock { s with passes := ⟨s.db, rows, []⟩ :: s.passes } := by
  have hmem : ∀ p ∈ rows, s.db.outboxMessages.get? p.1 = some p.2 ∧
      isPublishable s.db now p.2 = true ∧
      (s.passes.any fun pass => pass.selects p.1) = false := fun p hp =>
    mem_publishableMessages (by rw [hrows]; exact hp)
  refine ⟨List.pairwise_cons.mpr ⟨fun pass hpass p hp q hq => ?_, h.disjoint⟩,
    List.forall_mem_cons.mpr ⟨fun p hp => ?_, h.pending⟩⟩
  · have hlocked : pass.selects p.1 = false := by
      simpa using List.any_eq_false.mp (hmem p hp).2.2 pass hpass
    exact (Pass.selects_eq_false_iff.mp hlocked q hq).symm
  · obtain ⟨hget, hpublishable, -⟩ := hmem p hp
    exact ⟨p.2, hget, rfl, (isPublishable_eq_true hpublishable).1⟩

/-- A pass that sends a row keeps its rows. -/
theorem PassesLock.published (h : PassesLock s) {index : ℕ} {pass : Pass}
    (hpass : s.passes[index]? = some pass) (answer : Except String Timestamp)
    (ready : List EncodingJobMessage) :
    PassesLock { s with
      ready := ready
      passes := s.passes.set index { pass with answers := pass.answers ++ [answer] } } where
  disjoint := pairwise_set (f := Pass.rows)
    (R := fun rows rows' => ∀ p ∈ rows, ∀ q ∈ rows', p.1 ≠ q.1) h.disjoint hpass rfl
  pending := by
    intro q hq p hp
    rcases List.mem_or_eq_of_mem_set hq with hq | rfl
    · exact h.pending q hq p hp
    · exact h.pending pass (List.mem_of_getElem? hpass) p hp

/-- A pass that ends unlocks its own rows, and writes no others. -/
theorem PassesLock.ended (h : PassesLock s) {index : ℕ} {db : Db}
    (hother : ∀ pass ∈ s.passes.eraseIdx index, ∀ p ∈ pass.rows,
      db.outboxMessages.get? p.1 = s.db.outboxMessages.get? p.1) :
    PassesLock { s with db := db, passes := s.passes.eraseIdx index } where
  disjoint := h.disjoint.sublist (List.eraseIdx_sublist _ _)
  pending := fun pass hpass p hp => by
    rw [hother pass hpass p hp]
    exact h.pending pass (List.mem_of_mem_eraseIdx hpass) p hp

/-- **Every step keeps the locks.** -/
theorem System.Stepped.passesLock (h : System.Stepped s a t) (hl : s.db.Linked)
    (hp : PassesLock s) : PassesLock t := by
  cases h with
  | requested hop => exact hp.keep (Wakes.of_grown (Op.grown (w := s.world) hop hl)) rfl
  | worked hw hmove => exact hp.keep (hmove.wakes hl) rfl
  | opened hrows => exact hp.opened hrows
  | published hpass hrow haccepted => exact hp.published hpass _ _
  | @committed index openError closeError pass hpass hcomplete =>
    refine hp.ended fun q hq p hp' => ?_
    have hdisjoint := (rel_of_mem_eraseIdx Pass.Disjoint.symm hp.disjoint hpass hq).symm
    exact Pass.get?_commit_of_not_selects _ _ _ (Pass.selects_eq_false_iff.mpr
      fun p' hp'' => (hdisjoint p hp' p' hp'').symm)
  | abandoned => exact hp.ended fun _ _ _ _ => rfl
  | reaped hreap =>
    obtain ⟨log, -, hb⟩ := reap_batch hl hreap
    exact hp.keep (Wakes.of_settles hl hb.toSettles) rfl
  | _ => exact hp.keep (Wakes.refl _) rfl

end Locks

theorem ReachableSystem.passesLock {guard : System → Action → Prop} {s : System}
    (h : ReachableSystem guard s) : PassesLock s := by
  refine Reaches.invariant_of (J := fun s => s.db.Linked) (I := PassesLock)
    (fun _ hs => ReachableSystem.linked hs) ?_ ?_ h
  · rintro _ rfl
    exact PassesLock.start
  · rintro s a _ hl hp - hstep
    obtain ⟨t, ht, rfl⟩ := System.step_cases hstep
    exact { ht.passesLock hl hp with }

/-! ### Messages that may still come to something -/

/-- The message that a worker may still look at, or that the broker may still take back
from it. -/
def Worker.heeded : Worker → List EncodingJobMessage
  | handling message .received _ => [message]
  | handling message _ true => [message]
  | _ => []

theorem Worker.heeded_received (m : EncodingJobMessage) (connected : Bool) :
    (handling m .received connected).heeded = [m] := rfl

theorem Worker.heeded_connected (m : EncodingJobMessage) (phase : Phase) :
    (handling m phase true).heeded = [m] := by
  cases phase <;> rfl

/-- A message is not looked at a second time by the worker that has it. -/
theorem Worker.heeded_of_ne_received {m : EncodingJobMessage} {phase : Phase} {connected : Bool}
    (hphase : phase ≠ .received) {m' : EncodingJobMessage}
    (h : m' ∈ (handling m phase connected).heeded) : connected = true ∧ m' = m := by
  cases connected with
  | true =>
    rw [heeded_connected] at h
    exact ⟨rfl, List.mem_singleton.mp h⟩
  | false => cases phase <;> first | exact absurd rfl hphase | cases h

theorem Worker.heeded_of_held {v : Worker} {m : EncodingJobMessage} (h : m ∈ v.held) :
    m ∈ v.heeded := by
  unfold held at h
  split at h
  · rw [heeded_connected]
    exact h
  · cases h

/-- No step of a worker leads back to a message that has just been delivered. -/
theorem WorkerMove.phase_ne_received {w w' : World} {claims : UUID → ℕ} {workerId : String}
    {m : EncodingJobMessage} {phase phase' : Phase} {action : WorkerAction} {events : List Event}
    (h : WorkerMove w claims workerId m phase action w' phase' events) : phase' ≠ .received := by
  cases h with
  | processed hstep =>
    cases processStep_move hstep <;> exact nofun
  | _ => exact nofun

namespace System

/-- **A message is left**: in the queue, or with a worker that may still look at it or give
it back. -/
def HasMessage (s : System) (m : EncodingJobMessage) : Prop :=
  m ∈ s.ready ∨ ∃ w, m ∈ (s.workers w).heeded

/-- A message of a job is left. -/
def Awaits (s : System) (jobId : UUID) : Prop :=
  ∃ m : EncodingJobMessage, m.jobId = jobId ∧ s.HasMessage m

/-- **A job is forgotten**: it is pending, its row of the outbox is not to be sent, and no
message is left for it. -/
def Forgotten (s : System) (jobId : UUID) : Prop :=
  (∃ job, s.db.jobs.get? jobId = some job ∧ job.status = .pending) ∧
    ¬ s.db.Queued jobId ∧ ¬ s.Awaits jobId

end System

section Messages

variable {s t : System} {a : Action}

/-- A worker steps, and the others keep their messages. -/
theorem System.HasMessage.of_update {m : EncodingJobMessage} {worker : String} {v : Worker}
    (hm : t.HasMessage m) (hworkers : t.workers = Function.update s.workers worker v)
    (hready : ∀ m ∈ t.ready, s.HasMessage m) (hself : ∀ m ∈ v.heeded, s.HasMessage m) :
    s.HasMessage m := by
  rcases hm with hm | ⟨w, hm⟩
  · exact hready m hm
  · rw [hworkers] at hm
    by_cases hne : w = worker
    · subst hne
      rw [Function.update_self] at hm
      exact hself m hm
    · rw [Function.update_of_ne hne] at hm
      exact Or.inr ⟨w, hm⟩

/-- **Where a message comes from**: it was left before, or a pass has sent it. -/
theorem System.Stepped.hasMessage (h : System.Stepped s a t) {m : EncodingJobMessage}
    (hm : t.HasMessage m) :
    s.HasMessage m ∨ ∃ pass ∈ s.passes, ∃ p ∈ pass.rows, p.2.toEncodingJobMessage = m := by
  have hready : ∀ m ∈ s.ready, s.HasMessage m := fun m hm => Or.inl hm
  have hconnected : ∀ {worker m phase}, s.workers worker = .handling m phase true →
      s.HasMessage m := fun {worker m phase} hw => Or.inr ⟨worker, by
    rw [hw, Worker.heeded_connected]
    exact List.mem_singleton_self m⟩
  cases h with
  | @delivered worker index m' hw hget =>
    refine Or.inl (hm.of_update rfl (fun m hm => hready m (List.mem_of_mem_eraseIdx hm)) ?_)
    rw [Worker.heeded_received]
    exact List.forall_mem_singleton.mpr (hready m' (List.mem_of_getElem? hget))
  | @worked worker m' phase phase' connected action db' bucket' events hw hmove =>
    refine Or.inl (hm.of_update rfl hready fun m hm => ?_)
    obtain ⟨rfl, rfl⟩ := Worker.heeded_of_ne_received hmove.phase_ne_received hm
    exact hconnected hw
  | @settled worker m' action connected hw =>
    refine Or.inl (hm.of_update rfl (fun m hm => ?_) ?_)
    · rcases List.mem_append.mp hm with hm | hm
      · cases connected with
        | true => cases action <;> first
            | (rw [List.mem_singleton.mp hm]; exact hconnected hw)
            | cases hm
        | false => cases action <;> cases hm
      · exact hready m hm
    · cases connected <;> exact nofun
  | @disconnected worker m' phase hw =>
    refine Or.inl (hm.of_update rfl (List.forall_mem_cons.mpr ⟨hconnected hw, hready⟩)
      fun m hm => ?_)
    have hsame : m = m' := by
      cases phase <;> first | exact List.mem_singleton.mp hm | cases hm
    rw [hsame]
    exact hconnected hw
  | @crashed worker =>
    refine Or.inl (hm.of_update rfl (fun m hm => ?_) nofun)
    rcases List.mem_append.mp hm with hm | hm
    · exact Or.inr ⟨worker, Worker.heeded_of_held hm⟩
    · exact hready m hm
  | @published index answer accepted pass row hpass hrow haccepted =>
    rcases hm with hm | hm
    · rcases List.mem_append.mp hm with hm | hm
      · refine Or.inr ⟨pass, List.mem_of_getElem? hpass, row, List.mem_of_getElem? hrow, ?_⟩
        cases accepted with
        | true => exact (List.mem_singleton.mp hm).symm
        | false => cases hm
      · exact Or.inl (hready m hm)
    · exact Or.inl (Or.inr hm)
  | _ => exact Or.inl hm

end Messages

/-! ### Transactions that leave a job alone -/

/-- **A transaction leaves a job alone**, with its row of the outbox. -/
structure LeavesAlone (jobId : UUID) (db db' : Db) : Prop where
  job : db'.jobs.get? jobId = db.jobs.get? jobId
  message : ∀ mid m, db.outboxMessages.get? mid = some m → m.jobId = jobId →
    db'.outboxMessages.get? mid = some m

namespace LeavesAlone

variable {jobId : UUID} {db db' : Db}

theorem refl (jobId : UUID) (db : Db) : LeavesAlone jobId db db := ⟨rfl, fun _ _ hm _ => hm⟩

/-- Settling another job. -/
theorem of_settled {loaded : LoadedJob db} {o : Outcome} {publication : Option Publication}
    (hl : db.Linked) (h : Settled loaded o publication db') (hne : loaded.jobId ≠ jobId) :
    LeavesAlone jobId db db' where
  job := h.get?_job_of_ne hne.symm
  message := by
    intro mid m hm hj
    rw [h.get?_outboxMessage hl, hm, Option.map_some, Outcome.message, if_neg]
    exact fun hcond => hne (hcond.2.symm.trans hj)

/-- A beat writes running jobs alone. -/
theorem of_beat {job : Job} (hj : db.jobs.get? jobId = some job) (hrun : job.status ≠ .running)
    (e : Execution) (now : Timestamp) : LeavesAlone jobId db (beat db e now).1 := by
  rw [beat]
  split
  · exact refl jobId db
  rename_i hok
  obtain ⟨loaded, hid, howned, rfl⟩ := heartbeatEncodingJob_eq_ok hok
  split
  · rename_i ho
    refine ⟨Table.get?_modify_of_ne ?_ _ _, fun _ _ hm _ => hm⟩
    rintro rfl
    rw [howned] at ho
    have hjob := loaded.get?_job
    rw [hid, hj] at hjob
    rw [← Option.some.inj hjob] at ho
    exact hrun (status_of_ownsRunningJob ho).1
  · exact refl jobId db

/-- A job whose row is as it was is queued only if it was queued before. -/
theorem not_queued (h : LeavesAlone jobId db db') (hl : db.Linked) (hl' : db'.Linked) {job : Job}
    (hj : db.jobs.get? jobId = some job) (hq : ¬ db.Queued jobId) : ¬ db'.Queued jobId := by
  rintro ⟨mid, m, hm, hmj, hp⟩
  obtain ⟨mid₀, m₀, hm₀, hmj₀⟩ := hl.job_outbox _ _ hj
  have hkept := h.message mid₀ m₀ hm₀ hmj₀
  obtain rfl := hl'.outbox_unique _ _ _ _ hm hkept (hmj.trans hmj₀.symm)
  obtain rfl := Option.some.inj (hm.symm.trans hkept)
  exact hq ⟨mid, m, hm₀, hmj, hp⟩

end LeavesAlone

/-- **A step of a worker leaves a pending job alone**, unless it looks at a message of the
job. -/
theorem WorkerMove.leavesAlone {w w' : World} {claims : UUID → ℕ} {workerId : String}
    {m : EncodingJobMessage} {phase phase' : Phase} {action : WorkerAction} {events : List Event}
    (h : WorkerMove w claims workerId m phase action w' phase' events) (hl : w.db.Linked)
    {jobId : UUID} {job : Job} (hj : w.db.jobs.get? jobId = some job) (hp : job.status = .pending)
    (hm : phase = .received → m.jobId ≠ jobId) : LeavesAlone jobId w.db w'.db := by
  have hrun : job.status ≠ .running := by
    rw [hp]
    exact nofun
  cases h with
  | exhausted hid hs => exact LeavesAlone.of_settled hl hs (hid ▸ hm rfl)
  | claimed hid hs => exact LeavesAlone.of_settled hl hs (hid ▸ hm rfl)
  | beaten hcontext hclaim => exact LeavesAlone.of_beat hj hrun _ _
  | beatenFailing hcontext hclaim => exact LeavesAlone.of_beat hj hrun _ _
  | @concluded phase action e o loaded publication db' answer hc hcommits hid howns hs hpub =>
    refine LeavesAlone.of_settled hl hs ?_
    rintro rfl
    rw [loaded.get?_job, Option.some.injEq] at hj
    exact hrun (hj ▸ (status_of_ownsRunningJob howns).1)
  | _ => exact LeavesAlone.refl jobId _

/-! ### Every step -/

section Steps

variable {s t : System} {a : Action} {jobId : UUID}

/-- **A step leaves a forgotten job alone.** -/
theorem System.Stepped.leavesAlone (h : System.Stepped s a t) (hl : s.db.Linked)
    (hp : PassesLock s) (hf : s.Forgotten jobId) : LeavesAlone jobId s.db t.db := by
  obtain ⟨⟨job, hj, hpending⟩, hq, hno⟩ := hf
  cases h with
  | requested hop =>
    refine ⟨?_, fun mid m hm _ => (Op.grown (w := s.world) hop hl).message mid m hm⟩
    rw [hj]
    exact get?_job_of_isUploadRequest (w := s.world) hop hl hj
  | @worked worker m phase phase' connected action db' bucket' events hw hmove =>
    refine hmove.leavesAlone hl hj hpending ?_
    rintro rfl hm
    refine hno ⟨m, hm, Or.inr ⟨worker, ?_⟩⟩
    rw [hw, Worker.heeded_received]
    exact List.mem_singleton_self _
  | @committed index openError closeError pass hpass hcomplete =>
    refine ⟨by rw [Pass.commit_eq], fun mid m hm hmj => ?_⟩
    refine (Pass.get?_commit_of_not_selects _ _ _ (Pass.selects_eq_false_iff.mpr ?_)).trans hm
    -- a row that the pass has selected is pending
    rintro p hp' rfl
    obtain ⟨m', hm', -, hmp⟩ := hp.pending pass (List.mem_of_getElem? hpass) p hp'
    obtain rfl := Option.some.inj (hm.symm.trans hm')
    exact hq ⟨_, _, hm, hmj, hmp⟩
  | reaped hreap =>
    obtain ⟨log, -, hb⟩ := reap_batch hl hreap
    have hnot : jobId ∉ log.map Prod.fst := fun hmem => by
      obtain ⟨⟨jid, o⟩, hlog, rfl⟩ := List.mem_map.mp hmem
      obtain ⟨job', hj', he, -⟩ := hb.job_of_mem _ o hlog
      obtain rfl : job = job' := Option.some.inj (hj.symm.trans hj')
      have hrun := (hb.outcome _ o hlog).running he
      rw [hpending] at hrun
      cases hrun
    refine ⟨hb.job_of_not_mem jobId hnot, fun mid m hm hmj => hb.message mid m hm fun o hlog => ?_⟩
    rw [hmj] at hlog
    exact absurd (List.mem_map.mpr ⟨_, hlog, rfl⟩) hnot
  | _ => exact LeavesAlone.refl jobId _

/-- **No step brings a message to a forgotten job**: what a pass sends is a row that is
pending. -/
theorem System.Stepped.not_awaits (h : System.Stepped s a t) (hp : PassesLock s)
    (hf : s.Forgotten jobId) : ¬ t.Awaits jobId := by
  obtain ⟨-, hq, hno⟩ := hf
  rintro ⟨m, hj, hm⟩
  rcases h.hasMessage hm with hm | ⟨pass, hpass, p, hp', rfl⟩
  · exact hno ⟨m, hj, hm⟩
  · obtain ⟨m', hm', href, hmp⟩ := hp.pending pass hpass p hp'
    exact hq ⟨_, _, hm', (congrArg EncodingJobMessage.jobId href).trans hj, hmp⟩

/-- **A forgotten job stays forgotten** under every step. -/
theorem System.Stepped.forgotten (h : System.Stepped s a t) (hl : s.db.Linked)
    (hl' : t.db.Linked) (hp : PassesLock s) (hf : s.Forgotten jobId) :
    t.db.jobs.get? jobId = s.db.jobs.get? jobId ∧ t.Forgotten jobId := by
  have halone := h.leavesAlone hl hp hf
  have hno := h.not_awaits hp hf
  obtain ⟨⟨job, hj, hpending⟩, hq, -⟩ := hf
  exact ⟨halone.job, ⟨job, halone.job.trans hj, hpending⟩, halone.not_queued hl hl' hj hq, hno⟩

end Steps

/-- **No job is forgotten** while no pass publishes a row that has been armed again. -/
theorem ReachableSystem.not_forgotten {s : System} (h : ReachableSystem KeepsRearmed s)
    (jobId : UUID) : ¬ s.Forgotten jobId := by
  rintro ⟨⟨job, hj, hpending⟩, hq, hno⟩
  rcases h.remembered.pending jobId job hj hpending with hq' | ⟨-, hs⟩
  · exact hq hq'
  · exact hno ⟨_, rfl, hs.unsettled.imp_right fun ⟨w, hw⟩ => ⟨w, Worker.heeded_of_held hw⟩⟩

/-- **A forgotten job stays forgotten** in every run. -/
theorem System.Forgotten.stays {guard : System → Action → Prop} {s t : System} {jobId : UUID}
    (hf : s.Forgotten jobId) (hs : ReachableSystem Unguarded s)
    (hrun : Leads System.step guard s t) :
    t.db.jobs.get? jobId = s.db.jobs.get? jobId ∧ t.Forgotten jobId := by
  induction hrun with
  | start ht =>
    subst ht
    exact ⟨rfl, hf⟩
  | @step u u' a hu hg hstep ih =>
    have hreach : ReachableSystem Unguarded u := Leads.reaches hu (fun _ _ _ => trivial) hs
    have hreach' : ReachableSystem Unguarded u' := Reaches.step hreach trivial hstep
    obtain ⟨v, hv, rfl⟩ := System.step_cases hstep
    obtain ⟨hjob, hforgotten⟩ := hv.forgotten hreach.linked hreach'.linked hreach.passesLock ih.2
    exact ⟨hjob.trans ih.1, hforgotten⟩

/-- The rendition of a forgotten job is pending, so that its video is not done. -/
theorem System.Forgotten.video_ne_done {s : System} {jobId : UUID} (hf : s.Forgotten jobId)
    (hl : s.db.Linked) (hc : s.db.Coherent) {job : Job} (hj : s.db.jobs.get? jobId = some job)
    {video : Video} (hv : s.db.videos.get? job.videoId = some video) : video.status ≠ .done := by
  obtain ⟨⟨job', hj', hpending⟩, -⟩ := hf
  obtain rfl : job = job' := Option.some.inj (hj.symm.trans hj')
  obtain ⟨r, hr, hvid⟩ := hl.job_rendition _ _ hj
  obtain ⟨r', hr', hpaired⟩ := hc.paired _ _ hj
  obtain rfl : r = r' := Option.some.inj (hr.symm.trans hr')
  have hstatus : r.status = .pending :=
    (hpaired.eq_of_isActive (by rw [hpending]; rfl)).trans hpending
  have hmem : (job.renditionId, r) ∈ s.db.renditionsOf job.videoId :=
    Db.mem_renditionsOf.mpr ⟨hr, hvid⟩
  intro hdone
  rw [hc.derived _ _ hv (List.ne_nil_of_mem hmem)] at hdone
  have hall := (deriveVideoStatus_eq_done hdone).2 r.status (List.mem_map.mpr ⟨_, hmem, rfl⟩)
  rw [hstatus] at hall
  rcases hall with he | he <;> cases he

/-- **A forgotten job is never looked at again.** Whatever the system does from then on –
any requests, passes, reapers, crashes and new workers, in any order – its row stays as it
is, it stays forgotten, and its video is never done. -/
theorem forgotten_job_stays {s t : System} {jobId : UUID}
    (hs : ReachableSystem Unguarded s) (hf : s.Forgotten jobId)
    (hrun : Leads System.step Unguarded s t) :
    t.db.jobs.get? jobId = s.db.jobs.get? jobId ∧ t.Forgotten jobId ∧
      ∀ job video, t.db.jobs.get? jobId = some job → t.db.videos.get? job.videoId = some video →
        video.status ≠ .done := by
  obtain ⟨hjob, hforgotten⟩ := hf.stays hs hrun
  have ht : ReachableSystem Unguarded t := Leads.reaches hrun (fun _ _ h => h) hs
  exact ⟨hjob, hforgotten, fun job video hj hv =>
    hforgotten.video_ne_done ht.linked ht.coherent hj hv⟩

/-- A job that is armed again under a pass is forgotten when the pass commits, and neither
another pass, nor the reaper, nor a second worker finds it. -/
theorem forgotten_job_stays_unfound :
    ∃ s t, ReachableSystem Unguarded s ∧ s.Forgotten (sampleId 11) ∧
      guardedRun System.step Unguarded s [.openPass 100000000 (.limit 1),
        .reap sampleSettings 100000000 5 (fun _ => false) id 100000000, .crash "first"] = some t ∧
      t.db.jobs.get? (sampleId 11) = s.db.jobs.get? (sampleId 11) ∧ t.Forgotten (sampleId 11) ∧
      ∀ job video, t.db.jobs.get? (sampleId 11) = some job →
        t.db.videos.get? job.videoId = some video → video.status ≠ .done := by
  obtain ⟨s, t, hs, ht, hrows⟩ : ∃ s t, guardedRun System.step Unguarded System.start
      (sampleUpload.map Action.request ++ [.openPass 2 (.limit 1), .publish 0 (.ok 2) true] ++
        sampleFailure ++ [.commitPass 0 none none]) = some s ∧
      guardedRun System.step Unguarded s [.openPass 100000000 (.limit 1),
        .reap sampleSettings 100000000 5 (fun _ => false) id 100000000, .crash "first"] = some t ∧
      (s.db.outboxMessages.rows.all fun q =>
        q.2.jobId ≠ sampleId 11 || q.2.status ≠ .pending) = true := ⟨_, _, rfl, rfl, rfl⟩
  have hstart : ReachableSystem Unguarded System.start := Reaches.start rfl
  have hreach := hstart.of_guardedRun hs
  have hforgotten : s.Forgotten (sampleId 11) := by
    refine ⟨?_, ?_, ?_⟩
    · obtain rfl := Option.some.inj hs
      exact ⟨_, rfl, rfl⟩
    · rintro ⟨mid, m, hm, hj, hp⟩
      simpa [hj, hp] using List.all_eq_true.mp hrows _ (Table.get?_eq_some_iff.mp hm)
    · obtain rfl := Option.some.inj hs
      rintro ⟨m, -, hm | ⟨w, hw⟩⟩
      · cases hm
      · by_cases hne : w = "first"
        · subst hne
          cases hw
        · -- no other worker has done anything
          simp only [Function.update_of_ne hne] at hw
          cases hw
  have hleads : Leads System.step Unguarded s t := (Leads.refl s).of_guardedRun ht
  exact ⟨s, t, hreach, hforgotten, ht, forgotten_job_stays hreach hforgotten hleads⟩

end RenditionPipeline
