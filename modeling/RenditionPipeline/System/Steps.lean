import RenditionPipeline.System.Passes

/-!
# What a step does

A step of a worker calls one function of the job service, of which
`RenditionPipeline.Lifecycle.Settled` already says what it does. Here the two are
put together: `RenditionPipeline.WorkerMove` lists what a worker's step can do,
case by case (that of its processor in `RenditionPipeline.ProcessMove`), and
`RenditionPipeline.System.Stepped` what a step of the system can do, so that no
invariant has to unfold a step again (`RenditionPipeline.System.step_cases`).

On the database every step is a chain of moves
(`RenditionPipeline.System.Stepped.chain`), so that what every move keeps is kept by
every step (`RenditionPipeline.System.Stepped.keep_db`) and holds in every state of
the system (`RenditionPipeline.ReachableSystem.invariant_db`).
-/

namespace RenditionPipeline

/-! ### Steps of a worker -/

/-- What a step of the processor can do to the bucket, and the phase it leads to. -/
inductive ProcessMove (bucket : Bucket) (e : Execution) :
    Progress → WorkerAction → Bucket → Phase → Prop
  | applicable {metadata : VideoSourceMetadata}
      (happlicable : isHlsPresetApplicable (getHlsPreset e.context.resolution) metadata
        defaultBitrateHeadroom = true) :
      ProcessMove bucket e .probing (.probed metadata) bucket (.processing e (.encoding metadata))
  | notApplicable {metadata : VideoSourceMetadata}
      (happlicable : ¬ isHlsPresetApplicable (getHlsPreset e.context.resolution) metadata
        defaultBitrateHeadroom = true) :
      ProcessMove bucket e .probing (.probed metadata) bucket
        (.concluding e ⟨none, some metadata, some (skippedReason e.context.resolution metadata)⟩)
  | encoded {metadata : VideoSourceMetadata} {output : HlsOutput} (hne : output.segments ≠ []) :
      ProcessMove bucket e (.encoding metadata) (.encoded output) bucket
        (.processing e (.uploading metadata output output.segments))
  | segment {metadata : VideoSourceMetadata} {output : HlsOutput} {segment : Segment}
      {todo : List Segment} {key : String}
      (hkey : buildHlsSegmentKey e.context.videoId e.context.resolution segment.name = .ok key) :
      ProcessMove bucket e (.uploading metadata output (segment :: todo)) .upload
        (bucket.put key segment.object) (.processing e (.uploading metadata output todo))
  | playlist {metadata : VideoSourceMetadata} {output : HlsOutput} {key : String}
      (hkey : buildHlsPlaylistKey e.context.videoId e.context.resolution = .ok key) :
      ProcessMove bucket e (.uploading metadata output []) .upload
        (bucket.put key output.playlistObject) (.concluding e ⟨some key, some metadata, none⟩)
  | failed {progress : Progress} {action : WorkerAction} {error : String} :
      ProcessMove bucket e progress action bucket (.failing e error)
  | lost {progress : Progress} (hlost : (e.heartbeatLost || e.checkLost) = true) :
      ProcessMove bucket e progress .cancelled bucket (.settling .ack)

/-- **Every step of the processor is one of these.** -/
theorem processStep_move {bucket bucket' : Bucket} {e : Execution} {progress : Progress}
    {action : WorkerAction} {phase : Phase}
    (h : processStep bucket e progress action = some (bucket', phase)) :
    ProcessMove bucket e progress action bucket' phase := by
  unfold processStep at h
  split at h
  · split at h <;> rename_i happlicable <;>
      obtain ⟨rfl, rfl⟩ := Prod.mk.inj (Option.some.inj h)
    · exact .applicable happlicable
    · exact .notApplicable happlicable
  · split at h <;> rename_i hne <;> obtain ⟨rfl, rfl⟩ := Prod.mk.inj (Option.some.inj h)
    · exact .failed
    · exact .encoded hne
  · split at h <;> obtain ⟨rfl, rfl⟩ := Prod.mk.inj (Option.some.inj h)
    · exact .failed
    · rename_i hkey
      exact .segment hkey
  · split at h <;> obtain ⟨rfl, rfl⟩ := Prod.mk.inj (Option.some.inj h)
    · exact .failed
    · rename_i hkey
      exact .playlist hkey
  · obtain ⟨rfl, rfl⟩ := Prod.mk.inj (Option.some.inj h)
    exact .failed
  · split at h
    · rename_i hlost
      obtain ⟨rfl, rfl⟩ := Prod.mk.inj (Option.some.inj h)
      exact .lost hlost
    · cases h
  · cases h

/-- The outcomes that a worker may conclude with, by the phase it is in and the
action it takes. -/
inductive Conclusion : Phase → WorkerAction → Execution → Outcome → Prop
  | retried {e : Execution} {error : String} {settings : Settings} {newId : UUID}
      {now nextRunAt : Timestamp} {uploadOk commitOk : Bool} :
      Conclusion (.failing e error) (.fail settings newId now uploadOk commitOk) e
        (.retried error now nextRunAt)
  | failed {e : Execution} {error : String} {settings : Settings} {newId : UUID}
      {now : Timestamp} {uploadOk commitOk : Bool} :
      Conclusion (.failing e error) (.fail settings newId now uploadOk commitOk) e
        (.failed error now)
  | done {e : Execution} {result : EncodingProcessorResult} {now : Timestamp}
      {uploadOk commitOk : Bool} (hreason : result.skippedReason = none) :
      Conclusion (.concluding e result) (.conclude now uploadOk commitOk) e
        (.done result.outputPath now)
  | skipped {e : Execution} {result : EncodingProcessorResult} {reason : String}
      {now : Timestamp} {uploadOk commitOk : Bool} (hreason : result.skippedReason = some reason) :
      Conclusion (.concluding e result) (.conclude now uploadOk commitOk) e
        (.skipped reason now)

/-- Whether the transaction of a step commits. -/
def WorkerAction.commits : WorkerAction → Bool
  | .conclude _ _ commitOk => commitOk
  | .fail _ _ _ _ commitOk => commitOk
  | _ => true

/-- **What a step of a worker can do**, with a message `m` and where the number of
claims granted before is `claims`. -/
inductive WorkerMove (w : World) (claims : UUID → ℕ) (workerId : String)
    (m : EncodingJobMessage) : Phase → WorkerAction → World → Phase → List Event → Prop
  /-- The claim has raised, and the message is to come again. -/
  | requeued {action : WorkerAction} :
      WorkerMove w claims workerId m .received action w (.settling .requeue) []
  /-- The message is that of no job. -/
  | mismatched {action : WorkerAction}
      (h : ∀ job, w.db.jobs.get? m.jobId = some job →
        ¬ (job.videoId = m.videoId ∧ job.renditionId = m.renditionId)) :
      WorkerMove w claims workerId m .received action w (.settling .reject) []
  /-- The job cannot be claimed now. -/
  | notClaimable {checkedAt now : Timestamp}
      (h : ∀ job, w.db.jobs.get? m.jobId = some job → isClaimable job checkedAt = false) :
      WorkerMove w claims workerId m .received (.claim checkedAt now) w (.settling .ack) []
  /-- The job had no attempts left. -/
  | exhausted {loaded : LoadedJob w.db} {checkedAt now : Timestamp} {db' : Db}
      (hid : loaded.jobId = m.jobId) (hs : Settled loaded (.exhausted now) none db') :
      WorkerMove w claims workerId m .received (.claim checkedAt now) ⟨db', w.bucket⟩
        (.settling .ack) []
  /-- The claim is granted. -/
  | claimed {loaded : LoadedJob w.db} {checkedAt now : Timestamp} {db' : Db}
      (hid : loaded.jobId = m.jobId) (hs : Settled loaded (.running workerId now) none db') :
      WorkerMove w claims workerId m .received (.claim checkedAt now) ⟨db', w.bucket⟩
        (.processing ⟨buildEncodingContext loaded workerId now, claims m.jobId + 1, false, false⟩
          .probing) [.granted m.jobId]
  /-- A heartbeat or an ownership check while the processor is running. -/
  | beaten {e e' : Execution} {progress : Progress} {action : WorkerAction} {now : Timestamp}
      (hcontext : e'.context = e.context) (hclaim : e'.claim = e.claim) :
      WorkerMove w claims workerId m (.processing e progress) action ⟨(beat w.db e now).1, w.bucket⟩
        (.processing e' progress) []
  /-- A heartbeat after the processor has raised. -/
  | beatenFailing {e e' : Execution} {error : String} {action : WorkerAction} {now : Timestamp}
      (hcontext : e'.context = e.context) (hclaim : e'.claim = e.claim) :
      WorkerMove w claims workerId m (.failing e error) action ⟨(beat w.db e now).1, w.bucket⟩
        (.failing e' error) []
  /-- The processor goes on. -/
  | processed {e : Execution} {progress : Progress} {action : WorkerAction} {bucket' : Bucket}
      {phase' : Phase} (h : processStep w.bucket e progress action = some (bucket', phase')) :
      WorkerMove w claims workerId m (.processing e progress) action ⟨w.db, bucket'⟩ phase' []
  /-- A marking call has settled the job. -/
  | concluded {phase : Phase} {action : WorkerAction} {e : Execution} {o : Outcome}
      {loaded : LoadedJob w.db} {publication : Option Publication} {db' : Db}
      {answer : WorkerMessageAction} (hc : Conclusion phase action e o)
      (hcommits : action.commits = true) (hid : loaded.jobId = e.context.jobId)
      (howns : ownsRunningJob loaded.job e.context.workerId = true)
      (hs : Settled loaded o publication db')
      (hpublication : publication = none → (o.job loaded.job).status.isActive = true) :
      WorkerMove w claims workerId m phase action
        ⟨db', (publication.getD .notReady).store w.bucket⟩ (.settling answer)
        [.concluded e.context.jobId e.claim]
  /-- A marking call would have settled the job, and its commit has failed. -/
  | rolledBack {phase : Phase} {action : WorkerAction} {e : Execution} {o : Outcome}
      {loaded : LoadedJob w.db} {publication : Option Publication} {db' : Db}
      (hc : Conclusion phase action e o)
      (howns : ownsRunningJob loaded.job e.context.workerId = true)
      (hs : Settled loaded o publication db') :
      WorkerMove w claims workerId m phase action
        ⟨w.db, (publication.getD .notReady).store w.bucket⟩ (.settling .requeue) []
  /-- A marking call has changed nothing, or has not been made. -/
  | unchanged {phase : Phase} {action : WorkerAction} {e : Execution}
      {answer : WorkerMessageAction} (he : phase.execution = some e) :
      WorkerMove w claims workerId m phase action w (.settling answer) []

section WorkerSteps

variable {w : World} {claims : UUID → ℕ} {workerId : String} {m : EncodingJobMessage}
  {r : WorkerStep}

/-- An exception that rejects the message says that there is no such job. -/
theorem claimEncodingJob_eq_error {db : Db} {jobId videoId renditionId : UUID}
    {checkedAt now : Timestamp} {error : Raised}
    (h : claimEncodingJob db jobId videoId renditionId workerId checkedAt now = .error error)
    (he : error.isEncodingJobError = true) (job : Job) (hj : db.jobs.get? jobId = some job) :
    ¬ (job.videoId = videoId ∧ job.renditionId = renditionId) := by
  rintro ⟨hv, hr⟩
  rw [claimEncodingJob] at h
  cases hl : getJobForUpdate db jobId with
  | error e =>
    rw [hl] at h
    obtain rfl : e = error := by simpa [bind, Except.bind] using h
    rw [getJobForUpdate] at hl
    split at hl
    · rename_i hnone
      rw [hnone] at hj
      cases hj
    split at hl
    · cases hl
      cases he
    split at hl
    · cases hl
      cases he
    · cases hl
  | ok loaded =>
    obtain rfl := getJobForUpdate_jobId hl
    obtain rfl : loaded.job = job := Option.some.inj (loaded.get?_job.symm.trans hj)
    rw [hl] at h
    have hm : validateJobMessage loaded.job videoId renditionId = .ok () := by
      rw [validateJobMessage, if_neg (by simp [hv, hr])]
    simp only [bind, Except.bind, hm, pure, Except.pure] at h
    split at h
    · cases h
    split at h <;> cases h

theorem workerMove_claim {checkedAt now : Timestamp}
    (h : workerStep w.db w.bucket claims workerId m .received (.claim checkedAt now) = some r) :
    WorkerMove w claims workerId m .received (.claim checkedAt now) ⟨r.db, r.bucket⟩ r.phase
      r.events := by
  simp only [workerStep] at h
  split at h
  · rename_i error herror
    obtain rfl := Option.some.inj h
    by_cases he : error.isEncodingJobError = true
    · simp only [if_pos he]
      exact WorkerMove.mismatched (claimEncodingJob_eq_error herror he)
    · simp only [if_neg he]
      exact WorkerMove.requeued
  · rename_i db' hok
    obtain rfl := Option.some.inj h
    obtain ⟨loaded, hid, ⟨hc, rfl, -⟩ | ⟨-, hs⟩ | ⟨hsome, -⟩⟩ := claimEncodingJob_eq_ok hok
    · refine WorkerMove.notClaimable fun job hj => ?_
      rw [← hid, loaded.get?_job, Option.some.injEq] at hj
      rw [← hj, hc]
    · exact WorkerMove.exhausted hid hs
    · cases hsome
  · rename_i db' context hok
    obtain rfl := Option.some.inj h
    obtain ⟨loaded, hid, ⟨-, -, hnone⟩ | ⟨hnone, -⟩ | ⟨hsome, hs⟩⟩ := claimEncodingJob_eq_ok hok
    · cases hnone
    · cases hnone
    · obtain rfl := Option.some.inj hsome
      have hjob : (buildEncodingContext loaded workerId now).jobId = m.jobId := hid
      simp only [hjob]
      exact WorkerMove.claimed hid hs

theorem workerMove_fail {e : Execution} {error : String} {settings : Settings} {newId : UUID}
    {now : Timestamp} {uploadOk commitOk : Bool}
    (h : workerStep w.db w.bucket claims workerId m (.failing e error)
      (.fail settings newId now uploadOk commitOk) = some r) :
    WorkerMove w claims workerId m (.failing e error) (.fail settings newId now uploadOk commitOk)
      ⟨r.db, r.bucket⟩ r.phase r.events := by
  simp only [workerStep] at h
  split at h
  · obtain rfl := Option.some.inj h
    exact WorkerMove.unchanged rfl
  rename_i marked hok
  obtain rfl := Option.some.inj h
  obtain ⟨loaded, hid, ⟨-, rfl⟩ | ⟨ho, hr, hp, nextRunAt, -, hs⟩ | ⟨ho, hr, hs⟩⟩ :=
    markEncodingJobFailed_eq_ok hok
  · cases commitOk with
    | true => exact WorkerMove.unchanged rfl
    | false => exact WorkerMove.unchanged rfl
  · cases commitOk with
    | true =>
      simp only [if_true, hr, hp, Option.isSome_some, concludedBy]
      exact WorkerMove.concluded Conclusion.retried rfl hid ho hs fun _ => rfl
    | false =>
      simp only [hp, Bool.false_eq_true, if_false]
      exact WorkerMove.rolledBack Conclusion.retried ho hs
  · cases commitOk with
    | true =>
      simp only [if_true, hr, Option.isSome_some, concludedBy]
      exact WorkerMove.concluded Conclusion.failed rfl hid ho hs nofun
    | false =>
      simp only [Bool.false_eq_true, if_false]
      exact WorkerMove.rolledBack Conclusion.failed ho hs

/-- What recording a result does: nothing, or settling the worker's own job. -/
theorem recordResult_eq_ok {db : Db} {e : Execution} {result : EncodingProcessorResult}
    {now : Timestamp} {uploadOk : Bool} (commitOk : Bool) {marked : Marked Bool}
    (h : recordResult db e result now uploadOk = .ok marked) :
    marked = Marked.unchanged db false ∨
      ∃ loaded : LoadedJob db, loaded.jobId = e.context.jobId ∧
        ownsRunningJob loaded.job e.context.workerId = true ∧ marked.result = true ∧ ∃ o,
          Conclusion (.concluding e result) (.conclude now uploadOk commitOk) e o ∧
            Settled loaded o (some marked.publication) marked.db := by
  rw [recordResult] at h
  split at h
  · rename_i reason hreason
    obtain ⟨loaded, hid, ⟨-, rfl⟩ | ⟨ho, hr, hs⟩⟩ := markEncodingJobSkipped_eq_ok h
    · exact Or.inl rfl
    · exact Or.inr ⟨loaded, hid, ho, hr, _, Conclusion.skipped hreason, hs⟩
  · rename_i hreason
    obtain ⟨loaded, hid, ⟨-, rfl⟩ | ⟨ho, hr, hs⟩⟩ := markEncodingJobSucceeded_eq_ok h
    · exact Or.inl rfl
    · exact Or.inr ⟨loaded, hid, ho, hr, _, Conclusion.done hreason, hs⟩

theorem workerMove_conclude {e : Execution} {result : EncodingProcessorResult} {now : Timestamp}
    {uploadOk commitOk : Bool}
    (h : workerStep w.db w.bucket claims workerId m (.concluding e result)
      (.conclude now uploadOk commitOk) = some r) :
    WorkerMove w claims workerId m (.concluding e result) (.conclude now uploadOk commitOk)
      ⟨r.db, r.bucket⟩ r.phase r.events := by
  simp only [workerStep] at h
  by_cases hlost : e.heartbeatLost = true
  · rw [if_pos hlost] at h
    obtain rfl := Option.some.inj h
    exact WorkerMove.unchanged rfl
  rw [if_neg hlost] at h
  split at h
  · obtain rfl := Option.some.inj h
    exact WorkerMove.unchanged rfl
  rename_i marked hok
  obtain rfl := Option.some.inj h
  obtain rfl | ⟨loaded, hid, ho, hr, o, hc, hs⟩ := recordResult_eq_ok commitOk hok
  · cases commitOk with
    | true => exact WorkerMove.unchanged rfl
    | false => exact WorkerMove.unchanged rfl
  · cases commitOk with
    | true =>
      simp only [if_true, hr, concludedBy]
      exact WorkerMove.concluded hc rfl hid ho hs nofun
    | false =>
      simp only [Bool.false_eq_true, if_false]
      exact WorkerMove.rolledBack hc ho hs

/-- **Every step of a worker is one of these.** -/
theorem workerStep_move {phase : Phase} {action : WorkerAction}
    (h : workerStep w.db w.bucket claims workerId m phase action = some r) :
    WorkerMove w claims workerId m phase action ⟨r.db, r.bucket⟩ r.phase r.events := by
  have hprocess : ∀ {e progress}, phase = .processing e progress →
      (processStep w.bucket e progress action).map
        (fun result => (⟨w.db, result.1, result.2, []⟩ : WorkerStep)) = some r →
      WorkerMove w claims workerId m phase action ⟨r.db, r.bucket⟩ r.phase r.events := by
    rintro e progress rfl h
    obtain ⟨⟨bucket', phase'⟩, hstep, rfl⟩ := Option.map_eq_some_iff.mp h
    exact WorkerMove.processed hstep
  cases phase with
  | received =>
    cases action with
    | claim checkedAt now => exact workerMove_claim h
    | unavailable =>
      obtain rfl := Option.some.inj h
      exact WorkerMove.requeued
    | _ => cases h
  | processing e progress =>
    cases action with
    | heartbeat now =>
      obtain rfl := Option.some.inj h
      exact WorkerMove.beaten rfl rfl
    | checkOwnership now =>
      obtain rfl := Option.some.inj h
      exact WorkerMove.beaten rfl rfl
    | _ => exact hprocess rfl h
  | failing e error =>
    cases action with
    | heartbeat now =>
      obtain rfl := Option.some.inj h
      exact WorkerMove.beatenFailing rfl rfl
    | fail settings newId now uploadOk commitOk => exact workerMove_fail h
    | unavailable =>
      obtain rfl := Option.some.inj h
      exact WorkerMove.unchanged rfl
    | _ => cases h
  | concluding e result =>
    cases action with
    | conclude now uploadOk commitOk => exact workerMove_conclude h
    | unavailable =>
      simp only [workerStep, Option.ite_none_left_eq_some, Option.some.injEq] at h
      obtain ⟨-, rfl⟩ := h
      exact WorkerMove.unchanged rfl
    | _ => cases h
  | settling action => cases h

end WorkerSteps

/-! ### Steps of the system -/

namespace System

/-- **What a step of the system can do**, the clock aside. -/
inductive Stepped (s : System) : Action → System → Prop
  | requested {op : Op} (hop : op.isUploadRequest = true) :
      Stepped s (.request op)
        { s with db := (op.exec s.world).1.db, bucket := (op.exec s.world).1.bucket }
  | delivered {worker : String} {index : ℕ} {m : EncodingJobMessage}
      (hw : s.workers worker = .idle) (hready : s.ready[index]? = some m) :
      Stepped s (.deliver worker index)
        { s with
          ready := s.ready.eraseIdx index
          workers := Function.update s.workers worker (.handling m .received true) }
  | worked {worker : String} {m : EncodingJobMessage} {phase phase' : Phase}
      {connected : Bool} {action : WorkerAction} {db' : Db} {bucket' : Bucket}
      {events : List Event} (hw : s.workers worker = .handling m phase connected)
      (h : WorkerMove s.world (claims s.history) worker m phase action ⟨db', bucket'⟩ phase'
        events) :
      Stepped s (.work worker action)
        { s with
          db := db'
          bucket := bucket'
          workers := Function.update s.workers worker (.handling m phase' connected)
          history := events ++ s.history }
  | settled {worker : String} {m : EncodingJobMessage} {action : WorkerMessageAction}
      {connected : Bool} (hw : s.workers worker = .handling m (.settling action) connected) :
      Stepped s (.settle worker)
        { s with
          ready := (Worker.handling m (.settling action) connected).released ++ s.ready
          workers := Function.update s.workers worker (if connected then .idle else .stopped) }
  | disconnected {worker : String} {m : EncodingJobMessage} {phase : Phase}
      (hw : s.workers worker = .handling m phase true) :
      Stepped s (.disconnect worker)
        { s with
          ready := m :: s.ready
          workers := Function.update s.workers worker (.handling m phase false) }
  | crashed {worker : String} :
      Stepped s (.crash worker)
        { s with
          ready := (s.workers worker).held ++ s.ready
          workers := Function.update s.workers worker .stopped }
  | opened {now : Timestamp} {choice : OutboxChoice} {rows : List (UUID × OutboxMessage)}
      (hrows : publishableMessages s.db now choice
        (fun messageId => s.passes.any fun pass => pass.selects messageId) = rows) :
      Stepped s (.openPass now choice) { s with passes := ⟨s.db, rows, []⟩ :: s.passes }
  | unopened {now : Timestamp} {choice : OutboxChoice} : Stepped s (.openPass now choice) s
  | published {index : ℕ} {answer : Except String Timestamp} {accepted : Bool} {pass : Pass}
      {row : UUID × OutboxMessage} (hpass : s.passes[index]? = some pass)
      (hrow : pass.rows[pass.answers.length]? = some row)
      (haccepted : answer.isOk = true → accepted = true) :
      Stepped s (.publish index answer accepted)
        { s with
          ready := (if accepted then [row.2.toEncodingJobMessage] else []) ++ s.ready
          passes := s.passes.set index { pass with answers := pass.answers ++ [answer] } }
  | committed {index : ℕ} {openError closeError : Option String} {pass : Pass}
      (hpass : s.passes[index]? = some pass) (hcomplete : pass.isComplete openError = true) :
      Stepped s (.commitPass index openError closeError)
        { s with
          db := pass.commit openError closeError s.db
          passes := s.passes.eraseIdx index }
  | abandoned {index : ℕ} :
      Stepped s (.abandonPass index) { s with passes := s.passes.eraseIdx index }
  | reaped {settings : Settings} {staleBefore now : Timestamp} {limit count : ℕ}
      {locked : UUID → Bool} {newId : UUID → UUID} {db' : Db}
      (h : reapStaleEncodingJobs settings s.db staleBefore limit locked newId now =
        .ok (db', count)) :
      Stepped s (.reap settings staleBefore limit locked newId now)
        { s with
          db := db'
          history := (staleJobs s.db staleBefore limit locked).map Event.reaped ++ s.history }
  | unreaped {settings : Settings} {staleBefore now : Timestamp} {limit : ℕ}
      {locked : UUID → Bool} {newId : UUID → UUID} :
      Stepped s (.reap settings staleBefore limit locked newId now) s

/-- **Every step of the system is one of these**, with the clock set. -/
theorem step_cases {s s' : System} {a : Action} (h : s.step a = some s') :
    ∃ t, Stepped s a t ∧ s' = { t with clock := a.readings.getLastD s.clock } := by
  obtain ⟨t, ht, rfl⟩ := Option.map_eq_some_iff.mp h
  refine ⟨t, ?_, rfl⟩
  cases a with
  | request op =>
    simp only [act] at ht
    split at ht
    · rename_i hop
      obtain rfl := Option.some.inj ht
      exact Stepped.requested hop
    · cases ht
  | deliver worker index =>
    simp only [act] at ht
    split at ht
    · rename_i m hw hready
      obtain rfl := Option.some.inj ht
      exact Stepped.delivered hw hready
    · cases ht
  | work worker action =>
    simp only [act] at ht
    split at ht
    · rename_i m phase connected hw
      obtain ⟨r, hr, rfl⟩ := Option.map_eq_some_iff.mp ht
      exact Stepped.worked hw (workerStep_move (w := s.world) hr)
    · cases ht
  | settle worker =>
    simp only [act] at ht
    split at ht
    · rename_i m action connected hw
      obtain rfl := Option.some.inj ht
      exact Stepped.settled hw
    · cases ht
  | disconnect worker =>
    simp only [act] at ht
    split at ht
    · rename_i m phase hw
      obtain rfl := Option.some.inj ht
      exact Stepped.disconnected hw
    · cases ht
  | crash worker =>
    obtain rfl := Option.some.inj ht
    exact Stepped.crashed
  | openPass now choice =>
    simp only [act] at ht
    split at ht
    · obtain rfl := Option.some.inj ht
      exact Stepped.unopened
    · obtain rfl := Option.some.inj ht
      exact Stepped.opened rfl
  | publish index answer accepted =>
    simp only [act] at ht
    split at ht
    · cases ht
    rename_i pass hpass
    split at ht
    · cases ht
    rename_i row hrow
    split at ht
    · cases ht
    rename_i hcond
    obtain rfl := Option.some.inj ht
    refine Stepped.published hpass hrow fun hok => ?_
    simpa [hok] using hcond
  | commitPass index openError closeError =>
    simp only [act] at ht
    split at ht
    · cases ht
    rename_i pass hpass
    split at ht
    · rename_i hcomplete
      obtain rfl := Option.some.inj ht
      exact Stepped.committed hpass hcomplete
    · cases ht
  | abandonPass index =>
    obtain rfl := Option.some.inj ht
    exact Stepped.abandoned
  | reap settings staleBefore limit locked newId now =>
    simp only [act] at ht
    split at ht
    · obtain rfl := Option.some.inj ht
      exact Stepped.unreaped
    · rename_i db' count hreap
      obtain rfl := Option.some.inj ht
      exact Stepped.reaped hreap

/-- **A step of a worker**, as the worker takes it. -/
theorem step_work {s s' : System} {worker : String} {action : WorkerAction}
    (h : s.step (.work worker action) = some s') :
    ∃ m phase connected r, s.workers worker = .handling m phase connected ∧
      workerStep s.db s.bucket (claims s.history) worker m phase action = some r ∧ s'.db = r.db ∧
      s'.workers = Function.update s.workers worker (.handling m r.phase connected) := by
  obtain ⟨t, ht, rfl⟩ := Option.map_eq_some_iff.mp h
  simp only [act] at ht
  split at ht
  · rename_i m phase connected hw
    obtain ⟨r, hr, rfl⟩ := Option.map_eq_some_iff.mp ht
    exact ⟨m, phase, connected, r, hw, hr, rfl, rfl⟩
  · cases ht

/-- **What a step does to a worker.** -/
inductive WorkerStepped (s : System) (a : Action) (t : System) (worker : String) : Worker → Prop
  /-- It is not its step. -/
  | same : WorkerStepped s a t worker (s.workers worker)
  /-- It is given a message. -/
  | received (m : EncodingJobMessage) : WorkerStepped s a t worker (.handling m .received true)
  /-- It goes on with its message. -/
  | moved {m : EncodingJobMessage} {phase phase' : Phase} {connected : Bool}
      {action : WorkerAction} {events : List Event} (ha : a = .work worker action)
      (hw : s.workers worker = .handling m phase connected)
      (h : WorkerMove s.world (claims s.history) worker m phase action ⟨t.db, t.bucket⟩ phase'
        events) : WorkerStepped s a t worker (.handling m phase' connected)
  /-- It loses its connection. -/
  | disconnected {m : EncodingJobMessage} {phase : Phase}
      (hw : s.workers worker = .handling m phase true) :
      WorkerStepped s a t worker (.handling m phase false)
  /-- It is done with its message, or dies. -/
  | free {v : Worker} (hv : v = .idle ∨ v = .stopped) : WorkerStepped s a t worker v

/-- **Every worker steps in one of these ways.** -/
theorem Stepped.worker {s t : System} {a : Action} (h : Stepped s a t) (worker : String) :
    WorkerStepped s a t worker (t.workers worker) := by
  have hupdate : ∀ {w : String} {v : Worker},
      (w = worker → WorkerStepped s a t worker v) →
      WorkerStepped s a t worker (Function.update s.workers w v worker) := by
    intro w v hv
    by_cases hw : worker = w
    · subst hw
      rw [Function.update_self]
      exact hv rfl
    · rw [Function.update_of_ne hw]
      exact .same
  cases h with
  | delivered hw hready => exact hupdate fun _ => .received _
  | worked hw hmove =>
    refine hupdate ?_
    rintro rfl
    exact .moved rfl hw hmove
  | @settled w m action connected hw =>
    refine hupdate fun _ => .free ?_
    cases connected with
    | true => exact Or.inl rfl
    | false => exact Or.inr rfl
  | disconnected hw =>
    refine hupdate ?_
    rintro rfl
    exact .disconnected hw
  | crashed => exact hupdate fun _ => .free (Or.inr rfl)
  | _ => exact .same

end System

/-! ### Steps as chains of moves -/

/-- A beat is a heartbeat, or nothing. -/
theorem beat_chain (w : World) (e : Execution) (now : Timestamp) (scope : Scope) :
    Chain (Move scope) w [] ⟨(beat w.db e now).1, w.bucket⟩ := by
  rw [beat]
  split
  · exact Chain.nil _
  · rename_i hok
    exact heartbeat_chain hok scope

/-- **A step of a worker changes the database by moves.** -/
theorem WorkerMove.chain {w w' : World} {claims : UUID → ℕ} {workerId : String}
    {m : EncodingJobMessage} {phase phase' : Phase} {action : WorkerAction} {events : List Event}
    (h : WorkerMove w claims workerId m phase action w' phase' events) :
    ∃ es bucket, Chain (Move Scope.all) w es ⟨w'.db, bucket⟩ := by
  cases h with
  | exhausted hid hs => exact ⟨_, _, Chain.single (Move.settled trivial hs)⟩
  | claimed hid hs => exact ⟨_, _, Chain.single (Move.settled trivial hs)⟩
  | beaten hcontext hclaim => exact ⟨_, _, beat_chain _ _ _ _⟩
  | beatenFailing hcontext hclaim => exact ⟨_, _, beat_chain _ _ _ _⟩
  | concluded hc hcommits hid howns hs hpublication =>
    exact ⟨_, _, Chain.single (Move.settled trivial hs)⟩
  | _ => exact ⟨[], w.bucket, Chain.nil _⟩

/-- **A step of the system changes the database by moves.** -/
theorem System.Stepped.chain {s t : System} {a : Action} (h : System.Stepped s a t)
    (hl : s.db.Linked) : ∃ es bucket, Chain (Move Scope.all) s.world es ⟨t.db, bucket⟩ := by
  cases h with
  | @requested op hop =>
    obtain ⟨es, hes, -⟩ := op.exec_chain (w := s.world) hl
    exact ⟨es, _, hes.mono fun _ _ _ hm => hm.toAll⟩
  | worked hw hmove => exact hmove.chain
  | @committed index openError closeError pass hpass hcomplete =>
    rw [Pass.commit_eq]
    exact ⟨[], _, Chain.single (Move.outbox (w := s.world) trivial
      (Pass.view_commit openError closeError s.db))⟩
  | reaped hreap =>
    obtain ⟨es, hes, -, -⟩ := reap_chain (w := s.world) hreap
    exact ⟨es, _, hes.mono fun _ _ _ hm => hm.move.toAll⟩
  | _ => exact ⟨[], s.bucket, Chain.nil _⟩

/-- The references hold after a step. -/
theorem System.Stepped.linked {s t : System} {a : Action} (h : System.Stepped s a t)
    (hl : s.db.Linked) : t.db.Linked := by
  obtain ⟨es, bucket, hes⟩ := h.chain hl
  exact hes.keep (I := fun w => w.db.Linked) (fun _ _ _ hw hm => hm.linked hw) hl

/-- **The step rule for the database**: what every move keeps, a step of the system keeps. -/
theorem System.Stepped.keep_db {I : Db → Prop} {s t : System} {a : Action}
    (h : System.Stepped s a t) (hl : s.db.Linked)
    (hmove : ∀ w e w', w.db.Linked → I w.db → Move Scope.all w e w' → I w'.db) (hi : I s.db) :
    I t.db := by
  obtain ⟨es, bucket, hes⟩ := h.chain hl
  have hkeep := hes.keep (I := fun w => w.db.Linked ∧ I w.db)
    (fun w e w' hw hm => ⟨hm.linked hw.1, hmove w e w' hw.1 hw.2 hm⟩) ⟨hl, hi⟩
  exact hkeep.2

namespace ReachableSystem

variable {guard : System → Action → Prop} {s : System}

/-- The references hold in every state of the system. -/
theorem linked (h : ReachableSystem guard s) : s.db.Linked := by
  refine h.invariant (I := fun s => s.db.Linked) ?_ ?_
  · rintro _ rfl
    exact Db.Linked.empty
  · rintro s a _ hl - hstep
    obtain ⟨t, ht, rfl⟩ := System.step_cases hstep
    exact ht.linked hl

/-- **The invariant rule for the database**: what every move keeps holds in every
state of the system. -/
theorem invariant_db {I : Db → Prop} (hstart : I Db.empty)
    (hmove : ∀ w e w', w.db.Linked → I w.db → Move Scope.all w e w' → I w'.db)
    (h : ReachableSystem guard s) : I s.db := by
  refine Reaches.invariant_of (J := fun s => s.db.Linked) (I := fun s => I s.db)
    (fun s hs => ReachableSystem.linked hs) ?_ ?_ h
  · rintro _ rfl
    exact hstart
  · rintro s a _ hl hi - hstep
    obtain ⟨t, ht, rfl⟩ := System.step_cases hstep
    exact ht.keep_db hl hmove hi

end ReachableSystem

end RenditionPipeline
