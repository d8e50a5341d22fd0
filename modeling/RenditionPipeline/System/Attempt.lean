import RenditionPipeline.Runs.Polling
import RenditionPipeline.System.Delivery
import RenditionPipeline.System.Forgotten
import RenditionPipeline.System.Loops
import RenditionPipeline.System.Playback

/-!
# An attempt that goes through

A worker has received the message of a pending job that is due. If nothing goes wrong from
then on – the source is large enough, the encoder writes a segment, the uploads and the
transaction return – the job is over when the message is settled, and the rest of the system
is as it was (`RenditionPipeline.exists_attempt`). A job without an attempt left is over with
its claim.

That the transaction of the success returns takes more than its upload: the output paths of
all renditions that are done have to lie below the prefix of their video, which they do in
every state that is reached (`RenditionPipeline.publishesAfterSuccess`).
-/

namespace RenditionPipeline

/-- A source that every preset is applicable to. -/
def largeSource : VideoSourceMetadata := ⟨1920, 1080, none, none⟩

theorem isHlsPresetApplicable_largeSource : ∀ p ∈ defaultHlsRenditions,
    isHlsPresetApplicable p largeSource defaultBitrateHeadroom = true := by decide

/-- The output of a short encode. -/
def shortOutput : HlsOutput := ⟨[⟨"0.ts", none⟩], some "segments/0.ts"⟩

theorem shortOutput_listsItsSegments : shortOutput.ListsItsSegments := by decide

/-- The resolution of a rendition is that of a preset. -/
theorem Db.Linked.exists_preset {db : Db} (hl : db.Linked) {rid : UUID} {r : Rendition}
    (hr : db.renditions.get? rid = some r) :
    ∃ p ∈ defaultHlsRenditions, p.resolution = r.resolution := by
  have hmem : (rid, r) ∈ db.renditionsOf r.videoId := Db.mem_renditionsOf.mpr ⟨hr, rfl⟩
  have hentry : r.entry ∈ (db.renditionsOf r.videoId).map fun p => p.2.entry :=
    List.mem_map.mpr ⟨_, hmem, rfl⟩
  rw [(hl.fannedOut (List.ne_nil_of_mem hmem)).ladder] at hentry
  obtain ⟨p, hp, he⟩ := List.mem_map.mp hentry
  exact ⟨p, hp, congrArg Prod.fst he⟩

/-- The resolutions of the ladder are key parts. -/
theorem isKeyPart_resolution : ∀ p ∈ defaultHlsRenditions, IsKeyPart p.resolution := by decide

/-! ### A worker goes on -/

/-- **A worker has come to a point**, and the broker, the passes and the other workers are as
they were. -/
structure WorkedTo (s : System) (worker : String) (v : Worker) (t : System) : Prop where
  ready : t.ready = s.ready
  passes : t.passes = s.passes
  workers : t.workers = Function.update s.workers worker v

section Working

variable {l : Loops} {s t : System} {worker : String} {m : EncodingJobMessage}
  {connected : Bool}

theorem WorkedTo.workers_self {v : Worker} (h : WorkedTo s worker v t) : t.workers worker = v := by
  rw [h.workers, Function.update_self]

theorem WorkedTo.refl {v : Worker} (hw : s.workers worker = v) : WorkedTo s worker v s :=
  ⟨rfl, rfl, by rw [← hw, Function.update_eq_self]⟩

/-- The worker takes one more step. -/
theorem WorkedTo.work {phase : Phase} (h : WorkedTo s worker (.handling m phase connected) t)
    (action : WorkerAction) (r : WorkerStep)
    (hstep : workerStep t.db t.bucket (claims t.history) worker m phase action = some r)
    (hclock : ClockForward t (.work worker action))
    (hlists : EncoderListsSegments t (.work worker action))
    (htakes : l.Takes t (.work worker action)) :
    ∃ u, Leads System.step (Serviced l) t u ∧
      WorkedTo s worker (.handling m r.phase connected) u ∧ u.db = r.db := by
  let u : System := { t with
    db := r.db
    bucket := r.bucket
    workers := Function.update t.workers worker (.handling m r.phase connected)
    history := r.events ++ t.history
    clock := (Action.work worker action).readings.getLastD t.clock }
  refine ⟨u, Leads.single (Serviced.of_forward hclock rfl hlists htakes) ?_,
    ⟨h.ready, h.passes, ?_⟩, rfl⟩
  · simp only [System.step, System.act, h.workers_self, hstep, Option.map_some]
    rfl
  · show Function.update t.workers worker _ = _
    rw [h.workers, Function.update_idem]

/-- A step of the worker that does not read the clock. -/
theorem WorkedTo.work_now {phase : Phase} (h : WorkedTo s worker (.handling m phase connected) t)
    (action : WorkerAction) (r : WorkerStep)
    (hstep : workerStep t.db t.bucket (claims t.history) worker m phase action = some r)
    (hread : action.readings = []) (hlists : EncoderListsSegments t (.work worker action))
    (htakes : l.Takes t (.work worker action)) :
    ∃ u, Leads System.step (Serviced l) t u ∧
      WorkedTo s worker (.handling m r.phase connected) u ∧ u.db = r.db :=
  h.work action r hstep (by simp [ClockForward, Action.readings, hread]) hlists htakes

/-- **The encode goes through**, up to the upload of the playlist. -/
theorem WorkedTo.encode {e : Execution}
    (h : WorkedTo s worker (.handling m (.processing e .probing) connected) t)
    {p : EncodingPreset} (hp : p ∈ defaultHlsRenditions)
    (hres : p.resolution = e.context.resolution) :
    ∃ u key, Leads System.step (Serviced l) t u ∧
      buildHlsPlaylistKey e.context.videoId e.context.resolution = .ok key ∧
      WorkedTo s worker
        (.handling m (.concluding e ⟨some key, some largeSource, none⟩) connected) u ∧
      u.db = t.db := by
  have hpart : IsKeyPart e.context.resolution := hres ▸ isKeyPart_resolution p hp
  obtain ⟨segmentKey, hsegment⟩ : ∃ key,
      buildHlsSegmentKey e.context.videoId e.context.resolution "0.ts" = .ok key :=
    ⟨_, buildHlsSegmentKey_eq_ok_iff.mpr ⟨hpart, by decide, rfl⟩⟩
  obtain ⟨key, hkey⟩ : ∃ key,
      buildHlsPlaylistKey e.context.videoId e.context.resolution = .ok key :=
    ⟨_, buildHlsPlaylistKey_eq_ok_iff.mpr ⟨hpart, rfl⟩⟩
  have happlicable : isHlsPresetApplicable (getHlsPreset e.context.resolution) largeSource
      defaultBitrateHeadroom = true := by
    rw [← hres, getHlsPreset_resolution p hp]
    exact isHlsPresetApplicable_largeSource p hp
  obtain ⟨t₁, h₁, hw₁, hdb₁⟩ := h.work_now (l := l) (.probed largeSource)
    ⟨t.db, t.bucket, .processing e (.encoding largeSource), []⟩
    (by simp only [workerStep, processStep, if_pos happlicable, Option.map_some])
    rfl trivial trivial
  obtain ⟨t₂, h₂, hw₂, hdb₂⟩ := hw₁.work_now (l := l) (.encoded shortOutput)
    ⟨t₁.db, t₁.bucket, .processing e
      (.uploading largeSource shortOutput shortOutput.segments), []⟩
    rfl rfl shortOutput_listsItsSegments trivial
  obtain ⟨t₃, h₃, hw₃, hdb₃⟩ := hw₂.work_now (l := l) .upload
    ⟨t₂.db, t₂.bucket.put segmentKey (Segment.object ⟨"0.ts", none⟩), .processing e
      (.uploading largeSource shortOutput []), []⟩
    (by simp only [workerStep, processStep, shortOutput, hsegment, Option.map_some])
    rfl trivial trivial
  obtain ⟨t₄, h₄, hw₄, hdb₄⟩ := hw₃.work_now (l := l) .upload
    ⟨t₃.db, t₃.bucket.put key shortOutput.playlistObject, .concluding e
      ⟨some key, some largeSource, none⟩, []⟩
    (by simp only [workerStep, processStep, hkey, Option.map_some]) rfl trivial trivial
  exact ⟨t₄, key, ((h₁.trans h₂).trans h₃).trans h₄, hkey, hw₄,
    hdb₄.trans (hdb₃.trans (hdb₂.trans hdb₁))⟩

end Working

/-! ### The transaction of the success -/

/-- A playlist key lies below the prefix of its video. -/
theorem startsWith_playlistKey {videoId : UUID} {resolution key : String}
    (h : buildHlsPlaylistKey videoId resolution = .ok key) :
    Text.startsWith key ("hls/" ++ videoId.str ++ "/") = true := by
  obtain ⟨-, rfl⟩ := buildHlsPlaylistKey_eq_ok_iff.mp h
  rw [playlistKey_cut]
  exact Text.startsWith_append _ _

/-- **A success does not fail on the master playlist**: every rendition that is done has the
key of its playlist. -/
theorem publishesAfterSuccess {db : Db} {videoId renditionId : UUID} {resolution key : String}
    (hpaths : ∀ rid r, db.renditions.get? rid = some r → r.status = .done →
      ∃ key, buildHlsPlaylistKey r.videoId r.resolution = .ok key ∧ r.outputPath = some key)
    (hkey : buildHlsPlaylistKey videoId resolution = .ok key) :
    PublishesAfterSuccess db videoId renditionId (some key) true := by
  refine Or.inr (Or.inr ⟨rfl, fun path hpath => ?_⟩)
  obtain ⟨⟨rid, r⟩, hmem, hcond⟩ := List.mem_filterMap.mp hpath
  obtain ⟨hr, rfl⟩ := Db.mem_renditionsOf.mp hmem
  split at hcond
  · obtain rfl : key = path := Option.some.inj hcond
    exact startsWith_playlistKey hkey
  · split at hcond
    · rename_i hdone
      obtain ⟨key', hkey', hout⟩ := hpaths rid r hr hdone
      rw [hout, Option.some.injEq] at hcond
      exact hcond ▸ startsWith_playlistKey hkey'
    · cases hcond

/-- **A job is over, and nothing else has changed**: neither the other jobs, nor the outbox,
nor the passes, nor the messages of other jobs. -/
structure BroughtToEnd (s : System) (jobId : UUID) (t : System) : Prop where
  ended : ∃ job, t.db.jobs.get? jobId = some job ∧ job.status.isActive = false
  others : ∀ jid, jid ≠ jobId → t.db.jobs.get? jid = s.db.jobs.get? jid
  messages : ∀ mid, t.db.outboxMessages.get? mid = s.db.outboxMessages.get? mid
  passes : t.passes = s.passes
  kept : ∀ m : EncodingJobMessage, m.jobId ≠ jobId → s.HasMessage m → t.HasMessage m

section Attempts

variable {l : Loops} {s : System} {worker : String} {m : EncodingJobMessage} {connected : Bool}

/-- The message is settled, and the worker is done with it. -/
theorem WorkedTo.settle {t : System}
    (h : WorkedTo s worker (.handling m (.settling .ack) connected) t) :
    ∃ u, Leads System.step (Serviced l) t u ∧
      WorkedTo s worker (if connected then .idle else .stopped) u ∧ u.db = t.db := by
  let u : System := { t with
    workers := Function.update t.workers worker (if connected then .idle else .stopped) }
  refine ⟨u, Leads.single (a := .settle worker) ?_ ?_, ⟨h.ready, h.passes, ?_⟩, rfl⟩
  · exact Serviced.of_forward (by simp [ClockForward, Action.readings]) rfl trivial trivial
  · simp only [System.step, System.act, h.workers_self]
    cases connected <;> rfl
  · show Function.update t.workers worker _ = _
    rw [h.workers, Function.update_idem]

/-- The messages of other jobs are left when the worker is done. -/
theorem WorkedTo.kept {t : System}
    (h : WorkedTo s worker (if connected then .idle else .stopped) t)
    (hw : s.workers worker = .handling m .received connected) {m' : EncodingJobMessage}
    (hne : m'.jobId ≠ m.jobId) (hm' : s.HasMessage m') : t.HasMessage m' := by
  rcases hm' with hm' | ⟨w, hm'⟩
  · exact Or.inl (by rw [h.ready]; exact hm')
  · refine Or.inr ⟨w, ?_⟩
    rw [h.workers]
    by_cases hw' : w = worker
    · subst hw'
      rw [hw, Worker.heeded_received] at hm'
      exact absurd (congrArg EncodingJobMessage.jobId (List.mem_singleton.mp hm')) hne
    · rw [Function.update_of_ne hw']
      exact hm'

/-- An outcome that is no retry leaves the outbox. -/
theorem Settled.messages_eq {db db' : Db} {loaded : LoadedJob db} {o : Outcome}
    {publication : Option Publication} (h : Settled loaded o publication db') (hl : db.Linked)
    (ho : o.isRetry = false) (mid : UUID) :
    db'.outboxMessages.get? mid = db.outboxMessages.get? mid := by
  rw [h.get?_outboxMessage hl]
  cases db.outboxMessages.get? mid with
  | none => rfl
  | some m => simp [Outcome.message, ho]

/-- **The claim of a pending job that is due** takes one of its attempts, or fails it. -/
theorem exists_claim {db : Db} (hl : db.Linked) {job : Job} (hj : db.jobs.get? m.jobId = some job)
    (hmatch : m.Matches job) (hp : job.status = .pending) {now : Timestamp} (hdue : job.IsDue now)
    (workerId : String) :
    ∃ db' context, claimEncodingJob db m.jobId m.videoId m.renditionId workerId now now =
        .ok (db', context) ∧
      ∃ loaded : LoadedJob db, loaded.jobId = m.jobId ∧ loaded.job = job ∧
        ((context = none ∧ Settled loaded (.exhausted now) none db') ∨
          (context = some (buildEncodingContext loaded workerId now) ∧
            Settled loaded (.running workerId now) none db')) := by
  obtain ⟨loaded, hload, hid, rfl⟩ := hl.exists_loaded hj
  obtain ⟨db', context, hclaim⟩ : ∃ db' context,
      claimEncodingJob db m.jobId m.videoId m.renditionId workerId now now =
        .ok (db', context) := by
    rw [claimEncodingJob_of_loaded hload, validateJobMessage_eq_ok_iff.mpr hmatch]
    simp only [Except.bind]
    split_ifs <;> exact ⟨_, _, rfl⟩
  refine ⟨db', context, hclaim, ?_⟩
  obtain ⟨loaded', hid', ⟨hno, -, -⟩ | ⟨hnone, hs⟩ | ⟨hsome, hs⟩⟩ := claimEncodingJob_eq_ok hclaim
  all_goals
    have hsame : loaded'.job = loaded.job :=
      Option.some.inj ((hid' ▸ loaded'.get?_job).symm.trans hj)
  · rw [hsame, isClaimable_iff.mpr ⟨hp, hdue⟩] at hno
    cases hno
  · exact ⟨loaded', hid', hsame, Or.inl ⟨hnone, hs⟩⟩
  · exact ⟨loaded', hid', hsame, Or.inr ⟨hsome, hs⟩⟩

/-- **The transaction of a success returns**, when the job runs for the worker. -/
theorem exists_recordResult {u : System} (hu : ReachableSystem Timely u) {e : Execution}
    {key : String} (hkey : buildHlsPlaylistKey e.context.videoId e.context.resolution = .ok key)
    {job : Job} (hj : u.db.jobs.get? e.context.jobId = some job)
    (howns : ownsRunningJob job e.context.workerId = true)
    (hvideo : job.videoId = e.context.videoId) (now : Timestamp) :
    ∃ marked, recordResult u.db e ⟨some key, some largeSource, none⟩ now true = .ok marked ∧
      ∃ loaded : LoadedJob u.db, loaded.jobId = e.context.jobId ∧
        Settled loaded (.done (some key) now) (some marked.publication) marked.db := by
  have hstocked := ReachableSystem.stocked (hu.mono (fun _ _ h => h.2) fun _ h => h)
  have hok : (markEncodingJobSucceeded u.db e.context.jobId e.context.workerId (some key)
      (some largeSource) now true).isOk = true := by
    have hl := ReachableSystem.linked hu
    refine (isOk_markEncodingJobSucceeded_iff hl hj howns _ now true).mpr ?_
    rw [hvideo]
    exact publishesAfterSuccess hstocked.served.published.outputPath hkey
  cases hmarked : markEncodingJobSucceeded u.db e.context.jobId e.context.workerId (some key)
      (some largeSource) now true with
  | error error =>
    rw [hmarked] at hok
    cases hok
  | ok marked =>
    refine ⟨marked, hmarked, ?_⟩
    obtain ⟨loaded, hid, ⟨hno, -⟩ | ⟨-, -, hs⟩⟩ := markEncodingJobSucceeded_eq_ok hmarked
    · have hget := loaded.get?_job
      rw [hid, hj, Option.some.injEq] at hget
      rw [← hget, howns] at hno
      cases hno
    · exact ⟨loaded, hid, hs⟩

/-- **An attempt that goes through**: from the delivery of its message, a pending job that is
due can be brought to its end, and nothing else changes. -/
theorem exists_attempt (l : Loops) (hs : ReachableSystem Timely s)
    (hw : s.workers worker = .handling m .received connected) {job : Job}
    (hj : s.db.jobs.get? m.jobId = some job) (hmatch : m.Matches job) (hp : job.status = .pending)
    {now : Timestamp} (hnow : s.clock ≤ now) (hdue : job.IsDue now) :
    ∃ t, Leads System.step (Serviced l) s t ∧ BroughtToEnd s m.jobId t := by
  have hl := ReachableSystem.linked hs
  have hforward : ∀ {t : System}, t.clock ≤ now → ClockForward t (.work worker (.claim now now)) :=
    fun h => by simpa [ClockForward, Action.readings, WorkerAction.readings]
  obtain ⟨db', context, hclaim, loaded, hid, rfl, ⟨rfl, hset⟩ | ⟨rfl, hset⟩⟩ :=
    exists_claim hl hj hmatch hp hdue worker
  · -- no attempt is left
    obtain ⟨t₁, h₁, hw₁, hdb₁⟩ := (WorkedTo.refl hw).work (l := l) (.claim now now)
      ⟨db', s.bucket, .settling .ack, []⟩ (by simp only [workerStep, hclaim])
      (hforward hnow) trivial trivial
    obtain ⟨t₂, h₂, hw₂, hdb₂⟩ := hw₁.settle (l := l)
    refine ⟨t₂, h₁.trans h₂, ⟨(Outcome.exhausted now).job loaded.job, ?_, rfl⟩,
      fun jid hne => ?_, fun mid => ?_, hw₂.passes, fun m' hne hm' => hw₂.kept hw hne hm'⟩
    · rw [hdb₂, hdb₁, ← hid]
      exact hset.get?_job_self
    · rw [hdb₂, hdb₁]
      exact hset.get?_job_of_ne (hid ▸ hne)
    · rw [hdb₂, hdb₁]
      exact hset.messages_eq hl rfl mid
  · let e : Execution := ⟨buildEncodingContext loaded worker now,
      claims s.history loaded.jobId + 1, false, false⟩
    obtain ⟨t₁, h₁, hw₁, hdb₁⟩ := (WorkedTo.refl hw).work (l := l) (.claim now now)
      ⟨db', s.bucket, .processing e .probing, [.granted loaded.jobId]⟩
      (by simp only [workerStep, hclaim]; rfl) (hforward hnow) trivial trivial
    obtain ⟨p, hpreset, hres⟩ := hl.exists_preset loaded.get?_rendition
    obtain ⟨t₂, key, h₂, hkey, hw₂, hdb₂⟩ := hw₁.encode (l := l) hpreset hres
    have hreach₂ : ReachableSystem Timely t₂ := Leads.reaches (h₁.trans h₂) Serviced.timely hs
    have hjob₂ : t₂.db.jobs.get? loaded.jobId = some (runningJob worker now loaded.job) := by
      rw [hdb₂, hdb₁]
      exact hset.get?_job_self
    have howns : ownsRunningJob (runningJob worker now loaded.job) worker = true := by
      simp [ownsRunningJob, runningJob]
    obtain ⟨marked, hmarked, loaded₂, hid₂, hset₂⟩ :=
      exists_recordResult (e := e) hreach₂ hkey hjob₂ howns rfl t₂.clock
    obtain ⟨t₃, h₃, hw₃, hdb₃⟩ := hw₂.work (l := l) (.conclude t₂.clock true true)
      ⟨marked.db, marked.publication.store t₂.bucket, .settling .ack,
        concludedBy e marked.result⟩
      (by simp only [workerStep, hmarked]; rfl)
      (by simp [ClockForward, Action.readings, WorkerAction.readings]) trivial trivial
    obtain ⟨t₄, h₄, hw₄, hdb₄⟩ := hw₃.settle (l := l)
    have hid₂ : loaded₂.jobId = loaded.jobId := hid₂
    refine ⟨t₄, ((h₁.trans h₂).trans h₃).trans h₄,
      ⟨(Outcome.done (some key) t₂.clock).job loaded₂.job, ?_, rfl⟩,
      fun jid hne => ?_, fun mid => ?_, hw₄.passes, fun m' hne hm' => hw₄.kept hw hne hm'⟩
    · rw [hdb₄, hdb₃, ← hid, ← hid₂]
      exact hset₂.get?_job_self
    · rw [hdb₄, hdb₃, hset₂.get?_job_of_ne (by rw [hid₂, hid]; exact hne), hdb₂, hdb₁]
      exact hset.get?_job_of_ne (hid ▸ hne)
    · rw [hdb₄, hdb₃, hset₂.messages_eq (ReachableSystem.linked hreach₂) rfl, hdb₂, hdb₁]
      exact hset.messages_eq hl rfl mid

end Attempts

end RenditionPipeline
