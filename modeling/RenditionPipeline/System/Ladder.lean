import RenditionPipeline.System.Playback

/-!
# The ladder of a source

Every job of a video probes the source for itself and decides by what it finds
whether its rendition is encoded or skipped. As long as all of them find the same,
the renditions that are encoded are the lower part of the ladder, from the largest
that the source is large enough for down to the fallback: what a rendition comes to
is decided by the source (`RenditionPipeline.Judged`), so a video none of whose
renditions has failed is done once its work is over, and never failed for having
every rendition skipped (`RenditionPipeline.ladder_complete`).
-/

namespace RenditionPipeline

/-! ### Results -/

/-- The outcomes that record the result of a processor. -/
def Outcome.isResult : Outcome → Bool
  | .done _ _ => true
  | .skipped _ _ => true
  | _ => false

/-- The scope of everything but recording a result. -/
def Scope.withoutResults : Scope := ⟨fun _ _ o _ => o.isResult = false, fun _ => True, True⟩

theorem Scope.settles_withoutResults {db : Db} {loaded : LoadedJob db} {o : Outcome}
    {publication : Option Publication} :
    Scope.withoutResults.settles db loaded o publication ↔ o.isResult = false := Iff.rfl

theorem Settled.withoutResult {w : World} {loaded : LoadedJob w.db} {o : Outcome}
    {publication : Option Publication} {db' : Db} (h : Settled loaded o publication db')
    (ho : o.isResult = false) :
    ∃ es bucket, Chain (Move Scope.withoutResults) w es ⟨db', bucket⟩ :=
  ⟨_, _, Chain.single (Move.settled (Scope.settles_withoutResults.mpr ho) h)⟩

/-- **Only the worker that has a result records one**: any other step of it is a chain
of moves without results. -/
theorem WorkerMove.result_or_chain {w w' : World} {claims : UUID → ℕ} {workerId : String}
    {m : EncodingJobMessage} {phase phase' : Phase} {action : WorkerAction} {events : List Event}
    (h : WorkerMove w claims workerId m phase action w' phase' events) :
    (∃ e o, ∃ loaded : LoadedJob w.db, ∃ publication, Conclusion phase action e o ∧
        o.isResult = true ∧ loaded.jobId = e.context.jobId ∧ Settled loaded o publication w'.db) ∨
      ∃ es bucket, Chain (Move Scope.withoutResults) w es ⟨w'.db, bucket⟩ := by
  cases h with
  | exhausted hid hs => exact Or.inr (hs.withoutResult rfl)
  | claimed hid hs => exact Or.inr (hs.withoutResult rfl)
  | beaten hcontext hclaim => exact Or.inr ⟨_, _, beat_chain _ _ _ _⟩
  | beatenFailing hcontext hclaim => exact Or.inr ⟨_, _, beat_chain _ _ _ _⟩
  | @concluded phase action e o loaded publication db' answer hc hcommits hid howns hs hpub =>
    cases hresult : o.isResult with
    | true => exact Or.inl ⟨e, o, loaded, publication, hc, hresult, hid, hs⟩
    | false => exact Or.inr (hs.withoutResult hresult)
  | _ => exact Or.inr ⟨[], w.bucket, Chain.nil _⟩

/-- **A step of the system records a result or is a chain of moves without results.** -/
theorem System.Stepped.result_or_chain {s t : System} {a : Action} (h : System.Stepped s a t)
    (hl : s.db.Linked) :
    (∃ worker m phase connected action e o, ∃ loaded : LoadedJob s.db, ∃ publication,
        s.workers worker = .handling m phase connected ∧ Conclusion phase action e o ∧
        o.isResult = true ∧ loaded.jobId = e.context.jobId ∧ Settled loaded o publication t.db) ∨
      ∃ es bucket, Chain (Move Scope.withoutResults) s.world es ⟨t.db, bucket⟩ := by
  cases h with
  | @requested op hop =>
    obtain ⟨es, hes, -⟩ := op.exec_chain (w := s.world) hl
    refine Or.inr ⟨es, _, hes.mono fun _ _ _ hm => hm.mono ?_ ?_ ?_⟩
    · exact fun _ _ _ hs => absurd hs (Op.not_settles hop _ _ _ _)
    · exact fun _ _ => trivial
    · exact fun _ => trivial
  | @worked worker m phase phase' connected action db' bucket' events hw hmove =>
    rcases hmove.result_or_chain with ⟨e, o, loaded, publication, hrest⟩ | hchain
    · exact Or.inl ⟨worker, m, phase, connected, action, e, o, loaded, publication, hw, hrest⟩
    · exact Or.inr hchain
  | @committed index openError closeError pass hpass hcomplete =>
    rw [Pass.commit_eq]
    exact Or.inr ⟨[], _, Chain.single (Move.outbox (w := s.world) trivial
      (Pass.view_commit openError closeError s.db))⟩
  | reaped hreap =>
    obtain ⟨es, hes, -, -⟩ := reap_chain (w := s.world) hreap
    refine Or.inr ⟨es, _, hes.mono fun _ _ _ hm => hm.move.mono ?_ ?_ ?_⟩
    · rintro _ o _ ⟨-, -, -, ⟨-, now, nextRunAt, rfl⟩ | ⟨-, now, rfl⟩⟩ - <;>
        exact Scope.settles_withoutResults.mpr rfl
    · exact fun _ _ => trivial
    · exact fun _ => trivial
  | _ => exact Or.inr ⟨[], s.bucket, Chain.nil _⟩

/-! ### What a source decides -/

/-- Whether the ladder has a rendition of this resolution for a source. -/
def fitsSource (metadata : VideoSourceMetadata) (resolution : String) : Bool :=
  isHlsPresetApplicable (getHlsPreset resolution) metadata defaultBitrateHeadroom

/-- All jobs of a video find the same metadata. -/
def ProbesAs (videoId : UUID) (metadata : VideoSourceMetadata) (s : System) : Action → Prop
  | .work worker (.probed found) =>
    ∀ e ∈ (s.workers worker).execution, e.context.videoId = videoId → found = metadata
  | _ => True

instance (videoId : UUID) (metadata : VideoSourceMetadata) (s : System) (a : Action) :
    Decidable (ProbesAs videoId metadata s a) := by
  unfold ProbesAs
  split <;> exact inferInstance

/-- A status agrees with what the source decides: only what fits is done, and only
what does not is skipped. -/
structure FitsStatus (fits : Bool) (status : ProcessingStatus) : Prop where
  done : status = .done → fits = true
  skipped : status = .skipped → fits = false

/-- **The rows of a video agree with its source.** -/
def RowsJudged (videoId : UUID) (metadata : VideoSourceMetadata) (db : Db) : Prop :=
  ∀ rid r, db.renditions.get? rid = some r → r.videoId = videoId →
    FitsStatus (fitsSource metadata r.resolution) r.status

/-- **A worker goes on as the source of its video decides**: it encodes and uploads
what fits, and skips what does not. -/
def Phase.Judged (videoId : UUID) (metadata : VideoSourceMetadata) : Phase → Prop
  | .processing _ .probing => True
  | .processing e _ =>
    e.context.videoId = videoId → fitsSource metadata e.context.resolution = true
  | .concluding e result => e.context.videoId = videoId →
    fitsSource metadata e.context.resolution = result.skippedReason.isNone
  | _ => True

/-- What a worker does with its message is as the source decides. -/
def Worker.Judged (videoId : UUID) (metadata : VideoSourceMetadata) : Worker → Prop
  | .handling _ phase _ => phase.Judged videoId metadata
  | _ => True

/-- **The rows and the workers agree with the source of a video.** -/
structure Judged (videoId : UUID) (metadata : VideoSourceMetadata) (s : System) : Prop where
  rows : RowsJudged videoId metadata s.db
  workers : ∀ w, (s.workers w).Judged videoId metadata
  described : ∀ w e, (s.workers w).execution = some e → Described s.db e.context

section Steps

variable {videoId : UUID} {metadata : VideoSourceMetadata}

theorem Judged.start : Judged videoId metadata System.start where
  rows := fun _ _ h => by cases h
  workers := fun _ => trivial
  described := fun _ _ h => by cases h

/-- An outcome that is no result leaves a status of which nothing is asked. -/
theorem Outcome.fits_of_isResult {o : Outcome} (h : o.isResult = false) (fits : Bool)
    (r : Rendition) : FitsStatus fits (o.rendition r).status := by
  cases o with
  | done outputPath now => cases h
  | skipped reason now => cases h
  | _ => exact ⟨nofun, nofun⟩

/-- Settling a job keeps the rows in agreement if the outcome agrees. -/
theorem RowsJudged.settled {db db' : Db} (h : RowsJudged videoId metadata db)
    {loaded : LoadedJob db} {o : Outcome} {publication : Option Publication}
    (hs : Settled loaded o publication db')
    (ho : loaded.rendition.videoId = videoId →
      FitsStatus (fitsSource metadata loaded.rendition.resolution)
        (o.rendition loaded.rendition).status) :
    RowsJudged videoId metadata db' := by
  intro rid r hr hv
  by_cases hrid : rid = loaded.job.renditionId
  · rw [hrid, hs.get?_rendition_self, Option.some.injEq] at hr
    subst hr
    rw [Outcome.rendition_videoId] at hv
    rw [Outcome.rendition_resolution]
    exact ho hv
  · rw [hs.get?_rendition_of_ne hrid] at hr
    exact h rid r hr hv

theorem RowsJudged.move {w w' : World} {es : List Settlement}
    (hm : Move Scope.withoutResults w es w') (h : RowsJudged videoId metadata w.db) :
    RowsJudged videoId metadata w'.db := by
  cases hm with
  | settled hscope hs => exact h.settled hs fun _ => Outcome.fits_of_isResult hscope _ _
  | completed _ hopen hc =>
    intro rid r hr hv
    rcases hc.get?_rendition.mp hr with hr | ⟨work, -, -, rfl⟩
    · exact h rid r hr hv
    · exact ⟨nofun, nofun⟩
  | heartbeat now hget hrun => exact h
  | outbox _ hmessages => exact h
  | created hvideo hsession _ _ _ _ => exact h
  | uploadFailed error _ hopen => exact h
  | aborted now _ hopen => exact h

/-- **What a worker concludes agrees with the source.** -/
theorem Conclusion.fits {phase : Phase} {action : WorkerAction} {e : Execution} {o : Outcome}
    (hc : Conclusion phase action e o) (h : phase.Judged videoId metadata)
    (hv : e.context.videoId = videoId) (r : Rendition) :
    FitsStatus (fitsSource metadata e.context.resolution) (o.rendition r).status := by
  cases hc with
  | retried => exact ⟨nofun, nofun⟩
  | failed => exact ⟨nofun, nofun⟩
  | done hreason =>
    have hfits := h hv
    rw [hreason] at hfits
    exact ⟨fun _ => hfits, nofun⟩
  | skipped hreason =>
    have hfits := h hv
    rw [hreason] at hfits
    exact ⟨nofun, fun _ => hfits⟩

/-- **A step of the processor** goes on as the source decides. -/
theorem ProcessMove.judged {bucket bucket' : Bucket} {e : Execution} {progress : Progress}
    {action : WorkerAction} {phase : Phase}
    (hm : ProcessMove bucket e progress action bucket' phase)
    (hprobed : ∀ found, action = .probed found → e.context.videoId = videoId → found = metadata)
    (h : (Phase.processing e progress).Judged videoId metadata) :
    phase.Judged videoId metadata := by
  cases hm with
  | applicable happlicable =>
    intro hv
    rw [← hprobed _ rfl hv]
    exact happlicable
  | notApplicable happlicable =>
    intro hv
    rw [← hprobed _ rfl hv]
    simpa [fitsSource] using happlicable
  | encoded => exact h
  | segment => exact h
  | playlist => exact h
  | failed => trivial
  | lost => trivial

/-- **A step of a worker** goes on as the source decides. -/
theorem WorkerMove.judged {w w' : World} {claims : UUID → ℕ} {workerId : String}
    {m : EncodingJobMessage} {phase phase' : Phase} {action : WorkerAction} {events : List Event}
    (hm : WorkerMove w claims workerId m phase action w' phase' events)
    (hprobed : ∀ found e, action = .probed found → phase.execution = some e →
      e.context.videoId = videoId → found = metadata)
    (h : phase.Judged videoId metadata) : phase'.Judged videoId metadata := by
  cases hm with
  | @beaten e e' progress action now hcontext hclaim =>
    -- a beat changes nothing of the context
    cases progress with
    | probing => trivial
    | encoding found =>
      intro hv
      rw [hcontext] at hv ⊢
      exact h hv
    | uploading found output todo =>
      intro hv
      rw [hcontext] at hv ⊢
      exact h hv
  | processed hstep =>
    exact (processStep_move hstep).judged (fun found ha hv => hprobed found _ ha rfl hv) h
  | _ => trivial

/-- What every worker does stays as the source decides in every step. -/
theorem System.Stepped.judged_workers {s t : System} {a : Action} (h : System.Stepped s a t)
    (hguard : ProbesAs videoId metadata s a)
    (hw : ∀ w, (s.workers w).Judged videoId metadata) :
    ∀ w, (t.workers w).Judged videoId metadata := by
  intro w
  have hstepped := h.worker w
  generalize t.workers w = v at hstepped
  cases hstepped with
  | same => exact hw w
  | received m => trivial
  | @moved m phase phase' connected action events ha hhandling hmove =>
    have hphase := hw w
    rw [hhandling] at hphase
    refine hmove.judged ?_ hphase
    rintro found e rfl he hv
    subst ha
    exact hguard e (by rw [hhandling]; exact he) hv
  | disconnected hhandling =>
    have hphase := hw w
    rw [hhandling] at hphase
    exact hphase
  | free hv => rcases hv with rfl | rfl <;> trivial

/-- **The rows and the workers agree with the source after every step.** -/
theorem System.Stepped.judged {s t : System} {a : Action} (h : System.Stepped s a t)
    (hguard : ProbesAs videoId metadata s a) (hl : s.db.Linked)
    (hj : Judged videoId metadata s) : Judged videoId metadata t where
  rows := by
    rcases h.result_or_chain hl with
      ⟨worker, m, phase, connected, action, e, o, loaded, publication, hw, hc, -, hid, hs⟩ |
      ⟨es, bucket, hes⟩
    · -- a result agrees with what its worker has found for the rendition of its job
      have hphase := hj.workers worker
      rw [hw] at hphase
      have hexecution : phase.execution = some e := by cases hc <;> rfl
      obtain ⟨hvid, hresolution⟩ :=
        (hj.described worker e (by rw [hw]; exact hexecution)).loaded loaded hid
      refine hj.rows.settled hs fun hv => ?_
      rw [hresolution]
      exact hc.fits hphase (by rw [← hvid, hv]) _
    · exact hes.keep (I := fun w => RowsJudged videoId metadata w.db)
        (fun _ _ _ hw hm => hw.move hm) hj.rows
  workers := h.judged_workers hguard hj.workers
  described := h.described hl hj.described

theorem ReachableSystem.judged {s : System} (h : ReachableSystem (ProbesAs videoId metadata) s) :
    Judged videoId metadata s := by
  refine Reaches.invariant_of (J := fun s => s.db.Linked) (I := Judged videoId metadata)
    (fun _ hs => ReachableSystem.linked hs) ?_ ?_ h
  · rintro _ rfl
    exact Judged.start
  · rintro s a _ hl hj hguard hstep
    obtain ⟨t, ht, rfl⟩ := System.step_cases hstep
    -- the clock is not looked at
    exact { ht.judged hguard hl hj with }

end Steps

/-! ### The status of a video whose work is over -/

/-- A video is done once all its renditions are done or skipped, and not all skipped. -/
theorem deriveVideoStatus_of_done {statuses : List ProcessingStatus} (hdone : .done ∈ statuses)
    (h : ∀ s ∈ statuses, s = .done ∨ s = .skipped) : deriveVideoStatus statuses = .done := by
  have hmem : ProcessingStatus.done ∈ statuses.filter fun s => s ≠ .skipped := by simp [hdone]
  have hall : (statuses.filter fun s => s ≠ .skipped).all (fun s => s = .done) = true := by
    rw [List.all_eq_true]
    intro s hs
    obtain ⟨hs, hskip⟩ : s ∈ statuses ∧ s ≠ .skipped := by simpa using hs
    exact decide_eq_true ((h s hs).resolve_right hskip)
  rw [deriveVideoStatus, if_neg (List.ne_nil_of_mem hdone), if_neg (List.ne_nil_of_mem hmem),
    if_pos hall]

/-- A video is failed just when all its renditions are skipped, or one has failed and
none is done. -/
theorem deriveVideoStatus_eq_failed {statuses : List ProcessingStatus}
    (h : deriveVideoStatus statuses = .failed) :
    (∀ s ∈ statuses, s = .skipped) ∨ .failed ∈ statuses := by
  simp only [deriveVideoStatus] at h
  split_ifs at h with hnil hskipped hall hfailed hdone
  · left
    simpa using hskipped
  · right
    have hmem : ProcessingStatus.failed ∈ statuses.filter fun s => s ≠ .skipped := by
      simpa using hfailed
    exact (List.mem_filter.mp hmem).1

section Over

variable {videoId : UUID} {metadata : VideoSourceMetadata} {s : System}

/-- The statuses that a rendition can have. -/
theorem status_cases (hl : s.db.Linked) (hc : s.db.Coherent) {p : UUID × Rendition}
    (hp : p ∈ s.db.renditionsOf videoId) :
    p.2.status.isActive = true ∨ p.2.status = .failed ∨ p.2.status = .done ∨
      p.2.status = .skipped := by
  obtain ⟨hget, -⟩ := Db.mem_renditionsOf.mp (show (p.1, p.2) ∈ _ from hp)
  obtain ⟨jid, job, hj, hjr⟩ := hl.rendition_job p.1 p.2 hget
  obtain ⟨r, hr, hpaired⟩ := hc.paired jid job hj
  obtain rfl : r = p.2 := Option.some.inj (by rw [← hr, hjr, hget])
  generalize p.2.status = status at hpaired ⊢
  generalize job.status = jobStatus at hpaired
  cases hpaired with
  | pending => exact Or.inl rfl
  | running => exact Or.inl rfl
  | failed => exact Or.inr (Or.inl rfl)
  | done => exact Or.inr (Or.inr (Or.inl rfl))
  | skipped => exact Or.inr (Or.inr (Or.inr rfl))

/-- The fallback is among the renditions of a video that has any. -/
theorem Db.Linked.exists_fallback {db : Db} (hl : db.Linked) (hne : db.renditionsOf videoId ≠ []) :
    ∃ p ∈ db.renditionsOf videoId, p.2.resolution = fallbackHlsResolution := by
  have hmem : fallbackHlsPreset.entry ∈ (db.renditionsOf videoId).map fun p => p.2.entry := by
    rw [(hl.fannedOut hne).ladder]
    exact List.mem_map_of_mem fallbackHlsPreset_mem
  obtain ⟨p, hp, hentry⟩ := List.mem_map.mp hmem
  exact ⟨p, hp, congrArg Prod.fst hentry⟩

/-- What a video comes to in a state that agrees with its source. -/
theorem Judged.status (hj : Judged videoId metadata s) (hl : s.db.Linked) (hc : s.db.Coherent)
    {video : Video} (hv : s.db.videos.get? videoId = some video)
    (hne : s.db.renditionsOf videoId ≠ []) (hnone : NoneFailed (s.db.renditionsOf videoId)) :
    video.status ≠ .failed ∧ (hasActiveRenditions (s.db.renditionsOf videoId) = false →
      video.status = .done ∧ ∀ p ∈ s.db.renditionsOf videoId, p.2.status =
        if fitsSource metadata p.2.resolution = true then .done else .skipped) := by
  have hfits : ∀ p ∈ s.db.renditionsOf videoId,
      FitsStatus (fitsSource metadata p.2.resolution) p.2.status := by
    intro p hp
    obtain ⟨hget, hpv⟩ := Db.mem_renditionsOf.mp (show (p.1, p.2) ∈ _ from hp)
    exact hj.rows p.1 p.2 hget hpv
  obtain ⟨fallback, hmem, hresolution⟩ := hl.exists_fallback hne
  have hfallback : fallback.2.status ≠ .skipped := by
    intro hskipped
    have hfalse := (hfits fallback hmem).skipped hskipped
    rw [hresolution] at hfalse
    exact absurd (isHlsPresetApplicable_fallback metadata defaultBitrateHeadroom)
      (Bool.eq_false_iff.mp hfalse)
  rw [hc.derived videoId video hv hne]
  constructor
  · intro hfailed
    rcases deriveVideoStatus_eq_failed hfailed with hall | hmemFailed
    · exact hfallback (hall _ (List.mem_map_of_mem hmem))
    · obtain ⟨p, hp, hstatus⟩ := List.mem_map.mp hmemFailed
      exact hnone p hp hstatus
  · intro hover
    have hover' : ∀ p ∈ s.db.renditionsOf videoId, p.2.status = .done ∨ p.2.status = .skipped := by
      intro p hp
      rcases status_cases hl hc hp with hactive | hfailed | hrest
      · rw [hasActiveRenditions_eq_true_iff.mpr ⟨p, hp, hactive⟩] at hover
        cases hover
      · exact absurd hfailed (hnone p hp)
      · exact hrest
    refine ⟨deriveVideoStatus_of_done ?_ ?_, fun p hp => ?_⟩
    · rw [← (hover' fallback hmem).resolve_right hfallback]
      exact List.mem_map_of_mem hmem
    · intro status hstatus
      obtain ⟨p, hp, rfl⟩ := List.mem_map.mp hstatus
      exact hover' p hp
    · rcases hover' p hp with hdone | hskipped
      · rw [(hfits p hp).done hdone, hdone, if_pos rfl]
      · rw [(hfits p hp).skipped hskipped, hskipped, if_neg Bool.false_ne_true]

/-- If every rendition is as the source decides, those that are done are those of the
presets that are applicable to it, in the order of the ladder. -/
theorem doneResolutions_of_judged (hl : s.db.Linked) (hne : s.db.renditionsOf videoId ≠ [])
    (h : ∀ p ∈ s.db.renditionsOf videoId, p.2.status =
      if fitsSource metadata p.2.resolution = true then .done else .skipped) :
    doneResolutions (s.db.renditionsOf videoId) =
      (defaultHlsRenditions.filter fun p =>
        isHlsPresetApplicable p metadata defaultBitrateHeadroom).map EncodingPreset.resolution := by
  have hladder : (s.db.renditionsOf videoId).map (fun p => p.2.resolution) =
      defaultHlsRenditions.map EncodingPreset.resolution := by
    have hentries := congrArg (List.map Prod.fst) (hl.fannedOut hne).ladder
    rw [List.map_map, List.map_map] at hentries
    exact hentries
  have hdone : ∀ p ∈ s.db.renditionsOf videoId,
      decide (p.2.status = .done) = fitsSource metadata p.2.resolution := by
    intro p hp
    rw [h p hp]
    by_cases hfits : fitsSource metadata p.2.resolution = true
    · rw [if_pos hfits, hfits]
      rfl
    · rw [if_neg hfits, Bool.eq_false_iff.mpr hfits]
      rfl
  calc doneResolutions (s.db.renditionsOf videoId)
      = ((s.db.renditionsOf videoId).filter fun p => fitsSource metadata p.2.resolution).map
          fun p => p.2.resolution := by rw [doneResolutions, List.filter_congr hdone]
    _ = ((s.db.renditionsOf videoId).map fun p => p.2.resolution).filter (fitsSource metadata) := by
        rw [List.filter_map, Function.comp_def]
    _ = (defaultHlsRenditions.filter fun p => fitsSource metadata p.resolution).map
          EncodingPreset.resolution := by
        rw [hladder, List.filter_map]
        rfl
    _ = (defaultHlsRenditions.filter fun p =>
          isHlsPresetApplicable p metadata defaultBitrateHeadroom).map
            EncodingPreset.resolution := by
        rw [List.filter_congr fun p hp => by rw [fitsSource, getHlsPreset_resolution p hp]]

end Over

/-- **The ladder of a source has no holes and is never empty.** A preset below an
applicable one is applicable, one always is, and a larger source has at least the
presets of a smaller one; so in every run whose jobs of a video find the same
metadata, while no rendition of the video has failed, the video is not failed, and
once its work is over it is done, with exactly the applicable renditions done. -/
theorem ladder_complete :
    (∀ metadata, defaultHlsRenditions.Pairwise fun p q =>
      isHlsPresetApplicable p metadata defaultBitrateHeadroom = true →
        isHlsPresetApplicable q metadata defaultBitrateHeadroom = true) ∧
    (∀ metadata, ∃ p ∈ defaultHlsRenditions,
      isHlsPresetApplicable p metadata defaultBitrateHeadroom = true) ∧
    (∀ m m' : VideoSourceMetadata, m'.AtLeast m → ∀ p ∈ defaultHlsRenditions,
      isHlsPresetApplicable p m defaultBitrateHeadroom = true →
        isHlsPresetApplicable p m' defaultBitrateHeadroom = true) ∧
    ∀ videoId metadata s, ReachableSystem (ProbesAs videoId metadata) s →
      s.db.renditionsOf videoId ≠ [] → NoneFailed (s.db.renditionsOf videoId) →
      ∃ video, s.db.videos.get? videoId = some video ∧ video.status ≠ .failed ∧
        (hasActiveRenditions (s.db.renditionsOf videoId) = false →
          video.status = .done ∧ doneResolutions (s.db.renditionsOf videoId) =
            (defaultHlsRenditions.filter fun p =>
              isHlsPresetApplicable p metadata defaultBitrateHeadroom).map
                EncodingPreset.resolution) := by
  refine ⟨fun metadata => ?_, fun metadata => ?_, fun m m' h p _ hp => ?_, ?_⟩
  · exact pairwise_atMost.imp isHlsPresetApplicable_of_atMost
  · exact ⟨_, fallbackHlsPreset_mem, isHlsPresetApplicable_fallback metadata _⟩
  · exact isHlsPresetApplicable_mono defaultBitrateHeadroom_nonneg h hp
  · intro videoId metadata s h hne hnone
    obtain ⟨video, hv, -⟩ := h.linked.exists_video hne
    obtain ⟨hfailed, hover⟩ := h.judged.status h.linked h.coherent hv hne hnone
    refine ⟨video, hv, hfailed, fun hidle => ⟨(hover hidle).1, ?_⟩⟩
    exact doneResolutions_of_judged h.linked hne (hover hidle).2

/-- A small source is encoded to the fallback only, and its video is done. -/
theorem ladder_complete_small : ∃ s video,
    ReachableSystem (ProbesAs (sampleId 0) ⟨100, 100, none, none⟩) s ∧
      s.db.videos.get? (sampleId 0) = some video ∧ video.status = .done := by
  obtain ⟨s, hs⟩ : ∃ s, guardedRun System.step (ProbesAs (sampleId 0) ⟨100, 100, none, none⟩)
      System.start (sampleUpload.map Action.request ++ samplePublishing ++ sampleEncoding ++
        (List.replicate 5 sampleSkipping).flatten) = some s := ⟨_, rfl⟩
  have hstart : ReachableSystem (ProbesAs (sampleId 0) ⟨100, 100, none, none⟩) System.start :=
    Reaches.start rfl
  have hreach := hstart.of_guardedRun hs
  obtain rfl := Option.some.inj hs
  obtain ⟨video, hv, -, hover⟩ := ladder_complete.2.2.2 _ _ _ hreach (by decide) (by
    rw [NoneFailed]
    decide)
  exact ⟨_, video, hreach, hv, (hover rfl).1⟩

end RenditionPipeline
