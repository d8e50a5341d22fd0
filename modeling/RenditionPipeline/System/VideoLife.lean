import RenditionPipeline.Library.Refinement
import RenditionPipeline.Runs.Polling
import RenditionPipeline.System.Delivery
import RenditionPipeline.System.Ladder
import RenditionPipeline.System.Wakeups

/-!
# The life of a video

The status of a video is written by the request that creates it, by those that complete or
abort its upload, and, after every transaction on one of its jobs, from the statuses of its
renditions. Seen through what a client reads of it, the whole pipeline is an automaton
(`RenditionPipeline.VideoLife.next`) in which work goes back and forth – between waiting,
processing and a video of which some renditions are done – until it is over, or a rendition
fails: from then on the video is failed, and partial once another rendition succeeds, and
never anything else (`RenditionPipeline.video_follows_life`). This is so as long as the
transactions that settle jobs of one video – claims, markings and the commits of the reaper –
are over one before the other; what two of them may do that overlap is shown at
`RenditionPipeline.overlapping_ends`.

What the renditions say is only which statuses there are among them
(`RenditionPipeline.Tally`). A transaction on a job replaces one status by another, and the
finitely many cases of that are looked at once (`RenditionPipeline.Tally.life_of_replaced`).
-/

namespace RenditionPipeline

open Relation

/-! ### The automaton -/

/-- **The life of a video.** -/
inductive VideoLife where
  | absent
  | uploading
  | aborted
  | waiting
  | processing
  /-- Some renditions are done and none is under way, but some are still to come. -/
  | partway
  /-- A rendition has failed, and none is done. -/
  | failed
  /-- A rendition has failed, and another is done. -/
  | partlyFailed
  | done
  /-- All renditions are skipped. -/
  | skipped
deriving DecidableEq

namespace VideoLife

/-- What can come next. -/
def next : VideoLife → List VideoLife
  | absent => [uploading]
  | uploading => [waiting, aborted]
  | waiting => [processing, failed]
  | processing => [waiting, partway, failed, partlyFailed, done, skipped]
  | partway => [processing, partlyFailed]
  | failed => [partlyFailed]
  | _ => []

/-- A step of the automaton. -/
def Step (l l' : VideoLife) : Prop := l' ∈ l.next

instance (l l' : VideoLife) : Decidable (Step l l') :=
  inferInstanceAs (Decidable (l' ∈ l.next))

/-- The status that a client reads. -/
def status : VideoLife → Option ProcessingStatus
  | absent => none
  | uploading => some .uploading
  | waiting => some .pending
  | processing => some .running
  | partway => some .partialStatus
  | partlyFailed => some .partialStatus
  | done => some .done
  | _ => some .failed

/-- **A failure is for good.** -/
theorem failed_of_path {l l' : VideoLife} (h : ReflTransGen Step l l')
    (hl : l = failed ∨ l = partlyFailed) : l' = failed ∨ l' = partlyFailed := by
  induction h with
  | refl => exact hl
  | @tail l₁ l₂ _ hstep ih =>
    rcases ih with rfl | rfl
    · exact Or.inr (List.mem_singleton.mp hstep)
    · cases hstep

end VideoLife

/-! ### What the renditions say -/

/-- Which statuses there are among the renditions of a video, those that are skipped aside. -/
structure Tally where
  failed : Bool
  running : Bool
  done : Bool
  pending : Bool

/-- The statuses of some renditions. -/
def tally (statuses : List ProcessingStatus) : Tally where
  failed := decide (.failed ∈ statuses)
  running := decide (.running ∈ statuses)
  done := decide (.done ∈ statuses)
  pending := decide (.pending ∈ statuses)

namespace Tally

/-- Where the life of the video stands. -/
def life (t : Tally) : VideoLife :=
  if t.failed then (if t.done then .partlyFailed else .failed)
  else if t.running then .processing
  else if t.done then (if t.pending then .partway else .done)
  else if t.pending then .waiting
  else .skipped

/-- Whether a status is there. One that is not counted is taken to be. -/
def has (t : Tally) : ProcessingStatus → Bool
  | .failed => t.failed
  | .running => t.running
  | .done => t.done
  | .pending => t.pending
  | _ => true

/-- The statuses that are counted. -/
def counted : List ProcessingStatus := [.failed, .running, .done, .pending]

/-- **A status is replaced by another** in a list: no other one is lost or gained. -/
def Replaces (before after : ProcessingStatus) (t t' : Tally) : Prop :=
  t.has before = true ∧ t'.has after = true ∧
    (∀ s ∈ counted, s ≠ before → t.has s = true → t'.has s = true) ∧
    ∀ s ∈ counted, s ≠ after → t'.has s = true → t.has s = true

instance (before after : ProcessingStatus) (t t' : Tally) :
    Decidable (Replaces before after t t') :=
  inferInstanceAs (Decidable (t.has before = true ∧ t'.has after = true ∧
    (∀ s ∈ counted, s ≠ before → t.has s = true → t'.has s = true) ∧
    ∀ s ∈ counted, s ≠ after → t'.has s = true → t.has s = true))

/-- What the status of a rendition becomes when its job is settled. -/
inductive Becomes : ProcessingStatus → ProcessingStatus → Prop
  | exhausted : Becomes .pending .failed
  | running : Becomes .pending .running
  | done : Becomes .running .done
  | skipped : Becomes .running .skipped
  | retried : Becomes .running .pending
  | failed : Becomes .running .failed

/-- **The life of the video goes on by a step of the automaton**, or stays where it is. -/
theorem life_of_replaced {before after : ProcessingStatus} (hb : Becomes before after)
    {t t' : Tally} (h : Replaces before after t t') :
    t'.life = t.life ∨ t.life.Step t'.life := by
  obtain ⟨f, r, d, p⟩ := t
  obtain ⟨f', r', d', p'⟩ := t'
  -- there are sixteen tallies, before and after
  revert f r d p f' r' d' p'
  cases hb <;> decide +kernel

theorem has_of_mem {statuses : List ProcessingStatus} {s : ProcessingStatus}
    (hs : s ∈ statuses) : (tally statuses).has s = true := by
  cases s <;> first | rfl | exact decide_eq_true hs

theorem has_tally {statuses : List ProcessingStatus} {s : ProcessingStatus} (hs : s ∈ counted) :
    (tally statuses).has s = true ↔ s ∈ statuses := by
  simp only [counted, List.mem_cons, List.not_mem_nil, or_false] at hs
  rcases hs with rfl | rfl | rfl | rfl <;> exact decide_eq_true_iff

end Tally

/-- **The derived status is a matter of the tally.** -/
theorem deriveVideoStatus_tally {statuses : List ProcessingStatus} (hne : statuses ≠ [])
    (hknown : ∀ s ∈ statuses, s ∈ Tally.counted ∨ s = .skipped) :
    some (deriveVideoStatus statuses) = (tally statuses).life.status := by
  have hany : ∀ s, s ≠ .skipped →
      ((statuses.filter fun s => s ≠ .skipped).any fun s' => s' = s) = decide (s ∈ statuses) := by
    intro s hs
    rw [Bool.eq_iff_iff, List.any_eq_true, decide_eq_true_iff]
    constructor
    · rintro ⟨s', hs', he⟩
      rw [← of_decide_eq_true he]
      exact (mem_available.mp hs').1
    · exact fun hmem => ⟨s, mem_available.mpr ⟨hmem, hs⟩, decide_eq_true rfl⟩
  have hcounted : ∀ s, s ∈ statuses.filter (fun s => s ≠ .skipped) ↔
      s ∈ statuses ∧ s ∈ Tally.counted := by
    intro s
    rw [mem_available]
    refine and_congr_right fun hs => ⟨(hknown s hs).resolve_right, ?_⟩
    rintro hmem rfl
    revert hmem
    decide
  have hnil : statuses.filter (fun s => s ≠ .skipped) = [] ↔
      ∀ s ∈ Tally.counted, s ∉ statuses := by
    rw [List.eq_nil_iff_forall_not_mem]
    exact ⟨fun h s hs hmem => h s ((hcounted s).mpr ⟨hmem, hs⟩),
      fun h s hmem => h s ((hcounted s).mp hmem).2 ((hcounted s).mp hmem).1⟩
  have hall : ((statuses.filter fun s => s ≠ .skipped).all fun s => s = .done) = true ↔
      ∀ s ∈ Tally.counted, s ≠ .done → s ∉ statuses := by
    rw [List.all_eq_true]
    exact ⟨fun h s hs hne hmem => hne (of_decide_eq_true (h s ((hcounted s).mpr ⟨hmem, hs⟩))),
      fun h s hmem => decide_eq_true (by_contra fun hne =>
        h s ((hcounted s).mp hmem).2 hne ((hcounted s).mp hmem).1)⟩
  simp only [deriveVideoStatus, if_neg hne, hany .failed (by decide), hany .done (by decide),
    hany .running (by decide), hnil, hall]
  by_cases hf : .failed ∈ statuses <;> by_cases hr : .running ∈ statuses <;>
    by_cases hd : .done ∈ statuses <;> by_cases hp : .pending ∈ statuses <;>
    simp [Tally.counted, Tally.life, tally, VideoLife.status, hf, hr, hd, hp]

/-! ### Reading the life of a video off its rows -/

/-- The life of a video with a row and renditions of some statuses. -/
def VideoLife.ofRows (row : Option Video) (statuses : List ProcessingStatus) : VideoLife :=
  match row with
  | none => .absent
  | some video =>
    if statuses = [] then
      if video.status = .uploading then .uploading else .aborted
    else (tally statuses).life

/-- The life of a video. -/
def Db.videoLife (db : Db) (videoId : UUID) : VideoLife :=
  VideoLife.ofRows (db.videos.get? videoId) (statusesOf (db.renditionsOf videoId))

section Rows

variable {db db' : Db} {videoId : UUID}

/-- The life of a video is a matter of its row and its renditions. -/
theorem Db.videoLife_congr (hvideo : db'.videos.get? videoId = db.videos.get? videoId)
    (hrenditions : db'.renditionsOf videoId = db.renditionsOf videoId) :
    db'.videoLife videoId = db.videoLife videoId := by
  rw [Db.videoLife, Db.videoLife, hvideo, hrenditions]

/-- A video that has renditions. -/
theorem Db.videoLife_of_ne {video : Video} (hv : db.videos.get? videoId = some video)
    (hne : db.renditionsOf videoId ≠ []) :
    db.videoLife videoId = (tally (statusesOf (db.renditionsOf videoId))).life := by
  rw [Db.videoLife, hv]
  exact if_neg fun he => hne (List.map_eq_nil_iff.mp he)

/-- An upload that is open. -/
theorem OpenUpload.videoLife {sessionId : UUID} {video : Video} {session : UploadSession}
    (hopen : OpenUpload db videoId sessionId video session) (hl : db.Linked) :
    db.videoLife videoId = .uploading := by
  rw [Db.videoLife, hopen.get?_video, hopen.renditionsOf_eq_nil hl]
  exact if_pos hopen.uploading

/-- The statuses of renditions are counted or skipped. -/
theorem counted_statusesOf {s : System} (hl : s.db.Linked) (hc : s.db.Coherent) (videoId : UUID) :
    ∀ status ∈ statusesOf (s.db.renditionsOf videoId),
      status ∈ Tally.counted ∨ status = .skipped := by
  intro status hstatus
  obtain ⟨p, hp, rfl⟩ := List.mem_map.mp hstatus
  rcases status_cases hl hc hp with hactive | hfailed | hdone | hskipped
  · refine Or.inl ?_
    generalize p.2.status = status at hactive
    cases status <;> first | decide | cases hactive
  · exact Or.inl (by rw [hfailed]; decide)
  · exact Or.inl (by rw [hdone]; decide)
  · exact Or.inr hskipped

/-- **A client reads where the life of the video stands.** -/
theorem status_videoLife {s : System} (hl : s.db.Linked) (hc : s.db.Coherent)
    (hu : s.db.Unstarted) (videoId : UUID) :
    (s.db.videos.get? videoId).map Video.status = (s.db.videoLife videoId).status := by
  cases hv : s.db.videos.get? videoId with
  | none =>
    rw [Db.videoLife, hv]
    rfl
  | some video =>
    rw [Option.map_some]
    by_cases hnil : s.db.renditionsOf videoId = []
    · rw [Db.videoLife, hv, hnil]
      rcases hu videoId video hv hnil with hstatus | hstatus <;>
        simp [VideoLife.ofRows, statusesOf, VideoLife.status, hstatus]
    · rw [Db.videoLife_of_ne hv hnil, hc.derived videoId video hv hnil]
      refine deriveVideoStatus_tally (fun he => hnil ?_) (counted_statusesOf hl hc videoId)
      exact List.map_eq_nil_iff.mp he

end Rows

/-! ### Moves -/

section Moves

variable {w w' : World} {videoId : UUID}

/-- What an outcome makes of the status of its job. -/
theorem Outcome.Enabled.becomes {o : Outcome} {job : Job} (h : o.Enabled job) (r : Rendition) :
    Tally.Becomes job.status (o.rendition r).status := by
  cases o with
  | exhausted now =>
    rw [h.1]
    exact Tally.Becomes.exhausted
  | running workerId now =>
    rw [h.1]
    exact Tally.Becomes.running
  | done outputPath now =>
    rw [show job.status = .running from h]
    exact Tally.Becomes.done
  | skipped reason now =>
    rw [show job.status = .running from h]
    exact Tally.Becomes.skipped
  | retried error now nextRunAt =>
    rw [h.1]
    exact Tally.Becomes.retried
  | failed error now =>
    rw [h.1]
    exact Tally.Becomes.failed

/-- **A settled job replaces one status** of its video. -/
theorem Settled.replaces {db db' : Db} {loaded : LoadedJob db} {o : Outcome}
    {publication : Option Publication} (hs : Settled loaded o publication db') (hc : db.Coherent) :
    ∃ before after, Tally.Becomes before after ∧ Tally.Replaces before after
      (tally (statusesOf (db.renditionsOf loaded.rendition.videoId)))
      (tally (statusesOf (db'.renditionsOf loaded.rendition.videoId))) := by
  have hself : loaded.rendition.status ∈ statusesOf (db.renditionsOf loaded.rendition.videoId) :=
    List.mem_map.mpr ⟨_, loaded.mem_renditionsOf, rfl⟩
  have hb : Tally.Becomes loaded.rendition.status (o.rendition loaded.rendition).status := by
    obtain ⟨r, hr, hpaired⟩ := hc.paired _ _ loaded.get?_job
    obtain rfl : r = loaded.rendition := Option.some.inj (hr.symm.trans loaded.get?_rendition)
    rw [hpaired.eq_of_isActive hs.enabled.isActive]
    exact hs.enabled.becomes loaded.rendition
  refine ⟨_, _, hb, Tally.has_of_mem hself, Tally.has_of_mem hs.mem_statusesOf_self, ?_, ?_⟩
  · intro s hcounted hne hhas
    exact Tally.has_of_mem (hs.mem_statusesOf ((Tally.has_tally hcounted).mp hhas) hne)
  · intro s hcounted hne hhas
    rcases hs.status_cases ((Tally.has_tally hcounted).mp hhas) with he | hmem
    · exact absurd he hne
    · exact Tally.has_of_mem hmem

/-- **A move is a step of the automaton, or nothing.** -/
theorem Move.videoLife {scope : Scope} {es : List Settlement} (hm : Move scope w es w')
    (hl : w.db.Linked) (hc : w.db.Coherent) (videoId : UUID) :
    ReflTransGen VideoLife.Step (w.db.videoLife videoId) (w'.db.videoLife videoId) := by
  have hsame : ∀ {db' : Db}, db'.videos.get? videoId = w.db.videos.get? videoId →
      db'.renditionsOf videoId = w.db.renditionsOf videoId →
      ReflTransGen VideoLife.Step (w.db.videoLife videoId) (db'.videoLife videoId) :=
    fun hvideo hrenditions => by rw [Db.videoLife_congr hvideo hrenditions]
  cases hm with
  | heartbeat now hget hrun => exact hsame rfl rfl
  | outbox _ hmessages => exact hsame rfl rfl
  | uploadFailed error _ hopen => exact hsame rfl rfl
  | @settled loaded o publication db' _ hs =>
    by_cases hvid : videoId = loaded.rendition.videoId
    · subst hvid
      obtain ⟨before, after, hb, hreplaces⟩ := hs.replaces hc
      obtain ⟨video', hv', -⟩ := hs.get?_video_self
      have hne : w.db.renditionsOf loaded.rendition.videoId ≠ [] :=
        List.ne_nil_of_mem loaded.mem_renditionsOf
      have hne' : db'.renditionsOf loaded.rendition.videoId ≠ [] := by
        rw [hs.renditionsOf]
        exact List.ne_nil_of_mem (mem_settledRenditions loaded o)
      rw [Db.videoLife_of_ne loaded.get?_video hne, Db.videoLife_of_ne hv' hne']
      rcases Tally.life_of_replaced hb hreplaces with he | hstep
      · rw [he]
      · exact ReflTransGen.single hstep
    · exact hsame (hs.get?_video_of_ne hvid) (hs.renditionsOf_of_ne hvid)
  | @created videoId' sessionId video session hvideo hsession huploading _ _ _ =>
    by_cases hvid : videoId = videoId'
    · subst hvid
      have hnil : w.db.renditionsOf videoId = [] := hl.renditionsOf_eq_nil_of_none hvideo
      have hget : (w.db.videos.insert videoId video hvideo).get? videoId = some video :=
        Table.get?_insert_self ..
      show ReflTransGen VideoLife.Step
        (VideoLife.ofRows (w.db.videos.get? videoId) (statusesOf (w.db.renditionsOf videoId)))
        (VideoLife.ofRows ((w.db.videos.insert videoId video hvideo).get? videoId)
          (statusesOf (w.db.renditionsOf videoId)))
      rw [hvideo, hget, hnil, show VideoLife.ofRows (some video) (statusesOf []) = .uploading from
        if_pos huploading]
      exact ReflTransGen.single List.mem_cons_self
    · refine hsame ?_ rfl
      exact (Table.get?_insert _ _ _ hvideo _).trans (if_neg hvid)
  | @completed videoId' sessionId video session _ _ _ works db' _ hopen hcompleted =>
    by_cases hvid : videoId = videoId'
    · subst hvid
      have hnil := hopen.renditionsOf_eq_nil hl
      obtain ⟨video', hget⟩ : ∃ video', db'.videos.get? videoId = some video' :=
        ⟨_, by rw [hcompleted.videos, Table.get?_modify_self, hopen.get?_video, Option.map_some]⟩
      rw [hopen.videoLife hl, Db.videoLife_of_ne hget (hcompleted.renditionsOf_ne_nil hnil)]
      have hstatuses : statusesOf (db'.renditionsOf videoId) =
          defaultHlsRenditions.map fun _ => ProcessingStatus.pending := by
        rw [hcompleted.renditionsOf_self hnil, ← hcompleted.presets, statusesOf, List.map_map,
          List.map_map]
        rfl
      rw [hstatuses]
      exact ReflTransGen.single List.mem_cons_self
    · refine hsame ?_ (hcompleted.renditionsOf_of_ne hvid)
      rw [hcompleted.videos, Table.get?_modify_of_ne hvid]
  | @aborted videoId' sessionId video session now _ hopen =>
    by_cases hvid : videoId = videoId'
    · subst hvid
      have hget : (w.db.videos.modify videoId abortedVideo).get? videoId =
          some (abortedVideo video) := by
        rw [Table.get?_modify_self, hopen.get?_video, Option.map_some]
      rw [hopen.videoLife hl]
      show ReflTransGen VideoLife.Step VideoLife.uploading
        (VideoLife.ofRows ((w.db.videos.modify videoId abortedVideo).get? videoId)
          (statusesOf (w.db.renditionsOf videoId)))
      rw [hget, hopen.renditionsOf_eq_nil hl]
      exact ReflTransGen.single (List.mem_cons_of_mem _ List.mem_cons_self)
    · exact hsame (Table.get?_modify_of_ne hvid _ _) rfl

end Moves

/-! ### Runs of the system -/

/-- The life of a video in a state of the system. -/
def System.videoLife (s : System) (videoId : UUID) : VideoLife := s.db.videoLife videoId

/-- **The system refines the life of every video.** -/
theorem refines_videoLife (guard : System → Action → Prop) (videoId : UUID) :
    Refines System.step guard (ReachableSystem guard) (fun s => s.videoLife videoId)
      VideoLife.Step where
  keeps := fun _ _ _ hs hg hstep => Reaches.step hs hg hstep
  path := by
    intro s a s' hs _ hstep
    obtain ⟨t, ht, rfl⟩ := System.step_cases hstep
    have hkeep := ht.keep_db
      (I := fun db => db.Coherent ∧
        ReflTransGen VideoLife.Step (s.videoLife videoId) (db.videoLife videoId))
      hs.linked
      (fun w e w' hl hw hm => ⟨hm.coherent hl hw.1, hw.2.trans (hm.videoLife hl hw.1 videoId)⟩)
      ⟨hs.coherent, ReflTransGen.refl⟩
    exact hkeep.2

/-- A video of which a rendition has failed. -/
theorem Db.videoLife_of_failed {db : Db} (hl : db.Linked) {videoId rid : UUID} {r : Rendition}
    (hr : db.renditions.get? rid = some r) (hvid : r.videoId = videoId)
    (hfailed : r.status = .failed) :
    db.videoLife videoId = .failed ∨ db.videoLife videoId = .partlyFailed := by
  have hmem : (rid, r) ∈ db.renditionsOf videoId := Db.mem_renditionsOf.mpr ⟨hr, hvid⟩
  obtain ⟨video, hv, -⟩ := hl.exists_video (List.ne_nil_of_mem hmem)
  have htally : (tally (statusesOf (db.renditionsOf videoId))).failed = true :=
    decide_eq_true (List.mem_map.mpr ⟨_, hmem, hfailed⟩)
  rw [Db.videoLife_of_ne hv (List.ne_nil_of_mem hmem), Tally.life, if_pos htally]
  split
  · exact Or.inr rfl
  · exact Or.inl rfl

/-- **A video follows its automaton.** In every run of the system whose transactions do not
overlap – whatever requests come, and whatever is delivered twice, crashes or is reaped – the
life of a video is a path of the automaton, and the status that a client reads is where the
path has come to. Once a rendition of the video has failed, the status stays failed or
partial. -/
theorem video_follows_life {s s' : System} {as : List Action} (hs : ReachableSystem Unguarded s)
    (hrun : guardedRun System.step Unguarded s as = some s') (videoId : UUID) :
    ReflTransGen VideoLife.Step (s.videoLife videoId) (s'.videoLife videoId) ∧
    (s'.db.videos.get? videoId).map Video.status = (s'.videoLife videoId).status ∧
    ∀ rid r, s.db.renditions.get? rid = some r → r.videoId = videoId → r.status = .failed →
      ∃ video, s'.db.videos.get? videoId = some video ∧
        (video.status = .failed ∨ video.status = .partialStatus) := by
  obtain ⟨hs', hpath⟩ := (refines_videoLife Unguarded videoId).run hs hrun
  have hread : (s'.db.videos.get? videoId).map Video.status = (s'.videoLife videoId).status :=
    status_videoLife hs'.linked hs'.coherent hs'.unstarted videoId
  refine ⟨hpath, hread, fun rid r hr hvid hfailed => ?_⟩
  have hlife := VideoLife.failed_of_path hpath (Db.videoLife_of_failed hs.linked hr hvid hfailed)
  rcases hlife with he | he
  · rw [he] at hread
    obtain ⟨video, hv, hstatus⟩ := Option.map_eq_some_iff.mp hread
    exact ⟨video, hv, Or.inl hstatus⟩
  · rw [he] at hread
    obtain ⟨video, hv, hstatus⟩ := Option.map_eq_some_iff.mp hread
    exact ⟨video, hv, Or.inr hstatus⟩

/-- The worker encodes a rendition of a large source. -/
def sampleSecondEncoding : List Action :=
  [.deliver "worker" 0, .work "worker" (.claim 3 3),
    .work "worker" (.probed ⟨3840, 2160, none, none⟩),
    .work "worker" (.encoded ⟨[⟨"a.ts", none⟩], some "#EXTM3U\nsegments/a.ts\n"⟩),
    .work "worker" .upload, .work "worker" .upload, .work "worker" (.conclude 4 true true),
    .settle "worker"]

/-- The only attempt at one rendition fails, and another one is encoded: the video is failed,
and then partial. -/
theorem video_follows_life_partial :
    ∃ s s' r video, ReachableSystem Unguarded s ∧
      guardedRun System.step Unguarded s sampleSecondEncoding = some s' ∧
      s.db.renditions.get? (sampleId 20) = some r ∧ r.status = .failed ∧
      s.videoLife (sampleId 0) = .failed ∧ s'.videoLife (sampleId 0) = .partlyFailed ∧
      ReflTransGen VideoLife.Step .failed .partlyFailed ∧
      s'.db.videos.get? (sampleId 0) = some video ∧
      (video.status = .failed ∨ video.status = .partialStatus) := by
  obtain ⟨s, s', r, hs, hs', hr, hvid, hfailed, hlife, hlife'⟩ : ∃ s s' r,
      guardedRun System.step Unguarded System.start
        (sampleUploadRequests 1 ++ samplePublishing ++ sampleFailure) = some s ∧
      guardedRun System.step Unguarded s sampleSecondEncoding = some s' ∧
      s.db.renditions.get? (sampleId 20) = some r ∧ r.videoId = sampleId 0 ∧
      r.status = .failed ∧ s.videoLife (sampleId 0) = .failed ∧
      s'.videoLife (sampleId 0) = .partlyFailed := ⟨_, _, _, rfl, rfl, rfl, rfl, rfl, rfl, rfl⟩
  have hstart : ReachableSystem Unguarded System.start := Reaches.start rfl
  have hreach := hstart.of_guardedRun hs
  obtain ⟨hpath, -, hstays⟩ := video_follows_life hreach hs' (sampleId 0)
  obtain ⟨video, hv, hstatus⟩ := hstays _ r hr hvid hfailed
  rw [hlife, hlife'] at hpath
  exact ⟨s, s', r, video, hreach, hs', hr, hfailed, hlife, hlife', hpath, hv, hstatus⟩

end RenditionPipeline
