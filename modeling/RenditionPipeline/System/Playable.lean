import RenditionPipeline.Lifecycle.Publication
import RenditionPipeline.System.Segments

/-!
# Playable videos

What the worker writes, what the rows say and what the playback service reads are
tied together here. In every state of the system the rendition that is done has
its playlist in the bucket (`RenditionPipeline.DoneStored`), the playlist is whole,
and a video without failed renditions whose work is over is published; so a video
that is shown as done can be played, from its master playlist down to the last
segment (`RenditionPipeline.done_video_playable`).
-/

namespace RenditionPipeline

/-- No rendition has failed. A video that is done has none, and of a video that
has one nothing is asked. -/
def NoneFailed (renditions : List (UUID × Rendition)) : Prop :=
  ∀ p ∈ renditions, p.2.status ≠ .failed

/-! ### What moves keep -/

/-- **Every rendition that is done has its playlist in the bucket.** -/
def DoneStored (w : World) : Prop :=
  ∀ rid r, w.db.renditions.get? rid = some r → r.status = .done →
    ∃ key, buildHlsPlaylistKey r.videoId r.resolution = .ok key ∧ (w.bucket key).isSome

/-- A video without renditions is uploading or aborted. -/
def Db.Unstarted (db : Db) : Prop :=
  ∀ vid video, db.videos.get? vid = some video → db.renditionsOf vid = [] →
    video.status = .uploading ∨ video.status = .failed

/-- A video without renditions is not done. -/
def Db.IdleNotDone (db : Db) : Prop :=
  ∀ vid video, db.videos.get? vid = some video → db.renditionsOf vid = [] → video.status ≠ .done

/-- **What is served is up to date**: publications, and the playlists of the
renditions that are done. -/
structure Served (w : World) : Prop where
  published : PublicationState NoneFailed w
  stored : DoneStored w

/-- A settlement without a publication that leaves the rendition active or failed
leaves nothing to publish that is due. -/
theorem publishScope_of_active_or_failed {db : Db} {loaded : LoadedJob db} {o : Outcome}
    {publication : Option Publication} (hdone : ∀ outputPath now, o = .done outputPath now →
      ∃ key, outputPath = some key ∧
        buildHlsPlaylistKey loaded.rendition.videoId loaded.rendition.resolution = .ok key)
    (hnone : publication = none → (o.rendition loaded.rendition).status.isActive = true ∨
      (o.rendition loaded.rendition).status = .failed) :
    (publishScope NoneFailed).settles db loaded o publication := by
  refine ⟨hdone, fun hp hover hdue => ?_⟩
  rcases hnone hp with hactive | hfailed
  · rw [hasActiveRenditions_settled hactive] at hover
    cases hover
  · exact absurd hfailed (hdue _ (mem_settledRenditions loaded o))

namespace Served

theorem empty : Served World.empty := ⟨PublicationState.empty, fun _ _ h => by cases h⟩

/-- **A settled job**, whose playlist has been uploaded if it is done. -/
theorem settled {w : World} {db' : Db} (h : Served w) (hc : w.db.Coherent)
    {loaded : LoadedJob w.db} {o : Outcome} {publication : Option Publication}
    (hs : Settled loaded o publication db')
    (hdone : ∀ outputPath now, o = .done outputPath now → ∃ key, outputPath = some key ∧
      buildHlsPlaylistKey loaded.rendition.videoId loaded.rendition.resolution = .ok key ∧
      (w.bucket key).isSome)
    (hnone : publication = none → (o.rendition loaded.rendition).status.isActive = true ∨
      (o.rendition loaded.rendition).status = .failed) :
    Served ⟨db', (publication.getD .notReady).store w.bucket⟩ where
  published := by
    refine h.published.settled hc (publishScope_of_active_or_failed ?_ hnone) hs
    intro outputPath now ho
    obtain ⟨key, hpath, hkey, -⟩ := hdone outputPath now ho
    exact ⟨key, hpath, hkey⟩
  stored := by
    intro rid r hr hstatus
    have hk := Bucket.Keeps.store w.bucket (publication.getD .notReady)
    by_cases hrid : rid = loaded.job.renditionId
    · rw [hrid, hs.get?_rendition_self, Option.some.injEq] at hr
      subst hr
      cases o with
      | done outputPath now =>
        obtain ⟨key, -, hkey, hsome⟩ := hdone outputPath now rfl
        exact ⟨key, hkey, hk key hsome⟩
      | _ => cases hstatus
    · rw [hs.get?_rendition_of_ne hrid] at hr
      obtain ⟨key, hkey, hsome⟩ := h.stored rid r hr hstatus
      exact ⟨key, hkey, hk key hsome⟩

/-- A move that settles no job as done, and none without a publication unless it
leaves the rendition active or failed. -/
theorem move {scope : Scope} {w w' : World} {es : List Settlement} (h : Served w)
    (hl : w.db.Linked) (hc : w.db.Coherent)
    (hscope : ∀ (db : Db) (loaded : LoadedJob db) o p, scope.settles db loaded o p →
      (∀ outputPath now, o ≠ .done outputPath now) ∧
      (p = none → (o.rendition loaded.rendition).status.isActive = true ∨
        (o.rendition loaded.rendition).status = .failed))
    (hm : Move scope w es w') : Served w' := by
  cases hm with
  | settled hs hset =>
    obtain ⟨hdone, hnone⟩ := hscope _ _ _ _ hs
    exact h.settled hc hset (fun p now ho => absurd ho (hdone p now)) hnone
  | heartbeat now hget hrun => exact ⟨h.published.of_same rfl rfl fun _ => rfl, h.stored⟩
  | outbox _ hmessages => exact ⟨h.published.of_same rfl rfl fun _ => rfl, h.stored⟩
  | created hvideo hsession _ hpath _ _ =>
    exact ⟨h.published.created hl hvideo hsession hpath, h.stored⟩
  | completed _ hopen hcomp =>
    refine ⟨h.published.completed hcomp (hopen.renditionsOf_eq_nil hl), ?_⟩
    intro rid r hr hstatus
    rcases hcomp.get?_rendition.mp hr with hr | ⟨work, -, -, rfl⟩
    · exact h.stored rid r hr hstatus
    · cases hstatus
  | uploadFailed error _ hopen => exact ⟨h.published.of_same rfl rfl fun _ => rfl, h.stored⟩
  | aborted now _ hopen =>
    exact ⟨h.published.of_same (Table.view_modify fun _ _ => rfl) rfl fun _ => rfl, h.stored⟩

theorem chain {scope : Scope} {w w' : World} {es : List Settlement} (h : Served w)
    (hl : w.db.Linked) (hc : w.db.Coherent)
    (hscope : ∀ (db : Db) (loaded : LoadedJob db) o p, scope.settles db loaded o p →
      (∀ outputPath now, o ≠ .done outputPath now) ∧
      (p = none → (o.rendition loaded.rendition).status.isActive = true ∨
        (o.rendition loaded.rendition).status = .failed))
    (hm : Chain (Move scope) w es w') : Served w' :=
  (hm.keep (I := fun w => w.db.Linked ∧ w.db.Coherent ∧ Served w)
    (fun _ _ _ hw hm =>
      ⟨hm.linked hw.1, hm.coherent hw.1 hw.2.1, hw.2.2.move hw.1 hw.2.1 hscope hm⟩)
    ⟨hl, hc, h⟩).2.2

/-- Objects stored under other keys than the master keys. -/
theorem of_keeps {db : Db} {bucket bucket' : Bucket} (h : Served ⟨db, bucket⟩)
    (hk : bucket.Keeps bucket')
    (hmaster : ∀ v, bucket' (buildHlsMasterKey v) = bucket (buildHlsMasterKey v)) :
    Served ⟨db, bucket'⟩ where
  published := h.published.of_same rfl rfl hmaster
  stored := by
    intro rid r hr hstatus
    obtain ⟨key, hkey, hsome⟩ := h.stored rid r hr hstatus
    exact ⟨key, hkey, hk key hsome⟩

end Served

theorem Move.unstarted {scope : Scope} {w w' : World} {es : List Settlement}
    (hm : Move scope w es w') (hl : w.db.Linked) (h : w.db.Unstarted) : w'.db.Unstarted := by
  cases hm with
  | heartbeat now hget hrun => exact h
  | outbox _ hmessages => exact h
  | uploadFailed error _ hopen => exact h
  | @settled loaded o publication db' _ hs =>
    intro vid video hv hnil
    by_cases hvid : vid = loaded.rendition.videoId
    · -- its video has at least the settled rendition
      subst hvid
      rw [hs.renditionsOf, List.map_eq_nil_iff] at hnil
      have hmem := loaded.mem_renditionsOf
      rw [hnil] at hmem
      cases hmem
    · rw [hs.get?_video_of_ne hvid] at hv
      rw [hs.renditionsOf_of_ne hvid] at hnil
      exact h vid video hv hnil
  | @created videoId sessionId video session hvideo hsession huploading _ _ _ =>
    intro vid v hv hnil
    rw [Table.get?_insert] at hv
    by_cases hvid : vid = videoId
    · -- a new video is being uploaded
      rw [if_pos hvid, Option.some.injEq] at hv
      rw [← hv]
      exact Or.inl huploading
    · rw [if_neg hvid] at hv
      exact h vid v hv hnil
  | @completed videoId _ _ _ _ _ _ _ _ _ hopen hc =>
    intro vid v hv hnil
    by_cases hvid : vid = videoId
    · -- a completed upload has its renditions
      rw [hvid] at hnil
      exact absurd hnil (hc.renditionsOf_ne_nil (hopen.renditionsOf_eq_nil hl))
    · rw [hc.videos, Table.get?_modify_of_ne hvid] at hv
      rw [hc.renditionsOf_of_ne hvid] at hnil
      exact h vid v hv hnil
  | @aborted videoId sessionId video session now _ hopen =>
    intro vid v hv hnil
    simp only [Db.setSession, Db.setVideo, Table.get?_modify] at hv
    by_cases hvid : vid = videoId
    · -- an aborted one is failed
      rw [if_pos hvid, Option.map_eq_some_iff] at hv
      obtain ⟨v₀, -, rfl⟩ := hv
      exact Or.inr rfl
    · rw [if_neg hvid] at hv
      exact h vid v hv hnil

/-! ### What the system keeps -/

/-- The encoder of every execution lists its segments. -/
def EncoderListsSegments (_ : System) : Action → Prop
  | .work _ (.encoded output) => output.ListsItsSegments
  | _ => True

instance (s : System) (a : Action) : Decidable (EncoderListsSegments s a) := by
  unfold EncoderListsSegments
  split <;> exact inferInstance

/-- **The bucket, the rows and the workers agree** on what has been uploaded. -/
structure Stocked (s : System) : Prop where
  served : Served s.world
  whole : PlaylistsWhole s.bucket
  uploaded : ∀ w, (s.workers w).Uploaded s.bucket
  described : ∀ w e, (s.workers w).execution = some e → Described s.db e.context

theorem Stocked.start : Stocked System.start where
  served := Served.empty
  whole := fun _ _ _ _ _ h => by cases h
  uploaded := fun _ => trivial
  described := fun _ _ h => by cases h

/-- An execution after a step goes on from one before it, or has just been granted
its claim. -/
theorem WorkerMove.context {w w' : World} {claims : UUID → ℕ} {workerId : String}
    {m : EncodingJobMessage} {phase phase' : Phase} {action : WorkerAction} {events : List Event}
    (h : WorkerMove w claims workerId m phase action w' phase' events) {e' : Execution}
    (he' : phase'.execution = some e') :
    (∃ e, phase.execution = some e ∧ e'.context = e.context) ∨
      ∃ (loaded : LoadedJob w.db) (now : Timestamp),
        e'.context = buildEncodingContext loaded workerId now := by
  cases h with
  | @claimed loaded checkedAt now db' hid hs =>
    obtain rfl := Option.some.inj he'
    exact Or.inr ⟨loaded, now, rfl⟩
  | beaten hcontext hclaim =>
    obtain rfl := Option.some.inj he'
    exact Or.inl ⟨_, rfl, hcontext⟩
  | beatenFailing hcontext hclaim =>
    obtain rfl := Option.some.inj he'
    exact Or.inl ⟨_, rfl, hcontext⟩
  | processed h =>
    rcases (processStep_move h).execution with he | hnone
    · exact Or.inl ⟨_, rfl, by rw [← Option.some.inj (he.symm.trans he')]⟩
    · rw [hnone] at he'
      cases he'
  | _ => cases he'

theorem System.Stepped.described {s t : System} {a : Action} (h : System.Stepped s a t)
    (hl : s.db.Linked)
    (hd : ∀ w e, (s.workers w).execution = some e → Described s.db e.context) :
    ∀ w e, (t.workers w).execution = some e → Described t.db e.context := by
  have hkeep : ∀ {context}, Described s.db context → Described t.db context := by
    intro context hctx
    exact h.keep_db (I := fun db => Described db context) hl
      (fun _ _ _ hlinked hctx hm => hctx.move hm hlinked) hctx
  intro w e' he'
  have hstepped := h.worker w
  generalize t.workers w = v at he' hstepped
  cases hstepped with
  | same => exact hkeep (hd w e' he')
  | received m => cases he'
  | moved ha hw hmove =>
    rcases hmove.context he' with ⟨e, he, hctx⟩ | ⟨loaded, now, hctx⟩
    · rw [hctx]
      exact hkeep (hd w e (by rw [hw]; exact he))
    · rw [hctx]
      exact hkeep (Described.claimed hl loaded w now)
  | disconnected hw => exact hkeep (hd w e' (by rw [hw]; exact he'))
  | free hv => rcases hv with rfl | rfl <;> cases he'

/-- **A step of a worker** keeps what is served up to date and the playlists whole,
loses no object, and keeps the account of the worker's uploads. -/
theorem WorkerMove.stocked {w w' : World} {claims : UUID → ℕ} {workerId : String}
    {m : EncodingJobMessage} {phase phase' : Phase} {action : WorkerAction} {events : List Event}
    (h : WorkerMove w claims workerId m phase action w' phase' events)
    (hlists : ∀ output, action = .encoded output → output.ListsItsSegments)
    (hl : w.db.Linked) (hc : w.db.Coherent) (hserved : Served w) (hwhole : PlaylistsWhole w.bucket)
    (huploaded : phase.Uploaded w.bucket)
    (hdescribed : ∀ e, phase.execution = some e → Described w.db e.context) :
    Served w' ∧ PlaylistsWhole w'.bucket ∧ w.bucket.Keeps w'.bucket ∧
      phase'.Uploaded w'.bucket := by
  have hkeeps := Bucket.Keeps.refl w.bucket
  have hbeat : ∀ e now, Served ⟨(beat w.db e now).1, w.bucket⟩ := fun e now =>
    hserved.chain hl hc (fun _ _ _ _ (hs : False) => hs.elim) (beat_chain w e now Scope.none)
  have hstore : ∀ {loaded : LoadedJob w.db} {o publication db'},
      Settled loaded o publication db' →
      PlaylistsWhole ((publication.getD .notReady).store w.bucket) := by
    intro loaded o publication db' hs
    cases publication with
    | none => exact hwhole
    | some p =>
      obtain ⟨uploadOk, hp⟩ := hs.published p rfl
      exact hwhole.store hp
  cases h with
  | requeued => exact ⟨hserved, hwhole, hkeeps, trivial⟩
  | mismatched _ => exact ⟨hserved, hwhole, hkeeps, trivial⟩
  | notClaimable _ => exact ⟨hserved, hwhole, hkeeps, trivial⟩
  | unchanged _ => exact ⟨hserved, hwhole, hkeeps, trivial⟩
  | exhausted hid hs =>
    exact ⟨hserved.settled hc hs nofun fun _ => Or.inr rfl, hwhole, hkeeps, trivial⟩
  | claimed hid hs =>
    exact ⟨hserved.settled hc hs nofun fun _ => Or.inl rfl, hwhole, hkeeps, trivial⟩
  | @beaten e e' progress action now hcontext hclaim =>
    refine ⟨hbeat e now, hwhole, hkeeps, ?_⟩
    cases progress with
    | uploading metadata output todo =>
      simp only [Phase.Uploaded, hcontext]
      exact huploaded
    | _ => trivial
  | @beatenFailing e e' error action now hcontext hclaim =>
    exact ⟨hbeat e now, hwhole, hkeeps, trivial⟩
  | processed hstep =>
    obtain ⟨hw, hk, hu, hmaster⟩ :=
      (processStep_move hstep).uploaded hlists hwhole huploaded
    exact ⟨hserved.of_keeps hk hmaster, hw, hk, hu⟩
  | @concluded phase action e o loaded publication db' answer hconc hcommits hid howns hs hpub =>
    refine ⟨hserved.settled hc hs ?_ ?_, hstore hs, Bucket.Keeps.store _ _, trivial⟩
    · intro outputPath now ho
      subst ho
      cases hconc with
      | done hreason =>
        obtain ⟨key, hpath, hkey, hsome⟩ := huploaded hreason
        obtain ⟨hv, hres⟩ := (hdescribed e rfl).loaded loaded hid
        exact ⟨key, hpath, by rw [hv, hres]; exact hkey, hsome⟩
    · intro hp
      left
      rw [(o.paired loaded.job loaded.rendition).isActive]
      exact hpub hp
  | @rolledBack phase action e o loaded publication db' hconc howns hs =>
    refine ⟨⟨hserved.published.rolledBack hc hs, ?_⟩, hstore hs, Bucket.Keeps.store _ _, trivial⟩
    intro rid r hr hstatus
    obtain ⟨key, hkey, hsome⟩ := hserved.stored rid r hr hstatus
    exact ⟨key, hkey, Bucket.Keeps.store _ _ key hsome⟩

/-- What a batch of the reaper settles leaves nothing to publish that is due. -/
theorem reapScope_served {db₀ : Db} {stale : List UUID} (db : Db) (loaded : LoadedJob db)
    (o : Outcome) (p : Option Publication) (h : (reapScope db₀ stale).settles db loaded o p) :
    (∀ outputPath now, o ≠ .done outputPath now) ∧
      (p = none → (o.rendition loaded.rendition).status.isActive = true ∨
        (o.rendition loaded.rendition).status = .failed) := by
  obtain ⟨-, -, -, ⟨-, now, nextRunAt, rfl⟩ | ⟨-, now, rfl⟩⟩ := h
  · exact ⟨nofun, fun _ => Or.inl rfl⟩
  · exact ⟨nofun, fun _ => Or.inr rfl⟩

/-- What is served stays up to date in every step. -/
theorem System.Stepped.stocked {s t : System} {a : Action} (h : System.Stepped s a t)
    (hguard : EncoderListsSegments s a) (hl : s.db.Linked) (hc : s.db.Coherent)
    (hst : Stocked s) : Stocked t := by
  have hdescribed := h.described hl hst.described
  have hupdate : ∀ {worker : String} {v : Worker} {bucket : Bucket}, v.Uploaded bucket →
      s.bucket.Keeps bucket → ∀ w, (Function.update s.workers worker v w).Uploaded bucket :=
    fun hv hk => (Function.forall_update_iff _ (p := fun _ v => Worker.Uploaded _ v)).mpr
      ⟨hv, fun w _ => (hst.uploaded w).mono hk⟩
  have hkeeps := Bucket.Keeps.refl s.bucket
  cases h with
  | @requested op hop =>
    obtain ⟨es, hes, -⟩ := op.exec_chain (w := s.world) hl
    have hbucket : (op.exec s.world).1.bucket = s.bucket := Op.bucket_exec hop
    refine ⟨hst.served.chain hl hc (fun _ _ _ _ hs => absurd hs (Op.not_settles hop _ _ _ _)) hes,
      ?_, ?_, hdescribed⟩
    · exact hbucket ▸ hst.whole
    · exact hbucket ▸ hst.uploaded
  | delivered hw hready => exact ⟨hst.served, hst.whole, hupdate trivial hkeeps, hdescribed⟩
  | @worked worker m phase phase' connected action db' bucket' events hw hmove =>
    have hphase := hst.uploaded worker
    rw [hw] at hphase
    obtain ⟨hs, hwhole, hk, hu⟩ := hmove.stocked
      (fun output ho => by rw [ho] at hguard; exact hguard) hl hc hst.served hst.whole hphase
      fun e he => hst.described worker e (by rw [hw]; exact he)
    exact ⟨hs, hwhole, hupdate hu hk, hdescribed⟩
  | @settled worker m action connected hw =>
    refine ⟨hst.served, hst.whole, hupdate ?_ hkeeps, hdescribed⟩
    cases connected <;> trivial
  | @disconnected worker m phase hw =>
    have hphase := hst.uploaded worker
    rw [hw] at hphase
    exact ⟨hst.served, hst.whole, hupdate hphase hkeeps, hdescribed⟩
  | crashed => exact ⟨hst.served, hst.whole, hupdate trivial hkeeps, hdescribed⟩
  | @committed index openError closeError pass hpass hcomplete =>
    refine ⟨?_, hst.whole, hst.uploaded, hdescribed⟩
    show Served ⟨pass.commit openError closeError s.db, s.bucket⟩
    rw [Pass.commit_eq]
    have hview : (pass.commit openError closeError s.db).outboxMessages.view
        OutboxMessage.toEncodingJobMessage =
      s.db.outboxMessages.view OutboxMessage.toEncodingJobMessage :=
      Pass.view_commit openError closeError s.db
    have hmove : Move { Scope.none with rewritesOutbox := True } s.world [] _ :=
      Move.outbox trivial hview
    exact hst.served.move hl hc (fun _ _ _ _ (hs : False) => hs.elim) hmove
  | reaped hreap =>
    obtain ⟨es, hes, -, -⟩ := reap_chain (w := s.world) hreap
    exact ⟨hst.served.chain hl hc reapScope_served (hes.mono fun _ _ _ => SettleMove.move),
      hst.whole, hst.uploaded, hdescribed⟩
  | opened hrows => exact ⟨hst.served, hst.whole, hst.uploaded, hdescribed⟩
  | published hpass hrow haccepted => exact ⟨hst.served, hst.whole, hst.uploaded, hdescribed⟩
  | abandoned => exact ⟨hst.served, hst.whole, hst.uploaded, hdescribed⟩
  | unopened => exact hst
  | unreaped => exact hst

namespace ReachableSystem

variable {guard : System → Action → Prop} {s : System}

/-- The rows agree in every state of the system. -/
theorem coherent (h : ReachableSystem guard s) : s.db.Coherent :=
  h.invariant_db Db.Coherent.empty fun _ _ _ hl hi hm => hm.coherent hl hi

theorem unstarted (h : ReachableSystem guard s) : s.db.Unstarted :=
  h.invariant_db (I := Db.Unstarted) (fun _ _ hv => by cases hv) fun _ _ _ hl hi hm =>
    hm.unstarted hl hi

theorem idleNotDone (h : ReachableSystem guard s) : s.db.IdleNotDone := by
  intro vid video hv hnil hdone
  rcases h.unstarted vid video hv hnil with hstatus | hstatus <;>
    rw [hstatus] at hdone <;> cases hdone

theorem stocked (h : ReachableSystem EncoderListsSegments s) : Stocked s := by
  refine Reaches.invariant_of (J := fun s => s.db.Linked ∧ s.db.Coherent) (I := Stocked)
    (fun _ hs => ⟨ReachableSystem.linked hs, ReachableSystem.coherent hs⟩) ?_ ?_ h
  · rintro _ rfl
    exact Stocked.start
  · rintro s a _ hj hst hguard hstep
    obtain ⟨t, ht, rfl⟩ := System.step_cases hstep
    -- the clock is not looked at
    exact { ht.stocked hguard hj.1 hj.2 hst with }

end ReachableSystem

end RenditionPipeline
