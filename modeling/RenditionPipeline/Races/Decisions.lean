import RenditionPipeline.Races.Requests

/-!
# How an upload is decided

An upload session is decided when it is completed, aborted or failed, and that
should be the end of it: the session keeps its status, and its video has renditions
and jobs exactly if it is completed. A completion sees to that with its locks. An
abort has none. It writes the status that its storage call has given – `failed`, if
the call has raised – over whatever the session has become since, so that an abort
that is under way while the upload is completed turns `completed` into `failed`
(`RenditionPipeline.completed_then_failed`).

That is the only way in which a decision is lost
(`RenditionPipeline.session_decided_once`): an abort that commits over a session that
has been decided otherwise (`RenditionPipeline.UploadRace.overwrites`).
-/

namespace RenditionPipeline

/-- The session that an abort writes to, and the status that it writes. -/
def UploadRequest.writes (r : UploadRequest) : Option (UUID × UploadStatus) :=
  match r.session, r.answer with
  | some (sessionId, _), some (.aborted ok) => some (sessionId, UploadRequest.abortStatus ok)
  | _, _ => none

theorem UploadRequest.writes_of_aborted {r : UploadRequest} {sid : UUID} {session : UploadSession}
    {ok : Bool} (hsession : r.session = some (sid, session))
    (hanswer : r.answer = some (.aborted ok)) : r.writes = some (sid, abortStatus ok) := by
  rw [writes, hsession, hanswer]

theorem UploadRequest.writes_eq_some {r : UploadRequest} {sid : UUID} {status : UploadStatus}
    (h : r.writes = some (sid, status)) : ∃ session ok, r.session = some (sid, session) ∧
      r.answer = some (.aborted ok) ∧ status = abortStatus ok := by
  rw [UploadRequest.writes] at h
  split at h
  · rename_i sid' session ok hsession hanswer
    obtain ⟨rfl, rfl⟩ := Prod.mk.inj (Option.some.inj h)
    exact ⟨session, ok, hsession, hanswer, rfl⟩
  · cases h

/-- **An abort overwrites a decision**: when it commits, its session has been decided,
and not as the abort is to write it. -/
def UploadRace.overwrites (s : UploadRace) : UploadStep → Bool
  | .commit index _ _ _ _ =>
    match s.requests[index]? with
    | none => false
    | some r =>
      match r.writes with
      | none => false
      | some (sessionId, status) =>
        match s.world.db.uploadSessions.get? sessionId with
        | none => false
        | some session => session.status ≠ .active && session.status ≠ status
  | _ => false

/-- **The storage ends an upload once**: a call that returns has ended it, and it has
not been ended before. -/
def honestStorage (s : UploadRace) : UploadStep → Bool
  | .call index answer effective =>
    match s.requests[index]? with
    | none => true
    | some r =>
      match r.session with
      | none => true
      | some (_, session) =>
        let returned := match answer with
          | .completed answers => answers.complete
          | .aborted ok => ok
          | .refreshed _ => false
        if returned then
          effective && !s.ended.contains (session.objectKey, session.objectUploadId)
        else true
  | _ => true

/-! ### Sessions and work -/

/-- **Every video has one session.** -/
structure OneSession (db : Db) : Prop where
  session_video : ∀ sid s, db.uploadSessions.get? sid = some s →
    ∃ v, db.videos.get? s.videoId = some v
  video_session : ∀ vid v, db.videos.get? vid = some v →
    ∃ sid s, db.uploadSessions.get? sid = some s ∧ s.videoId = vid
  unique : ∀ sid sid' s s', db.uploadSessions.get? sid = some s →
    db.uploadSessions.get? sid' = some s' → s.videoId = s'.videoId → sid = sid'

/-- **Every video has one session, and has renditions exactly if it is completed.** -/
structure SessionsState (db : Db) : Prop extends OneSession db where
  decided : ∀ sid s, db.uploadSessions.get? sid = some s →
    (db.renditionsOf s.videoId ≠ [] ↔ s.status = .completed)

/-- **Decisions stay**: a session that has been decided keeps its status. -/
def DecisionsStay (db db' : Db) : Prop :=
  ∀ sid s, db.uploadSessions.get? sid = some s → s.status ≠ .active →
    ∃ s', db'.uploadSessions.get? sid = some s' ∧ s'.status = s.status

theorem DecisionsStay.refl (db : Db) : DecisionsStay db db := fun _ s hs _ => ⟨s, hs, rfl⟩

theorem DecisionsStay.trans {db db' db'' : Db} (h : DecisionsStay db db')
    (h' : DecisionsStay db' db'') : DecisionsStay db db'' := by
  intro sid s hs hne
  obtain ⟨s', hs', he⟩ := h sid s hs hne
  obtain ⟨s'', hs'', he'⟩ := h' sid s' hs' (by rw [he]; exact hne)
  exact ⟨s'', hs'', he'.trans he⟩

/-- One session is a matter of which videos there are, and whose the sessions are. -/
theorem OneSession.of_view {db db' : Db} (h : OneSession db)
    (hsessions : db'.uploadSessions.view UploadSession.videoId =
      db.uploadSessions.view UploadSession.videoId)
    (hvideos : ∀ vid, db'.videos.get? vid = none ↔ db.videos.get? vid = none) :
    OneSession db' where
  session_video := by
    intro sid s hs
    obtain ⟨s₀, hs₀, hvid⟩ := Table.get?_of_view_eq hsessions.symm hs
    obtain ⟨v, hv⟩ := h.session_video sid s₀ hs₀
    rw [hvid] at hv
    refine Option.ne_none_iff_exists'.mp fun hnone => ?_
    rw [hvideos, hv] at hnone
    cases hnone
  video_session := by
    intro vid v hv
    have hne : db.videos.get? vid ≠ none := fun hnone => by
      rw [(hvideos vid).mpr hnone] at hv
      cases hv
    obtain ⟨v₀, hv₀⟩ := Option.ne_none_iff_exists'.mp hne
    obtain ⟨sid, s₀, hs₀, hvid⟩ := h.video_session vid v₀ hv₀
    obtain ⟨s, hs, hvid'⟩ := Table.get?_of_view_eq hsessions hs₀
    exact ⟨sid, s, hs, hvid'.trans hvid⟩
  unique := by
    intro a b s s' ha hb he
    obtain ⟨s₀, ha₀, hva⟩ := Table.get?_of_view_eq hsessions.symm ha
    obtain ⟨s₀', hb₀, hvb⟩ := Table.get?_of_view_eq hsessions.symm hb
    exact h.unique a b s₀ s₀' ha₀ hb₀ (by rw [hva, hvb, he])

namespace SessionsState

variable {db db' : Db}

theorem empty : SessionsState Db.empty where
  session_video := fun _ _ h => by cases h
  video_session := fun _ _ h => by cases h
  unique := fun _ _ _ _ h => by cases h
  decided := fun _ _ h => by cases h

/-- What touches no session and gives no video its first rendition. -/
theorem of_same (h : SessionsState db) (hsessions : db'.uploadSessions = db.uploadSessions)
    (hvideos : ∀ vid, db'.videos.get? vid = none ↔ db.videos.get? vid = none)
    (hidle : ∀ vid, db'.renditionsOf vid = [] ↔ db.renditionsOf vid = []) :
    SessionsState db' where
  toOneSession := h.toOneSession.of_view (by rw [hsessions]) hvideos
  decided := by
    intro sid s hs
    rw [hsessions] at hs
    rw [← h.decided sid s hs]
    exact not_congr (hidle _)

/-- A new video with its session. -/
theorem created (h : SessionsState db) (hl : db.Linked) {videoId sessionId : UUID} {video : Video}
    {session : UploadSession} (hvideo : db.videos.get? videoId = none)
    (hsession : db.uploadSessions.get? sessionId = none) (hactive : session.status = .active)
    (hvid : session.videoId = videoId) :
    SessionsState { db with
      videos := db.videos.insert videoId video hvideo
      uploadSessions := db.uploadSessions.insert sessionId session hsession } := by
  -- the sessions that there were belong to the videos that there were
  have hold : ∀ sid s, db.uploadSessions.get? sid = some s → s.videoId ≠ videoId := by
    rintro sid s hs rfl
    obtain ⟨v, hv⟩ := h.session_video sid s hs
    rw [hvideo] at hv
    cases hv
  have hnil : db.renditionsOf videoId = [] := hl.renditionsOf_eq_nil_of_none hvideo
  have hcases : ∀ {sid s}, (db.uploadSessions.insert sessionId session hsession).get? sid =
      some s → (sid = sessionId ∧ s = session) ∨ db.uploadSessions.get? sid = some s :=
    (Table.get?_insert_eq_some_iff hsession).mp
  refine ⟨⟨fun sid s hs => ?_, fun vid v hv => ?_, fun sid sid' s s' hs hs' he => ?_⟩,
    fun sid s hs => ?_⟩
  · rcases hcases hs with ⟨-, rfl⟩ | hs
    · exact ⟨video, by rw [hvid, Table.get?_insert_self]⟩
    · obtain ⟨v, hv⟩ := h.session_video sid s hs
      exact ⟨v, Table.get?_insert_of_some hv _ hvideo⟩
  · rcases (Table.get?_insert_eq_some_iff hvideo).mp hv with ⟨he, -⟩ | hv
    · exact ⟨sessionId, session, Table.get?_insert_self _ _ _ hsession, hvid.trans he.symm⟩
    · obtain ⟨sid, s, hs, hsv⟩ := h.video_session vid v hv
      exact ⟨sid, s, Table.get?_insert_of_some hs _ hsession, hsv⟩
  · rcases hcases hs with ⟨hid, hnew⟩ | hs₀ <;> rcases hcases hs' with ⟨hid', hnew'⟩ | hs₀'
    · rw [hid, hid']
    · rw [hnew] at he
      exact absurd (he.symm.trans hvid) (hold _ _ hs₀')
    · rw [hnew'] at he
      exact absurd (he.trans hvid) (hold _ _ hs₀)
    · exact h.unique _ _ _ _ hs₀ hs₀' he
  · rcases hcases hs with ⟨-, rfl⟩ | hs
    · rw [hactive, hvid]
      exact iff_of_false (not_not.mpr hnil) nofun
    · exact h.decided sid s hs

/-- **A session that is ended without work**, if it had none. -/
theorem setSession (h : SessionsState db) {sid : UUID} {f : UploadSession → UploadSession}
    {status : UploadStatus} (hf : EndsAs f status) (hstatus : status ≠ .completed)
    (hnot : ∀ s, db.uploadSessions.get? sid = some s → s.status ≠ .completed) :
    SessionsState (db.setSession sid f) where
  toOneSession := h.toOneSession.of_view (Table.view_modify fun s _ => (hf s).2) fun _ => Iff.rfl
  decided := by
    intro sid' s' hs'
    show db.renditionsOf s'.videoId ≠ [] ↔ s'.status = .completed
    by_cases he : sid' = sid
    · rw [he, Db.setSession, Table.get?_modify_self, Option.map_eq_some_iff] at hs'
      obtain ⟨s, hs, rfl⟩ := hs'
      rw [(hf s).1, (hf s).2, h.decided sid s hs]
      exact iff_of_false (hnot s hs) hstatus
    · rw [Db.setSession, Table.get?_modify_of_ne he] at hs'
      exact h.decided sid' s' hs'

/-- **A completed upload.** -/
theorem completed (h : SessionsState db) {videoId sid : UUID} {maxAttempts : ℕ}
    {uploadedAt completedAt : Timestamp} {works : List Work} {session : UploadSession}
    (hnil : db.renditionsOf videoId = []) (hs : db.uploadSessions.get? sid = some session)
    (hvid : session.videoId = videoId)
    (hc : Completed db videoId sid maxAttempts uploadedAt completedAt works db') :
    SessionsState db' where
  toOneSession := by
    refine h.toOneSession.of_view ?_ fun vid => ?_
    · rw [hc.uploadSessions]
      exact Table.view_modify fun _ _ => rfl
    · rw [hc.videos]
      exact Table.get?_modify_eq_none_iff
  decided := by
    intro sid' s' hs'
    by_cases he : sid' = sid
    · rw [he, hc.uploadSessions, Table.get?_modify_self, hs, Option.map_some,
        Option.some.injEq] at hs'
      rw [← hs']
      refine iff_of_true ?_ rfl
      show db'.renditionsOf session.videoId ≠ []
      rw [hvid]
      exact hc.renditionsOf_ne_nil hnil
    · rw [hc.uploadSessions, Table.get?_modify_of_ne he] at hs'
      rw [hc.renditionsOf_of_ne]
      · exact h.decided sid' s' hs'
      · intro hsv
        exact he (h.unique _ _ _ _ hs' hs (hsv.trans hvid.symm))

end SessionsState

/-! ### Decisions along a race -/

/-- A move that ends no upload keeps sessions and work together. -/
theorem Move.sessionsState {scope : Scope} {w w' : World} {e : List Settlement}
    (hscope : ∀ status, ¬ scope.endsUpload status) (hl : w.db.Linked) (hm : Move scope w e w')
    (h : SessionsState w.db) : SessionsState w'.db := by
  cases hm with
  | heartbeat now hget hrun => exact h.of_same rfl (fun _ => Iff.rfl) fun _ => Iff.rfl
  | settled _ hs =>
    have hshape := hs.sameShape hl.toReferenced
    refine h.of_same hs.uploadSessions (fun vid => ?_) hshape.renditionsOf_eq_nil_iff
    have hview := congrFun hshape.videos vid
    rw [← Table.view_eq_none_iff (f := Video.isUploading), hview, Table.view_eq_none_iff]
  | outbox _ hmessages => exact h.of_same rfl (fun _ => Iff.rfl) fun _ => Iff.rfl
  | created hvideo hsession _ _ hactive hvid => exact h.created hl hvideo hsession hactive hvid
  | completed hends _ _ => exact absurd hends (hscope _)
  | uploadFailed error hends _ => exact absurd hends (hscope _)
  | aborted now hends _ => exact absurd hends (hscope _)

/-- An operation that ends no upload keeps sessions and work together. -/
theorem Op.sessionsState {w : World} {op : Op} (hl : w.db.Linked) (hop : op.endsUpload = false)
    (h : SessionsState w.db) : SessionsState (op.exec w).1.db := by
  obtain ⟨es, hes, -⟩ := op.exec_chain hl
  refine (hes.keep (I := fun w' => w'.db.Linked ∧ SessionsState w'.db) ?_ ⟨hl, h⟩).2
  exact fun _ _ _ hw hm =>
    ⟨hm.linked hw.1, hm.sessionsState (Op.not_endsUpload hop) hw.1 hw.2⟩

/-- A session that is written with the status that it has, or that it has not been
decided. -/
theorem DecisionsStay.setSession {db : Db} {sid : UUID} {f : UploadSession → UploadSession}
    {status : UploadStatus} (hf : EndsAs f status) (h : ∀ s, db.uploadSessions.get? sid = some s →
      s.status = .active ∨ s.status = status) : DecisionsStay db (db.setSession sid f) := by
  intro sid' s hs hne
  rw [Db.setSession, Table.get?_modify]
  by_cases he : sid' = sid
  · rw [if_pos he, hs, Option.map_some]
    rw [he] at hs
    exact ⟨f s, rfl, (hf s).1.trans ((h s hs).resolve_left hne).symm⟩
  · exact ⟨s, by rw [if_neg he, hs], rfl⟩

section Commit

variable {db db' : Db} {r : UploadRequest} {created : Bool}

/-- **A commit that overwrites no decision** keeps sessions and work together, and
keeps the decisions. -/
theorem SessionsState.concluded (h : SessionsState db) (hl : db.Linked) (hunder : UnderWay db r)
    (hc : Concluded db r db' created) (hguard : ∀ sid status, r.writes = some (sid, status) →
      ∀ s, db.uploadSessions.get? sid = some s → s.status = .active ∨ s.status = status) :
    SessionsState db' ∧ DecisionsStay db db' := by
  -- a session that is locked is active
  have hlocked : r.call.locks = true → ∀ sid session, r.session = some (sid, session) →
      ∀ s, db.uploadSessions.get? sid = some s → s.status = .active := by
    intro hlocks sid session hsession s hs
    obtain rfl := Option.some.inj ((hunder.lockedSession hlocks sid session hsession).symm.trans hs)
    exact (hunder.active sid session hsession).2
  have hnot : ∀ {s : UploadSession} {status : UploadStatus}, status ≠ .completed →
      s.status = .active ∨ s.status = status → s.status ≠ .completed := by
    rintro s status hne (hs | hs) he
    · rw [hs] at he
      cases he
    · exact hne (hs.symm.trans he)
  cases hc with
  | unchanged => exact ⟨h, DecisionsStay.refl db⟩
  | @failed sid session f hsession hwriter hf =>
    have hover : ∀ s, db.uploadSessions.get? sid = some s →
        s.status = .active ∨ s.status = .failed := by
      rcases hwriter with hlocks | hanswer
      · exact fun s hs => Or.inl (hlocked hlocks _ _ hsession s hs)
      · exact hguard _ _ (UploadRequest.writes_of_aborted hsession hanswer)
    exact ⟨h.setSession hf (by decide) fun s hs => hnot (by decide) (hover s hs),
      DecisionsStay.setSession hf hover⟩
  | @aborted sid session fv f hsession hanswer hfv hf =>
    have hover : ∀ s, db.uploadSessions.get? sid = some s →
        s.status = .active ∨ s.status = .aborted :=
      hguard _ _ (UploadRequest.writes_of_aborted hsession hanswer)
    have hvideo : SessionsState (db.setVideo r.videoId fv) :=
      h.of_same rfl (fun _ => Table.get?_modify_eq_none_iff) fun _ => Iff.rfl
    have hstay : DecisionsStay (db.setVideo r.videoId fv)
        ((db.setVideo r.videoId fv).setSession sid f) := DecisionsStay.setSession hf hover
    exact ⟨hvideo.setSession hf (by decide) fun s hs => hnot (by decide) (hover s hs), hstay⟩
  | @completed sid session _ _ completedAt _ _ hsession hlocks hcomp =>
    have hup := (hunder.active sid session hsession).1
    have hnil := hl.renditionsOf_eq_nil (hunder.lockedVideo hlocks hup) hup
    obtain ⟨s, hs, hvid⟩ := hunder.owned sid session hsession
    refine ⟨h.completed hnil hs hvid hcomp, ?_⟩
    have hstay : DecisionsStay db (db.setSession sid (completedSession completedAt)) :=
      DecisionsStay.setSession (fun _ => ⟨rfl, rfl⟩)
        fun s hs => Or.inl (hlocked hlocks _ _ hsession s hs)
    rw [DecisionsStay, hcomp.uploadSessions]
    exact hstay

end Commit

/-- What a step that overwrites no decision commits. -/
theorem status_of_not_overwrites {s : UploadRace} {index : ℕ} {r : UploadRequest}
    {settings : Settings} {ids : IdStream} {uploadedAt now : Timestamp}
    (hr : s.requests[index]? = some r)
    (h : s.overwrites (.commit index settings ids uploadedAt now) = false) :
    ∀ sid status, r.writes = some (sid, status) → ∀ session,
      s.world.db.uploadSessions.get? sid = some session →
      session.status = .active ∨ session.status = status := by
  intro sid status hw session hs
  simp only [UploadRace.overwrites, hr, hw, hs, Bool.and_eq_false_iff, decide_eq_false_iff_not,
    not_not] at h
  exact h

/-- The step lemma. -/
theorem SessionsState.step {s s' : UploadRace} {a : UploadStep} (hs : RequestsState s)
    (h : SessionsState s.world.db) (hguard : s.overwrites a = false)
    (hstep : s.step a = some s') :
    SessionsState s'.world.db ∧ DecisionsStay s.world.db s'.world.db := by
  cases UploadRace.step_cases hstep with
  | ran hop =>
    refine ⟨Op.sessionsState hs.linked hop h, fun sid session hsession _ => ?_⟩
    exact ⟨session, (Op.spares hs.linked hop).2.session sid session hsession, rfl⟩
  | @committed index r settings ids uploadedAt now hr hwait =>
    have hunder := hs.underWay r (List.mem_of_getElem? hr)
    exact h.concluded hs.linked hunder (r.concluded hs.linked hunder settings ids uploadedAt now)
      (status_of_not_overwrites hr hguard)
  | _ => exact ⟨h, DecisionsStay.refl _⟩

/-- The steps that overwrite no decision. -/
abbrev KeepsDecisions (s : UploadRace) (a : UploadStep) : Prop := s.overwrites a = false

theorem ReachableRace.sessionsState {s : UploadRace} (h : ReachableRace KeepsDecisions s) :
    SessionsState s.world.db := by
  refine Reaches.invariant_of (J := RequestsState) (I := fun s => SessionsState s.world.db)
    (fun s hs => ReachableRace.requestsState hs) ?_ ?_ h
  · rintro _ rfl
    exact SessionsState.empty
  · exact fun s a s' hs hi hg hstep => (hi.step hs hg hstep).1

/-- **Decisions stay along a race.** -/
theorem ReachableRace.decisionsStay {s s' : UploadRace} (h : ReachableRace KeepsDecisions s)
    (h' : Reaches UploadRace.step KeepsDecisions (· = s) s') :
    DecisionsStay s.world.db s'.world.db := by
  refine (Reaches.invariant (I := fun t => RequestsState t ∧ SessionsState t.world.db ∧
    DecisionsStay s.world.db t.world.db) ?_ ?_ h').2.2
  · rintro _ rfl
    exact ⟨ReachableRace.requestsState h, ReachableRace.sessionsState h, DecisionsStay.refl _⟩
  · rintro t a t' ⟨ht, hi, hd⟩ hg hstep
    obtain ⟨hi', hd'⟩ := hi.step ht hg hstep
    exact ⟨ht.step hstep, hi', hd.trans hd'⟩

/-- **A decision that is overwritten is lost**: the session has another status. -/
theorem lost_of_overwrites {s s' : UploadRace} {a : UploadStep} (hs : RequestsState s)
    (hover : s.overwrites a = true) (hstep : s.step a = some s') :
    ¬ DecisionsStay s.world.db s'.world.db := by
  cases UploadRace.step_cases hstep with
  | @committed index r settings ids uploadedAt now hr hwait =>
    simp only [UploadRace.overwrites, hr] at hover
    split at hover
    · cases hover
    rename_i sid status hw
    split at hover
    · cases hover
    rename_i session hsession
    rw [Bool.and_eq_true, decide_eq_true_iff, decide_eq_true_iff] at hover
    intro hstay
    obtain ⟨session', hget, hsame⟩ := hstay sid session hsession hover.1
    obtain ⟨session₀, ok, hsession₀, hanswer, rfl⟩ := UploadRequest.writes_eq_some hw
    have hunder := hs.underWay r (List.mem_of_getElem? hr)
    obtain ⟨fv, f, -, hf, he⟩ :=
      UploadRequest.commit_of_aborted hunder hsession₀ hanswer settings ids uploadedAt now
    have hwritten : (r.commit settings s.world.db ids uploadedAt now).1.uploadSessions.get? sid =
        some (f session) := by
      rw [he]
      show Table.get? (Table.modify (ite _ _ _ : Db).uploadSessions sid f) sid = _
      rw [Table.get?_modify_self]
      cases ok <;> exact congrArg (Option.map f) hsession
    obtain rfl := Option.some.inj (hwritten.symm.trans hget)
    exact hover.2 (hsame.symm.trans (hf session).1)
  | _ => cases hover

/-- **A session is decided once**, in every race in which no abort commits over a
session that has been decided otherwise: it keeps the status that it has been given,
and the video has renditions and jobs exactly if its session is completed. The first
abort that commits over another decision undoes it. -/
theorem session_decided_once {s : UploadRace} (h : ReachableRace KeepsDecisions s) :
    (∀ videoId video, s.world.db.videos.get? videoId = some video →
      ∃ sid session, s.world.db.uploadSessions.get? sid = some session ∧
        session.videoId = videoId ∧
        (∀ sid' session', s.world.db.uploadSessions.get? sid' = some session' →
          session'.videoId = videoId → sid' = sid) ∧
        (s.world.db.renditionsOf videoId ≠ [] ↔ session.status = .completed) ∧
        ((∃ jobId job, s.world.db.jobs.get? jobId = some job ∧ job.videoId = videoId) ↔
          session.status = .completed)) ∧
    (∀ s', Reaches UploadRace.step KeepsDecisions (· = s) s' →
      DecisionsStay s.world.db s'.world.db) ∧
    (∀ a s', s.overwrites a = true → s.step a = some s' →
      ¬ DecisionsStay s.world.db s'.world.db) := by
  have hl := (ReachableRace.requestsState h).linked
  refine ⟨fun videoId video hv => ?_, fun s' h' => ReachableRace.decisionsStay h h',
    fun a s' => lost_of_overwrites (ReachableRace.requestsState h)⟩
  have hi := ReachableRace.sessionsState h
  obtain ⟨sid, session, hs, hvid⟩ := hi.video_session videoId video hv
  have hdecided := hi.decided sid session hs
  rw [hvid] at hdecided
  refine ⟨sid, session, hs, hvid, fun sid' session' hs' hvid' => ?_, hdecided, ?_⟩
  · exact hi.unique _ _ _ _ hs' hs (hvid'.trans hvid.symm)
  · rw [← hdecided]
    constructor
    · rintro ⟨jobId, job, hj, hjv⟩ hnil
      exact (hl.noWork hnil).job jobId job hj hjv
    · intro hne
      obtain ⟨p, hp⟩ := List.exists_mem_of_ne_nil _ hne
      obtain ⟨jobId, messageId, hw⟩ := (hl.fannedOut hne).work p hp
      obtain ⟨job, hj, hjv, -⟩ := hw.job
      exact ⟨jobId, job, hj, hjv⟩

/-- An upload is completed while its addresses are refreshed. -/
theorem session_decided_once_refreshed : ∃ s video, ReachableRace KeepsDecisions s ∧
    s.world.db.videos.get? (sampleId 0) = some video ∧
      ∃ sid session, s.world.db.uploadSessions.get? sid = some session ∧
        (s.world.db.renditionsOf (sampleId 0) ≠ [] ↔ session.status = .completed) := by
  obtain ⟨s, hs⟩ : ∃ s, guardedRun UploadRace.step KeepsDecisions UploadRace.start
      [.run (.createVideoUpload "media" "clip.mp4" "video/mp4" 10 1
          (fun key => some ⟨"media", key, "upload", []⟩) sampleId 0),
        .begin (.complete [⟨1, "etag"⟩]) (sampleId 0), .begin (.refresh 1) (sampleId 0),
        .readSession 1, .readSession 0, .call 0 (.refreshed true) false,
        .call 1 (.completed ⟨true, some (some ⟨10, some "video/mp4"⟩), true⟩) true,
        .commit 1 sampleSettings (fun n => sampleId (10 + n)) 1 1, .leave 0] = some s := ⟨_, rfl⟩
  have hstart : ReachableRace KeepsDecisions UploadRace.start := Reaches.start rfl
  have hreach := hstart.of_guardedRun hs
  obtain ⟨video, hv⟩ : ∃ video, s.world.db.videos.get? (sampleId 0) = some video := by
    obtain rfl := Option.some.inj hs
    exact ⟨_, rfl⟩
  obtain ⟨sid, session, hsession, -, -, hdecided, -⟩ :=
    (session_decided_once hreach).1 (sampleId 0) video hv
  exact ⟨s, video, hreach, hv, sid, session, hsession, hdecided⟩

/-- The steps in which the storage ends an upload once. -/
abbrev HonestStorage (s : UploadRace) (a : UploadStep) : Prop := honestStorage s a = true

/-- **An abort turns a completed upload into a failed one.** It has read the active
session; the upload is completed, with its work; the storage refuses to abort what
has been completed; and the abort writes `failed` over `completed`. -/
theorem completed_then_failed :
    ¬ ∀ s, ReachableRace HonestStorage s →
      (∀ s', Reaches UploadRace.step HonestStorage (· = s) s' →
        DecisionsStay s.world.db s'.world.db) ∧
      (s.requests = [] → ∀ sid session, s.world.db.uploadSessions.get? sid = some session →
        (s.world.db.renditionsOf session.videoId ≠ [] ↔ session.status = .completed)) := by
  intro h
  obtain ⟨s, hs⟩ : ∃ s, guardedRun UploadRace.step HonestStorage UploadRace.start
      (sampleRequests ++ [.commit 0 sampleSettings sampleId 2 2]) = some s := ⟨_, rfl⟩
  have hstart : ReachableRace HonestStorage UploadRace.start := Reaches.start rfl
  have hdecided := (h s (hstart.of_guardedRun hs)).2
  obtain rfl := Option.some.inj hs
  have hfailed := (hdecided rfl (sampleId 1) _ rfl).mp (by decide)
  cases hfailed

end RenditionPipeline
