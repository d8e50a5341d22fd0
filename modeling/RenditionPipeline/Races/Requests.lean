import RenditionPipeline.Races.Sessions
import RenditionPipeline.Runs.Operations

/-!
# Upload requests that overlap

A request that completes, aborts or refreshes an upload reads the video and its
session, calls the storage, and commits. Here each of these is a step of its own
(`RenditionPipeline.UploadRace.step`), so that any number of requests can be under
way at once, and between their steps the other operations run
(`RenditionPipeline.UploadStep.run`). A completion locks the rows that it reads – it
waits for another completion of the video, and then reads the row as committed –
and keeps the locks until it ends. An abort takes no lock: it writes back over
whatever is committed by then, and waits only for the locks of a completion.

What a completion has locked stays as it has read it
(`RenditionPipeline.UnderWay`), so that its commit completes an open upload, and the
work of a video is created once (`RenditionPipeline.work_created_once`).
-/

namespace RenditionPipeline

/-! ### The requests -/

/-- A request for an upload that has been created. -/
inductive RequestCall where
  | complete (parts : List CompletedUploadPart)
  | abort
  | refresh (partCount : ℤ)

/-- What the storage has answered to the calls of a request: for an abort and a
refresh, whether the call has returned. -/
inductive StorageAnswer where
  | completed (answers : CompletionAnswers)
  | aborted (ok : Bool)
  | refreshed (ok : Bool)

namespace RequestCall

/-- Whether a request locks what it reads. -/
def locks : RequestCall → Bool
  | complete _ => true
  | _ => false

/-- What a request checks once it has read the session. -/
def check (session : UploadSession) : RequestCall → Except Raised Unit
  | complete parts => validateCompletedUploadParts session parts
  | abort => .ok ()
  | refresh partCount =>
    if partCount ≠ session.partCount then
      .error (.videoUploadValidationError "refresh part count must match upload session")
    else .ok ()

/-- Whether an answer is one to the call of a request. -/
def expects : RequestCall → StorageAnswer → Bool
  | complete _, .completed _ => true
  | abort, .aborted _ => true
  | refresh _, .refreshed _ => true
  | _, _ => false

end RequestCall

/-- **A request under way**: the video as it has read it, and then the session and
the storage's answer. -/
structure UploadRequest where
  call : RequestCall
  videoId : UUID
  video : Video
  session : Option (UUID × UploadSession)
  answer : Option StorageAnswer

namespace UploadRequest

/-- The second query of a request, and its checks. -/
def readSession (r : UploadRequest) (db : Db) : Except Raised (UUID × UploadSession) := do
  let p ← getActiveUploadSession db r.videoId r.video
  r.call.check p.2
  return p

/-- The rows that a request works on: those that are committed, except that the
video and the session are as it has read them. -/
def view (r : UploadRequest) (db : Db) : Db :=
  let db := db.setVideo r.videoId fun _ => r.video
  match r.session with
  | none => db
  | some (sessionId, session) => db.setSession sessionId fun _ => session

/-- **What a request makes of its rows** after the storage has answered, and whether
it has created the work of the video. -/
def finish (settings : Settings) (r : UploadRequest) (db : Db) (ids : IdStream)
    (uploadedAt now : Timestamp) : Db × Bool :=
  match r.session, r.answer with
  | some (sessionId, session), some (.completed answers) =>
    match storageCompletion answers session with
    | .error e =>
      (db.setSession sessionId (failedSession (completionFailure answers e).1), false)
    | .ok () =>
      match finishCompletion settings db r.videoId sessionId ids uploadedAt now with
      | .error _ => (db, false)
      | .ok (db', _) => (db', true)
  | some (sessionId, _), some (.aborted ok) => (finishAbort db r.videoId sessionId ok now, false)
  | _, _ => (db, false)

/-- What a request commits, and whether it has created the work of the video. -/
def commit (settings : Settings) (r : UploadRequest) (db : Db) (ids : IdStream)
    (uploadedAt now : Timestamp) : Db × Bool :=
  let m := r.finish settings (r.view db) ids uploadedAt now
  (Db.flush (r.view db) m.1 db, m.2)

end UploadRequest

/-! ### The race -/

/-- The world, the requests under way, the multipart uploads that the storage has
completed or aborted, and the videos whose work has been created. -/
structure UploadRace where
  world : World
  requests : List UploadRequest
  ended : List (String × String)
  created : List UUID

/-- The race before any request. -/
def UploadRace.start : UploadRace := ⟨World.empty, [], [], []⟩

inductive UploadStep where
  /-- An operation that is no request for an upload that has been created. -/
  | run (op : Op)
  /-- A request reads the video. -/
  | begin (call : RequestCall) (videoId : UUID)
  /-- A request reads the session. -/
  | readSession (index : ℕ)
  /-- The storage answers, and may have ended the multipart upload. -/
  | call (index : ℕ) (answer : StorageAnswer) (effective : Bool)
  /-- A request writes back and commits. -/
  | commit (index : ℕ) (settings : Settings) (ids : IdStream) (uploadedAt now : Timestamp)
  /-- A request ends without a commit. -/
  | leave (index : ℕ)

namespace Op

/-- Whether an operation ends an upload. -/
def endsUpload : Op → Bool
  | completeVideoUpload _ _ _ _ _ _ _ => true
  | abortVideoUpload _ _ _ => true
  | _ => false

end Op

namespace UploadRace

/-- A completion that is under way locks the video. -/
def videoLocked (s : UploadRace) (videoId : UUID) : Bool :=
  s.requests.any fun r => r.call.locks && r.videoId = videoId

/-- A completion that is under way locks the session. -/
def sessionLocked (s : UploadRace) (sessionId : UUID) : Bool :=
  s.requests.any fun r => r.call.locks && (r.session.map Prod.fst) = some sessionId

/-- **An abort waits** for the locks on the rows that it writes. -/
def mustWait (s : UploadRace) (r : UploadRequest) : Bool :=
  match r.session, r.answer with
  | some (sessionId, _), some (.aborted ok) =>
    (ok && s.videoLocked r.videoId) || s.sessionLocked sessionId
  | _, _ => false

/-- **A step of the race.** -/
def step (s : UploadRace) : UploadStep → Option UploadRace
  | .run op => if op.endsUpload then none else some { s with world := (op.exec s.world).1 }
  | .begin call videoId =>
    if call.locks && s.videoLocked videoId then none
    else
      match s.world.db.videos.get? videoId with
      | none => some s
      | some video =>
        some { s with requests := ⟨call, videoId, video, none, none⟩ :: s.requests }
  | .readSession index =>
    match s.requests[index]? with
    | none => none
    | some r =>
      if r.session.isSome then none
      else
        match r.readSession s.world.db with
        | .error _ => some { s with requests := s.requests.eraseIdx index }
        | .ok p => some { s with requests := s.requests.set index { r with session := some p } }
  | .call index answer effective =>
    match s.requests[index]? with
    | none => none
    | some r =>
      match r.session with
      | none => none
      | some (_, session) =>
        if r.answer.isNone && r.call.expects answer then
          some { s with
            requests := s.requests.set index { r with answer := some answer }
            ended := if effective then (session.objectKey, session.objectUploadId) :: s.ended
              else s.ended }
        else none
  | .commit index settings ids uploadedAt now =>
    match s.requests[index]? with
    | none => none
    | some r =>
      if r.answer.isNone || s.mustWait r then none
      else
        let c := r.commit settings s.world.db ids uploadedAt now
        some { s with
          world := { s.world with db := c.1 }
          requests := s.requests.eraseIdx index
          created := if c.2 then r.videoId :: s.created else s.created }
  | .leave index =>
    match s.requests[index]? with
    | none => none
    | some _ => some { s with requests := s.requests.eraseIdx index }

/-- **What a step does.** -/
inductive Stepped (s : UploadRace) : UploadStep → UploadRace → Prop
  | ran {op : Op} (hop : op.endsUpload = false) :
      Stepped s (.run op) { s with world := (op.exec s.world).1 }
  | missed {call : RequestCall} {videoId : UUID} : Stepped s (.begin call videoId) s
  | began {call : RequestCall} {videoId : UUID} {video : Video}
      (hfree : call.locks = true → s.videoLocked videoId = false)
      (hv : s.world.db.videos.get? videoId = some video) :
      Stepped s (.begin call videoId)
        { s with requests := ⟨call, videoId, video, none, none⟩ :: s.requests }
  | refused {index : ℕ} :
      Stepped s (.readSession index) { s with requests := s.requests.eraseIdx index }
  | read {index : ℕ} {r : UploadRequest} {p : UUID × UploadSession}
      (hr : s.requests[index]? = some r) (hp : r.readSession s.world.db = .ok p) :
      Stepped s (.readSession index)
        { s with requests := s.requests.set index { r with session := some p } }
  | answered {index : ℕ} {r : UploadRequest} {answer : StorageAnswer} {effective : Bool}
      (hr : s.requests[index]? = some r) (hexpects : r.call.expects answer = true)
      (ended : List (String × String)) :
      Stepped s (.call index answer effective)
        { s with requests := s.requests.set index { r with answer := some answer }, ended := ended }
  | committed {index : ℕ} {r : UploadRequest} {settings : Settings} {ids : IdStream}
      {uploadedAt now : Timestamp} (hr : s.requests[index]? = some r)
      (hwait : s.mustWait r = false) :
      Stepped s (.commit index settings ids uploadedAt now)
        { s with
          world := { s.world with db := (r.commit settings s.world.db ids uploadedAt now).1 }
          requests := s.requests.eraseIdx index
          created := if (r.commit settings s.world.db ids uploadedAt now).2 then
            r.videoId :: s.created else s.created }
  | left {index : ℕ} : Stepped s (.leave index) { s with requests := s.requests.eraseIdx index }

/-- **Every step is one of these.** -/
theorem step_cases {s s' : UploadRace} {a : UploadStep} (h : s.step a = some s') :
    Stepped s a s' := by
  cases a with
  | run op =>
    simp only [step] at h
    split at h
    · cases h
    · rename_i hop
      obtain rfl := Option.some.inj h
      exact .ran (by simpa using hop)
  | begin call videoId =>
    simp only [step] at h
    split at h
    · cases h
    rename_i hfree
    split at h
    · obtain rfl := Option.some.inj h
      exact .missed
    · rename_i video hv
      obtain rfl := Option.some.inj h
      exact .began (fun hlocks => by simpa [hlocks] using hfree) hv
  | readSession index =>
    simp only [step] at h
    split at h
    · cases h
    rename_i r hr
    split at h
    · cases h
    split at h
    · obtain rfl := Option.some.inj h
      exact .refused
    · rename_i p hp
      obtain rfl := Option.some.inj h
      exact .read hr hp
  | call index answer effective =>
    simp only [step] at h
    split at h
    · cases h
    rename_i r hr
    split at h
    · cases h
    split at h
    · rename_i hexpects
      obtain rfl := Option.some.inj h
      exact .answered hr (Bool.and_eq_true_iff.mp hexpects).2 _
    · cases h
  | commit index settings ids uploadedAt now =>
    simp only [step] at h
    split at h
    · cases h
    rename_i r hr
    split at h
    · cases h
    rename_i hwait
    rw [Bool.not_eq_true, Bool.or_eq_false_iff] at hwait
    obtain rfl := Option.some.inj h
    exact .committed hr hwait.2
  | leave index =>
    simp only [step] at h
    split at h
    · cases h
    · obtain rfl := Option.some.inj h
      exact .left

end UploadRace

/-! ### What the other operations leave alone -/

/-- **Uploads are left alone**: a video that is uploading stays as it is, and so does
every session; no video begins or ceases to be uploading, and none gets work. -/
structure Spares (db db' : Db) : Prop where
  video : ∀ vid v, db.videos.get? vid = some v → ∃ v', db'.videos.get? vid = some v' ∧
    v'.isUploading = v.isUploading ∧ (v.status = .uploading → v' = v)
  session : ∀ sid s, db.uploadSessions.get? sid = some s → db'.uploadSessions.get? sid = some s
  idle : ∀ vid, db'.renditionsOf vid = [] ↔ db.renditionsOf vid = []

namespace Spares

theorem refl (db : Db) : Spares db db :=
  ⟨fun _ v hv => ⟨v, hv, rfl, fun _ => rfl⟩, fun _ _ hs => hs, fun _ => Iff.rfl⟩

theorem trans {db db' db'' : Db} (h : Spares db db') (h' : Spares db' db'') :
    Spares db db'' where
  video := by
    intro vid v hv
    obtain ⟨v', hv', hup', hsame'⟩ := h.video vid v hv
    obtain ⟨v'', hv'', hup'', hsame''⟩ := h'.video vid v' hv'
    refine ⟨v'', hv'', hup''.trans hup', fun hu => ?_⟩
    obtain rfl := hsame' hu
    exact hsame'' hu
  session := fun sid s hs => h'.session sid s (h.session sid s hs)
  idle := fun vid => (h'.idle vid).trans (h.idle vid)

/-- What does not touch the videos, the sessions and the renditions. -/
theorem of_eq {db db' : Db} (hvideos : db'.videos = db.videos)
    (hsessions : db'.uploadSessions = db.uploadSessions)
    (hrenditions : db'.renditions = db.renditions) : Spares db db' where
  video := fun _ v hv => ⟨v, by rw [hvideos]; exact hv, rfl, fun _ => rfl⟩
  session := fun _ _ hs => by rw [hsessions]; exact hs
  idle := fun vid => by rw [Db.renditionsOf_congr hrenditions]

end Spares

/-- A settled job belongs to a video that is not uploading. -/
theorem Settled.spares {db db' : Db} {loaded : LoadedJob db} {o : Outcome}
    {publication : Option Publication} (hl : db.Linked) (h : Settled loaded o publication db') :
    Spares db db' where
  video := by
    intro vid v hv
    obtain ⟨v', hv', hup⟩ := (h.sameShape hl.toReferenced).get?_video hv
    refine ⟨v', hv', hup, fun hu => ?_⟩
    by_cases hvid : vid = loaded.rendition.videoId
    · obtain ⟨w, hw, hnot⟩ := hl.rendition_video _ _ loaded.get?_rendition
      obtain rfl : w = v := Option.some.inj (hw.symm.trans (by rw [← hvid]; exact hv))
      rw [Video.isUploading, hu] at hnot
      cases hnot
    · rw [h.get?_video_of_ne hvid, hv] at hv'
      exact (Option.some.inj hv').symm
  session := fun _ _ hs => by rw [h.uploadSessions]; exact hs
  idle := (h.sameShape hl.toReferenced).renditionsOf_eq_nil_iff

/-- **A move that ends no upload leaves uploads alone.** -/
theorem Move.spares {scope : Scope} {w w' : World} {e : List Settlement}
    (hscope : ∀ status, ¬ scope.endsUpload status) (hl : w.db.Linked) (hm : Move scope w e w') :
    Spares w.db w'.db := by
  cases hm with
  | heartbeat now hget hrun => exact Spares.of_eq rfl rfl rfl
  | settled _ hs => exact hs.spares hl
  | outbox _ hmessages => exact Spares.of_eq rfl rfl rfl
  | @created videoId sessionId video session hvideo hsession _ _ _ _ =>
    exact ⟨fun vid v hv => ⟨v, Table.get?_insert_of_some hv _ hvideo, rfl, fun _ => rfl⟩,
      fun sid s hs => Table.get?_insert_of_some hs _ hsession, fun vid => Iff.rfl⟩
  | completed hends _ _ => exact absurd hends (hscope _)
  | uploadFailed error hends _ => exact absurd hends (hscope _)
  | aborted now hends _ => exact absurd hends (hscope _)

/-- The operations that end no upload have no scope to do so. -/
theorem Op.not_endsUpload {w : World} {op : Op} (h : op.endsUpload = false)
    (status : UploadStatus) : ¬ (op.scope w).endsUpload status := by
  cases op with
  | completeVideoUpload settings answers videoId parts ids uploadedAt completedAt => cases h
  | abortVideoUpload videoId abortOk now => cases h
  | _ => exact fun hends => hends

/-- **An operation that ends no upload** keeps the references and leaves uploads
alone. -/
theorem Op.spares {w : World} {op : Op} (hl : w.db.Linked) (h : op.endsUpload = false) :
    (op.exec w).1.db.Linked ∧ Spares w.db (op.exec w).1.db := by
  obtain ⟨es, hes, -⟩ := op.exec_chain hl
  refine hes.keep (I := fun w' => w'.db.Linked ∧ Spares w.db w'.db) ?_ ⟨hl, Spares.refl _⟩
  exact fun w₁ e w₂ hw hm =>
    ⟨hm.linked hw.1, hw.2.trans (hm.spares (Op.not_endsUpload h) hw.1)⟩

/-! ### A request under way -/

/-- **A request under way and the committed rows**: its session was active and its
video uploading when they were read, and what it has locked is as it has read it. -/
structure UnderWay (db : Db) (r : UploadRequest) : Prop where
  answer : ∀ answer, r.answer = some answer → r.call.expects answer = true
  video : ∃ video, db.videos.get? r.videoId = some video
  active : ∀ sid session, r.session = some (sid, session) →
    r.video.status = .uploading ∧ session.status = .active
  owned : ∀ sid session, r.session = some (sid, session) →
    ∃ s, db.uploadSessions.get? sid = some s ∧ s.videoId = r.videoId
  lockedVideo : r.call.locks = true → r.video.status = .uploading →
    db.videos.get? r.videoId = some r.video
  lockedSession : r.call.locks = true → ∀ sid session, r.session = some (sid, session) →
    db.uploadSessions.get? sid = some session

/-- Only a completion is answered as one, and it locks. -/
theorem RequestCall.locks_of_expects {call : RequestCall} {answers : CompletionAnswers}
    (h : call.expects (.completed answers) = true) : call.locks = true := by
  cases call with
  | complete parts => rfl
  | _ => cases h

/-- What is left alone is still as a request has read it. -/
theorem UnderWay.spares {db db' : Db} {r : UploadRequest} (h : UnderWay db r)
    (hs : Spares db db') : UnderWay db' r where
  answer := h.answer
  video := by
    obtain ⟨v, hv⟩ := h.video
    obtain ⟨v', hv', -, -⟩ := hs.video _ v hv
    exact ⟨v', hv'⟩
  active := h.active
  owned := by
    intro sid session hr
    obtain ⟨s, hget, hvid⟩ := h.owned sid session hr
    exact ⟨s, hs.session sid s hget, hvid⟩
  lockedVideo := by
    intro hlocks hup
    obtain ⟨v', hv', -, hsame⟩ := hs.video _ _ (h.lockedVideo hlocks hup)
    rw [hv', hsame hup]
  lockedSession := fun hlocks sid session hr =>
    hs.session _ _ (h.lockedSession hlocks sid session hr)

/-! ### What a request commits -/

namespace Db

/-- A session that is written back. -/
theorem flush_setSession {loaded : Db} {sid : UUID} {session : UploadSession}
    (hs : loaded.uploadSessions.get? sid = some session) (f : UploadSession → UploadSession)
    (db : Db) : Db.flush loaded (loaded.setSession sid f) db =
      db.setSession sid (UploadSession.flush session (f session)) := by
  simp only [Db.flush, Db.setSession, Table.flush_unchanged Video.flush_same,
    Table.flush_unchanged Rendition.flush_same, Table.flush_unchanged Job.flush_same,
    Table.flush_unchanged OutboxMessage.flush_same,
    Table.flush_modify UploadSession.flush_same hs]

/-- A video and a session that are written back. -/
theorem flush_setVideo_setSession {loaded : Db} {vid sid : UUID} {video : Video}
    {session : UploadSession} (hv : loaded.videos.get? vid = some video)
    (hs : loaded.uploadSessions.get? sid = some session) (fv : Video → Video)
    (fs : UploadSession → UploadSession) (db : Db) :
    Db.flush loaded ((loaded.setVideo vid fv).setSession sid fs) db =
      (db.setVideo vid (Video.flush video (fv video))).setSession sid
        (UploadSession.flush session (fs session)) := by
  simp only [Db.flush, Db.setSession, Db.setVideo, Table.flush_unchanged Rendition.flush_same,
    Table.flush_unchanged Job.flush_same, Table.flush_unchanged OutboxMessage.flush_same,
    Table.flush_modify UploadSession.flush_same hs, Table.flush_modify Video.flush_same hv]

end Db

/-- **A completion is written back as it is in memory**, with nothing committed in
between. -/
theorem Completed.flush_self {db db' : Db} {videoId sid : UUID} {maxAttempts : ℕ}
    {uploadedAt completedAt : Timestamp} {works : List Work} {video : Video}
    {session : UploadSession} (hv : db.videos.get? videoId = some video)
    (hs : db.uploadSessions.get? sid = some session)
    (h : Completed db videoId sid maxAttempts uploadedAt completedAt works db') :
    Db.flush db db' db = db' := by
  have hvideos := h.videos
  have hsessions := h.uploadSessions
  have hcolv : Video.flush video (uploadedVideo uploadedAt video) video =
      uploadedVideo uploadedAt video := by
    simp only [Video.flush, Table.flushColumn_self, uploadedVideo]
  have hcols : UploadSession.flush session (completedSession completedAt session) session =
      completedSession completedAt session := by
    simp only [UploadSession.flush, Table.flushColumn_self, completedSession]
  obtain ⟨videos, sessions, renditions, jobs, messages⟩ := db'
  obtain rfl : videos = _ := hvideos
  obtain rfl : sessions = _ := hsessions
  simp only [Db.flush, Table.flush_modify_self Video.flush_same hv hcolv,
    Table.flush_modify_self UploadSession.flush_same hs hcols,
    Table.flush_append_self Rendition.flush_same h.renditions,
    Table.flush_append_self Job.flush_same h.jobs,
    Table.flush_append_self OutboxMessage.flush_same h.outboxMessages]

/-- What is written to a session that ends with a status. -/
def EndsAs (f : UploadSession → UploadSession) (status : UploadStatus) : Prop :=
  ∀ s, (f s).status = status ∧ (f s).videoId = s.videoId

/-- **What a request commits**: nothing, the end of its session – for an abort that
has gone through, with the end of its video – or the completion of an upload. -/
inductive Concluded (db : Db) (r : UploadRequest) : Db → Bool → Prop
  | unchanged : Concluded db r db false
  | failed {sid : UUID} {session : UploadSession} {f : UploadSession → UploadSession}
      (hsession : r.session = some (sid, session))
      (hwriter : r.call.locks = true ∨ r.answer = some (.aborted false))
      (hf : EndsAs f .failed) : Concluded db r (db.setSession sid f) false
  | aborted {sid : UUID} {session : UploadSession} {fv : Video → Video}
      {f : UploadSession → UploadSession} (hsession : r.session = some (sid, session))
      (hwriter : r.answer = some (.aborted true)) (hfv : ∀ v, (fv v).status = .failed)
      (hf : EndsAs f .aborted) :
      Concluded db r ((db.setVideo r.videoId fv).setSession sid f) false
  | completed {sid : UUID} {session : UploadSession} {maxAttempts : ℕ}
      {uploadedAt completedAt : Timestamp} {works : List Work} {db' : Db}
      (hsession : r.session = some (sid, session)) (hwriter : r.call.locks = true)
      (h : Completed db r.videoId sid maxAttempts uploadedAt completedAt works db') :
      Concluded db r db' true

namespace UploadRequest

variable {db : Db} {r : UploadRequest} {sid : UUID} {session : UploadSession}

theorem get?_view_video (hv : ∃ video, db.videos.get? r.videoId = some video) :
    (r.view db).videos.get? r.videoId = some r.video := by
  obtain ⟨video, hv⟩ := hv
  have hget : (db.setVideo r.videoId fun _ => r.video).videos.get? r.videoId = some r.video := by
    rw [Db.setVideo, Table.get?_modify_self, hv, Option.map_some]
  rw [view]
  split <;> exact hget

theorem get?_view_session (hr : r.session = some (sid, session))
    (hs : ∃ s, db.uploadSessions.get? sid = some s) :
    (r.view db).uploadSessions.get? sid = some session := by
  obtain ⟨s, hs⟩ := hs
  rw [view, hr]
  show ((db.setVideo r.videoId fun _ => r.video).uploadSessions.modify sid _).get? sid = _
  rw [Table.get?_modify_self, Db.setVideo, hs, Option.map_some]

/-- Rows that are as they have been read are worked on as they are committed. -/
theorem view_eq_self (hr : r.session = some (sid, session))
    (hv : db.videos.get? r.videoId = some r.video)
    (hs : db.uploadSessions.get? sid = some session) : r.view db = db := by
  have hvideos : db.videos.modify r.videoId (fun _ => r.video) = db.videos :=
    Table.modify_eq_self fun v hv' => Option.some.inj (hv.symm.trans hv')
  have hsessions : db.uploadSessions.modify sid (fun _ => session) = db.uploadSessions :=
    Table.modify_eq_self fun s hs' => Option.some.inj (hs.symm.trans hs')
  simp only [view, hr, Db.setVideo, Db.setSession, hvideos, hsessions]

/-- A status that a session has been given is written over the active one. -/
theorem endsAs_flush {status : UploadStatus} (hactive : session.status = .active)
    (hne : status ≠ .active) {t : UploadSession} (ht : t.status = status) :
    EndsAs (UploadSession.flush session t) status := by
  intro s
  refine ⟨?_, rfl⟩
  show Table.flushColumn session.status t.status s.status = status
  rw [Table.flushColumn, ht, hactive, if_neg hne]

/-- A request that has made nothing of its rows commits nothing. -/
theorem concluded_of_finish_eq {settings : Settings} {ids : IdStream} {uploadedAt now : Timestamp}
    (h : r.finish settings (r.view db) ids uploadedAt now = (r.view db, false)) :
    Concluded db r (r.commit settings db ids uploadedAt now).1
      (r.commit settings db ids uploadedAt now).2 := by
  rw [commit, h, Db.flush_same]
  exact Concluded.unchanged

/-- **What a completion commits.** -/
theorem concluded_of_completed (hl : db.Linked) (h : UnderWay db r)
    (hsession : r.session = some (sid, session)) {answers : CompletionAnswers}
    (hanswer : r.answer = some (.completed answers)) (settings : Settings) (ids : IdStream)
    (uploadedAt now : Timestamp) : Concluded db r (r.commit settings db ids uploadedAt now).1
      (r.commit settings db ids uploadedAt now).2 := by
  have hlocks := RequestCall.locks_of_expects (h.answer _ hanswer)
  obtain ⟨hup, hactive⟩ := h.active sid session hsession
  have hv := h.lockedVideo hlocks hup
  have hs := h.lockedSession hlocks sid session hsession
  have hview := view_eq_self hsession hv hs
  rw [commit, hview]
  cases hstorage : storageCompletion answers session with
  | error e =>
    simp only [finish, hsession, hanswer, hstorage, Db.flush_setSession hs]
    exact Concluded.failed hsession (Or.inl hlocks) (endsAs_flush hactive (by decide) rfl)
  | ok u =>
    cases hfinish : finishCompletion settings db r.videoId sid ids uploadedAt now with
    | error e =>
      simp only [finish, hsession, hanswer, hstorage, hfinish, Db.flush_same]
      exact Concluded.unchanged
    | ok result =>
      obtain ⟨db', messageIds⟩ := result
      obtain ⟨works, hw, -⟩ := finishCompletion_eq_ok (hl.renditionsOf_eq_nil hv hup) hfinish
      simp only [finish, hsession, hanswer, hstorage, hfinish, hw.flush_self hv hs]
      exact Concluded.completed hsession hlocks hw

/-- The status that an abort writes to its session. -/
def abortStatus (ok : Bool) : UploadStatus := if ok then .aborted else .failed

/-- **What an abort commits**: the end of its session, whatever has become of it, and if
the call has returned, the end of its video. -/
theorem commit_of_aborted (h : UnderWay db r) (hsession : r.session = some (sid, session))
    {ok : Bool} (hanswer : r.answer = some (.aborted ok)) (settings : Settings) (ids : IdStream)
    (uploadedAt now : Timestamp) : ∃ fv f, (∀ v : Video, (fv v).status = .failed) ∧
      EndsAs f (abortStatus ok) ∧ r.commit settings db ids uploadedAt now =
        ((if ok then db.setVideo r.videoId fv else db).setSession sid f, false) := by
  obtain ⟨hup, hactive⟩ := h.active sid session hsession
  obtain ⟨s, hs, -⟩ := h.owned sid session hsession
  have hv := get?_view_video h.video
  have hs' := get?_view_session hsession ⟨s, hs⟩
  have hvideo : ∀ v, (Video.flush r.video (abortedVideo r.video) v).status = .failed := by
    intro v
    show Table.flushColumn r.video.status .failed v.status = .failed
    rw [Table.flushColumn, hup, if_neg (by decide)]
  cases ok with
  | false =>
    refine ⟨_, _, hvideo, endsAs_flush hactive (by decide)
      (t := failedSession "storage upload abort failed" session) rfl, ?_⟩
    simp only [commit, finish, hsession, hanswer, finishAbort, Bool.false_eq_true, if_false,
      Db.flush_setSession hs']
  | true =>
    refine ⟨_, _, hvideo, endsAs_flush hactive (by decide)
      (t := abortedSession now session) rfl, ?_⟩
    simp only [commit, finish, hsession, hanswer, finishAbort, if_true,
      Db.flush_setVideo_setSession hv hs']

theorem concluded_of_aborted (h : UnderWay db r) (hsession : r.session = some (sid, session))
    {ok : Bool} (hanswer : r.answer = some (.aborted ok)) (settings : Settings) (ids : IdStream)
    (uploadedAt now : Timestamp) : Concluded db r (r.commit settings db ids uploadedAt now).1
      (r.commit settings db ids uploadedAt now).2 := by
  obtain ⟨fv, f, hfv, hf, he⟩ := commit_of_aborted h hsession hanswer settings ids uploadedAt now
  rw [he]
  cases ok with
  | false => exact Concluded.failed hsession (Or.inr hanswer) hf
  | true => exact Concluded.aborted hsession hanswer hfv hf

/-- **What a request under way commits.** -/
theorem concluded (hl : db.Linked) (h : UnderWay db r) (settings : Settings) (ids : IdStream)
    (uploadedAt now : Timestamp) : Concluded db r (r.commit settings db ids uploadedAt now).1
      (r.commit settings db ids uploadedAt now).2 := by
  cases hsession : r.session with
  | none => exact concluded_of_finish_eq (by simp only [finish, hsession])
  | some p =>
    cases hanswer : r.answer with
    | none => exact concluded_of_finish_eq (by simp only [finish, hsession, hanswer])
    | some answer =>
      cases answer with
      | completed answers => exact concluded_of_completed hl h hsession hanswer _ _ _ _
      | aborted ok => exact concluded_of_aborted h hsession hanswer _ _ _ _
      | refreshed ok => exact concluded_of_finish_eq (by simp only [finish, hsession, hanswer])

/-! ### A request that nothing comes between -/

/-- A session that is as it has been read is ended as it is in memory. -/
theorem setSession_flush {f : UploadSession → UploadSession}
    (hs : db.uploadSessions.get? sid = some session)
    (hf : UploadSession.flush session (f session) session = f session) :
    db.setSession sid (UploadSession.flush session (f session)) = db.setSession sid f := by
  rw [Db.setSession, Db.setSession, Table.modify_congr fun s hs' => ?_]
  obtain rfl := Option.some.inj (hs.symm.trans hs')
  exact hf

/-- A video that is as it has been read is ended as it is in memory. -/
theorem setVideo_flush {videoId : UUID} {video : Video} {f : Video → Video}
    (hv : db.videos.get? videoId = some video)
    (hf : Video.flush video (f video) video = f video) :
    db.setVideo videoId (Video.flush video (f video)) = db.setVideo videoId f := by
  rw [Db.setVideo, Db.setVideo, Table.modify_congr fun v hv' => ?_]
  obtain rfl := Option.some.inj (hv.symm.trans hv')
  exact hf

/-- **A completion that nothing comes between** commits what the operation commits. -/
theorem commit_complete {videoId : UUID} {video : Video} (hl : db.Linked)
    (hopen : OpenUpload db videoId sid video session) {parts : List CompletedUploadPart}
    (hparts : validateCompletedUploadParts session parts = .ok ()) (answers : CompletionAnswers)
    (settings : Settings) (ids : IdStream) (uploadedAt now : Timestamp) :
    (commit settings ⟨.complete parts, videoId, video, some (sid, session),
        some (.completed answers)⟩ db ids uploadedAt now).1 =
      (completeVideoUpload settings db answers videoId parts ids uploadedAt now).1 := by
  obtain ⟨hs, -, -⟩ := hopen.get?_session
  rw [commit, view_eq_self rfl hopen.get?_video hs]
  simp only [finish, completeVideoUpload, hopen.get?_video, hopen.getActiveUploadSession_eq, hparts]
  cases hstorage : storageCompletion answers session with
  | error e =>
    simp only [Db.flush_setSession hs]
    exact setSession_flush (f := failedSession _) hs (by
      simp only [UploadSession.flush, failedSession, Table.flushColumn_self])
  | ok u =>
    cases hfinish : finishCompletion settings db videoId sid ids uploadedAt now with
    | error e => simp only [Db.flush_same]
    | ok result =>
      obtain ⟨works, hw, -⟩ := finishCompletion_eq_ok (hopen.renditionsOf_eq_nil hl) hfinish
      simp only [hw.flush_self hopen.get?_video hs]

/-- **An abort that nothing comes between** commits what the operation commits. -/
theorem commit_abort {videoId : UUID} {video : Video}
    (hopen : OpenUpload db videoId sid video session) (ok : Bool) (settings : Settings)
    (ids : IdStream) (uploadedAt now : Timestamp) :
    (commit settings ⟨.abort, videoId, video, some (sid, session), some (.aborted ok)⟩ db ids
        uploadedAt now).1 = (abortVideoUpload db videoId ok now).1 := by
  obtain ⟨hs, -, -⟩ := hopen.get?_session
  rw [commit, view_eq_self rfl hopen.get?_video hs]
  simp only [finish, abortVideoUpload, hopen.get?_video, hopen.getActiveUploadSession_eq,
    finishAbort]
  cases ok with
  | false =>
    simp only [Bool.false_eq_true, if_false, Db.flush_setSession hs]
    exact setSession_flush (f := failedSession _) hs (by
      simp only [UploadSession.flush, failedSession, Table.flushColumn_self])
  | true =>
    simp only [if_true, Db.flush_setVideo_setSession hopen.get?_video hs]
    have hvideo : db.setVideo videoId (Video.flush video (abortedVideo video)) =
        db.setVideo videoId abortedVideo := setVideo_flush hopen.get?_video (by
      simp only [Video.flush, abortedVideo, Table.flushColumn_self])
    rw [hvideo]
    exact setSession_flush (f := abortedSession now) hs (by
      simp only [UploadSession.flush, abortedSession, Table.flushColumn_self])

end UploadRequest

/-! ### The state of a race -/

/-- What a request locks: its video, if it is a completion. -/
def UploadRequest.lock (r : UploadRequest) : Bool × UUID := (r.call.locks, r.videoId)

/-- Two locks that can be held at once. -/
def Compatible (a b : Bool × UUID) : Prop := a.1 = true → b.1 = true → a.2 ≠ b.2

theorem Compatible.symm {a b : Bool × UUID} (h : Compatible a b) : Compatible b a :=
  fun hb ha he => h ha hb he.symm

/-- **The state of a race.** -/
structure RequestsState (s : UploadRace) : Prop where
  linked : s.world.db.Linked
  underWay : ∀ r ∈ s.requests, UnderWay s.world.db r
  locked : s.requests.Pairwise fun r r' => Compatible r.lock r'.lock
  nodup : s.created.Nodup
  /-- The videos with work are those whose work has been created. -/
  worked : ∀ vid, vid ∈ s.created ↔ s.world.db.renditionsOf vid ≠ []

/-- **Two requests keep clear of each other**: the one does not write what the other
has locked. -/
structure Clear (r r' : UploadRequest) (sid : UUID) : Prop where
  video : r.call.locks = true ∨ r.answer = some (.aborted true) → r'.videoId ≠ r.videoId
  session : (r.call.locks = true ∨ ∃ ok, r.answer = some (.aborted ok)) →
    r'.session.map Prod.fst ≠ some sid

namespace UnderWay

variable {db db' : Db} {r r' : UploadRequest} {created : Bool}

/-- A request is under way over the videos and the sessions alone. -/
theorem of_eq (h : UnderWay db r) (hvideos : db'.videos = db.videos)
    (hsessions : db'.uploadSessions = db.uploadSessions) : UnderWay db' r where
  answer := h.answer
  video := by rw [hvideos]; exact h.video
  active := h.active
  owned := by rw [hsessions]; exact h.owned
  lockedVideo := by rw [hvideos]; exact h.lockedVideo
  lockedSession := by rw [hsessions]; exact h.lockedSession

theorem setSession (h : UnderWay db r) {sid : UUID} {f : UploadSession → UploadSession}
    (hf : ∀ s, (f s).videoId = s.videoId)
    (hne : r.call.locks = true → r.session.map Prod.fst ≠ some sid) :
    UnderWay (db.setSession sid f) r where
  answer := h.answer
  video := h.video
  active := h.active
  owned := by
    intro sid' session hr
    obtain ⟨s, hs, hvid⟩ := h.owned sid' session hr
    rw [Db.setSession, Table.get?_modify]
    by_cases he : sid' = sid
    · exact ⟨f s, by rw [if_pos he, hs, Option.map_some], (hf s).trans hvid⟩
    · exact ⟨s, by rw [if_neg he, hs], hvid⟩
  lockedVideo := h.lockedVideo
  lockedSession := by
    intro hlocks sid' session hr
    refine (Table.get?_modify_of_ne ?_ _ _).trans (h.lockedSession hlocks sid' session hr)
    rintro rfl
    exact hne hlocks (by rw [hr, Option.map_some])

theorem setVideo (h : UnderWay db r) {vid : UUID} {f : Video → Video}
    (hne : r.call.locks = true → r.videoId ≠ vid) : UnderWay (db.setVideo vid f) r where
  answer := h.answer
  video := by
    obtain ⟨v, hv⟩ := h.video
    rw [Db.setVideo, Table.get?_modify, hv]
    split
    · exact ⟨f v, rfl⟩
    · exact ⟨v, rfl⟩
  active := h.active
  owned := h.owned
  lockedVideo := fun hlocks hup =>
    (Table.get?_modify_of_ne (hne hlocks) _ _).trans (h.lockedVideo hlocks hup)
  lockedSession := h.lockedSession

/-- **A request is still under way when another one commits**, which keeps clear of
its locks. -/
theorem concluded (h : UnderWay db r') (hc : Concluded db r db' created)
    (hclear : r'.call.locks = true → ∀ sid session, r.session = some (sid, session) →
      Clear r r' sid) : UnderWay db' r' := by
  cases hc with
  | unchanged => exact h
  | failed hsession hwriter hf =>
    refine h.setSession (fun s => (hf s).2) fun hlocks => ?_
    exact (hclear hlocks _ _ hsession).session (hwriter.imp_right fun ha => ⟨_, ha⟩)
  | aborted hsession hwriter hfv hf =>
    have hclear' := fun hlocks => hclear hlocks _ _ hsession
    exact (h.setVideo fun hlocks => (hclear' hlocks).video (Or.inr hwriter)).setSession
      (fun s => (hf s).2) fun hlocks => (hclear' hlocks).session (Or.inr ⟨_, hwriter⟩)
  | @completed sid session maxAttempts uploadedAt completedAt works _ hsession hwriter hcomp =>
    have hclear' := fun hlocks => hclear hlocks _ _ hsession
    have hboth : UnderWay ((db.setVideo r.videoId (uploadedVideo uploadedAt)).setSession sid
        (completedSession completedAt)) r' :=
      (h.setVideo fun hlocks => (hclear' hlocks).video (Or.inl hwriter)).setSession
        (fun _ => rfl) fun hlocks => (hclear' hlocks).session (Or.inl hwriter)
    exact hboth.of_eq hcomp.videos hcomp.uploadSessions

end UnderWay

/-- The sessions of different videos are different. -/
theorem UnderWay.sessionId_ne {db : Db} {r r' : UploadRequest} (h : UnderWay db r)
    (h' : UnderWay db r') (hne : r'.videoId ≠ r.videoId) {sid : UUID} {session : UploadSession}
    (hs : r.session = some (sid, session)) : r'.session.map Prod.fst ≠ some sid := by
  intro he
  obtain ⟨⟨sid', session'⟩, hs', rfl⟩ := Option.map_eq_some_iff.mp he
  obtain ⟨s, hget, hvid⟩ := h.owned _ _ hs
  obtain ⟨s', hget', hvid'⟩ := h'.owned _ _ hs'
  obtain rfl : s = s' := Option.some.inj (hget.symm.trans hget')
  exact hne (hvid'.symm.trans hvid)

/-- A request is answered. -/
theorem UnderWay.answered {db : Db} {r : UploadRequest} (h : UnderWay db r)
    {answer : StorageAnswer} (hexpects : r.call.expects answer = true) :
    UnderWay db { r with answer := some answer } :=
  ⟨fun a ha => by rw [← Option.some.inj ha]; exact hexpects, h.video, h.active, h.owned,
    h.lockedVideo, h.lockedSession⟩

/-- **A request reads an active session** of a video that was uploading when it was
read; over a locked video the session is the one that is committed. -/
theorem UnderWay.readSession {db : Db} {r : UploadRequest} (h : UnderWay db r)
    {p : UUID × UploadSession} (hp : r.readSession db = .ok p) :
    UnderWay db { r with session := some p } := by
  obtain ⟨sid, session⟩ := p
  have hget : getActiveUploadSession db r.videoId r.video = .ok (sid, session) := by
    rw [UploadRequest.readSession] at hp
    cases hq : getActiveUploadSession db r.videoId r.video with
    | error e => simp [hq, bind, Except.bind] at hp
    | ok q =>
      cases hcheck : r.call.check q.2 with
      | error e => simp [hq, hcheck, bind, Except.bind] at hp
      | ok u => simpa [hq, hcheck, bind, Except.bind, pure, Except.pure] using hp
  obtain ⟨hup, honly⟩ := activeSessions_of_getActiveUploadSession hget
  obtain ⟨hs, hvid, hactive⟩ := mem_activeSessions.mp (honly ▸ List.mem_singleton_self _)
  refine ⟨h.answer, h.video, ?_, ?_, h.lockedVideo, ?_⟩
  · rintro _ _ ⟨⟩
    exact ⟨hup, hactive⟩
  · rintro _ _ ⟨⟩
    exact ⟨session, hs, hvid⟩
  · rintro - _ _ ⟨⟩
    exact hs

namespace RequestsState

variable {s : UploadRace}

/-- **A request that need not wait keeps clear of the others.** -/
theorem clear (hs : RequestsState s) {index : ℕ} {r r' : UploadRequest}
    (hr : s.requests[index]? = some r) (hwait : s.mustWait r = false)
    (hr' : r' ∈ s.requests.eraseIdx index) (hlocks' : r'.call.locks = true) {sid : UUID}
    {session : UploadSession} (hsession : r.session = some (sid, session)) : Clear r r' sid := by
  have hmem := List.mem_of_getElem? hr
  have hmem' := List.mem_of_mem_eraseIdx hr'
  -- a completion and another one have different videos, and an abort finds no lock
  have hlocks : r.call.locks = true → r'.videoId ≠ r.videoId := fun hl => (rel_of_mem_eraseIdx
    (R := fun r r' => Compatible r.lock r'.lock) Compatible.symm hs.locked hr hr' hl hlocks').symm
  refine ⟨fun hwriter => hwriter.elim hlocks fun ha => ?_, fun hwriter => hwriter.elim (fun hl =>
    (hs.underWay r hmem).sessionId_ne (hs.underWay r' hmem') (hlocks hl) hsession) ?_⟩
  · simp only [UploadRace.mustWait, hsession, ha, Bool.true_and, Bool.or_eq_false_iff] at hwait
    have hfree := List.any_eq_false.mp hwait.1 r' hmem'
    simpa [hlocks'] using hfree
  · rintro ⟨ok, ha⟩
    simp only [UploadRace.mustWait, hsession, ha, Bool.or_eq_false_iff] at hwait
    have hfree := List.any_eq_false.mp hwait.2 r' hmem'
    simpa [hlocks'] using hfree

/-! ### The steps -/

theorem start : RequestsState UploadRace.start where
  linked := Db.Linked.empty
  underWay := fun _ hr => (List.not_mem_nil hr).elim
  locked := List.Pairwise.nil
  nodup := List.nodup_nil
  worked := fun _ => iff_of_false List.not_mem_nil (not_not.mpr rfl)

/-- Another operation runs. -/
theorem ran (hs : RequestsState s) {op : Op} (h : op.endsUpload = false) :
    RequestsState { s with world := (op.exec s.world).1 } := by
  obtain ⟨hl, hspares⟩ := Op.spares hs.linked h
  exact ⟨hl, fun r hr => (hs.underWay r hr).spares hspares, hs.locked, hs.nodup, fun vid =>
    (hs.worked vid).trans (not_congr (hspares.idle vid)).symm⟩

/-- A request reads the video, which it locks if nobody else has. -/
theorem began (hs : RequestsState s) {call : RequestCall} {videoId : UUID} {video : Video}
    (hfree : call.locks = true → s.videoLocked videoId = false)
    (hv : s.world.db.videos.get? videoId = some video) :
    RequestsState { s with requests := ⟨call, videoId, video, none, none⟩ :: s.requests } where
  linked := hs.linked
  underWay := by
    refine List.forall_mem_cons.mpr ⟨?_, hs.underWay⟩
    -- it has neither an answer nor a session yet
    exact ⟨fun _ h => (by cases h), ⟨video, hv⟩, fun _ _ h => (by cases h),
      fun _ _ h => (by cases h), fun _ _ => hv, fun _ _ _ h => (by cases h)⟩
  locked := by
    refine List.pairwise_cons.mpr ⟨fun r hr hlocks hlocks' he => ?_, hs.locked⟩
    have hnot := List.any_eq_false.mp (hfree hlocks) r hr
    obtain rfl : videoId = r.videoId := he
    simp [show r.call.locks = true from hlocks'] at hnot
  nodup := hs.nodup
  worked := hs.worked

/-- A request moves on without writing. -/
theorem movedOn (hs : RequestsState s) {index : ℕ} {r r' : UploadRequest}
    (hr : s.requests[index]? = some r) (h : UnderWay s.world.db r') (hlock : r'.lock = r.lock)
    (ended : List (String × String)) :
    RequestsState { s with requests := s.requests.set index r', ended := ended } where
  linked := hs.linked
  underWay := fun r'' hr'' => (List.mem_or_eq_of_mem_set hr'').elim (hs.underWay r'')
    fun he => by rw [he]; exact h
  locked := pairwise_set (f := UploadRequest.lock) hs.locked hr hlock
  nodup := hs.nodup
  worked := hs.worked

/-- A request ends without a commit. -/
theorem left (hs : RequestsState s) (index : ℕ) :
    RequestsState { s with requests := s.requests.eraseIdx index } where
  linked := hs.linked
  underWay := fun r hr => hs.underWay r (List.mem_of_mem_eraseIdx hr)
  locked := hs.locked.sublist (List.eraseIdx_sublist _ _)
  nodup := hs.nodup
  worked := hs.worked

/-- **A request commits.** -/
theorem committed (hs : RequestsState s) {index : ℕ} {r : UploadRequest}
    (hr : s.requests[index]? = some r) (hwait : s.mustWait r = false) {db' : Db} {created : Bool}
    (hc : Concluded s.world.db r db' created) :
    RequestsState { s with
      world := { s.world with db := db' }
      requests := s.requests.eraseIdx index
      created := if created then r.videoId :: s.created else s.created } := by
  have hunder := hs.underWay r (List.mem_of_getElem? hr)
  have hothers : ∀ r' ∈ s.requests.eraseIdx index, UnderWay db' r' := fun r' hr' =>
    (hs.underWay r' (List.mem_of_mem_eraseIdx hr')).concluded hc fun hlocks _ _ hsession =>
      hs.clear hr hwait hr' hlocks hsession
  have hlocked := hs.locked.sublist (List.eraseIdx_sublist s.requests index)
  cases hc with
  | unchanged => exact ⟨hs.linked, hothers, hlocked, hs.nodup, hs.worked⟩
  | failed hsession hwriter hf =>
    exact ⟨hs.linked.setSession _ _, hothers, hlocked, hs.nodup, hs.worked⟩
  | aborted hsession hwriter hfv hf =>
    refine ⟨(hs.linked.setVideo _ fun v _ => ?_).setSession _ _, hothers, hlocked, hs.nodup,
      hs.worked⟩
    rw [Video.isUploading, hfv v]
    rfl
  | @completed sid session _ _ _ works _ hsession hwriter hcomp =>
    -- its video is still being uploaded, so it has no work yet
    have hup := (hunder.active sid session hsession).1
    have hv := hunder.lockedVideo hwriter hup
    have hnil := hs.linked.renditionsOf_eq_nil hv hup
    refine ⟨hcomp.linked hs.linked hnil hv, hothers, hlocked, ?_, fun vid => ?_⟩
    · refine List.nodup_cons.mpr ⟨fun hmem => ?_, hs.nodup⟩
      exact (hs.worked _).mp hmem hnil
    · by_cases hvid : vid = r.videoId
      · rw [hvid]
        exact iff_of_true List.mem_cons_self (hcomp.renditionsOf_ne_nil hnil)
      · rw [hcomp.renditionsOf_of_ne hvid, ← hs.worked]
        exact ⟨fun h => (List.mem_cons.mp h).resolve_left hvid, List.mem_cons_of_mem _⟩

/-- **Every step keeps the state.** -/
theorem step {a : UploadStep} {s' : UploadRace} (hs : RequestsState s)
    (hstep : s.step a = some s') : RequestsState s' := by
  cases UploadRace.step_cases hstep with
  | ran hop => exact hs.ran hop
  | missed => exact hs
  | began hfree hv => exact hs.began hfree hv
  | refused => exact hs.left _
  | read hr hp =>
    have hunder := hs.underWay _ (List.mem_of_getElem? hr)
    exact hs.movedOn hr (hunder.readSession hp) rfl s.ended
  | answered hr hexpects ended =>
    have hunder := hs.underWay _ (List.mem_of_getElem? hr)
    exact hs.movedOn hr (hunder.answered hexpects) rfl ended
  | @committed index r settings ids uploadedAt now hr hwait =>
    have hunder := hs.underWay r (List.mem_of_getElem? hr)
    exact hs.committed hr hwait (r.concluded hs.linked hunder settings ids uploadedAt now)
  | left => exact hs.left _

end RequestsState

/-! ### Races -/

/-- **The states of races** whose steps meet a condition. -/
abbrev ReachableRace (guard : UploadRace → UploadStep → Prop) (s : UploadRace) : Prop :=
  Reaches UploadRace.step guard (· = UploadRace.start) s

theorem ReachableRace.requestsState {guard : UploadRace → UploadStep → Prop} {s : UploadRace}
    (h : ReachableRace guard s) : RequestsState s := by
  refine Reaches.invariant ?_ (fun _ _ _ hs _ hstep => hs.step hstep) h
  rintro _ rfl
  exact RequestsState.start

/-- **The work of a video is created once**, whichever requests overlap and whatever
operations run between their steps: no two completions create it, and a video has
the work of the whole ladder if one has, and none otherwise. -/
theorem work_created_once {s : UploadRace} (h : ReachableRace Unguarded s) :
    s.created.Nodup ∧ ∀ videoId, (videoId ∈ s.created ∧ FannedOut s.world.db videoId) ∨
      (videoId ∉ s.created ∧ NoWork s.world.db videoId) := by
  have hs := h.requestsState
  refine ⟨hs.nodup, fun videoId => ?_⟩
  by_cases hc : videoId ∈ s.created
  · exact Or.inl ⟨hc, hs.linked.fannedOut ((hs.worked videoId).mp hc)⟩
  · refine Or.inr ⟨hc, hs.linked.noWork ?_⟩
    by_contra hne
    exact hc ((hs.worked videoId).mpr hne)

/-- A video whose upload is completed while an abort is under way: the completion has
the rows locked, so that the abort commits after it. -/
def sampleRequests : List UploadStep :=
  [.run (.createVideoUpload "media" "clip.mp4" "video/mp4" 10 1
      (fun key => some ⟨"media", key, "upload", []⟩) sampleId 0),
    .begin (.complete [⟨1, "etag"⟩]) (sampleId 0), .begin .abort (sampleId 0),
    .readSession 1, .readSession 0,
    .call 1 (.completed ⟨true, some (some ⟨10, some "video/mp4"⟩), true⟩) true,
    .commit 1 sampleSettings (fun n => sampleId (10 + n)) 1 1, .call 0 (.aborted false) false]

/-- The completion is repeated while the abort is under way. -/
theorem work_created_once_repeated : ∃ s, ReachableRace Unguarded s ∧
    s.created = [sampleId 0] ∧ FannedOut s.world.db (sampleId 0) := by
  obtain ⟨s, hs⟩ : ∃ s, guardedRun UploadRace.step Unguarded UploadRace.start (sampleRequests ++
      [.begin (.complete [⟨1, "etag"⟩]) (sampleId 0), .readSession 0,
        .commit 0 sampleSettings sampleId 2 2]) = some s := ⟨_, rfl⟩
  have hstart : ReachableRace Unguarded UploadRace.start := Reaches.start rfl
  have hreach := hstart.of_guardedRun hs
  have hcreated : s.created = [sampleId 0] := by
    obtain rfl := Option.some.inj hs
    rfl
  refine ⟨s, hreach, hcreated, ?_⟩
  rcases (work_created_once hreach).2 (sampleId 0) with ⟨-, hwork⟩ | ⟨hnot, -⟩
  · exact hwork
  · exact absurd (by rw [hcreated]; exact List.mem_singleton_self _) hnot

end RenditionPipeline
