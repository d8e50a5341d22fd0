import RenditionPipeline.Api.Answers

/-!
# Requests that fail

A handler commits once, at the end of its service, so that an exception leaves the rows as
they were. The two requests that end an upload make an exception of this: where a call of the
storage fails they commit the failure of the session and raise then. The video is left
uploading without an active session, and as no operation ever writes to it again, it stays so
(`RenditionPipeline.failed_request_writes`).

All of this is about requests that are answered one after another. Where a request for the
abort of an upload overlaps the one that completes it, it may write its failure over the
completion, since it takes no lock: see `RenditionPipeline.UploadRace`.
-/

namespace RenditionPipeline

/-! ### Stranded uploads -/

/-- **A stranded upload**: its session has failed, and its video is still uploading. -/
structure Stranded (db : Db) (videoId sid : UUID) (video : Video) (session : UploadSession) :
    Prop where
  get?_video : db.videos.get? videoId = some video
  uploading : video.status = .uploading
  get?_session : db.uploadSessions.get? sid = some session
  owned : session.videoId = videoId
  failed : session.status = .failed

section Stranded

variable {db : Db} {videoId sid : UUID} {video : Video} {session : UploadSession}

/-- The failure of an open upload strands it. -/
theorem OpenUpload.stranded (h : OpenUpload db videoId sid video session) (error : String) :
    Stranded (db.setSession sid (failedSession error)) videoId sid video
      (failedSession error session) where
  get?_video := h.get?_video
  uploading := h.uploading
  get?_session := by
    rw [Db.setSession, Table.get?_modify_self, h.get?_session.1, Option.map_some]
  owned := h.get?_session.2.1
  failed := rfl

namespace Stranded

/-- No upload of the video is open. -/
theorem not_openUpload (h : Stranded db videoId sid video session) (hone : OneSession db)
    {sid' : UUID} {video' : Video} {session' : UploadSession}
    (hopen : OpenUpload db videoId sid' video' session') : False := by
  obtain ⟨hget, howned, hactive⟩ := hopen.get?_session
  obtain rfl := hone.unique sid sid' session session' h.get?_session hget
    (h.owned.trans howned.symm)
  obtain rfl := Option.some.inj (h.get?_session.symm.trans hget)
  rw [h.failed] at hactive
  cases hactive

theorem activeSessions_eq_nil (h : Stranded db videoId sid video session) (hone : OneSession db) :
    activeSessions db videoId = [] := by
  rcases hone.activeSessions_cases videoId with hnil | ⟨p, hp⟩
  · exact hnil
  · exact (h.not_openUpload hone ⟨h.get?_video, h.uploading, hp⟩).elim

/-- Every request for the upload finds no session. -/
theorem getActiveUploadSession_eq (h : Stranded db videoId sid video session)
    (hone : OneSession db) : getActiveUploadSession db videoId video =
      .error (.videoUploadConflictError "video upload is missing multipart state") := by
  rw [getActiveUploadSession, if_neg (not_not.mpr h.uploading), h.activeSessions_eq_nil hone]

/-- What ends another upload leaves the stranded one alone. -/
theorem setSession (h : Stranded db videoId sid video session) {sid' : UUID}
    {session' : UploadSession} (hget : db.uploadSessions.get? sid' = some session')
    (hactive : session'.status = .active) (f : UploadSession → UploadSession) :
    (db.setSession sid' f).uploadSessions.get? sid = some session := by
  rw [Db.setSession, Table.get?_modify_of_ne, h.get?_session]
  rintro rfl
  obtain rfl := Option.some.inj (h.get?_session.symm.trans hget)
  rw [h.failed] at hactive
  cases hactive

end Stranded

end Stranded

/-- **Every move leaves a stranded upload alone.** -/
theorem Move.stranded {scope : Scope} {w w' : World} {e : List Settlement} {videoId sid : UUID}
    {video : Video} {session : UploadSession} (hm : Move scope w e w') (hl : w.db.Linked)
    (hone : OneSession w.db) (h : Stranded w.db videoId sid video session) :
    Stranded w'.db videoId sid video session := by
  suffices hrows : w'.db.videos.get? videoId = some video ∧
      w'.db.uploadSessions.get? sid = some session from
    ⟨hrows.1, h.uploading, hrows.2, h.owned, h.failed⟩
  cases hm with
  | heartbeat _ _ _ => exact ⟨h.get?_video, h.get?_session⟩
  | outbox _ _ => exact ⟨h.get?_video, h.get?_session⟩
  | @settled loaded o publication db' _ hs =>
    -- a job that is settled has a rendition, and the video has none
    have hne : videoId ≠ loaded.rendition.videoId := by
      rintro rfl
      have hmem := Db.mem_renditionsOf.mpr ⟨loaded.get?_rendition, rfl⟩
      rw [hl.renditionsOf_eq_nil h.get?_video h.uploading] at hmem
      cases hmem
    exact ⟨(hs.get?_video_of_ne hne).trans h.get?_video, by
      rw [hs.uploadSessions]
      exact h.get?_session⟩
  | created hvideo hsession _ _ _ _ =>
    exact ⟨Table.get?_insert_of_some h.get?_video _ hvideo,
      Table.get?_insert_of_some h.get?_session _ hsession⟩
  | completed _ hopen hc =>
    refine ⟨?_, ?_⟩
    · rw [hc.videos, Table.get?_modify_of_ne, h.get?_video]
      rintro rfl
      exact h.not_openUpload hone hopen
    · rw [hc.uploadSessions]
      exact h.setSession hopen.get?_session.1 hopen.get?_session.2.2 _
  | uploadFailed error _ hopen =>
    exact ⟨h.get?_video, h.setSession hopen.get?_session.1 hopen.get?_session.2.2 _⟩
  | aborted now _ hopen =>
    refine ⟨?_, h.setSession hopen.get?_session.1 hopen.get?_session.2.2 _⟩
    show (w.db.videos.modify _ abortedVideo).get? videoId = some video
    rw [Table.get?_modify_of_ne, h.get?_video]
    rintro rfl
    exact h.not_openUpload hone hopen

/-- **A stranded upload stays so** in every later state. -/
theorem Stranded.stays {guard guard' : System → Action → Prop} {s s' : System} {videoId sid : UUID}
    {video : Video} {session : UploadSession} (hs : ReachableSystem guard s)
    (h : Stranded s.db videoId sid video session)
    (hreach : Reaches System.step guard' (· = s) s') :
    s'.db.Linked ∧ SessionsState s'.db ∧ Stranded s'.db videoId sid video session := by
  refine Reaches.invariant (I := fun t => t.db.Linked ∧ SessionsState t.db ∧
    Stranded t.db videoId sid video session) ?_ ?_ hreach
  · rintro _ rfl
    exact ⟨hs.linked, hs.sessionsState, h⟩
  · rintro t a _ ⟨hl, hi, hst⟩ - hstep
    obtain ⟨t', ht, rfl⟩ := System.step_cases hstep
    refine ⟨ht.linked hl, ht.keep_db (I := fun db => SessionsState db ∧
      Stranded db videoId sid video session) hl ?_ ⟨hi, hst⟩⟩
    exact fun w e w' hlinked hw hm => ⟨hm.sessionsState_all hlinked hw.1,
      hm.stranded hlinked hw.1.toOneSession hw.2⟩

/-! ### What a failed request has written -/

section Services

variable {db : Db} {videoId : UUID}

theorem createVideoUpload_failed {bucket filename contentType : String} {sizeBytes partCount : ℤ}
    {upload : String → Option MultipartUpload} {ids : IdStream} {now : Timestamp} {e : Raised}
    (h : (createVideoUpload db bucket filename contentType sizeBytes partCount upload ids now).2 =
      .error e) :
    (createVideoUpload db bucket filename contentType sizeBytes partCount upload ids now).1 =
      db := by
  rw [createVideoUpload] at h ⊢
  split
  · rfl
  rename_i hvideo
  rw [if_neg hvideo] at h
  split
  · rfl
  rename_i key hkey
  rw [hkey] at h
  dsimp only at h ⊢
  split
  · rfl
  rename_i upload hupload
  rw [hupload] at h
  dsimp only at h ⊢
  split
  · rfl
  rename_i hsession
  rw [if_neg hsession] at h
  split
  · rename_i hvideos hsessions
    rw [hvideos, hsessions] at h
    cases h
  · rfl

/-- **A completion that does not go through** has written nothing, or the failure of an open
upload. -/
theorem completeVideoUpload_failed (hl : db.Linked) {settings : Settings}
    {answers : CompletionAnswers} {parts : List CompletedUploadPart} {ids : IdStream}
    {uploadedAt completedAt : Timestamp} {db' : Db}
    {result : Except Raised (Option VideoUploadCompletion)}
    (h : completeVideoUpload settings db answers videoId parts ids uploadedAt completedAt =
      (db', result)) (hresult : ∀ completion, result ≠ .ok (some completion)) :
    db' = db ∨ ∃ sid video session message message', OpenUpload db videoId sid video session ∧
      db' = db.setSession sid (failedSession message) ∧
      result = .error (.videoUploadStorageError message') := by
  rw [completeVideoUpload] at h
  split at h
  · exact Or.inl (Prod.mk.inj h).1.symm
  rename_i video hv
  split at h
  · exact Or.inl (Prod.mk.inj h).1.symm
  rename_i sid session hactive
  have hopen := getActiveUploadSession_eq_ok hv hactive
  split at h
  · exact Or.inl (Prod.mk.inj h).1.symm
  split at h
  · rename_i e _
    obtain ⟨message', he⟩ := completionFailure_raises answers e
    obtain ⟨rfl, rfl⟩ := Prod.mk.inj h
    exact Or.inr ⟨sid, video, session, _, message', hopen, rfl, by rw [he]⟩
  split at h
  · exact Or.inl (Prod.mk.inj h).1.symm
  · -- a completion that has written its rows answers with the state of the video
    rename_i db₁ messageIds hfinish
    obtain ⟨works, hc, -⟩ := finishCompletion_eq_ok (hopen.renditionsOf_eq_nil hl) hfinish
    have hvideo : db₁.videos.get? videoId = some (uploadedVideo uploadedAt video) := by
      rw [hc.videos, Table.get?_modify_self, hv, Option.map_some]
    rw [getVideoState, hvideo, Option.map_some, Option.map_some] at h
    exact absurd (Prod.mk.inj h).2.symm (hresult _)

theorem abortVideoUpload_failed {abortOk : Bool} {now : Timestamp}
    (h : ∀ aborted, (abortVideoUpload db videoId abortOk now).2 ≠ .ok (some aborted)) :
    (abortVideoUpload db videoId abortOk now).1 = db ∨
      ∃ sid video session message message', OpenUpload db videoId sid video session ∧
        abortVideoUpload db videoId abortOk now = (db.setSession sid (failedSession message),
          .error (.videoUploadStorageError message')) := by
  rw [abortVideoUpload] at h ⊢
  split
  · exact Or.inl rfl
  rename_i video hv
  rw [hv] at h
  dsimp only at h
  split
  · exact Or.inl rfl
  rename_i sid session hactive
  rw [hactive] at h
  cases abortOk with
  | true => exact absurd rfl (h true)
  | false =>
    exact Or.inr ⟨sid, video, session, _, _, getActiveUploadSession_eq_ok hv hactive, rfl⟩

end Services

theorem foundOr404_eq_error {α : Type} {content : α → ApiContent} {x : Except Raised (Option α)}
    {e : ApiException} (h : foundOr404 content x = .error e) : ∀ a, x ≠ .ok (some a) := by
  rintro a rfl
  cases h

namespace VideoRequest

variable {settings : ApiSettings} {o : Outside} {db : Db} {request : VideoRequest}

/-- A request about the upload of a video that is there. -/
def IsAboutUpload (videoId : UUID) : VideoRequest → Prop
  | completeUpload vid _ | refreshUpload vid _ | abortUpload vid => vid = videoId
  | _ => False

/-- **What a handler that raises has written.** -/
theorem handle_failed (hl : db.Linked) {e : ApiException}
    (h : (request.handle settings o db).2 = .error e) :
    (request.handle settings o db).1 = db ∨
      ∃ videoId sid video session message message', request.IsAboutUpload videoId ∧
        OpenUpload db videoId sid video session ∧
        (request.handle settings o db).1 = db.setSession sid (failedSession message) ∧
        e = .raised (.videoUploadStorageError message') := by
  cases request with
  | createVideo payload =>
    left
    cases hr : (createVideoUpload db o.bucket payload.filename payload.contentType
      payload.sizeBytes payload.partCount o.create o.ids o.now).2 with
    | error e' => exact createVideoUpload_failed hr
    | ok response =>
      simp only [handle, hr, Except.map, RenditionPipeline.foundOr404] at h
      cases h
  | completeUpload videoId parts =>
    rw [handle] at h ⊢
    split at h
    · cases h
    rename_i db' result hne hresult
    rcases completeVideoUpload_failed hl hresult fun completion hok => by simp [hok] at hne with
      hdb | ⟨sid, video, session, message, message', hopen, hdb, herror⟩
    · exact Or.inl hdb
    · rw [herror] at h
      exact Or.inr ⟨videoId, sid, video, session, message, message', rfl, hopen, hdb,
        (Except.error.inj h).symm⟩
  | abortUpload videoId =>
    rcases abortVideoUpload_failed (foundOr404_eq_error h) with
      hdb | ⟨sid, video, session, message, message', hopen, hr⟩
    · exact Or.inl hdb
    · simp only [handle, hr] at h ⊢
      exact Or.inr ⟨videoId, sid, video, session, message, message', rfl, hopen, rfl,
        (Except.error.inj h).symm⟩
  | _ => exact Or.inl rfl

end VideoRequest

/-- The response to a request for a stranded upload. -/
def strandedResponse : ApiResponse :=
  exceptionResponse (.raised (.videoUploadConflictError
    "video upload is missing multipart state"))

/-- **Every request for a stranded upload is refused**, and writes nothing. -/
theorem Stranded.respond_eq {db : Db} {videoId sid : UUID} {video : Video} {session : UploadSession}
    (h : Stranded db videoId sid video session) (hone : OneSession db) (settings : ApiSettings)
    (o : Outside) {request : VideoRequest} (habout : request.IsAboutUpload videoId)
    (hvalid : request.Valid settings) :
    request.respond settings o db = (db, strandedResponse) := by
  have hsession := h.getActiveUploadSession_eq hone
  rw [VideoRequest.respond, if_pos hvalid]
  cases request with
  | completeUpload vid parts =>
    obtain rfl : vid = videoId := habout
    simp only [VideoRequest.handle, completeVideoUpload, h.get?_video, hsession]
    rfl
  | refreshUpload vid partCount =>
    obtain rfl : vid = videoId := habout
    simp only [VideoRequest.handle, refreshVideoUpload, h.get?_video, hsession]
    rfl
  | abortUpload vid =>
    obtain rfl : vid = videoId := habout
    simp only [VideoRequest.handle, abortVideoUpload, h.get?_video, hsession]
    rfl
  | _ => exact habout.elim

/-- The request of the system that a request for the end of an upload is. -/
theorem VideoRequest.step_of_failed {s : System} {settings : ApiSettings} {o : Outside}
    {request : VideoRequest} {videoId : UUID} (habout : request.IsAboutUpload videoId)
    {e : ApiException} (h : (request.handle settings o s.db).2 = .error e) :
    ∃ op s', s.step (.request op) = some s' ∧ s'.db = (request.handle settings o s.db).1 := by
  cases request with
  | completeUpload vid parts =>
    refine ⟨.completeVideoUpload settings.worker o.completion vid parts o.ids o.uploadedAt
      o.completedAt, _, rfl, ?_⟩
    rw [VideoRequest.handle] at h ⊢
    split at h
    · cases h
    · rename_i hresult
      exact congrArg Prod.fst hresult
  | refreshUpload vid partCount => exact ⟨.refreshVideoUpload vid partCount none, _, rfl, rfl⟩
  | abortUpload vid => exact ⟨.abortVideoUpload vid o.abortOk o.now, _, rfl, rfl⟩
  | _ => exact habout.elim

/-- **What a request that fails has written**, in every state that the system reaches and where
no request overlaps another one for the same upload: nothing, or the failure of the upload
that it is about, whose storage call has failed. In the second case the upload is over for
good: in every later state the video is uploading and has no renditions, its session is failed,
and each request for its upload is refused and writes nothing. -/
theorem failed_request_writes {s : System} (h : ReachableSystem Unguarded s)
    {settings : ApiSettings} {o : Outside} {request : VideoRequest} {error : ErrorBody}
    (herror : (request.respond settings o s.db).2.body = .error error) :
    (request.respond settings o s.db).1 = s.db ∨
      ∃ videoId sid video session message, request.IsAboutUpload videoId ∧
        OpenUpload s.db videoId sid video session ∧
        request.respond settings o s.db = (s.db.setSession sid (failedSession message),
          errorResponse 502 "storage_unavailable" "Storage unavailable") ∧
        ∃ op s₁, s.step (.request op) = some s₁ ∧
          s₁.db = (request.respond settings o s.db).1 ∧
          ∀ s₂, Reaches System.step Unguarded (· = s₁) s₂ →
            Stranded s₂.db videoId sid video (failedSession message session) ∧
            s₂.db.renditionsOf videoId = [] ∧
            ∀ settings' o' request', VideoRequest.IsAboutUpload videoId request' →
              request'.Valid settings' →
              request'.respond settings' o' s₂.db = (s₂.db, strandedResponse) := by
  by_cases hvalid : request.Valid settings
  swap
  · left
    rw [VideoRequest.respond, if_neg hvalid]
  rw [VideoRequest.respond, if_pos hvalid] at herror ⊢
  cases hanswer : (request.handle settings o s.db).2 with
  | ok content =>
    rw [hanswer] at herror
    cases herror
  | error e =>
    rcases VideoRequest.handle_failed h.linked hanswer with
      hdb | ⟨videoId, sid, video, session, message, message', habout, hopen, hdb, rfl⟩
    · exact Or.inl hdb
    · right
      obtain ⟨op, s₁, hstep, hs₁⟩ := VideoRequest.step_of_failed habout hanswer
      refine ⟨videoId, sid, video, session, message, habout, hopen, by rw [hdb]; rfl, op, s₁, hstep,
        hs₁, fun s₂ hreach => ?_⟩
      have hstranded : Stranded s₁.db videoId sid video (failedSession message session) := by
        rw [hs₁, hdb]
        exact hopen.stranded message
      obtain ⟨hl, hi, hst⟩ := hstranded.stays (Reaches.step h trivial hstep) hreach
      exact ⟨hst, hl.renditionsOf_eq_nil hst.get?_video hst.uploading,
        fun settings' o' request' habout' hvalid' =>
          hst.respond_eq hi.toOneSession settings' o' habout' hvalid'⟩

/-- The storage refuses the abort of an upload. -/
theorem failed_request_writes_abort : ∃ s s₁ : System, ReachableSystem Unguarded s ∧
    s₁.db = ((VideoRequest.abortUpload (sampleId 0)).respond sampleApiSettings
      (sampleOutside sampleId) s.db).1 ∧
    ∀ s₂, Reaches System.step Unguarded (· = s₁) s₂ → s₂.db.renditionsOf (sampleId 0) = [] := by
  obtain ⟨s, hs⟩ : ∃ s, guardedRun System.step Unguarded System.start
      [.request (.createVideoUpload "media" "clip.mp4" "video/mp4" 10 1
        (fun key => some ⟨"media", key, "upload", []⟩) sampleId 0)] = some s := ⟨_, rfl⟩
  have hstart : ReachableSystem Unguarded System.start := Reaches.start rfl
  have hreach := hstart.of_guardedRun hs
  have herror : ((VideoRequest.abortUpload (sampleId 0)).respond sampleApiSettings
      (sampleOutside sampleId) s.db).2.body =
        .error ⟨"storage_unavailable", "Storage unavailable"⟩ := by
    obtain rfl := Option.some.inj hs
    rfl
  have hfailed : (((VideoRequest.abortUpload (sampleId 0)).respond sampleApiSettings
      (sampleOutside sampleId) s.db).1.uploadSessions.get? (sampleId 1)).map UploadSession.status ≠
        (s.db.uploadSessions.get? (sampleId 1)).map UploadSession.status := by
    obtain rfl := Option.some.inj hs
    decide
  rcases failed_request_writes hreach herror with
    hsame | ⟨videoId, _, _, _, _, habout, -, -, -, s₁, -, hs₁, hlater⟩
  · rw [hsame] at hfailed
    exact absurd rfl hfailed
  · obtain rfl : sampleId 0 = videoId := habout
    exact ⟨s, s₁, hreach, hs₁, fun s₂ h₂ => (hlater s₂ h₂).2.1⟩

end RenditionPipeline
