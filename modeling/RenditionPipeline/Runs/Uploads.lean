import RenditionPipeline.Runs.Operations

/-!
# Uploading videos and their sessions

A video that is uploading should have an active upload session, which every
request for it works on. Where the storage answers as it should, requests keep
the two together (`RenditionPipeline.uploading_iff_active_session`): creating
makes both, completing and aborting end both.

Where it does not, they come apart. The handlers of a failed storage call, in the
completion and in the abort, write `failed` to the session and leave the video
uploading – the abort that goes through writes its video too – and the next
request finds no session to work on
(`RenditionPipeline.uploading_without_session`): completing, refreshing and
aborting are refused from then on, and the video stays as it is.
-/

namespace RenditionPipeline

/-- **Uploads are live**: a video has one active session if it is uploading, and
none otherwise. -/
structure Db.UploadsLive (db : Db) : Prop where
  session_video : ∀ sid s, db.uploadSessions.get? sid = some s →
    (db.videos.get? s.videoId).isSome
  active : ∀ vid video, db.videos.get? vid = some video →
    (activeSessions db vid).length = if video.isUploading then 1 else 0

/-- The session that a request for a video works on. -/
def requestSession (db : Db) (videoId : UUID) : Option UploadSession :=
  match db.videos.get? videoId with
  | none => none
  | some video =>
    match getActiveUploadSession db videoId video with
    | .error _ => none
    | .ok (_, session) => some session

/-- The storage calls of a request go through: wherever a completion comes to
them, the upload is completed and the object has the announced size and type, and
wherever an abort comes to it, the upload is aborted. -/
def storageCallsSucceed (db : Db) : Op → Bool
  | .completeVideoUpload _ answers videoId parts _ _ _ =>
    match requestSession db videoId with
    | none => true
    | some session =>
      match validateCompletedUploadParts session parts with
      | .error _ => true
      | .ok () => answers.complete &&
        answers.metadata = some (some ⟨session.sizeBytes, some session.contentType⟩)
  | .abortVideoUpload videoId abortOk _ =>
    match requestSession db videoId with
    | none => true
    | some _ => abortOk
  | _ => true

/-! ### Reading the active sessions -/

theorem activeSessions_congr {db db' : Db} (h : db'.uploadSessions = db.uploadSessions)
    (videoId : UUID) : activeSessions db' videoId = activeSessions db videoId := by
  rw [activeSessions, activeSessions, h]

/-- The storage calls of a completion go through exactly where the answers are
those. -/
theorem storageCompletion_eq_ok_iff {answers : CompletionAnswers} {session : UploadSession} :
    storageCompletion answers session = .ok () ↔ answers.complete = true ∧
      answers.metadata = some (some ⟨session.sizeBytes, some session.contentType⟩) := by
  obtain ⟨complete, metadata, delete⟩ := answers
  cases complete with
  | false => simp [storageCompletion]
  | true =>
    rcases metadata with _ | _ | ⟨contentLength, contentType⟩
    · simp [storageCompletion, validateCompletedUploadMetadata]
    · simp [storageCompletion, validateCompletedUploadMetadata]
    · simp only [storageCompletion, validateCompletedUploadMetadata, if_true, true_and,
        Option.some.injEq, ObjectMetadata.mk.injEq]
      by_cases hlen : contentLength = session.sizeBytes
      · by_cases htype : contentType = some session.contentType <;> simp [hlen, htype]
      · simp [hlen]

namespace OpenUpload

variable {db : Db} {videoId sid : UUID} {video : Video} {s : UploadSession}
  (h : OpenUpload db videoId sid video s)
include h

theorem requestSession_eq : requestSession db videoId = some s := by
  rw [requestSession, h.get?_video]
  simp only [h.getActiveUploadSession_eq]

/-- Ending the session of a video leaves it none. -/
theorem activeSessions_setSession_self {f : UploadSession → UploadSession}
    (hf : (f s).status ≠ .active) : activeSessions (db.setSession sid f) videoId = [] := by
  rw [List.eq_nil_iff_forall_not_mem]
  rintro ⟨sid', s'⟩ hmem
  obtain ⟨hget, hvid, hactive⟩ := mem_activeSessions.mp hmem
  by_cases hs : sid' = sid
  · rw [Db.setSession, Table.get?_modify, if_pos hs, hs, h.get?_session.1, Option.map_some,
      Option.some.injEq] at hget
    exact hf (by rw [hget]; exact hactive)
  · rw [Db.setSession, Table.get?_modify_of_ne hs] at hget
    have hold : (sid', s') ∈ activeSessions db videoId :=
      mem_activeSessions.mpr ⟨hget, hvid, hactive⟩
    rw [h.active, List.mem_singleton, Prod.mk.injEq] at hold
    exact hs hold.1

/-- The sessions of every other video stay. -/
theorem activeSessions_setSession_of_ne {f : UploadSession → UploadSession}
    (hf : ∀ s, (f s).videoId = s.videoId) {vid : UUID} (hne : vid ≠ videoId) :
    (activeSessions (db.setSession sid f) vid).length = (activeSessions db vid).length := by
  rw [activeSessions, Db.setSession, Table.select_modify, List.length_map, activeSessions]
  intro s' hs'
  rw [h.get?_session.1, Option.some.injEq] at hs'
  simp [hf, ← hs', h.get?_session.2.1, hne.symm]

end OpenUpload

/-! ### The moves keep uploads live -/

namespace Db.UploadsLive

theorem empty : Db.empty.UploadsLive where
  session_video := fun _ _ h => by cases h
  active := fun _ _ h => by cases h

/-- Uploads are a matter of the sessions and of which videos are uploading. -/
theorem of_same {db db' : Db} (h : db.UploadsLive)
    (hsessions : db'.uploadSessions = db.uploadSessions)
    (hvideos : db'.videos.view Video.isUploading = db.videos.view Video.isUploading) :
    db'.UploadsLive where
  session_video := by
    intro sid s hs
    rw [hsessions] at hs
    obtain ⟨v, hv⟩ := Option.isSome_iff_exists.mp (h.session_video sid s hs)
    obtain ⟨v', hv', -⟩ := Table.get?_of_view_eq hvideos hv
    rw [hv']
    rfl
  active := by
    intro vid video hv
    obtain ⟨v, hv', hup⟩ := Table.get?_of_view_eq hvideos.symm hv
    rw [activeSessions_congr hsessions, h.active vid v hv', hup]

theorem created {db : Db} (h : db.UploadsLive) {videoId sessionId : UUID} {video : Video}
    {session : UploadSession} (hvideo : db.videos.get? videoId = none)
    (hsession : db.uploadSessions.get? sessionId = none) (huploading : video.status = .uploading)
    (hactive : session.status = .active) (hvid : session.videoId = videoId) :
    Db.UploadsLive { db with
      videos := db.videos.insert videoId video hvideo
      uploadSessions := db.uploadSessions.insert sessionId session hsession } where
  session_video := by
    intro sid s hs
    rw [Table.get?_insert] at hs ⊢
    by_cases hsid : sid = sessionId
    · rw [if_pos hsid, Option.some.injEq] at hs
      rw [← hs, if_pos hvid]
      rfl
    · rw [if_neg hsid] at hs
      by_cases hsv : s.videoId = videoId
      · rw [if_pos hsv]
        rfl
      · rw [if_neg hsv]
        exact h.session_video sid s hs
  active := by
    intro vid v hv
    rw [activeSessions, Table.select_insert, List.length_append]
    by_cases hvideoId : vid = videoId
    · -- no session is older than its video
      have hnone : activeSessions db vid = [] := by
        rw [List.eq_nil_iff_forall_not_mem]
        rintro ⟨sid, s⟩ hmem
        obtain ⟨hget, hsv, -⟩ := mem_activeSessions.mp hmem
        have hsome := h.session_video sid s hget
        rw [hsv, hvideoId, hvideo] at hsome
        cases hsome
      rw [Table.get?_insert, if_pos hvideoId, Option.some.injEq] at hv
      rw [activeSessions] at hnone
      rw [hnone, ← hv, Video.isUploading, huploading]
      simp [hvid, hvideoId, hactive]
    · rw [Table.get?_insert, if_neg hvideoId] at hv
      rw [← h.active vid v hv, activeSessions]
      simp [hvid, Ne.symm hvideoId]

/-- Ending a video's upload together with its session. -/
theorem ended {db db' : Db} (h : db.UploadsLive) {videoId sid : UUID} {video : Video}
    {s : UploadSession} (hopen : OpenUpload db videoId sid video s) {fv : Video → Video}
    {fs : UploadSession → UploadSession} (hvideos : db'.videos = db.videos.modify videoId fv)
    (hsessions : db'.uploadSessions = db.uploadSessions.modify sid fs)
    (hfv : (fv video).isUploading = false) (hfs : (fs s).status ≠ .active)
    (hkeep : ∀ s, (fs s).videoId = s.videoId) : db'.UploadsLive where
  session_video := by
    intro sid' s' hs'
    have hview := Table.view_of_get? (f := UploadSession.videoId) hs'
    rw [hsessions, Table.view_modify fun _ _ => hkeep _, Table.view_eq_some_iff] at hview
    obtain ⟨s₀, hs₀, hvid⟩ := hview
    rw [hvideos, Table.get?_modify, ← hvid]
    have hsome := h.session_video sid' s₀ hs₀
    by_cases he : s₀.videoId = videoId
    · rw [if_pos he, Option.isSome_map]
      exact hsome
    · rw [if_neg he]
      exact hsome
  active := by
    intro vid v hv
    have hsame : activeSessions db' vid = activeSessions (db.setSession sid fs) vid :=
      activeSessions_congr hsessions vid
    rw [hsame]
    by_cases he : vid = videoId
    · subst he
      rw [hvideos, Table.get?_modify_self, hopen.get?_video, Option.map_some,
        Option.some.injEq] at hv
      rw [hopen.activeSessions_setSession_self hfs, ← hv, hfv]
      rfl
    · rw [hvideos, Table.get?_modify_of_ne he] at hv
      rw [hopen.activeSessions_setSession_of_ne hkeep he, h.active vid v hv]

end Db.UploadsLive

/-- **Uploads stay live under every move that fails none.** -/
theorem Move.uploadsLive {scope : Scope} {w w' : World} {e : List Settlement}
    (hm : Move scope w e w') (hscope : ¬ scope.endsUpload .failed) (hl : w.db.Linked)
    (h : w.db.UploadsLive) : w'.db.UploadsLive := by
  cases hm with
  | heartbeat now hget hrun => exact h.of_same rfl rfl
  | settled _ hs => exact h.of_same hs.uploadSessions (hs.sameShape hl.toReferenced).videos
  | outbox _ hmessages => exact h.of_same rfl rfl
  | created hvideo hsession huploading _ hactive hvid =>
    exact h.created hvideo hsession huploading hactive hvid
  | completed _ hopen hc =>
    exact h.ended hopen hc.videos hc.uploadSessions rfl (by simp [completedSession]) fun _ => rfl
  | uploadFailed error hs hopen => exact absurd hs hscope
  | aborted now _ hopen =>
    exact h.ended hopen rfl rfl rfl (by simp [abortedSession]) fun _ => rfl

/-- An operation whose storage calls go through fails no upload. -/
theorem not_failsUpload {w : World} {op : Op} (h : storageCallsSucceed w.db op = true) :
    ¬ (op.scope w).endsUpload .failed := by
  cases op with
  | completeVideoUpload settings answers videoId parts ids uploadedAt completedAt =>
    rintro (hne | ⟨-, sid, video, s, hopen, hparts, hfail⟩)
    · cases hne
    simp only [storageCallsSucceed, hopen.requestSession_eq, hparts, Bool.and_eq_true,
      decide_eq_true_eq] at h
    exact hfail (storageCompletion_eq_ok_iff.mpr h)
  | abortVideoUpload videoId abortOk now =>
    rintro (hne | ⟨-, hfail, sid, video, s, hopen⟩)
    · cases hne
    simp only [storageCallsSucceed, hopen.requestSession_eq] at h
    rw [h] at hfail
    cases hfail
  | _ => exact fun hf => hf

theorem ReachableRun.uploadsLive {r : Run}
    (h : ReachableRun (fun r op => storageCallsSucceed r.world.db op = true) r) :
    r.world.db.UploadsLive := by
  refine Reaches.invariant_of (J := fun r => r.world.db.Linked)
    (I := fun r => r.world.db.UploadsLive) (fun s hs => ReachableRun.linked hs) ?_ ?_ h
  · rintro _ rfl
    exact Db.UploadsLive.empty
  · rintro s op _ hl hi hg ⟨⟩
    obtain ⟨es, hes, -⟩ := op.exec_chain hl
    exact (hes.keep (I := fun w => w.db.Linked ∧ w.db.UploadsLive)
      (fun _ _ _ hw hm => ⟨hm.linked hw.1, hm.uploadsLive (not_failsUpload hg) hw.1 hw.2⟩)
      ⟨hl, hi⟩).2

/-- What a request works on is the session of an open upload. -/
theorem exists_openUpload {db : Db} {videoId : UUID} {s : UploadSession}
    (h : requestSession db videoId = some s) :
    ∃ sid video, OpenUpload db videoId sid video s := by
  rw [requestSession] at h
  split at h
  · cases h
  rename_i video hv
  split at h
  · cases h
  · rename_i sid s' hs
    obtain rfl : s' = s := Option.some.inj h
    exact ⟨sid, video, getActiveUploadSession_eq_ok hv hs⟩

/-- **A storage call that does not go through strands a video**: its session is
ended, and the video goes on uploading. -/
theorem stranded_of_storage_failure {w : World} {op : Op}
    (h : storageCallsSucceed w.db op = false) :
    ∃ vid video, (op.exec w).1.db.videos.get? vid = some video ∧ video.status = .uploading ∧
      activeSessions (op.exec w).1.db vid = [] := by
  cases op with
  | completeVideoUpload settings answers videoId parts ids uploadedAt completedAt =>
    cases hs : requestSession w.db videoId with
    | none => simp [storageCallsSucceed, hs] at h
    | some s =>
      obtain ⟨sid, video, hopen⟩ := exists_openUpload hs
      cases hparts : validateCompletedUploadParts s parts with
      | error e => simp [storageCallsSucceed, hs, hparts] at h
      | ok u =>
        -- the call reaches the storage, which fails: the session is closed and the video stays
        have hfail : storageCompletion answers s ≠ .ok () := by
          intro hok
          obtain ⟨hc, hm⟩ := storageCompletion_eq_ok_iff.mp hok
          simp [storageCallsSucceed, hs, hparts, hc, hm] at h
        cases he : storageCompletion answers s with
        | ok u => exact absurd he hfail
        | error e =>
          refine ⟨videoId, video, ?_, hopen.uploading, ?_⟩ <;>
            simp only [Op.exec, completeVideoUpload, hopen.get?_video,
              hopen.getActiveUploadSession_eq, hparts, he]
          · exact hopen.get?_video
          · exact hopen.activeSessions_setSession_self (by simp [failedSession])
  | abortVideoUpload videoId abortOk now =>
    cases hs : requestSession w.db videoId with
    | none => simp [storageCallsSucceed, hs] at h
    | some s =>
      obtain ⟨sid, video, hopen⟩ := exists_openUpload hs
      obtain rfl : abortOk = false := by simpa [storageCallsSucceed, hs] using h
      refine ⟨videoId, video, ?_, hopen.uploading, ?_⟩ <;>
        simp only [Op.exec, abortVideoUpload, hopen.get?_video, hopen.getActiveUploadSession_eq,
          finishAbort]
      · exact hopen.get?_video
      · exact hopen.activeSessions_setSession_self (by simp [failedSession])
  | _ => cases h

/-- **While the storage calls go through, a video is uploading exactly if it has
one active session**, and a request for an uploading video finds it; the first
call that does not go through strands a video. -/
theorem uploading_iff_active_session {r : Run}
    (h : ReachableRun (fun r op => storageCallsSucceed r.world.db op = true) r) :
    (∀ vid video, r.world.db.videos.get? vid = some video →
      (video.status = .uploading ↔ ∃ p, activeSessions r.world.db vid = [p]) ∧
        (video.status = .uploading →
          ∃ p, getActiveUploadSession r.world.db vid video = .ok p) ∧
        getActiveUploadSession r.world.db vid video ≠
          .error (.videoUploadConflictError "video upload is missing multipart state")) ∧
    (∀ op, storageCallsSucceed r.world.db op = false →
      ∃ vid video, (op.exec r.world).1.db.videos.get? vid = some video ∧
        video.status = .uploading ∧ activeSessions (op.exec r.world).1.db vid = []) := by
  refine ⟨fun vid video hv => ?_, fun op hop => stranded_of_storage_failure hop⟩
  have hactive := h.uploadsLive.active vid video hv
  by_cases hu : video.status = .uploading
  · rw [if_pos (by simp [Video.isUploading, hu]), List.length_eq_one_iff] at hactive
    obtain ⟨p, hp⟩ := hactive
    have hopen : OpenUpload r.world.db vid p.1 video p.2 := ⟨hv, hu, hp⟩
    refine ⟨iff_of_true hu ⟨p, hp⟩, fun _ => ⟨p, hopen.getActiveUploadSession_eq⟩, ?_⟩
    rw [hopen.getActiveUploadSession_eq]
    intro he
    cases he
  · rw [if_neg (by simpa [Video.isUploading] using hu), List.length_eq_zero_iff] at hactive
    refine ⟨iff_of_false hu ?_, fun hup => absurd hup hu, ?_⟩
    · rintro ⟨p, hp⟩
      rw [hp] at hactive
      cases hactive
    · rw [getActiveUploadSession, if_pos hu]
      simp

/-- A video is uploaded and a second one is aborted, both without a failure. -/
theorem uploading_iff_active_session_aborted :
    ∃ r video, ReachableRun (fun r op => storageCallsSucceed r.world.db op = true) r ∧
      r.world.db.videos.get? (sampleId 100) = some video ∧
      (video.status = .uploading ↔ ∃ p, activeSessions r.world.db (sampleId 100) = [p]) := by
  obtain ⟨r, hr⟩ : ∃ r, guardedRun Run.step
      (fun r op => storageCallsSucceed r.world.db op = true) Run.start (sampleUpload ++
        [.createVideoUpload "media" "b.mp4" "video/mp4" 5 1
            (fun key => some ⟨"media", key, "upload", []⟩) (fun n => sampleId (100 + n)) 2,
          .abortVideoUpload (sampleId 100) true 3]) = some r := ⟨_, rfl⟩
  have hstart : ReachableRun (fun r op => storageCallsSucceed r.world.db op = true) Run.start :=
    Reaches.start rfl
  have hreach := hstart.of_guardedRun hr
  obtain ⟨video, hv⟩ : ∃ video, r.world.db.videos.get? (sampleId 100) = some video := by
    obtain rfl := Option.some.inj hr
    exact ⟨_, rfl⟩
  exact ⟨r, video, hreach, hv, ((uploading_iff_active_session hreach).1 _ _ hv).1⟩

/-- **A failed storage call leaves a video uploading without a session.** A video
is created and aborted, and the storage refuses the abort: the video is still
uploading, its session is failed, and every request for it ends in the conflict
of a missing multipart state. -/
theorem uploading_without_session :
    ¬ ∀ r, ReachableRun Unguarded r → ∀ vid video, r.world.db.videos.get? vid = some video →
      (video.status = .uploading ↔ ∃ p, activeSessions r.world.db vid = [p]) ∧
        getActiveUploadSession r.world.db vid video ≠
          .error (.videoUploadConflictError "video upload is missing multipart state") := by
  intro h
  have hrun := ReachableRun.exec
    [.createVideoUpload "media" "clip.mp4" "video/mp4" 10 1
        (fun key => some ⟨"media", key, "upload", []⟩) sampleId 0,
      .abortVideoUpload (sampleId 0) false 1]
  exact (h _ hrun (sampleId 0) _ rfl).2 rfl

end RenditionPipeline
