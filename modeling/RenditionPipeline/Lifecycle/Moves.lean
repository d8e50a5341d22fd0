import RenditionPipeline.Library.Run
import RenditionPipeline.Lifecycle.Fanout

/-!
# Moves

What the services commit is composed of few elementary changes of the database
and the bucket, the *moves* (`RenditionPipeline.Move`): a heartbeat, a settled
job with its publication, a write-back of outbox rows, and the four things that
happen to an upload. Every transaction is a chain of moves – of at most one, the
reaper aside, which settles a batch of jobs one after another – so that an
invariant has to be proved of the seven moves and of nothing else.

A move that settles a job tells it, with its outcome; the tale of a run is the
history that statements about claims are made of. Which jobs a transaction may
settle and how, how it may end an upload and whether it may rewrite the outbox is its
scope (`RenditionPipeline.Scope`): most invariants hold in every scope, and the
others say which one they need.
-/

namespace RenditionPipeline

/-- The state the services share: the database and the bucket. -/
structure World where
  db : Db
  bucket : Bucket

/-- The world before any request. -/
def World.empty : World := ⟨Db.empty, Bucket.empty⟩

/-- A settled job, with its outcome. -/
abbrev Settlement := UUID × Outcome

/-- The jobs whose claims are granted among some settlements. -/
def grantedJobs (es : List Settlement) : List UUID :=
  es.filterMap fun e => match e.2 with
    | .running _ _ => some e.1
    | _ => none

@[simp] theorem grantedJobs_nil : grantedJobs [] = [] := rfl

@[simp] theorem grantedJobs_append (es es' : List Settlement) :
    grantedJobs (es ++ es') = grantedJobs es ++ grantedJobs es' := List.filterMap_append

/-! ### Open uploads -/

/-- **An open upload**: a video that is uploading and its one active session. -/
structure OpenUpload (db : Db) (videoId sessionId : UUID) (video : Video)
    (session : UploadSession) : Prop where
  get?_video : db.videos.get? videoId = some video
  uploading : video.status = .uploading
  active : activeSessions db videoId = [(sessionId, session)]

theorem mem_activeSessions {db : Db} {videoId sid : UUID} {s : UploadSession} :
    (sid, s) ∈ activeSessions db videoId ↔
      db.uploadSessions.get? sid = some s ∧ s.videoId = videoId ∧ s.status = .active := by
  rw [activeSessions, Table.mem_select, Bool.and_eq_true, decide_eq_true_iff, decide_eq_true_iff]

/-- The session that a request works on: the video has been read as uploading, and
the session is its only active one. -/
theorem activeSessions_of_getActiveUploadSession {db : Db} {videoId sid : UUID} {video : Video}
    {s : UploadSession} (h : getActiveUploadSession db videoId video = .ok (sid, s)) :
    video.status = .uploading ∧ activeSessions db videoId = [(sid, s)] := by
  rw [getActiveUploadSession] at h
  by_cases hu : video.status ≠ .uploading
  · rw [if_pos hu] at h
    cases h
  rw [if_neg hu] at h
  split at h
  · cases h
  · rename_i p hp
    rw [Except.ok.injEq] at h
    exact ⟨not_not.mp hu, by rw [hp, h]⟩
  · cases h

/-- The session that a request works on is the active one of an open upload. -/
theorem getActiveUploadSession_eq_ok {db : Db} {videoId sid : UUID} {video : Video}
    {s : UploadSession} (hv : db.videos.get? videoId = some video)
    (h : getActiveUploadSession db videoId video = .ok (sid, s)) :
    OpenUpload db videoId sid video s :=
  ⟨hv, (activeSessions_of_getActiveUploadSession h).1,
    (activeSessions_of_getActiveUploadSession h).2⟩

/-- A video that is uploading has no renditions yet. -/
theorem Db.Linked.renditionsOf_eq_nil {db : Db} (hl : db.Linked) {videoId : UUID} {video : Video}
    (hv : db.videos.get? videoId = some video) (hup : video.status = .uploading) :
    db.renditionsOf videoId = [] := by
  by_contra hne
  obtain ⟨v, hv', hnot⟩ := hl.exists_video hne
  obtain rfl : video = v := Option.some.inj (hv.symm.trans hv')
  rw [Video.isUploading, hup] at hnot
  cases hnot

namespace OpenUpload

variable {db : Db} {videoId sid : UUID} {video : Video} {s : UploadSession}

theorem get?_session (h : OpenUpload db videoId sid video s) :
    db.uploadSessions.get? sid = some s ∧ s.videoId = videoId ∧ s.status = .active :=
  mem_activeSessions.mp (by rw [h.active]; exact List.mem_singleton_self _)

/-- A request for an open upload finds its session. -/
theorem getActiveUploadSession_eq (h : OpenUpload db videoId sid video s) :
    getActiveUploadSession db videoId video = .ok (sid, s) := by
  rw [getActiveUploadSession, if_neg (not_not.mpr h.uploading), h.active]

theorem renditionsOf_eq_nil (h : OpenUpload db videoId sid video s) (hl : db.Linked) :
    db.renditionsOf videoId = [] :=
  hl.renditionsOf_eq_nil h.get?_video h.uploading

end OpenUpload

/-! ### Moves -/

/-- **The scope of a transaction**: which jobs it may settle, with which outcome
and which publication, how it may end an upload, and whether it may rewrite the
outbox. -/
structure Scope where
  settles : (db : Db) → LoadedJob db → Outcome → Option Publication → Prop
  endsUpload : UploadStatus → Prop
  rewritesOutbox : Prop

namespace Scope

/-- The scope without restriction. -/
def all : Scope := ⟨fun _ _ _ _ => True, fun _ => True, True⟩

/-- The scope that allows none of it. -/
def none : Scope := ⟨fun _ _ _ _ => False, fun _ => False, False⟩

end Scope

/-- **An elementary change of the world** in a scope, with the settlement it
tells. -/
inductive Move (scope : Scope) (w : World) : List Settlement → World → Prop
  /-- The heartbeat of a running job. -/
  | heartbeat {jobId : UUID} {job : Job} (now : Timestamp)
      (hget : w.db.jobs.get? jobId = some job) (hrun : job.status = .running) :
      Move scope w [] { w with db := { w.db with
        jobs := w.db.jobs.modify jobId fun job => { job with heartbeatAt := some now } } }
  /-- A settled job, with its publication. -/
  | settled {loaded : LoadedJob w.db} {o : Outcome} {publication : Option Publication} {db' : Db}
      (hscope : scope.settles w.db loaded o publication) (h : Settled loaded o publication db') :
      Move scope w [(loaded.jobId, o)] ⟨db', (publication.getD .notReady).store w.bucket⟩
  /-- Rows of the outbox that are rewritten, and name the jobs they named. -/
  | outbox {messages : Table UUID OutboxMessage} (hscope : scope.rewritesOutbox)
      (hmessages : messages.view OutboxMessage.toEncodingJobMessage =
        w.db.outboxMessages.view OutboxMessage.toEncodingJobMessage) :
      Move scope w [] { w with db := { w.db with outboxMessages := messages } }
  /-- A new video, uploading, with its session. -/
  | created {videoId sessionId : UUID} {video : Video} {session : UploadSession}
      (hvideo : w.db.videos.get? videoId = none)
      (hsession : w.db.uploadSessions.get? sessionId = none)
      (huploading : video.status = .uploading) (hpath : video.playbackPath = none)
      (hactive : session.status = .active) (hvid : session.videoId = videoId) :
      Move scope w [] { w with db := { w.db with
        videos := w.db.videos.insert videoId video hvideo
        uploadSessions := w.db.uploadSessions.insert sessionId session hsession } }
  /-- A completed upload. -/
  | completed {videoId sessionId : UUID} {video : Video} {session : UploadSession}
      {maxAttempts : ℕ} {uploadedAt completedAt : Timestamp} {works : List Work} {db' : Db}
      (hscope : scope.endsUpload .completed)
      (hopen : OpenUpload w.db videoId sessionId video session)
      (h : Completed w.db videoId sessionId maxAttempts uploadedAt completedAt works db') :
      Move scope w [] { w with db := db' }
  /-- An upload whose storage calls have failed. -/
  | uploadFailed {videoId sessionId : UUID} {video : Video} {session : UploadSession}
      (error : String) (hscope : scope.endsUpload .failed)
      (hopen : OpenUpload w.db videoId sessionId video session) :
      Move scope w [] { w with db := w.db.setSession sessionId (failedSession error) }
  /-- An aborted upload. -/
  | aborted {videoId sessionId : UUID} {video : Video} {session : UploadSession}
      (now : Timestamp) (hscope : scope.endsUpload .aborted)
      (hopen : OpenUpload w.db videoId sessionId video session) :
      Move scope w [] { w with db :=
        (w.db.setVideo videoId abortedVideo).setSession sessionId (abortedSession now) }

/-! ### Moves keep the references -/

/-- A video that is added changes none of the references. -/
theorem Db.Linked.created {db : Db} (hl : db.Linked) {videoId sessionId : UUID} {video : Video}
    {session : UploadSession} (hvideo : db.videos.get? videoId = none)
    (hsession : db.uploadSessions.get? sessionId = none) :
    Db.Linked { db with
      videos := db.videos.insert videoId video hvideo
      uploadSessions := db.uploadSessions.insert sessionId session hsession } where
  rendition_video := by
    intro rid r hr
    obtain ⟨v, hv, hup⟩ := hl.rendition_video rid r hr
    exact ⟨v, Table.get?_insert_of_some hv _ hvideo, hup⟩
  rendition_job := hl.rendition_job
  ladder := hl.ladder
  job_rendition := hl.job_rendition
  job_unique := hl.job_unique
  job_outbox := hl.job_outbox
  outbox_job := hl.outbox_job
  outbox_unique := hl.outbox_unique

/-- Rewriting upload sessions changes none of the references. -/
theorem Db.Linked.setSession {db : Db} (hl : db.Linked) (sessionId : UUID)
    (f : UploadSession → UploadSession) : (db.setSession sessionId f).Linked :=
  { hl with }

/-- Rewriting videos changes none of the references, as long as none becomes
uploading. -/
theorem Db.Linked.setVideo {db : Db} (hl : db.Linked) (videoId : UUID) {f : Video → Video}
    (hf : ∀ v, v.isUploading = false → (f v).isUploading = false) :
    (db.setVideo videoId f).Linked where
  rendition_video := by
    intro rid r hr
    obtain ⟨v, hv, hup⟩ := hl.rendition_video rid r hr
    simp only [Db.setVideo, Table.get?_modify]
    by_cases hrv : r.videoId = videoId
    · exact ⟨f v, by rw [if_pos hrv, hv, Option.map_some], hf v hup⟩
    · exact ⟨v, by rw [if_neg hrv, hv], hup⟩
  rendition_job := hl.rendition_job
  ladder := hl.ladder
  job_rendition := hl.job_rendition
  job_unique := hl.job_unique
  job_outbox := hl.job_outbox
  outbox_job := hl.outbox_job
  outbox_unique := hl.outbox_unique

/-- A move that settles a job: what the transactions of the job service are made
of, heartbeats aside. -/
inductive SettleMove (scope : Scope) (w : World) : List Settlement → World → Prop
  | intro {loaded : LoadedJob w.db} {o : Outcome} {publication : Option Publication} {db' : Db}
      (hscope : scope.settles w.db loaded o publication) (h : Settled loaded o publication db') :
      SettleMove scope w [(loaded.jobId, o)] ⟨db', (publication.getD .notReady).store w.bucket⟩

theorem SettleMove.move {scope : Scope} {w w' : World} {e : List Settlement}
    (h : SettleMove scope w e w') : Move scope w e w' := by
  cases h with
  | intro hscope h => exact Move.settled hscope h

/-- A move in a scope is one in every scope that is wider where it is made. -/
theorem Move.mono {scope scope' : Scope} {w w' : World} {e : List Settlement}
    (hsettles : ∀ loaded o publication, scope.settles w.db loaded o publication →
      o.Enabled loaded.job → scope'.settles w.db loaded o publication)
    (hends : ∀ status, scope.endsUpload status → scope'.endsUpload status)
    (hrewrites : scope.rewritesOutbox → scope'.rewritesOutbox) (h : Move scope w e w') :
    Move scope' w e w' := by
  cases h with
  | heartbeat now hget hrun => exact Move.heartbeat now hget hrun
  | settled hs h => exact Move.settled (hsettles _ _ _ hs h.enabled) h
  | outbox hs hmessages => exact Move.outbox (hrewrites hs) hmessages
  | created hvideo hsession huploading hpath hactive hvid =>
    exact Move.created hvideo hsession huploading hpath hactive hvid
  | completed hs hopen h => exact Move.completed (hends _ hs) hopen h
  | uploadFailed error hs hopen => exact Move.uploadFailed error (hends _ hs) hopen
  | aborted now hs hopen => exact Move.aborted now (hends _ hs) hopen

theorem Move.toAll {scope : Scope} {w w' : World} {e : List Settlement} (h : Move scope w e w') :
    Move Scope.all w e w' :=
  h.mono (fun _ _ _ _ _ => trivial) (fun _ _ => trivial) fun _ => trivial

/-- **The references hold after every move.** -/
theorem Move.linked {scope : Scope} {w w' : World} {e : List Settlement}
    (h : Move scope w e w') (hl : w.db.Linked) : w'.db.Linked := by
  cases h with
  | heartbeat now hget hrun => exact hl.of_sameShape (sameShape_heartbeat _ _ _)
  | settled _ h => exact hl.of_sameShape (h.sameShape hl.toReferenced)
  | outbox _ hmessages =>
    exact hl.of_sameShape { SameShape.refl w.db with outboxMessages := hmessages }
  | created hvideo hsession _ _ _ _ => exact hl.created hvideo hsession
  | completed _ hopen h => exact h.linked hl (hopen.renditionsOf_eq_nil hl) hopen.get?_video
  | uploadFailed error _ hopen => exact hl.setSession _ _
  | aborted now _ hopen => exact (hl.setVideo _ fun _ _ => rfl).setSession _ _

end RenditionPipeline
