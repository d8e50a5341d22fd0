import RenditionPipeline.Transfer.S3

/-!
# What a request does to an upload

The requests of the upload service, read back once each: which rows they rewrite, which
calls they make of the storage, and what they answer. The cases are those a reader of the
service would tell apart; in all others a request leaves both the database and the storage
as they are.
-/

namespace RenditionPipeline

open Multipart

variable {σ α : Type} {storage : S3ObjectStorage σ α} {db : Db} {s : σ}

/-! ### Creating -/

/-- Where the source of a video is stored: its key and its bucket. -/
def Video.sourceAddress (video : Video) : String × Option String :=
  (video.source, video.sourceBucket)

/-- **What a creation does**: it may leave an upload behind that nobody is told of, and where it
answers there are a new video, a new session and a new upload. -/
inductive CreateStep (storage : S3ObjectStorage σ α) (db : Db) (s : σ)
    (filename contentType : String) (sizeBytes partCount : ℤ) :
    (Db × σ) × Except Raised VideoCreateResponse → Prop
  | refused (error : Raised) : CreateStep storage db s filename contentType sizeBytes partCount
      ((db, s), .error error)
  | orphaned {uploadId key : String} {s' : σ}
      (hcreate : storage.service.create s uploadId key contentType = some s') (error : Raised) :
      CreateStep storage db s filename contentType sizeBytes partCount ((db, s'), .error error)
  | created {videoId sessionId : UUID} {uploadId key : String} {video : Video}
      {session : UploadSession} {parts : List MultipartUploadPart} {s' : σ}
      (hkey : buildSourceKey videoId filename = .ok key)
      (hcreate : storage.service.create s uploadId key contentType = some s')
      (hvideo : db.videos.get? videoId = none)
      (hsession : db.uploadSessions.get? sessionId = none)
      (hrow : session.videoId = videoId ∧ session.objectKey = key ∧
        session.objectUploadId = uploadId ∧ session.contentType = contentType ∧
        session.sizeBytes = sizeBytes ∧ session.partCount = partCount ∧ session.status = .active)
      (hsource : video.sourceAddress = (key, some storage.bucket))
      (hnumbers : parts.map MultipartUploadPart.partNumber =
        (List.range partCount.toNat).map fun i : ℕ => (i : ℤ) + 1)
      (hparts : ∀ part ∈ parts,
        part.uploadUrl = storage.service.presign key uploadId part.partNumber) :
      CreateStep storage db s filename contentType sizeBytes partCount
        (({ db with
            videos := db.videos.insert videoId video hvideo
            uploadSessions := db.uploadSessions.insert sessionId session hsession }, s'),
          .ok ⟨videoId, storage.bucket, key, uploadId, parts⟩)

theorem createUpload_step (e : CallEnd) (presigned : Bool) (filename contentType : String)
    (sizeBytes partCount : ℤ) (uploadId : String) (ids : IdStream) (now : Timestamp) :
    CreateStep storage db s filename contentType sizeBytes partCount
      (createUpload storage db s e presigned filename contentType sizeBytes partCount uploadId ids
        now) := by
  rw [createUpload]
  by_cases hfits : NewVideoFits storage.bucket filename contentType sizeBytes
  swap
  · rw [if_pos hfits]
    exact .refused _
  rw [if_neg (not_not.mpr hfits)]
  by_cases hvideo : (db.videos.get? (ids 0)).isSome = true
  · rw [if_pos hvideo]
    exact .refused _
  rw [if_neg hvideo]
  split
  · exact .refused _
  rename_i key hkey
  have hnone : db.videos.get? (ids 0) = none := by simpa using hvideo
  simp only [S3ObjectStorage.createMultipartUpload]
  rcases hrun : e.run s (storage.service.create s uploadId key contentType) with ⟨s', returned⟩
  rcases CallEnd.run_eq hrun with ⟨rfl, rfl⟩ | hcreate
  · -- the call is refused, and so is the request
    simp only [createVideoUpload, hfits, hkey, Bool.false_eq_true, not_true_eq_false, if_false]
    exact .refused _
  cases hupload : (if returned then
      storage.refreshMultipartUploadUrls key uploadId partCount presigned else none) with
  | none =>
    simp only [createVideoUpload, hfits, hkey, not_true_eq_false, if_false]
    exact .orphaned hcreate _
  | some upload =>
    rw [Option.ite_none_right_eq_some] at hupload
    obtain ⟨hbucket, hukey, huid, hnumbers, hparts⟩ := mem_refreshMultipartUploadUrls hupload.2
    simp only [createVideoUpload, hfits, hkey, not_true_eq_false, if_false]
    split
    · exact .orphaned hcreate _
    split
    · rename_i videos sessions hv hs
      obtain ⟨hv', rfl⟩ := Table.insert?_eq_some_iff.mp hv
      obtain ⟨hs', rfl⟩ := Table.insert?_eq_some_iff.mp hs
      rw [hbucket, hukey, huid]
      exact .created hkey hcreate hv' hs' ⟨rfl, rfl, rfl, rfl, rfl, rfl, rfl⟩ rfl
        hnumbers hparts
    · exact .orphaned hcreate _

/-! ### Refreshing -/

/-- The addresses of a refresh are those of the session's upload. -/
theorem refreshUpload_eq_ok {videoId : UUID} {partCount : ℤ} {presigned : Bool}
    {response : VideoCreateResponse}
    (h : refreshUpload storage db videoId partCount presigned = .ok (some response)) :
    ∃ sid video session, OpenUpload db videoId sid video session ∧
      partCount = session.partCount ∧ response.videoId = videoId ∧
      response.parts.map MultipartUploadPart.partNumber =
        (List.range session.partCount.toNat).map (fun i : ℕ => (i : ℤ) + 1) ∧
      ∀ part ∈ response.parts, part.uploadUrl =
        storage.service.presign session.objectKey session.objectUploadId part.partNumber := by
  unfold refreshUpload refreshVideoUpload at h
  cases hv : db.videos.get? videoId with
  | none => simp [hv] at h
  | some video =>
    simp only [hv, bind, Except.bind] at h
    cases hs : getActiveUploadSession db videoId video with
    | error e => simp [hs] at h
    | ok found =>
      obtain ⟨sid, session⟩ := found
      have hopen := getActiveUploadSession_eq_ok hv hs
      simp only [hs, hopen.requestSession_eq, Option.bind_some] at h
      by_cases hcount : partCount ≠ session.partCount
      · simp [hcount, throw, throwThe, MonadExceptOf.throw] at h
      have hcount := not_not.mp hcount
      subst hcount
      cases hupload : storage.refreshMultipartUploadUrls session.objectKey session.objectUploadId
          session.partCount presigned with
      | none => simp [hupload, throw, throwThe, MonadExceptOf.throw] at h
      | some upload =>
        obtain ⟨hbucket, hukey, huid, hnumbers, hparts⟩ := mem_refreshMultipartUploadUrls hupload
        simp only [hupload, pure, Except.pure, ne_eq, not_true_eq_false, if_false, Except.ok.injEq,
          Option.some.injEq] at h
        subst h
        exact ⟨sid, video, session, hopen, rfl, rfl, hnumbers, hparts⟩

/-! ### Completing -/

/-- **The storage calls of a completion**: the upload is completed or not, and the object that
it has made is there or deleted again. They go through only where it is there. -/
theorem completionCalls_eq {ends : CompletionEnds} {session : UploadSession}
    {parts : List CompletedUploadPart} {s' : σ} {answers : CompletionAnswers}
    (h : completionCalls storage s ends session parts = (s', answers)) :
    (s' = s ∧ storageCompletion answers session ≠ .ok ()) ∨
    ∃ s₁, storage.service.complete s session.objectKey session.objectUploadId
        ((completeMultipartUploadParts parts).map fun part => (part.partNumber, part.etag)) =
          some s₁ ∧
      (s' = s₁ ∨
        s' = storage.service.delete s₁ session.objectKey ∧
          storageCompletion answers session ≠ .ok ()) := by
  rw [completionCalls] at h
  rcases hrun : storage.completeMultipartUpload s ends.complete session.objectKey
    session.objectUploadId parts with ⟨s₁, returned⟩
  simp only [hrun] at h
  have hfalse : ∀ metadata delete,
      storageCompletion ⟨false, metadata, delete⟩ session ≠ .ok () := fun _ _ he => by cases he
  split at h
  · -- the metadata are wrong, so that the object is deleted
    rename_i message hmetadata
    obtain ⟨rfl, rfl⟩ := Prod.mk.inj h
    have hfails : ∀ delete, storageCompletion ⟨true, storage.getObjectMetadata s₁
        ends.head session.objectKey, delete⟩ session ≠ .ok () := by
      intro delete he
      rw [storageCompletion, if_pos rfl, hmetadata] at he
      cases he
    have hcomplete := CallEnd.after_of_returned hrun
    refine Or.inr ⟨s₁, hcomplete, ?_⟩
    rcases hdelete : storage.deleteObject s₁ ends.delete session.objectKey with ⟨s₂, ok⟩
    rcases CallEnd.run_eq hdelete with ⟨rfl, -⟩ | hsome
    · exact Or.inl rfl
    · exact Or.inr ⟨(Option.some.inj hsome).symm, hfails _⟩
  · obtain ⟨rfl, rfl⟩ := Prod.mk.inj h
    rcases CallEnd.run_eq hrun with ⟨rfl, rfl⟩ | hsome
    · exact Or.inl ⟨rfl, hfalse _ _⟩
    · exact Or.inr ⟨_, hsome, Or.inl rfl⟩

/-- **What a completion does**: it works on an open upload whose parts are listed in order, or
on nothing. -/
inductive CompleteStep (storage : S3ObjectStorage σ α) (db : Db) (s : σ)
    (ends : CompletionEnds) (videoId : UUID) (parts : List CompletedUploadPart) :
    Db × σ → Prop
  | refused : CompleteStep storage db s ends videoId parts (db, s)
  /-- The storage calls have been made, and the rows are not written. -/
  | rolledBack {sid : UUID} {video : Video} {session : UploadSession}
      (hopen : OpenUpload db videoId sid video session)
      (hparts : validateCompletedUploadParts session parts = .ok ()) :
      CompleteStep storage db s ends videoId parts
        (db, (completionCalls storage s ends session parts).1)
  | failed {sid : UUID} {video : Video} {session : UploadSession} (error : String)
      (hopen : OpenUpload db videoId sid video session)
      (hparts : validateCompletedUploadParts session parts = .ok ()) :
      CompleteStep storage db s ends videoId parts
        (db.setSession sid (failedSession error),
          (completionCalls storage s ends session parts).1)
  | completed {sid : UUID} {video : Video} {session : UploadSession} {maxAttempts : ℕ}
      {uploadedAt completedAt : Timestamp} {works : List Work} {db' : Db}
      (hopen : OpenUpload db videoId sid video session)
      (hparts : validateCompletedUploadParts session parts = .ok ())
      (hcalls : storageCompletion (completionCalls storage s ends session parts).2 session = .ok ())
      (hc : Completed db videoId sid maxAttempts uploadedAt completedAt works db') :
      CompleteStep storage db s ends videoId parts
        (db', (completionCalls storage s ends session parts).1)

/-- The session that is to be completed is that of an open upload, and the parts are in order. -/
theorem sessionToComplete_eq {db : Db} {videoId sid : UUID} {video : Video}
    {session : UploadSession} {parts : List CompletedUploadPart}
    (hopen : OpenUpload db videoId sid video session)
    (hparts : validateCompletedUploadParts session parts = .ok ()) :
    sessionToComplete db videoId parts = some session := by
  rw [sessionToComplete, hopen.requestSession_eq, Option.filter_some, hparts]
  rfl

theorem completeUpload_step (hl : db.Linked) (settings : Settings) (ends : CompletionEnds)
    (videoId : UUID) (parts : List CompletedUploadPart) (ids : IdStream)
    (uploadedAt completedAt : Timestamp) :
    CompleteStep storage db s ends videoId parts
      (completeUpload storage db s settings ends videoId parts ids uploadedAt completedAt).1 := by
  rw [completeUpload]
  cases hv : db.videos.get? videoId with
  | none =>
    have hnone : sessionToComplete db videoId parts = none := by
      rw [sessionToComplete, requestSession, hv]
      rfl
    simp only [hnone, completeVideoUpload, hv]
    exact .refused
  | some video =>
    cases hs : getActiveUploadSession db videoId video with
    | error e =>
      have hnone : sessionToComplete db videoId parts = none := by
        simp only [sessionToComplete, requestSession, hv, hs, Option.filter_none]
      simp only [hnone, completeVideoUpload, hv, hs]
      exact .refused
    | ok found =>
      obtain ⟨sid, session⟩ := found
      have hopen := getActiveUploadSession_eq_ok hv hs
      cases hparts : validateCompletedUploadParts session parts with
      | error e =>
        have hnone : sessionToComplete db videoId parts = none := by
          rw [sessionToComplete, hopen.requestSession_eq, Option.filter_some, hparts]
          rfl
        simp only [hnone, completeVideoUpload, hv, hs, hparts]
        exact .refused
      | ok u =>
        simp only [sessionToComplete_eq hopen hparts, completeVideoUpload, hv, hs, hparts]
        cases hcalls :
            storageCompletion (completionCalls storage s ends session parts).2 session with
        | error e =>
          dsimp only
          exact .failed _ hopen hparts
        | ok u =>
          dsimp only
          split
          · exact .rolledBack hopen hparts
          · rename_i db' messageIds hf
            obtain ⟨works, hw, -⟩ := finishCompletion_eq_ok (hopen.renditionsOf_eq_nil hl) hf
            exact .completed hopen hparts hcalls hw

/-! ### Aborting -/

/-- **What an abort does**: it works on an open upload, or on nothing. -/
inductive AbortStep (storage : S3ObjectStorage σ α) (db : Db) (s : σ) (videoId : UUID) :
    Db × σ → Prop
  | refused : AbortStep storage db s videoId (db, s)
  | aborted {sid : UUID} {video : Video} {session : UploadSession} {s' : σ}
      (abortOk : Bool) (now : Timestamp) (hopen : OpenUpload db videoId sid video session)
      (hcall : s' = s ∨
        storage.service.abort s session.objectKey session.objectUploadId = some s') :
      AbortStep storage db s videoId (finishAbort db videoId sid abortOk now, s')

theorem abortUpload_step (e : CallEnd) (videoId : UUID) (now : Timestamp) :
    AbortStep storage db s videoId (abortUpload storage db s e videoId now).1 := by
  rw [abortUpload]
  cases hv : db.videos.get? videoId with
  | none =>
    simp only [requestSession, hv, abortVideoUpload]
    exact .refused
  | some video =>
    cases hs : getActiveUploadSession db videoId video with
    | error e =>
      simp only [requestSession, hv, hs, abortVideoUpload]
      exact .refused
    | ok found =>
      obtain ⟨sid, session⟩ := found
      have hopen := getActiveUploadSession_eq_ok hv hs
      simp only [hopen.requestSession_eq, abortVideoUpload, hv, hs]
      rcases hrun : storage.abortMultipartUpload s e session.objectKey
        session.objectUploadId with ⟨s', returned⟩
      refine .aborted returned now hopen ?_
      rcases CallEnd.run_eq hrun with ⟨rfl, -⟩ | hsome
      · exact Or.inl rfl
      · exact Or.inr hsome

end RenditionPipeline
