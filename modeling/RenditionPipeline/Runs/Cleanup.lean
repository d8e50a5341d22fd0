import RenditionPipeline.Runs.Uploads

/-!
# Cleaning up after a failed completion

Completing an upload makes an object of its parts, and then looks at what it has made.
If that is not what was announced the object is deleted again, and if it cannot be
deleted the session says so. An error of the storage itself is another class of
exception with a handler of its own, which deletes nothing: it may come from the first
call, and then there is no object, or from the second, and then there is one.

So a failed completion leaves no object behind that its session does not know of, except
where the metadata call raises after the object has been made
(`RenditionPipeline.failed_completion_recorded`).
-/

namespace RenditionPipeline

/-- The bucket after the storage calls of a completion: the object that is made of the
parts is under the key of the session, and `_delete_invalid_completed_upload` takes it
away. -/
def completionBucket (answers : CompletionAnswers) (session : UploadSession)
    (object : StoredObject) (bucket : Bucket) : Bucket :=
  if answers.complete then
    match validateCompletedUploadMetadata answers.metadata session with
    | .error (.videoUploadStorageError _) =>
      if answers.delete then (bucket.put session.objectKey object).delete session.objectKey
      else bucket.put session.objectKey object
    | _ => bucket.put session.objectKey object
  else bucket

/-- The bucket after `complete_video_upload`, which makes its storage calls only for a
complete list of parts. -/
def bucketAfterCompletion (answers : CompletionAnswers) (session : UploadSession)
    (parts : List CompletedUploadPart) (object : StoredObject) (bucket : Bucket) : Bucket :=
  match validateCompletedUploadParts session parts with
  | .error _ => bucket
  | .ok () => completionBucket answers session object bucket

/-- The text of an error says that the cleanup failed. -/
def SaysCleanupFailed (error : Option String) : Prop :=
  ∃ reason, error = some (reason ++ "; cleanup failed")

/-- **A recorded failure**: no work has been created, the session has failed, and no
object is left at its key unless the session says so. -/
structure RecordedFailure (db db' : Db) (sessionId : UUID) (key : String) (bucket' : Bucket) :
    Prop where
  renditions : db'.renditions = db.renditions
  jobs : db'.jobs = db.jobs
  outboxMessages : db'.outboxMessages = db.outboxMessages
  session : ∃ session', db'.uploadSessions.get? sessionId = some session' ∧
    session'.status = .failed ∧ (bucket' key = none ∨ SaysCleanupFailed session'.error)

/-! ### The branches of a completion -/

theorem not_saysCleanupFailed : ¬SaysCleanupFailed (some "storage upload completion failed") := by
  rintro ⟨reason, h⟩
  have hl := congrArg String.toList (Option.some.inj h)
  rw [String.toList_append] at hl
  have hsuffix : "; cleanup failed".toList <:+ "storage upload completion failed".toList :=
    ⟨reason.toList, hl.symm⟩
  exact absurd hsuffix (by decide)

/-- What the metadata of an object are refused with. -/
theorem validateCompletedUploadMetadata_error {metadata : Option ObjectMetadata}
    {session : UploadSession} {e : Raised}
    (h : validateCompletedUploadMetadata (some metadata) session = .error e) :
    ∃ message, e = .videoUploadStorageError message := by
  unfold validateCompletedUploadMetadata at h
  cases metadata with
  | none => exact ⟨_, (Except.error.inj h).symm⟩
  | some metadata =>
    dsimp only at h
    split_ifs at h
    · exact ⟨_, (Except.error.inj h).symm⟩
    · exact ⟨_, (Except.error.inj h).symm⟩

/-- Whatever the storage has answered, the exception of a failed completion is the same
class. -/
theorem completionFailure_raises (answers : CompletionAnswers) (e : Raised) :
    ∃ message, (completionFailure answers e).2 = .videoUploadStorageError message := by
  unfold completionFailure
  split
  · split <;> exact ⟨_, rfl⟩
  · exact ⟨_, rfl⟩

section Branches

variable {settings : Settings} {db : Db} {answers : CompletionAnswers} {videoId sid : UUID}
  {video : Video} {s : UploadSession} {parts : List CompletedUploadPart} {ids : IdStream}
  {uploadedAt completedAt : Timestamp}

/-- An incomplete list of parts is refused before any storage call. -/
theorem completeVideoUpload_of_invalid_parts (h : OpenUpload db videoId sid video s)
    (hparts : validateCompletedUploadParts s parts ≠ .ok ()) (message : String) :
    (completeVideoUpload settings db answers videoId parts ids uploadedAt completedAt).2 ≠
      .error (.videoUploadStorageError message) := by
  rw [validateCompletedUploadParts] at hparts
  split at hparts
  · rename_i hne
    simp only [completeVideoUpload, h.get?_video, h.getActiveUploadSession_eq,
      validateCompletedUploadParts, if_pos hne]
    simp
  · exact absurd rfl hparts

/-- A storage failure is committed on the session and raised. -/
theorem completeVideoUpload_of_storage_error (h : OpenUpload db videoId sid video s)
    (hparts : validateCompletedUploadParts s parts = .ok ()) {e : Raised}
    (he : storageCompletion answers s = .error e) :
    completeVideoUpload settings db answers videoId parts ids uploadedAt completedAt =
      (db.setSession sid (failedSession (completionFailure answers e).1),
        .error (completionFailure answers e).2) := by
  simp only [completeVideoUpload, h.get?_video, h.getActiveUploadSession_eq, hparts, he]

end Branches

/-! ### Creating the work raises no storage error -/

/-- A computation that raises, if anything, the violation of a constraint. -/
def RaisesOnlyIntegrity {α : Type} (x : Except Raised α) : Prop :=
  ∀ e, x = .error e → e = .integrityError

namespace RaisesOnlyIntegrity

variable {α β : Type}

theorem ok (a : α) : RaisesOnlyIntegrity (.ok a) := by
  rintro e ⟨⟩

theorem error : RaisesOnlyIntegrity (.error .integrityError : Except Raised α) := by
  rintro e ⟨⟩
  rfl

theorem bind {x : Except Raised α} {f : α → Except Raised β} (hx : RaisesOnlyIntegrity x)
    (hf : ∀ a, RaisesOnlyIntegrity (f a)) : RaisesOnlyIntegrity (x >>= f) := by
  intro e h
  cases x with
  | error e' =>
    obtain rfl : e' = e := Except.error.inj h
    exact hx e' rfl
  | ok a => exact hf a e h

end RaisesOnlyIntegrity

section Work

variable (db : Db) (id : UUID)

theorem addRendition_raises (r : Rendition) : RaisesOnlyIntegrity (db.addRendition id r) := by
  rw [Db.addRendition]
  split
  · exact .error
  · split
    · exact .error
    · exact .ok _

theorem addJob_raises (job : Job) : RaisesOnlyIntegrity (db.addJob id job) := by
  rw [Db.addJob]
  split
  · exact .error
  · split
    · exact .error
    · exact .ok _

theorem addOutboxMessage_raises (m : OutboxMessage) :
    RaisesOnlyIntegrity (db.addOutboxMessage id m) := by
  rw [Db.addOutboxMessage]
  split
  · exact .error
  · split
    · exact .error
    · exact .ok _

theorem createForPresets_raises (ids : IdStream) (videoId : UUID) (maxAttempts : ℕ)
    (presets : List EncodingPreset) (drawn : ℕ) :
    RaisesOnlyIntegrity (createForPresets ids videoId maxAttempts presets drawn db) := by
  induction presets generalizing drawn db with
  | nil => exact .ok _
  | cons preset presets ih =>
    exact (addRendition_raises _ _ _).bind fun db₁ => (addJob_raises _ _ _).bind fun db₂ =>
      (ih db₂ (drawn + 2)).bind fun _ => .ok _

theorem createOutboxMessages_raises (newId : UUID → UUID) (now : Timestamp)
    (jobs : List (UUID × Job)) : RaisesOnlyIntegrity (createOutboxMessages newId now jobs db) := by
  induction jobs generalizing db with
  | nil => exact .ok _
  | cons p jobs ih =>
    exact (addOutboxMessage_raises _ _ _).bind fun db₁ => (ih db₁).bind fun _ => .ok _

/-- **The last piece of a completion** violates a constraint or goes through. -/
theorem finishCompletion_raises (settings : Settings) (videoId sid : UUID) (ids : IdStream)
    (uploadedAt completedAt : Timestamp) : RaisesOnlyIntegrity
      (finishCompletion settings db videoId sid ids uploadedAt completedAt) := by
  refine RaisesOnlyIntegrity.bind ?_ fun _ => createOutboxMessages_raises _ _ _ _
  rw [createRenditionsAndJobs]
  split
  · exact .ok _
  · exact createForPresets_raises _ _ _ _ _ _

end Work

section Branches

variable {settings : Settings} {db : Db} {answers : CompletionAnswers} {videoId sid : UUID}
  {video : Video} {s : UploadSession} {parts : List CompletedUploadPart} {ids : IdStream}
  {uploadedAt completedAt : Timestamp}

/-- Once the storage calls have gone through, no storage error is raised any more. -/
theorem completeVideoUpload_of_storage_ok (h : OpenUpload db videoId sid video s)
    (hstorage : storageCompletion answers s = .ok ()) (message : String) :
    (completeVideoUpload settings db answers videoId parts ids uploadedAt completedAt).2 ≠
      .error (.videoUploadStorageError message) := by
  by_cases hparts : validateCompletedUploadParts s parts = .ok ()
  · cases hfinish : finishCompletion settings db videoId sid ids uploadedAt completedAt with
    | error e =>
      obtain rfl := finishCompletion_raises db settings videoId sid ids uploadedAt completedAt e
        hfinish
      simp [completeVideoUpload, h.get?_video, h.getActiveUploadSession_eq, hparts, hstorage,
        hfinish]
    | ok result =>
      simp [completeVideoUpload, h.get?_video, h.getActiveUploadSession_eq, hparts, hstorage,
        hfinish]
  · exact completeVideoUpload_of_invalid_parts h hparts message

/-- The session after a storage failure. -/
theorem get?_failedSession (h : OpenUpload db videoId sid video s) (error : String) :
    (db.setSession sid (failedSession error)).uploadSessions.get? sid =
      some (failedSession error s) := by
  rw [Db.setSession, Table.get?_modify_self, h.get?_session.1, Option.map_some]

/-- A storage failure creates no work, and is recorded as its session and its object are. -/
theorem recordedFailure_iff (h : OpenUpload db videoId sid video s) (error : String)
    (bucket : Bucket) :
    RecordedFailure db (db.setSession sid (failedSession error)) sid s.objectKey bucket ↔
      bucket s.objectKey = none ∨ SaysCleanupFailed (some error) := by
  constructor
  · rintro ⟨-, -, -, s', hs', -, hclean⟩
    rw [get?_failedSession h, Option.some.injEq] at hs'
    rwa [← hs'] at hclean
  · exact fun hclean => ⟨rfl, rfl, rfl, _, get?_failedSession h error, rfl, hclean⟩

/-- **What a storage failure leaves behind**, by the call that has raised or the answer
that was refused. -/
theorem completionBucket_clean_iff {e : Raised} (he : storageCompletion answers s = .error e)
    (object : StoredObject) (bucket : Bucket) :
    (completionBucket answers s object bucket s.objectKey = none ∨
        SaysCleanupFailed (some (completionFailure answers e).1)) ↔
      (answers.complete = true → answers.metadata ≠ none) ∧
        (answers.complete = false → bucket s.objectKey = none) := by
  obtain ⟨complete, metadata, delete⟩ := answers
  cases complete with
  | false =>
    -- the first call has raised: the bucket is as it was
    obtain rfl : Raised.objectStorageError = e := by simpa [storageCompletion] using he
    simp [completionBucket, completionFailure, not_saysCleanupFailed]
  | true =>
    cases metadata with
    | none =>
      -- the object has been made, and the handler of storage errors leaves it
      obtain rfl : Raised.objectStorageError = e := by
        simpa [storageCompletion, validateCompletedUploadMetadata] using he
      simp [completionBucket, validateCompletedUploadMetadata, completionFailure,
        not_saysCleanupFailed]
    | some metadata =>
      have hvalid : validateCompletedUploadMetadata (some metadata) s = .error e := he
      obtain ⟨message, rfl⟩ := validateCompletedUploadMetadata_error hvalid
      refine iff_of_true ?_ (by simp)
      cases delete with
      | true => exact Or.inl (by simp [completionBucket, hvalid])
      | false => exact Or.inr ⟨message, rfl⟩

/-- **A failed completion leaves no unrecorded object behind** just when the list of parts
is incomplete, or the metadata call does not raise after the object has been made and no
object was there before a first call that raises. -/
theorem failed_completion_recorded (settings : Settings) (db : Db) (answers : CompletionAnswers)
    (videoId sid : UUID) (video : Video) (s : UploadSession) (parts : List CompletedUploadPart)
    (ids : IdStream) (uploadedAt completedAt : Timestamp) (object : StoredObject) (bucket : Bucket)
    (h : OpenUpload db videoId sid video s) :
    (∀ message,
      (completeVideoUpload settings db answers videoId parts ids uploadedAt completedAt).2 =
          .error (.videoUploadStorageError message) →
        RecordedFailure db
          (completeVideoUpload settings db answers videoId parts ids uploadedAt completedAt).1 sid
          s.objectKey (bucketAfterCompletion answers s parts object bucket)) ↔
    (validateCompletedUploadParts s parts = .ok () →
      (answers.complete = true → answers.metadata ≠ none) ∧
      (answers.complete = false → bucket s.objectKey = none)) := by
  by_cases hparts : validateCompletedUploadParts s parts = .ok ()
  swap
  · refine iff_of_true (fun message hraised => ?_) fun hvalid => absurd hvalid hparts
    exact absurd hraised (completeVideoUpload_of_invalid_parts h hparts message)
  have hbucket : bucketAfterCompletion answers s parts object bucket =
      completionBucket answers s object bucket := by
    rw [bucketAfterCompletion, hparts]
  rw [hbucket, imp_iff_right hparts]
  cases he : storageCompletion answers s with
  | ok _ =>
    refine iff_of_true (fun message hraised =>
      absurd hraised (completeVideoUpload_of_storage_ok h he message)) ?_
    obtain ⟨hcomplete, hmetadata⟩ := storageCompletion_eq_ok_iff.mp he
    simp [hcomplete, hmetadata]
  | error e =>
    rw [← completionBucket_clean_iff he, completeVideoUpload_of_storage_error h hparts he]
    obtain ⟨message, hmessage⟩ := completionFailure_raises answers e
    constructor
    · exact fun hrecorded => (recordedFailure_iff h _ _).mp
        (hrecorded message (congrArg Except.error hmessage))
    · exact fun hclean _ _ => (recordedFailure_iff h _ _).mpr hclean

end Branches

/-- The database with one upload under way, of the video with the id 0. -/
def sampleOpenUpload : Db := (Run.start.exec (sampleUpload.take 1)).world.db

theorem openUpload_sample :
    ∃ video s, OpenUpload sampleOpenUpload (sampleId 0) (sampleId 1) video s :=
  ⟨_, _, rfl, rfl, rfl⟩

/-- An object of another size is deleted, and the failure is recorded. -/
theorem failed_completion_recorded_mismatch : ∃ s,
    sampleOpenUpload.uploadSessions.get? (sampleId 1) = some s ∧
    RecordedFailure sampleOpenUpload
      (completeVideoUpload sampleSettings sampleOpenUpload ⟨true, some (some ⟨9, none⟩), true⟩
        (sampleId 0) [⟨1, "etag"⟩] (fun n => sampleId (10 + n)) 1 1).1 (sampleId 1) s.objectKey
      (bucketAfterCompletion ⟨true, some (some ⟨9, none⟩), true⟩ s [⟨1, "etag"⟩]
        ⟨none, "video/mp4", none⟩ Bucket.empty) := by
  obtain ⟨video, s, h⟩ := openUpload_sample
  refine ⟨s, h.get?_session.1, ?_⟩
  exact (failed_completion_recorded sampleSettings sampleOpenUpload
    ⟨true, some (some ⟨9, none⟩), true⟩ (sampleId 0) (sampleId 1) video s [⟨1, "etag"⟩]
    (fun n => sampleId (10 + n)) 1 1 ⟨none, "video/mp4", none⟩ Bucket.empty h).mpr
    (fun _ => ⟨fun _ => by simp, fun _ => rfl⟩) _ rfl

/-- **The metadata call raises after the object has been made**: the completion fails, the
object stays, and its session does not say so. -/
theorem object_left_behind : ∃ s,
    sampleOpenUpload.uploadSessions.get? (sampleId 1) = some s ∧
    (completeVideoUpload sampleSettings sampleOpenUpload ⟨true, none, true⟩ (sampleId 0)
      [⟨1, "etag"⟩] (fun n => sampleId (10 + n)) 1 1).2 =
        .error (.videoUploadStorageError "storage upload completion failed") ∧
    ¬RecordedFailure sampleOpenUpload
      (completeVideoUpload sampleSettings sampleOpenUpload ⟨true, none, true⟩ (sampleId 0)
        [⟨1, "etag"⟩] (fun n => sampleId (10 + n)) 1 1).1 (sampleId 1) s.objectKey
      (bucketAfterCompletion ⟨true, none, true⟩ s [⟨1, "etag"⟩] ⟨none, "video/mp4", none⟩
        Bucket.empty) := by
  obtain ⟨video, s, h⟩ := openUpload_sample
  have hparts : validateCompletedUploadParts s [⟨1, "etag"⟩] = .ok () := by
    have hs := h.get?_session.1
    obtain rfl := Option.some.inj hs
    rfl
  have he : storageCompletion ⟨true, none, true⟩ s = .error .objectStorageError := rfl
  refine ⟨s, h.get?_session.1, ?_, ?_⟩
  · rw [completeVideoUpload_of_storage_error h hparts he]
    rfl
  · rw [completeVideoUpload_of_storage_error h hparts he, recordedFailure_iff h,
      bucketAfterCompletion, hparts]
    have hiff := completionBucket_clean_iff he ⟨none, "video/mp4", none⟩ Bucket.empty
    rw [hiff]
    simp

end RenditionPipeline
