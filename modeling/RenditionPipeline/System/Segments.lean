import RenditionPipeline.System.Fencing

/-!
# Segments and playlists

A worker uploads its segments first and its playlist last, and nothing is ever
taken out of the bucket. So a playlist that is there is whole
(`RenditionPipeline.PlaylistsWhole`): every segment it lists has been uploaded,
whichever execution has put it there and however many others have stopped on the
way. What a worker has uploaded so far is kept in its phase
(`RenditionPipeline.Phase.Uploaded`), and an execution works on the rendition that
its job is for (`RenditionPipeline.Described`).

Of the encoder it is assumed that the playlist it writes lists its own segments
(`RenditionPipeline.HlsOutput.ListsItsSegments`).
-/

namespace RenditionPipeline

/-! ### Whole playlists -/

/-- The media URIs of a playlist: its lines that are neither empty nor comments. -/
def mediaUris (playlist : String) : List String :=
  (Text.splitLines playlist).filter fun line => line ≠ "" && !Text.startsWith line "#"

/-- **What is assumed of the encoder**: the media URIs of the playlist are names of
segments, with or without the directory. -/
def HlsOutput.ListsItsSegments (output : HlsOutput) : Prop :=
  match output.playlist with
  | none => False
  | some playlist => ∀ uri ∈ mediaUris playlist,
    ∃ segment ∈ output.segments, uri = segment.name ∨ uri = "segments/" ++ segment.name

instance (output : HlsOutput) : Decidable output.ListsItsSegments := by
  rw [HlsOutput.ListsItsSegments]
  split <;> exact inferInstance

/-- A segment of a rendition has been uploaded. -/
def SegmentStored (bucket : Bucket) (videoId : UUID) (resolution name : String) : Prop :=
  ∃ key, buildHlsSegmentKey videoId resolution name = .ok key ∧ (bucket key).isSome

/-- **A playlist of a rendition is whole**: it is a text, and every segment that it
lists has been uploaded. -/
def WholePlaylist (bucket : Bucket) (videoId : UUID) (resolution : String)
    (object : StoredObject) : Prop :=
  ∃ playlist, object.body = some playlist ∧ ∀ uri ∈ mediaUris playlist,
    SegmentStored bucket videoId resolution (Text.removePrefix uri "segments/")

/-- Every playlist in the bucket is whole. -/
def PlaylistsWhole (bucket : Bucket) : Prop :=
  ∀ videoId resolution key object, buildHlsPlaylistKey videoId resolution = .ok key →
    bucket key = some object → WholePlaylist bucket videoId resolution object

/-- A bucket that has lost no object. -/
def Bucket.Keeps (bucket bucket' : Bucket) : Prop :=
  ∀ key, (bucket key).isSome → (bucket' key).isSome

namespace Bucket.Keeps

theorem refl (bucket : Bucket) : bucket.Keeps bucket := fun _ h => h

theorem put (bucket : Bucket) (key : String) (object : StoredObject) :
    bucket.Keeps (bucket.put key object) := fun _ h => Bucket.isSome_put h key object

theorem store (bucket : Bucket) (publication : Publication) :
    bucket.Keeps (publication.store bucket) := by
  cases publication with
  | published path playlist => exact put bucket path playlist
  | _ => exact refl bucket

end Bucket.Keeps

theorem SegmentStored.mono {bucket bucket' : Bucket} (hk : bucket.Keeps bucket') {videoId : UUID}
    {resolution name : String} (h : SegmentStored bucket videoId resolution name) :
    SegmentStored bucket' videoId resolution name := by
  obtain ⟨key, hkey, hsome⟩ := h
  exact ⟨key, hkey, hk key hsome⟩

theorem WholePlaylist.mono {bucket bucket' : Bucket} (hk : bucket.Keeps bucket') {videoId : UUID}
    {resolution : String} {object : StoredObject}
    (h : WholePlaylist bucket videoId resolution object) :
    WholePlaylist bucket' videoId resolution object := by
  obtain ⟨playlist, hbody, hall⟩ := h
  exact ⟨playlist, hbody, fun uri huri => (hall uri huri).mono hk⟩

namespace PlaylistsWhole

variable {bucket : Bucket}

/-- Storing an object under a key that is no playlist's. -/
theorem put_of_ne (h : PlaylistsWhole bucket) {key : String} (object : StoredObject)
    (hkey : ∀ v resolution key', buildHlsPlaylistKey v resolution = .ok key' → key' ≠ key) :
    PlaylistsWhole (bucket.put key object) := by
  intro v resolution key' object' hkey' hget
  rw [Bucket.put_of_ne (hkey v resolution key' hkey')] at hget
  exact (h v resolution key' object' hkey' hget).mono (Bucket.Keeps.put _ _ _)

/-- Storing a segment. -/
theorem put_segment (h : PlaylistsWhole bucket) {videoId : UUID} {resolution name key : String}
    (hkey : buildHlsSegmentKey videoId resolution name = .ok key) (object : StoredObject) :
    PlaylistsWhole (bucket.put key object) :=
  h.put_of_ne object fun _ _ _ hkey' => (segmentKey_ne_playlistKey hkey hkey').symm

/-- Publishing a master playlist. -/
theorem store (h : PlaylistsWhole bucket) {videoId : UUID} {renditions : List (UUID × Rendition)}
    {uploadOk : Bool} {publication : Publication}
    (hp : publishMasterPlaylistIfReady videoId renditions uploadOk = .ok publication) :
    PlaylistsWhole (publication.store bucket) := by
  rcases publishMasterPlaylistIfReady_eq_ok hp with ⟨-, rfl⟩ | ⟨-, -, rfl⟩ |
    ⟨-, -, playlist, -, rfl⟩
  · exact h
  · exact h
  · exact h.put_of_ne _ fun _ _ _ hkey => playlistKey_ne_masterKey hkey

/-- **Storing a whole playlist.** -/
theorem put_playlist (h : PlaylistsWhole bucket) {videoId : UUID} {resolution key : String}
    (hkey : buildHlsPlaylistKey videoId resolution = .ok key) {object : StoredObject}
    (hobject : WholePlaylist bucket videoId resolution object) :
    PlaylistsWhole (bucket.put key object) := by
  intro v resolution' key' object' hkey' hget
  by_cases he : key' = key
  · subst he
    obtain ⟨rfl, rfl⟩ := playlistKey_inj hkey hkey'
    rw [Bucket.put_self, Option.some.injEq] at hget
    rw [← hget]
    exact hobject.mono (Bucket.Keeps.put _ _ _)
  · rw [Bucket.put_of_ne he] at hget
    exact (h v resolution' key' object' hkey' hget).mono (Bucket.Keeps.put _ _ _)

end PlaylistsWhole

/-! ### What a worker has uploaded -/

/-- **What a worker in a phase has uploaded**: of the segments those that are not
to come, and at the end the playlist. -/
def Phase.Uploaded (bucket : Bucket) : Phase → Prop
  | .processing e (.uploading _ output todo) => output.ListsItsSegments ∧
    ∃ sent, output.segments = sent ++ todo ∧ ∀ segment ∈ sent,
      SegmentStored bucket e.context.videoId e.context.resolution segment.name
  | .concluding e result => result.skippedReason = none →
    ∃ key, result.outputPath = some key ∧
      buildHlsPlaylistKey e.context.videoId e.context.resolution = .ok key ∧ (bucket key).isSome
  | _ => True

theorem Phase.Uploaded.mono {bucket bucket' : Bucket} (hk : bucket.Keeps bucket') {phase : Phase}
    (h : phase.Uploaded bucket) : phase.Uploaded bucket' := by
  cases phase with
  | processing e progress =>
    cases progress with
    | uploading metadata output todo =>
      obtain ⟨hlists, sent, hsent, hall⟩ := h
      exact ⟨hlists, sent, hsent, fun segment hmem => (hall segment hmem).mono hk⟩
    | _ => trivial
  | concluding e result =>
    intro hreason
    obtain ⟨key, hpath, hkey, hsome⟩ := h hreason
    exact ⟨key, hpath, hkey, hk key hsome⟩
  | _ => trivial

/-- What a worker has uploaded for its message. -/
def Worker.Uploaded (bucket : Bucket) : Worker → Prop
  | .handling _ phase _ => phase.Uploaded bucket
  | _ => True

theorem Worker.Uploaded.mono {bucket bucket' : Bucket} (hk : bucket.Keeps bucket') {worker : Worker}
    (h : worker.Uploaded bucket) : worker.Uploaded bucket' := by
  cases worker with
  | handling m phase connected => exact Phase.Uploaded.mono hk h
  | _ => trivial

/-- Once all segments are uploaded, the playlist of the output is whole. -/
theorem HlsOutput.ListsItsSegments.whole {output : HlsOutput} (h : output.ListsItsSegments)
    {bucket : Bucket} {videoId : UUID} {resolution : String}
    (hsent : ∀ segment ∈ output.segments, SegmentStored bucket videoId resolution segment.name) :
    WholePlaylist bucket videoId resolution output.playlistObject := by
  rw [HlsOutput.ListsItsSegments] at h
  split at h
  · exact h.elim
  rename_i playlist hplaylist
  refine ⟨playlist, hplaylist, fun uri huri => ?_⟩
  obtain ⟨segment, hmem, he⟩ := h uri huri
  have hstored := hsent segment hmem
  rcases he with rfl | rfl
  · -- a stored name has no slash, so it does not start with the directory
    obtain ⟨key, hkey, -⟩ := hstored
    have hslash := (buildHlsSegmentKey_eq_ok_iff.mp hkey).2.1.2.2.2.1
    rw [Text.removePrefix, if_neg]
    · exact hsent segment hmem
    · intro hstarts
      exact hslash ((Text.startsWith_iff.mp hstarts).subset (by decide))
  · rw [Text.removePrefix_append]
    exact hstored

/-- **A step of the processor** keeps playlists whole, objects stored and the
account of the uploads, if the encoder lists its segments. -/
theorem ProcessMove.uploaded {bucket bucket' : Bucket} {e : Execution} {progress : Progress}
    {action : WorkerAction} {phase : Phase}
    (h : ProcessMove bucket e progress action bucket' phase)
    (hlists : ∀ output, action = .encoded output → output.ListsItsSegments)
    (hw : PlaylistsWhole bucket) (hu : (Phase.processing e progress).Uploaded bucket) :
    PlaylistsWhole bucket' ∧ bucket.Keeps bucket' ∧ phase.Uploaded bucket' ∧
      ∀ v, bucket' (buildHlsMasterKey v) = bucket (buildHlsMasterKey v) := by
  cases h with
  | applicable => exact ⟨hw, Bucket.Keeps.refl _, trivial, fun _ => rfl⟩
  | notApplicable => exact ⟨hw, Bucket.Keeps.refl _, nofun, fun _ => rfl⟩
  | encoded =>
    exact ⟨hw, Bucket.Keeps.refl _, ⟨hlists _ rfl, [], rfl, nofun⟩, fun _ => rfl⟩
  | @segment metadata output segment todo key hkey =>
    obtain ⟨hl, sent, hsent, hall⟩ := hu
    refine ⟨hw.put_segment hkey _, Bucket.Keeps.put _ _ _,
      ⟨hl, sent ++ [segment], by rw [hsent, List.append_assoc]; rfl, ?_⟩,
      fun v => Bucket.put_of_ne (segmentKey_ne_masterKey hkey).symm _ _⟩
    intro segment' hmem
    rcases List.mem_append.mp hmem with hmem | hmem
    · exact (hall segment' hmem).mono (Bucket.Keeps.put _ _ _)
    · obtain rfl : segment' = segment := by simpa using hmem
      exact ⟨key, hkey, by rw [Bucket.put_self]; rfl⟩
  | @playlist metadata output key hkey =>
    -- nothing is left to upload, so all that the playlist lists is there
    obtain ⟨hl, sent, hsent, hall⟩ := hu
    rw [List.append_nil] at hsent
    refine ⟨hw.put_playlist hkey (hl.whole (by rw [hsent]; exact hall)),
      Bucket.Keeps.put _ _ _, fun _ => ⟨key, rfl, hkey, by rw [Bucket.put_self]; rfl⟩,
      fun v => Bucket.put_of_ne (playlistKey_ne_masterKey hkey).symm _ _⟩
  | failed => exact ⟨hw, Bucket.Keeps.refl _, trivial, fun _ => rfl⟩
  | lost => exact ⟨hw, Bucket.Keeps.refl _, trivial, fun _ => rfl⟩

/-! ### What an execution is about -/

/-- **A context describes its job**: its video and resolution are those of the
rendition that the job is for. -/
def Described (db : Db) (context : EncodingJobContext) : Prop :=
  ∃ job r, db.jobs.get? context.jobId = some job ∧ db.renditions.get? job.renditionId = some r ∧
    r.videoId = context.videoId ∧ r.resolution = context.resolution

namespace Described

variable {db db' : Db} {context : EncodingJobContext}

/-- It is a matter of the shape. -/
theorem of_sameShape (h : Described db context) (hs : SameShape db db') :
    Described db' context := by
  obtain ⟨job, r, hj, hr, hv, hres⟩ := h
  obtain ⟨job', hj', -, hrid, -⟩ := hs.get?_job hj
  obtain ⟨r', hr', hv', hres'⟩ := hs.get?_rendition hr
  exact ⟨job', r', hj', by rw [hrid]; exact hr', by rw [hv', hv], by rw [hres', hres]⟩

/-- A move keeps it. -/
theorem move {scope : Scope} {w w' : World} {es : List Settlement} (hm : Move scope w es w')
    (hl : w.db.Linked) (h : Described w.db context) : Described w'.db context := by
  cases hm with
  | heartbeat now hget hrun => exact h.of_sameShape (sameShape_heartbeat _ _ _)
  | settled _ hs => exact h.of_sameShape (hs.sameShape hl.toReferenced)
  | completed _ hopen hc =>
    obtain ⟨job, r, hj, hr, hrest⟩ := h
    exact ⟨job, r, hc.get?_job.mpr (Or.inl hj), hc.get?_rendition.mpr (Or.inl hr), hrest⟩
  | outbox _ hmessages => exact h
  | created hvideo hsession _ _ _ _ => exact h
  | uploadFailed error _ hopen => exact h
  | aborted now _ hopen => exact h

/-- The context of a granted claim describes the job. -/
theorem claimed (hl : db.Linked) (loaded : LoadedJob db) (workerId : String) (now : Timestamp) :
    Described db (buildEncodingContext loaded workerId now) := by
  obtain ⟨r, hr, hv⟩ := hl.job_rendition _ _ loaded.get?_job
  obtain rfl : r = loaded.rendition := Option.some.inj (hr.symm.trans loaded.get?_rendition)
  exact ⟨loaded.job, loaded.rendition, loaded.get?_job, hr, hv, rfl⟩

/-- What a context says of the job as it is loaded. -/
theorem loaded (h : Described db context) (loaded : LoadedJob db)
    (hid : loaded.jobId = context.jobId) : loaded.rendition.videoId = context.videoId ∧
      loaded.rendition.resolution = context.resolution := by
  obtain ⟨job, r, hj, hr, hv, hres⟩ := h
  rw [← hid, loaded.get?_job, Option.some.injEq] at hj
  subst hj
  obtain rfl : loaded.rendition = r := Option.some.inj (loaded.get?_rendition.symm.trans hr)
  exact ⟨hv, hres⟩

end Described

end RenditionPipeline
