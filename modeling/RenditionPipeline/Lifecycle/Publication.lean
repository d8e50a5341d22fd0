import RenditionPipeline.Lifecycle.Coherence

/-!
# Publications

When the last rendition of a video is over, the master playlist of the completed
ones is due. `RenditionPipeline.PublicationState` says that a world is up to date
in this: a video with work left has no playback path, a completed rendition has
the key of its playlist as its path, and a video without work left is published,
where publishing is `due`.

The parameter `due` is what statements about runs differ in. A settlement that
comes to a publication keeps the state whatever is due
(`RenditionPipeline.Move.publicationState`); one that comes to none must not be
the last of a video whose publication is due and not empty, and the scope
`RenditionPipeline.publishScope` says just that.
-/

namespace RenditionPipeline

/-- The renditions of a job's video once the job is settled. -/
def settledRenditions {db : Db} (loaded : LoadedJob db) (o : Outcome) :
    List (UUID × Rendition) :=
  (db.renditionsOf loaded.rendition.videoId).map fun p =>
    if p.1 = loaded.job.renditionId then (p.1, o.rendition p.2) else p

/-- A video is published as the playlist of some renditions: its playback path is
its master key and the playlist is stored there, or it has no playback path if
there are none. -/
def PublishedAs (bucket : Bucket) (videoId : UUID) (video : Video)
    (completed : List MasterPlaylistRendition) : Prop :=
  (completed = [] → video.playbackPath = none) ∧
  (completed ≠ [] → video.playbackPath = some (buildHlsMasterKey videoId) ∧
    ∃ playlist, buildHlsMasterPlaylist videoId completed = .ok playlist ∧
      bucket (buildHlsMasterKey videoId) = some (masterObject playlist))

/-- **Publications are up to date.** -/
structure PublicationState (due : List (UUID × Rendition) → Prop) (w : World) : Prop where
  /-- A video with work to come has no playback path. -/
  path_none : ∀ vid video, w.db.videos.get? vid = some video →
    hasActiveRenditions (w.db.renditionsOf vid) = true ∨ w.db.renditionsOf vid = [] →
    video.playbackPath = none
  /-- A completed rendition has the key of its playlist. -/
  outputPath : ∀ rid r, w.db.renditions.get? rid = some r → r.status = .done →
    ∃ key, buildHlsPlaylistKey r.videoId r.resolution = .ok key ∧ r.outputPath = some key
  /-- A video without work to come is published, where that is due. -/
  published : ∀ vid video, w.db.videos.get? vid = some video → w.db.renditionsOf vid ≠ [] →
    hasActiveRenditions (w.db.renditionsOf vid) = false → due (w.db.renditionsOf vid) →
    PublishedAs w.bucket vid video (completedRenditions (w.db.renditionsOf vid))

/-- **The settlements that keep publications up to date**: a success brings the
key of its playlist, and a settlement without a publication leaves nothing to
publish that is due. -/
def publishScope (due : List (UUID × Rendition) → Prop) : Scope :=
  { Scope.all with
    settles := fun _ loaded o publication =>
      (∀ outputPath now, o = .done outputPath now → ∃ key, outputPath = some key ∧
        buildHlsPlaylistKey loaded.rendition.videoId loaded.rendition.resolution = .ok key) ∧
      (publication = none → hasActiveRenditions (settledRenditions loaded o) = false →
        due (settledRenditions loaded o) →
        completedRenditions (settledRenditions loaded o) = []) }

/-! ### Small facts about lists of renditions -/

theorem hasActiveRenditions_eq_true_iff {renditions : List (UUID × Rendition)} :
    hasActiveRenditions renditions = true ↔ ∃ p ∈ renditions, p.2.status.isActive = true := by
  rw [hasActiveRenditions, List.any_eq_true]

theorem completedRenditions_eq_nil_of {renditions : List (UUID × Rendition)}
    (h : ∀ p ∈ renditions, p.2.status ≠ .done) : completedRenditions renditions = [] := by
  rw [List.eq_nil_iff_forall_not_mem]
  intro c hc
  obtain ⟨p, hp, hdone, -⟩ := mem_completedRenditions.mp hc
  exact h p hp hdone

/-- The job of a loaded rendition is the one that was loaded. -/
theorem LoadedJob.mem_renditionsOf {db : Db} (loaded : LoadedJob db) :
    (loaded.job.renditionId, loaded.rendition) ∈ db.renditionsOf loaded.rendition.videoId :=
  Db.mem_renditionsOf.mpr ⟨loaded.get?_rendition, rfl⟩

/-- The rendition of an active job is active. -/
theorem Paired.isActive {job r : ProcessingStatus} (h : Paired job r) :
    r.isActive = job.isActive := by
  cases h <;> rfl

/-- The rendition of an active job has the status of the job. -/
theorem Paired.eq_of_isActive {job r : ProcessingStatus} (h : Paired job r)
    (hactive : job.isActive = true) : r = job := by
  cases h with
  | skipped => cases hactive
  | _ => rfl

/-- The settled rendition is among those of its video. -/
theorem mem_settledRenditions {db : Db} (loaded : LoadedJob db) (o : Outcome) :
    (loaded.job.renditionId, o.rendition loaded.rendition) ∈ settledRenditions loaded o :=
  List.mem_map.mpr ⟨_, loaded.mem_renditionsOf, if_pos rfl⟩

/-- A rendition that is set pending or running keeps its video at work. -/
theorem hasActiveRenditions_settled {db : Db} {loaded : LoadedJob db} {o : Outcome}
    (h : ((o.rendition loaded.rendition).status).isActive = true) :
    hasActiveRenditions (settledRenditions loaded o) = true :=
  hasActiveRenditions_eq_true_iff.mpr ⟨_, mem_settledRenditions loaded o, h⟩

theorem LoadedJob.hasActiveRenditions {db : Db} (loaded : LoadedJob db) (hc : db.Coherent)
    (h : loaded.job.status.isActive = true) :
    hasActiveRenditions (db.renditionsOf loaded.rendition.videoId) = true := by
  obtain ⟨r, hr, hp⟩ := hc.paired _ _ loaded.get?_job
  obtain rfl : r = loaded.rendition := Option.some.inj (hr.symm.trans loaded.get?_rendition)
  exact hasActiveRenditions_eq_true_iff.mpr
    ⟨_, loaded.mem_renditionsOf, by rw [hp.isActive, h]⟩

/-! ### The moves keep publications up to date -/

namespace PublicationState

variable {due : List (UUID × Rendition) → Prop}

theorem empty : PublicationState due World.empty where
  path_none := fun _ _ h => by cases h
  outputPath := fun _ _ h => by cases h
  published := fun _ _ h => by cases h

/-- The state is a matter of the videos, the renditions and the objects at the
master keys. -/
theorem of_same {w w' : World} (h : PublicationState due w)
    (hvideos : w'.db.videos.view Video.playbackPath = w.db.videos.view Video.playbackPath)
    (hrenditions : w'.db.renditions = w.db.renditions)
    (hbucket : ∀ vid, w'.bucket (buildHlsMasterKey vid) = w.bucket (buildHlsMasterKey vid)) :
    PublicationState due w' where
  path_none := by
    intro vid video hv hidle
    obtain ⟨v, hv', hp⟩ := Table.get?_of_view_eq hvideos.symm hv
    rw [← hp]
    rw [Db.renditionsOf_congr hrenditions] at hidle
    exact h.path_none vid v hv' hidle
  outputPath := by
    intro rid r hr
    rw [hrenditions] at hr
    exact h.outputPath rid r hr
  published := by
    intro vid video hv hne hover hdue
    obtain ⟨v, hv', hp⟩ := Table.get?_of_view_eq hvideos.symm hv
    rw [Db.renditionsOf_congr hrenditions] at hne hover hdue ⊢
    have hpub := h.published vid v hv' hne hover hdue
    rwa [PublishedAs, hp, ← hbucket] at hpub

theorem created {w : World} (h : PublicationState due w) (hl : w.db.Linked)
    {videoId sessionId : UUID} {video : Video} {session : UploadSession}
    (hvideo : w.db.videos.get? videoId = none)
    (hsession : w.db.uploadSessions.get? sessionId = none)
    (hpath : video.playbackPath = none) :
    PublicationState due { w with db := { w.db with
      videos := w.db.videos.insert videoId video hvideo
      uploadSessions := w.db.uploadSessions.insert sessionId session hsession } } where
  path_none := by
    intro vid v hv hidle
    rw [Table.get?_insert] at hv
    by_cases hvid : vid = videoId
    · rw [if_pos hvid, Option.some.injEq] at hv
      rw [← hv, hpath]
    · rw [if_neg hvid] at hv
      exact h.path_none vid v hv hidle
  outputPath := h.outputPath
  published := by
    intro vid v hv hne hover hdue
    rw [Table.get?_insert] at hv
    by_cases hvid : vid = videoId
    · rw [hvid] at hne
      exact absurd (hl.renditionsOf_eq_nil_of_none hvideo) hne
    · rw [if_neg hvid] at hv
      exact h.published vid v hv hne hover hdue

theorem completed {w : World} {db' : Db} (h : PublicationState due w) {videoId sessionId : UUID}
    {maxAttempts : ℕ} {uploadedAt completedAt : Timestamp} {works : List Work}
    (hc : Completed w.db videoId sessionId maxAttempts uploadedAt completedAt works db')
    (hnone : w.db.renditionsOf videoId = []) :
    PublicationState due { w with db := db' } where
  path_none := by
    intro vid video hv hidle
    by_cases hvid : vid = videoId
    · subst hvid
      rw [hc.videos, Table.get?_modify_self, Option.map_eq_some_iff] at hv
      obtain ⟨v, hv, rfl⟩ := hv
      exact h.path_none vid v hv (Or.inr hnone)
    · rw [hc.videos, Table.get?_modify_of_ne hvid] at hv
      rw [hc.renditionsOf_of_ne hvid] at hidle
      exact h.path_none vid video hv hidle
  outputPath := by
    intro rid r hr hdone
    rcases hc.get?_rendition.mp hr with hr | ⟨w, -, -, rfl⟩
    · exact h.outputPath rid r hr hdone
    · cases hdone
  published := by
    intro vid video hv hne hover hdue
    by_cases hvid : vid = videoId
    · -- all the work of a new upload is still to come
      subst hvid
      exfalso
      rw [hc.renditionsOf_self hnone] at hne hover
      obtain ⟨p, hp⟩ := List.exists_mem_of_ne_nil _ hne
      obtain ⟨w, hw, rfl⟩ := List.mem_map.mp hp
      have hactive : hasActiveRenditions
          (works.map fun w => (w.renditionId, newRendition vid w.preset)) = true :=
        hasActiveRenditions_eq_true_iff.mpr ⟨_, hp, rfl⟩
      rw [hover] at hactive
      cases hactive
    · rw [hc.videos, Table.get?_modify_of_ne hvid] at hv
      rw [hc.renditionsOf_of_ne hvid] at hne hover hdue ⊢
      exact h.published vid video hv hne hover hdue

/-- Publishing one video leaves the playlist of every other one alone. -/
theorem store_master_of_ne {db db' : Db} {loaded : LoadedJob db} {o : Outcome}
    {publication : Option Publication} (hs : Settled loaded o publication db') {vid : UUID}
    (hne : vid ≠ loaded.rendition.videoId) (bucket : Bucket) :
    (publication.getD .notReady).store bucket (buildHlsMasterKey vid) =
      bucket (buildHlsMasterKey vid) := by
  cases publication with
  | none => rfl
  | some p =>
    obtain ⟨uploadOk, hp⟩ := hs.published p rfl
    rcases publishMasterPlaylistIfReady_eq_ok hp with ⟨-, rfl⟩ | ⟨-, -, rfl⟩ |
      ⟨-, -, playlist, -, rfl⟩
    · rfl
    · rfl
    · exact Bucket.put_of_ne (fun he => hne (buildHlsMasterKey_injective he)) _ _

/-- A publication whose transaction is rolled back has stored a playlist of a video
with work to come, which is not published yet. -/
theorem rolledBack {w : World} {db' : Db} (h : PublicationState due w) (hc : w.db.Coherent)
    {loaded : LoadedJob w.db} {o : Outcome} {publication : Option Publication}
    (hs : Settled loaded o publication db') :
    PublicationState due ⟨w.db, (publication.getD .notReady).store w.bucket⟩ where
  path_none := h.path_none
  outputPath := h.outputPath
  published := by
    intro vid video hv hne hover hdue
    by_cases hvid : vid = loaded.rendition.videoId
    · rw [hvid] at hover
      rw [loaded.hasActiveRenditions hc hs.enabled.isActive] at hover
      cases hover
    · have hpub := h.published vid video hv hne hover hdue
      rwa [PublishedAs, ← store_master_of_ne hs hvid w.bucket] at hpub

/-- **Settling a job keeps publications up to date**, within the scope. -/
theorem settled {w : World} {db' : Db} (h : PublicationState due w) (hc : w.db.Coherent)
    {loaded : LoadedJob w.db} {o : Outcome} {publication : Option Publication}
    (hscope : (publishScope due).settles w.db loaded o publication)
    (hs : Settled loaded o publication db') :
    PublicationState due ⟨db', (publication.getD .notReady).store w.bucket⟩ := by
  obtain ⟨hdone, hlast⟩ := hscope
  -- the settled job was active, so its video had no playback path yet
  have hbefore : loaded.video.playbackPath = none :=
    h.path_none _ _ loaded.get?_video
      (Or.inl (loaded.hasActiveRenditions hc hs.enabled.isActive))
  obtain ⟨video', hvideo', -, hpath'⟩ := hs.get?_video_self
  rw [hbefore] at hpath'
  have hafter : db'.renditionsOf loaded.rendition.videoId = settledRenditions loaded o :=
    hs.renditionsOf _
  refine ⟨?_, ?_, ?_⟩
  · intro vid video hv hidle
    by_cases hvid : vid = loaded.rendition.videoId
    · subst hvid
      obtain rfl : video' = video := Option.some.inj (hvideo'.symm.trans hv)
      rw [hpath']
      cases publication with
      | none => rfl
      | some p =>
        obtain ⟨uploadOk, hp⟩ := hs.published p rfl
        rcases publishMasterPlaylistIfReady_eq_ok hp with ⟨-, rfl⟩ | ⟨-, -, rfl⟩ |
          ⟨hover, hne, playlist, -, rfl⟩
        · rfl
        · rfl
        · rcases hidle with hactive | hnil
          · rw [hover] at hactive
            cases hactive
          · rw [hnil] at hne
            exact absurd rfl hne
    · rw [hs.get?_video_of_ne hvid] at hv
      rw [hs.renditionsOf_of_ne hvid] at hidle
      exact h.path_none vid video hv hidle
  · intro rid r hr hrdone
    by_cases hrid : rid = loaded.job.renditionId
    · rw [hrid, hs.get?_rendition_self, Option.some.injEq] at hr
      subst hr
      cases o with
      | done outputPath now =>
        obtain ⟨key, rfl, hkey⟩ := hdone outputPath now rfl
        exact ⟨key, hkey, rfl⟩
      | _ => cases hrdone
    · rw [hs.get?_rendition_of_ne hrid] at hr
      exact h.outputPath rid r hr hrdone
  · intro vid video hv hne hover hdue
    by_cases hvid : vid = loaded.rendition.videoId
    · subst hvid
      obtain rfl : video' = video := Option.some.inj (hvideo'.symm.trans hv)
      cases publication with
      | none =>
        rw [hafter] at hover hdue ⊢
        exact ⟨fun _ => hpath', fun hsome => absurd (hlast rfl hover hdue) hsome⟩
      | some p =>
        obtain ⟨uploadOk, hp⟩ := hs.published p rfl
        rcases publishMasterPlaylistIfReady_eq_ok hp with ⟨hactive, -⟩ | ⟨-, hnone, rfl⟩ |
          ⟨-, hsome, playlist, hplaylist, rfl⟩
        · rw [hactive] at hover
          cases hover
        · exact ⟨fun _ => hpath', fun hsome => absurd hnone hsome⟩
        · exact ⟨fun hnone => absurd hnone hsome,
            fun _ => ⟨hpath', playlist, hplaylist, Bucket.put_self _ _ _⟩⟩
    · rw [hs.get?_video_of_ne hvid] at hv
      rw [hs.renditionsOf_of_ne hvid] at hne hover hdue ⊢
      have hpub := h.published vid video hv hne hover hdue
      rwa [PublishedAs, ← store_master_of_ne hs hvid w.bucket] at hpub

end PublicationState

/-- **Publications are up to date after every move in the scope.** -/
theorem Move.publicationState {due : List (UUID × Rendition) → Prop} {w w' : World}
    {e : List Settlement} (hm : Move (publishScope due) w e w') (hl : w.db.Linked)
    (hc : w.db.Coherent) (h : PublicationState due w) : PublicationState due w' := by
  cases hm with
  | heartbeat now hget hrun => exact h.of_same rfl rfl fun _ => rfl
  | settled hscope hs => exact h.settled hc hscope hs
  | outbox _ hmessages => exact h.of_same rfl rfl fun _ => rfl
  | created hvideo hsession _ hpath _ _ => exact h.created hl hvideo hsession hpath
  | completed _ hopen hcomp => exact h.completed hcomp (hopen.renditionsOf_eq_nil hl)
  | uploadFailed error _ hopen => exact h.of_same rfl rfl fun _ => rfl
  | aborted now _ hopen =>
    exact h.of_same (Table.view_modify fun _ _ => rfl) rfl fun _ => rfl

end RenditionPipeline
