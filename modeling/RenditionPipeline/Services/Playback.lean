import RenditionPipeline.Encoding.MasterPlaylist
import RenditionPipeline.Storage.Objects

/-!
# The playback service

Publishing the master playlist of a video when none of its renditions is active
any more, and serving the video to a player: the playback information, the
master playlist with its entries turned into API addresses, and a rendition's
playlist with its segments turned into signed addresses.

The functions take the video's renditions as the relationship gives them, in
order. What a storage call answers is a parameter: `uploadOk` says whether the
upload of the playlist returns, `sign` and `download` give the signed address and
the text of an object, or nothing where the call raises.
-/

namespace RenditionPipeline

/-- `HLS_MASTER_CONTENT_TYPE` -/
def hlsMasterContentType : String := "application/vnd.apple.mpegurl"

/-- `HLS_MASTER_CACHE_CONTROL` -/
def hlsMasterCacheControl : String := "max-age=60"

/-- `_has_active_renditions` -/
def hasActiveRenditions (renditions : List (UUID × Rendition)) : Bool :=
  renditions.any fun p => p.2.status.isActive

/-- The entry of a completed rendition in the master playlist. -/
def completedRendition (p : UUID × Rendition) : Option MasterPlaylistRendition :=
  if p.2.status = .done then
    p.2.outputPath.map fun outputPath => ⟨p.2.resolution, outputPath⟩
  else none

/-- `_completed_renditions` -/
def completedRenditions (renditions : List (UUID × Rendition)) :
    List MasterPlaylistRendition :=
  renditions.filterMap completedRendition

/-! ### Publishing -/

/-- What publishing does to a video: nothing while renditions are active, an
empty playback path when none is completed, or the uploaded playlist. -/
inductive Publication where
  | notReady
  | cleared
  | published (playbackPath : String) (playlist : StoredObject)
deriving DecidableEq

namespace Publication

/-- The playback path of the video after publishing. -/
def playbackPath (before : Option String) : Publication → Option String
  | notReady => before
  | cleared => none
  | published path _ => some path

/-- The bucket after publishing. -/
def store (bucket : Bucket) : Publication → Bucket
  | published path playlist => bucket.put path playlist
  | _ => bucket

end Publication

/-- The object that a master playlist is stored as. -/
def masterObject (playlist : String) : StoredObject :=
  ⟨some playlist, hlsMasterContentType, some hlsMasterCacheControl⟩

/-- `publish_master_playlist_if_ready` -/
def publishMasterPlaylistIfReady (videoId : UUID) (renditions : List (UUID × Rendition))
    (uploadOk : Bool) : Except Raised Publication :=
  if hasActiveRenditions renditions then .ok .notReady
  else if completedRenditions renditions = [] then .ok .cleared
  else do
    let playlist ← buildHlsMasterPlaylist videoId (completedRenditions renditions)
    if uploadOk then
      return .published (buildHlsMasterKey videoId) (masterObject playlist)
    else throw .objectStorageError

/-! ### Serving -/

/-- `_validate_playable_video` -/
def validatePlayableVideo (video : Video) (renditions : List (UUID × Rendition)) :
    Except Raised Unit :=
  if video.status ≠ .done then
    .error (.videoPlaybackNotReadyError "Video is not ready for playback")
  else if video.playbackPath = none then
    .error (.videoPlaybackNotReadyError "Video playback playlist is not available")
  else if completedRenditions renditions = [] then
    .error (.videoPlaybackNotReadyError "Video has no completed renditions")
  else .ok ()

/-- `StreamingInfo` -/
structure StreamingInfo where
  type : String
  masterPlaylistUrl : String
  expiresAt : Option Timestamp
deriving DecidableEq

/-- `VideoPlayback` -/
structure VideoPlayback where
  videoId : UUID
  status : ProcessingStatus
  playable : Bool
  streaming : StreamingInfo
  renditions : List (String × ProcessingStatus)
deriving DecidableEq

/-- `get_video_playback` -/
def getVideoPlayback (db : Db) (sign : String → Option String) (videoId : UUID)
    (masterPlaylistUrl : String) (now : Timestamp) (urlExpiresSeconds : ℤ) :
    Except Raised (Option VideoPlayback) :=
  match db.videos.get? videoId with
  | none => .ok none
  | some video => do
    validatePlayableVideo video (db.renditionsOf videoId)
    match sign (video.playbackPath.getD "") with
    | none => throw (.videoPlaybackStorageError "Storage unavailable")
    | some _ =>
      return some
        { videoId := videoId
          status := video.status
          playable := true
          streaming := ⟨"hls", masterPlaylistUrl, some (now + seconds urlExpiresSeconds)⟩
          renditions := (db.renditionsOf videoId).map fun p => (p.2.resolution, p.2.status) }

/-- The loop of `build_playback_master_playlist` over the lines. -/
def rewriteMasterLines (variantUrlForResolution : String → String) (lines : List String) :
    List String :=
  lines.map fun line =>
    if line ≠ "" ∧ Text.startsWith line "#" = false then
      variantUrlForResolution (Text.before line '/')
    else line

/-- `build_playback_master_playlist` -/
def buildPlaybackMasterPlaylist (db : Db) (videoId : UUID)
    (variantUrlForResolution : String → String) : Except Raised (Option String) :=
  match db.videos.get? videoId with
  | none => .ok none
  | some video => do
    validatePlayableVideo video (db.renditionsOf videoId)
    let playlist ← buildHlsMasterPlaylist videoId (completedRenditions (db.renditionsOf videoId))
    return some (Text.unlines
      (rewriteMasterLines variantUrlForResolution (Text.splitLines playlist)))

/-- A line of a rendition's playlist that is copied as it is. -/
def isCopiedLine (line : String) : Bool :=
  line = "" || Text.startsWith line "#" || Text.contains line "://"

/-- The loop of `build_playback_variant_playlist` over the lines: the keys that
are passed to `generate_playback_url`, in order, and the rewritten lines. -/
def rewriteVariantLines (sign : String → Option String) (videoId : UUID) (resolution : String) :
    List String → List String × Except Raised (List String)
  | [] => ([], .ok [])
  | line :: lines =>
    if isCopiedLine line then
      let rest := rewriteVariantLines sign videoId resolution lines
      (rest.1, rest.2.map (line :: ·))
    else
      match buildHlsSegmentKey videoId resolution (Text.removePrefix line "segments/") with
      | .error e => ([], .error e)
      | .ok segmentKey =>
        match sign segmentKey with
        | none => ([segmentKey], .error (.videoPlaybackStorageError "Storage unavailable"))
        | some url =>
          let rest := rewriteVariantLines sign videoId resolution lines
          (segmentKey :: rest.1, rest.2.map (url :: ·))

/-- The readiness check of `build_playback_variant_playlist`. -/
def isVariantReady (renditions : List (UUID × Rendition)) (resolution playlistKey : String) :
    Bool :=
  renditions.any fun p =>
    p.2.resolution = resolution && p.2.status = .done && p.2.outputPath = some playlistKey

/-- `build_playback_variant_playlist`, with the keys it passes to
`generate_playback_url`. -/
def buildPlaybackVariantPlaylist (db : Db) (download sign : String → Option String)
    (videoId : UUID) (resolution : String) : List String × Except Raised (Option String) :=
  match db.videos.get? videoId with
  | none => ([], .ok none)
  | some video =>
    match validatePlayableVideo video (db.renditionsOf videoId) with
    | .error e => ([], .error e)
    | .ok () =>
      match buildHlsPlaylistKey videoId resolution with
      | .error e => ([], .error e)
      | .ok playlistKey =>
        if isVariantReady (db.renditionsOf videoId) resolution playlistKey then
          match download playlistKey with
          | none => ([], .error (.videoPlaybackStorageError "Storage unavailable"))
          | some playlist =>
            let rest := rewriteVariantLines sign videoId resolution (Text.splitLines playlist)
            (rest.1, rest.2.map fun lines => some (Text.unlines lines))
        else ([], .error (.videoPlaybackNotReadyError "Rendition is not ready for playback"))

/-! ### Publishing, case by case -/

section Publishing

variable {videoId : UUID} {renditions : List (UUID × Rendition)} {uploadOk : Bool}
  {publication : Publication}

theorem mem_completedRenditions {c : MasterPlaylistRendition} :
    c ∈ completedRenditions renditions ↔
      ∃ p ∈ renditions, p.2.status = .done ∧ p.2.outputPath = some c.outputPath ∧
        p.2.resolution = c.resolution := by
  rw [completedRenditions, List.mem_filterMap]
  refine exists_congr fun p => and_congr_right fun _ => ?_
  rw [completedRendition]
  by_cases h : p.2.status = .done
  · rw [if_pos h, Option.map_eq_some_iff]
    constructor
    · rintro ⟨path, hp, rfl⟩
      exact ⟨h, hp, rfl⟩
    · rintro ⟨-, hp, hr⟩
      exact ⟨c.outputPath, hp, by rw [hr]⟩
  · rw [if_neg h]
    simp [h]

/-- **What a returning publication has done**: nothing while a rendition is
active; afterwards it has cleared the path of a video without completed
renditions, or stored the master playlist of the completed ones. -/
theorem publishMasterPlaylistIfReady_eq_ok
    (h : publishMasterPlaylistIfReady videoId renditions uploadOk = .ok publication) :
    (hasActiveRenditions renditions = true ∧ publication = .notReady) ∨
    (hasActiveRenditions renditions = false ∧ completedRenditions renditions = [] ∧
      publication = .cleared) ∨
    (hasActiveRenditions renditions = false ∧ completedRenditions renditions ≠ [] ∧
      ∃ playlist, buildHlsMasterPlaylist videoId (completedRenditions renditions) = .ok playlist ∧
        publication = .published (buildHlsMasterKey videoId) (masterObject playlist)) := by
  rw [publishMasterPlaylistIfReady] at h
  by_cases hactive : hasActiveRenditions renditions = true
  · rw [if_pos hactive, Except.ok.injEq] at h
    exact Or.inl ⟨hactive, h.symm⟩
  rw [if_neg hactive] at h
  have hidle : hasActiveRenditions renditions = false := by simpa using hactive
  by_cases hnone : completedRenditions renditions = []
  · rw [if_pos hnone, Except.ok.injEq] at h
    exact Or.inr (Or.inl ⟨hidle, hnone, h.symm⟩)
  rw [if_neg hnone] at h
  refine Or.inr (Or.inr ⟨hidle, hnone, ?_⟩)
  cases hp : buildHlsMasterPlaylist videoId (completedRenditions renditions) with
  | error e =>
    rw [hp] at h
    cases h
  | ok playlist =>
    rw [hp] at h
    cases uploadOk with
    | false => cases h
    | true =>
      refine ⟨playlist, rfl, ?_⟩
      simpa [bind, Except.bind, pure, Except.pure, eq_comm] using h

/-- **When a publication returns**: there is nothing to publish, or the paths lie below
the video's prefix and the upload returns. -/
theorem isOk_publishMasterPlaylistIfReady_iff :
    (publishMasterPlaylistIfReady videoId renditions uploadOk).isOk = true ↔
      hasActiveRenditions renditions = true ∨ completedRenditions renditions = [] ∨
        (uploadOk = true ∧ ∀ c ∈ completedRenditions renditions,
          Text.startsWith c.outputPath ("hls/" ++ videoId.str ++ "/") = true) := by
  rw [publishMasterPlaylistIfReady]
  by_cases hactive : hasActiveRenditions renditions = true
  · rw [if_pos hactive]
    exact iff_of_true rfl (Or.inl hactive)
  rw [if_neg hactive, or_iff_right hactive]
  by_cases hnone : completedRenditions renditions = []
  · rw [if_pos hnone]
    exact iff_of_true rfl (Or.inl hnone)
  rw [if_neg hnone, or_iff_right hnone, ← isOk_buildHlsMasterPlaylist_iff hnone]
  cases buildHlsMasterPlaylist videoId (completedRenditions renditions) with
  | error e => exact iff_of_false nofun fun h => nomatch h.2
  | ok playlist =>
    cases uploadOk with
    | false => exact iff_of_false nofun fun h => nomatch h.1
    | true => exact iff_of_true rfl ⟨rfl, rfl⟩

end Publishing

end RenditionPipeline
