import RenditionPipeline.Encoding.Presets
import RenditionPipeline.Storage.KeySpace

/-!
# The master playlist

The text that lists the renditions of a video: two header lines, and for each
rendition a tag line with the numbers of its preset and the path of its playlist
below the video's prefix. For the output paths that the worker writes the text
is known exactly (`RenditionPipeline.buildHlsMasterPlaylist_eq_ok`), and no line
of it has a line boundary inside, so that splitting it gives the lines back.
-/

namespace RenditionPipeline

/-- `MasterPlaylistRendition` -/
structure MasterPlaylistRendition where
  resolution : String
  outputPath : String
deriving DecidableEq

/-- `_playlist_uri` -/
def playlistUri (videoId : UUID) (outputPath : String) : Except Raised String :=
  if Text.startsWith outputPath ("hls/" ++ videoId.str ++ "/") then
    .ok (Text.removePrefix outputPath ("hls/" ++ videoId.str ++ "/"))
  else .error (.masterPlaylistError "rendition output path is outside video HLS prefix")

/-- The `#EXT-X-STREAM-INF` line of a preset. -/
def streamInf (preset : EncodingPreset) : String :=
  "#EXT-X-STREAM-INF:" ++ "BANDWIDTH=" ++ toString preset.videoBitrate ++ "," ++
    "RESOLUTION=" ++ toString preset.width ++ "x" ++ toString preset.height

/-- The two header lines of a master playlist. -/
def masterHeader : List String := ["#EXTM3U", "#EXT-X-VERSION:3"]

/-- The loop of `build_hls_master_playlist` over the renditions. -/
def masterLines (videoId : UUID) : List MasterPlaylistRendition → Except Raised (List String)
  | [] => .ok []
  | rendition :: renditions => do
    let uri ← playlistUri videoId rendition.outputPath
    let lines ← masterLines videoId renditions
    return streamInf (getHlsPreset rendition.resolution) :: uri :: lines

/-- `build_hls_master_playlist` -/
def buildHlsMasterPlaylist (videoId : UUID) (renditions : List MasterPlaylistRendition) :
    Except Raised String :=
  if renditions = [] then
    .error (.masterPlaylistError "master playlist requires at least one rendition")
  else do
    let lines ← masterLines videoId renditions
    return Text.unlines (masterHeader ++ lines)

/-! ### The text for the paths the worker writes -/

/-- The path of a rendition's playlist below its video's prefix. -/
def playlistName (resolution : String) : String := resolution ++ "/" ++ "index.m3u8"

/-- A playlist key is the video's prefix and the path below it. -/
theorem playlistUri_of_key {videoId : UUID} {resolution key : String}
    (h : buildHlsPlaylistKey videoId resolution = .ok key) :
    playlistUri videoId key = .ok (playlistName resolution) := by
  obtain ⟨-, rfl⟩ := buildHlsPlaylistKey_eq_ok_iff.mp h
  rw [playlistKey_cut, playlistUri, if_pos (Text.startsWith_append _ _),
    Text.removePrefix_append, playlistName]

/-- The lines of the renditions with these resolutions. -/
def renditionLines (resolutions : List String) : List String :=
  resolutions.flatMap fun resolution =>
    [streamInf (getHlsPreset resolution), playlistName resolution]

theorem masterLines_eq_ok {videoId : UUID} {renditions : List MasterPlaylistRendition}
    (h : ∀ r ∈ renditions, buildHlsPlaylistKey videoId r.resolution = .ok r.outputPath) :
    masterLines videoId renditions =
      .ok (renditionLines (renditions.map MasterPlaylistRendition.resolution)) := by
  induction renditions with
  | nil => rfl
  | cons r renditions ih =>
    rw [masterLines, playlistUri_of_key (h r (by simp)), ih fun q hq => h q (by simp [hq])]
    rfl

/-- **The master playlist of renditions at their own keys**: the header, and two
lines for each of them in order. -/
theorem buildHlsMasterPlaylist_eq_ok {videoId : UUID}
    {renditions : List MasterPlaylistRendition} (hne : renditions ≠ [])
    (h : ∀ r ∈ renditions, buildHlsPlaylistKey videoId r.resolution = .ok r.outputPath) :
    buildHlsMasterPlaylist videoId renditions =
      .ok (Text.unlines (masterHeader ++
        renditionLines (renditions.map MasterPlaylistRendition.resolution))) := by
  rw [buildHlsMasterPlaylist, if_neg hne, masterLines_eq_ok h]
  rfl

/-! ### When it can be built -/

theorem isOk_masterLines_iff {videoId : UUID} {renditions : List MasterPlaylistRendition} :
    (masterLines videoId renditions).isOk = true ↔ ∀ r ∈ renditions,
      Text.startsWith r.outputPath ("hls/" ++ videoId.str ++ "/") = true := by
  induction renditions with
  | nil => exact iff_of_true rfl nofun
  | cons r renditions ih =>
    rw [List.forall_mem_cons, ← ih, masterLines, playlistUri]
    by_cases hr : Text.startsWith r.outputPath ("hls/" ++ videoId.str ++ "/") = true
    · rw [if_pos hr, and_iff_right hr]
      cases masterLines videoId renditions <;> exact Iff.rfl
    · rw [if_neg hr]
      exact iff_of_false nofun fun h => hr h.1

/-- **A master playlist can be built** when every path lies below the video's prefix. -/
theorem isOk_buildHlsMasterPlaylist_iff {videoId : UUID}
    {renditions : List MasterPlaylistRendition} (hne : renditions ≠ []) :
    (buildHlsMasterPlaylist videoId renditions).isOk = true ↔ ∀ r ∈ renditions,
      Text.startsWith r.outputPath ("hls/" ++ videoId.str ++ "/") = true := by
  rw [buildHlsMasterPlaylist, if_neg hne, ← isOk_masterLines_iff]
  cases masterLines videoId renditions <;> exact Iff.rfl

/-! ### Its lines -/

theorem isLine_streamInf (preset : EncodingPreset) : Text.IsLine (streamInf preset) := by
  have htext : Text.IsLine "#EXT-X-STREAM-INF:" ∧ Text.IsLine "BANDWIDTH=" ∧ Text.IsLine "," ∧
      Text.IsLine "RESOLUTION=" ∧ Text.IsLine "x" := by decide
  obtain ⟨htag, hbandwidth, hcomma, hresolution, hx⟩ := htext
  have hvalue := Text.isLine_toString
  exact ((((((htag.append hbandwidth).append (hvalue _)).append hcomma).append hresolution).append
    (hvalue _)).append hx).append (hvalue _)

theorem isLine_masterHeader : ∀ s ∈ masterHeader, Text.IsLine s := by decide

theorem isLine_playlistName {resolution : String} (h : Text.IsLine resolution) :
    Text.IsLine (playlistName resolution) := by
  have hslash : Text.IsLine "/" := by decide
  have hindex : Text.IsLine "index.m3u8" := by decide
  exact (h.append hslash).append hindex

theorem isLine_renditionLines {resolutions : List String}
    (h : ∀ r ∈ resolutions, Text.IsLine r) :
    ∀ s ∈ renditionLines resolutions, Text.IsLine s := by
  intro s hs
  obtain ⟨r, hr, hs⟩ := List.mem_flatMap.mp hs
  rcases List.mem_cons.mp hs with rfl | hs
  · exact isLine_streamInf _
  · obtain rfl : s = playlistName r := by simpa using hs
    exact isLine_playlistName (h r hr)

/-! ### Reading a key below a video -/

open ObjectKey in
/-- **Reading a playlist key below a video** works for its own video only, and gives
the path of the playlist there. -/
theorem playlistUri_eq_ok_iff {v w : UUID} {resolution key uri : String}
    (h : buildHlsPlaylistKey w resolution = .ok key) :
    playlistUri v key = .ok uri ↔ v = w ∧ uri = resolution ++ "/index.m3u8" := by
  have hname : playlistName resolution = resolution ++ "/index.m3u8" := by
    rw [playlistName, String.append_assoc]
    rfl
  constructor
  · intro huri
    have hstart : Text.startsWith key (videoPrefix "hls" v) = true := by
      by_contra hno
      rw [videoPrefix_hls] at hno
      rw [playlistUri, if_neg hno] at huri
      cases huri
    obtain rfl : v = w :=
      eq_videoId_of_startsWith (k := .hlsPlaylist w resolution) h (by decide) hstart
    rw [playlistUri_of_key h, hname] at huri
    exact ⟨rfl, (Except.ok.inj huri).symm⟩
  · rintro ⟨rfl, rfl⟩
    rw [playlistUri_of_key h, hname]

open ObjectKey in
/-- **Object keys never collide.** The builders are defined on all validated parts;
two calls with one key are one call; a key lies under the directories of its video
and under those of no other; and a playlist key is read back below its own video
only. -/
theorem object_keys_apart :
    (∀ k : ObjectKey, (∃ key, k.build = .ok key) ↔
      ∀ part ∈ k.parts, ∀ name, validateKeyPart part name = .ok part) ∧
    (∀ (k k' : ObjectKey) (key : String), k.build = .ok key → k'.build = .ok key → k = k') ∧
    (∀ (k : ObjectKey) (key : String), k.build = .ok key →
      (Text.startsWith key ("source/" ++ k.videoId.str ++ "/") = true ∨
        Text.startsWith key ("hls/" ++ k.videoId.str ++ "/") = true) ∧
      ∀ w : UUID, (Text.startsWith key ("source/" ++ w.str ++ "/") = true ∨
        Text.startsWith key ("hls/" ++ w.str ++ "/") = true) → w = k.videoId) ∧
    (∀ (v w : UUID) (resolution key uri : String), buildHlsPlaylistKey w resolution = .ok key →
      (playlistUri v key = .ok uri ↔ v = w ∧ uri = resolution ++ "/index.m3u8")) := by
  simp only [← videoPrefix_source, ← videoPrefix_hls]
  refine ⟨fun k => ⟨?_, fun h => ?_⟩, fun k k' key h h' => build_inj k k' h h',
    fun k key h => ⟨?_, ?_⟩, fun v w resolution key uri h => playlistUri_eq_ok_iff h⟩
  · rintro ⟨key, hkey⟩ part hpart name
    exact validateKeyPart_eq_ok_iff.mpr ⟨((build_eq_ok_iff k key).mp hkey).1 part hpart, rfl⟩
  · exact ⟨_, (build_eq_ok_iff k _).mpr
      ⟨fun p hp => (validateKeyPart_eq_ok_iff.mp (h p hp "")).1, rfl⟩⟩
  · rcases k.directory_eq with hd | hd
    · exact Or.inl ((startsWith_videoPrefix h (by decide) _).mpr hd)
    · exact Or.inr ((startsWith_videoPrefix h (by decide) _).mpr hd)
  · rintro w (hw | hw)
    · exact eq_videoId_of_startsWith h (by decide) hw
    · exact eq_videoId_of_startsWith h (by decide) hw

end RenditionPipeline
