import RenditionPipeline.Services.Playback

/-!
# Rewriting the playlists

The two texts that a player gets are written by one part of the service and read
again, line by line, by another.

The master playlist is a sequence of tag lines and of entries, and an entry is the
resolution of a rendition, a slash and the name of its playlist. As long as a
resolution is one line and does not look like a tag, the service reads every entry
back to the resolution it was written for, and touches nothing else
(`RenditionPipeline.served_master_playlist`).

A rendition's playlist may be any text at all. Whatever it says, the addresses that
are signed for it are those of segments of this very rendition
(`RenditionPipeline.variant_playlist_signs_own_segments`): a line becomes the last
part of a key only after it has been validated to be a single segment.
-/

namespace RenditionPipeline

/-! ### The entries of a master playlist -/

/-- The lines for renditions whose entries are these addresses. -/
def variantLines (variantUrlForResolution : String → String) (resolutions : List String) :
    List String :=
  resolutions.flatMap fun resolution =>
    [streamInf (getHlsPreset resolution), variantUrlForResolution resolution]

/-- A resolution whose entry is one line and no tag. -/
def IsEntry (resolution : String) : Prop :=
  IsKeyPart resolution ∧ Text.IsLine resolution ∧ Text.startsWith resolution "#" = false

instance (resolution : String) : Decidable (IsEntry resolution) := by
  unfold IsEntry
  exact inferInstance

section Entry

variable {resolution : String}

/-- **An entry is read back** to its resolution. -/
theorem IsEntry.before_playlistName (h : IsEntry resolution) :
    Text.before (playlistName resolution) '/' = resolution :=
  Text.before_append h.1.2.2.2.1 _

/-- An entry is no empty line. -/
theorem playlistName_ne_empty (resolution : String) : playlistName resolution ≠ "" := by
  intro he
  have hl := congrArg String.toList he
  rw [playlistName, String.toList_append, String.toList_append] at hl
  exact absurd (List.append_eq_nil_iff.mp hl).2 (by decide)

/-- An entry is no tag: it begins as its resolution does, which is not empty. -/
theorem IsEntry.startsWith_playlistName (h : IsEntry resolution) :
    Text.startsWith (playlistName resolution) "#" = false := by
  obtain ⟨⟨hne, -⟩, -, hstart⟩ := h
  have hlist : resolution.toList ≠ [] := fun hnil =>
    hne (String.toList_inj.mp (hnil.trans (by decide)))
  obtain ⟨c, cs, hc⟩ := List.exists_cons_of_ne_nil hlist
  have hhash : "#".toList = ['#'] := by decide
  rw [Text.startsWith, hhash, hc, List.isPrefixOf_cons_cons, List.isPrefixOf_nil_left] at hstart
  rw [Text.startsWith, playlistName, String.toList_append, String.toList_append, hhash, hc,
    List.cons_append, List.cons_append, List.isPrefixOf_cons_cons, List.isPrefixOf_nil_left]
  exact hstart

end Entry

/-! ### The master playlist -/

section Master

variable {url : String → String}

/-- A tag line is copied. -/
theorem rewriteMasterLines_comment {line : String} (h : Text.startsWith line "#" = true)
    (lines : List String) :
    rewriteMasterLines url (line :: lines) = line :: rewriteMasterLines url lines := by
  simp [rewriteMasterLines, h]

/-- An entry is turned into the address of its first part. -/
theorem rewriteMasterLines_entry {line : String} (hne : line ≠ "")
    (h : Text.startsWith line "#" = false) (lines : List String) :
    rewriteMasterLines url (line :: lines) =
      url (Text.before line '/') :: rewriteMasterLines url lines := by
  simp [rewriteMasterLines, hne, h]

theorem startsWith_streamInf (preset : EncodingPreset) :
    Text.startsWith (streamInf preset) "#" = true := by
  have htag : Text.startsWith "#EXT-X-STREAM-INF:" "#" = true := by decide
  unfold streamInf
  iterate 7 apply Text.startsWith_append_of_startsWith
  exact htag

theorem rewriteMasterLines_renditionLines {resolutions : List String}
    (h : ∀ r ∈ resolutions, IsEntry r) :
    rewriteMasterLines url (renditionLines resolutions) = variantLines url resolutions := by
  induction resolutions with
  | nil => rfl
  | cons r resolutions ih =>
    have hentry := h r (by simp)
    have hrest := ih fun q hq => h q (by simp [hq])
    have htag := startsWith_streamInf (getHlsPreset r)
    calc rewriteMasterLines url (renditionLines (r :: resolutions))
        = rewriteMasterLines url
            (streamInf (getHlsPreset r) :: playlistName r :: renditionLines resolutions) := rfl
      _ = streamInf (getHlsPreset r) :: url r :: variantLines url resolutions := by
          rw [rewriteMasterLines_comment htag,
            rewriteMasterLines_entry (playlistName_ne_empty r) hentry.startsWith_playlistName,
            hentry.before_playlistName, hrest]
      _ = variantLines url (r :: resolutions) := rfl

/-- Splitting the master playlist gives its lines back. -/
theorem splitLines_master {resolutions : List String} (h : ∀ r ∈ resolutions, IsEntry r) :
    Text.splitLines (Text.unlines (masterHeader ++ renditionLines resolutions)) =
      masterHeader ++ renditionLines resolutions := by
  refine Text.splitLines_unlines (List.append_ne_nil_of_left_ne_nil (by decide) _) fun s hs => ?_
  rcases List.mem_append.mp hs with hs | hs
  · exact isLine_masterHeader s hs
  · exact isLine_renditionLines (fun r hr => (h r hr).2.1) s hs

/-- **Rewriting the master playlist** turns its entries into addresses. -/
theorem rewriteMasterLines_master {resolutions : List String}
    (h : ∀ r ∈ resolutions, IsEntry r) :
    rewriteMasterLines url (Text.splitLines (Text.unlines (masterHeader ++
      renditionLines resolutions))) = masterHeader ++ variantLines url resolutions := by
  rw [splitLines_master h, masterHeader, List.cons_append, List.cons_append, List.nil_append,
    rewriteMasterLines_comment (by decide), rewriteMasterLines_comment (by decide),
    rewriteMasterLines_renditionLines h]
  rfl

/-- **The master playlist that is served** for renditions at their own keys. -/
theorem buildPlaybackMasterPlaylist_eq_ok {db : Db} {videoId : UUID} {video : Video}
    (hv : db.videos.get? videoId = some video)
    (hvalid : validatePlayableVideo video (db.renditionsOf videoId) = .ok ())
    (hne : completedRenditions (db.renditionsOf videoId) ≠ [])
    (hkey : ∀ r ∈ completedRenditions (db.renditionsOf videoId),
      buildHlsPlaylistKey videoId r.resolution = .ok r.outputPath)
    (hentry : ∀ r ∈ (completedRenditions (db.renditionsOf videoId)).map
      MasterPlaylistRendition.resolution, IsEntry r) :
    buildPlaybackMasterPlaylist db videoId url = .ok (some (Text.unlines (masterHeader ++
      variantLines url ((completedRenditions (db.renditionsOf videoId)).map
        MasterPlaylistRendition.resolution)))) := by
  simp only [buildPlaybackMasterPlaylist, hv, hvalid, buildHlsMasterPlaylist_eq_ok hne hkey, bind,
    Except.bind, pure, Except.pure, rewriteMasterLines_master hentry]

end Master

/-- **Writing and rewriting the master playlist agree.** For renditions at the keys
of their playlists the text that is stored has the header, and the tag and the path
of each rendition in order; each path is read back to its resolution; and the text
that is served has the same lines with the addresses in place of the paths. -/
theorem served_master_playlist (videoId : UUID) (renditions : List MasterPlaylistRendition)
    (hne : renditions ≠ [])
    (h : ∀ r ∈ renditions, buildHlsPlaylistKey videoId r.resolution = .ok r.outputPath ∧
      Text.IsLine r.resolution ∧ Text.startsWith r.resolution "#" = false)
    (url : String → String) :
    ∃ stored, buildHlsMasterPlaylist videoId renditions = .ok stored ∧
      Text.splitLines stored = masterHeader ++
        variantLines playlistName (renditions.map MasterPlaylistRendition.resolution) ∧
      rewriteMasterLines url (Text.splitLines stored) = masterHeader ++
        variantLines url (renditions.map MasterPlaylistRendition.resolution) ∧
      (∀ r ∈ renditions, ∃ uri, playlistUri videoId r.outputPath = .ok uri ∧
        Text.before uri '/' = r.resolution) ∧
      ∀ (db : Db) (video : Video), db.videos.get? videoId = some video →
        validatePlayableVideo video (db.renditionsOf videoId) = .ok () →
        completedRenditions (db.renditionsOf videoId) = renditions →
        buildPlaybackMasterPlaylist db videoId url = .ok (some (Text.unlines (masterHeader ++
          variantLines url (renditions.map MasterPlaylistRendition.resolution)))) := by
  have hkey : ∀ r ∈ renditions, buildHlsPlaylistKey videoId r.resolution = .ok r.outputPath :=
    fun r hr => (h r hr).1
  have hentry : ∀ r ∈ renditions, IsEntry r.resolution := fun r hr =>
    ⟨(buildHlsPlaylistKey_eq_ok_iff.mp (h r hr).1).1, (h r hr).2⟩
  have hall : ∀ s ∈ renditions.map MasterPlaylistRendition.resolution, IsEntry s := by
    intro s hs
    obtain ⟨r, hr, rfl⟩ := List.mem_map.mp hs
    exact hentry r hr
  refine ⟨_, buildHlsMasterPlaylist_eq_ok hne hkey, splitLines_master hall,
    rewriteMasterLines_master hall, fun r hr => ⟨_, playlistUri_of_key (hkey r hr),
      (hentry r hr).before_playlistName⟩, ?_⟩
  rintro db video hv hvalid rfl
  exact buildPlaybackMasterPlaylist_eq_ok hv hvalid hne hkey hall

/-- Two renditions, one of them of no preset, are served in order. -/
theorem served_master_playlist_two : ∃ stored,
    buildHlsMasterPlaylist ⟨0⟩
      [⟨"720p", "hls/" ++ UUID.str ⟨0⟩ ++ "/720p/index.m3u8"⟩,
        ⟨"small", "hls/" ++ UUID.str ⟨0⟩ ++ "/small/index.m3u8"⟩] = .ok stored ∧
    rewriteMasterLines (fun resolution => "/variant?r=" ++ resolution) (Text.splitLines stored) =
      ["#EXTM3U", "#EXT-X-VERSION:3",
        "#EXT-X-STREAM-INF:BANDWIDTH=2800000,RESOLUTION=1280x720", "/variant?r=720p",
        "#EXT-X-STREAM-INF:BANDWIDTH=150000,RESOLUTION=256x144", "/variant?r=small"] := by
  obtain ⟨stored, hstored, -, hserved, -⟩ := served_master_playlist ⟨0⟩
    [⟨"720p", "hls/" ++ UUID.str ⟨0⟩ ++ "/720p/index.m3u8"⟩,
      ⟨"small", "hls/" ++ UUID.str ⟨0⟩ ++ "/small/index.m3u8"⟩]
    (List.cons_ne_nil _ _) (by decide) (fun resolution => "/variant?r=" ++ resolution)
  refine ⟨stored, hstored, ?_⟩
  rw [hserved]
  decide

/-! ### The playlist of a rendition -/

/-- **A line and what is served for it**: a blank line, a tag or an address is
copied, and any other line is a segment of this rendition, whose key is signed. -/
def VariantLine (sign : String → Option String) (videoId : UUID) (resolution line served : String) :
    Prop :=
  if line = "" ∨ Text.startsWith line "#" = true ∨ Text.contains line "://" = true then
    served = line
  else sign ("hls/" ++ videoId.str ++ "/" ++ resolution ++ "/segments/" ++
    Text.removePrefix line "segments/") = some served

/-- A key of a segment of a rendition. -/
def IsSegmentKey (videoId : UUID) (resolution key : String) : Prop :=
  ∃ name, IsKeyPart name ∧
    key = "hls/" ++ videoId.str ++ "/" ++ resolution ++ "/segments/" ++ name

section Variant

variable {sign : String → Option String} {videoId : UUID} {resolution line served : String}

theorem isCopiedLine_iff : isCopiedLine line = true ↔
    line = "" ∨ Text.startsWith line "#" = true ∨ Text.contains line "://" = true := by
  simp [isCopiedLine, or_assoc]

theorem variantLine_copied (h : isCopiedLine line = true) :
    VariantLine sign videoId resolution line line := by
  rw [VariantLine, if_pos (isCopiedLine_iff.mp h)]

theorem variantLine_segment {key : String} (h : ¬isCopiedLine line = true)
    (hkey : buildHlsSegmentKey videoId resolution (Text.removePrefix line "segments/") = .ok key)
    (hs : sign key = some served) : VariantLine sign videoId resolution line served := by
  obtain ⟨-, -, rfl⟩ := buildHlsSegmentKey_eq_ok_iff.mp hkey
  rw [VariantLine, if_neg fun hc => h (isCopiedLine_iff.mpr hc)]
  exact hs

/-- A list in front of which a line has been put. -/
theorem tail_of_map_cons {rest : Except Raised (List String)} {lines : List String}
    (h : rest.map (line :: ·) = .ok lines) : ∃ tail, rest = .ok tail ∧ line :: tail = lines := by
  cases rest with
  | error e => cases h
  | ok tail => exact ⟨tail, rfl, Except.ok.inj h⟩

/-- **Every key that is signed is that of a segment of this rendition**, even when the
loop raises later. -/
theorem isSegmentKey_of_mem_rewriteVariantLines {lines : List String} {key : String}
    (h : key ∈ (rewriteVariantLines sign videoId resolution lines).1) :
    IsSegmentKey videoId resolution key := by
  induction lines with
  | nil => exact (List.not_mem_nil h).elim
  | cons line lines ih =>
    rw [rewriteVariantLines] at h
    by_cases hcopied : isCopiedLine line = true
    · rw [if_pos hcopied] at h
      exact ih h
    rw [if_neg hcopied] at h
    cases hkey : buildHlsSegmentKey videoId resolution (Text.removePrefix line "segments/") with
    | error e => simp [hkey] at h
    | ok segmentKey =>
      obtain ⟨-, hname, he⟩ := buildHlsSegmentKey_eq_ok_iff.mp hkey
      -- the key of this line is signed first, whether or not the signing returns
      have hfirst : key = segmentKey → IsSegmentKey videoId resolution key := by
        rintro rfl
        exact ⟨_, hname, he⟩
      cases hs : sign segmentKey with
      | none =>
        simp only [hkey, hs, List.mem_singleton] at h
        exact hfirst h
      | some url =>
        simp only [hkey, hs, List.mem_cons] at h
        exact h.elim hfirst ih

/-- **The lines that are served**, when the loop does not raise. -/
theorem variantLine_of_rewriteVariantLines {lines out : List String}
    (h : (rewriteVariantLines sign videoId resolution lines).2 = .ok out) :
    List.Forall₂ (VariantLine sign videoId resolution) lines out := by
  induction lines generalizing out with
  | nil =>
    obtain rfl : [] = out := Except.ok.inj h
    exact List.Forall₂.nil
  | cons line lines ih =>
    rw [rewriteVariantLines] at h
    by_cases hcopied : isCopiedLine line = true
    · rw [if_pos hcopied] at h
      obtain ⟨rest, hrest, rfl⟩ := tail_of_map_cons h
      exact List.Forall₂.cons (variantLine_copied hcopied) (ih hrest)
    rw [if_neg hcopied] at h
    cases hkey : buildHlsSegmentKey videoId resolution (Text.removePrefix line "segments/") with
    | error e => simp [hkey] at h
    | ok segmentKey =>
      cases hs : sign segmentKey with
      | none => simp [hkey, hs] at h
      | some url =>
        simp only [hkey, hs] at h
        obtain ⟨rest, hrest, rfl⟩ := tail_of_map_cons h
        exact List.Forall₂.cons (variantLine_segment hcopied hkey hs) (ih hrest)

/-- **The endpoint is its loop** over the stored playlist, unless it raises before. -/
theorem buildPlaybackVariantPlaylist_cases (db : Db) (download sign : String → Option String)
    (videoId : UUID) (resolution : String) :
    (∃ key playlist, buildHlsPlaylistKey videoId resolution = .ok key ∧
      download key = some playlist ∧
      buildPlaybackVariantPlaylist db download sign videoId resolution =
        ((rewriteVariantLines sign videoId resolution (Text.splitLines playlist)).1,
          (rewriteVariantLines sign videoId resolution (Text.splitLines playlist)).2.map
            fun lines => some (Text.unlines lines))) ∨
    ((buildPlaybackVariantPlaylist db download sign videoId resolution).1 = [] ∧
      ∀ text, (buildPlaybackVariantPlaylist db download sign videoId resolution).2 ≠
        .ok (some text)) := by
  cases hv : db.videos.get? videoId with
  | none => exact Or.inr (by simp [buildPlaybackVariantPlaylist, hv])
  | some video =>
    cases hvalid : validatePlayableVideo video (db.renditionsOf videoId) with
    | error e => exact Or.inr (by simp [buildPlaybackVariantPlaylist, hv, hvalid])
    | ok _ =>
      cases hkey : buildHlsPlaylistKey videoId resolution with
      | error e => exact Or.inr (by simp [buildPlaybackVariantPlaylist, hv, hvalid, hkey])
      | ok key =>
        by_cases hready : isVariantReady (db.renditionsOf videoId) resolution key = true
        · cases hdown : download key with
          | none =>
            exact Or.inr (by simp [buildPlaybackVariantPlaylist, hv, hvalid, hkey, hready, hdown])
          | some playlist =>
            exact Or.inl ⟨key, playlist, rfl, hdown, by
              simp [buildPlaybackVariantPlaylist, hv, hvalid, hkey, hready, hdown]⟩
        · exact Or.inr (by simp [buildPlaybackVariantPlaylist, hv, hvalid, hkey, hready])

/-- **Variant playlists sign only this rendition's segments** and change nothing else.
When the call returns a text, it has one line for each line of the stored playlist, in
order; and whether or not it returns, every key that is signed on the way is that of a
segment of this rendition. -/
theorem variant_playlist_signs_own_segments (db : Db) (download sign : String → Option String)
    (videoId : UUID) (resolution : String) :
    (∀ text, (buildPlaybackVariantPlaylist db download sign videoId resolution).2 =
        .ok (some text) → ∃ key playlist out,
      buildHlsPlaylistKey videoId resolution = .ok key ∧ download key = some playlist ∧
      List.Forall₂ (VariantLine sign videoId resolution) (Text.splitLines playlist) out ∧
      text = Text.unlines out) ∧
    ∀ key ∈ (buildPlaybackVariantPlaylist db download sign videoId resolution).1,
      IsSegmentKey videoId resolution key := by
  obtain ⟨key, playlist, hkey, hdown, hloop⟩ | ⟨hnone, hraise⟩ :=
    buildPlaybackVariantPlaylist_cases db download sign videoId resolution
  · rw [hloop]
    refine ⟨fun text htext => ?_, fun k hk => isSegmentKey_of_mem_rewriteVariantLines hk⟩
    cases hlines : (rewriteVariantLines sign videoId resolution (Text.splitLines playlist)).2 with
    | error e => simp [hlines, Except.map] at htext
    | ok out =>
      have he : Text.unlines out = text := by simpa [hlines, Except.map] using htext
      exact ⟨key, playlist, out, hkey, hdown, variantLine_of_rewriteVariantLines hlines, he.symm⟩
  · refine ⟨fun text htext => absurd htext (hraise text), fun k hk => ?_⟩
    rw [hnone] at hk
    exact (List.not_mem_nil hk).elim

end Variant

end RenditionPipeline
