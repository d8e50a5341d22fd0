import RenditionPipeline.Library.Path
import RenditionPipeline.Storage.Keys

/-!
# The key space

The keys that the four builders can make, as a whole. A call of a builder is an
`RenditionPipeline.ObjectKey`, and what it returns is the path of its pieces
(`RenditionPipeline.ObjectKey.build_eq_ok_iff`); since the pieces are single
segments, the key determines them, and the pieces determine the call
(`RenditionPipeline.ObjectKey.pieces_injective`). So two calls never meet
(`RenditionPipeline.object_keys_apart`): the number of the pieces and their names
tell the builders apart, whatever the validated parts are called.
-/

namespace RenditionPipeline

/-- A call of one of the four key builders. -/
inductive ObjectKey where
  | source (videoId : UUID) (filename : String)
  | hlsMaster (videoId : UUID)
  | hlsPlaylist (videoId : UUID) (resolution : String)
  | hlsSegment (videoId : UUID) (resolution segmentName : String)
deriving DecidableEq

namespace ObjectKey

/-- The video of the call. -/
def videoId : ObjectKey → UUID
  | source v _ => v
  | hlsMaster v => v
  | hlsPlaylist v _ => v
  | hlsSegment v _ _ => v

/-- The parts that the builder validates. -/
def parts : ObjectKey → List String
  | source _ filename => [filename]
  | hlsMaster _ => []
  | hlsPlaylist _ resolution => [resolution]
  | hlsSegment _ resolution segmentName => [resolution, segmentName]

/-- What the builder returns. -/
def build : ObjectKey → Except Raised String
  | source v filename => buildSourceKey v filename
  | hlsMaster v => .ok (buildHlsMasterKey v)
  | hlsPlaylist v resolution => buildHlsPlaylistKey v resolution
  | hlsSegment v resolution segmentName => buildHlsSegmentKey v resolution segmentName

/-- The directory of the video's objects of this kind. -/
def directory : ObjectKey → List String
  | source v _ => ["source", v.str]
  | hlsMaster v => ["hls", v.str]
  | hlsPlaylist v _ => ["hls", v.str]
  | hlsSegment v _ _ => ["hls", v.str]

/-- The pieces of the key below that directory. -/
def below : ObjectKey → List String
  | source _ filename => [filename]
  | hlsMaster _ => ["master.m3u8"]
  | hlsPlaylist _ resolution => [resolution, "index.m3u8"]
  | hlsSegment _ resolution segmentName => [resolution, "segments", segmentName]

/-- The pieces of the key between its slashes. -/
def pieces (k : ObjectKey) : List String := k.directory ++ k.below

/-- **A builder accepts its validated parts and returns the path of its pieces.** -/
theorem build_eq_ok_iff (k : ObjectKey) (key : String) :
    k.build = .ok key ↔ (∀ p ∈ k.parts, IsKeyPart p) ∧ key = Text.join "/" k.pieces := by
  cases k with
  | source v filename =>
    rw [build, buildSourceKey_eq_ok_iff]
    simp [parts, pieces, directory, below, Text.join, String.append_assoc]
  | hlsMaster v =>
    simp [build, buildHlsMasterKey, parts, pieces, directory, below, Text.join,
      String.append_assoc, eq_comm]
  | hlsPlaylist v resolution =>
    rw [build, buildHlsPlaylistKey_eq_ok_iff]
    simp [parts, pieces, directory, below, Text.join, String.append_assoc]
  | hlsSegment v resolution segmentName =>
    rw [build, buildHlsSegmentKey_eq_ok_iff, segmentKey_cut]
    simp [parts, pieces, directory, below, Text.join, String.append_assoc, and_assoc]

/-! ### The pieces -/

theorem below_ne_nil (k : ObjectKey) : k.below ≠ [] := by
  cases k <;> exact List.cons_ne_nil _ _

theorem directory_ne_nil (k : ObjectKey) : k.directory ≠ [] := by
  cases k <;> exact List.cons_ne_nil _ _

theorem pieces_ne_nil (k : ObjectKey) : k.pieces ≠ [] :=
  List.append_ne_nil_of_left_ne_nil k.directory_ne_nil _

theorem directory_eq (k : ObjectKey) :
    k.directory = ["source", k.videoId.str] ∨ k.directory = ["hls", k.videoId.str] := by
  cases k <;> simp [directory, videoId]

/-- The names that the builders put into a key themselves. -/
def fixedNames : List String := ["source", "hls", "master.m3u8", "index.m3u8", "segments"]

theorem mem_pieces {k : ObjectKey} {p : String} (h : p ∈ k.pieces) :
    p ∈ fixedNames ∨ p = k.videoId.str ∨ p ∈ k.parts := by
  rcases List.mem_append.mp h with h | h
  · rcases k.directory_eq with he | he <;> rw [he] at h <;>
      rcases List.mem_pair.mp h with rfl | rfl
    · exact Or.inl (by decide)
    · exact Or.inr (Or.inl rfl)
    · exact Or.inl (by decide)
    · exact Or.inr (Or.inl rfl)
  · cases k with
    | source v filename => exact Or.inr (Or.inr h)
    | hlsMaster v => exact Or.inl (by rw [List.mem_singleton.mp h]; decide)
    | hlsPlaylist v resolution =>
      rcases List.mem_pair.mp h with rfl | rfl
      · exact Or.inr (Or.inr (by simp [parts]))
      · exact Or.inl (by decide)
    | hlsSegment v resolution segmentName =>
      rcases List.mem_cons.mp h with rfl | h
      · exact Or.inr (Or.inr (by simp [parts]))
      rcases List.mem_pair.mp h with rfl | rfl
      · exact Or.inl (by decide)
      · exact Or.inr (Or.inr (by simp [parts]))

/-- No piece of a key has a slash in it. -/
theorem apart_pieces {k : ObjectKey} (h : ∀ p ∈ k.parts, IsKeyPart p) :
    Text.Apart '/' k.pieces := by
  intro p hp
  rcases mem_pieces hp with hp | rfl | hp
  · have hfixed : ∀ q ∈ fixedNames, '/' ∉ q.toList := by decide
    exact hfixed p hp
  · exact k.videoId.slash_not_mem_str
  · exact (h p hp).2.2.2.1

/-- **The pieces of a key determine the call**: different builders differ in the
first piece, in the number of the pieces or in the last. -/
theorem pieces_injective : Function.Injective pieces := by
  intro k k' h
  cases k <;> cases k' <;>
    simp_all [pieces, directory, below, UUID.str_injective.eq_iff]

/-- **Two calls never make the same key.** -/
theorem build_inj (k k' : ObjectKey) {key : String} (h : k.build = .ok key)
    (h' : k'.build = .ok key) : k = k' := by
  obtain ⟨hparts, rfl⟩ := (build_eq_ok_iff k key).mp h
  obtain ⟨hparts', he⟩ := (build_eq_ok_iff k' _).mp h'
  exact pieces_injective (Text.join_inj k.pieces_ne_nil k'.pieces_ne_nil (apart_pieces hparts)
    (apart_pieces hparts') he)

/-! ### Where a key lies -/

/-- The directory of a video under one of the two roots, with its slash. -/
def videoPrefix (root : String) (videoId : UUID) : String := root ++ "/" ++ videoId.str ++ "/"

theorem videoPrefix_source (v : UUID) : videoPrefix "source" v = "source/" ++ v.str ++ "/" := by
  rw [videoPrefix, show "source" ++ "/" = "source/" by decide]

theorem videoPrefix_hls (v : UUID) : videoPrefix "hls" v = "hls/" ++ v.str ++ "/" := by
  rw [videoPrefix, show "hls" ++ "/" = "hls/" by decide]

/-- **A key lies under its own video's directories** and under those of no other. -/
theorem startsWith_videoPrefix {k : ObjectKey} {key root : String} (h : k.build = .ok key)
    (hroot : '/' ∉ root.toList) (w : UUID) :
    Text.startsWith key (videoPrefix root w) = true ↔ k.directory = [root, w.str] := by
  obtain ⟨hparts, rfl⟩ := (build_eq_ok_iff k key).mp h
  have hapart : Text.Apart '/' [root, w.str] := by
    intro p hp
    rcases List.mem_cons.mp hp with rfl | hp
    · exact hroot
    · obtain rfl : p = w.str := by simpa using hp
      exact w.slash_not_mem_str
  have hdirectory : videoPrefix root w = Text.join (String.singleton '/') [root, w.str] ++
      String.singleton '/' := rfl
  rw [hdirectory]
  refine (Text.startsWith_join_iff (List.cons_ne_nil _ _) k.pieces_ne_nil hapart
    (apart_pieces hparts)).trans ⟨?_, fun hd => ⟨k.below, k.below_ne_nil, by rw [pieces, hd]⟩⟩
  rintro ⟨rest, -, he⟩
  cases k <;> simp_all [pieces, directory, below]

theorem directory_video {k : ObjectKey} {root : String} {w : UUID}
    (h : k.directory = [root, w.str]) : w = k.videoId := by
  cases k <;> simp_all [directory, videoId, UUID.str_injective.eq_iff]

/-- A call names its own video only. -/
theorem eq_videoId_of_startsWith {k : ObjectKey} {key root : String} {w : UUID}
    (h : k.build = .ok key) (hroot : '/' ∉ root.toList)
    (hstart : Text.startsWith key (videoPrefix root w) = true) : w = k.videoId :=
  directory_video ((startsWith_videoPrefix h hroot w).mp hstart)

end ObjectKey

/-! ### The builders, two by two -/

open ObjectKey in
/-- The master key of a video is none of another. -/
theorem buildHlsMasterKey_injective : Function.Injective buildHlsMasterKey := fun v w h =>
  hlsMaster.inj (build_inj (.hlsMaster v) (.hlsMaster w) rfl (congrArg Except.ok h.symm))

section Kinds

open ObjectKey

variable {v w : UUID} {resolution resolution' name key key' : String}

/-- A playlist key is no master key. -/
theorem playlistKey_ne_masterKey (h : buildHlsPlaylistKey v resolution = .ok key) :
    key ≠ buildHlsMasterKey w := by
  rintro rfl
  cases build_inj (.hlsPlaylist v resolution) (.hlsMaster w) h rfl

/-- A segment key is no master key. -/
theorem segmentKey_ne_masterKey (h : buildHlsSegmentKey v resolution name = .ok key) :
    key ≠ buildHlsMasterKey w := by
  rintro rfl
  cases build_inj (.hlsSegment v resolution name) (.hlsMaster w) h rfl

/-- A playlist key names its video and its resolution. -/
theorem playlistKey_inj (h : buildHlsPlaylistKey v resolution = .ok key)
    (h' : buildHlsPlaylistKey w resolution' = .ok key) : v = w ∧ resolution = resolution' :=
  hlsPlaylist.inj (build_inj (.hlsPlaylist v resolution) (.hlsPlaylist w resolution') h h')

/-- A segment key is no playlist key. -/
theorem segmentKey_ne_playlistKey (h : buildHlsSegmentKey v resolution name = .ok key)
    (h' : buildHlsPlaylistKey w resolution' = .ok key') : key ≠ key' := by
  rintro rfl
  cases build_inj (.hlsSegment v resolution name) (.hlsPlaylist w resolution') h h'

end Kinds

end RenditionPipeline
