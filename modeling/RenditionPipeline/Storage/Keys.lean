import RenditionPipeline.Library.Text
import RenditionPipeline.Library.Uuid
import RenditionPipeline.Models.Enums

/-!
# Object keys

Every object of a video lives under a key that one of four builders makes of the
video's id and of parts that are validated to be single path segments. What the
validation accepts is `RenditionPipeline.IsKeyPart`, and a builder returns a key
just when it accepts the parts (`RenditionPipeline.buildHlsSegmentKey_eq_ok_iff`
and its companions).
-/

namespace RenditionPipeline

/-- `_validate_key_part` -/
def validateKeyPart (value fieldName : String) : Except Raised String :=
  if value = "" || value = "." || value = ".." || Text.hasChar value '/' ||
      Text.hasChar value '\\' then
    .error (.valueError (fieldName ++ " must be a single object key segment"))
  else .ok value

/-- A text that `_validate_key_part` accepts. -/
def IsKeyPart (value : String) : Prop :=
  value ≠ "" ∧ value ≠ "." ∧ value ≠ ".." ∧ '/' ∉ value.toList ∧ '\\' ∉ value.toList

instance (value : String) : Decidable (IsKeyPart value) := by
  rw [IsKeyPart]
  exact inferInstance

/-- **The validation accepts the key parts and returns them unchanged.** -/
theorem validateKeyPart_eq_ok_iff {value fieldName part : String} :
    validateKeyPart value fieldName = .ok part ↔ IsKeyPart value ∧ part = value := by
  unfold validateKeyPart IsKeyPart
  by_cases h : (value = "" || value = "." || value = ".." || Text.hasChar value '/' ||
      Text.hasChar value '\\') = true
  · rw [if_pos h]
    refine iff_of_false (by rintro ⟨⟩) ?_
    rintro ⟨⟨h1, h2, h3, h4, h5⟩, -⟩
    simp [h1, h2, h3, Text.hasChar, h4, h5] at h
  · rw [if_neg h, Except.ok.injEq, eq_comm]
    simp only [Bool.or_eq_true, decide_eq_true_eq, Text.hasChar_iff, not_or] at h
    obtain ⟨⟨⟨⟨h1, h2⟩, h3⟩, h4⟩, h5⟩ := h
    exact ⟨fun he => ⟨⟨h1, h2, h3, h4, h5⟩, he⟩, fun he => he.2⟩

/-- `build_source_key` -/
def buildSourceKey (videoId : UUID) (filename : String) : Except Raised String := do
  let filename ← validateKeyPart filename "filename"
  return "source/" ++ videoId.str ++ "/" ++ filename

/-- `build_hls_master_key` -/
def buildHlsMasterKey (videoId : UUID) : String := "hls/" ++ videoId.str ++ "/" ++ "master.m3u8"

/-- `build_hls_playlist_key` -/
def buildHlsPlaylistKey (videoId : UUID) (resolution : String) : Except Raised String := do
  let resolution ← validateKeyPart resolution "resolution"
  return "hls/" ++ videoId.str ++ "/" ++ resolution ++ "/index.m3u8"

/-- `build_hls_segment_key` -/
def buildHlsSegmentKey (videoId : UUID) (resolution segmentName : String) :
    Except Raised String := do
  let resolution ← validateKeyPart resolution "resolution"
  let segmentName ← validateKeyPart segmentName "segment_name"
  return "hls/" ++ videoId.str ++ "/" ++ resolution ++ "/segments/" ++ segmentName

/-! ### What the builders return -/

theorem buildSourceKey_eq_ok_iff {videoId : UUID} {filename key : String} :
    buildSourceKey videoId filename = .ok key ↔
      IsKeyPart filename ∧ key = "source/" ++ videoId.str ++ "/" ++ filename := by
  rw [buildSourceKey]
  cases h : validateKeyPart filename "filename" with
  | error e =>
    refine iff_of_false (by rintro ⟨⟩) fun hk => ?_
    rw [validateKeyPart_eq_ok_iff.mpr ⟨hk.1, rfl⟩] at h
    cases h
  | ok part =>
    obtain ⟨hpart, rfl⟩ := validateKeyPart_eq_ok_iff.mp h
    change Except.ok _ = Except.ok key ↔ _
    rw [Except.ok.injEq, eq_comm]
    exact ⟨fun he => ⟨hpart, he⟩, fun he => he.2⟩

theorem buildHlsPlaylistKey_eq_ok_iff {videoId : UUID} {resolution key : String} :
    buildHlsPlaylistKey videoId resolution = .ok key ↔
      IsKeyPart resolution ∧
        key = "hls/" ++ videoId.str ++ "/" ++ resolution ++ "/index.m3u8" := by
  rw [buildHlsPlaylistKey]
  cases h : validateKeyPart resolution "resolution" with
  | error e =>
    refine iff_of_false (by rintro ⟨⟩) fun hk => ?_
    rw [validateKeyPart_eq_ok_iff.mpr ⟨hk.1, rfl⟩] at h
    cases h
  | ok part =>
    obtain ⟨hpart, rfl⟩ := validateKeyPart_eq_ok_iff.mp h
    change Except.ok _ = Except.ok key ↔ _
    rw [Except.ok.injEq, eq_comm]
    exact ⟨fun he => ⟨hpart, he⟩, fun he => he.2⟩

theorem buildHlsSegmentKey_eq_ok_iff {videoId : UUID} {resolution segmentName key : String} :
    buildHlsSegmentKey videoId resolution segmentName = .ok key ↔
      IsKeyPart resolution ∧ IsKeyPart segmentName ∧
        key = "hls/" ++ videoId.str ++ "/" ++ resolution ++ "/segments/" ++ segmentName := by
  rw [buildHlsSegmentKey]
  cases h : validateKeyPart resolution "resolution" with
  | error e =>
    refine iff_of_false (by rintro ⟨⟩) fun hk => ?_
    rw [validateKeyPart_eq_ok_iff.mpr ⟨hk.1, rfl⟩] at h
    cases h
  | ok part =>
    obtain ⟨hpart, rfl⟩ := validateKeyPart_eq_ok_iff.mp h
    cases h' : validateKeyPart segmentName "segment_name" with
    | error e =>
      refine iff_of_false (fun he => ?_) fun hk => ?_
      · simp [bind, Except.bind] at he
      · rw [validateKeyPart_eq_ok_iff.mpr ⟨hk.2.1, rfl⟩] at h'
        cases h'
    | ok name =>
      obtain ⟨hname, rfl⟩ := validateKeyPart_eq_ok_iff.mp h'
      simp only [bind, Except.bind, pure, Except.pure, Except.ok.injEq]
      rw [eq_comm]
      exact ⟨fun he => ⟨hpart, hname, he⟩, fun he => he.2.2⟩

/-! ### Cutting a key at its slashes -/

/-- A playlist key, cut after its video and after its resolution. -/
theorem playlistKey_cut (videoId : UUID) (resolution : String) :
    "hls/" ++ videoId.str ++ "/" ++ resolution ++ "/index.m3u8" =
      "hls/" ++ videoId.str ++ "/" ++ (resolution ++ "/" ++ "index.m3u8") := by
  simp only [String.append_assoc]
  rfl

/-- A segment key, cut after its video and after its resolution. -/
theorem segmentKey_cut (videoId : UUID) (resolution segmentName : String) :
    "hls/" ++ videoId.str ++ "/" ++ resolution ++ "/segments/" ++ segmentName =
      "hls/" ++ videoId.str ++ "/" ++ (resolution ++ "/" ++ ("segments/" ++ segmentName)) := by
  have h : "/segments/" = "/" ++ "segments/" := by decide
  simp only [h, String.append_assoc]

end RenditionPipeline
