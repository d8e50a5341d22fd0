import Mathlib.Data.Rat.Defs
import Mathlib.Algebra.Order.Field.Rat
import Mathlib.Tactic.NormNum
import RenditionPipeline.Models.Rows

/-!
# The rendition ladder

The presets a video is encoded to, from the largest down, and the test whether a
source is large enough for one of them. The smallest preset is the fallback: it
fits every source, and stands in for a resolution that is in no preset.
-/

namespace RenditionPipeline

/-- `VideoSourceMetadata`: what the prober reads off a source. -/
structure VideoSourceMetadata where
  width : ℤ
  height : ℤ
  bitrate : Option ℤ
  durationSeconds : Option FloatValue
deriving DecidableEq

/-- `FALLBACK_HLS_RESOLUTION` -/
def fallbackHlsResolution : String := "144p"

/-- `EncodingPreset` -/
structure EncodingPreset where
  resolution : String
  width : ℕ
  height : ℕ
  videoBitrate : ℕ
  audioBitrate : String
deriving DecidableEq

/-- The entry `HLS_PRESETS["144p"]`. -/
def fallbackHlsPreset : EncodingPreset := ⟨"144p", 256, 144, 150000, "48k"⟩

/-- `HLS_PRESETS` -/
def hlsPresets : List (String × EncodingPreset) :=
  [("1080p", ⟨"1080p", 1920, 1080, 5000000, "128k"⟩),
    ("720p", ⟨"720p", 1280, 720, 2800000, "128k"⟩),
    ("480p", ⟨"480p", 854, 480, 1200000, "128k"⟩),
    ("360p", ⟨"360p", 640, 360, 800000, "96k"⟩),
    ("240p", ⟨"240p", 426, 240, 400000, "64k"⟩),
    ("144p", fallbackHlsPreset)]

/-- `DEFAULT_HLS_RENDITIONS` -/
def defaultHlsRenditions : List EncodingPreset := hlsPresets.map Prod.snd

/-- `is_hls_preset_applicable`, with the default `bitrate_headroom` taken as the
exact rational. -/
def isHlsPresetApplicable (preset : EncodingPreset) (metadata : VideoSourceMetadata)
    (bitrateHeadroom : ℚ) : Bool :=
  if preset.resolution = fallbackHlsResolution then true
  else if (preset.width : ℤ) > metadata.width || (preset.height : ℤ) > metadata.height then false
  else
    match metadata.bitrate with
    | none => true
    | some bitrate => decide ((preset.videoBitrate : ℚ) ≤ bitrate * bitrateHeadroom)

/-- The default of `bitrate_headroom`. -/
def defaultBitrateHeadroom : ℚ := 5 / 4

theorem defaultBitrateHeadroom_nonneg : 0 ≤ defaultBitrateHeadroom := by
  norm_num [defaultBitrateHeadroom]

/-- `get_hls_preset` -/
def getHlsPreset (resolution : String) : EncodingPreset :=
  (hlsPresets.lookup resolution).getD fallbackHlsPreset

/-- The resolutions of the ladder are different from one another. -/
theorem nodup_resolutions : (defaultHlsRenditions.map EncodingPreset.resolution).Nodup := by decide

/-- The ladder goes down: the bitrates are strictly decreasing. -/
theorem pairwise_videoBitrate :
    defaultHlsRenditions.Pairwise fun p q => q.videoBitrate < p.videoBitrate := by decide

/-! ### Sources that are large enough -/

/-- **A preset is applicable** if it is the fallback, or the source reaches its
width, its height and, where it is known, its bitrate with the headroom. -/
theorem isHlsPresetApplicable_iff {preset : EncodingPreset} {metadata : VideoSourceMetadata}
    {headroom : ℚ} : isHlsPresetApplicable preset metadata headroom = true ↔
      preset.resolution = fallbackHlsResolution ∨
        (preset.width : ℤ) ≤ metadata.width ∧ (preset.height : ℤ) ≤ metadata.height ∧
          ∀ bitrate ∈ metadata.bitrate, (preset.videoBitrate : ℚ) ≤ bitrate * headroom := by
  rw [isHlsPresetApplicable]
  by_cases hfallback : preset.resolution = fallbackHlsResolution
  · simp [hfallback]
  rw [if_neg hfallback]
  by_cases hsize : (preset.width : ℤ) > metadata.width ∨ (preset.height : ℤ) > metadata.height
  · rw [if_pos (by simpa using hsize)]
    constructor
    · exact nofun
    · rintro (h | ⟨hw, hh, -⟩)
      · exact absurd h hfallback
      · omega
  · rw [if_neg (by simpa using hsize)]
    have hreaches : (preset.width : ℤ) ≤ metadata.width ∧
        (preset.height : ℤ) ≤ metadata.height := by omega
    cases hbitrate : metadata.bitrate <;> simp [hfallback, hreaches]

/-- The preset `q` asks for no more of a source than the preset `p`. -/
def EncodingPreset.AtMost (q p : EncodingPreset) : Prop :=
  (p.resolution = fallbackHlsResolution → q.resolution = fallbackHlsResolution) ∧
    q.width ≤ p.width ∧ q.height ≤ p.height ∧ q.videoBitrate ≤ p.videoBitrate

instance (q p : EncodingPreset) : Decidable (q.AtMost p) :=
  inferInstanceAs (Decidable (_ ∧ _ ∧ _ ∧ _))

/-- Every preset of the ladder asks for no more than those before it. -/
theorem pairwise_atMost : defaultHlsRenditions.Pairwise fun p q => q.AtMost p := by decide

theorem isHlsPresetApplicable_of_atMost {p q : EncodingPreset} {metadata : VideoSourceMetadata}
    {headroom : ℚ} (h : q.AtMost p) (hp : isHlsPresetApplicable p metadata headroom = true) :
    isHlsPresetApplicable q metadata headroom = true := by
  obtain ⟨hfallback, hwidth, hheight, hbitrate⟩ := h
  rw [isHlsPresetApplicable_iff] at hp ⊢
  rcases hp with hp | ⟨hpw, hph, hpb⟩
  · exact Or.inl (hfallback hp)
  · refine Or.inr ⟨by omega, by omega, fun bitrate hb => ?_⟩
    calc (q.videoBitrate : ℚ) ≤ p.videoBitrate := by exact_mod_cast hbitrate
      _ ≤ bitrate * headroom := hpb bitrate hb

/-- The fallback is applicable to every source. -/
theorem isHlsPresetApplicable_fallback (metadata : VideoSourceMetadata) (headroom : ℚ) :
    isHlsPresetApplicable fallbackHlsPreset metadata headroom = true :=
  isHlsPresetApplicable_iff.mpr (Or.inl rfl)

theorem fallbackHlsPreset_mem : fallbackHlsPreset ∈ defaultHlsRenditions := by decide

/-- The source `m'` is at least as wide, as tall and as high in bitrate as the source
`m`, where both bitrates are known or neither is. -/
structure VideoSourceMetadata.AtLeast (m' m : VideoSourceMetadata) : Prop where
  width : m.width ≤ m'.width
  height : m.height ≤ m'.height
  known : m'.bitrate.isSome = m.bitrate.isSome
  bitrate : ∀ b ∈ m.bitrate, ∀ b' ∈ m'.bitrate, b ≤ b'

/-- **What is applicable to a source is applicable to a larger one.** -/
theorem isHlsPresetApplicable_mono {preset : EncodingPreset} {m m' : VideoSourceMetadata}
    {headroom : ℚ} (hheadroom : 0 ≤ headroom) (h : m'.AtLeast m)
    (hm : isHlsPresetApplicable preset m headroom = true) :
    isHlsPresetApplicable preset m' headroom = true := by
  rw [isHlsPresetApplicable_iff] at hm ⊢
  rcases hm with hm | ⟨hw, hh, hb⟩
  · exact Or.inl hm
  · refine Or.inr ⟨hw.trans h.width, hh.trans h.height, fun b' hb' => ?_⟩
    obtain ⟨b, hbm⟩ : ∃ b, m.bitrate = some b := by
      rw [← Option.isSome_iff_exists, ← h.known, hb']
      rfl
    have hle : (b : ℚ) ≤ b' := by exact_mod_cast h.bitrate b hbm b' hb'
    exact (hb b hbm).trans (mul_le_mul_of_nonneg_right hle hheadroom)

/-- The presets of the ladder are found under their resolutions. -/
theorem getHlsPreset_resolution : ∀ p ∈ defaultHlsRenditions, getHlsPreset p.resolution = p := by
  decide

end RenditionPipeline
