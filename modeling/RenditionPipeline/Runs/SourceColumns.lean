import RenditionPipeline.Encoding.Probe
import RenditionPipeline.Runs.Operations

/-!
# The columns of the source metadata

What ffprobe says about a source is written to the row of its video by the two operations that
conclude an encoded job. The columns for the width, the height and the bit rate hold whole
numbers of 32 bits, and the database refuses to commit a row with another number in one of
them. The parser does not look at the size of the numbers it reads, so that whether the encoded
job can be concluded is decided by the numbers in the output of ffprobe
(`RenditionPipeline.source_columns_fit_iff`).
-/

namespace RenditionPipeline

/-! ### What the columns hold -/

/-- **Metadata fit their columns.** -/
structure VideoSourceMetadata.Fits (metadata : VideoSourceMetadata) : Prop where
  width : FitsInteger metadata.width
  height : FitsInteger metadata.height
  bitrate : ∀ n ∈ metadata.bitrate, FitsInteger n

/-- **The source columns of a row hold what they can.** -/
structure Video.SourceFits (video : Video) : Prop where
  width : ∀ n ∈ video.sourceWidth, FitsInteger n
  height : ∀ n ∈ video.sourceHeight, FitsInteger n
  bitrate : ∀ n ∈ video.sourceBitrate, FitsInteger n

/-- **The database accepts the source columns** of all of its videos. -/
def Db.Storable (db : Db) : Prop :=
  ∀ id video, db.videos.get? id = some video → video.SourceFits

/-- A row to which some metadata have been assigned. -/
structure Video.Assigned (metadata : VideoSourceMetadata) (video : Video) : Prop where
  width : video.sourceWidth = some metadata.width
  height : video.sourceHeight = some metadata.height
  bitrate : video.sourceBitrate = metadata.bitrate

theorem Video.Assigned.fits_iff {metadata : VideoSourceMetadata} {video : Video}
    (h : video.Assigned metadata) : video.SourceFits ↔ metadata.Fits := by
  constructor
  · rintro ⟨hw, hh, hb⟩
    exact ⟨hw _ h.width, hh _ h.height, fun n hn => hb n (by rw [h.bitrate]; exact hn)⟩
  · rintro ⟨hw, hh, hb⟩
    refine ⟨fun n hn => ?_, fun n hn => ?_, fun n hn => hb n (by rw [← h.bitrate]; exact hn)⟩
    · rw [h.width] at hn
      rw [← Option.some.inj hn]
      exact hw
    · rw [h.height] at hn
      rw [← Option.some.inj hn]
      exact hh

/-! ### What the numbers are -/

/-- **A number fits when it is cut off at the point**, if it is there and finite. -/
def CutFits (number : Option FloatValue) : Prop :=
  ∀ q, number = some (.finite q) → -2 ^ 31 - 1 < q ∧ q < 2 ^ 31

theorem truncate_of_nonneg {q : ℚ} (h : 0 ≤ q) : truncate q = ⌊q⌋ := by
  rw [truncate, Rat.floor_def', Int.tdiv_eq_ediv_of_nonneg (Rat.num_nonneg.mpr h)]

theorem truncate_of_neg {q : ℚ} (h : q < 0) : truncate q = -⌊-q⌋ := by
  rw [← truncate_of_nonneg (by linarith : 0 ≤ -q), truncate, truncate, Rat.num_neg_eq_neg_num,
    Rat.den_neg_eq_den, Int.neg_tdiv, neg_neg]

/-- **Cutting off moves a number towards zero**, so that it fits one further down than a whole
number would. -/
theorem fitsInteger_truncate_iff {q : ℚ} :
    FitsInteger (truncate q) ↔ -2 ^ 31 - 1 < q ∧ q < 2 ^ 31 := by
  rw [FitsInteger]
  rcases lt_or_ge q 0 with hneg | hpos
  · have hlow : -2 ^ 31 ≤ truncate q ↔ -2 ^ 31 - 1 < q := by
      rw [truncate_of_neg hneg, neg_le_neg_iff, ← Int.lt_add_one_iff, Int.floor_lt]
      push_cast
      constructor <;> intro h <;> linarith
    have hfloor : 0 ≤ ⌊-q⌋ := Int.floor_nonneg.mpr (by linarith)
    have hhigh : truncate q < 2 ^ 31 := by
      rw [truncate_of_neg hneg]
      omega
    rw [hlow]
    exact and_congr_right fun _ => ⟨fun _ => by linarith, fun _ => hhigh⟩
  · have hhigh : truncate q < 2 ^ 31 ↔ q < 2 ^ 31 := by
      rw [truncate_of_nonneg hpos, Int.floor_lt]
      push_cast
      rfl
    have hfloor : 0 ≤ ⌊q⌋ := Int.floor_nonneg.mpr hpos
    have hlow : -2 ^ 31 ≤ truncate q := by
      rw [truncate_of_nonneg hpos]
      omega
    rw [hhigh]
    exact and_congr_left fun _ => ⟨fun _ => by linarith, fun _ => hlow⟩

/-- The whole number in a number fits just when the number fits cut off. -/
theorem fitsInteger_whole_iff {number : Option FloatValue} :
    (∀ n ∈ number.bind FloatValue.whole, FitsInteger n) ↔ CutFits number := by
  rcases number with _ | x
  · exact ⟨fun _ q hq => (by cases hq), fun _ n hn => (by cases hn)⟩
  · cases x with
    | finite q =>
      constructor
      · rintro h _ ⟨⟩
        exact fitsInteger_truncate_iff.mp (h _ rfl)
      · rintro h _ ⟨⟩
        exact fitsInteger_truncate_iff.mpr (h q rfl)
    | _ => exact ⟨fun _ q hq => (by cases hq), fun _ n hn => (by cases hn)⟩

/-- **The numbers in an output fit**: the width and the height of its first stream, and its bit
rate, which is the one of the stream or else of the format section. -/
structure NumbersFit (round : ℚ → Option ℚ) (payload stream : List (String × ProbeValue)) :
    Prop where
  width : CutFits (numberOf round (Json.member stream "width"))
  height : CutFits (numberOf round (Json.member stream "height"))
  streamRate : ¬ Falls (· == 0) (wholeOf round (Json.member stream "bit_rate")) →
    CutFits (numberOf round (Json.member stream "bit_rate"))
  formatRate : Falls (· == 0) (wholeOf round (Json.member stream "bit_rate")) →
    ∀ format, formatOf payload = .object format →
      CutFits (numberOf round (Json.member format "bit_rate"))

/-- The numbers in a text fit, if it is an output with a first stream. -/
def OutputFits (round : ℚ → Option ℚ) (depth : ℕ) (output : String) : Prop :=
  ∀ payload stream streams,
    Json.loads (FloatValue.ofReading round) depth output = .ok (.object payload) →
    Json.member payload "streams" = .array (.object stream :: streams) →
    NumbersFit round payload stream

section Numbers

variable {round : ℚ → Option ℚ} {payload stream : List (String × ProbeValue)}

theorem fits_iff_numbersFit {metadata : VideoSourceMetadata}
    (hw : wholeOf round (Json.member stream "width") = some metadata.width)
    (hh : wholeOf round (Json.member stream "height") = some metadata.height)
    (hb : RateFrom (· == 0) (wholeOf round) payload stream "bit_rate" metadata.bitrate) :
    metadata.Fits ↔ NumbersFit round payload stream := by
  have hwidth : FitsInteger metadata.width ↔
      CutFits (numberOf round (Json.member stream "width")) := by
    rw [← fitsInteger_whole_iff]
    change _ ↔ ∀ n ∈ wholeOf round _, FitsInteger n
    simp [hw]
  have hheight : FitsInteger metadata.height ↔
      CutFits (numberOf round (Json.member stream "height")) := by
    rw [← fitsInteger_whole_iff]
    change _ ↔ ∀ n ∈ wholeOf round _, FitsInteger n
    simp [hh]
  constructor
  · rintro ⟨h₁, h₂, h₃⟩
    refine ⟨hwidth.mp h₁, hheight.mp h₂, fun hstay => ?_, fun hfalls format hformat => ?_⟩
    · rcases hb with ⟨-, hrate⟩ | ⟨hfalls, -⟩
      · rw [hrate] at h₃
        exact fitsInteger_whole_iff.mp h₃
      · exact absurd hfalls hstay
    · rcases hb with ⟨hstay, -⟩ | ⟨-, format', hformat', hrate⟩
      · exact absurd hfalls hstay
      · obtain rfl : format = format' := by
          rw [hformat] at hformat'
          exact Json.Value.object.inj hformat'
        rw [hrate] at h₃
        exact fitsInteger_whole_iff.mp h₃
  · rintro ⟨h₁, h₂, h₃, h₄⟩
    refine ⟨hwidth.mpr h₁, hheight.mpr h₂, ?_⟩
    rcases hb with ⟨hstay, hrate⟩ | ⟨hfalls, format, hformat, hrate⟩
    · rw [hrate]
      exact fitsInteger_whole_iff.mpr (h₃ hstay)
    · rw [hrate]
      exact fitsInteger_whole_iff.mpr (h₄ hfalls format hformat)

/-- **Metadata fit their columns** just when the numbers they are read from do. -/
theorem fits_iff_outputFits {depth : ℕ} {output : String} {metadata : VideoSourceMetadata}
    (h : parseFfprobeOutput round depth output = .ok metadata) :
    metadata.Fits ↔ OutputFits round depth output := by
  obtain ⟨value, hload, hread⟩ := exists_loads_of_parse h
  obtain ⟨payload, stream, streams, rfl, hmember, hw, hh, hb, -⟩ := hread
  rw [fits_iff_numbersFit hw hh hb]
  constructor
  · intro hfit payload' stream' streams' hload' hmember'
    obtain rfl : payload = payload' :=
      Json.Value.object.inj (Except.ok.inj (hload.symm.trans hload'))
    rw [hmember] at hmember'
    obtain rfl : stream = stream' := by
      exact Json.Value.object.inj (List.cons.inj (Json.Value.array.inj hmember')).1
    exact hfit
  · intro hfit
    exact hfit payload stream streams hload hmember

end Numbers

/-! ### Concluding an encoded job -/

section Marks

variable {db db' : Db} {metadata : VideoSourceMetadata}

/-- The row of a video after `_apply_source_metadata`. -/
def describe (metadata : VideoSourceMetadata) (video : Video) : Video :=
  { video with
    sourceWidth := some metadata.width
    sourceHeight := some metadata.height
    sourceBitrate := metadata.bitrate
    sourceDurationSeconds := metadata.durationSeconds }

/-- The row of the video has the metadata after they have been assigned. -/
theorem assigned_applySourceMetadata (metadata : VideoSourceMetadata) (ref : JobRef)
    {video : Video} (hv : db.videos.get? ref.videoId = some video) :
    ∃ video', (applySourceMetadata db ref (some metadata)).videos.get? ref.videoId = some video' ∧
      video'.Assigned metadata := by
  refine ⟨describe metadata video, ?_, rfl, rfl, rfl⟩
  change (db.videos.modify ref.videoId (describe metadata)).get? ref.videoId = _
  rw [Table.get?_modify_self, hv]
  rfl

/-- **A committed row of the video has the metadata**, and the other rows are as they were. -/
theorem videos_of_publishVideo {ref : JobRef} {job : Job → Job} {rendition : Rendition → Rendition}
    {uploadOk : Bool} {publication : Publication}
    (h : publishVideo (applySourceMetadata (db.settle ref job rendition) ref (some metadata))
      ref.videoId uploadOk = .ok (db', publication)) :
    ∃ f : Video → Video, db'.videos = db.videos.modify ref.videoId f ∧
      ∀ v, (f v).Assigned metadata := by
  obtain ⟨-, rfl⟩ := publishVideo_eq_ok h
  let played : Video → Video := fun v =>
    { v with playbackPath := publication.playbackPath v.playbackPath }
  let derived : Video → Video := fun v =>
    { v with status := deriveVideoStatus (statusesOf
        ((db.settle ref job rendition).renditionsOf ref.videoId)) }
  refine ⟨played ∘ describe metadata ∘ derived, ?_, fun v => ⟨rfl, rfl, rfl⟩⟩
  rw [← Table.modify_modify, ← Table.modify_modify]
  rfl

/-- A database whose rows fit goes on to fit just when the new metadata do. -/
theorem storable_modify_iff {videoId : UUID} {video : Video} {f : Video → Video}
    (hs : db.Storable) (hv : db.videos.get? videoId = some video)
    (hdb : db'.videos = db.videos.modify videoId f) (hf : ∀ v, (f v).Assigned metadata) :
    db'.Storable ↔ metadata.Fits := by
  constructor
  · intro h
    refine (hf video).fits_iff.mp (h videoId (f video) ?_)
    rw [hdb, Table.get?_modify_self, hv]
    rfl
  · intro h id v hv'
    rw [hdb, Table.get?_modify] at hv'
    split_ifs at hv' with hid
    · obtain ⟨w, -, rfl⟩ := Option.map_eq_some_iff.mp hv'
      exact (hf w).fits_iff.mpr h
    · exact hs id v hv'

variable {jobId : UUID} {workerId reason : String} {outputPath : Option String} {now : Timestamp}
  {uploadOk : Bool} {m : Marked Bool}

theorem storable_succeeded_iff (hs : db.Storable)
    (h : markEncodingJobSucceeded db jobId workerId outputPath (some metadata) now uploadOk = .ok m)
    (hresult : m.result = true) : m.db.Storable ↔ metadata.Fits := by
  obtain ⟨loaded, -, ⟨-, rfl⟩ | ⟨-, -, hp⟩⟩ := markEncodingJobSucceeded_cases h
  · cases hresult
  · obtain ⟨f, hf, hassigned⟩ := videos_of_publishVideo hp
    exact storable_modify_iff hs loaded.get?_video hf hassigned

theorem storable_skipped_iff (hs : db.Storable)
    (h : markEncodingJobSkipped db jobId reason workerId (some metadata) now uploadOk = .ok m)
    (hresult : m.result = true) : m.db.Storable ↔ metadata.Fits := by
  obtain ⟨loaded, -, ⟨-, rfl⟩ | ⟨-, -, hp⟩⟩ := markEncodingJobSkipped_cases h
  · cases hresult
  · obtain ⟨f, hf, hassigned⟩ := videos_of_publishVideo hp
    exact storable_modify_iff hs loaded.get?_video hf hassigned

end Marks

/-- **The source columns fit just when the numbers of the output do.** For every rounding,
among them the exact one, and every output that the parser reads metadata from: the row of a
video to which these are assigned, and what either of the two operations commits when it
concludes a job with them, fits its columns if and only if the width, the height and the bit
rate that are written in the output do. -/
theorem source_columns_fit_iff (round : ℚ → Option ℚ) (depth : ℕ) (output : String)
    (metadata : VideoSourceMetadata)
    (h : parseFfprobeOutput round depth output = .ok metadata) :
    (∀ (db : Db) (ref : JobRef) (video : Video), db.videos.get? ref.videoId = some video →
      ∃ video', (applySourceMetadata db ref (some metadata)).videos.get? ref.videoId = some video' ∧
        (video'.SourceFits ↔ OutputFits round depth output)) ∧
    (∀ (db : Db) (jobId : UUID) (workerId : String) (outputPath : Option String) (now : Timestamp)
      (uploadOk : Bool) (m : Marked Bool), db.Storable →
      markEncodingJobSucceeded db jobId workerId outputPath (some metadata) now uploadOk = .ok m →
      m.result = true → (m.db.Storable ↔ OutputFits round depth output)) ∧
    ∀ (db : Db) (jobId : UUID) (reason workerId : String) (now : Timestamp) (uploadOk : Bool)
      (m : Marked Bool), db.Storable →
      markEncodingJobSkipped db jobId reason workerId (some metadata) now uploadOk = .ok m →
      m.result = true → (m.db.Storable ↔ OutputFits round depth output) := by
  have hfits := fits_iff_outputFits h
  refine ⟨fun db ref video hv => ?_, ?_, ?_⟩
  · obtain ⟨video', hv', hassigned⟩ := assigned_applySourceMetadata metadata ref hv
    exact ⟨video', hv', hassigned.fits_iff.trans hfits⟩
  · intro db jobId workerId outputPath now uploadOk m hs hm hresult
    exact (storable_succeeded_iff hs hm hresult).trans hfits
  · intro db jobId reason workerId now uploadOk m hs hm hresult
    exact (storable_skipped_iff hs hm hresult).trans hfits

/-- What ffprobe prints about a source with some bit rate. -/
def sampleOutput (bitRate : String) : String :=
  "\x7b\"streams\": [\x7b\"width\": 3840, \"height\": 2160, \"bit_rate\": \"" ++ bitRate ++
    "\"\x7d]\x7d"

/-- No source has been probed in the run to look at. -/
theorem storable_claimedRun : claimedRun.world.db.Storable := by
  have hnone : ∀ p ∈ claimedRun.world.db.videos.rows, p.2.sourceWidth = none ∧
      p.2.sourceHeight = none ∧ p.2.sourceBitrate = none := by decide +kernel
  intro id video hv
  obtain ⟨hw, hh, hb⟩ := hnone _ (Table.get?_eq_some_iff.mp hv)
  refine ⟨fun n hn => ?_, fun n hn => ?_, fun n hn => ?_⟩
  · rw [hw] at hn
    cases hn
  · rw [hh] at hn
    cases hn
  · rw [hb] at hn
    cases hn

theorem source_columns_fit_iff_small : ∃ m,
    markEncodingJobSucceeded claimedRun.world.db (sampleId 11) "worker" none
      (some ⟨3840, 2160, some 40000000, none⟩) 5 true = .ok m ∧ m.result = true ∧
      (m.db.Storable ↔ OutputFits some 10 (sampleOutput "40000000")) := by
  obtain ⟨m, hm, hresult⟩ : ∃ m, markEncodingJobSucceeded claimedRun.world.db (sampleId 11)
      "worker" none (some ⟨3840, 2160, some 40000000, none⟩) 5 true = .ok m ∧ m.result = true :=
    ⟨_, rfl, rfl⟩
  have hfits := source_columns_fit_iff some 10 (sampleOutput "40000000")
    ⟨3840, 2160, some 40000000, none⟩ (by decide +kernel)
  exact ⟨m, hm, hresult, hfits.2.1 _ _ _ _ _ _ m storable_claimedRun hm hresult⟩

/-- **Three gigabits a second are too many.** The parser reads the bit rate of an uncompressed
source, and the database that would conclude its encoded job cannot be committed. -/
theorem bitrate_out_of_range : ∃ metadata m,
    parseFfprobeOutput some 10 (sampleOutput "3000000000") = .ok metadata ∧
    markEncodingJobSucceeded claimedRun.world.db (sampleId 11) "worker" none (some metadata) 5
      true = .ok m ∧ m.result = true ∧ ¬ m.db.Storable := by
  have hparse : parseFfprobeOutput some 10 (sampleOutput "3000000000")
      = .ok ⟨3840, 2160, some 3000000000, none⟩ := by decide +kernel
  refine ⟨_, _, hparse, rfl, rfl, fun hs => ?_⟩
  have hfits : FitsInteger 3000000000 := (hs (sampleId 0) _ rfl).bitrate _ rfl
  exact absurd hfits.2 (by decide)

end RenditionPipeline
