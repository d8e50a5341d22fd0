import RenditionPipeline.Api.Schemas
import RenditionPipeline.Encoding.Ffmpeg

/-!
# The directory of a job

The processor works in a fresh directory: it downloads the source there, under the
name that the upload was given, and has the encoder make its output in `hls` beside
it. A name is a single path segment once it is accepted, so the source is a child
of the directory; it meets the output just when it is called `hls` itself
(`RenditionPipeline.accepted_filename_apart`).

Apart from the paths the theorem speaks of the files: after the download the
directories are made, and every file of every run of the encoder is written, with
the source as it was (`RenditionPipeline.Prepared`).
-/

namespace RenditionPipeline

namespace FfmpegEncodingProcessor

/-- The name `context.source_filename or "source"`. -/
def sourceName : Option String → String
  | none => "source"
  | some filename => if filename = "" then "source" else filename

/-- `input_path` in `FfmpegEncodingProcessor.process`. -/
def inputPath (jobDir : PosixPath) (sourceFilename : Option String) : PosixPath :=
  jobDir.joinpath (sourceName sourceFilename)

/-- `output_dir` in `FfmpegEncodingProcessor.process`. -/
def outputDir (jobDir : PosixPath) : PosixPath := jobDir.joinpath "hls"

end FfmpegEncodingProcessor

open FfmpegEncodingProcessor HlsEncoder

/-- A path that `HlsEncoder.encode` makes: its two directories and the files of `ffmpeg`. -/
inductive EncoderPath (outputDir : PosixPath) : PosixPath → Prop
  | output : EncoderPath outputDir outputDir
  | segments : EncoderPath outputDir (segmentsDir outputDir)
  | file (file : HlsFile) : EncoderPath outputDir (file.path outputDir)

/-- A directory that has just been made. -/
structure FreshDirectory {α : Type} (t : FileTree α) (jobDir : PosixPath) : Prop where
  closed : t.Closed
  isDir : t.isDir jobDir = true
  empty : ∀ q, jobDir <+: q → jobDir ≠ q → t q = none

/-- **What the name of a source should be**: it makes a key, and in the directory of a job
the source is a child that has nothing to do with any path of the encoder, so that the
encoder finds all its paths free and leaves the source as it is. -/
structure SourceApart (jobDir : PosixPath) (filename : String) : Prop where
  key : ∀ videoId, ∃ key, buildSourceKey videoId filename = .ok key
  child : ∃ name, inputPath jobDir (some filename) = jobDir ++ [name]
  ne : inputPath jobDir (some filename) ≠ outputDir jobDir
  apart : ∀ q, EncoderPath (outputDir jobDir) q →
    ¬ PosixPath.Clashes (inputPath jobDir (some filename)) q
  encodes : ∀ {α : Type} (t : FileTree α) (source : α), FreshDirectory t jobDir →
    ∃ t₁ t₂, t.write (inputPath jobDir (some filename)) source = .ok t₁ ∧
      makeDirectories t₁ (outputDir jobDir) = .ok t₂ ∧
      (∀ run : FfmpegRun α, ∃ t₃, run.write (outputDir jobDir) t₂ = .ok t₃ ∧
        t₃ (inputPath jobDir (some filename)) = some (.file source)) ∧
      ∀ resolution run error, encode t₁ (inputPath jobDir (some filename)) (outputDir jobDir)
        resolution run ≠ .error (.osError error)

/-! ### The paths -/

theorem outputDir_eq (jobDir : PosixPath) : outputDir jobDir = jobDir ++ ["hls"] :=
  PosixPath.joinpath_of_isName (by decide)

theorem segmentsDir_eq (jobDir : PosixPath) :
    segmentsDir (outputDir jobDir) = jobDir ++ ["hls"] ++ ["segments"] := by
  rw [segmentsDir, PosixPath.joinpath_of_isName (by decide), outputDir_eq]

/-- All that the encoder makes lies in its output directory. -/
theorem EncoderPath.exists_eq {jobDir q : PosixPath} (h : EncoderPath (outputDir jobDir) q) :
    ∃ rest, q = jobDir ++ ["hls"] ++ rest := by
  rw [← outputDir_eq]
  cases h with
  | output => exact ⟨[], (List.append_nil _).symm⟩
  | segments => exact ⟨["segments"], PosixPath.joinpath_of_isName (by decide)⟩
  | file file => exact ⟨file.names, rfl⟩

section Accepted

variable {jobDir : PosixPath} {filename : String}

theorem inputPath_eq (h : IsKeyPart filename) :
    inputPath jobDir (some filename) = jobDir ++ [filename] := by
  rw [inputPath, sourceName, if_neg h.1]
  exact PosixPath.joinpath_of_isName ⟨h.1, h.2.1, h.2.2.2.1⟩

/-- **A name other than `hls` is apart from all paths of the encoder.** -/
theorem EncoderPath.not_clashes {q : PosixPath} (h : EncoderPath (outputDir jobDir) q)
    (hne : filename ≠ "hls") : ¬ PosixPath.Clashes (jobDir ++ [filename]) q := by
  obtain ⟨rest, rfl⟩ := h.exists_eq
  exact PosixPath.not_clashes_of_ne hne rest

end Accepted

/-! ### The files -/

/-- **The directory of a job once the encoder can run**: its two directories are there, its
files are not taken by directories, and the source is in place. -/
structure Prepared {α : Type} (t : FileTree α) (jobDir : PosixPath) (filename : String)
    (source : α) : Prop where
  closed : t.Closed
  source : t (jobDir ++ [filename]) = some (.file source)
  output : t.isDir (outputDir jobDir) = true
  segments : t.isDir (segmentsDir (outputDir jobDir)) = true
  free : ∀ file : HlsFile, t.isDir (file.path (outputDir jobDir)) = false

section Prepared

variable {α : Type} {t : FileTree α} {jobDir : PosixPath} {filename : String} {source : α}

/-- A file of the encoder lies in one of its two directories. -/
theorem HlsFile.exists_path_eq (file : HlsFile) (jobDir : PosixPath) :
    ∃ p name, file.path (outputDir jobDir) = p ++ [name] ∧
      (p = outputDir jobDir ∨ p = segmentsDir (outputDir jobDir)) := by
  cases file with
  | segment n =>
    refine ⟨segmentsDir (outputDir jobDir), "segment_" ++ segmentNumber n ++ ".ts", ?_, Or.inr rfl⟩
    rw [segmentsDir_eq, ← outputDir_eq, path, names, List.append_assoc]
    rfl
  | playlist => exact ⟨outputDir jobDir, _, rfl, Or.inl rfl⟩

/-- **A file of the encoder can be written**, and the directory is prepared as before. -/
theorem Prepared.write (h : Prepared t jobDir filename source) (hne : filename ≠ "hls")
    (file : HlsFile) (content : α) :
    ∃ t', t.write (file.path (outputDir jobDir)) content = .ok t' ∧
      Prepared t' jobDir filename source := by
  obtain ⟨p, name, hpath, hp⟩ := file.exists_path_eq jobDir
  have hd : t.isDir p = true := by
    rcases hp with rfl | rfl
    · exact h.output
    · exact h.segments
  have hfree := h.free file
  rw [hpath] at hfree
  have happart : jobDir ++ [filename] ≠ p ++ [name] := by
    rw [← hpath, HlsFile.path, outputDir_eq]
    exact PosixPath.concat_ne_of_ne hne file.names
  -- what is a directory stays one, and nothing becomes one
  have hdir : ∀ {q}, FileTree.isDir (Function.update t (p ++ [name]) (some (.file content))) q =
      t.isDir q := by
    intro q
    by_cases hq : q = p ++ [name]
    · rw [hq, hfree, FileTree.isDir, Function.update_self]
    · rw [FileTree.isDir, Function.update_of_ne hq, FileTree.isDir]
  rw [hpath]
  refine ⟨_, h.closed.write_eq hd hfree, h.closed.update hd (Or.inl hfree), ?_, ?_, ?_, ?_⟩
  · rw [Function.update_of_ne happart]
    exact h.source
  · rw [hdir]
    exact h.output
  · rw [hdir]
    exact h.segments
  · intro file'
    rw [hdir]
    exact h.free file'

/-- **Every run of the encoder writes all its files** and leaves the source alone. -/
theorem Prepared.run (h : Prepared t jobDir filename source) (hne : filename ≠ "hls")
    (run : FfmpegRun α) :
    ∃ t', run.write (outputDir jobDir) t = .ok t' ∧
      Prepared t' jobDir filename source := by
  rw [FfmpegRun.write]
  generalize run.written = written
  induction written generalizing t with
  | nil => exact ⟨t, rfl, h⟩
  | cons file written ih =>
    obtain ⟨t₁, hwrite, h₁⟩ := h.write hne file.1 file.2
    obtain ⟨t₂, hrest, h₂⟩ := ih h₁
    refine ⟨t₂, ?_, h₂⟩
    rw [List.foldlM_cons, hwrite]
    exact hrest

/-- **The encoder prepares** a directory that has the source and nothing called `hls`. -/
theorem prepared_of_vacant (hc : t.Closed) (hd : t.isDir jobDir = true)
    (hsource : t (jobDir ++ [filename]) = some (.file source))
    (hvacant : t.Vacant (jobDir ++ ["hls"])) (hne : filename ≠ "hls") :
    ∃ t', makeDirectories t (outputDir jobDir) = .ok t' ∧
      Prepared t' jobDir filename source := by
  have hstays : ∀ (t : FileTree α) (rest : PosixPath) (node : Option (FileNode α)),
      Function.update t (jobDir ++ ["hls"] ++ rest) node (jobDir ++ [filename]) =
        t (jobDir ++ [filename]) := fun t rest node =>
    Function.update_of_ne (PosixPath.concat_ne_of_ne hne rest) _ _
  rw [makeDirectories, segmentsDir_eq, outputDir_eq, hc.mkdirParents_eq hd hvacant.self]
  obtain ⟨t₁, ht₁⟩ : ∃ t₁ : FileTree α,
      t₁ = Function.update t (jobDir ++ ["hls"]) (some .directory) := ⟨_, rfl⟩
  have hclosed₁ : t₁.Closed := ht₁ ▸ hc.update hd (Or.inr rfl)
  have hout₁ : t₁.isDir (jobDir ++ ["hls"]) = true := by
    rw [ht₁, FileTree.isDir_iff, Function.update_self]
  have hvacant₁ : ∀ s, t₁.Vacant (jobDir ++ ["hls"] ++ [s]) := fun s =>
    ht₁ ▸ hvacant.child (some .directory)
  refine ⟨Function.update t₁ (jobDir ++ ["hls"] ++ ["segments"]) (some .directory), ?_,
    hclosed₁.update hout₁ (Or.inr rfl), ?_, ?_, ?_, ?_⟩
  · rw [← ht₁]
    exact hclosed₁.mkdirParents_eq hout₁ (hvacant₁ "segments").self
  · rw [hstays, ht₁]
    have hself := hstays t [] (some .directory)
    rw [List.append_nil] at hself
    rw [hself]
    exact hsource
  · rw [outputDir_eq, FileTree.isDir_iff, Function.update_of_ne (by simp)]
    exact FileTree.isDir_iff.mp hout₁
  · rw [segmentsDir_eq, FileTree.isDir_iff, Function.update_self]
  · -- nothing else has been made below the output directory
    intro file
    refine FileTree.isDir_eq_false ?_
    rw [HlsFile.path, outputDir_eq]
    cases file with
    | segment n =>
      have hchild := (hvacant₁ "segments").child (s := "segment_" ++ segmentNumber n ++ ".ts")
        (some .directory)
      have hnames : jobDir ++ ["hls"] ++ (HlsFile.segment n).names =
          jobDir ++ ["hls"] ++ ["segments"] ++ ["segment_" ++ segmentNumber n ++ ".ts"] :=
        (List.append_assoc (jobDir ++ ["hls"]) ["segments"] _).symm
      rw [hnames]
      exact hchild.self
    | playlist =>
      rw [Function.update_of_ne (by simp [HlsFile.names])]
      exact (hvacant₁ "index.m3u8").self

/-- **A fresh directory is prepared** by the download and by making the directories. -/
theorem FreshDirectory.prepared (h : FreshDirectory t jobDir) (hne : filename ≠ "hls")
    (source : α) :
    ∃ t₁ t₂, t.write (jobDir ++ [filename]) source = .ok t₁ ∧
      makeDirectories t₁ (outputDir jobDir) = .ok t₂ ∧
      Prepared t₂ jobDir filename source := by
  have hvacant : ∀ name : String, t.Vacant (jobDir ++ [name]) := fun name q hq =>
    h.empty q ((List.prefix_append _ _).trans hq) fun he => by
      rw [← he] at hq
      exact PosixPath.not_concat_prefix jobDir name hq
  have hnodir := FileTree.isDir_eq_false (hvacant filename).self
  have hsource : ∀ node : Option (FileNode α),
      Function.update t (jobDir ++ [filename]) node (jobDir ++ [filename]) = node :=
    fun node => Function.update_self _ _ _
  obtain ⟨t₂, hmake, hprepared⟩ := prepared_of_vacant (h.closed.update h.isDir (Or.inl hnodir))
    (by rw [FileTree.isDir_iff, Function.update_of_ne (by simp)]
        exact FileTree.isDir_iff.mp h.isDir)
    (hsource (some (.file source)))
    ((hvacant "hls").update (fun hpre => PosixPath.not_clashes_of_ne hne [] (by
      rw [List.append_nil]; exact Or.inr hpre)) _) hne
  exact ⟨_, t₂, h.closed.write_eq h.isDir hnodir, hmake, hprepared⟩

/-- Once the directories are made, `encode` fails by `ffmpeg` alone. -/
theorem encode_ne_osError {t' : FileTree α} {out : PosixPath}
    (h : makeDirectories t out = .ok t') (input : PosixPath) (resolution : String)
    (run : List String → Option (FfmpegRun α)) (error : OsError) :
    encode t input out resolution run ≠ .error (.osError error) := by
  rw [encode, h]
  simp only [Except.mapError, bind, Except.bind]
  split
  · exact nofun
  · split
    · exact nofun
    · split
      · exact nofun
      · split <;> exact nofun

/-- **A source called `hls` makes every encode fail**: its download has taken the place of
the output directory. -/
theorem FreshDirectory.encode_hls (h : FreshDirectory t jobDir) (source : α) :
    ∃ t₁, t.write (inputPath jobDir (some "hls")) source = .ok t₁ ∧
      ∀ input resolution run, encode t₁ input (outputDir jobDir) resolution run =
        .error (.osError .fileExistsError) := by
  have hnone : t (jobDir ++ ["hls"]) = none := h.empty _ (List.prefix_append _ _) (by simp)
  have hnodir := FileTree.isDir_eq_false hnone
  rw [inputPath_eq (by decide), outputDir_eq]
  refine ⟨_, h.closed.write_eq h.isDir hnodir, fun input resolution run => ?_⟩
  have hclosed : FileTree.Closed (Function.update t (jobDir ++ ["hls"]) (some (.file source))) :=
    h.closed.update h.isDir (Or.inl hnodir)
  have hjob : FileTree.isDir (Function.update t (jobDir ++ ["hls"]) (some (.file source)))
      jobDir = true := by
    rw [FileTree.isDir_iff, Function.update_of_ne (by simp)]
    exact FileTree.isDir_iff.mp h.isDir
  have hfile : FileTree.isFile (Function.update t (jobDir ++ ["hls"]) (some (.file source)))
      (jobDir ++ ["hls"]) = true := by
    rw [FileTree.isFile_iff, Function.update_self]
    exact ⟨source, rfl⟩
  rw [encode, makeDirectories, hclosed.mkdirParents_of_file hjob hfile]
  rfl

end Prepared

/-! ### Accepted names -/

/-- **An accepted filename is apart from the output of its encodes** just when it is not
`hls`. -/
theorem accepted_filename_apart {settings : UploadSettings} {request : VideoCreateRequest}
    (h : request.Accepts settings) (jobDir : PosixPath) :
    SourceApart jobDir request.filename ↔ request.filename ≠ "hls" := by
  have hpart := h.isKeyPart
  have hinput : inputPath jobDir (some request.filename) = jobDir ++ [request.filename] :=
    inputPath_eq hpart
  constructor
  · intro hapart he
    refine hapart.ne ?_
    rw [hinput, he, outputDir_eq]
  · intro hne
    refine ⟨fun videoId => ⟨_, buildSourceKey_eq_ok_iff.mpr ⟨hpart, rfl⟩⟩, ⟨_, hinput⟩, ?_, ?_, ?_⟩
    · rw [hinput, outputDir_eq]
      exact fun he => hne (by simpa using he)
    · intro q hq
      rw [hinput]
      exact hq.not_clashes hne
    · intro α t source hfresh
      rw [hinput]
      obtain ⟨t₁, t₂, hwrite, hmake, hprepared⟩ := hfresh.prepared hne source
      refine ⟨t₁, t₂, hwrite, hmake, fun run => ?_, fun resolution run error =>
        encode_ne_osError hmake _ resolution run error⟩
      obtain ⟨t₃, hrun, hprepared₃⟩ := hprepared.run hne run
      exact ⟨t₃, hrun, hprepared₃.source⟩

/-- A request for a small file of this name. -/
def sampleRequest (filename : String) : VideoCreateRequest := ⟨filename, "video/mp4", 10, 1⟩

theorem accepts_sampleRequest (filename : String) (hlength : hasLength 1 255 filename = true)
    (h : validateFilename filename = .ok filename) :
    (sampleRequest filename).Accepts UploadSettings.default where
  filename_length := hlength
  filename := h
  contentType_length := show hasLength 1 255 "video/mp4" = true by decide
  contentType := show validateContentType UploadSettings.default "video/mp4" = .ok "video/mp4" by
    decide
  sizeBytes_pos := show (0 : ℤ) < 10 by decide
  sizeBytes := show validateSizeBytes UploadSettings.default 10 = .ok 10 by decide
  partCount_pos := show (1 : ℤ) ≤ 1 by decide
  partCount := show validatePartCount UploadSettings.default 1 = .ok 1 by decide

theorem accepted_filename_apart_clip :
    SourceApart ["tmp", "rendition", "job"] "clip.mp4" :=
  (accepted_filename_apart
    (accepts_sampleRequest "clip.mp4" (by decide) (by decide)) _).mpr (by decide)

/-- **A file called `hls` is accepted**, and its download takes the place of the output
directory. -/
theorem source_called_hls : (sampleRequest "hls").Accepts UploadSettings.default ∧
    ∀ jobDir, inputPath jobDir (some "hls") = outputDir jobDir ∧ ¬ SourceApart jobDir "hls" :=
  ⟨accepts_sampleRequest "hls" (by decide) (by decide),
    fun _ => ⟨rfl, fun h => h.ne rfl⟩⟩

end RenditionPipeline
