import RenditionPipeline.Encoding.Presets
import RenditionPipeline.Library.Files

/-!
# The encoder

Making the HLS output of one source: the command line, and the run of it in the
output directory of the job. What `ffmpeg` does is outside of this development; of
its run the model is given what the code reads of it, and the files it has written,
which are those that the command line names.
-/

namespace RenditionPipeline

/-- `EncodingPreset.ffmpeg_video_bitrate` -/
def EncodingPreset.ffmpegVideoBitrate (preset : EncodingPreset) : String :=
  toString (preset.videoBitrate / 1000) ++ "k"

/-- The filter in `build_hls_ffmpeg_command`. -/
def scaleFilter (preset : EncodingPreset) : String :=
  "scale=w=" ++ toString preset.width ++ ":h=" ++ toString preset.height ++ ":" ++
    "force_original_aspect_ratio=decrease," ++
    "pad=" ++ toString preset.width ++ ":" ++ toString preset.height ++ ":(ow-iw)/2:(oh-ih)/2"

/-- A path as a text. -/
def PosixPath.str (p : PosixPath) : String := "/" ++ Text.join "/" p

/-- `build_hls_ffmpeg_command` -/
def buildHlsFfmpegCommand (inputPath : PosixPath) (preset : EncodingPreset) : List String :=
  ["ffmpeg", "-hide_banner", "-y", "-i", inputPath.str, "-vf", scaleFilter preset,
    "-c:v", "libx264", "-preset", "veryfast", "-b:v", preset.ffmpegVideoBitrate,
    "-maxrate", preset.ffmpegVideoBitrate, "-bufsize", preset.ffmpegVideoBitrate,
    "-c:a", "aac", "-b:a", preset.audioBitrate, "-f", "hls", "-hls_time", "6",
    "-hls_playlist_type", "vod", "-hls_segment_filename", "segments/segment_%05d.ts",
    "index.m3u8"]

/-- The number in the name of a segment, `%05d`. -/
def segmentNumber (n : ℕ) : String :=
  let digits := toString n
  String.ofList (List.replicate (5 - digits.length) '0') ++ digits

/-- A file that `ffmpeg` writes: a segment or the playlist, by its name in the directory the
command is run in. -/
inductive HlsFile where
  | segment (number : ℕ)
  | playlist
deriving DecidableEq

namespace HlsFile

/-- The names on the way to the file. -/
def names : HlsFile → List String
  | segment n => ["segments", "segment_" ++ segmentNumber n ++ ".ts"]
  | playlist => ["index.m3u8"]

/-- Where the file lies. -/
def path (outputDir : PosixPath) (file : HlsFile) : PosixPath := outputDir ++ file.names

end HlsFile

/-- A run of `ffmpeg`: what it answers, and the files it writes one after another. -/
structure FfmpegRun (α : Type*) where
  returncode : ℤ
  stderr : String
  written : List (HlsFile × α)

namespace FfmpegRun

variable {α : Type*}

/-- The files as they are after a run in an output directory. A file that cannot be written
stops it. -/
def write (outputDir : PosixPath) (run : FfmpegRun α) (t : FileTree α) :
    Except OsError (FileTree α) :=
  run.written.foldlM (fun t file => t.write (file.1.path outputDir) file.2) t

end FfmpegRun

/-- What `HlsEncoder.encode` raises. -/
inductive EncodeError where
  | osError (error : OsError)
  | ffmpegError (message : String)
deriving DecidableEq

namespace HlsEncoder

variable {α : Type*}

/-- The directory that `HlsEncoder.encode` makes for the segments. -/
def segmentsDir (outputDir : PosixPath) : PosixPath := outputDir.joinpath "segments"

/-- The first two lines of `HlsEncoder.encode`. -/
def makeDirectories (t : FileTree α) (outputDir : PosixPath) : Except OsError (FileTree α) := do
  let t ← t.mkdirParents outputDir
  t.mkdirParents (segmentsDir outputDir)

/-- `HlsEncoder.encode`. A run that does not start is `none`; `run` is given the command. -/
def encode (t : FileTree α) (inputPath outputDir : PosixPath) (resolution : String)
    (run : List String → Option (FfmpegRun α)) : Except EncodeError (FileTree α) := do
  let t ← (makeDirectories t outputDir).mapError .osError
  match run (buildHlsFfmpegCommand inputPath (getHlsPreset resolution)) with
  | none => throw (.ffmpegError "failed to start ffmpeg")
  | some run =>
    -- a file that cannot be written makes `ffmpeg` fail
    match run.write outputDir t with
    | .error _ => throw (.ffmpegError (if Text.strip run.stderr = "" then "ffmpeg failed"
      else Text.strip run.stderr))
    | .ok t =>
      if run.returncode ≠ 0 then
        throw (.ffmpegError (if Text.strip run.stderr = "" then "ffmpeg failed"
          else Text.strip run.stderr))
      else if t.isFile (outputDir.joinpath "index.m3u8") then return t
      else throw (.ffmpegError "ffmpeg did not create HLS playlist")

end HlsEncoder

end RenditionPipeline
