import Mathlib.Data.List.Sort
import Mathlib.Data.Rat.Defs
import RenditionPipeline.Library.Table
import RenditionPipeline.Library.Uuid
import RenditionPipeline.Models.Enums

/-!
# The database

The five tables of the schema, row by row, and the database state as a whole. A
row holds the columns that some modelled function reads or writes; its primary
key is the key of its table and not a column.
-/

namespace RenditionPipeline

/-- An instant, in microseconds. -/
abbrev Timestamp := ℤ

/-- The duration of so many seconds. -/
def seconds (n : ℤ) : ℤ := n * 1000000

/-- A floating-point value that is only stored, as the exact number it denotes. -/
inductive FloatValue where
  | finite (q : ℚ)
  | infinity
  | negInfinity
  | nan
deriving DecidableEq

/-! ### What columns hold -/

/-- The range of an `Integer` column. -/
def FitsInteger (n : ℤ) : Prop := -2 ^ 31 ≤ n ∧ n < 2 ^ 31

/-- The range of a `BigInteger` column. -/
def FitsBigInteger (n : ℤ) : Prop := -2 ^ 63 ≤ n ∧ n < 2 ^ 63

/-- The texts of a `String` column: PostgreSQL has none with `U+0000`. -/
def FitsString (text : String) : Prop := '\x00' ∉ text.toList

instance (n : ℤ) : Decidable (FitsInteger n) :=
  inferInstanceAs (Decidable (-2147483648 ≤ n ∧ n < 2147483648))

instance (n : ℤ) : Decidable (FitsBigInteger n) :=
  inferInstanceAs (Decidable (-9223372036854775808 ≤ n ∧ n < 9223372036854775808))

instance (text : String) : Decidable (FitsString text) :=
  inferInstanceAs (Decidable ('\x00' ∉ text.toList))

/-! ### The rows -/

/-- A row of `videos`. -/
structure Video where
  source : String
  sourceBucket : Option String
  sourceFilename : Option String
  sourceContentType : Option String
  sourceSizeBytes : Option ℤ
  sourceWidth : Option ℤ
  sourceHeight : Option ℤ
  sourceBitrate : Option ℤ
  sourceDurationSeconds : Option FloatValue
  playbackPath : Option String
  status : ProcessingStatus
  createdAt : Timestamp
  uploadedAt : Option Timestamp
deriving DecidableEq

/-- A row of `renditions`. -/
structure Rendition where
  videoId : UUID
  resolution : String
  bitrate : ℕ
  status : ProcessingStatus
  outputPath : Option String
  error : Option String
  completedAt : Option Timestamp
deriving DecidableEq

/-- A row of `jobs`. -/
structure Job where
  videoId : UUID
  renditionId : UUID
  status : ProcessingStatus
  error : Option String
  attemptCount : ℕ
  maxAttempts : ℕ
  workerId : Option String
  startedAt : Option Timestamp
  finishedAt : Option Timestamp
  heartbeatAt : Option Timestamp
  nextRunAt : Option Timestamp
deriving DecidableEq

/-- A row of `outbox_messages`. -/
structure OutboxMessage where
  jobId : UUID
  videoId : UUID
  renditionId : UUID
  exchange : String
  routingKey : String
  status : OutboxStatus
  attemptCount : ℕ
  lastError : Option String
  createdAt : Timestamp
  publishedAt : Option Timestamp
deriving DecidableEq

/-- A row of `upload_sessions`. -/
structure UploadSession where
  videoId : UUID
  bucket : String
  objectKey : String
  objectUploadId : String
  filename : String
  contentType : String
  sizeBytes : ℤ
  partCount : ℤ
  status : UploadStatus
  error : Option String
  completedAt : Option Timestamp
  abortedAt : Option Timestamp
deriving DecidableEq

/-- The committed state of the database. -/
structure Db where
  videos : Table UUID Video
  uploadSessions : Table UUID UploadSession
  renditions : Table UUID Rendition
  jobs : Table UUID Job
  outboxMessages : Table UUID OutboxMessage

namespace Db

/-- The database before any request. -/
def empty : Db := ⟨Table.empty, Table.empty, Table.empty, Table.empty, Table.empty⟩

/-! ### The relationships -/

/-- The relationship `Video.renditions`, ordered by `Rendition.bitrate.desc()`. -/
def renditionsOf (db : Db) (videoId : UUID) : List (UUID × Rendition) :=
  (db.renditions.select fun _ r => decide (r.videoId = videoId)).insertionSort
    fun p q => q.2.bitrate ≤ p.2.bitrate

theorem mem_renditionsOf {db : Db} {videoId rid : UUID} {r : Rendition} :
    (rid, r) ∈ db.renditionsOf videoId ↔
      db.renditions.get? rid = some r ∧ r.videoId = videoId := by
  rw [renditionsOf, List.mem_insertionSort, Table.mem_select, decide_eq_true_iff]

/-- The renditions of a video depend on the rendition table alone. -/
theorem renditionsOf_congr {db db' : Db} (h : db'.renditions = db.renditions) (videoId : UUID) :
    db'.renditionsOf videoId = db.renditionsOf videoId := by
  rw [renditionsOf, renditionsOf, h]

/-- **Changing one rendition in place** changes it in its video's list and leaves
the order alone, provided that its video and its bitrate stay. -/
theorem renditionsOf_modify {db db' : Db} {rid : UUID} {f : Rendition → Rendition}
    (h : db'.renditions = db.renditions.modify rid f)
    (hvideo : ∀ r, (f r).videoId = r.videoId) (hbitrate : ∀ r, (f r).bitrate = r.bitrate)
    (videoId : UUID) :
    db'.renditionsOf videoId =
      (db.renditionsOf videoId).map fun p => if p.1 = rid then (p.1, f p.2) else p := by
  rw [renditionsOf, h, Table.select_modify (by simp [hvideo]), renditionsOf]
  refine (List.map_insertionSort _ _ _ _ ?_).symm
  intro p _ q _
  by_cases hp : p.1 = rid <;> by_cases hq : q.1 = rid <;> simp [hp, hq, hbitrate]

/-- The relationship `Job.outbox_message`. -/
def outboxOf (db : Db) (jobId : UUID) : Option (UUID × OutboxMessage) :=
  (db.outboxMessages.select fun _ m => decide (m.jobId = jobId)).head?

end Db

end RenditionPipeline
