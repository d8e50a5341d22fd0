import RenditionPipeline.Browser.Completion
import RenditionPipeline.Library.Blocks

/-!
# Splitting a file into parts

The browser counts the parts of a file by a division that rounds up, and cuts each of
them out by two offsets, the second of which is clamped to the end of the file. The API
wants the parts numbered from one in order, and the storage is sent them sorted by
number. That the two sides fit – the parts follow one another without gap or overlap
from the first byte to the last (`RenditionPipeline.UploadFile.Partitioned`), and the
object that the storage makes of them is the file, of the size that was announced – is
a matter of the blocks of a list (`RenditionPipeline.Blocks`).
-/

namespace RenditionPipeline

/-- `Blob.slice`: an offset below zero counts from the end, and one beyond the end is
the end. -/
def sliceOffset (size : ℕ) (offset : ℤ) : ℕ :=
  if offset < 0 then (size + offset).toNat else min offset.toNat size

/-- `Blob.slice` of a content. -/
def slice {α : Type} (content : List α) (range : ℤ × ℤ) : List α :=
  (content.take (sliceOffset content.length range.2)).drop (sliceOffset content.length range.1)

/-- The `Parts` that `complete_multipart_upload` sends. -/
def completeMultipartUploadParts (parts : List CompletedUploadPart) : List CompletedUploadPart :=
  parts.insertionSort fun p q => p.partNumber ≤ q.partNumber

namespace UploadFile

variable (file : UploadFile)

/-- The numbers of the parts. -/
def partNumbers : List ℤ := (List.range file.getPartCount).map fun i : ℕ => (i : ℤ) + 1

/-- What is sent for some parts of a file with a content, one after another. -/
def concatenate {α : Type} (content : List α) (parts : List CompletedUploadPart) : List α :=
  parts.flatMap fun part => slice content (file.partBlob part.partNumber)

/-- **The parts partition the file**: they follow one another from its beginning to its
end, and all but the last are full. -/
structure Partitioned : Prop where
  nonempty : ∀ k ∈ file.partNumbers, (file.partBlob k).1 < (file.partBlob k).2
  consecutive : ∀ k ∈ file.partNumbers, k ≠ file.getPartCount →
    (file.partBlob k).2 = (file.partBlob (k + 1)).1
  disjoint : (file.partNumbers.map file.partBlob).Pairwise fun r r' => r.2 ≤ r'.1
  first : (file.partBlob 1).1 = 0
  last : (file.partBlob file.getPartCount).2 = file.sizeBytes
  full : ∀ k ∈ file.partNumbers, k ≠ file.getPartCount →
    (file.partBlob k).2 - (file.partBlob k).1 = file.partSizeBytes
  total : (file.partNumbers.map fun k => (file.partBlob k).2 - (file.partBlob k).1).sum =
    file.sizeBytes

variable {file}

/-! ### The offsets of a part -/

theorem getPartCount_eq : file.getPartCount = Blocks.count file.partSizeBytes file.sizeBytes := rfl

theorem partBlob_succ (i : ℕ) : file.partBlob ((i : ℤ) + 1) =
    (((i * file.partSizeBytes : ℕ) : ℤ),
      ((min (i * file.partSizeBytes + file.partSizeBytes) file.sizeBytes : ℕ) : ℤ)) := by
  simp [partBlob]

theorem mem_partNumbers {k : ℤ} :
    k ∈ file.partNumbers ↔ ∃ i < file.getPartCount, k = (i : ℤ) + 1 := by
  simp only [partNumbers, List.mem_map, List.mem_range, eq_comm]

/-- Where a part begins in the file. -/
theorem offset_lt {i : ℕ} (h : i < file.getPartCount) : i * file.partSizeBytes < file.sizeBytes :=
  (Blocks.lt_count_iff file.partSizeBytes_pos).mp h

/-- A part that is not the last ends before the end of the file. -/
theorem offset_add_le {i : ℕ} (h : i + 1 < file.getPartCount) :
    i * file.partSizeBytes + file.partSizeBytes ≤ file.sizeBytes :=
  Blocks.add_le_of_succ_lt_count file.partSizeBytes_pos h

/-- **The parts cut out are the blocks of the content.** -/
theorem slice_partBlob {α : Type} {content : List α} (hcontent : content.length = file.sizeBytes)
    {i : ℕ} (h : i < file.getPartCount) :
    slice content (file.partBlob ((i : ℤ) + 1)) = Blocks.block file.partSizeBytes content i := by
  have hlt := offset_lt h
  have hoffset : ∀ n : ℕ, sliceOffset content.length (n : ℤ) = min n content.length := fun n => by
    rw [sliceOffset, if_neg (by omega), Int.toNat_natCast]
  rw [partBlob_succ, slice, hoffset, hoffset, hcontent, min_eq_left hlt.le,
    min_eq_left (min_le_right _ _), Blocks.block, List.take_drop]
  -- the clamp to the end of the file cuts nothing off
  rw [← hcontent, List.take_eq_take_min, min_eq_left (min_le_right _ _), ← List.take_eq_take_min]

/-! ### The partition -/

theorem sum_lengths {n : ℕ} (h : n ≤ file.getPartCount) :
    (((List.range n).map fun i : ℕ => (i : ℤ) + 1).map fun k =>
      (file.partBlob k).2 - (file.partBlob k).1).sum =
        min (n * file.partSizeBytes : ℕ) file.sizeBytes := by
  induction n with
  | zero => simp
  | succ n ih =>
    have hlt := offset_lt h
    rw [List.range_succ, List.map_append, List.map_append, List.sum_append, ih (by omega)]
    simp only [List.map_cons, List.map_nil, List.sum_singleton, partBlob_succ, Nat.succ_mul]
    omega

/-- **The parts of a file that is not empty partition it.** -/
theorem partitioned (hsize : 0 < file.sizeBytes) : file.Partitioned := by
  have hpos := file.partSizeBytes_pos
  have hcount : 0 < file.getPartCount := Blocks.count_pos hpos hsize
  obtain ⟨m, hm⟩ : ∃ m, file.getPartCount = m + 1 := ⟨_, (Nat.succ_pred_eq_of_pos hcount).symm⟩
  have hlast : file.sizeBytes ≤ m * file.partSizeBytes + file.partSizeBytes :=
    Blocks.le_add_of_succ_eq_count hpos hm.symm
  refine ⟨?_, ?_, ?_, ?_, ?_, ?_, ?_⟩
  · intro k hk
    obtain ⟨i, hi, rfl⟩ := mem_partNumbers.mp hk
    have hlt := offset_lt hi
    rw [partBlob_succ]
    omega
  · intro k hk hne
    obtain ⟨i, hi, rfl⟩ := mem_partNumbers.mp hk
    have hfull : i * file.partSizeBytes + file.partSizeBytes ≤ file.sizeBytes :=
      offset_add_le (by omega)
    have hnext : ((i : ℤ) + 1) + 1 = ((i + 1 : ℕ) : ℤ) + 1 := by push_cast; ring
    rw [hnext, partBlob_succ, partBlob_succ, Nat.succ_mul]
    omega
  · rw [partNumbers, List.map_map, List.pairwise_map]
    refine List.pairwise_lt_range.imp fun {i j} hij => ?_
    have hle : (i + 1) * file.partSizeBytes ≤ j * file.partSizeBytes := Nat.mul_le_mul_right _ hij
    rw [Nat.succ_mul] at hle
    simp only [Function.comp_apply, partBlob_succ]
    omega
  · simp [partBlob]
  · rw [hm, Nat.cast_succ, partBlob_succ]
    omega
  · intro k hk hne
    obtain ⟨i, hi, rfl⟩ := mem_partNumbers.mp hk
    have hfull : i * file.partSizeBytes + file.partSizeBytes ≤ file.sizeBytes :=
      offset_add_le (by omega)
    rw [partBlob_succ]
    omega
  · rw [partNumbers, sum_lengths le_rfl, hm, Nat.succ_mul]
    omega

/-! ### Putting the parts together -/

/-- An accepted list of parts is in order, so that it is sent as it is. -/
theorem completeMultipartUploadParts_eq {session : UploadSession}
    {parts : List CompletedUploadPart} (hcount : session.partCount = file.getPartCount)
    (h : validateCompletedUploadParts session parts = .ok ()) :
    parts.map CompletedUploadPart.partNumber = file.partNumbers ∧
      completeMultipartUploadParts parts = parts := by
  have hnumbers : parts.map CompletedUploadPart.partNumber = file.partNumbers :=
    (UploadController.validateCompletedUploadParts_eq_ok hcount).mp h
  refine ⟨hnumbers, List.Pairwise.insertionSort_eq ?_⟩
  have hsorted : (parts.map CompletedUploadPart.partNumber).Pairwise (· ≤ ·) := by
    rw [hnumbers, partNumbers, List.pairwise_map]
    exact List.pairwise_lt_range.imp fun hij => by omega
  exact List.pairwise_map.mp hsorted

/-- **The parts in order, one after another, are the file.** -/
theorem concatenate_eq {α : Type} {content : List α} (hcontent : content.length = file.sizeBytes)
    {parts : List CompletedUploadPart}
    (h : parts.map CompletedUploadPart.partNumber = file.partNumbers) :
    file.concatenate content parts = content := by
  calc file.concatenate content parts
      = file.partNumbers.flatMap fun k => slice content (file.partBlob k) := by
        rw [concatenate, ← h, List.flatMap_map]
    _ = (List.range file.getPartCount).flatMap (Blocks.block file.partSizeBytes content) := by
        rw [partNumbers, List.flatMap_map]
        exact List.flatMap_congr fun i hi => slice_partBlob hcontent (List.mem_range.mp hi)
    _ = content := by
        rw [getPartCount_eq, ← hcontent, Blocks.flatMap_block_count file.partSizeBytes_pos]

/-- **Splitting a file is an exact partition that the API and the storage accept.** The
parts of a file that is not empty partition it, all but the last of them are of the size
the storage asks for at least, and the parts of a completion that the API accepts make up
the file, as they are sent to the storage, so that the object has the size announced. -/
theorem parts_make_up_file (file : UploadFile) (hsize : 0 < file.sizeBytes)
    (hpart : 5242880 ≤ file.partSizeBytes) :
    file.Partitioned ∧
    (∀ k ∈ file.partNumbers, k ≠ file.getPartCount →
      5242880 ≤ (file.partBlob k).2 - (file.partBlob k).1) ∧
    ∀ (α : Type) (content : List α), content.length = file.sizeBytes →
      ∀ (session : UploadSession) (parts : List CompletedUploadPart),
        session.partCount = file.getPartCount → session.sizeBytes = file.sizeBytes →
        validateCompletedUploadParts session parts = .ok () →
        file.concatenate content parts = content ∧
        file.concatenate content (completeMultipartUploadParts parts) = content ∧
        validateCompletedUploadMetadata (some (some
          ⟨(file.concatenate content (completeMultipartUploadParts parts)).length,
            some session.contentType⟩)) session = .ok () := by
  have hpartitioned := partitioned hsize
  refine ⟨hpartitioned, fun k hk hne => ?_, fun α content hcontent session parts hcount hbytes h =>
    ?_⟩
  · rw [hpartitioned.full k hk hne]
    exact_mod_cast hpart
  · obtain ⟨hnumbers, hsent⟩ := completeMultipartUploadParts_eq hcount h
    have hconcat := concatenate_eq hcontent hnumbers
    rw [hsent]
    refine ⟨hconcat, hconcat, ?_⟩
    rw [hconcat, hcontent, validateCompletedUploadMetadata, if_neg (by rw [hbytes]; simp),
      if_neg (by simp)]

/-- A file of two parts and one byte. -/
theorem parts_make_up_file_three : (⟨10485761, 5242880, by decide⟩ : UploadFile).Partitioned :=
  (parts_make_up_file ⟨10485761, 5242880, by decide⟩ (by decide) (by decide)).1

end UploadFile

end RenditionPipeline
