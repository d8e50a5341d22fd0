import Mathlib.Data.List.Infix
import Mathlib.Logic.Function.Basic
import RenditionPipeline.Library.Path

/-!
# Files

Paths of a file system whose separator is the slash, as the names from the root
down, and the file system itself as a tree: what there is at a path, if anything.
The operations are the calls of the operating system and of the path class over
them – making a directory, with its parents or alone, and writing a file – with the
errors that they raise.

A tree is closed (`RenditionPipeline.FileTree.Closed`) when everything in it lies
in a directory, and every operation keeps it so. In a closed tree two paths of
which neither lies on the way to the other do not meet: what is done at one is not
seen at the other, and both can be made.
-/

namespace RenditionPipeline

/-! ### Paths -/

/-- `PosixPath`, where it is absolute: the names below the root. -/
abbrev PosixPath := List String

namespace PosixPath

/-- The names in a text: its pieces between the slashes, less the empty ones and the
dots. -/
def names (s : String) : List String := (Text.split s '/').filter fun p => p ≠ "" && p ≠ "."

/-- The operator `/` of paths: a text that begins with a slash is a path of its own. -/
def joinpath (p : PosixPath) (s : String) : PosixPath :=
  if Text.startsWith s "/" then names s else p ++ names s

/-- A text that is one name. -/
def IsName (s : String) : Prop := s ≠ "" ∧ s ≠ "." ∧ '/' ∉ s.toList

instance (s : String) : Decidable (IsName s) := inferInstanceAs (Decidable (_ ∧ _ ∧ _))

theorem names_of_isName {s : String} (h : IsName s) : names s = [s] := by
  have hsplit : Text.split s '/' = [s] := by
    refine Text.split_join (List.cons_ne_nil s []) fun p hp => ?_
    rw [List.mem_singleton.mp hp]
    exact h.2.2
  rw [names, hsplit, List.filter_cons_of_pos (by simp [h.1, h.2.1]), List.filter_nil]

/-- **A single name leads to a child.** -/
theorem joinpath_of_isName {p : PosixPath} {s : String} (h : IsName s) :
    p.joinpath s = p ++ [s] := by
  rw [joinpath, if_neg, names_of_isName h]
  intro hstart
  exact h.2.2 ((Text.startsWith_iff.mp hstart).subset (by decide))

/-- A child does not lie on the way to its parent. -/
theorem not_concat_prefix (p : PosixPath) (s : String) : ¬ p ++ [s] <+: p := by
  intro h
  have hlength := h.length_le
  rw [List.length_append, List.length_singleton] at hlength
  omega

/-- One of two paths lies on the way to the other, or they are the same. -/
def Clashes (p q : PosixPath) : Prop := p <+: q ∨ q <+: p

theorem Clashes.refl (p : PosixPath) : Clashes p p := Or.inl (List.prefix_refl p)

/-- **Two children of one directory clash in no way**, nor does anything below them. -/
theorem not_clashes_of_ne {p : PosixPath} {s s' : String} (hne : s ≠ s') (q : PosixPath) :
    ¬ Clashes (p ++ [s]) (p ++ [s'] ++ q) := by
  rintro (h | h)
  · rw [List.append_assoc, List.prefix_append_right_inj, List.singleton_append,
      List.cons_prefix_cons] at h
    exact hne h.1
  · rw [List.append_assoc, List.prefix_append_right_inj, List.singleton_append,
      List.cons_prefix_cons] at h
    exact hne h.1.symm

theorem concat_ne_of_ne {p : PosixPath} {s s' : String} (hne : s ≠ s') (q : PosixPath) :
    p ++ [s] ≠ p ++ [s'] ++ q := fun he =>
  not_clashes_of_ne (p := p) hne q (Or.inl (he ▸ List.prefix_refl (p ++ [s])))

end PosixPath

/-! ### Trees -/

/-- What there is at a path. -/
inductive FileNode (α : Type*) where
  | directory
  | file (content : α)
deriving DecidableEq

/-- A file system. -/
abbrev FileTree (α : Type*) := PosixPath → Option (FileNode α)

/-- The errors of the operating system. -/
inductive OsError where
  | fileExistsError
  | fileNotFoundError
  | notADirectoryError
  | isADirectoryError
deriving DecidableEq

namespace FileTree

variable {α : Type*}

/-- Whether there is a file at a path. -/
def isFile (t : FileTree α) (p : PosixPath) : Bool :=
  match t p with
  | some (.file _) => true
  | _ => false

/-- Whether there is a directory at a path. -/
def isDir (t : FileTree α) (p : PosixPath) : Bool :=
  match t p with
  | some .directory => true
  | _ => false

/-- Whether the way to a path leads through a file. -/
def passesFile (t : FileTree α) (p : PosixPath) : Bool :=
  p.inits.any fun q => q ≠ p && t.isFile q

/-- `os.mkdir` -/
def mkdir (t : FileTree α) (p : PosixPath) : Except OsError (FileTree α) :=
  if t.passesFile p then .error .notADirectoryError
  else if (t p).isSome then .error .fileExistsError
  else if t.isDir p.dropLast then .ok (Function.update t p (some .directory))
  else .error .fileNotFoundError

/-- `Path.mkdir(exist_ok=True)` -/
def mkdirExistOk (t : FileTree α) (p : PosixPath) : Except OsError (FileTree α) :=
  match t.mkdir p with
  | .ok t' => .ok t'
  | .error .fileNotFoundError => .error .fileNotFoundError
  | .error error => if t.isDir p then .ok t else .error error

/-- `Path.mkdir(parents=True, exist_ok=True)` -/
def mkdirParents (t : FileTree α) (p : PosixPath) : Except OsError (FileTree α) :=
  match t.mkdir p with
  | .ok t' => .ok t'
  | .error .fileNotFoundError =>
    if _ : p = [] then .error .fileNotFoundError
    else do
      let t' ← mkdirParents t p.dropLast
      t'.mkdirExistOk p
  | .error error => if t.isDir p then .ok t else .error error
termination_by p.length
decreasing_by
  rw [List.length_dropLast]
  exact Nat.sub_lt (List.length_pos_of_ne_nil ‹_›) Nat.one_pos

/-- `open(path, "wb")` and writing the content. -/
def write (t : FileTree α) (p : PosixPath) (content : α) : Except OsError (FileTree α) :=
  if t.passesFile p then .error .notADirectoryError
  else if t.isDir p then .error .isADirectoryError
  else if t.isFile p || t.isDir p.dropLast then .ok (Function.update t p (some (.file content)))
  else .error .fileNotFoundError

/-! ### Closed trees -/

/-- **Everything lies in a directory.** -/
def Closed (t : FileTree α) : Prop :=
  ∀ p q, p <+: q → p ≠ q → (t q).isSome → t.isDir p = true

theorem isDir_iff {t : FileTree α} {p : PosixPath} :
    t.isDir p = true ↔ t p = some .directory := by
  rw [isDir]
  split <;> simp_all

theorem isFile_iff {t : FileTree α} {p : PosixPath} :
    t.isFile p = true ↔ ∃ content, t p = some (.file content) := by
  rw [isFile]
  split <;> simp_all

section Closed

variable {t : FileTree α} {p q : PosixPath} {s : String} {content : α}

/-- Nothing is a file and a directory. -/
theorem isFile_eq_false (h : t.isDir p = true) : t.isFile p = false := by
  rw [isFile, isDir_iff.mp h]

/-- A path that there is nothing at is no directory. -/
theorem isDir_eq_false (h : t p = none) : t.isDir p = false := by
  rw [isDir, h]

/-- Every directory on the way to a directory is one. -/
theorem Closed.isDir_of_prefix (hc : t.Closed) (hd : t.isDir q = true) (h : p <+: q) :
    t.isDir p = true := by
  by_cases hpq : p = q
  · rw [hpq]
    exact hd
  · exact hc p q h hpq (by rw [isDir_iff.mp hd]; rfl)

/-- The way to a child of a directory leads through no file. -/
theorem Closed.passesFile_eq_false (hc : t.Closed) (hd : t.isDir p = true) :
    t.passesFile (p ++ [s]) = false := by
  rw [passesFile, List.any_eq_false]
  intro q hq
  rw [List.mem_inits, List.prefix_concat_iff] at hq
  rcases hq with rfl | hq
  · simp
  · simp [isFile_eq_false (hc.isDir_of_prefix hd hq)]

/-- **Putting something into a directory** keeps the tree closed, as long as nothing comes to
lie below a file. -/
theorem Closed.update (hc : t.Closed) (hd : t.isDir p = true) {node : FileNode α}
    (h : t.isDir (p ++ [s]) = false ∨ node = .directory) :
    FileTree.Closed (Function.update t (p ++ [s]) (some node)) := by
  intro q r hqr hne hsome
  have hstays : ∀ {q'}, q' ≠ p ++ [s] → t.isDir q' = true →
      FileTree.isDir (Function.update t (p ++ [s]) (some node)) q' = true := fun hq' hdir => by
    rw [isDir_iff, Function.update_of_ne hq']
    exact isDir_iff.mp hdir
  by_cases hr : r = p ++ [s]
  · subst hr
    rcases List.prefix_concat_iff.mp hqr with rfl | hq
    · exact absurd rfl hne
    · exact hstays hne (hc.isDir_of_prefix hd hq)
  · rw [Function.update_of_ne hr] at hsome
    have hdir := hc q r hqr hne hsome
    by_cases hq : q = p ++ [s]
    · -- the new node has something below it, so it was a directory already
      subst hq
      rcases h with h | rfl
      · rw [h] at hdir
        cases hdir
      · rw [isDir_iff, Function.update_self]
    · exact hstays hq hdir

/-- There is nothing at a path, nor below it. -/
def Vacant (t : FileTree α) (p : PosixPath) : Prop := ∀ q, p <+: q → t q = none

theorem Vacant.self (h : t.Vacant p) : t p = none := h p (List.prefix_refl p)

/-- What is done elsewhere leaves a path vacant. -/
theorem Vacant.update (h : t.Vacant p) (hpq : ¬ p <+: q) (node : Option (FileNode α)) :
    FileTree.Vacant (Function.update t q node) p := by
  intro r hr
  rw [Function.update_of_ne]
  · exact h r hr
  · rintro rfl
    exact hpq hr

/-- The children of a new directory are vacant. -/
theorem Vacant.child (h : t.Vacant p) (node : Option (FileNode α)) :
    FileTree.Vacant (Function.update t p node) (p ++ [s]) := by
  have hchild : t.Vacant (p ++ [s]) := fun q hq => h q ((List.prefix_append p [s]).trans hq)
  exact hchild.update (PosixPath.not_concat_prefix p s) node

/-- **A directory is made** in a directory that has nothing of that name. -/
theorem Closed.mkdirParents_eq (hc : t.Closed) (hd : t.isDir p = true)
    (hnone : t (p ++ [s]) = none) :
    t.mkdirParents (p ++ [s]) = .ok (Function.update t (p ++ [s]) (some .directory)) := by
  have hmkdir : t.mkdir (p ++ [s]) = .ok (Function.update t (p ++ [s]) (some .directory)) := by
    rw [mkdir, if_neg (by simp [hc.passesFile_eq_false hd]), if_neg (by simp [hnone]),
      List.dropLast_concat, if_pos hd]
  rw [mkdirParents, hmkdir]

/-- **No directory is made where there is a file.** -/
theorem Closed.mkdirParents_of_file (hc : t.Closed) (hd : t.isDir p = true)
    (hfile : t.isFile (p ++ [s]) = true) :
    t.mkdirParents (p ++ [s]) = .error .fileExistsError := by
  obtain ⟨content, hcontent⟩ := isFile_iff.mp hfile
  have hmkdir : t.mkdir (p ++ [s]) = .error .fileExistsError := by
    rw [mkdir, if_neg (by simp [hc.passesFile_eq_false hd]), if_pos (by rw [hcontent]; rfl)]
  have hnodir : t.isDir (p ++ [s]) = false := by rw [isDir, hcontent]
  rw [mkdirParents, hmkdir, hnodir]
  rfl

/-- **A file is written** into a directory that has no directory of that name. -/
theorem Closed.write_eq (hc : t.Closed) (hd : t.isDir p = true)
    (hnodir : t.isDir (p ++ [s]) = false) :
    t.write (p ++ [s]) content = .ok (Function.update t (p ++ [s]) (some (.file content))) := by
  rw [write, if_neg (by simp [hc.passesFile_eq_false hd]), if_neg (by simp [hnodir]),
    List.dropLast_concat, hd, Bool.or_true, if_pos rfl]

end Closed

end FileTree

end RenditionPipeline
