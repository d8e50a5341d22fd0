import Mathlib.Data.Int.Notation
import RenditionPipeline.Library.Table

/-!
# Multipart uploads

An object storage takes an object in parts: an upload is created for a key, its parts are
sent one by one – in any order, each as often as the sender likes, the last one winning –
and a list of parts with their tags completes it, which makes the object of the parts in
that order. From then on, and from its abort, the upload takes nothing more.

What a storage is inside, when it refuses a call, how it tags contents, how short a part may
be and which addresses carry the right to send a part is its own business. What is relied on
is said by the laws of a `RenditionPipeline.Multipart.Service`: what a call that is not
refused has changed of the uploads and objects, and that a list which completes an open upload
is accepted. A storage that keeps these laws is `RenditionPipeline.Multipart.Store.service`.
-/

namespace RenditionPipeline

namespace Multipart

variable {α : Type}

/-- An upload: its key, the type of the object to be, the parts stored so far, and whether
it still takes parts. -/
structure Upload (α : Type) where
  key : String
  contentType : String
  parts : ℤ → Option (List α)
  isOpen : Bool

/-- An object. -/
structure Object (α : Type) where
  body : List α
  contentType : String
deriving DecidableEq

namespace Upload

/-- An upload to which nothing has been sent. -/
def new (key contentType : String) : Upload α := ⟨key, contentType, fun _ => none, true⟩

/-- A part is stored, and replaces the one before it. -/
def put (u : Upload α) (n : ℤ) (body : List α) : Upload α :=
  { u with parts := Function.update u.parts n (some body) }

@[simp] theorem parts_put (u : Upload α) (n : ℤ) (body : List α) :
    (u.put n body).parts = Function.update u.parts n (some body) := rfl

/-- An upload is over. -/
def close (u : Upload α) : Upload α := { u with isOpen := false }

/-- The content that a list of parts makes up. -/
def assemble (u : Upload α) (listed : List (ℤ × String)) : List α :=
  listed.flatMap fun p => (u.parts p.1).getD []

/-- **The lists that complete an upload**: they name parts that are stored, by their tags,
in ascending order, all but the last of them long enough. -/
structure Completes (tag : List α → String) (minPartLength : ℕ) (u : Upload α)
    (listed : List (ℤ × String)) : Prop where
  nonempty : listed ≠ []
  ascending : (listed.map Prod.fst).Pairwise (· < ·)
  stored : ∀ p ∈ listed, (u.parts p.1).map tag = some p.2
  long : ∀ p ∈ listed.dropLast, minPartLength ≤ ((u.parts p.1).getD []).length

instance completesDecidable (tag : List α → String) (minPartLength : ℕ) (u : Upload α)
    (listed : List (ℤ × String)) : Decidable (Completes tag minPartLength u listed) :=
  decidable_of_iff (listed ≠ [] ∧ (listed.map Prod.fst).Pairwise (· < ·) ∧
      (∀ p ∈ listed, (u.parts p.1).map tag = some p.2) ∧
      ∀ p ∈ listed.dropLast, minPartLength ≤ ((u.parts p.1).getD []).length)
    ⟨fun h => ⟨h.1, h.2.1, h.2.2.1, h.2.2.2⟩, fun h => ⟨h.1, h.2, h.3, h.4⟩⟩

/-- **The object that a completion makes**, where each part is known to hold a certain
content. -/
theorem assemble_eq {tag : List α → String} {minPartLength : ℕ} {u : Upload α}
    {listed : List (ℤ × String)} (content : ℤ → List α)
    (hparts : ∀ n body, u.parts n = some body → body = content n)
    (h : Completes tag minPartLength u listed) :
    u.assemble listed = (listed.map Prod.fst).flatMap content := by
  rw [assemble, List.flatMap_map]
  refine List.flatMap_congr fun p hp => ?_
  obtain ⟨body, hbody, -⟩ := Option.map_eq_some_iff.mp (h.stored p hp)
  rw [hbody, Option.getD_some]
  exact hparts p.1 body hbody

end Upload

/-- The upload of a key that still takes parts. -/
def openUpload (uploads : String → Option (Upload α)) (key id : String) : Option (Upload α) :=
  (uploads id).filter fun u => u.isOpen && u.key = key

theorem openUpload_eq_some_iff {uploads : String → Option (Upload α)} {key id : String}
    {u : Upload α} :
    openUpload uploads key id = some u ↔ uploads id = some u ∧ u.isOpen = true ∧ u.key = key := by
  rw [openUpload, Option.filter_eq_some_iff, Bool.and_eq_true, decide_eq_true_iff]

/-! ### The protocol -/

/-- **A storage service** with states in `σ`: its calls, which return nothing where they are
refused, what is seen of a state, and the laws of the protocol. -/
structure Service (σ α : Type) where
  /-- The tag of a content. -/
  tag : List α → String
  /-- The length that every part but the last must have. -/
  minPartLength : ℕ
  /-- The address that a part of an upload is sent to. -/
  presign : (key id : String) → ℤ → String
  resolve : String → Option (String × String × ℤ)
  initial : σ
  /-- The uploads by their ids, those that are over included. -/
  uploads : σ → String → Option (Upload α)
  /-- The object under each key. -/
  objects : σ → String → Option (Object α)
  create : σ → (id key contentType : String) → Option σ
  putPart : σ → (key id : String) → ℤ → List α → Option σ
  complete : σ → (key id : String) → List (ℤ × String) → Option σ
  abort : σ → (key id : String) → Option σ
  delete : σ → (key : String) → σ
  resolve_presign : ∀ key id n, resolve (presign key id n) = some (key, id, n)
  /-- A new upload has an id that has not been used. -/
  create_eq_some : ∀ {s id key contentType s'}, create s id key contentType = some s' →
    uploads s id = none ∧
      uploads s' = Function.update (uploads s) id (some (.new key contentType)) ∧
      objects s' = objects s
  /-- A part is stored in an upload that is open. -/
  putPart_eq_some : ∀ {s key id n body s'}, putPart s key id n body = some s' →
    ∃ u, uploads s id = some u ∧ u.isOpen = true ∧ u.key = key ∧
      uploads s' = Function.update (uploads s) id (some (u.put n body)) ∧
      objects s' = objects s
  /-- An upload is completed by a list that completes it, and its object replaces the one
  under its key. -/
  complete_eq_some : ∀ {s key id listed s'}, complete s key id listed = some s' →
    ∃ u, uploads s id = some u ∧ u.isOpen = true ∧ u.key = key ∧
      u.Completes tag minPartLength listed ∧
      uploads s' = Function.update (uploads s) id (some u.close) ∧
      objects s' =
        Function.update (objects s) key (some ⟨u.assemble listed, u.contentType⟩)
  /-- A list that completes an open upload is accepted. -/
  isSome_complete : ∀ {s key id listed u}, uploads s id = some u → u.isOpen = true →
    u.key = key → u.Completes tag minPartLength listed →
    (complete s key id listed).isSome = true
  abort_eq_some : ∀ {s key id s'}, abort s key id = some s' →
    ∃ u, uploads s id = some u ∧ u.isOpen = true ∧ u.key = key ∧
      uploads s' = Function.update (uploads s) id (some u.close) ∧ objects s' = objects s
  uploads_delete : ∀ s key, uploads (delete s key) = uploads s
  objects_delete : ∀ s key, objects (delete s key) = Function.update (objects s) key none

/-! ### A storage -/

/-- A storage: its uploads by their ids, and the object under each key. -/
structure Store (α : Type) where
  uploads : Table String (Upload α)
  objects : String → Option (Object α)

namespace Store

/-- The storage before any call. -/
def empty : Store α := ⟨Table.empty, fun _ => none⟩

/-- One upload is changed. -/
def modify (s : Store α) (id : String) (f : Upload α → Upload α) : Store α :=
  { s with uploads := s.uploads.modify id f }

/-- One object is replaced. -/
def setObject (s : Store α) (key : String) (object : Option (Object α)) : Store α :=
  { s with objects := Function.update s.objects key object }

theorem uploads_modify {s : Store α} {id : String} {u : Upload α}
    (h : s.uploads.get? id = some u) (f : Upload α → Upload α) :
    (s.modify id f).uploads.get? = Function.update s.uploads.get? id (some (f u)) := by
  funext id'
  rw [modify, Table.get?_modify, Function.update_apply]
  split
  · next hid => rw [hid, h, Option.map_some]
  · rfl

/-- **A storage service** that refuses what the protocol forbids, and nothing else. -/
def service (tag : List α → String) (minPartLength : ℕ)
    (presign : (key id : String) → ℤ → String) (resolve : String → Option (String × String × ℤ))
    (resolve_presign : ∀ key id n, resolve (presign key id n) = some (key, id, n)) :
    Service (Store α) α where
  tag := tag
  minPartLength := minPartLength
  presign := presign
  resolve := resolve
  initial := empty
  uploads s := s.uploads.get?
  objects := objects
  create s id key contentType := (s.uploads.insert? id (.new key contentType)).map fun uploads =>
    { s with uploads := uploads }
  putPart s key id n body := (openUpload s.uploads.get? key id).map fun _ =>
    s.modify id fun u => u.put n body
  complete s key id listed := (openUpload s.uploads.get? key id).bind fun u =>
    if u.Completes tag minPartLength listed then
      some ((s.modify id .close).setObject key (some ⟨u.assemble listed, u.contentType⟩))
    else none
  abort s key id := (openUpload s.uploads.get? key id).map fun _ => s.modify id .close
  delete s key := s.setObject key none
  resolve_presign := resolve_presign
  create_eq_some h := by
    obtain ⟨uploads, huploads, rfl⟩ := Option.map_eq_some_iff.mp h
    obtain ⟨hid, rfl⟩ := Table.insert?_eq_some_iff.mp huploads
    refine ⟨hid, funext fun id' => ?_, rfl⟩
    rw [Table.get?_insert, Function.update_apply]
  putPart_eq_some h := by
    obtain ⟨u, hu, rfl⟩ := Option.map_eq_some_iff.mp h
    obtain ⟨hget, hopen, hkey⟩ := openUpload_eq_some_iff.mp hu
    exact ⟨u, hget, hopen, hkey, uploads_modify hget _, rfl⟩
  complete_eq_some h := by
    obtain ⟨u, hu, hif⟩ := Option.bind_eq_some_iff.mp h
    obtain ⟨hget, hopen, hkey⟩ := openUpload_eq_some_iff.mp hu
    rw [Option.ite_none_right_eq_some, Option.some.injEq] at hif
    obtain ⟨hcompletes, rfl⟩ := hif
    exact ⟨u, hget, hopen, hkey, hcompletes, uploads_modify hget _, rfl⟩
  isSome_complete hget hopen hkey hcompletes := by
    rw [openUpload_eq_some_iff.mpr ⟨hget, hopen, hkey⟩, Option.bind_some, if_pos hcompletes]
    rfl
  abort_eq_some h := by
    obtain ⟨u, hu, rfl⟩ := Option.map_eq_some_iff.mp h
    obtain ⟨hget, hopen, hkey⟩ := openUpload_eq_some_iff.mp hu
    exact ⟨u, hget, hopen, hkey, uploads_modify hget _, rfl⟩
  uploads_delete _ _ := rfl
  objects_delete _ _ := rfl

end Store

end Multipart

end RenditionPipeline
