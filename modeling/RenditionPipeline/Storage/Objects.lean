import Mathlib.Logic.Function.Basic

/-!
# Stored objects

The object store as far as the services see it: one object under each key, the
last one that was put there. A storage call that raises has no effect, so whether
it raises is an input of the caller and the store itself never fails.
-/

namespace RenditionPipeline

/-- An object to be stored: its body as UTF-8 text, where it is such a text, and
the headers it is served with. -/
structure StoredObject where
  body : Option String
  contentType : String
  cacheControl : Option String
deriving DecidableEq

/-- The bucket: the object under each key. -/
abbrev Bucket := String → Option StoredObject

namespace Bucket

/-- The bucket without objects. -/
def empty : Bucket := fun _ => none

/-- `upload_bytes` and `upload_file`: the object replaces the one before it. -/
def put (bucket : Bucket) (key : String) (object : StoredObject) : Bucket :=
  Function.update bucket key (some object)

@[simp] theorem put_self (bucket : Bucket) (key : String) (object : StoredObject) :
    bucket.put key object key = some object := Function.update_self _ _ _

theorem put_of_ne {key key' : String} (h : key' ≠ key) (bucket : Bucket)
    (object : StoredObject) : bucket.put key object key' = bucket key' :=
  Function.update_of_ne h _ _

/-- `delete_object` -/
def delete (bucket : Bucket) (key : String) : Bucket := Function.update bucket key none

@[simp] theorem delete_self (bucket : Bucket) (key : String) : bucket.delete key key = none :=
  Function.update_self _ _ _

/-- Uploaded objects stay: a put never empties a key. -/
theorem isSome_put {bucket : Bucket} {key' : String} (h : (bucket key').isSome) (key : String)
    (object : StoredObject) : (bucket.put key object key').isSome := by
  by_cases hk : key' = key
  · rw [hk, put_self]
    rfl
  · rw [put_of_ne hk]
    exact h

end Bucket

end RenditionPipeline
