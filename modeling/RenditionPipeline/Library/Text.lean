import Mathlib.Data.List.Infix
import Mathlib.Data.List.Basic

/-!
# Text

The string operations of the language the services are written in, on the text
type of Lean and through the list of its characters: prefixes, containment,
splitting at a separator, stripping, splitting into lines and joining lines. They follow the
documented behaviour of that language's own – in particular
`RenditionPipeline.Text.splitLines` knows all of its line boundaries, not only
the newline.

Two facts carry everything proved about texts later. The piece of a text before
its first separator is read back (`RenditionPipeline.Text.before_append`), and
lines without a line boundary survive being joined and split again
(`RenditionPipeline.Text.splitLines_unlines`).
-/

namespace RenditionPipeline

namespace Text

/-! ### Prefixes and containment -/

/-- Whether a text starts with another. -/
def startsWith (s p : String) : Bool := p.toList.isPrefixOf s.toList

/-- The text without a leading occurrence of `p`, or the text itself. -/
def removePrefix (s p : String) : String :=
  if startsWith s p then String.ofList (s.toList.drop p.toList.length) else s

/-- Whether a character occurs in a text. -/
def hasChar (s : String) (c : Char) : Bool := s.toList.contains c

/-- Whether a text occurs inside another. -/
def contains (s p : String) : Bool := decide (p.toList <:+: s.toList)

theorem startsWith_iff {s p : String} : startsWith s p = true ↔ p.toList <+: s.toList :=
  List.isPrefixOf_iff_prefix

theorem startsWith_append (p s : String) : startsWith (p ++ s) p = true := by
  rw [startsWith_iff, String.toList_append]
  exact List.prefix_append _ _

theorem startsWith_append_of_startsWith {s p : String} (h : startsWith s p = true) (t : String) :
    startsWith (s ++ t) p = true := by
  rw [startsWith_iff] at h ⊢
  rw [String.toList_append]
  exact h.trans (List.prefix_append _ _)

/-- **Removing a prefix that was put there gives the text back.** -/
theorem removePrefix_append (p s : String) : removePrefix (p ++ s) p = s := by
  rw [removePrefix, if_pos (startsWith_append p s), String.toList_append, List.drop_left,
    String.ofList_toList]

theorem hasChar_iff {s : String} {c : Char} : hasChar s c = true ↔ c ∈ s.toList := by
  simp [hasChar]

/-! ### Splitting at a separator -/

/-- The part of a text before the first occurrence of a character, or all of it. -/
def before (s : String) (c : Char) : String :=
  String.ofList (s.toList.takeWhile (· != c))

theorem takeWhile_append_sep {c : Char} {a b : List Char} (h : c ∉ a) :
    (a ++ c :: b).takeWhile (· != c) = a := by
  induction a with
  | nil => simp
  | cons x a ih =>
    have hx : x ≠ c := fun he => h (by simp [he])
    have ha : c ∉ a := fun he => h (by simp [he])
    simp [hx, ih ha]

/-- **The piece before a first separator** is read back. -/
theorem before_append {c : Char} {s : String} (h : c ∉ s.toList) (t : String) :
    before (s ++ String.singleton c ++ t) c = s := by
  rw [before, String.toList_append, String.toList_append, String.toList_singleton,
    List.append_assoc, List.singleton_append, takeWhile_append_sep h, String.ofList_toList]

/-! ### Whitespace -/

/-- The characters that the language takes for whitespace. -/
def isSpace (c : Char) : Bool :=
  ('\t' ≤ c && c ≤ '\r') || ('\x1c' ≤ c && c ≤ ' ') || c = '\u0085' || c = '\u00a0' ||
    c = '\u1680' || ('\u2000' ≤ c && c ≤ '\u200a') || c = '\u2028' || c = '\u2029' ||
    c = '\u202f' || c = '\u205f' || c = '\u3000'

/-- The letters of a text without those of a kind at its beginning and at its end. -/
def trim (drops : Char → Bool) (cs : List Char) : List Char :=
  ((cs.dropWhile drops).reverse.dropWhile drops).reverse

/-- The text without the whitespace around it. -/
def strip (s : String) : String := String.ofList (trim isSpace s.toList)

/-- Letters of which none is of the kind are left as they are. -/
theorem trim_eq_self {drops : Char → Bool} {cs : List Char} (h : ∀ c ∈ cs, drops c = false) :
    trim drops cs = cs := by
  have hfront : ∀ {ds : List Char}, (∀ c ∈ ds, drops c = false) → ds.dropWhile drops = ds := by
    intro ds hds
    cases ds with
    | nil => rfl
    | cons c ds => rw [List.dropWhile_cons, if_neg (by simp [hds c List.mem_cons_self])]
  rw [trim, hfront h, hfront fun c hc => h c (List.mem_reverse.mp hc), List.reverse_reverse]

/-! ### Lines -/

/-- The characters that end a line. -/
def isLineBoundary (c : Char) : Bool :=
  c = '\n' || c = '\r' || c = '\x0b' || c = '\x0c' || c = '\x1c' || c = '\x1d' ||
    c = '\x1e' || c = '\u0085' || c = '\u2028' || c = '\u2029'

/-- Splitting into lines, with the line read so far: a carriage return followed
by a newline is one boundary, and a last line without boundary counts if it is
not empty. -/
def splitLinesFrom : List Char → List Char → List (List Char)
  | line, [] => if line = [] then [] else [line]
  | line, '\r' :: '\n' :: cs => line :: splitLinesFrom [] cs
  | line, c :: cs =>
    if isLineBoundary c then line :: splitLinesFrom [] cs else splitLinesFrom (line ++ [c]) cs

/-- The lines of a text, without their boundaries. -/
def splitLines (s : String) : List String :=
  (splitLinesFrom [] s.toList).map String.ofList

/-- The lines one after another with a separator between two. -/
def join (sep : String) : List String → String
  | [] => ""
  | [s] => s
  | s :: t :: rest => s ++ sep ++ join sep (t :: rest)

/-- A line without a boundary inside. -/
def IsLine (s : String) : Prop := ∀ c ∈ s.toList, isLineBoundary c = false

-- the letters of the line are looked at, and not all letters there are
instance (s : String) : Decidable (IsLine s) :=
  decidable_of_iff ((s.toList.all fun c => !isLineBoundary c) = true) (by simp [IsLine])

theorem IsLine.append {s t : String} (hs : IsLine s) (ht : IsLine t) : IsLine (s ++ t) := by
  intro c hc
  rw [String.toList_append, List.mem_append] at hc
  exact hc.elim (hs c) (ht c)

/-- A number in decimal is a line. -/
theorem isLine_toString (n : ℕ) : IsLine (toString n) := by
  intro c hc
  have hdigit : c.isDigit = true :=
    Nat.isDigit_of_mem_toDigits (b := 10) (n := n) (by decide) (by decide) (by simpa using hc)
  by_contra hb
  rw [Bool.not_eq_false] at hb
  simp only [isLineBoundary, Bool.or_eq_true, decide_eq_true_eq] at hb
  rcases hb with ((((((((rfl | rfl) | rfl) | rfl) | rfl) | rfl) | rfl) | rfl) | rfl) | rfl <;>
    exact absurd hdigit (by decide)

/-- A character that cannot begin a boundary of two is looked at alone. -/
theorem splitLinesFrom_cons {line cs : List Char} {c : Char} (hr : c ≠ '\r') :
    splitLinesFrom line (c :: cs) =
      if isLineBoundary c then line :: splitLinesFrom [] cs
      else splitLinesFrom (line ++ [c]) cs := by
  conv_lhs => unfold splitLinesFrom
  split
  · rename_i h
    cases h
  · rename_i h
    obtain ⟨rfl, -⟩ := List.cons.inj h
    exact absurd rfl hr
  · rename_i h
    obtain ⟨rfl, rfl⟩ := List.cons.inj h
    rfl

theorem splitLinesFrom_newline (cs : List Char) {l : List Char} :
    ∀ (line : List Char), (∀ c ∈ l, isLineBoundary c = false) →
    splitLinesFrom line (l ++ '\n' :: cs) = (line ++ l) :: splitLinesFrom [] cs := by
  induction l with
  | nil =>
    intro line _
    rw [List.nil_append, List.append_nil, splitLinesFrom_cons (by decide), if_pos (by decide)]
  | cons x l ih =>
    intro line h
    have hx : isLineBoundary x = false := h x (by simp)
    have hr : x ≠ '\r' := fun he => by rw [he] at hx; exact absurd hx (by decide)
    rw [List.cons_append, splitLinesFrom_cons hr, if_neg (by simp [hx]),
      ih _ fun c hc => h c (by simp [hc]), List.append_assoc, List.singleton_append]

/-- Splitting leaves no boundary in a line. -/
theorem isLine_of_mem_splitLines {s line : String} (h : line ∈ splitLines s) : IsLine line := by
  have hfrom : ∀ {read cs l : List Char}, (∀ c ∈ read, isLineBoundary c = false) →
      l ∈ splitLinesFrom read cs → ∀ c ∈ l, isLineBoundary c = false := by
    intro read cs l hread hl
    fun_induction splitLinesFrom read cs with
    | case1 => cases hl
    | case2 read hne =>
      rw [List.mem_singleton.mp hl]
      exact hread
    | case3 read cs ih =>
      rcases List.mem_cons.mp hl with rfl | hl
      · exact hread
      · exact ih (fun c hc => (List.not_mem_nil hc).elim) hl
    | case4 read c cs hno hb ih =>
      rcases List.mem_cons.mp hl with rfl | hl
      · exact hread
      · exact ih (fun c hc => (List.not_mem_nil hc).elim) hl
    | case5 read c cs hno hb ih =>
      refine ih (fun d hd => ?_) hl
      rcases List.mem_append.mp hd with hd | hd
      · exact hread d hd
      · rw [List.mem_singleton.mp hd]
        simpa using hb
  obtain ⟨l, hl, rfl⟩ := List.mem_map.mp h
  intro c hc
  rw [String.toList_ofList] at hc
  exact hfrom (fun c hc => (List.not_mem_nil hc).elim) hl c hc

/-- The lines one after another, each ended by a newline. -/
def unlines (ls : List String) : String := join "\n" ls ++ "\n"

theorem unlines_cons_cons (s t : String) (ls : List String) :
    unlines (s :: t :: ls) = s ++ "\n" ++ unlines (t :: ls) := by
  simp [unlines, join, String.append_assoc]

/-- **Lines survive being written out and split again.** -/
theorem splitLines_unlines {ls : List String} (hne : ls ≠ []) (h : ∀ s ∈ ls, IsLine s) :
    splitLines (unlines ls) = ls := by
  induction ls with
  | nil => exact absurd rfl hne
  | cons s ls ih =>
    have hs := h s (by simp)
    cases ls with
    | nil =>
      have hlist : (unlines [s]).toList = s.toList ++ '\n' :: [] := by
        rw [unlines, join, String.toList_append]
        rfl
      have hnil : splitLinesFrom [] [] = [] := rfl
      rw [splitLines, hlist, splitLinesFrom_newline [] [] hs, hnil, List.map_cons, List.map_nil,
        List.nil_append, String.ofList_toList]
    | cons t ls =>
      have hlist : (unlines (s :: t :: ls)).toList
          = s.toList ++ '\n' :: (unlines (t :: ls)).toList := by
        rw [unlines_cons_cons, String.toList_append, String.toList_append, List.append_assoc]
        rfl
      have hrest : (splitLinesFrom [] (unlines (t :: ls)).toList).map String.ofList
          = t :: ls := ih (by simp) fun u hu => h u (by simp [hu])
      rw [splitLines, hlist, splitLinesFrom_newline _ [] hs, List.map_cons, hrest,
        List.nil_append, String.ofList_toList]

end Text

end RenditionPipeline
