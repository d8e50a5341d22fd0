import Mathlib.Algebra.Order.Field.Rat
import Mathlib.Data.Nat.Digits.Defs
import RenditionPipeline.Library.Text

/-!
# Numbers written in text

How the language the services are written in reads a number from a text: with
whitespace around it, a sign before it, the decimal digits of any script, and
underscores between two digits. Whole numbers (`RenditionPipeline.Numeral.parseInt`)
have at most so many digits, decimal fractions
(`RenditionPipeline.Numeral.parseFloat`) may have a point and an exponent, and may be
written as an infinity or as no number at all.

Fractions are read exactly; rounding them to the numbers of a machine is not a matter of
the text.
-/

namespace RenditionPipeline

namespace Numeral

/-! ### Letters -/

/-- The digits zero of the scripts beyond ASCII. The other nine digits of a script follow
its zero. -/
def zeros : List ℕ :=
  [0x660, 0x6f0, 0x7c0, 0x966, 0x9e6, 0xa66, 0xae6, 0xb66, 0xbe6, 0xc66, 0xce6, 0xd66, 0xde6,
    0xe50, 0xed0, 0xf20, 0x1040, 0x1090, 0x17e0, 0x1810, 0x1946, 0x19d0, 0x1a80, 0x1a90, 0x1b50,
    0x1bb0, 0x1c40, 0x1c50, 0xa620, 0xa8d0, 0xa900, 0xa9d0, 0xa9f0, 0xaa50, 0xabf0, 0xff10,
    0x104a0, 0x10d30, 0x11066, 0x110f0, 0x11136, 0x111d0, 0x112f0, 0x11450, 0x114d0, 0x11650,
    0x116c0, 0x11730, 0x118e0, 0x11950, 0x11c50, 0x11d50, 0x11da0, 0x11f50, 0x16a60, 0x16ac0,
    0x16b50, 0x1d7ce, 0x1d7d8, 0x1d7e2, 0x1d7ec, 0x1d7f6, 0x1e140, 0x1e2f0, 0x1e4f0, 0x1e950,
    0x1fbf0]

/-- A letter as a number is read: whitespace is a blank, a digit is the one of ASCII, and
no other letter beyond ASCII has a meaning. -/
def toAscii (c : Char) : Char :=
  if c.toNat < 127 then c
  else if Text.isSpace c then ' '
  else
    match zeros.find? fun z => z ≤ c.toNat && c.toNat ≤ z + 9 with
    | some z => Nat.digitChar (c.toNat - z)
    | none => '?'

/-- The whitespace of ASCII. -/
def isAsciiSpace (c : Char) : Bool := ('\t' ≤ c && c ≤ '\r') || c = ' '

/-- Leave out the underscores, with the letter that has come before: each has to stand
between two digits. -/
def dropUnderscores : Char → List Char → Option (List Char)
  | before, [] => if before = '_' then none else some []
  | before, c :: cs =>
    if c = '_' then
      if before.isDigit then dropUnderscores c cs else none
    else if before = '_' ∧ c.isDigit = false then none
    else (dropUnderscores c cs).map (c :: ·)

/-- The letters of a number. -/
def letters (s : String) : Option (List Char) :=
  dropUnderscores ' ' (Text.trim isAsciiSpace (s.toList.map toAscii))

/-- Whether there is a minus sign, and what comes after the sign. -/
def splitSign : List Char → Bool × List Char
  | '-' :: cs => (true, cs)
  | '+' :: cs => (false, cs)
  | cs => (false, cs)

/-- A number under its sign. -/
def signed {α : Type} [Neg α] (negative : Bool) (a : α) : α := if negative then -a else a

/-! ### Whole numbers -/

/-- The largest number of digits with which a whole number is read. -/
def maxDigits : ℕ := 4300

/-- A nonempty run of digits. -/
def isDigits (cs : List Char) : Bool := !cs.isEmpty && cs.all Char.isDigit

/-- A whole number, of the letters that are its sign and its digits. -/
def intOfLetters (cs : List Char) : Option ℤ :=
  let (negative, cs) := splitSign cs
  if isDigits cs && cs.length ≤ maxDigits then
    some (signed negative (Nat.ofDigitChars 10 cs 0 : ℤ))
  else none

/-- **The whole number a text is**, if it is one. -/
def parseInt (s : String) : Option ℤ := (letters s).bind intOfLetters

/-! ### Fractions -/

/-- What a text may say where a fraction is expected. -/
inductive Reading where
  | number (q : ℚ)
  | infinity (negative : Bool)
  | nan
deriving DecidableEq

/-- The number of some digits, with the point moved by `e` places to the right. -/
def scaled (digits : List Char) (e : ℤ) : ℚ := (Nat.ofDigitChars 10 digits 0 : ℚ) * 10 ^ e

/-- The exponent of a fraction, of the letters after its digits. -/
def exponentOfLetters : List Char → Option ℤ
  | [] => some 0
  | c :: cs =>
    let (negative, digits) := splitSign cs
    if (c = 'e' || c = 'E') && isDigits digits then
      some (signed negative (Nat.ofDigitChars 10 digits 0 : ℤ))
    else none

/-- The letters after the point, if there is one, and what comes after them. -/
def splitFraction : List Char → List Char × List Char
  | '.' :: cs => cs.span Char.isDigit
  | cs => ([], cs)

/-- A fraction without a sign: digits, a point with digits after it, and an exponent, of
which all but one digit may be missing. -/
def decimalOfLetters (cs : List Char) : Option ℚ :=
  let (whole, cs) := cs.span Char.isDigit
  let (fraction, cs) := splitFraction cs
  if whole ++ fraction = [] then none
  else (exponentOfLetters cs).map fun e => scaled (whole ++ fraction) (e - fraction.length)

/-- What the letters of a number say where a fraction is expected. -/
def readingOfLetters (cs : List Char) : Option Reading :=
  let (negative, cs) := splitSign cs
  let word := String.ofList (cs.map Char.toLower)
  if word = "inf" ∨ word = "infinity" then some (.infinity negative)
  else if word = "nan" then some .nan
  else (decimalOfLetters cs).map fun q => .number (signed negative q)

/-- **What a text says where a fraction is expected**, if it is one. -/
def parseFloat (s : String) : Option Reading := (letters s).bind readingOfLetters

/-! ### Reading back what was written -/

/-- What holds of the ten digits holds of every digit. -/
theorem of_isDigit {p : Char → Prop} (h : ∀ n < 10, p (Nat.digitChar n)) {c : Char}
    (hc : c.isDigit = true) : p c := by
  have hrange : 48 ≤ c.toNat ∧ c.toNat ≤ 57 := Char.isDigit_iff_toNat.mp hc
  have hdigit : Nat.digitChar (c.toNat - 48) = c := by
    apply Char.toNat_inj.mp
    rw [Nat.toNat_digitChar_of_lt_ten (by omega)]
    omega
  rw [← hdigit]
  exact h _ (by omega)

theorem toAscii_of_isDigit {c : Char} : c.isDigit = true → toAscii c = c :=
  of_isDigit (p := fun c => toAscii c = c) (by decide)

theorem isAsciiSpace_of_isDigit {c : Char} : c.isDigit = true → isAsciiSpace c = false :=
  of_isDigit (p := fun c => isAsciiSpace c = false) (by decide)

theorem isSpace_of_isDigit {c : Char} : c.isDigit = true → Text.isSpace c = false :=
  of_isDigit (p := fun c => Text.isSpace c = false) (by decide)

/-- The letters of a number that is written out are digits. -/
theorem isDigit_of_mem_toString {n : ℕ} {c : Char} (h : c ∈ (toString n).toList) :
    c.isDigit = true :=
  Nat.isDigit_of_mem_toDigits (b := 10) (n := n) (by decide) (by decide) (by simpa using h)

/-- There is no whitespace around a number that is written out. -/
theorem strip_toString (n : ℕ) : Text.strip (toString n) = toString n := by
  rw [Text.strip, Text.trim_eq_self fun c hc => isSpace_of_isDigit (isDigit_of_mem_toString hc),
    String.ofList_toList]

theorem toString_ne_empty (n : ℕ) : toString n ≠ "" := by
  intro h
  have hlist := congrArg String.toList h
  simp at hlist

/-- Digits alone have no underscores to leave out. -/
theorem dropUnderscores_digits {cs : List Char} (h : ∀ c ∈ cs, c.isDigit = true) :
    ∀ {before : Char}, before ≠ '_' → dropUnderscores before cs = some cs := by
  induction cs with
  | nil =>
    intro before hb
    rw [dropUnderscores, if_neg hb]
  | cons c cs ih =>
    intro before hb
    have hc : c ≠ '_' := by
      rintro rfl
      exact absurd (h '_' (by simp)) (by decide)
    rw [dropUnderscores, if_neg hc, if_neg (by simp [hb]), ih (fun x hx => h x (by simp [hx])) hc,
      Option.map_some]

/-- Digits alone are the letters of a number. -/
theorem letters_digits {s : String} (h : ∀ c ∈ s.toList, c.isDigit = true) :
    letters s = some s.toList := by
  have hmap : s.toList.map toAscii = s.toList :=
    List.map_congr_left (fun c hc => toAscii_of_isDigit (h c hc)) |>.trans (List.map_id _)
  rw [letters, hmap, Text.trim_eq_self fun c hc => isAsciiSpace_of_isDigit (h c hc),
    dropUnderscores_digits h (by decide)]

/-- **A number that is not too long is read back** from the digits it is written in. -/
theorem parseInt_toString {n : ℕ} (h : n < 10 ^ maxDigits) : parseInt (toString n) = some n := by
  have hlist : (toString n).toList = Nat.toDigits 10 n := by simp
  have hdigit : ∀ c ∈ Nat.toDigits 10 n, c.isDigit = true := fun c hc =>
    isDigit_of_mem_toString (by rw [hlist]; exact hc)
  have hlength : (Nat.toDigits 10 n).length ≤ maxDigits :=
    (Nat.length_toDigits_le_iff (by decide) (by decide)).mpr h
  have hne : Nat.toDigits 10 n ≠ [] := List.ne_nil_of_length_pos Nat.length_toDigits_pos
  have hsign : splitSign (Nat.toDigits 10 n) = (false, Nat.toDigits 10 n) := by
    obtain ⟨c, cs, hcs⟩ := List.exists_cons_of_ne_nil hne
    have hc : c.isDigit = true := hdigit c (by rw [hcs]; exact List.mem_cons_self)
    rw [hcs]
    unfold splitSign
    split
    · rename_i he
      rw [(List.cons.inj he).1] at hc
      exact absurd hc (by decide)
    · rename_i he
      rw [(List.cons.inj he).1] at hc
      exact absurd hc (by decide)
    · rfl
  have hall : (Nat.toDigits 10 n).all Char.isDigit = true := List.all_eq_true.mpr hdigit
  rw [parseInt, letters_digits (by rw [hlist]; exact hdigit), hlist, Option.bind_some,
    intOfLetters, hsign]
  simp only [isDigits, hall, List.isEmpty_eq_false_iff.mpr hne, hlength, signed,
    Nat.ofDigitChars_ten_toDigits]
  rfl

end Numeral

end RenditionPipeline
