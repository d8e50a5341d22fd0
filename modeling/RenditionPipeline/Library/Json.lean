import RenditionPipeline.Library.Numeral

/-!
# Reading JSON

The values of JSON and the function of the language's own library that reads one from a text
(`RenditionPipeline.Json.loads`). It reads more than the standard allows – infinities, and
numbers that are no numbers – and it has three ways to fail: on a text that is not JSON, on a
whole number with too many digits, and on values that are nested too deeply. How deeply that
is depends on where it is called, and is a parameter, as is the type of the fractions and what
reads them.

Arrays and objects are loops over the text that remains. They are given as many rounds as it
has letters, which is never too few (`RenditionPipeline.Json.scanItems_of_le`,
`RenditionPipeline.Json.scanMembers_of_le`), as every item takes at least one of them.
-/

namespace RenditionPipeline

namespace Json

/-- A value of JSON, with the fractions in `F`. -/
inductive Value (F : Type) where
  | null
  | bool (b : Bool)
  | int (n : ℤ)
  | float (x : F)
  | string (s : String)
  | array (items : List (Value F))
  | object (members : List (String × Value F))

/-- How reading a value fails. -/
inductive LoadsError where
  /-- `json.JSONDecodeError` -/
  | jsonDecodeError
  /-- `ValueError`: a whole number with too many digits. -/
  | valueError
  /-- `RecursionError`: values nested too deeply. -/
  | recursionError
deriving DecidableEq

/-- The member of an object under a key: the last one, if there are several, and null if
there is none. -/
def member {F : Type} (members : List (String × Value F)) (key : String) : Value F :=
  (members.reverse.lookup key).getD .null

/-- Leave out whitespace. -/
def skip (cs : List Char) : List Char :=
  cs.dropWhile fun c => c = ' ' || c = '\t' || c = '\n' || c = '\r'

/-! ### Strings -/

/-- The number of four hexadecimal digits. -/
def hex4 (a b c d : Char) : Option ℕ := do
  let a ← hexDigit a
  let b ← hexDigit b
  let c ← hexDigit c
  let d ← hexDigit d
  return 4096 * a + 256 * b + 16 * c + d
where
  /-- The number of a hexadecimal digit. -/
  hexDigit (c : Char) : Option ℕ :=
    if c.isDigit then some (c.toNat - 48)
    else if 'a' ≤ c ∧ c ≤ 'f' then some (c.toNat - 87)
    else if 'A' ≤ c ∧ c ≤ 'F' then some (c.toNat - 55)
    else none

/-- The letter that one after a backslash stands for. -/
def unescape (c : Char) : Option ℕ :=
  [('"', 0x22), ('\\', 0x5c), ('/', 0x2f), ('b', 0x08), ('f', 0x0c), ('n', 0x0a), ('r', 0x0d),
    ('t', 0x09)].lookup c

/-- The rest of a string after its opening quote: the codes of its letters, and what comes
after the closing quote. -/
def scanUnits : List Char → Option (List ℕ × List Char)
  | [] => none
  | c :: cs =>
    if c = '"' then some ([], cs)
    else if c = '\\' then
      match cs with
      | 'u' :: a :: b :: d :: e :: cs => do
        let unit ← hex4 a b d e
        let (units, cs) ← scanUnits cs
        return (unit :: units, cs)
      | c :: cs => do
        let unit ← unescape c
        let (units, cs) ← scanUnits cs
        return (unit :: units, cs)
      | [] => none
    else if c.toNat < 0x20 then none
    else do
      let (units, cs) ← scanUnits cs
      return (c.toNat :: units, cs)

/-- The letters of some codes, where a high surrogate and a low one after it are one letter.
A surrogate that is alone, which no letter is, is the letter for what cannot be shown. -/
def joinSurrogates : List ℕ → List Char
  | [] => []
  | [unit] => [Char.ofNat (if unit.isValidChar then unit else 0xfffd)]
  | unit :: unit' :: units =>
    if 0xd800 ≤ unit ∧ unit < 0xdc00 ∧ 0xdc00 ≤ unit' ∧ unit' < 0xe000 then
      Char.ofNat (0x10000 + 0x400 * (unit - 0xd800) + (unit' - 0xdc00)) :: joinSurrogates units
    else Char.ofNat (if unit.isValidChar then unit else 0xfffd) :: joinSurrogates (unit' :: units)

/-- The rest of a string after its opening quote, and what comes after it. -/
def scanString (cs : List Char) : Except LoadsError (String × List Char) :=
  match scanUnits cs with
  | none => .error .jsonDecodeError
  | some (units, cs) => .ok (String.ofList (joinSurrogates units), cs)

/-! ### Numbers -/

/-- The letters at the beginning that are a sign, and the others. -/
def splitSign (plus : Bool) : List Char → List Char × List Char
  | '-' :: cs => (['-'], cs)
  | '+' :: cs => if plus then (['+'], cs) else ([], '+' :: cs)
  | cs => ([], cs)

/-- The letters at the beginning that are a whole number, without zeros in front. -/
def splitWhole : List Char → List Char × List Char
  | '0' :: cs => (['0'], cs)
  | cs => cs.span Char.isDigit

/-- The letters at the beginning that are a point and digits. -/
def splitFraction : List Char → List Char × List Char
  | '.' :: cs =>
    let (digits, rest) := cs.span Char.isDigit
    if digits = [] then ([], '.' :: cs) else ('.' :: digits, rest)
  | cs => ([], cs)

/-- The letters at the beginning that are an exponent. -/
def splitExponent : List Char → List Char × List Char
  | [] => ([], [])
  | c :: cs =>
    let (sign, rest) := splitSign true cs
    let (digits, rest) := rest.span Char.isDigit
    if (c = 'e' || c = 'E') && !digits.isEmpty then (c :: sign ++ digits, rest) else ([], c :: cs)

section Scanning

variable {F : Type} (readFloat : Numeral.Reading → F)

/-- A number, and what comes after it. -/
def scanNumber (cs : List Char) : Except LoadsError (Value F × List Char) :=
  let (sign, cs) := splitSign false cs
  let (whole, cs) := splitWhole cs
  let (fraction, cs) := splitFraction cs
  let (exponent, cs) := splitExponent cs
  if whole = [] then .error .jsonDecodeError
  else if fraction = [] ∧ exponent = [] then
    match Numeral.intOfLetters (sign ++ whole) with
    | none => .error .valueError
    | some n => .ok (.int n, cs)
  else
    match Numeral.readingOfLetters (sign ++ whole ++ fraction ++ exponent) with
    | none => .error .valueError
    | some reading => .ok (.float (readFloat reading), cs)

/-- What begins with neither a quote nor a bracket: a word or a number, and what comes after
it. -/
def scanWord : List Char → Except LoadsError (Value F × List Char)
  | 'n' :: 'u' :: 'l' :: 'l' :: cs => .ok (.null, cs)
  | 't' :: 'r' :: 'u' :: 'e' :: cs => .ok (.bool true, cs)
  | 'f' :: 'a' :: 'l' :: 's' :: 'e' :: cs => .ok (.bool false, cs)
  | 'N' :: 'a' :: 'N' :: cs => .ok (.float (readFloat .nan), cs)
  | 'I' :: 'n' :: 'f' :: 'i' :: 'n' :: 'i' :: 't' :: 'y' :: cs =>
    .ok (.float (readFloat (.infinity false)), cs)
  | '-' :: 'I' :: 'n' :: 'f' :: 'i' :: 'n' :: 'i' :: 't' :: 'y' :: cs =>
    .ok (.float (readFloat (.infinity true)), cs)
  | cs => scanNumber readFloat cs

/-! ### Arrays and objects -/

/-- What reads a value at the beginning of a text and returns what comes after it. -/
abbrev Scanner (F : Type) := List Char → Except LoadsError (Value F × List Char)

variable {readFloat}

/-- The items of an array and its closing bracket, in so many rounds. -/
def scanItems (scan : Scanner F) : ℕ → List Char → Except LoadsError (List (Value F) × List Char)
  | 0, _ => .error .jsonDecodeError
  | rounds + 1, cs => do
    let (item, cs) ← scan cs
    match skip cs with
    | ']' :: cs => return ([item], cs)
    | ',' :: cs => do
      let (items, cs) ← scanItems scan rounds (skip cs)
      return (item :: items, cs)
    | _ => throw .jsonDecodeError

/-- The members of an object and its closing bracket, in so many rounds. -/
def scanMembers (scan : Scanner F) :
    ℕ → List Char → Except LoadsError (List (String × Value F) × List Char)
  | 0, _ => .error .jsonDecodeError
  | rounds + 1, cs => do
    let (key, cs) ← scanKey cs
    let (value, cs) ← scan cs
    match skip cs with
    | '}' :: cs => return ([(key, value)], cs)
    | ',' :: cs => do
      let (members, cs) ← scanMembers scan rounds (skip cs)
      return ((key, value) :: members, cs)
    | _ => throw .jsonDecodeError
where
  /-- A key with the colon after it. -/
  scanKey : List Char → Except LoadsError (String × List Char)
    | '"' :: cs => do
      let (key, cs) ← scanString cs
      match skip cs with
      | ':' :: cs => return (key, skip cs)
      | _ => throw .jsonDecodeError
    | _ => .error .jsonDecodeError

variable (readFloat)

/-- **Read a value** at the beginning of a text, with arrays and objects nested at most so
deeply. -/
def scanOnce : ℕ → Scanner F
  | _, '"' :: cs => do
    let (s, cs) ← scanString cs
    return (.string s, cs)
  | 0, '{' :: _ => .error .recursionError
  | 0, '[' :: _ => .error .recursionError
  | depth + 1, '{' :: cs =>
    match skip cs with
    | '}' :: cs => .ok (.object [], cs)
    | cs => do
      let (members, cs) ← scanMembers (scanOnce depth) cs.length cs
      return (.object members, cs)
  | depth + 1, '[' :: cs =>
    match skip cs with
    | ']' :: cs => .ok (.array [], cs)
    | cs => do
      let (items, cs) ← scanItems (scanOnce depth) cs.length cs
      return (.array items, cs)
  | _, cs => scanWord readFloat cs

/-- **Read the value that a text is.** -/
def loads (depth : ℕ) (s : String) : Except LoadsError (Value F) :=
  match s.toList with
  | '\ufeff' :: _ => .error .jsonDecodeError
  | cs => do
    let (value, cs) ← scanOnce readFloat depth (skip cs)
    if skip cs = [] then return value else throw .jsonDecodeError

end Scanning

/-! ### The rounds are enough -/

theorem bind_eq_ok {ε α β : Type} {x : Except ε α} {f : α → Except ε β} {b : β} :
    x >>= f = .ok b ↔ ∃ a, x = .ok a ∧ f a = .ok b := by
  cases x <;> simp [bind, Except.bind]

theorem length_skip_le (cs : List Char) : (skip cs).length ≤ cs.length :=
  (List.dropWhile_sublist _).length_le

/-- What comes after a letter that is read is shorter than what has been there. -/
theorem length_lt_of_skip_eq_cons {c : Char} {cs rest : List Char} (h : skip cs = c :: rest) :
    rest.length < cs.length := by
  have hle := length_skip_le cs
  rw [h, List.length_cons] at hle
  omega

/-- A string takes at least its closing quote. -/
theorem scanUnits_shortens {cs : List Char} {units : List ℕ} {rest : List Char}
    (h : scanUnits cs = some (units, rest)) : rest.length < cs.length := by
  fun_induction scanUnits cs generalizing units rest with
  | case1 => cases h
  | case2 cs =>
    obtain ⟨-, rfl⟩ := Prod.mk.inj (Option.some.inj h)
    exact Nat.lt_succ_self _
  | case3 _ a b d e cs ih =>
    simp only [bind, Option.bind_eq_some_iff, pure, Option.some.injEq] at h
    obtain ⟨unit, -, ⟨units', cs'⟩, hcs, he⟩ := h
    obtain ⟨-, rfl⟩ := Prod.mk.inj he
    have := ih hcs
    simp only [List.length_cons]
    omega
  | case4 _ c cs _ ih =>
    simp only [bind, Option.bind_eq_some_iff, pure, Option.some.injEq] at h
    obtain ⟨unit, -, ⟨units', cs'⟩, hcs, he⟩ := h
    obtain ⟨-, rfl⟩ := Prod.mk.inj he
    have := ih hcs
    simp only [List.length_cons]
    omega
  | case5 => cases h
  | case6 => cases h
  | case7 c cs _ _ _ ih =>
    simp only [bind, Option.bind_eq_some_iff, pure, Option.some.injEq] at h
    obtain ⟨⟨units', cs'⟩, hcs, he⟩ := h
    obtain ⟨-, rfl⟩ := Prod.mk.inj he
    have := ih hcs
    simp only [List.length_cons]
    omega

theorem scanString_shortens {cs rest : List Char} {s : String}
    (h : scanString cs = .ok (s, rest)) : rest.length < cs.length := by
  rw [scanString] at h
  split at h
  · cases h
  · rename_i units cs' hcs
    obtain ⟨-, rfl⟩ := Prod.mk.inj (Except.ok.inj h)
    exact scanUnits_shortens hcs

theorem scanKey_shortens {cs rest : List Char} {key : String}
    (h : scanMembers.scanKey cs = .ok (key, rest)) : rest.length < cs.length := by
  unfold scanMembers.scanKey at h
  split at h
  · rename_i cs'
    obtain ⟨⟨key', tail⟩, hs, h⟩ := bind_eq_ok.mp h
    dsimp only at h
    split at h
    · rename_i value hcolon
      obtain ⟨-, rfl⟩ := Prod.mk.inj (Except.ok.inj h)
      have h₁ := scanString_shortens hs
      have h₂ := length_lt_of_skip_eq_cons hcolon
      have h₃ := length_skip_le value
      rw [List.length_cons]
      omega
    · cases h
  · cases h

section Rounds

variable {F : Type} {readFloat : Numeral.Reading → F} {scan : Scanner F}

/-- What reads a value takes at least one letter, so that there is none in a text without
letters. -/
structure Shortens (scan : Scanner F) : Prop where
  lt : ∀ cs value rest, scan cs = .ok (value, rest) → rest.length < cs.length
  nil : scan [] = .error .jsonDecodeError

theorem splitSign_append (plus : Bool) (cs : List Char) :
    (splitSign plus cs).1 ++ (splitSign plus cs).2 = cs := by
  unfold splitSign
  split
  · rfl
  · split_ifs <;> rfl
  · rfl

theorem span_append (cs : List Char) :
    (cs.span Char.isDigit).1 ++ (cs.span Char.isDigit).2 = cs := by
  rw [List.span_eq_takeWhile_dropWhile, List.takeWhile_append_dropWhile]

theorem splitWhole_append (cs : List Char) : (splitWhole cs).1 ++ (splitWhole cs).2 = cs := by
  unfold splitWhole
  split
  · rfl
  · exact span_append _

theorem splitFraction_append (cs : List Char) :
    (splitFraction cs).1 ++ (splitFraction cs).2 = cs := by
  unfold splitFraction
  split
  · rename_i digits
    dsimp only
    split_ifs
    · rfl
    · rw [List.cons_append, span_append]
  · rfl

theorem splitExponent_append (cs : List Char) :
    (splitExponent cs).1 ++ (splitExponent cs).2 = cs := by
  cases cs with
  | nil => rfl
  | cons c cs =>
    rw [splitExponent]
    dsimp only
    split_ifs
    · rw [List.cons_append, List.cons_append, List.append_assoc, span_append, splitSign_append]
    · rfl

/-- A number takes at least one digit. -/
theorem scanNumber_shortens {cs rest : List Char} {value : Value F}
    (h : scanNumber readFloat cs = .ok (value, rest)) : rest.length < cs.length := by
  obtain ⟨sign, cs₁, h₁⟩ : ∃ sign cs₁, splitSign false cs = (sign, cs₁) := ⟨_, _, rfl⟩
  obtain ⟨whole, cs₂, h₂⟩ : ∃ whole cs₂, splitWhole cs₁ = (whole, cs₂) := ⟨_, _, rfl⟩
  obtain ⟨fraction, cs₃, h₃⟩ : ∃ fraction cs₃, splitFraction cs₂ = (fraction, cs₃) := ⟨_, _, rfl⟩
  obtain ⟨exponent, cs₄, h₄⟩ : ∃ exponent cs₄, splitExponent cs₃ = (exponent, cs₄) := ⟨_, _, rfl⟩
  have e₁ := splitSign_append false cs
  have e₂ := splitWhole_append cs₁
  have e₃ := splitFraction_append cs₂
  have e₄ := splitExponent_append cs₃
  rw [h₁] at e₁
  rw [h₂] at e₂
  rw [h₃] at e₃
  rw [h₄] at e₄
  rw [scanNumber, h₁] at h
  simp only [h₂, h₃, h₄] at h
  have hrest : whole ≠ [] ∧ rest = cs₄ := by
    split_ifs at h with hnil hint
    · split at h
      · cases h
      · exact ⟨hnil, (Prod.mk.inj (Except.ok.inj h)).2.symm⟩
    · split at h
      · cases h
      · exact ⟨hnil, (Prod.mk.inj (Except.ok.inj h)).2.symm⟩
  obtain ⟨hnil, rfl⟩ := hrest
  have hpos : 0 < whole.length := List.length_pos_iff.mpr hnil
  rw [← e₁, ← e₂, ← e₃, ← e₄]
  simp only [List.length_append]
  omega

theorem shortens_scanWord : Shortens (scanWord readFloat) where
  lt := by
    intro cs value rest h
    unfold scanWord at h
    split at h
    case h_7 => exact scanNumber_shortens h
    all_goals
      obtain ⟨-, rfl⟩ := Prod.mk.inj (Except.ok.inj h)
      simp only [List.length_cons]
      omega
  nil := rfl

theorem scanItems_shortens (hscan : Shortens scan) {rounds : ℕ} :
    ∀ {cs rest : List Char} {items : List (Value F)},
      scanItems scan rounds cs = .ok (items, rest) → rest.length < cs.length := by
  induction rounds with
  | zero =>
    intro cs rest items h
    cases h
  | succ rounds ih =>
    intro cs rest items h
    rw [scanItems] at h
    obtain ⟨⟨item, tail⟩, hs, h⟩ := bind_eq_ok.mp h
    have h₁ := hscan.lt _ _ _ hs
    dsimp only at h
    split at h
    · rename_i hclose
      obtain ⟨-, rfl⟩ := Prod.mk.inj (Except.ok.inj h)
      exact (length_lt_of_skip_eq_cons hclose).trans h₁
    · rename_i afterComma hcomma
      obtain ⟨⟨items', rest'⟩, hr, h⟩ := bind_eq_ok.mp h
      obtain ⟨-, rfl⟩ := Prod.mk.inj (Except.ok.inj h)
      have h₂ := length_lt_of_skip_eq_cons hcomma
      have h₃ := length_skip_le afterComma
      have h₄ := ih hr
      change rest'.length < cs.length
      omega
    · cases h

theorem scanMembers_shortens (hscan : Shortens scan) {rounds : ℕ} :
    ∀ {cs rest : List Char} {members : List (String × Value F)},
      scanMembers scan rounds cs = .ok (members, rest) → rest.length < cs.length := by
  induction rounds with
  | zero =>
    intro cs rest members h
    cases h
  | succ rounds ih =>
    intro cs rest members h
    rw [scanMembers] at h
    obtain ⟨⟨key, afterKey⟩, hk, h⟩ := bind_eq_ok.mp h
    obtain ⟨⟨value, tail⟩, hs, h⟩ := bind_eq_ok.mp h
    have h₀ := scanKey_shortens hk
    have h₁ := hscan.lt _ _ _ hs
    dsimp only at h
    split at h
    · rename_i hclose
      obtain ⟨-, rfl⟩ := Prod.mk.inj (Except.ok.inj h)
      exact (length_lt_of_skip_eq_cons hclose).trans (h₁.trans h₀)
    · rename_i afterComma hcomma
      obtain ⟨⟨members', rest'⟩, hr, h⟩ := bind_eq_ok.mp h
      obtain ⟨-, rfl⟩ := Prod.mk.inj (Except.ok.inj h)
      have h₂ := length_lt_of_skip_eq_cons hcomma
      have h₃ := length_skip_le afterComma
      have h₄ := ih hr
      change rest'.length < cs.length
      omega
    · cases h

theorem shortens_scanOnce_of {depth : ℕ}
    (ih : ∀ d, depth = d + 1 → Shortens (scanOnce readFloat d)) :
    Shortens (scanOnce readFloat depth) := by
  refine ⟨fun cs value rest h => ?_, by cases depth <;> rfl⟩
  unfold scanOnce at h
  split at h
  · obtain ⟨⟨s, tail⟩, hs, h⟩ := bind_eq_ok.mp h
    obtain ⟨-, rfl⟩ := Prod.mk.inj (Except.ok.inj h)
    exact (scanString_shortens hs).trans (Nat.lt_succ_self _)
  · cases h
  · cases h
  · rename_i d cs
    rw [List.length_cons]
    split at h
    · rename_i hclose
      obtain ⟨-, rfl⟩ := Prod.mk.inj (Except.ok.inj h)
      exact (length_lt_of_skip_eq_cons hclose).trans (Nat.lt_succ_self _)
    · obtain ⟨⟨members, tail⟩, hr, h⟩ := bind_eq_ok.mp h
      obtain ⟨-, rfl⟩ := Prod.mk.inj (Except.ok.inj h)
      exact (scanMembers_shortens (ih d rfl) hr).trans_le
        ((length_skip_le cs).trans (Nat.le_succ _))
  · rename_i d cs
    rw [List.length_cons]
    split at h
    · rename_i hclose
      obtain ⟨-, rfl⟩ := Prod.mk.inj (Except.ok.inj h)
      exact (length_lt_of_skip_eq_cons hclose).trans (Nat.lt_succ_self _)
    · obtain ⟨⟨items, tail⟩, hr, h⟩ := bind_eq_ok.mp h
      obtain ⟨-, rfl⟩ := Prod.mk.inj (Except.ok.inj h)
      exact (scanItems_shortens (ih d rfl) hr).trans_le
        ((length_skip_le cs).trans (Nat.le_succ _))
  · exact shortens_scanWord.lt _ _ _ h

/-- **A value takes at least one letter.** -/
theorem shortens_scanOnce (depth : ℕ) : Shortens (scanOnce readFloat depth) := by
  induction depth with
  | zero => exact shortens_scanOnce_of fun d h => by cases h
  | succ depth ih =>
    refine shortens_scanOnce_of fun d h => ?_
    obtain rfl : depth = d := Nat.succ.inj h
    exact ih

/-- **One round more makes no difference** where there are as many rounds as letters. -/
theorem scanItems_succ (hscan : Shortens scan) {rounds : ℕ} :
    ∀ {cs : List Char}, cs.length ≤ rounds →
      scanItems scan (rounds + 1) cs = scanItems scan rounds cs := by
  induction rounds with
  | zero =>
    intro cs hle
    obtain rfl : cs = [] := List.length_eq_zero_iff.mp (Nat.le_zero.mp hle)
    change scan [] >>= _ = _
    rw [hscan.nil]
    rfl
  | succ rounds ih =>
    intro cs hle
    rw [scanItems, scanItems]
    cases hs : scan cs with
    | error e => rfl
    | ok p =>
      obtain ⟨item, tail⟩ := p
      have h₁ := hscan.lt _ _ _ hs
      simp only [bind, Except.bind]
      split
      · rfl
      · rename_i afterComma hcomma
        have h₂ := length_lt_of_skip_eq_cons hcomma
        have h₃ := length_skip_le afterComma
        rw [ih (by omega)]
      · rfl

/-- **One round more makes no difference** where there are as many rounds as letters. -/
theorem scanMembers_succ (hscan : Shortens scan) {rounds : ℕ} :
    ∀ {cs : List Char}, cs.length ≤ rounds →
      scanMembers scan (rounds + 1) cs = scanMembers scan rounds cs := by
  induction rounds with
  | zero =>
    intro cs hle
    obtain rfl : cs = [] := List.length_eq_zero_iff.mp (Nat.le_zero.mp hle)
    rfl
  | succ rounds ih =>
    intro cs hle
    rw [scanMembers, scanMembers]
    cases hk : scanMembers.scanKey cs with
    | error e => rfl
    | ok p =>
      obtain ⟨key, afterKey⟩ := p
      have h₀ := scanKey_shortens hk
      simp only [bind, Except.bind]
      cases hs : scan afterKey with
      | error e => rfl
      | ok q =>
        obtain ⟨value, tail⟩ := q
        have h₁ := hscan.lt _ _ _ hs
        dsimp only
        split
        · rfl
        · rename_i afterComma hcomma
          have h₂ := length_lt_of_skip_eq_cons hcomma
          have h₃ := length_skip_le afterComma
          rw [ih (by omega)]
        · rfl

/-- **An array needs no more rounds than its text has letters.** -/
theorem scanItems_of_le (depth : ℕ) {cs : List Char} {rounds : ℕ} (h : cs.length ≤ rounds) :
    scanItems (scanOnce readFloat depth) rounds cs =
      scanItems (scanOnce readFloat depth) cs.length cs := by
  induction rounds, h using Nat.le_induction with
  | base => rfl
  | succ rounds hle ih => rw [scanItems_succ (shortens_scanOnce depth) hle, ih]

/-- **An object needs no more rounds than its text has letters.** -/
theorem scanMembers_of_le (depth : ℕ) {cs : List Char} {rounds : ℕ} (h : cs.length ≤ rounds) :
    scanMembers (scanOnce readFloat depth) rounds cs =
      scanMembers (scanOnce readFloat depth) cs.length cs := by
  induction rounds, h using Nat.le_induction with
  | base => rfl
  | succ rounds hle ih => rw [scanMembers_succ (shortens_scanOnce depth) hle, ih]

end Rounds

end Json

end RenditionPipeline
