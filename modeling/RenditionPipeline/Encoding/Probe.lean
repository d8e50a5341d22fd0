import RenditionPipeline.Encoding.Presets
import RenditionPipeline.Library.Binary64
import RenditionPipeline.Library.Json

/-!
# Reading the answer of ffprobe

`parse_ffprobe_output` takes whatever ffprobe has printed and is meant to end in one of two
ways: with the metadata of the source, or with `VideoProbeError`
(`RenditionPipeline.Probed`). Its conversions of numbers catch two of the exceptions that they
can raise, and its reads of members and items take it for granted that they meet an object or
an array.

How a number is rounded to the fractions of the machine is a parameter, which answers with no
number where it is too large for them, and which is `RenditionPipeline.Binary64.round` when the
parser runs; so is how deeply values may be nested.
-/

namespace RenditionPipeline

/-- What can end the function without an answer. -/
inductive ProbeRaised where
  /-- `VideoProbeError` -/
  | videoProbeError (message : String)
  | attributeError
  | typeError
  | keyError
  | indexError
  | overflowError
  | valueError
  | recursionError
deriving DecidableEq

/-- A value that the answer is made of. -/
abbrev ProbeValue := Json.Value FloatValue

/-! ### The operations of the language -/

section Operations

variable (round : ℚ → Option ℚ)

/-- The number that a text or a literal says, in the fractions of the machine. -/
def FloatValue.ofReading : Numeral.Reading → FloatValue
  | .number q =>
    match round q with
    | some r => .finite r
    | none => if q < 0 then .negInfinity else .infinity
  | .infinity negative => if negative then .negInfinity else .infinity
  | .nan => .nan

/-- `float(value)` -/
def floatOf : ProbeValue → Except ProbeRaised FloatValue
  | .null => .error .typeError
  | .bool b => .ok (.finite (if b then 1 else 0))
  | .int n =>
    match round n with
    | some r => .ok (.finite r)
    | none => .error .overflowError
  | .float x => .ok x
  | .string s =>
    match Numeral.parseFloat s with
    | some reading => .ok (FloatValue.ofReading round reading)
    | none => .error .valueError
  | .array _ => .error .typeError
  | .object _ => .error .typeError

/-- A fraction without the digits after its point. -/
def truncate (q : ℚ) : ℤ := q.num.tdiv q.den

/-- `int(x)` -/
def intOf : FloatValue → Except ProbeRaised ℤ
  | .finite q => .ok (truncate q)
  | .infinity => .error .overflowError
  | .negInfinity => .error .overflowError
  | .nan => .error .valueError

/-- `value in {None, "", "N/A"}`, for which the value has to have a hash. -/
def isMissing : ProbeValue → Except ProbeRaised Bool
  | .null => .ok true
  | .string s => .ok (s = "" || s = "N/A")
  | .array _ => .error .typeError
  | .object _ => .error .typeError
  | _ => .ok false

/-- `value.get(key)` -/
def get (key : String) : ProbeValue → Except ProbeRaised ProbeValue
  | .object members => .ok (Json.member members key)
  | _ => .error .attributeError

/-- Whether a value counts as true. -/
def truthy : ProbeValue → Bool
  | .null => false
  | .bool b => b
  | .int n => n ≠ 0
  | .float x => x ≠ .finite 0
  | .string s => s ≠ ""
  | .array items => !items.isEmpty
  | .object members => !members.isEmpty

/-- `value or default` -/
def orDefault (value default : ProbeValue) : ProbeValue := if truthy value then value else default

/-- `value[0]` -/
def firstItem : ProbeValue → Except ProbeRaised ProbeValue
  | .array (item :: _) => .ok item
  | .array [] => .error .indexError
  | .object _ => .error .keyError
  | .string s =>
    match s.toList with
    | c :: _ => .ok (.string (String.singleton c))
    | [] => .error .indexError
  | _ => .error .typeError

/-- `first or next` of two conversions, of which the second is made only if the first gives
nothing or zero. -/
def orNext {α : Type} (isZero : α → Bool) (first next : Except ProbeRaised (Option α)) :
    Except ProbeRaised (Option α) := do
  match ← first with
  | some a => if isZero a then next else return some a
  | none => next

/-! ### The functions of the module -/

/-- `except (TypeError, ValueError): return None` around a conversion. -/
def catchConversion {α : Type} : Except ProbeRaised α → Except ProbeRaised (Option α)
  | .ok a => .ok (some a)
  | .error .typeError => .ok none
  | .error .valueError => .ok none
  | .error raised => .error raised

/-- `_optional_int` -/
def optionalInt (value : ProbeValue) : Except ProbeRaised (Option ℤ) := do
  if ← isMissing value then return none
  else catchConversion (do
    let x ← floatOf round value
    intOf x)

/-- `_optional_float` -/
def optionalFloat (value : ProbeValue) : Except ProbeRaised (Option FloatValue) := do
  if ← isMissing value then return none
  else catchConversion (floatOf round value)

/-- `json.loads(output)`, with the exception that is caught. -/
def loadPayload (depth : ℕ) (output : String) : Except ProbeRaised ProbeValue :=
  match Json.loads (FloatValue.ofReading round) depth output with
  | .ok payload => .ok payload
  | .error .jsonDecodeError => .error (.videoProbeError "ffprobe returned invalid JSON")
  | .error .valueError => .error .valueError
  | .error .recursionError => .error .recursionError

/-- The part of `parse_ffprobe_output` after the dimensions. -/
def readRates (payload videoStream : ProbeValue) (width height : ℤ) :
    Except ProbeRaised VideoSourceMetadata := do
  let formatInfo := orDefault (← get "format" payload) (.object [])
  let bitrate ← orNext (· == 0) (get "bit_rate" videoStream >>= optionalInt round)
    (get "bit_rate" formatInfo >>= optionalInt round)
  let durationSeconds ← orNext (· == .finite 0)
    (get "duration" videoStream >>= optionalFloat round)
    (get "duration" formatInfo >>= optionalFloat round)
  return ⟨width, height, bitrate, durationSeconds⟩

/-- The part of `parse_ffprobe_output` after the first stream has been found. -/
def readStream (payload videoStream : ProbeValue) : Except ProbeRaised VideoSourceMetadata := do
  let width ← get "width" videoStream >>= optionalInt round
  let height ← get "height" videoStream >>= optionalInt round
  match width, height with
  | some width, some height => readRates round payload videoStream width height
  | _, _ => throw (.videoProbeError "ffprobe did not return source dimensions")

/-- The part of `parse_ffprobe_output` after `json.loads`. -/
def readPayload (payload : ProbeValue) : Except ProbeRaised VideoSourceMetadata := do
  let streams := orDefault (← get "streams" payload) (.array [])
  if truthy streams then
    let videoStream ← firstItem streams
    readStream round payload videoStream
  else throw (.videoProbeError "ffprobe did not find a video stream")

/-- `parse_ffprobe_output` -/
def parseFfprobeOutput (depth : ℕ) (output : String) :
    Except ProbeRaised VideoSourceMetadata := do
  let payload ← loadPayload round depth output
  readPayload round payload

end Operations

/-! ### What the fields say -/

section Fields

variable (round : ℚ → Option ℚ)

/-- The number that a value says, if it says one. -/
def numberOf : ProbeValue → Option FloatValue
  | .bool b => some (.finite (if b then 1 else 0))
  | .int n => (round n).map .finite
  | .float x => some x
  | .string s => (Numeral.parseFloat s).map (FloatValue.ofReading round)
  | _ => none

/-- The whole number in a number: there is none in what is infinite or not a number. -/
def FloatValue.whole : FloatValue → Option ℤ
  | .finite q => some (truncate q)
  | _ => none

/-- The whole number that a value says, if it says one. -/
def wholeOf (value : ProbeValue) : Option ℤ := (numberOf round value).bind FloatValue.whole

/-- **A value is good for a fraction**: it is no array and no object, and if it is a whole
number, not one that is too large for a fraction. -/
def FloatReadable : ProbeValue → Prop
  | .int n => round n ≠ none
  | .array _ => False
  | .object _ => False
  | _ => True

/-- **A value is good for a whole number**: it is good for a fraction, and not infinite. -/
def IntReadable (value : ProbeValue) : Prop :=
  FloatReadable round value ∧ numberOf round value ≠ some .infinity ∧
    numberOf round value ≠ some .negInfinity

/-- The members of the format section, which has none if it does not count as true. -/
def formatOf (payload : List (String × ProbeValue)) : ProbeValue :=
  orDefault (Json.member payload "format") (.object [])

/-- The next place has to be looked at after a number that is missing or zero. -/
def Falls {α : Type} (isZero : α → Bool) (number : Option α) : Prop :=
  ∀ a, number = some a → isZero a = true

/-- **A rate of the stream is readable**: its field is good for it, and where the format
section has to be looked at, that is an object and its field is good for it as well. -/
structure RateReadable {α : Type} (good : ProbeValue → Prop) (isZero : α → Bool)
    (number : ProbeValue → Option α) (payload stream : List (String × ProbeValue))
    (key : String) : Prop where
  first : good (Json.member stream key)
  next : Falls isZero (number (Json.member stream key)) →
    ∃ format, formatOf payload = .object format ∧ good (Json.member format key)

/-- **A stream is readable**: its dimensions are, and if there are both, its rates are. -/
structure StreamReadable (payload stream : List (String × ProbeValue)) : Prop where
  width : IntReadable round (Json.member stream "width")
  height : IntReadable round (Json.member stream "height")
  rates : (wholeOf round (Json.member stream "width")).isSome →
    (wholeOf round (Json.member stream "height")).isSome →
    RateReadable (IntReadable round) (· == 0) (wholeOf round) payload stream "bit_rate" ∧
      RateReadable (FloatReadable round) (· == .finite 0) (numberOf round) payload stream "duration"

/-- **A value is readable**: it is an object, and its streams, if they count as true, are an
array that begins with a readable stream. -/
def PayloadReadable (value : ProbeValue) : Prop :=
  ∃ payload, value = .object payload ∧
    (truthy (Json.member payload "streams") = true → ∃ stream streams,
      Json.member payload "streams" = .array (.object stream :: streams) ∧
        StreamReadable round payload stream)

/-- **An answer is readable**: it is no JSON at all, or a readable value. -/
def Readable (depth : ℕ) (output : String) : Prop :=
  match Json.loads (FloatValue.ofReading round) depth output with
  | .ok value => PayloadReadable round value
  | .error raised => raised = .jsonDecodeError

/-- **A rate comes from the stream or else from the format section.** -/
def RateFrom {α : Type} (isZero : α → Bool) (number : ProbeValue → Option α)
    (payload stream : List (String × ProbeValue)) (key : String) (rate : Option α) : Prop :=
  (¬ Falls isZero (number (Json.member stream key)) ∧ rate = number (Json.member stream key)) ∨
    (Falls isZero (number (Json.member stream key)) ∧
      ∃ format, formatOf payload = .object format ∧ rate = number (Json.member format key))

/-- **Metadata that come from a value**: the dimensions from its first stream, the rates from
that stream or else from the format section. -/
def ReadFrom (value : ProbeValue) (metadata : VideoSourceMetadata) : Prop :=
  ∃ payload stream streams, value = .object payload ∧
    Json.member payload "streams" = .array (.object stream :: streams) ∧
    wholeOf round (Json.member stream "width") = some metadata.width ∧
    wholeOf round (Json.member stream "height") = some metadata.height ∧
    RateFrom (· == 0) (wholeOf round) payload stream "bit_rate" metadata.bitrate ∧
    RateFrom (· == .finite 0) (numberOf round) payload stream "duration" metadata.durationSeconds

end Fields

/-! ### Ending as declared -/

/-- **A call ends as declared**: with an answer or with `VideoProbeError`. -/
def Probed {α : Type} (result : Except ProbeRaised α) : Prop :=
  (∃ a, result = .ok a) ∨ ∃ message, result = .error (.videoProbeError message)

section Probed

variable {α β : Type}

@[simp] theorem probed_ok (a : α) : Probed (.ok a : Except ProbeRaised α) := Or.inl ⟨a, rfl⟩

@[simp] theorem probed_videoProbeError (message : String) :
    Probed (.error (.videoProbeError message) : Except ProbeRaised α) := Or.inr ⟨message, rfl⟩

theorem not_probed {raised : ProbeRaised} (h : ∀ message, raised ≠ .videoProbeError message) :
    ¬ Probed (.error raised : Except ProbeRaised α) := by
  rintro (⟨a, ha⟩ | ⟨message, hm⟩)
  · cases ha
  · exact h message (Except.error.inj hm)

/-- **Two steps end as declared** if the first one does, and the second one after an answer. -/
theorem probed_bind {x : Except ProbeRaised α} {f : α → Except ProbeRaised β} :
    Probed (x >>= f) ↔ Probed x ∧ ∀ a, x = .ok a → Probed (f a) := by
  cases x with
  | ok a =>
    refine ⟨fun h => ⟨probed_ok a, ?_⟩, fun h => h.2 a rfl⟩
    rintro _ ⟨⟩
    exact h
  | error raised =>
    constructor
    · rintro (⟨b, hb⟩ | ⟨message, hm⟩)
      · cases hb
      · obtain rfl := Except.error.inj hm
        exact ⟨probed_videoProbeError message, fun a ha => by cases ha⟩
    · rintro ⟨⟨a, ha⟩ | ⟨message, hm⟩, -⟩
      · cases ha
      · obtain rfl := Except.error.inj hm
        exact probed_videoProbeError message

/-- A read of a member ends as declared just where there are members. -/
theorem probed_get {key : String} {value : ProbeValue} :
    Probed (get key value) ↔ ∃ members, value = .object members := by
  cases value with
  | object members => exact ⟨fun _ => ⟨members, rfl⟩, fun _ => probed_ok _⟩
  | _ =>
    refine ⟨fun h => absurd h (not_probed (by simp)), ?_⟩
    rintro ⟨members, h⟩
    cases h

end Probed

/-! ### Reading a field -/

/-- **What a conversion does**: it gives the number of what is good for it, and ends as
declared on nothing else. -/
structure Reads {α : Type} (read : ProbeValue → Except ProbeRaised (Option α))
    (good : ProbeValue → Prop) (number : ProbeValue → Option α) : Prop where
  ok : ∀ value, good value → read value = .ok (number value)
  probed : ∀ value, Probed (read value) → good value

section Conversions

variable {round : ℚ → Option ℚ} {value : ProbeValue}

/-- A text that stands for nothing says no number. -/
theorem parseFloat_missing {s : String} (h : s = "" ∨ s = "N/A") : Numeral.parseFloat s = none := by
  rcases h with rfl | rfl <;> decide

/-- What stands for nothing says no number, and a readable value can be looked up. -/
theorem isMissing_of_readable (h : FloatReadable round value) :
    (isMissing value = .ok true ∧ numberOf round value = none) ∨ isMissing value = .ok false := by
  cases value with
  | null => exact Or.inl ⟨rfl, rfl⟩
  | string s =>
    by_cases hs : s = "" ∨ s = "N/A"
    · refine Or.inl ⟨by simp [isMissing, hs], ?_⟩
      rw [numberOf, parseFloat_missing hs]
      rfl
    · exact Or.inr (by simpa [isMissing, not_or] using hs)
  | array items => cases h
  | object members => cases h
  | _ => exact Or.inr rfl

/-- The conversion of a readable value gives the number it says. -/
theorem floatOf_of_readable (h : FloatReadable round value) (hm : isMissing value = .ok false) :
    floatOf round value = (numberOf round value).elim (.error .valueError) .ok := by
  cases value with
  | null => cases hm
  | int n =>
    obtain ⟨r, hr⟩ := Option.ne_none_iff_exists'.mp h
    simp [floatOf, numberOf, hr]
  | string s => cases hs : Numeral.parseFloat s <;> simp [floatOf, numberOf, hs]
  | array items => cases h
  | object members => cases h
  | _ => rfl

/-- A value that is not readable ends in an exception that is not caught. -/
theorem raises_of_not_readable (h : ¬ FloatReadable round value) :
    isMissing value = .error .typeError ∨
      (isMissing value = .ok false ∧ floatOf round value = .error .overflowError) := by
  cases value with
  | int n =>
    have hr : round n = none := not_not.mp h
    exact Or.inr ⟨rfl, by simp [floatOf, hr]⟩
  | array items => exact Or.inl rfl
  | object members => exact Or.inl rfl
  | _ => exact absurd trivial h

section Both

variable {α : Type} (next : FloatValue → Except ProbeRaised α)

/-- What both conversions make of a readable value: nothing, unless it says a number. -/
theorem conversion_of_readable (h : FloatReadable round value) :
    (isMissing value >>= fun missing =>
        if missing then .ok none else catchConversion (floatOf round value >>= next)) =
      (numberOf round value).elim (.ok none) fun x => catchConversion (next x) := by
  rcases isMissing_of_readable h with ⟨hm, hn⟩ | hm
  · rw [hm, hn]
    rfl
  · rw [hm]
    change catchConversion (floatOf round value >>= next) = _
    rw [floatOf_of_readable h hm]
    cases numberOf round value <;> rfl

/-- Neither conversion ends as declared on a value that is not readable. -/
theorem readable_of_probed_conversion (h : Probed (isMissing value >>= fun missing =>
    if missing then .ok none else catchConversion (floatOf round value >>= next))) :
    FloatReadable round value := by
  by_contra hnot
  rcases raises_of_not_readable hnot with hm | ⟨hm, hf⟩
  · rw [hm] at h
    exact not_probed (by simp) h
  · rw [hm] at h
    change Probed (catchConversion (floatOf round value >>= next)) at h
    rw [hf] at h
    exact not_probed (by simp) h

end Both

theorem reads_optionalFloat :
    Reads (optionalFloat round) (FloatReadable round) (numberOf round) := by
  have hread : ∀ value, optionalFloat round value = (isMissing value >>= fun missing =>
      if missing then .ok none else catchConversion (floatOf round value >>= .ok)) := by
    intro value
    rw [optionalFloat]
    cases floatOf round value <;> rfl
  constructor
  · intro value h
    rw [hread, conversion_of_readable _ h]
    cases numberOf round value <;> rfl
  · intro value h
    rw [hread] at h
    exact readable_of_probed_conversion _ h

theorem reads_optionalInt : Reads (optionalInt round) (IntReadable round) (wholeOf round) := by
  have hread : ∀ value, optionalInt round value = (isMissing value >>= fun missing =>
      if missing then .ok none else catchConversion (floatOf round value >>= intOf)) :=
    fun value => rfl
  constructor
  · rintro value ⟨h, hpos, hneg⟩
    rw [hread, conversion_of_readable _ h, wholeOf]
    rcases hx : numberOf round value with _ | x
    · rfl
    · cases x with
      | finite q => rfl
      | infinity => exact absurd hx hpos
      | negInfinity => exact absurd hx hneg
      | nan => rfl
  · intro value h
    rw [hread] at h
    have hreadable := readable_of_probed_conversion _ h
    rw [conversion_of_readable _ hreadable] at h
    -- the exception of an infinity is not caught
    have hinfinite : ∀ x, intOf x = .error .overflowError → numberOf round value ≠ some x := by
      intro x hx he
      rw [he, Option.elim_some, hx] at h
      exact not_probed (by simp) h
    exact ⟨hreadable, hinfinite _ rfl, hinfinite _ rfl⟩

end Conversions

/-! ### Reading a rate -/

section Rates

variable {α : Type} {read : ProbeValue → Except ProbeRaised (Option α)} {good : ProbeValue → Prop}
  {number : ProbeValue → Option α} {isZero : α → Bool}
  {payload stream : List (String × ProbeValue)} {key : String}

/-- The first number stays unless the next place has to be looked at. -/
theorem orNext_ok {first : Option α} {next : Except ProbeRaised (Option α)}
    (h : ¬ Falls isZero first) : orNext isZero (.ok first) next = .ok first := by
  cases first with
  | none => exact absurd (fun a ha => by cases ha) h
  | some a =>
    have ha : isZero a ≠ true := fun hz => h fun b hb => by
      rw [← Option.some.inj hb]
      exact hz
    change (if isZero a then next else .ok (some a)) = _
    rw [if_neg ha]

theorem orNext_next {first : Option α} {next : Except ProbeRaised (Option α)}
    (h : Falls isZero first) : orNext isZero (.ok first) next = next := by
  cases first with
  | none => rfl
  | some a =>
    change (if isZero a then next else .ok (some a)) = _
    rw [if_pos (h a rfl)]

/-- A field of an object is read where it is. -/
theorem get_object_bind (members : List (String × ProbeValue)) :
    get key (.object members) >>= read = read (Json.member members key) := rfl

/-- A readable rate is read. -/
theorem Reads.exists_rate (h : Reads read good number)
    (hrate : RateReadable good isZero number payload stream key) :
    ∃ rate, orNext isZero (get key (.object stream) >>= read)
      (get key (formatOf payload) >>= read) = .ok rate := by
  rw [get_object_bind, h.ok _ hrate.first]
  by_cases hfalls : Falls isZero (number (Json.member stream key))
  · obtain ⟨format, hformat, hgood⟩ := hrate.next hfalls
    exact ⟨_, by rw [orNext_next hfalls, hformat, get_object_bind, h.ok _ hgood]⟩
  · exact ⟨_, orNext_ok hfalls⟩

/-- **A rate ends as declared just when it is readable.** -/
theorem Reads.probed_rate (h : Reads read good number) :
    Probed (orNext isZero (get key (.object stream) >>= read)
        (get key (formatOf payload) >>= read)) ↔
      RateReadable good isZero number payload stream key := by
  constructor
  · intro hp
    rw [get_object_bind] at hp
    have hfirst : good (Json.member stream key) := h.probed _ (probed_bind.mp hp).1
    refine ⟨hfirst, fun hfalls => ?_⟩
    rw [h.ok _ hfirst, orNext_next hfalls] at hp
    obtain ⟨hget, hread⟩ := probed_bind.mp hp
    obtain ⟨format, hformat⟩ := probed_get.mp hget
    refine ⟨format, hformat, h.probed _ (hread _ ?_)⟩
    rw [hformat]
    rfl
  · intro hrate
    obtain ⟨rate, hr⟩ := h.exists_rate hrate
    rw [hr]
    exact probed_ok rate

/-- A rate that is read comes from the stream or else from the format section. -/
theorem Reads.rateFrom (h : Reads read good number) {rate : Option α}
    (hr : orNext isZero (get key (.object stream) >>= read)
      (get key (formatOf payload) >>= read) = .ok rate) :
    RateFrom isZero number payload stream key rate := by
  obtain ⟨hfirst, hnext⟩ := h.probed_rate.mp (Or.inl ⟨rate, hr⟩)
  rw [get_object_bind, h.ok _ hfirst] at hr
  by_cases hfalls : Falls isZero (number (Json.member stream key))
  · obtain ⟨format, hformat, hgood⟩ := hnext hfalls
    rw [orNext_next hfalls, hformat, get_object_bind, h.ok _ hgood] at hr
    exact Or.inr ⟨hfalls, format, hformat, (Except.ok.inj hr).symm⟩
  · rw [orNext_ok hfalls] at hr
    exact Or.inl ⟨hfalls, (Except.ok.inj hr).symm⟩

end Rates

/-! ### The answer as a whole -/

section Answer

variable {round : ℚ → Option ℚ} {payload stream : List (String × ProbeValue)} {value : ProbeValue}

theorem probed_readRates {width height : ℤ} :
    Probed (readRates round (.object payload) (.object stream) width height) ↔
      RateReadable (IntReadable round) (· == 0) (wholeOf round) payload stream "bit_rate" ∧
        RateReadable (FloatReadable round) (· == .finite 0) (numberOf round) payload stream
          "duration" := by
  change Probed (orNext _ _ (get "bit_rate" (formatOf payload) >>= _) >>= fun _ =>
    orNext _ _ (get "duration" (formatOf payload) >>= _) >>= fun _ => pure _) ↔ _
  rw [probed_bind, reads_optionalInt.probed_rate]
  refine and_congr_right fun hrate => ⟨fun h => ?_, fun hduration _ _ => ?_⟩
  · obtain ⟨rate, hr⟩ := reads_optionalInt.exists_rate hrate
    exact reads_optionalFloat.probed_rate.mp (probed_bind.mp (h rate hr)).1
  · exact probed_bind.mpr ⟨reads_optionalFloat.probed_rate.mpr hduration, fun _ _ => probed_ok _⟩

/-- The rates of metadata that are read. -/
theorem rateFrom_of_readRates {width height : ℤ} {metadata : VideoSourceMetadata}
    (h : readRates round (.object payload) (.object stream) width height = .ok metadata) :
    metadata.width = width ∧ metadata.height = height ∧
      RateFrom (· == 0) (wholeOf round) payload stream "bit_rate" metadata.bitrate ∧
      RateFrom (· == .finite 0) (numberOf round) payload stream "duration"
        metadata.durationSeconds := by
  change orNext _ _ (get "bit_rate" (formatOf payload) >>= _) >>= (fun _ =>
    orNext _ _ (get "duration" (formatOf payload) >>= _) >>= fun _ => pure _) = _ at h
  obtain ⟨bitrate, hbitrate, h⟩ := Json.bind_eq_ok.mp h
  obtain ⟨duration, hduration, h⟩ := Json.bind_eq_ok.mp h
  obtain rfl := Except.ok.inj h
  exact ⟨rfl, rfl, reads_optionalInt.rateFrom hbitrate, reads_optionalFloat.rateFrom hduration⟩

/-- What comes after readable dimensions. -/
theorem readStream_of_readable (hw : IntReadable round (Json.member stream "width"))
    (hh : IntReadable round (Json.member stream "height")) :
    readStream round (.object payload) (.object stream) =
      match wholeOf round (Json.member stream "width"),
        wholeOf round (Json.member stream "height") with
      | some width, some height => readRates round (.object payload) (.object stream) width height
      | _, _ => .error (.videoProbeError "ffprobe did not return source dimensions") := by
  rw [readStream, get_object_bind, get_object_bind, reads_optionalInt.ok _ hw,
    reads_optionalInt.ok _ hh]
  rfl

/-- **What comes after the first stream ends as declared** just when that is a readable
object. -/
theorem probed_readStream :
    Probed (readStream round (.object payload) value) ↔
      ∃ stream, value = .object stream ∧ StreamReadable round payload stream := by
  constructor
  · intro hp
    obtain ⟨stream, rfl⟩ := probed_get.mp (probed_bind.mp (probed_bind.mp hp).1).1
    have hw : IntReadable round (Json.member stream "width") :=
      reads_optionalInt.probed _ (probed_bind.mp hp).1
    have hh : IntReadable round (Json.member stream "height") :=
      reads_optionalInt.probed _
        (probed_bind.mp ((probed_bind.mp hp).2 _ (reads_optionalInt.ok _ hw))).1
    refine ⟨stream, rfl, hw, hh, fun hws hhs => ?_⟩
    obtain ⟨width, hwidth⟩ := Option.isSome_iff_exists.mp hws
    obtain ⟨height, hheight⟩ := Option.isSome_iff_exists.mp hhs
    rw [readStream_of_readable hw hh, hwidth, hheight] at hp
    exact probed_readRates.mp hp
  · rintro ⟨stream, rfl, hw, hh, hrates⟩
    rw [readStream_of_readable hw hh]
    cases hwidth : wholeOf round (Json.member stream "width") with
    | none => exact probed_videoProbeError _
    | some width =>
      cases hheight : wholeOf round (Json.member stream "height") with
      | none => exact probed_videoProbeError _
      | some height =>
        rw [hwidth, hheight] at hrates
        exact probed_readRates.mpr (hrates rfl rfl)

/-- What comes after the streams have been looked up. -/
theorem readPayload_object :
    readPayload round (.object payload) =
      if truthy (Json.member payload "streams") = true then
        firstItem (Json.member payload "streams") >>= readStream round (.object payload)
      else .error (.videoProbeError "ffprobe did not find a video stream") := by
  change (if truthy (orDefault _ _) = true then firstItem (orDefault _ _) >>= _ else _) = _
  rw [orDefault]
  by_cases h : truthy (Json.member payload "streams") = true
  · rw [if_pos h, if_pos h, if_pos h]
  · rw [if_neg h, if_neg h]
    rfl

/-- Of what counts as true, only an array that begins with a readable object ends as
declared. -/
theorem probed_firstItem (ht : truthy value = true) :
    Probed (firstItem value >>= readStream round (.object payload)) ↔
      ∃ stream streams, value = .array (.object stream :: streams) ∧
        StreamReadable round payload stream := by
  constructor
  · intro hp
    obtain ⟨hfirst, hstream⟩ := probed_bind.mp hp
    cases value with
    | array items =>
      cases items with
      | nil => cases ht
      | cons item items =>
        obtain ⟨stream, rfl, hs⟩ := probed_readStream.mp (hstream item rfl)
        exact ⟨stream, items, rfl, hs⟩
    | string s =>
      rw [firstItem] at hfirst hstream
      cases hs : s.toList with
      | nil =>
        rw [hs] at hfirst
        exact absurd hfirst (not_probed (by simp))
      | cons c cs =>
        rw [hs] at hstream
        obtain ⟨stream, he, -⟩ := probed_readStream.mp (hstream _ rfl)
        cases he
    | _ => exact absurd hfirst (not_probed (by simp))
  · rintro ⟨stream, streams, rfl, hs⟩
    exact probed_readStream.mpr ⟨stream, rfl, hs⟩

theorem probed_readPayload : Probed (readPayload round value) ↔ PayloadReadable round value := by
  constructor
  · intro hp
    obtain ⟨payload, rfl⟩ := probed_get.mp (probed_bind.mp hp).1
    refine ⟨payload, rfl, fun ht => ?_⟩
    rw [readPayload_object, if_pos ht] at hp
    exact (probed_firstItem ht).mp hp
  · rintro ⟨payload, rfl, h⟩
    rw [readPayload_object]
    split_ifs with ht
    · exact (probed_firstItem ht).mpr (h ht)
    · exact probed_videoProbeError _

/-- **The answer comes from the first stream**, or else from the format section. -/
theorem readFrom_of_readPayload {metadata : VideoSourceMetadata}
    (h : readPayload round value = .ok metadata) : ReadFrom round value metadata := by
  obtain ⟨payload, rfl, hstreams⟩ := probed_readPayload.mp (Or.inl ⟨metadata, h⟩)
  rw [readPayload_object] at h
  split_ifs at h with ht
  obtain ⟨stream, streams, hmember, hw, hh, -⟩ := hstreams ht
  rw [hmember] at h
  change readStream round (.object payload) (.object stream) = .ok metadata at h
  rw [readStream_of_readable hw hh] at h
  cases hwidth : wholeOf round (Json.member stream "width") with
  | none => rw [hwidth] at h; cases h
  | some width =>
    cases hheight : wholeOf round (Json.member stream "height") with
    | none => rw [hwidth, hheight] at h; cases h
    | some height =>
      rw [hwidth, hheight] at h
      obtain ⟨rfl, rfl, hbitrate, hduration⟩ := rateFrom_of_readRates h
      exact ⟨payload, stream, streams, rfl, hmember, hwidth, hheight, hbitrate, hduration⟩

/-- **The parser ends as declared just on what is readable.** -/
theorem probed_parse_iff {depth : ℕ} {output : String} :
    Probed (parseFfprobeOutput round depth output) ↔ Readable round depth output := by
  rw [Readable, parseFfprobeOutput, loadPayload]
  cases Json.loads (FloatValue.ofReading round) depth output with
  | error raised =>
    cases raised with
    | jsonDecodeError => exact ⟨fun _ => rfl, fun _ => probed_videoProbeError _⟩
    | valueError => exact ⟨fun h => absurd h (not_probed (by simp)), fun h => by cases h⟩
    | recursionError => exact ⟨fun h => absurd h (not_probed (by simp)), fun h => by cases h⟩
  | ok value => exact probed_readPayload

/-- **Metadata that are returned come from the value that the output is.** -/
theorem exists_loads_of_parse {depth : ℕ} {output : String} {metadata : VideoSourceMetadata}
    (h : parseFfprobeOutput round depth output = .ok metadata) :
    ∃ value, Json.loads (FloatValue.ofReading round) depth output = .ok value ∧
      ReadFrom round value metadata := by
  rw [parseFfprobeOutput, loadPayload] at h
  cases hload : Json.loads (FloatValue.ofReading round) depth output with
  | error raised =>
    rw [hload] at h
    cases raised <;> cases h
  | ok value =>
    rw [hload] at h
    exact ⟨value, rfl, readFrom_of_readPayload h⟩

/-- **The parser fails in its declared way just on what is readable.** Whatever the rounding
and the nesting that is allowed, and for every output: the parser answers with the metadata of
the first stream, with the rates of that stream or else of the format section, or raises
`VideoProbeError`, if and only if the output is readable. -/
theorem parse_declared_iff (round : ℚ → Option ℚ) (depth : ℕ) (output : String) :
    ((∃ metadata value, parseFfprobeOutput round depth output = .ok metadata ∧
        Json.loads (FloatValue.ofReading round) depth output = .ok value ∧
        ReadFrom round value metadata) ∨
      ∃ message, parseFfprobeOutput round depth output = .error (.videoProbeError message)) ↔
    Readable round depth output := by
  rw [← probed_parse_iff]
  constructor
  · rintro (⟨metadata, -, h, -⟩ | hraised)
    · exact Or.inl ⟨metadata, h⟩
    · exact Or.inr hraised
  · rintro (⟨metadata, h⟩ | hraised)
    · obtain ⟨value, hload, hread⟩ := exists_loads_of_parse h
      exact Or.inl ⟨metadata, value, h, hload, hread⟩
    · exact Or.inr hraised

/-- On the machine a whole number is too large for a fraction just from the middle between the
largest fraction and the next power of two on. -/
theorem floatReadable_int_iff {n : ℤ} :
    FloatReadable Binary64.round (.int n) ↔
      |(n : ℚ)| < (2 : ℚ) ^ (1024 : ℤ) - 2 ^ (970 : ℤ) := by
  rw [FloatReadable, ne_eq, Binary64.round_eq_none_iff, not_le]

/-- **Three outputs on which the parser raises something else**: an array, an object in the
place of a number, and a width that is infinite. -/
theorem undeclared_exceptions :
    parseFfprobeOutput Binary64.round 1000 "[]" = .error .attributeError ∧
    parseFfprobeOutput Binary64.round 1000 "\x7b\"streams\": [\x7b\"width\": \x7b\x7d\x7d]\x7d" =
      .error .typeError ∧
    parseFfprobeOutput Binary64.round 1000 "\x7b\"streams\": [\x7b\"width\": Infinity\x7d]\x7d" =
      .error .overflowError := by
  refine ⟨?_, ?_, ?_⟩ <;> decide +kernel

end Answer

end RenditionPipeline
