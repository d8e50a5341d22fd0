import RenditionPipeline.Library.Numeral
import RenditionPipeline.Library.Path
import RenditionPipeline.Services.Jobs

/-!
# The delays before a retry

`JOB_RETRY_BACKOFF_SECONDS` is a text: the delays in seconds, with commas between them. It
is accepted as it stands, and read anew by every transaction that schedules a retry
(`RenditionPipeline.jobRetryBackoffSeconds`).

Which delay an attempt then gets is said here without the loop that reads the text
(`RenditionPipeline.clampedEntry`), together with the texts and attempts for which there is
one (`RenditionPipeline.Usable`).
-/

namespace RenditionPipeline

/-! ### The text of the settings -/

/-- The exception of `int` for a text that is no number, without the text it quotes. -/
def invalidLiteral : Raised := .valueError "invalid literal for int() with base 10"

/-- The loop of `job_retry_backoff_seconds`. -/
def backoffValues : List String → Except Raised (List ℕ)
  | [] => .ok []
  | rawValue :: rawValues =>
    let value := Text.strip rawValue
    if value = "" then backoffValues rawValues
    else
      match Numeral.parseInt value with
      | none => .error invalidLiteral
      | some v => do
        let values ← backoffValues rawValues
        return (max 0 v).toNat :: values

/-- `job_retry_backoff_seconds`, of the text of `JOB_RETRY_BACKOFF_SECONDS`. -/
def jobRetryBackoffSeconds (raw : String) : Except Raised (List ℕ) := do
  let values ← backoffValues (Text.split raw ',')
  return if values = [] then [0] else values

/-- The settings with a text for `JOB_RETRY_BACKOFF_SECONDS`. -/
def settingsOf (retryCount : ℕ) (raw : String) : Settings :=
  ⟨retryCount, jobRetryBackoffSeconds raw⟩

/-! ### What the text says -/

/-- Of some pieces of a text, those with something other than whitespace, without the
whitespace around it. -/
def nonBlank (pieces : List String) : List String :=
  (pieces.map Text.strip).filter fun entry => entry ≠ ""

/-- The non-blank entries between the commas. -/
def nonBlankEntries (raw : String) : List String := nonBlank (Text.split raw ',')

/-- The numbers that the entries are. -/
def backoffEntries (raw : String) : List ℤ := (nonBlankEntries raw).filterMap Numeral.parseInt

/-- The delay of an attempt, in seconds: of the first attempt the first one, and of an
attempt beyond them the last one, but none less than zero. -/
def clampedEntry (entries : List ℤ) (attemptCount : ℕ) : ℤ :=
  max 0 ((entries[min (attemptCount - 1) (entries.length - 1)]?).getD 0)

/-- Every entry is a number. -/
def Numeric (entries : List String) : Prop :=
  ∀ entry ∈ entries, (Numeral.parseInt entry).isSome = true

instance (entries : List String) : Decidable (Numeric entries) :=
  inferInstanceAs (Decidable (∀ entry ∈ entries, _))

/-- **A text gives an attempt its delay**: all of its entries are numbers, and the one that
counts is a duration. -/
structure Usable (raw : String) (attemptCount : ℕ) : Prop where
  numeric : Numeric (nonBlankEntries raw)
  duration : clampedEntry (backoffEntries raw) attemptCount < timedeltaLimitSeconds

/-- **A retry can be scheduled**: the attempt has its delay, and its next run is an instant. -/
structure Schedulable (raw : String) (attemptCount : ℕ) (now : Timestamp) : Prop
    extends Usable raw attemptCount where
  instant : now + seconds (clampedEntry (backoffEntries raw) attemptCount) ≤ datetimeMax

theorem clampedEntry_nonneg (entries : List ℤ) (attemptCount : ℕ) :
    0 ≤ clampedEntry entries attemptCount := le_max_left _ _

theorem seconds_clampedEntry_nonneg (entries : List ℤ) (attemptCount : ℕ) :
    0 ≤ seconds (clampedEntry entries attemptCount) :=
  mul_nonneg (clampedEntry_nonneg entries attemptCount) (by decide)

/-! ### Reading it -/

theorem nonBlank_cons (piece : String) (pieces : List String) :
    nonBlank (piece :: pieces) =
      if Text.strip piece = "" then nonBlank pieces else Text.strip piece :: nonBlank pieces := by
  by_cases h : Text.strip piece = "" <;> simp [nonBlank, h]

/-- **What the loop reads**: the numbers of all entries, or the exception of one that is no
number. -/
theorem backoffValues_eq (pieces : List String) :
    backoffValues pieces =
      if Numeric (nonBlank pieces) then
        .ok (((nonBlank pieces).filterMap Numeral.parseInt).map fun v => (max 0 v).toNat)
      else .error invalidLiteral := by
  induction pieces with
  | nil => rfl
  | cons piece pieces ih =>
    rw [backoffValues, nonBlank_cons]
    by_cases hblank : Text.strip piece = ""
    · rw [if_pos hblank, if_pos hblank, ih]
    · rw [if_neg hblank, if_neg hblank]
      cases hv : Numeral.parseInt (Text.strip piece) with
      | none =>
        have hnot : ¬ Numeric (Text.strip piece :: nonBlank pieces) := fun h => by
          have := h _ List.mem_cons_self
          rw [hv] at this
          cases this
        rw [if_neg hnot]
      | some v =>
        have hiff : Numeric (Text.strip piece :: nonBlank pieces) ↔ Numeric (nonBlank pieces) := by
          simp [Numeric, hv]
        rw [ih, List.filterMap_cons_some hv]
        simp only [hiff]
        by_cases h : Numeric (nonBlank pieces)
        · rw [if_pos h, if_pos h]
          rfl
        · rw [if_neg h, if_neg h]
          rfl

/-- **The delays of a text**, one at least. -/
theorem jobRetryBackoffSeconds_eq (raw : String) :
    jobRetryBackoffSeconds raw =
      if Numeric (nonBlankEntries raw) then
        .ok (if backoffEntries raw = [] then [0]
          else (backoffEntries raw).map fun v => (max 0 v).toNat)
      else .error invalidLiteral := by
  rw [jobRetryBackoffSeconds, backoffValues_eq]
  change (if Numeric (nonBlankEntries raw) then _ else _) >>= _ = _
  by_cases h : Numeric (nonBlankEntries raw)
  · rw [if_pos h, if_pos h]
    change Except.ok _ = _
    simp only [List.map_eq_nil_iff]
    rfl
  · rw [if_neg h, if_neg h]
    rfl

/-- The entry at the index that the function computes is the one that counts. -/
theorem getElem?_backoffs (entries : List ℤ) (attemptCount : ℕ) :
    let backoffs := if entries = [] then [0] else entries.map fun v => (max 0 v).toNat
    backoffs[if attemptCount - 1 ≥ backoffs.length then backoffs.length - 1
      else attemptCount - 1]? = some (clampedEntry entries attemptCount).toNat := by
  intro backoffs
  by_cases hnil : entries = []
  · have hb : backoffs = [0] := if_pos hnil
    rw [hb, hnil]
    by_cases h : attemptCount - 1 ≥ 1
    · rw [if_pos (by simpa using h)]
      rfl
    · have hzero : attemptCount - 1 = 0 := by omega
      rw [if_neg (by simpa using h), hzero]
      rfl
  · have hb : backoffs = entries.map fun v => (max 0 v).toNat := if_neg hnil
    have hpos : 0 < entries.length := List.length_pos_iff.mpr hnil
    have hindex : (if attemptCount - 1 ≥ entries.length then entries.length - 1
        else attemptCount - 1) = min (attemptCount - 1) (entries.length - 1) := by
      split_ifs <;> omega
    have hlt : min (attemptCount - 1) (entries.length - 1) < entries.length := by omega
    rw [hb, List.length_map, hindex, clampedEntry, List.getElem?_map,
      List.getElem?_eq_getElem hlt]
    rfl

/-- **What the function returns**, of every text and for every attempt. -/
theorem retryBackoffForAttempt_eq (retryCount : ℕ) (raw : String) (attemptCount : ℕ) :
    retryBackoffForAttempt (settingsOf retryCount raw) attemptCount =
      if Numeric (nonBlankEntries raw) then
        if clampedEntry (backoffEntries raw) attemptCount < timedeltaLimitSeconds then
          .ok (seconds (clampedEntry (backoffEntries raw) attemptCount))
        else .error .overflowError
      else .error invalidLiteral := by
  have hnonneg := clampedEntry_nonneg (backoffEntries raw) attemptCount
  have hread : (settingsOf retryCount raw).jobRetryBackoffSeconds = _ :=
    jobRetryBackoffSeconds_eq raw
  rw [retryBackoffForAttempt, hread]
  by_cases h : Numeric (nonBlankEntries raw)
  · rw [if_pos h, if_pos h]
    simp only [bind, Except.bind, getElem?_backoffs]
    have hcast : ((clampedEntry (backoffEntries raw) attemptCount).toNat : ℤ)
        = clampedEntry (backoffEntries raw) attemptCount := Int.toNat_of_nonneg hnonneg
    by_cases hlt : clampedEntry (backoffEntries raw) attemptCount < timedeltaLimitSeconds
    · rw [if_pos (by omega), if_pos hlt, hcast]
      rfl
    · rw [if_neg (by omega), if_neg hlt]
      rfl
  · rw [if_neg h, if_neg h]
    rfl

/-- **An attempt gets its delay** just when the text is usable for it. -/
theorem retryBackoffForAttempt_eq_ok_iff {retryCount : ℕ} {raw : String} {attemptCount : ℕ}
    {delay : ℤ} :
    retryBackoffForAttempt (settingsOf retryCount raw) attemptCount = .ok delay ↔
      Usable raw attemptCount ∧
        delay = seconds (clampedEntry (backoffEntries raw) attemptCount) := by
  rw [retryBackoffForAttempt_eq]
  constructor
  · intro h
    split_ifs at h with hnumeric hlt
    exact ⟨⟨hnumeric, hlt⟩, (Except.ok.inj h).symm⟩
  · rintro ⟨⟨hnumeric, hlt⟩, rfl⟩
    rw [if_pos hnumeric, if_pos hlt]

/-- **The instant of the next run**, which there is just when the retry can be scheduled. -/
theorem scheduleRetry_eq_ok_iff {retryCount : ℕ} {raw : String} {job : Job} {now t : Timestamp} :
    scheduleRetry (settingsOf retryCount raw) job now = .ok t ↔
      Schedulable raw job.attemptCount now ∧
        t = now + seconds (clampedEntry (backoffEntries raw) job.attemptCount) := by
  rw [scheduleRetry]
  cases hd : retryBackoffForAttempt (settingsOf retryCount raw) job.attemptCount with
  | error e =>
    refine ⟨fun h => (by cases h), ?_⟩
    rintro ⟨hs, -⟩
    rw [retryBackoffForAttempt_eq_ok_iff.mpr ⟨hs.toUsable, rfl⟩] at hd
    cases hd
  | ok delay =>
    obtain ⟨husable, rfl⟩ := retryBackoffForAttempt_eq_ok_iff.mp hd
    simp only [bind, Except.bind]
    split_ifs with hle
    · simp only [pure, Except.pure, Except.ok.injEq]
      exact ⟨fun h => ⟨⟨husable, hle⟩, h.symm⟩, fun h => h.2.symm⟩
    · exact ⟨fun h => (by cases h), fun h => absurd h.1.instant hle⟩

theorem backoffValues_map_toString {delays : List ℕ}
    (h : ∀ delay ∈ delays, delay < 10 ^ Numeral.maxDigits) :
    backoffValues (delays.map toString) = .ok delays := by
  induction delays with
  | nil => rfl
  | cons delay delays ih =>
    rw [List.map_cons, backoffValues, Numeral.strip_toString, if_neg (Numeral.toString_ne_empty _),
      Numeral.parseInt_toString (h delay List.mem_cons_self),
      ih fun d hd => h d (List.mem_cons_of_mem _ hd)]
    simp [bind, Except.bind, pure, Except.pure]

/-- **Every list of delays can be configured**: written with commas between them, they are
read back. -/
theorem jobRetryBackoffSeconds_join {delays : List ℕ} (hne : delays ≠ [])
    (h : ∀ delay ∈ delays, delay < 10 ^ Numeral.maxDigits) :
    jobRetryBackoffSeconds (Text.join "," (delays.map toString)) = .ok delays := by
  have hsplit : Text.split (Text.join "," (delays.map toString)) ',' = delays.map toString := by
    refine Text.split_join (c := ',') (by simpa using hne) fun entry hentry hcomma => ?_
    obtain ⟨delay, -, rfl⟩ := List.mem_map.mp hentry
    exact absurd (Numeral.isDigit_of_mem_toString hcomma) (by decide)
  rw [jobRetryBackoffSeconds, hsplit, backoffValues_map_toString h]
  simp only [bind, Except.bind, if_neg hne]
  rfl

end RenditionPipeline
