import DueServer.LibDecimal
import DueServer.OwnershipStore

/-! The Lua scripts of the redis ownership store (`session/redis/script.go`) on the hash of
one user, and the hashes they leave behind. Redis and Lua strings are lists of characters;
numbers are compared as canonical decimal strings, as the scripts do. -/
namespace DueServer.Redis

open Lib

abbrev Str := List Char

structure Hash where
  generation : Option Str
  current : Option Str
  rangeEnd : Option Str
deriving DecidableEq

-- a hash without fields does not exist
def Hash.empty : Hash := ⟨none, none, none⟩

def maxInt64 : ℕ := 2^63 - 1

-- strconv.FormatUint(n, 10)
abbrev formatUint (n : ℕ) : Str := Nat.toDigits 10 n

inductive ScriptErr where
  | incompleteMetadata
  | invalidMetadata
  | invalidReservedRange
  | notInteger
  | overflow
deriving DecidableEq

def ScriptErr.text : ScriptErr → String
  | .incompleteMetadata => "incomplete session ownership range metadata"
  | .invalidMetadata => "invalid session ownership range metadata"
  | .invalidReservedRange => "invalid session ownership reserved range"
  | .notInteger => "hash value is not an integer"
  | .overflow => "increment or decrement would overflow"

def max : Str := "9223372036854775807".toList

def valid (v : Str) : Bool :=
  decide (v ≠ []) && v.all Char.isDigit && decide (v.length = 1 ∨ v.head? ≠ some '0') &&
    decide (v.length < max.length ∨ v.length = max.length ∧ v ≤ max)

def compare (a b : Str) : ℤ :=
  if a.length ≠ b.length then if a.length < b.length then -1 else 1
  else if a = b then 0 else if a < b then -1 else 1

/-- `state()`: the generation, `"0"` for a missing hash, and the end of the range. -/
def state (h : Hash) : Except ScriptErr (Str × Option Str) :=
  match h.generation with
  | none =>
    if h.current.isSome ∨ h.rangeEnd.isSome then .error .incompleteMetadata
    else .ok (['0'], none)
  | some generation =>
    if ¬ valid generation
        ∨ (∃ current ∈ h.current,
          ¬ valid current ∨ current = ['0'] ∨ compare current generation > 0)
        ∨ (∃ limit ∈ h.rangeEnd, ¬ valid limit ∨ compare generation limit > 0) then
      .error .invalidMetadata
    else .ok (generation, h.rangeEnd)

/-- `HINCRBY generation 1`; an absent field counts as 0, the result has to fit an `int64`. -/
def hincrby (v : Option Str) : Except ScriptErr Str :=
  match v with
  | none => .ok (formatUint 1)
  | some v =>
    if v = [] ∨ ¬ v.all Char.isDigit then .error .notInteger
    else if Nat.ofDigitChars 10 v 0 < maxInt64 then
      .ok (formatUint (Nat.ofDigitChars 10 v 0 + 1))
    else .error .overflow

/-- `advance()`, where `incr` executes `HINCRBY`. -/
def advanceWith (incr : Option Str → Except ScriptErr Str) (h : Hash) :
    Except ScriptErr (List Str) × Hash :=
  match incr h.generation with
  | .error err => (.error err, h)
  | .ok exact => (.ok ["ok".toList, exact],
      { h with generation := some exact, current := some exact })

/-- `limit and compare(generation,limit)<0`. -/
def hasCapacity (generation : Str) (limit : Option Str) : Bool :=
  match limit with
  | none => false
  | some limit => decide (compare generation limit < 0)

def acquireScriptWith (incr : Option Str → Except ScriptErr Str) (h : Hash) :
    Except ScriptErr (List Str) × Hash :=
  match state h with
  | .error err => (.error err, h)
  | .ok (generation, limit) =>
    if hasCapacity generation limit then advanceWith incr h
    else (.ok ["range".toList, generation], h)

def initializeRangeScriptWith (incr : Option Str → Except ScriptErr Str) (h : Hash)
    (first last : Str) : Except ScriptErr (List Str) × Hash :=
  match state h with
  | .error err => (.error err, h)
  | .ok (generation, limit) =>
    -- another initializer can have won: consume its range
    if hasCapacity generation limit then advanceWith incr h
    else if ¬ valid first ∨ ¬ valid last ∨ first = ['0'] ∨ compare first last > 0
        ∨ compare first generation ≤ 0 then
      (.error .invalidReservedRange, h)
    else (.ok ["ok".toList, first], ⟨some first, some first, some last⟩)

def acquireScript : Hash → Except ScriptErr (List Str) × Hash := acquireScriptWith hincrby

def initializeRangeScript : Hash → Str → Str → Except ScriptErr (List Str) × Hash :=
  initializeRangeScriptWith hincrby

def releaseScript (h : Hash) (arg : Str) : ℤ × Hash :=
  if h.current ≠ some arg then (0, h) else (1, { h with current := none })

section Decimal

variable {a b : ℕ}

theorem max_eq : max = formatUint maxInt64 := by decide

theorem compare_formatUint : compare (formatUint a) (formatUint b) =
    if a < b then -1 else if a = b then 0 else 1 := by
  unfold compare
  by_cases hlen : (formatUint a).length = (formatUint b).length
  · have hlt := toDigits_lt_iff hlen
    rw [if_neg (not_not.mpr hlen)]
    by_cases heq : a = b
    · simp [heq]
    rw [if_neg fun h => heq (toDigits_injective h), if_neg heq]
    simp only [hlt]
  · rw [if_pos hlen]
    by_cases hll : (formatUint a).length < (formatUint b).length
    · rw [if_pos hll, if_pos (lt_of_toDigits_length_lt hll)]
    have hba := lt_of_toDigits_length_lt (lt_of_le_of_ne (not_lt.mp hll) (Ne.symm hlen))
    rw [if_neg hll, if_neg (by omega), if_neg (by omega)]

theorem valid_formatUint (h : a ≤ maxInt64) : valid (formatUint a) = true := by
  simp only [valid, max_eq, Bool.and_eq_true, decide_eq_true_eq, List.all_eq_true]
  refine ⟨⟨⟨Nat.toDigits_ne_nil, toDigits_isDigit a⟩, ?_⟩, ?_⟩
  · rcases Nat.eq_zero_or_pos a with rfl | hpos
    · exact .inl rfl
    · exact .inr (toDigits_head_ne_zero hpos)
  · rcases Nat.lt_trichotomy (formatUint a).length (formatUint maxInt64).length with hl | hl | hl
    · exact .inl hl
    · refine .inr ⟨hl, not_lt.mp fun hlt => ?_⟩
      have hlt' := (toDigits_lt_iff hl.symm).mp hlt
      omega
    · have hlt' := lt_of_toDigits_length_lt hl
      omega

theorem formatUint_eq_zero : formatUint a = ['0'] ↔ a = 0 := by
  constructor
  · intro h
    exact toDigits_injective (h.trans (Nat.toDigits_zero 10).symm)
  · rintro rfl
    rfl

theorem hincrby_formatUint (h : a < maxInt64) :
    hincrby (some (formatUint a)) = .ok (formatUint (a + 1)) := by
  have hdig : (formatUint a).all Char.isDigit = true :=
    List.all_eq_true.mpr (toDigits_isDigit a)
  simp only [hincrby]
  rw [if_neg (by simp only [hdig]; simp), Nat.ofDigitChars_ten_toDigits, if_pos h]

end Decimal

/-- What a hash left by the scripts stands for: the newest generation, the end of its range,
and whether the generation still owns the user. -/
structure Range where
  generation : ℕ
  limit : ℕ
  held : Bool
  pos : 0 < generation
  le_limit : generation ≤ limit
  limit_le : limit ≤ maxInt64

def encode : Option Range → Hash
  | none => Hash.empty
  | some r => ⟨some (formatUint r.generation),
      if r.held then some (formatUint r.generation) else none, some (formatUint r.limit)⟩

def Range.first (start last : ℕ) (hpos : 0 < start) (hle : start ≤ last)
    (hmax : last ≤ maxInt64) : Range :=
  ⟨start, last, true, hpos, hle, hmax⟩

def Range.next (r : Range) (h : r.generation < r.limit) : Range :=
  ⟨r.generation + 1, r.limit, true, Nat.succ_pos _, h, r.limit_le⟩

def Range.release (r : Range) : Range := { r with held := false }

def newest : Option Range → ℕ
  | none => 0
  | some r => r.generation

def Full (o : Option Range) : Prop := ∀ r ∈ o, ¬ r.generation < r.limit

section Scripts

variable (r : Range) (o : Option Range)

theorem Range.generation_le : r.generation ≤ maxInt64 := r.le_limit.trans r.limit_le

theorem newest_le : newest o ≤ maxInt64 := by
  rcases o with _ | r
  · exact Nat.zero_le _
  · exact r.generation_le

theorem state_encode : state (encode o) =
    .ok (formatUint (newest o), o.map fun r => formatUint r.limit) := by
  rcases o with _ | r
  · decide
  have hv := valid_formatUint r.generation_le
  have hl := valid_formatUint r.limit_le
  have h0 : formatUint r.generation ≠ ['0'] := fun h =>
    absurd (formatUint_eq_zero.mp h) (Nat.pos_iff_ne_zero.mp r.pos)
  have hself : compare (formatUint r.generation) (formatUint r.generation) = 0 := by
    simp [compare_formatUint]
  have hlim : ¬ compare (formatUint r.generation) (formatUint r.limit) > 0 := by
    have hle := r.le_limit
    rw [compare_formatUint]
    split
    · decide
    rw [if_pos (by omega)]
    decide
  have hfine : ¬ (¬ valid (formatUint r.generation)
      ∨ (∃ current ∈ (encode (some r)).current,
        ¬ valid current ∨ current = ['0'] ∨ compare current (formatUint r.generation) > 0)
      ∨ (∃ limit ∈ (encode (some r)).rangeEnd,
        ¬ valid limit ∨ compare (formatUint r.generation) limit > 0)) := by
    rintro (h | ⟨c, hc, h⟩ | ⟨l, hl', h⟩)
    · exact h hv
    · have hc' : c = formatUint r.generation := by
        simp only [encode] at hc
        split at hc
        · exact (Option.some.inj hc).symm
        · cases hc
      subst hc'
      rcases h with h | h | h
      · exact h hv
      · exact h0 h
      · exact absurd (hself ▸ h) (lt_irrefl 0)
    · cases hl'
      exact h.elim (fun h => h hl) hlim
  exact if_neg hfine

theorem hasCapacity_some : hasCapacity (formatUint r.generation)
    (some (formatUint r.limit)) = true ↔
    r.generation < r.limit := by
  simp only [hasCapacity, compare_formatUint]
  split
  · simpa
  · split <;> simpa using not_lt.mp ‹_›

theorem hasCapacity_full {o : Option Range} (h : Full o) :
    ¬ hasCapacity (formatUint (newest o)) (o.map fun r => formatUint r.limit) = true := by
  rcases o with _ | r
  · exact Bool.false_ne_true
  · exact fun hc => h r rfl ((hasCapacity_some r).mp hc)

theorem full_or_capacity : Full o ∨ ∃ r, o = some r ∧ r.generation < r.limit := by
  rcases o with _ | r
  · exact .inl nofun
  by_cases h : r.generation < r.limit
  · exact .inr ⟨r, rfl, h⟩
  refine .inl ?_
  rintro _ ⟨rfl⟩
  exact h

theorem advance_encode (h : r.generation < r.limit) : advanceWith hincrby (encode (some r)) =
      (.ok ["ok".toList, formatUint (r.generation + 1)], encode (some (r.next h))) := by
  have hinc : hincrby (encode (some r)).generation = .ok (formatUint (r.generation + 1)) :=
    hincrby_formatUint (lt_of_lt_of_le h r.limit_le)
  unfold advanceWith
  rw [hinc]
  rfl

theorem acquireScript_next (h : r.generation < r.limit) : acquireScript (encode (some r)) =
    (.ok ["ok".toList, formatUint (r.generation + 1)], encode (some (r.next h))) := by
  unfold acquireScript acquireScriptWith
  rw [state_encode]
  exact (if_pos ((hasCapacity_some r).mpr h)).trans (advance_encode r h)

theorem acquireScript_full {o : Option Range} (h : Full o) : acquireScript (encode o) =
    (.ok ["range".toList, formatUint (newest o)], encode o) := by
  unfold acquireScript acquireScriptWith
  rw [state_encode]
  exact if_neg (hasCapacity_full h)

theorem initializeRangeScript_next (h : r.generation < r.limit) (first last : Str) :
    initializeRangeScript (encode (some r)) first last =
      (.ok ["ok".toList, formatUint (r.generation + 1)], encode (some (r.next h))) := by
  unfold initializeRangeScript initializeRangeScriptWith
  rw [state_encode]
  exact (if_pos ((hasCapacity_some r).mpr h)).trans (advance_encode r h)

theorem reserved_range_accepted {start last floor : ℕ} (hpos : 0 < start) (hle : start ≤ last)
    (hmax : last ≤ maxInt64) (hflo : floor < start) :
    ¬ (¬ valid (formatUint start) ∨ ¬ valid (formatUint last) ∨ formatUint start = ['0'] ∨
      compare (formatUint start) (formatUint last) > 0 ∨
      compare (formatUint start) (formatUint floor) ≤ 0) := by
  have h1 := valid_formatUint (hle.trans hmax)
  have h2 := valid_formatUint hmax
  rintro (h | h | h | h | h)
  · exact h h1
  · exact h h2
  · exact absurd (formatUint_eq_zero.mp h) (Nat.pos_iff_ne_zero.mp hpos)
  · rw [compare_formatUint] at h
    split at h
    · exact absurd h (by decide)
    rw [if_pos (by omega)] at h
    exact absurd h (by decide)
  · rw [compare_formatUint, if_neg (by omega), if_neg (by omega)] at h
    exact absurd h (by decide)

theorem initializeRangeScript_first {o : Option Range} (h : Full o) {start last : ℕ}
    (hpos : 0 < start) (hle : start ≤ last) (hmax : last ≤ maxInt64) (hnew : newest o < start) :
    initializeRangeScript (encode o) (formatUint start) (formatUint last) =
      (.ok ["ok".toList, formatUint start],
        encode (some (Range.first start last hpos hle hmax))) := by
  unfold initializeRangeScript initializeRangeScriptWith
  rw [state_encode]
  dsimp only
  rw [if_neg (hasCapacity_full h), if_neg (reserved_range_accepted hpos hle hmax hnew)]
  rfl

theorem initializeRangeScript_error {first last : Str} {err : ScriptErr}
    (herr : (initializeRangeScript (encode o) first last).1 = .error err) :
    err = .invalidReservedRange := by
  rcases full_or_capacity o with h | ⟨r, rfl, h⟩
  · unfold initializeRangeScript initializeRangeScriptWith at herr
    rw [state_encode] at herr
    dsimp only at herr
    rw [if_neg (hasCapacity_full h)] at herr
    split at herr
    · cases herr
      rfl
    · cases herr
  · rw [initializeRangeScript_next r h] at herr
    cases herr

theorem releaseScript_ne (o : Option Range) (generation : ℕ)
    (h : ∀ r ∈ o, r.held = true → r.generation ≠ generation) :
    releaseScript (encode o) (formatUint generation) = (0, encode o) := by
  unfold releaseScript
  rw [if_pos]
  rcases o with _ | r
  · simp [encode, Hash.empty]
  simp only [encode]
  split
  · rename_i hheld
    intro heq
    exact h r rfl hheld (toDigits_injective (Option.some.inj heq))
  · simp

theorem releaseScript_held (hheld : r.held = true) :
    releaseScript (encode (some r)) (formatUint r.generation) = (1, encode (some r.release)) := by
  unfold releaseScript
  rw [if_neg (by simp [encode, hheld])]
  simp [encode, Range.release]

end Scripts

end DueServer.Redis
