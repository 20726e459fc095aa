import DueServer.RedisStore

/-! The decimal strings of the ownership store, as the scripts (`session/redis/script.go`) and
the Go code (`session/redis/store.go`) read them. -/
namespace DueServer.Redis

open Lib
open Nat (ofDigitChars toDigits)

theorem toDigits_ofDigitChars {v : Str} (hne : v ≠ []) (hdig : ∀ c ∈ v, c.isDigit = true)
    (hhead : v.length = 1 ∨ v.head? ≠ some '0') : toDigits 10 (ofDigitChars 10 v 0) = v := by
  have hpos : 0 < v.length := List.length_pos_iff.mpr hne
  have hlt := ofDigitChars_lt_pow hdig
  have hlen : (toDigits 10 (ofDigitChars 10 v 0)).length = v.length := by
    apply le_antisymm ((Nat.length_toDigits_le_iff (by decide) hpos).mpr hlt)
    by_contra hsh
    rcases v with _ | ⟨c, _ | ⟨d, l⟩⟩
    · exact hne rfl
    · exact hsh Nat.length_toDigits_pos
    -- the first digit is not zero
    have hfst := digit_toNat (hdig c (by simp))
    have hzero : c.toNat ≠ 48 := by
      intro h
      have hc : c = '0' := Char.ext (UInt32.toNat_inj.mp h)
      simp [hc] at hhead
    have hsm := (Nat.length_toDigits_le_iff (k := (d :: l).length) (by decide) (by simp)).mp
      (Nat.le_of_lt_succ (not_le.mp hsh))
    rw [ofDigitChars_cons_zero] at hsm
    have hmul : 10 ^ (d :: l).length * 1 ≤ 10 ^ (d :: l).length * (c.toNat - 48) :=
      Nat.mul_le_mul_left _ (by omega)
    omega
  have hdig' := toDigits_isDigit (ofDigitChars 10 v 0)
  have hnum := Nat.ofDigitChars_ten_toDigits (n := ofDigitChars 10 v 0)
  rcases lt_trichotomy (toDigits 10 (ofDigitChars 10 v 0)) v with h | h | h
  · rw [digits_lt_iff hdig' hdig hlen, hnum] at h
    exact absurd h (lt_irrefl _)
  · exact h
  rw [digits_lt_iff hdig hdig' hlen.symm, hnum] at h
  exact absurd h (lt_irrefl _)

def number (v : Str) : ℕ := ofDigitChars 10 v 0

theorem number_formatUint (n : ℕ) : number (formatUint n) = n := Nat.ofDigitChars_ten_toDigits

theorem valid_iff {v : Str} : valid v = true ↔ number v ≤ maxInt64 ∧ formatUint (number v) = v := by
  constructor
  · intro h
    simp only [valid, Bool.and_eq_true, decide_eq_true_eq, List.all_eq_true] at h
    obtain ⟨⟨⟨hne, hdig⟩, hhead⟩, hle⟩ := h
    have hcan : formatUint (number v) = v := toDigits_ofDigitChars hne hdig hhead
    refine ⟨not_lt.mp fun hlt => ?_, hcan⟩
    rw [max_eq, ← hcan] at hle
    rcases hle with hlen | ⟨hlen, hle⟩
    · exact absurd (lt_of_toDigits_length_lt hlen) hlt.not_gt
    · exact absurd ((toDigits_lt_iff hlen.symm).mpr hlt) (not_lt.mpr hle)
  · rintro ⟨hle, hcan⟩
    rw [← hcan]
    exact valid_formatUint hle

theorem parseUint_iff {v : Str} {value : ℕ} :
    parseUint v = .ok value ∧ formatUint value = v ↔ valid v = true ∧ value = number v := by
  constructor
  · rintro ⟨hpar, rfl⟩
    unfold parseUint at hpar
    rw [number_formatUint, Nat.ofDigitChars_ten_toDigits] at *
    split_ifs at hpar with hsyn hle
    cases hpar
    exact ⟨valid_formatUint hle, rfl⟩
  · rintro ⟨h, rfl⟩
    obtain ⟨hle, hcan⟩ := valid_iff.mp h
    refine ⟨?_, hcan⟩
    have hpar := parseUint_formatUint hle
    rwa [hcan] at hpar

theorem valid_iff_formatUint (v : Str) : valid v = true ↔ ∃ n ≤ maxInt64, v = formatUint n := by
  constructor
  · intro h
    obtain ⟨hle, hcan⟩ := valid_iff.mp h
    exact ⟨number v, hle, hcan.symm⟩
  · rintro ⟨n, hle, rfl⟩
    exact valid_formatUint hle

theorem compare_eq_sign {a b : Str} (ha : valid a = true) (hb : valid b = true) :
    compare a b = ((number a : ℤ) - number b).sign := by
  obtain ⟨m, -, rfl⟩ := (valid_iff_formatUint a).mp ha
  obtain ⟨n, -, rfl⟩ := (valid_iff_formatUint b).mp hb
  rw [compare_formatUint, number_formatUint, number_formatUint]
  rcases lt_trichotomy m n with hlt | rfl | hgt
  · rw [if_pos hlt, Int.sign_eq_neg_one_of_neg (by omega)]
  · simp
  · rw [if_neg hgt.not_gt, if_neg hgt.ne', Int.sign_eq_one_of_pos (by omega)]

theorem decodeRangeReply_iff {values : List Str} {value : ℕ} {range : Bool} :
    decodeRangeReply values = .ok (value, range) ↔ ∃ v, valid v = true ∧ value = number v ∧
      (values = ["range".toList, v] ∧ range = true ∨
        values = ["ok".toList, v] ∧ range = false ∧ value ≠ 0) := by
  constructor
  · intro h
    unfold decodeRangeReply at h
    split at h
    · rename_i kind v
      split_ifs at h with hkind
      split at h
      · cases h
      rename_i value' hpar
      split_ifs at h with hbad
      cases h
      simp only [not_or, not_not] at hbad
      obtain ⟨hv, hnum⟩ := parseUint_iff.mp ⟨hpar, hbad.1⟩
      refine ⟨v, hv, hnum, ?_⟩
      by_cases hran : kind = "range".toList
      · exact .inl ⟨by rw [hran], by simp [hran]⟩
      have hok : kind = "ok".toList := by_contra fun h => hkind ⟨h, hran⟩
      exact .inr ⟨by rw [hok], decide_eq_false hran, fun h => hbad.2 ⟨hok, h⟩⟩
    · cases h
  · rintro ⟨v, hv, rfl, h⟩
    obtain ⟨hpar, hcan⟩ := parseUint_iff.mpr ⟨hv, rfl⟩
    rcases h with ⟨rfl, rfl⟩ | ⟨rfl, rfl, hne⟩
    · simp [decodeRangeReply, hpar, hcan]
    · simp [decodeRangeReply, hpar, hcan, hne]

variable {h : Hash}

theorem current_iff {uid : ℤ} {v : Str} {token : Token} (huid : 0 < uid) (hv : h.current = some v) :
    current h none uid = .ok (some token) ↔
      valid v = true ∧ number v ≠ 0 ∧ token = ⟨uid, number v⟩ := by
  rw [current, acquireArgs, if_neg (by omega), hv]
  dsimp only
  constructor
  · intro h
    split at h
    · cases h
    rename_i value hpar
    split_ifs at h with hbad
    cases h
    rw [not_or, not_not] at hbad
    obtain ⟨hval, rfl⟩ := parseUint_iff.mp ⟨hpar, hbad.2⟩
    exact ⟨hval, hbad.1, rfl⟩
  · rintro ⟨hval, hne, rfl⟩
    obtain ⟨hpar, hcan⟩ := parseUint_iff.mpr ⟨hval, rfl⟩
    simp [hpar, hne, hcan]

/-- Where the scripts execute `HINCRBY`, the end of the range is above the generation. -/
theorem generation_lt_max {generation : Str} {limit : Option Str}
    (hstt : state h = .ok (generation, limit)) (hcap : hasCapacity generation limit = true) :
    ∃ n < maxInt64, h.generation = some (formatUint n) := by
  unfold state at hstt
  split at hstt
  · split_ifs at hstt
    cases hstt
    cases hcap
  rename_i g hg
  split_ifs at hstt with hbad
  cases hstt
  simp only [not_or, not_exists, not_and, not_not] at hbad
  obtain ⟨hgen, -, hlimi⟩ := hbad
  rcases hlim : h.rangeEnd with _ | limit
  · rw [hlim] at hcap
    cases hcap
  obtain ⟨m, -, rfl⟩ := (valid_iff_formatUint _).mp hgen
  obtain ⟨n, hle, rfl⟩ := (valid_iff_formatUint _).mp (hlimi limit hlim).1
  refine ⟨m, ?_, hg⟩
  simp only [hlim, hasCapacity, compare_formatUint, decide_eq_true_eq] at hcap
  split_ifs at hcap <;> omega

section Increment

variable {incr : Option Str → Except ScriptErr Str}
  (hincr : ∀ n < maxInt64, incr (some (formatUint n)) = hincrby (some (formatUint n)))

include hincr

theorem advanceWith_eq {generation : Str} {limit : Option Str}
    (hstt : state h = .ok (generation, limit)) (hcap : hasCapacity generation limit = true) :
    advanceWith incr h = advanceWith hincrby h := by
  obtain ⟨n, hlt, hg⟩ := generation_lt_max hstt hcap
  rw [advanceWith, advanceWith, hg, hincr n hlt]

theorem acquireScriptWith_eq : acquireScriptWith incr h = acquireScript h := by
  rw [acquireScript, acquireScriptWith, acquireScriptWith]
  split
  · rfl
  · rename_i generation limit hstt
    split_ifs with hcap
    · exact advanceWith_eq hincr hstt hcap
    · rfl

theorem initializeRangeScriptWith_eq (first last : Str) :
    initializeRangeScriptWith incr h first last = initializeRangeScript h first last := by
  rw [initializeRangeScript, initializeRangeScriptWith, initializeRangeScriptWith]
  split
  · rfl
  · rename_i generation limit hstt
    by_cases hcap : hasCapacity generation limit = true
    · rw [if_pos hcap, if_pos hcap]
      exact advanceWith_eq hincr hstt hcap
    · rw [if_neg hcap, if_neg hcap]

end Increment

/-- The scripts and the Go code agree on the numbers. -/
structure Decimals : Prop where
  valid : ∀ v, valid v = true ↔ ∃ n ≤ maxInt64, v = formatUint n
  compare : ∀ a b, Redis.valid a = true → Redis.valid b = true →
    Redis.compare a b = ((number a : ℤ) - number b).sign
  decodes : ∀ values value range, decodeRangeReply values = .ok (value, range) ↔
    ∃ v, Redis.valid v = true ∧ value = number v ∧
      (values = ["range".toList, v] ∧ range = true ∨
        values = ["ok".toList, v] ∧ range = false ∧ value ≠ 0)
  current : ∀ (h : Hash) (uid : ℤ) (v : Str) (token : Token), 0 < uid → h.current = some v →
    (Redis.current h none uid = .ok (some token) ↔
      Redis.valid v = true ∧ number v ≠ 0 ∧ token = ⟨uid, number v⟩)
  /-- Both scripts come out the same, whatever `HINCRBY` does to a missing field and to any
  string that is not the decimal of a number below the maximum: they execute it on no other. -/
  increments : ∀ incr : Option Str → Except ScriptErr Str,
    (∀ n < maxInt64, incr (some (formatUint n)) = hincrby (some (formatUint n))) →
    ∀ h : Hash, acquireScriptWith incr h = acquireScript h ∧
      ∀ first last, initializeRangeScriptWith incr h first last = initializeRangeScript h first last
  /-- and there it adds one, without an overflow -/
  adds : ∀ n < maxInt64, hincrby (some (formatUint n)) = .ok (formatUint (n + 1))

/-- The Lua functions `valid` and `compare`, the Go parsers and the executions of `HINCRBY`
all go by the canonical decimals up to `2^63 - 1`. -/
theorem decimal_strings : Decimals := by
  refine ⟨valid_iff_formatUint, fun a b => compare_eq_sign, ?_, ?_, ?_, ?_⟩
  · intro values value range
    exact decodeRangeReply_iff
  · intro h uid v token huid hv
    exact current_iff huid hv
  · intro incr hincr h
    exact ⟨acquireScriptWith_eq hincr, initializeRangeScriptWith_eq hincr⟩
  · intro n hlt
    exact hincrby_formatUint hlt

end DueServer.Redis
