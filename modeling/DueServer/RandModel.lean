import Mathlib.Data.Rat.Floor

/-! `Lucky` (`utils/xrand/rand.go`) over all outcomes of its draw. Floats are read as exact
decimals. -/
namespace DueServer.Rand

open List

/-- What `FormatFloat` prints of a float that is not negative; `digits` are behind the point. -/
structure Decimal where
  num : ℕ
  digits : ℕ
  shortest : digits = 0 ∨ num % 10 ≠ 0

def Decimal.value (x : Decimal) : ℚ := x.num / 10 ^ x.digits

/-- The conversion to `int64`, which is not defined for numbers that do not fit. -/
def toInt64 (x : ℚ) : Option ℕ := if x < 2 ^ 63 then some ⌊x⌋₊ else none

/-- `Int` and `Int64`: the results of the equally likely draws. -/
def ints (min max : ℕ) : List ℕ :=
  if min = max then [min]
  else if min > max then (range (min + 1 - max)).map (· + max)
  else (range (max + 1 - min)).map (· + min)

def lucky (probability : Decimal) (base : ℚ) : Option (List Bool) := do
  if probability.value ≤ 0 then return [false]
  if probability.value ≥ base then return [true]
  let scale : ℚ := if probability.digits = 0 then 0 else 10 ^ probability.digits
  let last ← toInt64 (base * scale)
  let limit ← toInt64 (probability.value * scale)
  return (ints 1 last).map fun n => decide (n ≤ limit)

theorem countP_range_lt (n m : ℕ) : (range m).countP (fun x => x < n) = min n m := by
  induction m with
  | zero => simp
  | succ m ih =>
    rw [range_succ, countP_append, ih, countP_singleton]
    split_ifs with h <;> simp at h <;> omega

theorem ints_one {n : ℕ} (h : n ≠ 0) : ints 1 n = (range n).map (· + 1) := by
  by_cases hone : n = 1
  · subst hone
    rfl
  · rw [ints, if_neg (Ne.symm hone), if_neg (by omega), Nat.add_sub_cancel]

theorem toInt64_natCast (n : ℕ) : toInt64 n = if n < 2 ^ 63 then some n else none := by
  have hfits : (n : ℚ) < 2 ^ 63 ↔ n < 2 ^ 63 := by exact_mod_cast Iff.rfl
  simp only [toInt64, hfits, Nat.floor_natCast]

theorem Decimal.value_mul (x : Decimal) : x.value * 10 ^ x.digits = x.num :=
  div_mul_cancel₀ _ (by positivity)

section Lucky

variable {p : Decimal} {b : ℕ}

def LuckyFair (p : Decimal) (b : ℕ) : Prop :=
  ∃ answers, lucky p b = some answers ∧
    (answers.count true : ℚ) / answers.length = p.value / b

theorem num_lt (hlt : p.value < b) : p.num < b * 10 ^ p.digits := by
  have hsca := mul_lt_mul_of_pos_right hlt (by positivity : (0 : ℚ) < 10 ^ p.digits)
  rw [p.value_mul] at hsca
  exact_mod_cast hsca

theorem lucky_eq (hpos : 0 < p.value) (hlt : p.value < b) : lucky p b =
    if p.digits = 0 then some [true, false]
    else if b * 10 ^ p.digits < 2 ^ 63 then
      some ((range (b * 10 ^ p.digits)).map fun x => decide (x < p.num))
    else none := by
  have hnum := num_lt hlt
  have hlast : (b : ℚ) * 10 ^ p.digits = ((b * 10 ^ p.digits : ℕ) : ℚ) := by push_cast; rfl
  unfold lucky
  rw [if_neg hpos.not_ge, if_neg hlt.not_ge]
  split_ifs with hdig hfits
  · simp [toInt64]
    rfl
  · simp only [hlast, p.value_mul, toInt64_natCast, if_pos hfits, if_pos (hnum.trans hfits),
      Option.bind_eq_bind, Option.bind_some, ints_one (Nat.ne_zero_of_lt hnum), map_map]
    rfl
  simp only [hlast, toInt64_natCast, if_neg hfits]
  rfl

/-- The share is right if there are decimals, as long as the draw is from an `int64`. Without
decimals the scale is zero and the answer is a toss. -/
theorem lucky_fair_iff (p : Decimal) (b : ℕ) (hpos : 0 < p.value) (hlt : p.value < b) :
    LuckyFair p b ↔
      if p.digits = 0 then 2 * p.num = b else b * 10 ^ p.digits < 2 ^ 63 := by
  have hb : (b : ℚ) ≠ 0 := (hpos.trans hlt).ne'
  rw [LuckyFair, lucky_eq hpos hlt]
  split_ifs with hdig hfits
  · have htoss : (1 : ℚ) / 2 = p.value / b ↔ 2 * p.num = b := by
      rw [Decimal.value, hdig, pow_zero, div_one, div_eq_div_iff two_ne_zero hb, one_mul]
      exact_mod_cast (by omega : b = p.num * 2 ↔ 2 * p.num = b)
    simpa using htoss
  · have hct := countP_range_lt p.num (b * 10 ^ p.digits)
    rw [min_eq_left (num_lt hlt).le] at hct
    refine iff_of_true ⟨_, rfl, ?_⟩ hfits
    rw [count, countP_map, length_map, length_range, Decimal.value, div_div]
    simp [Function.comp_def, hct, mul_comm]
  · exact iff_of_false (by simp) hfits

theorem lucky_fair_quarter : LuckyFair ⟨25, 2, .inr (by decide)⟩ 1 :=
  (lucky_fair_iff ⟨25, 2, .inr (by decide)⟩ 1 (by decide +kernel)
    (by decide +kernel)).mpr (by decide)

/-- A probability of 25 in 100 is true half of the time. -/
theorem lucky_without_decimals : ¬LuckyFair ⟨25, 0, .inl rfl⟩ 100 := by
  have hluc : lucky ⟨25, 0, .inl rfl⟩ 100 = some [true, false] := by decide +kernel
  intro ⟨answers, hans, hsha⟩
  obtain rfl : [true, false] = answers := Option.some.inj (hluc.symm.trans hans)
  norm_num [Decimal.value] at hsha

end Lucky

end DueServer.Rand
