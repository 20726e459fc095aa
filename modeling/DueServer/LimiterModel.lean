import Mathlib.Tactic.Linarith
import Mathlib.Tactic.Ring

/-! The token bucket of `core/limiter/limiter.go`, with an ordered field in place of the floats. -/
namespace DueServer

structure Limiter (K : Type) where
  cap : K
  num : K
  rate : K
  lastFillTime : ℤ

namespace Limiter

variable {K : Type} [Field K] [LinearOrder K]

/-- `Seconds` of a duration in nanoseconds. -/
def seconds (d : ℤ) : K := d / 1000000000

/-- `Sub` of times that do not go back. A duration is an `int64`. -/
def sub (now last : ℤ) : ℤ := min (now - last) 9223372036854775807

section

variable (l : Limiter K) (now : ℤ) (n : ℕ)

/-- `num` in `doAllow`. -/
def accrued : K := seconds (sub now l.lastFillTime) * l.rate

/-- `doAllow` up to the comparison. -/
def fill : Limiter K :=
  if l.accrued now > 0 then { l with num := min (l.num + l.accrued now) l.cap, lastFillTime := now }
  else l

def doAllow : Bool × Limiter K :=
  if (l.fill now).num ≥ n then (true, { l.fill now with num := (l.fill now).num - n })
  else (false, l.fill now)

def available : K := min (l.num + l.accrued now) l.cap

/-- After some calls, each a time and an amount. -/
def after (calls : List (ℤ × ℕ)) : Limiter K := calls.foldl (fun l c => (l.doAllow c.1 c.2).2) l

end

/-- What the calls between `t₁` and `t₂` are admitted. -/
def admitted (t₁ t₂ : ℤ) : Limiter K → List (ℤ × ℕ) → ℕ
  | _, [] => 0
  | l, (now, n) :: calls =>
    (if (l.doAllow now n).1 ∧ t₁ ≤ now ∧ now ≤ t₂ then n else 0) +
      admitted t₁ t₂ (l.doAllow now n).2 calls

structure Bounded (l : Limiter K) (calls : List (ℤ × ℕ)) : Prop where
  stored : ∀ past, past <+: calls → 0 ≤ (l.after past).num ∧ (l.after past).num ≤ l.cap
  window : ∀ t₁ t₂, t₁ ≤ t₂ → (l.admitted t₁ t₂ calls : K) ≤ l.cap + l.rate * seconds (t₂ - t₁)
  denied : ∀ past now n, past ++ [(now, n)] <+: calls →
    ((l.after past).doAllow now n).1 = false → (l.after past).available now < n

variable {l : Limiter K} {t t₀ t₁ t₂ : ℤ} {n : ℕ} {calls : List (ℤ × ℕ)}

omit [LinearOrder K] in
theorem mul_seconds (r : K) (a b c : ℤ) :
    r * seconds (c - a) = r * seconds (c - b) + r * seconds (b - a) := by
  simp only [seconds, Int.cast_sub]
  ring

theorem doAllow_same : (l.doAllow t n).2.cap = l.cap ∧ (l.doAllow t n).2.rate = l.rate := by
  unfold doAllow fill
  split_ifs <;> exact ⟨rfl, rfl⟩

theorem admitted_eq_zero (haft : ∀ c ∈ calls, t₂ < c.1) : l.admitted t₁ t₂ calls = 0 := by
  induction calls generalizing l with
  | nil => rfl
  | cons c calls ih =>
    rw [List.forall_mem_cons] at haft
    have hnot : ¬((l.doAllow c.1 c.2).1 ∧ t₁ ≤ c.1 ∧ c.1 ≤ t₂) := fun hin => by omega
    simp only [admitted, ih haft.2, if_neg hnot]

variable [IsStrictOrderedRing K]

theorem seconds_mono {d e : ℤ} (h : d ≤ e) : (seconds d : K) ≤ seconds e := by
  apply div_le_div_of_nonneg_right _ (by positivity)
  exact_mod_cast h

/-- What a call is admitted it takes. -/
theorem spent_le {p : Prop} [Decidable p] :
    ((if (l.doAllow t n).1 ∧ p then n else 0 : ℕ) : K) + (l.doAllow t n).2.num ≤
    (l.fill t).num := by
  unfold doAllow
  split_ifs with hn hp <;> simp_all

theorem available_le : l.available t ≤ (l.fill t).num := by
  unfold available fill
  split_ifs with hnum
  · exact le_rfl
  · exact (min_le_left _ _).trans (by linarith)

structure Sound (l : Limiter K) : Prop where
  num_nonneg : 0 ≤ l.num
  num_le : l.num ≤ l.cap
  rate_nonneg : 0 ≤ l.rate

/-- Nothing has accrued at `t₀` since the bucket was last filled. -/
structure Filled (l : Limiter K) (t₀ : ℤ) : Prop where
  last_le : l.lastFillTime ≤ t₀
  full : l.rate * seconds (t₀ - l.lastFillTime) ≤ 0

namespace Sound

variable (h : l.Sound)

include h

theorem fill : (l.fill t).Sound := by
  obtain ⟨hpos, hle, hrate⟩ := h
  unfold Limiter.fill
  split_ifs with hnum
  · exact ⟨le_min (by linarith) (hpos.trans hle), min_le_right _ _, hrate⟩
  · exact ⟨hpos, hle, hrate⟩

theorem doAllow : (l.doAllow t n).2.Sound := by
  obtain ⟨hpos, hle, hrate⟩ := h.fill (t := t)
  unfold Limiter.doAllow
  split_ifs with hn
  · exact ⟨sub_nonneg.mpr hn, (sub_le_self _ (Nat.cast_nonneg n)).trans hle, hrate⟩
  · exact ⟨hpos, hle, hrate⟩

theorem after (calls : List (ℤ × ℕ)) :
    (l.after calls).Sound ∧ (l.after calls).cap = l.cap := by
  induction calls generalizing l with
  | nil => exact ⟨h, rfl⟩
  | cons c calls ih =>
    obtain ⟨hsou, hcap⟩ := ih h.doAllow
    exact ⟨hsou, hcap.trans doAllow_same.1⟩

theorem rate_mul_nonneg (hle : t₀ ≤ t) : 0 ≤ l.rate * seconds (t - t₀) := by
  have hsec := seconds_mono (K := K) (sub_nonneg.mpr hle)
  simp only [seconds, Int.cast_zero, zero_div] at hsec
  exact mul_nonneg h.rate_nonneg hsec

theorem filled (hle : l.lastFillTime ≤ t) : (l.doAllow t n).2.Filled t := by
  suffices (l.fill t).Filled t by
    unfold Limiter.doAllow
    split_ifs <;> exact ⟨this.1, this.2⟩
  unfold Limiter.fill
  split_ifs with hnum
  · exact ⟨le_rfl, by simp [seconds]⟩
  refine ⟨hle, ?_⟩
  rcases h.rate_nonneg.eq_or_lt with hrate | hrate
  · simp [← hrate]
  -- no time has passed
  have hsub : ¬0 < sub t l.lastFillTime := by
    intro hpos
    have hcast : (0 : K) < sub t l.lastFillTime := by exact_mod_cast hpos
    exact hnum (mul_pos (div_pos hcast (by positivity)) hrate)
  have hnow : t - l.lastFillTime = 0 := by
    unfold sub at hsub
    omega
  simp [hnow, seconds]

theorem num_fill_le (hle : l.lastFillTime ≤ t) :
    (l.fill t).num ≤ l.num + l.rate * seconds (t - l.lastFillTime) := by
  unfold Limiter.fill
  split_ifs with hnum
  · have hsub : (seconds (sub t l.lastFillTime) : K) ≤ _ := seconds_mono (min_le_left _ _)
    have hmul := mul_le_mul_of_nonneg_left hsub h.rate_nonneg
    apply (min_le_left _ _).trans
    rw [accrued, mul_comm]
    exact add_le_add_right hmul _
  · exact le_add_of_nonneg_right (h.rate_mul_nonneg hle)

/-- The calls after one at `t` get what that has left and what accrues from then on. -/
theorem rest_le (t₁ : ℤ) (hle : l.lastFillTime ≤ t) (hnow : t ≤ t₂)
    (hsor : (t :: calls.map Prod.fst).Pairwise (· ≤ ·)) :
    (((l.doAllow t n).2.admitted t₁ t₂ calls : ℕ) : K) ≤
      (l.doAllow t n).2.num + l.rate * seconds (t₂ - t) := by
  induction calls generalizing l t n with
  | nil => simpa [admitted] using add_nonneg h.doAllow.num_nonneg (h.rate_mul_nonneg hnow)
  | cons c calls ih =>
    obtain ⟨t', n'⟩ := c
    obtain ⟨hfst, hrest⟩ := List.pairwise_cons.mp hsor
    have hle' : t ≤ t' := hfst t' (by simp)
    by_cases hnow' : t' ≤ t₂
    · have hrate := (doAllow_same (l := l) (t := t) (n := n)).2
      have hfil := h.filled (n := n) hle
      have hlast := hfil.last_le.trans hle'
      have hfill := h.doAllow.num_fill_le hlast
      have hspe := spent_le (l := (l.doAllow t n).2) (t := t') (n := n') (p := t₁ ≤ t' ∧ t' ≤ t₂)
      have hih := ih h.doAllow (n := n') hlast hnow' hrest
      have hfull := hfil.full
      rw [hrate] at hfull hih
      rw [hrate, mul_seconds _ _ t] at hfill
      rw [mul_seconds _ _ t']
      simp only [admitted]
      push_cast at hspe ⊢
      linarith
    · have haft : ∀ c ∈ (t', n') :: calls, t₂ < c.1 := by
        rw [List.forall_mem_cons]
        refine ⟨not_le.mp hnow', fun c hc => (not_le.mp hnow').trans_le ?_⟩
        exact (List.pairwise_cons.mp hrest).1 _ (List.mem_map_of_mem hc)
      rw [admitted_eq_zero haft]
      simpa using add_nonneg h.doAllow.num_nonneg (h.rate_mul_nonneg hnow)

theorem window_le (ht : t₁ ≤ t₂) (hsor : (l.lastFillTime :: calls.map Prod.fst).Pairwise (· ≤ ·)) :
    (l.admitted t₁ t₂ calls : K) ≤ l.cap + l.rate * seconds (t₂ - t₁) := by
  induction calls generalizing l with
  | nil => simpa [admitted] using add_nonneg (h.num_nonneg.trans h.num_le) (h.rate_mul_nonneg ht)
  | cons c calls ih =>
    obtain ⟨t, n⟩ := c
    obtain ⟨hfst, hrest⟩ := List.pairwise_cons.mp hsor
    have hle : l.lastFillTime ≤ t := hfst t (by simp)
    by_cases hin : t₁ ≤ t ∧ t ≤ t₂
    · have hcs := h.rest_le t₁ (n := n) hle hin.2 hrest
      have hspe := spent_le (l := l) (t := t) (n := n) (p := t₁ ≤ t ∧ t ≤ t₂)
      have hpos := h.rate_mul_nonneg hin.1
      have hfill : (l.fill t).num ≤ l.cap := by
        unfold Limiter.fill
        split_ifs
        exacts [min_le_right _ _, h.num_le]
      rw [mul_seconds _ _ t]
      simp only [admitted]
      push_cast at hspe ⊢
      linarith
    · obtain ⟨hcap, hrate⟩ := doAllow_same (l := l) (t := t) (n := n)
      have hnext := ih (h.doAllow (t := t) (n := n)) ?_
      · simpa [admitted, hin, hcap, hrate] using hnext
      · have hlast := (h.filled (n := n) hle).last_le
        rw [List.map_cons, List.pairwise_cons] at hrest
        exact List.pairwise_cons.mpr ⟨fun u hu => hlast.trans (hrest.1 u hu), hrest.2⟩

end Sound

def new (cap rate : K) (now : ℤ) : Limiter K := ⟨cap, cap, rate, now⟩

/-- Called in the order of time, the bucket stays within its capacity, a window admits at most the
capacity and what flows in during it, and only a call for more than there is is denied. -/
theorem limiter_bounded (cap rate : K) (created : ℤ) (calls : List (ℤ × ℕ)) (hcap : 0 ≤ cap)
    (hrate : 0 ≤ rate) (hsor : (created :: calls.map Prod.fst).Pairwise (· ≤ ·)) :
    (new cap rate created).Bounded calls := by
  have hsou : (new cap rate created).Sound := ⟨hcap, le_rfl, hrate⟩
  refine ⟨fun past _ => ?_, fun t₁ t₂ ht => hsou.window_le ht hsor, fun past now n _ hden => ?_⟩
  · obtain ⟨hpast, heq⟩ := hsou.after past
    exact ⟨hpast.num_nonneg, heq ▸ hpast.num_le⟩
  · apply available_le.trans_lt
    unfold doAllow at hden
    split_ifs at hden with hn
    exact not_le.mp hn

/-- Two tokens, of which one comes back in a second. -/
theorem two_tokens_bounded :
    (new 2 1 0 : Limiter ℚ).Bounded [(0, 1), (0, 1), (0, 1), (1000000000, 1), (1000000000, 1)] :=
  limiter_bounded 2 1 0 _ (by decide) (by decide) (by simp)

end Limiter

end DueServer
