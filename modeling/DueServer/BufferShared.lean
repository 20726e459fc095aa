import Mathlib.Algebra.Ring.Int.Defs
import Mathlib.Algebra.Ring.Nat
import Mathlib.Logic.Function.Iterate

/-! A `NocopyBuffer` that several calls release: `Delay` sets how many releases it takes until the
blocks go back to their pool. -/
namespace DueServer.Buffer

/-- The bytes of a packed buffer with its release state; `frees` counts how often its blocks were
handed back. -/
structure Shared where
  bytes : List UInt8
  delay : Int32
  released : Bool
  frees : ℕ
deriving DecidableEq

namespace Shared

def pack (bytes : List UInt8) : Shared := ⟨bytes, 0, false, 0⟩

variable (b : Shared) {D r : ℕ}

def setDelay (delay : Int32) : Shared := { b with delay := delay }

/-- The number of releases the buffer is set up for: the count of `Delay`, one if it is not set. -/
def due : Int := if b.delay = 0 then 1 else b.delay.toInt

def carried : Option (List UInt8) := if b.released then none else some b.bytes

def release : Shared :=
  if 0 < b.delay - 1 then { b with delay := b.delay - 1 }
  else if b.released then { b with delay := b.delay - 1 }
  else { b with delay := b.delay - 1, released := true, frees := b.frees + 1 }

@[simp] theorem bytes_release : b.release.bytes = b.bytes := by
  unfold release
  split
  · rfl
  · split <;> rfl

/-- A buffer that goes back with the last of `D` releases, of which `r` have been made. Without
`Delay` the first release is the last one. -/
structure Holds (D r : ℕ) (b : Shared) : Prop where
  pos : 0 < D
  small : D ≤ 2 ^ 31
  count : r ≤ D
  delay : r < D → b.delay = Int32.ofNat (D - r) ∨ D - r = 1 ∧ b.delay = 0
  released : b.released = decide (r = D)
  frees : b.frees = if r = D then 1 else 0

variable {b}

theorem ofNat_succ_sub_one (m : ℕ) : Int32.ofNat (m + 1) - 1 = Int32.ofNat m := by
  rw [Int32.ofNat_add]
  exact Int32.add_sub_cancel _ _

theorem ofNat_pos {m : ℕ} (h : m < 2 ^ 31) : 0 < Int32.ofNat m ↔ 0 < m := by
  rw [Int32.lt_iff_toInt_lt, Int32.toInt_ofNat_of_lt h, Int32.toInt_zero]
  omega

theorem holds_pack (bytes : List UInt8) : Holds 1 0 (pack bytes) where
  pos := by decide
  small := by decide
  count := by decide
  delay := fun _ => .inr ⟨rfl, rfl⟩
  released := rfl
  frees := rfl

theorem holds_setDelay (bytes : List UInt8) (hpos : 0 < D) (hsm : D ≤ 2 ^ 31) :
    Holds D 0 ((pack bytes).setDelay (Int32.ofNat D)) where
  pos := hpos
  small := hsm
  count := Nat.zero_le _
  delay := fun _ => .inl rfl
  released := (decide_eq_false (Nat.ne_of_lt hpos)).symm
  frees := (if_neg (Nat.ne_of_lt hpos)).symm

namespace Holds

theorem carried (h : Holds D r b) (hr : r < D) : b.carried = some b.bytes := by
  have hrel : b.released = false := by
    rw [h.released]
    exact decide_eq_false (Nat.ne_of_lt hr)
  rw [Shared.carried, hrel]
  rfl

theorem release_of_lt (h : Holds D r b) (hr : r + 1 < D) : Holds D (r + 1) b.release := by
  have hdela : b.delay = Int32.ofNat (D - (r + 1) + 1) := by
    rcases h.delay (Nat.lt_of_succ_lt hr) with hd | ⟨hd, -⟩
    · rw [hd]
      congr 1
      omega
    · omega
  have hnext : b.delay - 1 = Int32.ofNat (D - (r + 1)) := by
    rw [hdela, ofNat_succ_sub_one]
  have hsm := h.small
  have hlt : D - (r + 1) < 2 ^ 31 := by omega
  have hpos : 0 < b.delay - 1 := by
    rw [hnext, ofNat_pos hlt]
    omega
  have hrel : b.release = { b with delay := b.delay - 1 } := if_pos hpos
  have hne : r ≠ D := by omega
  have hne' : r + 1 ≠ D := Nat.ne_of_lt hr
  rw [hrel]
  refine ⟨h.pos, h.small, Nat.le_of_lt hr, fun _ => .inl hnext, ?_, ?_⟩
  · exact h.released.trans ((decide_eq_false hne).trans (decide_eq_false hne').symm)
  · exact h.frees.trans ((if_neg hne).trans (if_neg hne').symm)

theorem release_of_eq (h : Holds D r b) (hr : r + 1 = D) : Holds D (r + 1) b.release := by
  have hlast : ¬ 0 < b.delay - 1 := by
    rcases h.delay (hr ▸ Nat.lt_succ_self r) with hd | ⟨-, hd⟩
    · have hone : D - r = 1 := by omega
      rw [hd, hone]
      decide
    rw [hd]
    decide
  have hne : r ≠ D := by omega
  have hrel : b.released = false := h.released.trans (decide_eq_false hne)
  have hfre : b.frees = 0 := h.frees.trans (if_neg hne)
  have hrele : b.release =
      { b with delay := b.delay - 1, released := true, frees := b.frees + 1 } := by
    rw [Shared.release, if_neg hlast, hrel]
    rfl
  rw [hrele]
  refine ⟨h.pos, h.small, Nat.le_of_eq hr, fun hlt => absurd hr (Nat.ne_of_lt hlt), ?_, ?_⟩
  · exact (decide_eq_true hr).symm
  · exact (congrArg (· + 1) hfre).trans (if_pos hr).symm

theorem release (h : Holds D r b) (hr : r < D) : Holds D (r + 1) b.release := by
  rcases Nat.lt_or_eq_of_le (Nat.succ_le_of_lt hr) with hlt | heq
  · exact h.release_of_lt hlt
  · exact h.release_of_eq heq

end Holds

theorem delay_release : b.release.delay = b.delay - 1 := by
  unfold release
  split
  · rfl
  · split <;> rfl

theorem released_release (h : b.released = true) : b.release.released = true := by
  rw [release]
  split <;> exact h

theorem released_of_not_pos (h : ¬ 0 < b.delay - 1) : b.release.released = true := by
  rw [release, if_neg h]
  split
  · assumption
  · rfl

theorem delay_iterate (k : ℕ) : (release^[k] b).delay = b.delay - Int32.ofNat k := by
  induction k with
  | zero => exact (Int32.sub_zero _).symm
  | succ k ih =>
    have hone : Int32.ofNat 1 = 1 := rfl
    rw [Function.iterate_succ_apply', delay_release, ih, Int32.ofNat_add, hone,
      Int32.sub_eq_add_neg, Int32.sub_eq_add_neg, Int32.sub_eq_add_neg, Int32.neg_add,
      Int32.sub_eq_add_neg, Int32.add_assoc]

theorem released_iterate_mono {k r : ℕ} (h : (release^[k] b).released = true) (hle : k ≤ r) :
    (release^[r] b).released = true := by
  induction hle with
  | refl => exact h
  | step _ ih =>
    rw [Function.iterate_succ_apply']
    exact released_release ih

theorem released_iterate (b : Shared) {r : ℕ} (hr : 2 ^ 31 ≤ r) :
    (release^[r] b).released = true := by
  by_cases hpos : 0 < b.delay - 1
  · -- the counter is zero after as many releases as the delay says
    have hnon : 0 < (b.delay - 1).toInt := by
      rw [Int32.lt_iff_toInt_lt] at hpos
      exact hpos
    have hlt : (b.delay - 1).toInt < 2 ^ 31 := Int32.toInt_lt _
    obtain ⟨k, hk⟩ := Int.eq_ofNat_of_zero_le (Int.le_of_lt hnon)
    have hdela : b.delay - 1 = Int32.ofNat k := by
      apply Int32.toInt_inj.mp
      rw [Int32.toInt_ofNat_of_lt (by omega), hk]
    have hzero : ¬ 0 < (release^[k] b).delay - 1 := by
      have hcomm : b.delay - Int32.ofNat k - 1 = b.delay - 1 - Int32.ofNat k := by
        rw [Int32.sub_eq_add_neg, Int32.sub_eq_add_neg, Int32.sub_eq_add_neg, Int32.sub_eq_add_neg,
          Int32.add_assoc, Int32.add_comm (-Int32.ofNat k), Int32.add_assoc]
      rw [delay_iterate, hcomm, hdela, Int32.sub_self]
      decide
    have hrel := released_of_not_pos hzero
    rw [← Function.iterate_succ_apply' release k b] at hrel
    exact released_iterate_mono hrel (by omega)
  · exact released_iterate_mono (k := 1) (released_of_not_pos hpos) (by omega)

theorem due_setDelay (bytes : List UInt8) (hpos : 0 < D) (hsm : D < 2 ^ 31) :
    ((pack bytes).setDelay (Int32.ofNat D)).due = D := by
  have hval : (Int32.ofNat D).toInt = D := Int32.toInt_ofNat_of_lt hsm
  have hne : Int32.ofNat D ≠ 0 := by
    intro hzero
    rw [hzero, Int32.toInt_zero] at hval
    omega
  exact (if_neg hne).trans hval

/-- A count that does not fit in an `int32` is not the number of releases, if there are at least
half as many. -/
theorem ne_due_setDelay (bytes : List UInt8) (hlg : 2 ^ 31 ≤ D) (hr : D ≤ 2 * r) :
    (r : Int) ≠ ((pack bytes).setDelay (Int32.ofNat D)).due := by
  have hval : (Int32.ofNat D).toInt = (D : Int).bmod (2 ^ 32) := Int32.toInt_ofNat
  have hlt : (Int32.ofNat D).toInt < 2 ^ 31 := Int32.toInt_lt _
  show (r : Int) ≠ if Int32.ofNat D = 0 then 1 else (Int32.ofNat D).toInt
  split
  · omega
  rw [Int.bmod_def] at hval
  split at hval <;> omega

theorem carried_of_released (h : b.released = true) : b.carried = none := if_pos h

end Shared

end DueServer.Buffer
