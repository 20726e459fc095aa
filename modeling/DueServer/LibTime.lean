import Mathlib.Algebra.Ring.Int.Defs

/-! Instants as Go's `time.Time` keeps them, and their conversion to Unix milliseconds. The
location and the monotonic reading are left out: they are no part of the instant. -/
namespace DueServer.Lib

/-- `sec` counts from January 1 of the year 1 in UTC. -/
@[ext]
structure Time where
  sec : Int64
  nsec : ℕ
  nsec_lt : nsec < 1000000000
deriving DecidableEq

namespace Time

def unixToInternal : ℤ := 62135596800

def zero : Time := ⟨0, 0, by decide⟩

def isZero (t : Time) : Bool := t.sec == 0 && t.nsec == 0

def exactMilli (t : Time) : ℤ := (t.sec.toInt - unixToInternal) * 1000 + (t.nsec / 1000000 : ℕ)

/-- `UnixMilli`; the arithmetic is that of `int64`. -/
def unixMilli (t : Time) : Int64 := Int64.ofInt t.exactMilli

/-- `time.UnixMilli`; `Unix` carries a negative remainder into the seconds. -/
def ofUnixMilli (ms : Int64) : Time where
  sec := Int64.ofInt (ms.toInt / 1000 + unixToInternal)
  nsec := (ms.toInt % 1000).toNat * 1000000
  nsec_lt := by
    have h := Int.emod_lt_of_pos ms.toInt (by decide : (0 : ℤ) < 1000)
    omega

def truncateMilli (t : Time) : Time where
  sec := t.sec
  nsec := t.nsec / 1000000 * 1000000
  nsec_lt := Nat.lt_of_le_of_lt (Nat.div_mul_le_self ..) t.nsec_lt

theorem isZero_iff {t : Time} : t.isZero = true ↔ t = zero := by
  rw [isZero, Bool.and_eq_true, beq_iff_eq, beq_iff_eq, Time.ext_iff]
  exact Iff.rfl

theorem toInt_range (v : Int64) : -2 ^ 63 ≤ v.toInt ∧ v.toInt < 2 ^ 63 :=
  ⟨v.le_toInt, v.toInt_lt⟩

theorem toInt_ofInt_of_range {v : ℤ} (h : -2 ^ 63 ≤ v ∧ v < 2 ^ 63) : (Int64.ofInt v).toInt = v :=
  Int64.toInt_ofInt_of_le h.1 h.2

theorem sec_ofUnixMilli (ms : Int64) :
    (ofUnixMilli ms).sec.toInt = ms.toInt / 1000 + unixToInternal := by
  have h := toInt_range ms
  apply toInt_ofInt_of_range
  unfold unixToInternal
  omega

/-- Milliseconds survive the way back exactly if `int64` holds their number. -/
theorem ofUnixMilli_unixMilli_iff (t : Time) : ofUnixMilli t.unixMilli = t.truncateMilli ↔
      -2 ^ 63 ≤ t.exactMilli ∧ t.exactMilli < 2 ^ 63 := by
  have hn := t.nsec_lt
  constructor
  · intro h
    have hsec : t.sec.toInt = t.unixMilli.toInt / 1000 + unixToInternal := by
      rw [← sec_ofUnixMilli, h]
      rfl
    have hnsec : (t.unixMilli.toInt % 1000).toNat * 1000000 = t.nsec / 1000000 * 1000000 :=
      congrArg Time.nsec h
    have hex : t.exactMilli = t.unixMilli.toInt := by
      unfold exactMilli
      omega
    rw [hex]
    exact toInt_range _
  · intro h
    have hms : t.unixMilli.toInt = t.exactMilli := toInt_ofInt_of_range h
    apply Time.ext
    · apply Int64.toInt_inj.mp
      rw [sec_ofUnixMilli, hms, exactMilli]
      show _ = t.sec.toInt
      omega
    · show (t.unixMilli.toInt % 1000).toNat * 1000000 = t.nsec / 1000000 * 1000000
      rw [hms, exactMilli]
      omega

end Time

end DueServer.Lib
