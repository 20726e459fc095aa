import Mathlib.Algebra.Group.Nat.Defs
import Mathlib.Data.Char
import Mathlib.Data.List.Lex

/-! Canonical decimal strings as lists of characters. Compared first by length and then
character by character, they are ordered as the numbers they stand for. -/
namespace DueServer.Lib

open Nat (toDigits ofDigitChars)
open List

theorem digit_toNat {c : Char} (h : c.isDigit = true) : 48 ≤ c.toNat ∧ c.toNat ≤ 57 := by
  simp only [Char.isDigit, Bool.and_eq_true, decide_eq_true_eq] at h
  obtain ⟨h1, h2⟩ := h
  exact ⟨UInt32.le_iff_toNat_le.mp h1, UInt32.le_iff_toNat_le.mp h2⟩

theorem char_lt_iff_toNat {c d : Char} : c < d ↔ c.toNat < d.toNat :=
  UInt32.lt_iff_toNat_lt

theorem ofDigitChars_cons_zero (c : Char) (l : List Char) :
    ofDigitChars 10 (c :: l) 0 = 10 ^ l.length * (c.toNat - 48) + ofDigitChars 10 l 0 := by
  have h0 : '0'.toNat = 48 := rfl
  rw [Nat.ofDigitChars_cons, Nat.ofDigitChars_eq_ofDigitChars_zero, h0,
    Nat.zero_add]

theorem ofDigitChars_lt_pow {l : List Char} (h : ∀ c ∈ l, c.isDigit = true) :
    ofDigitChars 10 l 0 < 10 ^ l.length := by
  induction l with
  | nil => simp
  | cons c l ih =>
    have hc := digit_toNat (h c mem_cons_self)
    have hl := ih fun d hd => h d (mem_cons_of_mem c hd)
    have hmul : 10 ^ l.length * (c.toNat - 48) ≤ 10 ^ l.length * 9 :=
      Nat.mul_le_mul_left _ (by omega)
    rw [ofDigitChars_cons_zero, length_cons]
    omega

theorem digits_lt_iff {l m : List Char} (hl : ∀ c ∈ l, c.isDigit = true)
    (hm : ∀ c ∈ m, c.isDigit = true) (hlen : l.length = m.length) :
    l < m ↔ ofDigitChars 10 l 0 < ofDigitChars 10 m 0 := by
  induction l generalizing m with
  | nil =>
    have hm0 : m = [] := length_eq_zero_iff.mp hlen.symm
    subst hm0
    simp
  | cons c l ih =>
    rcases m with _ | ⟨d, m⟩
    · cases hlen
    have hlen' : l.length = m.length := Nat.succ.inj hlen
    have hc := digit_toNat (hl c mem_cons_self)
    have hd := digit_toNat (hm d mem_cons_self)
    have hl' := fun x hx => hl x (mem_cons_of_mem c hx)
    have hm' := fun x hx => hm x (mem_cons_of_mem d hx)
    have hlow := ofDigitChars_lt_pow hl'
    have hlow' := ofDigitChars_lt_pow hm'
    rw [cons_lt_cons_iff, ih hl' hm' hlen', char_lt_iff_toNat, ofDigitChars_cons_zero,
      ofDigitChars_cons_zero, ← hlen']
    rw [← hlen'] at hlow'
    -- the leading digit decides unless the two are equal
    rcases Nat.lt_trichotomy c.toNat d.toNat with h | h | h
    · have hmul : 10 ^ l.length * ((c.toNat - 48) + 1) ≤
          10 ^ l.length * (d.toNat - 48) :=
        Nat.mul_le_mul_left _ (by omega)
      rw [Nat.mul_add] at hmul
      constructor
      · intro _
        omega
      · intro _
        exact .inl h
    · have hcd : c = d := Char.ext (UInt32.toNat_inj.mp h)
      subst hcd
      simp
    · have hmul : 10 ^ l.length * ((d.toNat - 48) + 1) ≤
          10 ^ l.length * (c.toNat - 48) :=
        Nat.mul_le_mul_left _ (by omega)
      rw [Nat.mul_add] at hmul
      constructor
      · rintro (h' | ⟨rfl, -⟩)
        · omega
        · omega
      · intro h'
        omega

theorem toDigits_isDigit (n : ℕ) : ∀ c ∈ toDigits 10 n, c.isDigit = true :=
  fun _ h => Nat.isDigit_of_mem_toDigits (by decide) (by decide) h

theorem toDigits_injective {a b : ℕ} (h : toDigits 10 a = toDigits 10 b) : a = b := by
  rw [← Nat.ofDigitChars_ten_toDigits (n := a), h, Nat.ofDigitChars_ten_toDigits]

theorem lt_of_toDigits_length_lt {a b : ℕ}
    (h : (toDigits 10 a).length < (toDigits 10 b).length) : a < b := by
  have hpos : 0 < (toDigits 10 a).length := Nat.length_toDigits_pos
  have ha := (Nat.length_toDigits_le_iff (by decide : 1 < 10) hpos).mp le_rfl
  have hb : ¬ b < 10 ^ (toDigits 10 a).length := fun hlt =>
    absurd ((Nat.length_toDigits_le_iff (by decide : 1 < 10) hpos).mpr hlt) (not_le.mpr h)
  omega

theorem toDigits_lt_iff {a b : ℕ} (hlen : (toDigits 10 a).length = (toDigits 10 b).length) :
    toDigits 10 a < toDigits 10 b ↔ a < b := by
  rw [digits_lt_iff (toDigits_isDigit a) (toDigits_isDigit b) hlen,
    Nat.ofDigitChars_ten_toDigits, Nat.ofDigitChars_ten_toDigits]

theorem toDigits_head_ne_zero {n : ℕ} (h : 0 < n) : (toDigits 10 n).head? ≠ some '0' := by
  induction n using Nat.strong_induction_on with
  | _ n ih =>
    rw [Nat.toDigits_eq_if (by decide)]
    split
    · simp only [head?_cons, ne_eq, Option.some.injEq, Nat.digitChar_eq_zero]
      omega
    have hd := ih (n / 10) (by omega) (by omega)
    rcases hl : toDigits 10 (n / 10) with _ | ⟨c, l⟩
    · exact absurd hl Nat.toDigits_ne_nil
    rw [hl] at hd
    simpa using hd

end DueServer.Lib
