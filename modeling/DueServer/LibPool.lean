import Mathlib.Algebra.Order.BigOperators.Group.List
import Mathlib.Algebra.Order.Ring.Nat

/-! A list of processes of which one moves at a time: what the move does to a total over all of
them. -/
namespace DueServer.Lib

open List

variable {α M : Type*} [AddCommMonoid M]

theorem sum_map_set (f : α → M) (y : α) : ∀ {l : List α} {i : ℕ} {x : α}, l[i]? = some x →
    ((l.set i y).map f).sum + f x = (l.map f).sum + f y := by
  intro l
  induction l with
  | nil =>
    intro i x h
    cases h
  | cons a l ih =>
    intro i x h
    cases i with
    | zero =>
      cases h
      simp only [set_cons_zero, map_cons, sum_cons]
      rw [add_right_comm, add_comm (f y), add_right_comm]
    | succ i =>
      have htail := ih h
      simp only [set_cons_succ, map_cons, sum_cons]
      rw [add_assoc, htail, ← add_assoc]

variable {f : α → ℕ} {limit i : ℕ} {l : List α} {x : α}

theorem sum_map_lt (hle : ∀ x ∈ l, f x ≤ limit)
    (hlt : ∃ x ∈ l, f x < limit) : (l.map f).sum < l.length * limit := by
  have hsum := sum_lt_sum f (fun _ => limit) hle hlt
  rwa [map_const', sum_replicate] at hsum

theorem sum_map_eq (h : ∀ x ∈ l, f x = limit) : (l.map f).sum = l.length * limit := by
  rw [map_congr_left h, map_const', sum_replicate, Nat.nsmul_eq_mul]

def replaceAt (l : List α) (i : ℕ) (new : List α) : List α := l.take i ++ new ++ l.drop (i + 1)

theorem replaceAt_perm (h : l[i]? = some x) :
    ∃ others, l.Perm (x :: others) ∧ ∀ new, (replaceAt l i new).Perm (new ++ others) := by
  obtain ⟨hi, rfl⟩ := List.getElem?_eq_some_iff.mp h
  refine ⟨l.take i ++ l.drop (i + 1), ?_, fun new => ?_⟩
  · have hsp : l = l.take i ++ l[i] :: l.drop (i + 1) := by
      rw [← drop_eq_getElem_cons hi, take_append_drop]
    exact (List.Perm.of_eq hsp).trans perm_middle
  · rw [← append_assoc]
    exact perm_append_comm.append_right _

theorem replaceAt_singleton (h : l[i]? = some x) (y : α) : replaceAt l i [y] = l.set i y := by
  obtain ⟨hi, _⟩ := List.getElem?_eq_some_iff.mp h
  rw [replaceAt, set_eq_take_append_cons_drop, if_pos hi, append_assoc]
  rfl

theorem getElem?_replaceAt (h : l[i]? = some x) (y : α) (j : ℕ) :
    (replaceAt l i [y])[j]? = if i = j then some y else l[j]? := by
  obtain ⟨hi, _⟩ := List.getElem?_eq_some_iff.mp h
  rw [replaceAt_singleton h, getElem?_set, if_pos hi]

end DueServer.Lib
