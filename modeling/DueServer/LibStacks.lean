import Mathlib.Data.List.Perm.Basic

/-! Goroutines as call stacks of which one moves at a time, by its top frame: what the move does to
the frames of all of them, up to their order. -/
namespace DueServer.Lib

open List

structure Thread (ρ α : Type) where
  role : ρ
  stack : List α
deriving DecidableEq

variable {ρ α : Type}

def frames (ts : List (Thread ρ α)) : List α := ts.flatMap Thread.stack

theorem frames_append (ts ts' : List (Thread ρ α)) : frames (ts ++ ts') = frames ts ++ frames ts' :=
  flatMap_append

theorem frames_singletons (r : ρ) (fs : List α) : frames (fs.map fun f => ⟨r, [f]⟩) = fs := by
  induction fs with
  | nil => rfl
  | cons f fs ih => exact congrArg (f :: ·) ih

theorem mem_frames {ts : List (Thread ρ α)} {f : α} :
    f ∈ frames ts ↔ ∃ t ∈ ts, f ∈ t.stack := mem_flatMap

theorem frames_set {ts : List (Thread ρ α)} {i : ℕ} {t : Thread ρ α} (old rest : List α)
    (h : ts[i]? = some t) (hstk : t.stack = old ++ rest) :
    ∃ others, (frames ts).Perm (old ++ others) ∧ ∀ new : List α,
      (frames (ts.set i ⟨t.role, new ++ rest⟩)).Perm (new ++ others) := by
  induction ts generalizing i with
  | nil => cases h
  | cons u ts ih =>
    cases i with
    | zero =>
      cases h
      refine ⟨rest ++ frames ts, ?_, fun new => ?_⟩
      · simp only [frames, flatMap_cons, hstk, append_assoc]
        exact Perm.refl _
      · simp only [set_cons_zero, frames, flatMap_cons, append_assoc]
        exact Perm.refl _
    | succ i =>
      -- the frames of the first goroutine stand in front on both sides
      obtain ⟨others, hbef, haft⟩ := ih h
      refine ⟨u.stack ++ others, ?_, fun new => ?_⟩
      · exact (hbef.append_left u.stack).trans (perm_append_comm_assoc _ _ _)
      · exact ((haft new).append_left u.stack).trans (perm_append_comm_assoc _ _ _)

end DueServer.Lib
