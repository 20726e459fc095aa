import DueServer.LibTransition
import Mathlib.Data.List.Nodup
import Mathlib.Data.Nat.Log

/-! The pools of byte blocks (`core/buffer/bytes_pool.go`, `core/buffer/bytes.go`) over all
sequences of `Get` and `Release`. A `sync.Pool` may hand out any of the objects put into it, or make
one. -/
namespace DueServer.BytesPool

open Lib Function List

/-- The blocks by reference, with the grade of their pool and their `off`; `free` has a block as
often as it was put back, and `held` are those returned by `Get` and not yet released, with the
length asked for. -/
structure State where
  made : ℕ
  grade : ℕ → ℕ
  off : ℕ → ℕ
  free : List ℕ
  held : List (ℕ × ℕ)

/-- `pick` is the object that the pool hands out, if it makes none. A `Get` of no bytes panics. -/
inductive Act where
  | get (cap : ℕ) (pick : Option ℕ)
  | release (block : ℕ × ℕ)
deriving DecidableEq

namespace State

def init : State := ⟨0, fun _ => 0, fun _ => 0, [], []⟩

variable (grade : ℕ) (s : State)

/-- `getPool` of a `BytesPool` with grades up to `grade`. -/
def getPool (cap : ℕ) : ℕ := min (Nat.clog 2 cap) grade

def next : Act → Option State
  | .get 0 _ => none
  | .get cap none => some
    { s with
      made := s.made + 1
      grade := update s.grade s.made (getPool grade cap)
      off := update s.off s.made cap
      held := (s.made, cap) :: s.held }
  | .get cap (some b) =>
    if b ∈ s.free ∧ s.grade b = getPool grade cap then some
      { s with
        off := update s.off b cap
        free := s.free.erase b
        held := (b, cap) :: s.held }
    else none
  | .release block =>
    -- `released` is neither set nor looked at
    if block.1 < s.made then some
      { s with
        off := update s.off block.1 0
        free := block.1 :: s.free
        held := s.held.erase block }
    else none

def step (act : Act) : Option (State × Act) := (s.next grade act).map (·, act)

/-- A block is released only by the call that holds it. -/
def once : Act → Bool
  | .release block => block ∈ s.held
  | _ => true

structure Exclusive : Prop where
  nodup : (s.held.map Prod.fst).Nodup
  len : ∀ block ∈ s.held, s.off block.1 = block.2

structure Inv : Prop where
  nodup : (s.held.map Prod.fst ++ s.free).Nodup
  made : ∀ b ∈ s.held.map Prod.fst ++ s.free, b < s.made
  len : ∀ block ∈ s.held, s.off block.1 = block.2

variable {grade s} {s' : State} {act : Act}

theorem inv_next (h : s.Inv) (hact : s.once act = true) (hnext : s.next grade act = some s') :
    s'.Inv := by
  obtain ⟨hnd, hmade, hlen⟩ := h
  -- writing to a block changes no length of the others
  have hkept {held : List (ℕ × ℕ)} {b n : ℕ} (hsub : held ⊆ s.held)
      (hne : b ∉ held.map Prod.fst) : ∀ block ∈ held, update s.off b n block.1 = block.2 := by
    intro block hblo
    have hb : block.1 ≠ b := fun heq => hne (heq ▸ mem_map_of_mem hblo)
    rw [update_of_ne hb]
    exact hlen block (hsub hblo)
  rcases act with ⟨_ | cap, _ | b⟩ | block
  · cases hnext
  · cases hnext
  · cases hnext
    have hnew : s.made ∉ s.held.map Prod.fst ++ s.free := fun hmem => lt_irrefl _ (hmade _ hmem)
    refine ⟨nodup_cons.mpr ⟨hnew, hnd⟩, ?_, ?_⟩
    · exact forall_mem_cons.mpr
        ⟨Nat.lt_succ_self _, fun b hb => Nat.lt_succ_of_lt (hmade b hb)⟩
    · refine forall_mem_cons.mpr ⟨update_self .., hkept (List.Subset.refl _) ?_⟩
      exact fun hmem => hnew (mem_append_left _ hmem)
  · simp only [next, Option.ite_none_right_eq_some] at hnext
    obtain ⟨⟨hfree, -⟩, hnext⟩ := hnext
    cases hnext
    have hperm := ((perm_cons_erase hfree).append_left (s.held.map Prod.fst)).trans
      perm_middle
    have hnew := (nodup_cons.mp (hperm.nodup_iff.mp hnd)).1
    refine ⟨hperm.nodup_iff.mp hnd, fun b hb => hmade b (hperm.mem_iff.mpr hb), ?_⟩
    refine forall_mem_cons.mpr ⟨update_self .., hkept (List.Subset.refl _) ?_⟩
    exact fun hmem => hnew (mem_append_left _ hmem)
  · simp only [next, Option.ite_none_right_eq_some] at hnext
    obtain ⟨-, hnext⟩ := hnext
    cases hnext
    have hheld := perm_cons_erase (of_decide_eq_true hact)
    have hperm := ((hheld.map Prod.fst).append_right s.free).trans perm_middle.symm
    have hnew := (nodup_cons.mp ((hheld.map Prod.fst).nodup_iff.mp hnd.of_append_left)).1
    refine ⟨hperm.nodup_iff.mp hnd, fun b hb => hmade b (hperm.mem_iff.mpr hb), ?_⟩
    exact hkept (erase_subset ..) hnew

end State

/-- If every block is released only by the call that holds it, no two calls hold the same block, and
each has the length it asked for. -/
theorem exclusive_of_once (grade : ℕ) (acts : List Act) (s : State)
    (h : Run (guardedRel (State.step grade) State.once) State.init acts s) : s.Exclusive := by
  have hinv : s.Inv := run_states State.Inv ⟨by decide, by decide, by decide⟩
    (fun s act s' hs hact hnext => State.inv_next hs hact hnext) h
  exact ⟨hinv.nodup.of_append_left, hinv.len⟩

def reused : List Act := [.get 4 none, .get 9 none, .release (0, 4), .get 3 (some 0)]

theorem reused_isSome : (exec (State.step 32) State.once State.init reused).isSome = true := rfl

theorem reused_exclusive :
    let s := ((exec (State.step 32) State.once State.init reused).get reused_isSome).2
    s.held = [(0, 3), (1, 9)] ∧ s.Exclusive :=
  ⟨by decide +kernel, exclusive_of_once 32 _ _ (run_of_exec _ reused_isSome)⟩

def releasedTwice : List Act :=
  [.get 4 none, .release (0, 4), .release (0, 4), .get 4 (some 0), .get 3 (some 0)]

theorem releasedTwice_isSome :
    (exec (State.step 32) (fun _ _ => true) State.init releasedTwice).isSome = true := rfl

/-- Two calls write into one block, and the first has lost a byte. -/
theorem released_twice_shared :
    let s := ((exec (State.step 32) (fun _ _ => true) State.init releasedTwice).get
      releasedTwice_isSome).2
    s.held = [(0, 3), (0, 4)] ∧ s.off 0 = 3 ∧ ¬s.Exclusive := by
  refine ⟨by decide +kernel, by decide +kernel, fun h => ?_⟩
  exact absurd h.nodup (by decide +kernel)

end DueServer.BytesPool
