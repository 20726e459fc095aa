import Mathlib.Data.Nat.Find
import Mathlib.Data.PNat.Basic

/-! `Maker.acquire` of `lock/redis/maker.go` and `lock/memcache/maker.go`, with `acquireMaxRetries`
set. -/
namespace DueServer.LockAcquire

/-- What `SetArgs` returns. -/
inductive SetReply where
  | val (text : String)
  | nil
  | err (text : String)

/-- What `Add` returns. -/
inductive AddReply where
  | stored
  | notStored
  | err (text : String)

inductive Attempt where
  | set
  | held
  | failed (text : String)
deriving DecidableEq

def SetReply.attempt : SetReply → Attempt
  | err text => .failed text
  | val text => if text = "OK" then .set else .held
  | nil => .held

def AddReply.attempt : AddReply → Attempt
  | stored => .set
  | notStored => .held
  | err text => .failed text

inductive Result where
  | ok
  | deadlineExceeded
  | err (text : String)
deriving DecidableEq

section

variable (n : ℕ+) (attempts : ℕ → Attempt)

/-- The result of the loop and the number of attempts. -/
def acquireFrom (retries : ℕ) : Result × ℕ :=
  match attempts retries with
  | .set => (.ok, retries + 1)
  | .failed text => (.err text, retries + 1)
  | .held => if retries > n then (.deadlineExceeded, retries + 1) else acquireFrom (retries + 1)
termination_by n + 1 - retries

def acquire : Result × ℕ := acquireFrom n attempts 0

structure Limited : Prop where
  le : (acquire n attempts).2 ≤ n + 1
  ok : (acquire n attempts).1 = .ok ↔ ∃ i < (acquire n attempts).2, attempts i = .set
  deadline : (acquire n attempts).1 = .deadlineExceeded ↔ ∀ i < (n + 1 : ℕ), attempts i = .held

variable {n attempts}

theorem acquire_of_held {k : ℕ} (hk : k ≤ n + 1) (hheld : ∀ i < k, attempts i = .held) :
    acquire n attempts = acquireFrom n attempts k := by
  induction k with
  | zero => rfl
  | succ k ih =>
    rw [ih (by omega) fun i hi => hheld i (by omega), acquireFrom, hheld k (by omega)]
    exact if_neg (by omega)

theorem limited_iff : Limited n attempts ↔ ∃ i < (n + 1 : ℕ), attempts i ≠ .held := by
  constructor
  · intro h
    by_contra hnone
    push Not at hnone
    have hle := h.le
    -- there is an attempt more, whatever it finds
    rw [acquire_of_held le_rfl hnone, acquireFrom] at hle
    split at hle <;> simp at hle
  · intro hsome
    obtain ⟨hlt, hends⟩ := Nat.find_spec hsome
    have hheld : ∀ i < Nat.find hsome, attempts i = .held := by
      intro i hi
      have hmin := Nat.find_min hsome hi
      push Not at hmin
      exact hmin (by omega)
    have heq := acquire_of_held (Nat.le_of_lt hlt) hheld
    generalize Nat.find hsome = k at *
    have hall : ¬ ∀ i < (n + 1 : ℕ), attempts i = .held := fun h => hends (h k hlt)
    rw [acquireFrom] at heq
    cases hk : attempts k with
    | held => exact absurd hk hends
    | set =>
      rw [hk] at heq
      refine ⟨by rw [heq]; exact hlt, ?_, iff_of_false (by simp [heq]) hall⟩
      simp only [heq, true_iff]
      exact ⟨k, Nat.lt_succ_self k, hk⟩
    | failed text =>
      rw [hk] at heq
      refine ⟨by rw [heq]; exact hlt, ?_, iff_of_false (by simp [heq]) hall⟩
      simp only [heq, reduceCtorEq, false_iff]
      rintro ⟨i, hi, hset⟩
      rcases Nat.lt_succ_iff_lt_or_eq.mp hi with hi | rfl
      · rw [hheld i hi] at hset
        cases hset
      rw [hk] at hset
      cases hset

end

/-- Both keep to the limit unless the key is held at each of the first `n + 1` attempts. -/
theorem acquire_limited_iff (n : ℕ+) (replies : ℕ → SetReply) (added : ℕ → AddReply) :
    (Limited n (fun i => (replies i).attempt) ↔ ∃ i < (n + 1 : ℕ), (replies i).attempt ≠ .held) ∧
      (Limited n (fun i => (added i).attempt) ↔ ∃ i < (n + 1 : ℕ), (added i).attempt ≠ .held) :=
  ⟨limited_iff, limited_iff⟩

/-- With one retry there are three attempts. -/
theorem one_retry_three_attempts : acquire 1 (fun _ => SetReply.nil.attempt) =
    (.deadlineExceeded, 3) ∧
    acquire 1 (fun _ => AddReply.notStored.attempt) = (.deadlineExceeded, 3) := by
  simp [acquire, acquireFrom, SetReply.attempt, AddReply.attempt]

end DueServer.LockAcquire
