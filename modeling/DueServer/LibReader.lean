import Mathlib.Data.List.Basic

/-! Fallible computations with one error that must not happen, byte streams with the reads of
Go's `io` package, and reading a concatenation of messages one by one. -/
namespace DueServer.Lib

open List

section Safe

variable {ε α β : Type} {bad : ε} {m : Except ε α} {Q : α → Prop}

/-- `m` does not fail with `bad`, and a value it returns satisfies `Q`. -/
def Safe (bad : ε) (m : Except ε α) (Q : α → Prop) : Prop :=
  match m with
  | .error e => e ≠ bad
  | .ok a => Q a

@[simp] theorem safe_ok {a : α} : Safe bad (.ok a) Q ↔ Q a := Iff.rfl

@[simp] theorem safe_pure {a : α} : Safe bad (pure a) Q ↔ Q a := Iff.rfl

theorem safe_bind {f : α → Except ε β} {Q : β → Prop} :
    Safe bad (m >>= f) Q ↔ Safe bad m fun a => Safe bad (f a) Q := by
  cases m with
  | error e | ok a => exact Iff.rfl

theorem Safe.mono {Q' : α → Prop} (h : Safe bad m Q) (hQ : ∀ a, Q a → Q' a) : Safe bad m Q' := by
  cases m with
  | error e => exact h
  | ok a => exact hQ a h

theorem safe_ite {p : Prop} [Decidable p] {m' : Except ε α} :
    Safe bad (if p then m else m') Q ↔ (p → Safe bad m Q) ∧ (¬ p → Safe bad m' Q) := by
  split
  · rename_i h
    exact ⟨fun hm => ⟨fun _ => hm, fun hn => absurd h hn⟩, fun hm => hm.1 h⟩
  rename_i h
  exact ⟨fun hm => ⟨fun hp => absurd hp h, fun _ => hm⟩, fun hm => hm.2 h⟩

end Safe

inductive StreamErr where
  | eof
  | unexpectedEOF
  | broken
deriving DecidableEq

structure Stream where
  bytes : List UInt8
  fin : StreamErr
deriving DecidableEq

namespace Stream

def endErr (s : Stream) : StreamErr :=
  if s.fin = .eof ∧ s.bytes ≠ [] then .unexpectedEOF else s.fin

/-- `io.ReadFull` into a buffer of `n` bytes. -/
def readFull (n : ℕ) (s : Stream) : Except StreamErr (List UInt8 × Stream) :=
  if n ≤ s.bytes.length then .ok (s.bytes.take n, ⟨s.bytes.drop n, s.fin⟩) else .error s.endErr

end Stream

section ReadN

variable {ε α β : Type} (read : Stream → Except ε (α × Stream))

/-- `n` calls in a row on one stream. -/
def readN : ℕ → Stream → Except ε (List α × Stream)
  | 0, s => .ok ([], s)
  | n + 1, s => do
    let (a, s) ← read s
    let (as, s) ← readN n s
    return (a :: as, s)

variable {read} {enc : β → List UInt8} {out : β → α} {good : β → Prop}

theorem readN_cons {n : ℕ} {s s' : Stream} {a : α} {as : List α}
    (h : readN read (n + 1) s = .ok (a :: as, s')) :
    ∃ t, read s = .ok (a, t) ∧ readN read n t = .ok (as, s') := by
  simp only [readN, bind, Except.bind] at h
  split at h
  · cases h
  rename_i p hp
  split at h
  · cases h
  rename_i q hq
  cases h
  exact ⟨p.2, hp, hq⟩

theorem readN_concat (xs : List β) (rest : List UInt8) (fin : StreamErr)
    (hgood : ∀ x ∈ xs, ∀ rest fin, read ⟨enc x ++ rest, fin⟩ = .ok (out x, ⟨rest, fin⟩)) :
    readN read xs.length ⟨xs.flatMap enc ++ rest, fin⟩ = .ok (xs.map out, ⟨rest, fin⟩) := by
  induction xs with
  | nil => rfl
  | cons x xs ih =>
    have hx := hgood x mem_cons_self (xs.flatMap enc ++ rest) fin
    have hxs := ih fun y hy => hgood y (mem_cons_of_mem x hy)
    rw [flatMap_cons, append_assoc, length_cons, readN, hx]
    simp only [bind, Except.bind, hxs]
    rfl

/-- The calls return the messages of a concatenation exactly if each message is read back in
front of whatever follows it. -/
theorem readN_concat_iff (xs : List β) (rest : List UInt8) (fin : StreamErr)
    (hgood : ∀ x, good x → ∀ rest fin, read ⟨enc x ++ rest, fin⟩ = .ok (out x, ⟨rest, fin⟩))
    (hbad : ∀ x, ¬ good x → ∀ rest fin t, read ⟨enc x ++ rest, fin⟩ ≠ .ok (out x, t)) :
    readN read xs.length ⟨xs.flatMap enc ++ rest, fin⟩ = .ok (xs.map out, ⟨rest, fin⟩) ↔
      ∀ x ∈ xs, good x := by
  constructor
  · intro h
    induction xs with
    | nil => simp
    | cons x xs ih =>
      rw [flatMap_cons, append_assoc] at h
      obtain ⟨t, hx, hxs⟩ := readN_cons h
      -- the first message was returned, so it is a good one and the rest starts after it
      have hg : good x := by
        by_contra hn
        exact hbad x hn _ _ _ hx
      rw [hgood x hg] at hx
      cases hx
      intro y hy
      rcases mem_cons.mp hy with rfl | hy
      · exact hg
      · exact ih hxs y hy
  · intro h
    exact readN_concat xs rest fin fun x hx => hgood x (h x hx)

end ReadN

end DueServer.Lib
