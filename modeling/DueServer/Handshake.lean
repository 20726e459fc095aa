import DueServer.ClientCallSteps
import Mathlib.Algebra.Group.Nat.Defs
import Mathlib.Data.List.Induction
import Mathlib.Logic.Function.Iterate

/-! The pending table of a transporter `conn` (`internal/transporter/internal/client`), which the
handshakes of its reconnections share with the calls of the gate or node client. -/
namespace DueServer.Client.Handshake

open Function (update comp_update)

inductive Owner where
  | handshake (n : ℕ)
  | call (c : ℕ)
deriving DecidableEq

/-- `doGenSequence`: zero is left out. -/
def doGenSequence (seq : UInt64) : UInt64 := if seq + 1 ≠ 0 then seq + 1 else seq + 1 + 1

/-- The number of the handshakes, and that of the `c`-th call of a client. -/
def Owner.seq : Owner → UInt64
  | handshake _ => 1
  | call c => doGenSequence^[c + 1] 0

theorem doGenSequence_toNat (seq : UInt64) (h : seq ≠ 0) :
    (doGenSequence seq).toNat = seq.toNat % (2 ^ 64 - 1) + 1 := by
  have hlt := seq.toNat_lt
  have hpos : seq.toNat ≠ 0 := fun h0 => h (UInt64.toNat_inj.mp h0)
  have hadd : (seq + 1).toNat = (seq.toNat + 1) % 2 ^ 64 := UInt64.toNat_add ..
  rw [doGenSequence]
  split_ifs with hseq
  · have hne : (seq + 1).toNat ≠ 0 := fun h0 => hseq (UInt64.toNat_inj.mp h0)
    omega
  · rw [not_not.mp hseq] at hadd ⊢
    change 0 = _ at hadd
    change 1 = _
    omega

theorem call_seq (c : ℕ) : (Owner.call c).seq.toNat = c % (2 ^ 64 - 1) + 1 := by
  induction c with
  | zero => decide
  | succ c ih =>
    have hne : (Owner.call c).seq ≠ 0 := fun h0 => by
      rw [h0] at ih
      cases ih
    rw [Owner.seq, Function.iterate_succ_apply', ← Owner.seq, doGenSequence_toNat _ hne, ih]
    omega

/-- The first call has the number of the handshakes, and so has every call `2 ^ 64 - 1` later. -/
theorem call_seq_eq_one_iff (c : ℕ) : (Owner.call c).seq = 1 ↔ c % (2 ^ 64 - 1) = 0 := by
  rw [← UInt64.toNat_inj, call_seq]
  exact Nat.succ_inj

/-- What is done to the table: `store` before the request is written, `delete` when that fails or by
`cancel`, and `extract` for a response. Each may come at any time. -/
inductive Act where
  | store (o : Owner)
  | delete (o : Owner)
  | extract (seq : UInt64)
deriving DecidableEq

abbrev Table := UInt64 → Option Owner

def Table.next (t : Table) : Act → Table
  | .store o => update t o.seq (some o)
  | .delete o => update t o.seq none
  | .extract seq => update t seq none

def Table.after (acts : List Act) : Table := acts.foldl next fun _ => none

/-- The table of a connection with calls alone. -/
def Table.ofCalls (s : Conn ℕ) : Table := Option.map .call ∘ s.pending

theorem Table.next_of_move {s s' : Conn ℕ} {act : Action ℕ}
    (h : s.Move (fun c => (Owner.call c).seq) act s') :
    ofCalls s' = ofCalls s ∨ ∃ act, ofCalls s' = (ofCalls s).next act := by
  cases h with
  | caller c h =>
    cases h
    case delete => exact .inr ⟨.delete (.call c), comp_update ..⟩
    all_goals exact .inl rfl
  | writer t ok h =>
    cases h
    case store e c _ => exact .inr ⟨.store (.call c), comp_update ..⟩
    case delete c _ => exact .inr ⟨.delete (.call c), comp_update ..⟩
    all_goals exact .inl rfl
  | reader b h =>
    cases h
    case extract seq _ _ _ _ => exact .inr ⟨.extract seq, comp_update ..⟩
    all_goals exact .inl rfl
  | _ => exact .inl rfl

theorem Table.ofCalls_of_reaches {acts : List (Action ℕ)} {s : Conn ℕ}
    (h : Reaches (fun c => (Owner.call c).seq) acts s) : ∃ acts, ofCalls s = after acts := by
  refine Conn.run_invariant (fun s => ∃ acts, ofCalls s = after acts) ⟨[], rfl⟩ ?_ h
  rintro s act s' ⟨acts, hs⟩ - hmove
  obtain heq | ⟨act, heq⟩ := next_of_move hmove
  · exact ⟨acts, heq.trans hs⟩
  · exact ⟨acts ++ [act], by rw [after, List.foldl_concat, ← after, heq, hs]⟩

/-- A handshake does not touch the entry of a call, nor does the end of a call touch that of a
handshake. -/
def Table.Apart (t : Table) : Act → Prop
  | .store (.handshake _) | .delete (.handshake _) => ∀ c, t 1 ≠ some (.call c)
  | .delete (.call c) => ∀ n, t (Owner.call c).seq ≠ some (.handshake n)
  | _ => True

/-- The act is not one of a call that has the number of the handshakes. -/
def Act.free : Act → Prop
  | .store (.call c) | .delete (.call c) => (Owner.call c).seq ≠ 1
  | _ => True

theorem Table.after_spec {acts : List Act} (hfree : ∀ act ∈ acts, act.free)
    {seq : UInt64} {o : Owner}
    (h : Table.after acts seq = some o) : o.seq = seq ∧ (Act.store o).free := by
  induction acts using List.reverseRecOn with
  | nil => cases h
  | append_singleton acts act ih =>
    rw [List.forall_mem_append] at hfree
    have hact := hfree.2 act (List.mem_singleton_self act)
    rw [Table.after, List.foldl_concat, ← Table.after] at h
    -- the entry is the one that is stored now, or it was there before
    have hent : act = .store o ∧ o.seq = seq ∨ Table.after acts seq = some o := by
      cases act with
      | store o' =>
        by_cases hseq : seq = o'.seq
        · rw [Table.next, hseq, Function.update_self] at h
          cases h
          exact .inl ⟨rfl, hseq.symm⟩
        rw [Table.next, Function.update_of_ne hseq] at h
        exact .inr h
      | delete | extract =>
        simp only [Table.next, Function.update_apply] at h
        split_ifs at h
        exact .inr h
    rcases hent with ⟨rfl, hseq⟩ | hbef
    · exact ⟨hseq, hact⟩
    · exact ih hfree.1 hbef

/-- As long as no call has the number of the handshakes, the two are apart. -/
theorem apart_of_free (acts : List Act) (act : Act) (hfree : ∀ act ∈ acts, act.free)
    (hact : act.free) :
    (Table.after acts).Apart act := by
  have hcall (c : ℕ) : Table.after acts 1 ≠ some (.call c) := by
    intro hc
    obtain ⟨hseq, hne⟩ := Table.after_spec hfree hc
    exact hne hseq
  match act with
  | .extract _ | .store (.call _) => trivial
  | .store (.handshake _) | .delete (.handshake _) => exact hcall
  | .delete (.call c) =>
    intro n hn
    exact hact (Table.after_spec hfree hn).1.symm

theorem second_call_apart : (Table.after [.store (.call 1)]).Apart (.store (.handshake 1)) :=
  apart_of_free [.store (.call 1)] (.store (.handshake 1))
    (by simp [Act.free, Owner.seq]; decide) trivial

/-- The first call of a client has it, and its entry is lost by a reconnection. -/
theorem first_call_overwritten : ¬(Table.after [.store (.call 0)]).Apart (.store (.handshake 1)) :=
  fun h => h 0 (by decide)

end DueServer.Client.Handshake
