import DueServer.ClientConnModel

/-! What a step of a goroutine of a `conn` can do, and the write lock. -/
namespace DueServer.Client

open Function (update update_self update_of_ne)
open Option

namespace Pc

def Loop : Pc → Prop
  | .readLoop | .reading | .writeLoop | .selecting _ | .beating => True
  | _ => False

def Announced : Pc → Prop
  | .acquiring | .checking | .dialing | .setting | .opening | .handshaking | .closing _
  | .closeCancelling _ | .notifying _ | .unlocking _ => True
  | _ => False

theorem Loop.not_announced {pc : Pc} (h : pc.Loop) : ¬ pc.Announced := by
  cases pc <;> first | exact h.elim | exact id

def Active (pc : Pc) : Prop := pc ≠ .absent ∧ pc ≠ .returned

instance (pc : Pc) : Decidable pc.Active := inferInstanceAs (Decidable (_ ∧ _))

end Pc

namespace Shared

variable {s : Shared} {g : Gor} {pc : Pc} {choice : Choice} {r : Stepped}

inductive ConnMove (s : Shared) (n : ℕ) : Pc → Stepped → Prop where
  | loop {pc pc' : Pc} (hfrom : pc.Loop) (hto : pc'.Loop ∨ pc' = .swapping ∨ pc' = .returned) :
      ConnMove s n pc ⟨s, pc', none⟩
  | take (ctx : ℕ) (h : 0 < s.queued) :
      ConnMove s n (.selecting ctx) ⟨{ s with queued := s.queued - 1 }, .writing s.cur, none⟩
  | write (taken : ℕ) {pc' : Pc} (hto : pc'.Loop ∨ pc' = .swapping) :
      ConnMove s n (.writing taken) ⟨s.log (.wrote n taken), pc', none⟩
  | skip (taken : ℕ) : ConnMove s n (.writing taken) ⟨s, .writeLoop, none⟩
  | hang (h : s.state = .opened) :
      ConnMove s n .swapping
        ⟨{ s with state := .hanged }.log (.left (some n) s.cur), .cancelling, none⟩
  | giveUp (h : s.state ≠ .opened) : ConnMove s n .swapping ⟨s, .returned, none⟩
  | cancel : ConnMove s n .cancelling ⟨s.cancel (some n), .locking, none⟩

inductive DialMove (s : Shared) (g : Gor) : Pc → Stepped → Prop where
  | lock (h : s.writer = none) :
      DialMove s g .locking ⟨{ s with writer := some g }, .acquiring, none⟩
  | acquire (h : s.readers = []) : DialMove s g .acquiring ⟨s, .checking, none⟩
  | opened (h : s.state = .opened) : DialMove s g .checking ⟨s, .unlocking true, none⟩
  | redial (h : s.state ≠ .opened) : DialMove s g .checking ⟨s, .dialing, none⟩
  | dialed : DialMove s g .dialing ⟨s, .setting, none⟩
  | refused : DialMove s g .dialing ⟨s, .closing g.conn, none⟩
  | set : DialMove s g .setting ⟨{ s with cur := s.cur + 1 }, .opening, none⟩
  | opens :
      DialMove s g .opening
        ⟨{ s with state := .opened }, .handshaking, some (.reader s.cur, .readLoop)⟩
  | shaken : DialMove s g .handshaking ⟨s, .notifying true, some (.writer s.cur, .writeLoop)⟩
  | unshaken : DialMove s g .handshaking ⟨s, .closing (some s.cur), none⟩
  | close (observed : Option ℕ) (h : s.state = .opened) :
      DialMove s g (.closing observed)
        ⟨{ s with state := .closed }.log (.left observed s.cur), .closeCancelling observed, none⟩
  | closeHanged (observed : Option ℕ) (h : s.state = .hanged) :
      DialMove s g (.closing observed)
        ⟨{ s with state := .closed }, .closeCancelling observed, none⟩
  | closeClosed (observed : Option ℕ) (h : s.state = .closed) :
      DialMove s g (.closing observed) ⟨{ s with state := .closed }, .notifying false, none⟩
  | closeCancel (observed : Option ℕ) :
      DialMove s g (.closeCancelling observed) ⟨s.cancel observed, .notifying false, none⟩
  | succeed :
      DialMove s g (.notifying true) ⟨{ s with success := s.success + 1 }, .unlocking true, none⟩
  | fail :
      DialMove s g (.notifying false) ⟨{ s with failure := s.failure + 1 }, .unlocking false, none⟩
  | unlock (ok : Bool) :
      DialMove s g (.unlocking ok) ⟨{ s with writer := none }, afterDial g ok, none⟩

inductive SendMove (s : Shared) (i : ℕ) : Pc → Stepped → Prop where
  | begin {pc : Pc} (h : ¬ pc.Active) : SendMove s i pc ⟨s, .loading, none⟩
  | load {pc' : Pc} (hto : pc' = .returned ∨ pc' = .locking ∨ pc' = .rlocking ∨ pc' = .queueing) :
      SendMove s i .loading ⟨s, pc', none⟩
  | rlock (h : s.writer = none) :
      SendMove s i .rlocking ⟨{ s with readers := i :: s.readers }, .rloading, none⟩
  | rload (ok : Bool) (h : s.state ≠ .hanged) : SendMove s i .rloading ⟨s, .runlocking ok, none⟩
  | wait (h : s.state = .hanged) :
      SendMove s i .rloading ⟨s, .waiting s.success s.failure, none⟩
  | wake (success failure : ℕ) (ok : Bool) (h : success < s.success ∨ failure < s.failure) :
      SendMove s i (.waiting success failure) ⟨s, .runlocking ok, none⟩
  | runlock (ok : Bool) {pc' : Pc} (hto : pc' = .queueing ∨ pc' = .returned) :
      SendMove s i (.runlocking ok) ⟨{ s with readers := s.readers.erase i }, pc', none⟩
  | queue {m : ℕ} : SendMove s i .queueing ⟨{ s with queued := m }, .returned, none⟩

inductive Move (s : Shared) : Gor → Pc → Stepped → Prop where
  | conn {g : Gor} {pc : Pc} {r : Stepped} (n : ℕ) (hg : g = .reader n ∨ g = .writer n)
      (h : ConnMove s n pc r) : Move s g pc r
  | dial {g : Gor} {pc : Pc} {r : Stepped} (h : DialMove s g pc r) : Move s g pc r
  | send {pc : Pc} {r : Stepped} (i : ℕ) (h : SendMove s i pc r) : Move s (.caller i) pc r

theorem connMove_of_stepRead {n : ℕ} (h : s.stepRead pc choice = some r) : ConnMove s n pc r := by
  unfold stepRead at h
  split at h
  · cases h
    refine .loop trivial ?_
    split
    · exact .inr (.inr rfl)
    · exact .inl trivial
  · cases h
    exact .loop trivial (.inl trivial)
  · cases h
    exact .loop trivial (.inr (.inl rfl))
  · cases h

theorem connMove_of_stepWrite {n : ℕ} (h : s.stepWrite n pc choice = some r) :
    ConnMove s n pc r := by
  unfold stepWrite at h
  split at h
  · cases h
    exact .loop trivial (.inl trivial)
  · split at h
    · next hque =>
      cases h
      exact .take _ hque
    · cases h
  · cases h
    exact .loop trivial (.inl trivial)
  · split at h
    · cases h
      exact .loop trivial (.inr (.inr rfl))
    · cases h
  · cases h
    exact .loop trivial (.inl trivial)
  · cases h
    exact .loop trivial (.inr (.inl rfl))
  · cases h
    exact .write _ (.inl trivial)
  · cases h
    exact .write _ (.inr rfl)
  · cases h
    exact .skip _
  · cases h

theorem connMove_of_stepRetry {n : ℕ} (h : s.stepRetry n pc = some r) : ConnMove s n pc r := by
  unfold stepRetry at h
  split at h
  · split at h
    · next hope =>
      cases h
      exact .hang hope
    · next hope =>
      cases h
      exact .giveUp hope
  · cases h
    exact .cancel
  · cases h

theorem dialMove_of_stepDial (h : s.stepDial g pc choice = some r) : DialMove s g pc r := by
  unfold stepDial at h
  split at h
  · split at h
    · next hwr =>
      cases h
      exact .lock hwr
    · cases h
  · split at h
    · next hrds =>
      cases h
      exact .acquire hrds
    · cases h
  · cases h
    split
    · next hope => exact .opened hope
    · next hope => exact .redial hope
  · cases h
    exact .dialed
  · cases h
    exact .refused
  · cases h
    exact .set
  · cases h
    exact .opens
  · cases h
    exact .shaken
  · cases h
    exact .unshaken
  · cases h
    cases hstt : s.state with
    | opened => exact .close _ hstt
    | hanged => exact .closeHanged _ hstt
    | closed => exact .closeClosed _ hstt
  · cases h
    exact .closeCancel _
  · cases h
    exact .succeed
  · cases h
    exact .fail
  · cases h
    exact .unlock _
  · cases h

theorem sendMove_of_stepSend {i : ℕ} (h : s.stepSend i pc choice = some r) : SendMove s i pc r := by
  unfold stepSend at h
  split at h
  · cases h
    exact .begin fun hactv => hactv.1 rfl
  · cases h
    exact .begin fun hactv => hactv.2 rfl
  · split at h
    all_goals
      cases h
      exact .load (by simp)
  · split at h
    · next hwr =>
      cases h
      exact .rlock hwr
    · cases h
  · split at h
    · next hstt =>
      cases h
      exact .rload true (by rw [hstt]; exact nofun)
    · next hstt =>
      cases h
      exact .wait hstt
    · next hstt =>
      cases h
      exact .rload false (by rw [hstt]; exact nofun)
  · split at h
    · next hsuc =>
      cases h
      exact .wake _ _ true (.inl hsuc)
    · cases h
  · split at h
    · next hfai =>
      cases h
      exact .wake _ _ false (.inr hfai)
    · cases h
  · cases h
    refine .runlock _ ?_
    split
    · exact .inl rfl
    · exact .inr rfl
  · cases h
    exact .queue
  · cases h
    exact .queue
  · cases h

theorem move_of_step (h : s.step g pc choice = some r) : Move s g pc r := by
  cases g with
  | reader n =>
    rcases or_eq_some_iff.mp h with h | ⟨-, h⟩
    · exact .conn n (.inl rfl) (connMove_of_stepRead h)
    rcases or_eq_some_iff.mp h with h | ⟨-, h⟩
    · exact .conn n (.inl rfl) (connMove_of_stepRetry h)
    · exact .dial (dialMove_of_stepDial h)
  | writer n =>
    rcases or_eq_some_iff.mp h with h | ⟨-, h⟩
    · exact .conn n (.inr rfl) (connMove_of_stepWrite h)
    rcases or_eq_some_iff.mp h with h | ⟨-, h⟩
    · exact .conn n (.inr rfl) (connMove_of_stepRetry h)
    · exact .dial (dialMove_of_stepDial h)
  | caller i =>
    rcases or_eq_some_iff.mp h with h | ⟨-, h⟩
    · exact .send i (sendMove_of_stepSend h)
    · exact .dial (dialMove_of_stepDial h)
  | establisher => exact .dial (dialMove_of_stepDial h)

end Shared

namespace Line

variable {s s' : Line}

structure Steps (s : Line) (g : Gor) (s' : Line) where
  r : Stepped
  move : s.shared.Move g (s.pcs g) r
  shared : s'.shared = r.shared
  pcs : s'.pcs = start (update s.pcs g r.pc) r.started

theorem steps_of_next {act : Gor × Choice} (h : s.next act = some s') :
    Nonempty (Steps s act.1 s') := by
  obtain ⟨r, hstep, rfl⟩ := map_eq_some_iff.mp h
  exact ⟨⟨r, Shared.move_of_step hstep, rfl, rfl⟩⟩

theorem run_invariant {G : Line → Gor × Choice → Bool} {s₀ : Line} (I : Line → Prop) (h0 : I s₀)
    (hstep : ∀ s act s', I s → G s act = true → Steps s act.1 s' → I s')
    {acts : List (Gor × Choice)} (h : Lib.Run (Lib.guardedRel step G) s₀ acts s) : I s := by
  refine Lib.run_states I h0 ?_ h
  intro s act s' hs hG hnext
  obtain ⟨hste⟩ := steps_of_next hnext
  exact hstep s act s' hs hG hste

theorem Steps.pcs_cases {g : Gor} (h : Steps s g s') (g' : Gor) :
    (g' = g ∧ s'.pcs g' = h.r.pc) ∨ (∃ pc, h.r.started = some (g', pc) ∧ s'.pcs g' = pc) ∨
      g' ≠ g ∧ s'.pcs g' = s.pcs g' := by
  rw [h.pcs]
  cases hstd : h.r.started with
  | none =>
    by_cases hg : g' = g
    · subst hg
      exact .inl ⟨rfl, update_self ..⟩
    · exact .inr (.inr ⟨hg, update_of_ne hg ..⟩)
  | some started =>
    obtain ⟨g₁, pc⟩ := started
    by_cases hg₁ : g' = g₁
    · subst hg₁
      exact .inr (.inl ⟨pc, rfl, update_self ..⟩)
    rw [start, update_of_ne hg₁]
    by_cases hg : g' = g
    · subst hg
      exact .inl ⟨rfl, update_self ..⟩
    · exact .inr (.inr ⟨hg, update_of_ne hg ..⟩)

end Line

namespace Shared

variable {s : Shared} {g : Gor} {pc : Pc} {r : Stepped}

theorem cur_cancel (observed : Option ℕ) : (s.cancel observed).cur = s.cur := by
  unfold cancel
  split <;> rfl

theorem writer_cancel (observed : Option ℕ) : (s.cancel observed).writer = s.writer := by
  unfold cancel
  split <;> rfl

theorem not_announced_afterDial (ok : Bool) : ¬ (afterDial g ok).Announced := by
  cases g <;> cases ok <;> exact id

theorem Move.writer (h : s.Move g pc r) :
    r.shared.writer = s.writer ∧ (r.pc.Announced → pc.Announced) ∨
      s.writer = none ∧ r.shared.writer = some g ∨
      pc.Announced ∧ r.shared.writer = none ∧ ¬ r.pc.Announced := by
  cases h with
  | conn n hg h =>
    refine .inl ?_
    cases h with
    | loop hfrom hto =>
      refine ⟨rfl, fun hann => ?_⟩
      rcases hto with hto | rfl | rfl
      · exact absurd hann (Pc.Loop.not_announced hto)
      · exact hann.elim
      · exact hann.elim
    | write taken hto =>
      refine ⟨rfl, fun hann => ?_⟩
      rcases hto with hto | rfl
      · exact absurd hann (Pc.Loop.not_announced hto)
      · exact hann.elim
    | take | skip | hang | giveUp => exact ⟨rfl, False.elim⟩
    | cancel => exact ⟨writer_cancel _, False.elim⟩
  | dial h =>
    cases h with
    | lock h => exact .inr (.inl ⟨h, rfl⟩)
    | closeCancel => exact .inl ⟨writer_cancel _, fun _ => trivial⟩
    | unlock ok => exact .inr (.inr ⟨trivial, rfl, not_announced_afterDial ok⟩)
    | _ => exact .inl ⟨rfl, fun _ => trivial⟩
  | send i h =>
    refine .inl ?_
    cases h with
    | load hto =>
      refine ⟨rfl, fun hann => ?_⟩
      rcases hto with rfl | rfl | rfl | rfl <;> exact hann.elim
    | runlock ok hto =>
      refine ⟨rfl, fun hann => ?_⟩
      rcases hto with rfl | rfl <;> exact hann.elim
    | _ => exact ⟨rfl, False.elim⟩

theorem Move.started (h : s.Move g pc r) {g' : Gor} {pc' : Pc} (hstd : r.started = some (g', pc')) :
    r.shared.cur = s.cur ∧ pc'.Loop ∧ (g' = .reader s.cur ∨ g' = .writer s.cur) ∧ pc.Announced := by
  cases h with
  | conn n hg h => cases h <;> cases hstd
  | dial h =>
    cases h with
    | opens =>
      cases hstd
      exact ⟨rfl, trivial, .inl rfl, trivial⟩
    | shaken =>
      cases hstd
      exact ⟨rfl, trivial, .inr rfl, trivial⟩
    | _ => cases hstd
  | send i h => cases h <;> cases hstd

end Shared

namespace Line

variable {s s' : Line}

/-- Only the goroutine that has announced or holds the write lock is in the part of `dial` that it
guards. -/
def Exclusive (s : Line) : Prop := ∀ g, (s.pcs g).Announced → s.shared.writer = some g

theorem exclusive_step {g : Gor} (hi : s.Exclusive) (h : Steps s g s') : s'.Exclusive := by
  intro g' hg'
  rw [h.shared]
  -- before, the goroutine of the step was the only one with the lock
  have hoth : g' ≠ g → s'.pcs g' = s.pcs g' → h.r.shared.writer = some g' := by
    intro hne hpc
    rw [hpc] at hg'
    have hwr := hi g' hg'
    rcases h.move.writer with ⟨hsame, -⟩ | ⟨hnone, -⟩ | ⟨hann, -⟩
    · rw [hsame, hwr]
    · rw [hnone] at hwr
      cases hwr
    rw [hi g hann] at hwr
    exact absurd (some.inj hwr).symm hne
  rcases h.pcs_cases g' with ⟨rfl, hpc⟩ | ⟨pc, hstd, hpc⟩ | ⟨hne, hpc⟩
  · rw [hpc] at hg'
    rcases h.move.writer with ⟨hsame, hback⟩ | ⟨-, hwr⟩ | ⟨-, -, hnot⟩
    · rw [hsame, hi g' (hback hg')]
    · exact hwr
    · exact absurd hg' hnot
  · rw [hpc] at hg'
    exact absurd hg' (Pc.Loop.not_announced (h.move.started hstd).2.1)
  · exact hoth hne hpc

end Line

end DueServer.Client
