import DueServer.ClientConnSteps

/-! Which net.Conn a failure can reach: the goroutines of the earlier net.Conns of a `conn`. -/
namespace DueServer.Client

open Lib

namespace Pc

def Late : Pc → Prop
  | .opening | .handshaking | .closing _ | .closeCancelling _ | .notifying _ | .unlocking _ => True
  | _ => False

def observed : Pc → Option ℕ
  | .closing observed | .closeCancelling observed => observed
  | _ => none

theorem announced_of_observed {pc : Pc} {m : ℕ} (h : pc.observed = some m) : pc.Announced := by
  cases pc <;> first | cases h; done | trivial

theorem Loop.active {pc : Pc} (h : pc.Loop) : pc.Active := by
  cases pc <;> first | exact h.elim | exact ⟨nofun, nofun⟩

theorem Loop.not_late {pc : Pc} (h : pc.Loop) : ¬ pc.Late := by
  cases pc <;> first | exact h.elim | exact id

theorem Loop.observed_eq {pc : Pc} (h : pc.Loop) : pc.observed = none := by
  cases pc <;> first | exact h.elim | rfl

end Pc

/-- A failure reaches no later net.Conn than the one it was observed on, and a message goes to no
earlier one than the current one at the time it was taken. -/
def Event.Proper : Event → Prop
  | .left (some n) conn | .canceled (some n) conn => conn ≤ n
  | .left none _ | .canceled none _ => True
  | .wrote conn taken => taken ≤ conn

instance : (e : Event) → Decidable e.Proper
  | .left (some n) conn | .canceled (some n) conn => inferInstanceAs (Decidable (conn ≤ n))
  | .left none _ | .canceled none _ => .isTrue trivial
  | .wrote conn taken => inferInstanceAs (Decidable (taken ≤ conn))

namespace Shared

variable {s : Shared} {g : Gor} {pc : Pc} {r : Stepped}

theorem conn_eq {n : ℕ} (h : g = .reader n ∨ g = .writer n) : g.conn = some n := by
  rcases h with rfl | rfl <;> rfl

theorem events_cancel (observed : Option ℕ) : (s.cancel observed).events = s.events ∨
      (s.cancel observed).events = s.events ++ [.canceled observed s.cur] := by
  unfold cancel
  split
  · exact .inl rfl
  · exact .inr rfl

section

variable (h : s.Move g pc r)

include h

theorem Move.cur :
    r.shared.cur = s.cur ∨ pc = .setting ∧ r.shared.cur = s.cur + 1 ∧ r.pc = .opening := by
  cases h with
  | conn n hg h =>
    cases h with
    | cancel => exact .inl (cur_cancel _)
    | _ => exact .inl rfl
  | dial h =>
    cases h with
    | set => exact .inr ⟨rfl, rfl, rfl⟩
    | closeCancel => exact .inl (cur_cancel _)
    | _ => exact .inl rfl
  | send i h => cases h <;> exact .inl rfl

/-- A goroutine of a net.Conn does not come back, neither from its end nor from that of `dial`. -/
theorem Move.active {n : ℕ} (hconn : g.conn = some n) (hactv : r.pc.Active) :
    pc.Active ∧ (pc.Late → r.pc.Late) := by
  cases h with
  | conn n hg h =>
    cases h with
    | loop hfrom hto => exact ⟨hfrom.active, fun hlate => absurd hlate hfrom.not_late⟩
    | _ => exact ⟨⟨nofun, nofun⟩, False.elim⟩
  | dial h =>
    cases h with
    | unlock ok =>
      cases g with
      | reader | writer => exact absurd rfl hactv.2
      | caller | establisher => cases hconn
    | lock | acquire | opened | redial | dialed | refused | set =>
      exact ⟨⟨nofun, nofun⟩, False.elim⟩
    | _ => exact ⟨⟨nofun, nofun⟩, fun _ => trivial⟩
  | send i h => cases hconn

theorem Move.observed {m : ℕ} (hobs : r.pc.observed = some m) : r.shared.cur = s.cur ∧
      (pc.observed = some m ∨ m = s.cur ∨ pc = .dialing ∧ g.conn = some m) := by
  cases h with
  | conn n hg h =>
    cases h with
    | loop hfrom hto =>
      rcases hto with hto | rfl | rfl
      · rw [hto.observed_eq] at hobs
        cases hobs
      · cases hobs
      · cases hobs
    | write taken hto =>
      rcases hto with hto | rfl
      · rw [hto.observed_eq] at hobs
        cases hobs
      · cases hobs
    | _ => cases hobs
  | dial h =>
    cases h with
    | refused => exact ⟨rfl, .inr (.inr ⟨rfl, hobs⟩)⟩
    | unshaken => exact ⟨rfl, .inr (.inl (Option.some.inj hobs).symm)⟩
    | close | closeHanged => exact ⟨rfl, .inl hobs⟩
    | unlock ok => cases g <;> cases ok <;> cases hobs
    | _ => cases hobs
  | send i h =>
    cases h with
    | load hto => rcases hto with rfl | rfl | rfl | rfl <;> cases hobs
    | runlock ok hto => rcases hto with rfl | rfl <;> cases hobs
    | _ => cases hobs

theorem Move.taken {n taken : ℕ} (hconn : g.conn = some n) (hwtg : r.pc = .writing taken) :
    taken = s.cur ∧ pc.Active ∧ ¬ pc.Late := by
  cases h with
  | conn n' hg h =>
    cases h with
    | take ctx => exact ⟨(Pc.writing.inj hwtg).symm, ⟨nofun, nofun⟩, id⟩
    | loop hfrom hto =>
      rcases hto with hto | rfl | rfl
      · simp only at hwtg
        rw [hwtg] at hto
        exact hto.elim
      · cases hwtg
      · cases hwtg
    | write taken' hto =>
      rcases hto with hto | rfl
      · simp only at hwtg
        rw [hwtg] at hto
        exact hto.elim
      · cases hwtg
    | _ => cases hwtg
  | dial h =>
    cases h with
    | unlock ok => cases g <;> cases ok <;> cases hwtg
    | _ => cases hwtg
  | send i h => cases hconn

theorem Move.events : r.shared.events = s.events ∨ ∃ e, r.shared.events = s.events ++ [e] ∧
      ((∃ n, g.conn = some n ∧ pc.Active ∧ ¬ pc.Late ∧
        (e = .left (some n) s.cur ∨ e = .canceled (some n) s.cur)) ∨
      (∃ n taken, g.conn = some n ∧ pc = .writing taken ∧ e = .wrote n taken) ∨
      e = .left pc.observed s.cur ∨ e = .canceled pc.observed s.cur) := by
  cases h with
  | conn n hg h =>
    have hconn := conn_eq hg
    cases h with
    | write taken hto =>
      exact .inr ⟨_, rfl, .inr (.inl ⟨n, taken, hconn, rfl, rfl⟩)⟩
    | hang => exact .inr ⟨_, rfl, .inl ⟨n, hconn, ⟨nofun, nofun⟩, id, .inl rfl⟩⟩
    | cancel =>
      rcases events_cancel (some n) with heve | heve
      · exact .inl heve
      · exact .inr ⟨_, heve, .inl ⟨n, hconn, ⟨nofun, nofun⟩, id, .inr rfl⟩⟩
    | _ => exact .inl rfl
  | dial h =>
    cases h with
    | close observed => exact .inr ⟨_, rfl, .inr (.inr (.inl rfl))⟩
    | closeCancel observed =>
      rcases events_cancel observed with heve | heve
      · exact .inl heve
      · exact .inr ⟨_, heve, .inr (.inr (.inr rfl))⟩
    | _ => exact .inl rfl
  | send i h => cases h <;> exact .inl rfl

end

end Shared

namespace Line

variable {s s' : Line}

structure Current (s : Line) : Prop where
  exclusive : s.Exclusive
  active (g : Gor) (n : ℕ) : g.conn = some n → (s.pcs g).Active →
    n ≤ s.shared.cur ∧ (n = s.shared.cur ∨ (s.pcs g).Late)
  observed (g : Gor) (m : ℕ) : (s.pcs g).observed = some m → m = s.shared.cur
  taken (g : Gor) (n taken : ℕ) : g.conn = some n → s.pcs g = .writing taken → taken ≤ n
  events (e : Event) : e ∈ s.shared.events → e.Proper

def settled (s : Line) : Gor × Choice → Bool
  | (g, _) =>
    s.pcs g ≠ .setting || (List.range (s.shared.cur + 1)).all fun n =>
      (Gor.reader n = g || ¬ (s.pcs (.reader n)).Active) &&
        (Gor.writer n = g || ¬ (s.pcs (.writer n)).Active)

theorem not_active_of_settled {g g' : Gor} {choice : Choice} {n : ℕ}
    (h : s.settled (g, choice) = true) (hsett : s.pcs g = .setting) (hconn : g'.conn = some n)
    (hn : n ≤ s.shared.cur) (hne : g' ≠ g) : ¬ (s.pcs g').Active := by
  rw [settled, Bool.or_eq_true, List.all_eq_true] at h
  rcases h with h | h
  · exact absurd hsett (of_decide_eq_true h)
  have hn := h n (List.mem_range.mpr (Nat.lt_succ_of_le hn))
  rw [Bool.and_eq_true, Bool.or_eq_true, Bool.or_eq_true] at hn
  cases g' with
  | reader n' =>
    cases hconn
    rcases hn.1 with heq | hnot
    · exact absurd (of_decide_eq_true heq) hne
    · exact of_decide_eq_true hnot
  | writer n' =>
    cases hconn
    rcases hn.2 with heq | hnot
    · exact absurd (of_decide_eq_true heq) hne
    · exact of_decide_eq_true hnot
  | caller | establisher => cases hconn

theorem current_of_active (hi : s.Current) {g : Gor} {n : ℕ} (hconn : g.conn = some n)
    (hactv : (s.pcs g).Active) (hlate : ¬ (s.pcs g).Late) : n = s.shared.cur :=
  (hi.active g n hconn hactv).2.resolve_right hlate

theorem current_active_step {act : Gor × Choice} (hi : s.Current) (hG : s.settled act = true)
    (h : Steps s act.1 s') (g : Gor) (n : ℕ) (hconn : g.conn = some n)
    (hactv : (s'.pcs g).Active) :
    n ≤ s'.shared.cur ∧ (n = s'.shared.cur ∨ (s'.pcs g).Late) := by
  rw [h.shared]
  rcases h.pcs_cases g with ⟨rfl, hpc⟩ | ⟨pc, hstd, hpc⟩ | ⟨hne, hpc⟩
  · rw [hpc] at hactv ⊢
    obtain ⟨hbef, hlate⟩ := h.move.active hconn hactv
    obtain ⟨hle, hcur⟩ := hi.active act.1 n hconn hbef
    rcases h.move.cur with hsame | ⟨-, hnext, hope⟩
    · rw [hsame]
      exact ⟨hle, hcur.imp id hlate⟩
    rw [hnext, hope]
    exact ⟨Nat.le_succ_of_le hle, .inr trivial⟩
  · obtain ⟨hsame, -, hg, -⟩ := h.move.started hstd
    rw [hsame]
    rw [Shared.conn_eq hg] at hconn
    cases hconn
    exact ⟨Nat.le_refl _, .inl rfl⟩
  · rw [hpc] at hactv ⊢
    obtain ⟨hle, hcur⟩ := hi.active g n hconn hactv
    rcases h.move.cur with hsame | ⟨hsett, -, -⟩
    · rw [hsame]
      exact ⟨hle, hcur⟩
    · exact absurd hactv (not_active_of_settled hG hsett hconn hle hne)

theorem current_step {act : Gor × Choice} (hi : s.Current) (hG : s.settled act = true)
    (h : Steps s act.1 s') : s'.Current := by
  refine ⟨exclusive_step hi.exclusive h, current_active_step hi hG h, ?_, ?_, ?_⟩
  · intro g m hobs
    rw [h.shared]
    rcases h.pcs_cases g with ⟨rfl, hpc⟩ | ⟨pc, hstd, hpc⟩ | ⟨hne, hpc⟩
    · rw [hpc] at hobs
      obtain ⟨hsame, hold | rfl | ⟨hdia, hconn⟩⟩ := h.move.observed hobs
      · rw [hsame, hi.observed act.1 m hold]
      · rw [hsame]
      rw [hsame]
      exact current_of_active hi hconn (by rw [hdia]; exact ⟨nofun, nofun⟩)
        (by rw [hdia]; exact id)
    · rw [hpc, (h.move.started hstd).2.1.observed_eq] at hobs
      cases hobs
    · rw [hpc] at hobs
      rcases h.move.cur with hsame | ⟨hsett, -, -⟩
      · rw [hsame, hi.observed g m hobs]
      -- two goroutines would have the lock
      have hg := hi.exclusive g (Pc.announced_of_observed hobs)
      have hact := hi.exclusive act.1 (by rw [hsett]; trivial)
      rw [hact] at hg
      exact absurd (Option.some.inj hg).symm hne
  · intro g n taken hconn hwtg
    rcases h.pcs_cases g with ⟨rfl, hpc⟩ | ⟨pc, hstd, hpc⟩ | ⟨hne, hpc⟩
    · rw [hpc] at hwtg
      obtain ⟨rfl, hactv, hlate⟩ := h.move.taken hconn hwtg
      exact Nat.le_of_eq (current_of_active hi hconn hactv hlate).symm
    · have hloop := (h.move.started hstd).2.1
      rw [← hpc, hwtg] at hloop
      exact hloop.elim
    rw [hpc] at hwtg
    exact hi.taken g n taken hconn hwtg
  · intro e he
    rw [h.shared] at he
    rcases h.move.events with hsame | ⟨e', hnew, hcas⟩
    · rw [hsame] at he
      exact hi.events e he
    rw [hnew] at he
    rcases List.mem_append.mp he with he | he
    · exact hi.events e he
    obtain rfl := List.mem_singleton.mp he
    rcases hcas with ⟨n, hconn, hactv, hlate, rfl | rfl⟩ | ⟨n, taken, hconn, hwtg, rfl⟩ |
      rfl | rfl
    · exact Nat.le_of_eq (current_of_active hi hconn hactv hlate).symm
    · exact Nat.le_of_eq (current_of_active hi hconn hactv hlate).symm
    · exact hi.taken act.1 n taken hconn hwtg
    all_goals
      cases hobs : (s.pcs act.1).observed with
      | none => trivial
      | some m => exact Nat.le_of_eq (hi.observed act.1 m hobs).symm

theorem not_announced_init (g : Gor) : ¬ (({} : Line).pcs g).Announced := by
  show ¬ (if g = .establisher then Pc.locking else Pc.absent).Announced
  split <;> exact id

theorem current_init : ({} : Line).Current where
  exclusive g hg := absurd hg (not_announced_init g)
  active g n hconn hactv := by
    cases g with
    | reader | writer => exact absurd rfl hactv.1
    | caller | establisher => cases hconn
  observed g m h := absurd (Pc.announced_of_observed h) (not_announced_init g)
  taken g n taken hconn h := by
    cases g with
    | reader | writer => cases h
    | caller | establisher => cases hconn
  events _ h := absurd h List.not_mem_nil

/-- In every run in which the goroutines of the earlier net.Conns have returned when a new one is
set, a failure reaches no later net.Conn, and no message goes to an earlier one. -/
theorem failures_stay_with_conn {acts : List (Gor × Choice)} {s : Line}
    (h : Run (guardedRel step settled) {} acts s) : ∀ e ∈ s.shared.events, e.Proper :=
  (run_invariant Current current_init (fun _ _ _ hs hG => current_step hs hG) h).events

def dials (g : Gor) : List (Gor × Choice) := List.replicate 9 (g, .ok)

def redials : List (Gor × Choice) :=
  dials .establisher ++ [(.reader 1, .ok), (.writer 1, .ok), (.writer 1, .skip), (.writer 1, .fail),
    (.reader 1, .fail), (.reader 1, .ok), (.reader 1, .ok), (.writer 1, .ok)] ++
      dials (.reader 1) ++
    [(.caller 0, .ok), (.caller 0, .ok), (.caller 0, .ok), (.writer 2, .ok), (.writer 2, .ok),
      (.writer 2, .ok)]

theorem redials_isSome : (exec step settled {} redials).isSome = true := rfl

theorem redials_failures_stay :
    let s := ((exec step settled {} redials).get redials_isSome).2
    .wrote 2 2 ∈ s.shared.events ∧ ∀ e ∈ s.shared.events, e.Proper :=
  ⟨by decide +kernel, failures_stay_with_conn (run_of_exec _ redials_isSome)⟩

/-- The reader of the first net.Conn redials while the writer waits in its select, which then takes
a message although its context is done; the write to the first net.Conn fails. -/
def overtakes : List (Gor × Choice) :=
  dials .establisher ++ [(.writer 1, .ok), (.reader 1, .ok), (.reader 1, .fail), (.reader 1, .ok),
    (.reader 1, .ok)] ++ dials (.reader 1) ++ [(.caller 0, .ok), (.caller 0, .ok), (.caller 0, .ok),
    (.writer 1, .ok), (.writer 1, .fail), (.writer 1, .ok), (.writer 1, .ok)]

theorem old_conn_hangs_successor :
    ¬ ∀ acts s, Run (guardedRel step fun _ _ => true) {} acts s →
      ∀ e ∈ s.shared.events, e.Proper := by
  intro h
  have hpro := h _ _ (run_of_exec overtakes rfl) (.left (some 1) 2) (by decide +kernel)
  exact absurd hpro (by decide)

end Line

end DueServer.Client
