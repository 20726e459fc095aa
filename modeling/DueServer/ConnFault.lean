import DueServer.ClientConnModel

/-! When `conn.send` dials again after a fault (`internal/transporter/internal/client/conn.go`), in
release mode: the steps of a connection, each with the time that `close` or `send` reads in it.
Times are in nanoseconds; the clock may do anything. -/
namespace DueServer.Client.Fault

open Lib

structure State where
  line : Line := {}
  lastFaultTime : ℕ
  /-- when `close` was last called -/
  closedAt : Option ℕ := none
  /-- when `close` last left a stamp: it does so if the connection was not closed before -/
  faultAt : Option ℕ := none

abbrev Act := Gor × Choice × ℕ

namespace State

variable (recovery : ℕ) (s : State)

def recent (now : ℕ) : Bool := now < s.lastFaultTime + recovery

/-- A caller that finds the connection closed gives up exactly if the last fault is recent. -/
def admits (act : Act) : Bool :=
  match s.line.pcs act.1, s.line.shared.state with
  | .loading, .closed => decide (act.2.1 = .fail) == s.recent recovery act.2.2
  | _, _ => true

/-- What a step leaves of the time: `close` stores its stamp, in seconds, after the swap of the
state. -/
def clocked (act : Act) (line : Line) : State :=
  match s.line.pcs act.1 with
  | .closing _ => { s with line := line, closedAt := some act.2.2 }
  | .closeCancelling _ =>
    { s with line := line, lastFaultTime := act.2.2 / 1000000000, faultAt := some act.2.2 }
  | _ => { s with line := line }

def step (act : Act) : Option (State × Act) :=
  (s.line.next (act.1, act.2.1)).map fun line => (s.clocked act line, act)

def rel : State → Act → State → Prop := guardedRel step (admits recovery)

/-- The stamp that the runs leave: the time of `newConn` in nanoseconds, and after a fault that of
the fault in seconds. -/
def stamp (created : ℕ) (s : State) : ℕ := s.faultAt.elim created (· / 1000000000)

variable {recovery s} {created i now : ℕ} {acts : List Act} {choice : Choice} {s' : State}

theorem rel_cases {act : Act} (h : rel recovery s act s') : s.admits recovery act = true ∧
    ∃ line, s.line.next (act.1, act.2.1) = some line ∧ s' = s.clocked act line := by
  obtain ⟨act', hadm, hstep⟩ := h
  obtain ⟨line, hline, heq⟩ := Option.map_eq_some_iff.mp hstep
  cases heq
  exact ⟨hadm, line, hline, rfl⟩

theorem lastFaultTime_eq (h : Run (rel recovery) { lastFaultTime := created } acts s) :
    s.lastFaultTime = s.stamp created := by
  refine run_invariant (fun _ s => s.lastFaultTime = s.stamp created) rfl ?_ h
  intro _ s act s' hs hrel
  obtain ⟨-, line, -, rfl⟩ := rel_cases hrel
  unfold clocked
  split
  · exact hs
  · rfl
  · exact hs

theorem next_loading (hclosed : s.line.shared.state = .closed)
    (hload : s.line.pcs (.caller i) = .loading) : s.line.next (.caller i, choice) =
      some ⟨s.line.shared, Function.update s.line.pcs (.caller i)
        (if choice = .fail then .returned else .locking)⟩ := by
  cases choice <;> simp [Line.next, Shared.step, Shared.stepSend, hload, hclosed, Line.start]

/-- A send that finds the connection closed dials or gives up by the stamp. -/
theorem pcs_send (hclosed : s.line.shared.state = .closed)
    (hload : s.line.pcs (.caller i) = .loading)
    (h : rel recovery s (.caller i, choice, now) s') :
    s'.line.pcs (.caller i) = if s.recent recovery now then .returned else .locking := by
  obtain ⟨hadm, line, hline, rfl⟩ := rel_cases h
  simp only [admits, hload, hclosed, beq_iff_eq] at hadm
  rw [next_loading hclosed hload] at hline
  cases hline
  simp [clocked, hload, ← hadm]

theorem exists_send (recovery now : ℕ) (hclosed : s.line.shared.state = .closed)
    (hload : s.line.pcs (.caller i) = .loading) :
    ∃ choice s', rel recovery s (.caller i, choice, now) s' := by
  have hstep (choice : Choice) : ∃ s', s.step (.caller i, choice, now) =
      some (s', (.caller i, choice, now)) := by
    rw [step, next_loading hclosed hload]
    exact ⟨_, rfl⟩
  cases hrecent : s.recent recovery now with
  | true =>
    obtain ⟨s', hs'⟩ := hstep .fail
    exact ⟨.fail, s', _, by simp [admits, hload, hclosed, hrecent], hs'⟩
  | false =>
    obtain ⟨s', hs'⟩ := hstep .ok
    exact ⟨.ok, s', _, by simp [admits, hload, hclosed, hrecent], hs'⟩

/-- `Establish` reaches no server, and then a caller sends. -/
def unreachable : List Act :=
  [(.establisher, .ok, 0), (.establisher, .ok, 0), (.establisher, .ok, 0), (.establisher, .fail, 0),
    (.establisher, .ok, 1700000000000000000), (.caller 0, .ok, 1700000001000000000)]

/-- The handshake of the first connection fails, and then a caller sends. -/
def refused : List Act :=
  List.replicate 6 (.establisher, .ok, 0) ++ [(.establisher, .fail, 0),
    (.establisher, .ok, 1700000000000000000), (.establisher, .ok, 1700000000000000000),
    (.caller 0, .ok, 1700000000000000000)]

theorem unreachable_isSome : (exec step (admits 3000000000)
    { lastFaultTime := 1699999999000000000 } unreachable).isSome = true := rfl

theorem refused_isSome : (exec step (admits 100000000000000000)
    { lastFaultTime := 1699999999000000000 } refused).isSome = true := rfl

end State

end DueServer.Client.Fault
