import DueServer.LibPool
import DueServer.LibTransition

/-! The wait group of a node (`cluster/node/node.go`, `proxy.go`, `timer.go`) in every interleaving:
`addWait` and `doneWait` look at the state before they count. -/
namespace DueServer.NodeWait

open Lib List

inductive NodeState where
  | shut
  | work
  | busy
  | hang
deriving DecidableEq

/-- What the node waits for: an actor with the option `wait`, the function of an `Invoke`, of an
`AfterFunc` or of an `AfterInvoke`, or a `Task` of a request or an event. -/
inductive Kind where
  | actor
  | invoke
  | afterFunc
  | afterInvoke
  | task
deriving DecidableEq

/-- Where a piece of work is: in `addWait` before and after the look at the state, in the rest of
the call that accepts it, with its timer, in the send to `fnChan`, in `fnChan` or the task pool,
running, a live actor or one in its `destroy`, and in `doneWait`, on the `dispatch` loop or
elsewhere. -/
inductive Stage where
  | checking
  | adding
  | entering
  | timer
  | sending
  | queued
  | running
  | live
  | killing
  | finishing (onLoop : Bool)
  | subtracting (onLoop : Bool)
deriving DecidableEq

namespace Stage

def accepted : Stage → Bool
  | checking => false
  | _ => true

def counted : Stage → Bool
  | checking | adding => false
  | _ => true

end Stage

structure Piece where
  kind : Kind
  stage : Stage
deriving DecidableEq

/-- `counter` is that of `wg`, `closed` says whether `fnChan` is closed, `destroyed` whether
`Destroy` has swapped the state, and `idle` whether the `dispatch` loop is there and waits in its
`select`. -/
structure State where
  state : NodeState
  counter : ℤ
  pieces : List Piece
  destroyed : Bool
  closed : Bool
  idle : Bool
deriving DecidableEq

/-- A scheduling choice: work is given to the node, a piece of it goes on, a timer is stopped, an
actor killed, or the state of the node changes (`closeChan` is the end of `Destroy`). -/
inductive Act where
  | accept (kind : Kind)
  | step (piece : ℕ)
  | stop (piece : ℕ)
  | kill (piece : ℕ)
  | start
  | close
  | destroy
  | closeChan
  | setState (state : NodeState)
deriving DecidableEq

structure Effect where
  pieces : List Piece
  delta : ℤ := 0
  idle : Bool → Bool := id

namespace Piece

def loops (p : Piece) : Bool := p.kind = .invoke || p.kind = .afterInvoke

def inChan (p : Piece) : Bool := p.loops && p.stage = .queued

def accepted (p : Piece) : Bool := p.stage.accepted

def counted (p : Piece) : Bool := p.stage.counted

def inCall (p : Piece) : Bool :=
  match p.stage with
  | .checking | .adding | .entering | .killing | .finishing _ | .subtracting _ => true
  | .sending => p.kind = .invoke
  | .timer | .queued | .running | .live => false

end Piece

abbrev Piece.to (p : Piece) (stage : Stage) : Effect := { pieces := [{ p with stage }] }

namespace State

def init : State where
  state := .shut
  counter := 0
  pieces := []
  destroyed := false
  closed := false
  idle := false

/-- `make(chan func(), 4096)`. -/
def capacity : ℕ := 4096

variable (s : State)

/-- A piece of work goes on. It has no step while it waits for a room, for the loop, or to be
killed; a send to the closed channel panics. -/
def advance (p : Piece) : Option Effect :=
  match p.stage with
  | .checking =>
    if s.state = .shut then some (p.to .entering)
    else some (p.to .adding)
  | .adding => some { pieces := [{ p with stage := .entering }], delta := 1 }
  | .entering =>
    match p.kind with
    | .actor => some (p.to .live)
    | .invoke => some (p.to .sending)
    | .task => some (p.to .queued)
    | .afterFunc => some (p.to .timer)
    | .afterInvoke => some (p.to .timer)
  | .timer =>
    if p.kind = .afterInvoke then some (p.to .sending)
    else some (p.to .running)
  | .sending =>
    if s.closed then some { pieces := [] }
    else if s.pieces.countP Piece.inChan < capacity then
      some (p.to .queued)
    else none
  | .queued =>
    if p.loops then
      if s.idle then some { pieces := [{ p with stage := .running }], idle := fun _ => false }
      else none
    else some (p.to .running)
  | .running => some (p.to (.finishing p.loops))
  | .live => none
  | .killing => some (p.to (.finishing false))
  | .finishing onLoop =>
    if s.state = .shut then some { pieces := [], idle := fun idle => idle || onLoop }
    else some (p.to (.subtracting onLoop))
  | .subtracting onLoop => some { pieces := [], delta := -1, idle := fun idle => idle || onLoop }

def effect (p : Piece) : Act → Option Effect
  | .step _ => s.advance p
  | .stop _ =>
    -- `timer.Stop()` is true while the timer has not fired
    if p.stage = .timer then some (p.to (.finishing false)) else none
  | .kill _ =>
    if p.stage = .live then some (p.to .killing) else none
  | _ => none

def index : Act → Option ℕ
  | .step i | .stop i | .kill i => some i
  | _ => none

def change : Act → Option State
  | .accept kind => some { s with pieces := s.pieces ++ [⟨kind, .checking⟩] }
  | .start => if s.state = .shut then some { s with state := .work, idle := true } else none
  | .close => if s.state = .work ∨ s.state = .busy then some { s with state := .hang } else none
  | .destroy => if s.state = .hang then some { s with state := .shut, destroyed := true } else none
  | .closeChan => if s.destroyed then some { s with closed := true } else none
  | .setState state => some { s with state := state }
  | _ => none

def next (act : Act) : Option State :=
  match index act with
  | some i => do
    let p ← s.pieces[i]?
    let e ← s.effect p act
    some
      { s with
        counter := s.counter + e.delta
        pieces := replaceAt s.pieces i e.pieces
        idle := e.idle s.idle }
  | none => s.change act

def step (act : Act) : Option (State × Act) := (s.next act).map (·, act)

def quiet : Bool := !s.pieces.any Piece.inCall

/-- `addWait` finds the node not shut, the node becomes shut only when no accepted work is left, and
its state does not change any more after `Destroy`. -/
def timely (act : Act) : Bool :=
  match index act with
  | some i => (s.pieces[i]?).all fun p => p.accepted || s.state ≠ .shut
  | none =>
    match act with
    | .destroy => !s.pieces.any Piece.accepted
    | .setState state => !s.destroyed && (state ≠ .shut || !s.pieces.any Piece.accepted)
    | .start => !s.destroyed
    | _ => true

end State

structure Accounted (s : State) : Prop where
  nonneg : 0 ≤ s.counter
  exact : s.quiet = true → s.counter = s.pieces.length

/-- Along a timely run the counter is that of the counted pieces, there is accepted work only while
the node is not shut, and it stays shut after `Destroy`. -/
structure Timely (s : State) : Prop where
  counter : s.counter = s.pieces.countP Piece.counted
  open_ : s.pieces.any Piece.accepted = true → s.state ≠ .shut
  destroyed : s.destroyed = true → s.state = .shut
  closed : s.closed = true → s.destroyed = true

inductive Does (s : State) (p : Piece) : Effect → Prop where
  | uncounted (hstage : p.stage = .checking) (hstate : s.state = .shut) :
      Does s p (p.to .entering)
  | check (hstage : p.stage = .checking) : Does s p (p.to .adding)
  | add (hstage : p.stage = .adding) :
      Does s p { pieces := [{ p with stage := .entering }], delta := 1 }
  | move (stage : Stage) (idle : Bool → Bool) (hfrom : p.stage.counted = true)
      (hto : stage.counted = true) :
      Does s p { pieces := [{ p with stage := stage }], idle := idle }
  | panic (hstage : p.stage = .sending) (hclosed : s.closed = true) : Does s p { pieces := [] }
  | skip (onLoop : Bool) (hstage : p.stage = .finishing onLoop) (hstate : s.state = .shut) :
      Does s p { pieces := [], idle := fun idle => idle || onLoop }
  | subtract (onLoop : Bool) (hstage : p.stage = .subtracting onLoop) :
      Does s p { pieces := [], delta := -1, idle := fun idle => idle || onLoop }

variable {s : State} {p : Piece} {e : Effect} {act : Act}

theorem does_of_advance (h : s.advance p = some e) : Does s p e := by
  obtain ⟨kind, stage⟩ := p
  cases stage <;> simp only [State.advance] at h
  case checking =>
    split at h <;> cases h
    · rename_i hstt
      exact .uncounted rfl hstt
    · exact .check rfl
  case adding =>
    cases h
    exact .add rfl
  case entering => cases kind <;> cases h <;> exact .move _ _ rfl rfl
  case timer => split at h <;> cases h <;> exact .move _ _ rfl rfl
  case sending =>
    split at h
    · rename_i hcl
      cases h
      exact .panic rfl hcl
    split at h <;> cases h
    exact .move _ _ rfl rfl
  case queued =>
    split at h
    · split at h <;> cases h
      exact .move _ _ rfl rfl
    cases h
    exact .move _ _ rfl rfl
  case finishing onLoop =>
    split at h <;> cases h
    · rename_i hstt
      exact .skip onLoop rfl hstt
    · exact .move _ _ rfl rfl
  case subtracting onLoop =>
    cases h
    exact .subtract onLoop rfl
  all_goals
    cases h
    try exact .move _ _ rfl rfl

theorem does_of_effect (h : s.effect p act = some e) : Does s p e := by
  obtain ⟨kind, stage⟩ := p
  cases act with
  | step => exact does_of_advance h
  | stop | kill =>
    simp only [State.effect] at h
    split at h <;> cases h
    rename_i hstg
    subst hstg
    exact .move _ _ rfl rfl
  | _ => cases h

structure State.Turn (s : State) (p : Piece) (e : Effect) (others : List Piece) (s' : State) :
    Prop where
  does : Does s p e
  before : s.pieces.Perm (p :: others)
  after : s'.pieces.Perm (e.pieces ++ others)
  counter : s'.counter = s.counter + e.delta
  state : s'.state = s.state
  destroyed : s'.destroyed = s.destroyed
  closed : s'.closed = s.closed

theorem turn_of_next {s' : State} (hG : s.timely act = true) (h : s.next act = some s') :
    (∃ p e others, (p.accepted = true ∨ s.state ≠ .shut) ∧ s.Turn p e others s') ∨
      State.index act = none ∧ s.change act = some s' := by
  simp only [State.next] at h
  cases hidx : State.index act with
  | none =>
    rw [hidx] at h
    exact .inr ⟨rfl, h⟩
  | some =>
    simp only [hidx, Option.bind_eq_bind, Option.bind_eq_some_iff] at h
    obtain ⟨p, hp, e, he, h⟩ := h
    cases h
    simp only [State.timely, hidx, hp, Option.all_some, Bool.or_eq_true,
      decide_eq_true_eq] at hG
    obtain ⟨others, hbef, haft⟩ := replaceAt_perm hp
    exact .inl
      ⟨p, e, others, hG, does_of_effect he, hbef, haft _, rfl, rfl, rfl, rfl⟩

namespace Timely

theorem init : Timely State.init where
  counter := rfl
  open_ := by decide
  destroyed := by decide
  closed := by decide

variable {s s' : State} {act : Act} {p : Piece} {e : Effect} {others : List Piece}

section

variable (h : Timely s)

include h

theorem not_shut (ht : s.Turn p e others s') (hG : p.accepted = true ∨ s.state ≠ .shut) :
    s.state ≠ .shut := by
  rcases hG with hacc | hstt
  · have hmem : p ∈ s.pieces := ht.before.mem_iff.mpr mem_cons_self
    exact h.open_ (any_eq_true.mpr ⟨p, hmem, hacc⟩)
  · exact hstt

theorem not_closed (hstt : s.state ≠ .shut) : s.closed = false := by
  cases hcl : s.closed with
  | false => rfl
  | true => exact absurd (h.destroyed (h.closed hcl)) hstt

theorem delta_eq (ht : s.Turn p e others s') (hstt : s.state ≠ .shut) :
    (e.pieces.countP Piece.counted : ℤ) = [p].countP Piece.counted + e.delta := by
  have hsin : ∀ q : Piece, [q].countP Piece.counted = if q.stage.counted then 1 else 0 :=
    fun q => countP_singleton
  cases ht.does with
  | uncounted _ hshut | skip _ _ hshut => exact absurd hshut hstt
  | check hstg | add hstg | subtract onLoop hstg => simp [hsin, hstg, Stage.counted]
  | move stage idle hfrom hto => simp [hsin, hfrom, hto]
  | panic _ hcl =>
    rw [h.not_closed hstt] at hcl
    cases hcl

theorem turn (ht : s.Turn p e others s') (hG : p.accepted = true ∨ s.state ≠ .shut) :
    Timely s' := by
  have hstt := h.not_shut ht hG
  refine ⟨?_, fun _ => ht.state ▸ hstt, ?_, ?_⟩
  · have hdelt := h.delta_eq ht hstt
    have hbef := h.counter
    rw [ht.before.countP_eq, ← singleton_append, countP_append] at hbef
    rw [ht.counter, ht.after.countP_eq, countP_append]
    omega
  · rw [ht.destroyed, ht.state]
    exact h.destroyed
  · rw [ht.closed, ht.destroyed]
    exact h.closed

theorem accept (kind : Kind) : Timely { s with pieces := s.pieces ++ [⟨kind, .checking⟩] } := by
  have hct : (s.pieces ++ [Piece.mk kind .checking]).countP Piece.counted =
      s.pieces.countP Piece.counted := by
    rw [countP_append]
    rfl
  refine ⟨?_, fun hacc => h.open_ ?_, h.destroyed, h.closed⟩
  · rw [hct]
    exact h.counter
  · simpa [Piece.accepted, Stage.accepted] using hacc

theorem change (hG : s.timely act = true) (hidx : State.index act = none)
    (hs : s.change act = some s') : Timely s' := by
  simp only [State.timely, hidx] at hG
  cases act with
  | accept kind =>
    cases hs
    exact h.accept kind
  | start =>
    simp only [State.change] at hs
    split at hs <;> cases hs
    refine ⟨h.counter, fun _ hwork => ?_, fun hdes => ?_, h.closed⟩
    · cases hwork
    · rw [Bool.not_eq_true'] at hG
      cases hG.symm.trans hdes
  | close =>
    simp only [State.change] at hs
    split at hs <;> cases hs
    rename_i hwork
    refine ⟨h.counter, fun _ hhang => ?_, fun hdes => ?_, h.closed⟩
    · cases hhang
    · -- a destroyed node is shut
      rw [h.destroyed hdes] at hwork
      rcases hwork with hwork | hwork <;> cases hwork
  | destroy =>
    simp only [State.change] at hs
    split at hs <;> cases hs
    refine ⟨h.counter, fun hacc => ?_, fun _ => rfl, fun _ => rfl⟩
    rw [Bool.not_eq_true'] at hG
    cases hG.symm.trans hacc
  | closeChan =>
    simp only [State.change] at hs
    split at hs <;> cases hs
    rename_i hdes
    exact ⟨h.counter, h.open_, h.destroyed, fun _ => hdes⟩
  | setState =>
    cases hs
    rw [Bool.and_eq_true, Bool.or_eq_true, Bool.not_eq_true', Bool.not_eq_true',
      decide_eq_true_eq] at hG
    refine ⟨h.counter, fun hacc => ?_, fun hdes => ?_, h.closed⟩
    · rcases hG.2 with hstt | hnone
      · exact hstt
      · cases hnone.symm.trans hacc
    · cases hG.1.symm.trans hdes
  | step | stop | kill => cases hidx

end

theorem run {tr : List Act} (h : Run (guardedRel State.step State.timely) State.init tr s) :
    Timely s := by
  refine run_states Timely init ?_ h
  intro s act s' hs hG hnext
  rcases turn_of_next hG hnext with ⟨p, e, others, hacc, ht⟩ | ⟨hidx, hcha⟩
  · exact hs.turn ht hacc
  · exact hs.change hG hidx hcha

theorem counted_of_quiet (hqt : s.quiet = true) :
    s.pieces.countP Piece.counted = s.pieces.length := by
  rw [State.quiet, Bool.not_eq_true', any_eq_false] at hqt
  rw [countP_eq_length]
  intro p hp
  have hcall := hqt p hp
  obtain ⟨kind, stage⟩ := p
  cases stage with
  | checking | adding => exact absurd rfl hcall
  | _ => rfl

end Timely

def workedOff : List Act :=
  [.start, .accept .invoke, .step 0, .step 0, .step 0, .accept .afterInvoke, .step 1, .step 1,
    .step 1, .accept .actor, .step 2, .step 2, .step 2, .close, .step 0, .step 0, .step 0, .step 0,
    .step 0, .stop 0, .step 0, .step 0]

theorem workedOff_isSome : (exec State.step State.timely State.init workedOff).isSome = true := rfl

def invokedEarly : List Act :=
  [.accept .invoke, .step 0, .step 0, .step 0, .start, .step 0, .step 0, .step 0, .step 0]

end DueServer.NodeWait
