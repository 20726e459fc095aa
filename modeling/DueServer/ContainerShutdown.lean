import DueServer.LibTransition

/-! The shutdown of a container (`container.go`) with the concurrent group it uses
(`Goroutines` of `utils/xcall`). The first `finishShutdown` runs the two groups, the others wait for
it. A deadline can pass at any moment; a call of a component can return, panic, or do neither. -/
namespace DueServer.Container

open Lib List

inductive Phase where
  | close
  | destroy
deriving DecidableEq

/-- The call of `Close` or `Destroy` of one component, which runs in a goroutine of its own. -/
inductive Call where
  | idle
  | spawned
  | running
  | returned
  | panicked
deriving DecidableEq

/-- Where the function of `shutdownFinishOnce` is: before, in the loop of `Run` that starts the
goroutines, in its `select`, at the look at the deadline between the groups, and at its end. -/
inductive Runner where
  | unstarted
  | spawning (p : Phase) (i : ℕ)
  | waiting (p : Phase)
  | checking
  | finished
deriving DecidableEq

/-- `shutdownErr`, with the components whose `Close` had not returned. -/
inductive Err where
  | closeDeadline (pending : List ℕ)
  | deadlineBeforeDestroy
  | destroyDeadline
deriving DecidableEq

/-- `waiting` counts the calls of `finishShutdown` that have not returned. -/
structure State where
  requested : Bool
  runner : Runner
  calls : Phase → ℕ → Call
  err : Option Err
  waiting : ℕ

inductive Event where
  | silent
  | spawned (p : Phase) (i : ℕ)
  | started (p : Phase) (i : ℕ)
  | ended (p : Phase) (i : ℕ) (ok : Bool)
  | returned (err : Option Err)
deriving DecidableEq

inductive Act where
  | shutdown
  | finishShutdown
  | run (late : Bool)
  | start (p : Phase) (i : ℕ)
  | finish (p : Phase) (i : ℕ) (ok : Bool)
  | return
deriving DecidableEq

namespace State

def init : State := ⟨false, .unstarted, fun _ _ => .idle, none, 0⟩

variable (n : ℕ) (s : State)

def setCall (p : Phase) (i : ℕ) (c : Call) : State :=
  { s with calls := fun q j => if q = p ∧ j = i then c else s.calls q j }

def fail (err : Err) : State := { s with runner := .finished, err := some err }

/-- The wait group of `Run` is at zero; a goroutine whose function has panicked is done as well. -/
def allDone (p : Phase) : Bool :=
  decide (∀ i < n, s.calls p i = .returned ∨ s.calls p i = .panicked)

def pending : List ℕ := (range n).filter fun i => s.calls .close i ≠ .returned

def passed : Phase → State
  | .close => { s with runner := .checking }
  | .destroy => { s with runner := .finished }

def run (late : Bool) : Option (State × Event) := match s.runner with
  | .unstarted | .finished => none
  | .spawning p i =>
    if i < n then some ({ s with runner := .spawning p (i + 1) }.setCall p i .spawned, .spawned p i)
    else if n = 0 then some (s.passed p, .silent)
    else some ({ s with runner := .waiting p }, .silent)
  | .waiting p =>
    if late then some (s.fail (match p with
      | .close => .closeDeadline (s.pending n)
      | .destroy => .destroyDeadline), .silent)
    else if s.allDone n p then some (s.passed p, .silent) else none
  | .checking =>
    if late then some (s.fail .deadlineBeforeDestroy, .silent)
    else some ({ s with runner := .spawning .destroy 0 }, .silent)

def step : Act → Option (State × Event)
  | .shutdown => some ({ s with requested := true }, .silent)
  | .finishShutdown => some ({ s with
      requested := true
      runner := if s.runner = .unstarted then .spawning .close 0 else s.runner
      waiting := s.waiting + 1 }, .silent)
  | .run late => s.run n late
  | .start p i =>
    if s.calls p i = .spawned then some (s.setCall p i .running, .started p i) else none
  | .finish p i ok =>
    if s.calls p i = .running then
      some (s.setCall p i (if ok then .returned else .panicked), .ended p i ok)
    else none
  | .return =>
    if 0 < s.waiting ∧ s.runner = .finished then
      some ({ s with waiting := s.waiting - 1 }, .returned s.err)
    else none

def calm (_ : State) : Act → Bool
  | .finish _ _ ok => ok
  | _ => true

end State

def Event.Fine (n : ℕ) (pre : List Event) : Event → Prop
  | .silent => True
  | .spawned _ _ => ∀ err, .returned (some err) ∉ pre
  | .started .close i => .started .close i ∉ pre
  | .started .destroy i => .started .destroy i ∉ pre ∧ ∀ j < n, .ended .close j true ∈ pre
  | .ended _ _ _ => True
  | .returned none => (∀ p, ∀ j < n, .ended p j true ∈ pre) ∧ ∀ err, .returned (some err) ∉ pre
  | .returned (some err) => ∀ r, .returned r ∈ pre → r = some err

def Runner.pastClose : Runner → Option Err → Bool
  | .checking, _ | .spawning .destroy _, _ | .waiting .destroy, _ => true
  | .finished, none => true
  | _, _ => false

def Runner.beforeDestroy : Runner → Bool
  | .checking | .spawning .close _ | .waiting .close => true
  | _ => false

structure Inv (n : ℕ) (tr : List Event) (s : State) : Prop where
  calm : ∀ p i, s.calls p i ≠ .panicked
  started : ∀ p i, .started p i ∈ tr → s.calls p i ≠ .idle ∧ s.calls p i ≠ .spawned
  ended : ∀ p i, s.calls p i = .returned → .ended p i true ∈ tr
  fresh : ∀ p i, s.runner = .spawning p i → ∀ j, i ≤ j → s.calls p j = .idle
  unstarted : s.runner = .unstarted → ∀ p i, s.calls p i = .idle
  destroys : ∀ i, s.calls .destroy i ≠ .idle → ∀ j < n, s.calls .close j = .returned
  before : s.runner.beforeDestroy = true → ∀ i, s.calls .destroy i = .idle
  closed : s.runner.pastClose s.err = true → ∀ j < n, s.calls .close j = .returned
  destroyed : s.runner = .finished → s.err = none → ∀ j < n, s.calls .destroy j = .returned
  silent : ∀ r, .returned r ∈ tr → s.runner = .finished ∧ r = s.err
  quiet : s.runner ≠ .finished → s.err = none

variable {n : ℕ} {tr : List Event} {s s' : State} {e : Event}

theorem Inv.turn (h : Inv n tr s) (hr : s.runner ≠ .finished) (hcs : s'.calls = s.calls)
    (hfr : ∀ p i, s'.runner = .spawning p i → ∀ j, i ≤ j → s.calls p j = .idle)
    (hstd : s'.runner ≠ .unstarted)
    (hbef : s'.runner.beforeDestroy = true → ∀ i, s.calls .destroy i = .idle)
    (hcl : s'.runner.pastClose s'.err = true → ∀ j < n, s.calls .close j = .returned)
    (hdes : s'.runner = .finished → s'.err = none → ∀ j < n, s.calls .destroy j = .returned)
    (hqt : s'.runner ≠ .finished → s'.err = none) : Inv n (tr ++ [.silent]) s' := by
  have hmem : ∀ e, e ∈ tr ++ [Event.silent] → e ≠ .silent → e ∈ tr := by
    intro e he hne
    exact (mem_append.mp he).resolve_right fun h => hne (mem_singleton.mp h)
  refine ⟨?_, ?_, ?_, ?_, fun h => absurd h hstd, ?_, ?_, ?_, ?_, ?_, hqt⟩ <;> rw [hcs] at *
  · exact h.calm
  · exact fun p i he => h.started p i (hmem _ he nofun)
  · exact fun p i hi => mem_append_left _ (h.ended p i hi)
  · exact hfr
  · exact h.destroys
  · exact hbef
  · exact hcl
  · exact hdes
  · exact fun r he => absurd (h.silent r (hmem _ he nofun)).1 hr

theorem Inv.count (h : Inv n tr s) (hcs : s'.calls = s.calls) (hrun : s'.runner = s.runner)
    (herr : s'.err = s.err) (he : ∀ p i, e ≠ .started p i)
    (hret : ∀ r, e = .returned r → s.runner = .finished ∧ r = s.err) : Inv n (tr ++ [e]) s' := by
  refine ⟨?_, ?_, ?_, ?_, ?_, ?_, ?_, ?_, ?_, ?_, ?_⟩ <;> rw [hcs] at * <;>
    try simp only [hrun, herr]
  · exact h.calm
  · intro p i hmem
    rcases mem_append.mp hmem with hold | hnew
    · exact h.started p i hold
    · exact absurd (mem_singleton.mp hnew).symm (he p i)
  · exact fun p i hi => mem_append_left _ (h.ended p i hi)
  · exact h.fresh
  · exact h.unstarted
  · exact h.destroys
  · exact h.before
  · exact h.closed
  · exact h.destroyed
  · intro r hmem
    rcases mem_append.mp hmem with hold | hnew
    · exact h.silent r hold
    · exact hret r (mem_singleton.mp hnew).symm
  · exact h.quiet

variable {p : Phase} {i : ℕ}

section

variable (h : Inv n tr s)

include h

theorem Inv.spawn (hr : s.runner = .spawning p i) :
    Inv n (tr ++ [.spawned p i]) ({ s with runner := .spawning p (i + 1) }.setCall p i .spawned) ∧
      (Event.spawned p i).Fine n tr := by
  -- the call has not begun, and `Destroy` comes after every `Close`
  have hlat := h.fresh p i hr
  have hne : s.runner ≠ .finished := by rw [hr]; nofun
  have hpast : p = .destroy → ∀ j < n, s.calls .close j = .returned := by
    rintro rfl
    exact h.closed (by rw [hr]; rfl)
  obtain ⟨hcalm, hstd, hend, hfr, huns, hdest, hbef, hcl, hdes, hsil,
    hqt⟩ := h
  cases p <;> refine ⟨⟨?_, ?_, ?_, ?_, ?_, ?_, ?_, ?_, ?_, ?_, ?_⟩, ?_⟩ <;>
    simp only [State.setCall, Event.Fine] <;> grind -linarith
      [Runner.pastClose, Runner.beforeDestroy]

theorem Inv.passed (hr : s.runner = .waiting p ∨ ∃ i, s.runner = .spawning p i)
    (hret : ∀ i < n, s.calls p i = .returned) : Inv n (tr ++ [.silent]) (s.passed p) := by
  have hne : s.runner ≠ .finished := by
    rcases hr with hr | ⟨i, hr⟩ <;> rw [hr] <;> nofun
  have herr := h.quiet hne
  cases p with
  | close =>
    have hidle := h.before (by rcases hr with hr | ⟨i, hr⟩ <;> rw [hr] <;> rfl)
    exact h.turn hne rfl nofun nofun (fun _ => hidle) (fun _ => hret) nofun fun _ => herr
  | destroy =>
    have hcl := h.closed (by rcases hr with hr | ⟨i, hr⟩ <;> rw [hr] <;> rfl)
    exact h.turn hne rfl nofun nofun nofun (fun _ => hcl) (fun _ _ => hret) fun h => absurd rfl h

theorem Inv.fail {err : Err} (hr : s.runner ≠ .finished) : Inv n (tr ++ [.silent]) (s.fail err) :=
  h.turn hr rfl nofun nofun nofun nofun nofun fun h => absurd rfl h

theorem run_ok {late : Bool} (hstep : s.run n late = some (s', e)) :
    Inv n (tr ++ [e]) s' ∧ e.Fine n tr := by
  unfold State.run at hstep
  split at hstep <;> rename_i hr
  · cases hstep
  · cases hstep
  · rename_i p i
    split at hstep
    · cases hstep
      exact h.spawn hr
    split at hstep <;> cases hstep
    · exact ⟨h.passed (.inr ⟨i, hr⟩) fun j hj => absurd hj (by omega), trivial⟩
    have hne : s.runner ≠ .finished := by rw [hr]; nofun
    refine ⟨h.turn hne rfl nofun nofun (fun hp => ?_) (fun hp => ?_) nofun
      fun _ => h.quiet hne, trivial⟩
    · refine h.before ?_
      rw [hr]
      cases p <;> first | rfl | cases hp
    · refine h.closed ?_
      rw [hr]
      cases p <;> first | rfl | cases hp
  · rename_i p
    split at hstep
    · cases hstep
      exact ⟨h.fail (by rw [hr]; nofun), trivial⟩
    split at hstep <;> cases hstep
    rename_i hall
    -- nothing has panicked, so everything has returned
    have hret : ∀ i < n, s.calls p i = .returned := fun i hi =>
      (of_decide_eq_true hall i hi).resolve_right (h.calm p i)
    exact ⟨h.passed (.inl hr) hret, trivial⟩
  · have hne : s.runner ≠ .finished := by rw [hr]; nofun
    split at hstep <;> cases hstep
    · exact ⟨h.fail hne, trivial⟩
    have hidle := h.before (by rw [hr]; rfl)
    refine ⟨h.turn hne rfl ?_ nofun nofun (fun _ => h.closed (by rw [hr]; rfl))
      nofun fun _ => h.quiet hne,
      trivial⟩
    rintro p i heq j -
    cases heq
    exact hidle j

/-- A call that has begun goes on: what is idle stays so, and what has returned as well. -/
theorem Inv.setCall {c : Call} (hold : s.calls p i ≠ .idle ∧ s.calls p i ≠ .returned)
    (hc : c = .running ∨ c = .returned ∧ e = .ended p i true)
    (he : ∀ q j, e = .started q j → q = p ∧ j = i) (hret : ∀ r, e ≠ .returned r) :
    Inv n (tr ++ [e]) (s.setCall p i c) := by
  have hidle : ∀ q j, (s.setCall p i c).calls q j = .idle ↔ s.calls q j = .idle := by
    simp only [State.setCall]
    grind -linarith
  have hkeep : ∀ q j, s.calls q j = .returned → (s.setCall p i c).calls q j = .returned := by
    simp only [State.setCall]
    grind -linarith
  refine ⟨fun q j => ?_, fun q j hmem => ?_, fun q j => ?_, fun q k hr j hj => ?_,
    fun hr q j => (hidle q j).mpr (h.unstarted hr q j), fun k hk j hj => ?_,
    fun hr j => (hidle _ j).mpr (h.before hr j), fun hr j hj => hkeep _ j (h.closed hr j hj),
    fun hr herr j hj => hkeep _ j (h.destroyed hr herr j hj), fun r hmem => ?_, h.quiet⟩
  · have hcalm := h.calm q j
    simp only [State.setCall]
    grind -linarith
  · have hstd := h.started q j
    have hstd' := he q j
    simp only [State.setCall]
    grind -linarith
  · have hend := h.ended q j
    simp only [State.setCall]
    grind -linarith
  · exact (hidle q j).mpr (h.fresh q k hr j hj)
  · exact hkeep _ j (h.destroys k (fun heq => hk ((hidle _ k).mpr heq)) j hj)
  · rcases mem_append.mp hmem with hmem | hmem
    · exact h.silent r hmem
    · exact absurd (mem_singleton.mp hmem).symm (hret r)

theorem Inv.start (hspa : s.calls p i = .spawned) :
    Inv n (tr ++ [.started p i]) (s.setCall p i .running) ∧ (Event.started p i).Fine n tr := by
  have hold : s.calls p i ≠ .idle ∧ s.calls p i ≠ .returned := by
    rw [hspa]
    exact ⟨nofun, nofun⟩
  refine ⟨h.setCall hold (.inl rfl) (fun q j heq => ?_) nofun, ?_⟩
  · cases heq
    exact ⟨rfl, rfl⟩
  have hfirst : .started p i ∉ tr := fun hmem => (h.started p i hmem).2 hspa
  cases p with
  | close => exact hfirst
  | destroy => exact ⟨hfirst, fun j hj => h.ended _ j (h.destroys i hold.1 j hj)⟩

theorem step_ok {act : Act} (hg : s.calm act = true) (hstep : s.step n act = some (s', e)) :
    Inv n (tr ++ [e]) s' ∧ e.Fine n tr := by
  cases act with
  | run late => exact run_ok h hstep
  | shutdown =>
    cases hstep
    exact ⟨h.count rfl rfl rfl nofun nofun, trivial⟩
  | finishShutdown =>
    cases hstep
    refine ⟨?_, trivial⟩
    by_cases hr : s.runner = .unstarted
    · have hidle := h.unstarted hr
      simp only [hr]
      refine h.turn (by rw [hr]; nofun) rfl (fun p i _ j _ => hidle p j)
        nofun (fun _ => hidle .destroy) nofun
        nofun fun _ => h.quiet (by rw [hr]; nofun)
    simp only [hr]
    exact h.count rfl rfl rfl nofun nofun
  | start p i =>
    simp only [State.step] at hstep
    split at hstep <;> cases hstep
    exact h.start ‹_›
  | finish p i ok =>
    simp only [State.step] at hstep
    split at hstep <;> cases hstep
    cases hg
    rename_i hrun
    exact ⟨h.setCall (by rw [hrun]; exact ⟨nofun, nofun⟩) (.inr ⟨rfl, rfl⟩) nofun nofun, trivial⟩
  | «return» =>
    simp only [State.step] at hstep
    split at hstep <;> cases hstep
    rename_i hfin
    refine ⟨h.count rfl rfl rfl nofun fun r hr => ?_, ?_⟩
    · cases hr
      exact ⟨hfin.2, rfl⟩
    · cases herr : s.err with
      | some err =>
        intro r hr
        exact (h.silent r hr).2.trans herr
      | none =>
        have hdone : ∀ p, ∀ j < n, s.calls p j = .returned := by
          intro p
          cases p with
          | close => exact h.closed (by rw [hfin.2, herr]; rfl)
          | destroy => exact h.destroyed hfin.2 herr
        refine ⟨fun p j hj => h.ended p j (hdone p j hj), fun err hmem => ?_⟩
        cases (h.silent _ hmem).2.trans herr

end

theorem init_ok : Inv n [] State.init := by
  constructor <;> simp [State.init, Runner.pastClose]

/-- Every `Destroy` starts after all `Close` calls have returned, every call is made once, `nil`
means that all of them have returned, and an error is final. -/
theorem shutdown_in_order (n : ℕ)
    (h : Run (guardedRel (State.step n) State.calm) .init tr s) (pre post : List Event)
    (htr : tr = pre ++ e :: post) : e.Fine n pre :=
  run_prefix (Inv n) init_ok (fun _ _ _ _ hs ⟨_, hg, hact⟩ => step_ok hs hg hact) h htr

/-- Two components; the second `Destroy` takes too long, and `finishShutdown` is called again. -/
def slowDestroy : List Act :=
  [.shutdown, .finishShutdown, .run false, .run false, .run false, .start .close 1, .start .close 0,
    .finish .close 0 true, .finishShutdown, .finish .close 1 true, .run false, .run false,
    .run false, .run false, .run false, .start .destroy 0, .finish .destroy 0 true,
    .start .destroy 1, .run true, .return, .return]

theorem slowDestroy_isSome : (exec (State.step 2) State.calm .init slowDestroy).isSome := rfl

theorem slowDestroy_in_order :
    let tr := ((exec (State.step 2) State.calm .init slowDestroy).get slowDestroy_isSome).1
    .returned (some .destroyDeadline) ∈ tr.take 20 ∧
      (Event.returned (some .destroyDeadline)).Fine 2 (tr.take 20) := by
  refine ⟨by decide +kernel, shutdown_in_order 2 (run_of_exec _ slowDestroy_isSome) _ [] ?_⟩
  decide +kernel

def panickingClose : List Act :=
  [.finishShutdown, .run false, .run false, .start .close 0, .finish .close 0 false, .run false,
    .run false, .run false, .start .destroy 0]

/-- `Destroy` starts although `Close` has not returned normally. -/
theorem panickingClose_destroys :
    ∃ tr s, Run (guardedRel (State.step 1) fun _ _ => true) .init tr s ∧
      .started .destroy 0 ∈ tr ∧ s.calls .close 0 = .panicked := by
  refine ⟨_, _, run_of_exec panickingClose rfl, ?_⟩
  decide +kernel

end DueServer.Container
