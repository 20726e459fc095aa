import DueServer.LibPool
import DueServer.LibTransition

/-! The barrier of the hooks. `runHookFunc` of the node, of the mesh and of the client, which have
one text, start a goroutine for each handler of a hook and wait for all of them. -/
namespace DueServer.HookBarrier

open List Lib

inductive Outcome where
  | returns
  | panics
deriving DecidableEq

/-- A goroutine of `xcall.Go`: in the handler, between the handler and `wg.Done`, or at its end. The
panic of a handler is recovered by `xcall.Call`, outside the function that calls `wg.Done`. -/
inductive Task where
  | running (o : Outcome)
  | returned
  | ended (o : Outcome)
deriving DecidableEq

inductive Pc where
  | spawning (rest : List Outcome)
  | waiting
  | returned
deriving DecidableEq

structure State where
  pc : Pc
  wg : ℕ
  tasks : List Task
deriving DecidableEq

inductive Action where
  | main
  | task (i : ℕ)

/-- `hooks[hook]` has been looked up and its handlers added to the wait group. -/
def start : Option (List Outcome) → State
  | none => ⟨.returned, 0, []⟩
  | some handlers => ⟨.spawning handlers, handlers.length, []⟩

namespace State

def move (s : State) : Action → Option State
  | .main =>
    match s.pc with
    | .spawning [] => some { s with pc := .waiting }
    | .spawning (o :: rest) =>
      some { s with pc := .spawning rest, tasks := s.tasks ++ [.running o] }
    | .waiting => if s.wg = 0 then some { s with pc := .returned } else none
    | .returned => none
  | .task i =>
    match s.tasks[i]? with
    | some (.running .returns) => some { s with tasks := s.tasks.set i .returned }
    | some (.running .panics) => some { s with tasks := s.tasks.set i (.ended .panics) }
    | some .returned => some { s with wg := s.wg - 1, tasks := s.tasks.set i (.ended .returns) }
    | _ => none

def step (s : State) (act : Action) : Option (State × Action) := (s.move act).map (·, act)

def rel : State → Action → State → Prop := guardedRel step fun _ _ => true

/-- No goroutine can move, now or ever. -/
def Stuck (s : State) : Prop := ∀ act, s.move act = none

def total (s : State) (f : Task → ℕ) : ℕ := (s.tasks.map f).sum

end State

def Pc.rest : Pc → List Outcome
  | .spawning rest => rest
  | _ => []

def Pc.left : Pc → ℕ
  | .spawning rest => 3 * rest.length + 2
  | .waiting => 1
  | .returned => 0

namespace Task

/-- `wg.Done` has not been called. -/
def held : Task → ℕ
  | .ended .returns => 0
  | _ => 1

def panicked : Task → ℕ
  | .running .panics | .ended .panics => 1
  | _ => 0

def left : Task → ℕ
  | .running _ => 2
  | .returned => 1
  | .ended _ => 0

end Task

structure Counted (handlers : List Outcome) (tr : List Action) (s : State) : Prop where
  wg : s.wg = s.pc.rest.length + s.total Task.held
  panics : s.pc.rest.count .panics + s.total Task.panicked = handlers.count .panics
  length : s.tasks.length + s.pc.rest.length = handlers.length
  steps : tr.length + s.pc.left + s.total Task.left ≤ 3 * handlers.length + 2
  opened : s.pc = .returned → s.wg = 0

variable {handlers : List Outcome} {tr : List Action} {s s' : State}

theorem Counted.main (h : Counted handlers tr s) (hmove : s.move .main = some s') :
    Counted handlers (tr ++ [.main]) s' := by
  obtain ⟨pc, wg, tasks⟩ := s
  obtain ⟨hwg, hpan, hlen, hste, -⟩ := h
  simp only [State.total] at hwg hpan hste
  simp only [State.move] at hmove
  split at hmove
  · constructor <;> grind [Pc.left, Pc.rest, State.total]
  · -- the handler moves from the rest to the goroutines
    rename_i o rest
    cases hmove
    cases o <;> constructor <;> simp only [State.total]
    all_goals grind -linarith [Pc.left, Pc.rest, Task.held, Task.panicked, Task.left]
  · split at hmove
    · constructor <;> grind [Pc.left, Pc.rest, State.total]
    · cases hmove
  · cases hmove

theorem Counted.task (h : Counted handlers tr s) {i : ℕ} (hmove : s.move (.task i) = some s') :
    Counted handlers (tr ++ [.task i]) s' := by
  obtain ⟨hwg, hpan, hlen, hste, hope⟩ := h
  simp only [State.total] at hwg hpan hste
  simp only [State.move] at hmove
  split at hmove
  all_goals try cases hmove
  all_goals
    rename_i hi
    have hset (t : Task) (f : Task → ℕ) := sum_map_set f t hi
    constructor <;> simp only [State.total]
  all_goals grind -linarith [Task.held, Task.panicked, Task.left]

theorem counted_start : ∀ handlers, Counted (handlers.getD []) [] (start handlers)
  | none => ⟨rfl, rfl, rfl, Nat.zero_le _, fun _ => rfl⟩
  | some _ => ⟨rfl, rfl, Nat.zero_add _, Nat.le_of_eq (by simp [start, Pc.left, State.total]),
      fun h => by cases h⟩

theorem run_counted {handlers : Option (List Outcome)}
    (hrun : Run State.rel (start handlers) tr s) : Counted (handlers.getD []) tr s := by
  refine run_invariant (fun tr s => Counted _ tr s) (counted_start handlers) ?_ hrun
  rintro tr s e s' h ⟨act, -, hstep⟩
  obtain ⟨s₁, hmove, heq⟩ := Option.map_eq_some_iff.mp hstep
  cases heq
  cases e with
  | main => exact h.main hmove
  | task => exact h.task hmove

theorem State.Stuck.ended (h : s.Stuck) {t : Task} (ht : t ∈ s.tasks) : ∃ o, t = .ended o := by
  obtain ⟨i, hi⟩ := mem_iff_getElem?.mp ht
  have hnone := h (.task i)
  simp only [State.move, hi] at hnone
  rcases t with (_ | _) | _ | o
  · cases hnone
  · cases hnone
  · cases hnone
  · exact ⟨o, rfl⟩

/-- At the end of a run what the wait group still counts are the handlers that have panicked. -/
theorem Counted.wg_of_stuck (h : Counted handlers tr s) (hstu : s.Stuck) :
    s.wg = handlers.count .panics ∧ s.pc.rest = [] := by
  have hheld : s.total Task.held = s.total Task.panicked := by
    refine congrArg sum (map_congr_left fun t ht => ?_)
    obtain ⟨o, rfl⟩ := hstu.ended ht
    cases o <;> rfl
  have hrest : s.pc.rest = [] := by
    have hmain := hstu .main
    unfold State.move at hmain
    grind [Pc.rest]
  refine ⟨?_, hrest⟩
  rw [h.wg, ← h.panics, hheld, hrest]
  rfl

/-- Every run of the barrier ends, and the barrier opens when all handlers have ended; in a run that
cannot go on it is open if and only if no handler has panicked. -/
theorem hook_barrier_opens_iff (handlers : Option (List Outcome)) (tr : List Action) (s : State)
    (hrun : Run State.rel (start handlers) tr s) :
    tr.length ≤ 3 * (handlers.getD []).length + 2 ∧
    (s.pc = .returned → s.tasks.length = (handlers.getD []).length ∧
      ∀ t ∈ s.tasks, ∃ o, t = .ended o) ∧
    (s.Stuck → (s.pc = .returned ↔ ∀ o ∈ handlers.getD [], o = .returns)) := by
  have h := run_counted hrun
  refine ⟨?_, fun hpc => ⟨?_, fun t ht => ?_⟩, fun hstu => ?_⟩
  · have hste := h.steps
    omega
  · have hlen := h.length
    rwa [hpc] at hlen
  · -- a goroutine that has not ended would still be counted
    have hwg := h.wg
    rw [h.opened hpc] at hwg
    have hzero := sum_eq_zero_iff.mp (Nat.eq_zero_of_add_eq_zero_left hwg.symm) t.held
      (mem_map_of_mem ht)
    rcases t with _ | _ | o
    · cases hzero
    · cases hzero
    · exact ⟨o, rfl⟩
  · obtain ⟨hwg, hrest⟩ := h.wg_of_stuck hstu
    have hnone : (∀ o ∈ handlers.getD [], o = .returns) ↔ s.wg = 0 := by
      rw [hwg, count_eq_zero]
      constructor
      · exact fun hall hmem => by cases hall _ hmem
      · intro hno o ho
        cases o with
        | returns => rfl
        | panics => exact absurd ho hno
    rw [hnone]
    refine ⟨h.opened, fun hzero => ?_⟩
    have hmain := hstu .main
    unfold State.move at hmain
    grind

def opens : Option (List Action × State) :=
  exec State.step (fun _ _ => true) (start (some [.returns, .returns]))
    [.main, .main, .main, .task 1, .task 0, .task 0, .task 1, .main]

theorem opens_isSome : opens.isSome = true := by decide

theorem returning_handlers_open :
    (opens.get opens_isSome).2.pc = .returned ∧ (opens.get opens_isSome).2.tasks.length = 2 := by
  have hpc : (opens.get opens_isSome).2.pc = .returned := by decide
  obtain ⟨-, hend, -⟩ := hook_barrier_opens_iff (some [.returns, .returns]) _ _
    (run_of_exec _ opens_isSome)
  exact ⟨hpc, (hend hpc).1⟩

theorem blocks_isSome : (exec State.step (fun _ _ => true) (start (some [.panics]))
    [.main, .main, .task 0]).isSome = true := by decide

/-- A hook with one handler, which panics: the goroutine has ended, and the barrier waits
forever. -/
theorem panicking_handler_blocks : ∃ tr s, Run State.rel (start (some [.panics])) tr s ∧
    s.tasks = [.ended .panics] ∧ s.Stuck ∧ s.pc = .waiting := by
  refine ⟨_, _, run_of_exec _ blocks_isSome, by decide, ?_, by decide⟩
  rintro (_ | _ | i) <;> rfl

end DueServer.HookBarrier
