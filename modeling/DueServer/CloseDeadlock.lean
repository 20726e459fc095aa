import DueServer.WriteQueueModel

/-! The lock, the bounded queues and the writer of one websocket connection
(`network/ws/server_conn.go`), in every interleaving. `graceClose`, and `Send` and `Push` without a
write timeout, wait for room in a queue with the read lock in hand; the writer, which makes the
room, closes the connection itself after a failed write. -/
namespace DueServer.Closing

open Lib Function
open Ws (ConnState)
open WriteQueue (TaskType)

/-- `writeQueueSize`, and whether `writeTimeout` is positive. -/
structure Config where
  size : ℕ
  timed : Bool

inductive Queue where
  | high
  | low
deriving DecidableEq

inductive Gor where
  | writer
  | caller (i : ℕ)
deriving DecidableEq

inductive Pc where
  | idle
  -- Send and Push
  | check (q : Queue)
  | rlock (q : Queue)
  | enqueue (q : Queue)
  | runlock (q : Queue) (late : Bool)
  -- graceClose
  | hang
  | hangRLock
  | signal
  | hangRUnlock (done : Bool)
  | await
  | swap
  -- forceClose and doClose; `locking` waits for the readers
  | force
  | lock
  | locking
  | discard
  -- the writer
  | loop
  | write
  | doneRLock
  | done
  | doneRUnlock
deriving DecidableEq

def Pc.reads : Pc → Bool
  | .enqueue _ | .runlock _ _ | .signal | .hangRUnlock _ | .done | .doneRUnlock => true
  | _ => false

/-- It has switched the state to closed and is in `doClose` before the connection is taken. -/
def Pc.closes : Pc → Bool
  | .lock | .locking => true
  | _ => false

def Pc.waits (cfg : Config) : Pc → Option Queue
  | .enqueue q => if cfg.timed then none else some q
  | .signal => some .low
  | _ => none

/-- `conn` says whether the connection is there, `locker` is the goroutine that has asked for the
write lock, or has it. -/
structure State where
  state : ConnState
  conn : Bool
  queue : Queue → List TaskType
  locker : Option Gor
  called : ℕ
  pcs : Gor → Pc

/-- What a goroutine meets: `late` is the end of a write timeout, for `Push` one too many of them;
`fail` an error of the socket or a missed heartbeat; `take` the queue the writer receives from. -/
inductive Choice where
  | go
  | late
  | fail
  | take (q : Queue)
  | meet (i : ℕ)
deriving DecidableEq

inductive Act where
  | send
  | push
  | graceClose
  | forceClose
  | next (g : Gor) (choice : Choice)
deriving DecidableEq

namespace State

def init : State where
  state := .opened
  conn := true
  queue := fun _ => []
  locker := none
  called := 0
  pcs := fun g => if g = .writer then .loop else .idle

variable (cfg : Config) (s : State)

def goto (g : Gor) (pc : Pc) : State := { s with pcs := update s.pcs g pc }

def setQueue (q : Queue) (ts : List TaskType) : State := { s with queue := update s.queue q ts }

def full (q : Queue) : Bool := cfg.size ≤ (s.queue q).length

def put (g : Gor) (q : Queue) (t : TaskType) (pc : Pc) : Option State :=
  if s.full cfg q then none else some ((s.setQueue q (s.queue q ++ [t])).goto g pc)

def reading : Bool :=
  (s.pcs .writer).reads || decide (∃ i < s.called, (s.pcs (.caller i)).reads = true)

def received : TaskType → Pc
  | .closeSig => .doneRLock
  | _ => .write

def next (g : Gor) (choice : Choice) : Option State := match s.pcs g with
  | .idle => none
  | .check q => some (s.goto g (if s.state = .opened then .rlock q else .idle))
  | .rlock q => if s.locker = none then some (s.goto g (.enqueue q)) else none
  | .enqueue q =>
    if !s.conn then some (s.goto g (.runlock q false))
    else if choice = .late ∧ cfg.timed then some (s.goto g (.runlock q true))
    else s.put cfg g q .dataPacket (.runlock q false)
  | .runlock q late =>
    -- a low-priority timeout closes the connection only at its limit
    let closes := late && s.state ≠ .closed && (q = .high || choice = .late)
    some (s.goto g (if closes then .force else .idle))
  | .hang =>
    if s.state = .opened then some ({ s with state := .hanged }.goto g .hangRLock)
    else some (s.goto g .idle)
  | .hangRLock => if s.locker = none then some (s.goto g .signal) else none
  | .signal =>
    if !s.conn then some (s.goto g (.hangRUnlock true))
    else s.put cfg g .low .closeSig (.hangRUnlock false)
  | .hangRUnlock gone => some (s.goto g (if gone then .idle else .await))
  -- the channel `done` is closed with the connection
  | .await => if !s.conn then some (s.goto g .swap) else none
  | .swap =>
    if s.state = .hanged then some ({ s with state := .closed }.goto g .lock)
    else some (s.goto g .idle)
  | .force =>
    if s.state ≠ .closed then some ({ s with state := .closed }.goto g .lock)
    else some (s.goto g .idle)
  | .lock => if s.locker = none then some ({ s with locker := some g }.goto g .locking) else none
  | .locking =>
    if s.reading then none
    else some ({ s with locker := none, conn := false }.goto g (if s.conn then .discard else .idle))
  | .discard => some ({ s with queue := fun _ => [] }.goto g .idle)
  | .loop => match choice with
    | .take q => match s.queue q with
      | [] => if s.conn then none else some (s.goto g .idle)
      | t :: ts => some ((s.setQueue q ts).goto g (received t))
    | .fail => some (s.goto g .force)
    | _ => none
  | .write =>
    if s.state = .closed then some (s.goto g .idle)
    else if choice = .fail then some (s.goto g .force)
    else some (s.goto g .loop)
  | .doneRLock => if s.locker = none then some (s.goto g .done) else none
  | .done =>
    if !s.conn then some (s.goto g .doneRUnlock)
    else match choice with
      -- `c.done <- struct{}{}` meets a `graceClose`
      | .meet i =>
        if s.pcs (.caller i) = .await then some ((s.goto (.caller i) .swap).goto g .doneRUnlock)
        else none
      | _ => none
  | .doneRUnlock => some (s.goto g .idle)

def start (pc : Pc) : State := { s with called := s.called + 1 }.goto (.caller s.called) pc

def step (s : State) (act : Act) : Option (State × Act) := match act with
  | .send => some (s.start (.check .high), act)
  | .push => some (s.start (.check .low), act)
  | .graceClose => some (s.start .hang, act)
  | .forceClose => some (s.start .force, act)
  | .next g choice => (s.next cfg g choice).map (·, act)

def unwaited (s : State) : Act → Bool
  | .next .writer _ => s.pcs .writer ≠ .lock ||
      decide (∀ i < s.called, (s.pcs (.caller i)).waits cfg = none)
  | _ => true

def Deadlock (s : State) : Prop :=
  (∃ g q, (s.pcs g).waits cfg = some q ∧ s.conn = true ∧ s.full cfg q = true) ∧
    (s.pcs .writer = .locking ∨ s.pcs .writer = .lock ∧ s.locker ≠ none)

end State

/-- There is one goroutine in `doClose`, and nobody waits with the read lock once the writer has
asked for the write lock. -/
structure Inv (cfg : Config) (s : State) : Prop where
  late : ∀ i, s.called ≤ i → s.pcs (.caller i) = .idle
  opened : ∀ g, (s.pcs g).closes = true → s.state = .closed
  unique : ∀ g g', (s.pcs g).closes = true → (s.pcs g').closes = true → g = g'
  locker : ∀ g, s.locker = some g ↔ s.pcs g = .locking
  waits : s.pcs .writer = .locking → ∀ g, (s.pcs g).waits cfg = none

variable {cfg : Config} {s s' : State} {g : Gor} {choice : Choice}

section

variable (h : Inv cfg s)

include h

/-- A goroutine goes on outside `doClose`. It gets the read lock only when nobody has asked for the
write lock. -/
theorem Inv.move {pc : Pc} (hcal : s'.called = s.called) (hlock : s'.locker = s.locker)
    (hpcs : s'.pcs = update s.pcs g pc) (hstt : s.state = .closed → s'.state = .closed)
    (hlive : s.pcs g ≠ .idle) (hold : (s.pcs g).closes = false) (hpc : pc.closes = false)
    (hwait : pc.waits cfg ≠ none → s.locker = none) : Inv cfg s' := by
  cases h
  constructor <;> rw [hpcs] <;> grind -linarith [Pc.closes]

theorem Inv.win (hstt : s.state ≠ .closed) (hlive : s.pcs g ≠ .idle) :
    Inv cfg ({ s with state := .closed }.goto g .lock) := by
  cases h
  constructor <;> simp only [State.goto] <;> grind -linarith [Pc.closes, Pc.waits]

theorem Inv.announce (hpc : s.pcs g = .lock) (hlock : s.locker = none)
    (hfree : g = .writer → ∀ i < s.called, (s.pcs (.caller i)).waits cfg = none) :
    Inv cfg ({ s with locker := some g }.goto g .locking) := by
  obtain ⟨hlate, hope, huni, hloc, hws⟩ := h
  have hall : g = .writer → ∀ g', (s.pcs g').waits cfg = none := by
    rintro rfl g'
    cases g' with
    | writer => simp [hpc, Pc.waits]
    | caller i =>
      by_cases hi : i < s.called
      · exact hfree rfl i hi
      · simp [hlate i (Nat.le_of_not_lt hi), Pc.waits]
  refine ⟨?_, ?_, ?_, ?_, ?_⟩ <;> simp only [State.goto] <;> grind -linarith [Pc.closes, Pc.waits]

theorem Inv.take {pc : Pc} (hpc : s.pcs g = .locking) (hnew : pc.closes = false) :
    Inv cfg ({ s with locker := none, conn := false }.goto g pc) := by
  cases h
  constructor <;> simp only [State.goto] <;> grind -linarith [Pc.closes]

section

variable {pc pc' : Pc} (hpc : s.pcs g = pc) (hold : pc ≠ .idle ∧ pc.closes = false)

include hpc hold

theorem Inv.goto {t : State} (ht : t.called = s.called ∧ t.locker = s.locker ∧ t.pcs = s.pcs ∧
      (s.state = .closed → t.state = .closed)) (hnew : pc'.closes = false)
    (hwait : pc'.waits cfg = none ∨ s.locker = none) : Inv cfg (t.goto g pc') := by
  obtain ⟨hcal, hlock, hpcs, hstt⟩ := ht
  subst hpc
  exact h.move hcal hlock (by rw [State.goto, hpcs]) hstt hold.1 hold.2 hnew
    fun hne => hwait.resolve_left hne

theorem Inv.step (hnew : pc'.closes = false ∧ pc'.waits cfg = none) : Inv cfg (s.goto g pc') :=
  h.goto hpc hold ⟨rfl, rfl, rfl, id⟩ hnew.1 (.inl hnew.2)

theorem Inv.put {q : Queue} {t : TaskType} (hnew : pc'.closes = false ∧ pc'.waits cfg = none)
    (hput : s.put cfg g q t pc' = some s') : Inv cfg s' := by
  unfold State.put at hput
  split at hput <;> cases hput
  exact h.goto hpc hold ⟨rfl, rfl, rfl, id⟩ hnew.1 (.inl hnew.2)

end

/-- The writer tells the `graceClose` of a caller that it is done. -/
theorem Inv.meet {i : ℕ} (hpc : s.pcs g = .done) (hawait : s.pcs (.caller i) = .await) :
    Inv cfg ((s.goto (.caller i) .swap).goto g .doneRUnlock) := by
  have hne : g ≠ .caller i := by
    rintro rfl
    cases hpc.symm.trans hawait
  have hmet : Inv cfg (s.goto (.caller i) .swap) := h.step hawait ⟨nofun, rfl⟩ ⟨rfl, rfl⟩
  exact hmet.step ((update_of_ne hne ..).trans hpc) ⟨nofun, rfl⟩ ⟨rfl, rfl⟩

theorem next_ok (hg : s.unwaited cfg (.next g choice) = true)
    (hstep : s.next cfg g choice = some s') : Inv cfg s' := by
  unfold State.next at hstep
  cases hpc : s.pcs g <;> rw [hpc] at hstep <;> dsimp only at hstep
  case idle => cases hstep
  case check | runlock | hangRUnlock =>
    cases hstep
    refine h.step hpc ⟨nofun, rfl⟩ ?_
    split <;> exact ⟨rfl, rfl⟩
  case rlock | hangRLock | doneRLock =>
    split at hstep <;> cases hstep
    exact h.goto hpc ⟨nofun, rfl⟩ ⟨rfl, rfl, rfl, id⟩ rfl (.inr ‹_›)
  case enqueue =>
    split at hstep
    · cases hstep
      exact h.step hpc ⟨nofun, rfl⟩ ⟨rfl, rfl⟩
    split at hstep
    · cases hstep
      exact h.step hpc ⟨nofun, rfl⟩ ⟨rfl, rfl⟩
    · exact h.put hpc ⟨nofun, rfl⟩ ⟨rfl, rfl⟩ hstep
  case hang =>
    split at hstep <;> cases hstep
    · rename_i hopen
      exact h.goto hpc ⟨nofun, rfl⟩ ⟨rfl, rfl, rfl, fun hc => by simp [hopen] at hc⟩ rfl (.inl rfl)
    · exact h.step hpc ⟨nofun, rfl⟩ ⟨rfl, rfl⟩
  case signal =>
    split at hstep
    · cases hstep
      exact h.step hpc ⟨nofun, rfl⟩ ⟨rfl, rfl⟩
    · exact h.put hpc ⟨nofun, rfl⟩ ⟨rfl, rfl⟩ hstep
  case await =>
    split at hstep <;> cases hstep
    exact h.step hpc ⟨nofun, rfl⟩ ⟨rfl, rfl⟩
  case swap =>
    split at hstep <;> cases hstep
    · rename_i hhan
      exact h.win (by rw [hhan]; nofun) (by rw [hpc]; nofun)
    · exact h.step hpc ⟨nofun, rfl⟩ ⟨rfl, rfl⟩
  case force =>
    split at hstep <;> cases hstep
    · exact h.win ‹_› (by rw [hpc]; nofun)
    · exact h.step hpc ⟨nofun, rfl⟩ ⟨rfl, rfl⟩
  case lock =>
    split at hstep <;> cases hstep
    refine h.announce hpc ‹_› ?_
    rintro rfl
    simpa [State.unwaited, hpc] using hg
  case locking =>
    split at hstep <;> cases hstep
    apply h.take hpc
    split <;> rfl
  case discard =>
    cases hstep
    exact h.goto hpc ⟨nofun, rfl⟩ ⟨rfl, rfl, rfl, id⟩ rfl (.inl rfl)
  case loop =>
    split at hstep
    · split at hstep
      · split at hstep <;> cases hstep
        exact h.step hpc ⟨nofun, rfl⟩ ⟨rfl, rfl⟩
      · rename_i t ts _
        cases hstep
        refine h.goto hpc ⟨nofun, rfl⟩ ⟨rfl, rfl, rfl, id⟩ ?_ (.inl ?_) <;> cases t <;> rfl
    · cases hstep
      exact h.step hpc ⟨nofun, rfl⟩ ⟨rfl, rfl⟩
    · cases hstep
  case write =>
    split at hstep
    · cases hstep
      exact h.step hpc ⟨nofun, rfl⟩ ⟨rfl, rfl⟩
    split at hstep <;> cases hstep <;> exact h.step hpc ⟨nofun, rfl⟩ ⟨rfl, rfl⟩
  case done =>
    split at hstep
    · cases hstep
      exact h.step hpc ⟨nofun, rfl⟩ ⟨rfl, rfl⟩
    split at hstep
    · split at hstep <;> cases hstep
      exact h.meet hpc ‹_›
    · cases hstep
  case doneRUnlock =>
    cases hstep
    exact h.step hpc ⟨nofun, rfl⟩ ⟨rfl, rfl⟩

theorem start_ok {pc : Pc} (hpc : pc.closes = false) (hwait : pc.waits cfg = none) :
    Inv cfg (s.start pc) := by
  cases h
  constructor <;> simp only [State.start, State.goto] <;> grind -linarith [Pc.closes]

theorem step_ok {act e : Act} (hg : s.unwaited cfg act = true)
    (hstep : State.step cfg s act = some (s', e)) : Inv cfg s' := by
  cases act with
  | next g choice =>
    obtain ⟨t, ht, heq⟩ := Option.map_eq_some_iff.mp hstep
    cases heq
    exact next_ok h hg ht
  | send | push | graceClose | forceClose =>
    cases hstep
    exact start_ok h rfl rfl

end

theorem init_ok : Inv cfg State.init := by
  have hpcs : ∀ g, State.init.pcs g = .loop ∨ State.init.pcs g = .idle := by
    intro g
    cases g <;> simp [State.init]
  refine ⟨fun _ _ => rfl, ?_, ?_, ?_, nofun⟩ <;> intro g <;> have := hpcs g <;>
    grind -linarith [Pc.closes, State.init]

/-- The writer never waits for the write lock while a goroutine with the read lock waits for the
writer. -/
theorem close_never_deadlocks (cfg : Config) {tr : List Act}
    (h : Run (guardedRel (State.step cfg) (State.unwaited cfg)) .init tr s) : ¬ s.Deadlock cfg := by
  have hinv : Inv cfg s :=
    run_invariant (fun _ s => Inv cfg s) init_ok (fun _ _ _ _ hs ⟨_, hg, hact⟩ =>
      step_ok hs hg hact) h
  rintro ⟨⟨g, q, hwait, -, -⟩, hloc | ⟨hlock, hheld⟩⟩
  · rw [hinv.waits hloc g] at hwait
    cases hwait
  · -- the goroutine that has asked for the lock would be a second one in `doClose`
    obtain ⟨g', hg'⟩ := Option.ne_none_iff_exists'.mp hheld
    have hloc := (hinv.locker g').mp hg'
    have heq := hinv.unique g' .writer (by rw [hloc]; rfl) (by rw [hlock]; rfl)
    rw [heq, hlock] at hloc
    cases hloc

def failedWrite : List Act :=
  [.push, .next (.caller 0) .go, .next (.caller 0) .go, .next (.caller 0) .go,
    .next (.caller 0) .go, .next .writer (.take .low), .graceClose, .next (.caller 1) .go,
    .next .writer .fail, .next .writer .go, .next .writer .go]

theorem failedWrite_isSome :
    (exec (State.step ⟨1, true⟩) (State.unwaited ⟨1, true⟩) .init failedWrite).isSome := rfl

theorem failedWrite_never_deadlocks :
    let s := ((exec (State.step ⟨1, true⟩) (State.unwaited ⟨1, true⟩) .init failedWrite).get
      failedWrite_isSome).2
    s.pcs .writer = .locking ∧ s.pcs (.caller 1) = .hangRLock ∧ ¬ s.Deadlock ⟨1, true⟩ :=
  ⟨by decide +kernel, by decide +kernel, close_never_deadlocks ⟨1, true⟩
    (run_of_exec _ failedWrite_isSome)⟩

def fullQueue : List Act :=
  [.push, .next (.caller 0) .go, .next (.caller 0) .go, .next (.caller 0) .go,
    .next (.caller 0) .go, .next .writer (.take .low), .push, .next (.caller 1) .go,
    .next (.caller 1) .go, .next (.caller 1) .go, .next (.caller 1) .go, .graceClose,
    .next (.caller 2) .go, .next (.caller 2) .go, .next .writer .fail, .next .writer .go,
    .next .writer .go]

/-- Nobody can go on any more, whatever the write timeout. -/
theorem fullQueue_deadlocks :
    ∃ tr s, Run (guardedRel (State.step ⟨1, true⟩) fun _ _ => true) .init tr s ∧
      s.Deadlock ⟨1, true⟩ ∧ s.next ⟨1, true⟩ (.caller 2) .go = none ∧
      s.next ⟨1, true⟩ .writer .go = none := by
  refine ⟨_, _, run_of_exec fullQueue rfl, ⟨⟨.caller 2, .low, ?_⟩, ?_⟩, ?_⟩ <;> decide +kernel

end DueServer.Closing
