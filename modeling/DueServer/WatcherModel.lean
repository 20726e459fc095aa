import DueServer.LibTransition

/-! One watcher manager with its watchers, in the redis locator (`locate/redis/watcher.go`) and in
the etcd registry (`registry/etcd/watcher.go`), in every interleaving. A watcher and the manager
have a read-write lock each, where a writer that waits keeps new readers out. What is sent is named
by the number of events the manager has seen: in the locator the event itself, in the registry the
list of instances after that many events. -/
namespace DueServer.Watcher

inductive Kind where
  | redis
  | etcd
deriving DecidableEq

inductive Status where
  | initial
  | running
  | stopped
deriving DecidableEq

/-- The events seen when the list was begun and when it was finished. Only `services` called by
`Next` can have events in between. -/
abbrev Payload := ℕ × ℕ

/-- `locker` is the call that has asked for the lock of the watcher, or has it; `due` is what
`broadcast` has begun to deliver while the watcher was in the map, `got` what `Next` has returned.
-/
structure Watch where
  state : Status := .initial
  registered : Bool := false
  chan : List Payload := []
  locker : Option ℕ := none
  due : List Payload := []
  got : List Payload := []
deriving DecidableEq

/-- The goroutine of the manager: it waits for events, takes the read lock of `broadcast`, goes
through the watchers, and takes the read lock of each and sends. -/
inductive Bc where
  | idle
  | rlock
  | loop (p : Payload) (todo : List ℕ)
  | wlock (p : Payload) (w : ℕ) (todo : List ℕ)
  | send (p : Payload) (w : ℕ) (todo : List ℕ)
deriving DecidableEq

namespace Bc

def holds : Bc → Bool
  | idle | rlock => false
  | _ => true

def reads : Bc → Option ℕ
  | send _ w _ => some w
  | _ => none

def inFlight (v : ℕ) : Bc → List Payload
  | idle | rlock => []
  | loop p todo => if v ∈ todo then [p] else []
  | wlock p w todo | send p w todo => if v = w ∨ v ∈ todo then [p] else []

end Bc

/-- Where a call of `Next` or `Stop` is; `locking` and `recLocking` wait for the readers. -/
inductive Pc where
  | idle
  | nextLock (w : ℕ)
  | nextLocking (w : ℕ)
  | snapshot (w : ℕ)
  | reading (w first : ℕ)
  | receive (w : ℕ)
  | stopLock (w : ℕ)
  | stopLocking (w : ℕ)
  | recLock (w : ℕ)
  | recLocking (w : ℕ)
deriving DecidableEq

namespace Pc

def on : Pc → Option ℕ
  | idle => none
  | nextLock w | nextLocking w | snapshot w | reading w _ | receive w | stopLock w | stopLocking w
  | recLock w | recLocking w => some w

def recycles : Pc → Option ℕ
  | recLock w | recLocking w => some w
  | _ => none

def lists : Pc → Option ℕ
  | snapshot w | reading w _ => some w
  | _ => none

end Pc

structure State where
  pos : ℕ
  dirty : Bool
  bc : Bc
  locker : Option ℕ
  forked : ℕ
  ws : ℕ → Watch
  called : ℕ
  pcs : ℕ → Pc

inductive Act where
  | fork
  | next (w : ℕ)
  | stop (w : ℕ)
  | event
  | broadcast
  | bc (w : ℕ)
  | go (i : ℕ) (cancelled : Bool)
deriving DecidableEq

namespace State

def init : State := ⟨0, false, .idle, none, 0, fun _ => {}, 0, fun _ => .idle⟩

variable (kind : Kind) (s : State)

def capacity : ℕ := 16

def goto (i : ℕ) (pc : Pc) : State := { s with pcs := Function.update s.pcs i pc }

def setW (w : ℕ) (x : Watch) : State := { s with ws := Function.update s.ws w x }

def start (pc : Pc) : State := { s with called := s.called + 1 }.goto s.called pc

def full (w : ℕ) : Bool := (s.ws w).state = .running && capacity ≤ (s.ws w).chan.length

/-- `notify`, with the read lock of the watcher. -/
def notify (p : Payload) (w : ℕ) : State :=
  if (s.ws w).state = .running then s.setW w { s.ws w with chan := (s.ws w).chan ++ [p] } else s

def begin : State := { s with
  bc := .loop (s.pos, s.pos) ((List.range s.forked).filter fun w => (s.ws w).registered)
  dirty := false
  ws := fun w =>
    if w < s.forked ∧ (s.ws w).registered then
      { s.ws w with due := (s.ws w).due ++ [(s.pos, s.pos)] }
    else s.ws w }

def stepBc (w : ℕ) : Option State := match s.bc with
  | .idle => none
  | .rlock => if s.locker = none then some s.begin else none
  | .loop p todo =>
    if todo = [] then some { s with bc := .idle }
    else if w ∈ todo then some { s with bc := .wlock p w (todo.erase w) }
    else none
  | .wlock p v todo => if (s.ws v).locker = none then some { s with bc := .send p v todo } else none
  | .send p v todo => if s.full v then none else some { s.notify p v with bc := .loop p todo }

/-- `Next` has the lock of its watcher, looks at the state and gives the lock back. -/
def enter (i w : ℕ) : State :=
  let x := s.ws w
  if x.state = .initial then
    (s.setW w { x with state := .running, locker := none }).goto i
      (if kind = .etcd then .snapshot w else .receive w)
  else (s.setW w { x with locker := none }).goto i (.receive w)

/-- A call goes on. After `Stop` the context of the watcher is cancelled and its channel closed. -/
def stepCall (i : ℕ) (cancelled : Bool) : Option State := match s.pcs i with
  | .idle => none
  | .nextLock w =>
    if (s.ws w).locker = none then
      some ((s.setW w { s.ws w with locker := some i }).goto i (.nextLocking w))
    else none
  | .nextLocking w => if s.bc.reads = some w then none else some (s.enter kind i w)
  | .snapshot w => some (s.goto i (.reading w s.pos))
  | .reading w first =>
    some ((s.setW w { s.ws w with got := (s.ws w).got ++ [(first, s.pos)] }).goto i .idle)
  | .receive w => match (s.ws w).chan with
    | p :: rest =>
      if cancelled ∧ (s.ws w).state = .stopped then some (s.goto i .idle)
      else some ((s.setW w { s.ws w with chan := rest, got := (s.ws w).got ++ [p] }).goto i .idle)
    | [] => if (s.ws w).state = .stopped then some (s.goto i .idle) else none
  | .stopLock w =>
    if (s.ws w).locker = none then
      some ((s.setW w { s.ws w with locker := some i }).goto i (.stopLocking w))
    else none
  | .stopLocking w =>
    if s.bc.reads = some w then none
    else if (s.ws w).state = .stopped then
      some ((s.setW w { s.ws w with locker := none }).goto i .idle)
    else some ((s.setW w { s.ws w with state := .stopped }).goto i (.recLock w))
  | .recLock w =>
    if s.locker = none then some ({ s with locker := some i }.goto i (.recLocking w)) else none
  | .recLocking w =>
    if s.bc.holds then none
    else some (({ s with locker := none }.setW w
      { s.ws w with registered := false, locker := none }).goto i .idle)

def move : Act → Option State
  | .fork =>
    if s.locker = none ∧ s.bc.holds = false then
      some ({ s with forked := s.forked + 1 }.setW s.forked { registered := true })
    else none
  | .next w => if w < s.forked then some (s.start (.nextLock w)) else none
  | .stop w => if w < s.forked then some (s.start (.stopLock w)) else none
  | .event =>
    if s.bc = .idle then
      some { s with pos := s.pos + 1, dirty := true, bc := if kind = .redis then .rlock else .idle }
    else none
  | .broadcast => if s.bc = .idle ∧ kind = .etcd then some { s with bc := .rlock } else none
  | .bc w => s.stepBc w
  | .go i cancelled => s.stepCall kind i cancelled

def step (s : State) (act : Act) : Option (State × Act) := (s.move kind act).map (·, act)

end State

end DueServer.Watcher
