import DueServer.LibPool
import DueServer.LibTransition

/-! The actors of a node and their scheduler (`cluster/node/actor.go`, `cluster/node/scheduler.go`)
in every interleaving. A call is taken apart at the callbacks of the application, at each access to
the registry (a `sync.Map`, read without the mutex), and where a lock is waited for; a section under
`lifecycleMu` or under one of the `rw` is one step. The swap of the state in `destroy` is outside
`lifecycleMu`, but a section that has loaded the state does not read it again, so the swap may as
well come after it. -/
namespace DueServer.Scheduler

open Function

/-- `actorOptions`. Of the callbacks and the timeout it matters whether they are set. -/
structure Options where
  id : String
  kind : String
  wait : Bool
  idleTimeout : Bool
  releaseGuard : Bool
  releaseHook : Bool
  releaseGuardCanceled : Bool
deriving DecidableEq

def Options.pid (o : Options) : String := o.kind ++ "/" ++ o.id

/-- What is recorded of the life of an actor. `unregistered` names the instance that the registry
had under the PID, `sent` says whether the channel was closed, and the events of an idle release
name the timer that started it. -/
inductive Life where
  | rejected
  | addWait
  | init
  | start
  | nilProcessor
  | unregistered (removed : Option ℕ)
  | destroy
  | destroyed
  | hook
  | hooked
  | complete
  | doneWait
  | returned
  | active
  | idle (generation : UInt64)
  | guarded (timer : ℕ) (ok : Bool)
  | committed (timer : ℕ) (generation : UInt64)
  | canceled (timer : ℕ)
  | sent (closed : Bool)
deriving DecidableEq

/-- `Actor`. Its state is `started` from the beginning, until it is `destroyed`; `closed` is the
state of `mailbox` and `fnChan`, `readers` counts the read locks, `complete` is its termination. -/
structure Actor where
  opts : Options
  destroyed : Bool
  processor : Bool
  closed : Bool
  readers : ℕ
  binds : ℤ → Bool
  idleTimer : Option ℕ
  idleGeneration : UInt64
  complete : Bool
  life : List Life

structure Timer where
  id : ℕ
  actor : ℕ
  generation : UInt64
deriving DecidableEq

inductive Call where
  -- `spawnObserved`
  | locking (actor : ℕ)
  | initing (actor : ℕ)
  | storing (actor : ℕ)
  | unlocking (actor : ℕ)
  | starting (actor : ℕ)
  -- `kill` and `killActor`
  | removing (kind id : String)
  | removingActor (actor : ℕ)
  -- `removeActorLocked` after the registry, for `killIdleActor` or not
  | unrelating (actor : ℕ) (idle : Bool)
  -- `destroy`
  | swapping (actor : ℕ)
  | cancelling (actor : ℕ)
  -- `finishDestroy`
  | destroying (actor : ℕ)
  | inDestroy (actor : ℕ)
  | unbinding (actor : ℕ)
  | closing (actor : ℕ)
  | hooking (actor : ℕ)
  | inHook (actor : ℕ)
  | completing (actor : ℕ)
  -- the end of the three ways to kill
  | finishing (actor : ℕ)
  -- `releaseIdleGeneration`, and `killIdleActor` up to the registry
  | fired (actor : ℕ) (generation : UInt64) (timer : ℕ)
  | guarding (actor : ℕ) (generation : UInt64) (timer : ℕ)
  | denied (actor : ℕ) (generation : UInt64) (timer : ℕ)
  | committing (actor : ℕ) (generation : UInt64) (timer : ℕ)
  | deleting (actor : ℕ)
  | canceling (actor timer : ℕ)
  -- `Next`, `TryInvoke` and `TryInvokeContext`
  | reading (actor : ℕ)
  | sending (actor : ℕ)
  | runlocking (actor : ℕ)
  -- `bindActor`
  | loading (uid : ℤ) (kind id : String)
  | binding (uid : ℤ) (actor : ℕ)
  | relating (uid : ℤ) (actor : ℕ)
deriving DecidableEq

def Call.subject : Call → Option ℕ
  | .locking a | .initing a | .storing a | .unlocking a | .starting a | .removingActor a
  | .unrelating a _ | .swapping a | .cancelling a | .destroying a | .inDestroy a | .unbinding a
  | .closing a | .hooking a | .inHook a | .completing a | .finishing a | .fired a _ _
  | .guarding a _ _ | .denied a _ _ | .committing a _ _ | .deleting a | .canceling a _
  | .reading a | .sending a | .runlocking a | .binding _ a | .relating _ a => some a
  | .removing _ _ | .loading _ _ _ => none

/-- The scheduler with the actors spawned so far; `mu` says whether its mutex is locked, `timers`
are pending, and `ids` numbers them. -/
structure State where
  actors : ℕ → Actor
  made : ℕ
  registry : String → Option ℕ
  relations : ℤ → String → Option ℕ
  mu : Bool
  timers : List Timer
  ids : ℕ
  calls : List Call

/-- What one step does: the calls in place of the one that moves, what it makes of one actor, and
what of the scheduler. -/
structure Effect where
  calls : List Call
  actor : ℕ
  write : Actor → Actor := id
  births : ℕ := 0
  registry : (String → Option ℕ) → String → Option ℕ := id
  relations : (ℤ → String → Option ℕ) → ℤ → String → Option ℕ := id
  mu : Bool → Bool := id
  timers : List Timer → List Timer := id
  ids : ℕ := 0

/-- A step that leaves the scheduler as it is. -/
abbrev Effect.on (actor : ℕ) (calls : List Call) (write : Actor → Actor := id) : Effect :=
  { calls, actor, write }

/-- A scheduling choice: a call in progress takes its next step (with the answer of a release guard,
or whether a sender goes on or gives up with its context), a call begins, or a timer fires. -/
inductive Act where
  | step (call : ℕ) (choice : Bool)
  | spawn (opts : Options)
  | kill (kind id : String)
  | killActor (actor : ℕ)
  | send (actor : ℕ)
  | active (actor : ℕ)
  | idle (actor : ℕ)
  | fire (timer : Timer)
  | bindActor (uid : ℤ) (kind id : String)
  | unbindActor (uid : ℤ) (kind : String)
deriving DecidableEq

namespace Actor

def new (opts : Options) : Actor where
  opts := opts
  destroyed := false
  processor := true
  closed := false
  readers := 0
  binds := fun _ => false
  idleTimer := none
  idleGeneration := 0
  complete := false
  life := []

def record (l : Life) (a : Actor) : Actor := { a with life := a.life ++ [l] }

def call (l : Life) (a : Actor) : Actor := a.record (if a.processor then l else .nilProcessor)

def stop (a : Actor) (timers : List Timer) : List Timer :=
  timers.filter fun t => some t.id ≠ a.idleTimer

/-- `idleGeneration++` with the timer stopped, as `Active` and `cancelIdleRelease` do. -/
def cancelIdle (a : Actor) : Actor :=
  { a with idleGeneration := a.idleGeneration + 1, idleTimer := none }

end Actor

namespace State

def init : State where
  actors := fun _ => .new ⟨"", "", false, false, false, false, false⟩
  made := 0
  registry := fun _ => none
  relations := fun _ _ => none
  mu := false
  timers := []
  ids := 0
  calls := []

variable (s : State)

def pid (actor : ℕ) : String := (s.actors actor).opts.pid

def kind (actor : ℕ) : String := (s.actors actor).opts.kind

def load (kind id : String) : Option ℕ := s.registry (kind ++ "/" ++ id)

/-- `removeActorLocked` up to the registry: the mutex is locked and the PID of the actor deleted. -/
def remove (actor : ℕ) (idle : Bool) : Effect where
  calls := [.unrelating actor idle]
  actor := actor
  write := Actor.record (.unregistered (s.registry (s.pid actor)))
  registry := fun registry => update registry (s.pid actor) none
  mu := fun _ => true

/-- The relations without those of an actor that `removeActorLocked` deletes, or, for the users it
is bound to, `finishDestroy`. -/
def unrelate (actor : ℕ) (users : ℤ → Bool) (relations : ℤ → String → Option ℕ) (uid : ℤ)
    (kind : String) : Option ℕ :=
  if users uid ∧ kind = s.kind actor ∧ relations uid kind = some actor then none
  else relations uid kind

/-- The section of `killIdleActor` that commits: the actor is the registered one, its generation is
current, and the swap of its state succeeds. -/
def mayCommit (actor : ℕ) (generation : UInt64) : Bool :=
  s.registry (s.pid actor) = some actor && (s.actors actor).idleGeneration = generation &&
    !(s.actors actor).destroyed

def schedule (actor : ℕ) (generation : UInt64) (write : Actor → Actor)
    (timers : List Timer → List Timer) : Effect where
  calls := []
  actor := actor
  write := fun a => { write a with idleTimer := some s.ids }
  timers := fun ts => timers ts ++ [⟨s.ids, actor, generation⟩]
  ids := 1

def effect (choice : Bool) : Call → Option Effect
  | .locking a =>
    if s.mu then none
    else if (s.registry (s.pid a)).isSome then
      some (.on a [] (.record .rejected))
    else
      some
        { calls := [.initing a]
          actor := a
          write := fun x => if x.opts.wait then x.record .addWait else x
          mu := fun _ => true }
  | .initing a => some (.on a [.storing a] (.call .init))
  | .storing a =>
    some
      { calls := [.unlocking a]
        actor := a
        registry := fun registry => update registry (s.pid a) (some a) }
  | .unlocking a => some { calls := [.starting a], actor := a, mu := fun _ => false }
  | .starting a => some (.on a [] (.call .start))
  | .removing kind id =>
    if s.mu then none
    else
      match s.load kind id with
      | some a => some (s.remove a false)
      | none => some (.on 0 [])
  | .removingActor a =>
    if s.mu then none
    else if s.registry (s.pid a) = some a then some (s.remove a false)
    else some (.on a [])
  | .unrelating a idle =>
    some
      { calls := [if idle then .destroying a else .swapping a]
        actor := a
        relations := s.unrelate a fun _ => true
        mu := fun _ => false }
  | .swapping a =>
    if (s.actors a).destroyed then some (.on a [.finishing a])
    else
      some (.on a [.cancelling a] fun x => { x with destroyed := true })
  | .cancelling a =>
    some
      { calls := [.destroying a]
        actor := a
        write := Actor.cancelIdle
        timers := (s.actors a).stop }
  | .destroying a => some (.on a [.inDestroy a] (.call .destroy))
  | .inDestroy a => some (.on a [.unbinding a] (.record .destroyed))
  | .unbinding a =>
    some
      { calls := [.closing a]
        actor := a
        relations := s.unrelate a (s.actors a).binds }
  | .closing a =>
    if (s.actors a).readers = 0 then
      some (.on a [.hooking a] fun x => { x with closed := true, processor := false })
    else none
  | .hooking a =>
    if (s.actors a).opts.releaseHook then
      some (.on a [.inHook a] (.record .hook))
    else some (.on a [.completing a])
  | .inHook a => some (.on a [.completing a] (.record .hooked))
  | .completing a =>
    some (.on a [.finishing a] fun x => { x with complete := true }.record .complete)
  | .finishing a =>
    some (.on a [] fun x => (if x.opts.wait then x.record .doneWait else x).record .returned)
  | .fired a g t =>
    if (s.actors a).destroyed ∨ (s.actors a).idleGeneration ≠ g then some (.on a [])
    else
      some (.on a [if (s.actors a).opts.releaseGuard then .guarding a g t else .committing a g t]
        fun x => { x with idleTimer := none })
  | .guarding a g t =>
    some (.on a [if choice then .committing a g t else .denied a g t] (.record (.guarded t choice)))
  | .denied a g _ =>
    if (s.actors a).destroyed = false ∧ (s.actors a).idleGeneration = g then
      some (s.schedule a g id id)
    else some (.on a [])
  | .committing a g t =>
    if s.mu then none
    else if s.mayCommit a g then
      some
        { calls := [.deleting a]
          actor := a
          write := fun x => { x.cancelIdle with destroyed := true }.record (.committed t g)
          mu := fun _ => true
          timers := (s.actors a).stop }
    else if (s.actors a).opts.releaseGuard ∧ (s.actors a).opts.releaseGuardCanceled then
      some (.on a [.canceling a t])
    else some (.on a [])
  | .deleting a => some (s.remove a true)
  | .canceling a t => some (.on a [] (.record (.canceled t)))
  | .reading a => some (.on a [if (s.actors a).destroyed then .runlocking a else .sending a])
  | .sending a =>
    some (.on a [.runlocking a] (if choice then .record (.sent (s.actors a).closed) else id))
  | .runlocking a => some (.on a [] fun x => { x with readers := x.readers - 1 })
  | .loading uid kind id =>
    match s.load kind id with
    | some a => some (.on a [.binding uid a])
    | none => some (.on 0 [])
  | .binding uid a =>
    some (.on a [.relating uid a] fun x => { x with binds := update x.binds uid true })
  | .relating uid a =>
    some
      { calls := []
        actor := a
        relations := fun relations =>
          update relations uid (update (relations uid) (s.kind a) (some a)) }

def begin : Act → Option Effect
  | .step _ _ => none
  | .spawn opts =>
    some { calls := [.locking s.made], actor := s.made, write := fun _ => .new opts, births := 1 }
  | .kill kind id => some (.on 0 [.removing kind id])
  | .killActor a => if a < s.made then some (.on a [.removingActor a]) else none
  | .send a =>
    if a < s.made then
      some (.on a [.reading a] fun x => { x with readers := x.readers + 1 })
    else none
  | .active a =>
    if a < s.made ∧ (s.actors a).destroyed = false then
      some
        { calls := []
          actor := a
          write := fun x => x.cancelIdle.record .active
          timers := (s.actors a).stop }
    else none
  | .idle a =>
    if a < s.made ∧ (s.actors a).opts.idleTimeout ∧ (s.actors a).destroyed = false then
      some (s.schedule a ((s.actors a).idleGeneration + 1)
        (fun x => x.cancelIdle.record (.idle (x.idleGeneration + 1))) (s.actors a).stop)
    else none
  | .fire t =>
    if t ∈ s.timers then
      some
        { calls := [.fired t.actor t.generation t.id]
          actor := t.actor
          timers := fun ts => ts.erase t }
    else none
  | .bindActor uid kind id =>
    -- `ErrIllegalOperation` for user 0
    if uid = 0 then none else some (.on 0 [.loading uid kind id])
  | .unbindActor uid kind =>
    match s.relations uid kind with
    | some a =>
      if (s.actors a).binds uid then
        some
          { calls := []
            actor := a
            write := fun x => { x with binds := update x.binds uid false }
            relations := fun relations =>
              update relations uid (update (relations uid) kind none) }
      else none
    | none => none

def apply (calls : List Call) (e : Effect) : State where
  actors := update s.actors e.actor (e.write (s.actors e.actor))
  made := s.made + e.births
  registry := e.registry s.registry
  relations := e.relations s.relations
  mu := e.mu s.mu
  timers := e.timers s.timers
  ids := s.ids + e.ids
  calls := calls

def next : Act → Option State
  | .step i choice => do
    let c ← s.calls[i]?
    let e ← s.effect choice c
    some (s.apply (Lib.replaceAt s.calls i e.calls) e)
  | act => (s.begin act).map fun e => s.apply (s.calls ++ e.calls) e

def step (act : Act) : Option (State × Act) := (s.next act).map (·, act)

end State

end DueServer.Scheduler
