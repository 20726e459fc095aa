import DueServer.LibPool
import DueServer.LibStacks
import DueServer.LibTransition

/-! The two channels of one actor, its lock and its `dispatch` loop (`cluster/node/actor.go`), in
every interleaving of the goroutines that send to it, run for it or destroy it. The code of the
application may call the methods of the actor in any order. A goroutine is a call stack, and the
counts of the read-write lock are those of the frames; a writer that waits keeps new readers out. -/
namespace DueServer.Mailbox

open Lib Function

inductive Chan where
  | mailbox
  | fnChan
deriving DecidableEq

/-- What is sent: a context by `Next` or a function. Each call of a sender has a ticket of its own.
`patient` is false for `TryInvokeContext`, which gives up with its context. -/
inductive Item where
  | context (ticket obj : ℕ)
  | function (ticket : ℕ) (patient : Bool)
deriving DecidableEq

namespace Item

def ticket : Item → ℕ
  | context t _ => t
  | function t _ => t

def chan : Item → Chan
  | context _ _ => .mailbox
  | function _ _ => .fnChan

end Item

inductive Frame where
  -- code of the application: of its own, in a callback of `AfterFunc`, a handler with the functions
  -- it defers, the post-route handler, a function of `fnChan`, `processor.Destroy`, `releaseHook`
  | outside
  | callback
  | handling (ticket obj : ℕ) (version : Int32)
  | posting (ticket : ℕ)
  | running (ticket : ℕ)
  | inDestroy
  | inHook
  -- `dispatch`
  | selecting
  | comparing (ticket obj : ℕ) (version : Int32)
  -- the timer of `AfterFunc`
  | firing
  | fired
  -- `Next`, `TryInvoke` and `TryInvokeContext`
  | locking (item : Item)
  | checking (item : Item)
  | marking (ticket obj : ℕ)
  | sending (item : Item)
  | returning (item : Item)
  -- `Destroy`
  | removing
  | swapping
  | announcing
  | closing
  | closingFn
deriving DecidableEq

namespace Frame

def holds : Frame → Bool
  | fired | callback | checking _ | marking _ _ | sending _ | returning _ => true
  | _ => false

def writes : Frame → Bool
  | closing | closingFn => true
  | _ => false

def sends (c : Chan) : Frame → Bool
  | marking _ _ => c = .mailbox
  | sending item => c = item.chan
  | _ => false

def handles (obj : ℕ) : Frame → Option ℕ
  | handling t o _ | comparing t o _ => if o = obj then some t else none
  | _ => none

end Frame

inductive Role where
  | dispatch
  | other
deriving DecidableEq

/-- The methods of the actor that the code of the application calls. The ways to add a handler send
like `tryInvoke`; `handOn` is a call on one of its contexts that hands it to a task or to another
actor, and `start` is a `go` statement. -/
inductive Method where
  | next (obj : ℕ)
  | tryInvoke
  | tryInvokeContext
  | afterFunc
  | afterInvoke
  | destroy
  | handOn (obj : ℕ)
  | start
deriving DecidableEq

/-- What a goroutine does: it goes on, gives up waiting, receives from a channel, or its code calls
a method or returns. -/
inductive Choice where
  | go
  | giveUp
  | receive (chan : Chan)
  | call (method : Method)
  | ret
deriving DecidableEq

/-- The fields of `Actor` that matter here. The versions are those of the contexts, and the lists
record tickets: what `dispatch` has received from each channel; the contexts that `Next` has put
into the mailbox, that were handed on while `dispatch` had them and that were recycled; and the
functions for which a sender has returned true with the state still `started`, and that were
executed. -/
structure Actor where
  destroyed : Bool
  registered : Bool
  queue : Chan → List Item
  closed : Chan → Bool
  versions : ℕ → Int32
  tickets : ℕ
  received : Chan → List ℕ
  placed : List ℕ
  handedOn : List ℕ
  recycled : List ℕ
  accepted : List ℕ
  executed : List ℕ

structure State where
  actor : Actor
  threads : List (Thread Role Frame)

/-- What one step does: the frames in place of the one that moves, the goroutines it starts (those
of timers too, which run later), and what becomes of the actor. -/
structure Effect where
  frames : List Frame
  started : List Frame := []
  write : Actor → Actor := id

abbrev Effect.to (frames : List Frame) (write : Actor → Actor := id) : Effect :=
  { frames, write }

structure Act where
  thread : ℕ
  choice : Choice
deriving DecidableEq

/-- `make(chan Context, 4096)` and `make(chan func(), 4096)`. -/
def capacity : ℕ := 4096

namespace Actor

def new : Actor where
  destroyed := false
  registered := true
  queue := fun _ => []
  closed := fun _ => false
  versions := fun _ => 0
  tickets := 0
  received := fun _ => []
  placed := []
  handedOn := []
  recycled := []
  accepted := []
  executed := []

def ticket (a : Actor) : Actor := { a with tickets := a.tickets + 1 }

/-- `incrVersion` of a context, with the tickets it is handled for at the time. -/
def incrVersion (obj : ℕ) (handled : List ℕ) (a : Actor) : Actor :=
  { a with
    versions := update a.versions obj (a.versions obj + 1)
    handedOn := a.handedOn ++ handled }

def send (item : Item) (a : Actor) : Actor :=
  { a with
    queue := update a.queue item.chan (a.queue item.chan ++ [item])
    placed := if item.chan = .mailbox then a.placed ++ [item.ticket] else a.placed }

def accept (item : Item) (a : Actor) : Actor :=
  { a with
    accepted :=
      if item.chan = .fnChan ∧ a.destroyed = false then a.accepted ++ [item.ticket]
      else a.accepted }

/-- `dispatch` has received an item from a channel. -/
def take (c : Chan) (item : Item) (rest : List Item) (a : Actor) : Actor :=
  { a with
    queue := update a.queue c rest
    received := update a.received c (a.received c ++ [item.ticket]) }

def execute (ticket : ℕ) (a : Actor) : Actor := { a with executed := a.executed ++ [ticket] }

def clearVersion (obj : ℕ) (a : Actor) : Actor :=
  { a with versions := update a.versions obj 0 }

def recycle (ticket : ℕ) (a : Actor) : Actor := { a with recycled := a.recycled ++ [ticket] }

def close (c : Chan) (a : Actor) : Actor := { a with closed := update a.closed c true }

end Actor

namespace State

/-- A started actor whose `dispatch` loop begins, next to the goroutine that has spawned it. -/
def init : State where
  actor := .new
  threads := [⟨.dispatch, [.selecting]⟩, ⟨.other, [.outside]⟩]

variable (s : State)

def full (c : Chan) : Bool := capacity ≤ (s.actor.queue c).length

def readers : Bool := (frames s.threads).any Frame.holds

def writer : Bool := (frames s.threads).any Frame.writes

def handled (obj : ℕ) : List ℕ := (frames s.threads).filterMap (Frame.handles obj)

def call (f : Frame) : Method → Effect
  | .next obj => .to [.locking (.context s.actor.tickets obj), f] .ticket
  | .tryInvoke => .to [.locking (.function s.actor.tickets true), f] .ticket
  | .tryInvokeContext => .to [.locking (.function s.actor.tickets false), f] .ticket
  | .afterFunc =>
    if s.actor.destroyed then .to [f] else { frames := [f], started := [.firing] }
  | .afterInvoke =>
    if s.actor.destroyed then .to [f]
    else
      { frames := [f]
        started := [.locking (.function s.actor.tickets true)]
        write := Actor.ticket }
  | .destroy => .to [.removing, f]
  | .handOn obj => .to [f] (.incrVersion obj (s.handled obj))
  | .start => { frames := [f], started := [.outside] }

def ret : Frame → Option Effect
  | .outside => some (.to [])
  | .callback => some (.to [])
  | .handling t obj version => some (.to [.comparing t obj version])
  | .posting t => some (.to [.selecting] (.recycle t))
  | .running t => some (.to [.selecting] (.execute t))
  | .inDestroy => some (.to [.announcing])
  | .inHook => some (.to [])
  | _ => none

/-- `dispatch` receives; a closed channel that is empty ends the loop. -/
def receive (c : Chan) : Option Effect :=
  match s.actor.queue c with
  | .context t obj :: rest =>
    some (.to [.handling t obj (s.actor.versions obj)] (.take c (.context t obj) rest))
  | .function t patient :: rest =>
    some (.to [.running t] (.take c (.function t patient) rest))
  | [] => if s.actor.closed c then some (.to []) else none

def go : Frame → Option Effect
  | .comparing t obj version =>
    if s.actor.versions obj = version then
      some (.to [.posting t] (.clearVersion obj))
    else some (.to [.selecting])
  | .firing => if s.writer then none else some (.to [.fired])
  | .fired =>
    if s.actor.destroyed then some (.to []) else some (.to [.callback])
  | .locking item => if s.writer then none else some (.to [.checking item])
  | .checking item =>
    if s.actor.destroyed then some (.to [])
    else
      match item with
      | .context t obj => some (.to [.marking t obj])
      | .function t patient => some (.to [.sending (.function t patient)])
  | .marking t obj =>
    some (.to [.sending (.context t obj)] (.incrVersion obj (s.handled obj)))
  | .sending item =>
    -- the channel is open: it is closed under the write lock
    if s.full item.chan then none
    else some (.to [.returning item] (.send item))
  | .returning item => some (.to [] (.accept item))
  | .removing =>
    if s.actor.registered then
      some (.to [.swapping] fun a => { a with registered := false })
    else some (.to [])
  | .swapping =>
    if s.actor.destroyed then some (.to [])
    else some (.to [.inDestroy] fun a => { a with destroyed := true })
  | .announcing => some (.to [.closing])
  | .closing =>
    if s.readers then none
    else some (.to [.closingFn] (.close .mailbox))
  | .closingFn => some (.to [.inHook] (.close .fnChan))
  | _ => none

def runs : Frame → Bool
  | .outside | .callback | .handling _ _ _ | .posting _ | .running _ | .inDestroy | .inHook => true
  | _ => false

def effect (f : Frame) : Choice → Option Effect
  | .go => s.go f
  | .giveUp =>
    match f with
    | .sending (.function _ false) => some (.to [])
    | _ => none
  | .receive c =>
    match f with
    | .selecting => s.receive c
    | _ => none
  | .call method => if runs f then some (s.call f method) else none
  | .ret => ret f

def next (act : Act) : Option State := do
  let t ← s.threads[act.thread]?
  match t.stack with
  | [] => none
  | f :: rest =>
    let e ← s.effect f act.choice
    some
      { actor := e.write s.actor
        threads := replaceAt s.threads act.thread
          (⟨t.role, e.frames ++ rest⟩ :: e.started.map fun f => ⟨.other, [f]⟩) }

def step (act : Act) : Option (State × Act) := (s.next act).map (·, act)

end State

end DueServer.Mailbox
