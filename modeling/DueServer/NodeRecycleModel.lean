import DueServer.LibStacks
import DueServer.LibTransition
import DueServer.NodeContext

/-! The life of the pooled contexts of a node, in every interleaving of its goroutines, from the
calls that take one from its pool to `compareVersionRecycle`, which puts it back. Handlers may do
whatever the interface allows in any order. Channels are unbounded, and no actor is destroyed here.
-/
namespace DueServer.Node

open Lib

/-- The code of the application that runs on behalf of a frame: its handler, the functions that
`compareVersionExecDefer` fires, or the post-route handler. -/
inductive Code where
  | handler
  | defers
  | post
deriving DecidableEq

/-- Where a frame stands. The three steps of `Actor.Next` name the actor it hands the context to,
the actors to come, and the code to go back to (none for `Deliver`). -/
inductive Phase where
  | filling
  | queueing
  | entering
  | loading
  | running (code : Code)
  | storing (actor : ℕ) (rest : List ℕ) (back : Option Code)
  | bumping (actor : ℕ) (rest : List ℕ) (back : Option Code)
  | mailing (actor : ℕ) (rest : List ℕ) (back : Option Code)
  | deferring
  | comparing
  | resetting
  | putting
  | leaving
deriving DecidableEq

/-- The call a frame belongs to; `actor` is one round of the `dispatch` loop of an actor. -/
inductive Call (χ δ : Type) where
  | source (entry : Entry χ δ)
  | handle
  | skip
  | task
  | actor (actor : ℕ)
deriving DecidableEq

namespace Call

variable {χ δ : Type}

def isHandle : Call χ δ → Bool
  | handle => true
  | _ => false

def looksUp : Call χ δ → Bool
  | handle => true
  | actor _ => true
  | _ => false

end Call

/-- A frame works on one context object, on behalf of one acquisition of it. `version` is the local
variable of that name. -/
structure Frame (χ δ : Type) where
  call : Call χ δ
  obj : ℕ
  acq : ℕ
  version : Int32
  phase : Phase
deriving DecidableEq

inductive Role where
  | node
  | actor (actor : ℕ)
  | worker
  | source
deriving DecidableEq

inductive Chan where
  | reqChan
  | evtChan
  | mailbox (actor : ℕ)
deriving DecidableEq

structure Letter where
  chan : Chan
  obj : ℕ
  acq : ℕ
deriving DecidableEq

/-- The frame that starts with the receipt: `handle` on the goroutine of the node, or a round of
`dispatch`. -/
def Letter.frame {χ δ : Type} (l : Letter) : Frame χ δ :=
  match l.chan with
  | .mailbox actor => ⟨.actor actor, l.obj, l.acq, 0, .loading⟩
  | _ => ⟨.handle, l.obj, l.acq, 0, .entering⟩

/-- What is recorded of a run. The marks of `compareVersionRecycle` name the acquisition of the
frame (`acq`) and the latest acquisition of the object at that time (`cur`). -/
inductive Mark (χ δ : Type) where
  | won (obj acq cur : ℕ)
  | reset (obj acq cur : ℕ)
  | put (obj acq cur : ℕ)
  | handed (obj acq actor : ℕ)
  | saw (call : Call χ δ) (obj acq : ℕ) (seen : Seen χ δ) (actor : Option ℕ)
deriving DecidableEq

inductive Choice where
  | go
  | ret
  | unhandled
  | task
  | next (actors : List ℕ)
  | skip
  | middleware
  | look
deriving DecidableEq

variable {χ δ φ ε : Type}

def Context.isRequest : Context χ δ φ → Bool
  | .request _ => true
  | .event _ => false

namespace Entry

def isRequest : Entry χ δ → Bool
  | trigger .. => false
  | _ => true

def chan : Entry χ δ → Chan
  | trigger .. => .evtChan
  | _ => .reqChan

/-- `Deliver` packs its message before it takes a request. -/
def packs (n : Config χ δ ε) : Entry χ δ → Bool
  | deliver _ _ message => (n.packBuffer message.data).isOk
  | _ => true

def new (entry : Entry χ δ) : Context χ δ φ :=
  if entry.isRequest then .request Request.new else .event Event.new

def fill (n : Config χ δ ε) : Entry χ δ → Context χ δ φ → Context χ δ φ
  | deliver _ uid message, .request r =>
    match n.packBuffer message.data with
    | .ok buf => .request (fillDeliver n uid message buf r)
    | .error _ => .request r
  | deliverWithContext ctx gid nid pid cid uid token seq route data, .request r =>
    .request (fillRouter n ctx gid nid pid cid uid token seq route data r)
  | trigger kind gid cid uid token, .event e => .event (fillTrigger n kind gid cid uid token e)
  | _, c => c

def phase : Entry χ δ → Phase
  | deliver actor .. => .storing actor [] none
  | _ => .queueing

end Entry

def nextPhase (back : Option Code) : List ℕ → Phase
  | actor :: rest => .storing actor rest back
  | [] =>
    match back with
    | some code => .running code
    | none => .leaving

/-- What a frame does in one step: the frames that stand on its stack in place of it, the workers
it starts, what it sends, what it makes of its object, whether the object goes back to its pool,
and what is recorded. -/
structure Effect (χ δ φ : Type) where
  frames : List (Frame χ δ)
  workers : List (Frame χ δ) := []
  sent : List Letter := []
  write : Context χ δ φ → Context χ δ φ := id
  put : Bool := false
  marks : List (Mark χ δ) := []

abbrev Effect.to (frames : List (Frame χ δ)) (write : Context χ δ φ → Context χ δ φ := id) :
    Effect χ δ φ := { frames, write }

namespace Frame

variable (n : Config χ δ ε) (f : Frame χ δ) (c : Context χ δ φ)

def goTo (phase : Phase) : Frame χ δ := { f with phase := phase }

def inner (call : Call χ δ) : Frame χ δ :=
  { f with call := call, version := c.version + 1, phase := .running .handler }

/-- `dispatchRequest` finds one actor at most; `dispatchEvent` ranges over the registry, where each
actor stands once. -/
def mayHand (actors : List ℕ) : Bool := actors.Nodup ∧ (c.isRequest → actors.length ≤ 1)

def runCode (code : Code) : Choice → Option (Effect χ δ φ)
  | .task =>
    some
      { frames := [f]
        workers := [f.inner c .task]
        write := fun c => c.incrVersion.cancel }
  | .next actors =>
    if mayHand c actors then some (.to [f.goTo (nextPhase (some code) actors)]) else none
  | .skip =>
    if c.isRequest then
      some (.to [f.inner c .skip, f] fun c => c.incrVersion.cancel)
    else none
  | .middleware =>
    -- `Router.handle` leaves the recycling to the frames of its middlewares
    if c.isRequest ∧ f.call.isHandle ∧ code = .handler then
      some (.to [f.inner c .skip, f.goTo .leaving] fun c => c.incrVersion.cancel)
    else none
  | .look =>
    some
      { frames := [f]
        marks := [.saw f.call f.obj f.acq c.seen c.actor] }
  | .unhandled =>
    -- no handler is registered, or the session is stale
    if f.call.looksUp ∧ code = .handler then
      some (.to [f.goTo .comparing])
    else none
  | .ret =>
    match code with
    | .handler => some (.to [f.goTo .deferring])
    | .defers => some (.to [f.goTo .comparing])
    | .post => some (.to [f.goTo .resetting])
  | .go => none

/-- The write of `CompareAndSwap`, and what follows a swap; the post-route handler is for requests
only. -/
def recycle (cur : ℕ) : Effect χ δ φ :=
  if c.version = f.version then
    { frames := [f.goTo (if c.isRequest then .running .post else .resetting)]
      write := Context.clearVersion
      marks := [.won f.obj f.acq cur] }
  else .to []

def effect (cur : ℕ) (choice : Choice) : Option (Effect χ δ φ) :=
  match f.phase with
  | .running code => f.runCode c code choice
  | .filling =>
    match f.call, choice with
    | .source entry, .go =>
      some (.to [f.goTo entry.phase] (entry.fill n))
    | .source (.deliver actor uid message), .ret =>
      -- the actor is not started
      some (.to [] ((Entry.deliver actor uid message).fill n))
    | _, _ => none
  | phase =>
    if choice = .go then
      match phase with
      | .queueing =>
        match f.call with
        | .source entry => some { frames := [], sent := [⟨entry.chan, f.obj, f.acq⟩] }
        | _ => none
      | .entering =>
        some (.to [f.inner c f.call] .incrVersion)
      | .loading =>
        some (.to [{ f with version := c.version, phase := .running .handler }])
      | .storing actor rest back =>
        some (.to [f.goTo (.bumping actor rest back)] (.storeActor actor))
      | .bumping actor rest back =>
        some (.to [f.goTo (.mailing actor rest back)] fun c => c.incrVersion.cancel)
      | .mailing actor rest back =>
        some
          { frames := [f.goTo (nextPhase back rest)]
            sent := [⟨.mailbox actor, f.obj, f.acq⟩]
            marks := [.handed f.obj f.acq actor] }
      | .deferring =>
        some (.to [f.goTo (if c.version = f.version then .running .defers else .comparing)])
      | .comparing => some (f.recycle c cur)
      | .resetting =>
        some
          { frames := [f.goTo .putting]
            write := Context.reset
            marks := [.reset f.obj f.acq cur] }
      | .putting => some { frames := [], put := true, marks := [.put f.obj f.acq cur] }
      | .leaving => some (.to [])
      | _ => none
    else none

end Frame

/-- `pool` holds the objects of both pools. `calls` are the acquisitions so far, in order,
with the object of each, and `cur` is the latest acquisition of each object. -/
structure State (χ δ φ : Type) where
  heap : ℕ → Context χ δ φ
  made : ℕ
  pool : List ℕ
  threads : List (Thread Role (Frame χ δ))
  letters : List Letter
  log : List (Mark χ δ)
  calls : List (Entry χ δ × ℕ)
  cur : ℕ → ℕ

/-- A scheduling choice: a goroutine takes a step, an idle one receives from a channel, or a call
acquires a context, from its pool or (`none`) a new one. -/
inductive Act (χ δ : Type) where
  | step (thread : ℕ) (choice : Choice)
  | receive (thread : ℕ) (chan : Chan)
  | call (entry : Entry χ δ) (obj : Option ℕ)

namespace State

def init (actors : ℕ) : State χ δ φ where
  heap := fun _ => .request Request.new
  made := 0
  pool := []
  threads := ⟨.node, []⟩ :: (List.range actors).map fun a => ⟨.actor a, []⟩
  letters := []
  log := []
  calls := []
  cur := fun _ => 0

variable (n : Config χ δ ε) (s : State χ δ φ)

def apply (i : ℕ) (t : Thread Role (Frame χ δ)) (rest : List (Frame χ δ)) (obj : ℕ)
    (e : Effect χ δ φ) : State χ δ φ :=
  { s with
    heap := Function.update s.heap obj (e.write (s.heap obj))
    pool := if e.put then obj :: s.pool else s.pool
    threads := s.threads.set i ⟨t.role, e.frames ++ rest⟩ ++ e.workers.map fun f => ⟨.worker, [f]⟩
    letters := s.letters ++ e.sent
    log := s.log ++ e.marks }

def receives : Role → Chan → Bool
  | .node, .reqChan => true
  | .node, .evtChan => true
  | .actor a, .mailbox b => a = b
  | _, _ => false

def received (i : ℕ) (t : Thread Role (Frame χ δ)) (l : Letter) : State χ δ φ :=
  { s with
    threads := s.threads.set i ⟨t.role, [l.frame]⟩
    letters := s.letters.erase l }

def get (entry : Entry χ δ) : Option ℕ → Option (ℕ × State χ δ φ)
  | some obj =>
    if obj ∈ s.pool ∧ (s.heap obj).isRequest = entry.isRequest then
      some (obj, { s with pool := s.pool.erase obj })
    else none
  | none =>
    some (s.made,
      { s with heap := Function.update s.heap s.made entry.new, made := s.made + 1 })

def acquired (entry : Entry χ δ) (obj : ℕ) : State χ δ φ :=
  { s with
    threads := s.threads ++ [⟨.source, [⟨.source entry, obj, s.calls.length, 0, .filling⟩]⟩]
    calls := s.calls ++ [(entry, obj)]
    cur := Function.update s.cur obj s.calls.length }

def next : Act χ δ → Option (State χ δ φ)
  | .step i choice => do
    let t ← s.threads[i]?
    match t.stack with
    | [] => none
    | f :: rest =>
      let e ← f.effect n (s.heap f.obj) (s.cur f.obj) choice
      some (s.apply i t rest f.obj e)
  | .receive i chan => do
    let t ← s.threads[i]?
    match t.stack with
    | _ :: _ => none
    | [] =>
      if receives t.role chan then do
        let l ← s.letters.find? (·.chan = chan)
        some (s.received i t l)
      else none
  | .call entry obj =>
    if entry.packs n then do
      let (obj, s) ← s.get entry obj
      some (s.acquired entry obj)
    else none

def step (act : Act χ δ) : Option (State χ δ φ × Act χ δ) := (s.next n act).map (·, act)

end State

end DueServer.Node
