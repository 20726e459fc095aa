import DueServer.NodeContext

/-! `Router.handle` of a node with its middlewares (`cluster/node/router.go`, `middleware.go`) and
what they do to the request (`request.go`). Handlers and middlewares are code of the application;
what a piece of it does in a run is a tree. -/
namespace DueServer.Routing

open Node (Request)

structure Deferred where
  id : ℕ
  handsOn : Bool
deriving DecidableEq

/-- What a handler or a middleware does, to its return or its panic. `handOn` is a `Task` or a
`Next` of the request. `skip` is a call of `Skip` or `Next` of the middlewares, with what the
middleware or handler does that it reaches, and whether the caller recovers a panic of that call. -/
inductive Code where
  | ret
  | panic
  | defer (f : Deferred) (bottom : Bool) (rest : Code)
  | cancel (rest : Code)
  | handOn (rest : Code)
  | skip (n : ℤ) (inner : Code) (recovers : Bool) (rest : Code)
deriving DecidableEq

/-- What is recorded of a run: the call of `OwnershipStore.Current` with its answer, the code of the
application that is entered, and what becomes of the request. -/
inductive Event (μ ε : Type) where
  | checked (uid : ℤ) (answer : Except ε (Option Token))
  | pre
  | middleware (m : μ)
  | handler
  | fired (id : ℕ)
  | handedOn
  | recycled

namespace Event

variable {μ ε : Type}

def isCode : Event μ ε → Bool
  | checked _ _ | recycled => false
  | _ => true

def isRecycled : Event μ ε → Bool
  | recycled => true
  | _ => false

def isHandedOn : Event μ ε → Bool
  | handedOn => true
  | _ => false

def firedId : Event μ ε → Option ℕ
  | fired id => some id
  | _ => none

end Event

structure Scene (χ δ μ ε : Type) where
  req : Request χ δ Deferred
  index : ℤ
  log : List (Event μ ε)

variable {χ δ μ ε : Type}

namespace Scene

variable (s : Scene χ δ μ ε)

def record (e : Event μ ε) : Scene χ δ μ ε := { s with log := s.log ++ [e] }

/-- `Defer`, on a chain that is made when there is none. -/
def addDefer (f : Deferred) (bottom : Bool) : Scene χ δ μ ε :=
  let chain := s.req.chain.getD []
  { s with req := { s.req with chain := some (if bottom then chain ++ [f] else f :: chain) } }

def cancel : Scene χ δ μ ε := { s with req := s.req.cancel }

/-- `incrVersion` and `Cancel`, as `Task`, `Next` and `Skip` begin. -/
def bump : Scene χ δ μ ε := { s with req := s.req.incrVersion.cancel }

def handOn : Scene χ δ μ ε := s.bump.record .handedOn

/-- `Skip` up to its call of a middleware or the handler. -/
def enter (n : ℤ) : Scene χ δ μ ε := { s.bump with index := s.index + n }

def runDeferred (f : Deferred) : Scene χ δ μ ε :=
  if f.handsOn then (s.record (.fired f.id)).handOn else s.record (.fired f.id)

def fireHead : Scene χ δ μ ε :=
  let fired := (s.req.chain.getD []).foldl runDeferred s
  { fired with req := { fired.req with chain := some [] } }

def compareVersionExecDefer (version : Int32) : Scene χ δ μ ε :=
  if s.req.chain.isSome ∧ s.req.version = version then s.fireHead else s

def compareVersionRecycle (version : Int32) : Scene χ δ μ ε :=
  if s.req.version = version then
    { s with req := { s.req with version := 0 }.reset }.record .recycled
  else s

def finish (version : Int32) : Scene χ δ μ ε :=
  (s.compareVersionExecDefer version).compareVersionRecycle version

end Scene

/-- What `Skip` calls with the index it has set: a middleware, or the handler after the last one. An
index below 0 is out of range. -/
def callee (ms : List μ) (index : ℤ) : Option (Event μ ε) :=
  if (ms.length : ℤ) ≤ index then some .handler
  else if index < 0 then none
  else (ms[index.toNat]?).map .middleware

def reach (ms : List μ) (self : Code) (run : Scene χ δ μ ε → Scene χ δ μ ε × Option Code)
    (s : Scene χ δ μ ε) : Scene χ δ μ ε × Option Code :=
  match callee ms s.index with
  | some e => run (s.record e)
  | none => (s, some self)

/-- The code `self` of a handler or a middleware runs, from `code` on, with the middlewares of its
route. The second result is the code that panicked, if its panic leaves this one. -/
def exec (ms : List μ) (self : Code) : Code → Scene χ δ μ ε → Scene χ δ μ ε × Option Code
  | .ret, s => (s, none)
  | .panic, s => (s, some self)
  | .defer f bottom rest, s => exec ms self rest (s.addDefer f bottom)
  | .cancel rest, s => exec ms self rest s.cancel
  | .handOn rest, s => exec ms self rest s.handOn
  | .skip n inner recovers rest, s =>
    if (ms.length : ℤ) ≤ s.index then exec ms self rest s
    else
      let out := reach ms self (exec ms inner inner) (s.enter n)
      -- the deferred function of `Skip` runs whether or not there is a panic
      let left := out.1.finish (s.enter n).req.version
      if out.2.isSome && !recovers then (left, out.2) else exec ms self rest left

structure Options (μ : Type) where
  stateful : Bool
  middlewares : List μ

/-- `Router`. Of the handlers and the store it matters whether they are set. -/
structure Router (μ : Type) where
  routes : Int32 → Option (Options μ)
  requestMiddlewares : List μ
  defaultRouteHandler : Bool
  preRouteHandler : Bool
  ownershipStore : Bool

inductive SessionError (ε : Type) where
  | errStaleSession
  | store (err : ε)

/-- How a call of `handle` ends: the code that panicked unless the application recovered it, and
whether the panic leaves `handle`. -/
structure Outcome (χ δ μ ε : Type) where
  scene : Scene χ δ μ ε
  culprit : Option Code
  escaped : Bool

namespace Router

variable (r : Router μ)

/-- `AddRouteHandler` of the router, and of a group with its own middlewares. -/
def addRouteHandler (route : Int32) (options : Options μ) : Router μ :=
  { r with routes := Function.update r.routes route (some options) }

def addGroupRouteHandler (group : List μ) (route : Int32) (options : Options μ) : Router μ :=
  r.addRouteHandler route { options with middlewares := group ++ options.middlewares }

/-- `validateSession`, with what the store answers at the time. -/
def validateSession (req : Request χ δ Deferred) (route : Options μ)
    (current : ℤ → Except ε (Option Token)) : List (Event μ ε) × Except (SessionError ε) Unit :=
  if !route.stateful ∨ req.gid = "" ∨ !r.ownershipStore then ([], .ok ())
  else if req.uid ≤ 0 ∨ req.token.uid ≠ req.uid ∨ req.token.generation = 0 then
    ([], .error .errStaleSession)
  else
    ([.checked req.uid (current req.uid)],
      match current req.uid with
      | .error err => .error (.store err)
      | .ok none => .error .errStaleSession
      | .ok (some token) => if token = req.token then .ok () else .error .errStaleSession)

def before (pre : Code) (s : Scene χ δ μ ε) : Scene χ δ μ ε :=
  if r.preRouteHandler then (exec ([] : List μ) pre pre (s.record .pre)).1 else s

/-- `handle` after the check, with the middlewares of the route. -/
def serve (middlewares : List μ) (pre code : Code) (version : Int32) (s : Scene χ δ μ ε) :
    Outcome χ δ μ ε :=
  let s := r.before pre s
  let combined := r.requestMiddlewares ++ middlewares
  if combined.isEmpty then
    let out := exec combined code code (s.record .handler)
    -- `xcall.Call` recovers
    ⟨out.1.finish version, out.2, false⟩
  else
    -- `middleware.Next(req)`
    let out := exec combined .ret (.skip 1 code false .ret) { s with index := -1 }
    ⟨out.1, out.2, out.2.isSome⟩

/-- `handle` of a request; `pre` and `code` are what the pre-route handler and the first middleware
or the handler do. -/
def handle (current : ℤ → Except ε (Option Token)) (pre code : Code)
    (req : Request χ δ Deferred) : Outcome χ δ μ ε :=
  let version := req.version + 1
  let s : Scene χ δ μ ε := ⟨req.incrVersion, 0, []⟩
  match r.routes req.message.route with
  | none =>
    if r.defaultRouteHandler then r.serve [] pre code version s
    else ⟨s.compareVersionRecycle version, none, false⟩
  | some route =>
    let checked : Scene χ δ μ ε := { s with log := (r.validateSession s.req route current).1 }
    match (r.validateSession s.req route current).2 with
    | .error _ => ⟨checked.compareVersionRecycle version, none, false⟩
    | .ok () => r.serve route.middlewares pre code version checked

end Router

end DueServer.Routing
