import DueServer.BufferModel

/-! `internal/link/node.go`: `NodeLinker.deliver` with the retry loop of `doRPC`. What a look-up
finds in the shared cache of user sources is an answer of the environment. -/
namespace DueServer.Link

open Buffer

/-- The errors of the linker; `external` is one of the locator, the builder or a client. -/
inductive LinkErr where
  | notFoundLocator
  | notFoundUserLocation
  | notFoundRoute
  | notFoundEndpoint
  | illegalRequest
  | invalidMessage
  | invalidNID
  | external (code : ℕ)
deriving DecidableEq

structure Route where
  internal : Bool
  stateful : Bool
  authorized : Bool
deriving DecidableEq

structure Round where
  /-- the source cached for the user -/
  cached : Option String
  /-- `Locator.LocateNode` -/
  located : Except LinkErr String
  /-- `route.FindEndpoint`; the address, chosen by the dispatch strategy for an empty id -/
  endpoint : String → Except LinkErr String
  /-- the error of `builder.Build` for an address -/
  build : String → Option LinkErr
  /-- the error of `client.DeliverWithMetadata`, for the client of an address -/
  deliver : String → Option LinkErr

structure NodeLinker where
  isGate : Bool
  hasLocator : Bool
  /-- `dispatcher.FindRoute` -/
  routes : Int32 → Option Route
  /-- `dispatcher.FindEndpoint` -/
  endpoints : String → Option String

/-- `args.Buffer`. A slice may be nil; `packed` is what `PackMessage` returns. -/
inductive Payload where
  | bytes (b : Option (List UInt8))
  | buffer (b : Nocopy)
  | message (packed : Except LinkErr Nocopy)
  | other

structure DeliverArgs where
  nid : String
  uid : Int64
  route : Int32
  buffer : Payload

/-- A call of `DeliverWithMetadata`: the client and the round in which it was called, the number of
the buffer it was given with the bytes in it, none if it had been consumed, and the error it
returned. -/
structure Attempt where
  round : Round
  client : String
  buffer : ℕ
  carried : Option (List UInt8)
  err : Option LinkErr

/-- The variables that the closure in `deliver` shares with its caller, and the calls so far. The
buffers are counted in the order in which they appear: `current` is the one in `buf`, of the `built`
ones so far. -/
structure Call where
  buf : Option Nocopy
  deliverTries : ℕ
  isDeliver : Bool
  current : ℕ
  built : ℕ
  attempts : List Attempt

/-- What comes of `deliver`. It releases some of the buffers itself; those it gave to a client are
queued for the writer of the connection. -/
structure Sent where
  err : Option LinkErr
  attempts : List Attempt
  built : ℕ
  released : List ℕ

namespace Call

def new (buf : Nocopy) : Call := ⟨some buf, 0, false, 0, 1, []⟩

variable (c : Call)

/-- The client consumes the buffer. -/
def give (round : Round) (client : String) : Call :=
  { c with
    buf := none
    deliverTries := c.deliverTries + 1
    isDeliver := true
    attempts := c.attempts ++
      [⟨round, client, c.current, c.buf.map Nocopy.bytes, round.deliver client⟩] }

def rebuild (retryBytes : Option (List UInt8)) : Call :=
  { c with
    buf := some (.buffer [.node (retryBytes.getD [])])
    current := c.built
    built := c.built + 1 }

/-- The end of `deliver`, with the error of `doRPC`. -/
def sent (strict : Bool) : Option LinkErr → Sent
  | none => ⟨none, c.attempts, c.built, []⟩
  | some e =>
    ⟨if strict ∨ e ≠ .notFoundUserLocation then some e else none, c.attempts, c.built,
      if c.isDeliver then [] else [c.current]⟩

end Call

structure Vars (ρ σ : Type) where
  nid : String
  prev : String
  err : Option LinkErr
  reply : Option ρ
  state : σ

/-- A round of a loop returns or goes on to the next one. -/
inductive LoopStep (σ β : Type) where
  | ret (b : β)
  | cont (s : σ)

def forRounds {σ β : Type} (body : Round → σ → LoopStep σ β) (finish : σ → β) : List Round → σ → β
  | [], s => finish s
  | round :: rounds, s =>
    match body round s with
    | .ret b => b
    | .cont s' => forRounds body finish rounds s'

namespace NodeLinker

variable (l : NodeLinker) {ρ σ : Type}

def locateNode (round : Round) : Except LinkErr String :=
  if l.hasLocator = false then .error .notFoundLocator
  else
    match round.cached with
    | some nid => .ok nid
    | none =>
      match round.located with
      | .error e => .error e
      | .ok nid => if nid = "" then .error .notFoundUserLocation else .ok nid

/-- The start of a round. A successful look-up sets `err` to nil, also where the function then
returns it. -/
def locateRound (route : Route) (round : Round) (v : Vars ρ σ) :
    LoopStep (Vars ρ σ) ((Option ρ × Option LinkErr) × σ) :=
  if route.stateful then
    match l.locateNode round with
    | .error e => .ret ((none, some e), v.state)
    | .ok nid =>
      if nid = v.prev then .ret ((v.reply, none), v.state)
      else .cont { v with nid := nid, prev := nid, err := none }
  else .cont v

def callRound (route : Route)
    (fn : Round → String → σ → (Bool × Option ρ × Option LinkErr) × σ) (round : Round)
    (v : Vars ρ σ) : LoopStep (Vars ρ σ) ((Option ρ × Option LinkErr) × σ) :=
  match round.endpoint v.nid with
  | .error e => .ret ((none, some e), v.state)
  | .ok address =>
    match round.build address with
    | some e =>
      if route.stateful = true ∧ v.prev ≠ "" then .cont { v with err := some e }
      else .ret ((none, some e), v.state)
    | none =>
      match fn round address v.state with
      | ((true, reply, err), s) => .cont { v with reply := reply, err := err, state := s }
      | ((false, reply, err), s) => .ret ((reply, err), s)

def rpcRound (route : Route)
    (fn : Round → String → σ → (Bool × Option ρ × Option LinkErr) × σ) (round : Round)
    (v : Vars ρ σ) : LoopStep (Vars ρ σ) ((Option ρ × Option LinkErr) × σ) :=
  match l.locateRound route round v with
  | .ret r => .ret r
  | .cont v => callRound route fn round v

def doRPC (rounds : Round × Round) (routeID : Int32) (uid : Int64)
    (fn : Round → String → σ → (Bool × Option ρ × Option LinkErr) × σ) (s : σ) :
    (Option ρ × Option LinkErr) × σ :=
  match l.routes routeID with
  | none => ((none, some .notFoundRoute), s)
  | some route =>
    if uid = 0 ∧ (route.stateful ∨ route.authorized) then ((none, some .illegalRequest), s)
    else if l.isGate ∧ route.internal then ((none, some .illegalRequest), s)
    else
      forRounds (l.rpcRound route fn) (fun v => ((v.reply, v.err), v.state))
        [rounds.1, rounds.2] ⟨"", "", none, none, s⟩

def doBuildClient (round : Round) (nid : String) : Except LinkErr String :=
  if nid = "" then .error .invalidNID
  else
    match l.endpoints nid with
    | none => .error .notFoundEndpoint
    | some address =>
      match round.build address with
      | some e => .error e
      | none => .ok address

/-- The closure in `deliver`. After a first failed call the buffer is built again from the frame. -/
def deliverFn (retryBytes : Option (List UInt8)) (round : Round) (client : String) (c : Call) :
    (Bool × Option Unit × Option LinkErr) × Call :=
  let deliverErr := round.deliver client
  let c := c.give round client
  if deliverErr ≠ none ∧ c.deliverTries = 1 ∧ retryBytes ≠ none then
    ((true, none, deliverErr), c.rebuild retryBytes)
  else ((false, none, deliverErr), c)

/-- `deliver` once the buffer is there. -/
def send (rounds : Round × Round) (args : DeliverArgs) (strict : Bool) (buf : Nocopy)
    (retryBytes : Option (List UInt8)) : Sent :=
  if args.nid ≠ "" then
    match l.doBuildClient rounds.1 args.nid with
    | .error e => ⟨some e, [], 1, [0]⟩
    | .ok client =>
      ⟨rounds.1.deliver client, ((Call.new buf).give rounds.1 client).attempts, 1, []⟩
  else
    let r := l.doRPC rounds args.route args.uid (deliverFn retryBytes) (.new buf)
    r.2.sent strict r.1.2

/-- `none` is a panic: `buf.Release()` on the nil buffer that comes with an error of
`PackMessage`. -/
def deliver (rounds : Round × Round) (args : DeliverArgs) (strict : Bool) : Option Sent :=
  match args.buffer with
  | .bytes b => some (l.send rounds args strict (.buffer [.node (b.getD [])]) b)
  | .buffer b => some (l.send rounds args strict b none)
  | .message (.ok b) => some (l.send rounds args strict b none)
  | .message (.error _) => none
  | .other => some ⟨some .invalidMessage, [], 0, []⟩

def deliverRequest (rounds : Round × Round) (args : DeliverArgs) : Option Sent :=
  l.deliver rounds args true

end NodeLinker

end DueServer.Link
