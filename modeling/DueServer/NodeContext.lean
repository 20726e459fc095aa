import DueServer.SessionModel

/-! The contexts that a node hands to its handlers: requests and events (`cluster/node/request.go`,
`cluster/node/event.go`), which are taken from two pools, filled by `Actor.Deliver`,
`Router.deliverWithContext` or `Trigger.trigger`, and reset when they go back. -/
namespace DueServer.Node

/-- `cluster.Message`; `none` is a nil `Data`. -/
structure Message (δ : Type) where
  seq : Int32
  route : Int32
  data : Option δ
deriving DecidableEq

/-- `request`. Actors are identified by their reference, and `chain` lists the deferred functions
from its head; the `node` it belongs to never changes. -/
structure Request (χ δ φ : Type) where
  ctx : Option χ
  gid : String
  nid : String
  pid : String
  cid : ℤ
  uid : ℤ
  token : Token
  message : Message δ
  version : Int32
  chain : Option (List φ)
  actor : Option ℕ
deriving DecidableEq

structure Event (χ φ : Type) where
  ctx : Option χ
  gid : String
  cid : ℤ
  uid : ℤ
  token : Token
  event : ℤ
  version : Int32
  chain : Option (List φ)
  actor : Option ℕ
deriving DecidableEq

/-- The part of the node that the entry points and `Reply` read: `opts.id`, the value of
`context.Background()` and `proxy.PackBuffer`. -/
structure Config (χ δ ε : Type) where
  id : String
  background : χ
  packBuffer : Option δ → Except ε (Option δ)

inductive Sent (χ δ : Type) where
  | push (ctx : Option χ) (gid : String) (kind : Kind) (target : ℤ) (token : Token)
      (message : Message δ)
  | toActor (actor : ℕ) (uid : ℤ) (message : Message δ)
  | toNode (ctx : Option χ) (nid : String) (uid : ℤ) (message : Message δ)
  | nothing
  | errIllegalOperation
deriving DecidableEq

structure Seen (χ δ : Type) where
  ctx : Option χ
  gid : String
  nid : String
  pid : String
  cid : ℤ
  uid : ℤ
  token : Token
  event : ℤ
  message : Message δ
deriving DecidableEq

variable {χ δ φ ε : Type}

namespace Request

def new : Request χ δ φ where
  ctx := none
  gid := ""
  nid := ""
  pid := ""
  cid := 0
  uid := 0
  token := 0
  message := ⟨0, 0, none⟩
  version := 0
  chain := none
  actor := none

def storeActor (r : Request χ δ φ) (actor : ℕ) : Request χ δ φ := { r with actor := some actor }

def incrVersion (r : Request χ δ φ) : Request χ δ φ := { r with version := r.version + 1 }

def cancel (r : Request χ δ φ) : Request χ δ φ := { r with chain := r.chain.map fun _ => [] }

def reset (r : Request χ δ φ) : Request χ δ φ :=
  { r with
    message := { r.message with data := none }
    token := 0
    actor := none
    chain := none }

def seen (r : Request χ δ φ) : Seen χ δ where
  ctx := r.ctx
  gid := r.gid
  nid := r.nid
  pid := r.pid
  cid := r.cid
  uid := r.uid
  token := r.token
  event := 0
  message := r.message

/-- `Reply`, with the registry of the scheduler that `doLoad` looks in. -/
def reply (r : Request χ δ φ) (id : String) (actors : String → Option ℕ) (message : Message δ) :
    Sent χ δ :=
  if r.gid ≠ "" then .push r.ctx r.gid .conn r.cid r.token message
  else if r.pid ≠ "" then
    match actors r.pid with
    | some actor => .toActor actor r.uid message
    | none => .nothing
  else if r.nid ≠ "" then
    if r.nid = id then .nothing else .toNode r.ctx r.nid r.uid message
  else .errIllegalOperation

def response (r : Request χ δ φ) (id : String) (actors : String → Option ℕ) (data : Option δ) :
    Sent χ δ :=
  r.reply id actors ⟨r.message.seq, r.message.route, data⟩

end Request

namespace Event

def new : Event χ φ where
  ctx := none
  gid := ""
  cid := 0
  uid := 0
  token := 0
  event := 0
  version := 0
  chain := none
  actor := none

def storeActor (e : Event χ φ) (actor : ℕ) : Event χ φ := { e with actor := some actor }

def incrVersion (e : Event χ φ) : Event χ φ := { e with version := e.version + 1 }

def cancel (e : Event χ φ) : Event χ φ := { e with chain := e.chain.map fun _ => [] }

def reset (e : Event χ φ) : Event χ φ := { e with token := 0, chain := none, actor := none }

def seen (e : Event χ φ) : Seen χ δ where
  ctx := e.ctx
  gid := e.gid
  nid := ""
  pid := ""
  cid := e.cid
  uid := e.uid
  token := e.token
  event := e.event
  message := ⟨0, 0, none⟩

def reply (e : Event χ φ) (message : Message δ) : Sent χ δ :=
  if e.uid ≠ 0 then .push e.ctx e.gid .user e.uid 0 message
  else .push e.ctx e.gid .conn e.cid 0 message

end Event

inductive Context (χ δ φ : Type) where
  | request (r : Request χ δ φ)
  | event (e : Event χ φ)
deriving DecidableEq

namespace Context

def version : Context χ δ φ → Int32
  | request r => r.version
  | event e => e.version

def actor : Context χ δ φ → Option ℕ
  | request r => r.actor
  | event e => e.actor

def clearVersion : Context χ δ φ → Context χ δ φ
  | request r => .request { r with version := 0 }
  | event e => .event { e with version := 0 }

def storeActor (actor : ℕ) : Context χ δ φ → Context χ δ φ
  | request r => .request (r.storeActor actor)
  | event e => .event (e.storeActor actor)

def incrVersion : Context χ δ φ → Context χ δ φ
  | request r => .request r.incrVersion
  | event e => .event e.incrVersion

def cancel : Context χ δ φ → Context χ δ φ
  | request r => .request r.cancel
  | event e => .event e.cancel

def reset : Context χ δ φ → Context χ δ φ
  | request r => .request r.reset
  | event e => .event e.reset

def seen : Context χ δ φ → Seen χ δ
  | request r => r.seen
  | event e => e.seen

def reply (id : String) (actors : String → Option ℕ) (message : Message δ) :
    Context χ δ φ → Sent χ δ
  | request r => r.reply id actors message
  | event e => e.reply message

/-- `Response`: an event has nothing to respond to. -/
def response (id : String) (actors : String → Option ℕ) (data : Option δ) : Context χ δ φ → Sent χ δ
  | request r => r.response id actors data
  | event _ => .errIllegalOperation

end Context

/-- The calls that take a context from a pool. `deliver` is `Actor.Deliver` on the given actor;
`none` is a nil context. -/
inductive Entry (χ δ : Type) where
  | deliver (actor : ℕ) (uid : ℤ) (message : Message δ)
  | deliverWithContext (ctx : Option χ) (gid nid pid : String) (cid uid : ℤ) (token : Token)
      (seq route : Int32) (data : Option δ)
  | trigger (kind : ℤ) (gid : String) (cid uid : ℤ) (token : Token)
deriving DecidableEq

namespace Entry

def fillDeliver (n : Config χ δ ε) (uid : ℤ) (message : Message δ) (buf : Option δ)
    (req : Request χ δ φ) : Request χ δ φ :=
  { req with
    nid := n.id
    uid := uid
    message := ⟨message.seq, message.route, buf⟩ }

def fillRouter (n : Config χ δ ε) (ctx : Option χ) (gid nid pid : String) (cid uid : ℤ)
    (token : Token) (seq route : Int32) (data : Option δ) (req : Request χ δ φ) : Request χ δ φ :=
  { req with
    ctx := some (ctx.getD n.background)
    gid := gid
    nid := nid
    pid := pid
    cid := cid
    uid := uid
    token := token
    message := ⟨seq, route, data⟩ }

def fillTrigger (n : Config χ δ ε) (kind : ℤ) (gid : String) (cid uid : ℤ) (token : Token)
    (evt : Event χ φ) : Event χ φ :=
  { evt with
    ctx := some n.background
    event := kind
    gid := gid
    cid := cid
    uid := uid
    token := token }

/-- `Actor.Next`: only a started actor gets the context. -/
def next (actor : ℕ) (started : Bool) (c : Context χ δ φ) : Option (Context χ δ φ) :=
  if started then some (c.storeActor actor).incrVersion.cancel else none

/-- The context that the call puts into the mailbox of its actor or into the queue of the router or
trigger, given what the two pools return. -/
def handed (n : Config χ δ ε) (started : ℕ → Bool) (req : Request χ δ φ) (evt : Event χ φ) :
    Entry χ δ → Except ε (Option (Context χ δ φ))
  | deliver actor uid message => do
    let buf ← n.packBuffer message.data
    return next actor (started actor) (.request (fillDeliver n uid message buf req))
  | deliverWithContext ctx gid nid pid cid uid token seq route data =>
    return some (.request (fillRouter n ctx gid nid pid cid uid token seq route data req))
  | trigger kind gid cid uid token =>
    return some (.event (fillTrigger n kind gid cid uid token evt))

def ToActor (n : Config χ δ ε) (started : ℕ → Bool) : Entry χ δ → Prop
  | deliver actor _ message => started actor = true ∧ ∃ buf, n.packBuffer message.data = .ok buf
  | _ => False

end Entry

/-- Two results of a call are the same for every handler: it reads the same, and whatever it
replies or responds goes to the same place, with any registry of actors at that time. -/
structure SameForHandlers (id : String) (x y : Except ε (Option (Context χ δ φ))) : Prop where
  seen : x.map (Option.map Context.seen) = y.map (Option.map Context.seen)
  reply (actors : String → Option ℕ) (message : Message δ) :
    x.map (Option.map (Context.reply id actors message)) =
      y.map (Option.map (Context.reply id actors message))
  response (actors : String → Option ℕ) (data : Option δ) :
    x.map (Option.map (Context.response id actors data)) =
      y.map (Option.map (Context.response id actors data))

/-- What two uses left in a request agrees on every field that neither `reset` clears nor `Deliver`
writes. -/
structure SameLeft (r₁ r₂ : Request χ δ φ) : Prop where
  ctx : r₁.ctx = r₂.ctx
  gid : r₁.gid = r₂.gid
  pid : r₁.pid = r₂.pid
  cid : r₁.cid = r₂.cid

namespace Request

variable {r₁ r₂ : Request χ δ φ}

theorem reply_of_seen (h : r₁.seen = r₂.seen) (id : String) (actors : String → Option ℕ)
    (message : Message δ) : r₁.reply id actors message = r₂.reply id actors message := by
  simp only [seen, Seen.mk.injEq] at h
  obtain ⟨hctx, hgid, hnid, hpid, hcid, huid, htok, -, -⟩ := h
  simp only [reply, hctx, hgid, hnid, hpid, hcid, huid, htok]

theorem response_of_seen (h : r₁.seen = r₂.seen) (id : String) (actors : String → Option ℕ)
    (data : Option δ) : r₁.response id actors data = r₂.response id actors data := by
  have hmsg : r₁.message = r₂.message := congrArg Seen.message h
  rw [response, hmsg]
  exact reply_of_seen h id actors _

end Request

namespace Entry

variable {n : Config χ δ ε} {started : ℕ → Bool} {r₁ r₂ : Request χ δ φ} {v₁ v₂ : Event χ φ}

/-- What `Deliver` hands over shows the left contents exactly through the fields it does not
write. -/
theorem seen_fillDeliver_iff (uid : ℤ) (message : Message δ) (buf : Option δ) :
    (fillDeliver n uid message buf r₁.reset).seen = (fillDeliver n uid message buf r₂.reset).seen ↔
      SameLeft r₁ r₂ := by
  constructor
  · intro h
    simp only [fillDeliver, Request.seen, Request.reset, Seen.mk.injEq, and_true, true_and] at h
    exact ⟨h.1, h.2.1, h.2.2.1, h.2.2.2⟩
  · intro h
    simp only [fillDeliver, Request.seen, Request.reset, h.ctx, h.gid, h.pid, h.cid]

theorem seen_fillRouter (ctx : Option χ) (gid nid pid : String) (cid uid : ℤ) (token : Token)
    (seq route : Int32) (data : Option δ) :
    (fillRouter n ctx gid nid pid cid uid token seq route data r₁).seen =
      (fillRouter n ctx gid nid pid cid uid token seq route data r₂).seen := rfl

end Entry

theorem sameForHandlers_request {r₁ r₂ : Request χ δ φ} (id : String) (h : r₁.seen = r₂.seen) :
    SameForHandlers (ε := ε) id (.ok (some (.request r₁))) (.ok (some (.request r₂))) where
  seen := congrArg (fun x => Except.ok (some x)) h
  reply actors message :=
    congrArg (fun x => Except.ok (some x)) (Request.reply_of_seen h id actors message)
  response actors data :=
    congrArg (fun x => Except.ok (some x)) (Request.response_of_seen h id actors data)

theorem sameForHandlers_refl (id : String) (x : Except ε (Option (Context χ δ φ))) :
    SameForHandlers id x x where
  seen := rfl
  reply _ _ := rfl
  response _ _ := rfl

namespace Entry

variable {n : Config χ δ ε} {started : ℕ → Bool} {r₁ r₂ : Request χ δ φ} {v₁ v₂ : Event χ φ}

theorem deliver_same_iff (actor : ℕ) (uid : ℤ) (message : Message δ) :
    SameForHandlers n.id ((deliver actor uid message).handed n started r₁.reset v₁)
        ((deliver actor uid message).handed n started r₂.reset v₂) ↔
      ((deliver actor uid message : Entry χ δ).ToActor n started → SameLeft r₁ r₂) := by
  simp only [handed, ToActor]
  cases hbuf : n.packBuffer message.data with
  | error e =>
    have hsame := sameForHandlers_refl n.id (.error e : Except ε (Option (Context χ δ φ)))
    exact ⟨fun _ ⟨_, _, hok⟩ => (nomatch hok), fun _ => hsame⟩
  | ok buf =>
    cases hstd : started actor with
    | false =>
      have hsame := sameForHandlers_refl n.id (.ok none : Except ε (Option (Context χ δ φ)))
      exact ⟨fun _ ⟨htrue, _⟩ => (nomatch htrue), fun _ => hsame⟩
    | true =>
      constructor
      · intro h _
        have hseen := Option.some.inj (Except.ok.inj h.seen)
        exact (seen_fillDeliver_iff uid message buf).mp hseen
      · intro h
        have hseen := (seen_fillDeliver_iff (n := n) uid message buf).mpr (h ⟨rfl, buf, rfl⟩)
        exact sameForHandlers_request n.id hseen

/-- The calls hand over a context that does not depend on the earlier uses of the pooled objects,
except `Deliver`, which leaves the gate, actor, connection and context of the earlier use. -/
theorem handed_same_iff (n : Config χ δ ε) (started : ℕ → Bool) (e : Entry χ δ)
    (r₁ r₂ : Request χ δ φ) (v₁ v₂ : Event χ φ) :
    SameForHandlers n.id (e.handed n started r₁.reset v₁.reset)
        (e.handed n started r₂.reset v₂.reset) ↔
      (e.ToActor n started → SameLeft r₁ r₂) := by
  cases e with
  | deliver actor uid message => exact deliver_same_iff actor uid message
  | deliverWithContext ctx gid nid pid cid uid token seq route data =>
    exact ⟨fun _ h => h.elim, fun _ => sameForHandlers_request n.id
      (seen_fillRouter ctx gid nid pid cid uid token seq route data)⟩
  | trigger kind gid cid uid token =>
    exact ⟨fun _ h => h.elim, fun _ => ⟨rfl, fun _ _ => rfl, fun _ _ => rfl⟩⟩

def served : Request ℕ ℕ ℕ :=
  { (Request.new : Request ℕ ℕ ℕ) with
    ctx := some 1
    gid := "gate-1"
    cid := 7
    uid := 100
    token := ⟨100, 4⟩ }

/-- A message to user 200, whose handler replies to connection 7 if the pooled request served user
100 before; from a new request nothing is sent. -/
theorem deliver_replies_to_earlier_user :
    let n : Config ℕ ℕ Unit := ⟨"node-1", 0, .ok⟩
    let reply (r : Request ℕ ℕ ℕ) :=
      ((deliver 0 200 ⟨1, 2, some 5⟩).handed n (fun _ => true) r.reset Event.new).map
        (Option.map (Context.reply n.id (fun _ => none) ⟨1, 3, some 6⟩))
    reply served = .ok (some (.push (some 1) "gate-1" .conn 7 0 ⟨1, 3, some 6⟩)) ∧
      reply Request.new = .ok (some .nothing) := by
  decide +kernel

end Entry

end DueServer.Node
