import DueServer.LibTransition
import DueServer.OwnershipStore

/-! Gates that share one ownership store and one locator. Every call of `provider.Bind`,
`provider.Unbind`, `Gate.bindSession` and `Gate.handleDisconnect` is cut where it talks to
the session table, the store or the locator. -/
namespace DueServer

/-- The arguments of a bind; `locate` is set in `provider.Bind`, which goes on to the
locator when `bindSession` has returned. -/
structure BindArgs where
  cid : ℤ
  uid : ℤ
  locate : Bool
deriving DecidableEq

inductive Stage where
  -- bindSession
  | localToken (b : BindArgs)
  | isCurrent (b : BindArgs) (localToken : Token)
  | current (b : BindArgs) (localToken : Token)
  | acquire (b : BindArgs) (localToken : Token)
  | bindToken (b : BindArgs) (localToken token : Token)
  | releaseNew (b : BindArgs) (token : Token) (err : DueErr)
  | releaseOld (b : BindArgs) (localToken token : Token)
  -- provider.Bind after bindSession
  | bindGate (uid : ℤ) (token : Token)
  | rollbackUnbind (uid : ℤ) (token : Token) (err : DueErr)
  | rollbackRelease (token : Token) (err : DueErr)
  -- provider.Unbind
  | unbindToken (uid : ℤ)
  | unbindRelease (uid : ℤ) (token : Token)
  | unbindSession (uid : ℤ) (token : Token)
  | unbindGate (uid : ℤ) (token : Token)
  -- handleDisconnect after RemConnWithToken
  | disconnectGate (uid : ℤ) (token : Token)
  | disconnectRelease (token : Token)
  | returned (err : Option DueErr)
deriving DecidableEq

structure Cluster (γ κ σ : Type) where
  gate : γ → Session κ
  store : σ
  locator : ℤ → Option γ
  calls : ℕ → Option (γ × Stage)

inductive Entry (κ : Type) where
  | bindSession (cid uid : ℤ)
  | bind (cid uid : ℤ)
  | unbind (uid : ℤ)
  | handleDisconnect (conn : κ)
deriving DecidableEq

inductive Action (γ κ : Type) where
  | connect (g : γ) (conn : κ)
  | call (i : ℕ) (g : γ) (entry : Entry κ)
  | step (i : ℕ) (reply : Reply)
deriving DecidableEq

/-- What a step does that others can tell: call `i` finds or makes a binding, removes one
(`own` is the token the call acquired or read), or writes the locator. -/
inductive Event (γ : Type) where
  | silent
  | sawCurrent (i : ℕ) (g : γ) (uid : ℤ) (token : Token)
  | boundToken (i : ℕ) (g : γ) (cid uid : ℤ) (token : Token)
  | unbound (i : ℕ) (g : γ) (uid : ℤ) (own removed : Token)
  | boundGate (i : ℕ) (g : γ) (uid : ℤ) (token : Token)
  | unboundGate (i : ℕ) (g : γ) (uid : ℤ) (token : Token)
deriving DecidableEq

namespace Session

variable {κ : Type} [DecidableEq κ]

/-- A client connects: the network layer hands over an object without a user, and
`handleConnect` files it. -/
def connect (s : Session κ) (conn : κ) : Session κ :=
  addConn { s with heap := Function.update s.heap conn ⟨s.connID conn, 0, []⟩ } conn

def boundToken (s : Session κ) (uid : ℤ) : Option Token :=
  (s.users uid).map fun c => s.tokens (s.connID c)

end Session

namespace OwnershipStore

variable {σ : Type} (L : OwnershipStore σ)

def acquireReply (reply : Reply) (st : σ) (uid : ℤ) : Except DueErr Token × σ :=
  match reply with
  | .ok => L.acquire st uid
  | .failed executed err => (.error err, if executed then (L.acquire st uid).2 else st)

def currentReply (reply : Reply) (st : σ) (uid : ℤ) : Except DueErr (Option Token) :=
  match reply with
  | .ok => L.current st uid
  | .failed _ err => .error err

def releaseReply (reply : Reply) (st : σ) (uid : ℤ) (token : Token) : Except DueErr Bool × σ :=
  match reply with
  | .ok => L.release st uid token
  | .failed executed err => (.error err, if executed then (L.release st uid token).2 else st)

def releaseSession (reply : Reply) (st : σ) (token : Token) : Except DueErr Bool × σ :=
  if token.uid = 0 ∨ token.generation = 0 then (.ok false, st)
  else L.releaseReply reply st token.uid token

end OwnershipStore

namespace Cluster

variable {γ κ σ : Type} [DecidableEq γ] [DecidableEq κ]

/-- `locator.BindGate`: an unconditional set. -/
def bindGate (locator : ℤ → Option γ) (uid : ℤ) (g : γ) : ℤ → Option γ :=
  Function.update locator uid (some g)

/-- `locator.UnbindGate`: `unbindGateScript` deletes the entry if it names this gate. -/
def unbindGate (locator : ℤ → Option γ) (uid : ℤ) (g : γ) : ℤ → Option γ :=
  if locator uid = some g then Function.update locator uid none else locator

def goto (s : Cluster γ κ σ) (i : ℕ) (g : γ) (stage : Stage) : Cluster γ κ σ :=
  { s with calls := Function.update s.calls i (some (g, stage)) }

def setGate (s : Cluster γ κ σ) (g : γ) (sess : Session κ) : Cluster γ κ σ :=
  { s with gate := Function.update s.gate g sess }

def bindDone (b : BindArgs) (token : Token) : Stage :=
  if b.locate then .bindGate b.uid token else .returned none

def bindTokenDone (b : BindArgs) (localToken token : Token) : Stage :=
  if localToken.uid ≠ 0 ∧ localToken.generation ≠ 0 ∧ localToken.uid ≠ b.uid then
    .releaseOld b localToken token
  else bindDone b token

/-- A call starts. The network layer calls `handleDisconnect` once for each connection it
has handed over, so that connection is still filed. -/
def startCall (s : Cluster γ κ σ) (i : ℕ) (g : γ) : Entry κ → Option (Cluster γ κ σ × Event γ)
  | .bindSession cid uid => some (s.goto i g (.localToken ⟨cid, uid, false⟩), .silent)
  | .bind cid uid =>
    if cid ≤ 0 ∨ uid ≤ 0 then
      some (s.goto i g (.returned (some .errInvalidArgument)), .silent)
    else some (s.goto i g (.localToken ⟨cid, uid, true⟩), .silent)
  | .unbind uid =>
    if uid = 0 then some (s.goto i g (.returned (some .errInvalidArgument)), .silent)
    else some (s.goto i g (.unbindToken uid), .silent)
  | .handleDisconnect conn =>
    if (s.gate g).conns ((s.gate g).connID conn) = some conn then
      let ((uid, token), sess) := (s.gate g).remConnWithToken conn
      if uid ≠ 0 then
        some ((s.setGate g sess).goto i g (.disconnectGate uid token), .silent)
      else some ((s.setGate g sess).goto i g (.returned none), .silent)
    else none

def stepCall (L : OwnershipStore σ) (s : Cluster γ κ σ) (i : ℕ) (g : γ) (reply : Reply) :
    Stage → Option (Cluster γ κ σ × Event γ)
  | .localToken b =>
    match (s.gate g).token .conn b.cid with
    | .error err => some (s.goto i g (.returned (some err)), .silent)
    | .ok localToken =>
      if localToken.uid = b.uid ∧ localToken.generation ≠ 0 then
        some (s.goto i g (.isCurrent b localToken), .silent)
      else some (s.goto i g (.acquire b localToken), .silent)
  | .isCurrent b localToken =>
    if (s.gate g).isCurrent localToken then
      some (s.goto i g (.current b localToken), .sawCurrent i g b.uid localToken)
    else some (s.goto i g (.acquire b localToken), .silent)
  | .current b localToken =>
    match L.currentReply reply s.store b.uid with
    | .error err => some (s.goto i g (.returned (some err)), .silent)
    | .ok current =>
      if current = some localToken then some (s.goto i g (bindDone b localToken), .silent)
      else some (s.goto i g (.acquire b localToken), .silent)
  | .acquire b localToken =>
    match L.acquireReply reply s.store b.uid with
    | (.error err, store) =>
      some ({ s with store := store }.goto i g (.returned (some err)), .silent)
    | (.ok token, store) =>
      some ({ s with store := store }.goto i g (.bindToken b localToken token), .silent)
  | .bindToken b localToken token =>
    match (s.gate g).bindToken b.cid b.uid token with
    | .error err => some (s.goto i g (.releaseNew b token err), .silent)
    | .ok sess =>
      some ((s.setGate g sess).goto i g (bindTokenDone b localToken token),
        .boundToken i g b.cid b.uid token)
  | .releaseNew b token err =>
    let store := (L.releaseReply reply s.store b.uid token).2
    some ({ s with store := store }.goto i g (.returned (some err)), .silent)
  | .releaseOld b localToken token =>
    let store := (L.releaseReply reply s.store localToken.uid localToken).2
    some ({ s with store := store }.goto i g (bindDone b token), .silent)
  | .bindGate uid token =>
    match reply with
    | .ok =>
      some ({ s with locator := bindGate s.locator uid g }.goto i g (.returned none),
        .boundGate i g uid token)
    | .failed true err =>
      some ({ s with locator := bindGate s.locator uid g }.goto i g
        (.rollbackUnbind uid token err), .boundGate i g uid token)
    | .failed false err => some (s.goto i g (.rollbackUnbind uid token err), .silent)
  | .rollbackUnbind uid token err =>
    match (s.gate g).unbind uid with
    | .error _ => some (s.goto i g (.rollbackRelease token err), .silent)
    | .ok (cid, sess) =>
      some ((s.setGate g sess).goto i g (.rollbackRelease token err),
        .unbound i g uid token ((s.gate g).tokens cid))
  | .rollbackRelease token err =>
    let store := (L.releaseSession reply s.store token).2
    some ({ s with store := store }.goto i g (.returned (some err)), .silent)
  | .unbindToken uid =>
    match (s.gate g).token .user uid with
    | .error err => some (s.goto i g (.returned (some err)), .silent)
    | .ok token => some (s.goto i g (.unbindRelease uid token), .sawCurrent i g uid token)
  | .unbindRelease uid token =>
    match L.releaseSession reply s.store token with
    | (.error err, store) =>
      some ({ s with store := store }.goto i g (.returned (some err)), .silent)
    | (.ok _, store) =>
      some ({ s with store := store }.goto i g (.unbindSession uid token), .silent)
  | .unbindSession uid token =>
    match (s.gate g).unbind uid with
    | .error err => some (s.goto i g (.returned (some err)), .silent)
    | .ok (cid, sess) =>
      some ((s.setGate g sess).goto i g (.unbindGate uid token),
        .unbound i g uid token ((s.gate g).tokens cid))
  | .unbindGate uid token =>
    match reply with
    | .ok =>
      some ({ s with locator := unbindGate s.locator uid g }.goto i g (.returned none),
        .unboundGate i g uid token)
    | .failed true err =>
      some ({ s with locator := unbindGate s.locator uid g }.goto i g (.returned (some err)),
        .unboundGate i g uid token)
    | .failed false err => some (s.goto i g (.returned (some err)), .silent)
  | .disconnectGate uid token =>
    -- the error of proxy.unbindGate is dropped here
    match reply with
    | .failed false _ => some (s.goto i g (.disconnectRelease token), .silent)
    | _ =>
      some ({ s with locator := unbindGate s.locator uid g }.goto i g (.disconnectRelease token),
        .unboundGate i g uid token)
  | .disconnectRelease token =>
    let store := (L.releaseSession reply s.store token).2
    some ({ s with store := store }.goto i g (.returned none), .silent)
  | .returned _ => none

def step (L : OwnershipStore σ) (s : Cluster γ κ σ) : Action γ κ → Option (Cluster γ κ σ × Event γ)
  | .connect g conn =>
    if (s.gate g).conns ((s.gate g).connID conn) = none then
      some (s.setGate g ((s.gate g).connect conn), .silent)
    else none
  | .call i g entry =>
    if s.calls i = none then s.startCall i g entry else none
  | .step i reply =>
    match s.calls i with
    | none => none
    | some (g, stage) => s.stepCall L i g reply stage

def init (heap : γ → κ → ConnObj) (store : σ) : Cluster γ κ σ where
  gate := fun g => Session.newSession (heap g)
  store := store
  locator := fun _ => none
  calls := fun _ => none

def Quiescent (s : Cluster γ κ σ) : Prop :=
  ∀ i g stage, s.calls i = some (g, stage) → ∃ err, stage = .returned err

end Cluster

end DueServer
