import Mathlib.Algebra.Group.Nat.Defs
import Mathlib.Data.Finset.Basic

/-! The session table of one gate (`session/session.go`): connections by id, the
connection that carries a user, the token each connection was last bound with, and the
channels. Connection objects live in `heap`; the table refers to them by reference. -/
namespace DueServer

open Function

/-- `session.Token`: one binding generation of a user session. -/
structure Token where
  uid : ℤ
  generation : ℕ
deriving DecidableEq

instance : Zero Token := ⟨⟨0, 0⟩⟩

@[simp] theorem token_zero_generation : (0 : Token).generation = 0 := rfl

/-- `math.MaxUint64`, the largest value of the generation counters. -/
def maxUint64 : ℕ := 2^64 - 1

/-- The sentinel errors that the session, ownership and gate code returns; `other` is an
error that a remote store or locator reports. -/
inductive DueErr where
  | errInvalidArgument
  | errInvalidSessionKind
  | errNotFoundSession
  | errStaleSession
  | errOwnershipGenerationExhausted
  | errConnectionClosed
  | other (text : String)
deriving DecidableEq

/-- `session.Kind`, an integer of which only `Conn` (1) and `User` (2) are valid. -/
inductive Kind where
  | conn
  | user
  | other (k : ℤ)
deriving DecidableEq

/-- What the session reads and writes of a `network.Conn`: its id, the user it is bound
to (0 for none) and the channel names stored as attributes. -/
structure ConnObj where
  id : ℤ
  uid : ℤ
  attr : List String
deriving DecidableEq

structure Session (κ : Type) where
  conns : ℤ → Option κ
  users : ℤ → Option κ
  tokens : ℤ → Token
  generations : ℤ → ℕ
  channels : String → Option (Finset κ)
  heap : κ → ConnObj

namespace Session

variable {κ : Type} [DecidableEq κ]

/-- `NewSession`, next to the connection objects the network layer owns. -/
def newSession (heap : κ → ConnObj) : Session κ where
  conns := fun _ => none
  users := fun _ => none
  tokens := fun _ => 0
  generations := fun _ => 0
  channels := fun _ => none
  heap := heap

def connID (s : Session κ) (conn : κ) : ℤ := (s.heap conn).id

def connUID (s : Session κ) (conn : κ) : ℤ := (s.heap conn).uid

/-- `conn.Bind(uid)`; `conn.Unbind()` is the case `uid = 0`. -/
def setUID (s : Session κ) (conn : κ) (uid : ℤ) : Session κ :=
  { s with heap := update s.heap conn { s.heap conn with uid := uid } }

def nextGeneration (s : Session κ) (uid : ℤ) : ℕ × Session κ :=
  let generation := (s.generations uid + 1) % 2^64
  let generation := if generation = 0 then generation + 1 else generation
  (generation, { s with generations := update s.generations uid generation })

def addConn (s : Session κ) (conn : κ) : Session κ :=
  let cid := s.connID conn
  let uid := s.connUID conn
  let s := { s with conns := update s.conns cid (some conn) }
  if uid ≠ 0 then
    let (generation, s) := s.nextGeneration uid
    { s with
      users := update s.users uid (some conn)
      tokens := update s.tokens cid ⟨uid, generation⟩ }
  else s

/-- `doUnsubscribe`: an emptied channel set is dropped from the table. -/
def doUnsubscribe (s : Session κ) (channel : String) (conn : κ) : Session κ :=
  match s.channels channel with
  | none => s
  | some conns =>
    let conns := conns.erase conn
    { s with channels :=
        update s.channels channel (if conns = ∅ then none else some conns) }

/-- `RemConnWithToken`: the user and token at the moment of removal are returned. -/
def remConnWithToken (s : Session κ) (conn : κ) : (ℤ × Token) × Session κ :=
  let cid := s.connID conn
  let uid := s.connUID conn
  let token := s.tokens cid
  let s := { s with
    conns := update s.conns cid none
    tokens := update s.tokens cid 0 }
  let s := if uid ≠ 0 ∧ s.users uid = some conn then
    { s with users := update s.users uid none } else s
  -- conn.Attr().Visit
  let s := (s.heap conn).attr.foldl (fun s channel => s.doUnsubscribe channel conn) s
  ((uid, token), s)

def remConn (s : Session κ) (conn : κ) : Session κ := (s.remConnWithToken conn).2

def conn (s : Session κ) (kind : Kind) (target : ℤ) : Except DueErr κ :=
  match kind with
  | .conn => match s.conns target with
    | none => .error .errNotFoundSession
    | some conn => .ok conn
  | .user => match s.users target with
    | none => .error .errNotFoundSession
    | some conn => .ok conn
  | .other _ => .error .errInvalidSessionKind

/-- The loop body of `Subscribe`: the channel becomes an attribute of the connection, and the
connection a member of the channel. -/
def subscribeConn (s : Session κ) (channel : String) (conn : κ) : Session κ :=
  let attr := (s.heap conn).attr
  { s with
    heap := update s.heap conn
      { s.heap conn with attr := if channel ∈ attr then attr else attr ++ [channel] }
    channels := update s.channels channel
      (some (insert conn ((s.channels channel).getD ∅))) }

def unsubscribeConn (s : Session κ) (channel : String) (conn : κ) : Session κ :=
  if channel ∈ (s.heap conn).attr then
    { s with
      heap := update s.heap conn
        { s.heap conn with attr := (s.heap conn).attr.erase channel } }.doUnsubscribe channel conn
  else s

/-- `Subscribe`, or `Unsubscribe`, of the targets that have a session. -/
def subscribe (s : Session κ) (member : Bool) (kind : Kind) (targets : List ℤ) (channel : String) :
    Session κ :=
  targets.foldl (fun s target =>
    match s.conn kind target with
    | .error _ => s
    | .ok conn => if member then s.subscribeConn channel conn else s.unsubscribeConn channel conn) s

/-- First part of the unexported `bindToken`: a connection that changes its user leaves
the entry of the old one. -/
def leaveUser (s : Session κ) (conn : κ) (uid : ℤ) : Session κ :=
  let oldUID := s.connUID conn
  if oldUID ≠ 0 ∧ oldUID ≠ uid ∧ s.users oldUID = some conn then
    { s with users := update s.users oldUID none }
  else s

def evictUser (s : Session κ) (conn : κ) (uid : ℤ) : Session κ :=
  match s.users uid with
  | some oldConn => if oldConn ≠ conn then s.setUID oldConn 0 else s
  | none => s

def bindTokenConn (s : Session κ) (conn : κ) (uid : ℤ) (token : Token) : Session κ :=
  let cid := s.connID conn
  if s.connUID conn ≠ 0 ∧ s.connUID conn = uid ∧ s.users uid = some conn then
    { s with tokens := update s.tokens cid token }
  else
    let s := (s.leaveUser conn uid).evictUser conn uid
    let s := s.setUID conn uid
    { s with
      users := update s.users uid (some conn)
      tokens := update s.tokens cid token }

/-- `Bind`: the generation comes from the session's own counter. -/
def bind (s : Session κ) (cid uid : ℤ) : Except DueErr (Session κ) :=
  match s.conn .conn cid with
  | .error e => .error e
  | .ok conn =>
    if s.connUID conn = uid then .ok s
    else
      let (generation, s) := s.nextGeneration uid
      .ok (s.bindTokenConn conn uid ⟨uid, generation⟩)

/-- `BindToken`: the token comes from the ownership store. The generation is compared
with the session's counter only after the binding has been made. -/
def bindToken (s : Session κ) (cid uid : ℤ) (token : Token) : Except DueErr (Session κ) :=
  if uid ≤ 0 ∨ token.uid ≠ uid ∨ token.generation = 0 then .error .errInvalidArgument
  else
    match s.conn .conn cid with
    | .error e => .error e
    | .ok conn =>
      let s := s.bindTokenConn conn uid token
      if token.generation > s.generations uid then
        .ok { s with generations := update s.generations uid token.generation }
      else .ok s

/-- `Unbind`; the connection keeps its last token. -/
def unbind (s : Session κ) (uid : ℤ) : Except DueErr (ℤ × Session κ) :=
  match s.conn .user uid with
  | .error e => .error e
  | .ok conn =>
    let s := s.setUID conn 0
    .ok (s.connID conn, { s with users := update s.users uid none })

def token (s : Session κ) (kind : Kind) (target : ℤ) : Except DueErr Token :=
  match s.conn kind target with
  | .error e => .error e
  | .ok conn => .ok (s.tokens (s.connID conn))

def isCurrent (s : Session κ) (token : Token) : Bool :=
  if token.uid = 0 ∨ token.generation = 0 then false
  else
    match s.users token.uid with
    | none => false
    | some conn => decide (s.tokens (s.connID conn) = token)

end Session

inductive ConnEffect (κ : Type) where
  | send (conn : κ) (message : List UInt8)
  | push (conn : κ) (message : List UInt8)
  | close (conn : κ) (force : Bool)
deriving DecidableEq

def ConnEffect.target {κ : Type} : ConnEffect κ → κ
  | .send conn _ => conn
  | .push conn _ => conn
  | .close conn _ => conn

namespace Session

variable {κ : Type} [DecidableEq κ]

def perform (net : ConnEffect κ → Option DueErr) (e : ConnEffect κ) :
    Except DueErr Unit × List (ConnEffect κ) :=
  match net e with
  | none => (.ok (), [e])
  | some err => (.error err, [e])

/-- The message operation of `SendCurrent` and `Push`, followed by `conn.Close()` if the
caller asked for a disconnect and the message was taken. -/
def performThenClose (net : ConnEffect κ → Option DueErr) (e : ConnEffect κ)
    (disconnect : Bool) : Except DueErr Unit × List (ConnEffect κ) :=
  match net e with
  | some err => (.error err, [e])
  | none =>
    if disconnect then
      let (res, effects) := perform net (.close e.target false)
      (res, e :: effects)
    else (.ok (), [e])

/-- The connection that `kind` and `target` resolve to, if `token` is its current token. -/
def connCurrent (s : Session κ) (kind : Kind) (target : ℤ) (token : Token) : Except DueErr κ :=
  match s.conn kind target with
  | .error e => .error e
  | .ok conn =>
    if s.users token.uid ≠ some conn ∨ s.tokens (s.connID conn) ≠ token then
      .error .errStaleSession
    else .ok conn

def closeCurrent (s : Session κ) (net : ConnEffect κ → Option DueErr) (kind : Kind)
    (target : ℤ) (token : Token) (force : Bool) : Except DueErr Unit × List (ConnEffect κ) :=
  if token.uid ≤ 0 ∨ token.generation = 0 then (.error .errStaleSession, [])
  else if kind = .user ∧ target ≠ token.uid then (.error .errStaleSession, [])
  else
    match s.connCurrent kind target token with
    | .error e => (.error e, [])
    | .ok conn => perform net (.close conn force)

def sendCurrent (s : Session κ) (net : ConnEffect κ → Option DueErr) (kind : Kind)
    (target : ℤ) (token : Token) (disconnect : Bool) (message : List UInt8) :
    Except DueErr Unit × List (ConnEffect κ) :=
  if token.uid ≤ 0 ∨ token.generation = 0 then (.error .errStaleSession, [])
  else
    match s.connCurrent kind target token with
    | .error e => (.error e, [])
    | .ok conn => performThenClose net (.send conn message) disconnect

/-- `Push`, which takes no token. -/
def push (s : Session κ) (net : ConnEffect κ → Option DueErr) (kind : Kind) (target : ℤ)
    (disconnect : Bool) (message : List UInt8) : Except DueErr Unit × List (ConnEffect κ) :=
  match s.conn kind target with
  | .error e => (.error e, [])
  | .ok conn => performThenClose net (.push conn message) disconnect

end Session

abbrev OwnershipCurrent := Option (ℤ → Except DueErr (Option Token))

/-- The checks that `provider.Push` and `provider.DisconnectCurrent` make on a token before
they turn to the session. -/
def checkToken (store : OwnershipCurrent) (kind : Kind) (target : ℤ) (token : Token) :
    Except DueErr Unit :=
  if (kind ≠ .conn ∧ kind ≠ .user) ∨ token.uid ≤ 0 ∨ token.generation = 0 then
    .error .errStaleSession
  else if kind = .user ∧ target ≠ token.uid then .error .errStaleSession
  else
    match store with
    | none => .ok ()
    | some current =>
      match current token.uid with
      | .error e => .error e
      | .ok owner => if owner ≠ some token then .error .errStaleSession else .ok ()

def providerDisconnectCurrent {κ : Type} [DecidableEq κ] (s : Session κ)
    (store : OwnershipCurrent) (net : ConnEffect κ → Option DueErr) (kind : Kind) (target : ℤ)
    (token : Token) (force : Bool) : Except DueErr Unit × List (ConnEffect κ) :=
  match checkToken store kind target token with
  | .error e => (.error e, [])
  | .ok () => s.closeCurrent net kind target token force

/-- `provider.Push`. The last component is the user whose gate binding is dropped in the
background because an unfenced push did not find them. -/
def providerPush {κ : Type} [DecidableEq κ] (s : Session κ) (store : OwnershipCurrent)
    (net : ConnEffect κ → Option DueErr) (kind : Kind) (target : ℤ) (disconnect : Bool)
    (token : Token) (message : List UInt8) :
    Except DueErr Unit × List (ConnEffect κ) × Option ℤ :=
  if token ≠ 0 then
    match checkToken store kind target token with
    | .error e => (.error e, [], none)
    | .ok () =>
      let (res, effects) := s.sendCurrent net kind target token disconnect message
      (res, effects, none)
  else
    match s.push net kind target disconnect message with
    | (.error .errNotFoundSession, effects) =>
      (.error .errNotFoundSession, effects, if kind = .user then some target else none)
    | (res, effects) => (res, effects, none)

end DueServer
