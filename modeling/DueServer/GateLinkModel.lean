import DueServer.BufferShared
import DueServer.LibProg
import DueServer.SourceModel

/-! `internal/link/gate.go`: the calls of a `GateLinker` to the gates, as programs. The questions of
a program are the points where it meets the locator, the gates, the shared message or the other
goroutines of its group. A look-up may find any state of the cache of user gates. -/
namespace DueServer.Link

open Buffer

/-- `canceled` is the error of a group's context; `external` one of the locator, the builder or a
gate. -/
inductive GateErr where
  | notFoundLocator
  | notFoundUserLocation
  | notFoundEndpoint
  | notFoundSession
  | invalidGID
  | invalidArgument
  | invalidSessionKind
  | receiveTargetEmpty
  | canceled
  | external (code : ℕ)
deriving DecidableEq

structure GateCache where
  hints : Option Hints
  sources : AList fun _ : Int64 => String

def GateCache.load (c : GateCache) (uid : Int64) : Option String :=
  match c.hints with
  | some hints => (hints.load ⟨uid, "gate"⟩).1.1
  | none =>
    match c.sources.lookup uid with
    | some gid => if gid = "" then none else some gid
    | none => none

inductive GateOp where
  | push (ack : Bool)
  | unbind
  | getIP
  | isOnline
  | disconnect
  | subscribe
  | unsubscribe
  | broadcast (ack : Bool)
  | publish (ack : Bool)
deriving DecidableEq

namespace GateOp

abbrev Reply : GateOp → Type
  | .getIP => String
  | .isOnline => Bool
  | .broadcast _ | .publish _ => ℤ
  | _ => Unit

def zero : (op : GateOp) → op.Reply
  | .push _ | .unbind | .disconnect | .subscribe | .unsubscribe => ()
  | .getIP => ""
  | .isOnline => false
  | .broadcast _ | .publish _ => 0

def waits : GateOp → Bool
  | .push ack | .broadcast ack | .publish ack => ack
  | _ => true

end GateOp

inductive Served where
  | ok
  | notFoundSession
  | failed (code : ℕ)
deriving DecidableEq

def Served.err : Served → Option GateErr
  | .ok => none
  | .notFoundSession => some .notFoundSession
  | .failed code => some (.external code)

structure GateRound where
  cache : GateCache
  /-- `Locator.LocateGate` -/
  located : Except ℕ String
  /-- `dispatcher.FindEndpoint`; the address -/
  endpoint : String → Option String
  /-- the error of `builder.Build` for an address -/
  build : String → Option ℕ
  reply : (op : GateOp) → String → op.Reply
  served : GateOp → String → Served

structure Target where
  uid : Int64
  round : ℕ → GateRound

inductive Ask where
  | cached (round : ℕ)
  | locator (round : ℕ)
  | build (round : ℕ) (gid : String)
  | dial (addr : String)
  /-- a request with the message is made -/
  | mount
  /-- the client has written the request and releases the message -/
  | consume
  | call (op : GateOp) (round : ℕ) (client : String)
  | release
  /-- the variables of `doMulticast`, and the end of a goroutine of a group -/
  | setErr (err : Option GateErr)
  | readErr
  | count (n : ℤ)
  | leave (err : Option GateErr)

abbrev Ask.Answer : Ask → Type
  | .cached _ => Option String
  | .locator _ => Except GateErr String
  | .build .. | .dial _ | .readErr => Option GateErr
  | .call op .. => op.Reply × Option GateErr
  | .mount | .consume | .release | .setErr _ | .count _ | .leave _ => Unit

abbrev GateProg := Lib.Prog Ask Ask.Answer

def GateProg.skip : GateProg Unit := .ret ()

/-- `for range n { message.Release() }`. -/
def releaseTimes : ℕ → GateProg Unit
  | 0 => .ret ()
  | n + 1 => .ask .release fun _ => releaseTimes n

/-- `continued, reply, err` of a success handler; a nil reply is `none`. -/
abbrev Handled (ρ : Type) := Bool × Option ρ × Option GateErr

namespace GateLinker

def locateGate (hasLocator : Bool) (round : ℕ) : GateProg (Except GateErr String) :=
  if hasLocator = false then .ret (.error .notFoundLocator)
  else
    .ask (.cached round) fun
      | some gid => .ret (.ok gid)
      | none =>
        .ask (.locator round) fun
          | .error e => .ret (.error e)
          | .ok gid => .ret (if gid = "" then .error .notFoundUserLocation else .ok gid)

/-- The loop of `doRPC` over the rounds that are left. A successful look-up sets `err` to nil, also
where the function then returns it. -/
def rpcRounds {ρ : Type} (hasLocator : Bool) (successHandler : String → ℕ → GateProg (Handled ρ))
    (failedHandler : ℕ → GateProg Unit) :
    List ℕ → String → Option ρ × Option GateErr → GateProg (Option ρ × Option GateErr)
  | [], _, last => .ret last
  | i :: rounds, prev, last =>
    (locateGate hasLocator i).bind fun
      | .error e => (failedHandler i).bind fun _ => .ret (none, some e)
      | .ok gid =>
        if gid = prev then (failedHandler i).bind fun _ => .ret (last.1, none)
        else
          .ask (.build i gid) fun
            | some e => (failedHandler i).bind fun _ => .ret (none, some e)
            | none =>
              (successHandler gid i).bind fun
                | (true, reply, err) =>
                  rpcRounds hasLocator successHandler failedHandler rounds gid (reply, err)
                | (false, reply, err) => .ret (reply, err)

def doRPC {ρ : Type} (hasLocator : Bool) (successHandler : String → ℕ → GateProg (Handled ρ))
    (failedHandler : ℕ → GateProg Unit) : GateProg (Option ρ × Option GateErr) :=
  rpcRounds hasLocator successHandler failedHandler [1, 2] "" (none, none)

/-- A success handler that calls the client and asks for another round if the gate does not know the
session; `retries` is false for the handlers that never do. -/
def callHandler (op : GateOp) (retries : Bool) (gid : String) (index : ℕ) :
    GateProg (Handled op.Reply) :=
  .ask (.call op index gid) fun r =>
    .ret (retries && decide (r.2 = some .notFoundSession), some r.1, r.2)

def indirectCall (hasLocator : Bool) (op : GateOp) (retries : Bool) :
    GateProg (Option op.Reply × Option GateErr) :=
  doRPC hasLocator (callHandler op retries) fun _ => .skip

def unbindGate (hasLocator : Bool) : GateProg (Option GateErr) :=
  (indirectCall hasLocator .unbind true).bind fun r => .ret r.2

/-- `none` is the panic of `v.(string)`. -/
def doIndirectGetIP (hasLocator : Bool) : GateProg (Option (String × Option GateErr)) :=
  (indirectCall hasLocator .getIP true).bind fun
    | (_, some e) => .ret (some ("", some e))
    | (v, none) => .ret (v.map fun ip => (ip, none))

/-- `none` is the panic of `v.(bool)`. -/
def doIndirectIsOnline (hasLocator : Bool) : GateProg (Option (Bool × Option GateErr)) :=
  (indirectCall hasLocator .isOnline true).bind fun
    | (_, some e) => .ret (some (false, some e))
    | (v, none) => .ret (v.map fun isOnline => (isOnline, none))

def doIndirectDisconnect (hasLocator : Bool) : GateProg (Option GateErr) :=
  (indirectCall hasLocator .disconnect true).bind fun r => .ret r.2

def subscribeTarget (hasLocator : Bool) : GateProg (Option GateErr) :=
  (indirectCall hasLocator .subscribe false).bind fun r => .ret r.2

def unsubscribeTarget (hasLocator : Bool) : GateProg (Option GateErr) :=
  (indirectCall hasLocator .unsubscribe false).bind fun r => .ret r.2

def clientCall (op : GateOp) (index : ℕ) (client : String) : GateProg (op.Reply × Option GateErr) :=
  .ask .mount fun _ => .ask .consume fun _ => .ask (.call op index client) .ret

def pushHandler (ack : Bool) (gid : String) (index : ℕ) : GateProg (Handled Unit) :=
  (clientCall (.push ack) index gid).bind fun r =>
    if ack then
      if r.2 = some .notFoundSession then .ret (true, none, r.2)
      else (releaseTimes (2 - index)).bind fun _ => .ret (false, none, r.2)
    else .ret (false, none, r.2)

def doPush (hasLocator ack : Bool) : GateProg (Option GateErr) :=
  (doRPC hasLocator (pushHandler ack) fun index => releaseTimes (2 - index)).bind fun r => .ret r.2

inductive SessionKind where
  | conn
  | user
  | other
deriving DecidableEq

def directPush (gid : String) (packErr : Option GateErr) (ack : Bool) : GateProg (Option GateErr) :=
  .ask (.build 1 gid) fun
    | some e => .ret (some e)
    | none =>
      match packErr with
      | some e => .ret (some e)
      | none => (clientCall (.push ack) 1 gid).bind fun r => .ret r.2

def push (hasLocator : Bool) (kind : SessionKind) (gid : String) (packErr : Option GateErr)
    (ack : Bool) : GateProg (Option GateErr) :=
  match kind with
  | .conn => directPush gid packErr ack
  | .user =>
    if gid ≠ "" then directPush gid packErr ack
    else
      match packErr with
      | some e => .ret (some e)
      | none => doPush hasLocator ack
  | .other => .ret (some .invalidSessionKind)

/-- What the goroutine of a target in `doMulticast` does with the error of its push. Its `err` is
the named result of the function, so that the test and the return read what the goroutine that wrote
last has left there. -/
def afterPush (err : Option GateErr) : GateProg (Option GateErr) :=
  .ask (.setErr err) fun _ =>
    .ask .readErr fun
      | some _ => .ask .readErr fun err => .ask (.leave err) fun _ => .ret err
      | none => .ask (.count 1) fun _ => .ask (.leave none) fun _ => .ret none

def multicastTarget (hasLocator ack : Bool) : GateProg (Option GateErr) :=
  (doPush hasLocator ack).bind afterPush

/-- The work of one gate in `Broadcast` and `Publish`; `refused` is the error of a check that is
made before the call. -/
def dialled (op : GateOp) (refused : Option GateErr) (addr : String) :
    GateProg (op.Reply × Option GateErr) :=
  .ask (.dial addr) fun
    | some e => .ask .release fun _ => .ret (op.zero, some e)
    | none =>
      match refused with
      | some e => .ask .release fun _ => .ret (op.zero, some e)
      | none => clientCall op 1 addr

def doBroadcast (addr : String) (ack : Bool) : GateProg (ℤ × Option GateErr) :=
  dialled (.broadcast ack) none addr

def channelErr (channel : String) : Option GateErr :=
  if channel.utf8ByteSize > 255 then some .invalidArgument else none

def doPublish (channel : String) (addr : String) (ack : Bool) : GateProg (ℤ × Option GateErr) :=
  dialled (.publish ack) (channelErr channel) addr

/-- The end of the goroutine of one gate. -/
def afterCall : ℤ × Option GateErr → GateProg (Option GateErr)
  | (_, some e) => .ask (.leave (some e)) fun _ => .ret (some e)
  | (v, none) => .ask (.count v) fun _ => .ask (.leave none) fun _ => .ret none

end GateLinker

end DueServer.Link
