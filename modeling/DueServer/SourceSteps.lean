import DueServer.SourceModel

/-! The calls of a `NodeLinker` on its sources, cut where they touch the shared state. The commands
of the redis locator are atomic, and its look-ups of one key share a flight. -/
namespace DueServer.Link

inductive EventType where
  | bindGate
  | bindNode
  | unbindGate
  | unbindNode
deriving DecidableEq

structure LocateEvent where
  type : EventType
  uid : Int64
  insID : String
  insName : String
deriving DecidableEq

def LocateEvent.source (e : LocateEvent) : Option SourceHintKey :=
  match e.type with
  | .bindNode | .unbindNode => some ⟨e.uid, e.insName⟩
  | .bindGate | .unbindGate => none

inductive SourceStage where
  -- LocateNode; the revision is not used in legacy mode
  | load (key : SourceHintKey)
  | ask (key : SourceHintKey) (revision : UInt64)
  | await (key : SourceHintKey) (revision : UInt64) (flight : ℕ)
  | keep (key : SourceHintKey) (revision : UInt64) (nid : String)
  -- BindNode
  | bind (key : SourceHintKey) (nid : String)
  | bindOwned (key : SourceHintKey) (nid : String)
  | bindStore (key : SourceHintKey) (nid : String)
  -- UnbindNode
  | unbind (key : SourceHintKey) (nid : String)
  | unbindOwned (key : SourceHintKey) (nid : String)
  -- doDeleteSource, also of doRPC
  | delete (key : SourceHintKey) (nid : String)
  -- applySourceEvent
  | event (e : LocateEvent)
  -- the handlers that `storeLegacySource` and `deleteLegacySource` decided to call
  | handlers (key : SourceHintKey) (wait done : Bool) (next : SourceStage)
  | returned
deriving DecidableEq

structure Flight where
  key : SourceHintKey
  reply : Option (Option String)
deriving DecidableEq

structure SourceWorld where
  linker : NodeSources
  /-- the field of the user's hash; empty if there is none -/
  authority : SourceHintKey → String
  events : List LocateEvent
  flights : List Flight
  /-- the flight that the singleflight group holds for a key -/
  current : SourceHintKey → Option ℕ
  calls : List SourceStage
  waits : ℕ
  dones : ℕ

inductive Net where
  | ok
  | failed (executed : Bool)
deriving DecidableEq

def Net.executed : Net → Bool
  | .ok => true
  | .failed executed => executed

inductive SourceAction where
  | start (entry : SourceStage)
  | next (c : ℕ) (net : Net)
  /-- redis answers the look-up of a flight, or fails -/
  | read (f : ℕ) (ok : Bool)
  /-- the flight leaves the group -/
  | land (f : ℕ)
  | remoteBind (key : SourceHintKey) (nid : String)
  | remoteUnbind (key : SourceHintKey) (nid : String)
  /-- the watcher takes a pending event -/
  | deliver (i : ℕ)
deriving DecidableEq

def SourceStage.isEntry : SourceStage → Bool
  | .load _ | .bind .. | .unbind .. | .delete .. | .event _ => true
  | _ => false

namespace SourceWorld

variable (w : SourceWorld)

def setCall (c : ℕ) (stage : SourceStage) : SourceWorld := { w with calls := w.calls.set c stage }

/-- `HSET`, with the event that follows. -/
def hset (key : SourceHintKey) (nid : String) : SourceWorld :=
  { w with
    authority := Function.update w.authority key nid
    events := w.events ++ [⟨.bindNode, key.uid, nid, key.name⟩] }

/-- `unbindNodeScript`; only a deletion is followed by an event. -/
def hdel (key : SourceHintKey) (nid : String) : SourceWorld :=
  if w.authority key = "" ∨ w.authority key ≠ nid then w
  else
    { w with
      authority := Function.update w.authority key ""
      events := w.events ++ [⟨.unbindNode, key.uid, nid, key.name⟩] }

def afterHandlers (key : SourceHintKey) (decision : Bool × Bool) (next : SourceStage) :
    SourceStage :=
  if decision = (false, false) then next else .handlers key decision.1 decision.2 next

def storeLegacy (c : ℕ) (key : SourceHintKey) (nid : String) (next : SourceStage) : SourceWorld :=
  { w with linker := (w.linker.storeLegacySource key nid).2 }.setCall c
    (afterHandlers key (w.linker.storeLegacySource key nid).1 next)

def deleteLegacy (c : ℕ) (key : SourceHintKey) (nid : String) (next : SourceStage) : SourceWorld :=
  { w with linker := (w.linker.deleteLegacySource key nid).2 }.setCall c
    (afterHandlers key (false, (w.linker.deleteLegacySource key nid).1) next)

def doStoreSource (c : ℕ) (key : SourceHintKey) (nid : String) : SourceWorld :=
  match w.linker.hints with
  | some hints => { w with linker := w.linker.setHints (hints.store key nid) }.setCall c .returned
  | none => w.storeLegacy c key nid .returned

def doDeleteSource (c : ℕ) (key : SourceHintKey) (nid : String) : SourceWorld :=
  match w.linker.hints with
  | some hints => { w with linker := w.linker.setHints (hints.invalidate key) }.setCall c .returned
  | none => w.deleteLegacy c key nid .returned

def applySourceEvent (c : ℕ) (e : LocateEvent) : SourceWorld :=
  match e.source with
  | none => w.setCall c .returned
  | some key =>
    match w.linker.hints with
    | some hints =>
      { w with linker := w.linker.setHints (hints.invalidate key) }.setCall c .returned
    | none =>
      if e.type = .bindNode then w.doStoreSource c key e.insID else w.doDeleteSource c key e.insID

def loadSource (c : ℕ) (key : SourceHintKey) : SourceWorld :=
  match w.linker.hints with
  | some hints =>
    { w with linker := w.linker.setHints (hints.load key).2 }.setCall c
      (if (hints.load key).1.1.isSome then .returned else .ask key (hints.load key).1.2)
  | none => w.setCall c (if (w.linker.owned key).isSome then .returned else .ask key 0)

/-- `sfg.Do`: join the flight of the key, or start one. -/
def joinFlight (c : ℕ) (key : SourceHintKey) (revision : UInt64) : SourceWorld :=
  match w.current key with
  | some f => w.setCall c (.await key revision f)
  | none =>
    { w with
      flights := w.flights ++ [Flight.mk key none]
      current := Function.update w.current key (some w.flights.length) }.setCall c
        (.await key revision w.flights.length)

def keepSource (c : ℕ) (key : SourceHintKey) (revision : UInt64) (nid : String) : SourceWorld :=
  match w.linker.hints with
  | some hints =>
    { w with linker := w.linker.setHints (hints.fill key nid revision) }.setCall c .returned
  | none => w.doStoreSource c key nid

def landed (f : ℕ) : Option (Option String) :=
  match w.flights[f]? with
  | none => none
  | some flight => if w.current flight.key = some f then none else flight.reply

def stepCall (c : ℕ) (net : Net) : SourceStage → Option SourceWorld
  | .load key =>
    if w.linker.hasLocator = false then some (w.setCall c .returned) else some (w.loadSource c key)
  | .ask key revision => some (w.joinFlight c key revision)
  | .await key revision f =>
    match w.landed f with
    | none => none
    | some none => some (w.setCall c .returned)
    | some (some nid) =>
      some (w.setCall c (if nid = "" then .returned else .keep key revision nid))
  | .keep key revision nid => some (w.keepSource c key revision nid)
  | .bind key nid =>
    if w.linker.hasLocator = false then some (w.setCall c .returned)
    else
      some ((if net.executed then w.hset key nid else w).setCall c
        (if net ≠ .ok then .returned
          else if w.linker.hints.isSome = true ∧ nid = w.linker.id then .bindOwned key nid
          else .bindStore key nid))
  | .bindOwned key nid => some (w.storeLegacy c key nid (.bindStore key nid))
  | .bindStore key nid => some (w.doStoreSource c key nid)
  | .unbind key nid =>
    if w.linker.hasLocator = false then some (w.setCall c .returned)
    else
      some ((if net.executed then w.hdel key nid else w).setCall c
        (if net ≠ .ok then .returned
          else if w.linker.hints.isSome = true then .unbindOwned key nid
          else .delete key nid))
  | .unbindOwned key nid => some (w.deleteLegacy c key nid (.delete key nid))
  | .delete key nid => some (w.doDeleteSource c key nid)
  | .event e => some (w.applySourceEvent c e)
  | .handlers key true done next =>
    some ({ w with waits := w.waits + 1 }.setCall c (afterHandlers key (false, done) next))
  | .handlers _ false true next => some ({ w with dones := w.dones + 1 }.setCall c next)
  | .handlers _ false false next => some (w.setCall c next)
  | .returned => none

def next : SourceAction → Option SourceWorld
  | .start entry => if entry.isEntry then some { w with calls := w.calls ++ [entry] } else none
  | .next c net =>
    match w.calls[c]? with
    | none => none
    | some stage => w.stepCall c net stage
  | .read f ok =>
    match w.flights[f]? with
    | some ⟨key, none⟩ =>
      some { w with
        flights := w.flights.set f ⟨key, some (if ok then some (w.authority key) else none)⟩ }
    | _ => none
  | .land f =>
    match w.flights[f]? with
    | some ⟨key, some _⟩ =>
      if w.current key = some f then some { w with current := Function.update w.current key none }
      else none
    | _ => none
  | .remoteBind key nid => some (w.hset key nid)
  | .remoteUnbind key nid => some (w.hdel key nid)
  | .deliver i =>
    match w.events[i]? with
    | none => none
    | some e => some { w with events := w.events.eraseIdx i, calls := w.calls ++ [.event e] }

def step (act : SourceAction) : Option (SourceWorld × SourceAction) :=
  (w.next act).map fun w' => (w', act)

def init (linker : NodeSources) (authority : SourceHintKey → String) : SourceWorld :=
  ⟨linker, authority, [], [], fun _ => none, [], 0, 0⟩

def Quiet : Prop := ∀ stage ∈ w.calls, stage = .returned

def sourceRel : SourceWorld → SourceAction → SourceWorld → Prop :=
  Lib.guardedRel step fun _ _ => true

variable {w}

theorem next_of_step {w' : SourceWorld} {act e : SourceAction} (h : w.step act = some (w', e)) :
    w.next act = some w' := by
  obtain ⟨u, hu, heq⟩ := Option.map_eq_some_iff.mp h
  cases heq
  exact hu

end SourceWorld

end DueServer.Link
