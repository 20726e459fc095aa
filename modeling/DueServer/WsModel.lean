import DueServer.LibTransition
import DueServer.SessionModel

/-! Pooled websocket connections (`network/ws`) under the session operations that use them after
they have let go of the session lock: `allocate` hands a `serverConn` out again under a new
connection id. -/
namespace DueServer.Ws

open Function

-- a *serverConn; sync.Pool can make as many as it needs
abbrev Obj := ℕ

inductive ConnState where
  | opened
  | hanged
  | closed
deriving DecidableEq

inductive Task where
  | dataPacket (msg : List UInt8)
  | closeSig
deriving DecidableEq

-- the two goroutines of a lifetime
inductive Who where
  | reader
  | writer
deriving DecidableEq

inductive Worker where
  | running
  | closing
  | exited
deriving DecidableEq

/-- What a `serverConn` holds besides its id and user, which the session's heap keeps. `conn`
is the socket, named by the connection id it came with; `done` is a signal of the writer that
waits for its receiver. -/
structure ServerConn where
  state : ConnState
  conn : Option ℤ
  lowPriorityQueue : List Task
  highPriorityQueue : List Task
  done : Bool
  reader : Worker
  writer : Worker
deriving DecidableEq

def ServerConn.worker (o : ServerConn) : Who → Worker
  | .reader => o.reader
  | .writer => o.writer

def ServerConn.setWorker (o : ServerConn) (who : Who) (w : Worker) : ServerConn :=
  match who with
  | .reader => { o with reader := w }
  | .writer => { o with writer := w }

/-- Where an object is: not made yet, in use, waiting for its workers after `recycle`, or in
the pool. -/
inductive Place where
  | unmade
  | live
  | retiring
  | pooled
deriving DecidableEq

/-- The object a call works on. `cid` is the id the object had when the call got it; the call
itself only has the pointer. `rlock`: it still holds the session's read lock; `worker`: it is
run by a goroutine of the object; `err`: what it will return in any case. -/
structure Hold where
  conn : Obj
  cid : ℤ
  rlock : Bool
  worker : Option Who
  err : Option DueErr
deriving DecidableEq

inductive Stage where
  | idle
  -- conn.Push and conn.Send, each in two steps
  | push (h : Hold) (disconnect : Bool) (msg : List UInt8)
  | pushQueue (h : Hold) (disconnect : Bool) (msg : List UInt8)
  | send (h : Hold) (disconnect : Bool) (msg : List UInt8)
  | sendQueue (h : Hold) (disconnect : Bool) (msg : List UInt8)
  -- graceClose
  | hang (h : Hold)
  | closeSig (h : Hold)
  | loadDone (h : Hold)
  | awaitDone (h : Hold) (done : ℤ)
  | closeHanged (h : Hold)
  -- forceClose
  | force (h : Hold)
  -- doClose, the disconnect handler and recycle
  | doClose (h : Hold)
  | disconnect (h : Hold) (socket : ℤ)
  | recycle (h : Hold) (socket : ℤ)
  -- allocate after init
  | addConn (conn : Obj) (socket : ℤ)
  | storeOpen (conn : Obj) (socket : ℤ)
  | returned (err : Option DueErr)
deriving DecidableEq

structure Server where
  session : Session Obj
  conns : Obj → ServerConn
  partition : ℤ → Option Obj
  place : Obj → Place
  id : ℤ
  rlocks : Finset ℕ
  calls : ℕ → Stage

inductive Entry where
  | push (kind : Kind) (target : ℤ) (disconnect : Bool) (msg : List UInt8)
  | close (kind : Kind) (target : ℤ) (force : Bool)
  | closeCurrent (kind : Kind) (target : ℤ) (token : Token) (force : Bool)
  | sendCurrent (kind : Kind) (target : ℤ) (token : Token) (disconnect : Bool) (msg : List UInt8)
deriving DecidableEq

/-- The answer of `doWriteToQueue`; `limit`: this was one low-priority timeout too many. -/
inductive Enqueue where
  | ok
  | bytesExceeded
  | timeout (limit : Bool)
deriving DecidableEq

inductive Action where
  | allocate (c : ℕ) (conn : Obj)
  | call (c : ℕ) (e : Entry)
  | workerFails (c : ℕ) (conn : Obj) (who : Who)
  | next (c : ℕ) (r : Enqueue)
  | write (conn : Obj)
  | workerExit (conn : Obj) (who : Who)
  | put (conn : Obj)
  | bindToken (cid uid : ℤ) (token : Token)
  | unbind (uid : ℤ)
deriving DecidableEq

inductive Act where
  | pushed
  | sent
  | hanged
  | signalled
  | closed
  | socketClosed
deriving DecidableEq

/-- What a step shows: an object starts a lifetime, a call gets hold of an object, a call acts
on an object (in the lifetime `cid`), a message goes out on a socket. -/
inductive Event where
  | silent
  | allocated (conn : Obj) (cid : ℤ)
  | resolved (c : ℕ) (conn : Obj) (cid : ℤ)
  | acted (c : ℕ) (conn : Obj) (cid : ℤ) (act : Act)
  | written (socket : ℤ) (msg : List UInt8)
deriving DecidableEq

def errConnectionHanged : DueErr := .other "connection is hanged"
def errConnectionNotOpened : DueErr := .other "connection is not opened"
def errConnectionNotHanged : DueErr := .other "connection is not hanged"
def errWriteQueueBytesExceeded : DueErr := .other "websocket write queue byte budget exceeded"
def errDeadlineExceeded : DueErr := .other "context deadline exceeded"

namespace Server

def goto (s : Server) (c : ℕ) (st : Stage) : Server :=
  { s with calls := update s.calls c st }

def setConn (s : Server) (k : Obj) (o : ServerConn) : Server :=
  { s with conns := update s.conns k o }

def finish (s : Server) (c : ℕ) (h : Hold) (err : Option DueErr) : Server :=
  let s := s.goto c (.returned (h.err.or err))
  let s := if h.rlock then { s with rlocks := s.rlocks.erase c } else s
  match h.worker with
  | none => s
  | some who => s.setConn h.conn ((s.conns h.conn).setWorker who .exited)

def acted (s : Server) (c : ℕ) (h : Hold) (act : Act) : Event :=
  .acted c h.conn (s.session.connID h.conn) act

def checkState (s : Server) (k : Obj) : Option DueErr :=
  match (s.conns k).state with
  | .hanged => some errConnectionHanged
  | .closed => some .errConnectionClosed
  | .opened => none

def stepCall (s : Server) (c : ℕ) (r : Enqueue) : Stage → Option (Server × Event)
  | .push h disconnect msg =>
    match s.checkState h.conn with
    | some err => some (s.finish c h (some err), .silent)
    | none => some (s.goto c (.pushQueue h disconnect msg), .silent)
  | .pushQueue h disconnect msg =>
    let o := s.conns h.conn
    if o.conn = none then some (s.finish c h (some .errConnectionClosed), .silent)
    else
      match r with
      | .ok =>
        let s' := s.setConn h.conn
          { o with lowPriorityQueue := o.lowPriorityQueue ++ [.dataPacket msg] }
        some (if disconnect then s'.goto c (.hang h) else s'.finish c h none, s.acted c h .pushed)
      | .bytesExceeded => some (s.finish c h (some errWriteQueueBytesExceeded), .silent)
      | .timeout limit =>
        if limit = true ∧ o.state ≠ .closed then
          some (s.goto c (.force { h with err := some errDeadlineExceeded }), .silent)
        else some (s.finish c h (some errDeadlineExceeded), .silent)
  | .send h disconnect msg =>
    match s.checkState h.conn with
    | some err => some (s.finish c h (some err), .silent)
    | none => some (s.goto c (.sendQueue h disconnect msg), .silent)
  | .sendQueue h disconnect msg =>
    let o := s.conns h.conn
    if o.conn = none then some (s.finish c h (some .errConnectionClosed), .silent)
    else
      match r with
      | .ok =>
        let s' := { s.setConn h.conn
            { o with highPriorityQueue := o.highPriorityQueue ++ [.dataPacket msg] } with
          rlocks := s.rlocks.erase c }
        some (if disconnect then s'.goto c (.hang { h with rlock := false })
          else s'.goto c (.returned none), s.acted c h .sent)
      | .bytesExceeded => some (s.finish c h (some errWriteQueueBytesExceeded), .silent)
      | .timeout _ =>
        -- the read lock is not given back before the close
        if o.state ≠ .closed then
          some (s.goto c (.force { h with err := some errDeadlineExceeded }), .silent)
        else some (s.finish c h (some errDeadlineExceeded), .silent)
  | .hang h =>
    let o := s.conns h.conn
    if o.state = .opened then
      some ((s.setConn h.conn { o with state := .hanged }).goto c (.closeSig h),
        s.acted c h .hanged)
    else some (s.finish c h (some errConnectionNotOpened), .silent)
  | .closeSig h =>
    let o := s.conns h.conn
    if o.conn = none then some (s.finish c h (some .errConnectionClosed), .silent)
    else
      some ((s.setConn h.conn
          { o with lowPriorityQueue := o.lowPriorityQueue ++ [.closeSig] }).goto c (.loadDone h),
        s.acted c h .signalled)
  | .loadDone h => some (s.goto c (.awaitDone h (s.session.connID h.conn)), .silent)
  | .awaitDone h done =>
    let o := s.conns h.conn
    -- the channel of an ended lifetime is closed
    if s.session.connID h.conn ≠ done ∨ o.conn = none then
      some (s.goto c (.closeHanged h), .silent)
    else if o.done then
      some ((s.setConn h.conn { o with done := false }).goto c (.closeHanged h), .silent)
    else none
  | .closeHanged h =>
    let o := s.conns h.conn
    if o.state = .hanged then
      some ((s.setConn h.conn { o with state := .closed }).goto c (.doClose h), s.acted c h .closed)
    else some (s.finish c h (some errConnectionNotHanged), .silent)
  | .force h =>
    let o := s.conns h.conn
    if o.state ≠ .closed then
      some ((s.setConn h.conn { o with state := .closed }).goto c (.doClose h), s.acted c h .closed)
    else some (s.finish c h (some .errConnectionClosed), .silent)
  | .doClose h =>
    let o := s.conns h.conn
    match o.conn with
    | none => some (s.finish c h (some .errConnectionClosed), .silent)
    | some socket =>
      some ((s.setConn h.conn { o with
          conn := none, lowPriorityQueue := [], highPriorityQueue := [] }).goto c
            (.disconnect h socket),
        s.acted c h .socketClosed)
  | .disconnect h socket =>
    -- RemConnWithToken takes the session's write lock
    if s.rlocks = ∅ then
      some ({ s with session := (s.session.remConnWithToken h.conn).2 }.goto c
        (.recycle h socket), .silent)
    else none
  | .recycle h socket =>
    match s.partition socket with
    | none => some (s.finish c h none, .silent)
    | some conn =>
      some ({ s with
        partition := update s.partition socket none
        place := update s.place conn .retiring }.finish c h none, .silent)
  | .addConn conn socket =>
    if s.rlocks = ∅ then
      some ({ s with session := s.session.addConn conn }.goto c (.storeOpen conn socket), .silent)
    else none
  | .storeOpen conn socket =>
    if (s.conns conn).state = .opened then
      some ({ s with partition := update s.partition socket (some conn) }.goto c
        (.returned none), .silent)
    else some (s.goto c (.returned none), .silent)
  | .idle => none
  | .returned _ => none

def hold (s : Server) (k : Obj) (rlock : Bool) : Hold := ⟨k, s.session.connID k, rlock, none, none⟩

def closing (force : Bool) (h : Hold) : Stage := if force then .force h else .hang h

def startCall (s : Server) (c : ℕ) : Entry → Server × Event
  | .push kind target disconnect msg =>
    match s.session.conn kind target with
    | .error err => (s.goto c (.returned (some err)), .silent)
    | .ok k =>
      (s.goto c (.push (s.hold k false) disconnect msg), .resolved c k (s.session.connID k))
  | .close kind target force =>
    match s.session.conn kind target with
    | .error err => (s.goto c (.returned (some err)), .silent)
    | .ok k => (s.goto c (closing force (s.hold k false)), .resolved c k (s.session.connID k))
  | .closeCurrent kind target token force =>
    if token.uid ≤ 0 ∨ token.generation = 0 ∨ (kind = .user ∧ target ≠ token.uid) then
      (s.goto c (.returned (some .errStaleSession)), .silent)
    else
      match s.session.connCurrent kind target token with
      | .error err => (s.goto c (.returned (some err)), .silent)
      | .ok k => (s.goto c (closing force (s.hold k false)), .resolved c k (s.session.connID k))
  | .sendCurrent kind target token disconnect msg =>
    if token.uid ≤ 0 ∨ token.generation = 0 then
      (s.goto c (.returned (some .errStaleSession)), .silent)
    else
      match s.session.connCurrent kind target token with
      | .error err => (s.goto c (.returned (some err)), .silent)
      | .ok k =>
        -- the read lock is kept until `conn.Send` has returned
        ({ s with rlocks := insert c s.rlocks }.goto c (.send (s.hold k true) disconnect msg),
          .resolved c k (s.session.connID k))

/-- `allocate` up to the connect handler: an object from the pool, or a new one, starts a
lifetime under the next connection id. -/
def allocate (s : Server) (c : ℕ) (k : Obj) : Server × Event :=
  ({ s with
    session := { s.session with heap := update s.session.heap k ⟨s.id + 1, 0, []⟩ }
    conns := update s.conns k
      ⟨.opened, some (s.id + 1), [], [], false, .running, .running⟩
    place := update s.place k .live
    id := s.id + 1 }.goto c (.addConn k (s.id + 1)), .allocated k (s.id + 1))

def write (s : Server) (k : Obj) (socket : ℤ) : Option (Server × Event) :=
  let o := s.conns k
  let take : Option (Task × ServerConn) :=
    match o.highPriorityQueue, o.lowPriorityQueue with
    | t :: ts, _ => some (t, { o with highPriorityQueue := ts })
    | [], t :: ts => some (t, { o with lowPriorityQueue := ts })
    | [], [] => none
  match take with
  | none => none
  | some (.closeSig, o) => some (s.setConn k { o with done := true, writer := .exited }, .silent)
  | some (.dataPacket msg, o) =>
    if o.state = .closed then some (s.setConn k { o with writer := .exited }, .silent)
    else some (s.setConn k o, .written socket msg)

def step (s : Server) : Action → Option (Server × Event)
  | .allocate c k =>
    if s.calls c = .idle ∧ (s.place k = .unmade ∨ s.place k = .pooled) then some (s.allocate c k)
    else none
  | .call c e => if s.calls c = .idle then some (s.startCall c e) else none
  | .workerFails c k who =>
    if s.calls c = .idle ∧ (s.conns k).worker who = .running then
      some ((s.setConn k ((s.conns k).setWorker who .closing)).goto c
          (.force { s.hold k false with worker := some who }),
        .resolved c k (s.session.connID k))
    else none
  | .next c r => s.stepCall c r (s.calls c)
  | .write k =>
    match (s.conns k).conn with
    | none => none
    | some socket => if (s.conns k).writer = .running then s.write k socket else none
  | .workerExit k who =>
    if (s.conns k).worker who = .running ∧
        ((s.conns k).conn = none ∨ (s.conns k).state = .closed) then
      some (s.setConn k ((s.conns k).setWorker who .exited), .silent)
    else none
  | .put k =>
    -- workers.Wait, reset and pool.Put
    if s.place k = .retiring ∧ (s.conns k).reader = .exited ∧ (s.conns k).writer = .exited then
      some ({ s with
        session := { s.session with
          heap := update s.session.heap k { s.session.heap k with attr := [] } }
        place := update s.place k .pooled }, .silent)
    else none
  | .bindToken cid uid token =>
    if s.rlocks = ∅ then
      match s.session.bindToken cid uid token with
      | .error _ => none
      | .ok session => some ({ s with session := session }, .silent)
    else none
  | .unbind uid =>
    if s.rlocks = ∅ then
      match s.session.unbind uid with
      | .error _ => none
      | .ok (_, session) => some ({ s with session := session }, .silent)
    else none

def init : Server where
  session := Session.newSession fun k => ⟨-k, 0, []⟩
  conns := fun _ => ⟨.closed, none, [], [], false, .exited, .exited⟩
  partition := fun _ => none
  place := fun _ => .unmade
  id := 0
  rlocks := ∅
  calls := fun _ => .idle

end Server

end DueServer.Ws
