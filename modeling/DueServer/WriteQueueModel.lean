import DueServer.LibPool
import DueServer.WsModel
import Mathlib.Algebra.Ring.Int.Defs

/-! The write queues of the websocket connections of a gate and the byte budget they share
(`network/ws/def.go`, `server_conn.go`), in every interleaving of senders, writers and closers.
A goroutine is a call stack; its frames hold the read lock, and `doClose` waits for them. -/
namespace DueServer.WriteQueue

open Lib
open Ws (ConnState)

structure Budget where
  maxBytes : ℤ
  highReserveBytes : ℤ
  queuedBytes : ℤ
  lowPriorityBytes : ℤ
deriving DecidableEq

namespace Budget

def newWriteQueueBudget (maxBytes highReserveBytes : ℤ) : Budget :=
  let maxBytes := if maxBytes < 0 then 0 else maxBytes
  let highReserveBytes := if highReserveBytes < 0 then 0 else highReserveBytes
  let highReserveBytes :=
    if 0 < maxBytes ∧ maxBytes < highReserveBytes then maxBytes else highReserveBytes
  ⟨maxBytes, highReserveBytes, 0, 0⟩

variable (b : Budget)

/-- `reserve`, which is `none` where the source returns false. -/
def reserve (bytes : ℤ) (lowPriority : Bool) : Option Budget :=
  if b.maxBytes ≤ 0 ∨ bytes ≤ 0 then some b
  else if b.maxBytes - b.queuedBytes < bytes then none
  else if lowPriority ∧ b.maxBytes - b.highReserveBytes - b.lowPriorityBytes < bytes then none
  else
    some
      { b with
        queuedBytes := b.queuedBytes + bytes
        lowPriorityBytes := if lowPriority then b.lowPriorityBytes + bytes else b.lowPriorityBytes }

def release (bytes : ℤ) (lowPriority : Bool) : Budget :=
  if b.maxBytes ≤ 0 ∨ bytes ≤ 0 then b
  else
    { b with
      queuedBytes := if b.queuedBytes ≤ bytes then 0 else b.queuedBytes - bytes
      lowPriorityBytes :=
        if lowPriority then
          if b.lowPriorityBytes ≤ bytes then 0 else b.lowPriorityBytes - bytes
        else b.lowPriorityBytes }

end Budget

inductive TaskType where
  | closeSig
  | dataPacket
  | heartbeatPacket
deriving DecidableEq

structure Task where
  typ : TaskType
  msg : List UInt8
  queuedBytes : ℤ
  lowPriority : Bool
  ticket : Option ℕ
deriving DecidableEq

/-- `&task{typ: closeSig}`. -/
def closeSig : Task := ⟨.closeSig, [], 0, false, none⟩

/-- The fields of a `serverConn` that matter here. Its channels are open while `conn` is set, and
`done` is the signal of the writer. -/
structure Conn where
  state : ConnState
  conn : Bool
  highPriorityQueue : List Task
  lowPriorityQueue : List Task
  done : Bool
deriving DecidableEq

namespace Conn

def new : Conn := ⟨.opened, true, [], [], false⟩

variable (q : Conn)

def queue (lowPriority : Bool) : List Task :=
  if lowPriority then q.lowPriorityQueue else q.highPriorityQueue

def setQueue (lowPriority : Bool) (ts : List Task) : Conn :=
  if lowPriority then { q with lowPriorityQueue := ts } else { q with highPriorityQueue := ts }

def tasks : List Task := q.highPriorityQueue ++ q.lowPriorityQueue

end Conn

inductive Frame where
  -- `Send`, `Push` and the heartbeat reply of the reader
  | checking (c : ℕ) (lowPriority : Bool) (msg : List UInt8)
  | locking (c : ℕ) (lowPriority : Bool) (typ : TaskType) (msg : List UInt8)
  | reserving (c : ℕ) (lowPriority : Bool) (typ : TaskType) (msg : List UInt8)
  | enqueuing (c : ℕ) (t : Task)
  | timedOut (c : ℕ) (lowPriority : Bool) (typ : TaskType)
  -- `doRecycleToPool`, in `doWriteToQueue` under the read lock of a connection
  | recycling (lock : Option ℕ) (t : Task)
  -- `write`
  | selecting (c : ℕ)
  | writing (c : ℕ) (t : Task)
  | failed (c : ℕ)
  -- `graceClose` and `forceClose`
  | hanging (c : ℕ)
  | signalling (c : ℕ)
  | enqueuingSig (c : ℕ)
  | awaiting (c : ℕ)
  | closingHanged (c : ℕ)
  | forcing (c : ℕ)
  | closing (c : ℕ)
  | discarding (c : ℕ) (lowPriority : Bool)
deriving DecidableEq

namespace Frame

def rlock : Frame → Option ℕ
  | reserving c _ _ _ | enqueuing c _ | enqueuingSig c => some c
  | recycling lock _ => lock
  | _ => none

def tasks : Frame → List Task
  | enqueuing _ t | recycling _ t | writing _ t => [t]
  | _ => []

end Frame

/-- What a goroutine does: it goes on, its enqueueing times out, this timeout is one too many, it
receives from a queue, or its socket or heartbeat fails. -/
inductive Choice where
  | go
  | timeout
  | limit
  | receive (lowPriority : Bool)
  | fail
deriving DecidableEq

/-- What the goroutines share. `tickets` counts the reservations and `released` has the tasks whose
bytes were given back. -/
structure Shared where
  budget : Budget
  conns : List Conn
  tickets : ℕ
  released : List Task

structure State where
  shared : Shared
  threads : List (List Frame)

structure Effect where
  frames : List Frame
  write : Shared → Shared := id

structure Options where
  maxWriteQueueBytes : ℤ
  highPriorityReserveBytes : ℤ
  writeQueueSize : ℕ
  writeTimeout : Bool

/-- A scheduling choice: a connection is accepted, a call on one starts, the reader answers a
heartbeat, or a goroutine takes a step. -/
inductive Act where
  | accept
  | send (c : ℕ) (msg : List UInt8)
  | push (c : ℕ) (msg : List UInt8)
  | heartbeat (c : ℕ) (msg : List UInt8)
  | close (c : ℕ) (force : Bool)
  | move (thread : ℕ) (choice : Choice)
deriving DecidableEq

namespace Shared

variable (s : Shared)

def setConn (c : ℕ) (q : Conn) : Shared := { s with conns := replaceAt s.conns c [q] }

def task (lowPriority : Bool) (typ : TaskType) (msg : List UInt8) : Task :=
  ⟨typ, msg, msg.length, lowPriority, some s.tickets⟩

def doRecycleToPool (t : Task) : Shared :=
  { s with
    budget := s.budget.release t.queuedBytes t.lowPriority
    released := s.released ++ [t] }

end Shared

namespace State

def init (o : Options) : State where
  shared :=
    { budget := .newWriteQueueBudget o.maxWriteQueueBytes o.highPriorityReserveBytes
      conns := []
      tickets := 0
      released := [] }
  threads := []

variable (o : Options) (s : State)

def readers (c : ℕ) : Bool := s.threads.flatten.any fun f => f.rlock = some c

def room (ts : List Task) : Bool := ts.length < max o.writeQueueSize 1

def go (q : Conn) : Frame → Option Effect
  | .checking c low msg =>
    if q.state = .opened then some ⟨[.locking c low .dataPacket msg], id⟩
    else some ⟨[], id⟩
  | .locking c low typ msg =>
    if q.conn then some ⟨[.reserving c low typ msg], id⟩ else some ⟨[], id⟩
  | .reserving c low typ msg =>
    match s.shared.budget.reserve msg.length low with
    | none => some ⟨[], id⟩
    | some b =>
      some
        ⟨[.enqueuing c (s.shared.task low typ msg)],
          fun s => { s with budget := b, tickets := s.tickets + 1 }⟩
  | .enqueuing c t =>
    if room o (q.queue t.lowPriority) then
      some ⟨[], fun s => s.setConn c (q.setQueue t.lowPriority (q.queue t.lowPriority ++ [t]))⟩
    else none
  | .timedOut c low typ =>
    -- `handleHighPriorityEnqueueResult`; the reader drops the error of a heartbeat
    if typ = .heartbeatPacket ∨ low ∨ q.state = .closed then some ⟨[], id⟩
    else some ⟨[.forcing c], id⟩
  | .recycling _ _ => none
  | .selecting _ => none
  | .writing c t =>
    if t.typ = .closeSig then
      some ⟨[.recycling none t], fun s => s.setConn c { q with done := q.done || q.conn }⟩
    else if q.state = .closed then some ⟨[.recycling none t], id⟩
    else some ⟨[.recycling none t, .selecting c], id⟩
  | .failed c => if q.state = .closed then some ⟨[], id⟩ else some ⟨[.forcing c], id⟩
  | .hanging c =>
    if q.state = .opened then
      some ⟨[.signalling c], fun s => s.setConn c { q with state := .hanged }⟩
    else some ⟨[], id⟩
  | .signalling c => if q.conn then some ⟨[.enqueuingSig c], id⟩ else some ⟨[], id⟩
  | .enqueuingSig c =>
    if room o q.lowPriorityQueue then
      some
        ⟨[.awaiting c], fun s => s.setConn c (q.setQueue true (q.lowPriorityQueue ++ [closeSig]))⟩
    else none
  | .awaiting c =>
    -- `doClose` closes `done`
    if q.done || !q.conn then
      some ⟨[.closingHanged c], fun s => s.setConn c { q with done := false }⟩
    else none
  | .closingHanged c =>
    if q.state = .hanged then
      some ⟨[.closing c], fun s => s.setConn c { q with state := .closed }⟩
    else some ⟨[], id⟩
  | .forcing c =>
    if q.state = .closed then some ⟨[], id⟩
    else
      some ⟨[.closing c], fun s => s.setConn c { q with state := .closed }⟩
  | .closing c =>
    if s.readers c then none
    else if q.conn then
      some ⟨[.discarding c false], fun s => s.setConn c { q with conn := false }⟩
    else some ⟨[], id⟩
  | .discarding c low =>
    match q.queue low with
    | t :: ts =>
      some ⟨[.recycling none t, .discarding c low], fun s => s.setConn c (q.setQueue low ts)⟩
    | [] => if low then some ⟨[], id⟩ else some ⟨[.discarding c true], id⟩

/-- `write` receives from a queue; a closed one that is empty ends it. -/
def receive (c : ℕ) (q : Conn) (low : Bool) : Option Effect :=
  match q.queue low with
  | t :: ts =>
    some ⟨[.writing c t], fun s => s.setConn c (q.setQueue low ts)⟩
  | [] => if q.conn then none else some ⟨[], id⟩

def connOf : Frame → ℕ
  | .checking c _ _ | .locking c _ _ _ | .reserving c _ _ _ | .enqueuing c _ | .timedOut c _ _
  | .selecting c | .writing c _ | .failed c | .hanging c | .signalling c | .enqueuingSig c
  | .awaiting c | .closingHanged c | .forcing c | .closing c | .discarding c _ => c
  | .recycling _ _ => 0

def effect (f : Frame) (choice : Choice) : Option Effect :=
  match f, choice with
  | .recycling _ t, .go => some ⟨[], fun s => s.doRecycleToPool t⟩
  | .enqueuing c t, .timeout =>
    if o.writeTimeout then
      some ⟨[.recycling (some c) t, .timedOut c t.lowPriority t.typ], id⟩
    else none
  | .timedOut c low .dataPacket, .limit =>
    -- `handleLowPriorityEnqueueResult`
    match s.shared.conns[c]? with
    | none => none
    | some q =>
      if low = true ∧ q.state ≠ .closed then some ⟨[.forcing c], id⟩ else none
  | .selecting c, .receive low => (s.shared.conns[c]?).bind fun q => receive c q low
  | .selecting c, .fail => some ⟨[.forcing c], id⟩
  | .writing c t, .fail =>
    if t.typ = .closeSig then none else some ⟨[.recycling none t, .failed c], id⟩
  | f, .go => (s.shared.conns[connOf f]?).bind fun q => s.go o q f
  | _, _ => none

def start : Act → Option Frame
  | .send c msg => some (.checking c false msg)
  | .push c msg => some (.checking c true msg)
  | .heartbeat c msg => some (.locking c false .heartbeatPacket msg)
  | .close c force => some (if force then .forcing c else .hanging c)
  | _ => none

def next (act : Act) : Option State :=
  match act with
  | .accept =>
    some
      { shared := { s.shared with conns := s.shared.conns ++ [.new] }
        threads := s.threads ++ [[.selecting s.shared.conns.length]] }
  | .move i choice => do
    match ← s.threads[i]? with
    | [] => none
    | f :: rest =>
      let e ← s.effect o f choice
      some { shared := e.write s.shared, threads := replaceAt s.threads i [e.frames ++ rest] }
  | act => (start act).map fun f => { s with threads := s.threads ++ [[f]] }

def step (act : Act) : Option (State × Act) := (s.next o act).map (·, act)

def outstanding : List Task :=
  s.shared.conns.flatMap Conn.tasks ++ s.threads.flatten.flatMap Frame.tasks

end State

end DueServer.WriteQueue
