import DueServer.LibTransition

/-! `internal/transporter/internal/client/conn.go`: the successive net.Conns of one `conn`, with the
goroutines that read and write them, `retry`, `dial` and the callers of `send`. A net.Conn has the
number of its `process`, and so have the context and the cancel function that come with it. Any
read, write, dial or handshake may fail at any time, and the queue takes any number of messages. -/
namespace DueServer.Client

open Function (update)

inductive ConnState where
  | closed
  | opened
  | hanged
deriving DecidableEq

inductive Gor where
  | reader (n : ℕ)
  | writer (n : ℕ)
  | caller (i : ℕ)
  /-- `Client.Establish` -/
  | establisher
deriving DecidableEq

def Gor.conn : Gor → Option ℕ
  | .reader n | .writer n => some n
  | .caller _ | .establisher => none

inductive Pc where
  | absent
  -- read: at the select, and in `ReaderBuffer`
  | readLoop
  | reading
  -- write: at the select, in it with its context, and with a heartbeat or a message that was taken
  -- from the queue while the net.Conn `taken` was the current one
  | writeLoop
  | selecting (ctx : ℕ)
  | beating
  | writing (taken : ℕ)
  -- retry
  | swapping
  | cancelling
  -- dial; `observed` is the net.Conn whose failure led to `close`
  | locking
  | acquiring
  | checking
  | dialing
  | setting
  | opening
  | handshaking
  | closing (observed : Option ℕ)
  | closeCancelling (observed : Option ℕ)
  | notifying (ok : Bool)
  | unlocking (ok : Bool)
  -- send and wait; the channels are numbered in the order in which they are made
  | loading
  | rlocking
  | rloading
  | waiting (success failure : ℕ)
  | runlocking (ok : Bool)
  | queueing
  | returned
deriving DecidableEq

inductive Event where
  /-- the state of the current net.Conn leaves `ConnOpened`, or its context is cancelled, after a
  failure observed on another or the same net.Conn -/
  | left (observed : Option ℕ) (conn : ℕ)
  | canceled (observed : Option ℕ) (conn : ℕ)
  /-- a message is written to a net.Conn -/
  | wrote (conn taken : ℕ)
deriving DecidableEq

structure Shared where
  state : ConnState := .closed
  /-- `c.conn`, `c.ctx` and `c.cancel`, of the net.Conn with this number; zero before the first -/
  cur : ℕ := 0
  canceled : ℕ → Bool := fun _ => false
  /-- the RWMutex: who has announced or holds the write lock, and the callers with the read lock -/
  writer : Option Gor := none
  readers : List ℕ := []
  /-- `c.success` and `c.failure`; the channels before these are closed -/
  success : ℕ := 0
  failure : ℕ := 0
  queued : ℕ := 0
  events : List Event := []

inductive Choice where
  | ok
  | fail
  | skip
deriving DecidableEq

structure Stepped where
  shared : Shared
  pc : Pc
  started : Option (Gor × Pc) := none

namespace Shared

variable (s : Shared)

def log (e : Event) : Shared := { s with events := s.events ++ [e] }

def cancel (observed : Option ℕ) : Shared :=
  if s.cur = 0 then s
  else { s with canceled := update s.canceled s.cur true }.log (.canceled observed s.cur)

def afterDial (g : Gor) (ok : Bool) : Pc :=
  match g with
  | .caller _ => if ok then .queueing else .returned
  | _ => .returned

def stepRead (pc : Pc) (choice : Choice) : Option Stepped :=
  match pc, choice with
  | .readLoop, _ => some ⟨s, if s.canceled s.cur then .returned else .reading, none⟩
  | .reading, .ok => some ⟨s, .readLoop, none⟩
  | .reading, .fail => some ⟨s, .swapping, none⟩
  | _, _ => none

/-- `write` for the net.Conn `n`; the select takes a message, the tick of the heartbeat (`skip`) or
the end of the context (`fail`). -/
def stepWrite (n : ℕ) (pc : Pc) (choice : Choice) : Option Stepped :=
  match pc, choice with
  | .writeLoop, _ => some ⟨s, .selecting s.cur, none⟩
  | .selecting _, .ok =>
    if 0 < s.queued then some ⟨{ s with queued := s.queued - 1 }, .writing s.cur, none⟩ else none
  | .selecting _, .skip => some ⟨s, .beating, none⟩
  | .selecting ctx, .fail => if s.canceled ctx then some ⟨s, .returned, none⟩ else none
  | .beating, .ok => some ⟨s, .writeLoop, none⟩
  | .beating, .fail => some ⟨s, .swapping, none⟩
  | .writing taken, .ok => some ⟨s.log (.wrote n taken), .writeLoop, none⟩
  | .writing taken, .fail => some ⟨s.log (.wrote n taken), .swapping, none⟩
  -- the call of the message was cancelled
  | .writing _, .skip => some ⟨s, .writeLoop, none⟩
  | _, _ => none

/-- `retry` up to `dial`. -/
def stepRetry (n : ℕ) (pc : Pc) : Option Stepped :=
  match pc with
  | .swapping =>
    if s.state = .opened then
      some ⟨{ s with state := .hanged }.log (.left (some n) s.cur), .cancelling, none⟩
    else some ⟨s, .returned, none⟩
  | .cancelling => some ⟨s.cancel (some n), .locking, none⟩
  | _ => none

/-- `dial` with `doDial`, `process` and `close`. -/
def stepDial (g : Gor) (pc : Pc) (choice : Choice) : Option Stepped :=
  match pc, choice with
  | .locking, _ =>
    if s.writer = none then some ⟨{ s with writer := some g }, .acquiring, none⟩ else none
  | .acquiring, _ => if s.readers = [] then some ⟨s, .checking, none⟩ else none
  | .checking, _ => some ⟨s, if s.state = .opened then .unlocking true else .dialing, none⟩
  | .dialing, .ok => some ⟨s, .setting, none⟩
  | .dialing, .fail => some ⟨s, .closing g.conn, none⟩
  | .setting, _ => some ⟨{ s with cur := s.cur + 1 }, .opening, none⟩
  | .opening, _ =>
    some ⟨{ s with state := .opened }, .handshaking, some (.reader s.cur, .readLoop)⟩
  | .handshaking, .ok => some ⟨s, .notifying true, some (.writer s.cur, .writeLoop)⟩
  | .handshaking, .fail => some ⟨s, .closing (some s.cur), none⟩
  | .closing observed, _ =>
    let s' := { s with state := .closed }
    some ⟨if s.state = .opened then s'.log (.left observed s.cur) else s',
      if s.state = .closed then .notifying false else .closeCancelling observed, none⟩
  | .closeCancelling observed, _ => some ⟨s.cancel observed, .notifying false, none⟩
  | .notifying true, _ => some ⟨{ s with success := s.success + 1 }, .unlocking true, none⟩
  | .notifying false, _ => some ⟨{ s with failure := s.failure + 1 }, .unlocking false, none⟩
  | .unlocking ok, _ => some ⟨{ s with writer := none }, afterDial g ok, none⟩
  | _, _ => none

/-- `send` with `wait`; `fail` is the recent fault of a closed connection, or the end of the write
timeout. -/
def stepSend (i : ℕ) (pc : Pc) (choice : Choice) : Option Stepped :=
  match pc, choice with
  | .absent, _ | .returned, _ => some ⟨s, .loading, none⟩
  | .loading, choice =>
    match s.state, choice with
    | .closed, .fail => some ⟨s, .returned, none⟩
    | .closed, _ => some ⟨s, .locking, none⟩
    | .hanged, _ => some ⟨s, .rlocking, none⟩
    | .opened, _ => some ⟨s, .queueing, none⟩
  -- a writer that waits keeps new readers out
  | .rlocking, _ =>
    if s.writer = none then some ⟨{ s with readers := i :: s.readers }, .rloading, none⟩ else none
  | .rloading, _ =>
    match s.state with
    | .opened => some ⟨s, .runlocking true, none⟩
    | .hanged => some ⟨s, .waiting s.success s.failure, none⟩
    | .closed => some ⟨s, .runlocking false, none⟩
  | .waiting success _, .ok =>
    if success < s.success then some ⟨s, .runlocking true, none⟩ else none
  | .waiting _ failure, .fail =>
    if failure < s.failure then some ⟨s, .runlocking false, none⟩ else none
  | .runlocking ok, _ =>
    some ⟨{ s with readers := s.readers.erase i }, if ok then .queueing else .returned, none⟩
  | .queueing, .fail => some ⟨s, .returned, none⟩
  | .queueing, _ => some ⟨{ s with queued := s.queued + 1 }, .returned, none⟩
  | _, _ => none

def step (g : Gor) (pc : Pc) (choice : Choice) : Option Stepped :=
  match g with
  | .reader n => (s.stepRead pc choice).or ((s.stepRetry n pc).or (s.stepDial g pc choice))
  | .writer n => (s.stepWrite n pc choice).or ((s.stepRetry n pc).or (s.stepDial g pc choice))
  | .caller i => (s.stepSend i pc choice).or (s.stepDial g pc choice)
  | .establisher => s.stepDial g pc choice

end Shared

structure Line where
  shared : Shared := {}
  pcs : Gor → Pc := fun g => if g = .establisher then .locking else .absent

namespace Line

variable (s : Line)

def start (pcs : Gor → Pc) : Option (Gor × Pc) → Gor → Pc
  | none => pcs
  | some (g, pc) => update pcs g pc

def next (act : Gor × Choice) : Option Line :=
  (s.shared.step act.1 (s.pcs act.1) act.2).map fun r =>
    ⟨r.shared, start (update s.pcs act.1 r.pc) r.started⟩

def step (act : Gor × Choice) : Option (Line × (Gor × Choice)) :=
  (s.next act).map fun s' => (s', act)

end Line

end DueServer.Client
