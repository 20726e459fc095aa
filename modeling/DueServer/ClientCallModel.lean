import DueServer.LibOneShot
import DueServer.LibTransition

/-! `internal/transporter/internal/client`: the calls on one connection. A step is one atomic
operation of a caller in `Client.Call`, of a writer in `conn.doWrite`, or of a reader with a frame.
There may be any number of writers and readers, as after a reconnect, and the queue takes any number
of messages. -/
namespace DueServer.Client

open Lib.OneShot (Op Outcome)
open Function (update)

inductive Word where
  | pending
  | sent
  | canceled
  | delivered
  | failed
deriving DecidableEq

/-- What `Call` returns: the response, or an error of the context, of the connection or before the
message was queued. -/
inductive Result where
  | response (b : ℕ)
  | canceled
  | hanged
  | refused
  | clientClosed
deriving DecidableEq

inductive Caller where
  | idle
  /-- in `conn.send`, with an envelope from the pool -/
  | sending (e : ℕ)
  /-- in the `select` -/
  | waiting
  /-- in `cancel`: before the load, and before the swap of what was loaded, sent or pending -/
  | loading
  | swapping (sent : Bool)
  /-- before `pending.delete` -/
  | deleting
  | receiving
  | releasing (b : ℕ)
  | returned (r : Result)
deriving DecidableEq

structure CallState where
  word : Word := .pending
  /-- the channel, of capacity one, and what was done to it -/
  chan : Option ℕ := none
  ops : List (Op ℕ) := []
  caller : Caller := .idle
deriving DecidableEq

inductive Holder where
  | pool
  | sender
  | queue
  | writer (t : ℕ)
deriving DecidableEq

structure Envelope (ι : Type) where
  call : Option ι := none
  holder : Holder := .pool
deriving DecidableEq

inductive Writer (ι : Type) where
  | idle
  | swapping (e : ℕ) (c : ι)
  | storing (e : ℕ) (c : ι)
  | writing (e : ℕ) (c : ι)
  | deleting (c : ι)
  | failing (c : ι)
  | closing (c : ι)
deriving DecidableEq

inductive Reader (ι : Type) where
  | unread
  | parsed
  | delivering (c : ι)
  | sending (c : ι)
  | sent (c : ι)
  | releasing
  | released
deriving DecidableEq

structure Response (ι : Type) where
  seq : Option UInt64 := none
  reader : Reader ι := .unread
deriving DecidableEq

structure Conn (ι : Type) where
  calls : ι → CallState := fun _ => {}
  pending : UInt64 → Option ι := fun _ => none
  envelopes : ℕ → Envelope ι := fun _ => {}
  queue : List ℕ := []
  writers : ℕ → Writer ι := fun _ => .idle
  responses : ℕ → Response ι := fun _ => {}
  outcomes : List (Outcome ι ℕ) := []

inductive Action (ι : Type) where
  /-- `Call` gets an envelope from the pool -/
  | call (c : ι) (e : ℕ)
  | callClosed (c : ι)
  /-- the end of `conn.send` -/
  | enqueue (c : ι)
  | refuse (c : ι)
  /-- `Send` queues an envelope without a call -/
  | send (e : ℕ)
  /-- the context of the call is done -/
  | done (c : ι)
  | caller (c : ι)
  /-- a writer takes a message out of the queue -/
  | take (t : ℕ)
  /-- `ok` is whether the bytes can be written -/
  | writer (t : ℕ) (ok : Bool)
  /-- a frame is read -/
  | read (b : ℕ) (seq : Option UInt64)
  | reader (b : ℕ)
deriving DecidableEq

namespace Conn

variable {ι : Type} [DecidableEq ι] (s : Conn ι)

def setCall (c : ι) (call : CallState) : Conn ι := { s with calls := update s.calls c call }

def setCaller (c : ι) (caller : Caller) : Conn ι := s.setCall c { s.calls c with caller := caller }

def setWriter (t : ℕ) (w : Writer ι) : Conn ι := { s with writers := update s.writers t w }

def setReader (b : ℕ) (r : Reader ι) : Conn ι :=
  { s with responses := update s.responses b { s.responses b with reader := r } }

def release (e : ℕ) : Conn ι := { s with envelopes := update s.envelopes e {} }

def enqueue (e : ℕ) : Conn ι :=
  { s with
    envelopes := update s.envelopes e { s.envelopes e with holder := .queue }
    queue := s.queue ++ [e] }

def delete (seq : UInt64) : Conn ι := { s with pending := update s.pending seq none }

def settle (o : Outcome ι ℕ) : Conn ι := { s with outcomes := s.outcomes ++ [o] }

/-- `<-call`: the value, `none` if the channel is closed and empty; the receiver blocks without
either. -/
def received (call : CallState) : Option (Option ℕ) :=
  match call.chan with
  | some b => some (some b)
  | none => if Op.close ∈ call.ops then some none else none

def stepCaller (seq : ι → UInt64) (c : ι) : Option (Conn ι) :=
  let call := s.calls c
  match call.caller with
  | .waiting =>
    (received call).map fun r =>
      match r with
      | some b =>
        (s.setCall c { call with chan := none, caller := .returned (.response b) }).settle
          (.returned c b)
      | none => s.setCaller c (.returned .hanged)
  | .loading =>
    match call.word with
    | .pending => some (s.setCaller c (.swapping false))
    | .sent => some (s.setCaller c (.swapping true))
    | .delivered => some (s.setCaller c .receiving)
    | .failed | .canceled => some (s.setCaller c (.returned .canceled))
  | .swapping sent =>
    if call.word = if sent then .sent else .pending then
      some (s.setCall c { call with
        word := .canceled
        caller := if sent then .deleting else .returned .canceled })
    else some (s.setCaller c .loading)
  | .deleting => some ((s.delete (seq c)).setCaller c (.returned .canceled))
  | .receiving =>
    (received call).map fun r =>
      match r with
      | some b => s.setCall c { call with chan := none, caller := .releasing b }
      | none => s.setCaller c (.returned .canceled)
  | .releasing b => some ((s.setCaller c (.returned .canceled)).settle (.dropped b))
  | .idle | .sending _ | .returned _ => none

def stepWriter (seq : ι → UInt64) (t : ℕ) (ok : Bool) : Option (Conn ι) :=
  match s.writers t with
  | .swapping e c =>
    if (s.calls c).word = .pending then
      some ((s.setCall c { s.calls c with word := .sent }).setWriter t (.storing e c))
    else some ((s.release e).setWriter t .idle)
  | .storing e c =>
    some ({ s with pending := update s.pending (seq c) (some c) }.setWriter t (.writing e c))
  | .writing e c => some ((s.release e).setWriter t (if ok then .idle else .deleting c))
  | .deleting c => some ((s.delete (seq c)).setWriter t (.failing c))
  | .failing c =>
    if (s.calls c).word = .sent then
      some ((s.setCall c { s.calls c with word := .failed }).setWriter t (.closing c))
    else some (s.setWriter t .idle)
  | .closing c =>
    some ((s.setCall c { s.calls c with ops := (s.calls c).ops ++ [.close] }).setWriter t .idle)
  | .idle => none

def stepReader (b : ℕ) : Option (Conn ι) :=
  match (s.responses b).reader with
  | .parsed =>
    match (s.responses b).seq with
    | none => some (s.setReader b .releasing)
    | some seq =>
      -- `pending.extract`
      match s.pending seq with
      | some c => some ((s.delete seq).setReader b (.delivering c))
      | none => some (s.setReader b .releasing)
  | .delivering c =>
    if (s.calls c).word = .sent then
      some ((s.setCall c { s.calls c with word := .delivered }).setReader b (.sending c))
    else some (s.setReader b .releasing)
  | .sending c =>
    if (s.calls c).chan = none then
      some ((s.setCall c { s.calls c with
        chan := some b
        ops := (s.calls c).ops ++ [.send b] }).setReader b (.sent c))
    else none
  | .releasing => some ((s.setReader b .released).settle (.dropped b))
  | .unread | .sent _ | .released => none

def next (seq : ι → UInt64) : Action ι → Option (Conn ι)
  | .call c e =>
    if (s.calls c).caller = .idle ∧ (s.envelopes e).holder = .pool then
      some { s.setCaller c (.sending e) with envelopes := update s.envelopes e ⟨some c, .sender⟩ }
    else none
  | .callClosed c =>
    if (s.calls c).caller = .idle then some (s.setCaller c (.returned .clientClosed)) else none
  | .enqueue c =>
    match (s.calls c).caller with
    | .sending e => some ((s.enqueue e).setCaller c .waiting)
    | _ => none
  | .refuse c =>
    match (s.calls c).caller with
    | .sending e => some ((s.release e).setCaller c (.returned .refused))
    | _ => none
  -- the envelope is used as it comes from the pool
  | .send e => if (s.envelopes e).holder = .pool then some (s.enqueue e) else none
  | .done c => if (s.calls c).caller = .waiting then some (s.setCaller c .loading) else none
  | .caller c => s.stepCaller seq c
  | .take t =>
    match s.writers t, s.queue with
    | .idle, e :: queue =>
      match (s.envelopes e).call with
      -- a message of `Send` is written and released; nothing else depends on when
      | none => some ({ s with queue := queue }.release e)
      | some c =>
        some ({ s with
          queue := queue
          envelopes := update s.envelopes e ⟨some c, .writer t⟩ }.setWriter t (.swapping e c))
    | _, _ => none
  | .writer t ok => s.stepWriter seq t ok
  | .read b seq' =>
    if (s.responses b).reader = .unread then
      some { s with responses := update s.responses b ⟨seq', .parsed⟩ }
    else none
  | .reader b => s.stepReader b

def step (seq : ι → UInt64) (act : Action ι) : Option (Conn ι × Action ι) :=
  (s.next seq act).map fun s' => (s', act)

end Conn

def Reaches {ι : Type} [DecidableEq ι] (seq : ι → UInt64) (acts : List (Action ι)) (s : Conn ι) :
    Prop :=
  Lib.Run (Lib.guardedRel (fun s act => Conn.step s seq act) fun _ _ => true) {} acts s

end DueServer.Client
