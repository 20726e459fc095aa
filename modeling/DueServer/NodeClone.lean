import DueServer.NodeContext

/-! `Clone` of requests and events (`cluster/node/request.go`, `cluster/node/event.go`): what a
clone has of the original, and where its replies go. -/
namespace DueServer.Node

variable {χ δ φ : Type}

/-- `Clone` of a request; the clone has a message of its own. -/
def Request.clone (background : χ) (r : Request χ δ φ) : Request χ δ φ :=
  { (Request.new : Request χ δ φ) with
    gid := r.gid
    nid := r.nid
    cid := r.cid
    uid := r.uid
    token := r.token
    ctx := some background
    message := ⟨r.message.seq, r.message.route, r.message.data⟩
    actor := r.actor }

def Event.clone (background : χ) (e : Event χ φ) : Event χ φ :=
  { (Event.new : Event χ φ) with
    gid := e.gid
    cid := e.cid
    uid := e.uid
    token := e.token
    ctx := some background
    actor := e.actor }

/-- Where a message goes; the context it is sent with is not looked at. -/
def Sent.destination : Sent χ δ → Sent χ δ
  | push _ gid kind target token message => .push none gid kind target token message
  | toNode _ nid uid message => .toNode none nid uid message
  | sent => sent

/-- What the accessors other than `Context()` show. -/
def Seen.public (x : Seen χ δ) : Seen χ δ := { x with ctx := none, pid := "" }

namespace Context

def clone (background : χ) : Context χ δ φ → Context χ δ φ
  | request r => .request (r.clone background)
  | event e => .event (e.clone background)

def isEvent : Context χ δ φ → Bool
  | request _ => false
  | event _ => true

/-- `Parse`, with what the codec of the node makes of the data, to be decrypted first or not. -/
def parse {ρ : Type} (unmarshal : Bool → Option δ → ρ) (errIllegalOperation : ρ) : Context χ δ φ → ρ
  | request r => unmarshal (r.gid ≠ "") r.message.data
  | event _ => errIllegalOperation

/-- The request comes from a gate or from no actor. The clone of an event has no event. -/
def Clonable : Context χ δ φ → Prop
  | request r => r.gid ≠ "" ∨ r.pid = ""
  | event e => e.event = 0

end Context

structure Agrees (id : String) (c c' : Context χ δ φ) : Prop where
  kind : c.isEvent = c'.isEvent
  seen : c.seen.public = c'.seen.public
  parse : ∀ {ρ : Type} (unmarshal : Bool → Option δ → ρ) (errIllegalOperation : ρ),
    c.parse unmarshal errIllegalOperation = c'.parse unmarshal errIllegalOperation
  reply : ∀ actors message,
    (c.reply id actors message).destination = (c'.reply id actors message).destination
  response : ∀ actors data,
    (c.response id actors data).destination = (c'.response id actors data).destination

theorem Request.destination_clone {r : Request χ δ φ} (h : r.gid ≠ "" ∨ r.pid = "")
    (background : χ) (id : String) (actors : String → Option ℕ) (message : Message δ) :
    (r.reply id actors message).destination =
      ((r.clone background).reply id actors message).destination := by
  by_cases hgid : r.gid = ""
  · have hpid := h.resolve_left (not_not.mpr hgid)
    simp only [reply, clone, new, hgid, hpid]
    split_ifs <;> rfl
  simp only [reply, clone, ne_eq, hgid]
  rfl

theorem Request.clonable_of_agrees {r : Request χ δ φ} {background : χ} {id : String}
    (h : Agrees id (.request r) (.request (r.clone background))) : r.gid ≠ "" ∨ r.pid = "" := by
  by_contra hnot
  obtain ⟨hgid, hpid⟩ := not_or.mp hnot
  -- the actor is there to be replied to, and the clone does not know it
  have hrp := h.reply (fun _ => some 0) r.message
  simp only [Context.reply, reply, clone, new, not_not.mp hgid, ne_eq, not_true_eq_false,
    if_false] at hrp
  split_ifs at hrp <;> cases hrp

/-- A clone agrees with its original unless that is a request of an actor or an event, and stays as
it is whatever the original is used for afterwards. -/
theorem clone_agrees_iff (id : String) (background : χ) (heap : List (Context χ δ φ))
    (o : Fin heap.length) (uses : List (Context χ δ φ)) :
    let c := heap.get o
    (uses.foldl (fun heap c => heap.set o c) (heap ++ [c.clone background]))[heap.length]? =
        some (c.clone background) ∧
      (Agrees id c (c.clone background) ↔ c.Clonable) := by
  intro c
  constructor
  · have hkept (l : List (Context χ δ φ)) :
        (uses.foldl (fun heap c => heap.set o c) l)[heap.length]? = l[heap.length]? := by
      induction uses generalizing l with
      | nil => rfl
      | cons c uses ih =>
        rw [List.foldl_cons, ih, List.getElem?_set_ne]
        omega
    rw [hkept, List.getElem?_concat_length]
  · cases c with
    | request r =>
      refine ⟨Request.clonable_of_agrees, fun h => ⟨rfl, rfl, fun _ _ => rfl, ?_, ?_⟩⟩
      · exact Request.destination_clone h background id
      · exact fun actors data => Request.destination_clone h background id actors _
    | event e =>
      refine ⟨fun h => congrArg Seen.event h.seen, fun h => ?_⟩
      obtain ⟨ctx, gid, cid, uid, token, event, version, chain, actor⟩ := e
      obtain rfl : event = 0 := h
      refine ⟨rfl, rfl, fun _ _ => rfl, fun _ _ => ?_, fun _ _ => rfl⟩
      simp only [Context.clone, Context.reply, Event.reply, Event.clone]
      split_ifs <;> rfl

/-- The reply to an actor of the same node is lost when it is made through a clone, and the clone of
an event does not know what happened. -/
theorem clone_loses_actor_and_event :
    let n : Config ℕ ℕ Unit := ⟨"node-1", 0, .ok⟩
    let r : Context ℕ ℕ ℕ :=
      .request (Entry.fillRouter n none "" "node-1" "room/1" 0 100 0 1 2 (some 5) .new)
    let e : Context ℕ ℕ ℕ := .event (Entry.fillTrigger n 1 "gate-1" 7 100 0 .new)
    let reply (c : Context ℕ ℕ ℕ) := c.reply n.id (fun _ => some 3) ⟨1, 2, some 6⟩
    reply r = .toActor 3 100 ⟨1, 2, some 6⟩ ∧ reply (r.clone 0) = .nothing ∧
      e.seen.event = 1 ∧ (e.clone 0).seen.event = 0 ∧ ¬Agrees n.id r (r.clone 0) := by
  refine ⟨by decide +kernel, by decide +kernel, rfl, rfl, fun h => ?_⟩
  exact absurd (h.reply (fun _ => some 3) ⟨1, 2, some 6⟩) (by decide +kernel)

end DueServer.Node
