import DueServer.WriteQueueModel

/-! What one step can do to the connections and the goroutines: the cases of the frame that moves,
and the goroutines before and after it, up to their order. -/
namespace DueServer.WriteQueue

open Lib List Option

namespace Frame

def discards : Frame → Bool
  | discarding _ _ => true
  | _ => false

end Frame

/-- The cases of `State.effect`, by what becomes of the tasks, the read locks and the discarding. -/
inductive Does (s : State) : Frame → Effect → Prop where
  | leave (f : Frame) (htasks : f.tasks = []) (hdiscards : f.discards = false) :
      Does s f ⟨[], id⟩
  | pass (f g : Frame) (htasks : f.tasks = []) (hdiscards : f.discards = false)
      (hgtasks : g.tasks = []) (hgrlock : g.rlock = none) : Does s f ⟨[g], id⟩
  | enter (f g : Frame) (c : ℕ) (q : Conn) (htasks : f.tasks = []) (hdiscards : f.discards = false)
      (hgtasks : g.tasks = []) (hgrlock : g.rlock = some c) (hq : s.shared.conns[c]? = some q)
      (hconn : q.conn = true) : Does s f ⟨[g], id⟩
  | reserve (c : ℕ) (low : Bool) (typ : TaskType) (msg : List UInt8) (b : Budget)
      (hb : s.shared.budget.reserve msg.length low = some b) :
      Does s (.reserving c low typ msg)
        ⟨[.enqueuing c (s.shared.task low typ msg)],
          fun s => { s with budget := b, tickets := s.tickets + 1 }⟩
  | enqueue (c : ℕ) (t : Task) (q : Conn) (hq : s.shared.conns[c]? = some q) :
      Does s (.enqueuing c t)
        ⟨[], fun s => s.setConn c (q.setQueue t.lowPriority (q.queue t.lowPriority ++ [t]))⟩
  | timeout (c : ℕ) (t : Task) :
      Does s (.enqueuing c t) ⟨[.recycling (some c) t, .timedOut c t.lowPriority t.typ], id⟩
  | recycle (lock : Option ℕ) (t : Task) :
      Does s (.recycling lock t) ⟨[], fun s => s.doRecycleToPool t⟩
  | receive (c : ℕ) (q : Conn) (low : Bool) (t : Task) (ts : List Task)
      (hq : s.shared.conns[c]? = some q) (hqueue : q.queue low = t :: ts) :
      Does s (.selecting c) ⟨[.writing c t], fun s => s.setConn c (q.setQueue low ts)⟩
  | signal (c : ℕ) (t : Task) (q : Conn) (hq : s.shared.conns[c]? = some q) :
      Does s (.writing c t)
        ⟨[.recycling none t], fun s => s.setConn c { q with done := q.done || q.conn }⟩
  | written (c : ℕ) (t : Task) (gs : List Frame) (hgtasks : gs.flatMap Frame.tasks = [])
      (hgrlock : ∀ g ∈ gs, g.rlock = none) :
      Does s (.writing c t) ⟨.recycling none t :: gs, id⟩
  | touch (f g : Frame) (c : ℕ) (q q' : Conn) (htasks : f.tasks = [])
      (hdiscards : f.discards = false) (hgtasks : g.tasks = []) (hgrlock : g.rlock = none)
      (hq : s.shared.conns[c]? = some q) (hconn : q'.conn = q.conn)
      (hqueue : ∀ low, q'.queue low = q.queue low) :
      Does s f ⟨[g], fun s => s.setConn c q'⟩
  | enqueueSig (c : ℕ) (q : Conn) (hq : s.shared.conns[c]? = some q) :
      Does s (.enqueuingSig c)
        ⟨[.awaiting c], fun s => s.setConn c (q.setQueue true (q.lowPriorityQueue ++ [closeSig]))⟩
  | close (c : ℕ) (q : Conn) (hq : s.shared.conns[c]? = some q)
      (hreaders : s.readers c = false) :
      Does s (.closing c) ⟨[.discarding c false], fun s => s.setConn c { q with conn := false }⟩
  | discard (c : ℕ) (q : Conn) (low : Bool) (t : Task) (ts : List Task)
      (hq : s.shared.conns[c]? = some q) (hqueue : q.queue low = t :: ts) :
      Does s (.discarding c low)
        ⟨[.recycling none t, .discarding c low], fun s => s.setConn c (q.setQueue low ts)⟩
  | discardLow (c : ℕ) (q : Conn) (hq : s.shared.conns[c]? = some q)
      (hqueue : q.queue false = []) :
      Does s (.discarding c false) ⟨[.discarding c true], id⟩
  | discarded (c : ℕ) (q : Conn) (hq : s.shared.conns[c]? = some q)
      (hqueue : q.queue true = []) :
      Does s (.discarding c true) ⟨[], id⟩

variable {s s' : State} {o : Options} {f : Frame} {q : Conn} {e : Effect} {act : Act}

theorem does_of_go
    (hq : s.shared.conns[State.connOf f]? = some q) (h : s.go o q f = some e) : Does s f e := by
  cases f <;> simp only [State.go] at h
  case checking =>
    split at h <;> cases h
    · exact .pass _ _ rfl rfl rfl rfl
    · exact .leave _ rfl rfl
  case locking c _ _ _ | signalling c =>
    split at h <;> cases h <;> rename_i hconn
    · exact .enter _ _ c q rfl rfl rfl rfl hq hconn
    · exact .leave _ rfl rfl
  case reserving =>
    split at h <;> cases h
    · exact .leave _ rfl rfl
    rename_i hb
    exact .reserve _ _ _ _ _ hb
  case enqueuing c t =>
    split at h <;> cases h
    exact .enqueue c t q hq
  case timedOut | failed =>
    split at h <;> cases h
    · exact .leave _ rfl rfl
    · exact .pass _ _ rfl rfl rfl rfl
  case recycling | selecting => cases h
  case writing c t =>
    split at h
    · cases h
      exact .signal c t q hq
    split at h <;> cases h
    · exact .written c t [] rfl (fun _ hg => nomatch hg)
    refine .written c t [.selecting c] rfl fun g hg => ?_
    rw [mem_singleton.mp hg]
    rfl
  case hanging c | closingHanged c =>
    split at h <;> cases h
    · exact .touch _ _ c q _ rfl rfl rfl rfl hq rfl fun _ => rfl
    · exact .leave _ rfl rfl
  case enqueuingSig c =>
    split at h <;> cases h
    exact .enqueueSig c q hq
  case awaiting c =>
    split at h <;> cases h
    exact .touch _ _ c q _ rfl rfl rfl rfl hq rfl fun _ => rfl
  case forcing c =>
    split at h <;> cases h
    · exact .leave _ rfl rfl
    · exact .touch _ _ c q _ rfl rfl rfl rfl hq rfl fun _ => rfl
  case closing c =>
    split at h
    · cases h
    rename_i hrds
    split at h <;> cases h
    · exact .close c q hq (Bool.eq_false_iff.mpr hrds)
    · exact .leave _ rfl rfl
  case discarding c low =>
    split at h
    · rename_i t ts hqu
      cases h
      exact .discard c q low t ts hq hqu
    rename_i hqu
    cases low with
    | true =>
      cases h
      exact .discarded c q hq hqu
    | false =>
      cases h
      exact .discardLow c q hq hqu

theorem does_of_receive {c : ℕ} {low : Bool}
    (hq : s.shared.conns[c]? = some q) (h : State.receive c q low = some e) :
    Does s (.selecting c) e := by
  rw [State.receive] at h
  split at h
  · rename_i t ts hqu
    cases h
    exact .receive c q low t ts hq hqu
  split at h <;> cases h
  exact .leave _ rfl rfl

theorem does_of_effect {choice : Choice} (h : s.effect o f choice = some e) : Does s f e := by
  rw [State.effect.eq_def] at h
  split at h
  · cases h
    exact .recycle _ _
  · split at h <;> cases h
    exact .timeout _ _
  · split at h
    · cases h
    · split at h <;> cases h
      exact .pass _ _ rfl rfl rfl rfl
  · obtain ⟨q, hq, h⟩ := bind_eq_some_iff.mp h
    exact does_of_receive hq h
  · cases h
    exact .pass _ _ rfl rfl rfl rfl
  · split at h <;> cases h
    refine .written _ _ [.failed _] rfl fun g hg => ?_
    rw [mem_singleton.mp hg]
    rfl
  · obtain ⟨q, hq, h⟩ := bind_eq_some_iff.mp h
    exact does_of_go hq h
  · cases h

/-- One step of a goroutine, with the frame that moves and the frames below it; the `others` stay.
-/
structure State.Turn (s : State) (f : Frame) (rest : List Frame) (e : Effect)
    (others : List (List Frame)) (s' : State) : Prop where
  does : Does s f e
  before : s.threads.Perm ((f :: rest) :: others)
  after : s'.threads.Perm ((e.frames ++ rest) :: others)
  shared : s'.shared = e.write s.shared

inductive Steps (s : State) : State → Prop where
  | accept :
      Steps s
        { shared := { s.shared with conns := s.shared.conns ++ [.new] }
          threads := s.threads ++ [[.selecting s.shared.conns.length]] }
  | start (f : Frame) (htasks : f.tasks = []) (hrlock : f.rlock = none) :
      Steps s { s with threads := s.threads ++ [[f]] }
  | turn (f : Frame) (rest : List Frame) (e : Effect) (others : List (List Frame)) (s' : State)
      (h : s.Turn f rest e others s') : Steps s s'

theorem steps_of_start (act : Act)
    (h : ((State.start act).map fun f => { s with threads := s.threads ++ [[f]] }) = some s') :
    Steps s s' := by
  obtain ⟨f, hf, rfl⟩ := map_eq_some_iff.mp h
  cases act with
  | send c msg | push c msg | heartbeat c msg =>
    cases hf
    exact .start _ rfl rfl
  | close c force =>
    cases hf
    cases force <;> exact .start _ rfl rfl
  | accept | move i choice => cases hf

theorem steps_of_next (h : s.next o act = some s') : Steps s s' := by
  cases act with
  | accept =>
    cases h
    exact .accept
  | move i choice =>
    simp only [State.next, bind_eq_bind, bind_eq_some_iff] at h
    obtain ⟨stack, hstk, h⟩ := h
    cases stack with
    | nil => cases h
    | cons f rest =>
      obtain ⟨e, he, h⟩ := bind_eq_some_iff.mp h
      cases h
      obtain ⟨others, hbef, haft⟩ := replaceAt_perm hstk
      exact .turn f rest e others _ ⟨does_of_effect he, hbef, haft _, rfl⟩
  | send c msg => exact steps_of_start (.send c msg) h
  | push c msg => exact steps_of_start (.push c msg) h
  | heartbeat c msg => exact steps_of_start (.heartbeat c msg) h
  | close c force => exact steps_of_start (.close c force) h

theorem steps_of_step {G : State → Act → Bool}
    (h : guardedRel (State.step o) G s act s') : Steps s s' := by
  obtain ⟨act', _, hs⟩ := h
  obtain ⟨s'', hnext, heq⟩ := map_eq_some_iff.mp hs
  cases heq
  exact steps_of_next hnext

namespace State.Turn

variable {s s' : State} {f : Frame} {rest : List Frame} {e : Effect} {others : List (List Frame)}

section

variable (h : s.Turn f rest e others s')

include h

theorem mem_frames_before {g : Frame} (hg : g ∈ s.threads.flatten) :
    g = f ∨ g ∈ s'.threads.flatten := by
  have hmem := h.before.flatten.mem_iff.mp hg
  refine (mem_cons.mp hmem).imp_right fun hmem => h.after.flatten.mem_iff.mpr ?_
  rw [flatten_cons, append_assoc]
  exact mem_append_right _ hmem

theorem mem_frames_new {g : Frame} (hg : g ∈ e.frames) : g ∈ s'.threads.flatten := by
  apply h.after.flatten.mem_iff.mpr
  rw [flatten_cons, append_assoc]
  exact mem_append_left _ hg

theorem mem_frames_after {g : Frame} (hg : g ∈ s'.threads.flatten) :
    g ∈ e.frames ∨ g ∈ s.threads.flatten := by
  have hmem := h.after.flatten.mem_iff.mp hg
  rw [flatten_cons, append_assoc] at hmem
  refine (mem_append.mp hmem).imp_right fun hmem => h.before.flatten.mem_iff.mpr ?_
  exact mem_cons_of_mem _ hmem

theorem mover_mem : f ∈ s.threads.flatten := by
  apply h.before.flatten.mem_iff.mpr
  exact mem_cons_self

end

end State.Turn

end DueServer.WriteQueue
