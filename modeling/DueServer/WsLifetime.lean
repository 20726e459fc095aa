import DueServer.SessionIndex
import DueServer.WsModel

/-! On which lifetime of a pooled connection the session operations act. -/
namespace DueServer.Ws

open Session (IndexInv)
open Function (update_self update_of_ne update)

section Stages

def Stage.hold? : Stage → Option Hold
  | .push h _ _ => some h
  | .pushQueue h _ _ => some h
  | .send h _ _ => some h
  | .sendQueue h _ _ => some h
  | .hang h => some h
  | .closeSig h => some h
  | .loadDone h => some h
  | .awaitDone h _ => some h
  | .closeHanged h => some h
  | .force h => some h
  | .doClose h => some h
  | .disconnect h _ => some h
  | .recycle h _ => some h
  | _ => none

def Stage.sender? : Stage → Option Hold
  | .send h _ _ => some h
  | .sendQueue h _ _ => some h
  | _ => none

def Stage.closer? : Stage → Option Obj
  | .doClose h => some h.conn
  | .disconnect h _ => some h.conn
  | .recycle h _ => some h.conn
  | _ => none

def Stage.socket? : Stage → Option (Obj × ℤ)
  | .disconnect h socket => some (h.conn, socket)
  | .recycle h socket => some (h.conn, socket)
  | _ => none

def Stage.alloc? : Stage → Option (Obj × ℤ)
  | .addConn k socket => some (k, socket)
  | .storeOpen k socket => some (k, socket)
  | _ => none

def Stage.allocs (st : Stage) (k : Obj) : Prop := ∃ socket, st.alloc? = some (k, socket)

-- a socket is only closed by a closer, and an allocator holds no looked-up object
theorem Stage.socket_none {st : Stage} (h : st.closer? = none) : st.socket? = none := by
  cases st <;> first | rfl | cases h

theorem Stage.closer_of_socket {st : Stage} {k : Obj} {so : ℤ} (h : st.socket? = some (k, so)) :
    st.closer? = some k := by
  cases st <;> cases h <;> rfl

theorem Stage.alloc_none {st : Stage} {h : Hold} (hh : st.hold? = some h) : st.alloc? = none := by
  cases st <;> first | rfl | cases hh

end Stages

section Reuse

variable {c : ℕ} {k : Obj} {tr : List Event} {e : Event}

def reuseStep (c : ℕ) (k : Obj) (b : Bool) : Event → Bool
  | .resolved c' _ _ => if c' = c then false else b
  | .allocated k' _ => if k' = k then true else b
  | _ => b

/-- `allocate` has taken the object `k` since the call `c` was resolved. -/
def reusedSince (tr : List Event) (c : ℕ) (k : Obj) : Bool := tr.foldl (reuseStep c k) false

theorem reusedSince_snoc : reusedSince (tr ++ [e]) c k = reuseStep c k (reusedSince tr c k) e := by
  rw [reusedSince, List.foldl_append]
  rfl

theorem resolved_mem_snoc (he : ∀ k b, reuseStep c k b e = b) (j : Obj) (cid : ℤ) :
    .resolved c j cid ∈ tr ++ [e] ↔ .resolved c j cid ∈ tr := by
  rw [List.mem_append, List.mem_singleton, or_iff_left]
  rintro rfl
  simpa only [reuseStep, if_true, Bool.false_eq_true] using he j true

end Reuse

/-- What holds of the objects whatever the calls are doing: whoever is in use (filed in the
session, registered in a partition, not closed, with a socket) is not in the pool. -/
structure ObjInv (s : Server) : Prop where
  index : IndexInv s.session
  id_le : ∀ k, s.session.connID k ≤ s.id
  filed_live : ∀ cid k, s.session.conns cid = some k → s.place k = .live
  part : ∀ socket k, s.partition socket = some k →
    s.session.connID k = socket ∧ s.place k = .live
  open_live : ∀ k, (s.conns k).state ≠ .closed → s.place k = .live
  conn_id : ∀ k socket, (s.conns k).conn = some socket →
    s.session.connID k = socket ∧ s.place k = .live

structure CallInv (tr : List Event) (s : Server) (c : ℕ) (st : Stage) : Prop where
  idle : st = .idle → ∀ k cid, .resolved c k cid ∉ tr
  hold : ∀ h, st.hold? = some h → (∀ k cid, .resolved c k cid ∈ tr ↔ k = h.conn ∧ cid = h.cid) ∧
    h.cid ≤ s.id ∧ (s.session.connID h.conn = h.cid ↔ reusedSince tr c h.conn = false)
  rlock : ∀ h, st.hold? = some h → h.rlock = true →
    c ∈ s.rlocks ∧ s.session.conns h.cid = some h.conn
  sender : ∀ h, st.sender? = some h → h.rlock = true
  closer : ∀ k, st.closer? = some k → (s.conns k).state = .closed ∧ s.place k = .live
  socket : ∀ k socket, st.socket? = some (k, socket) →
    (s.conns k).conn = none ∧ s.session.connID k = socket
  recycle : ∀ h socket, st = .recycle h socket → s.partition socket = some h.conn →
    s.session.conns socket = none
  alloc : ∀ k socket, st.alloc? = some (k, socket) →
    s.session.connID k = socket ∧ s.place k = .live ∧ s.partition socket = none
  fresh : ∀ k socket, st = .addConn k socket →
    s.session.conns socket = none ∧ s.session.connUID k = 0

structure LifeInv (tr : List Event) (s : Server) : Prop where
  obj : ObjInv s
  call : ∀ c, CallInv tr s c (s.calls c)
  closer_unique : ∀ c d k, (s.calls c).closer? = some k → (s.calls d).closer? = some k → c = d
  alloc_unique : ∀ c d k, (s.calls c).allocs k → (s.calls d).allocs k → c = d

section Frame

variable {tr : List Event} {s s' s₁ : Server} {e : Event} {c d : ℕ} {st st' : Stage} {h : Hold}

theorem CallInv.frame (hi : CallInv tr s d st) (hid : s.id ≤ s'.id)
    (hcid : ∀ k, s'.session.connID k = s.session.connID k)
    (he : ∀ k b, reuseStep d k b e = b) (hlock : d ∈ s.rlocks → d ∈ s'.rlocks)
    (hfile : s.rlocks ≠ ∅ → s'.session.conns = s.session.conns)
    (hclo : ∀ k, st.closer? = some k → (s'.conns k).state = .closed ∧ s'.place k = .live)
    (hsoc : ∀ k socket, st.socket? = some (k, socket) → (s'.conns k).conn = none)
    (hrec : ∀ h socket, st = .recycle h socket → s'.partition socket = some h.conn →
      s'.session.conns socket = none)
    (hall : ∀ k socket, st.alloc? = some (k, socket) →
      s'.place k = .live ∧ s'.partition socket = none)
    (hfr : ∀ k socket, st = .addConn k socket →
      s'.session.conns socket = none ∧ s'.session.connUID k = 0) :
    CallInv (tr ++ [e]) s' d st := by
  refine ⟨?_, ?_, ?_, hi.sender, hclo, ?_, hrec, ?_, hfr⟩
  · intro hst k cid
    rw [resolved_mem_snoc he]
    exact hi.idle hst k cid
  · intro h hh
    obtain ⟨hmem, hle, hiff⟩ := hi.hold h hh
    refine ⟨fun k cid => (resolved_mem_snoc he k cid).trans (hmem k cid), hle.trans hid, ?_⟩
    rw [hcid, reusedSince_snoc, he]
    exact hiff
  · intro h hh hr
    -- the lock is held, so the step was none that files or removes a connection
    obtain ⟨hmem, hfil⟩ := hi.rlock h hh hr
    refine ⟨hlock hmem, ?_⟩
    rw [hfile (Finset.ne_empty_of_mem hmem)]
    exact hfil
  · intro k socket hs
    refine ⟨hsoc k socket hs, ?_⟩
    rw [hcid]
    exact (hi.socket k socket hs).2
  · intro k socket hs
    rw [hcid]
    exact ⟨(hi.alloc k socket hs).1, hall k socket hs⟩

/-- A step that touches neither the session nor the pool, opens no connection and gives no
object a socket. -/
structure Local (s s' : Server) : Prop where
  session : s'.session = s.session
  partition : s'.partition = s.partition
  place : s'.place = s.place
  id : s'.id = s.id
  state : ∀ k, (s.conns k).state = .closed → (s'.conns k).state = .closed
  conn : ∀ k socket, (s'.conns k).conn = some socket → (s.conns k).conn = some socket

theorem Local.refl (s : Server) : Local s s := ⟨rfl, rfl, rfl, rfl, fun _ h => h, fun _ _ h => h⟩

theorem Local.trans (h : Local s s₁) (h' : Local s₁ s') : Local s s' :=
  ⟨h'.session.trans h.session, h'.partition.trans h.partition, h'.place.trans h.place,
    h'.id.trans h.id, fun k hk => h'.state k (h.state k hk),
    fun k socket hk => h.conn k socket (h'.conn k socket hk)⟩

theorem Local.conn_none (h : Local s s') {k : Obj} (hk : (s.conns k).conn = none) :
    (s'.conns k).conn = none := by
  rcases hs : (s'.conns k).conn with _ | socket
  · rfl
  rw [h.conn k socket hs] at hk
  cases hk

theorem goto_local (s : Server) (c : ℕ) (st : Stage) : Local s (s.goto c st) :=
  ⟨rfl, rfl, rfl, rfl, fun _ h => h, fun _ _ h => h⟩

theorem setConn_local {k : Obj} {o : ServerConn}
    (hstt : (s.conns k).state = .closed → o.state = .closed)
    (hconn : ∀ socket, o.conn = some socket → (s.conns k).conn = some socket) :
    Local s (s.setConn k o) := by
  refine ⟨rfl, rfl, rfl, rfl, ?_, ?_⟩
  · intro j hj
    by_cases hjk : j = k
    · subst hjk
      simpa only [Server.setConn, update_self] using hstt hj
    · simpa only [Server.setConn, update_of_ne hjk] using hj
  · intro j socket hj
    by_cases hjk : j = k
    · subst hjk
      simp only [Server.setConn, update_self] at hj
      exact hconn socket hj
    · simpa only [Server.setConn, update_of_ne hjk] using hj

theorem setWorker_state (o : ServerConn) (who : Who) (w : Worker) :
    (o.setWorker who w).state = o.state ∧ (o.setWorker who w).conn = o.conn := by
  cases who <;> exact ⟨rfl, rfl⟩

theorem setWorker_local (s : Server) (k : Obj) (who : Who) (w : Worker) :
    Local s (s.setConn k ((s.conns k).setWorker who w)) := by
  obtain ⟨hst, hco⟩ := setWorker_state (s.conns k) who w
  refine setConn_local ?_ ?_
  · rw [hst]
    exact fun h => h
  · rw [hco]
    exact fun _ h => h

theorem rlocks_local (s : Server) (locks : Finset ℕ) : Local s { s with rlocks := locks } :=
  ⟨rfl, rfl, rfl, rfl, fun _ h => h, fun _ _ h => h⟩

theorem finish_spec (s : Server) (c : ℕ) (h : Hold) (err : Option DueErr) :
    Local s (s.finish c h err) ∧
      (s.finish c h err).calls = update s.calls c (.returned (h.err.or err)) ∧
      ∀ d ≠ c, d ∈ s.rlocks → d ∈ (s.finish c h err).rlocks := by
  obtain ⟨k, cid, rlock, worker, herr⟩ := h
  have hl := goto_local s c (.returned (herr.or err))
  have hmem : ∀ d ≠ c, d ∈ s.rlocks → d ∈ s.rlocks.erase c := fun d hd h =>
    Finset.mem_erase.mpr ⟨hd, h⟩
  rcases rlock with _ | _ <;> rcases worker with _ | who
  · exact ⟨hl, rfl, fun _ _ h => h⟩
  · exact ⟨hl.trans (setWorker_local _ k who .exited), rfl, fun _ _ h => h⟩
  · exact ⟨hl.trans (rlocks_local _ _), rfl, hmem⟩
  · exact ⟨(hl.trans (rlocks_local _ _)).trans (setWorker_local _ k who .exited), rfl, hmem⟩

theorem ObjInv.local_step (hi : ObjInv s) (hl : Local s s') : ObjInv s' := by
  obtain ⟨hse, hpa, hpl, hid, hst, hco⟩ := hl
  refine ⟨?_, ?_, ?_, ?_, ?_, ?_⟩ <;> simp only [hse, hpa, hpl, hid]
  · exact hi.index
  · exact hi.id_le
  · exact hi.filed_live
  · exact hi.part
  · exact fun k hk => hi.open_live k fun h => hk (hst k h)
  · exact fun k socket hk => hi.conn_id k socket (hco k socket hk)

theorem CallInv.local_step (hi : CallInv tr s d st) (hl : Local s s')
    (he : ∀ k b, reuseStep d k b e = b) (hlock : d ∈ s.rlocks → d ∈ s'.rlocks) :
    CallInv (tr ++ [e]) s' d st := by
  have hse := hl.session
  apply hi.frame (by rw [hl.id]) (fun k => by rw [hse]) he hlock (fun _ => by rw [hse])
  · intro k hk
    obtain ⟨hst, hpl⟩ := hi.closer k hk
    exact ⟨hl.state k hst, by rw [hl.place, hpl]⟩
  · exact fun k socket hk => hl.conn_none (hi.socket k socket hk).1
  · rw [hse, hl.partition]
    exact hi.recycle
  · intro k socket hk
    rw [hl.place, hl.partition]
    exact (hi.alloc k socket hk).2
  · rw [hse]
    exact hi.fresh

theorem CallInv.returned (err : Option DueErr) : CallInv tr s c (.returned err) := by
  constructor <;> nofun

/-- If no two entries of a table share an object, they still do not after one has been replaced
by an entry whose objects no other one has. -/
theorem unique_update {P : Stage → Obj → Prop} {calls : ℕ → Stage}
    (huniq : ∀ a b k, P (calls a) k → P (calls b) k → a = b)
    (hnew : ∀ k, P st' k → ∀ d ≠ c, ¬ P (calls d) k) (a b : ℕ) (k : Obj)
    (ha : P (update calls c st' a) k) (hb : P (update calls c st' b) k) :
    a = b := by
  by_cases hac : a = c <;> by_cases hbc : b = c
  · rw [hac, hbc]
  · rw [hac, update_self] at ha
    rw [update_of_ne hbc] at hb
    exact absurd hb (hnew k ha b hbc)
  · rw [hbc, update_self] at hb
    rw [update_of_ne hac] at ha
    exact absurd ha (hnew k hb a hac)
  rw [update_of_ne hac] at ha
  rw [update_of_ne hbc] at hb
  exact huniq a b k ha hb

section

variable (hi : LifeInv tr s)

include hi

theorem LifeInv.move (hcs : s'.calls = update s.calls c st') (hobj : ObjInv s')
    (hown : CallInv (tr ++ [e]) s' c st') (hfrm : ∀ d ≠ c, CallInv (tr ++ [e]) s' d (s.calls d))
    (hclr : ∀ k, st'.closer? = some k → ∀ d ≠ c, (s.calls d).closer? ≠ some k)
    (hall : ∀ k, st'.allocs k → ∀ d ≠ c, ¬ (s.calls d).allocs k) :
    LifeInv (tr ++ [e]) s' := by
  refine ⟨hobj, ?_, ?_, ?_⟩
  · intro d
    by_cases hd : d = c
    · rw [hd, hcs, update_self]
      exact hown
    rw [hcs, update_of_ne hd]
    exact hfrm d hd
  · rw [hcs]
    exact unique_update (P := fun st k => st.closer? = some k) hi.closer_unique hclr
  · rw [hcs]
    exact unique_update hi.alloc_unique hall

theorem LifeInv.still (hcs : s'.calls = s.calls) (hobj : ObjInv s')
    (hfrm : ∀ d, CallInv (tr ++ [e]) s' d (s.calls d)) : LifeInv (tr ++ [e]) s' := by
  refine ⟨hobj, ?_, ?_, ?_⟩ <;> rw [hcs]
  · exact hfrm
  · exact hi.closer_unique
  · exact hi.alloc_unique

theorem LifeInv.local_still (hcs : s'.calls = s.calls) (hl : Local s s')
    (hlock : s'.rlocks = s.rlocks) (he : ∀ d k b, reuseStep d k b e = b) :
    LifeInv (tr ++ [e]) s' := by
  apply hi.still hcs (hi.obj.local_step hl)
  intro d
  apply (hi.call d).local_step hl (he d)
  rw [hlock]
  exact fun h => h

theorem LifeInv.local_move (hl : Local s s') (hcs : s'.calls = update s.calls c st')
    (he : ∀ d ≠ c, ∀ k b, reuseStep d k b e = b) (hlock : ∀ d ≠ c, d ∈ s.rlocks → d ∈ s'.rlocks)
    (hown : CallInv (tr ++ [e]) s' c st')
    (hclr : ∀ k, st'.closer? = some k → ∀ d ≠ c, (s.calls d).closer? ≠ some k)
    (hall : st'.alloc? = none) : LifeInv (tr ++ [e]) s' := by
  apply hi.move hcs (hi.obj.local_step hl) hown
  · exact fun d hd => (hi.call d).local_step hl (he d hd) (hlock d hd)
  · exact hclr
  · rintro k ⟨so, hso⟩
    rw [hall] at hso
    cases hso

theorem LifeInv.returns {err : Option DueErr} (hl : Local s s')
    (hcs : s'.calls = update s.calls c (.returned err))
    (he : ∀ d ≠ c, ∀ k b, reuseStep d k b e = b) (hlock : ∀ d ≠ c, d ∈ s.rlocks → d ∈ s'.rlocks) :
    LifeInv (tr ++ [e]) s' :=
  hi.local_move hl hcs he hlock (CallInv.returned err) nofun rfl

theorem LifeInv.finish (hl : Local s s₁) (hcs : s₁.calls = s.calls)
    (hlock : s₁.rlocks = s.rlocks) (he : ∀ d k b, reuseStep d k b e = b) (err : Option DueErr) :
    LifeInv (tr ++ [e]) (s₁.finish c h err) := by
  obtain ⟨hl', hcs', hlock'⟩ := finish_spec s₁ c h err
  rw [hcs] at hcs'
  rw [hlock] at hlock'
  exact hi.returns (hl.trans hl') hcs' (fun d _ => he d) hlock'

end

theorem CallInv.carry {h' : Hold} (hi : CallInv tr s c st) (hh : st.hold? = some h)
    (hh' : st'.hold? = some h') (hconn : h'.conn = h.conn) (hcid : h'.cid = h.cid)
    (hid : s.id ≤ s'.id) (hheap : s'.session.connID h.conn = s.session.connID h.conn)
    (he : ∀ k b, reuseStep c k b e = b)
    (hlock : h'.rlock = true → h.rlock = true ∧ (c ∈ s.rlocks →
      c ∈ s'.rlocks ∧ s'.session.conns = s.session.conns))
    (hsd : ∀ g, st'.sender? = some g → g.rlock = true)
    (hclr : ∀ k, st'.closer? = some k → (s'.conns k).state = .closed ∧ s'.place k = .live)
    (hsoc : ∀ k socket, st'.socket? = some (k, socket) →
      (s'.conns k).conn = none ∧ s'.session.connID k = socket)
    (hrec : ∀ g socket, st' = .recycle g socket → s'.partition socket = some g.conn →
      s'.session.conns socket = none) : CallInv (tr ++ [e]) s' c st' := by
  obtain ⟨hmem, hle, hiff⟩ := hi.hold h hh
  refine ⟨?_, ?_, ?_, hsd, hclr, hsoc, hrec, ?_, ?_⟩
  · intro hidle
    rw [hidle] at hh'
    cases hh'
  · intro g hg
    obtain rfl : h' = g := Option.some.inj (hh'.symm.trans hg)
    refine ⟨?_, ?_, ?_⟩
    · intro k cid
      rw [resolved_mem_snoc he, hconn, hcid]
      exact hmem k cid
    · rw [hcid]
      exact hle.trans hid
    · rw [hconn, hcid, hheap, reusedSince_snoc, he]
      exact hiff
  · intro g hg hr
    obtain rfl : h' = g := Option.some.inj (hh'.symm.trans hg)
    -- the table does not change under a read lock
    obtain ⟨hr', hkeep⟩ := hlock hr
    obtain ⟨hc, hfil⟩ := hi.rlock h hh hr'
    obtain ⟨hc', hcon⟩ := hkeep hc
    refine ⟨hc', ?_⟩
    rw [hcon, hcid, hconn]
    exact hfil
  · rw [Stage.alloc_none hh']
    nofun
  · intro k socket hs
    rw [hs] at hh'
    cases hh'

theorem LifeInv.goes_on {h' : Hold} (hi : LifeInv tr s) (hst : (s.calls c).hold? = some h)
    (hl : Local s s') (hcs : s'.calls = update s.calls c st')
    (he : ∀ d k b, reuseStep d k b e = b)
    (hlock : ∀ d, d ≠ c ∨ h'.rlock = true → d ∈ s.rlocks → d ∈ s'.rlocks)
    (hh' : st'.hold? = some h') (hconn : h'.conn = h.conn) (hcid : h'.cid = h.cid)
    (hr : h'.rlock = true → h.rlock = true) (hsd : ∀ g, st'.sender? = some g → g.rlock = true)
    (hclr : st'.closer? = none) : LifeInv (tr ++ [e]) s' := by
  apply hi.local_move hl hcs (fun d _ => he d) (fun d hd => hlock d (.inl hd)) _ _
    (Stage.alloc_none hh')
  · apply (hi.call c).carry hst hh' hconn hcid (by rw [hl.id]) (by rw [hl.session]) (he c)
    · exact fun h => ⟨hr h, fun hc => ⟨hlock c (.inr h) hc, by rw [hl.session]⟩⟩
    · exact hsd
    · rw [hclr]
      nofun
    · rw [Stage.socket_none hclr]
      nofun
    · intro g socket hg
      rw [hg] at hclr
      cases hclr
  · rw [hclr]
    nofun

end Frame

end DueServer.Ws
