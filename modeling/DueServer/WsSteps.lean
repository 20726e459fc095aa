import DueServer.WsLifetime

/-! Every step of a call, and every lookup that starts one, keeps the invariants of the pooled
connections. -/
namespace DueServer.Ws

open Session (IndexInv)
open Function (update_self update_of_ne update_apply update)

variable {tr : List Event} {s s' : Server} {e : Event} {c : ℕ} {h : Hold} {k : Obj}

section Calls

variable {r : Enqueue} {disconnect : Bool} {msg : List UInt8} {socket : ℤ}

def Server.Keeps (s : Server) (tr : List Event) (c : ℕ) (r : Enqueue) (st : Stage) : Prop :=
  ∀ s' e, s.calls c = st → s.stepCall c r st = some (s', e) → LifeInv (tr ++ [e]) s'

theorem acted_quiet (s : Server) (h : Hold) (act : Act) (d : ℕ) (k : Obj) (b : Bool) :
    reuseStep d k b (s.acted c h act) = b := rfl

section

variable (hi : LifeInv tr s)

include hi

theorem LifeInv.gives_up (err : Option DueErr) : LifeInv (tr ++ [.silent]) (s.finish c h err) :=
  hi.finish (Local.refl s) rfl rfl (fun _ _ _ => rfl) err

theorem LifeInv.advances {st' : Stage} (hst : (s.calls c).hold? = some h)
    (err : Option DueErr) (hh' : st'.hold? = some { h with err := err })
    (hsd : ∀ g, st'.sender? = some g → g.rlock = true) (hclr : st'.closer? = none) :
    LifeInv (tr ++ [.silent]) (s.goto c st') :=
  hi.goes_on hst (goto_local s c st') rfl (fun _ _ _ => rfl) (fun _ _ h => h) hh' rfl rfl
    id hsd hclr

theorem LifeInv.changes {st' : Stage} {o : ServerConn} (hst : (s.calls c).hold? = some h)
    (he : ∀ d k b, reuseStep d k b e = b)
    (hstt : (s.conns h.conn).state = .closed → o.state = .closed)
    (hconn : ∀ so, o.conn = some so → (s.conns h.conn).conn = some so) (hh' : st'.hold? = some h)
    (hsd : st'.sender? = none) (hclr : st'.closer? = none) :
    LifeInv (tr ++ [e]) ((s.setConn h.conn o).goto c st') := by
  apply hi.goes_on hst ((setConn_local hstt hconn).trans (goto_local _ c st')) rfl he
    (fun _ _ h => h) hh' rfl rfl id _ hclr
  rw [hsd]
  nofun

theorem step_push : s.Keeps tr c r (.push h disconnect msg) := by
  intro s' e hst hstep
  have hh := congrArg Stage.hold? hst
  simp only [Server.stepCall] at hstep
  split at hstep <;> cases hstep
  · exact hi.gives_up _
  · exact hi.advances hh h.err rfl nofun rfl

theorem step_pushQueue : s.Keeps tr c r (.pushQueue h disconnect msg) := by
  intro s' e hst hstep
  have hh := congrArg Stage.hold? hst
  simp only [Server.stepCall] at hstep
  split at hstep
  · cases hstep
    exact hi.gives_up _
  split at hstep
  · cases hstep
    split
    · exact hi.changes hh (acted_quiet s h _) id (fun _ => id) rfl rfl rfl
    have hl := setConn_local (o := { s.conns h.conn with
      lowPriorityQueue := (s.conns h.conn).lowPriorityQueue ++ [.dataPacket msg] })
      id fun _ h => h
    exact hi.finish hl rfl rfl (acted_quiet s h _) none
  · cases hstep
    exact hi.gives_up _
  · split at hstep <;> cases hstep
    · exact hi.advances hh _ rfl nofun rfl
    · exact hi.gives_up _

theorem step_send : s.Keeps tr c r (.send h disconnect msg) := by
  intro s' e hst hstep
  have hh := congrArg Stage.hold? hst
  have hr : h.rlock = true := (hi.call c).sender h (by rw [hst]; rfl)
  simp only [Server.stepCall] at hstep
  split at hstep <;> cases hstep
  · exact hi.gives_up _
  refine hi.advances hh h.err rfl ?_ rfl
  intro g hg
  cases hg
  exact hr

theorem step_sendQueue : s.Keeps tr c r (.sendQueue h disconnect msg) := by
  intro s' e hst hstep
  have hh := congrArg Stage.hold? hst
  simp only [Server.stepCall] at hstep
  split at hstep
  · cases hstep
    exact hi.gives_up _
  split at hstep
  · -- the read lock is given back here
    have hmem : ∀ d ≠ c, d ∈ s.rlocks → d ∈ s.rlocks.erase c := fun d hd h =>
      Finset.mem_erase.mpr ⟨hd, h⟩
    have hl := (setConn_local (o := { s.conns h.conn with
      highPriorityQueue := (s.conns h.conn).highPriorityQueue ++ [.dataPacket msg] })
      id fun _ h => h).trans (rlocks_local _ (s.rlocks.erase c))
    cases hstep
    split
    · refine hi.goes_on hh (hl.trans (goto_local _ c _)) rfl (acted_quiet s h _) ?_ rfl rfl rfl
        nofun nofun rfl
      exact fun d hd => hmem d (hd.resolve_right nofun)
    · exact hi.returns (hl.trans (goto_local _ c _)) rfl (fun d _ => acted_quiet s h _ d) hmem
  · cases hstep
    exact hi.gives_up _
  · split at hstep <;> cases hstep
    · exact hi.advances hh _ rfl nofun rfl
    · exact hi.gives_up _

theorem step_hang : s.Keeps tr c r (.hang h) := by
  intro s' e hst hstep
  have hh := congrArg Stage.hold? hst
  simp only [Server.stepCall] at hstep
  split at hstep <;> cases hstep
  · rename_i hopen
    refine hi.changes hh (acted_quiet s h _) ?_ (fun _ => id) rfl rfl rfl
    rw [hopen]
    nofun
  · exact hi.gives_up _

theorem step_closeSig : s.Keeps tr c r (.closeSig h) := by
  intro s' e hst hstep
  have hh := congrArg Stage.hold? hst
  simp only [Server.stepCall] at hstep
  split at hstep <;> cases hstep
  · exact hi.gives_up _
  · exact hi.changes hh (acted_quiet s h _) id (fun _ => id) rfl rfl rfl

theorem step_awaitDone {done : ℤ} : s.Keeps tr c r (.awaitDone h done) := by
  intro s' e hst hstep
  have hh := congrArg Stage.hold? hst
  simp only [Server.stepCall] at hstep
  split at hstep
  · cases hstep
    exact hi.advances hh h.err rfl nofun rfl
  split at hstep <;> cases hstep
  exact hi.changes hh (fun _ _ _ => rfl) id (fun _ => id) rfl rfl rfl

theorem LifeInv.closes (hst : (s.calls c).hold? = some h)
    (hopen : (s.conns h.conn).state ≠ .closed) :
    LifeInv (tr ++ [s.acted c h .closed])
      ((s.setConn h.conn { s.conns h.conn with state := .closed }).goto c (.doClose h)) := by
  have hl := (setConn_local (o := { s.conns h.conn with state := .closed })
    (fun _ => rfl) fun _ h => h).trans (goto_local _ c (.doClose h))
  refine hi.local_move hl rfl (fun d _ => acted_quiet s h _ d) (fun _ _ h => h) ?_ ?_ rfl
  · refine (hi.call c).carry hst rfl rfl rfl le_rfl rfl (acted_quiet s h _ c)
      ?_ nofun ?_ nofun nofun
    · exact fun hr => ⟨hr, fun hc => ⟨hc, rfl⟩⟩
    · intro k hk
      cases hk
      refine ⟨?_, hi.obj.open_live h.conn hopen⟩
      simp [Server.goto, Server.setConn]
  · intro k hk d _ hd
    cases hk
    exact hopen ((hi.call d).closer h.conn hd).1

theorem step_closeHanged : s.Keeps tr c r (.closeHanged h) := by
  intro s' e hst hstep
  simp only [Server.stepCall] at hstep
  split at hstep <;> cases hstep
  · rename_i hhan
    apply hi.closes (by rw [hst]; rfl)
    rw [hhan]
    nofun
  · exact hi.gives_up _

theorem step_force : s.Keeps tr c r (.force h) := by
  intro s' e hst hstep
  simp only [Server.stepCall] at hstep
  split at hstep <;> cases hstep
  · rename_i hopen
    exact hi.closes (by rw [hst]; rfl) hopen
  · exact hi.gives_up _

theorem step_doClose : s.Keeps tr c r (.doClose h) := by
  intro s' e hst hstep
  have hh := congrArg Stage.hold? hst
  have hcl : (s.calls c).closer? = some h.conn := congrArg Stage.closer? hst
  obtain ⟨hclo, hlive⟩ := (hi.call c).closer h.conn hcl
  simp only [Server.stepCall] at hstep
  split at hstep <;> cases hstep
  · exact hi.gives_up _
  rename_i socket hsoc
  -- the socket the object has is that of its present lifetime
  have hl := (setConn_local (o := { s.conns h.conn with
    conn := none, lowPriorityQueue := [], highPriorityQueue := [] }) id nofun).trans
    (goto_local _ c (.disconnect h socket))
  refine hi.local_move hl rfl (fun d _ => acted_quiet s h _ d) (fun _ _ h => h) ?_ ?_ rfl
  · refine (hi.call c).carry hh rfl rfl rfl le_rfl rfl (acted_quiet s h _ c) ?_ nofun ?_ ?_ nofun
    · exact fun hr => ⟨hr, fun hc => ⟨hc, rfl⟩⟩
    · intro k hk
      cases hk
      exact ⟨hl.state h.conn hclo, hlive⟩
    · intro k so hk
      cases hk
      refine ⟨?_, (hi.obj.conn_id h.conn socket hsoc).1⟩
      simp [Server.goto, Server.setConn]
  · intro k hk d hd hd'
    cases hk
    exact hd (hi.closer_unique d c h.conn hd' hcl)

end

variable {σ : Session Obj} {calls : ℕ → Stage} {d : ℕ} {st : Stage} {j : Obj}

theorem ObjInv.session_step (hi : ObjInv s)
    (hidx : IndexInv σ) (hid : ∀ k, σ.connID k = s.session.connID k)
    (hfil : ∀ cid k, σ.conns cid = some k → s.session.conns cid = some k ∨ s.place k = .live) :
    ObjInv { s with session := σ, calls := calls } := by
  refine ⟨hidx, ?_, ?_, ?_, hi.open_live, ?_⟩ <;> simp only [hid]
  · exact hi.id_le
  · intro cid k hk
    rcases hfil cid k hk with hold | hlive
    · exact hi.filed_live cid k hold
    · exact hlive
  · exact hi.part
  · exact hi.conn_id

theorem CallInv.session_step (hi : CallInv tr s d st) (hloc : s.rlocks = ∅)
    (hid : ∀ k, σ.connID k = s.session.connID k)
    (hrec : ∀ g so, st = .recycle g so → s.partition so = some g.conn →
      s.session.conns so = none → σ.conns so = none)
    (hfr : ∀ k so, st = .addConn k so → s.session.conns so = none →
      s.session.connUID k = 0 → σ.conns so = none ∧ σ.connUID k = 0) :
    CallInv (tr ++ [.silent]) { s with session := σ, calls := calls } d st := by
  refine hi.frame le_rfl hid (fun _ _ => rfl) id (fun hne => absurd hloc hne)
    hi.closer ?_ ?_ ?_ ?_
  · exact fun k so hk => (hi.socket k so hk).1
  · exact fun g so hg hp => hrec g so hg hp (hi.recycle g so hg hp)
  · exact fun k so hk => (hi.alloc k so hk).2
  · intro k so hk
    obtain ⟨hfree, huid⟩ := hi.fresh k so hk
    exact hfr k so hk hfree huid

theorem step_disconnect (hi : LifeInv tr s) : s.Keeps tr c r (.disconnect h socket) := by
  intro s' e hst hstep
  have hh := congrArg Stage.hold? hst
  have hcl : (s.calls c).closer? = some h.conn := congrArg Stage.closer? hst
  obtain ⟨hnone, hid⟩ := (hi.call c).socket h.conn socket (by rw [hst]; rfl)
  have hidx := Session.remConn_inv hi.obj.index (c := h.conn)
  obtain ⟨ch, heq⟩ := s.session.remConnWithToken_eq h.conn
  simp only [Server.stepCall] at hstep
  split at hstep <;> cases hstep
  rename_i hloc
  rw [Session.remConn, heq] at hidx
  rw [heq]
  -- all that matters here is that the entry under the id of the object goes
  have hfil : ∀ cid k, update s.session.conns (s.session.connID h.conn) none cid =
      some k → s.session.conns cid = some k := by
    intro cid k hk
    rw [update_apply] at hk
    split at hk
    · cases hk
    · exact hk
  have hgone : ∀ cid, s.session.conns cid = none →
      update s.session.conns (s.session.connID h.conn) none cid = none := by
    intro cid hcid
    rw [update_apply, hcid, ite_self]
  refine hi.move rfl ?_ ?_ ?_ ?_ nofun
  · exact hi.obj.session_step hidx (fun _ => rfl) fun cid k hk => .inl (hfil cid k hk)
  · refine (hi.call c).carry hh rfl rfl rfl le_rfl rfl (fun _ _ => rfl) ?_ nofun ?_ ?_ ?_
    · intro hr
      refine ⟨hr, fun hc => ?_⟩
      rw [hloc] at hc
      exact absurd hc (Finset.notMem_empty c)
    · intro k hk
      cases hk
      exact (hi.call c).closer h.conn hcl
    · intro k so hk
      cases hk
      exact ⟨hnone, hid⟩
    · intro g so hg _
      cases hg
      simp [Server.goto, ← hid]
  · exact fun d _ => (hi.call d).session_step hloc (fun _ => rfl)
      (fun _ so _ _ hfree => hgone so hfree) fun _ so _ hfree huid => ⟨hgone so hfree, huid⟩
  · intro k hk d hd hd'
    cases hk
    exact hd (hi.closer_unique d c h.conn hd' hcl)

theorem step_addConn (hi : LifeInv tr s) : s.Keeps tr c r (.addConn k socket) := by
  intro s' e hst hstep
  have hal : (s.calls c).alloc? = some (k, socket) := congrArg Stage.alloc? hst
  obtain ⟨hid, hlive, hpart⟩ := (hi.call c).alloc k socket hal
  obtain ⟨hfree, huid⟩ := (hi.call c).fresh k socket hst
  have hidx := Session.addConn_inv hi.obj.index fun h => absurd huid h
  simp only [Server.stepCall] at hstep
  split at hstep <;> cases hstep
  rename_i hloc
  rw [Session.addConn_unbound huid, hid] at hidx ⊢
  refine hi.move rfl ?_ ?_ ?_ nofun ?_
  · refine hi.obj.session_step hidx (fun _ => rfl) ?_
    intro cid j hj
    simp only [update_apply] at hj
    split at hj
    · cases hj
      exact .inr hlive
    · exact .inl hj
  · refine ⟨nofun, nofun, nofun, nofun, nofun, nofun, nofun, ?_, nofun⟩
    intro j so hj
    cases hj
    exact ⟨hid, hlive, hpart⟩
  · intro d hd
    refine (hi.call d).session_step hloc (fun _ => rfl) ?_ ?_
    · intro g so _ hp hfree'
      -- `socket` is in no partition yet
      have hne : so ≠ socket := by
        rintro rfl
        rw [hpart] at hp
        cases hp
      simp only [update_of_ne hne, hfree']
    · intro j so hj hfree' huid'
      have hal' : (s.calls d).alloc? = some (j, so) := by rw [hj]; rfl
      have hne : so ≠ socket := by
        rintro rfl
        obtain rfl := hi.obj.index.id_injective j k (((hi.call d).alloc j so hal').1.trans hid.symm)
        exact hd (hi.alloc_unique d c j ⟨so, hal'⟩ ⟨so, hal⟩)
      exact ⟨by simp only [update_of_ne hne, hfree'], huid'⟩
  · rintro j ⟨so, hj⟩ d hd hd'
    cases hj
    exact hd (hi.alloc_unique d c k hd' ⟨socket, hal⟩)

theorem recycled_unused (hi : LifeInv tr s) (hst : s.calls c = .recycle h socket)
    (hpart : s.partition socket = some k) :
    k = h.conn ∧ s.session.connID k = socket ∧ (s.conns k).state = .closed ∧
      (s.conns k).conn = none ∧ (∀ cid, s.session.conns cid ≠ some k) ∧
      ∀ d ≠ c, (s.calls d).closer? ≠ some k ∧ ¬ (s.calls d).allocs k := by
  have hcl : (s.calls c).closer? = some h.conn := congrArg Stage.closer? hst
  obtain ⟨hnone, hid⟩ := (hi.call c).socket h.conn socket (by rw [hst]; rfl)
  obtain ⟨hid', -⟩ := hi.obj.part socket k hpart
  obtain rfl := hi.obj.index.id_injective k h.conn (hid'.trans hid.symm)
  refine ⟨rfl, hid, ((hi.call c).closer h.conn hcl).1, hnone, ?_, ?_⟩
  · intro cid hfil
    have hkey := hi.obj.index.conns_key cid h.conn hfil
    rw [hid] at hkey
    subst hkey
    rw [(hi.call c).recycle h socket hst hpart] at hfil
    cases hfil
  · refine fun d hd => ⟨fun hd' => hd (hi.closer_unique d c h.conn hd' hcl), ?_⟩
    rintro ⟨so, hso⟩
    obtain ⟨hid'', -, hfree⟩ := (hi.call d).alloc h.conn so hso
    rw [← hid'', hid, hpart] at hfree
    cases hfree

/-- `recycle` takes the object `k` out of the partition and out of use. -/
def Server.retire (s : Server) (socket : ℤ) (k : Obj) : Server :=
  { s with
    partition := Function.update s.partition socket none
    place := Function.update s.place k .retiring }

theorem retire_place (hj : j ≠ k) : (s.retire socket k).place j = s.place j :=
  update_of_ne hj _ _

theorem retire_partition {so : ℤ} (h : (s.retire socket k).partition so = some j) :
    so ≠ socket ∧ s.partition so = some j := by
  simp only [Server.retire, update_apply] at h
  split at h
  · cases h
  · exact ⟨‹_›, h⟩

theorem ObjInv.retire (hi : ObjInv s) (hid : s.session.connID k = socket)
    (hcl : (s.conns k).state = .closed) (hnone : (s.conns k).conn = none)
    (hunf : ∀ cid, s.session.conns cid ≠ some k) : ObjInv (s.retire socket k) := by
  refine ⟨hi.index, hi.id_le, ?_, ?_, ?_, ?_⟩
  · intro cid j hj
    have hjk : j ≠ k := fun hjk => hunf cid (hjk ▸ hj)
    exact (retire_place hjk).trans (hi.filed_live cid j hj)
  · intro so j hj
    obtain ⟨hne, hold⟩ := retire_partition hj
    obtain ⟨hid', hlive⟩ := hi.part so j hold
    have hjk : j ≠ k := fun hjk => hne (hid'.symm.trans (hjk ▸ hid))
    exact ⟨hid', (retire_place hjk).trans hlive⟩
  · intro j hj
    have hjk : j ≠ k := fun hjk => hj (hjk ▸ hcl)
    exact (retire_place hjk).trans (hi.open_live j hj)
  · intro j so hj
    obtain ⟨hid', hlive⟩ := hi.conn_id j so hj
    have hjk : j ≠ k := by
      rintro rfl
      exact nomatch hnone.symm.trans hj
    exact ⟨hid', (retire_place hjk).trans hlive⟩

theorem CallInv.retire (hi : CallInv tr s d st)
    (hclr : st.closer? ≠ some k) (hall : ¬ st.allocs k) :
    CallInv tr (s.retire socket k) d st := by
  refine ⟨hi.idle, hi.hold, hi.rlock, hi.sender, ?_, hi.socket, ?_, ?_, hi.fresh⟩
  · intro j hj
    have hjk : j ≠ k := fun hjk => hclr (hjk ▸ hj)
    rw [retire_place hjk]
    exact hi.closer j hj
  · exact fun g so hg hp => hi.recycle g so hg (retire_partition hp).2
  · intro j so hj
    obtain ⟨hid, hlive, hpart⟩ := hi.alloc j so hj
    have hjk : j ≠ k := fun hjk => hall ⟨so, hjk ▸ hj⟩
    refine ⟨hid, (retire_place hjk).trans hlive, ?_⟩
    simp [Server.retire, update_apply, hpart]

theorem step_recycle (hi : LifeInv tr s) : s.Keeps tr c r (.recycle h socket) := by
  intro s' e hst hstep
  simp only [Server.stepCall] at hstep
  split at hstep <;> cases hstep
  · exact hi.gives_up _
  rename_i k hpart
  obtain ⟨-, hid, hcl, hnone, hunf, hunu⟩ := recycled_unused hi hst hpart
  obtain ⟨hl, hcs, hlock⟩ := finish_spec (s.retire socket k) c h none
  have hobj := hi.obj.retire hid hcl hnone hunf
  refine hi.move hcs (hobj.local_step hl) (CallInv.returned _) ?_ nofun nofun
  intro d hd
  obtain ⟨hncl, hnal⟩ := hunu d hd
  exact ((hi.call d).retire hncl hnal).local_step hl (fun _ _ => rfl) (hlock d hd)

theorem step_storeOpen (hi : LifeInv tr s) : s.Keeps tr c r (.storeOpen k socket) := by
  intro s' e hst hstep
  have hal : (s.calls c).alloc? = some (k, socket) := congrArg Stage.alloc? hst
  obtain ⟨hid, hlive, hpart⟩ := (hi.call c).alloc k socket hal
  simp only [Server.stepCall] at hstep
  split at hstep <;> cases hstep
  · rename_i hopen
    refine hi.move rfl ?_ (CallInv.returned _) ?_ nofun nofun
    · refine ⟨hi.obj.index, hi.obj.id_le, hi.obj.filed_live, ?_, hi.obj.open_live, hi.obj.conn_id⟩
      intro so j hj
      simp only [Server.goto, update_apply] at hj
      split at hj
      · cases hj
        rename_i hso
        exact ⟨hid.trans hso.symm, hlive⟩
      · exact hi.obj.part so j hj
    · intro d hd
      refine (hi.call d).frame le_rfl (fun _ => rfl) (fun _ _ => rfl) id (fun _ => rfl)
        (hi.call d).closer ?_ ?_ ?_ (hi.call d).fresh
      · exact fun j so hj => ((hi.call d).socket j so hj).1
      · intro g so hg hp
        simp only [Server.goto, update_apply] at hp
        split at hp
        · -- an open connection is not being recycled
          cases hp
          have hcl := ((hi.call d).closer g.conn (by rw [hg]; rfl)).1
          rw [hopen] at hcl
          cases hcl
        · exact (hi.call d).recycle g so hg hp
      · intro j so hj
        obtain ⟨hid', hlive', hpart'⟩ := (hi.call d).alloc j so hj
        refine ⟨hlive', ?_⟩
        have hne : so ≠ socket := by
          rintro rfl
          obtain rfl := hi.obj.index.id_injective j k (hid'.trans hid.symm)
          exact hd (hi.alloc_unique d c j ⟨so, hj⟩ ⟨so, hal⟩)
        simp only [Server.goto, update_of_ne hne, hpart']
  · exact hi.returns (goto_local s c _) rfl (fun _ _ _ _ => rfl) fun _ _ h => h

theorem stepCall_lifeInv (hi : LifeInv tr s)
    (hstep : s.stepCall c r (s.calls c) = some (s', e)) : LifeInv (tr ++ [e]) s' := by
  cases hst : s.calls c <;> rw [hst] at hstep
  case idle => cases hstep
  case returned => cases hstep
  case push => exact step_push hi _ _ hst hstep
  case pushQueue => exact step_pushQueue hi _ _ hst hstep
  case send => exact step_send hi _ _ hst hstep
  case sendQueue => exact step_sendQueue hi _ _ hst hstep
  case hang => exact step_hang hi _ _ hst hstep
  case closeSig => exact step_closeSig hi _ _ hst hstep
  case loadDone h =>
    cases hstep
    exact hi.advances (by rw [hst]; rfl) h.err rfl nofun rfl
  case awaitDone => exact step_awaitDone hi _ _ hst hstep
  case closeHanged => exact step_closeHanged hi _ _ hst hstep
  case force => exact step_force hi _ _ hst hstep
  case doClose => exact step_doClose hi _ _ hst hstep
  case disconnect => exact step_disconnect hi _ _ hst hstep
  case recycle => exact step_recycle hi _ _ hst hstep
  case addConn => exact step_addConn hi _ _ hst hstep
  case storeOpen => exact step_storeOpen hi _ _ hst hstep

end Calls

section Resolve

theorem CallInv.resolved {st : Stage} (hi : ObjInv s)
    (hfst : ∀ j cid, .resolved c j cid ∉ tr) (hse : s'.session = s.session)
    (hid : s'.id = s.id) (hh : st.hold? = some h) (hconn : h.conn = k)
    (hcid : h.cid = s.session.connID k)
    (hlock : h.rlock = true → c ∈ s'.rlocks ∧ s.session.conns (s.session.connID k) = some k)
    (hsd : ∀ g, st.sender? = some g → g.rlock = true) (hclr : st.closer? = none) :
    CallInv (tr ++ [.resolved c k (s.session.connID k)]) s' c st := by
  subst hconn
  have hheld : ∀ g, st.hold? = some g → g = h := fun g hg => Option.some.inj (hg.symm.trans hh)
  refine ⟨?_, ?_, ?_, hsd, ?_, ?_, ?_, ?_, ?_⟩
  · rintro rfl
    cases hh
  · intro g hg
    obtain rfl := hheld g hg
    rw [hse, hid, hcid]
    refine ⟨?_, hi.id_le g.conn, ?_⟩
    -- the lookup is the last event, so the object cannot have been taken since
    · intro j cid
      simp [hfst j cid]
    · simp [reusedSince_snoc, reuseStep]
  · intro g hg hr
    obtain rfl := hheld g hg
    rw [hse, hcid]
    exact hlock hr
  · intro j hj
    cases hclr.symm.trans hj
  · intro j so hj
    cases (Stage.socket_none hclr).symm.trans hj
  · rintro g so rfl
    cases hclr
  · intro j so hj
    cases (Stage.alloc_none hh).symm.trans hj
  · rintro j so rfl
    cases hh

theorem resolved_other {cid : ℤ} {d : ℕ} (hd : d ≠ c) (j : Obj) (b : Bool) :
    reuseStep d j b (.resolved c k cid) = b := if_neg hd.symm

theorem LifeInv.resolves {st : Stage} (hi : LifeInv tr s) (hidle : s.calls c = .idle)
    (hl : Local s s')
    (hcs : s'.calls = update s.calls c st)
    (hlock : ∀ d ∈ s.rlocks, d ∈ s'.rlocks) (hh : st.hold? = some h) (hconn : h.conn = k)
    (hcid : h.cid = s.session.connID k)
    (hr : h.rlock = true → c ∈ s'.rlocks ∧ s.session.conns (s.session.connID k) = some k)
    (hsd : ∀ g, st.sender? = some g → g.rlock = true) (hclr : st.closer? = none) :
    LifeInv (tr ++ [.resolved c k (s.session.connID k)]) s' := by
  have hown : CallInv (tr ++ [.resolved c k (s.session.connID k)]) s' c st :=
    CallInv.resolved hi.obj ((hi.call c).idle hidle) hl.session hl.id hh hconn hcid hr hsd hclr
  refine hi.local_move hl hcs (fun _ hd => resolved_other hd) (fun d _ => hlock d) hown ?_
    (Stage.alloc_none hh)
  rw [hclr]
  nofun

theorem LifeInv.fails (hi : LifeInv tr s) (err : Option DueErr) :
    LifeInv (tr ++ [.silent]) (s.goto c (.returned err)) :=
  hi.returns (goto_local s c _) rfl (fun _ _ _ _ => rfl) fun _ _ h => h

theorem LifeInv.starts_closing (hi : LifeInv tr s) (hidle : s.calls c = .idle) (force : Bool) :
    LifeInv (tr ++ [.resolved c k (s.session.connID k)])
      (s.goto c (Server.closing force (s.hold k false))) := by
  unfold Server.closing
  split
  all_goals
    exact hi.resolves hidle (goto_local s c _) rfl (fun _ => id) rfl rfl rfl nofun nofun rfl

theorem connCurrent_filed {kind : Kind} {target : ℤ} {token : Token} (hi : IndexInv s.session)
    (hok : s.session.connCurrent kind target token = .ok k) :
    s.session.conns (s.session.connID k) = some k := by
  unfold Session.connCurrent at hok
  split at hok
  · cases hok
  split at hok <;> cases hok
  rename_i hcur
  push Not at hcur
  exact (hi.users_conn _ k hcur.1).1

theorem startCall_lifeInv (entry : Entry) (hi : LifeInv tr s) (hidle : s.calls c = .idle) :
    LifeInv (tr ++ [(s.startCall c entry).2]) (s.startCall c entry).1 := by
  rcases entry with ⟨kind, target, dis, msg⟩ | ⟨kind, target, force⟩ |
    ⟨kind, target, token, force⟩ | ⟨kind, target, token, dis, msg⟩ <;>
    simp only [Server.startCall]
  · split
    · exact hi.fails _
    · exact hi.resolves hidle (goto_local s c _) rfl (fun _ => id) rfl rfl rfl nofun nofun rfl
  · split
    · exact hi.fails _
    · exact hi.starts_closing hidle force
  · split
    · exact hi.fails _
    · split
      · exact hi.fails _
      · exact hi.starts_closing hidle force
  · split
    · exact hi.fails _
    · split
      · exact hi.fails _
      · -- `SendCurrent` stays under the read lock, so its connection stays filed
        rename_i k hok
        have hl := (rlocks_local s (insert c s.rlocks)).trans
          (goto_local _ c (.send (s.hold k true) dis msg))
        refine hi.resolves hidle hl rfl (fun d => Finset.mem_insert_of_mem) rfl rfl rfl ?_ ?_ rfl
        · exact fun _ => ⟨Finset.mem_insert_self c _, connCurrent_filed hi.obj.index hok⟩
        · intro g hg
          cases hg
          rfl

theorem workerFails_lifeInv (hi : LifeInv tr s) (hidle : s.calls c = .idle) (who : Who) :
    LifeInv (tr ++ [.resolved c k (s.session.connID k)])
      ((s.setConn k ((s.conns k).setWorker who .closing)).goto c
        (.force { s.hold k false with worker := some who })) :=
  hi.resolves hidle ((setWorker_local s k who .closing).trans (goto_local _ c _))
    rfl (fun _ => id) rfl
    rfl rfl nofun nofun rfl

end Resolve

end DueServer.Ws
