import DueServer.WsSteps

/-! A session operation that acts without the session lock hits the lifetime it was resolved to
exactly when the object has not been handed out again in between. -/
namespace DueServer.Ws

open Session (IndexInv)
open Function Lib

variable {tr : List Event} {s s' : Server} {e : Event} {c : ℕ} {k : Obj}

section Pool

theorem unused_of_not_live (hi : LifeInv tr s) (hk : s.place k ≠ .live) :
    (∀ cid, s.session.conns cid ≠ some k) ∧ (∀ so, s.partition so ≠ some k) ∧
      (s.conns k).state = .closed ∧ (s.conns k).conn = none ∧
      ∀ d, (s.calls d).closer? ≠ some k ∧ ¬ (s.calls d).allocs k := by
  refine ⟨fun cid h => hk (hi.obj.filed_live cid k h), fun so h => hk (hi.obj.part so k h).2, ?_,
    ?_, fun d => ⟨fun h => hk ((hi.call d).closer k h).2, ?_⟩⟩
  · by_contra hopen
    exact hk (hi.obj.open_live k hopen)
  · rcases hconn : (s.conns k).conn with _ | so
    · rfl
    · exact absurd (hi.obj.conn_id k so hconn).2 hk
  · rintro ⟨so, hso⟩
    exact hk ((hi.call d).alloc k so hso).2.1

theorem allocate_other {j : Obj} (hj : j ≠ k) :
    (s.allocate c k).1.session.heap j = s.session.heap j ∧
      (s.allocate c k).1.conns j = s.conns j ∧ (s.allocate c k).1.place j = s.place j := by
  simp [Server.allocate, Server.goto, update_of_ne hj]

theorem allocate_self : (s.allocate c k).1.session.connID k = s.id + 1 ∧
    (s.allocate c k).1.session.connUID k = 0 ∧ (s.allocate c k).1.place k = .live ∧
      (s.allocate c k).1.conns k =
        ⟨.opened, some (s.id + 1), [], [], false, .running, .running⟩ := by
  simp [Server.allocate, Server.goto, Session.connID, Session.connUID]

section

variable (hi : LifeInv tr s) (hk : s.place k ≠ .live)

include hi hk

theorem allocate_objInv : ObjInv (s.allocate c k).1 := by
  obtain ⟨hunf, hunp, -, -, -⟩ := unused_of_not_live hi hk
  obtain ⟨hid, -, hlive, hconn⟩ := allocate_self
  have hcon : ∀ j ≠ k, (s.allocate c k).1.session.connID j = s.session.connID j := by
    intro j hj
    rw [Session.connID, (allocate_other hj).1]
    rfl
  refine ⟨?_, ?_, ?_, ?_, ?_, ?_⟩
  · -- ids only grow, so nobody has the new one
    refine hi.obj.index.renew hunf ?_
    intro d _ hd
    have hle := hi.obj.id_le d
    dsimp only at hd
    omega
  · intro j
    change _ ≤ s.id + 1
    by_cases hj : j = k
    · rw [hj, hid]
    rw [hcon j hj]
    exact (hi.obj.id_le j).trans (by omega)
  · intro cid j hj
    have hjk : j ≠ k := fun hjk => hunf cid (hjk ▸ hj)
    rw [(allocate_other hjk).2.2]
    exact hi.obj.filed_live cid j hj
  · intro so j hj
    have hjk : j ≠ k := fun hjk => hunp so (hjk ▸ hj)
    rw [(allocate_other hjk).2.2, hcon j hjk]
    exact hi.obj.part so j hj
  · intro j hj
    by_cases hjk : j = k
    · rw [hjk, hlive]
    rw [(allocate_other hjk).2.1] at hj
    rw [(allocate_other hjk).2.2]
    exact hi.obj.open_live j hj
  · intro j so hj
    by_cases hjk : j = k
    · subst hjk
      rw [hconn] at hj
      cases hj
      exact ⟨hid, hlive⟩
    rw [(allocate_other hjk).2.1] at hj
    rw [(allocate_other hjk).2.2, hcon j hjk]
    exact hi.obj.conn_id j so hj

theorem allocate_frame {d : ℕ} :
    CallInv (tr ++ [.allocated k (s.id + 1)]) (s.allocate c k).1 d (s.calls d) := by
  obtain ⟨-, -, -, -, hunu⟩ := unused_of_not_live hi hk
  obtain ⟨hncl, hnal⟩ := hunu d
  obtain ⟨hid, -⟩ := allocate_self (s := s) (c := c) (k := k)
  have hc := hi.call d
  have hclr : ∀ j, (s.calls d).closer? = some j → j ≠ k := fun j hj hjk => hncl (hjk ▸ hj)
  have hmem : ∀ j cid, .resolved d j cid ∈ tr ++ [.allocated k (s.id + 1)] ↔
      .resolved d j cid ∈ tr := by
    intro j cid
    simp
  refine ⟨?_, ?_, hc.rlock, hc.sender, ?_, ?_, hc.recycle, ?_, ?_⟩
  · intro hidle j cid
    rw [hmem]
    exact hc.idle hidle j cid
  · intro g hg
    obtain ⟨hres, hle, hiff⟩ := hc.hold g hg
    refine ⟨fun j cid => (hmem j cid).trans (hres j cid), hle.trans (Int.le.intro 1 rfl), ?_⟩
    rw [reusedSince_snoc]
    by_cases hgk : g.conn = k
    · -- a call that holds the object now meets another id than it was resolved to
      rw [hgk]
      simp only [reuseStep, if_true, Bool.true_eq_false, iff_false]
      omega
    rw [Session.connID, (allocate_other hgk).1]
    simp only [reuseStep, if_neg (Ne.symm hgk)]
    exact hiff
  · intro j hj
    obtain ⟨-, hconn, hpl⟩ := allocate_other (hclr j hj)
    rw [hconn, hpl]
    exact hc.closer j hj
  · intro j so hj
    have hjk : j ≠ k := hclr j (Stage.closer_of_socket hj)
    obtain ⟨hheap, hconn, -⟩ := allocate_other hjk
    rw [hconn, Session.connID, hheap]
    exact hc.socket j so hj
  · intro j so hj
    have hjk : j ≠ k := fun hjk => hnal ⟨so, hjk ▸ hj⟩
    obtain ⟨hheap, -, hpl⟩ := allocate_other hjk
    rw [Session.connID, hheap, hpl]
    exact hc.alloc j so hj
  · intro j so hj
    have hjk : j ≠ k := fun hjk => hnal ⟨so, by rw [hj, hjk]; rfl⟩
    rw [Session.connUID, (allocate_other hjk).1]
    exact hc.fresh j so hj

theorem allocate_lifeInv : LifeInv (tr ++ [(s.allocate c k).2]) (s.allocate c k).1 := by
  obtain ⟨-, -, -, -, hunu⟩ := unused_of_not_live hi hk
  obtain ⟨hid, huid, hlive, -⟩ := allocate_self
  -- nothing has the new id yet
  have hnew : ∀ j, s.session.connID j ≠ s.id + 1 := by
    intro j hj
    have hle := hi.obj.id_le j
    omega
  refine hi.move rfl (allocate_objInv hi hk) ?_ (fun d _ => allocate_frame hi hk) nofun ?_
  · refine ⟨nofun, nofun, nofun, nofun, nofun, nofun, nofun, ?_, ?_⟩
    · intro j so hj
      cases hj
      refine ⟨hid, hlive, ?_⟩
      rcases hpart : s.partition (s.id + 1) with _ | j
      · exact hpart
      · exact absurd (hi.obj.part _ j hpart).1 (hnew j)
    · intro j so hj
      cases hj
      refine ⟨?_, huid⟩
      rcases hfil : s.session.conns (s.id + 1) with _ | j
      · exact hfil
      · exact absurd (hi.obj.index.conns_key _ j hfil) (hnew j)
  · rintro j ⟨so, hj⟩ d _
    cases hj
    exact (hunu d).2

end

/-- `reset` and `pool.Put`. -/
def Server.putBack (s : Server) (k : Obj) : Server :=
  { s with
    session := { s.session with
      heap := update s.session.heap k { s.session.heap k with attr := [] } }
    place := update s.place k .pooled }

theorem putBack_ids (j : Obj) : (s.putBack k).session.connID j = s.session.connID j ∧
    (s.putBack k).session.connUID j = s.session.connUID j := by
  simp only [Server.putBack, Session.connID, Session.connUID]
  by_cases hj : j = k
  · subst hj
    simp
  · simp [update_of_ne hj]

theorem putBack_place {j : Obj} (hk : s.place k ≠ .live) (hj : s.place j = .live) :
    (s.putBack k).place j = .live := by
  have hjk : j ≠ k := fun hjk => hk (hjk ▸ hj)
  simpa only [Server.putBack, update_of_ne hjk] using hj

theorem putBack_lifeInv (hi : LifeInv tr s) (hk : s.place k ≠ .live) :
    LifeInv (tr ++ [.silent]) (s.putBack k) := by
  have hid : ∀ j, (s.putBack k).session.connID j = s.session.connID j := fun j => (putBack_ids j).1
  have hlive : ∀ j, s.place j = .live → (s.putBack k).place j = .live := fun j => putBack_place hk
  refine hi.still rfl ?_ ?_
  · refine ⟨?_, ?_, ?_, ?_, ?_, ?_⟩
    · refine hi.obj.index.renew (unused_of_not_live hi hk).1 ?_
      exact fun d hd h => hd (hi.obj.index.id_injective d k h)
    · intro j
      rw [hid]
      exact hi.obj.id_le j
    · exact fun cid j hj => hlive j (hi.obj.filed_live cid j hj)
    · intro so j hj
      rw [hid]
      exact (hi.obj.part so j hj).imp_right (hlive j)
    · exact fun j hj => hlive j (hi.obj.open_live j hj)
    · intro j so hj
      rw [hid]
      exact (hi.obj.conn_id j so hj).imp_right (hlive j)
  · intro d
    have hc := hi.call d
    refine hc.frame le_rfl hid (fun _ _ => rfl) id (fun _ => rfl) ?_ ?_ hc.recycle ?_ ?_
    · exact fun j hj => (hc.closer j hj).imp_right (hlive j)
    · exact fun j so hj => (hc.socket j so hj).1
    · exact fun j so hj => (hc.alloc j so hj).2.imp_left (hlive j)
    · intro j so hj
      rw [(putBack_ids j).2]
      exact hc.fresh j so hj

end Pool

section Steps

variable {σ : Session Obj} {cid uid : ℤ}

theorem LifeInv.rebinds (hi : LifeInv tr s) (hloc : s.rlocks = ∅)
    (hidx : IndexInv σ) (hcon : σ.conns = s.session.conns)
    (hid : ∀ k, σ.connID k = s.session.connID k)
    (huid : ∀ k, s.session.conns (s.session.connID k) ≠ some k → s.session.connUID k = 0 →
      σ.connUID k = 0) : LifeInv (tr ++ [.silent]) { s with session := σ } := by
  refine hi.still rfl (hi.obj.session_step hidx hid ?_) ?_
  · rw [hcon]
    exact fun _ _ h => .inl h
  · intro d
    refine (hi.call d).session_step hloc hid ?_ ?_
    · rw [hcon]
      exact fun _ _ _ _ h => h
    · intro k so hk hfree h0
      have hkey := ((hi.call d).alloc k so (by rw [hk]; rfl)).1
      refine ⟨by rw [hcon, hfree], huid k ?_ h0⟩
      rw [hkey, hfree]
      nofun

theorem bindToken_lifeInv {token : Token} (hi : LifeInv tr s)
    (hloc : s.rlocks = ∅) (hok : s.session.bindToken cid uid token = .ok σ) :
    LifeInv (tr ++ [.silent]) { s with session := σ } := by
  have hidx := Session.bindToken_inv hi.obj.index hok
  obtain ⟨-, -, -, k, hk, rfl⟩ := Session.bindToken_ok hok
  have hkey := hi.obj.index.conns_key cid k hk
  obtain ⟨users, heap, heq, hid, huids, -⟩ := Session.bindTokenConn_eq s.session k uid token
  rw [heq] at hidx ⊢
  refine hi.rebinds hloc hidx rfl hid ?_
  intro j hj h0
  have hjk : j ≠ k := by
    rintro rfl
    exact hj (hkey ▸ hk)
  change (heap j).uid = 0
  rw [huids, if_neg hjk, show (s.session.heap j).uid = 0 from h0, ite_self]

theorem unbind_lifeInv (hi : LifeInv tr s)
    (hloc : s.rlocks = ∅) (hok : s.session.unbind uid = .ok (cid, σ)) :
    LifeInv (tr ++ [.silent]) { s with session := σ } := by
  have hidx := Session.unbind_inv hi.obj.index hok
  obtain ⟨k, -, -, rfl⟩ := Session.unbind_ok hok
  refine hi.rebinds hloc hidx rfl (fun j => Session.connID_setUID s.session k j 0) ?_
  intro j _ h0
  refine (Session.connUID_setUID s.session k j 0).trans ?_
  rw [h0, ite_self]

theorem LifeInv.works {o : ServerConn} (hi : LifeInv tr s) (hstt : o.state = (s.conns k).state)
    (hconn : o.conn = (s.conns k).conn) (he : ∀ d k b, reuseStep d k b e = b) :
    LifeInv (tr ++ [e]) (s.setConn k o) := by
  refine hi.local_still rfl (setConn_local ?_ ?_) rfl he
  · exact fun h => hstt.trans h
  · exact fun so h => hconn.symm.trans h

theorem write_lifeInv {socket : ℤ} (hi : LifeInv tr s) (hstep : s.write k socket = some (s', e)) :
    LifeInv (tr ++ [e]) s' := by
  rcases hhigh : (s.conns k).highPriorityQueue with _ | ⟨⟨msg⟩ | _, ts⟩ <;>
    rcases hlow : (s.conns k).lowPriorityQueue with _ | ⟨⟨msg⟩ | _, ts⟩ <;>
    simp only [Server.write, hhigh, hlow] at hstep <;>
    first | cases hstep | skip
  all_goals first
    | exact hi.works rfl rfl fun _ _ _ => rfl
    | (split at hstep <;> cases hstep <;> exact hi.works rfl rfl fun _ _ _ => rfl)

theorem step_lifeInv {act : Action} (hi : LifeInv tr s) (hstep : s.step act = some (s', e)) :
    LifeInv (tr ++ [e]) s' := by
  cases act with
  | allocate c k =>
    simp only [Server.step] at hstep
    split at hstep <;> cases hstep
    rename_i hfree
    refine allocate_lifeInv hi ?_
    rcases hfree.2 with hk | hk <;> rw [hk] <;> nofun
  | call c entry =>
    simp only [Server.step] at hstep
    split at hstep
    · rename_i hidle
      have hstr := startCall_lifeInv entry hi hidle
      rw [Option.some.inj hstep] at hstr
      exact hstr
    · cases hstep
  | workerFails c k who =>
    simp only [Server.step] at hstep
    split at hstep <;> cases hstep
    rename_i hfl
    exact workerFails_lifeInv hi hfl.1 who
  | next c r => exact stepCall_lifeInv hi hstep
  | write k =>
    simp only [Server.step] at hstep
    split at hstep
    · cases hstep
    split at hstep
    · exact write_lifeInv hi hstep
    · cases hstep
  | workerExit k who =>
    simp only [Server.step] at hstep
    split at hstep <;> cases hstep
    exact hi.local_still rfl (setWorker_local s k who .exited) rfl fun _ _ _ => rfl
  | put k =>
    simp only [Server.step] at hstep
    split at hstep <;> cases hstep
    rename_i hput
    refine putBack_lifeInv hi ?_
    rw [hput.1]
    nofun
  | bindToken cid uid token =>
    simp only [Server.step] at hstep
    split at hstep
    · rename_i hloc
      split at hstep <;> cases hstep
      rename_i hok
      exact bindToken_lifeInv hi hloc hok
    · cases hstep
  | unbind uid =>
    simp only [Server.step] at hstep
    split at hstep
    · rename_i hloc
      split at hstep <;> cases hstep
      rename_i hok
      exact unbind_lifeInv hi hloc hok
    · cases hstep

theorem init_lifeInv : LifeInv [] Server.init := by
  refine ⟨⟨?_, ?_, nofun, nofun, ?_, nofun⟩, fun _ => by constructor <;> nofun, nofun, ?_⟩
  · refine Session.newSession_inv _ ?_
    intro j k hjk
    exact Int.ofNat.inj (Int.neg_inj.mp hjk)
  · intro k
    change -(k : ℤ) ≤ 0
    omega
  · exact fun k hk => absurd rfl hk
  · rintro c d k ⟨so, hso⟩
    cases hso

abbrev serverRel : Server → Event → Server → Prop :=
  guardedRel Server.step fun _ _ => true

theorem run_lifeInv (hrun : Run serverRel Server.init tr s) : LifeInv tr s := by
  refine run_invariant LifeInv init_lifeInv ?_ hrun
  rintro tr s e s' hi ⟨act, -, hstep⟩
  exact step_lifeInv hi hstep

end Steps

section Acts

variable {r : Enqueue} {what : Act} {cid : ℤ}

theorem stepCall_event {st : Stage} (hstep : s.stepCall c r st = some (s', e)) :
    e = .silent ∨ ∃ h act, st.hold? = some h ∧ e = s.acted c h act ∧
      (act = .sent → st.sender? = some h) := by
  cases st <;> simp only [Server.stepCall] at hstep <;> (repeat' split at hstep) <;>
    cases hstep <;>
    first
      | exact .inl rfl
      | exact .inr ⟨_, _, rfl, rfl, fun _ => rfl⟩
      | exact .inr ⟨_, _, rfl, rfl, fun h => by cases h⟩

theorem startCall_event (entry : Entry) : (s.startCall c entry).2 = .silent ∨
    ∃ k, (s.startCall c entry).2 = .resolved c k (s.session.connID k) := by
  cases entry <;> simp only [Server.startCall] <;> (repeat' split) <;>
    first
      | exact .inl rfl
      | exact .inr ⟨_, rfl⟩

theorem write_event {socket : ℤ} (hstep : s.write k socket = some (s', e)) :
    e = .silent ∨ ∃ msg, e = .written socket msg := by
  simp only [Server.write] at hstep
  (repeat' split at hstep) <;> cases hstep <;>
    first
      | exact .inl rfl
      | exact .inr ⟨_, rfl⟩

theorem step_acted {act : Action} (hstep : s.step act = some (s', .acted c k cid what)) :
    cid = s.session.connID k ∧ ∃ h, (s.calls c).hold? = some h ∧ h.conn = k ∧
      (what = .sent → (s.calls c).sender? = some h) := by
  cases act <;> simp only [Server.step] at hstep
  case next =>
    rcases stepCall_event hstep with he | ⟨h, act, hh, he, hs⟩
    · cases he
    cases he
    exact ⟨rfl, h, hh, rfl, hs⟩
  case call d entry =>
    split at hstep
    · have he := congrArg Prod.snd (Option.some.inj hstep)
      rcases startCall_event entry with h | ⟨j, h⟩ <;>
        cases h.symm.trans he
    · cases hstep
  case write =>
    split at hstep
    · cases hstep
    split at hstep
    · rcases write_event hstep with h | ⟨msg, h⟩ <;> cases h
    · cases hstep
  all_goals (repeat' split at hstep) <;> cases hstep

/-- A push, send or close that acts in some run acts on the lifetime it was resolved to if and
only if `allocate` has not taken the object again since then. `Send` always does: it runs
under the session's read lock. -/
theorem acts_on_resolved_iff_not_reused {act : Action} (hrun : Run serverRel Server.init tr s)
    (hstep : s.step act = some (s', .acted c k cid what)) :
    ∃ cid₀, (∀ j cid', .resolved c j cid' ∈ tr ↔ j = k ∧ cid' = cid₀) ∧
      (cid = cid₀ ↔ reusedSince tr c k = false) ∧ (what = .sent → cid = cid₀) := by
  have hi := run_lifeInv hrun
  obtain ⟨rfl, h, hh, rfl, hsent⟩ := step_acted hstep
  obtain ⟨hmem, -, hiff⟩ := (hi.call c).hold h hh
  refine ⟨h.cid, hmem, hiff, ?_⟩
  intro hw
  -- the connection is still filed, because removing it needs the write lock
  have hr := (hi.call c).sender h (hsent hw)
  exact hi.obj.index.conns_key h.cid h.conn ((hi.call c).rlock h hh hr).2

def lookedUp : List Action :=
  [.allocate 0 0, .next 0 .ok, .next 0 .ok, .call 1 (.push .conn 1 false [104, 105])]

def replaced : List Action :=
  [.workerFails 2 0 .reader, .next 2 .ok, .next 2 .ok, .next 2 .ok, .next 2 .ok,
    .workerExit 0 .writer, .put 0, .allocate 3 0, .next 3 .ok, .next 3 .ok]

def pushToResolved : List Action := lookedUp ++ [.next 1 .ok]

def pushToSuccessor : List Action := lookedUp ++ replaced ++ [.next 1 .ok]

def scheduleRun (acts : List Action) : Option (List Event × Server) :=
  exec Server.step (fun _ _ => true) Server.init acts

theorem pushToResolved_isSome : (scheduleRun pushToResolved).isSome = true := rfl

/-- The message for client 1 is queued on the connection of client 2 and goes out there. -/
theorem push_reaches_pooled_successor : ∃ tr s s' s'', Run serverRel Server.init tr s ∧
    .resolved 1 0 1 ∈ tr ∧ s.step (.next 1 .ok) = some (s', .acted 1 0 2 .pushed) ∧
      s'.step (.write 0) = some (s'', .written 2 [104, 105]) :=
  ⟨_, _, _, _, run_of_exec pushToSuccessor rfl, by decide +kernel, by rfl, by rfl⟩

theorem acts_on_resolved_pushToResolved : ∃ tr s s', Run serverRel Server.init tr s ∧
    s.step (.next 1 .ok) = some (s', .acted 1 0 1 .pushed) ∧
    ∃ cid₀, (∀ j cid', .resolved 1 j cid' ∈ tr ↔ j = 0 ∧ cid' = cid₀) ∧
      ((1 : ℤ) = cid₀ ↔ reusedSince tr 1 0 = false) ∧ (Act.pushed = .sent → (1 : ℤ) = cid₀) := by
  have hrun : Run serverRel Server.init _ _ := run_of_exec _ pushToResolved_isSome
  obtain ⟨s', hstep⟩ : ∃ s', ((scheduleRun pushToResolved).get pushToResolved_isSome).2.step
      (.next 1 .ok) = some (s', .acted 1 0 1 .pushed) := ⟨_, by rfl⟩
  exact ⟨_, _, s', hrun, hstep, acts_on_resolved_iff_not_reused hrun hstep⟩

end Acts

end DueServer.Ws
