import DueServer.SessionIndex

/-! The channels of the session table. A connection is a member of a channel when it is filed and
has the channel among its attributes, which is when the last `Subscribe` or `Unsubscribe` that named
it was a `Subscribe`. -/
namespace DueServer.Session

open Function (update_self update_of_ne update)

variable {κ : Type} [DecidableEq κ]

def publish (s : Session κ) (channel : String) : Finset κ := (s.channels channel).getD ∅

def Filed (s : Session κ) (c : κ) : Prop := s.conns (s.connID c) = some c

instance (s : Session κ) (c : κ) : Decidable (s.Filed c) :=
  inferInstanceAs (Decidable (s.conns (s.connID c) = some c))

inductive ChannelOp (κ : Type) where
  | addConn (conn : κ)
  | remConn (conn : κ)
  | bind (cid uid : ℤ)
  | bindToken (cid uid : ℤ) (token : Token)
  | unbind (uid : ℤ)
  | subscribe (member : Bool) (kind : Kind) (targets : List ℤ) (channel : String)

def after (s : Session κ) : ChannelOp κ → Session κ
  | .addConn conn => s.addConn conn
  | .remConn conn => s.remConn conn
  | .bind cid uid => match s.bind cid uid with
    | .ok s' => s'
    | .error _ => s
  | .bindToken cid uid token => s.apply (.bindToken cid uid token)
  | .unbind uid => s.apply (.unbind uid)
  | .subscribe member kind targets channel => s.subscribe member kind targets channel

def names (s : Session κ) (kind : Kind) (targets : List ℤ) (c : κ) : Bool :=
  targets.any fun target => decide ((s.conn kind target).toOption = some c)

/-- Whether the last `Subscribe` or `Unsubscribe` that named a connection was a `Subscribe`. -/
abbrev LastCall (κ : Type) := κ → String → Bool

def record (s : Session κ) (last : LastCall κ) : ChannelOp κ → LastCall κ
  | .subscribe member kind targets channel => fun c name =>
    if name = channel ∧ s.names kind targets c then member else last c name
  | _ => last

def lone (s : Session κ) (c : κ) : Prop := ∀ d, s.conns (s.connID c) = some d → d = c

/-- Ids are not shared, a connection that is added anew has no attributes, and `Bind` does not take
the uid 0. -/
def proper (s : Session κ) : ChannelOp κ → Prop
  | .addConn c => s.lone c ∧ (s.Filed c ∨ (s.heap c).attr = [])
  | .remConn c => s.lone c
  | .bind _ uid => uid ≠ 0
  | _ => True

def callRel (G : Session κ → ChannelOp κ → Prop) (p : Session κ × LastCall κ) (op : ChannelOp κ)
    (p' : Session κ × LastCall κ) : Prop :=
  G p.1 op ∧ p' = (p.1.after op, p.1.record p.2 op)

structure Exact (s : Session κ) (last : LastCall κ) : Prop where
  key : ∀ cid c, s.conns cid = some c → s.connID c = cid
  user : ∀ uid c, s.users uid = some c → uid ≠ 0 ∧ s.connUID c = uid ∧ s.Filed c
  member : ∀ name c, c ∈ s.publish name ↔ s.Filed c ∧ name ∈ (s.heap c).attr
  full : ∀ name, s.channels name ≠ some ∅
  attr : ∀ c name, name ∈ (s.heap c).attr ↔ last c name = true
  nodup : ∀ c, (s.heap c).attr.Nodup

variable {s s' : Session κ} {last : LastCall κ} {c : κ}

omit [DecidableEq κ] in
theorem addConn_exact (h : Exact s last) (hlone : s.lone c)
    (hnew : s.Filed c ∨ (s.heap c).attr = []) : Exact (s.addConn c) last := by
  obtain ⟨hkey, huser, hmem, hfull, hattr, hnd⟩ := h
  by_cases h0 : s.connUID c = 0
  on_goal 1 => rw [addConn_unbound h0]
  on_goal 2 => rw [addConn_bound h0]
  all_goals
    refine ⟨fun cid d => ?_, fun uid d => ?_, fun name d => ?_, hfull, hattr, hnd⟩
    all_goals
      simp only [publish, lone, Filed, connID, connUID] at *
      grind -linarith

section RemConn

theorem publish_doUnsubscribe (s : Session κ) (channel : String) (c : κ) (name : String) :
    (s.doUnsubscribe channel c).publish name =
      if name = channel then (s.publish channel).erase c else s.publish name := by
  unfold doUnsubscribe
  cases hcha : s.channels channel with
  | none =>
    have hem : s.publish channel = ∅ := by rw [publish, hcha, Option.getD_none]
    by_cases hname : name = channel
    · rw [if_pos hname, hname, hem, Finset.erase_empty]
    · rw [if_neg hname]
  | some conns =>
    have hcon : s.publish channel = conns := by rw [publish, hcha, Option.getD_some]
    change (update s.channels channel
      (if conns.erase c = ∅ then none else some (conns.erase c)) name).getD ∅ = _
    by_cases hname : name = channel
    · rw [if_pos hname, hname, update_self, hcon]
      split
      · rename_i hem
        exact hem.symm
      · rfl
    · rw [if_neg hname, update_of_ne hname]
      rfl

theorem doUnsubscribe_full (channel : String) (h : ∀ name, s.channels name ≠ some ∅)
    (name : String) :
    (s.doUnsubscribe channel c).channels name ≠ some ∅ := by
  have hname := h name
  unfold doUnsubscribe
  split
  · exact hname
  · grind -linarith

theorem foldl_doUnsubscribe (c : κ) (channels : List String) (s : Session κ)
    (h : ∀ name, s.channels name ≠ some ∅) :
    let t := channels.foldl (fun s channel => s.doUnsubscribe channel c) s
    (∀ name d, d ∈ t.publish name ↔ d ∈ s.publish name ∧ (d = c → name ∉ channels)) ∧
      ∀ name, t.channels name ≠ some ∅ := by
  induction channels generalizing s with
  | nil => exact ⟨fun name d => by simp, h⟩
  | cons channel channels ih =>
    obtain ⟨hmem, hfull⟩ := ih (s.doUnsubscribe channel c) (doUnsubscribe_full channel h)
    refine ⟨fun name d => ?_, hfull⟩
    have hd := hmem name d
    rw [publish_doUnsubscribe] at hd
    grind -linarith

theorem remConn_exact (h : Exact s last) (hlone : s.lone c) : Exact (s.remConn c) last := by
  obtain ⟨hkey, huser, hmem, hfull, hattr, hnd⟩ := h
  obtain ⟨ch, heq⟩ := s.remConnWithToken_eq c
  have hch : (∀ name d, d ∈ (s.remConn c).publish name ↔
      d ∈ s.publish name ∧ (d = c → name ∉ (s.heap c).attr)) ∧
      ∀ name, (s.remConn c).channels name ≠ some ∅ := by
    unfold remConn remConnWithToken
    simp only
    split
    all_goals exact foldl_doUnsubscribe c (s.heap c).attr _ hfull
  rw [remConn, heq] at hch ⊢
  refine ⟨fun cid d => ?_, fun uid d => ?_, fun name d => ?_, hch.2, hattr, hnd⟩
  · simp only [connID] at *
    grind -linarith
  · simp only [lone, Filed, connID, connUID] at *
    grind -linarith
  · simp only [lone, Filed, connID] at *
    grind -linarith

end RemConn

section Bind

theorem attr_setUID (s : Session κ) (c : κ) (uid : ℤ) (d : κ) :
    ((s.setUID c uid).heap d).attr = (s.heap d).attr := by
  change (update s.heap c { s.heap c with uid := uid } d).attr = _
  by_cases hd : d = c
  · rw [hd, update_self]
  · rw [update_of_ne hd]

theorem attr_bindTokenConn (s : Session κ) (c : κ) (uid : ℤ) (token : Token) (d : κ) :
    ((s.bindTokenConn c uid token).heap d).attr = (s.heap d).attr := by
  have hlea : (s.leaveUser c uid).heap = s.heap := by
    unfold leaveUser
    simp only
    split <;> rfl
  have hevi : ∀ t : Session κ, ((t.evictUser c uid).heap d).attr = (t.heap d).attr := by
    intro t
    unfold evictUser
    split
    · split
      · exact t.attr_setUID _ 0 d
      · rfl
    · rfl
  unfold bindTokenConn
  split
  · rfl
  · rw [attr_setUID, hevi, hlea]

omit [DecidableEq κ] in
theorem Exact.rebind (h : Exact s last) (hcon : s'.conns = s.conns)
    (hcha : s'.channels = s.channels)
    (hid : ∀ d, s'.connID d = s.connID d) (hattr : ∀ d, (s'.heap d).attr = (s.heap d).attr)
    (huser : ∀ uid d, s'.users uid = some d → uid ≠ 0 ∧ s'.connUID d = uid ∧ s.Filed d) :
    Exact s' last := by
  have hfil : ∀ d, s'.Filed d ↔ s.Filed d := fun d => by rw [Filed, Filed, hcon, hid]
  refine ⟨fun cid d hd => ?_, fun uid d hd => ?_, fun name d => ?_, hcha ▸ h.full, fun d name => ?_,
    fun d => hattr d ▸ h.nodup d⟩
  · rw [hid]
    exact h.key cid d (hcon ▸ hd)
  · rw [hfil]
    exact huser uid d hd
  · rw [publish, hcha, hfil, hattr]
    exact h.member name d
  · rw [hattr]
    exact h.attr d name

variable {uid cid : ℤ}

theorem bindTokenConn_exact (token : Token) (h : Exact s last) (hc : s.Filed c)
    (huid : uid ≠ 0) : Exact (s.bindTokenConn c uid token) last := by
  have hattr := s.attr_bindTokenConn c uid token
  obtain ⟨users, heap, heq, hid, huids, huse⟩ := bindTokenConn_eq s c uid token
  rw [heq] at hattr ⊢
  refine h.rebind rfl rfl hid hattr fun u d hd => ?_
  have hold := h.user u d
  have huniq := h.user uid d
  simp only [connUID] at *
  grind -linarith

theorem bind_exact (h : Exact s last) (huid : uid ≠ 0) (hbind : s.bind cid uid = .ok s') :
    Exact s' last := by
  unfold bind at hbind
  split at hbind
  · cases hbind
  rename_i c hc
  have hc := conn_conn_ok.mp hc
  split at hbind
  · cases hbind
    exact h
  cases hbind
  have hgens : Exact (s.nextGeneration uid).2 last :=
    h.rebind rfl rfl (fun _ => rfl) (fun _ => rfl) h.user
  have hfil : s.Filed c := by rwa [Filed, h.key cid c hc]
  exact bindTokenConn_exact _ hgens hfil huid

theorem bindToken_exact {token : Token} (h : Exact s last)
    (hbind : s.bindToken cid uid token = .ok s') : Exact s' last := by
  obtain ⟨hpos, -, -, c, hc, rfl⟩ := bindToken_ok hbind
  have hfil : s.Filed c := by rwa [Filed, h.key cid c hc]
  have hbnd := bindTokenConn_exact token h hfil (by omega : uid ≠ 0)
  exact hbnd.rebind rfl rfl (fun _ => rfl) (fun _ => rfl) hbnd.user

theorem unbind_exact (h : Exact s last) (hunb : s.unbind uid = .ok (cid, s')) : Exact s' last := by
  obtain ⟨c, hc, -, rfl⟩ := unbind_ok hunb
  refine h.rebind rfl rfl (fun d => connID_setUID s c d 0) (s.attr_setUID c 0) fun u d hd => ?_
  have hold := h.user u d
  have hcold := h.user uid c hc
  simp only [setUID, connUID] at *
  grind -linarith

end Bind

section Subscribe

theorem Exact.change {attr : List String} {name : String} {member : Bool}
    {channels : String → Option (Finset κ)} (h : Exact s last) (hc : s.Filed c)
    (hattr : ∀ n, n ∈ attr ↔ if n = name then member = true else n ∈ (s.heap c).attr)
    (hnd : attr.Nodup) (hfull : ∀ n, channels n ≠ some ∅)
    (hmem : ∀ n d, d ∈ (channels n).getD ∅ ↔
      if n = name ∧ d = c then member = true else d ∈ s.publish n) :
    Exact { s with heap := update s.heap c { s.heap c with attr := attr }, channels := channels }
      fun d n => if n = name ∧ d = c then member else last d n := by
  obtain ⟨hkey, huser, hold, -, hlast, hdup⟩ := h
  have hid : ∀ d, (update s.heap c { s.heap c with attr := attr } d).id = (s.heap d).id := by
    grind -linarith
  have huid : ∀ d, (update s.heap c { s.heap c with attr := attr } d).uid = (s.heap d).uid := by
    grind -linarith
  have hat : ∀ d, (update s.heap c { s.heap c with attr := attr } d).attr =
      if d = c then attr else (s.heap d).attr := by
    grind -linarith
  refine ⟨?_, ?_, fun n d => ?_, hfull, fun d n => ?_, fun d => ?_⟩ <;>
    simp only [connID, connUID, Filed, hid, huid]
  · exact hkey
  · exact huser
  · rw [publish]
    simp only [Filed, connID] at *
    grind -linarith
  · grind -linarith
  · grind -linarith

theorem subscribeConn_exact (channel : String) (h : Exact s last) (hc : s.Filed c) :
    Exact (s.subscribeConn channel c)
      fun d n => if n = channel ∧ d = c then true else last d n := by
  have hdup := h.nodup c
  refine h.change hc ?_ ?_ ?_ ?_
  · grind -linarith
  · grind -linarith
  · intro n
    have hn := h.full n
    by_cases hname : n = channel
    · subst hname
      simp
    · rwa [update_of_ne hname]
  · intro n d
    by_cases hname : n = channel
    · simp only [publish]
      grind -linarith
    · simp [publish, hname]

theorem unsubscribeConn_exact (channel : String) (h : Exact s last) (hc : s.Filed c) :
    Exact (s.unsubscribeConn channel c)
      fun d n => if n = channel ∧ d = c then false else last d n := by
  have hdup := h.nodup c
  unfold unsubscribeConn
  split
  · let t : Session κ := { s with
      heap := update s.heap c { s.heap c with attr := (s.heap c).attr.erase channel } }
    have hpub := t.publish_doUnsubscribe channel c
    have hfull := doUnsubscribe_full (s := t) (c := c) channel h.full
    obtain ⟨ch, heq⟩ := t.doUnsubscribe_fields channel c
    rw [heq] at hpub hfull ⊢
    refine h.change hc ?_ (hdup.erase _) hfull ?_
    · grind -linarith [List.Nodup.mem_erase_iff]
    · intro n d
      change d ∈ ({ t with channels := ch } : Session κ).publish n ↔ _
      rw [hpub n]
      change (d ∈ if n = channel then (s.publish channel).erase c else s.publish n) ↔ _
      grind -linarith
  · have hlast : (fun d n => if n = channel ∧ d = c then false else last d n) = last := by
      have hd := h.attr c channel
      grind -linarith
    rw [hlast]
    exact h

omit [DecidableEq κ] in
theorem conn_filed (h : Exact s last) {kind : Kind} {target : ℤ} (hc : s.conn kind target = .ok c) :
    s.Filed c := by
  cases kind with
  | conn =>
    have hc := conn_conn_ok.mp hc
    rwa [Filed, h.key target c hc]
  | user => exact (h.user target c (conn_user_ok.mp hc)).2.2
  | other k => cases hc

theorem conn_doUnsubscribe (s : Session κ) (channel : String) (kind : Kind) (target : ℤ) :
    (s.doUnsubscribe channel c).conn kind target = s.conn kind target := by
  obtain ⟨ch, heq⟩ := s.doUnsubscribe_fields channel c
  rw [heq]
  rfl

theorem conn_body (member : Bool) (channel : String) (kind : Kind) (target : ℤ) :
    (if member then s.subscribeConn channel c else s.unsubscribeConn channel c).conn kind target =
      s.conn kind target := by
  cases member with
  | true => rfl
  | false =>
    simp only [Bool.false_eq_true, if_false]
    unfold unsubscribeConn
    split
    · rw [conn_doUnsubscribe]
      rfl
    · rfl

theorem body_exact (member : Bool) (channel : String) (h : Exact s last) (hc : s.Filed c) :
    Exact (if member then s.subscribeConn channel c else s.unsubscribeConn channel c)
      fun d n => if n = channel ∧ d = c then member else last d n := by
  cases member with
  | true => exact subscribeConn_exact channel h hc
  | false => exact unsubscribeConn_exact channel h hc

theorem subscribe_exact (member : Bool) (kind : Kind) (targets : List ℤ) (channel : String)
    (h : Exact s last) : Exact (s.subscribe member kind targets channel)
      (s.record last (.subscribe member kind targets channel)) := by
  -- every target changes what is recorded of the connection it leads to
  induction targets generalizing s last with
  | nil => simpa [record, names, subscribe] using h
  | cons target targets ih =>
    unfold subscribe
    rw [List.foldl_cons]
    cases hc : s.conn kind target with
    | error e =>
      have hrec : s.record last (.subscribe member kind (target :: targets) channel) =
          s.record last (.subscribe member kind targets channel) := by
        simp [record, names, hc, Except.toOption]
      rw [hrec]
      exact ih h
    | ok c =>
      have hnext := ih (body_exact member channel h (conn_filed h hc))
      have hrec : s.record last (.subscribe member kind (target :: targets) channel) =
          (if member then s.subscribeConn channel c else s.unsubscribeConn channel c).record
            (fun d n => if n = channel ∧ d = c then member else last d n)
            (.subscribe member kind targets channel) := by
        simp only [record, names, conn_body, Except.toOption]
        grind -linarith
      rw [hrec]
      exact hnext

end Subscribe

theorem after_exact {op : ChannelOp κ} (h : Exact s last) (hop : s.proper op) :
    Exact (s.after op) (s.record last op) := by
  cases op with
  | addConn c => exact addConn_exact h hop.1 hop.2
  | remConn c => exact remConn_exact h hop
  | bind cid uid =>
    simp only [after]
    split
    · rename_i t hbind
      exact bind_exact h hop hbind
    · exact h
  | bindToken cid uid token =>
    simp only [after, apply]
    split
    · rename_i t hbind
      exact bindToken_exact h hbind
    · exact h
  | unbind uid =>
    simp only [after, apply]
    split
    · rename_i cid t hunb
      exact unbind_exact h hunb
    · exact h
  | subscribe member kind targets channel => exact subscribe_exact member kind targets channel h

omit [DecidableEq κ] in
theorem newSession_exact (heap : κ → ConnObj) (hattr : ∀ c, (heap c).attr = []) :
    Exact (newSession heap) fun _ _ => false := by
  refine ⟨nofun, nofun, fun name c => ?_, nofun, fun c name => ?_, fun c => ?_⟩
  · simp [publish, newSession, Filed]
  · simp [newSession, hattr c]
  · simp [newSession, hattr c]

/-- After any calls that are all proper, the members of a channel are the filed connections that
have it among their attributes, which are those of which the last call was a `Subscribe`. -/
theorem channels_exact (heap : κ → ConnObj) (hattr : ∀ c, (heap c).attr = [])
    {ops : List (ChannelOp κ)} {p : Session κ × LastCall κ}
    (h : Lib.Run (callRel proper) (newSession heap, fun _ _ => false) ops p) :
    (∀ name c, c ∈ p.1.publish name ↔ p.1.Filed c ∧ name ∈ (p.1.heap c).attr) ∧
    (∀ name, p.1.channels name ≠ some ∅) ∧
    (∀ name c, ¬ p.1.Filed c → c ∉ p.1.publish name) ∧
    ∀ name c, c ∈ p.1.publish name ↔ p.1.Filed c ∧ p.2 c name = true := by
  have hex : Exact p.1 p.2 := by
    refine Lib.run_invariant (fun _ p => Exact p.1 p.2) (newSession_exact heap hattr) ?_ h
    rintro _ q op _ hq ⟨hop, rfl⟩
    exact after_exact hq hop
  refine ⟨hex.member, hex.full, fun name c hc hmem => ?_, fun name c => ?_⟩
  · exact hc ((hex.member name c).mp hmem).1
  · rw [hex.member name c, hex.attr c name]

def subscribed : Session Bool × LastCall Bool :=
  let s := (newSession (twoConns 0)).after (.addConn false)
  (s.after (.subscribe true .conn [1, 2, 1] "news"),
    s.record (fun _ _ => false) (.subscribe true .conn [1, 2, 1] "news"))

theorem subscribed_channels_exact : Lib.Run (callRel proper)
    (newSession (twoConns 0), fun _ _ => false)
      [.addConn false, .subscribe true .conn [1, 2, 1] "news"] subscribed ∧
    subscribed.1.publish "news" = {false} ∧
    (∀ name c, c ∈ subscribed.1.publish name ↔
      subscribed.1.Filed c ∧ name ∈ (subscribed.1.heap c).attr) ∧
    (∀ name, subscribed.1.channels name ≠ some ∅) ∧
    (∀ name c, ¬ subscribed.1.Filed c → c ∉ subscribed.1.publish name) ∧
    ∀ name c, c ∈ subscribed.1.publish name ↔ subscribed.1.Filed c ∧
      subscribed.2 c name = true := by
  have hrun : Lib.Run (callRel proper) (newSession (twoConns 0), fun _ _ => false)
      [.addConn false, .subscribe true .conn [1, 2, 1] "news"] subscribed :=
    .snoc (.snoc .nil ⟨⟨(fun d h => by cases h), .inr rfl⟩, rfl⟩) ⟨trivial, rfl⟩
  exact ⟨hrun, by decide +kernel, channels_exact (twoConns 0) (fun _ => rfl) hrun⟩

/-- A connection is removed and added again: it keeps the attribute and has lost the membership. And
one that is bound to user 5, then to user 0, and removed: it is subscribed after that. -/
theorem removed_channels_fail :
    let again := [.addConn false, .subscribe true .conn [1] "news", .remConn false,
      .addConn false].foldl after
      (newSession (twoConns 0))
    let gone := [.addConn false, .bind 1 5, .bind 1 0, .remConn false,
      .subscribe true .user [0] "news"].foldl
      after (newSession (twoConns 0))
    again.Filed false ∧ "news" ∈ (again.heap false).attr ∧ false ∉ again.publish "news" ∧
      gone.conns 1 = none ∧ false ∈ gone.publish "news" := by
  refine ⟨?_, ?_, ?_, ?_, ?_⟩ <;> decide +kernel

end DueServer.Session
