import DueServer.GateModel
import DueServer.SessionIndex

/-! What one step of the gates can do: the session operations as updates of the token slots
and of the token each user is bound with, and every step of a call listed once. -/
namespace DueServer

open Function (update_self update_of_ne update)

namespace Session

variable {κ : Type} {s s' : Session κ}

variable {uid cid : ℤ} {t : Token} {c : κ}

theorem boundToken_eq_some :
    s.boundToken uid = some t ↔ ∃ c, s.users uid = some c ∧ s.tokens (s.connID c) = t := by
  simp [boundToken]

theorem IndexInv.bound_valid (hs : IndexInv s)
    (h : s.boundToken uid = some t) : t.uid = uid ∧ t.generation ≠ 0 ∧ t ≠ 0 := by
  obtain ⟨c, hc, rfl⟩ := boundToken_eq_some.mp h
  obtain ⟨-, -, huid, hgen⟩ := hs.users_conn uid c hc
  refine ⟨huid, hgen, fun h0 => hgen ?_⟩
  rw [h0, token_zero_generation]

theorem token_conn_ok (hs : IndexInv s) :
    s.token .conn cid = .ok t ↔ s.conns cid ≠ none ∧ s.tokens cid = t := by
  unfold token conn
  rcases h : s.conns cid with _ | c
  · simp
  · simp [hs.conns_key cid c h]

theorem token_user_ok : s.token .user uid = .ok t ↔ s.boundToken uid = some t := by
  unfold token conn boundToken
  cases s.users uid <;> simp

theorem isCurrent_iff :
    s.isCurrent t = true ↔ t.uid ≠ 0 ∧ t.generation ≠ 0 ∧ s.boundToken t.uid = some t := by
  unfold isCurrent boundToken
  split
  · tauto
  cases s.users t.uid with
  | none => simp
  | some =>
    simp only [decide_eq_true_eq, Option.map_some, Option.some.injEq]
    tauto

variable [DecidableEq κ]

/-- `BindToken` on the views: one slot and one user change, and the user that the
connection carried before, if any, is left without a binding. -/
theorem bindToken_views (hs : IndexInv s) (h : s.bindToken cid uid t = .ok s') :
    s'.conns = s.conns ∧ s'.tokens = update s.tokens cid t ∧
      s'.generations = update s.generations uid (max (s.generations uid) t.generation) ∧
      ∃ c, s.conns cid = some c ∧ ∀ u, s'.boundToken u =
        if u = uid then some t else if s.users u = some c then none else s.boundToken u := by
  obtain ⟨hpos, htok, hgen, c, hc, rfl⟩ := bindToken_ok h
  have hcid := hs.conns_key cid c hc
  have hu := fun u => bindTokenConn_users s c uid t hs u
  obtain ⟨users, heap, heq, hid, -, -⟩ := bindTokenConn_eq s c uid t
  rw [heq] at hu ⊢
  simp only at hu
  refine ⟨rfl, by rw [hcid], rfl, c, hc, fun u => ?_⟩
  simp only [boundToken, hu u, connID, hid]
  by_cases huid : u = uid
  · simp [huid]
  simp only [huid]
  by_cases huc : s.users u = some c
  · simp [huc]
  simp only [huc]
  rcases hd : s.users u with _ | d
  · rfl
  -- another connection's slot is not the one written
  have hne : (s.heap d).id ≠ (s.heap c).id := fun he =>
    huc (hd.trans (congrArg some (hs.id_injective d c he)))
  simp [update_of_ne hne]

theorem unbind_views (h : s.unbind uid = .ok (cid, s')) :
    s'.conns = s.conns ∧ s'.tokens = s.tokens ∧ s'.generations = s.generations ∧
      s.boundToken uid = some (s.tokens cid) ∧
      ∀ u, s'.boundToken u = if u = uid then none else s.boundToken u := by
  obtain ⟨c, hc, rfl, rfl⟩ := unbind_ok h
  refine ⟨rfl, rfl, rfl, boundToken_eq_some.mpr ⟨c, hc, rfl⟩, fun u => ?_⟩
  have hid : ∀ d, connID { s.setUID c 0 with users := update s.users uid none } d =
      s.connID d := fun d => connID_setUID s c d 0
  by_cases hu : u = uid
  · simp [boundToken, hu]
  simp only [boundToken, hid, update_of_ne hu, hu]
  rfl

theorem remConnWithToken_views (hs : IndexInv s) (hc : s.conns (s.connID c) = some c)
    (h : s.remConnWithToken c = ((uid, t), s')) :
    s'.conns = update s.conns (s.connID c) none ∧
      s'.tokens = update s.tokens (s.connID c) 0 ∧
      s'.generations = s.generations ∧ t = s.tokens (s.connID c) ∧
      (uid ≠ 0 → s.boundToken uid = some t) ∧
      (∀ u, s'.boundToken u = if uid ≠ 0 ∧ u = uid then none else s.boundToken u) := by
  obtain ⟨ch, heq⟩ := s.remConnWithToken_eq c
  rw [heq] at h
  obtain ⟨⟨rfl, rfl⟩, rfl⟩ := h
  have hown : s.connUID c ≠ 0 → s.users (s.connUID c) = some c := hs.conn_users c hc
  refine ⟨rfl, rfl, rfl, rfl, fun h0 => boundToken_eq_some.mpr ⟨c, hown h0, rfl⟩, fun u => ?_⟩
  have hoth : u ≠ s.connUID c → s.users u ≠ some c := fun hne hu =>
    hne (hs.users_conn u c hu).2.1.symm
  simp only [boundToken, connID]
  by_cases hu : s.connUID c ≠ 0 ∧ u = s.connUID c
  · obtain ⟨hne, rfl⟩ := hu
    simp [hne, hown hne]
  rw [if_neg hu]
  have huc : s.users u ≠ some c := by
    by_cases hz : s.connUID c = 0
    · intro hu'
      exact hs.users_ne_zero u c hu' ((hs.users_conn u c hu').2.1.symm.trans hz)
    · exact hoth fun he => hu ⟨hz, he⟩
  have huse : (if s.connUID c ≠ 0 ∧ s.users (s.connUID c) = some c then
      update s.users (s.connUID c) none else s.users) u = s.users u := by
    split
    · rename_i h
      rw [update_of_ne fun he => hu ⟨h.1, he⟩]
    · rfl
  rw [huse]
  rcases hd : s.users u with _ | d
  · rfl
  have hne : (s.heap d).id ≠ (s.heap c).id := fun he =>
    huc (hd.trans (congrArg some (hs.id_injective d c he)))
  simp [update_of_ne hne]

theorem connect_eq (s : Session κ) (c : κ) : s.connect c = { s with
    conns := update s.conns (s.connID c) (some c)
    heap := update s.heap c ⟨s.connID c, 0, []⟩ } := by
  unfold connect
  rw [addConn_unbound (by simp [connUID])]
  simp [connID]

theorem connID_connect (s : Session κ) (c d : κ) : (s.connect c).connID d = s.connID d := by
  rw [connect_eq]
  by_cases h : d = c
  · subst h
    simp [connID]
  · simp [connID, update_of_ne h]

theorem connect_views (s : Session κ) (c : κ) :
    (s.connect c).conns = update s.conns (s.connID c) (some c) ∧
      (s.connect c).tokens = s.tokens ∧ (s.connect c).generations = s.generations ∧
      (s.connect c).users = s.users ∧ ∀ u, (s.connect c).boundToken u = s.boundToken u := by
  refine ⟨?_, ?_, ?_, ?_, fun u => ?_⟩
  · rw [connect_eq]
  · rw [connect_eq]
  · rw [connect_eq]
  · rw [connect_eq]
  · simp only [boundToken, connID_connect]
    rw [connect_eq]

theorem connect_inv (hs : IndexInv s) (hc : s.conns (s.connID c) = none) :
    IndexInv (s.connect c) := by
  have hfr : ∀ u, s.users u ≠ some c := fun u hu => by
    have := (hs.users_conn u c hu).1
    rw [hc] at this
    cases this
  have hkey : ∀ d, s.connID d = s.connID c → d = c := fun d => hs.id_injective d c
  have huid : ∀ d, (s.connect c).connUID d = if d = c then 0 else s.connUID d := by
    intro d
    rw [connect_eq]
    by_cases h : d = c
    · simp [connUID, h]
    · simp [connUID, h]
  obtain ⟨hcon, htok, -, huse, -⟩ := connect_views s c
  refine ⟨⟨?_, ?_⟩, ?_, ?_, ?_⟩ <;>
    simp only [hcon, htok, huse, connID_connect, huid]
  · intro u d hd
    have hold := hs.users_conn u d hd
    have hne : d ≠ c := fun he => hfr u (he ▸ hd)
    rw [if_neg hne, update_of_ne fun he => hne (hkey d he)]
    exact hold
  · intro d hd h0
    have hne : d ≠ c := fun he => h0 (if_pos he)
    rw [if_neg hne] at h0 ⊢
    rw [update_of_ne fun he => hne (hkey d he)] at hd
    exact hs.conn_users d hd h0
  · intro cid d hd
    by_cases he : cid = s.connID c
    · subst he
      rw [update_self] at hd
      cases hd
      rfl
    rw [update_of_ne he] at hd
    exact hs.conns_key cid d hd
  · exact hs.users_ne_zero
  · exact hs.id_injective

end Session

namespace OwnershipStore

variable {σ : Type} {L : LawfulStore σ} {reply : Reply} {st st' : σ} {uid : ℤ} {t : Token}

theorem acquireReply_ok (h : L.acquireReply reply st uid = (.ok t, st')) :
    L.acquire st uid = (.ok t, st') := by
  cases reply with
  | ok => exact h
  | failed => simp [acquireReply] at h

theorem acquireReply_moves (reply : Reply) (st : σ) (uid : ℤ) :
    L.Moves st (L.acquireReply reply st uid).2 := by
  cases reply with
  | ok => exact .acquired uid
  | failed executed =>
    cases executed with
    | false => exact .same
    | true => exact .acquired uid

theorem acquireReply_error {err : DueErr} (h : L.acquireReply .ok st uid = (.error err, st')) :
    L.owner st' = L.owner st ∧ L.issued st' = L.issued st :=
  L.acquire_error st st' uid err h

theorem currentReply_ok {o : Option Token} (h : L.currentReply reply st uid = .ok o) :
    o = L.owner st uid := by
  cases reply with
  | ok => exact L.current_ok st uid o h
  | failed => cases h

theorem releaseReply_moves (reply : Reply) (st : σ) (uid : ℤ) (t : Token) :
    L.Moves st (L.releaseReply reply st uid t).2 := by
  cases reply with
  | ok => exact .released uid t
  | failed executed =>
    cases executed with
    | false => exact .same
    | true => exact .released uid t

theorem owner_of_releaseReply {u : ℤ} {t' : Token}
    (h : L.owner (L.releaseReply reply st uid t).2 u = some t') : L.owner st u = some t' := by
  cases reply with
  | ok => exact LawfulStore.owner_of_release h
  | failed executed =>
    cases executed with
    | false => exact h
    | true => exact LawfulStore.owner_of_release h

theorem owner_of_releaseSession {u : ℤ} {t' : Token}
    (h : L.owner (L.releaseSession reply st t).2 u = some t') : L.owner st u = some t' := by
  unfold releaseSession at h
  split at h
  · exact h
  · exact owner_of_releaseReply h

theorem releaseSession_moves (reply : Reply) (st : σ) (t : Token) :
    L.Moves st (L.releaseSession reply st t).2 := by
  unfold releaseSession
  split
  · exact .same
  · exact releaseReply_moves reply st t.uid t

theorem releaseSession_of_valid (hpos : 0 < t.uid) (hgen : t.generation ≠ 0) :
    L.releaseSession reply st t = L.releaseReply reply st t.uid t := by
  unfold releaseSession
  rw [if_neg]
  rintro (h | h)
  · omega
  · exact hgen h

end OwnershipStore

namespace Cluster

variable {γ κ σ : Type} [DecidableEq γ] [DecidableEq κ]

/-- The stages at which a call can end without having touched anything: the connection or
the user is not there, or the answer from the network is an error. -/
def MayGiveUp : Stage → Prop
  | .localToken _ | .current _ _ | .unbindToken _ | .unbindSession _ _ | .unbindGate _ _ => True
  | _ => False

/-- The steps of a call: from a stage, with an event, to the next stage; the last argument
is the state after the step, up to the stage of the call itself. -/
inductive Next (L : LawfulStore σ) (s : Cluster γ κ σ) (i : ℕ) (g : γ) (reply : Reply) :
    Stage → Event γ → Stage → Cluster γ κ σ → Prop where
  | giveUp (stage : Stage) (err : DueErr) (hst : MayGiveUp stage) :
      Next L s i g reply stage .silent (.returned (some err)) s
  | readLocal (b : BindArgs) (l : Token) (h : (s.gate g).token .conn b.cid = .ok l)
      (huid : l.uid = b.uid) :
      Next L s i g reply (.localToken b) .silent (.isCurrent b l) s
  | readOther (b : BindArgs) (l : Token) (h : (s.gate g).token .conn b.cid = .ok l) :
      Next L s i g reply (.localToken b) .silent (.acquire b l) s
  | seen (b : BindArgs) (l : Token) (h : (s.gate g).isCurrent l = true) :
      Next L s i g reply (.isCurrent b l) (.sawCurrent i g b.uid l) (.current b l) s
  | notCurrent (b : BindArgs) (l : Token) :
      Next L s i g reply (.isCurrent b l) .silent (.acquire b l) s
  | keepToken (b : BindArgs) (l : Token) (h : L.owner s.store b.uid = some l) :
      Next L s i g reply (.current b l) .silent (bindDone b l) s
  | notOwner (b : BindArgs) (l : Token) :
      Next L s i g reply (.current b l) .silent (.acquire b l) s
  | acquireFails (b : BindArgs) (l : Token) (err : DueErr) (store : σ)
      (h : L.acquireReply reply s.store b.uid = (.error err, store)) :
      Next L s i g reply (.acquire b l) .silent (.returned (some err)) { s with store := store }
  | acquires (b : BindArgs) (l t : Token) (store : σ)
      (h : L.acquire s.store b.uid = (.ok t, store)) :
      Next L s i g reply (.acquire b l) .silent (.bindToken b l t) { s with store := store }
  | bindFails (b : BindArgs) (l t : Token) (err : DueErr)
      (h : (s.gate g).bindToken b.cid b.uid t = .error err) :
      Next L s i g reply (.bindToken b l t) .silent (.releaseNew b t err) s
  | binds (b : BindArgs) (l t : Token) (sess : Session κ)
      (h : (s.gate g).bindToken b.cid b.uid t = .ok sess) :
      Next L s i g reply (.bindToken b l t) (.boundToken i g b.cid b.uid t)
        (bindTokenDone b l t) (s.setGate g sess)
  | releasesNew (b : BindArgs) (t : Token) (err : DueErr) :
      Next L s i g reply (.releaseNew b t err) .silent (.returned (some err))
        { s with store := (L.releaseReply reply s.store b.uid t).2 }
  | releasesOld (b : BindArgs) (l t : Token) :
      Next L s i g reply (.releaseOld b l t) .silent (bindDone b t)
        { s with store := (L.releaseReply reply s.store l.uid l).2 }
  | locates (uid : ℤ) (t : Token) :
      Next L s i g reply (.bindGate uid t) (.boundGate i g uid t) (.returned none)
        { s with locator := bindGate s.locator uid g }
  | locateUnsure (uid : ℤ) (t : Token) (err : DueErr) (hr : reply ≠ .ok) :
      Next L s i g reply (.bindGate uid t) (.boundGate i g uid t) (.rollbackUnbind uid t err)
        { s with locator := bindGate s.locator uid g }
  | locateFails (uid : ℤ) (t : Token) (err : DueErr) (hr : reply ≠ .ok) :
      Next L s i g reply (.bindGate uid t) .silent (.rollbackUnbind uid t err) s
  | rollbackNothing (uid : ℤ) (t : Token) (err : DueErr) :
      Next L s i g reply (.rollbackUnbind uid t err) .silent (.rollbackRelease t err) s
  | rollsBack (uid : ℤ) (t : Token) (err : DueErr) (cid : ℤ) (sess : Session κ)
      (h : (s.gate g).unbind uid = .ok (cid, sess)) :
      Next L s i g reply (.rollbackUnbind uid t err)
        (.unbound i g uid t ((s.gate g).tokens cid)) (.rollbackRelease t err) (s.setGate g sess)
  | rollbackReleases (t : Token) (err : DueErr) :
      Next L s i g reply (.rollbackRelease t err) .silent (.returned (some err))
        { s with store := (L.releaseSession reply s.store t).2 }
  | readUser (uid : ℤ) (t : Token) (h : (s.gate g).boundToken uid = some t) :
      Next L s i g reply (.unbindToken uid) (.sawCurrent i g uid t) (.unbindRelease uid t) s
  | unbindReleaseFails (uid : ℤ) (t : Token) (err : DueErr) :
      Next L s i g reply (.unbindRelease uid t) .silent (.returned (some err))
        { s with store := (L.releaseSession reply s.store t).2 }
  | unbindReleases (uid : ℤ) (t : Token) :
      Next L s i g reply (.unbindRelease uid t) .silent (.unbindSession uid t)
        { s with store := (L.releaseSession reply s.store t).2 }
  | unbinds (uid : ℤ) (t : Token) (cid : ℤ) (sess : Session κ)
      (h : (s.gate g).unbind uid = .ok (cid, sess)) :
      Next L s i g reply (.unbindSession uid t) (.unbound i g uid t ((s.gate g).tokens cid))
        (.unbindGate uid t) (s.setGate g sess)
  | unlocates (uid : ℤ) (t : Token) (err : Option DueErr) :
      Next L s i g reply (.unbindGate uid t) (.unboundGate i g uid t) (.returned err)
        { s with locator := unbindGate s.locator uid g }
  | disconnectUnlocates (uid : ℤ) (t : Token) :
      Next L s i g reply (.disconnectGate uid t) (.unboundGate i g uid t) (.disconnectRelease t)
        { s with locator := unbindGate s.locator uid g }
  | disconnectFails (uid : ℤ) (t : Token) :
      Next L s i g reply (.disconnectGate uid t) .silent (.disconnectRelease t) s
  | disconnectReleases (t : Token) :
      Next L s i g reply (.disconnectRelease t) .silent (.returned none)
        { s with store := (L.releaseSession reply s.store t).2 }

variable {L : LawfulStore σ} {s s₁ s' : Cluster γ κ σ} {i : ℕ} {g : γ} {reply : Reply}
  {stage stage' : Stage} {e : Event γ} {act : Action γ κ}

theorem Next.reached {e₁ : Event γ} (hn : Next L s i g reply stage e₁ stage' s₁)
    (h : some (s₁.goto i g stage', e₁) = some (s', e)) :
    ∃ stage' s₁, Next L s i g reply stage e stage' s₁ ∧ s' = s₁.goto i g stage' := by
  obtain ⟨rfl, rfl⟩ := h
  exact ⟨stage', s₁, hn, rfl⟩

theorem stepCall_next (h : s.stepCall L.toOwnershipStore i g reply stage = some (s', e)) :
    ∃ stage' s₁, Next L s i g reply stage e stage' s₁ ∧ s' = s₁.goto i g stage' := by
  cases stage with
  | localToken b =>
    simp only [stepCall] at h
    split at h
    · exact Next.reached (.giveUp _ _ trivial) h
    rename_i l hl
    split at h
    · rename_i hcur
      exact Next.reached (.readLocal b l hl hcur.1) h
    · exact Next.reached (.readOther b l hl) h
  | isCurrent b l =>
    simp only [stepCall] at h
    split at h
    · rename_i hcur
      exact Next.reached (.seen b l hcur) h
    · exact Next.reached (.notCurrent b l) h
  | current b l =>
    simp only [stepCall] at h
    split at h
    · exact Next.reached (.giveUp _ _ trivial) h
    rename_i o ho
    have hown := OwnershipStore.currentReply_ok ho
    split at h
    · rename_i hl
      exact Next.reached (.keepToken b l (hown.symm.trans hl)) h
    · exact Next.reached (.notOwner b l) h
  | acquire b l =>
    simp only [stepCall] at h
    split at h
    · rename_i err store ha
      exact Next.reached (.acquireFails b l err store ha) h
    rename_i t store ha
    exact Next.reached (.acquires b l t store (OwnershipStore.acquireReply_ok ha)) h
  | bindToken b l t =>
    simp only [stepCall] at h
    split at h
    · rename_i err hb
      exact Next.reached (.bindFails b l t err hb) h
    rename_i sess hb
    exact Next.reached (.binds b l t sess hb) h
  | releaseNew b t err =>
    exact Next.reached (.releasesNew b t err) h
  | releaseOld b l t =>
    exact Next.reached (.releasesOld b l t) h
  | bindGate uid t =>
    simp only [stepCall] at h
    split at h
    · exact Next.reached (.locates uid t) h
    · rename_i err
      exact Next.reached (.locateUnsure uid t err (by simp)) h
    rename_i err
    exact Next.reached (.locateFails uid t err (by simp)) h
  | rollbackUnbind uid t err =>
    simp only [stepCall] at h
    split at h
    · exact Next.reached (.rollbackNothing uid t err) h
    rename_i cid sess hu
    exact Next.reached (.rollsBack uid t err cid sess hu) h
  | rollbackRelease t err =>
    exact Next.reached (.rollbackReleases t err) h
  | unbindToken uid =>
    simp only [stepCall] at h
    split at h
    · exact Next.reached (.giveUp _ _ trivial) h
    rename_i t ht
    exact Next.reached (.readUser uid t (Session.token_user_ok.mp ht)) h
  | unbindRelease uid t =>
    simp only [stepCall] at h
    split at h
    · rename_i err store hr
      refine Next.reached (.unbindReleaseFails uid t err) ?_
      rwa [hr]
    rename_i released store hr
    refine Next.reached (.unbindReleases uid t) ?_
    rwa [hr]
  | unbindSession uid t =>
    simp only [stepCall] at h
    split at h
    · exact Next.reached (.giveUp _ _ trivial) h
    rename_i cid sess hu
    exact Next.reached (.unbinds uid t cid sess hu) h
  | unbindGate uid t =>
    simp only [stepCall] at h
    split at h
    · exact Next.reached (.unlocates uid t none) h
    · rename_i err
      exact Next.reached (.unlocates uid t (some err)) h
    · exact Next.reached (.giveUp _ _ trivial) h
  | disconnectGate uid t =>
    simp only [stepCall] at h
    split at h
    · exact Next.reached (.disconnectFails uid t) h
    · exact Next.reached (.disconnectUnlocates uid t) h
  | disconnectRelease t =>
    exact Next.reached (.disconnectReleases t) h
  | returned => cases h

omit [DecidableEq γ] [DecidableEq κ] in
theorem goto_calls {j : ℕ} {x : γ × Stage} (h : (s.goto i g stage).calls j = some x) :
    (j = i ∧ (g, stage) = x) ∨ (j ≠ i ∧ s.calls j = some x) := by
  by_cases hji : j = i
  · subst hji
    simp only [goto, update_self, Option.some.injEq] at h
    exact .inl ⟨rfl, h⟩
  simp only [goto, update_of_ne hji] at h
  exact .inr ⟨hji, h⟩

def Starts : Entry κ → Stage → Prop
  | .bindSession cid uid, stage => stage = .localToken ⟨cid, uid, false⟩
  | .bind cid uid, stage =>
    stage = .localToken ⟨cid, uid, true⟩ ∨ stage = .returned (some .errInvalidArgument)
  | .unbind uid, stage =>
    stage = .unbindToken uid ∨ stage = .returned (some .errInvalidArgument)
  | .handleDisconnect _, _ => False

inductive Transition (L : LawfulStore σ) (s : Cluster γ κ σ) :
    Action γ κ → Event γ → Cluster γ κ σ → Prop where
  | connect (g : γ) (c : κ) (h : (s.gate g).conns ((s.gate g).connID c) = none) :
      Transition L s (.connect g c) .silent (s.setGate g ((s.gate g).connect c))
  | start (i : ℕ) (g : γ) (entry : Entry κ) (stage : Stage) (hfree : s.calls i = none)
      (hst : Starts entry stage) :
      Transition L s (.call i g entry) .silent (s.goto i g stage)
  | disconnect (i : ℕ) (g : γ) (c : κ) (uid : ℤ) (t : Token) (sess : Session κ) (stage : Stage)
      (hfree : s.calls i = none) (hc : (s.gate g).conns ((s.gate g).connID c) = some c)
      (h : (s.gate g).remConnWithToken c = ((uid, t), sess))
      (hst : uid ≠ 0 ∧ stage = .disconnectGate uid t ∨ uid = 0 ∧ stage = .returned none) :
      Transition L s (.call i g (.handleDisconnect c)) .silent ((s.setGate g sess).goto i g stage)
  | next (i : ℕ) (reply : Reply) (g : γ) (stage : Stage) (e : Event γ) (stage' : Stage)
      (s₁ : Cluster γ κ σ) (hcall : s.calls i = some (g, stage))
      (hn : Next L s i g reply stage e stage' s₁) :
      Transition L s (.step i reply) e (s₁.goto i g stage')

theorem startCall_transition
    {entry : Entry κ} (hfree : s.calls i = none)
    (h : s.startCall i g entry = some (s', e)) : Transition L s (.call i g entry) e s' := by
  cases entry with
  | bindSession =>
    cases h
    exact .start i g _ _ hfree rfl
  | bind | unbind =>
    simp only [startCall] at h
    split at h
    · cases h
      exact .start i g _ _ hfree (.inr rfl)
    cases h
    exact .start i g _ _ hfree (.inl rfl)
  | handleDisconnect c =>
    simp only [startCall] at h
    split at h
    · rename_i hc
      rcases hrem : (s.gate g).remConnWithToken c with ⟨⟨uid, t⟩, sess⟩
      simp only [hrem] at h
      split at h
      · rename_i h0
        cases h
        exact .disconnect i g c uid t sess _ hfree hc hrem (.inl ⟨h0, rfl⟩)
      rename_i h0
      cases h
      exact .disconnect i g c uid t sess _ hfree hc hrem (.inr ⟨not_not.mp h0, rfl⟩)
    · cases h

theorem step_transition (h : s.step L.toOwnershipStore act = some (s', e)) :
    Transition L s act e s' := by
  cases act with
  | connect g c =>
    simp only [step] at h
    split at h
    · rename_i hc
      cases h
      exact .connect g c hc
    · cases h
  | call =>
    simp only [step] at h
    split at h
    · rename_i hfree
      exact startCall_transition hfree h
    · cases h
  | step i reply =>
    simp only [step] at h
    split at h
    · cases h
    rename_i g stage hcall
    obtain ⟨stage', s₁, hn, rfl⟩ := stepCall_next h
    exact .next i reply g stage e stage' s₁ hcall hn

theorem Transition.boundToken_inv {cid uid : ℤ} {t : Token}
    (ht : Transition L s act (.boundToken i g cid uid t) s') :
    ∃ reply b l, act = .step i reply ∧ s.calls i = some (g, .bindToken b l t) ∧
      b.cid = cid ∧ b.uid = uid := by
  cases ht with
  | next j reply g' stage _ stage' s₁ hcall hn =>
    cases hn with
    | binds b l => exact ⟨reply, b, l, rfl, hcall, rfl, rfl⟩

def BindingsEvolve (s : Cluster γ κ σ) (e : Event γ) (s₁ : Cluster γ κ σ) : Prop :=
  ∀ g u, (∃ i cid t, e = .boundToken i g cid u t ∧ (s₁.gate g).boundToken u = some t) ∨
    (∀ i cid t, e ≠ .boundToken i g cid u t) ∧
      ((s₁.gate g).boundToken u = (s.gate g).boundToken u ∨ (s₁.gate g).boundToken u = none)

omit [DecidableEq κ] in
theorem BindingsEvolve.of_setGate {sess : Session κ}
    (he : ∀ i g cid u t, e ≠ .boundToken i g cid u t)
    (h : ∀ u, sess.boundToken u = (s.gate g).boundToken u ∨ sess.boundToken u = none) :
    BindingsEvolve s e (s.setGate g sess) := by
  intro g' u
  refine .inr ⟨fun i cid t => he i g' cid u t, ?_⟩
  by_cases hg : g' = g
  · subst hg
    simpa only [setGate, update_self] using h u
  · exact .inl (by simp [setGate, hg])

omit [DecidableEq γ] [DecidableEq κ] in
theorem BindingsEvolve.of_gate_eq
    (he : ∀ i g cid u t, e ≠ .boundToken i g cid u t) (h : s₁.gate = s.gate) :
    BindingsEvolve s e s₁ := by
  intro g u
  exact .inr ⟨fun i cid t => he i g cid u t, .inl (by rw [h])⟩

theorem ite_none_cases {α : Type} (p : Prop) [Decidable p] (x : Option α) :
    (if p then none else x) = x ∨ (if p then none else x) = none := by
  by_cases h : p <;> simp [h]

theorem Next.bindings (hs : ∀ g, (s.gate g).IndexInv)
    (hn : Next L s i g reply stage e stage' s₁) : BindingsEvolve s e s₁ := by
  cases hn with
  | binds b l t sess h =>
    obtain ⟨-, -, -, c, -, hview⟩ := Session.bindToken_views (hs g) h
    intro g' u
    by_cases hg : g' = g
    · subst hg
      simp only [setGate, update_self, hview u]
      by_cases hu : u = b.uid
      · subst hu
        exact .inl ⟨i, b.cid, t, rfl, if_pos rfl⟩
      refine .inr ⟨fun j cid t' he => ?_, ?_⟩
      · cases he
        exact hu rfl
      · rw [if_neg hu]
        exact ite_none_cases _ _
    · refine .inr ⟨fun j cid t' he => ?_, .inl (by simp [setGate, hg])⟩
      cases he
      exact hg rfl
  | rollsBack uid t err cid sess h | unbinds uid t cid sess h =>
    obtain ⟨-, -, -, -, hview⟩ := Session.unbind_views h
    refine .of_setGate (by simp) fun u => ?_
    rw [hview u]
    exact ite_none_cases _ _
  | _ => exact .of_gate_eq (by simp) rfl

theorem Transition.bindings (hs : ∀ g, (s.gate g).IndexInv) (ht : Transition L s act e s') :
    BindingsEvolve s e s' := by
  cases ht with
  | connect g c =>
    exact .of_setGate (by simp) fun u =>
      .inl ((Session.connect_views (s.gate g) c).2.2.2.2 u)
  | start => exact .of_gate_eq (by simp) rfl
  | disconnect i g c uid t sess stage hfree hc h =>
    obtain ⟨-, -, -, -, -, hview⟩ := Session.remConnWithToken_views (hs g) hc h
    have hb : BindingsEvolve s .silent (s.setGate g sess) := by
      refine .of_setGate (by simp) fun u => ?_
      rw [hview u]
      exact ite_none_cases _ _
    exact hb
  | next i reply g stage _ stage' s₁ hcall hn => exact fun g' u => hn.bindings hs g' u

end Cluster

end DueServer
