import DueServer.SessionIndex

/-! A token that is no longer the binding in force cannot reach a connection, whatever
happens after it was replaced. The history of calls decides which binding is in force; the
table is shown to follow it. -/
namespace DueServer.Session

open List Function

variable {κ : Type} [DecidableEq κ]

-- `op` is a `BindToken` that succeeds in `s` and binds `t` to `c`
def Installs (s : Session κ) (op : Op κ) (c : κ) (t : Token) : Prop :=
  ∃ cid, op = .bindToken cid t.uid t ∧ s.conns cid = some c ∧ 0 < t.uid ∧ t.generation ≠ 0

/-- The calls that end the binding of `c` made with `t`: a binding of the same user, a
rebinding of `c`, an `Unbind` of the user, and the removal of `c`. -/
def Revokes (s : Session κ) (op : Op κ) (c : κ) (t : Token) : Prop :=
  (∃ d t', Installs s op d t' ∧ (t'.uid = t.uid ∨ d = c)) ∨ op = .unbind t.uid ∨ op = .remConn c

inductive InForce (heap : κ → ConnObj) : List (Op κ) → κ → Token → Prop where
  | install {ops : List (Op κ)} {op : Op κ} {c : κ} {t : Token} :
      Installs (applyAll heap ops) op c t → InForce heap (ops ++ [op]) c t
  | keep {ops : List (Op κ)} {op : Op κ} {c : κ} {t : Token} :
      InForce heap ops c t → ¬ Revokes (applyAll heap ops) op c t → InForce heap (ops ++ [op]) c t

/-- `t` was in force at some moment of the history and was ended after it. -/
inductive Revoked (heap : κ → ConnObj) : List (Op κ) → Token → Prop where
  | revoke {ops : List (Op κ)} {op : Op κ} {c : κ} {t : Token} :
      InForce heap ops c t → Revokes (applyAll heap ops) op c t → Revoked heap (ops ++ [op]) t
  | keep {ops : List (Op κ)} {op : Op κ} {t : Token} :
      Revoked heap ops t → Revoked heap (ops ++ [op]) t

-- the history of a gate whose tokens come from an ownership store
def StoreFed (heap : κ → ConnObj) (ops : List (Op κ)) : Prop :=
  (∀ cid uid h, Op.bind cid uid h ∉ ops) ∧
    ∀ pre c, pre ++ [Op.addConn c] <+: ops → (applyAll heap pre).connUID c = 0

-- the generations handed to `BindToken` increase for each user
def GenerationsIncrease (ops : List (Op κ)) : Prop :=
  ops.Pairwise fun a b => ∀ cid cid' uid t t', a = .bindToken cid uid t →
    b = .bindToken cid' uid t' → t.generation < t'.generation

theorem applyAll_snoc (heap : κ → ConnObj) (ops : List (Op κ)) (op : Op κ) :
    applyAll heap (ops ++ [op]) = (applyAll heap ops).apply op := by
  simp [applyAll]

variable {heap : κ → ConnObj} {ops : List (Op κ)} {op : Op κ} {s : Session κ} {c : κ}
  {t token : Token} {kind : Kind} {target : ℤ} {net : ConnEffect κ → Option DueErr}
  {e : ConnEffect κ}

theorem StoreFed.init (h : StoreFed heap (ops ++ [op])) : StoreFed heap ops := by
  refine ⟨fun cid uid hpos hmem => h.1 cid uid hpos (mem_append_left _ hmem), ?_⟩
  intro pre c hp
  exact h.2 pre c (hp.trans (prefix_append _ _))

section History

variable {heap : κ → ConnObj} {ops : List (Op κ)} {op : Op κ} {c d : κ} {t : Token}

theorem InForce.mem (h : InForce heap ops c t) : ∃ cid, Op.bindToken cid t.uid t ∈ ops := by
  induction h with
  | install hi =>
    obtain ⟨cid, rfl, -⟩ := hi
    exact ⟨cid, by simp⟩
  | keep _ _ ih =>
    obtain ⟨cid, hm⟩ := ih
    exact ⟨cid, mem_append_left _ hm⟩

theorem Revoked.mem (h : Revoked heap ops t) : ∃ cid, Op.bindToken cid t.uid t ∈ ops := by
  induction h with
  | revoke hf _ =>
    obtain ⟨cid, hm⟩ := hf.mem
    exact ⟨cid, mem_append_left _ hm⟩
  | keep _ ih =>
    obtain ⟨cid, hm⟩ := ih
    exact ⟨cid, mem_append_left _ hm⟩

omit [DecidableEq κ] in
/-- A token is handed to `BindToken` once. -/
theorem GenerationsIncrease.once {cid cid' : ℤ} (hinc : GenerationsIncrease (ops ++ [op]))
    (hm : Op.bindToken cid t.uid t ∈ ops) (hop : op = .bindToken cid' t.uid t) : False := by
  have hlt := (pairwise_append.mp hinc).2.2 _ hm op (by simp) cid cid' t.uid t t rfl hop
  exact lt_irrefl _ hlt

omit [DecidableEq κ] in
theorem GenerationsIncrease.init (hinc : GenerationsIncrease (ops ++ [op])) :
    GenerationsIncrease ops := (pairwise_append.mp hinc).1

theorem snoc_inj {α : Type} {xs ys : List α} {x y : α} (h : xs ++ [x] = ys ++ [y]) :
    xs = ys ∧ x = y := by
  obtain ⟨h1, h2⟩ := append_inj' h rfl
  exact ⟨h1, by simpa using h2⟩

theorem InForce.snoc_cases (h : InForce heap (ops ++ [op]) c t) :
    Installs (applyAll heap ops) op c t ∨
      InForce heap ops c t ∧ ¬Revokes (applyAll heap ops) op c t := by
  generalize hxs : ops ++ [op] = xs at h
  cases h with
  | install hi =>
    obtain ⟨rfl, rfl⟩ := snoc_inj hxs
    exact .inl hi
  | keep hk hnot =>
    obtain ⟨rfl, rfl⟩ := snoc_inj hxs
    exact .inr ⟨hk, hnot⟩

theorem InForce.unique (hinc : GenerationsIncrease ops) (hc : InForce heap ops c t)
    (hd : InForce heap ops d t) : c = d := by
  induction hc with
  | @install ops op c t hi =>
    obtain ⟨cid, hop, hcid, -⟩ := hi
    rcases hd.snoc_cases with ⟨cid', hop', hcid', -⟩ | ⟨hk, -⟩
    · rw [hop] at hop'
      cases hop'
      exact Option.some.inj (hcid.symm.trans hcid')
    obtain ⟨cid', hm⟩ := hk.mem
    exact (hinc.once hm hop).elim
  | @keep ops op c t hk _ ih =>
    rcases hd.snoc_cases with ⟨cid', hop', -⟩ | ⟨hk', -⟩
    · obtain ⟨cid, hm⟩ := hk.mem
      exact (hinc.once hm hop').elim
    · exact ih hinc.init hk'

theorem Revoked.not_inForce (hinc : GenerationsIncrease ops) (hr : Revoked heap ops t) (d : κ) :
    ¬ InForce heap ops d t := by
  intro hd
  induction hr with
  | @revoke ops op c t hf hrev =>
    rcases hd.snoc_cases with ⟨cid, hop, -⟩ | ⟨hk, hnot⟩
    · obtain ⟨cid', hm⟩ := hf.mem
      exact hinc.once hm hop
    rw [hf.unique hinc.init hk] at hrev
    exact hnot hrev
  | @keep ops op t hr' ih =>
    rcases hd.snoc_cases with ⟨cid, hop, -⟩ | ⟨hk, -⟩
    · obtain ⟨cid', hm⟩ := hr'.mem
      exact hinc.once hm hop
    · exact ih hinc.init hk

end History

/-- Each index entry is the binding in force of its connection. Connections may share an id
here, so the token slot is only compared while it names the indexed user. -/
def FollowsHistory (heap : κ → ConnObj) (ops : List (Op κ)) (s : Session κ) : Prop :=
  ∀ u c, s.users u = some c → s.connUID c = u ∧ u ≠ 0 ∧
    ∃ t, t.uid = u ∧ InForce heap ops c t ∧
      ((s.tokens (s.connID c)).uid = u → s.tokens (s.connID c) = t)

section Follows

variable {heap : κ → ConnObj} {ops : List (Op κ)}

variable {s' : Session κ} {c : κ} {uid cid : ℤ}

section

variable (h : FollowsHistory heap ops (applyAll heap ops))

include h

-- an entry survives a call that does not revoke it and leaves its uid and token alone
theorem FollowsHistory.survive {op : Op κ} {u : ℤ} (hu : (applyAll heap ops).users u = some c)
    (hrev : ∀ t : Token, t.uid = u → ¬ Revokes (applyAll heap ops) op c t)
    (huid : s'.connUID c = (applyAll heap ops).connUID c)
    (htok : (s'.tokens (s'.connID c)).uid = u →
      s'.tokens (s'.connID c) = (applyAll heap ops).tokens ((applyAll heap ops).connID c)) :
    s'.connUID c = u ∧ u ≠ 0 ∧ ∃ t, t.uid = u ∧ InForce heap (ops ++ [op]) c t ∧
      ((s'.tokens (s'.connID c)).uid = u → s'.tokens (s'.connID c) = t) := by
  obtain ⟨hcu, hu0, t, ht, hf, htc⟩ := h u c hu
  refine ⟨huid.trans hcu, hu0, t, ht, InForce.keep hf (hrev t ht), ?_⟩
  intro hslot
  have he := htok hslot
  rw [he] at hslot ⊢
  exact htc hslot

theorem follows_addConn (h0 : (applyAll heap ops).connUID c = 0) :
    FollowsHistory heap (ops ++ [.addConn c]) ((applyAll heap ops).addConn c) := by
  rw [addConn_unbound h0]
  intro u d hd
  apply h.survive hd
  · rintro t - (⟨d', t', ⟨cid, hop, -⟩, -⟩ | hop | hop) <;> cases hop
  · rfl
  · intro _
    rfl

theorem follows_remConn :
    FollowsHistory heap (ops ++ [.remConn c]) ((applyAll heap ops).remConn c) := by
  obtain ⟨ch, heq⟩ := (applyAll heap ops).remConnWithToken_eq c
  unfold remConn
  rw [heq]
  intro u d hd
  have hd' : (applyAll heap ops).users u = some d ∧ d ≠ c := by
    by_cases hcur : (applyAll heap ops).connUID c ≠ 0 ∧
        (applyAll heap ops).users ((applyAll heap ops).connUID c) = some c
    · simp only [if_pos hcur] at hd
      by_cases hu : u = (applyAll heap ops).connUID c
      · subst hu
        simp at hd
      rw [update_of_ne hu] at hd
      refine ⟨hd, ?_⟩
      rintro rfl
      exact hu (h u d hd).1.symm
    · simp only [if_neg hcur] at hd
      refine ⟨hd, ?_⟩
      rintro rfl
      obtain ⟨hcu, hu0, -⟩ := h u d hd
      exact hcur (by rw [hcu]; exact ⟨hu0, hd⟩)
  have hu0 := (h u d hd'.1).2.1
  apply h.survive hd'.1
  · rintro t - (⟨d', t', ⟨cid, hop, -⟩, -⟩ | hop | hop)
    · cases hop
    · cases hop
    · cases hop
      exact hd'.2 rfl
  · rfl
  · -- a slot that was cleared reads as the zero token, which names no user
    intro hslot
    change Token.uid (update (applyAll heap ops).tokens
      ((applyAll heap ops).connID c) 0 ((applyAll heap ops).connID d)) = u at hslot
    change update (applyAll heap ops).tokens
      ((applyAll heap ops).connID c) 0 ((applyAll heap ops).connID d) = _
    by_cases hid : (applyAll heap ops).connID d = (applyAll heap ops).connID c
    · rw [hid, update_self] at hslot
      exact (hu0 hslot.symm).elim
    · rw [update_of_ne hid]

theorem follows_unbind (hs : (applyAll heap ops).unbind uid = .ok (cid, s')) :
    FollowsHistory heap (ops ++ [.unbind uid]) s' := by
  obtain ⟨c, hc, -, rfl⟩ := unbind_ok hs
  intro u d hd
  by_cases hu : u = uid
  · subst hu
    simp at hd
  simp only [update_of_ne hu] at hd
  have hne : d ≠ c := by
    rintro rfl
    exact hu ((h u d hd).1.symm.trans (h uid d hc).1)
  apply h.survive hd
  · rintro t ht (⟨d', t', ⟨cid, hop, -⟩, -⟩ | hop | hop)
    · cases hop
    · simp only [Op.unbind.injEq] at hop
      exact hu (ht.symm.trans hop.symm)
    · cases hop
  · change ((applyAll heap ops).setUID c 0).connUID d = _
    rw [connUID_setUID, if_neg hne]
  · intro _
    change (applyAll heap ops).tokens (((applyAll heap ops).setUID c 0).connID d) = _
    rw [connID_setUID]

theorem follows_bindToken {token : Token}
    (hs : (applyAll heap ops).bindToken cid uid token = .ok s') :
    FollowsHistory heap (ops ++ [.bindToken cid uid token]) s' := by
  obtain ⟨hpos, rfl, hgen, c, hc, rfl⟩ := bindToken_ok hs
  obtain ⟨users, nheap, heq, hid, huids, huse⟩ :=
    bindTokenConn_eq (applyAll heap ops) c token.uid token
  have hi : Installs (applyAll heap ops) (.bindToken cid token.uid token) c token :=
    ⟨cid, rfl, hc, hpos, hgen⟩
  intro u d hd
  simp only [heq, huse u] at hd
  by_cases hu : u = token.uid
  · subst hu
    simp only [if_true, Option.some.injEq] at hd
    subst hd
    refine ⟨?_, by omega, token, rfl, InForce.install hi, ?_⟩
    · simp [heq, connUID, huids]
    · simp [heq, connID, hid]
  · simp only [if_neg hu] at hd
    have hd' : (applyAll heap ops).users u = some d ∧ d ≠ c := by
      split at hd
      · cases hd
      rename_i hstay
      refine ⟨hd, ?_⟩
      rintro rfl
      obtain ⟨hcu, hu0, -⟩ := h u d hd
      exact hstay ⟨hu0, hcu, hd⟩
    have hoth : (applyAll heap ops).users token.uid ≠ some d := fun hd2 =>
      hu ((h u d hd'.1).1.symm.trans (h token.uid d hd2).1)
    apply h.survive hd'.1
    · rintro t ht (⟨d', t', ⟨cid', hop, hd2, -⟩, hor⟩ | hop | hop)
      · simp only [Op.bindToken.injEq] at hop
        obtain ⟨rfl, -, rfl⟩ := hop
        rcases hor with he | he
        · exact hu (ht.symm.trans he.symm)
        · exact hd'.2 (he ▸ Option.some.inj (hd2.symm.trans hc))
      · cases hop
      · cases hop
    · simp [heq, connUID, huids, hd'.2, hoth]
    · -- a connection that shares the id of `c` loses the slot to another user
      intro hslot
      simp only [heq, connID, hid] at hslot ⊢
      by_cases hk : (applyAll heap ops).connID d = (applyAll heap ops).connID c
      · rw [connID, connID] at hk
        rw [hk, update_self] at hslot
        exact (hu hslot.symm).elim
      · exact update_of_ne hk _ _

end

end Follows

theorem bindToken_succeeds (h : Installs s op c t) : ∃ cid s', op = .bindToken cid t.uid t ∧
      s.bindToken cid t.uid t = .ok s' := by
  obtain ⟨cid, hop, hc, hpos, hgen⟩ := h
  have hfil : s.conns cid ≠ none := by simp [hc]
  obtain ⟨s', hs'⟩ := bindToken_filed hfil hpos rfl hgen
  exact ⟨cid, s', hop, hs'⟩

-- a call that fails neither changes the table nor ends a binding
theorem follows_failed (h : FollowsHistory heap ops (applyAll heap ops))
    (hrev : ∀ u c (t : Token), (applyAll heap ops).users u = some c → t.uid = u →
      ¬ Revokes (applyAll heap ops) op c t) :
    FollowsHistory heap (ops ++ [op]) (applyAll heap ops) := by
  intro u c hu
  exact h.survive hu (fun t ht => hrev u c t hu ht) rfl fun _ => rfl

theorem follows_applyAll (heap : κ → ConnObj) (ops : List (Op κ)) (hops : StoreFed heap ops) :
    FollowsHistory heap ops (applyAll heap ops) := by
  induction ops using reverseRecOn with
  | nil =>
    intro u c h
    cases h
  | append_singleton ops op ih =>
    have h := ih hops.init
    rw [applyAll_snoc]
    cases op with
    | addConn c => exact follows_addConn h (hops.2 ops c prefix_rfl)
    | remConn c => exact follows_remConn h
    | bind cid uid hpos => exact (hops.1 cid uid hpos (by simp)).elim
    | bindToken cid uid token =>
      simp only [apply]
      split
      · rename_i s' hs
        exact follows_bindToken h hs
      rename_i e hs
      apply follows_failed h
      rintro u c t - - (⟨d, t', hi, -⟩ | hop | hop)
      · obtain ⟨cid', s', hop, hok⟩ := bindToken_succeeds hi
        obtain ⟨rfl, rfl, rfl⟩ := hop
        rw [hok] at hs
        cases hs
      · cases hop
      · cases hop
    | unbind uid =>
      simp only [apply]
      split
      · rename_i cid s' hs
        exact follows_unbind h hs
      rename_i e hs
      apply follows_failed h
      rintro u c t hu ht (⟨d, t', ⟨cid, hop, -⟩, -⟩ | hop | hop)
      · cases hop
      · simp only [Op.unbind.injEq] at hop
        subst hop ht
        simp [unbind, conn_user_ok.mpr hu] at hs
      · cases hop

theorem connCurrent_ok (h : s.connCurrent kind target token = .ok c) :
    s.users token.uid = some c ∧ s.tokens (s.connID c) = token := by
  unfold connCurrent at h
  split at h
  · cases h
  split at h
  · cases h
  rename_i hcur
  cases h
  push Not at hcur
  exact hcur

theorem closeCurrent_effects {force : Bool}
    (he : e ∈ (s.closeCurrent net kind target token force).2) :
    s.users token.uid = some e.target ∧ s.tokens (s.connID e.target) = token := by
  unfold closeCurrent at he
  split at he
  · simp at he
  split at he
  · simp at he
  split at he
  · simp at he
  rename_i c hc
  have hec : e.target = c := by
    unfold perform at he
    split at he <;> simp only [mem_singleton] at he <;> rw [he] <;> rfl
  rw [hec]
  exact connCurrent_ok hc

theorem sendCurrent_effects {disconnect : Bool} {message : List UInt8}
    (he : e ∈ (s.sendCurrent net kind target token disconnect message).2) :
    s.users token.uid = some e.target ∧ s.tokens (s.connID e.target) = token := by
  unfold sendCurrent at he
  split at he
  · simp at he
  split at he
  · simp at he
  rename_i c hc
  have hec : e.target = c := by
    unfold performThenClose perform at he
    grind [ConnEffect.target]
  rw [hec]
  exact connCurrent_ok hc

/-- Some call that presents `t` performs `e`: `CloseCurrent` or `SendCurrent` of the
session, or `DisconnectCurrent` or a fenced `Push` of the provider, with any arguments and
any answers of the store and the network. -/
def TokenReaches (s : Session κ) (t : Token) (e : ConnEffect κ) : Prop :=
  ∃ net kind target,
    (∃ force, e ∈ (s.closeCurrent net kind target t force).2) ∨
    (∃ disconnect message, e ∈ (s.sendCurrent net kind target t disconnect message).2) ∨
    (∃ store force, e ∈ (providerDisconnectCurrent s store net kind target t force).2) ∨
    (t ≠ 0 ∧ ∃ store disconnect message,
      e ∈ (providerPush s store net kind target disconnect t message).2.1)

theorem tokenReaches_current (h : TokenReaches s t e) :
    s.users t.uid = some e.target ∧ s.tokens (s.connID e.target) = t := by
  obtain ⟨net, kind, target, ⟨force, he⟩ | ⟨disconnect, message, he⟩ | ⟨store, force, he⟩ |
    ⟨ht, store, disconnect, message, he⟩⟩ := h
  · exact closeCurrent_effects he
  · exact sendCurrent_effects he
  · unfold providerDisconnectCurrent at he
    split at he
    · simp at he
    · exact closeCurrent_effects he
  simp only [providerPush, ne_eq, ht, not_false_eq_true, if_true] at he
  split at he
  · simp at he
  · exact sendCurrent_effects he

/-- A call that presents `t` acts on a connection only while `t` is its most recent binding
and in force; after `t` was replaced or removed no such call acts on anything. -/
theorem stale_token_inert (heap : κ → ConnObj) (ops : List (Op κ)) (hops : StoreFed heap ops)
    (hinc : GenerationsIncrease ops) (t : Token) :
    (∀ e, TokenReaches (applyAll heap ops) t e → InForce heap ops e.target t) ∧
      (Revoked heap ops t → ∀ e, ¬ TokenReaches (applyAll heap ops) t e) := by
  have hfor : ∀ e, TokenReaches (applyAll heap ops) t e → InForce heap ops e.target t := by
    intro e he
    obtain ⟨hu, htok⟩ := tokenReaches_current he
    obtain ⟨-, -, t', -, hf, hslot⟩ := follows_applyAll heap ops hops _ _ hu
    rw [htok] at hslot
    rwa [hslot rfl]
  exact ⟨hfor, fun hr e he => hr.not_inForce hinc e.target (hfor e he)⟩

theorem storeFed_nil (heap : κ → ConnObj) : StoreFed heap [] := by
  refine ⟨by simp, fun pre c h => ?_⟩
  simp at h

theorem StoreFed.snoc (h : StoreFed heap ops) (op : Op κ)
    (hbind : ∀ cid uid hpos, op ≠ .bind cid uid hpos)
    (hadd : ∀ c, op = .addConn c → (applyAll heap ops).connUID c = 0) :
    StoreFed heap (ops ++ [op]) := by
  refine ⟨?_, ?_⟩
  · intro cid uid hpos hm
    rcases mem_append.mp hm with hm | hm
    · exact h.1 cid uid hpos hm
    · exact hbind cid uid hpos (mem_singleton.mp hm).symm
  · intro pre c hp
    rcases prefix_concat_iff.mp hp with he | hp
    · obtain ⟨rfl, rfl⟩ := snoc_inj he
      exact hadd c rfl
    · exact h.2 pre c hp

-- user 7 is bound on the first connection and then taken over by the second
def takeover : List (Op Bool) :=
  [.addConn false, .addConn true, .bindToken 1 7 ⟨7, 1⟩, .bindToken 2 7 ⟨7, 2⟩]

theorem takeover_storeFed : StoreFed (twoConns 0) takeover := by
  have h1 := (storeFed_nil (twoConns 0)).snoc (.addConn false) (by simp)
    (by intro c hc; cases hc; decide)
  have h2 := h1.snoc (.addConn true) (by simp) (by intro c hc; cases hc; decide)
  have h3 := h2.snoc (.bindToken 1 7 ⟨7, 1⟩) (by simp) (by simp)
  exact h3.snoc (.bindToken 2 7 ⟨7, 2⟩) (by simp) (by simp)

theorem takeover_increases : GenerationsIncrease takeover := by
  simp only [GenerationsIncrease, takeover]
  grind

theorem takeover_first_token_revoked : Revoked (twoConns 0) takeover ⟨7, 1⟩ := by
  have hf : InForce (twoConns 0) (takeover.take 2 ++ [.bindToken 1 7 ⟨7, 1⟩]) false ⟨7, 1⟩ :=
    InForce.install ⟨1, rfl, by decide, by decide, by decide⟩
  have hi : Installs (applyAll (twoConns 0) (takeover.take 3)) (.bindToken 2 7 ⟨7, 2⟩)
    true ⟨7, 2⟩ :=
    ⟨2, rfl, by decide, by decide, by decide⟩
  exact Revoked.revoke hf (.inl ⟨true, ⟨7, 2⟩, hi, .inl rfl⟩)

/-- After the takeover the first token reaches nothing. -/
theorem stale_token_inert_takeover : StoreFed (twoConns 0) takeover ∧ GenerationsIncrease takeover ∧
      Revoked (twoConns 0) takeover ⟨7, 1⟩ ∧
      ∀ e, ¬ TokenReaches (applyAll (twoConns 0) takeover) ⟨7, 1⟩ e :=
  ⟨takeover_storeFed, takeover_increases, takeover_first_token_revoked,
    (stale_token_inert (twoConns 0) takeover takeover_storeFed takeover_increases ⟨7, 1⟩).2
      takeover_first_token_revoked⟩

end DueServer.Session
