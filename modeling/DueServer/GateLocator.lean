import DueServer.GateTokens

/-! The locator agrees with the sessions: over any number of gates, a user whose owner is
bound at a gate is mapped to that gate, as long as the locator writes for a user come in
the order of the tokens they are made for. -/
namespace DueServer

open Function Lib

namespace Stage

def toLocate : Stage → Option (ℤ × Token)
  | .releaseOld b _ t => some (b.uid, t)
  | .bindGate uid t => some (uid, t)
  | _ => none

def InBindOrDisconnect : Stage → Prop
  | .localToken b | .isCurrent b _ | .current b _ | .acquire b _ => b.locate = true
  | .bindToken b _ _ | .releaseNew b _ _ | .releaseOld b _ _ => b.locate = true
  | .bindGate _ _ | .disconnectGate _ _ | .disconnectRelease _ | .returned _ => True
  | _ => False

end Stage

namespace Cluster

variable {γ κ σ : Type}

def bindOrDisconnect : Action γ κ → Bool
  | .call _ _ (.bind _ _) | .call _ _ (.handleDisconnect _) => true
  | .call _ _ _ => false
  | .step _ (.failed _ _) => false
  | _ => true

def Locates (e : Event γ) (uid : ℤ) (t : Token) : Prop :=
  (∃ i g, e = .boundGate i g uid t) ∨ ∃ i g, e = .unboundGate i g uid t

def newestLocatedStep (uid : ℤ) (n : ℕ) : Event γ → ℕ
  | .boundGate _ _ uid' t => if uid' = uid then max n t.generation else n
  | _ => n

def newestLocated (uid : ℤ) (tr : List (Event γ)) : ℕ :=
  tr.foldl (newestLocatedStep uid) 0

theorem newestLocated_snoc (uid : ℤ) (tr : List (Event γ)) (e : Event γ) :
    newestLocated uid (tr ++ [e]) = newestLocatedStep uid (newestLocated uid tr) e := by
  simp [newestLocated]

def writeInOrder (pre : List (Event γ)) : Event γ → Bool
  | .boundGate _ _ uid t | .unboundGate _ _ uid t =>
    decide (newestLocated uid pre ≤ t.generation)
  | _ => true

def inOrderFrom (pre : List (Event γ)) : List (Event γ) → Bool
  | [] => true
  | e :: tr => writeInOrder pre e && inOrderFrom (pre ++ [e]) tr

def locatorInOrder (tr : List (Event γ)) : Bool := inOrderFrom [] tr

theorem inOrderFrom_snoc (pre tr : List (Event γ)) (e : Event γ) :
    inOrderFrom pre (tr ++ [e]) = (inOrderFrom pre tr && writeInOrder (pre ++ tr) e) := by
  induction tr generalizing pre with
  | nil => simp [inOrderFrom]
  | cons e' tr ih => simp [inOrderFrom, ih, Bool.and_assoc]

theorem locatorInOrder_snoc {tr : List (Event γ)} {e : Event γ}
    (h : locatorInOrder (tr ++ [e]) = true) : locatorInOrder tr = true ∧
      ∀ uid t, Locates e uid t → newestLocated uid tr ≤ t.generation := by
  simp only [locatorInOrder, inOrderFrom_snoc, Bool.and_eq_true] at h
  refine ⟨h.1, ?_⟩
  rintro uid t (⟨i, g, rfl⟩ | ⟨i, g, rfl⟩)
  · exact of_decide_eq_true h.2
  · exact of_decide_eq_true h.2

/-- What these runs keep: a bound owner is located, or the call that bound it is still to
make the locator entry. -/
structure LocatorInv (L : LawfulStore σ) (tr : List (Event γ)) (s : Cluster γ κ σ) : Prop where
  stages : ∀ i g stage, s.calls i = some (g, stage) → stage.InBindOrDisconnect
  located : ∀ g u t, L.owner s.store u = some t → (s.gate g).boundToken u = some t →
    (∃ i stage, s.calls i = some (g, stage) ∧ stage.toLocate = some (u, t)) ∨
      (s.locator u = some g ∧ newestLocated u tr = t.generation)

section Step

variable {L : LawfulStore σ} {tr : List (Event γ)} {s s₁ : Cluster γ κ σ} {e : Event γ}
  {i : ℕ} {g : γ} {reply : Reply} {stage stage' : Stage}

/-- A step of call `i` that writes no locator entry: nobody becomes an owner whose token is
bound, bindings are made only by this call, and it keeps what it is to locate. -/
theorem LocatorInv.goto (hl : LocatorInv L tr s) (hcs : s₁.calls = s.calls)
    (hloc : s₁.locator = s.locator) (hne : ∀ u t, ¬ Locates e u t)
    (hst : stage'.InBindOrDisconnect)
    (hbnd : ∀ g' u t, L.owner s₁.store u = some t → (s₁.gate g').boundToken u = some t →
      (L.owner s.store u = some t ∧ (s.gate g').boundToken u = some t) ∨
        (g' = g ∧ stage'.toLocate = some (u, t)))
    (hkeep : ∀ g' stage u t, s.calls i = some (g', stage) → stage.toLocate = some (u, t) →
      g' = g ∧ stage'.toLocate = some (u, t)) :
    LocatorInv L (tr ++ [e]) (s₁.goto i g stage') := by
  have hnew : ∀ u, newestLocated u (tr ++ [e]) = newestLocated u tr := by
    intro u
    rw [newestLocated_snoc]
    cases e with
    | boundGate j g' u' t' => exact absurd (.inl ⟨j, g', rfl⟩) (hne u' t')
    | _ => rfl
  refine ⟨fun j g' st hj => ?_, fun g' u t ho hb => ?_⟩
  · rcases goto_calls hj with ⟨-, hx⟩ | ⟨-, hj⟩
    · cases hx
      exact hst
    · exact hl.stages j g' st (hcs ▸ hj)
  · have hself : ∀ {g'}, g' = g → stage'.toLocate = some (u, t) →
        ∃ j st, (s₁.goto i g stage').calls j = some (g', st) ∧ st.toLocate = some (u, t) := by
      rintro g' rfl h
      exact ⟨i, stage', update_self .., h⟩
    rw [hnew u]
    rcases hbnd g' u t ho hb with ⟨ho', hb'⟩ | ⟨hg, h⟩
    · rcases hl.located g' u t ho' hb' with ⟨j, st, hj, hst'⟩ | h
      · left
        by_cases hji : j = i
        · subst hji
          obtain ⟨hg, h⟩ := hkeep g' st u t hj hst'
          exact hself hg h
        exact ⟨j, st, by simpa only [Cluster.goto, update_of_ne hji, hcs] using hj,
          hst'⟩
      · right
        simpa only [Cluster.goto, hloc] using h
    · exact .inl (hself hg h)

variable {u uid : ℤ} {t : Token} {g' : γ} {b : BindArgs}

theorem TokenInv.older_than_owner (hs : TokenInv L tr s) {t' : Token}
    {cid : ℤ} (ho : L.owner s.store u = some t') (hb : Bound tr t g' cid) (hu : t.uid = u)
    (hne : t ≠ t') : t.generation < t'.generation := by
  obtain ⟨-, huid, -, hgen⟩ := hs.latest u t' ho
  have hle := (hs.bound_valid t g' cid hb).2.2.1
  rw [hu, ← hgen] at hle
  rcases Nat.lt_or_eq_of_le hle with h | h
  · exact h
  refine absurd ?_ hne
  cases t
  cases t'
  simp only [Token.mk.injEq] at *
  exact ⟨hu.trans huid.symm, h⟩

/-- A locator write for a token of another user changes nothing for this one; one for an
older token of the same user would be out of order once the owner is located. -/
theorem LocatorInv.write (hl : LocatorInv L tr s)
    {locator : ℤ → Option γ} (hst : stage'.InBindOrDisconnect)
    (hloc : ∀ u, u ≠ uid → locator u = s.locator u ∧
      newestLocated u (tr ++ [e]) = newestLocated u tr)
    (hord : newestLocated uid tr ≤ t.generation)
    (hown : ∀ st u t', s.calls i = some (g, st) → st.toLocate = some (u, t') →
      u = uid ∧ t' = t)
    (hcall : s.calls i = some (g, stage))
    (hcase : ∀ g' t', L.owner s.store uid = some t' → (s.gate g').boundToken uid = some t' →
      (t' ≠ t ∧ t.generation < t'.generation) ∨
        (locator uid = some g' ∧ newestLocated uid (tr ++ [e]) = t'.generation)) :
    LocatorInv L (tr ++ [e]) ({ s with locator := locator }.goto i g stage') := by
  refine ⟨fun j g' st hj => ?_, fun g' u t' ho hb => ?_⟩
  · rcases goto_calls hj with ⟨-, hx⟩ | ⟨-, hj⟩
    · cases hx
      exact hst
    · exact hl.stages j g' st hj
  · -- a call other than this one that is to locate `t'` still is
    have hpend : ∀ j st, s.calls j = some (g', st) → st.toLocate = some (u, t') →
        (u ≠ uid ∨ t' ≠ t) → ∃ j st, ({ s with locator := locator }.goto i g stage').calls j =
          some (g', st) ∧ st.toLocate = some (u, t') := by
      intro j st hj hto hne
      have hji : j ≠ i := by
        rintro rfl
        rw [hcall] at hj
        cases hj
        obtain ⟨h1, h2⟩ := hown stage u t' hcall hto
        rcases hne with h | h
        · exact h h1
        · exact h h2
      exact ⟨j, st, by simpa only [Cluster.goto, update_of_ne hji] using hj, hto⟩
    by_cases hu : u = uid
    · subst hu
      rcases hcase g' t' ho hb with ⟨hne, hlt⟩ | h
      · rcases hl.located g' u t' ho hb with ⟨j, st, hj, hto⟩ | ⟨-, hnew⟩
        · exact .inl (hpend j st hj hto (.inr hne))
        · omega
      · exact .inr h
    · rcases hl.located g' u t' ho hb with ⟨j, st, hj, hto⟩ | h
      · exact .inl (hpend j st hj hto (.inl hu))
      · right
        obtain ⟨h1, h2⟩ := hloc u hu
        rw [h2]
        exact ⟨h1.trans h.1, h.2⟩

theorem LocatorInv.locates (hs : TokenInv L tr s) (hl : LocatorInv L tr s)
    (hcall : s.calls i = some (g, .bindGate uid t))
    (hord : newestLocated uid tr ≤ t.generation) :
    LocatorInv L (tr ++ [.boundGate i g uid t])
      ({ s with locator := bindGate s.locator uid g }.goto i g (.returned none)) := by
  obtain ⟨huid, cid, hb⟩ := (hs.call i g _ hcall).known uid t rfl
  refine hl.write trivial (fun u hu => ⟨?_, ?_⟩) hord (fun st u t' hst hto => ?_) hcall ?_
  · simp [bindGate, hu]
  · simp [newestLocated_snoc, newestLocatedStep, Ne.symm hu]
  · rw [hcall] at hst
    cases hst
    cases hto
    exact ⟨rfl, rfl⟩
  · intro g' t' ho hbnd
    by_cases ht : t = t'
    · -- its own entry: the call runs on the gate that the token is bound at
      subst ht
      obtain ⟨-, cid', hb', -⟩ := hs.bound_of_boundToken hbnd
      have hg := (hs.bound_once t g cid g' cid' hb hb').1
      subst hg
      simp only [bindGate, update_self, newestLocated_snoc, newestLocatedStep, if_true,
        true_and]
      omega
    · exact .inl ⟨Ne.symm ht, hs.older_than_owner ho hb huid ht⟩

theorem LocatorInv.unlocates [DecidableEq γ] (hs : TokenInv L tr s) (hl : LocatorInv L tr s)
    (hcall : s.calls i = some (g, .disconnectGate uid t))
    (hord : newestLocated uid tr ≤ t.generation) :
    LocatorInv L (tr ++ [.unboundGate i g uid t])
      ({ s with locator := unbindGate s.locator uid g }.goto i g (.disconnectRelease t)) := by
  obtain ⟨huid, cid, hb⟩ := (hs.call i g _ hcall).known uid t rfl
  obtain ⟨-, hslot⟩ := (hs.call i g _ hcall).detached t rfl
  refine hl.write trivial (fun u hu => ⟨?_, ?_⟩) hord (fun st u t' hst hto => ?_) hcall ?_
  · unfold unbindGate
    split
    · rw [update_of_ne hu]
    · rfl
  · rw [newestLocated_snoc]
    rfl
  · rw [hcall] at hst
    cases hst
    cases hto
  · intro g' t' ho hbnd
    left
    -- the token of a removed connection is in no slot
    have hne : t ≠ t' := by
      rintro rfl
      obtain ⟨-, cid', -, hslot'⟩ := hs.bound_of_boundToken hbnd
      exact hslot g' cid' hslot'
    exact ⟨Ne.symm hne, hs.older_than_owner ho hb huid hne⟩

theorem BindingsEvolve.old_of_silent (hb : BindingsEvolve s e s₁)
    (he : ∀ j g cid u t, e ≠ .boundToken j g cid u t)
    (h : (s₁.gate g').boundToken u = some t) : (s.gate g').boundToken u = some t := by
  rcases hb g' u with ⟨j, cid, t', hev, -⟩ | ⟨-, hk | hk⟩
  · exact absurd hev (he j g' cid u t')
  · exact hk ▸ h
  rw [hk] at h
  cases h

theorem mayGiveUp_toLocate (h : MayGiveUp stage) : stage.toLocate = none := by
  cases stage with
  | releaseOld | bindGate => exact h.elim
  | _ => rfl

theorem bindDone_locate (hb : b.locate = true) (t : Token) : bindDone b t = .bindGate b.uid t := by
  simp [bindDone, hb]

theorem bindTokenDone_locate (hb : b.locate = true) (l t : Token) :
    (bindTokenDone b l t).toLocate = some (b.uid, t) ∧
      (bindTokenDone b l t).InBindOrDisconnect := by
  unfold bindTokenDone
  split
  · exact ⟨rfl, hb⟩
  rw [bindDone_locate hb t]
  exact ⟨rfl, trivial⟩

theorem LocatorInv.quiet (hl : LocatorInv L tr s) (hcall : s.calls i = some (g, stage))
    (hloc : ∀ uid t, ¬ Locates e uid t) (hstg' : stage'.InBindOrDisconnect)
    (hnone : stage.toLocate = none) : LocatorInv L (tr ++ [e]) (s.goto i g stage') := by
  refine hl.goto rfl rfl hloc hstg' (fun _ _ _ h h' => .inl ⟨h, h'⟩) ?_
  intro g' st u t hst hto
  rw [hcall] at hst
  cases hst
  rw [hnone] at hto
  cases hto

variable [DecidableEq γ] [DecidableEq κ]

/-- The steps of a call; `provider.Unbind` and the rollback do not occur. -/
theorem LocatorInv.next (hs : TokenInv L tr s) (hl : LocatorInv L tr s)
    (hcall : s.calls i = some (g, stage)) (hrp : reply = .ok)
    (hn : Next L s i g reply stage e stage' s₁)
    (hord : ∀ uid t, Locates e uid t → newestLocated uid tr ≤ t.generation) :
    LocatorInv L (tr ++ [e]) (s₁.goto i g stage') := by
  subst hrp
  have hstg := hl.stages i g stage hcall
  have hb := hn.bindings hs.index
  -- the call was not to locate anything
  have hnone : stage.toLocate = none → ∀ g' st u t, s.calls i = some (g', st) →
      st.toLocate = some (u, t) → g' = g ∧ stage'.toLocate = some (u, t) := by
    intro h g' st u t hst hto
    rw [hcall] at hst
    cases hst
    rw [h] at hto
    cases hto
  -- bindings and owners are among those before the step
  have hold : (∀ j g cid u t, e ≠ .boundToken j g cid u t) →
      (∀ u t, L.owner s₁.store u = some t → L.owner s.store u = some t) →
      ∀ g' u t, L.owner s₁.store u = some t → (s₁.gate g').boundToken u = some t →
      (L.owner s.store u = some t ∧ (s.gate g').boundToken u = some t) ∨
        (g' = g ∧ stage'.toLocate = some (u, t)) :=
    fun he ho g' u t h h' => .inl ⟨ho u t h, hb.old_of_silent he h'⟩
  cases hn with
  | giveUp _ err hst =>
    exact hl.quiet hcall (by simp [Locates]) trivial (mayGiveUp_toLocate hst)
  | readLocal | readOther | seen | notCurrent | notOwner | bindFails =>
    exact hl.quiet hcall (by simp [Locates]) hstg rfl
  | keepToken b l =>
    rw [bindDone_locate hstg l]
    exact hl.quiet hcall (by simp [Locates]) trivial rfl
  | acquireFails b l err store h =>
    obtain ⟨ho, -⟩ := OwnershipStore.acquireReply_error h
    exact hl.goto rfl rfl (by simp [Locates]) trivial
      (hold (by simp) fun u t h => by rwa [ho] at h) (hnone rfl)
  | acquires b l t store h =>
    obtain ⟨-, huid, hlt, ho, -⟩ := L.acquire_ok _ _ _ _ h
    refine hl.goto rfl rfl (by simp [Locates]) hstg (fun g' u t' ho' hb' => .inl ?_)
      (hnone rfl)
    simp only [ho] at ho'
    by_cases hu : u = b.uid
    · -- a token that was allocated just now is bound nowhere
      subst hu
      rw [update_self] at ho'
      cases ho'
      obtain ⟨-, cid, hbd, -⟩ := hs.bound_of_boundToken hb'
      have hle := (hs.bound_valid t g' cid hbd).2.2.1
      rw [huid] at hle
      omega
    · rw [update_of_ne hu] at ho'
      exact ⟨ho', hb'⟩
  | binds b l t =>
    obtain ⟨hto, hst⟩ := bindTokenDone_locate hstg l t
    refine hl.goto rfl rfl (by simp [Locates]) hst (fun g' u t' ho' hb' => ?_) (hnone rfl)
    rcases hb g' u with ⟨j, cid, t'', hev, hset⟩ | ⟨-, hk | hk⟩
    · cases hev
      rw [hset] at hb'
      cases hb'
      exact .inr ⟨rfl, hto⟩
    · exact .inl ⟨ho', hk ▸ hb'⟩
    rw [hk] at hb'
    cases hb'
  | releasesNew =>
    exact hl.goto rfl rfl (by simp [Locates]) trivial
      (hold (by simp) fun _ _ h => OwnershipStore.owner_of_releaseReply h) (hnone rfl)
  | releasesOld b l t =>
    rw [bindDone_locate hstg t]
    refine hl.goto rfl rfl (by simp [Locates]) trivial
      (fun g' u t' ho' hb' => .inl ⟨OwnershipStore.owner_of_releaseReply ho', hb'⟩) ?_
    intro g' st u t' hst hto
    rw [hcall] at hst
    cases hst
    exact ⟨rfl, hto⟩
  | locates uid t => exact hl.locates hs hcall (hord uid t (.inl ⟨i, g, rfl⟩))
  | locateUnsure uid t err hr | locateFails uid t err hr => exact absurd rfl hr
  | disconnectUnlocates uid t =>
    exact hl.unlocates hs hcall (hord uid t (.inr ⟨i, g, rfl⟩))
  | disconnectFails => exact hl.quiet hcall (by simp [Locates]) trivial rfl
  | disconnectReleases =>
    exact hl.goto rfl rfl (by simp [Locates]) trivial
      (hold (by simp) fun _ _ h => OwnershipStore.owner_of_releaseSession h) (hnone rfl)
  | _ => exact hstg.elim

end Step

variable [DecidableEq γ] [DecidableEq κ]

theorem LocatorInv.transition {L : LawfulStore σ} {tr : List (Event γ)} {s s' : Cluster γ κ σ}
    {e : Event γ} {act : Action γ κ} (hs : TokenInv L tr s) (hl : LocatorInv L tr s)
    (hG : bindOrDisconnect act = true) (ht : Transition L s act e s')
    (hord : ∀ uid t, Locates e uid t → newestLocated uid tr ≤ t.generation) :
    LocatorInv L (tr ++ [e]) s' := by
  have hb := ht.bindings hs.index
  cases ht with
  | connect =>
    refine ⟨hl.stages, fun g' u t ho hbnd => ?_⟩
    rw [newestLocated_snoc]
    exact hl.located g' u t ho (hb.old_of_silent (by simp) hbnd)
  | start i g entry stage hfree hst =>
    have hstg : stage.InBindOrDisconnect ∧ stage.toLocate = none := by
      cases entry with
      | bind => rcases hst with rfl | rfl <;> exact ⟨by trivial, rfl⟩
      | handleDisconnect => exact hst.elim
      | bindSession | unbind => cases hG
    refine hl.goto rfl rfl (by simp [Locates]) hstg.1 (fun _ _ _ h h' => .inl ⟨h, h'⟩) ?_
    intro g' st u t hst'
    rw [hfree] at hst'
    cases hst'
  | disconnect i g c uid t sess stage hfree hc hrem hst =>
    have hstg : stage.InBindOrDisconnect := by
      rcases hst with ⟨-, rfl⟩ | ⟨-, rfl⟩ <;> trivial
    refine hl.goto rfl rfl (by simp [Locates]) hstg
      (fun g' u t' h h' => .inl ⟨h, hb.old_of_silent (by simp) h'⟩) ?_
    intro g' st u t hst'
    rw [hfree] at hst'
    cases hst'
  | next i reply g stage _ stage' s₁ hcall hn =>
    have hrp : reply = .ok := by
      cases reply with
      | ok => rfl
      | failed => cases hG
    exact hl.next hs hcall hrp hn hord

/-- The locator agrees with the sessions: in a run of binds and disconnects over any gates
whose locator writes are in order, once every call has returned, a user whose current token
is bound at gate `g` is mapped to `g`. -/
theorem locator_names_owning_gate (L : LawfulStore σ) (heap : γ → κ → ConnObj) (store : σ)
    (hid : ∀ g, Function.Injective fun c => (heap g c).id)
    (hown : ∀ u, L.owner store u = none) (tr : List (Event γ)) (s : Cluster γ κ σ)
    (hrun : Run (guardedRel (step L.toOwnershipStore) fun _ => bindOrDisconnect)
      (init heap store) tr s)
    (horder : locatorInOrder tr = true) (hq : s.Quiescent) (u : ℤ) (t : Token) (g : γ)
    (ht : L.current s.store u = .ok (some t)) (hb : (s.gate g).boundToken u = some t) :
    s.locator u = some g := by
  have hinv : TokenInv L tr s ∧ (locatorInOrder tr = true → LocatorInv L tr s) := by
    have h0 : LocatorInv L [] (init heap store) := by
      refine ⟨fun i g stage h => ?_, fun g u t _ h => ?_⟩ <;> cases h
    refine run_invariant
      (fun tr s => TokenInv L tr s ∧ (locatorInOrder tr = true → LocatorInv L tr s))
      ⟨init_tokenInv hid hown, fun _ => h0⟩ ?_ hrun
    rintro tr s e s' ⟨hs, hl⟩ ⟨act, hG, hstep⟩
    have htr := step_transition hstep
    refine ⟨hs.transition htr, fun ho => ?_⟩
    obtain ⟨hpre, hlast⟩ := locatorInOrder_snoc ho
    exact (hl hpre).transition hs hG htr hlast
  have howne := (L.current_ok s.store u (some t) ht).symm
  rcases (hinv.2 horder).located g u t howne hb with ⟨i, stage, hi, hto⟩ | h
  · obtain ⟨err, rfl⟩ := hq i g stage hi
    cases hto
  · exact h.1

/-- User 5 is bound to connection 1 and reconnects to the same gate on connection 2 while
the cleanup of connection 1 is between `RemConnWithToken` and `UnbindGate`. -/
def reconnectRace : List (Action Unit Bool) :=
  [.connect () false, .connect () true, .call 0 () (.bind 1 5),
    .step 0 .ok, .step 0 .ok, .step 0 .ok, .step 0 .ok,
    .call 1 () (.handleDisconnect false), .call 2 () (.bind 2 5),
    .step 2 .ok, .step 2 .ok, .step 2 .ok, .step 2 .ok, .step 1 .ok, .step 1 .ok]

def locatorRun (acts : List (Action Unit Bool)) :
    Option (List (Event Unit) × Cluster Unit Bool MemoryOwnershipStore) :=
  exec (step memoryStore.toOwnershipStore) (fun _ => bindOrDisconnect)
    (init twoIdle MemoryOwnershipStore.new) acts

/-- The late `UnbindGate` deletes the entry of the new binding. -/
theorem reconnect_race_loses_locator_entry : ∃ tr s,
    Run (guardedRel (step memoryStore.toOwnershipStore) fun _ => bindOrDisconnect)
      (init twoIdle MemoryOwnershipStore.new) tr s ∧ s.Quiescent ∧
      memoryStore.current s.store 5 = .ok (some ⟨5, 2⟩) ∧
      (s.gate ()).boundToken 5 = some ⟨5, 2⟩ ∧ s.locator 5 = none := by
  refine ⟨_, _, run_of_exec reconnectRace rfl, ?_, ?_, ?_, ?_⟩
  · exact quiescent_of_returnedBelow 3 (by decide +kernel) fun _ => rfl
  all_goals decide +kernel

def orderlyReconnect : List (Action Unit Bool) :=
  [.connect () false, .connect () true, .call 0 () (.bind 1 5),
    .step 0 .ok, .step 0 .ok, .step 0 .ok, .step 0 .ok,
    .call 1 () (.handleDisconnect false), .step 1 .ok, .step 1 .ok,
    .call 2 () (.bind 2 5), .step 2 .ok, .step 2 .ok, .step 2 .ok, .step 2 .ok]

theorem orderlyReconnect_isSome : (locatorRun orderlyReconnect).isSome = true := rfl

theorem locator_names_owning_gate_orderlyReconnect :
    ∃ s : Cluster Unit Bool MemoryOwnershipStore, s.Quiescent ∧
      memoryStore.current s.store 5 = .ok (some ⟨5, 2⟩) ∧
      (s.gate ()).boundToken 5 = some ⟨5, 2⟩ ∧ s.locator 5 = some () := by
  have hq : ((locatorRun orderlyReconnect).get orderlyReconnect_isSome).2.Quiescent :=
    quiescent_of_returnedBelow 3 (by decide +kernel) fun _ => rfl
  have ht : memoryStore.current ((locatorRun orderlyReconnect).get
      orderlyReconnect_isSome).2.store 5 = .ok (some ⟨5, 2⟩) := by decide +kernel
  have hb : (((locatorRun orderlyReconnect).get orderlyReconnect_isSome).2.gate
      ()).boundToken 5 = some ⟨5, 2⟩ := by decide +kernel
  have hord : locatorInOrder
      ((locatorRun orderlyReconnect).get orderlyReconnect_isSome).1 = true := by decide +kernel
  exact ⟨_, hq, ht, hb, locator_names_owning_gate memoryStore twoIdle MemoryOwnershipStore.new
    twoIdle_id_injective (fun _ => rfl) _ _ (run_of_exec _ orderlyReconnect_isSome) hord hq
    5 ⟨5, 2⟩ () ht hb⟩

end Cluster

end DueServer
