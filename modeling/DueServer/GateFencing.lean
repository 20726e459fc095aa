import DueServer.GateOwnership

/-! Concurrent `bindSession` calls of one gate, whose tokens are installed in the order in which
they were acquired. -/
namespace DueServer

open Lib
open Function (update_self update_of_ne update)

namespace Cluster

section BindSession

variable {κ σ : Type}

def InBindSession : Stage → Prop
  | .localToken b | .isCurrent b _ | .current b _ | .acquire b _ => b.locate = false
  | .bindToken b _ _ | .releaseOld b _ _ => b.locate = false
  | .returned _ => True
  | _ => False

def onlyBindSession : Action Unit κ → Bool
  | .call _ _ (.bindSession _ _) => true
  | .call _ _ _ => false
  | act => requestsSucceed act

def bindsInOrder (s : Cluster Unit κ σ) : Action Unit κ → Bool
  | .step i _ =>
    match s.calls i with
    | some (g, .bindToken b _ t) => decide ((s.gate g).generations b.uid < t.generation)
    | _ => true
  | _ => true

def fencingGuard (s : Cluster Unit κ σ) (act : Action Unit κ) : Bool :=
  onlyBindSession act && s.bindsInOrder act && s.connUnmoved act

/-- What these runs keep. The newest token of a user has been bound, or the call that
acquired it is about to bind it; a binding is the newest that was made; and the store
agrees with a newest token that is bound or about to be. -/
structure FencingInv (L : LawfulStore σ) (s : Cluster Unit κ σ) : Prop where
  stages : ∀ i g stage, s.calls i = some (g, stage) → InBindSession stage
  filed : ∀ i g stage cid l, s.calls i = some (g, stage) → stage.found = some (cid, l) →
    (s.gate g).conns cid ≠ none
  newest : ∀ u, (s.gate ()).generations u = L.issued s.store u ∨
    ∃ i b l t, s.calls i = some ((), .bindToken b l t) ∧ b.uid = u ∧
      t.generation = L.issued s.store u
  bound_newest : ∀ u t, (s.gate ()).boundToken u = some t →
    t.generation = (s.gate ()).generations u
  bound_owner : ∀ u t, (s.gate ()).boundToken u = some t →
    t.generation = L.issued s.store u → L.owner s.store u = some t
  fresh_owner : ∀ i b l t, s.calls i = some ((), .bindToken b l t) →
    t.generation = L.issued s.store b.uid → L.owner s.store b.uid = some t

variable {s : Cluster Unit κ σ} {L : LawfulStore σ} {tr : List (Event Unit)} {act : Action Unit κ}
  {heap : Unit → κ → ConnObj} {store : σ}

theorem bindsInOrder_step {i : ℕ} {g : Unit} {reply : Reply}
    {b : BindArgs} {l t : Token} (h : s.bindsInOrder (.step i reply) = true)
    (hcall : s.calls i = some (g, .bindToken b l t)) :
    (s.gate g).generations b.uid < t.generation := by
  simpa [bindsInOrder, hcall] using h

theorem installsNewer_of_bindsInOrder (hs : TokenInv L tr s)
    (h : s.bindsInOrder act = true) : s.installsNewer act = true := by
  unfold installsNewer
  split
  · split
    · rename_i g b l t hcall
      split
      · rename_i t' ht'
        have hlt := bindsInOrder_step h hcall
        obtain ⟨huid, cid, hb, -⟩ := hs.bound_of_boundToken ht'
        have hle := (hs.bound_valid t' g cid hb).2.2.2
        rw [huid] at hle
        exact decide_eq_true (by omega)
      · rfl
    · rfl
  · rfl

theorem ownershipGuard_of_fencing (hs : TokenInv L tr s) (hf : FencingInv L s)
    (h : s.fencingGuard act = true) : s.ownershipGuard act = true := by
  simp only [fencingGuard, Bool.and_eq_true] at h
  obtain ⟨⟨honly, hord⟩, hmv⟩ := h
  have hok : requestsSucceed act = true := by
    unfold onlyBindSession at honly
    split at honly
    · rfl
    · cases honly
    · exact honly
  have hown : s.unbindsOwn act = true := by
    unfold unbindsOwn
    split
    · rename_i i reply
      split
      · rename_i g uid t hcall
        exact (hf.stages i g _ hcall).elim
      · rfl
    · rfl
  simp only [ownershipGuard, Bool.and_eq_true]
  exact ⟨⟨⟨hok, installsNewer_of_bindsInOrder hs hord⟩, hmv⟩, hown⟩

section Step

variable {L : LawfulStore σ} {tr : List (Event Unit)} {s s₁ : Cluster Unit κ σ}
  {e : Event Unit} {i : ℕ} {stage stage' : Stage}

theorem FencingInv.goto (hf : FencingInv L s) (hcs : s₁.calls = s.calls)
    (hgate : s₁.gate = s.gate) (hiss : L.issued s₁.store = L.issued s.store)
    (hown : ∀ u t, L.owner s.store u = some t → ((s.gate ()).boundToken u = some t ∨
      ∃ j b l, s.calls j = some ((), .bindToken b l t)) → L.owner s₁.store u = some t)
    (hst : InBindSession stage')
    (hfil : ∀ cid l, stage'.found = some (cid, l) → (s.gate ()).conns cid ≠ none)
    (hold : ∀ b l t, s.calls i ≠ some ((), .bindToken b l t))
    (hnew : ∀ b l t, stage' ≠ .bindToken b l t) : FencingInv L (s₁.goto i () stage') := by
  refine ⟨fun j g st hj => ?_, fun j g st cid l hj hfd => ?_, fun u => ?_, fun u t hb => ?_,
    fun u t hb hgen => ?_, fun j b l t hj hgen => ?_⟩
  · rcases goto_calls hj with ⟨-, hx⟩ | ⟨-, hj⟩
    · cases hx
      exact hst
    · exact hf.stages j g st (hcs ▸ hj)
  · rcases goto_calls hj with ⟨-, hx⟩ | ⟨-, hj⟩
    · cases hx
      simpa only [Cluster.goto, hgate] using hfil cid l hfd
    · simpa only [Cluster.goto, hgate] using hf.filed j g st cid l (hcs ▸ hj) hfd
  · simp only [Cluster.goto, hgate, hiss]
    rcases hf.newest u with h | ⟨j, b, l, t, hj, hrest⟩
    · exact .inl h
    have hji : j ≠ i := fun h => hold b l t (h ▸ hj)
    exact .inr ⟨j, b, l, t, by rwa [update_of_ne hji, hcs], hrest⟩
  · simp only [Cluster.goto, hgate] at hb ⊢
    exact hf.bound_newest u t hb
  · simp only [Cluster.goto, hgate, hiss] at hb hgen ⊢
    exact hown u t (hf.bound_owner u t hb hgen) (.inl hb)
  · rcases goto_calls hj with ⟨-, hx⟩ | ⟨-, hj⟩
    · exact absurd (congrArg Prod.snd hx) (hnew b l t)
    · rw [hcs] at hj
      simp only [Cluster.goto, hiss] at hgen ⊢
      exact hown b.uid t (hf.fresh_owner j b l t hj hgen) (.inr ⟨j, b, l, hj⟩)

variable [DecidableEq κ]

theorem FencingInv.connect (hf : FencingInv L s) (c : κ) :
    FencingInv L (s.setGate () ((s.gate ()).connect c)) := by
  obtain ⟨hcon, -, hgens, -, hview⟩ := Session.connect_views (s.gate ()) c
  refine ⟨hf.stages, fun j g st cid l hj hfd => ?_, fun u => ?_, fun u t hb => ?_,
    fun u t hb => ?_, hf.fresh_owner⟩
  · have hold := hf.filed j () st cid l hj hfd
    simp only [setGate, update_self, hcon]
    by_cases hcid : cid = (s.gate ()).connID c
    · simp [hcid]
    · rwa [update_of_ne hcid]
  · simpa only [setGate, update_self, hgens] using hf.newest u
  · simp only [setGate, update_self, hgens, hview] at hb ⊢
    exact hf.bound_newest u t hb
  · simp only [setGate, update_self, hview] at hb
    exact hf.bound_owner u t hb

variable {b : BindArgs} {l t : Token} {sess : Session κ}

omit [DecidableEq κ] in
theorem FencingInv.acquires {store : σ} (hs : TokenInv L tr s)
    (hf : FencingInv L s) (hcall : s.calls i = some ((), .acquire b l))
    (h : L.acquire s.store b.uid = (.ok t, store)) :
    FencingInv L ({ s with store := store }.goto i () (.bindToken b l t)) := by
  obtain ⟨-, huid, hlt, hown, hiss⟩ := L.acquire_ok _ _ _ _ h
  refine ⟨fun j g st hj => ?_, fun j g st cid l' hj hfd => ?_, fun u => ?_, hf.bound_newest,
    fun u t' hb hgen => ?_, fun j b' l' t' hj hgen => ?_⟩
  · rcases goto_calls hj with ⟨-, hx⟩ | ⟨-, hj⟩
    · cases hx
      exact hf.stages i () (.acquire b l) hcall
    · exact hf.stages j g st hj
  · rcases goto_calls hj with ⟨-, hx⟩ | ⟨-, hj⟩
    · cases hx
      exact hf.filed i () (.acquire b l) cid l' hcall hfd
    · exact hf.filed j g st cid l' hj hfd
  · simp only [Cluster.goto, hiss]
    by_cases hu : u = b.uid
    · exact .inr ⟨i, b, l, t, update_self .., hu.symm, by simp [hu]⟩
    rw [update_of_ne hu]
    rcases hf.newest u with hn | ⟨j, b', l', t', hj, hrest⟩
    · exact .inl hn
    have hji : j ≠ i := by
      rintro rfl
      rw [hcall] at hj
      cases hj
    exact .inr ⟨j, b', l', t', by rwa [update_of_ne hji], hrest⟩
  · simp only [Cluster.goto, hiss, hown] at hb hgen ⊢
    by_cases hu : u = b.uid
    · -- the new token is newer than every bound one
      subst hu
      rw [update_self] at hgen
      obtain ⟨huid', cid, hb', -⟩ := hs.bound_of_boundToken hb
      have hle := (hs.bound_valid t' () cid hb').2.2.1
      rw [huid'] at hle
      omega
    · rw [update_of_ne hu] at hgen ⊢
      exact hf.bound_owner u t' hb hgen
  · rcases goto_calls hj with ⟨-, hx⟩ | ⟨-, hj⟩
    · cases hx
      simp [Cluster.goto, hown]
    · have hj' : s.calls j = some ((), .bindToken b' l' t') := hj
      simp only [Cluster.goto, hiss, hown] at hgen ⊢
      by_cases hu : b'.uid = b.uid
      · rw [hu, update_self] at hgen
        obtain ⟨-, -, -, hle, -⟩ := (hs.call j () _ hj').fresh b'.uid t' rfl
        rw [hu] at hle
        omega
      rw [update_of_ne hu] at hgen ⊢
      exact hf.fresh_owner j b' l' t' hj' hgen

theorem inBindSession_bindDone (hb : b.locate = false) (t : Token) :
    bindDone b t = .returned none := by
  simp [bindDone, hb]

theorem bindTokenDone_cases (hb : b.locate = false) (l t : Token) :
    bindTokenDone b l t = .releaseOld b l t ∨ bindTokenDone b l t = .returned none := by
  unfold bindTokenDone
  split
  · exact .inl rfl
  · exact .inr (inBindSession_bindDone hb t)

theorem bindToken_counter (hs : TokenInv L tr s)
    (hord : (s.gate ()).generations b.uid < t.generation)
    (h : (s.gate ()).bindToken b.cid b.uid t = .ok sess) (u : ℤ) :
    sess.generations u = if u = b.uid then t.generation else (s.gate ()).generations u := by
  obtain ⟨-, -, hgens, -⟩ := Session.bindToken_views (hs.index ()) h
  rw [hgens]
  by_cases hu : u = b.uid
  · rw [hu, update_self, if_pos rfl, max_eq_right (le_of_lt hord)]
  · rw [update_of_ne hu, if_neg hu]

omit [DecidableEq κ] in
/-- The newest token of a user is counted by the session, or some call is still to bind it. The
call that binds passes it on to the counter. -/
theorem FencingInv.newest_binds {stage' : Stage} (hf : FencingInv L s)
    (hcall : s.calls i = some ((), .bindToken b l t))
    (hle : t.generation ≤ L.issued s.store b.uid)
    (hord : (s.gate ()).generations b.uid < t.generation) (u : ℤ) :
    (if u = b.uid then t.generation else (s.gate ()).generations u) = L.issued s.store u ∨
      ∃ j b' l' t', update s.calls i (some ((), stage')) j =
        some ((), .bindToken b' l' t') ∧ b'.uid = u ∧ t'.generation = L.issued s.store u := by
  by_cases hu : u = b.uid
  · subst hu
    rw [if_pos rfl]
    rcases hf.newest b.uid with hn | ⟨j, b', l', t', hj, hb', ht'⟩
    · omega
    -- it is this call's token, or that of one still to bind
    by_cases hji : j = i
    · subst hji
      rw [hcall] at hj
      cases hj
      exact .inl ht'
    · exact .inr ⟨j, b', l', t', by rwa [update_of_ne hji], hb', ht'⟩
  · rw [if_neg hu]
    rcases hf.newest u with hn | ⟨j, b', l', t', hj, hb', ht'⟩
    · exact .inl hn
    have hji : j ≠ i := by
      rintro rfl
      rw [hcall] at hj
      cases hj
      exact hu hb'.symm
    exact .inr ⟨j, b', l', t', by rwa [update_of_ne hji], hb', ht'⟩

section

variable (hs : TokenInv L tr s) (hf : FencingInv L s)

include hs hf

theorem FencingInv.binds (hcall : s.calls i = some ((), .bindToken b l t))
    (hord : (s.gate ()).generations b.uid < t.generation)
    (h : (s.gate ()).bindToken b.cid b.uid t = .ok sess) :
    FencingInv L ((s.setGate () sess).goto i () (bindTokenDone b l t)) := by
  obtain ⟨hcon, -, -, c, -, hview⟩ := Session.bindToken_views (hs.index ()) h
  obtain ⟨-, -, -, hle, -⟩ := (hs.call i () _ hcall).fresh b.uid t rfl
  have hdone := bindTokenDone_cases (hf.stages i () _ hcall) l t
  have hgen' := bindToken_counter hs hord h
  refine ⟨fun j g st hj => ?_, fun j g st cid l' hj hfd => ?_, fun u => ?_, fun u t' hb => ?_,
    fun u t' hb hgen => ?_, fun j b' l' t' hj hgen => ?_⟩
  · rcases goto_calls hj with ⟨-, hx⟩ | ⟨-, hj⟩
    · cases hx
      rcases hdone with hd | hd <;> rw [hd]
      · exact hf.stages i () (.bindToken b l t) hcall
      · trivial
    · exact hf.stages j g st hj
  · rcases goto_calls hj with ⟨-, hx⟩ | ⟨-, hj⟩
    · cases hx
      rcases hdone with hd | hd <;> rw [hd] at hfd <;> cases hfd
    · simpa only [Cluster.goto, setGate, update_self, hcon]
        using hf.filed j () st cid l' hj hfd
  · simp only [Cluster.goto, setGate, update_self, hgen' u]
    exact hf.newest_binds hcall hle hord u
  · simp only [Cluster.goto, setGate, update_self, hgen' u, hview u] at hb ⊢
    split at hb
    · rename_i hu
      cases hb
      rw [if_pos hu]
    rename_i hu
    rw [if_neg hu]
    split at hb
    · cases hb
    · exact hf.bound_newest u t' hb
  · simp only [Cluster.goto, setGate, update_self, hview u] at hb hgen ⊢
    split at hb
    · rename_i hu
      cases hb
      subst hu
      exact hf.fresh_owner i b l t hcall hgen
    split at hb
    · cases hb
    · exact hf.bound_owner u t' hb hgen
  · rcases goto_calls hj with ⟨-, hx⟩ | ⟨-, hj⟩
    · -- the call itself does not bind a second time
      have hd := congrArg Prod.snd hx
      rcases hdone with h | h <;> rw [h] at hd <;> cases hd
    · exact hf.fresh_owner j b' l' t' hj hgen

omit [DecidableEq κ] in
/-- A release by a call that moves on takes nothing from a token that is bound or about to
be: the released one has been taken out of its slot. -/
theorem FencingInv.releasesOld (hcall : s.calls i = some ((), .releaseOld b l t)) :
    FencingInv L ({ s with store := (L.release s.store l.uid l).2 }.goto i () (bindDone b t)) := by
  have hcall' := hs.call i () _ hcall
  obtain ⟨⟨cid, hb⟩, hslot⟩ := hcall'.detached l rfl
  rw [inBindSession_bindDone (hf.stages i () _ hcall) t]
  refine hf.goto rfl rfl (L.release_issued _ _ _) (fun u t' hown hcase => ?_) trivial nofun
    (fun b' l' t' h => ?_) nofun
  · refine LawfulStore.release_owner_ne s.store (fun heq => ?_) hown
    subst heq
    rcases hcase with hbnd | ⟨j, b', l', hj⟩
    · obtain ⟨-, cid', -, hslot'⟩ := hs.bound_of_boundToken hbnd
      exact hslot () cid' hslot'
    · exact ((hs.call j () _ hj).fresh b'.uid l rfl).2.2.2.2 () cid hb
  · rw [hcall] at h
    cases h

theorem FencingInv.transition {act : Action Unit κ} {s' : Cluster Unit κ σ}
    (hG : s.fencingGuard act = true) (ht : Transition L s act e s') : FencingInv L s' := by
  simp only [fencingGuard, Bool.and_eq_true] at hG
  obtain ⟨⟨honly, hord⟩, -⟩ := hG
  have hkeep : ∀ u t, L.owner s.store u = some t → ((s.gate ()).boundToken u = some t ∨
      ∃ j b l, s.calls j = some ((), .bindToken b l t)) → L.owner s.store u = some t :=
    fun _ _ h _ => h
  cases ht with
  | connect g c => exact hf.connect c
  | start i g entry stage hfree hst =>
    cases entry with
    | bindSession cid uid =>
      have hst' : stage = .localToken ⟨cid, uid, false⟩ := hst
      subst hst'
      refine hf.goto rfl rfl rfl hkeep rfl nofun (fun b l t h => ?_) nofun
      rw [hfree] at h
      cases h
    | bind | unbind | handleDisconnect => cases honly
  | disconnect => cases honly
  | next i reply g stage _ stage' s₁ hcall hn =>
    have hrp := requestsSucceed_step honly
    subst hrp
    have hstg := hf.stages i () stage hcall
    have hfil := hf.filed i () stage
    -- the acting call is not about to bind, unless its stage says so
    have hoth : (∀ b l t, stage ≠ .bindToken b l t) →
        ∀ b l t, s.calls i ≠ some ((), .bindToken b l t) := by
      intro hne b l t h
      rw [hcall] at h
      exact hne b l t (congrArg Prod.snd (Option.some.inj h))
    cases hn with
    | giveUp _ err hst =>
      refine hf.goto rfl rfl rfl hkeep trivial nofun (hoth ?_) nofun
      rintro b l t rfl
      exact hst
    | readLocal b l h | readOther b l h =>
      refine hf.goto rfl rfl rfl hkeep hstg (fun cid l' h' => ?_) (hoth nofun) nofun
      cases h'
      exact ((Session.token_conn_ok (hs.index ())).mp h).1
    | seen | notCurrent | notOwner =>
      exact hf.goto rfl rfl rfl hkeep hstg (fun cid l' => hfil cid l' hcall)
        (hoth nofun) nofun
    | keepToken b l =>
      rw [inBindSession_bindDone hstg l]
      exact hf.goto rfl rfl rfl hkeep trivial nofun (hoth nofun) nofun
    | acquireFails b l err store h =>
      obtain ⟨ho, hi⟩ := OwnershipStore.acquireReply_error h
      exact hf.goto rfl rfl hi (fun u t h _ => by rwa [ho]) trivial nofun (hoth nofun) nofun
    | acquires b l t store h => exact hf.acquires hs hcall h
    | bindFails b l t err h =>
      -- the connection is filed and the token is real, so `BindToken` cannot fail
      obtain ⟨huid, hpos, hgen, -⟩ := (hs.call i () _ hcall).fresh b.uid t rfl
      obtain ⟨sess, hok⟩ := Session.bindToken_filed (hfil b.cid l hcall rfl) hpos huid hgen
      rw [h] at hok
      cases hok
    | binds b l t sess h => exact hf.binds hs hcall (bindsInOrder_step hord hcall) h
    | releasesOld => exact hf.releasesOld hs hcall
    | _ => exact hstg.elim

end

end Step

theorem init_fencingInv (hiss : ∀ u, L.issued store u = 0) : FencingInv L (init heap store) := by
  refine ⟨fun i g stage h => ?_, fun i g stage cid l h => ?_, fun u => .inl ?_,
    fun u t h => ?_, fun u t h => ?_, fun i b l t h => ?_⟩
  · cases h
  · cases h
  · have h : (0 : ℕ) = L.issued store u := (hiss u).symm
    exact h
  · cases h
  · cases h
  · cases h

variable [DecidableEq κ]

theorem run_fencingInv (hid : ∀ g, Function.Injective fun c => (heap g c).id)
    (hown : ∀ u, L.owner store u = none) (hiss : ∀ u, L.issued store u = 0)
    (hrun : Run (guardedRel (step L.toOwnershipStore) fencingGuard)
      (init heap store) tr s) : TokenInv L tr s ∧ FencingInv L s ∧ OwnershipInv L s := by
  refine run_invariant (fun tr s => TokenInv L tr s ∧ FencingInv L s ∧ OwnershipInv L s)
    ⟨init_tokenInv hid hown, init_fencingInv hiss, init_ownershipInv hown⟩ ?_ hrun
  rintro tr s e s' ⟨hs, hf, hinv⟩ ⟨act, hG, hstep⟩
  have ht := step_transition hstep
  exact ⟨hs.transition ht, hf.transition hs hG ht,
    hinv.transition hs (ownershipGuard_of_fencing hs hf hG) ht⟩

/-- The local session follows the store: in a run of `bindSession` calls whose steps meet
the condition, no step binds a user with an older token than before, and once every call
has returned each user is bound with exactly the token that the store reports. -/
theorem session_follows_store (heap : Unit → κ → ConnObj)
    (hid : ∀ g, Function.Injective fun c => (heap g c).id) (tr : List (Event Unit))
    (s : Cluster Unit κ MemoryOwnershipStore)
    (hrun : Run (guardedRel (step memoryStore.toOwnershipStore) fencingGuard)
      (init heap MemoryOwnershipStore.new) tr s) :
    (∀ e s', guardedRel (step memoryStore.toOwnershipStore) fencingGuard s e s' →
      ∀ u t t', (s.gate ()).boundToken u = some t → (s'.gate ()).boundToken u = some t' →
        t.generation ≤ t'.generation) ∧
    (s.Quiescent → ∀ u, 0 < u →
      memoryStore.current s.store u = .ok ((s.gate ()).boundToken u)) := by
  obtain ⟨hs, hf, hinv⟩ := run_fencingInv hid (fun _ => rfl) (fun _ => rfl) hrun
  refine ⟨?_, fun hq u hpos => ?_⟩
  · rintro e s' ⟨act, hG, hstep⟩ u t t' hb hb'
    have ht := step_transition hstep
    rcases ht.bindings hs.index () u with ⟨i, cid, t'', rfl, h⟩ | ⟨-, h | h⟩
    · rw [h] at hb'
      cases hb'
      obtain ⟨reply, b, l, rfl, hcall, -, rfl⟩ := ht.boundToken_inv
      simp only [fencingGuard, Bool.and_eq_true] at hG
      exact le_of_lt (installsNewer_step (installsNewer_of_bindsInOrder hs hG.1.2) hcall hb)
    · rw [h, hb] at hb'
      cases hb'
      exact le_rfl
    · rw [h] at hb'
      cases hb'
  · -- the store's owner is bound, and what is bound is the newest token, hence the owner's
    have hcur : memoryStore.current s.store u = .ok (s.store.owners u) :=
      if_neg (by omega)
    rw [hcur]
    congr 1
    rcases hb : (s.gate ()).boundToken u with _ | t
    · rcases ho : s.store.owners u with _ | t
      · rfl
      · rcases hinv.accounted u t ho with ⟨g, hb'⟩ | ⟨i, g, stage, hi, howe⟩
        · rw [hb] at hb'
          cases hb'
        · exact absurd howe (hq.not_owes hi t)
    · refine hf.bound_owner u t hb ((hf.bound_newest u t hb).trans ?_)
      rcases hf.newest u with h | ⟨i, b, l, t', hi, -⟩
      · exact h
      obtain ⟨err, h⟩ := hq i () _ hi
      cases h

end BindSession

def overtakenBind : List (Action Unit Bool) :=
  [.connect () false, .connect () true,
    .call 0 () (.bindSession 1 5), .call 1 () (.bindSession 2 5),
    .step 0 .ok, .step 0 .ok, .step 1 .ok, .step 1 .ok, .step 1 .ok]

def overtakenBindRun : Option (List (Event Unit) × Cluster Unit Bool MemoryOwnershipStore) :=
  exec (step memoryStore.toOwnershipStore) (fun _ => onlyBindSession)
    (init twoIdle MemoryOwnershipStore.new) overtakenBind

theorem overtakenBindRun_isSome : overtakenBindRun.isSome = true := rfl

def lateBind : Option (Cluster Unit Bool MemoryOwnershipStore × Event Unit) :=
  (overtakenBindRun.get overtakenBindRun_isSome).2.step memoryStore.toOwnershipStore (.step 0 .ok)

theorem lateBind_isSome : lateBind.isSome = true := rfl

/-- It replaces generation 2 by generation 1, and when both calls have returned the store
reports generation 2. -/
theorem overtaken_bind_regresses : ∃ tr s₀ e s,
    Run (guardedRel (step memoryStore.toOwnershipStore) (fun _ => onlyBindSession))
      (init twoIdle MemoryOwnershipStore.new) tr s₀ ∧
    guardedRel (step memoryStore.toOwnershipStore) (fun _ => onlyBindSession) s₀ e s ∧
    (s₀.gate ()).boundToken 5 = some ⟨5, 2⟩ ∧ (s.gate ()).boundToken 5 = some ⟨5, 1⟩ ∧
    s.Quiescent ∧ memoryStore.current s.store 5 = .ok (some ⟨5, 2⟩) := by
  refine ⟨_, _, _, (lateBind.get lateBind_isSome).1, run_of_exec _ overtakenBindRun_isSome,
    ⟨.step 0 .ok, rfl, (Option.some_get lateBind_isSome).symm⟩, ?_, ?_, ?_, ?_⟩
  · decide +kernel
  · decide +kernel
  · exact quiescent_of_returnedBelow 2 (by decide +kernel) fun _ => rfl
  · decide +kernel

def orderedBinds : List (Action Unit Bool) :=
  [.connect () false, .connect () true, .call 0 () (.bindSession 1 5),
    .step 0 .ok, .step 0 .ok, .step 0 .ok, .call 1 () (.bindSession 2 5),
    .step 1 .ok, .step 1 .ok, .step 1 .ok]

def orderedBindsRun : Option (List (Event Unit) × Cluster Unit Bool MemoryOwnershipStore) :=
  exec (step memoryStore.toOwnershipStore) fencingGuard
    (init twoIdle MemoryOwnershipStore.new) orderedBinds

theorem orderedBindsRun_isSome : orderedBindsRun.isSome = true := rfl

theorem session_follows_store_orderedBinds :
    ∃ s : Cluster Unit Bool MemoryOwnershipStore, s.Quiescent ∧
      (s.gate ()).boundToken 5 = some ⟨5, 2⟩ ∧
      memoryStore.current s.store 5 = .ok ((s.gate ()).boundToken 5) := by
  have hq : (orderedBindsRun.get orderedBindsRun_isSome).2.Quiescent :=
    quiescent_of_returnedBelow 2 (by decide +kernel) fun _ => rfl
  have hb : ((orderedBindsRun.get orderedBindsRun_isSome).2.gate ()).boundToken 5 =
      some ⟨5, 2⟩ := by decide +kernel
  exact ⟨_, hq, hb, (session_follows_store twoIdle twoIdle_id_injective _ _
    (run_of_exec _ orderedBindsRun_isSome)).2 hq 5 (by decide)⟩

end Cluster

end DueServer
