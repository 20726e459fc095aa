import DueServer.GateLinkIsolation
import DueServer.GateLinkPayload
import DueServer.LinkRelease

/-! How often the message of a multicast, a broadcast or a publication is released, and the count
that `Delay` sets for it. -/
namespace DueServer.Link

open Buffer GateLinker GateProg Lib List

namespace Target

variable {target : Target} {hasLocator : Bool} {gid : String} {i : ℕ} {t : Account}

/-- An acknowledged push makes both of its releases: its first call is made, and if it is denied the
second round reaches another gate. -/
def Completes (target : Target) (hasLocator : Bool) : Prop :=
  ∃ gid, target.reach hasLocator 1 "" = .calls gid ∧
    (target.callErr (.push true) 1 gid = some .notFoundSession →
      ∃ gid', target.reach hasLocator 2 gid = .calls gid')

def AsksLocator (target : Target) (hasLocator : Bool) : Prop :=
  target.cached 1 = none ∨ ∃ gid, target.located hasLocator 1 = .ok gid ∧
    target.callErr (.push true) 1 gid = some .notFoundSession ∧ target.cached 2 = none

theorem Fate.releases_eq_two_iff {r : Option GateErr}
    {calls : List (String × Option GateErr)} {n : ℕ}
    (h : target.Fate hasLocator r calls n) : n = 2 ↔ target.Completes hasLocator := by
  cases h with
  | unsent hno e => exact iff_of_false (by decide) fun ⟨gid, hfst, _⟩ => hno ⟨gid, hfst⟩
  | once hfst hkn => simp [Completes, hfst, hkn]
  | same hfst hden hsnd | lost hfst hden hsnd | twice hfst hden hsnd =>
    simp [Completes, hfst, hden, hsnd]

theorem mixed_pushHandler_ack {post : Account → Handled Unit → Prop}
    (hden : target.callErr (.push true) i gid = some .notFoundSession →
      post { t with
        calls := t.calls ++ [(gid, some .notFoundSession)]
        releases := t.releases + 1 } (true, none, some .notFoundSession))
    (hown : target.callErr (.push true) i gid ≠ some .notFoundSession →
      post { t with
        calls := t.calls ++ [(gid, target.callErr (.push true) i gid)]
        releases := t.releases + 1 + (2 - i) } (false, none, target.callErr (.push true) i gid))
    (hcut : post { t with
        calls := t.calls ++ [(gid, some .canceled)]
        releases := t.releases + 1 + (2 - i)
        seen := true } (false, none, some .canceled)) :
    (pushHandler true gid i).Ends target.mixed post t := by
  have hsnd : (target.own (.call (.push true) i gid)).2 = target.callErr (.push true) i gid := rfl
  rw [pushHandler, Prog.ends_bind]
  refine mixed_clientCall ?_ fun _ => ?_
  · simp only [if_true, hsnd]
    by_cases hses : target.callErr (.push true) i gid = some .notFoundSession
    · rw [hses]
      exact hden hses
    rw [if_neg hses, Prog.ends_bind]
    exact mixed_releaseTimes _ (hown hses)
  · have hoth : some GateErr.canceled ≠ some .notFoundSession := by decide
    simp only [if_true, if_neg hoth]
    rw [Prog.ends_bind]
    exact mixed_releaseTimes _ hcut

theorem mixed_completes (hcmp : target.Completes hasLocator)
    (hasks : ¬ target.AsksLocator hasLocator) :
    (doPush hasLocator true).Ends target.mixed (fun t r => t.releases = 2 ∧
      (r ≠ none → target.Fails hasLocator true ∨ t.seen = true) ∧
      (r = none → ¬ target.Fails hasLocator true)) {} := by
  obtain ⟨gid, hfst, hrty⟩ := hcmp
  have hloc := (reach_calls_iff.mp hfst).1
  rw [doPush, Prog.ends_bind]
  refine mixed_rpcRounds (fun _ hnone => absurd (.inl hnone) hasks) ?_
  simp only [hfst]
  refine mixed_pushHandler_ack (fun hden => ?_) (fun hkn => ?_) ?_
  · obtain ⟨gid', hsnd⟩ := hrty hden
    refine mixed_rpcRounds (fun _ hnone => absurd (.inr ⟨gid, hloc, hden, hnone⟩) hasks) ?_
    have hfl := (Fate.twice hfst hden hsnd).fails_iff
    simp only [hsnd]
    refine mixed_pushHandler_ack (fun hden' => ?_) (fun _ => ?_) ?_
    · rw [hden'] at hfl
      exact ⟨rfl, fun hne => .inl (hfl.mp hne), fun hnone => by cases hnone⟩
    · exact ⟨rfl, fun hne => .inl (hfl.mp hne), fun hnone h => hfl.mpr h hnone⟩
    · exact ⟨rfl, fun _ => .inr rfl, fun hnone => by cases hnone⟩
  · have hfl := (Fate.once hfst hkn).fails_iff
    exact ⟨rfl, fun hne => .inl (hfl.mp hne), fun hnone h => hfl.mpr h hnone⟩
  · exact ⟨rfl, fun _ => .inr rfl, fun hnone => by cases hnone⟩

def unlocated (target : Target) : (q : Ask) → q.Answer
  | .locator _ => .error .canceled
  | q => target.own q

theorem play_unlocated_pushHandler (target : Target) (gid : String) (i : ℕ) (t : Account) :
    (pushHandler true gid i).play target.unlocated t =
      (pushHandler true gid i).play target.own t := by
  have hcall : (clientCall (.push true) i gid).play target.unlocated t =
    (clientCall (.push true) i gid).play target.own t := rfl
  rw [pushHandler, play_bind, play_bind, hcall]
  simp only [if_true]
  split
  · rfl
  rw [play_bind, play_bind, play_releaseTimes, play_releaseTimes]
  rfl

theorem releases_unlocated (hcmp : target.Completes hasLocator)
    (hasks : target.AsksLocator hasLocator) :
    ((doPush hasLocator true).play target.unlocated {}).2.releases = 1 := by
  obtain ⟨gid, hfst, -⟩ := hcmp
  obtain ⟨hloc, hne, hbd⟩ := reach_calls_iff.mp hfst
  obtain rfl := hasLocator_of_located hloc
  rw [doPush, play_bind, doRPC, rpcRounds, play_bind,
    play_cut_locateGate target.unlocated 1 {} rfl rfl]
  cases hcch : target.cached 1 with
  | none => rfl
  | some gid' =>
    have hfd : target.located true 1 = .ok gid' := by
      unfold located
      rw [if_neg (by decide), hcch]
    rw [hloc] at hfd
    cases hfd
    -- the first call is denied and the locator is asked in the second round
    obtain ⟨gid', hloc', hden, hnone⟩ := hasks.resolve_left fun h => by
      rw [hcch] at h
      cases h
    rw [hloc] at hloc'
    cases hloc'
    have hown : target.unlocated (.build 1 gid) = none := hbd
    have hhan (t : Account) := (play_unlocated_pushHandler target gid 1 t).trans
      ((play_pushHandler_ack target gid 1 t).trans (if_pos hden))
    have haga (t : Account) := play_cut_locateGate target.unlocated 2 t
      (rfl : _ = target.cached 2) rfl
    unfold GateProg.play at hhan haga ⊢
    simp only [if_neg hne, Prog.run, hown]
    rw [Prog.run_bind, hhan]
    simp only [rpcRounds]
    rw [Prog.run_bind, haga, hnone]
    rfl

end Target

section Pool

variable {targets : ℕ → Target} {n limit : ℕ} {hasLocator ack : Bool} {bytes : List UInt8}
  {message : Shared} {threads : List (GateProg (Option GateErr))} {tr : List (ℕ × Bool)}
  {p p' : GatePool}

/-- The message has been released as often as it was set up for, and its blocks went back once,
after every request had found them. -/
structure Balanced (bytes : List UInt8) (message : Shared) (s : Posted) : Prop where
  count : (s.released : ℤ) = message.due
  freed : s.fan.message.frees = 1
  intact : ∀ u ∈ s.fan.used, u = some bytes

/-- In every run of the group: once its goroutines have ended, the message is balanced if and only
if the writers have taken every request. -/
def Balances (targets : ℕ → Target) (bytes : List UInt8) (p : GatePool) : Prop :=
  ∀ tr p', Run (Pool.rel (Posted.serve targets)) p.posted tr p' → p'.Done →
    (Balanced bytes p.shared.message p'.shared ↔ p'.shared.queued = 0)

theorem run_within (hlen : threads.length = n) (hends : ∀ t ∈ threads,
      t.Ends (within limit) (fun t _ => 1 ≤ t.releases ∧ t.releases ≤ limit) {})
    (hrun : Runs targets ⟨threads, .start message n⟩ tr p) (hdone : p.Done) :
    p.shared.accounts.length = n ∧
      ∀ i < n, 1 ≤ (p.shared.account i).releases ∧ (p.shared.account i).releases ≤ limit := by
  obtain ⟨hacc, hall⟩ := Pool.run_ends (fun _ => within limit)
    (fun _ t _ => 1 ≤ t.releases ∧ t.releases ≤ limit) (fun i s => s.account i)
    (fun s => s.accounts.length = n) (by
      intro i x s q hi hs _
      have hi' : i < s.accounts.length := Nat.lt_of_lt_of_eq hi (hlen.trans hs.symm)
      exact ⟨trivial, Fan.account_note_self hi', fun j hj => Fan.account_note_ne hj,
        Fan.length_note.trans hs⟩) length_replicate (by
      intro i t ht
      rw [Fan.account_start]
      exact hends t (mem_of_getElem? ht)) hrun
  refine ⟨hacc, fun i hi => ?_⟩
  obtain ⟨r, -, hbnds⟩ := post_of_done ((Pool.run_length hrun).trans hlen) hdone hi (hall i)
  exact hbnds

theorem le_releases {s : Fan} (hlen : s.accounts.length = n)
    (h : ∀ i < n, 1 ≤ (s.account i).releases) : n ≤ s.releases := by
  have hone := length_le_sum_of_one_le (s.accounts.map Account.releases) (by
    intro m hm
    obtain ⟨t, ht, rfl⟩ := mem_map.mp hm
    exact forall_accounts (P := fun t => 1 ≤ t.releases) hlen h t ht)
  rwa [length_map, hlen] at hone

theorem releases_lt {s : Fan} {i : ℕ} (hlen : s.accounts.length = n)
    (h : ∀ i < n, (s.account i).releases ≤ limit) (hi : i < n)
    (hlt : (s.account i).releases < limit) : s.releases < n * limit := by
  rw [← hlen]
  exact sum_map_lt (forall_accounts hlen h)
    ⟨_, Fan.mem_account (hlen.symm ▸ hi), hlt⟩

theorem balances_of_releases (hrea : Ready bytes limit n p)
    (hall : ∀ tr p', Runs targets p tr p' → p'.Done →
      ∀ i < n, (p'.shared.account i).releases = limit)
    (hdue : p.shared.message.due = (n * limit : ℕ)) : Balances targets bytes p := by
  intro tr p' hposts hdone
  obtain ⟨hlen, hcou⟩ := hrea.run hposts
  obtain ⟨tr', s, hrun, halike⟩ := Posts.runs hposts
  have hsum : p'.shared.fan.releases = p'.shared.fan.accounts.length * limit := by
    refine sum_map_eq (forall_accounts hlen fun i hi => ?_)
    rw [halike.account]
    exact hall tr' _ hrun hdone i hi
  have htotal := hcou.total
  rw [hsum, hlen] at htotal
  constructor
  · intro hbal
    have hct := Int.ofNat.inj (hbal.count.trans hdue)
    omega
  · intro hqueued
    rw [hqueued, Nat.add_zero] at htotal
    refine ⟨?_, ?_, hcou.used⟩
    · rw [hdue, htotal]
    · have hlast : p'.shared.released = p'.shared.fan.accounts.length * limit := by
        rw [hlen, htotal]
      exact hcou.holds.frees.trans (if_pos hlast)

/-- The writers may take each request at once. -/
theorem Balances.releases (h : Balances targets bytes ⟨threads, .start message n⟩)
    (hlen : threads.length = n) (hrun : Runs targets ⟨threads, .start message n⟩ tr p)
    (hdone : p.Done) : (p.shared.releases : ℤ) = message.due := by
  obtain ⟨tr', hposts⟩ := Runs.posts hrun (length_replicate.trans hlen.symm) releases_start
  exact ((h tr' _ hposts hdone).mpr rfl).count

theorem due_multicastMessage (hpos : n ≠ 0) (hsm : n * pushLimit ack < 2 ^ 31) :
    (multicastMessage n ack bytes).due = (n * pushLimit ack : ℕ) := by
  have hpos' : 0 < n := Nat.pos_of_ne_zero hpos
  unfold multicastMessage
  cases ack with
  | true => exact Shared.due_setDelay bytes (Nat.mul_pos hpos' Nat.two_pos) hsm
  | false =>
    have hmul : n * pushLimit false = n := Nat.mul_one n
    rw [hmul] at hsm ⊢
    rw [if_neg Bool.false_ne_true]
    split
    · rename_i hone
      rw [hone]
      rfl
    · exact Shared.due_setDelay bytes hpos' hsm

theorem ne_due_multicastMessage (hlg : 2 ^ 31 ≤ n * pushLimit ack) {r : ℕ} (hr : n ≤ r) :
    (r : ℤ) ≠ (multicastMessage n ack bytes).due := by
  unfold multicastMessage
  cases ack with
  | true => exact Shared.ne_due_setDelay bytes hlg (by omega)
  | false =>
    have hmul : n * pushLimit false = n := Nat.mul_one n
    rw [hmul] at hlg
    rw [if_neg Bool.false_ne_true, if_neg (by omega)]
    exact Shared.ne_due_setDelay bytes hlg (by omega)

theorem balances_single_iff (hpos : n ≠ 0) (hlen : threads.length = n)
    (hends : ∀ t ∈ threads, t.Ends (within 1) (fun t _ => 1 ≤ t.releases ∧ t.releases ≤ 1) {}) :
    Balances targets bytes ⟨threads, .start (multicastMessage n false bytes) n⟩ ↔ n < 2 ^ 31 := by
  have hmul : n * pushLimit false = n := Nat.mul_one n
  constructor
  · intro h
    obtain ⟨tr, p, hrun, hdone⟩ := Pool.exists_run_done (Fan.serve targets) false
      (⟨threads, .start (multicastMessage n false bytes) n⟩ : GatePool)
    obtain ⟨hacc, hbnds⟩ := run_within hlen hends hrun hdone
    by_contra hlg
    have hlg' : 2 ^ 31 ≤ n * pushLimit false := hmul.symm ▸ Nat.le_of_not_lt hlg
    exact ne_due_multicastMessage hlg' (le_releases hacc fun i hi => (hbnds i hi).1)
      (h.releases hlen hrun hdone)
  · intro hsm
    have hsm' : n * pushLimit false < 2 ^ 31 := hmul.symm ▸ hsm
    have hrea : Ready bytes 1 n ⟨threads, .start (multicastMessage n false bytes) n⟩ :=
      ready_start hlen bytes_multicastMessage (holds_multicastMessage hpos (Nat.le_of_lt hsm'))
        hends
    refine balances_of_releases hrea ?_ (due_multicastMessage hpos hsm')
    intro tr p hrun hdone i hi
    obtain ⟨-, hbnds⟩ := run_within hlen hends hrun hdone
    exact Nat.le_antisymm (hbnds i hi).2 (hbnds i hi).1

def Ask.locates : Ask → Bool
  | .locator _ => true
  | _ => false

theorem answer_unlocated {s : Fan} {q : Ask} (hcut : s.groupErr ≠ none) (hq : q.pushing = true)
    (target : Target) :
    s.answer target q.locates q = target.unlocated q := by
  cases q with
  | locator round => exact answer_severed rfl hcut target
  | _ => exact answer_own hq target

/-- With an acknowledgement all goroutines make their two releases, if the context cannot cut off
one that asks the locator. -/
theorem run_completes (hcmp : ∀ i < n, (targets i).Completes hasLocator)
    (hcond : ∀ i < n, ∀ j < n, i ≠ j → (targets i).Fails hasLocator true →
      ¬ (targets j).AsksLocator hasLocator)
    (hrun : Runs targets (groupOf hasLocator n true message) tr p)
    (hdone : p.Done) : ∀ i < n, (p.shared.account i).releases = 2 := by
  have hthrs : (replicate n (multicastTarget hasLocator true)).length = n :=
    length_replicate
  have hends := (run_group true (fun _ t _ => t.releases = 2 ∧
      ((¬ ∃ i < n, (targets i).Fails hasLocator true) → t.counted = 1) ∧
      ((∀ i < n, (targets i).Fails hasLocator true) → t.counted = 0))
    hcond hthrs sound_start (by
      intro i t ht
      have hi : i < n := hthrs ▸ (List.getElem?_eq_some_iff.mp ht).1
      rw [eq_of_mem_replicate (mem_of_getElem? ht), Fan.account_start]
      exact group_multicastTarget (P := fun _ releases => releases = 2)
        (Target.mixed_completes (hcmp i hi))
        (fun _ => ((targets i).fate hasLocator).releases_eq_two_iff.mpr (hcmp i hi))
        ((targets i).fails_iff hasLocator true)) hrun).2
  intro i hi
  obtain ⟨r, -, htwo, -⟩ := post_of_done ((Pool.run_length hrun).trans hthrs) hdone hi (hends i)
  exact htwo

theorem releases_ne_due {i : ℕ} (hpos : n ≠ 0) (hsm : n * 2 < 2 ^ 31) (hi : i < n)
    (hrun : Runs targets (multicastPool hasLocator n true bytes) tr p) (hdone : p.Done)
    (hone : (p.shared.account i).releases ≠ 2) :
    ¬ Balances targets bytes (multicastPool hasLocator n true bytes) := by
  intro hbal
  obtain ⟨hlen, hbnds⟩ := run_within length_multicastThreads within_multicastThreads hrun hdone
  have hlt := releases_lt hlen (fun i hi => (hbnds i hi).2) hi
    (Nat.lt_of_le_of_ne (hbnds i hi).2 hone)
  have hct := (hbal.releases length_multicastThreads hrun hdone).trans
    (due_multicastMessage hpos hsm)
  exact absurd (Int.ofNat.inj hct) (Nat.ne_of_lt hlt)

theorem ack_small (h : Balances targets bytes (multicastPool hasLocator n true bytes)) :
    n * 2 < 2 ^ 31 := by
  obtain ⟨tr, p, hrun, hdone⟩ := Pool.exists_run_done (Fan.serve targets) false
    (multicastPool hasLocator n true bytes)
  obtain ⟨hlen, hbnds⟩ := run_within length_multicastThreads within_multicastThreads hrun hdone
  by_contra hlg
  have hlg' : 2 ^ 31 ≤ n * pushLimit true := Nat.le_of_not_lt hlg
  exact ne_due_multicastMessage hlg' (le_releases hlen fun i hi => (hbnds i hi).1)
    (h.releases length_multicastThreads hrun hdone)

/-- The message of an acknowledged multicast is released as often as it was set up for, if and only
if the count fits, every target makes both releases alone, and no target fails while another one
asks the locator. -/
theorem balances_ack_iff (targets : ℕ → Target) (hpos : n ≠ 0) :
    Balances targets bytes (multicastPool hasLocator n true bytes) ↔
    n * 2 < 2 ^ 31 ∧ (∀ i < n, (targets i).Completes hasLocator) ∧
      ∀ i < n, ∀ j < n, i ≠ j → (targets i).Fails hasLocator true →
        ¬ (targets j).AsksLocator hasLocator := by
  by_cases hn : n = 1
  · subst hn
    have hfate := ((targets 0).fate hasLocator).releases_eq_two_iff
    constructor
    · intro h
      refine ⟨by decide, fun i hi => ?_, fun i hi j hj hne => ?_⟩
      · rw [Nat.lt_one_iff.mp hi, ← hfate]
        obtain ⟨tr, p, hrun, hdone⟩ := Pool.exists_run_done (Fan.serve targets) false
          (multicastPool hasLocator 1 true bytes)
        by_contra hone
        refine releases_ne_due hpos (by decide) Nat.one_pos hrun hdone ?_ h
        rw [(run_one hrun hdone).2.2.2]
        exact hone
      · exact absurd ((Nat.lt_one_iff.mp hi).trans (Nat.lt_one_iff.mp hj).symm) hne
    · rintro ⟨hsm, hcmp, -⟩
      refine balances_of_releases (ready_multicast hpos (Nat.le_of_lt hsm)) ?_
        (due_multicastMessage hpos hsm)
      intro tr p hrun hdone i hi
      rw [Nat.lt_one_iff.mp hi, (run_one hrun hdone).2.2.2]
      exact hfate.mpr (hcmp 0 Nat.one_pos)
  · have hthrs : multicastThreads hasLocator n true =
      replicate n (multicastTarget hasLocator true) := if_neg hn
    constructor
    · intro h
      have hsm := ack_small h
      have hpush := (ends_doPush hasLocator true).mono fun _ _ _ => trivial
      have hthr {k : ℕ} (hk : k < n) : (multicastThreads hasLocator n true)[k]? =
          some ((doPush hasLocator true).bind afterPush) := by
        rw [hthrs]
        exact getElem?_replicate_of_lt hk
      have hcmp : ∀ i < n, (targets i).Completes hasLocator := by
        intro i hi
        rw [← ((targets i).fate hasLocator).releases_eq_two_iff]
        by_contra hone
        obtain ⟨tr, p, hrun, hdone, hsett⟩ := exists_run_alone (multicastMessage n true bytes)
          targets hi (hthr hi) hpush settling_afterPush
        refine releases_ne_due hpos hsm hi hrun hdone ?_ h
        rw [hsett.2]
        exact hone
      refine ⟨hsm, hcmp, fun i hi j hj hne hfl hasks => ?_⟩
      obtain ⟨e, he⟩ := Option.ne_none_iff_exists'.mp
        (((targets i).fails_iff hasLocator true).mpr hfl)
      obtain ⟨tr, p, hrun, hdone, hsett⟩ := exists_run_cut (multicastMessage n true bytes) targets
        Ask.locates (targets j).unlocated
        (fun s q hs hq => answer_unlocated hs hq _) hne hi hj (hthr hi) (hthr hj) hpush hpush
        settling_afterPush (groupErr_afterPush he)
      refine releases_ne_due hpos hsm hj hrun hdone ?_ h
      rw [hsett.2, Target.releases_unlocated (hcmp j hj) hasks]
      decide
    · rintro ⟨hsm, hcmp, hcond⟩
      refine balances_of_releases (ready_multicast hpos (Nat.le_of_lt hsm)) ?_
        (due_multicastMessage hpos hsm)
      intro tr p hrun hdone
      rw [multicastPool, hthrs] at hrun
      exact run_completes hcmp hcond hrun hdone

theorem within_endpoint {body : GateProg (ℤ × Option GateErr)}
    {f : ℤ × Option GateErr → GateProg (Option GateErr)}
    (h : body.Ends (pushing 1) (fun t _ => t.Pushing 1) {})
    (hf : f = afterCall ∨ f = fun r => .ret r.2) :
    (body.bind f).Ends (within 1) (fun t _ => 1 ≤ t.releases ∧ t.releases ≤ 1) {} := by
  rw [Prog.ends_bind]
  refine (within_of_pushing h).mono ?_
  rintro t ⟨v, err⟩ ht
  have hone : 1 ≤ t.releases ∧ t.releases ≤ 1 := by
    rw [ht.1]
    decide
  have hno {q : Ask} {t : Account} (hq : q.uses = false) : (within 1).may t q := by
    intro hu
    rw [hq] at hu
    cases hu
  rcases hf with rfl | rfl
  · cases err with
    | some e => exact ⟨hno rfl, fun _ _ => hone⟩
    | none => exact ⟨hno rfl, fun _ _ => ⟨hno rfl, fun _ _ => hone⟩⟩
  · exact hone

theorem balances_endpoints_iff {addrs : List String} {body : String → GateProg (ℤ × Option GateErr)}
    (hbody : ∀ addr, (body addr).Ends (pushing 1) (fun t _ => t.Pushing 1) {})
    (hstr : toEndpoints addrs (.ok bytes) body = .inr p) :
    Balances targets bytes p ↔ addrs.length < 2 ^ 31 := by
  obtain ⟨hpos, bytes', hbs, rfl⟩ := started_toEndpoints hstr
  cases hbs
  refine balances_single_iff hpos (length_map _) ?_
  intro t ht
  obtain ⟨addr, -, rfl⟩ := mem_map.mp ht
  refine within_endpoint (hbody addr) ?_
  by_cases hone : addrs.length = 1
  · exact .inr (if_pos hone)
  · exact .inl (if_neg hone)

end Pool

/-- The message of a group is released as often as it was set up for, its blocks go back once and no
call finds them gone, in every interleaving in which the writers take every request: if the count
fits in an `int32`, and for an acknowledged multicast if every target makes both of its releases and
none fails while another one asks the locator. `deliver` has each of its buffers released once, if
those in the queues are taken: if the message can be packed and neither a nil error without a call
nor a lost second round leaves one behind. -/
theorem release_accounting_iff (hasLocator ack : Bool) (bytes : List UInt8) (targets : ℕ → Target)
    (l : NodeLinker) :
    (∀ n p, doIndirectMulticast hasLocator n (.ok bytes) ack = .inr p →
      (Balances targets bytes p ↔
        n * pushLimit ack < 2 ^ 31 ∧ (ack = true →
          (∀ i < n, (targets i).Completes hasLocator) ∧
          ∀ i < n, ∀ j < n, i ≠ j → (targets i).Fails hasLocator true →
            ¬ (targets j).AsksLocator hasLocator))) ∧
    (∀ addrs p, broadcast addrs (.ok bytes) ack = .inr p →
      (Balances targets bytes p ↔ addrs.length < 2 ^ 31)) ∧
    (∀ channel addrs p, publish channel addrs (.ok bytes) ack = .inr p →
      (Balances targets bytes p ↔ addrs.length < 2 ^ 31)) ∧
    ∀ rounds args strict,
      (∃ sent, l.deliver rounds args strict = some sent ∧
        ∀ taken, sent.ReleasedOnce taken ↔ ∀ k ∈ sent.queued, taken k = true) ↔
      l.Accounts rounds args := by
  refine ⟨fun n p hstr => ?_, fun addrs p hstr => ?_, fun channel addrs p hstr => ?_,
    fun rounds args strict => l.deliver_releases_iff rounds args strict⟩
  · obtain ⟨hpos, bytes', hbs, rfl⟩ := started_multicast hstr
    cases hbs
    cases ack with
    | true =>
      refine (balances_ack_iff targets hpos).trans (and_congr_right fun _ => ?_)
      exact ⟨fun h _ => h, fun h => h rfl⟩
    | false =>
      have hmul : n * pushLimit false = n := Nat.mul_one n
      rw [balances_single_iff hpos length_multicastThreads within_multicastThreads, hmul]
      exact ⟨fun h => ⟨h, fun hack => by cases hack⟩, fun h => h.1⟩
  · exact balances_endpoints_iff (ends_dialled (.broadcast ack) none) hstr
  · exact balances_endpoints_iff (ends_dialled (.publish ack) (channelErr channel)) hstr

theorem offlineAlone_isSome : (exec (Pool.step (Posted.serve offlineAndOnline))
    (fun _ _ => true) (multicastPool true 1 true [1, 2, 3]).posted
    [(0, false, 0), (0, false, 0), (0, false, 0)]).isSome = true := rfl

/-- A target that cannot be located is released once instead of twice, and the block is never handed
back. `deliver` panics if its message cannot be packed, and leaves the buffer of the second round
behind if the user cannot be located any more. -/
theorem buffers_left_behind : (∃ p tr p', doIndirectMulticast true 1 (.ok [1, 2, 3]) true = .inr p ∧
      Run (Pool.rel (Posted.serve offlineAndOnline)) p.posted tr p' ∧ p'.Done ∧
      p'.shared.queued = 0 ∧ p'.shared.released = 1 ∧ p.shared.message.due = 2 ∧
      p'.shared.fan.message.frees = 0) ∧
    NodeLinker.deliver
      ⟨false, true, fun _ => some ⟨false, true, true⟩, fun _ => none⟩
      (⟨some "game-1", .ok "game-1", fun _ => .ok "10.0.0.1", fun _ => none, fun _ => none⟩,
        ⟨none, .ok "game-1", fun _ => .ok "10.0.0.1", fun _ => none, fun _ => none⟩)
      ⟨"", 42, 99, .message (.error (.external 1))⟩ false = none ∧
    ∃ sent, NodeLinker.deliver
      ⟨true, true, fun _ => some ⟨false, true, true⟩, fun _ => none⟩
      (⟨some "game-1", .ok "game-1", fun _ => .ok "10.0.0.1", fun _ => none,
          fun _ => some (.external 1)⟩,
        ⟨none, .ok "", fun _ => .ok "10.0.0.1", fun _ => none, fun _ => none⟩)
      ⟨"", 42, 99, .bytes (some [104, 105])⟩ true = some sent ∧
        sent.built = 2 ∧ sent.queued = [0] ∧ sent.released = [] := by
  refine ⟨⟨_, _, _, rfl, run_of_exec _ offlineAlone_isSome, ?_⟩, rfl, _, rfl, ?_⟩
  · decide +kernel
  · decide +kernel

end DueServer.Link
