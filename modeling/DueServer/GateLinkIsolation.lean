import DueServer.GateLinkFate
import DueServer.GateLinkGroup

/-! Whether the goroutines of `Multicast`, `Broadcast` and `Publish` do what they would do alone.
The context of the group is shared, so that a failure cuts off every goroutine that waits for the
locator or for a gate. -/
namespace DueServer.Link

open Buffer GateLinker GateProg Lib Option Fan Target List

section Cut

variable {α : Type} {targets : ℕ → Target} {i j n limit : ℕ} {giveUp : Bool} {s : Fan}
  {w : GateProg α} {q : Ask}

theorem answer_own (h : q.pushing = true) (target : Target) :
    s.answer target false q = target.own q := by
  cases q <;> first | rfl | cases h

theorem answer_severed (h : q.pushing = true) (hcut : s.groupErr ≠ none) (target : Target) :
    s.answer target true q = target.severed q := by
  have hans : s.answer target true q =
      if true && s.groupErr.isSome then target.severed q else target.own q := by
    cases q <;> first | rfl | cases h
  rw [hans, isSome_iff_ne_none.mpr hcut]
  rfl

theorem account_run_ne (targets : ℕ → Target) (w : GateProg α) (choice : Ask → Bool) (s : Fan)
    (h : j ≠ i) :
    (w.run (fun s q => serve targets i (choice q) s q) s).2.account j = s.account j :=
  Prog.run_keeps (fun s' => s'.account j = s.account j)
    (fun _ _ hs => (account_note_ne h).trans hs) w s rfl

theorem length_run (targets : ℕ → Target) (w : GateProg α) (choice : Ask → Bool) (s : Fan) :
    (w.run (fun s q => serve targets i (choice q) s q) s).2.accounts.length =
      s.accounts.length :=
  Prog.run_keeps (fun s' => s'.accounts.length = s.accounts.length)
    (fun _ _ hs => length_note.trans hs) w s rfl

theorem run_push (targets : ℕ → Target) (choice : Ask → Bool) (o : (q : Ask) → q.Answer)
    (hpush : w.Ends (pushing limit) (fun _ _ => True) {})
    (hi : i < s.accounts.length) (hfr : s.account i = {})
    (ho : ∀ (s' : Fan) (q : Ask), s'.groupErr = s.groupErr → q.pushing = true →
      s'.answer (targets i) (choice q) q = o q) :
    ∃ s', w.run (fun s q => serve targets i (choice q) s q) s = ((w.play o {}).1, s') ∧
      s'.account i = (w.play o {}).2 ∧ s'.groupErr = s.groupErr := by
  have halo := push_alone o hpush ⟨rfl, rfl⟩
  rw [← hfr] at halo
  obtain ⟨⟨-, hend⟩, -, hgro⟩ := Prog.Ends.run
    (fun s q => serve targets i (choice q) s q)
    (fun s => s.account i) (fun s' => i < s'.accounts.length ∧ s'.groupErr = s.groupErr) (by
      rintro s' q ⟨hlt, hsame⟩ ⟨hq, -⟩
      refine ⟨ho s' q hsame hq, account_note_self hlt, ?_, ?_⟩
      · exact length_note.symm ▸ hlt
      · rw [← hsame]
        cases q <;> first | rfl | cases hq) ⟨hi, rfl⟩ halo
  rw [hfr] at hend
  refine ⟨(w.run (fun s q => serve targets i (choice q) s q) s).2, ?_,
    congrArg Prod.snd hend, hgro⟩
  exact congrArg (·, _) (congrArg Prod.fst hend)

def settling : Contract Ask Ask.Answer Account where
  may _ q := q.pushing = false
  ans _ _ _ := True
  note := Account.note

def Account.Settled (t t' : Account) : Prop := t'.calls = t.calls ∧ t'.releases = t.releases

theorem settled_note {t t' : Account} {a : q.Answer} (hq : q.pushing = false)
    (h : t.Settled t') : t.Settled (t'.note q a) := by
  cases q <;> first | exact h | cases hq

theorem run_settling (targets : ℕ → Target) (choice : Ask → Bool) (hi : i < s.accounts.length)
    (h : w.Ends settling (fun _ _ => True) (s.account i)) :
    (s.account i).Settled
      ((w.run (fun s q => serve targets i (choice q) s q) s).2.account i) := by
  have hkept := Prog.Ends.invariant (fun t => (s.account i).Settled t)
    (fun t q a hmay ht => settled_note hmay ht) h ⟨rfl, rfl⟩
  refine (Prog.Ends.run (fun s q => serve targets i (choice q) s q) (fun s => s.account i)
    (fun s' => i < s'.accounts.length) ?_ hi hkept).1.1
  intro s' q hlt _
  exact ⟨trivial, account_note_self hlt, length_note.symm ▸ hlt⟩

theorem exists_run_goroutine {threads : List (GateProg (Option GateErr))}
    {f : α → GateProg (Option GateErr)} (targets : ℕ → Target) (choice : Ask → Bool)
    (o : (q : Ask) → q.Answer) (hpush : w.Ends (pushing limit) (fun _ _ => True) {})
    (hsett : ∀ r t, (f r).Ends settling (fun _ _ => True) t)
    (hi : i < s.accounts.length) (hfr : s.account i = {})
    (hthr : threads[i]? = some (w.bind f))
    (ho : ∀ (s' : Fan) (q : Ask), s'.groupErr = s.groupErr → q.pushing = true →
      s'.answer (targets i) (choice q) q = o q) :
    ∃ tr r s₁ s₂, Runs targets ⟨threads, s⟩ tr
        ⟨threads.set i (.ret r), s₂⟩ ∧
      s₂ = ((f (w.play o {}).1).run (fun s q => serve targets i (choice q) s q) s₁).2 ∧
      (w.play o {}).2.Settled (s₂.account i) ∧ s₂.accounts.length = s.accounts.length ∧
      ∀ j, j ≠ i → s₂.account j = s.account j := by
  obtain ⟨tr, hrun⟩ := Pool.exists_run_choice (p := (⟨threads, s⟩ : GatePool))
    (serve targets) choice _ hthr
  obtain ⟨s₁, hs₁, hacc, -⟩ := run_push targets choice o hpush hi hfr ho
  have hlen := length_run (i := i) targets w choice s
  rw [hs₁] at hlen
  refine ⟨tr, _, s₁, _, hrun, ?_, ?_, length_run targets _ choice s, fun j hj => ?_⟩
  · rw [Prog.run_bind, hs₁]
  · rw [Prog.run_bind, hs₁, ← hacc]
    exact run_settling targets choice (hlen.symm ▸ hi) (hsett _ _)
  · exact account_run_ne targets _ choice s hj

theorem exists_run_rest (targets : ℕ → Target) {p : GatePool} {r : Option GateErr}
    (hj : p.threads[j]? = some (.ret r)) :
    ∃ tr p', Runs targets p tr p' ∧ p'.Done ∧
      p'.shared.account j = p.shared.account j := by
  obtain ⟨tr, p', hrun, hdone⟩ := Pool.exists_run_done (serve targets) false p
  have hkept := Pool.run_returned (fun j s => s.account j)
    (fun i x s q j hji => account_note_ne hji) hj hrun
  exact ⟨tr, p', hrun, hdone, hkept.2⟩

theorem getElem?_set_of_thread {threads : List (GateProg (Option GateErr))}
    {t t' : GateProg (Option GateErr)} (h : threads[i]? = some t) :
    (threads.set i t')[i]? = some t' :=
  getElem?_set_self (List.getElem?_eq_some_iff.mp h).1

theorem exists_run_alone {threads : List (GateProg (Option GateErr))} (message : Shared)
    {f : α → GateProg (Option GateErr)} (targets : ℕ → Target) (hi : i < n)
    (hthr : threads[i]? = some (w.bind f))
    (hpush : w.Ends (pushing limit) (fun _ _ => True) {})
    (hsettl : ∀ r t, (f r).Ends settling (fun _ _ => True) t) :
    ∃ tr p, Runs targets ⟨threads, .start message n⟩ tr p ∧ p.Done ∧
      (w.play (targets i).own {}).2.Settled (p.shared.account i) := by
  have hlen : (start message n).accounts.length = n := length_replicate
  obtain ⟨tr, r, -, s, hrun, -, hsett, -⟩ := exists_run_goroutine targets (fun _ => false)
    (targets i).own hpush hsettl (hlen.symm ▸ hi) account_start hthr
    fun s' q _ hq => answer_own hq _
  obtain ⟨tr', p, hrun', hdone, hkept⟩ := exists_run_rest targets
    (p := ⟨threads.set i (.ret r), s⟩) (getElem?_set_of_thread hthr)
  refine ⟨_, p, run_append hrun hrun', hdone, ?_⟩
  rw [hkept]
  exact hsett

/-- If the first goroutine to end fails, another one may be answered by the context as `choice`
says, with `o` as the answers. -/
theorem exists_run_cut {threads : List (GateProg (Option GateErr))} (message : Shared)
    {w' : GateProg α} {f : α → GateProg (Option GateErr)} (targets : ℕ → Target)
    (choice : Ask → Bool) (o : (q : Ask) → q.Answer)
    (ho : ∀ (s : Fan) (q : Ask), s.groupErr ≠ none → q.pushing = true →
      s.answer (targets j) (choice q) q = o q)
    (hne : i ≠ j) (hi : i < n) (hj : j < n) (hith : threads[i]? = some (w.bind f))
    (hjth : threads[j]? = some (w'.bind f))
    (hpush : w.Ends (pushing limit) (fun _ _ => True) {})
    (hpush' : w'.Ends (pushing limit) (fun _ _ => True) {})
    (hsett : ∀ r t, (f r).Ends settling (fun _ _ => True) t)
    (hcan : ∀ s, ((f (w.play (targets i).own {}).1).run
      (fun s q => serve targets i false s q) s).2.groupErr ≠ none) :
    ∃ tr p, Runs targets ⟨threads, .start message n⟩ tr p ∧ p.Done ∧
      (w'.play o {}).2.Settled (p.shared.account j) := by
  have hlen : (start message n).accounts.length = n := length_replicate
  -- the first goroutine, left alone
  obtain ⟨tr, r, s, first, hrun, hfst, -, hlen', hoths⟩ := exists_run_goroutine targets
    (fun _ => false) (targets i).own hpush hsett (hlen.symm ▸ hi) account_start hith
    fun s' q _ hq => answer_own hq _
  have hcut : first.groupErr ≠ none := hfst ▸ hcan s
  -- the second one, answered by the context
  obtain ⟨tr', r', -, second, hrun', -, hsettl, -⟩ := exists_run_goroutine targets choice o hpush'
    hsett ((hlen'.trans hlen).symm ▸ hj) ((hoths j hne.symm).trans account_start)
    ((getElem?_set_ne hne).trans hjth) fun s' q hs' hq => ho s' q (hs' ▸ hcut) hq
  -- and then the rest
  obtain ⟨tr'', p, hrun'', hdone, hkept⟩ := exists_run_rest targets
    (p := ⟨(threads.set i (.ret r)).set j (.ret r'), second⟩)
    (getElem?_set_of_thread ((getElem?_set_ne hne).trans hjth))
  refine ⟨_, p, run_append (run_append hrun hrun') hrun'', hdone, ?_⟩
  rw [hkept]
  exact hsettl

end Cut

theorem sound_start {message : Shared} {n : ℕ} {named : Bool} {fails : ℕ → Prop} :
    (start message n).Sound n named fails where
  length := length_replicate
  total := by
    unfold start
    rw [map_replicate, sum_replicate]
    exact (nsmul_zero n).symm
  err := fun h => absurd rfl h
  groupErr := fun h => absurd rfl h
  seen := fun i _ h => by rw [account_start] at h; cases h
  all := fun _ _ i _ h => by rw [account_start] at h; exact absurd rfl h

theorem post_of_done {c : Contract Ask Ask.Answer Account} {p : GatePool} {i n : ℕ}
    {post : Account → Option GateErr → Prop} (hlen : p.threads.length = n) (hdone : p.Done)
    (hi : i < n)
    (h : ∀ t : GateProg (Option GateErr), p.threads[i]? = some t →
      t.Ends c post (p.shared.account i)) :
    ∃ r, p.threads[i]? = some (.ret r) ∧ post (p.shared.account i) r := by
  have hget := getElem?_eq_getElem (hlen.symm ▸ hi : i < p.threads.length)
  obtain ⟨r, hr⟩ := hdone _ (mem_of_getElem? hget)
  rw [hr] at hget
  exact ⟨r, hget, h _ hget⟩

section Multicast

variable {targets : ℕ → Target} {target : Target} {n : ℕ} {hasLocator ack : Bool}
  {message : Shared} {tr : List (ℕ × Bool)} {p : GatePool}

def Target.aloneCalls (target : Target) (hasLocator ack : Bool) : List (String × Option GateErr) :=
  ((doPush hasLocator ack).play target.own {}).2.calls

theorem mixed_of_not_exposed (h : ¬ target.Exposed hasLocator ack) :
    (doPush hasLocator ack).Ends target.mixed (fun t r =>
      t.calls = target.aloneCalls hasLocator ack ∧
      (r ≠ none → target.Fails hasLocator ack ∨ t.seen = true) ∧
      (r = none → ¬ target.Fails hasLocator ack)) {} := by
  by_cases hsent : target.Sent hasLocator
  · have hack : ack = false := Bool.eq_false_iff.mpr fun hack => h ⟨hsent, .inl hack⟩
    subst hack
    refine (mixed_send fun hnone => h ⟨hsent, .inr hnone⟩).mono ?_
    intro t r hend
    refine ⟨(hend.unique (target.sending hasLocator) hsent).2, ?_, ?_⟩
    · exact fun hne => .inl (hend.fails_iff.mp hne)
    · exact fun hnone hfl => hend.fails_iff.mpr hfl hnone
  · refine (mixed_unsent hsent).mono ?_
    rintro t r ⟨hcs, hne⟩
    refine ⟨hcs.trans (calls_of_unsent ack hsent).symm, ?_, fun h => absurd h hne⟩
    exact fun _ => .inl (fails_of_unsent hsent)

theorem run_multicastTargets (hcond : ∀ i < n, ∀ j < n, i ≠ j → (targets i).Fails hasLocator ack →
      ¬ (targets j).Exposed hasLocator ack)
    (hrun : Runs targets (groupOf hasLocator n ack message) tr p)
    (hdone : p.Done) :
    p.shared.accounts.length = n ∧
    p.shared.total = (p.shared.accounts.map Account.counted).sum ∧
    ∀ i < n, (p.shared.account i).calls = (targets i).aloneCalls hasLocator ack ∧
      ((∀ i < n, ¬ (targets i).Fails hasLocator ack) → (p.shared.account i).counted = 1) ∧
      ((∀ i < n, (targets i).Fails hasLocator ack) → (p.shared.account i).counted = 0) := by
  have hthrs : (replicate n (multicastTarget hasLocator ack)).length = n :=
    length_replicate
  obtain ⟨hsou, hends⟩ := run_group true
    (fun i t _ => t.calls = (targets i).aloneCalls hasLocator ack ∧
      ((¬ ∃ i < n, (targets i).Fails hasLocator ack) → t.counted = 1) ∧
      ((∀ i < n, (targets i).Fails hasLocator ack) → t.counted = 0))
    hcond hthrs sound_start (by
      intro i t ht
      rw [eq_of_mem_replicate (mem_of_getElem? ht), account_start]
      exact group_multicastTarget (P := fun calls _ =>
        calls = (targets i).aloneCalls hasLocator ack)
        mixed_of_not_exposed (fun _ => rfl) ((targets i).fails_iff hasLocator ack)) hrun
  refine ⟨hsou.length, hsou.total, fun i hi => ?_⟩
  obtain ⟨r, -, hcs, hone, hzero⟩ := post_of_done ((Pool.run_length hrun).trans hthrs)
    hdone hi (hends i)
  refine ⟨hcs, fun hnone => hone ?_, hzero⟩
  rintro ⟨j, hj, hfl⟩
  exact hnone j hj hfl

theorem run_one (hrun : Runs targets ⟨[doPush hasLocator ack], .start message 1⟩ tr p)
    (hdone : p.Done) :
    p.threads = [.ret ((doPush hasLocator ack).play (targets 0).own {}).1] ∧
      p.shared.accounts.length = 1 ∧
      ((doPush hasLocator ack).play (targets 0).own {}).2.Settled (p.shared.account 0) := by
  have hpush := (ends_doPush hasLocator ack).mono fun _ _ _ => trivial
  obtain ⟨hsou, hends⟩ := run_group true
    (fun i t r => t.Open ∧ ((doPush hasLocator ack).play (targets i).own {}).2.Settled t ∧
      r = ((doPush hasLocator ack).play (targets i).own {}).1)
    (fun _ _ _ _ _ h => h : ∀ i < 1, ∀ j < 1, i ≠ j → False → False) rfl sound_start (by
      intro i t ht
      rw [mem_singleton.mp (mem_of_getElem? ht), account_start]
      exact group_push hpush False.elim fun _ => ⟨⟨rfl, rfl⟩, rfl⟩) hrun
  have hlen := Pool.run_length hrun
  obtain ⟨r, hr, -, hsett, rfl⟩ := post_of_done hlen hdone Nat.one_pos (hends 0)
  refine ⟨?_, hsou.length, hsett⟩
  obtain ⟨t, ht⟩ := length_eq_one_iff.mp hlen
  rw [ht] at hr ⊢
  exact congrArg (· :: []) (some.inj hr)

def Account.acked (t : Account) : Bool := t.calls.any fun c => c.2.isNone

theorem acked_iff {t : Account} (h : t.calls = target.aloneCalls hasLocator true) :
    t.acked = true ↔ ¬ target.Fails hasLocator true ∧
      ¬ SameGate target hasLocator (.push true) := by
  rw [← target.fails_iff hasLocator true, not_not, ← (target.fate hasLocator).acknowledged_iff,
    Account.acked, h, List.any_eq_true]
  exact exists_congr fun c => and_congr_right fun _ => isNone_iff_eq_none

theorem sum_counted (b : Account → Bool) : ∀ {l : List Account},
    (∀ t ∈ l, t.counted = if b t then 1 else 0) → (l.map Account.counted).sum = (l.countP b : ℕ)
  | [], _ => rfl
  | t :: l, h => by
    have hrest := sum_counted b fun t ht => h t (mem_cons_of_mem _ ht)
    rw [map_cons, sum_cons, hrest, h t mem_cons_self, countP_cons]
    split <;> omega

theorem fst_groupResult (s : Fan) : (groupResult s).1 = s.total := by
  unfold groupResult
  split
  · rename_i h
    exact h.2.symm
  · rfl

theorem forall_accounts {s : Fan} {P : Account → Prop} (hlen : s.accounts.length = n)
    (h : ∀ i < n, P (s.account i)) : ∀ t ∈ s.accounts, P t := by
  intro t ht
  obtain ⟨i, hi⟩ := mem_iff_getElem?.mp ht
  have hlt := (List.getElem?_eq_some_iff.mp hi).1
  rw [getElem?_account hlt] at hi
  cases hi
  exact h i (hlen ▸ hlt)

theorem unsent_of_fails {i : ℕ}
    (hcond : ∀ i < n, ∀ j < n, i ≠ j → (targets i).Fails hasLocator true →
      ¬ (targets j).Exposed hasLocator true)
    (hn : n ≠ 1) (hi : i < n) (hfl : (targets i).Fails hasLocator true) :
    ∀ j < n, ¬ (targets j).Sent hasLocator := by
  have hoths : ∀ j < n, j ≠ i → ¬ (targets j).Sent hasLocator :=
    fun j hj hne hsent => hcond i hi j hj hne.symm hfl ⟨hsent, .inl rfl⟩
  intro j hj
  by_cases hji : j = i
  · subst hji
    obtain ⟨k, hk, hkj⟩ : ∃ k < n, k ≠ j := by
      by_cases hzero : j = 0
      · exact ⟨1, by omega, by omega⟩
      · exact ⟨0, by omega, fun h => hzero h.symm⟩
    have hkfa : (targets k).Fails hasLocator true := fails_of_unsent (hoths k hk hkj)
    exact fun hsent => hcond k hk j hi hkj hkfa ⟨hsent, .inl rfl⟩
  · exact hoths j hj hji

/-- What a multicast should do: every target is pushed to as if it were alone, and the total is the
number of acknowledged pushes. -/
def Isolates (targets : ℕ → Target) (hasLocator ack : Bool) (n : ℕ) (p : GatePool) : Prop :=
  (∀ i < n, (p.shared.account i).calls = (targets i).aloneCalls hasLocator ack) ∧
    (ack = true → ∃ err, multicastResult n ack p =
      some (((p.shared.accounts.countP Account.acked : ℕ) : ℤ), err))

def Separate (targets : ℕ → Target) (hasLocator ack : Bool) (n : ℕ) : Prop :=
  ∀ i < n, ∀ j < n, i ≠ j → (targets i).Fails hasLocator ack →
    ¬ (targets j).Exposed hasLocator ack

theorem isolates_one (hsame : ack = true → ¬ SameGate (targets 0) hasLocator (.push true))
    (hrun : Runs targets ⟨[doPush hasLocator ack], .start message 1⟩ tr p) (hdone : p.Done) :
    Isolates targets hasLocator ack 1 p := by
  obtain ⟨hthrs, hlen, hcs, -⟩ := run_one hrun hdone
  refine ⟨fun i hi => ?_, ?_⟩
  · rw [Nat.lt_one_iff.mp hi]
    exact hcs
  · rintro rfl
    obtain ⟨t, ht⟩ := length_eq_one_iff.mp hlen
    have hacc : p.shared.account 0 = t := by
      unfold account
      rw [ht]
      rfl
    rw [hacc] at hcs
    have hack := acked_iff hcs
    rw [← (targets 0).fails_iff hasLocator true, not_not, and_iff_left (hsame rfl)] at hack
    refine ⟨((doPush hasLocator true).play (targets 0).own {}).1, ?_⟩
    rw [multicastResult, hthrs, ht, countP_singleton]
    by_cases hnone : ((doPush hasLocator true).play (targets 0).own {}).1 = none
    · rw [hnone, hack.mpr hnone]
      rfl
    rw [Bool.eq_false_iff.mpr fun h => hnone (hack.mp h)]
    simp only [hnone]
    rfl

theorem isolates_group (hn : n ≠ 1) (hcond : Separate targets hasLocator ack n)
    (hsame : ack = true → ∀ i < n, ¬ SameGate (targets i) hasLocator (.push true))
    (hrun : Runs targets (groupOf hasLocator n ack message) tr p)
    (hdone : p.Done) : Isolates targets hasLocator ack n p := by
  obtain ⟨hlen, htot, hends⟩ := run_multicastTargets hcond hrun hdone
  refine ⟨fun i hi => (hends i hi).1, ?_⟩
  rintro rfl
  refine ⟨(groupResult p.shared).2, ?_⟩
  rw [multicastResult, if_neg hn]
  refine congrArg some (Prod.ext ?_ rfl)
  rw [fst_groupResult, htot]
  refine sum_counted Account.acked (forall_accounts hlen fun i hi => ?_)
  obtain ⟨hcs, hone, hzero⟩ := hends i hi
  by_cases hany : ∃ j < n, (targets j).Fails hasLocator true
  · -- somebody fails: then nobody makes a call
    obtain ⟨j, hj, hfl⟩ := hany
    have huns := unsent_of_fails hcond hn hj hfl
    have hno : ¬ (p.shared.account i).acked = true := by
      rw [acked_iff hcs]
      exact fun h => h.1 (fails_of_unsent (huns i hi))
    rw [if_neg hno]
    exact hzero fun k hk => fails_of_unsent (huns k hk)
  · have hnone : ∀ j < n, ¬ (targets j).Fails hasLocator true :=
      fun j hj hfl => hany ⟨j, hj, hfl⟩
    rw [if_pos ((acked_iff hcs).mpr ⟨hnone i hi, hsame rfl i hi⟩)]
    exact hone hnone

theorem settling_afterPush (err : Option GateErr) (t : Account) :
    (afterPush err).Ends settling (fun _ _ => True) t := by
  refine ⟨rfl, fun _ _ => ⟨rfl, fun a _ => ?_⟩⟩
  cases a <;> exact ⟨rfl, fun _ _ => ⟨rfl, fun _ _ => trivial⟩⟩

theorem groupErr_afterPush {i : ℕ} {err : Option GateErr} {e : GateErr}
    (h : err = some e) (s : Fan) :
    ((afterPush err).run (fun s q => serve targets i false s q) s).2.groupErr ≠ none := by
  subst h
  show (s.groupErr <|> some e) ≠ none
  cases s.groupErr <;> exact some_ne_none _

theorem separate_of_isolates (h : ∀ tr p, Runs targets (groupOf hasLocator n ack message) tr p →
      p.Done → Isolates targets hasLocator ack n p) : Separate targets hasLocator ack n := by
  intro i hi j hj hne hfl hexp
  have hpush := (ends_doPush hasLocator ack).mono fun _ _ _ => trivial
  have hthr {k : ℕ} (hk : k < n) : (replicate n (multicastTarget hasLocator ack))[k]? =
      some ((doPush hasLocator ack).bind afterPush) := getElem?_replicate_of_lt hk
  obtain ⟨e, he⟩ := ne_none_iff_exists'.mp (((targets i).fails_iff hasLocator ack).mpr hfl)
  obtain ⟨tr, p, hrun, hdone, hcut⟩ := exists_run_cut message targets (fun _ => true)
    (targets j).severed (fun s q hs hq => answer_severed hq hs _) hne hi hj (hthr hi) (hthr hj)
      hpush hpush settling_afterPush
    (groupErr_afterPush he)
  exact severed_ne_alone hexp (hcut.1.symm.trans ((h tr p hrun hdone).1 j hj))

theorem other_gate_of_isolates_one
    (h : ∀ tr p, Runs targets ⟨[doPush hasLocator true], .start message 1⟩ tr p →
      p.Done → Isolates targets hasLocator true 1 p) :
    ¬ SameGate (targets 0) hasLocator (.push true) := by
  intro hsame
  obtain ⟨tr, p, hrun, hdone⟩ := Pool.exists_run_done (serve targets) false
    (⟨[doPush hasLocator true], .start message 1⟩ : GatePool)
  obtain ⟨hthrs, hlen, hcs, -⟩ := run_one hrun hdone
  obtain ⟨err, hres⟩ := (h tr p hrun hdone).2 rfl
  have hok : ((doPush hasLocator true).play (targets 0).own {}).1 = none := by
    have hfl := not_fails_of_sameGate hsame
    rwa [← fails_iff, not_not] at hfl
  have hno : ∀ t ∈ p.shared.accounts, ¬ t.acked = true := by
    refine forall_accounts hlen fun i hi => ?_
    rw [Nat.lt_one_iff.mp hi, acked_iff hcs]
    exact fun hack => hack.2 hsame
  rw [multicastResult, hthrs, hok, countP_eq_zero.mpr hno] at hres
  cases hres

theorem other_gate_of_isolates (hn : n ≠ 1)
    (h : ∀ tr p, Runs targets (groupOf hasLocator n true message) tr p →
      p.Done → Isolates targets hasLocator true n p) {i : ℕ} (hi : i < n) :
    ¬ SameGate (targets i) hasLocator (.push true) := by
  intro hsame
  have hsep := separate_of_isolates h
  have hsent : (targets i).Sent hasLocator := by
    obtain ⟨gid, hfst, -⟩ := hsame
    exact ⟨gid, hfst⟩
  have hnone : ∀ j < n, ¬ (targets j).Fails hasLocator true :=
    fun j hj hfl => unsent_of_fails hsep hn hj hfl i hi hsent
  obtain ⟨tr, p, hrun, hdone⟩ := Pool.exists_run_done (serve targets) false
    (groupOf hasLocator n true message)
  obtain ⟨hlen, htot, hends⟩ := run_multicastTargets hsep hrun hdone
  obtain ⟨err, hres⟩ := (h tr p hrun hdone).2 rfl
  rw [multicastResult, if_neg hn] at hres
  have hfst := congrArg Prod.fst (some.inj hres)
  have hone : ∀ t ∈ p.shared.accounts, t.counted = 1 :=
    forall_accounts hlen fun j hj => (hends j hj).2.1 hnone
  -- every goroutine has counted, so that all would have to be acknowledged
  rw [fst_groupResult, htot, sum_counted (fun _ => true) hone, countP_true] at hfst
  have hall := countP_eq_length.mp (Int.ofNat.inj hfst).symm
  have hack := hall _ (mem_of_getElem? (getElem?_account (hlen.symm ▸ hi)))
  exact ((acked_iff (hends i hi).1).mp hack).2 hsame

theorem multicast_isolates_iff (targets : ℕ → Target) (hasLocator ack : Bool) (n : ℕ)
    (message : Shared) :
    (∀ tr p, Runs targets ⟨multicastThreads hasLocator n ack, .start message n⟩ tr p → p.Done →
        Isolates targets hasLocator ack n p) ↔
    Separate targets hasLocator ack n ∧
      (ack = true → ∀ i < n, ¬ SameGate (targets i) hasLocator (.push true)) := by
  unfold multicastThreads
  by_cases hn : n = 1
  · subst hn
    refine ⟨fun h => ⟨?_, ?_⟩, fun h tr p => isolates_one fun hack => h.2 hack 0 Nat.one_pos⟩
    · intro i hi j hj hne
      exact absurd ((Nat.lt_one_iff.mp hi).trans (Nat.lt_one_iff.mp hj).symm) hne
    · rintro rfl i hi
      rw [Nat.lt_one_iff.mp hi]
      exact other_gate_of_isolates_one h
  · rw [if_neg hn]
    refine ⟨fun h => ⟨separate_of_isolates h, ?_⟩, fun h tr p => isolates_group hn h.1 h.2⟩
    rintro rfl i hi
    exact other_gate_of_isolates hn h hi

end Multicast

section Endpoints

variable {target : Target} {targets : ℕ → Target} {addrs : List String}
  {body : String → GateProg (ℤ × Option GateErr)} {fails exposed : ℕ → String → Prop}
  {message : Shared} {tr : List (ℕ × Bool)} {p : GatePool}

def Target.GateFails (target : Target) (op : GateOp) (refused : Option GateErr) (addr : String) :
    Prop :=
  (target.round 1).build addr ≠ none ∨ refused ≠ none ∨ target.callErr op 1 addr ≠ none

def Target.GateExposed (target : Target) (op : GateOp) (refused : Option GateErr) (addr : String) :
    Prop :=
  op.waits = true ∧ (target.round 1).build addr = none ∧ refused = none

structure GateBody {ρ : Type} (target : Target) (body : GateProg (ρ × Option GateErr))
    (fails exposed : Prop) : Prop where
  pushes : body.Ends (pushing 1) (fun _ _ => True) {}
  mixed : ¬ exposed → body.Ends target.mixed (fun t r =>
    t.calls = (body.play target.own {}).2.calls ∧ (r.2 ≠ none → fails ∨ t.seen = true)) {}
  fails_iff : (body.play target.own {}).1.2 ≠ none ↔ fails
  severed : exposed → (body.play target.severed {}).2.calls ≠ (body.play target.own {}).2.calls

theorem play_dialled (target : Target) (op : GateOp) (refused : Option GateErr) (addr : String)
    {o : (q : Ask) → q.Answer} (ho : o (.dial addr) = target.own (.dial addr)) :
    (dialled op refused addr).play o {} =
      match (target.round 1).build addr, refused with
      | some code, _ => ((op.zero, some (.external code)), { releases := 1 })
      | none, some e => ((op.zero, some e), { releases := 1 })
      | none, none => (clientCall op 1 addr).play o {} := by
  have hdial : target.own (.dial addr) = ((target.round 1).build addr).map .external := rfl
  unfold dialled GateProg.play
  simp only [Prog.run, ho, hdial]
  cases (target.round 1).build addr with
  | some code => rfl
  | none => cases refused <;> rfl

theorem gateBody_dialled (target : Target) (op : GateOp) (refused : Option GateErr)
    (addr : String) :
    GateBody target (dialled op refused addr) (target.GateFails op refused addr)
      (target.GateExposed op refused addr) := by
  have hown := play_dialled target op refused addr rfl
  have hrel {e : GateErr} (hcs : ((dialled op refused addr).play target.own {}).2.calls = [])
      (hfl : target.GateFails op refused addr) :
      Prog.Ends target.mixed (fun t r =>
        t.calls = ((dialled op refused addr).play target.own {}).2.calls ∧
          (r.2 ≠ none → target.GateFails op refused addr ∨ t.seen = true))
        (.ask .release fun _ => .ret (op.zero, some e)) {} :=
    ⟨trivial, fun _ _ => ⟨hcs.symm, fun _ => .inl hfl⟩⟩
  refine ⟨(ends_dialled op refused addr).mono fun _ _ _ => trivial, fun hno => ?_, ?_, ?_⟩
  · refine ⟨trivial, fun a ha => ?_⟩
    have hdial : a = ((target.round 1).build addr).map .external := ha.elim id id
    subst hdial
    cases hbd : (target.round 1).build addr with
    | some code =>
      rw [hbd] at hown
      exact hrel (by rw [hown]) (.inl (hbd ▸ some_ne_none code))
    | none =>
      rw [hbd] at hown
      cases refused with
      | some e => exact hrel (by rw [hown]) (.inr (.inl (some_ne_none e)))
      | none =>
        refine mixed_clientCall ?_ fun hws => absurd ⟨hws, hbd, rfl⟩ hno
        rw [hown]
        exact ⟨rfl, fun hne => .inl (.inr (.inr hne))⟩
  · rw [hown]
    unfold Target.GateFails
    cases (target.round 1).build addr with
    | some code => exact iff_of_true (some_ne_none _) (.inl (some_ne_none _))
    | none =>
      cases refused with
      | some e =>
        exact iff_of_true (some_ne_none _) (.inr (.inl (some_ne_none _)))
      | none =>
        refine ⟨fun hne => .inr (.inr hne), ?_⟩
        rintro (hne | hne | hne)
        · exact absurd rfl hne
        · exact absurd rfl hne
        · exact hne
  · rintro ⟨hws, hbd, rfl⟩
    have hsev := play_dialled target op none addr (o := target.severed) rfl
    rw [hbd] at hsev hown
    have hcut : ((clientCall op 1 addr).play target.severed {}).2.calls =
      [(addr, some .canceled)] := by
      have hans : target.severed (.call op 1 addr) = (op.zero, some .canceled) := by
        rw [severed, if_pos hws]
      have hcs : ((clientCall op 1 addr).play target.severed {}).2.calls =
        [(addr, (target.severed (.call op 1 addr)).2)] := rfl
      rw [hcs, hans]
    rw [hsev, hown]
    rw [hcut]
    intro heq
    exact callErr_ne_canceled (Prod.mk.inj (cons.inj heq).1).2.symm

theorem started_toEndpoints {packed : Except GateErr (List UInt8)}
    (h : toEndpoints addrs packed body = .inr p) :
    addrs.length ≠ 0 ∧ ∃ bytes, packed = .ok bytes ∧ p = ⟨addrs.map fun addr =>
        (body addr).bind (if addrs.length = 1 then fun r => .ret r.2 else afterCall),
      .start (multicastMessage addrs.length false bytes) addrs.length⟩ := by
  unfold toEndpoints at h
  split at h
  · cases h
  rename_i hzero
  refine ⟨hzero, ?_⟩
  split at h
  · cases h
  rename_i bytes
  cases h
  exact ⟨bytes, rfl, rfl⟩

theorem settling_afterCall (r : ℤ × Option GateErr) (t : Account) :
    (afterCall r).Ends settling (fun _ _ => True) t := by
  obtain ⟨v, err⟩ := r
  cases err with
  | some e => exact ⟨rfl, fun _ _ => trivial⟩
  | none => exact ⟨rfl, fun _ _ => ⟨rfl, fun _ _ => trivial⟩⟩

theorem group_afterCall {calls : List (String × Option GateErr)} {t : Account}
    {r : ℤ × Option GateErr} {sheltered fails anyFails allFail : Prop} (hcs : t.calls = calls)
    (hfail : r.2 ≠ none → fails ∨ t.seen = true) :
    (afterCall r).Ends (groupContract target false sheltered fails anyFails allFail)
      (fun t _ => t.calls = calls) t := by
  obtain ⟨v, err⟩ := r
  cases err with
  | some e =>
    exact ⟨⟨fun h => (by cases h), fun _ => hfail (some_ne_none e)⟩, fun _ _ => hcs⟩
  | none =>
    exact ⟨trivial, fun _ _ => ⟨⟨fun h => (by cases h), fun h => absurd rfl h⟩, fun _ _ => hcs⟩⟩

theorem group_gateBody {body : GateProg (ℤ × Option GateErr)} {fails exposed : Prop}
    {sheltered fails' anyFails allFail : Prop}
    {f : ℤ × Option GateErr → GateProg (Option GateErr)}
    (h : GateBody target body fails exposed) (hf : f = afterCall ∨ f = fun r => .ret r.2)
    (hshe : sheltered → ¬ exposed) (hfl : fails → fails') :
    (body.bind f).Ends (groupContract target false sheltered fails' anyFails allFail)
      (fun t _ => t.calls = (body.play target.own {}).2.calls) {} := by
  rw [Prog.ends_bind]
  have hmix (hs : sheltered) : body.Ends target.mixed (fun t r =>
      t.calls = (body.play target.own {}).2.calls ∧ (r.2 ≠ none → fails' ∨ t.seen = true)) {} :=
    (h.mixed (hshe hs)).mono
      fun t r hend => ⟨hend.1, fun hne => (hend.2 hne).imp_left hfl⟩
  refine (group_push h.pushes hmix fun _ => ?_).mono ?_
  · exact ⟨rfl, fun hne => .inl (hfl (h.fails_iff.mp hne))⟩
  · rintro t r ⟨-, hcs, hfail⟩
    rcases hf with rfl | rfl
    · exact group_afterCall hcs hfail
    · exact hcs

/-- The gates of a broadcast are called as if each were alone, if the failure of one leaves no other
call that waits. -/
theorem run_endpoints {f : ℤ × Option GateErr → GateProg (Option GateErr)}
    (hf : f = afterCall ∨ f = fun r => .ret r.2)
    (hbody : ∀ i addr, addrs[i]? = some addr →
      GateBody (targets i) (body addr) (fails i addr) (exposed i addr))
    (hcond : ∀ i addr j addr', addrs[i]? = some addr → addrs[j]? = some addr' → i ≠ j →
      fails i addr → ¬ exposed j addr')
    (hrun : Runs targets ⟨addrs.map fun addr => (body addr).bind f,
      .start message addrs.length⟩ tr p)
    (hdone : p.Done) {i : ℕ} {addr : String} (hi : addrs[i]? = some addr) :
    (p.shared.account i).calls = ((body addr).play (targets i).own {}).2.calls := by
  have hthrs : (addrs.map fun addr => (body addr).bind f).length = addrs.length :=
    length_map _
  have hshe : ∀ i < addrs.length, ∀ j < addrs.length, i ≠ j →
      (∃ addr, addrs[i]? = some addr ∧ fails i addr) →
        ¬ ∃ addr', addrs[j]? = some addr' ∧ exposed j addr' := by
    rintro i - j - hne ⟨addr, haddr, hfl⟩ ⟨addr', haddr', hexp⟩
    exact hcond i addr j addr' haddr haddr' hne hfl hexp
  have hends := (run_group false (fun i t _ => ∀ addr, addrs[i]? = some addr →
      t.calls = ((body addr).play (targets i).own {}).2.calls) hshe hthrs sound_start (by
      intro i t ht
      have hmap : (addrs.map fun addr => (body addr).bind f)[i]? = some t := ht
      rw [getElem?_map] at hmap
      obtain ⟨addr, haddr, rfl⟩ := map_eq_some_iff.mp hmap
      rw [account_start]
      refine (group_gateBody (hbody i addr haddr) hf (fun hno hexp => hno ⟨addr, haddr, hexp⟩)
        fun hfl => ⟨addr, haddr, hfl⟩).mono ?_
      intro t _ hcs addr' haddr'
      rw [haddr] at haddr'
      cases haddr'
      exact hcs) hrun).2
  obtain ⟨r, -, hcs⟩ := post_of_done ((Pool.run_length hrun).trans hthrs) hdone
    (List.getElem?_eq_some_iff.mp hi).1 (hends i)
  exact hcs addr hi

section

variable (hbody : ∀ i addr, addrs[i]? = some addr → GateBody (targets i) (body addr) (fails i addr)
    (exposed i addr))

include hbody

/-- If the work of one gate fails and another one waits, there is an interleaving that cuts the
second one off. -/
theorem separate_of_endpoints
    (h : ∀ tr p, Runs targets ⟨addrs.map fun addr => (body addr).bind afterCall,
        .start message addrs.length⟩ tr p → p.Done → ∀ i addr, addrs[i]? = some addr →
      (p.shared.account i).calls = ((body addr).play (targets i).own {}).2.calls)
    {i j : ℕ} {addr addr' : String} (hi : addrs[i]? = some addr) (hj : addrs[j]? = some addr')
    (hne : i ≠ j) (hfl : fails i addr) : ¬ exposed j addr' := by
  intro hexp
  have hthr {k : ℕ} {addr : String} (hk : addrs[k]? = some addr) :
      (addrs.map fun addr => (body addr).bind afterCall)[k]? =
        some ((body addr).bind afterCall) := by
    rw [getElem?_map, hk]
    rfl
  obtain ⟨e, he⟩ := ne_none_iff_exists'.mp ((hbody i addr hi).fails_iff.mpr hfl)
  obtain ⟨tr, p, hrun, hdone, hcut⟩ := exists_run_cut message targets (fun _ => true)
    (targets j).severed (fun s q hs hq => answer_severed hq hs _) hne
    (List.getElem?_eq_some_iff.mp hi).1 (List.getElem?_eq_some_iff.mp hj).1 (hthr hi) (hthr hj)
    (hbody i addr hi).pushes (hbody j addr' hj).pushes settling_afterCall (by
      intro s
      obtain ⟨v, hv⟩ : ∃ v, ((body addr).play (targets i).own {}).1 = (v, some e) :=
        ⟨_, Prod.ext rfl he⟩
      rw [hv]
      show (s.groupErr <|> some e) ≠ none
      cases s.groupErr <;> exact some_ne_none _)
  exact (hbody j addr' hj).severed hexp (hcut.1.symm.trans (h tr p hrun hdone j addr' hj))

theorem endpoints_isolated_iff {packed : Except GateErr (List UInt8)} {p : GatePool}
    (hstr : toEndpoints addrs packed body = .inr p) :
    (∀ tr p', Runs targets p tr p' → p'.Done →
      ∀ i addr, addrs[i]? = some addr →
        (p'.shared.account i).calls = ((body addr).play (targets i).own {}).2.calls) ↔
    ∀ i addr j addr', addrs[i]? = some addr → addrs[j]? = some addr' → i ≠ j →
      fails i addr → ¬ exposed j addr' := by
  obtain ⟨-, bytes, -, rfl⟩ := started_toEndpoints hstr
  by_cases hone : addrs.length = 1
  · simp only [if_pos hone]
    have hcond : ∀ i addr j addr', addrs[i]? = some addr → addrs[j]? = some addr' → i ≠ j →
        fails i addr → ¬ exposed j addr' := by
      intro i addr j addr' hi hj hne
      have hi' := (List.getElem?_eq_some_iff.mp hi).1
      have hj' := (List.getElem?_eq_some_iff.mp hj).1
      omega
    exact iff_of_true
      (fun tr p hrun hdone i addr hi => run_endpoints (.inr rfl) hbody hcond hrun hdone hi) hcond
  · simp only [if_neg hone]
    constructor
    · exact fun h i addr j addr' hi hj => separate_of_endpoints hbody h hi hj
    · exact fun hcond tr p hrun hdone i addr hi =>
        run_endpoints (.inl rfl) hbody hcond hrun hdone hi

end

end Endpoints

/-- The targets of a multicast are pushed to as if each were alone and the total counts the
acknowledged pushes, whatever the interleaving, if no target fails while another one waits for the
locator or a gate and no target is found again on a gate that has denied it. The gates of a
broadcast and of a publication are called as if each were alone, if none fails while another one
waits. -/
theorem fan_out_isolated_iff (hasLocator ack : Bool) (packed : Except GateErr (List UInt8))
    (targets : ℕ → Target) :
    (∀ n p, doIndirectMulticast hasLocator n packed ack = .inr p →
      ((∀ tr p', Run (Pool.rel (Fan.serve targets)) p tr p' → p'.Done →
          Isolates targets hasLocator ack n p') ↔
        Separate targets hasLocator ack n ∧
          (ack = true → ∀ i < n, ¬ SameGate (targets i) hasLocator (.push true)))) ∧
    (∀ addrs p, broadcast addrs packed ack = .inr p →
      ((∀ tr p', Run (Pool.rel (Fan.serve targets)) p tr p' → p'.Done →
          ∀ i addr, addrs[i]? = some addr →
            (p'.shared.account i).calls =
              ((doBroadcast addr ack).play (targets i).own {}).2.calls) ↔
        ∀ i addr j addr', addrs[i]? = some addr → addrs[j]? = some addr' → i ≠ j →
          (targets i).GateFails (.broadcast ack) none addr →
            ¬ (targets j).GateExposed (.broadcast ack) none addr')) ∧
    ∀ channel addrs p, publish channel addrs packed ack = .inr p →
      ((∀ tr p', Run (Pool.rel (Fan.serve targets)) p tr p' → p'.Done →
          ∀ i addr, addrs[i]? = some addr →
            (p'.shared.account i).calls =
              ((doPublish channel addr ack).play (targets i).own {}).2.calls) ↔
        ∀ i addr j addr', addrs[i]? = some addr → addrs[j]? = some addr' → i ≠ j →
          (targets i).GateFails (.publish ack) (channelErr channel) addr →
            ¬ (targets j).GateExposed (.publish ack) (channelErr channel) addr') := by
  refine ⟨fun n p hstr => ?_, fun addrs p hstr => ?_, fun channel addrs p hstr => ?_⟩
  · obtain ⟨-, bytes, -, rfl⟩ := started_multicast hstr
    exact multicast_isolates_iff targets hasLocator ack n _
  · refine endpoints_isolated_iff (fun i addr _ => ?_) hstr
    exact gateBody_dialled (targets i) (.broadcast ack) none addr
  · refine endpoints_isolated_iff (fun i addr _ => ?_) hstr
    exact gateBody_dialled (targets i) (.publish ack) (channelErr channel) addr

def offlineAndOnline (i : ℕ) : Target where
  uid := if i = 0 then 7 else 8
  round := fun _ => ⟨⟨none, ∅⟩, if i = 0 then .error 1 else .ok "gate-1", fun _ => some "addr",
    fun _ => none, fun op _ => op.zero, fun _ _ => .ok⟩

def offlineFirst : List (ℕ × Bool) := replicate 7 (0, false) ++ replicate 7 (1, true)

/-- The failed look-up of the first user cancels that of the second one, who is not pushed to; alone
the push would have been acknowledged. -/
theorem online_target_not_pushed : ∃ p tr p',
    doIndirectMulticast true 2 (.ok [1, 2, 3]) true = .inr p ∧
    Run (Pool.rel (Fan.serve offlineAndOnline)) p tr p' ∧ p'.Done ∧
    multicastResult 2 true p' = some (0, some (.external 1)) ∧
    (p'.shared.account 1).calls = [] ∧
    (offlineAndOnline 1).aloneCalls true true = [("gate-1", none)] := by
  refine ⟨_, _, _, rfl, run_of_exec offlineFirst rfl, ?_⟩
  decide +kernel

end DueServer.Link
