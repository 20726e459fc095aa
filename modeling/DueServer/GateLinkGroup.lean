import DueServer.GateLinkRules

/-! The goroutines of a group and its context, which the first error cancels. A goroutine that the
context cannot harm is sheltered; if whenever one fails all others are, each ends as it does
alone. -/
namespace DueServer.Link

open GateLinker Option Account Fan Lib.Prog.Ends Lib

/-- What holds for a goroutine of a group. `fails` tells that it fails alone, `anyFails` and
`allFail` that some or all goroutines of the group do; `named` that the group shares the variable
`err`. -/
def groupContract (target : Target) (named : Bool) (sheltered fails anyFails allFail : Prop) :
    Contract Ask Ask.Answer Account where
  may t
    | .setErr err => named = true ∧ (err ≠ none → fails ∨ t.seen = true) ∧ (err = none → ¬ fails)
    | .readErr => named = true ∧ t.result ≠ none
    | .count _ => True
    | .leave err => (named = true → t.result ≠ none) ∧ (err ≠ none → fails ∨ t.seen = true)
    | _ => t.result = none
  ans
    | _, .readErr, err => (err ≠ none → anyFails) ∧ (allFail → err ≠ none)
    | _, q, a => a = target.own q ∨ sheltered ∧ a = target.severed q
  note := Account.note

section Note

variable {t : Account} {q : Ask} {a : q.Answer} {target : Target}

theorem Account.result_note (h : t.result ≠ none) : (t.note q a).result ≠ none := by
  cases q with
  | setErr | leave => exact some_ne_none _
  | _ => exact h

theorem Account.seen_note (h : t.seen = true) : (t.note q a).seen = true := by
  cases q with
  | locator | call | readErr =>
    show (t.seen || _) = true
    rw [h]
    rfl
  | _ => exact h

theorem Account.seen_note_own (hq : q.pushing = true) :
    (t.note q (target.own q)).seen = t.seen := by
  cases q with
  | locator => exact congrArg seen Target.note_locator
  | call =>
    rw [Target.note_call]
  | setErr | readErr | count | leave => cases hq
  | _ => rfl

end Note

section Programs

variable {ρ : Type} {w : GateProg ρ} {target : Target} {limit : ℕ} {named hasLocator ack : Bool}
  {sheltered fails anyFails allFail : Prop} {post : Account → ρ → Prop} {t : Account}

def Account.Open (t : Account) : Prop := t.result = none ∧ t.counted = 0

theorem open_note {q : Ask} {a : q.Answer} (hq : q.pushing = true) (h : t.Open) :
    (t.note q a).Open := by
  cases q <;> first | exact h | cases hq

theorem push_alone (o : (q : Ask) → q.Answer)
    (hpush : w.Ends (pushing limit) (fun _ _ => True) t) (ht : t.Open) :
    w.Ends ⟨fun t q => q.pushing = true ∧ t.result = none, fun _ q a => a = o q, note⟩
      (fun t' r => t'.Open ∧ (r, t') = w.play o t) t := by
  have halo := Prog.ends_run (fun _ => o) note w t
  have hboth := and halo hpush
  refine mono ?_ (weaken
    (invariant Account.Open ?_ hboth ht) _ ?_ ?_ rfl)
  · exact fun t' r h => ⟨h.1, h.2.1⟩
  · exact fun t q a hmay hopen => open_note hmay.2.1 hopen
  · exact fun t q hmay => ⟨hmay.2.1, hmay.2.2.1⟩
  · exact fun t q a _ ha => ⟨ha, trivial⟩

theorem group_push (hpush : w.Ends (pushing limit) (fun _ _ => True) {})
    (hmix : sheltered → w.Ends target.mixed post {})
    (halo : ¬ sheltered → post (w.play target.own {}).2 (w.play target.own {}).1) :
    w.Ends (groupContract target named sheltered fails anyFails allFail)
      (fun t r => t.Open ∧ post t r) {} := by
  have hopen : ({} : Account).Open := ⟨rfl, rfl⟩
  have hmay {t : Account} {q : Ask} (hq : q.pushing = true) (hr : t.result = none) :
      (groupContract target named sheltered fails anyFails allFail).may t q := by
    cases q <;> first | exact hr | cases hq
  have hans {t : Account} {q : Ask} {a : q.Answer} (hq : q.pushing = true)
      (ha : (groupContract target named sheltered fails anyFails allFail).ans t q a) :
      a = target.own q ∨ sheltered ∧ a = target.severed q := by
    cases q <;> first | exact ha | cases hq
  by_cases hs : sheltered
  · have hboth := and (hmix hs) hpush
    refine mono ?_ (weaken
      (invariant Account.Open ?_ hboth hopen) _ ?_ ?_ rfl)
    · exact fun t r h => ⟨h.1, h.2.1⟩
    · exact fun t q a hm hj => open_note hm.2.1 hj
    · exact fun t q hm => hmay hm.2.1 hm.2.2.1
    · exact fun t q a hm ha => ⟨(hans hm.2.1 ha).imp_right And.right, trivial⟩
  · refine mono ?_ (weaken (push_alone target.own hpush hopen) _ ?_ ?_ rfl)
    · rintro t r ⟨hopen', hrun⟩
      have hpost := halo hs
      rw [← hrun] at hpost
      exact ⟨hopen', hpost⟩
    · exact fun t q hm => hmay hm.1 hm.2
    · exact fun t q a hm ha => (hans hm.1 ha).resolve_right fun h => hs h.1

variable {P : List (String × Option GateErr) → ℕ → Prop}

/-- The rest of a goroutine of `doMulticast`: it counts if no goroutine fails, and does not if all
do. -/
theorem group_afterPush {err : Option GateErr} (hopen : t.Open) (hP : P t.calls t.releases)
    (hfail : err ≠ none → fails ∨ t.seen = true) (hok : err = none → ¬ fails) :
    (afterPush err).Ends (groupContract target true sheltered fails anyFails allFail)
      (fun t _ => P t.calls t.releases ∧ (¬ anyFails → t.counted = 1) ∧ (allFail → t.counted = 0))
      t := by
  have hset : (t.note (.setErr err) ()).result ≠ none := some_ne_none _
  refine ⟨⟨rfl, hfail, hok⟩, fun _ _ => ⟨⟨rfl, hset⟩, fun err' herr' => ?_⟩⟩
  cases err' with
  | some e =>
    refine ⟨⟨rfl, hset⟩, fun err'' _ => ⟨⟨fun _ => hset, fun _ => .inr ?_⟩, fun _ _ => ?_⟩⟩
    · -- the first read has seen an error
      refine seen_note ?_
      exact Bool.or_true _
    · exact ⟨hP, fun hno => absurd (herr'.1 (some_ne_none e)) hno, fun _ => hopen.2⟩
  | none =>
    refine ⟨trivial, fun _ _ => ⟨⟨fun _ => hset, fun h => absurd rfl h⟩, fun _ _ => ?_⟩⟩
    refine ⟨hP, fun _ => ?_, fun hall => absurd rfl (herr'.2 hall)⟩
    show t.counted + 1 = 1
    rw [hopen.2]
    rfl

theorem group_multicastTarget
    (hmix : sheltered → (doPush hasLocator ack).Ends target.mixed (fun t r =>
      P t.calls t.releases ∧ (r ≠ none → fails ∨ t.seen = true) ∧ (r = none → ¬ fails)) {})
    (halo : ¬ sheltered →
      P ((doPush hasLocator ack).play target.own {}).2.calls
        ((doPush hasLocator ack).play target.own {}).2.releases)
    (hfl : ((doPush hasLocator ack).play target.own {}).1 ≠ none ↔ fails) :
    (multicastTarget hasLocator ack).Ends
      (groupContract target true sheltered fails anyFails allFail)
      (fun t _ => P t.calls t.releases ∧ (¬ anyFails → t.counted = 1) ∧ (allFail → t.counted = 0))
      {} := by
  rw [multicastTarget, Prog.ends_bind]
  have hpush := (ends_doPush hasLocator ack).mono fun _ _ _ => trivial
  refine (group_push hpush hmix ?_).mono ?_
  · intro hs
    refine ⟨halo hs, fun h => .inl (hfl.mp h), ?_⟩
    intro hnone h
    exact hfl.mpr h hnone
  · rintro t r ⟨hopen, hP, hfail, hok⟩
    exact group_afterPush hopen hP hfail hok

end Programs

namespace Fan

variable {n : ℕ} {named : Bool} {fails sheltered : ℕ → Prop} {s : Fan} {i : ℕ} {q : Ask}
  {a : q.Answer}

def Hurt (n : ℕ) (fails : ℕ → Prop) (s : Fan) : Prop :=
  ∃ i < n, fails i ∧ (s.account i).result ≠ none

structure Sound (n : ℕ) (named : Bool) (fails : ℕ → Prop) (s : Fan) : Prop where
  length : s.accounts.length = n
  total : s.total = (s.accounts.map Account.counted).sum
  err : s.err ≠ none → s.Hurt n fails
  groupErr : s.groupErr ≠ none → s.Hurt n fails
  seen : ∀ i < n, (s.account i).seen = true → s.Hurt n fails
  all : named = true → (∀ i < n, fails i) → ∀ i < n, (s.account i).result ≠ none → s.err ≠ none

theorem Hurt.note (h : s.Hurt n fails) (hlen : s.accounts.length = n) :
    (s.note i q a).Hurt n fails := by
  obtain ⟨j, hj, hfl, hres⟩ := h
  refine ⟨j, hj, hfl, ?_⟩
  by_cases hji : j = i
  · subst hji
    rw [account_note_self (hlen ▸ hj)]
    exact result_note hres
  rw [account_note_ne hji]
  exact hres

theorem hurt_of_result (hi : i < n) (hlen : s.accounts.length = n) (hfl : fails i)
    (hres : ((s.account i).note q a).result ≠ none) : (s.note i q a).Hurt n fails := by
  refine ⟨i, hi, hfl, ?_⟩
  rw [account_note_self (hlen ▸ hi)]
  exact hres

theorem total_note (hi : i < s.accounts.length)
    (h : s.total = (s.accounts.map counted).sum) :
    (s.note i q a).total = ((s.note i q a).accounts.map counted).sum := by
  have hset := sum_map_set counted ((s.account i).note q a) (getElem?_account hi)
  have hgoal : (s.effect q).total + (s.account i).counted =
      s.total + ((s.account i).note q a).counted := by
    cases q with
    | count m =>
      show s.total + m + (s.account i).counted = s.total + ((s.account i).counted + m)
      omega
    | _ => rfl
  show (s.effect q).total = ((s.accounts.set i ((s.account i).note q a)).map counted).sum
  omega

theorem seen_of_note (h : s.Sound n named fails) (hi : i < n)
    (hnew : ((s.account i).note q a).seen = true → (s.account i).seen = true ∨ s.Hurt n fails) :
    ∀ j < n, ((s.note i q a).account j).seen = true → (s.note i q a).Hurt n fails := by
  intro j hj hseen
  by_cases hji : j = i
  · subst hji
    rw [account_note_self (h.length.symm ▸ hi)] at hseen
    rcases hnew hseen with hold | hhurt
    · exact (h.seen j hi hold).note h.length
    · exact hhurt.note h.length
  · rw [account_note_ne hji] at hseen
    exact (h.seen j hj hseen).note h.length

end Fan

section Run

variable {n : ℕ} {named : Bool} {fails sheltered : ℕ → Prop} {s : Fan} {i : ℕ} {q : Ask}
  {targets : ℕ → Target}

theorem answer_pushing (targets : ℕ → Target) (giveUp : Bool) (h : s.Sound n named fails)
    (hcond : ∀ i < n, ∀ j < n, i ≠ j → fails i → sheltered j) (hi : i < n)
    (hres : (s.account i).result = none) (hq : q.pushing = true) :
    (s.answer (targets i) giveUp q = (targets i).own q ∨
      sheltered i ∧ s.answer (targets i) giveUp q = (targets i).severed q) ∧
    (s.answer (targets i) giveUp q = (targets i).own q ∨ s.Hurt n fails) := by
  have hans : s.answer (targets i) giveUp q =
      if giveUp && s.groupErr.isSome then (targets i).severed q else (targets i).own q := by
    cases q <;> first | rfl | cases hq
  rw [hans]
  split
  · rename_i hcut
    have hgro : s.groupErr ≠ none := isSome_iff_ne_none.mp (Bool.and_eq_true_iff.mp hcut).2
    have hhurt := h.groupErr hgro
    obtain ⟨j, hj, hfl, hdone⟩ := hhurt
    have hne : j ≠ i := by
      rintro rfl
      exact hdone hres
    exact ⟨.inr ⟨hcond j hj i hi hne hfl, rfl⟩, .inr ⟨j, hj, hfl, hdone⟩⟩
  · exact ⟨.inl rfl, .inl rfl⟩

section

variable (h : s.Sound n named fails) (hi : i < n)

include h hi

theorem sound_pushing (hres : (s.account i).result = none) (hq : q.pushing = true) {a : q.Answer}
    (ha : a = (targets i).own q ∨ s.Hurt n fails) : (s.note i q a).Sound n named fails := by
  have herr : (s.note i q a).err = s.err := by cases q <;> first | rfl | cases hq
  have hgro : (s.note i q a).groupErr = s.groupErr := by cases q <;> first | rfl | cases hq
  refine ⟨length_note.trans h.length, total_note (h.length.symm ▸ hi) h.total, ?_, ?_, ?_, ?_⟩
  · rw [herr]
    exact fun he => (h.err he).note h.length
  · rw [hgro]
    exact fun hg => (h.groupErr hg).note h.length
  · refine seen_of_note h hi ?_
    intro hseen
    rcases ha with rfl | hhurt
    · rw [seen_note_own hq] at hseen
      exact .inl hseen
    · exact .inr hhurt
  · intro hnam hall j hj hdone
    rw [herr]
    by_cases hji : j = i
    · subst hji
      rw [account_note_self (h.length.symm ▸ hj)] at hdone
      have hkept : ((s.account j).note q a).result = (s.account j).result := by
        cases q <;> first | rfl | cases hq
      rw [hkept] at hdone
      exact absurd hres hdone
    · rw [account_note_ne hji] at hdone
      exact h.all hnam hall j hj hdone

theorem sound_setErr {err : Option GateErr}
    (hfail : err ≠ none → fails i ∨ (s.account i).seen = true) (hok : err = none → ¬ fails i) :
    (s.note i (.setErr err) ()).Sound n named fails := by
  refine ⟨length_note.trans h.length, total_note (h.length.symm ▸ hi) h.total, ?_, ?_, ?_, ?_⟩
  · intro herr
    rcases hfail herr with hfl | hseen
    · exact hurt_of_result hi h.length hfl (some_ne_none _)
    · exact (h.seen i hi hseen).note h.length
  · exact fun hg => (h.groupErr hg).note h.length
  · exact seen_of_note h hi .inl
  · intro _ hall j hj _ herr
    exact hok herr (hall i hi)

theorem sound_readErr (hres : (s.account i).result ≠ none) :
    (s.note i .readErr s.err).Sound n named fails := by
  refine ⟨length_note.trans h.length, total_note (h.length.symm ▸ hi) h.total, ?_, ?_, ?_, ?_⟩
  · exact fun he => (h.err he).note h.length
  · exact fun hg => (h.groupErr hg).note h.length
  · refine seen_of_note h hi ?_
    intro hseen
    have hor : ((s.account i).seen || s.err.isSome) = true := hseen
    rcases Bool.or_eq_true_iff.mp hor with hold | herr
    · exact .inl hold
    · exact .inr (h.err (isSome_iff_ne_none.mp herr))
  · intro hnam hall j hj _
    exact h.all hnam hall i hi hres

theorem sound_count (m : ℤ) : (s.note i (.count m) ()).Sound n named fails := by
  refine ⟨length_note.trans h.length, total_note (h.length.symm ▸ hi) h.total, ?_, ?_, ?_, ?_⟩
  · exact fun he => (h.err he).note h.length
  · exact fun hg => (h.groupErr hg).note h.length
  · exact seen_of_note h hi .inl
  · intro hnam hall j hj hdone
    by_cases hji : j = i
    · subst hji
      rw [account_note_self (h.length.symm ▸ hj)] at hdone
      exact h.all hnam hall j hj hdone
    rw [account_note_ne hji] at hdone
    exact h.all hnam hall j hj hdone

theorem sound_leave {err : Option GateErr} (hnam : named = true → (s.account i).result ≠ none)
    (hfail : err ≠ none → fails i ∨ (s.account i).seen = true) :
    (s.note i (.leave err) ()).Sound n named fails := by
  refine ⟨length_note.trans h.length, total_note (h.length.symm ▸ hi) h.total, ?_, ?_, ?_, ?_⟩
  · exact fun he => (h.err he).note h.length
  · intro hg
    have hor : (s.groupErr <|> err) ≠ none := hg
    cases hold : s.groupErr with
    | some e => exact (h.groupErr (hold ▸ some_ne_none e)).note h.length
    | none =>
      rw [hold] at hor
      rcases hfail hor with hfl | hseen
      · exact hurt_of_result hi h.length hfl (some_ne_none _)
      · exact (h.seen i hi hseen).note h.length
  · exact seen_of_note h hi .inl
  · intro hn hall j hj _
    exact h.all hn hall i hi (hnam hn)

end

theorem run_group (named : Bool) (post : ℕ → Account → Option GateErr → Prop)
    (hcond : ∀ i < n, ∀ j < n, i ≠ j → fails i → sheltered j)
    {p p' : GatePool} {tr : List (ℕ × Bool)}
    (hthrs : p.threads.length = n) (hsou : p.shared.Sound n named fails)
    (hends : ∀ (i : ℕ) (t : GateProg (Option GateErr)), p.threads[i]? = some t →
      t.Ends (groupContract (targets i) named (sheltered i) (fails i) (∃ i < n, fails i)
        (∀ i < n, fails i)) (post i) (p.shared.account i))
    (hrun : Runs targets p tr p') :
    p'.shared.Sound n named fails ∧
      ∀ (i : ℕ) (t : GateProg (Option GateErr)), p'.threads[i]? = some t →
        t.Ends (groupContract (targets i) named (sheltered i) (fails i) (∃ i < n, fails i)
          (∀ i < n, fails i)) (post i) (p'.shared.account i) := by
  refine Pool.run_ends (fun i => groupContract (targets i) named (sheltered i) (fails i)
    (∃ i < n, fails i) (∀ i < n, fails i)) post (fun i s => s.account i)
    (fun s => s.Sound n named fails) ?_ hsou hends hrun
  intro i giveUp s q hi hs hmay
  rw [hthrs] at hi
  have hself := account_note_self (a := s.answer (targets i) giveUp q)
    (hs.length.symm ▸ hi)
  have hans (hres : (s.account i).result = none) (hq : q.pushing = true) :=
    answer_pushing targets giveUp hs hcond hi hres hq
  refine ⟨?_, hself, fun j hj => account_note_ne hj, ?_⟩
  · cases q with
    | readErr =>
      refine ⟨fun herr => ?_, fun hall => hs.all hmay.1 hall i hi hmay.2⟩
      obtain ⟨j, hj, hfl, -⟩ := hs.err herr
      exact ⟨j, hj, hfl⟩
    | setErr | count | leave => exact .inl rfl
    | _ => exact (hans hmay rfl).1
  · cases q with
    | readErr => exact sound_readErr hs hi hmay.2
    | setErr => exact sound_setErr hs hi hmay.2.1 hmay.2.2
    | count m => exact sound_count hs hi m
    | leave => exact sound_leave hs hi hmay.1 hmay.2
    | _ => exact sound_pushing hs hi hmay rfl (hans hmay rfl).2

end Run

end DueServer.Link
