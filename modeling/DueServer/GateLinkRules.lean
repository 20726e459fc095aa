import DueServer.GateLinkReport
import DueServer.LibPool

/-! Rules for the programs of a `GateLinker` whose environment is not fixed: with any answers at
all, and with answers that are a target's own or those of a cancelled context. -/
namespace DueServer.Link

open GateLinker Lib.Prog

def Ask.pushing : Ask → Bool
  | .setErr _ | .readErr | .count _ | .leave _ => false
  | _ => true

def Ask.uses : Ask → Bool
  | .mount | .consume | .release => true
  | _ => false

def Ask.releases : Ask → ℕ
  | .consume | .release => 1
  | _ => 0

@[simp] theorem Account.releases_note (t : Account) (q : Ask) (a : q.Answer) :
    (t.note q a).releases = t.releases + q.releases := by
  cases q <;> rfl

namespace Fan

variable {s : Fan} {i j : ℕ} {q : Ask} {a : q.Answer}

theorem length_note : (s.note i q a).accounts.length = s.accounts.length := List.length_set

theorem account_note_self (h : i < s.accounts.length) :
    (s.note i q a).account i = (s.account i).note q a := by
  show (s.accounts.set i ((s.account i).note q a))[i]?.getD {} = _
  rw [List.getElem?_set_self h]
  rfl

theorem account_note_ne (h : j ≠ i) : (s.note i q a).account j = s.account j := by
  show (s.accounts.set i ((s.account i).note q a))[j]?.getD {} = _
  rw [List.getElem?_set_ne h.symm]
  rfl

theorem getElem?_account (h : i < s.accounts.length) : s.accounts[i]? = some (s.account i) := by
  rw [account, List.getElem?_eq_getElem h]
  rfl

theorem releases_note (h : i < s.accounts.length) :
    (s.note i q a).releases = s.releases + q.releases := by
  have hset := Lib.sum_map_set Account.releases ((s.account i).note q a) (getElem?_account h)
  rw [Account.releases_note] at hset
  have hsum : (s.note i q a).releases + (s.account i).releases =
      s.releases + ((s.account i).releases + q.releases) := hset
  omega

theorem account_start {message : Buffer.Shared} {n : ℕ} : (start message n).account i = {} := by
  unfold account start
  rw [List.getElem?_replicate]
  split <;> rfl

end Fan

def pushing (limit : ℕ) : Lib.Contract Ask Ask.Answer Account where
  may t q := q.pushing = true ∧ t.result = none ∧ (q.uses = true → t.releases < limit)
  ans _ _ _ := True
  note := Account.note

def Target.mixed (target : Target) : Lib.Contract Ask Ask.Answer Account where
  may _ _ := True
  ans _ q a := a = target.own q ∨ a = target.severed q
  note := Account.note

section Any

variable {ρ : Type} {limit i : ℕ} {hasLocator ack : Bool} {t : Account}
  {handler : String → ℕ → GateProg (Handled ρ)} {failed : ℕ → GateProg Unit}

def Account.Pushing (m : ℕ) (t : Account) : Prop := t.releases = m ∧ t.result = none

theorem ends_releaseTimes (n : ℕ) : ∀ {m : ℕ} {t : Account}, t.Pushing m → m + n ≤ limit →
    (releaseTimes n).Ends (pushing limit) (fun t _ => t.Pushing (m + n)) t := by
  induction n with
  | zero => exact fun h _ => h
  | succ n ih =>
    intro m t h hle
    refine ⟨⟨rfl, h.2, fun _ => ?_⟩, fun _ _ => ?_⟩
    · rw [h.1]
      omega
    · have hnext : (t.note .release ()).Pushing (m + 1) := ⟨congrArg (· + 1) h.1, h.2⟩
      have hends := ih hnext (by omega)
      rw [Nat.add_right_comm] at hends
      exact hends

theorem ends_clientCall (op : GateOp) (client : String) {m : ℕ} (h : t.Pushing m)
    (hlt : m < limit) :
    (clientCall op i client).Ends (pushing limit) (fun t _ => t.Pushing (m + 1)) t := by
  have hroom : t.releases < limit := h.1.symm ▸ hlt
  refine ⟨⟨rfl, h.2, fun _ => hroom⟩, fun _ _ => ⟨⟨rfl, h.2, fun _ => hroom⟩, fun _ _ => ?_⟩⟩
  exact ⟨⟨rfl, h.2, fun hu => by cases hu⟩, fun _ _ => ⟨congrArg (· + 1) h.1, h.2⟩⟩

theorem ends_locateGate {m : ℕ} (h : t.Pushing m) :
    (locateGate hasLocator i).Ends (pushing limit) (fun t _ => t.Pushing m) t := by
  unfold locateGate
  split
  · exact h
  refine ⟨⟨rfl, h.2, fun hu => by cases hu⟩, fun a _ => ?_⟩
  cases a with
  | some gid => exact h
  | none =>
    refine ⟨⟨rfl, h.2, fun hu => by cases hu⟩, fun b _ => ?_⟩
    cases b <;> exact h

theorem ends_rpcRounds {post : Account → Option ρ × Option GateErr → Prop} {m : ℕ}
    {rounds : List ℕ}
    (hfld : ∀ t : Account, t.Pushing m →
      (failed i).Ends (pushing limit) (fun t _ => ∀ r, post t r) t)
    (hhan : ∀ (gid : String) (t : Account), t.Pushing m →
      (handler gid i).Ends (pushing limit) (fun t r => match r with
        | (true, reply, err) =>
          (rpcRounds hasLocator handler failed rounds gid (reply, err)).Ends (pushing limit) post t
        | (false, reply, err) => post t (reply, err)) t)
    (prev : String) (last : Option ρ × Option GateErr) (h : t.Pushing m) :
    (rpcRounds hasLocator handler failed (i :: rounds) prev last).Ends (pushing limit) post t := by
  have hfail (t : Account) (ht : t.Pushing m) (r : Option ρ × Option GateErr) :
      Lib.Prog.Ends (pushing limit) post ((failed i).bind fun _ => .ret r) t := by
    rw [ends_bind]
    exact (hfld t ht).mono fun t _ hpost => hpost r
  rw [rpcRounds, ends_bind]
  refine (ends_locateGate h).mono ?_
  rintro t (e | gid) ht
  · exact hfail t ht _
  simp only
  split
  · exact hfail t ht _
  refine ⟨⟨rfl, ht.2, fun hu => by cases hu⟩, fun a _ => ?_⟩
  cases a with
  | some e => exact hfail _ ht _
  | none =>
    refine (ends_bind _ _ _).mpr ((hhan gid _ ht).mono ?_)
    rintro t ⟨continued, reply, err⟩ hpost
    cases continued <;> exact hpost

def pushLimit (ack : Bool) : ℕ := if ack then 2 else 1

theorem ends_pushHandler_ack (gid : String) {m : ℕ} (hm : m + (2 - i) + 1 = 2) (h : t.Pushing m) :
    (pushHandler true gid i).Ends (pushing 2) (fun t r =>
      if r.1 then t.Pushing (m + 1) else t.Pushing 2) t := by
  rw [pushHandler, ends_bind]
  refine (ends_clientCall _ gid h (by omega)).mono ?_
  intro t r ht
  simp only [if_true]
  split
  · exact ht
  rw [ends_bind]
  refine (ends_releaseTimes (2 - i) ht (by omega)).mono ?_
  intro t _ ht'
  have htwo : m + 1 + (2 - i) = 2 := by omega
  rw [htwo] at ht'
  exact ht'

theorem ends_doPush_ack : (doPush hasLocator true).Ends (pushing 2)
    (fun t _ => t.Pushing 1 ∨ t.Pushing 2) {} := by
  rw [doPush, ends_bind]
  refine ends_rpcRounds ?_ ?_ _ _ ⟨rfl, rfl⟩
  · intro t ht
    exact (ends_releaseTimes 1 ht (by decide)).mono fun t _ ht' _ => .inl ht'
  · intro gid t ht
    refine (ends_pushHandler_ack gid rfl ht).mono ?_
    rintro t ⟨continued, reply, err⟩ ht'
    cases continued with
    | false => exact .inr ht'
    | true =>
      refine ends_rpcRounds ?_ ?_ _ _ ht'
      · intro t ht
        exact (ends_releaseTimes 0 ht (by decide)).mono fun t _ ht' _ => .inl ht'
      · intro gid t ht
        refine (ends_pushHandler_ack gid rfl ht).mono ?_
        rintro t ⟨continued, reply, err⟩ ht'
        cases continued <;> exact .inr ht'

theorem ends_doPush_send : (doPush hasLocator false).Ends (pushing 1)
    (fun t _ => t.Pushing 1) {} := by
  rw [doPush, ends_bind]
  refine ends_rpcRounds ?_ ?_ _ _ ⟨rfl, rfl⟩
  · intro t ht
    exact (ends_releaseTimes 1 ht (by decide)).mono fun t _ ht' _ => ht'
  · intro gid t ht
    exact (ends_clientCall _ gid ht (by decide)).mono fun t r ht' => ht'

theorem ends_doPush (hasLocator ack : Bool) : (doPush hasLocator ack).Ends (pushing (pushLimit ack))
    (fun t _ => t.result = none ∧ 1 ≤ t.releases ∧ t.releases ≤ pushLimit ack) {} := by
  have hone {t : Account} {m : ℕ} (hm : 1 ≤ m ∧ m ≤ pushLimit ack) (ht : t.Pushing m) :
      t.result = none ∧ 1 ≤ t.releases ∧ t.releases ≤ pushLimit ack := by
    rw [ht.1]
    exact ⟨ht.2, hm⟩
  cases ack with
  | false => exact ends_doPush_send.mono fun t _ ht => hone (by decide) ht
  | true =>
    refine ends_doPush_ack.mono ?_
    rintro t - (ht | ht)
    · exact hone (by decide) ht
    · exact hone (by decide) ht

theorem ends_dialled (op : GateOp) (refused : Option GateErr) (addr : String) :
    (dialled op refused addr).Ends (pushing 1) (fun t _ => t.Pushing 1) {} := by
  refine ⟨⟨rfl, rfl, fun hu => by cases hu⟩, fun a _ => ?_⟩
  cases a with
  | some e => exact ⟨⟨rfl, rfl, fun _ => Nat.one_pos⟩, fun _ _ => ⟨rfl, rfl⟩⟩
  | none =>
    cases refused with
    | some e => exact ⟨⟨rfl, rfl, fun _ => Nat.one_pos⟩, fun _ _ => ⟨rfl, rfl⟩⟩
    | none => exact ends_clientCall _ addr ⟨rfl, rfl⟩ Nat.one_pos

end Any

section Mixed

variable {ρ : Type} {target : Target} {i : ℕ} {hasLocator : Bool} {t : Account} {gid : String}
  {handler : String → ℕ → GateProg (Handled ρ)} {failed : ℕ → GateProg Unit}

theorem mixed_locateGate {post : Account → Except GateErr String → Prop}
    (hown : post t (target.located hasLocator i))
    (hcut : hasLocator = true → target.cached i = none →
      post { t with seen := true } (.error .canceled)) :
    (locateGate hasLocator i).Ends target.mixed post t := by
  unfold locateGate
  unfold Target.located at hown
  split
  · rename_i hloca
    rw [if_pos hloca] at hown
    exact hown
  rename_i hloca
  rw [if_neg hloca] at hown
  refine ⟨trivial, fun a ha => ?_⟩
  have hcch : a = target.cached i := ha.elim id id
  subst hcch
  cases hcch : target.cached i with
  | some gid =>
    rw [hcch] at hown
    exact hown
  | none =>
    rw [hcch] at hown
    refine ⟨trivial, fun b hb => ?_⟩
    rcases hb with rfl | rfl
    · have hnote : target.mixed.note (target.mixed.note t (.cached i) none) (.locator i)
          (target.own (.locator i)) = t := Target.note_locator
      rw [hnote]
      cases hlocat : (target.round i).located with
      | error code =>
        have hloc : target.own (.locator i) = .error (.external code) := by
          rw [Target.own, hlocat]
          rfl
        rw [hlocat] at hown
        rw [hloc]
        exact hown
      | ok gid =>
        have hloc : target.own (.locator i) = .ok gid := by
          rw [Target.own, hlocat]
          rfl
        rw [hlocat] at hown
        rw [hloc]
        exact hown
    · have hnote : target.mixed.note (target.mixed.note t (.cached i) none) (.locator i)
          (target.severed (.locator i)) = { t with seen := true } := by
        simp [Target.mixed, Account.note, Target.severed]
      rw [hnote]
      exact hcut (Bool.of_not_eq_false hloca) hcch

theorem mixed_rpcRounds {post : Account → Option ρ × Option GateErr → Prop} {rounds : List ℕ}
    {prev : String} {last : Option ρ × Option GateErr}
    (hcut : hasLocator = true → target.cached i = none →
      (failed i).Ends target.mixed (fun t _ => post t (none, some .canceled))
        { t with seen := true })
    (hown : match target.reach hasLocator i prev with
      | .fails e => (failed i).Ends target.mixed (fun t _ => post t (none, some e)) t
      | .stays => (failed i).Ends target.mixed (fun t _ => post t (last.1, none)) t
      | .calls gid => (handler gid i).Ends target.mixed (fun t r => match r with
        | (true, reply, err) => (rpcRounds hasLocator handler failed rounds gid
            (reply, err)).Ends target.mixed post t
        | (false, reply, err) => post t (reply, err)) t) :
    (rpcRounds hasLocator handler failed (i :: rounds) prev last).Ends target.mixed post t := by
  rw [rpcRounds, ends_bind]
  unfold Target.reach at hown
  refine mixed_locateGate ?_ ?_
  · cases hloc : target.located hasLocator i with
    | error e =>
      rw [hloc] at hown
      exact (ends_bind _ _ _).mpr hown
    | ok gid =>
      rw [hloc] at hown
      by_cases hprev : gid = prev
      · simp only [if_pos hprev] at hown ⊢
        exact (ends_bind _ _ _).mpr hown
      simp only [if_neg hprev] at hown ⊢
      refine ⟨trivial, fun a ha => ?_⟩
      have hbd : a = target.buildErr i gid := ha.elim id id
      subst hbd
      cases hbd : target.buildErr i gid with
      | some e =>
        rw [hbd] at hown
        exact (ends_bind _ _ _).mpr hown
      | none =>
        rw [hbd] at hown
        refine (ends_bind _ _ _).mpr (hown.mono ?_)
        rintro t ⟨continued, reply, err⟩ hpost
        cases continued <;> exact hpost
  · intro hloca hcch
    exact (ends_bind _ _ _).mpr (hcut hloca hcch)

theorem mixed_releaseTimes (n : ℕ) {post : Account → Unit → Prop} : ∀ {t : Account},
    post { t with releases := t.releases + n } () → (releaseTimes n).Ends target.mixed post t := by
  induction n with
  | zero => exact fun h => h
  | succ n ih =>
    intro t h
    refine ⟨trivial, fun _ _ => ih ?_⟩
    have hsum : t.releases + 1 + n = t.releases + (n + 1) := by omega
    show post { t with releases := t.releases + 1 + n } ()
    rw [hsum]
    exact h

theorem mixed_clientCall {op : GateOp} {post : Account → op.Reply × Option GateErr → Prop}
    (hown : post { t with
      calls := t.calls ++ [(gid, target.callErr op i gid)]
      releases := t.releases + 1 } (target.own (.call op i gid)))
    (hcut : op.waits = true → post { t with
      calls := t.calls ++ [(gid, some .canceled)]
      releases := t.releases + 1
      seen := true } (op.zero, some .canceled)) :
    (clientCall op i gid).Ends target.mixed post t := by
  refine ⟨trivial, fun u _ => ⟨trivial, fun v _ => ⟨trivial, fun a ha => ?_⟩⟩⟩
  have hnot : target.mixed.note (target.mixed.note (target.mixed.note t .mount u) .consume v)
      (.call op i gid) (target.own (.call op i gid)) = { t with
        calls := t.calls ++ [(gid, target.callErr op i gid)]
        releases := t.releases + 1 } :=
    Target.note_call
  rcases ha with rfl | hsev
  · rw [hnot]
    exact hown
  by_cases hws : op.waits = true
  · have ha : a = (op.zero, some .canceled) := by
      rw [hsev, Target.severed, if_pos hws]
    subst ha
    have hnote : target.mixed.note (target.mixed.note (target.mixed.note t .mount u) .consume v)
        (.call op i gid) (op.zero, some .canceled) = { t with
          calls := t.calls ++ [(gid, some .canceled)]
          releases := t.releases + 1
          seen := true } := by
      simp [Target.mixed, Account.note]
    rw [hnote]
    exact hcut hws
  · have ha : a = target.own (.call op i gid) := by
      rw [hsev, Target.severed, if_neg hws]
    subst ha
    rw [hnot]
    exact hown

end Mixed

end DueServer.Link
