import DueServer.LibTransition
import DueServer.RedisStore

/-! Clients of the redis store that share the hash of one user, in every interleaving of the script
executions, the steps of the range allocator and the loss of the whole hash. The allocator reserves
only above every range it has reserved before, holds a lock for the user while the callback runs,
and reports its error. It can commit a range under that lock or before it asks for it. -/
namespace DueServer.Redis

open Function (update_self update_of_ne update)
open List Option Lib

inductive Call where
  | idle
  | acquiring (rangeAllocator : Bool)
  | waiting (floor : ℕ)
  | committed (floor start last : ℕ)
  | locked (u : Use)
  | reserved (u : Use) (start last : ℕ)
  | returned
deriving DecidableEq

def Call.use? : Call → Option Use
  | .locked u => some u
  | .reserved u _ _ => some u
  | _ => none

def Call.reservation : Call → Option (ℕ × ℕ)
  | .reserved _ start last => some (start, last)
  | _ => none

/-- `top` is the end of the highest range that the allocator has reserved. -/
structure Clients where
  hash : Hash
  top : ℕ
  lock : Option ℕ
  calls : ℕ → Call

inductive Action where
  | acquire (c : ℕ) (rangeAllocator : Bool) (ctx : Ctx)
  | acquireScript (c : ℕ) (rep : Reply)
  | lock (c : ℕ)
  | reserve (c : ℕ) (start last : ℕ)
  | use (c : ℕ) (operation : Bool) (rep : Reply)
  | finish (c : ℕ) (err : Option DueErr) (ctx : Ctx)
  | current (ctx : Ctx)
  | release (ctx : Ctx) (token : Token) (rep : Reply)
  | lose

/-- What a step shows: the generation a script execution issued for a call, and the results
of the calls that return. -/
structure Event where
  issued : Option (ℕ × ℕ) := none
  acquired : Option (ℕ × Except DueErr Token) := none
  current : Option (Except DueErr (Option Token)) := none
  released : Option (Except DueErr Bool) := none

namespace Clients

def init : Clients := ⟨Hash.empty, 0, none, fun _ => .idle⟩

def goto (s : Clients) (c : ℕ) (k : Call) : Clients :=
  { s with calls := Function.update s.calls c k }

def finish (s : Clients) (uid : ℤ) (c : ℕ) (u : Use) (err : Option DueErr) (ctx : Ctx) :
    Clients × Event :=
  (s.goto c .returned, { acquired := some (c, finishAcquire ctx uid u err) })

def step (uid : ℤ) (s : Clients) : Action → Option (Clients × Event)
  | .acquire c rangeAllocator ctx =>
    if s.calls c = .idle then
      match acquireArgs ctx uid with
      | some err => some (s.goto c .returned, { acquired := some (c, .error err) })
      | none => some (s.goto c (.acquiring rangeAllocator), {})
    else none
  | .acquireScript c rep =>
    match s.calls c with
    | .acquiring rangeAllocator =>
      let r := acquireScript s.hash
      let seen := runScript rep r s.hash
      let issued := (issuedBy rep r.1).map fun g => (c, g)
      match acquireReply uid rangeAllocator seen.1 with
      | .done result =>
        some ({ s with hash := seen.2 }.goto c .returned,
          { issued := issued, acquired := some (c, result) })
      | .range floor => some ({ s with hash := seen.2 }.goto c (.waiting floor),
        { issued := issued })
    | _ => none
  | .lock c =>
    match s.calls c with
    | .waiting floor =>
      if s.lock = none then some ({ s with lock := some c }.goto c (.locked (Use.new floor)), {})
      else none
    | .committed floor start last =>
      if s.lock = none then
        some ({ s with lock := some c }.goto c (.reserved (Use.new floor) start last), {})
      else none
    | _ => none
  | .reserve c start last =>
    match s.calls c with
    | .locked u =>
      if s.top < start then
        some ({ s with top := Nat.max s.top last }.goto c (.reserved u start last), {})
      else none
    | .waiting floor =>
      if s.top < start then
        some ({ s with top := Nat.max s.top last }.goto c (.committed floor start last), {})
      else none
    | _ => none
  | .use c operation rep =>
    match s.calls c with
    | .reserved u start last =>
      let r := u.run s.hash operation start last rep
      some ({ s with hash := r.2.1 }.goto c (.locked r.1), { issued := r.2.2.map fun g => (c, g) })
    | _ => none
  | .finish c err ctx =>
    match s.calls c with
    -- the allocator can give up before it has the lock
    | .waiting floor | .committed floor _ _ => some (s.finish uid c (Use.new floor) err ctx)
    | .locked u =>
      if u.err ≠ none ∧ err = none then none
      else some ({ s with lock := none }.finish uid c u err ctx)
    | .reserved u _ _ =>
      if u.err ≠ none ∧ err = none then none
      else some ({ s with lock := none }.finish uid c u err ctx)
    | _ => none
  | .current ctx => some (s, { current := some (current s.hash ctx uid) })
  | .release ctx token rep =>
    let r := release s.hash ctx uid token rep
    some ({ s with hash := r.2 }, { released := some r.1 })
  | .lose => some ({ s with hash := Hash.empty }, {})

/-- The lock covers the commit: no call takes it with a range it has committed before. -/
def lockCoversCommit (s : Clients) : Action → Bool
  | .lock c =>
    match s.calls c with
    | .committed _ _ _ => false
    | _ => true
  | _ => true

end Clients

def issued (tr : List Event) : List (ℕ × ℕ) := tr.filterMap Event.issued

def acquired (tr : List Event) : List (ℕ × Except DueErr Token) := tr.filterMap Event.acquired

section Ledger

variable {o o' : Option Range} {top : ℕ} {pending : Option (ℕ × ℕ)} {gens : List ℕ} {g : Option ℕ}

/-- The order of all generations in play: those issued so far, the range in the hash, a range
that is reserved and not yet handed to a script, and the end of all reservations. -/
structure Ordered (o : Option Range) (top : ℕ) (pending : Option (ℕ × ℕ)) (gens : List ℕ) :
    Prop where
  sorted : gens.Pairwise (· < ·)
  bounded : ∀ n ∈ gens, n ≤ maxInt64
  le_top : ∀ n ∈ gens, n ≤ top
  range_le : ∀ r ∈ o, r.limit ≤ top ∧ ∀ n ∈ gens, n ≤ r.generation
  pending_gt : ∀ p ∈ pending, p.2 ≤ top ∧ (∀ n ∈ gens, n < p.1) ∧ ∀ r ∈ o, r.limit < p.1

theorem Ordered.drop (h : Ordered o top pending gens) : Ordered o top none gens :=
  ⟨h.sorted, h.bounded, h.le_top, h.range_le, nofun⟩

theorem Ordered.lose (h : Ordered o top pending gens) : Ordered none top pending gens := by
  refine ⟨h.sorted, h.bounded, h.le_top, nofun, ?_⟩
  intro p hp
  exact ⟨(h.pending_gt p hp).1, (h.pending_gt p hp).2.1, nofun⟩

variable {r : Range} {start last n : ℕ}

theorem Ordered.release (h : Ordered (some r) top pending gens) :
    Ordered (some r.release) top pending gens := by
  refine ⟨h.sorted, h.bounded, h.le_top, ?_, ?_⟩
  · rintro _ ⟨rfl⟩
    exact h.range_le r rfl
  · intro p hp
    refine ⟨(h.pending_gt p hp).1, (h.pending_gt p hp).2.1, ?_⟩
    rintro _ ⟨rfl⟩
    exact (h.pending_gt p hp).2.2 r rfl

theorem Ordered.raise {top' : ℕ} (h : Ordered o top pending gens) (hle : top ≤ top') :
    Ordered o top' pending gens := by
  refine ⟨h.sorted, h.bounded, ?_, ?_, ?_⟩
  · intro n hn
    exact (h.le_top n hn).trans hle
  · intro r hr
    exact ⟨(h.range_le r hr).1.trans hle, (h.range_le r hr).2⟩
  · intro p hp
    exact ⟨(h.pending_gt p hp).1.trans hle, (h.pending_gt p hp).2⟩

theorem Ordered.reserve (h : Ordered o top pending gens) (hstr : top < start) :
    Ordered o (Nat.max top last) (some (start, last)) gens := by
  have hr := h.raise (Nat.le_max_left top last)
  refine ⟨hr.sorted, hr.bounded, hr.le_top, hr.range_le, ?_⟩
  rintro _ ⟨rfl⟩
  refine ⟨Nat.le_max_right _ _, ?_, ?_⟩
  · intro n hn
    exact (h.le_top n hn).trans_lt hstr
  · intro r hr
    exact (h.range_le r hr).1.trans_lt hstr

theorem forall_mem_snoc {P : ℕ → Prop} (h : ∀ m ∈ gens, P m) (hn : P n) : ∀ m ∈ gens ++ [n], P m :=
  forall_mem_append.mpr ⟨h, forall_mem_singleton.mpr hn⟩

theorem pairwise_snoc (h : gens.Pairwise (· < ·)) (hlt : ∀ m ∈ gens, m < n) :
    (gens ++ [n]).Pairwise (· < ·) := by
  rw [pairwise_append]
  refine ⟨h, pairwise_singleton _ _, ?_⟩
  intro m hm
  exact forall_mem_singleton.mpr (hlt m hm)

theorem Ordered.next (h : Ordered (some r) top pending gens) (hlt : r.generation < r.limit) :
    Ordered (some (r.next hlt)) top pending (gens ++ [r.generation + 1]) := by
  obtain ⟨htop, hgens⟩ := h.range_le r rfl
  have hmax := r.limit_le
  refine ⟨pairwise_snoc h.sorted fun m hm => Nat.lt_succ_of_le (hgens m hm),
    forall_mem_snoc h.bounded (by omega), forall_mem_snoc h.le_top (by omega), ?_, ?_⟩
  · rintro _ ⟨rfl⟩
    exact ⟨htop, forall_mem_snoc (fun n hn => (hgens n hn).trans (Nat.le_succ _)) le_rfl⟩
  · intro p hp
    obtain ⟨hp1, hp2, hp3⟩ := h.pending_gt p hp
    have hlim := hp3 r rfl
    refine ⟨hp1, forall_mem_snoc hp2 (by omega), ?_⟩
    rintro _ ⟨rfl⟩
    exact hlim

theorem Ordered.first (h : Ordered o top (some (start, last)) gens)
    (hpos : 0 < start) (hle : start ≤ last) (hmax : last ≤ maxInt64) :
    Ordered (some (Range.first start last hpos hle hmax)) top none (gens ++ [start]) := by
  obtain ⟨htop, hgens, _⟩ := h.pending_gt _ rfl
  refine ⟨pairwise_snoc h.sorted hgens, forall_mem_snoc h.bounded (hle.trans hmax),
    forall_mem_snoc h.le_top (hle.trans htop), ?_, nofun⟩
  rintro _ ⟨rfl⟩
  exact ⟨htop, forall_mem_snoc (fun n hn => (hgens n hn).le) le_rfl⟩

theorem Ordered.acquire (h : Ordered o top pending gens) (hi : Issues o none o' g) :
    Ordered o' top pending (gens ++ g.toList) := by
  cases hi with
  | nothing => simpa using h
  | next r hlt ho =>
    subst ho
    exact h.next hlt
  | first start last hpos hle hmax hr => cases hr

theorem Ordered.use (h : Ordered o top pending gens) (hi : Issues o pending o' g) :
    Ordered o' top none (gens ++ g.toList) := by
  cases hi with
  | nothing => simpa using h.drop
  | next r hlt ho =>
    subst ho
    exact (h.next hlt).drop
  | first start last hpos hle hmax hr =>
    subst hr
    exact h.first hpos hle hmax

end Ledger

section Calls

variable {uid : ℤ} {tr : List Event} {s s' : Clients} {c : ℕ} {k : Call} {e : Event}

theorem issued_snoc (tr : List Event) (e : Event) :
    issued (tr ++ [e]) = issued tr ++ e.issued.toList := by
  rw [issued, issued]
  cases h : e.issued <;> simp [h]

theorem acquired_snoc (tr : List Event) (e : Event) :
    acquired (tr ++ [e]) = acquired tr ++ e.acquired.toList := by
  rw [acquired, acquired]
  cases h : e.acquired <;> simp [h]

/-- What the calls hold: the lock belongs to the call in `WithGenerationRange`, and whatever
a call returns or is about to return has been issued by a script of that call. -/
structure CallsInv (uid : ℤ) (tr : List Event) (s : Clients) : Prop where
  lock : ∀ c, s.lock = some c ↔ (s.calls c).use? ≠ none
  own : ∀ c u, (s.calls c).use? = some u → u.err = none → u.calls = 1 →
    (c, u.generation) ∈ issued tr
  tokens : ∀ c t, (c, .ok t) ∈ acquired tr → t.uid = uid ∧ (c, t.generation) ∈ issued tr
  done : ∀ p ∈ acquired tr, s.calls p.1 = .returned
  once : ((acquired tr).map Prod.fst).Nodup

theorem CallsInv.goto (hi : CallsInv uid tr s) (hc : s.calls c ≠ .returned)
    (hcs : s'.calls = update s.calls c k)
    (hlock : s'.lock = some c ↔ k.use? ≠ none)
    (hoth : ∀ d ≠ c, s'.lock = some d ↔ s.lock = some d)
    (hown : ∀ u, k.use? = some u → u.err = none → u.calls = 1 →
      (c, u.generation) ∈ issued (tr ++ [e]))
    (hret : ∀ p ∈ e.acquired, p.1 = c ∧ k = .returned ∧
      ∀ t, p.2 = .ok t → t.uid = uid ∧ (c, t.generation) ∈ issued (tr ++ [e])) :
    CallsInv uid (tr ++ [e]) s' := by
  have hmono : ∀ p ∈ issued tr, p ∈ issued (tr ++ [e]) := by
    intro p hp
    rw [issued_snoc]
    exact mem_append_left _ hp
  have hacq : ∀ p, p ∈ acquired (tr ++ [e]) ↔ p ∈ acquired tr ∨ p ∈ e.acquired := by
    intro p
    rw [acquired_snoc, mem_append, mem_toList, mem_def]
  -- a call that has returned takes no more steps
  have hne : ∀ p ∈ acquired tr, p.1 ≠ c := by
    rintro p hp rfl
    exact hc (hi.done p hp)
  refine ⟨?_, ?_, ?_, ?_, ?_⟩
  · intro d
    rw [hcs]
    by_cases hd : d = c
    · subst hd
      rw [update_self, hlock]
    · rw [update_of_ne hd, hoth d hd, hi.lock d]
  · intro d u
    rw [hcs]
    by_cases hd : d = c
    · subst hd
      rw [update_self]
      exact hown u
    rw [update_of_ne hd]
    intro hu herr hone
    exact hmono _ (hi.own d u hu herr hone)
  · intro d t ht
    rcases (hacq _).mp ht with ht | ht
    · exact ⟨(hi.tokens d t ht).1, hmono _ (hi.tokens d t ht).2⟩
    obtain ⟨hdc, _, htok⟩ := hret _ ht
    dsimp only at hdc
    rw [hdc]
    exact htok t rfl
  · intro p hp
    rw [hcs]
    rcases (hacq p).mp hp with hp | hp
    · rw [update_of_ne (hne p hp)]
      exact hi.done p hp
    obtain ⟨hpc, hk, _⟩ := hret p hp
    rw [hpc, update_self, hk]
  · rw [acquired_snoc, map_append, nodup_append]
    refine ⟨hi.once, ?_, ?_⟩
    · cases e.acquired <;> simp
    · intro a ha b hb hab
      obtain ⟨p, hp, rfl⟩ := mem_map.mp ha
      obtain ⟨q, hq, rfl⟩ := mem_map.mp hb
      exact hne p hp (hab.trans (hret q (mem_toList.mp hq)).1)

theorem CallsInv.silent (hi : CallsInv uid tr s) (hcs : s'.calls = s.calls)
    (hlock : s'.lock = s.lock) (hiss : e.issued = none) (hacq : e.acquired = none) :
    CallsInv uid (tr ++ [e]) s' := by
  have h1 : issued (tr ++ [e]) = issued tr := by simp [issued_snoc, hiss]
  have h2 : acquired (tr ++ [e]) = acquired tr := by simp [acquired_snoc, hacq]
  refine ⟨?_, ?_, ?_, ?_, ?_⟩
  · rw [hcs, hlock]
    exact hi.lock
  · rw [hcs, h1]
    exact hi.own
  · rw [h1, h2]
    exact hi.tokens
  · rw [hcs, h2]
    exact hi.done
  · rw [h2]
    exact hi.once

def pending (s : Clients) : Option (ℕ × ℕ) := s.lock.bind fun c => (s.calls c).reservation

theorem pending_holder (hl : s.lock = some c) : pending s = (s.calls c).reservation := by
  rw [pending, hl, bind_some]

theorem pending_other (hcs : s'.calls = update s.calls c k) (hlock : s'.lock = s.lock)
    (hc : s.lock ≠ some c) : pending s' = pending s := by
  rw [pending, pending, hlock, hcs]
  rcases hl : s.lock with _ | d
  · rfl
  have hd : d ≠ c := fun h => hc (h ▸ hl)
  rw [bind_some, bind_some, update_of_ne hd]

structure StoreInv (uid : ℤ) (tr : List Event) (s : Clients) : Prop where
  range : ∃ o, s.hash = encode o ∧ Ordered o s.top (pending s) ((issued tr).map Prod.snd)
  calls : CallsInv uid tr s

variable {g : Option ℕ} {n start last : ℕ} {h' : Hash} {u : Use} {err : Option DueErr} {ctx : Ctx}
  {rep : Reply}

theorem issued_generations (tr : List Event) (e : Event) (he : e.issued = g.map fun n => (c, n)) :
    (issued (tr ++ [e])).map Prod.snd = (issued tr).map Prod.snd ++ g.toList := by
  rw [issued_snoc, map_append, he]
  cases g <;> rfl

theorem issued_own (tr : List Event) {e : Event} (he : e.issued = some (c, n)) :
    (c, n) ∈ issued (tr ++ [e]) := by
  rw [issued_snoc, he]
  exact mem_append_right _ (mem_singleton_self _)

section

variable (hi : StoreInv uid tr s)

include hi

theorem StoreInv.free {top' : ℕ}
    (huse : (s.calls c).use? = none) (hc : s.calls c ≠ .returned) (hk : k.use? = none)
    (hhash : ∀ o, s.hash = encode o → ∃ o', h' = encode o' ∧ Issues o none o' g)
    (htop : s.top ≤ top') (he : e.issued = g.map fun n => (c, n))
    (hret : ∀ p ∈ e.acquired, p.1 = c ∧ k = .returned ∧
      ∀ t, p.2 = .ok t → t.uid = uid ∧ (c, t.generation) ∈ issued (tr ++ [e])) :
    StoreInv uid (tr ++ [e]) ({ s with hash := h', top := top' }.goto c k) := by
  -- whatever is reserved belongs to another call
  have hlock : s.lock ≠ some c := fun h => (hi.calls.lock c).mp h huse
  refine ⟨?_, ?_⟩
  · obtain ⟨o, ho, hord⟩ := hi.range
    obtain ⟨o', ho', hiss⟩ := hhash o ho
    have hp : pending ({ s with hash := h', top := top' }.goto c k) = pending s :=
      pending_other rfl rfl hlock
    refine ⟨o', ho', ?_⟩
    rw [issued_generations tr e he, hp]
    exact (hord.acquire hiss).raise htop
  · refine hi.calls.goto hc ?_ ?_ ?_ ?_ hret
    · rfl
    · rw [hk]
      exact ⟨fun h => absurd h hlock, fun h => absurd rfl h⟩
    · intro d _
      exact Iff.rfl
    · rw [hk]
      nofun

theorem StoreInv.held {top' : ℕ} (huse : (s.calls c).use? ≠ none) (hk : k.use? = some u)
    (hord : ∀ o gens, s.hash = encode o → Ordered o s.top (s.calls c).reservation gens →
      ∃ o', h' = encode o' ∧ Ordered o' top' k.reservation (gens ++ g.toList))
    (he : e.issued = g.map fun n => (c, n)) (hacq : e.acquired = none)
    (hown : u.err = none → u.calls = 1 → (c, u.generation) ∈ issued (tr ++ [e])) :
    StoreInv uid (tr ++ [e]) ({ s with hash := h', top := top' }.goto c k) := by
  have hlock : s.lock = some c := (hi.calls.lock c).mpr huse
  refine ⟨?_, ?_⟩
  · obtain ⟨o, ho, h⟩ := hi.range
    rw [pending_holder hlock] at h
    obtain ⟨o', ho', hnew⟩ := hord o _ ho h
    have hp : pending ({ s with hash := h', top := top' }.goto c k) = k.reservation := by
      simp [pending, Clients.goto, hlock]
    refine ⟨o', ho', ?_⟩
    rw [issued_generations tr e he, hp]
    exact hnew
  · refine hi.calls.goto (c := c) (k := k) ?_ ?_ ?_ ?_ ?_ ?_
    · intro h
      rw [h] at huse
      exact huse rfl
    · rfl
    · rw [hk]
      exact ⟨fun _ => nofun, fun _ => hlock⟩
    · intro d _
      exact Iff.rfl
    · intro u' hu'
      rw [hk] at hu'
      cases hu'
      exact hown
    · rw [hacq]
      nofun

theorem StoreInv.takeLock {floor : ℕ} (hlock : s.lock = none) (hc : s.calls c = .waiting floor) :
    StoreInv uid (tr ++ [({} : Event)])
      ({ s with lock := some c }.goto c (.locked (Use.new floor))) := by
  refine ⟨?_, ?_⟩
  · obtain ⟨o, ho, h⟩ := hi.range
    refine ⟨o, ho, ?_⟩
    have hp : pending ({ s with lock := some c }.goto c (.locked (Use.new floor))) = none := by
      simp [pending, Clients.goto, Call.reservation]
    rw [issued_generations (c := c) tr _ (g := none) rfl, toList_none, append_nil, hp]
    exact h.drop
  · refine hi.calls.goto (c := c) (k := .locked (Use.new floor)) ?_ ?_ ?_ ?_ ?_ nofun
    · rw [hc]; nofun
    · rfl
    · exact ⟨fun _ => nofun, fun _ => rfl⟩
    · intro d hd
      rw [hlock]
      exact ⟨fun h => absurd (some.inj h).symm hd, nofun⟩
    · rintro u ⟨rfl⟩ _ hone
      cases hone

/-- The callback of such a call has not run, so that `calls` is still 0. -/
theorem StoreInv.giveUp {floor : ℕ} (huse : (s.calls c).use? = none) (hc : s.calls c ≠ .returned) :
    StoreInv uid (tr ++ [(s.finish uid c (Use.new floor) err ctx).2])
      (s.finish uid c (Use.new floor) err ctx).1 := by
  refine hi.free huse hc rfl (fun o ho => ⟨o, ho, Issues.nothing⟩) le_rfl rfl ?_
  rintro p ⟨rfl⟩
  refine ⟨rfl, rfl, ?_⟩
  intro t ht
  cases (finishAcquire_token ht).2.1

theorem StoreInv.finish (huse : (s.calls c).use? = some u) (hret : ¬ (u.err ≠ none ∧ err = none)) :
    StoreInv uid (tr ++ [({ s with lock := none }.finish uid c u err ctx).2])
      ({ s with lock := none }.finish uid c u err ctx).1 := by
  have hlock : s.lock = some c := (hi.calls.lock c).mpr (by simp [huse])
  refine ⟨?_, ?_⟩
  · obtain ⟨o, ho, h⟩ := hi.range
    refine ⟨o, ho, ?_⟩
    rw [issued_generations (c := c) tr _ (g := none) rfl, toList_none, append_nil]
    exact h.drop
  · refine hi.calls.goto (c := c) (k := .returned) ?_ ?_ ?_ ?_ ?_ ?_
    · intro h
      rw [h] at huse
      cases huse
    · rfl
    · exact ⟨nofun, fun h => absurd rfl h⟩
    · intro d hd
      rw [hlock]
      exact ⟨nofun, fun h => absurd (some.inj h).symm hd⟩
    · nofun
    · rintro p ⟨rfl⟩
      refine ⟨rfl, rfl, ?_⟩
      intro t ht
      obtain ⟨rfl, hcs, herr⟩ := finishAcquire_token ht
      -- the allocator passes an error of the callback on, and it reports none
      have hnone : u.err = none := by
        by_contra hne
        exact hret ⟨hne, herr⟩
      refine ⟨rfl, ?_⟩
      rw [issued_snoc]
      exact mem_append_left _ (hi.calls.own c u huse hnone hcs)

theorem StoreInv.aside (hiss : e.issued = none) (hacq : e.acquired = none)
    (hord : ∀ o pending gens, s.hash = encode o → Ordered o s.top pending gens →
      ∃ o', h' = encode o' ∧ Ordered o' s.top pending gens) :
    StoreInv uid (tr ++ [e]) { s with hash := h' } := by
  refine ⟨?_, hi.calls.silent rfl rfl hiss hacq⟩
  obtain ⟨o, ho, h⟩ := hi.range
  obtain ⟨o', ho', h'⟩ := hord o _ _ ho h
  refine ⟨o', ho', ?_⟩
  rw [issued_snoc, hiss, toList_none, append_nil]
  exact h'

end

theorem newest_lt_of_ordered {o : Option Range} {top : ℕ} {gens : List ℕ}
    (hpos : 0 < start) (h : Ordered o top (some (start, last)) gens) : newest o < start := by
  rcases o with _ | r
  · exact hpos
  · exact r.le_limit.trans_lt ((h.pending_gt _ rfl).2.2 r rfl)

theorem StoreInv.acquire_step {rangeAllocator : Bool} (hi : StoreInv uid tr s)
    (h : s.step uid (.acquire c rangeAllocator ctx) = some (s', e)) :
      StoreInv uid (tr ++ [e]) s' := by
  simp only [Clients.step] at h
  split at h
  · rename_i hidle
    split at h
    · cases h
      refine hi.free ?_ ?_ rfl (fun o ho => ⟨o, ho, Issues.nothing⟩) le_rfl rfl ?_
      · rw [hidle]; rfl
      · rw [hidle]; nofun
      · rintro p ⟨rfl⟩
        exact ⟨rfl, rfl, nofun⟩
    · cases h
      refine hi.free ?_ ?_ rfl (fun o ho => ⟨o, ho, Issues.nothing⟩) le_rfl rfl nofun
      · rw [hidle]; rfl
      · rw [hidle]; nofun
  · cases h

theorem StoreInv.acquireScript_step (hi : StoreInv uid tr s)
    (h : s.step uid (.acquireScript c rep) = some (s', e)) : StoreInv uid (tr ++ [e]) s' := by
  simp only [Clients.step] at h
  split at h
  · rename_i rangeAllocator hc
    have huse : (s.calls c).use? = none := by rw [hc]; rfl
    have hne : s.calls c ≠ .returned := by rw [hc]; nofun
    split at h
    · rename_i result hd
      cases h
      refine hi.free huse hne rfl ?_ le_rfl rfl ?_
      · rintro o ho
        rw [ho]
        exact acquireScript_issues o rep
      · rintro p ⟨rfl⟩
        refine ⟨rfl, rfl, ?_⟩
        rintro t rfl
        -- the token in the reply is the generation this script has issued
        obtain ⟨htuid, htgen⟩ := acquireReply_token hd
        refine ⟨htuid, issued_own tr ?_⟩
        rw [htgen]
        rfl
    · cases h
      refine hi.free huse hne rfl ?_ le_rfl rfl nofun
      rintro o ho
      rw [ho]
      exact acquireScript_issues o rep
  · cases h

theorem StoreInv.reserve_step (hi : StoreInv uid tr s)
    (h : s.step uid (.reserve c start last) = some (s', e)) : StoreInv uid (tr ++ [e]) s' := by
  simp only [Clients.step] at h
  split at h
  · rename_i u hc
    split at h
    · rename_i htop
      cases h
      refine hi.held (g := none) ?_ rfl ?_ rfl rfl ?_
      · rw [hc]; nofun
      · intro o gens ho hord
        refine ⟨o, ho, ?_⟩
        rw [toList_none, append_nil]
        exact hord.reserve htop
      · intro herr hone
        have hown := hi.calls.own c u (by rw [hc]; rfl) herr hone
        rw [issued_snoc]
        exact mem_append_left _ hown
    · cases h
  · rename_i floor hc
    split at h
    · cases h
      refine hi.free (g := none) ?_ ?_ rfl ?_ (Nat.le_max_left _ _) rfl nofun
      · rw [hc]; rfl
      · rw [hc]; nofun
      · intro o ho
        exact ⟨o, ho, Issues.nothing⟩
    · cases h
  · cases h

theorem StoreInv.use_step {operation : Bool} (hi : StoreInv uid tr s)
    (h : s.step uid (.use c operation rep) = some (s', e)) : StoreInv uid (tr ++ [e]) s' := by
  simp only [Clients.step] at h
  split at h
  · rename_i u start last hc
    cases h
    refine hi.held ?_ rfl ?_ rfl rfl ?_
    · rw [hc]; nofun
    · intro o gens ho hord
      rw [hc] at hord
      rw [ho]
      obtain ⟨o', ho', hiss⟩ := u.run_issues operation rep fun hpos =>
        newest_lt_of_ordered hpos hord
      exact ⟨o', ho', hord.use hiss⟩
    · intro herr _
      apply issued_own
      rw [Use.run_own herr]
      rfl
  · cases h

theorem StoreInv.finish_step (hi : StoreInv uid tr s)
    (h : s.step uid (.finish c err ctx) = some (s', e)) : StoreInv uid (tr ++ [e]) s' := by
  simp only [Clients.step] at h
  split at h
  · rename_i floor hc
    cases h
    exact hi.giveUp (by rw [hc]; rfl) (by rw [hc]; nofun)
  · rename_i floor _ _ hc
    cases h
    exact hi.giveUp (by rw [hc]; rfl) (by rw [hc]; nofun)
  · rename_i u hc
    split at h
    · cases h
    rename_i hret
    cases h
    exact hi.finish (by rw [hc]; rfl) hret
  · rename_i u start last hc
    split at h
    · cases h
    rename_i hret
    cases h
    exact hi.finish (by rw [hc]; rfl) hret
  · cases h

theorem StoreInv.step {act : Action} (hi : StoreInv uid tr s)
    (hlc : s.lockCoversCommit act = true) (h : s.step uid act = some (s', e)) :
      StoreInv uid (tr ++ [e]) s' := by
  cases act with
  | acquire => exact hi.acquire_step h
  | acquireScript => exact hi.acquireScript_step h
  | lock =>
    simp only [Clients.step] at h
    split at h
    · rename_i floor hc
      split at h
      · rename_i hlock
        cases h
        exact hi.takeLock hlock hc
      · cases h
    · rename_i hc
      simp [Clients.lockCoversCommit, hc] at hlc
    · cases h
  | reserve => exact hi.reserve_step h
  | use => exact hi.use_step h
  | finish => exact hi.finish_step h
  | current =>
    cases h
    exact hi.aside rfl rfl fun o _ _ ho hord => ⟨o, ho, hord⟩
  | release ctx token rep =>
    cases h
    refine hi.aside rfl rfl ?_
    intro o p gens ho hord
    rw [ho]
    rcases release_range o ctx uid token rep with hr | ⟨r, rfl, hr, _⟩
    · exact ⟨o, hr, hord⟩
    · exact ⟨_, hr, hord.release⟩
  | lose =>
    cases h
    exact hi.aside rfl rfl fun o p gens _ hord => ⟨none, rfl, hord.lose⟩

theorem init_storeInv : StoreInv uid [] Clients.init := by
  refine ⟨⟨none, rfl, Pairwise.nil, nofun, nofun, nofun, nofun⟩, ?_⟩
  exact ⟨fun c => ⟨nofun, fun h => absurd rfl h⟩, nofun, nofun, nofun, nodup_nil⟩

def clientsRel (uid : ℤ) : Clients → Event → Clients → Prop :=
  guardedRel (Clients.step uid) Clients.lockCoversCommit

theorem run_storeInv (h : Run (clientsRel uid) Clients.init tr s) : StoreInv uid tr s := by
  refine run_invariant (StoreInv uid) init_storeInv ?_ h
  rintro tr s e s' hi ⟨act, hlc, hstep⟩
  exact hi.step hlc hstep

theorem StoreInv.issued_inj (hi : StoreInv uid tr s) {c d : ℕ} (hc : (c, n) ∈ issued tr)
    (hd : (d, n) ∈ issued tr) : c = d := by
  obtain ⟨o, _, hord⟩ := hi.range
  have hnd : ((issued tr).map Prod.snd).Nodup := hord.sorted.imp fun h => Nat.ne_of_lt h
  exact congrArg Prod.fst (inj_on_of_nodup_map hnd hc hd rfl)

def tokens (tr : List Event) : List Token :=
  (acquired tr).filterMap fun p => p.2.toOption

theorem mem_acquired_of_toOption {p : ℕ × Except DueErr Token} {t : Token}
    (hp : p ∈ acquired tr) (ht : p.2.toOption = some t) : (p.1, .ok t) ∈ acquired tr := by
  rcases p with ⟨c, err | t'⟩
  · cases ht
  cases ht
  exact hp

theorem StoreInv.tokens_nodup (hi : StoreInv uid tr s) : (tokens tr).Nodup := by
  have honce : (acquired tr).Pairwise fun p q => p.1 ≠ q.1 := pairwise_map.mp hi.calls.once
  apply pairwise_filterMap.mpr
  apply honce.imp_of_mem
  intro p q hp hq hne t ht t' ht' htt
  subst htt
  have hpt := (hi.calls.tokens _ _ (mem_acquired_of_toOption hp ht)).2
  have hqt := (hi.calls.tokens _ _ (mem_acquired_of_toOption hq ht')).2
  exact hne (hi.issued_inj hpt hqt)

theorem acquireScript_ok (o : Option Range) (err : ScriptErr) :
    (acquireScript (encode o)).1 ≠ .error err := by
  rcases full_or_capacity o with h | ⟨r, rfl, h⟩
  · rw [acquireScript_full h]
    nofun
  rw [acquireScript_next r h]
  nofun

end Calls

/-- Two clients find no hash; the first initialises it, the hash is lost, the second goes on
with its old floor, and the first releases its token. -/
def hashLoss : Option (List Event × Clients) :=
  exec (Clients.step 7) Clients.lockCoversCommit Clients.init
    [.acquire 0 true none, .acquire 1 true none, .acquireScript 0 .ok, .acquireScript 1 .ok,
      .lock 0, .reserve 0 1 1024, .use 0 true .ok, .finish 0 none none, .lose,
      .lock 1, .reserve 1 1025 2048, .use 1 true .ok, .finish 1 none none,
      .release none ⟨7, 1⟩ .ok, .current none]

theorem hashLoss_isSome : hashLoss.isSome = true := rfl

/-- Client 0 commits its range before it asks for the lock. Client 1 commits the next range
and initialises the hash with it; after the hash is lost, the range of client 0 comes last. -/
def commitBeforeLock : Option (List Event × Clients) :=
  exec (Clients.step 7) (fun _ _ => true) Clients.init
    [.acquire 0 true none, .acquire 1 true none, .acquireScript 0 .ok, .acquireScript 1 .ok,
      .reserve 0 1 1024, .lock 1, .reserve 1 1025 2048, .use 1 true .ok, .finish 1 none none,
      .lose, .lock 0, .use 0 true .ok, .finish 0 none none]

end DueServer.Redis
