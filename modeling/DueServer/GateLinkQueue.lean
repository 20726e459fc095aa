import DueServer.GateLinkRules

/-! The message of a push while its requests are queued: the writer of a connection releases it once
it has written the request, maybe after the call has returned. What is queued when the writer ends
is never released. -/
namespace DueServer.Link

open Buffer GateLinker List Shared Fan Lib.Prog Lib

/-- A group with the number of its requests that are queued and of the releases that were made. A
client without a connection releases the message itself, as a writer that takes the request at
once. -/
structure Posted where
  fan : Fan
  queued : ℕ
  released : ℕ
deriving DecidableEq

namespace Posted

def note (s : Posted) (i : ℕ) : (q : Ask) → q.Answer → Posted
  | .consume, a =>
    { s with
      fan := { s.fan with accounts := (s.fan.note i .consume a).accounts }
      queued := s.queued + 1 }
  | q, a => { s with fan := s.fan.note i q a, released := s.released + q.releases }

/-- A writer takes a queued request, if there is one. -/
def take (s : Posted) : Posted :=
  if s.queued = 0 then s else ⟨s.fan.effect .consume, s.queued - 1, s.released + 1⟩

/-- After each answer the writers take as many requests as they like. -/
def serve (targets : ℕ → Target) (i : ℕ) (c : Bool × ℕ) (s : Posted) (q : Ask) :
    q.Answer × Posted :=
  (s.fan.answer (targets i) c.1 q, take^[c.2] (s.note i q (s.fan.answer (targets i) c.1 q)))

end Posted

abbrev PostPool := Pool Ask Ask.Answer (Option GateErr) Posted

def GatePool.posted (p : GatePool) : PostPool := ⟨p.threads, p.shared, 0, 0⟩

abbrev Posts (targets : ℕ → Target) (p : GatePool) (tr : List (ℕ × Bool × ℕ)) (p' : PostPool) :
    Prop :=
  Run (Pool.rel (Posted.serve targets)) p.posted tr p'

variable {bytes : List UInt8} {limit n i : ℕ} {targets : ℕ → Target} {p : GatePool}

section Simulation

/-- What the answers depend on, and the accounts. -/
structure Fan.Alike (s t : Fan) : Prop where
  groupErr : s.groupErr = t.groupErr
  err : s.err = t.err
  accounts : s.accounts = t.accounts

theorem Fan.Alike.answer {s t : Fan} (h : s.Alike t) (target : Target) (giveUp : Bool) (q : Ask) :
    s.answer target giveUp q = t.answer target giveUp q := by
  unfold Fan.answer
  rw [h.groupErr, h.err]

theorem Fan.Alike.account {s t : Fan} (h : s.Alike t) (i : ℕ) : s.account i = t.account i := by
  rw [Fan.account, h.accounts]
  rfl

theorem Posted.alike_note {s : Posted} {t : Fan} (h : s.fan.Alike t) (i : ℕ) (q : Ask)
    (a : q.Answer) : (s.note i q a).fan.Alike (t.note i q a) := by
  have hacc : (s.fan.note i q a).accounts = (t.note i q a).accounts := by
    show s.fan.accounts.set i ((s.fan.account i).note q a) = _
    rw [h.account, h.accounts]
    rfl
  obtain ⟨hgroup, herr, -⟩ := h
  cases q with
  | setErr err => exact ⟨hgroup, rfl, hacc⟩
  | leave err => exact ⟨congrArg (· <|> err) hgroup, herr, hacc⟩
  | _ => exact ⟨hgroup, herr, hacc⟩

theorem Posted.alike_take (s : Posted) (k : ℕ) : (take^[k] s).fan.Alike s.fan := by
  induction k with
  | zero => exact ⟨rfl, rfl, rfl⟩
  | succ k ih =>
    rw [Function.iterate_succ_apply', take]
    split
    · exact ih
    · exact ⟨ih.groupErr, ih.err, ih.accounts⟩

theorem Posted.accounts_serve (s : Posted) (targets : ℕ → Target) (i : ℕ) (c : Bool × ℕ) (q : Ask) :
    (serve targets i c s q).2.fan.accounts =
      (s.fan.note i q (serve targets i c s q).1).accounts :=
  (alike_take _ _).accounts.trans (alike_note ⟨rfl, rfl, rfl⟩ i q _).accounts

/-- The goroutines do not notice when the writers take their requests. -/
theorem Posts.runs {tr : List (ℕ × Bool × ℕ)} {p' : PostPool} (h : Posts targets p tr p') :
    ∃ tr' s, Runs targets p tr' ⟨p'.threads, s⟩ ∧ p'.shared.fan.Alike s := by
  refine Pool.run_simulates (Fan.serve targets) Prod.fst (fun s t => s.fan.Alike t)
    ?_ ⟨rfl, rfl, rfl⟩ h
  intro i c s t q _ halike
  have hans := halike.answer (targets i) c.1 q
  refine ⟨hans.symm, ?_⟩
  show (Posted.serve targets i c s q).2.fan.Alike (t.note i q (t.answer (targets i) c.1 q))
  rw [← hans]
  have htake := (s.note i q (s.fan.answer (targets i) c.1 q)).alike_take c.2
  have hnote := Posted.alike_note halike i q (s.fan.answer (targets i) c.1 q)
  exact ⟨htake.1.trans hnote.1, htake.2.trans hnote.2, htake.3.trans hnote.3⟩

/-- A run in which every request is taken at once. -/
theorem Runs.posts {tr : List (ℕ × Bool)} {p' : GatePool} (h : Runs targets p tr p')
    (hlen : p.shared.accounts.length = p.threads.length) (hzero : p.shared.releases = 0) :
    ∃ tr', Posts targets p tr' ⟨p'.threads, p'.shared, 0, p'.shared.releases⟩ := by
  have hsim := Pool.run_simulates (Posted.serve targets) (fun giveUp => (giveUp, 1))
    (fun s t => s.accounts.length = p.threads.length ∧ t = ⟨s, 0, s.releases⟩) (by
      rintro i giveUp s _ q hi ⟨hacc, rfl⟩
      refine ⟨rfl, length_note.trans hacc, ?_⟩
      have hrel := releases_note (q := q) (a := s.answer (targets i) giveUp q) (hacc.symm ▸ hi)
      show Posted.take (Posted.note ⟨s, 0, s.releases⟩ i q _) = ⟨s.note i q _, 0, _⟩
      rw [Fan.serve, hrel]
      cases q <;> rfl) (s := ⟨p.shared, 0, 0⟩) ⟨hlen, by rw [hzero]⟩ h
  obtain ⟨tr', s, hrun, -, rfl⟩ := hsim
  exact ⟨tr', hrun⟩

end Simulation

def within (limit : ℕ) : Contract Ask Ask.Answer Account where
  may t q := q.uses = true → t.releases < limit
  ans _ _ _ := True
  note := Account.note

theorem within_of_pushing {ρ : Type} {post : Account → ρ → Prop} {p : GateProg ρ} {t : Account}
    (h : p.Ends (pushing limit) post t) : p.Ends (within limit) post t := by
  refine h.weaken (within limit) ?_ (fun _ _ _ _ _ => trivial) rfl
  intro t q hmay
  exact hmay.2.2

theorem Fan.mem_account {s : Fan} (h : i < s.accounts.length) : s.account i ∈ s.accounts :=
  mem_of_getElem? (getElem?_account h)

namespace Posted

variable {s : Posted} {q : Ask} {a : q.Answer}

/-- As long as no goroutine exceeds its limit, the message goes back with the last release and every
request finds it whole, when it is made and when it is written. -/
structure Counts (bytes : List UInt8) (limit : ℕ) (s : Posted) : Prop where
  bound : ∀ t ∈ s.fan.accounts, t.releases ≤ limit
  total : s.released + s.queued = s.fan.releases
  holds : s.fan.message.Holds (s.fan.accounts.length * limit) s.released
  content : s.fan.message.bytes = bytes
  used : ∀ u ∈ s.fan.used, u = some bytes

/-- What is appended to `used` is the whole message, as long as a release is left. -/
theorem Counts.used_append (h : s.Counts bytes limit)
    (hlt : s.released < s.fan.accounts.length * limit) :
    ∀ u ∈ s.fan.used ++ [s.fan.message.carried], u = some bytes := by
  intro u hu
  rcases mem_append.mp hu with hold | hnew
  · exact h.used u hold
  · rw [mem_singleton.mp hnew, h.holds.carried hlt, h.content]

theorem Counts.take (h : s.Counts bytes limit) : s.take.Counts bytes limit := by
  unfold Posted.take
  split
  · exact h
  rename_i hqueued
  have htotal := h.total
  -- the goroutine that queued the request has counted its release
  have hle : s.fan.releases ≤ s.fan.accounts.length * limit := by
    have hsum := List.sum_le_card_nsmul (s.fan.accounts.map Account.releases) limit (by
      intro m hm
      obtain ⟨t, ht, rfl⟩ := mem_map.mp hm
      exact h.bound t ht)
    rwa [length_map] at hsum
  have hlt : s.released < s.fan.accounts.length * limit := by omega
  refine ⟨h.bound, ?_, h.holds.release hlt, (bytes_release _).trans h.content, h.used_append hlt⟩
  show s.released + 1 + (s.queued - 1) = s.fan.releases
  omega

theorem Counts.take_iterate (h : s.Counts bytes limit) (k : ℕ) :
    (Posted.take^[k] s).Counts bytes limit := by
  induction k with
  | zero => exact h
  | succ k ih =>
    rw [Function.iterate_succ_apply']
    exact ih.take

section

variable (h : s.Counts bytes limit) (hi : i < s.fan.accounts.length)
  (hmay : q.uses = true → (s.fan.account i).releases < limit)

include h hi hmay

theorem Counts.bound_note : ∀ t ∈ (s.fan.note i q a).accounts, t.releases ≤ limit := by
  intro t ht
  rcases mem_or_eq_of_mem_set ht with hold | rfl
  · exact h.bound t hold
  have hbnd := h.bound _ (mem_account hi)
  cases q with
  | consume | release => exact hmay rfl
  | _ => exact hbnd

theorem Counts.room (hu : q.uses = true) : s.released < s.fan.accounts.length * limit := by
  have htotal := h.total
  have hlt : s.fan.releases < s.fan.accounts.length * limit :=
    sum_map_lt h.bound ⟨s.fan.account i, mem_account hi, hmay hu⟩
  omega

theorem Counts.note : (s.note i q a).Counts bytes limit := by
  have hbnd := h.bound_note (a := a) hi hmay
  have hct := releases_note (a := a) hi
  have htotal := h.total
  have hroom := h.room hi hmay
  have hlen : (s.note i q a).fan.accounts.length = s.fan.accounts.length := by
    rw [(alike_note ⟨rfl, rfl, rfl⟩ i q a).accounts]
    exact length_note
  cases q with
  | mount =>
    refine ⟨hbnd, htotal.trans hct.symm, ?_, h.content, h.used_append (hroom rfl)⟩
    rw [hlen]
    exact h.holds
  | consume =>
    refine ⟨hbnd, (congrArg (· + 1) htotal).trans hct.symm, ?_, h.content, h.used⟩
    rw [hlen]
    exact h.holds
  | release =>
    refine ⟨hbnd, ?_, ?_, (bytes_release _).trans h.content, h.used⟩
    · show s.released + 1 + s.queued = (s.fan.note i .release a).releases
      rw [hct, ← htotal, Nat.add_right_comm]
      rfl
    · rw [hlen]
      exact h.holds.release (hroom rfl)
  | _ =>
    refine ⟨hbnd, htotal.trans hct.symm, ?_, h.content, h.used⟩
    rw [hlen]
    exact h.holds

end

end Posted

structure Ready (bytes : List UInt8) (limit n : ℕ) (p : GatePool) : Prop where
  threads : p.threads.length = n
  accounts : p.shared.accounts.length = n
  counts : p.posted.shared.Counts bytes limit
  fresh : ∀ i, p.shared.account i = {}
  ends : ∀ (i : ℕ) (t : GateProg (Option GateErr)), p.threads[i]? = some t →
    t.Ends (within limit) (fun t _ => 1 ≤ t.releases ∧ t.releases ≤ limit) {}

theorem Ready.run {p' : PostPool} {tr : List (ℕ × Bool × ℕ)} (h : Ready bytes limit n p)
    (hrun : Posts targets p tr p') :
    p'.shared.fan.accounts.length = n ∧ p'.shared.Counts bytes limit := by
  refine (Pool.run_ends (fun _ => within limit)
    (fun _ t _ => 1 ≤ t.releases ∧ t.releases ≤ limit) (fun i s => s.fan.account i)
    (fun s => s.fan.accounts.length = n ∧ s.Counts bytes limit) ?_ ⟨h.accounts, h.counts⟩ ?_
    hrun).1
  · rintro i c s q hi ⟨hlen, hcou⟩ hmay
    have hi' : i < s.fan.accounts.length := by
      rw [hlen, ← h.threads]
      exact hi
    have hacc := s.accounts_serve targets i c q
    have haccount (j : ℕ) : (Posted.serve targets i c s q).2.fan.account j =
        (s.fan.note i q (Posted.serve targets i c s q).1).account j := by
      rw [Fan.account, hacc]
      rfl
    refine ⟨trivial, (haccount i).trans (account_note_self hi'),
      fun j hj => (haccount j).trans (account_note_ne hj), ?_, ?_⟩
    · rw [hacc]
      exact length_note.trans hlen
    · exact (hcou.note hi' hmay).take_iterate c.2
  · intro i t ht
    show t.Ends _ _ (p.shared.account i)
    rw [h.fresh i]
    exact h.ends i t ht

theorem Ready.used {p' : GatePool} {tr : List (ℕ × Bool)} (h : Ready bytes limit n p)
    (hrun : Runs targets p tr p') : ∀ u ∈ p'.shared.used, u = some bytes := by
  obtain ⟨tr', hposts⟩ := hrun.posts (h.accounts.trans h.threads.symm) h.counts.total.symm
  exact (h.run hposts).2.used

variable {message : Shared}

theorem releases_start : (start message n).releases = 0 := by
  unfold releases start
  rw [map_replicate, sum_replicate]
  exact Nat.mul_zero n

theorem ready_start {threads : List (GateProg (Option GateErr))}
    (hlen : threads.length = n) (hbs : message.bytes = bytes)
    (hho : message.Holds (n * limit) 0)
    (hends : ∀ t ∈ threads,
      t.Ends (within limit) (fun t _ => 1 ≤ t.releases ∧ t.releases ≤ limit) {}) :
    Ready bytes limit n ⟨threads, start message n⟩ where
  threads := hlen
  accounts := length_replicate
  counts := by
    refine ⟨?_, releases_start.symm, ?_, hbs, fun u hu => absurd hu not_mem_nil⟩
    · intro t ht
      rw [eq_of_mem_replicate ht]
      exact Nat.zero_le _
    · show message.Holds ((replicate n ({} : Account)).length * limit) 0
      rw [length_replicate]
      exact hho
  fresh := fun _ => account_start
  ends := fun _ t ht => hends t (mem_of_getElem? ht)

end DueServer.Link
