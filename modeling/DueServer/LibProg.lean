import DueServer.LibTransition

/-! Programs as trees of questions to their environment, with rules of pre- and postconditions, and
pools of such programs that share a state: at every step one program has its next question
answered. -/
namespace DueServer.Lib

open List

inductive Prog (Q : Type) (A : Q → Type) (ρ : Type) where
  | ret (r : ρ)
  | ask (q : Q) (k : A q → Prog Q A ρ)

structure Contract (Q : Type) (A : Q → Type) (τ : Type) where
  may : τ → Q → Prop
  ans : τ → (q : Q) → A q → Prop
  note : τ → (q : Q) → A q → τ

variable {Q : Type} {A : Q → Type} {ρ ρ' σ τ χ : Type}

namespace Prog

def bind : Prog Q A ρ → (ρ → Prog Q A ρ') → Prog Q A ρ'
  | .ret r, f => f r
  | .ask q k, f => .ask q fun a => (k a).bind f

/-- Within the contract the program only asks what it may, and `post` holds when it returns. -/
def Ends (c : Contract Q A τ) (post : τ → ρ → Prop) : Prog Q A ρ → τ → Prop
  | .ret r, t => post t r
  | .ask q k, t => c.may t q ∧ ∀ a, c.ans t q a → (k a).Ends c post (c.note t q a)

def run (serve : σ → (q : Q) → A q × σ) : Prog Q A ρ → σ → ρ × σ
  | .ret r, s => (r, s)
  | .ask q k, s => (k (serve s q).1).run serve (serve s q).2

variable {c : Contract Q A τ} {p : Prog Q A ρ} {t : τ} {s : σ}

theorem ends_bind {post : τ → ρ' → Prop} (f : ρ → Prog Q A ρ') (p : Prog Q A ρ) : ∀ t,
    (p.bind f).Ends c post t ↔ p.Ends c (fun t r => (f r).Ends c post t) t := by
  induction p with
  | ret r => exact fun t => Iff.rfl
  | ask q k ih => exact fun t => and_congr_right fun _ => forall₂_congr fun a _ => ih a _

theorem bind_assoc {ρ'' : Type} (f : ρ → Prog Q A ρ') (g : ρ' → Prog Q A ρ'') (p : Prog Q A ρ) :
    (p.bind f).bind g = p.bind fun r => (f r).bind g := by
  induction p with
  | ret r => rfl
  | ask q k ih => exact congrArg (Prog.ask q) (funext ih)

variable {post post' : τ → ρ → Prop}

theorem Ends.mono (h : ∀ t r, post t r → post' t r) :
    ∀ {p : Prog Q A ρ} {t : τ}, p.Ends c post t → p.Ends c post' t := by
  intro p
  induction p with
  | ret r => exact fun hp => h _ r hp
  | ask q k ih => exact fun hp => ⟨hp.1, fun a ha => ih a (hp.2 a ha)⟩

theorem Ends.and {may may' : τ → Q → Prop} {ans ans' : τ → (q : Q) → A q → Prop}
    {note : τ → (q : Q) → A q → τ} : ∀ {p : Prog Q A ρ} {t : τ},
    p.Ends ⟨may, ans, note⟩ post t → p.Ends ⟨may', ans', note⟩ post' t →
      p.Ends ⟨fun t q => may t q ∧ may' t q, fun t q a => ans t q a ∧ ans' t q a, note⟩
        (fun t r => post t r ∧ post' t r) t := by
  intro p
  induction p with
  | ret r => exact fun h h' => ⟨h, h'⟩
  | ask q k ih =>
    intro t h h'
    exact ⟨⟨h.1, h'.1⟩, fun a ha => ih a (h.2 a ha.1) (h'.2 a ha.2)⟩

theorem Ends.weaken (h : p.Ends c post t) (c' : Contract Q A τ)
    (hmay : ∀ t q, c.may t q → c'.may t q)
    (hans : ∀ t q a, c.may t q → c'.ans t q a → c.ans t q a) (hnote : c'.note = c.note) :
    p.Ends c' post t := by
  induction p generalizing t with
  | ret r => exact h
  | ask q k ih =>
    refine ⟨hmay t q h.1, fun a ha => ?_⟩
    rw [hnote]
    exact ih a (h.2 a (hans t q a h.1 ha))

theorem Ends.invariant (J : τ → Prop)
    (hJ : ∀ t q a, c.may t q → J t → J (c.note t q a)) (h : p.Ends c post t) (ht : J t) :
    p.Ends c (fun t r => J t ∧ post t r) t := by
  induction p generalizing t with
  | ret r => exact ⟨ht, h⟩
  | ask q k ih => exact ⟨h.1, fun a ha => ih a (h.2 a ha) (hJ t q a h.1 ht)⟩

theorem run_bind (serve : σ → (q : Q) → A q × σ) (f : ρ → Prog Q A ρ') (p : Prog Q A ρ) : ∀ s,
    (p.bind f).run serve s = (f (p.run serve s).1).run serve (p.run serve s).2 := by
  induction p with
  | ret r => exact fun s => rfl
  | ask q k ih => exact fun s => ih _ _

theorem run_keeps {serve : σ → (q : Q) → A q × σ} (I : σ → Prop)
    (hser : ∀ s q, I s → I (serve s q).2) (p : Prog Q A ρ) : ∀ s, I s → I (p.run serve s).2 := by
  induction p with
  | ret r => exact fun s h => h
  | ask q k ih => exact fun s h => ih _ _ (hser s q h)

theorem ends_run (oracle : τ → (q : Q) → A q) (note : τ → (q : Q) → A q → τ) (p : Prog Q A ρ) :
    ∀ t, p.Ends ⟨fun _ _ => True, fun t q a => a = oracle t q, note⟩
      (fun t' r => (r, t') = p.run (fun t q => (oracle t q, note t q (oracle t q))) t) t := by
  induction p with
  | ret r => exact fun t => rfl
  | ask q k ih =>
    intro t
    refine ⟨trivial, ?_⟩
    rintro a rfl
    exact ih _ _

theorem Ends.run (serve : σ → (q : Q) → A q × σ) (acc : σ → τ) (I : σ → Prop)
    (hser : ∀ s q, I s → c.may (acc s) q → c.ans (acc s) q (serve s q).1 ∧
      acc (serve s q).2 = c.note (acc s) q (serve s q).1 ∧ I (serve s q).2) :
    ∀ {p : Prog Q A ρ} {s : σ}, I s → p.Ends c post (acc s) →
      post (acc (p.run serve s).2) (p.run serve s).1 ∧ I (p.run serve s).2 := by
  intro p
  induction p with
  | ret r => exact fun hI hp => ⟨hp, hI⟩
  | ask q k ih =>
    intro s hI hp
    obtain ⟨hans, hnote, hI'⟩ := hser s q hI hp.1
    have hk := hp.2 _ hans
    rw [← hnote] at hk
    exact ih _ hI' hk

end Prog

structure Pool (Q : Type) (A : Q → Type) (ρ σ : Type) where
  threads : List (Prog Q A ρ)
  shared : σ

namespace Pool

variable (serve : ℕ → χ → σ → (q : Q) → A q × σ)

def next (p : Pool Q A ρ σ) (i : ℕ) (c : χ) : Option (Pool Q A ρ σ) :=
  match p.threads[i]? with
  | some (.ask q k) =>
    some ⟨p.threads.set i (k (serve i c p.shared q).1), (serve i c p.shared q).2⟩
  | _ => none

def step (p : Pool Q A ρ σ) (act : ℕ × χ) : Option (Pool Q A ρ σ × (ℕ × χ)) :=
  (p.next serve act.1 act.2).map fun p' => (p', act)

def rel : Pool Q A ρ σ → ℕ × χ → Pool Q A ρ σ → Prop :=
  guardedRel (step serve) fun _ _ => true

def Done (p : Pool Q A ρ σ) : Prop := ∀ t ∈ p.threads, ∃ r, t = .ret r

instance (t : Prog Q A ρ) : Decidable (∃ r, t = .ret r) :=
  match t with
  | .ret r => isTrue ⟨r, rfl⟩
  | .ask .. => isFalse fun h => by cases h.choose_spec

instance (p : Pool Q A ρ σ) : Decidable p.Done := decidableBAll _ _

variable {serve} {p p' : Pool Q A ρ σ} {i : ℕ} {e : ℕ × χ} {tr : List (ℕ × χ)}

theorem rel_cases (h : rel serve p e p') : ∃ q k, p.threads[e.1]? = some (.ask q k) ∧
    p' = ⟨p.threads.set e.1 (k (serve e.1 e.2 p.shared q).1), (serve e.1 e.2 p.shared q).2⟩ := by
  obtain ⟨act, -, hstep⟩ := h
  obtain ⟨u, hu, heq⟩ := Option.map_eq_some_iff.mp hstep
  cases heq
  unfold next at hu
  split at hu
  · rename_i q k hq
    cases hu
    exact ⟨q, k, hq, rfl⟩
  · cases hu

variable (serve) in
theorem rel_of_ask {q : Q} {k : A q → Prog Q A ρ} (h : p.threads[i]? = some (.ask q k)) (c : χ) :
    rel serve p (i, c)
      ⟨p.threads.set i (k (serve i c p.shared q).1), (serve i c p.shared q).2⟩ := by
  refine ⟨(i, c), rfl, ?_⟩
  simp [step, next, h]

theorem run_length (h : Run (rel serve) p tr p') : p'.threads.length = p.threads.length := by
  refine run_invariant (fun _ u => u.threads.length = p.threads.length) rfl ?_ h
  intro tr u e u' hu hrel
  obtain ⟨q, k, -, rfl⟩ := rel_cases hrel
  exact (length_set).trans hu

/-- If every answer keeps the contract of the thread that asked and touches the account of no other
thread, every thread ends within its contract. -/
theorem run_ends (c : ℕ → Contract Q A τ) (post : ℕ → τ → ρ → Prop) (acc : ℕ → σ → τ) (I : σ → Prop)
    (hser : ∀ i x s q, i < p.threads.length → I s → (c i).may (acc i s) q →
      (c i).ans (acc i s) q (serve i x s q).1 ∧
      acc i (serve i x s q).2 = (c i).note (acc i s) q (serve i x s q).1 ∧
      (∀ j, j ≠ i → acc j (serve i x s q).2 = acc j s) ∧ I (serve i x s q).2)
    (hI : I p.shared)
    (hends : ∀ (i : ℕ) (t : Prog Q A ρ), p.threads[i]? = some t →
      t.Ends (c i) (post i) (acc i p.shared))
    (hrun : Run (rel serve) p tr p') :
    I p'.shared ∧
      ∀ (i : ℕ) (t : Prog Q A ρ), p'.threads[i]? = some t →
        t.Ends (c i) (post i) (acc i p'.shared) := by
  have hinv : p'.threads.length = p.threads.length ∧ I p'.shared ∧
      ∀ (i : ℕ) (t : Prog Q A ρ), p'.threads[i]? = some t →
        t.Ends (c i) (post i) (acc i p'.shared) := by
    refine run_invariant (fun _ u => u.threads.length = p.threads.length ∧ I u.shared ∧
      ∀ (i : ℕ) (t : Prog Q A ρ), u.threads[i]? = some t → t.Ends (c i) (post i) (acc i u.shared))
        ⟨rfl, hI, hends⟩ ?_
      hrun
    rintro tr u ⟨i, x⟩ u' ⟨hlen, hu, hall⟩ hrel
    obtain ⟨q, k, hq, rfl⟩ := rel_cases hrel
    have hlt : i < u.threads.length := (List.getElem?_eq_some_iff.mp hq).1
    obtain ⟨hmay, hk⟩ := hall i _ hq
    obtain ⟨hans, hnote, hoths, hI'⟩ := hser i x u.shared q (hlen ▸ hlt) hu hmay
    refine ⟨(length_set).trans hlen, hI', ?_⟩
    intro j t ht
    by_cases hj : j = i
    · subst hj
      rw [getElem?_set_self hlt] at ht
      cases ht
      rw [hnote]
      exact hk _ hans
    · rw [getElem?_set_ne (Ne.symm hj)] at ht
      rw [hoths j hj]
      exact hall j t ht
  exact hinv.2

/-- A pool goes through the runs of another one with the same threads, if its answers are the same
as long as `R` relates what the threads share. -/
theorem run_simulates {σ' χ' : Type} (serve' : ℕ → χ' → σ' → (q : Q) → A q × σ') (f : χ → χ')
    (R : σ → σ' → Prop)
    (hser : ∀ i x s s' q, i < p.threads.length → R s s' →
      (serve' i (f x) s' q).1 = (serve i x s q).1 ∧ R (serve i x s q).2 (serve' i (f x) s' q).2)
    {s : σ'} (h0 : R p.shared s) (hrun : Run (rel serve) p tr p') :
    ∃ tr' s', Run (rel serve') ⟨p.threads, s⟩ tr' ⟨p'.threads, s'⟩ ∧ R p'.shared s' := by
  have hsim : p'.threads.length = p.threads.length ∧
      ∃ tr' s', Run (rel serve') ⟨p.threads, s⟩ tr' ⟨p'.threads, s'⟩ ∧ R p'.shared s' := by
    refine run_invariant (fun _ u => u.threads.length = p.threads.length ∧
      ∃ tr' s', Run (rel serve') ⟨p.threads, s⟩ tr' ⟨u.threads, s'⟩ ∧ R u.shared s')
      ⟨rfl, [], s, Run.nil, h0⟩ ?_ hrun
    rintro tr u ⟨i, x⟩ u' ⟨hlen, tr', s', hrun', hR⟩ hrel
    obtain ⟨q, k, hq, rfl⟩ := rel_cases hrel
    have hlt : i < p.threads.length := hlen ▸ (List.getElem?_eq_some_iff.mp hq).1
    obtain ⟨hans, hR'⟩ := hser i x u.shared s' q hlt hR
    have hnext := Run.snoc hrun' (rel_of_ask serve' (p := ⟨u.threads, s'⟩) hq (f x))
    rw [hans] at hnext
    exact ⟨length_set.trans hlen, _, _, hnext, hR'⟩
  exact hsim.2

theorem run_returned (acc : ℕ → σ → τ) {r : ρ}
    (hser : ∀ i x s q, ∀ j, j ≠ i → acc j (serve i x s q).2 = acc j s)
    (hi : p.threads[i]? = some (.ret r)) (hrun : Run (rel serve) p tr p') :
    p'.threads[i]? = some (.ret r) ∧ acc i p'.shared = acc i p.shared := by
  refine run_invariant (fun _ u => u.threads[i]? = some (.ret r) ∧ acc i u.shared = acc i p.shared)
    ⟨hi, rfl⟩ ?_ hrun
  rintro tr u ⟨j, x⟩ u' ⟨hu, hacc⟩ hrel
  obtain ⟨q, k, hq, rfl⟩ := rel_cases hrel
  have hne : i ≠ j := by
    rintro rfl
    rw [hu] at hq
    cases hq
  exact ⟨(getElem?_set_ne hne.symm).trans hu, (hser j x _ q i hne).trans hacc⟩

variable (serve) in
theorem exists_run_choice (c : Q → χ) (t : Prog Q A ρ) : ∀ {p : Pool Q A ρ σ},
    p.threads[i]? = some t → ∃ tr, Run (rel serve) p tr
      ⟨p.threads.set i (.ret (t.run (fun s q => serve i (c q) s q) p.shared).1),
        (t.run (fun s q => serve i (c q) s q) p.shared).2⟩ := by
  induction t with
  | ret r =>
    intro p hi
    refine ⟨[], ?_⟩
    obtain ⟨hlt, hget⟩ := List.getElem?_eq_some_iff.mp hi
    have hsame : p.threads.set i (.ret r) = p.threads := by
      rw [← hget]
      exact set_getElem_self hlt
    show Run (rel serve) p [] ⟨p.threads.set i (.ret r), p.shared⟩
    rw [hsame]
    exact Run.nil
  | ask q k ih =>
    intro p hi
    have hlt : i < p.threads.length := (List.getElem?_eq_some_iff.mp hi).1
    have hone := Run.snoc Run.nil (rel_of_ask serve hi (c q))
    obtain ⟨tr, hrest⟩ := ih (serve i (c q) p.shared q).1
      (p := ⟨p.threads.set i (k (serve i (c q) p.shared q).1), (serve i (c q) p.shared q).2⟩)
      (getElem?_set_self hlt)
    rw [set_set] at hrest
    exact ⟨_, run_append hone hrest⟩

variable (serve) in
theorem exists_run_thread (c : χ) (t : Prog Q A ρ) {p : Pool Q A ρ σ}
    (h : p.threads[i]? = some t) : ∃ tr, Run (rel serve) p tr
      ⟨p.threads.set i (.ret (t.run (serve i c) p.shared).1), (t.run (serve i c) p.shared).2⟩ :=
  exists_run_choice serve (fun _ => c) t h

variable (serve) in
theorem exists_run_done (c : χ) (p : Pool Q A ρ σ) :
    ∃ tr p', Run (rel serve) p tr p' ∧ p'.Done := by
  have hpre : ∀ n ≤ p.threads.length, ∃ tr p', Run (rel serve) p tr p' ∧
      ∀ i < n, ∃ r, p'.threads[i]? = some (.ret r) := by
    intro n
    induction n with
    | zero => exact fun _ => ⟨[], p, Run.nil, fun i hi => absurd hi (Nat.not_lt_zero i)⟩
    | succ n ih =>
      intro hn
      obtain ⟨tr, u, hrun, hret⟩ := ih (Nat.le_of_succ_le hn)
      have hlt : n < u.threads.length := (run_length hrun).symm ▸ hn
      obtain ⟨tr', hrun'⟩ :=
        exists_run_thread serve c _ (getElem?_eq_getElem hlt)
      refine ⟨_, _, run_append hrun hrun', ?_⟩
      intro i hi
      rcases Nat.lt_succ_iff_lt_or_eq.mp hi with hlt' | rfl
      · obtain ⟨r, hr⟩ := hret i hlt'
        exact ⟨r, (getElem?_set_ne (Nat.ne_of_gt hlt')).trans hr⟩
      · exact ⟨_, getElem?_set_self hlt⟩
  obtain ⟨tr, u, hrun, hret⟩ := hpre _ (Nat.le_refl _)
  refine ⟨tr, u, hrun, ?_⟩
  intro t ht
  obtain ⟨i, hi⟩ := mem_iff_getElem?.mp ht
  have hlt : i < p.threads.length := run_length hrun ▸ (List.getElem?_eq_some_iff.mp hi).1
  obtain ⟨r, hr⟩ := hret i hlt
  rw [hi] at hr
  exact ⟨r, Option.some.inj hr⟩

end Pool

end DueServer.Lib
