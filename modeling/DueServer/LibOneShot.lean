import Mathlib.Data.List.Basic

/-! One-shot channels. A cell is decided once: by a value that wins it, by a failure, or by its
consumer, who abandons it. The winning value is sent to the channel of the cell, a failure closes
the channel. Every value ends with the consumer of its cell or is dropped. -/
namespace DueServer.Lib.OneShot

open Function (update update_self update_of_ne)
open List

theorem rel_update {α X Y : Type*} [DecidableEq α] {f : α → X} {g : α → Y} (R : X → Y → Prop)
    (h : ∀ i, R (f i) (g i)) {i : α} {x : X} {y : Y} (hxy : R x y) (j : α) :
    R (update f i x j) (update g i y j) := by
  by_cases hj : j = i
  · subst hj
    rwa [update_self, update_self]
  rw [update_of_ne hj, update_of_ne hj]
  exact h j

/-- Two families that point at each other, of which one entry each is changed. -/
theorem links_update {α γ X Y : Type*} [DecidableEq α] [DecidableEq γ] {f : α → X} {g : γ → Y}
    (P : X → γ → Prop) (Q : Y → α → Prop) (h : ∀ i j, P (f i) j ↔ Q (g j) i) {i : α} {j : γ} {x : X}
    {y : Y} (hxy : P x j ↔ Q y i) (hx : ∀ j', j' ≠ j → (P x j' ↔ Q (g j') i))
    (hy : ∀ i', i' ≠ i → (P (f i') j ↔ Q y i')) (i' : α) (j' : γ) :
    P (update f i x i') j' ↔ Q (update g j y j') i' := by
  by_cases hi : i' = i
  · subst hi
    rw [update_self]
    by_cases hj : j' = j
    · subst hj
      rwa [update_self]
    rw [update_of_ne hj]
    exact hx j' hj
  · rw [update_of_ne hi]
    by_cases hj : j' = j
    · subst hj
      rw [update_self]
      exact hy i' hi
    rw [update_of_ne hj]
    exact h i' j'

/-- A cell for values `β` whose channel may be closed by one of `τ`. A failed cell says whether its
consumer is still there. -/
inductive Cell (β τ : Type) where
  | fresh
  | undecided
  | abandoned
  | failing (t : τ) (live : Bool)
  | closed (live : Bool)
  /-- the value has won and is about to be sent -/
  | sending (b : β)
  | full (b : β)
  /-- taken out of the channel to be dropped -/
  | taken (b : β)
  | spent (b : β)
deriving DecidableEq

inductive Op (β : Type) where
  | send (b : β)
  | close
deriving DecidableEq

inductive Place (ι : Type) where
  | absent
  | held
  | bound (c : ι)
  | dropped
deriving DecidableEq

inductive Outcome (ι β : Type) where
  | dropped (b : β)
  | returned (c : ι) (b : β)
deriving DecidableEq

namespace Cell

variable {β τ : Type}

def value : Cell β τ → Option β
  | .sending b | .full b | .taken b | .spent b => some b
  | _ => none

def slot : Cell β τ → Option β
  | .full b => some b
  | _ => none

def ops : Cell β τ → List (Op β)
  | .full b | .taken b | .spent b => [.send b]
  | .closed _ => [.close]
  | _ => []

def closer : Cell β τ → Option τ
  | .failing t _ => some t
  | _ => none

def isSpent : Cell β τ → Bool
  | .spent _ => true
  | _ => false

theorem length_ops_le (x : Cell β τ) : x.ops.length ≤ 1 := by
  cases x <;> simp [ops]

inductive Moves : Cell β τ → Cell β τ → Prop where
  | start : Moves .fresh .undecided
  | refuse : Moves .fresh .abandoned
  | abandon : Moves .undecided .abandoned
  | fail (t : τ) : Moves .undecided (.failing t true)
  | close (t : τ) (live : Bool) : Moves (.failing t live) (.closed live)
  | leaveFailing (t : τ) (live : Bool) : Moves (.failing t live) (.failing t false)
  | leaveClosed (live : Bool) : Moves (.closed live) (.closed false)
  | send (b : β) : Moves (.sending b) (.full b)
  | take (b : β) : Moves (.full b) (.taken b)

variable {x y : Cell β τ}

theorem Moves.value_eq (h : Moves x y) : y.value = x.value := by
  cases h <;> rfl

theorem Moves.isSpent_eq (h : Moves x y) : y.isSpent = x.isSpent := by
  cases h <;> rfl

theorem Moves.ne_spent (h : Moves x y) (b : β) : x ≠ .spent b := by
  cases h <;> exact nofun

end Cell

def Outcome.value {ι β : Type} : Outcome ι β → β
  | .dropped b => b
  | .returned _ b => b

structure Cells (ι β τ : Type) where
  cell : ι → Cell β τ
  place : β → Place ι
  outcomes : List (Outcome ι β)

variable {ι β τ : Type} [DecidableEq β]

inductive Step [DecidableEq ι] (s : Cells ι β τ) : Cells ι β τ → Prop where
  | stay : Step s s
  | move (c : ι) (y : Cell β τ) (h : (s.cell c).Moves y) :
      Step s { s with cell := update s.cell c y }
  | arrive (b : β) (h : s.place b = .absent) :
      Step s { s with place := update s.place b .held }
  | discard (b : β) (h : s.place b = .held) :
      Step s { s with
        place := update s.place b .dropped
        outcomes := s.outcomes ++ [.dropped b] }
  | win (b : β) (c : ι) (h : s.place b = .held) (hc : s.cell c = .undecided) :
      Step s { s with
        cell := update s.cell c (.sending b)
        place := update s.place b (.bound c) }
  | settle (c : ι) (b : β) (o : Outcome ι β)
      (h : s.cell c = .full b ∧ o = .returned c b ∨ s.cell c = .taken b ∧ o = .dropped b) :
      Step s { s with
        cell := update s.cell c (.spent b)
        outcomes := s.outcomes ++ [o] }

namespace Cells

def init : Cells ι β τ := ⟨fun _ => .fresh, fun _ => .absent, []⟩

def settled (s : Cells ι β τ) (b : β) : ℕ := (s.outcomes.map Outcome.value).count b

def due (s : Cells ι β τ) : Place ι → ℕ
  | .absent | .held => 0
  | .bound c => if (s.cell c).isSpent then 1 else 0
  | .dropped => 1

structure Inv (s : Cells ι β τ) : Prop where
  bound (b : β) (c : ι) : s.place b = .bound c ↔ (s.cell c).value = some b
  settled (b : β) : s.settled b = s.due (s.place b)
  returned (c : ι) (b : β) : .returned c b ∈ s.outcomes → s.cell c = .spent b

theorem inv_init : (init : Cells ι β τ).Inv where
  bound _ _ := iff_of_false nofun nofun
  settled _ := rfl
  returned _ _ h := absurd h not_mem_nil

section Steps

variable {s s' : Cells ι β τ} {b b' : β} {c : ι}

theorem settled_append (o : Outcome ι β) (outcomes : List (Outcome ι β))
    (cell : ι → Cell β τ) (place : β → Place ι) :
    (Cells.mk cell place (outcomes ++ [o])).settled b =
      (Cells.mk cell place outcomes).settled b + if o.value = b then 1 else 0 := by
  simp [Cells.settled, count_singleton]

theorem inv_place {p : Place ι} (hi : s.Inv) (hold : ∀ c, s.place b ≠ .bound c)
    (hp : ∀ c, p ≠ .bound c) (outcomes : List (Outcome ι β))
    (hsett : ∀ b', (Cells.mk s.cell s.place outcomes).settled b' =
      s.due (update s.place b p b'))
    (hret : ∀ c b', .returned c b' ∈ outcomes → .returned c b' ∈ s.outcomes) :
    (⟨s.cell, update s.place b p, outcomes⟩ : Cells ι β τ).Inv := by
  refine ⟨fun b' c => ?_, hsett, fun c b' h => hi.returned c b' (hret c b' h)⟩
  rw [← hi.bound b' c]
  show update s.place b p b' = _ ↔ _
  by_cases hb : b' = b
  · subst hb
    rw [update_self]
    exact iff_of_false (hp c) (hold c)
  · rw [update_of_ne hb]

theorem inv_arrive (hi : s.Inv) (h : s.place b = .absent) :
    ({ s with place := update s.place b .held } : Cells ι β τ).Inv := by
  refine inv_place (p := .held) hi (fun c hc => ?_) (fun _ => nofun) s.outcomes (fun b' => ?_)
    fun _ _ h => h
  · rw [h] at hc
    cases hc
  · refine (hi.settled b').trans ?_
    by_cases hb : b' = b
    · subst hb
      rw [update_self, h]
      rfl
    · rw [update_of_ne hb]

theorem inv_discard (hi : s.Inv) (h : s.place b = .held) :
    (⟨s.cell, update s.place b .dropped, s.outcomes ++ [.dropped b]⟩ : Cells ι β τ).Inv := by
  refine inv_place (p := .dropped) hi (fun c hc => ?_) (fun _ => nofun) _ (fun b' => ?_)
    fun c b' hmem => ?_
  · rw [h] at hc
    cases hc
  · have hold : (Cells.mk s.cell s.place s.outcomes).settled b' = s.due (s.place b') :=
      hi.settled b'
    rw [settled_append, hold]
    by_cases hb : b' = b
    · subst hb
      rw [update_self, h]
      exact congrArg _ (if_pos rfl)
    rw [update_of_ne hb]
    exact congrArg _ (if_neg fun heq => hb heq.symm)
  · rcases mem_append.mp hmem with hmem | hmem
    · exact hmem
    · cases mem_singleton.mp hmem

variable [DecidableEq ι]

theorem inv_move {y : Cell β τ} (hi : s.Inv) (h : (s.cell c).Moves y) :
    ({ s with cell := update s.cell c y } : Cells ι β τ).Inv := by
  have hval (c' : ι) : (update s.cell c y c').value = (s.cell c').value := by
    by_cases hc : c' = c
    · subst hc
      rw [update_self, h.value_eq]
    · rw [update_of_ne hc]
  have hspe (c' : ι) : (update s.cell c y c').isSpent = (s.cell c').isSpent := by
    by_cases hc : c' = c
    · subst hc
      rw [update_self, h.isSpent_eq]
    · rw [update_of_ne hc]
  refine ⟨fun b c' => (hi.bound b c').trans (by rw [hval]), fun b => ?_, fun c' b hmem => ?_⟩
  · refine (hi.settled b).trans ?_
    cases s.place b with
    | bound c' => simp only [due, hspe]
    | _ => rfl
  · have hold := hi.returned c' b hmem
    have hc : c' ≠ c := by
      rintro rfl
      exact h.ne_spent b hold
    exact (update_of_ne hc ..).trans hold

theorem inv_win (hi : s.Inv) (h : s.place b = .held) (hc : s.cell c = .undecided) : ({ s with
      cell := update s.cell c (.sending b)
      place := update s.place b (.bound c) } : Cells ι β τ).Inv := by
  -- before, the value was bound to no cell and the cell bound no value
  have hfree (c' : ι) : (s.cell c').value ≠ some b := by
    rw [ne_eq, ← hi.bound b c', h]
    exact nofun
  have hnone (b' : β) : s.place b' ≠ .bound c := by
    rw [ne_eq, hi.bound b' c, hc]
    exact nofun
  refine ⟨fun b' c' => ?_, fun b' => ?_, fun c' b' hmem => ?_⟩
  · refine links_update (fun p c => p = Place.bound c) (fun x b => Cell.value x = some b)
      hi.bound (iff_of_true rfl rfl) (fun c' hc' => ?_) (fun b' hb => ?_) b' c'
    · exact iff_of_false (fun heq => hc' (Place.bound.inj heq).symm) (hfree c')
    · exact iff_of_false (hnone b') fun heq => hb (Option.some.inj heq).symm
  · refine (hi.settled b').trans ?_
    show s.due (s.place b') = due _ (update s.place b (.bound c) b')
    by_cases hb : b' = b
    · subst hb
      rw [h]
      simp [due, Cell.isSpent]
    rw [update_of_ne hb]
    cases hpl : s.place b' with
    | bound c' =>
      have hc' : c' ≠ c := by
        rintro rfl
        exact hnone b' hpl
      simp only [due, update_of_ne hc']
    | _ => rfl
  · have hold := hi.returned c' b' hmem
    have hc' : c' ≠ c := by
      rintro rfl
      rw [hc] at hold
      cases hold
    exact (update_of_ne hc' ..).trans hold

theorem inv_settle {o : Outcome ι β} (hi : s.Inv)
    (h : s.cell c = .full b ∧ o = .returned c b ∨ s.cell c = .taken b ∧ o = .dropped b) :
    ({ s with
      cell := update s.cell c (.spent b)
      outcomes := s.outcomes ++ [o] } : Cells ι β τ).Inv := by
  have hval : (s.cell c).value = some b := by
    rcases h with ⟨hc, -⟩ | ⟨hc, -⟩ <;> rw [hc] <;> rfl
  have hlive : (s.cell c).isSpent = false := by
    rcases h with ⟨hc, -⟩ | ⟨hc, -⟩ <;> rw [hc] <;> rfl
  have ho : o.value = b := by
    rcases h with ⟨-, rfl⟩ | ⟨-, rfl⟩ <;> rfl
  have hpl : s.place b = .bound c := (hi.bound b c).mpr hval
  refine ⟨fun b' c' => (hi.bound b' c').trans ?_, fun b' => ?_, fun c' b' hmem => ?_⟩
  · show _ ↔ (update s.cell c (.spent b) c').value = _
    by_cases hc' : c' = c
    · subst hc'
      rw [update_self, hval]
      rfl
    · rw [update_of_ne hc']
  · have hold : (Cells.mk (update s.cell c (.spent b)) s.place s.outcomes).settled b' =
      s.due (s.place b') := hi.settled b'
    rw [settled_append, hold, ho]
    by_cases hb : b = b'
    · subst hb
      rw [hpl]
      simp only [due, update_self, hlive]
      rfl
    rw [if_neg hb, Nat.add_zero]
    cases hpl' : s.place b' with
    | bound c' =>
      have hc' : c' ≠ c := by
        rintro rfl
        exact hb (Option.some.inj (hval.symm.trans ((hi.bound b' c').mp hpl')))
      simp only [due, update_of_ne hc']
    | _ => rfl
  · rcases mem_append.mp hmem with hmem | hmem
    · have hold := hi.returned c' b' hmem
      have hc' : c' ≠ c := by
        rintro rfl
        rw [hold] at hlive
        cases hlive
      exact (update_of_ne hc' ..).trans hold
    · rcases h with ⟨-, rfl⟩ | ⟨-, rfl⟩
      · cases mem_singleton.mp hmem
        exact update_self ..
      · cases mem_singleton.mp hmem

theorem inv_step (hi : s.Inv) (h : Step s s') : s'.Inv := by
  cases h with
  | stay => exact hi
  | move c y h => exact inv_move hi h
  | arrive b h => exact inv_arrive hi h
  | discard b h => exact inv_discard hi h
  | win b c h hc => exact inv_win hi h hc
  | settle c b o h => exact inv_settle hi h

end Steps

section Consequences

variable {s : Cells ι β τ} (hi : s.Inv) {b : β} {c : ι}

include hi

theorem settled_le_one (b : β) : s.settled b ≤ 1 := by
  rw [hi.settled]
  cases s.place b with
  | bound c =>
    simp only [due]
    split <;> decide
  | _ => simp [due]

theorem unsettled_cases (hpl : s.place b ≠ .absent) (h : s.settled b = 0) :
    s.place b = .held ∨ ∃ c, s.cell c = .sending b ∨ s.cell c = .full b ∨ s.cell c = .taken b := by
  rw [hi.settled] at h
  cases hb : s.place b with
  | absent => exact absurd hb hpl
  | held => exact .inl rfl
  | dropped =>
    rw [hb] at h
    cases h
  | bound c =>
    have hval := (hi.bound b c).mp hb
    rw [hb] at h
    simp only [due] at h
    refine .inr ⟨c, ?_⟩
    cases hcell : s.cell c with
    | sending b' =>
      rw [hcell] at hval
      exact .inl (congrArg _ (Option.some.inj hval))
    | full b' =>
      rw [hcell] at hval
      exact .inr (.inl (congrArg _ (Option.some.inj hval)))
    | taken b' =>
      rw [hcell] at hval
      exact .inr (.inr (congrArg _ (Option.some.inj hval)))
    | spent b' =>
      rw [hcell] at h
      cases h
    | _ =>
      rw [hcell] at hval
      cases hval

end Consequences

end Cells

end DueServer.Lib.OneShot
