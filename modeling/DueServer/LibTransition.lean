import Mathlib.Data.List.Basic

/-! Finite runs of a labelled transition system whose scheduler is restricted by a guard,
and the rule that carries an invariant along a run. Nothing here mentions a particular
system. -/
namespace DueServer.Lib

variable {σ ι α : Type*}

inductive Run (R : σ → ι → σ → Prop) (s₀ : σ) : List ι → σ → Prop where
  | nil : Run R s₀ [] s₀
  | snoc {tr : List ι} {s s' : σ} {e : ι} :
      Run R s₀ tr s → R s e s' → Run R s₀ (tr ++ [e]) s'

variable {R : σ → ι → σ → Prop} {s₀ s : σ} {tr : List ι} {step : σ → α → Option (σ × ι)}
  {G : σ → α → Bool} {acts : List α}

theorem run_invariant (I : List ι → σ → Prop) (h0 : I [] s₀)
    (hstep : ∀ tr s e s', I tr s → R s e s' → I (tr ++ [e]) s')
    (h : Run R s₀ tr s) : I tr s := by
  induction h with
  | nil => exact h0
  | snoc _ hs ih => exact hstep _ _ _ _ ih hs

/-- What every label of a run satisfies, given the labels before it. -/
theorem run_prefix {P : List ι → ι → Prop} (I : List ι → σ → Prop) (h0 : I [] s₀)
    (hstep : ∀ tr s e s', I tr s → R s e s' → I (tr ++ [e]) s' ∧ P tr e) (h : Run R s₀ tr s)
    {pre post : List ι} {e : ι} (htr : tr = pre ++ e :: post) : P pre e := by
  have hall : I tr s ∧ ∀ pre post e, tr = pre ++ e :: post → P pre e := by
    clear htr
    induction h with
    | nil => exact ⟨h0, fun pre post e h => by simp at h⟩
    | snoc _ hs ih =>
      obtain ⟨hinv, hlast⟩ := hstep _ _ _ _ ih.1 hs
      refine ⟨hinv, fun pre post e htr => ?_⟩
      -- the label is the new one, or it stands in the run before
      rcases List.eq_nil_or_concat post with rfl | ⟨post, last, rfl⟩
      · obtain ⟨rfl, heq⟩ := List.append_inj' htr rfl
        cases heq
        exact hlast
      rw [List.concat_eq_append, ← List.cons_append, ← List.append_assoc] at htr
      exact ih.2 pre post e (List.append_inj' htr rfl).1
  exact hall.2 pre post e htr

/-- The transition relation of a scheduler function: the scheduler makes a choice that the
guard `G` allows, and `e` is what can be observed of the step. -/
def guardedRel (step : σ → α → Option (σ × ι)) (G : σ → α → Bool) (s : σ) (e : ι) (s' : σ) : Prop :=
  ∃ act, G s act = true ∧ step s act = some (s', e)

/-- An invariant of the states, where a step shows the choice the scheduler has made. -/
theorem run_states {move : σ → α → Option σ} (I : σ → Prop) (h0 : I s₀)
    (hmove : ∀ s act s', I s → G s act = true → move s act = some s' → I s')
    (h : Run (guardedRel (fun s act => (move s act).map (·, act)) G) s₀ acts s) : I s := by
  refine run_invariant (fun _ s => I s) h0 ?_ h
  rintro _ s _ s' hs ⟨act, hG, hstep⟩
  obtain ⟨s₁, hs₁, heq⟩ := Option.map_eq_some_iff.mp hstep
  cases heq
  exact hmove s _ s' hs hG hs₁

/-- Execute a schedule; the result is the trace and the final state. It is `none` if some
choice is not possible or not allowed. -/
def exec (step : σ → α → Option (σ × ι)) (G : σ → α → Bool) (s : σ) : List α → Option (List ι × σ)
  | [] => some ([], s)
  | act :: acts =>
    if G s act then
      match step s act with
      | none => none
      | some (s', e) => (exec step G s' acts).map fun r => (e :: r.1, r.2)
    else none

def outputs (step : σ → α → ι × σ) : σ → List α → List ι
  | _, [] => []
  | s, a :: as => (step s a).1 :: outputs step (step s a).2 as

def after (step : σ → α → ι × σ) (s : σ) (as : List α) : σ := as.foldl (fun s a => (step s a).2) s

theorem outputs_append (step : σ → α → ι × σ) (as bs : List α) : ∀ s : σ,
    outputs step s (as ++ bs) = outputs step s as ++ outputs step (after step s as) bs := by
  induction as with
  | nil =>
    intro s
    rfl
  | cons a as ih =>
    intro s
    rw [List.cons_append, outputs, ih]
    rfl

theorem outputs_of_simulation {τ : Type*} {step : σ → α → ι × σ} {step' : τ → α → ι × τ}
    (R : σ → τ → Prop)
    (hstep : ∀ s t a, R s t → (step s a).1 = (step' t a).1 ∧ R (step s a).2 (step' t a).2)
    (as : List α) : ∀ {s : σ} {t : τ}, R s t →
      outputs step s as = outputs step' t as ∧ R (after step s as) (after step' t as) := by
  induction as with
  | nil =>
    intro s t h
    exact ⟨rfl, h⟩
  | cons a as ih =>
    intro s t h
    obtain ⟨hout, hnext⟩ := hstep s t a h
    obtain ⟨houts, haft⟩ := ih hnext
    exact ⟨by rw [outputs, outputs, hout, houts], haft⟩

theorem run_append {t : σ} {tr' : List ι}
    (h : Run R s₀ tr s) (h' : Run R s tr' t) : Run R s₀ (tr ++ tr') t := by
  induction h' with
  | nil => simpa using h
  | snoc _ hs ih => simpa only [List.append_assoc] using Run.snoc ih hs

theorem exec_run : ∀ {s : σ} {r : List ι × σ}, exec step G s acts = some r →
      Run (guardedRel step G) s r.1 r.2 := by
  induction acts with
  | nil =>
    intro s r h
    cases h
    exact Run.nil
  | cons act acts ih =>
    intro s r h
    simp only [exec] at h
    split at h
    · rename_i hG
      split at h
      · cases h
      rename_i s' e hs
      obtain ⟨r', hr', rfl⟩ := Option.map_eq_some_iff.mp h
      have h1 : Run (guardedRel step G) s [e] s' := Run.snoc Run.nil ⟨act, hG, hs⟩
      exact run_append h1 (ih hr')
    · cases h

theorem run_of_exec (acts : List α) (h : (exec step G s acts).isSome = true) :
    Run (guardedRel step G) s ((exec step G s acts).get h).1 ((exec step G s acts).get h).2 :=
  exec_run (Option.some_get h).symm

end DueServer.Lib
