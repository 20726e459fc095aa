import Mathlib.Data.List.Induction
import DueServer.ActorTerminate

/-! The generations of an idle release. As long as none has wrapped around, at most one timer or
release has the actor's own generation, and the last `Idle` has scheduled it, with no `Active`
since. -/
namespace DueServer.Scheduler

open Lib List Timer

def Timer.isFor (a : ℕ) (g : UInt64) (t : Timer) : Bool := t.actor = a && t.generation = g

def Call.releases (a : ℕ) (g : UInt64) : Call → Bool
  | .fired b h _ | .guarding b h _ | .denied b h _ | .committing b h _ => b = a && h = g
  | _ => false

theorem Call.subject_of_releases {a : ℕ} {g : UInt64} {c : Call} (h : c.releases a g = true) :
    c.subject = some a := by
  cases c <;> simp_all [Call.releases, Call.subject]

def State.armed (s : State) (a : ℕ) (g : UInt64) : ℕ :=
  s.timers.countP (Timer.isFor a g) + s.calls.countP (Call.releases a g)

def idleSince (life : List Life) : Option UInt64 :=
  life.foldl (fun current l =>
    match l with
    | .idle g => some g
    | .active => none
    | _ => current) none

/-- `Active`, `Idle` and `Destroy`. -/
def Life.disturbs : Life → Bool
  | .active | .idle _ | .unregistered _ | .destroy => true
  | _ => false

def Undisturbed (g : UInt64) (life : List Life) : Prop :=
  ∃ before since, life = before ++ .idle g :: since ∧ ∀ l ∈ since, l.disturbs = false

def Commits (life : List Life) : Prop :=
  ∀ before since t g, life = before ++ .committed t g :: since → Undisturbed g before

/-- No generation wraps around in the step. -/
def State.ascends (s : State) (act : Act) : Bool :=
  match s.next act with
  | some s' => (range s.made).all fun a =>
      (s.actors a).idleGeneration ≤ (s'.actors a).idleGeneration
  | none => true

theorem State.le_of_ascends {s s' : State} {act : Act} {a : ℕ} (h : s.ascends act = true)
    (hnext : s.next act = some s') (ha : a < s.made) :
    (s.actors a).idleGeneration ≤ (s'.actors a).idleGeneration := by
  rw [ascends, hnext] at h
  exact of_decide_eq_true (all_eq_true.mp h a (mem_range.mpr ha))

theorem ne_succ (g : UInt64) : g ≠ g + 1 := by simp

structure Born (s : State) : Prop where
  calls : ∀ c ∈ s.calls, ∀ a, c.subject = some a → a < s.made
  timers : ∀ t ∈ s.timers, t.actor < s.made

structure Armed (s : State) (a : ℕ) : Prop where
  le_one : ∀ g, s.armed a g ≤ 1
  current : ∀ g, 0 < s.armed a g →
    g ≤ (s.actors a).idleGeneration ∧
      (g = (s.actors a).idleGeneration → idleSince (s.actors a).life = some g)
  commits : Commits (s.actors a).life

section Lives

variable {life : List Life} {g : UInt64}

theorem idleSince_append (l : Life) : idleSince (life ++ [l]) =
    match l with
    | .idle g => some g
    | .active => none
    | _ => idleSince life := by
  rw [idleSince, foldl_append]
  rfl

theorem exists_of_idleSince (h : idleSince life = some g) :
    ∃ before since, life = before ++ .idle g :: since ∧
      ∀ l ∈ since, l ≠ .active ∧ ∀ g', l ≠ .idle g' := by
  induction life using reverseRecOn with
  | nil => cases h
  | append_singleton life l ih =>
    rw [idleSince_append] at h
    have hlater (hl : l ≠ .active ∧ ∀ g', l ≠ .idle g') (h : idleSince life = some g) :
        ∃ before since, life ++ [l] = before ++ .idle g :: since ∧
          ∀ l ∈ since, l ≠ .active ∧ ∀ g', l ≠ .idle g' := by
      obtain ⟨before, since, rfl, hsin⟩ := ih h
      refine ⟨before, since ++ [l], by simp, fun l' hl' => ?_⟩
      rcases mem_append.mp hl' with hold | hnew
      · exact hsin l' hold
      · exact mem_singleton.mp hnew ▸ hl
    cases l with
    | idle g' =>
      cases h
      exact ⟨life, [], rfl, fun l hl => absurd hl not_mem_nil⟩
    | active => cases h
    | _ => exact hlater ⟨Life.noConfusion, fun _ => Life.noConfusion⟩ h

theorem undisturbed_of_idleSince (h : idleSince life = some g)
    (hleft : ∀ x, .unregistered x ∉ life) (hdes : .destroy ∉ life) : Undisturbed g life := by
  obtain ⟨before, since, rfl, hsin⟩ := exists_of_idleSince h
  refine ⟨before, since, rfl, fun l hl => ?_⟩
  have hmem : l ∈ before ++ .idle g :: since :=
    mem_append_right _ (mem_cons_of_mem _ hl)
  obtain ⟨hactv, hidle⟩ := hsin l hl
  cases l with
  | active => exact absurd rfl hactv
  | idle g' => exact absurd rfl (hidle g')
  | unregistered x => exact absurd hmem (hleft x)
  | destroy => exact absurd hmem hdes
  | _ => rfl

theorem Commits.append (h : Commits life) {l : Life}
    (hl : ∀ t g, l = .committed t g → Undisturbed g life) : Commits (life ++ [l]) := by
  intro before since t g heq
  rcases eq_nil_or_concat since with rfl | ⟨since, last, rfl⟩
  · obtain ⟨rfl, hlast⟩ := append_inj' heq rfl
    exact hl t g (singleton_inj.mp hlast)
  rw [concat_eq_append, ← cons_append, ← append_assoc] at heq
  exact h before since t g (append_inj' heq rfl).1

end Lives

namespace Does

variable {s : State} {source : List Call} {e : Effect}

section

variable (h : Does s source e)

include h

section

variable (hsource : ∀ c ∈ source, ∀ a, c.subject = some a → a < s.made)
  (htimers : ∀ t ∈ s.timers, t.actor < s.made)

include hsource htimers

theorem born_calls (hreg : ∀ p a, s.registry p = some a → a < s.made) :
    ∀ c ∈ e.calls, ∀ a, c.subject = some a → a < s.made + e.births := by
  cases h
  case remove kind id a _ hload | found uid kind id a hload =>
    have hmade := hreg _ _ hload
    simp_all [Call.subject, State.remove]
  all_goals simp_all [Call.subject, State.remove, State.schedule]

theorem born_timers : ∀ t ∈ e.timers s.timers, t.actor < s.made + e.births := by
  intro t ht
  cases h
  case spawn => exact Nat.lt_succ_of_lt (htimers t ht)
  case cancel | commit | active => exact htimers t (mem_of_mem_filter ht)
  case fire => exact htimers t (mem_of_mem_erase ht)
  case retry a g u _ _ =>
    rcases mem_append.mp ht with hold | hnew
    · exact htimers t hold
    rw [mem_singleton.mp hnew]
    exact hsource _ mem_cons_self a rfl
  case idle a hmade _ =>
    rcases mem_append.mp ht with hold | hnew
    · exact htimers t (mem_of_mem_filter hold)
    rw [mem_singleton.mp hnew]
    exact hmade
  all_goals exact htimers t ht

end

theorem timers_of_ne {b : ℕ} (hb : b ≠ e.actor) (g : UInt64) :
    (e.timers s.timers).countP (isFor b g) ≤ s.timers.countP (isFor b g) := by
  have hne : e.actor ≠ b := hb.symm
  cases h
  case cancel | commit | active => exact filter_sublist.countP_le
  case fire => exact erase_sublist.countP_le
  case retry a g' t _ _ =>
    have hne : a ≠ b := hne
    simp [State.schedule, isFor, hne]
  case idle a _ _ =>
    have hne : a ≠ b := hne
    simp only [State.schedule, countP_append, countP_singleton, isFor, hne]
    exact filter_sublist.countP_le
  all_goals exact le_rfl

theorem releases_of_ne {b : ℕ} (hb : b ≠ e.actor) (g : UInt64) :
    source.countP (Call.releases b g) = 0 ∧ e.calls.countP (Call.releases b g) = 0 := by
  have hne : e.actor ≠ b := hb.symm
  cases h
  all_goals simp_all [Call.releases, State.remove, State.schedule]

theorem armed (g : UInt64) : (e.timers s.timers).countP (isFor e.actor g) +
        e.calls.countP (Call.releases e.actor g) ≤
      s.timers.countP (isFor e.actor g) + source.countP (Call.releases e.actor g) ∨
    g = (s.actors e.actor).idleGeneration + 1 ∧
      (e.write (s.actors e.actor)).idleGeneration = g ∧
      idleSince (e.write (s.actors e.actor)).life = some g ∧
      (e.timers s.timers).countP (isFor e.actor g) +
          e.calls.countP (Call.releases e.actor g) ≤
        s.timers.countP (isFor e.actor g) + source.countP (Call.releases e.actor g) + 1 := by
  cases h
  case cancel | active => exact .inl (Nat.add_le_add_right filter_sublist.countP_le _)
  case commit =>
    exact .inl (Nat.add_le_add filter_sublist.countP_le (Nat.zero_le _))
  case fire t hpend =>
    refine .inl ?_
    have hsp := (perm_cons_erase hpend).countP_eq (isFor t.actor g)
    rw [countP_cons] at hsp
    simp only [hsp, countP_singleton, Call.releases, isFor]
    exact le_rfl
  case retry a g' t _ _ =>
    simp [State.schedule, Call.releases, isFor]
  case idle a _ _ =>
    have hstop : ((s.actors a).stop s.timers).countP (isFor a g) ≤
        s.timers.countP (isFor a g) := filter_sublist.countP_le
    by_cases hg : g = (s.actors a).idleGeneration + 1
    · refine .inr ⟨hg, hg.symm, ?_, ?_⟩
      · rw [hg]
        exact idleSince_append _
      · simpa [State.schedule, isFor, hg] using hg ▸ hstop
    refine .inl ?_
    simpa [State.schedule, isFor, Ne.symm hg] using hstop
  all_goals first
    | exact .inl le_rfl
    | exact .inl (Nat.add_le_add_left (Nat.zero_le _) _)

theorem generation (hborn : e.births = 0)
    (hsource : ∀ c ∈ source, ∀ a, c.subject = some a → a < s.made) :
    (e.write (s.actors e.actor)).idleGeneration = (s.actors e.actor).idleGeneration ∧
      idleSince (e.write (s.actors e.actor)).life = idleSince (s.actors e.actor).life ∨
    (e.write (s.actors e.actor)).idleGeneration = (s.actors e.actor).idleGeneration + 1 ∧
      e.actor < s.made := by
  cases h
  case spawn => cases hborn
  case cancel a | commit a _ _ _ _ _ _ => exact .inr ⟨rfl, hsource _ mem_cons_self a rfl⟩
  case active a hmade _ | idle a hmade _ => exact .inr ⟨rfl, hmade⟩
  case init a | start a | destroy a =>
    cases hpro : (s.actors a).processor <;> simp [Actor.call, hpro, idleSince_append]
  case lock a _ _ =>
    cases hwait : (s.actors a).opts.wait <;> simp [hwait, idleSince_append]
  case finish a =>
    dsimp only
    split
    · exact .inl ⟨rfl, (idleSince_append .returned).trans (idleSince_append .doneWait)⟩
    · exact .inl ⟨rfl, idleSince_append .returned⟩
  all_goals
    first
    | exact .inl ⟨rfl, rfl⟩
    | exact .inl ⟨rfl, idleSince_append _⟩

theorem commits (hborn : e.births = 0) (hcom : Commits (s.actors e.actor).life)
    (hcur : ∀ g t, source = [.committing e.actor g t] → s.mu = false →
      s.registry (s.pid e.actor) = some e.actor → (s.actors e.actor).idleGeneration = g →
      Undisturbed g (s.actors e.actor).life) :
    Commits (e.write (s.actors e.actor)).life := by
  cases h
  case spawn => cases hborn
  case commit a g t hmu hreg hgen _ =>
    refine hcom.append ?_
    rintro t' g' ⟨⟩
    exact hcur g t rfl hmu hreg hgen
  case init a | start a | destroy a =>
    refine hcom.append ?_
    cases hpro : (s.actors a).processor <;> simp
  case lock =>
    dsimp only
    split
    · exact hcom.append nofun
    · exact hcom
  case finish =>
    dsimp only
    split
    · exact (hcom.append (l := .doneWait) nofun).append nofun
    · exact hcom.append nofun
  all_goals first | exact hcom | exact hcom.append nofun

end

end Does

namespace Born

variable {s s' : State} {source others : List Call} {e : Effect}

theorem turn (hb : Born s) (hs : Sound s) (h : s.Turn source e others s') : Born s' := by
  have hsource : ∀ c ∈ source, ∀ a, c.subject = some a → a < s.made := fun c hc =>
    hb.calls c (h.before.mem_iff.mpr (mem_append_left _ hc))
  refine ⟨fun c hc a ha => ?_, ?_⟩
  · rw [h.made_eq]
    rcases mem_append.mp (h.after.mem_iff.mp hc) with hnew | hold
    · exact h.does.born_calls hsource hb.timers (fun p a => hs.lt_made) c hnew a ha
    have hlt := hb.calls c (h.before.mem_iff.mpr (mem_append_right _ hold)) a ha
    omega
  · rw [h.timers_eq, h.made_eq]
    exact h.does.born_timers hsource hb.timers

theorem init : Born State.init := ⟨nofun, nofun⟩

theorem armed_eq_zero (hb : Born s) {a : ℕ} (ha : s.made ≤ a) (g : UInt64) : s.armed a g = 0 := by
  have htimers : s.timers.countP (isFor a g) = 0 := by
    refine countP_eq_zero.mpr fun t ht hfor => ?_
    have hlt := hb.timers t ht
    simp only [isFor, Bool.and_eq_true, decide_eq_true_eq] at hfor
    omega
  have hcs : s.calls.countP (Call.releases a g) = 0 := by
    refine countP_eq_zero.mpr fun c hc hrel => ?_
    have hlt := hb.calls c hc a (Call.subject_of_releases hrel)
    omega
  rw [State.armed, htimers, hcs]

end Born

namespace Armed

variable {s s' : State} {source others : List Call} {e : Effect} {a t : ℕ} {g : UInt64}

theorem armed_before (h : s.Turn source e others s') (a : ℕ) (g : UInt64) :
    s.armed a g = s.timers.countP (isFor a g) + source.countP (Call.releases a g) +
      others.countP (Call.releases a g) := by
  rw [State.armed, h.before.countP_eq, countP_append, Nat.add_assoc]

theorem armed_after (h : s.Turn source e others s') (a : ℕ) (g : UInt64) :
    s'.armed a g = (e.timers s.timers).countP (isFor a g) +
      e.calls.countP (Call.releases a g) + others.countP (Call.releases a g) := by
  rw [State.armed, h.timers_eq, h.after.countP_eq, countP_append, Nat.add_assoc]

theorem turn_other (h : s.Turn source e others s') (ha : Armed s a) (hne : a ≠ e.actor) :
    Armed s' a := by
  have hle : ∀ g, s'.armed a g ≤ s.armed a g := by
    intro g
    obtain ⟨hsource, hcs⟩ := h.does.releases_of_ne hne g
    have htimers := h.does.timers_of_ne hne g
    rw [armed_before h, armed_after h]
    omega
  have hact := h.actor_of_ne hne
  refine ⟨fun g => (hle g).trans (ha.le_one g), fun g hg => ?_, ?_⟩
  · rw [hact]
    exact ha.current g (hg.trans_le (hle g))
  · rw [hact]
    exact ha.commits

theorem undisturbed (hs : Sound s) (ha : Armed s a) (hmem : .committing a g t ∈ s.calls)
    (hmu : s.mu = false) (hreg : s.registry (s.pid a) = some a)
    (hgen : (s.actors a).idleGeneration = g) : Undisturbed g (s.actors a).life := by
  have hpos : 0 < s.armed a g :=
    Nat.add_pos_right _ (countP_pos_iff.mpr ⟨_, hmem, by simp [Call.releases]⟩)
  obtain ⟨st, hm⟩ := hs.stage a
  obtain rfl := hs.eq_registered hmu hm (hm.registered.mp hreg)
  refine undisturbed_of_idleSince ((ha.current g hpos).2 hgen.symm) (fun x => ?_) ?_
  all_goals
    rw [hm.mem_iff rfl]
    cases hwait : (s.actors a).opts.wait <;> simp [Stage.script]

theorem turn_self (hs : Sound s) (hb : Born s) (h : s.Turn source e others s')
    (hup : ∀ a < s.made, (s.actors a).idleGeneration ≤ (s'.actors a).idleGeneration)
    (ha : Armed s e.actor) : Armed s' e.actor := by
  rcases h.does.births_eq with hborn | ⟨hborn, hmade⟩
  · have hgens := h.does.generation hborn fun c hc =>
      hb.calls c (h.before.mem_iff.mpr (mem_append_left _ hc))
    -- no release has a generation that is still to come
    have hlt {g : UInt64} (hg : 0 < s.armed e.actor g)
        (hnext : (e.write (s.actors e.actor)).idleGeneration =
          (s.actors e.actor).idleGeneration + 1) :
        g < (s.actors e.actor).idleGeneration + 1 := by
      rcases hgens with ⟨hsame, -⟩ | ⟨-, hmade⟩
      · exact absurd (hsame.symm.trans hnext) (ne_succ _)
      · have hle := hup e.actor hmade
        rw [h.actor_eq, hnext] at hle
        exact UInt64.lt_of_le_of_lt (ha.current g hg).1
          (UInt64.lt_of_le_of_ne hle (ne_succ _))
    refine ⟨fun g => ?_, fun g hg => ?_, ?_⟩
    · have hle := ha.le_one g
      rw [armed_before h] at hle
      rw [armed_after h]
      rcases h.does.armed g with hless | ⟨rfl, hnext, -, hmore⟩
      · omega
      have hfr : s.armed e.actor ((s.actors e.actor).idleGeneration + 1) = 0 := by
        by_contra hpos
        exact UInt64.lt_irrefl _ (hlt (Nat.pos_of_ne_zero hpos) hnext)
      rw [armed_before h] at hfr
      omega
    · rw [h.actor_eq]
      rcases h.does.armed g with hless | ⟨-, hgen, hsin, -⟩
      · have hpos : 0 < s.armed e.actor g := by
          rw [armed_after h] at hg
          rw [armed_before h]
          omega
        obtain ⟨hle, hcur⟩ := ha.current g hpos
        rcases hgens with ⟨hsame, hsin⟩ | ⟨hnext, -⟩
        · rw [hsame, hsin]
          exact ⟨hle, hcur⟩
        · have hless := hlt hpos hnext
          rw [hnext]
          exact ⟨UInt64.le_of_lt hless, fun heq => absurd heq (UInt64.ne_of_lt hless)⟩
      · rw [hgen]
        exact ⟨UInt64.le_refl g, fun _ => hsin⟩
    · rw [h.actor_eq]
      refine h.does.commits hborn ha.commits fun g t hsource => ?_
      have hmem : .committing e.actor g t ∈ s.calls := h.before.mem_iff.mpr (by simp [hsource])
      exact ha.undisturbed hs hmem
  · have hnone : ∀ g, s'.armed e.actor g = 0 := by
      intro g
      have hzero := hb.armed_eq_zero hmade.ge g
      rw [armed_before h] at hzero
      rw [armed_after h]
      cases h.does with
      | spawn opts => exact hzero
      | _ => cases hborn
    refine ⟨fun g => by simp [hnone g], fun g hg => by simp [hnone g] at hg, ?_⟩
    rw [h.actor_eq, h.does.life_spawn hborn]
    intro before since t g heq
    exact absurd heq (by simp)

theorem init (a : ℕ) : Armed State.init a where
  le_one := fun _ => Nat.zero_le _
  current := fun _ hg => absurd hg (lt_irrefl 0)
  commits := by
    intro before since t g heq
    exact absurd heq (by simp [State.init, Actor.new])

/-- The step after a guard has denied the release of the current generation schedules it again;
there is one timer for it, and no release in progress. -/
theorem retry (h : s.Turn [.denied a g t] e others s') (ha : Armed s' a)
    (hdes : (s.actors a).destroyed = false) (hgen : (s.actors a).idleGeneration = g) :
    s'.timers.countP (isFor a g) = 1 ∧ s'.calls.countP (Call.releases a g) = 0 := by
  have hle := ha.le_one g
  rw [State.armed] at hle
  have hpos : 0 < s'.timers.countP (isFor a g) := by
    rw [h.timers_eq]
    cases h.does with
    | retry => simp [State.schedule, isFor]
    | noRetry _ _ _ hstl =>
      rcases hstl with hstl | hstl
      · rw [hdes] at hstl
        cases hstl
      · exact absurd hgen hstl
  omega

end Armed

end DueServer.Scheduler
