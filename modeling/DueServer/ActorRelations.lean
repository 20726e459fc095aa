import DueServer.ActorTerminate

/-! The relations of users and actors. `bindActor` loads the actor, stores the user with it and
writes the relation, each under another lock. -/
namespace DueServer.Scheduler

open Lib Function

def Call.bindsLive (s : State) : Call → Bool
  | .relating uid a => s.registry (s.pid a) = some a && (s.actors a).binds uid
  | _ => true

def State.bindsLive (s : State) (act : Act) : Bool := (s.source act).all (Call.bindsLive s)

def Call.ofScheduler : Call → Bool
  | .fired _ _ _ | .guarding _ _ _ | .denied _ _ _ | .canceling _ _ | .reading _ | .sending _
  | .runlocking _ => false
  | _ => true

theorem Call.ofScheduler_of_holdsMu {c : Call} (h : c.holdsMu = true) : c.ofScheduler = true := by
  cases c <;> first | rfl | cases h

def State.quiet (s : State) : Bool := s.calls.all fun c => !c.ofScheduler

/-- Every relation is with a registered actor of that kind that has the user, and `unbindActor`
removes it. -/
structure RelationsSound (s : State) : Prop where
  live : ∀ uid k a, s.relations uid k = some a →
    s.registry (s.pid a) = some a ∧ (s.actors a).destroyed = false ∧ s.kind a = k ∧
      (s.actors a).binds uid = true
  unbinds : ∀ uid k a, s.relations uid k = some a →
    ∃ s', s.next (.unbindActor uid k) = some s' ∧ s'.relations uid k = none

structure Related (s : State) (uid : ℤ) (k : String) (a : ℕ) : Prop where
  kind : s.kind a = k
  binds : (s.actors a).binds uid = true
  made : a < s.made
  live : s.registry (s.pid a) = some a ∨ ∃ idle, .unrelating a idle ∈ s.calls

namespace Does

variable {s : State} {source : List Call} {e : Effect}

theorem relations_some (h : Does s source e) {uid : ℤ} {k : String} {a : ℕ}
    (ha : e.relations s.relations uid k = some a) :
    s.relations uid k = some a ∨ source = [.relating uid a] ∧ k = s.kind a := by
  cases h
  case relate =>
    simp only [update_apply] at ha
    split at ha
    · rename_i huid
      subst huid
      rw [update_apply] at ha
      split at ha
      · rename_i hk
        cases ha
        exact .inr ⟨rfl, hk⟩
      · exact .inl ha
    · exact .inl ha
  case unbindActor =>
    simp only [update_apply] at ha
    split at ha
    · rename_i huid
      subst huid
      rw [update_apply] at ha
      split at ha
      · cases ha
      · exact .inl ha
    · exact .inl ha
  case unrelate | unrelateIdle | unbind =>
    simp only [State.unrelate] at ha
    split at ha
    · cases ha
    · exact .inl ha
  all_goals exact .inl ha

theorem binds_keep (h : Does s source e) (hborn : e.births = 0) {uid : ℤ}
    (hbin : (s.actors e.actor).binds uid = true) :
    (e.write (s.actors e.actor)).binds uid = true ∨
      ∃ k, s.relations uid k = some e.actor ∧ e.relations s.relations uid k = none := by
  cases h
  case spawn => cases hborn
  case bindUser uid' a =>
    simp only [update_apply]
    split
    · exact .inl rfl
    · exact .inl hbin
  case unbindActor uid' kind a hrel _ =>
    by_cases huid : uid = uid'
    · subst huid
      exact .inr ⟨kind, hrel, by simp⟩
    · exact .inl (by simpa [update_of_ne huid] using hbin)
  case lock | finish =>
    dsimp only
    split <;> exact .inl hbin
  all_goals exact .inl hbin

theorem registry_keep (h : Does s source e) (hreg : s.registry (s.pid e.actor) = some e.actor) :
    e.registry s.registry (s.pid e.actor) = some e.actor ∨
      ∃ idle, .unrelating e.actor idle ∈ e.calls := by
  cases h
  case remove | removeActor => exact .inr ⟨false, by simp [State.remove]⟩
  case delete => exact .inr ⟨true, by simp [State.remove]⟩
  case store => exact .inl (update_self ..)
  all_goals exact .inl hreg

theorem source_eq (h : Does s source e) {c : Call} (hc : c ∈ source) : source = [c] := by
  cases h <;> simp_all

theorem unrelates {a : ℕ} {idle : Bool} (h : Does s [.unrelating a idle] e) (uid : ℤ) :
    e.relations s.relations uid (s.kind a) ≠ some a := by
  cases h <;> simp only [State.unrelate] <;> split <;> simp_all

end Does

namespace Related

variable {s s' : State} {source others : List Call} {e : Effect} {uid : ℤ} {k : String} {a : ℕ}

theorem turn (hs : Sound s) (h : s.Turn source e others s')
    (hr : ∀ uid k a, s.relations uid k = some a → Related s uid k a)
    (hgd : source.all (Call.bindsLive s) = true) (ha : s'.relations uid k = some a) :
    Related s' uid k a := by
  rw [h.relations_eq] at ha
  rcases h.does.relations_some ha with hold | ⟨rfl, rfl⟩
  · obtain ⟨hkind, hbin, hmade, hlive⟩ := hr uid k a hold
    refine ⟨?_, ?_, ?_, ?_⟩
    · rw [State.kind, Sound.opts_eq h hmade]
      exact hkind
    · by_cases hact : a = e.actor
      · subst hact
        rw [h.actor_eq]
        have hborn : e.births = 0 := h.does.births_eq.resolve_right fun hspa => by omega
        refine (h.does.binds_keep hborn hbin).resolve_right ?_
        rintro ⟨k', hk', hnone⟩
        -- the relation of the user with this actor is the one that is removed
        obtain rfl : k' = k := (hr uid k' e.actor hk').kind.symm.trans hkind
        rw [hnone] at ha
        cases ha
      · rw [h.actor_of_ne hact]
        exact hbin
    · rw [h.made_eq]
      omega
    · rw [Sound.pid_eq h hmade]
      rcases hlive with hreg | ⟨idle, hunr⟩
      · by_cases hact : a = e.actor
        · subst hact
          rw [h.registry_eq]
          refine (h.does.registry_keep hreg).imp_right ?_
          exact fun ⟨idle, hmem⟩ =>
            ⟨idle, h.after.mem_iff.mpr (List.mem_append_left _ hmem)⟩
        · exact .inl ((hs.registry_of_ne h hact).mpr hreg)
      · rcases List.mem_append.mp (h.before.mem_iff.mp hunr) with hmov | hsta
        · obtain rfl := h.does.source_eq hmov
          exact absurd ha (hkind ▸ h.does.unrelates uid)
        · exact .inr ⟨idle, h.after.mem_iff.mpr (List.mem_append_right _ hsta)⟩
  · simp only [List.all_cons, List.all_nil, Call.bindsLive, Bool.and_true, Bool.and_eq_true,
      decide_eq_true_eq] at hgd
    obtain ⟨hreg, hbin⟩ := hgd
    have hmade := hs.lt_made hreg
    cases h.does
    refine ⟨?_, ?_, ?_, .inl ?_⟩
    · rw [State.kind, Sound.opts_eq h hmade, State.kind]
    · rw [h.actor_eq]
      exact hbin
    · rw [h.made_eq]
      exact hmade
    · rw [Sound.pid_eq h hmade, h.registry_eq]
      exact hreg

theorem run {s : State} {acts : List Act}
    (h : Run (guardedRel State.step State.bindsLive) State.init acts s) :
    Sound s ∧ ∀ uid k a, s.relations uid k = some a → Related s uid k a := by
  refine run_states (fun s => Sound s ∧ ∀ uid k a, s.relations uid k = some a → Related s uid k a)
    ⟨Sound.init, nofun⟩ ?_ h
  intro s act s' ⟨hs, hr⟩ hgd hnext
  obtain ⟨e, others, hturn⟩ := State.turn_of_next hnext
  exact ⟨hs.turn hturn, fun uid k a => turn hs hturn hr hgd⟩

theorem live_of_quiet (hs : Sound s) (hqt : s.quiet = true) (hr : Related s uid k a) :
    s.registry (s.pid a) = some a ∧ (s.actors a).destroyed = false := by
  have hnone : ∀ c ∈ s.calls, c.ofScheduler = false := by
    simpa [State.quiet] using hqt
  have hreg : s.registry (s.pid a) = some a := by
    refine hr.live.resolve_right ?_
    rintro ⟨idle, hmem⟩
    exact absurd (hnone _ hmem) Bool.noConfusion
  have hmu : s.mu = false := by
    by_contra hheld
    have hct := hs.mutex
    rw [if_pos (Bool.eq_true_of_not_eq_false hheld)] at hct
    obtain ⟨c, hc, hho⟩ := List.countP_pos_iff.mp (hct ▸ Nat.one_pos)
    exact absurd (hnone c hc) (by simp [Call.ofScheduler_of_holdsMu hho])
  obtain ⟨st, hm⟩ := hs.stage a
  have hst := hs.eq_registered hmu hm (hm.registered.mp hreg)
  rw [hst] at hm
  exact ⟨hreg, hm.inside.destroyed⟩

end Related

/-- In every run in which a relation is written only while its actor is registered and has the user,
the relations are sound whenever no call of the scheduler is in progress. -/
theorem relations_sound (acts : List Act) (s : State)
    (h : Run (guardedRel State.step State.bindsLive) State.init acts s) (hquiet : s.quiet = true) :
    RelationsSound s := by
  obtain ⟨hs, hr⟩ := Related.run h
  refine ⟨fun uid k a ha => ?_, fun uid k a ha => ?_⟩
  · have hrel := hr uid k a ha
    obtain ⟨hreg, hdes⟩ := hrel.live_of_quiet hs hquiet
    exact ⟨hreg, hdes, hrel.kind, hrel.binds⟩
  · have hbeg : s.begin (.unbindActor uid k) = some
        { calls := []
          actor := a
          write := fun x => { x with binds := update x.binds uid false }
          relations := fun relations =>
            update relations uid (update (relations uid) k none) } := by
      simp [State.begin, ha, (hr uid k a ha).binds]
    refine ⟨_, congrArg (Option.map _) hbeg, ?_⟩
    simp [State.apply]

def boundTwice : List Act :=
  [.spawn ⟨"1", "room", false, false, false, false, false⟩] ++ steps 5 0 ++
    [.spawn ⟨"1", "hall", false, false, false, false, false⟩] ++ steps 5 0 ++
    [.bindActor 7 "room" "1"] ++ steps 3 0 ++ [.bindActor 7 "hall" "1"] ++ steps 3 0 ++
    [.kill "hall" "1"] ++ steps 11 0

theorem boundTwice_isSome :
    (exec State.step State.bindsLive State.init boundTwice).isSome = true := by
  decide +kernel

theorem boundTwice_sound :
    let s := ((exec State.step State.bindsLive State.init boundTwice).get boundTwice_isSome).2
    s.relations 7 "room" = some 0 ∧ s.relations 7 "hall" = none ∧ RelationsSound s :=
  ⟨by decide +kernel, by decide +kernel,
    relations_sound _ _ (run_of_exec _ boundTwice_isSome) (by decide +kernel)⟩

def boundKilled : List Act :=
  [.spawn ⟨"1", "room", false, false, false, false, false⟩] ++ steps 5 0 ++
    [.bindActor 7 "room" "1"] ++ steps 1 0 ++ [.kill "room" "1"] ++ steps 11 1 ++ steps 2 0

/-- The user is related to an actor that has been destroyed. -/
theorem bindActor_relates_destroyed_actor :
    ¬∀ acts s, Run (guardedRel State.step fun _ _ => true) State.init acts s →
      s.quiet = true → RelationsSound s := by
  intro h
  have hsou := h _ _ (run_of_exec boundKilled (by decide +kernel)) (by decide +kernel)
  obtain ⟨-, hdes, -⟩ := hsou.live 7 "room" 0 (by decide +kernel)
  exact absurd hdes (by decide +kernel)

end DueServer.Scheduler
