import DueServer.NodeRecycleEvents

/-! Along every run in which each event is handed on to one actor at most, each event is delivered:
the steps keep the invariant `Kept`. -/
namespace DueServer.Node

open Lib Node.Frame Function List

variable {χ δ φ ε : Type}

namespace State

variable {n : Config χ δ ε} {s s' : State χ δ φ}

variable {calls : List (Entry χ δ × ℕ)} {m : Mark χ δ} {i : ℕ} {t : Thread Role (Frame χ δ)}

theorem saw_append {log : List (Mark χ δ)}
    (hlog : ∀ before m after, log = before ++ m :: after → SawRight n calls before m)
    (hm : SawRight n calls log m) :
    ∀ before m' after, log ++ [m] = before ++ m' :: after → SawRight n calls before m' := by
  intro before m' after hsp
  rcases eq_nil_or_concat after with rfl | ⟨after, last, rfl⟩
  · obtain ⟨rfl, hlast⟩ := append_inj' hsp rfl
    cases hlast
    exact hm
  rw [concat_eq_append, ← cons_append, ← append_assoc] at hsp
  exact hlog before m' after (append_inj_left' hsp rfl)

theorem SawRight.mono {more : List (Entry χ δ × ℕ)} {before : List (Mark χ δ)}
    (h : SawRight n calls before m) : SawRight n (calls ++ more) before m := by
  have hkept {acq obj : ℕ} {seen : Seen χ δ}
      (h : ∃ entry : Entry χ δ, calls[acq]? = some (entry, obj) ∧ seen = entry.wanted n) :
      ∃ entry : Entry χ δ, (calls ++ more)[acq]? = some (entry, obj) ∧ seen = entry.wanted n := by
    obtain ⟨entry, hcall, hseen⟩ := h
    exact ⟨entry, by rw [getElem?_append_left (List.getElem?_eq_some_iff.mp hcall).1, hcall], hseen⟩
  cases m with
  | saw call obj acq seen actor =>
    cases call with
    | handle => exact fun hbef => (h hbef).imp_right hkept
    | actor a => exact h.imp_right hkept
    | _ => trivial
  | _ => trivial

section Act

variable {i : ℕ} {choice : Choice} {t : Thread Role (Frame χ δ)} {f : Frame χ δ}
  {rest others : List (Frame χ δ)} {e : Effect χ δ φ}

theorem oneActor_step (ht : s.threads[i]? = some t) (hstk : t.stack = f :: rest)
    (h : s.handsOnce (.step i choice) = true) :
    OneActor choice (s.handed f.obj f.acq) := by
  obtain ⟨role, stack⟩ := t
  obtain rfl : stack = f :: rest := hstk
  simp only [handsOnce, ht] at h
  refine ⟨fun htask => ?_, fun actors hnext => ?_⟩
  · subst htask
    cases h
  · subst hnext
    simpa using h

/-- A frame of `handle` that has handed its event on never meets version 1 again: only the
goroutine of the node makes it, and it is in this frame. -/
theorem stale_version (hs : s.Kept n) (ht : s.threads[i]? = some t) (hstk : t.stack = f :: rest)
    (hf : f ∈ s.holders) (hcall : f.call = .handle) (hhand : s.handed f.obj f.acq = true) :
    (s.heap f.obj).version ≠ 1 := by
  intro hver
  obtain ⟨entry, hkn, -⟩ := hs.known f hf
  have hmade := (hs.calls _ _ _ hkn).1
  have hcar : 0 < s.carriers f.obj := by
    refine Nat.pos_of_ne_zero fun hnone => ?_
    rw [(hs.idle f.obj hmade hnone).1] at hver
    exact absurd hver (by decide)
  obtain ⟨g, hg, hcarries⟩ := countP_pos_iff.mp hcar
  obtain ⟨hobj, hwith⟩ := Bool.and_eq_true_iff.mp hcarries
  have hobj : g.obj = f.obj := of_decide_eq_true hobj
  obtain ⟨hhan, hph⟩ := (hs.fits g hg).of_version_one (by rw [hobj]; exact hver)
  -- `g` is not a letter, so it stands on the stack of the node, where only `f` is
  have hsame : g = f := by
    rcases mem_append.mp hg with hg | hg
    · obtain ⟨u, hu, hgu⟩ := mem_frames.mp hg
      obtain ⟨j, hj⟩ := mem_iff_getElem?.mp hu
      have hj0 : j = 0 := by_contra fun hne => ((hs.seated j u hj).2 hne).2 g hgu hhan
      have hi0 : i = 0 := by_contra fun hne => ((hs.seated i t ht).2 hne).2 f (by simp [hstk]) hcall
      subst hj0 hi0
      obtain rfl : u = t := Option.some.inj (hj.symm.trans ht)
      have hlen := (hs.seated _ u hj).1
      rw [hstk] at hlen hgu
      obtain rfl : rest = [] := eq_nil_of_length_eq_zero (by simpa using hlen)
      exact mem_singleton.mp hgu
    · obtain ⟨l, -, rfl⟩ := mem_map.mp hg
      exact absurd (l.phase_frame hhan) hph
  subst hsame
  rw [State.carried, carries_false.mpr ⟨hcall, hhand⟩] at hwith
  cases hwith

end Act

structure Turn (n : Config χ δ ε) (s s' : State χ δ φ) (f : Frame χ δ) (others : List (Frame χ δ))
    (choice : Choice) (e : Effect χ δ φ) : Prop where
  kept : s.Kept n
  does : Does n f (s.heap f.obj) (s.cur f.obj) choice e
  before : s.holders.Perm (f :: others)
  after : s'.holders.Perm (e.holders ++ others)
  one : OneActor choice (s.handed f.obj f.acq)
  stale : f.call = .handle → s.handed f.obj f.acq = true → (s.heap f.obj).version ≠ 1
  heap_self : s'.heap f.obj = e.write (s.heap f.obj)
  heap_of_ne : ∀ obj ≠ f.obj, s'.heap obj = s.heap obj
  log : s'.log = s.log ++ e.marks
  pool : s'.pool = if e.put then f.obj :: s.pool else s.pool
  made : s'.made = s.made
  calls : s'.calls = s.calls
  cur : s'.cur = s.cur

namespace Turn

variable {f g : Frame χ δ} {others : List (Frame χ δ)} {choice : Choice} {e : Effect χ δ φ}
  (h : Turn n s s' f others choice e)

include h

theorem mem : f ∈ s.holders := h.before.mem_iff.mpr mem_cons_self

theorem mem_others (hg : g ∈ others) : g ∈ s.holders :=
  h.before.mem_iff.mpr (mem_cons_of_mem f hg)

theorem mem_cases (hg : g ∈ s'.holders) : g ∈ e.holders ∨ g ∈ others :=
  mem_append.mp (h.after.mem_iff.mp hg)

theorem known : ∃ entry, s.calls[f.acq]? = some (entry, f.obj) ∧
    ∀ entry', f.call = .source entry' → entry' = entry := h.kept.known f h.mem

theorem lt_made : f.obj < s.made :=
  have ⟨_, hcall, _⟩ := h.known
  (h.kept.calls _ _ _ hcall).1

theorem isEvent : (s.heap f.obj).isRequest = false := h.kept.event _ h.lt_made

theorem fits : f.Fits (s.heap f.obj) (s.handed f.obj f.acq) := h.kept.fits f h.mem

theorem handed (obj acq : ℕ) :
    s'.handed obj acq = (s.handed obj acq || e.marks.any (Mark.isHanded obj acq)) := by
  rw [State.handed, h.log, any_append]
  rfl

theorem puts (obj acq : ℕ) : s'.puts obj acq = s.puts obj acq +
    e.marks.countP (Mark.isPut obj acq) := by
  rw [State.puts, h.log, countP_append]
  rfl

theorem elsewhere {obj : ℕ} (acq : ℕ) (hobj : obj ≠ f.obj) :
    e.marks.any (Mark.isHanded obj acq) = false ∧ ∀ m ∈ e.marks, ¬ m.Recycles obj acq := by
  refine ⟨any_eq_false.mpr fun m hm => ?_, fun m hm => ?_⟩ <;>
    rcases h.does.marks m hm with rfl | rfl | rfl | ⟨actor, rfl⟩ | rfl <;>
    simp [Mark.isHanded, Mark.Recycles, hobj.symm]

theorem of_stale (hcarries : s.carried f = false) :
    s'.heap f.obj = s.heap f.obj ∧ e.put = false ∧ ∀ acq,
      e.marks.any (Mark.isHanded f.obj acq) = false ∧ ∀ m ∈ e.marks, ¬ m.Recycles f.obj acq := by
  obtain ⟨hcall, hhan⟩ := carries_false.mp hcarries
  have hfits := h.fits
  have hone := h.one
  rw [hhan] at hfits hone
  obtain ⟨hwri, -, hput, hmks⟩ :=
    h.does.stale hfits hcall hone h.isEvent (h.stale hcall hhan)
  refine ⟨h.heap_self.trans hwri, hput, fun acq => ⟨any_eq_false.mpr fun m hm => ?_, ?_⟩⟩
  · rw [hmks m hm]
    simp [Mark.isHanded]
  · intro m hm
    rw [hmks m hm]
    exact id

theorem others_stale (hcarries : s.carried f = true) (hg : g ∈ others)
    (hobj : g.obj = f.obj) : s.carried g = false := by
  have hct := h.kept.count f.obj h.lt_made
  have hsp : s.carriers f.obj =
      others.countP (fun g => g.obj = f.obj && s.carried g) + 1 := by
    rw [carriers, h.before.countP_eq]
    simp [hcarries]
  have hnone : others.countP (fun g => g.obj = f.obj && s.carried g) = 0 := by
    omega
  simpa [hobj] using countP_eq_zero.mp hnone g hg

theorem others_cases (hg : g ∈ others) :
    (s'.heap g.obj = s.heap g.obj ∧ s'.handed g.obj g.acq = s.handed g.obj g.acq ∧
        ∀ m ∈ e.marks, ¬ m.Recycles g.obj g.acq) ∨
      s.carried g = false ∧ s'.handed g.obj g.acq = s.handed g.obj g.acq := by
  by_cases hobj : g.obj = f.obj
  · cases hcarries : s.carried f with
    | false =>
      obtain ⟨hheap, -, hmks⟩ := h.of_stale hcarries
      refine .inl ⟨by rw [hobj, hheap], ?_, hobj ▸ (hmks g.acq).2⟩
      rw [h.handed, hobj, (hmks g.acq).1, Bool.or_false]
    | true =>
      have hstl := h.others_stale hcarries hg hobj
      refine .inr ⟨hstl, ?_⟩
      rw [h.handed, (carries_false.mp hstl).2]
      rfl
  · obtain ⟨hhan, hmks⟩ := h.elsewhere g.acq hobj
    refine .inl ⟨h.heap_of_ne _ hobj, ?_, hmks⟩
    rw [h.handed, hhan, Bool.or_false]

theorem carries_of_new (hg : g ∈ e.holders) (hcarries : s'.carried g = true) :
    s.carried f = true := by
  by_contra hnot
  have hct : _ = if s.carried f then 1 else 0 := h.does.carries h.isEvent h.fits h.one h.stale
  rw [if_neg hnot] at hct
  have hzero := countP_eq_zero.mp (Nat.eq_zero_of_add_eq_zero_right hct) g hg
  rw [carried, (h.does.same g hg).1, (h.does.same g hg).2, h.handed] at hcarries
  exact hzero hcarries

theorem fits_step : ∀ g ∈ s'.holders, g.Fits (s'.heap g.obj) (s'.handed g.obj g.acq) := by
  intro g hg
  rcases h.mem_cases hg with hg | hg
  · have hnew := h.does.fits h.isEvent h.fits h.one h.stale g hg
    rw [(h.does.same g hg).1, (h.does.same g hg).2, h.heap_self, h.handed]
    exact hnew
  have hold := h.kept.fits g (h.mem_others hg)
  rcases h.others_cases hg with ⟨hheap, hhan, -⟩ | ⟨hstl, hhan⟩
  · rw [hheap, hhan]
    exact hold
  rw [hhan]
  exact hold.of_stale hstl

section

variable (hg : g ∈ s'.holders) (hcarries : s'.carried g = true)

include hg hcarries

theorem carrier_cases : (g ∈ e.holders ∧ s.carried f = true) ∨
      (g ∈ s.holders ∧ s.carried g = true ∧ s'.heap g.obj = s.heap g.obj ∧
        ∀ m ∈ e.marks, ¬ m.Recycles g.obj g.acq) := by
  rcases h.mem_cases hg with hg | hg
  · exact .inl ⟨hg, h.carries_of_new hg hcarries⟩
  rcases h.others_cases hg with ⟨hheap, hhan, hmks⟩ | ⟨hstl, hhan⟩
  · exact .inr ⟨h.mem_others hg, by rwa [carried, hhan] at hcarries, hheap, hmks⟩
  rw [carried, hhan, ← carried, hstl] at hcarries
  cases hcarries

theorem latest_step : s'.cur g.obj = g.acq := by
  rw [h.cur]
  rcases h.carrier_cases hg hcarries with ⟨hg, hf⟩ | ⟨hg, hold, -⟩
  · rw [(h.does.same g hg).1, (h.does.same g hg).2]
    exact h.kept.latest f h.mem hf
  · exact h.kept.latest g hg hold

theorem intact_step (hinta : g.phase.intact = true) (entry : Entry χ δ) (obj : ℕ)
    (hcall : s'.calls[g.acq]? = some (entry, obj)) : (s'.heap g.obj).seen = entry.wanted n := by
  rw [h.calls] at hcall
  rcases h.carrier_cases hg hcarries with ⟨hg, hf⟩ | ⟨hg, hold, hheap, -⟩
  · rw [(h.does.same g hg).2] at hcall
    rw [(h.does.same g hg).1, h.heap_self]
    rcases h.does.intact h.isEvent h.fits g hg hinta with ⟨hph, hseen⟩ | ⟨entry', hsrc, hfill⟩
    · rw [hseen]
      exact h.kept.intact f h.mem hf hph entry obj hcall
    obtain ⟨known, hkn, hent⟩ := h.known
    rw [hkn] at hcall
    cases hcall
    obtain rfl := hent entry' hsrc
    rw [hfill]
    exact Entry.seen_fill n (h.kept.calls _ _ _ hkn).2.1 h.isEvent
  · rw [hheap]
    exact h.kept.intact g hg hold hinta entry obj hcall

theorem waits_step (hph : g.phase.recycles = false) : ∀ m ∈ s'.log, ¬ m.Recycles g.obj g.acq := by
  intro m hm
  rw [h.log] at hm
  rcases h.carrier_cases hg hcarries with ⟨hg, hf⟩ | ⟨hg, hold, -, hmks⟩
  · rw [(h.does.same g hg).1, (h.does.same g hg).2]
    have hnot : ¬ (f.phase.recycles = true ∨ ∃ m ∈ e.marks, m.Recycles f.obj (s.cur f.obj)) :=
      fun hrec => by
        rw [h.does.recycling h.isEvent h.fits hrec g hg] at hph
        cases hph
    rcases mem_append.mp hm with hm | hm
    · exact h.kept.waits f h.mem hf (Bool.eq_false_iff.mpr fun hf => hnot (.inl hf)) m hm
    rw [← h.kept.latest f h.mem hf]
    exact fun hrec => hnot (.inr ⟨m, hm, hrec⟩)
  · rcases mem_append.mp hm with hm | hm
    · exact h.kept.waits g hg hold hph m hm
    · exact hmks m hm

end

theorem carriers_of_ne {obj : ℕ} (hobj : obj ≠ f.obj) : s'.carriers obj = s.carriers obj := by
  have hnew : e.holders.countP (fun g => g.obj = obj && s'.carried g) = 0 :=
    countP_eq_zero.mpr fun g hg => by simp [(h.does.same g hg).1, hobj.symm]
  rw [carriers, carriers, h.before.countP_eq, h.after.countP_eq, countP_append, hnew,
    Nat.zero_add, countP_cons_of_neg (by simp [hobj.symm])]
  refine countP_congr fun g hg => ?_
  by_cases hg' : g.obj = obj
  · rw [carried, h.handed, hg', (h.elsewhere g.acq hobj).1, Bool.or_false, carried, hg']
  · simp [hg']

theorem carriers_self : s'.carriers f.obj + e.marks.countP (Mark.isPut f.obj (s.cur f.obj)) =
    s.carriers f.obj := by
  have hct : _ = if s.carried f then 1 else 0 := h.does.carries h.isEvent h.fits h.one h.stale
  have hnew : e.holders.countP (fun g => g.obj = f.obj && s'.carried g) =
      e.holders.countP (carries
        (s.handed f.obj f.acq || e.marks.any (Mark.isHanded f.obj f.acq))) :=
    countP_congr fun g hg => by
      rw [carried, (h.does.same g hg).1, (h.does.same g hg).2, h.handed]
      simp
  have hoths : others.countP (fun g => g.obj = f.obj && s'.carried g) =
      others.countP (fun g => g.obj = f.obj && s.carried g) :=
    countP_congr fun g hg => by
      rcases h.others_cases hg with ⟨-, hhan, -⟩ | ⟨-, hhan⟩ <;> rw [carried, hhan, carried]
  have hold : s.carriers f.obj = others.countP (fun g => g.obj = f.obj &&
      s.carried g) + if s.carried f then 1 else 0 := by
    rw [carriers, h.before.countP_eq, countP_cons]
    simp
  rw [carriers, h.after.countP_eq, countP_append]
  omega

theorem puts_of_ne {obj acq : ℕ} (hne : obj = f.obj → acq ≠ s.cur f.obj) :
    s'.puts obj acq = s.puts obj acq := by
  rw [h.puts, (h.does.marks_elsewhere obj acq hne).1]
  rfl

theorem count_step : ∀ obj < s'.made, s'.carriers obj + s'.puts obj (s'.cur obj) = 1 := by
  intro obj hobj
  rw [h.made] at hobj
  have hold := h.kept.count obj hobj
  rw [h.cur]
  by_cases hne : obj = f.obj
  · subst hne
    have hself := h.carriers_self
    rw [h.puts]
    omega
  rw [h.carriers_of_ne hne, h.puts_of_ne fun ho => absurd ho hne]
  exact hold

theorem idle_step : ∀ obj < s'.made, s'.carriers obj = 0 →
    (s'.heap obj).version = 0 ∧ (s'.heap obj).actor = none := by
  intro obj hobj hnone
  rw [h.made] at hobj
  by_cases hne : obj = f.obj
  · subst hne
    have hself := h.carriers_self
    by_cases hput : e.marks.countP (Mark.isPut f.obj (s.cur f.obj)) = 0
    · have hbef : s.carriers f.obj = 0 := by omega
      -- the frame that moves is not the one the object is with
      have hstl : s.carried f = false := by
        have hzero := countP_eq_zero.mp hbef f h.mem
        simpa using hzero
      rw [(h.of_stale hstl).1]
      exact h.kept.idle f.obj hobj hbef
    · obtain ⟨hph, hwri, -⟩ := h.does.puts (.inr hput)
      rw [h.heap_self]
      have hfits := h.fits
      unfold Fits at hfits
      cases hcall : f.call <;> simp_all [Phase.FitsHandle, Phase.FitsActor]
  · rw [h.heap_of_ne obj hne]
    exact h.kept.idle obj hobj ((h.carriers_of_ne hne).symm.trans hnone)

theorem once_step (obj acq : ℕ) : s'.puts obj acq ≤ 1 := by
  by_cases hlat : obj = f.obj ∧ acq = s.cur f.obj
  · have hct := h.count_step f.obj (h.made.symm ▸ h.lt_made)
    rw [h.cur] at hct
    rw [hlat.1, hlat.2]
    omega
  rw [h.puts_of_ne fun ho ha => hlat ⟨ho, ha⟩]
  exact h.kept.once obj acq

theorem calls_step (acq obj : ℕ) (entry : Entry χ δ) (hcall : s'.calls[acq]? = some (entry, obj)) :
    obj < s'.made ∧ entry.isRequest = false ∧ (s'.cur obj = acq ∨ s'.puts obj acq = 1) := by
  rw [h.calls] at hcall
  obtain ⟨hmade, heve, hrest⟩ := h.kept.calls acq obj entry hcall
  rw [h.made, h.cur]
  refine ⟨hmade, heve, hrest.imp_right fun hput => ?_⟩
  have hle := h.once_step obj acq
  have hmono := h.puts obj acq
  omega

theorem pool_step : s'.pool.Nodup ∧ ∀ obj ∈ s'.pool, obj < s'.made ∧ s'.carriers obj = 0 := by
  rw [h.pool, h.made]
  have hkeep : ∀ obj ∈ s.pool, obj < s.made ∧ s'.carriers obj = 0 := fun obj hobj => by
    obtain ⟨hmade, hnone⟩ := h.kept.pool obj hobj
    refine ⟨hmade, ?_⟩
    by_cases hne : obj = f.obj
    · subst hne
      have hself := h.carriers_self
      omega
    · rw [h.carriers_of_ne hne, hnone]
  split
  · rename_i hput
    obtain ⟨-, -, hmks⟩ := h.does.puts (.inl hput)
    have hself := h.carriers_self
    have hone : e.marks.countP (Mark.isPut f.obj (s.cur f.obj)) = 1 := by
      simp [hmks, Mark.isPut]
    have hct := h.kept.count f.obj h.lt_made
    refine ⟨nodup_cons.mpr ⟨fun hin => ?_, h.kept.nodup⟩, fun obj hobj => ?_⟩
    · have hnone := (h.kept.pool f.obj hin).2
      omega
    · rcases mem_cons.mp hobj with rfl | hobj
      · exact ⟨h.lt_made, by omega⟩
      · exact hkeep obj hobj
  · exact ⟨h.kept.nodup, hkeep⟩

theorem unborn_step (obj acq : ℕ) (hacq : s'.calls.length ≤ acq) :
    s'.handed obj acq = false ∧ ∀ m ∈ s'.log, ¬ m.Recycles obj acq := by
  rw [h.calls] at hacq
  obtain ⟨hhan, hlog⟩ := h.kept.unborn obj acq hacq
  obtain ⟨_, hkn, -⟩ := h.known
  have hborn : f.acq ≠ acq :=
    Nat.ne_of_lt ((List.getElem?_eq_some_iff.mp hkn).1.trans_le hacq)
  -- the marks name the acquisition of the frame, which is the latest if it recycles
  have hmks : e.marks.any (Mark.isHanded obj acq) = false ∧
    ∀ m ∈ e.marks, ¬ m.Recycles obj acq := by
    by_cases hne : obj = f.obj
    · subst hne
      cases hcarries : s.carried f with
      | false => exact (h.of_stale hcarries).2.2 acq
      | true =>
        have hlat := h.kept.latest f h.mem hcarries
        refine ⟨any_eq_false.mpr fun m hm => ?_, fun m hm => ?_⟩ <;>
          rcases h.does.marks m hm with rfl | rfl | rfl | ⟨actor, rfl⟩ | rfl <;>
          simp [Mark.isHanded, Mark.Recycles, hlat, hborn]
    · exact h.elsewhere acq hne
  refine ⟨by rw [h.handed, hhan, hmks.1]; rfl, fun m hm => ?_⟩
  rw [h.log] at hm
  exact (mem_append.mp hm).elim (hlog m) (hmks.2 m)

theorem saw_step : ∀ before m after, s'.log = before ++ m :: after →
    SawRight n s'.calls before m := by
  rw [h.log, h.calls]
  rcases h.does.marks_cases with hmks | ⟨m, hmks⟩
  · rw [hmks, append_nil]
    exact h.kept.saw
  rw [hmks]
  refine saw_append h.kept.saw ?_
  cases m with
  | saw call obj acq seen actor =>
    obtain ⟨rfl, rfl, rfl, rfl, rfl, code, hph⟩ := h.does.saw (hmks ▸ mem_singleton_self _)
    have hfits := h.fits
    obtain ⟨entry, hkn, -⟩ := h.known
    have hseen (hcarries : s.carried f = true) :
        (s.heap f.obj).seen = entry.wanted n :=
      h.kept.intact f h.mem hcarries (by rw [hph]; rfl) entry f.obj hkn
    cases hcall : f.call with
    | actor a =>
      simp only [Fits, hcall, hph] at hfits
      exact ⟨hfits.2.2.2.2, entry, hkn, hseen (by simp [carried, carries, hcall, Call.isHandle])⟩
    | handle =>
      simp only [Fits, hcall, hph] at hfits
      intro hfr
      exact ⟨(hfits.2.2 hfr).2, entry, hkn, hseen (by
        rw [carried, carries, State.handed, hfr, Bool.and_false]
        rfl)⟩
    | _ => trivial
  | _ => trivial

theorem kept_step (hsea : Seated s'.threads) : s'.Kept n where
  seated := hsea
  known g hg := by
    rw [h.calls]
    rcases h.mem_cases hg with hg | hg
    · obtain ⟨entry, hkn, hent⟩ := h.known
      rw [(h.does.same g hg).1, (h.does.same g hg).2]
      exact ⟨entry, hkn, fun entry' hcall => hent entry' (h.does.source g hg hcall)⟩
    · exact h.kept.known g (h.mem_others hg)
  calls := h.calls_step
  event obj hobj := by
    rw [h.made] at hobj
    by_cases hne : obj = f.obj
    · rw [hne, h.heap_self, h.does.isRequest]
      exact h.isEvent
    rw [h.heap_of_ne obj hne]
    exact h.kept.event obj hobj
  fits := h.fits_step
  latest _ hg := h.latest_step hg
  intact _ hg := h.intact_step hg
  waits _ hg := h.waits_step hg
  count := h.count_step
  idle := h.idle_step
  nodup := h.pool_step.1
  pool := h.pool_step.2
  unborn := h.unborn_step
  once := h.once_step
  saw := h.saw_step

end Turn

theorem Seated.set {ts : List (Thread Role (Frame χ δ))}
    {stack : List (Frame χ δ)} (h : Seated ts) (ht : ts[i]? = some t) (hlen : stack.length ≤ 1)
    (hcall : i ≠ 0 → ∀ g ∈ stack, g.call ≠ .handle) : Seated (ts.set i ⟨t.role, stack⟩) := by
  intro j u hu
  by_cases hij : i = j
  · subst hij
    rw [getElem?_set_self (List.getElem?_eq_some_iff.mp ht).1] at hu
    cases hu
    exact ⟨hlen, fun hne => ⟨((h i t ht).2 hne).1, hcall hne⟩⟩
  rw [getElem?_set_ne hij] at hu
  exact h j u hu

theorem kept_act {choice : Choice} {f : Frame χ δ}
    {rest others : List (Frame χ δ)} {e : Effect χ δ φ} (hs : s.Kept n)
    (ht : s.threads[i]? = some t) (hstk : t.stack = f :: rest)
    (hdoes : Does n f (s.heap f.obj) (s.cur f.obj) choice e)
    (hbef : s.holders.Perm (f :: others))
    (haft : (s.apply i t rest f.obj e).holders.Perm (e.holders ++ others))
    (hone : OneActor choice (s.handed f.obj f.acq)) : (s.apply i t rest f.obj e).Kept n := by
  have hf : f ∈ s.holders := hbef.mem_iff.mpr mem_cons_self
  have hturn : Turn n s (s.apply i t rest f.obj e) f others choice e := {
    kept := hs
    does := hdoes
    before := hbef
    after := haft
    one := hone
    stale := stale_version hs ht hstk hf
    heap_self := heap_apply_self
    heap_of_ne := fun _ => heap_apply_of_ne
    log := rfl
    pool := rfl
    made := rfl
    calls := rfl
    cur := rfl }
  obtain ⟨hlen, hrole⟩ := hs.seated i t ht
  rw [hstk] at hlen
  obtain rfl : rest = [] := eq_nil_of_length_eq_zero (by simpa using hlen)
  obtain ⟨hwor, hfrs, hcs⟩ := hdoes.seats hturn.isEvent hone
  refine hturn.kept_step ?_
  have hthrs : (s.apply i t [] f.obj e).threads = s.threads.set i ⟨t.role, e.frames⟩ := by
    simp [apply, hwor]
  rw [hthrs]
  refine hs.seated.set ht hfrs fun hne g hg => ?_
  rw [hcs g hg]
  exact (hrole hne).2 f (by simp [hstk])

theorem kept_received {chan : Chan} {l : Letter}
    (hs : s.Kept n) (ht : s.threads[i]? = some t) (hrec : receives t.role chan = true)
    (hchan : l.chan = chan) (hsame : (s.received i t l).holders.Perm s.holders) :
    (s.received i t l).Kept n := by
  have hcar (obj : ℕ) : (s.received i t l).carriers obj = s.carriers obj := hsame.countP_eq _
  exact {
    seated := by
      refine hs.seated.set ht (Nat.le_refl 1) fun hne g hg => ?_
      obtain rfl := mem_singleton.mp hg
      have hrole := ((hs.seated i t ht).2 hne).1
      -- only the goroutine of the node receives requests and events
      subst hchan
      obtain ⟨chan, obj, acq⟩ := l
      cases chan with
      | mailbox actor => exact nofun
      | _ => cases hr : t.role <;> simp_all [receives]
    known := fun g hg => hs.known g (hsame.mem_iff.mp hg)
    calls := hs.calls
    event := hs.event
    fits := fun g hg => hs.fits g (hsame.mem_iff.mp hg)
    latest := fun g hg => hs.latest g (hsame.mem_iff.mp hg)
    intact := fun g hg => hs.intact g (hsame.mem_iff.mp hg)
    waits := fun g hg => hs.waits g (hsame.mem_iff.mp hg)
    count := fun obj hobj => by
      rw [hcar]
      exact hs.count obj hobj
    idle := fun obj hobj hnone => hs.idle obj hobj (hcar obj ▸ hnone)
    nodup := hs.nodup
    pool := fun obj hobj => by
      rw [hcar]
      exact hs.pool obj hobj
    unborn := hs.unborn
    once := hs.once
    saw := hs.saw }

theorem getElem?_snoc {α : Type} {l : List α} {x y : α} (h : (l ++ [x])[i]? = some y) :
    l[i]? = some y ∨ i = l.length ∧ y = x := by
  rw [getElem?_append] at h
  split at h
  · exact .inl h
  obtain ⟨hi, rfl⟩ := List.getElem?_eq_some_iff.mp h
  rw [length_singleton] at hi
  exact .inr ⟨by omega, getElem_singleton hi⟩

structure Free (s s₁ : State χ δ φ) (obj : ℕ) : Prop where
  none : s.carriers obj = 0
  version : (s₁.heap obj).version = 0
  actor : (s₁.heap obj).actor = Option.none
  event : (s₁.heap obj).isRequest = false
  heap : ∀ o ≠ obj, s₁.heap o = s.heap o
  made : ∀ o, o < s₁.made ↔ o < s.made ∨ o = obj
  nodup : s₁.pool.Nodup
  pool : ∀ o ∈ s₁.pool, o ∈ s.pool ∧ o ≠ obj
  threads : s₁.threads = s.threads
  letters : s₁.letters = s.letters
  log : s₁.log = s.log
  calls : s₁.calls = s.calls
  cur : s₁.cur = s.cur

def opening (s : State χ δ φ) (entry : Entry χ δ) (obj : ℕ) : Frame χ δ :=
  ⟨.source entry, obj, s.calls.length, 0, .filling⟩

namespace Free

variable {s₁ : State χ δ φ} {obj : ℕ} (h : Free s s₁ obj) (entry : Entry χ δ)

include h

theorem holders : (s₁.acquired entry obj).holders.Perm (s.opening entry obj :: s.holders) := by
  have hsame : s₁.holders = s.holders := by
    rw [State.holders, State.holders, h.threads, h.letters]
  have hopen := holders_acquired (s := s₁) entry obj
  rwa [hsame, h.calls] at hopen

theorem handed (o acq : ℕ) : (s₁.acquired entry obj).handed o acq = s.handed o acq := by
  rw [State.handed, State.handed, ← h.log]
  rfl

theorem puts (o acq : ℕ) : (s₁.acquired entry obj).puts o acq = s.puts o acq := by
  rw [State.puts, State.puts, ← h.log]
  rfl

theorem carried (f : Frame χ δ) : (s₁.acquired entry obj).carried f = s.carried f := by
  rw [State.carried, h.handed, State.carried]

theorem carriers (o : ℕ) : (s₁.acquired entry obj).carriers o =
    s.carriers o + if obj = o then 1 else 0 := by
  have hnew : s.carried (s.opening entry obj) = true := by
    simp [State.carried, opening, carries, Call.isHandle]
  simp only [State.carriers, h.carried entry]
  rw [(h.holders entry).countP_eq, countP_cons, hnew]
  by_cases hobj : obj = o <;> simp [opening, hobj]

theorem cur_self : (s₁.acquired entry obj).cur obj = s.calls.length := by
  rw [← h.calls]
  exact update_self ..

theorem cur_of_ne {o : ℕ} (hne : o ≠ obj) : (s₁.acquired entry obj).cur o = s.cur o := by
  rw [← h.cur]
  exact update_of_ne hne ..

theorem allCalls : (s₁.acquired entry obj).calls = s.calls ++ [(entry, obj)] := by
  rw [← h.calls]
  rfl

theorem carries_ne {g : Frame χ δ} (hg : g ∈ s.holders) (hcarries : s.carried g = true) :
    g.obj ≠ obj := by
  intro hobj
  have hzero := countP_eq_zero.mp h.none g hg
  simp [hobj] at hzero hcarries
  simp [hzero] at hcarries

theorem kept (hs : s.Kept n) (hent : entry.isRequest = false) : (s₁.acquired entry obj).Kept n := by
  have hcas : ∀ g ∈ (s₁.acquired entry obj).holders, g = s.opening entry obj ∨ g ∈ s.holders :=
    fun g hg => mem_cons.mp ((h.holders entry).mem_iff.mp hg)
  have hborn := hs.unborn obj s.calls.length (Nat.le_refl _)
  have hlog : (s₁.acquired entry obj).log = s.log := h.log
  have hheap : (s₁.acquired entry obj).heap = s₁.heap := rfl
  have hnew : (s₁.acquired entry obj).calls[s.calls.length]? = some (entry, obj) := by
    rw [h.allCalls, getElem?_append_right (Nat.le_refl _), Nat.sub_self]
    rfl
  have hold {acq : ℕ} {call : Entry χ δ × ℕ} (hcall : s.calls[acq]? = some call) :
      (s₁.acquired entry obj).calls[acq]? = some call := by
    rw [h.allCalls, getElem?_append_left (List.getElem?_eq_some_iff.mp hcall).1, hcall]
  have hputs : s.puts obj s.calls.length = 0 :=
    countP_eq_zero.mpr fun m hm hput => hborn.2 m hm (by
      cases m <;> simp [Mark.isPut] at hput
      exact hput)
  exact {
    seated := fun i t ht => by
      have ht : (s₁.threads ++ [⟨.source, [⟨.source entry, obj, s₁.calls.length, 0,
        .filling⟩]⟩])[i]? =
        some t := ht
      rw [h.threads] at ht
      rcases getElem?_snoc ht with hold | ⟨-, rfl⟩
      · exact hs.seated i t hold
      refine ⟨Nat.le_refl 1, fun _ => ⟨(fun hrole => by cases hrole), fun f hf => ?_⟩⟩
      obtain rfl := mem_singleton.mp hf
      exact fun hcall => by cases hcall
    known := fun g hg => by
      rcases hcas g hg with rfl | hg
      · exact ⟨entry, hnew, fun _ hcall => (Call.source.inj hcall).symm⟩
      obtain ⟨known, hkn, hsrc⟩ := hs.known g hg
      exact ⟨known, hold hkn, hsrc⟩
    calls := fun acq o call hcall => by
      rw [h.puts]
      rw [h.allCalls] at hcall
      rcases getElem?_snoc hcall with hcall | ⟨hacq, hlast⟩
      · obtain ⟨hmade, heve, hrest⟩ := hs.calls acq o call hcall
        refine ⟨(h.made o).mpr (.inl hmade), heve, ?_⟩
        by_cases hne : o = obj
        · -- the earlier acquisitions of the object are over
          subst hne
          have hct := hs.count o hmade
          rw [h.none, Nat.zero_add] at hct
          exact .inr (hrest.elim (fun hcur => hcur ▸ hct) id)
        · rw [h.cur_of_ne entry hne]
          exact hrest
      · cases hlast
        exact ⟨(h.made obj).mpr (.inr rfl), hent, .inl ((h.cur_self entry).trans hacq.symm)⟩
    event := fun o ho => by
      rw [hheap]
      by_cases hne : o = obj
      · rw [hne]
        exact h.event
      rw [h.heap o hne]
      exact hs.event o (((h.made o).mp ho).resolve_right hne)
    fits := fun g hg => by
      rw [h.handed, hheap]
      rcases hcas g hg with rfl | hg
      · exact ⟨hent, .inl rfl, hborn.1, h.version, h.actor⟩
      have hfits := hs.fits g hg
      by_cases hne : g.obj = obj
      · -- only frames that have handed the object on are left
        refine hfits.of_stale (Bool.eq_false_iff.mpr fun hcarries => ?_)
        exact h.carries_ne hg hcarries hne
      rw [h.heap _ hne]
      exact hfits
    latest := fun g hg hcarries => by
      rw [h.carried] at hcarries
      rcases hcas g hg with rfl | hg
      · exact h.cur_self entry
      rw [h.cur_of_ne entry (h.carries_ne hg hcarries)]
      exact hs.latest g hg hcarries
    intact := fun g hg hcarries hinta known o hcall => by
      rw [h.carried] at hcarries
      rcases hcas g hg with rfl | hg
      · cases hinta
      obtain ⟨known', hkn, -⟩ := hs.known g hg
      rw [hold hkn] at hcall
      cases hcall
      rw [hheap, h.heap _ (h.carries_ne hg hcarries)]
      exact hs.intact g hg hcarries hinta known g.obj hkn
    waits := fun g hg hcarries hph => by
      rw [h.carried] at hcarries
      rw [hlog]
      rcases hcas g hg with rfl | hg
      · exact hborn.2
      · exact hs.waits g hg hcarries hph
    count := fun o ho => by
      rw [h.carriers, h.puts]
      by_cases hne : o = obj
      · subst hne
        rw [h.none, h.cur_self, hputs]
        simp
      rw [if_neg (Ne.symm hne), h.cur_of_ne entry hne]
      exact hs.count o (((h.made o).mp ho).resolve_right hne)
    idle := fun o ho hnone => by
      rw [h.carriers] at hnone
      by_cases hne : o = obj
      · subst hne
        simp at hnone
      rw [hheap, h.heap o hne]
      exact hs.idle o (((h.made o).mp ho).resolve_right hne) (by omega)
    nodup := h.nodup
    pool := fun o ho => by
      obtain ⟨hpool, hne⟩ := h.pool o ho
      obtain ⟨hmade, hnone⟩ := hs.pool o hpool
      rw [h.carriers, hnone, if_neg (Ne.symm hne)]
      exact ⟨(h.made o).mpr (.inl hmade), rfl⟩
    unborn := fun o acq hacq => by
      rw [h.allCalls, length_append] at hacq
      rw [h.handed, hlog]
      exact hs.unborn o acq (Nat.le_of_succ_le hacq)
    once := fun o acq => by
      rw [h.puts]
      exact hs.once o acq
    saw := fun before m after hsp => by
      rw [hlog] at hsp
      rw [h.allCalls]
      exact (hs.saw before m after hsp).mono }

end Free

theorem free_reuse (hs : s.Kept n) {obj : ℕ} (hpool : obj ∈ s.pool) :
    Free s { s with pool := s.pool.erase obj } obj := by
  obtain ⟨hmade, hnone⟩ := hs.pool obj hpool
  obtain ⟨hver, hact⟩ := hs.idle obj hmade hnone
  exact {
    none := hnone
    version := hver
    actor := hact
    event := hs.event obj hmade
    heap := fun _ _ => rfl
    made := fun o => ⟨.inl, fun h => h.elim id fun heq => heq ▸ hmade⟩
    nodup := hs.nodup.erase obj
    pool := fun o ho => ((hs.nodup.mem_erase_iff).mp ho).symm
    threads := rfl
    letters := rfl
    log := rfl
    calls := rfl
    cur := rfl }

theorem free_make (hs : s.Kept n) {entry : Entry χ δ} (hent : entry.isRequest = false) :
    Free s { s with heap := update s.heap s.made entry.new, made := s.made + 1 } s.made := by
  have hnew : update s.heap s.made entry.new s.made = .event Event.new := by
    rw [update_self, Entry.new, hent]
    rfl
  have hlt : ∀ f ∈ s.holders, f.obj < s.made := fun f hf =>
    have ⟨_, hkn, _⟩ := hs.known f hf
    (hs.calls _ _ _ hkn).1
  exact {
    none := countP_eq_zero.mpr fun f hf => by
      simp [Nat.ne_of_lt (hlt f hf)]
    version := congrArg Context.version hnew
    actor := congrArg Context.actor hnew
    event := congrArg Context.isRequest hnew
    heap := fun _ hne => update_of_ne hne ..
    made := fun o => Nat.lt_succ_iff_lt_or_eq
    nodup := hs.nodup
    pool := fun o ho => ⟨ho, Nat.ne_of_lt (hs.pool o ho).1⟩
    threads := rfl
    letters := rfl
    log := rfl
    calls := rfl
    cur := rfl }

theorem kept_move {act : Act χ δ} (hs : s.Kept n) (hgd : s.handsOnce act = true)
    (h : Move n s act s') : s'.Kept n := by
  cases h with
  | act ht hstk hdoes hbef haft =>
    exact kept_act hs ht hstk hdoes hbef haft (oneActor_step ht hstk hgd)
  | receive ht hidle hrec hl hchan hsame => exact kept_received hs ht hrec hchan hsame
  | reuse entry obj hpool hkind =>
    exact (free_reuse hs hpool).kept entry hs (Bool.not_eq_true' _ ▸ hgd)
  | make entry =>
    have hent : entry.isRequest = false := Bool.not_eq_true' _ ▸ hgd
    exact (free_make hs hent).kept entry hs hent

theorem kept_init (actors : ℕ) : (init actors : State χ δ φ).Kept n where
  seated i t ht := by
    cases i with
    | zero =>
      cases ht
      exact ⟨Nat.zero_le 1, fun hne => absurd rfl hne⟩
    | succ i =>
      obtain ⟨a, -, rfl⟩ := mem_map.mp (mem_of_getElem? ht)
      exact ⟨Nat.zero_le 1, fun _ => ⟨nofun, fun _ hf => absurd hf not_mem_nil⟩⟩
  known := by simp [holders_init]
  calls := by simp [init]
  event := by simp [init]
  fits := by simp [holders_init]
  latest := by simp [holders_init]
  intact := by simp [holders_init]
  waits := by simp [holders_init]
  count := by simp [init]
  idle := by simp [init]
  nodup := by simp [init]
  pool := by simp [init]
  unborn := by simp [init, handed]
  once := by simp [init, puts]
  saw := by simp [init]

/-- In every run in which each event is handed on to one actor at most, the events are delivered. -/
theorem events_delivered (n : Config χ δ ε) (actors : ℕ) (acts : List (Act χ δ)) (s : State χ δ φ)
    (h : Run (guardedRel (step n) handsOnce) (init actors) acts s) : s.Delivered n := by
  refine Kept.delivered (run_states (Kept n) (kept_init actors) ?_ h)
  intro s act s' hs hgd hnext
  exact kept_move hs hgd (move_of_next hnext)

def triggered (source : ℕ) (obj : Option ℕ) : List (Act ℕ ℕ) :=
  [.call (.trigger 1 "gate-1" 7 100 ⟨100, 4⟩) obj, .step source .go, .step source .go,
    .receive 0 .evtChan, .step 0 .go]

def recycledEvent (thread : ℕ) : List (Act ℕ ℕ) :=
  [.step thread .ret, .step thread .go, .step thread .ret, .step thread .go, .step thread .go,
    .step thread .go]

def onePasses : List (Act ℕ ℕ) :=
  triggered 2 none ++ [.step 0 (.next [0]), .step 0 .go, .step 0 .go, .step 0 .go,
    .receive 1 (.mailbox 0), .step 1 .go, .step 1 .look] ++ recycledEvent 1 ++
    [.call (.trigger 2 "gate-2" 8 200 0) (some 0), .step 0 .ret, .step 0 .go, .step 0 .go]

theorem onePasses_isSome :
    (exec (step (φ := ℕ) bare) handsOnce (init 1) onePasses).isSome = true := rfl

theorem onePasses_delivered :
    let s := ((exec (step (φ := ℕ) bare) handsOnce (init 1) onePasses).get onePasses_isSome).2
    s.puts 0 0 = 1 ∧ s.cur 0 = 1 ∧ s.Delivered bare :=
  ⟨by decide +kernel, by decide +kernel,
    events_delivered bare 1 _ _ (run_of_exec _ onePasses_isSome)⟩

/-- The event is passed on to two actors, which both load the latest version; the first one returns
while the other still is in its handler. -/
def twoPass : List (Act ℕ ℕ) :=
  triggered 3 none ++ [.step 0 (.next [0, 1]), .step 0 .go, .step 0 .go, .step 0 .go, .step 0 .go,
    .step 0 .go, .step 0 .go, .receive 1 (.mailbox 0), .step 1 .go, .receive 2 (.mailbox 1),
    .step 2 .go, .step 1 .look] ++ recycledEvent 1 ++ [.step 2 .look]

/-- The event is put back under the handler of the second actor, which then sees no token and no
actor; the handler of the first has seen the second actor as the current one. -/
theorem event_recycled_under_handler :
    ¬ ∀ acts s, Run (guardedRel (step (φ := ℕ) bare) fun _ _ => true) (init 2) acts s →
      s.Delivered bare := by
  intro h
  have hdeli := h _ _ (run_of_exec twoPass rfl)
  exact hdeli.waits ⟨.actor 1, 0, 0, 3, .running .handler⟩ (by decide +kernel) 1 rfl rfl
    (.put 0 0 0) (by decide +kernel) ⟨rfl, rfl⟩

end State

end DueServer.Node
