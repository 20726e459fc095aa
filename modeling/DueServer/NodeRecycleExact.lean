import DueServer.NodeRecycleSteps

/-! When a pooled context goes back to its pool: at most once for each acquisition, and only by a
frame of that acquisition, as long as nobody works on a context that has been recycled. -/
namespace DueServer.Node

open Lib List Node.Frame Function Effect Mark Phase

variable {χ δ φ ε : Type}

namespace Mark

def Own : Mark χ δ → Prop
  | reset _ acq cur => acq = cur
  | put _ acq cur => acq = cur
  | _ => True

end Mark

namespace State

/-- Each acquisition is followed by one `Put` at most, and no recycling on behalf of an earlier
acquisition resets the object or puts it back. -/
structure Exact (s : State χ δ φ) : Prop where
  once (obj acq : ℕ) : s.puts obj acq ≤ 1
  own : ∀ m ∈ s.log, m.Own

def live (s : State χ δ φ) (obj : ℕ) : Bool := s.wins obj (s.cur obj) = 0

end State

namespace Frame

def bumps (f : Frame χ δ) : Choice → Bool
  | .go =>
    match f.phase with
    | .entering => true
    | .bumping .. => true
    | _ => false
  | .task => true
  | .skip => true
  | .middleware => true
  | _ => false

end Frame

namespace State

/-- A pooled object is acquired only when no goroutine or channel has it from an earlier
acquisition, and versions are incremented (not to 0) and loaded only for a context that has not
been recycled since its latest acquisition. -/
def orderly (s : State χ δ φ) : Act χ δ → Bool
  | .call _ (some obj) => s.holders.all (·.obj ≠ obj)
  | .step i choice =>
    match s.threads[i]? with
    | some ⟨_, f :: _⟩ =>
      (!f.bumps choice || s.live f.obj && (s.heap f.obj).version + 1 ≠ 0) &&
        (f.phase ≠ .loading || s.live f.obj)
    | _ => true
  | _ => true

end State

namespace Phase

def recycles : Phase → Bool
  | running code => code = .post
  | storing _ _ back => back = some .post
  | bumping _ _ back => back = some .post
  | mailing _ _ back => back = some .post
  | resetting => true
  | putting => true
  | _ => false

def versioned : Phase → Bool
  | running _ => true
  | storing _ _ back => back.isSome
  | bumping _ _ back => back.isSome
  | mailing _ _ back => back.isSome
  | deferring => true
  | comparing => true
  | _ => false

def bumped : Phase → Bool
  | mailing .. => true
  | loading => true
  | _ => false

theorem of_next (back : Option Code) (actors : List ℕ) :
    (nextPhase back actors).recycles = decide (back = some .post) ∧
      (nextPhase back actors).versioned = back.isSome ∧ (nextPhase back actors).bumped = false := by
  rcases actors with _ | ⟨actor, rest⟩
  · rcases back with _ | code
    · exact ⟨rfl, rfl, rfl⟩
    · simp [nextPhase, recycles, versioned, bumped]
  · exact ⟨rfl, rfl, rfl⟩

theorem of_entry (entry : Entry χ δ) : entry.phase.recycles = false ∧
    entry.phase.versioned = false ∧ entry.phase.bumped = false := by
  cases entry <;> exact ⟨rfl, rfl, rfl⟩

theorem of_letter (l : Letter) : (l.frame : Frame χ δ).phase.recycles = false ∧
    (l.frame : Frame χ δ).phase.versioned = false := by
  unfold Letter.frame
  split <;> exact ⟨rfl, rfl⟩

end Phase

def recyclesObj (obj : ℕ) (f : Frame χ δ) : Bool := f.obj = obj && f.phase.recycles

namespace Does

variable {n : Config χ δ ε} {f : Frame χ δ} {c : Context χ δ φ} {cur : ℕ} {choice : Choice}
  {e : Effect χ δ φ}

section

variable (h : Does n f c cur choice e)

include h

theorem recycles : e.holders.countP (recyclesObj f.obj) + e.marks.countP (isPut f.obj cur) =
      [f].countP (recyclesObj f.obj) + e.marks.countP (isWon f.obj cur) := by
  cases h with
  | win hph =>
    cases c.isRequest <;>
      simp [holders, recyclesObj, hph, recycles, isPut, isWon]
  | fill entry hcall hph =>
    simp [holders, recyclesObj, of_entry, hph]
    rfl
  | queue entry hcall hph =>
    simp [holders, recyclesObj, of_letter, hph]
    rfl
  | hand code hph =>
    simp [holders, recyclesObj, of_next, hph]
    simp [recycles]
  | mail actor rest back hph =>
    simp [holders, recyclesObj, of_next, of_letter,
      hph, countP_cons, isPut, isWon]
    simp [recycles]
  | _ =>
    simp_all [holders, recyclesObj, Frame.inner, recycles, countP_cons,
      isPut, isWon]

theorem version : (e.marks.countP (isWon f.obj cur) = 0 ∧ ((e.write c).version = c.version ∨
        f.bumps choice = true ∧ (e.write c).version = c.version + 1)) ∨
      (e.write c).version = 0 ∧ f.phase.versioned = true ∧ c.version = f.version ∧
        e.marks = [.won f.obj f.acq cur] := by
  cases h <;> simp_all [bumps, versioned, isWon]

theorem versioned (hset : f.phase.versioned = true → f.version ≠ 0)
    (hbum : f.bumps choice = true → c.version + 1 ≠ 0)
    (hload : f.phase = .loading → c.version ≠ 0) :
    ∀ g ∈ e.holders, g.phase.versioned = true → g.version ≠ 0 := by
  cases h with
  | win =>
    cases c.isRequest <;> simp_all [holders, versioned]
  | fill => simp [holders, of_entry]
  | queue => simp [holders, of_letter]
  | mail actor rest back hph =>
    rw [hph] at hset
    have hback : back.isSome = true → f.version ≠ 0 := hset
    simpa [holders, of_next, of_letter] using hback
  | _ => simp_all [holders, versioned, Frame.inner, bumps]

theorem bumped : ∀ g ∈ e.holders, g.phase.bumped = true →
      f.phase.bumped = true ∨ f.bumps choice = true ∧ (e.write c).version = c.version + 1 := by
  cases h with
  | win => cases c.isRequest <;> simp [holders, bumped]
  | fill => simp [holders, of_entry]
  | queue entry =>
    cases entry <;> simp [holders, Entry.chan, Letter.frame, bumped]
  | hand => simp [holders, of_next]
  | mail actor rest back hph => simp [hph, bumped]
  | _ => simp_all [holders, bumped, bumps]

end

end Does

namespace State

variable {n : Config χ δ ε} {s s' : State χ δ φ}

def recyclers (s : State χ δ φ) (obj : ℕ) : ℕ := s.holders.countP (recyclesObj obj)

/-- Whoever has an object has it from its latest acquisition; of that acquisition there is one
swap at most, after which the version is 0, and each swap is a recycling that goes on or a `Put`. -/
structure Sound (s : State χ δ φ) : Prop where
  latest : ∀ f ∈ s.holders, s.cur f.obj = f.acq ∧ f.obj < s.made ∧ f.acq < s.calls.length
  pool : ∀ obj ∈ s.pool, obj < s.made
  version : ∀ f ∈ s.holders, f.phase.versioned = true → f.version ≠ 0
  bumped : ∀ f ∈ s.holders, f.phase.bumped = true → s.live f.obj = true →
    (s.heap f.obj).version ≠ 0
  count (obj : ℕ) : s.recyclers obj + s.puts obj (s.cur obj) = s.wins obj (s.cur obj)
  once (obj : ℕ) : s.wins obj (s.cur obj) ≤ 1
  zero (obj : ℕ) : (s.heap obj).version ≠ 0 → s.wins obj (s.cur obj) = 0
  unborn (obj acq : ℕ) : s.calls.length ≤ acq → s.puts obj acq = 0 ∧ s.wins obj acq = 0
  exact : s.Exact

theorem sound_init (actors : ℕ) : (init actors : State χ δ φ).Sound where
  latest := by simp [holders_init]
  pool := by simp [init]
  version := by simp [holders_init]
  bumped := by simp [holders_init]
  count obj := by
    rw [recyclers, holders_init]
    rfl
  once := by simp [wins, init]
  zero := by simp [wins, init]
  unborn := by simp [puts, wins, init]
  exact := ⟨by simp [puts, init], by simp [init]⟩

section Act

variable {i : ℕ} {choice : Choice} {t : Thread Role (Frame χ δ)} {f : Frame χ δ}
  {rest others : List (Frame χ δ)} {e : Effect χ δ φ}

section

variable (h : Does n f (s.heap f.obj) (s.cur f.obj) choice e)
  (hbefore : s.holders.Perm (f :: others))
  (hafter : (s.apply i t rest f.obj e).holders.Perm (e.holders ++ others))

include h hbefore hafter

theorem recyclers_apply :
    (s.apply i t rest f.obj e).recyclers f.obj + e.marks.countP (isPut f.obj (s.cur f.obj)) =
      s.recyclers f.obj + e.marks.countP (isWon f.obj (s.cur f.obj)) := by
  have hsp : s.recyclers f.obj = [f].countP (recyclesObj f.obj) +
      others.countP (recyclesObj f.obj) := by
    rw [recyclers, hbefore.countP_eq, ← countP_append, singleton_append]
  have hsp' : (s.apply i t rest f.obj e).recyclers f.obj =
      e.holders.countP (recyclesObj f.obj) + others.countP (recyclesObj f.obj) :=
    (hafter.countP_eq _).trans countP_append
  have hstep := h.recycles
  omega

theorem recyclers_elsewhere {obj : ℕ} (hne : obj ≠ f.obj) :
    (s.apply i t rest f.obj e).recyclers obj = s.recyclers obj := by
  have hnew : e.holders.countP (recyclesObj obj) = 0 := by
    rw [countP_eq_zero]
    intro g hg
    simp [recyclesObj, (h.same g hg).1, hne.symm]
  rw [recyclers, recyclers, hbefore.countP_eq, hafter.countP_eq, countP_append, hnew]
  simp [recyclesObj, hne.symm]

end

structure Orderly (s : State χ δ φ) (f : Frame χ δ) (choice : Choice) : Prop where
  bump : f.bumps choice = true → s.live f.obj = true ∧ (s.heap f.obj).version + 1 ≠ 0
  load : f.phase = .loading → s.live f.obj = true

theorem orderly_step (ht : s.threads[i]? = some t) (hstk : t.stack = f :: rest)
    (h : s.orderly (.step i choice) = true) : s.Orderly f choice := by
  obtain ⟨role, stack⟩ := t
  obtain rfl : stack = f :: rest := hstk
  simp only [orderly, ht, Bool.and_eq_true, Bool.or_eq_true,
    decide_eq_true_eq] at h
  refine ⟨fun hbum => ?_, fun hload => ?_⟩
  · rcases h.1 with hno | hyes
    · rw [hbum] at hno
      cases hno
    · exact hyes
  · exact h.2.resolve_left fun hne => hne hload

theorem wins_act (hs : s.Sound) (hf : f ∈ s.holders)
    (h : Does n f (s.heap f.obj) (s.cur f.obj) choice e) (hgd : s.Orderly f choice) :
    s.wins f.obj (s.cur f.obj) + e.marks.countP (isWon f.obj (s.cur f.obj)) ≤ 1 ∧
      ((e.write (s.heap f.obj)).version ≠ 0 →
        s.wins f.obj (s.cur f.obj) + e.marks.countP (isWon f.obj (s.cur f.obj)) = 0) := by
  have honce := hs.once f.obj
  rcases h.version with ⟨hwon, hkept | ⟨hbum, -⟩⟩ | ⟨hzero, hver, hequ, hmks⟩
  · rw [hwon, hkept]
    exact ⟨honce, hs.zero f.obj⟩
  · have hlive : s.wins f.obj (s.cur f.obj) = 0 := of_decide_eq_true (hgd.bump hbum).1
    rw [hwon, hlive]
    exact ⟨Nat.zero_le 1, fun _ => rfl⟩
  -- the frame swaps a version other than 0, so nobody did before
  have hbefore : s.wins f.obj (s.cur f.obj) = 0 :=
    hs.zero f.obj (hequ ▸ hs.version f hf hver)
  rw [hbefore, hmks, hzero]
  exact ⟨by simp [isWon], fun hne => absurd rfl hne⟩

theorem loadable_act (h : Does n f (s.heap f.obj) (s.cur f.obj) choice e)
    (hgd : s.Orderly f choice) {obj : ℕ}
    (hold : s.live obj = true → (s.heap obj).version ≠ 0)
    (hlive : (s.apply i t rest f.obj e).live obj = true) :
    ((s.apply i t rest f.obj e).heap obj).version ≠ 0 := by
  have hzero : s.wins obj (s.cur obj) + e.marks.countP (isWon obj (s.cur obj)) = 0 :=
    (wins_apply obj _).symm.trans (of_decide_eq_true hlive)
  have hbefore := hold (decide_eq_true (Nat.eq_zero_of_add_eq_zero_right hzero))
  by_cases hobj : obj = f.obj
  · subst hobj
    rw [heap_apply_self]
    rcases h.version with ⟨-, hkept | ⟨hbum, hbump⟩⟩ | ⟨-, -, -, hmks⟩
    · rw [hkept]
      exact hbefore
    · rw [hbump]
      exact (hgd.bump hbum).2
    rw [hmks] at hzero
    simp [isWon] at hzero
  · rw [heap_apply_of_ne hobj]
    exact hbefore

theorem exact_act (hs : s.Sound) (hf : f ∈ s.holders)
    (h : Does n f (s.heap f.obj) (s.cur f.obj) choice e)
    (hputs : (s.apply i t rest f.obj e).puts f.obj (s.cur f.obj) ≤ 1) :
    (s.apply i t rest f.obj e).Exact where
  once obj acq := by
    by_cases hlat : obj = f.obj ∧ acq = s.cur f.obj
    · rw [hlat.1, hlat.2]
      exact hputs
    have hmks := h.marks_elsewhere obj acq fun ho ha => hlat ⟨ho, ha⟩
    rw [puts_apply, hmks.1]
    exact hs.exact.once obj acq
  own m hm := by
    rcases mem_append.mp hm with hm | hm
    · exact hs.exact.own m hm
    have hacq := (hs.latest f hf).1
    rcases h.marks m hm with rfl | rfl | rfl | ⟨actor, rfl⟩ | rfl
    · trivial
    · exact hacq.symm
    · exact hacq.symm
    · trivial
    · trivial

theorem sound_act (hs : s.Sound) (h : Does n f (s.heap f.obj) (s.cur f.obj) choice e)
    (hbefore : s.holders.Perm (f :: others))
    (hafter : (s.apply i t rest f.obj e).holders.Perm (e.holders ++ others))
    (hgd : s.Orderly f choice) : (s.apply i t rest f.obj e).Sound := by
  have hf : f ∈ s.holders := hbefore.mem_iff.mpr mem_cons_self
  have hcas : ∀ g ∈ (s.apply i t rest f.obj e).holders, g ∈ e.holders ∨ g ∈ s.holders :=
    fun g hg => (mem_append.mp (hafter.mem_iff.mp hg)).imp_right fun hg =>
      hbefore.mem_iff.mpr (mem_cons_of_mem f hg)
  have hwins := wins_act hs hf h hgd
  have hct (obj : ℕ) : (s.apply i t rest f.obj e).recyclers obj +
      (s.apply i t rest f.obj e).puts obj (s.cur obj) =
        (s.apply i t rest f.obj e).wins obj (s.cur obj) := by
    have hold := hs.count obj
    by_cases hobj : obj = f.obj
    · subst hobj
      have hrec := recyclers_apply h hbefore hafter
      rw [puts_apply, wins_apply]
      omega
    have hmks := h.marks_elsewhere obj (s.cur obj) fun ho => absurd ho hobj
    rw [puts_apply, wins_apply, recyclers_elsewhere h hbefore hafter hobj, hmks.1, hmks.2]
    exact hold
  exact {
    latest := fun g hg => by
      rcases hcas g hg with hg | hg
      · rw [(h.same g hg).1, (h.same g hg).2]
        exact hs.latest f hf
      · exact hs.latest g hg
    pool := fun obj hobj => by
      rcases mem_pool_apply hobj with ⟨rfl, -⟩ | hobj
      · exact (hs.latest f hf).2.1
      · exact hs.pool obj hobj
    version := fun g hg => by
      rcases hcas g hg with hg | hg
      · have hload : f.phase = .loading → (s.heap f.obj).version ≠ 0 := fun hph =>
          hs.bumped f hf (by rw [hph]; rfl) (hgd.load hph)
        exact h.versioned (hs.version f hf) (fun hbum => (hgd.bump hbum).2) hload g hg
      · exact hs.version g hg
    bumped := fun g hg hph => by
      rcases hcas g hg with hg | hg
      · rw [(h.same g hg).1]
        rcases h.bumped g hg hph with hph | ⟨hbum, hver⟩
        · exact loadable_act h hgd (hs.bumped f hf hph)
        intro _
        rw [heap_apply_self, hver]
        exact (hgd.bump hbum).2
      · exact loadable_act h hgd (hs.bumped g hg hph)
    count := hct
    once := fun obj => by
      by_cases hobj : obj = f.obj
      · subst hobj
        rw [wins_apply]
        exact hwins.1
      rw [wins_apply, (h.marks_elsewhere obj _ fun ho => absurd ho hobj).2]
      exact hs.once obj
    zero := fun obj => by
      by_cases hobj : obj = f.obj
      · subst hobj
        rw [heap_apply_self, wins_apply]
        exact hwins.2
      rw [heap_apply_of_ne hobj, wins_apply, (h.marks_elsewhere obj _ fun ho => absurd ho hobj).2]
      exact hs.zero obj
    unborn := fun obj acq hacq => by
      obtain ⟨hlat, -, hborn⟩ := hs.latest f hf
      have hne : acq ≠ s.cur f.obj := fun hequ => by
        rw [hequ, hlat] at hacq
        exact absurd hborn (Nat.not_lt.mpr hacq)
      have hmks := h.marks_elsewhere obj acq fun _ => hne
      rw [puts_apply, wins_apply, hmks.1, hmks.2]
      exact hs.unborn obj acq hacq
    exact := exact_act hs hf h (by
      have htot := hct f.obj
      rw [wins_apply] at htot
      omega) }

end Act

theorem sound_same (hs : s.Sound) (hhol : s'.holders.Perm s.holders) (hheap : s'.heap = s.heap)
    (hmade : s'.made = s.made) (hpool : ∀ obj ∈ s'.pool, obj ∈ s.pool) (hlog : s'.log = s.log)
    (hcs : s'.calls = s.calls) (hcur : s'.cur = s.cur) : s'.Sound := by
  have hlive : s'.live = s.live := by
    funext obj
    rw [live, live, wins, wins, hlog, hcur]
  exact {
    latest := fun g hg => by
      rw [hcur, hmade, hcs]
      exact hs.latest g (hhol.mem_iff.mp hg)
    pool := fun obj hobj => hmade ▸ hs.pool obj (hpool obj hobj)
    version := fun g hg => hs.version g (hhol.mem_iff.mp hg)
    bumped := fun g hg => by
      rw [hlive, hheap]
      exact hs.bumped g (hhol.mem_iff.mp hg)
    count := fun obj => by
      rw [recyclers, hhol.countP_eq, puts, wins, hlog, hcur]
      exact hs.count obj
    once := fun obj => by
      rw [wins, hlog, hcur]
      exact hs.once obj
    zero := fun obj => by
      rw [hheap, wins, hlog, hcur]
      exact hs.zero obj
    unborn := fun obj acq => by
      rw [hcs, puts, wins, hlog]
      exact hs.unborn obj acq
    exact := ⟨fun obj acq => by
      rw [puts, hlog]
      exact hs.exact.once obj acq, hlog ▸ hs.exact.own⟩ }

theorem sound_acquired (hs : s.Sound) (entry : Entry χ δ) {obj : ℕ} (hmade : obj < s.made)
    (hfree : ∀ f ∈ s.holders, f.obj ≠ obj) : (s.acquired entry obj).Sound := by
  have hhol := holders_acquired (s := s) entry obj
  have hcas : ∀ g ∈ (s.acquired entry obj).holders,
      g = ⟨.source entry, obj, s.calls.length, 0, .filling⟩ ∨ g ∈ s.holders :=
    fun g hg => mem_cons.mp (hhol.mem_iff.mp hg)
  have hcur {o : ℕ} (hne : o ≠ obj) : (s.acquired entry obj).cur o = s.cur o :=
    update_of_ne hne ..
  have hself : (s.acquired entry obj).cur obj = s.calls.length := update_self ..
  have hlen : (s.acquired entry obj).calls.length = s.calls.length + 1 := length_append
  have hborn := hs.unborn obj s.calls.length (Nat.le_refl _)
  have hlive {o : ℕ} (hne : o ≠ obj) : (s.acquired entry obj).live o = s.live o := by
    rw [live, hcur hne]
    rfl
  have hrec (o : ℕ) : (s.acquired entry obj).recyclers o = s.recyclers o := by
    rw [recyclers, recyclers, hhol.countP_eq]
    simp [recyclesObj, recycles]
  exact {
    latest := fun g hg => by
      rw [hlen]
      rcases hcas g hg with rfl | hg
      · exact ⟨hself, hmade, Nat.lt_succ_self _⟩
      obtain ⟨hlat, hobj, hacq⟩ := hs.latest g hg
      exact ⟨(hcur (hfree g hg)).trans hlat, hobj, Nat.lt_succ_of_lt hacq⟩
    pool := hs.pool
    version := fun g hg hver => by
      rcases hcas g hg with rfl | hg
      · cases hver
      · exact hs.version g hg hver
    bumped := fun g hg hbum => by
      rcases hcas g hg with rfl | hg
      · cases hbum
      rw [hlive (hfree g hg)]
      exact hs.bumped g hg hbum
    count := fun o => by
      rw [hrec]
      by_cases ho : o = obj
      · subst ho
        -- nobody recycles an object that nobody has
        have hnone : s.recyclers o = 0 := countP_eq_zero.mpr fun f hf => by
          simp [recyclesObj, hfree f hf]
        rw [hself, hnone]
        exact (Nat.zero_add _).trans (hborn.1.trans hborn.2.symm)
      · rw [hcur ho]
        exact hs.count o
    once := fun o => by
      by_cases ho : o = obj
      · subst ho
        rw [hself]
        exact hborn.2.trans_le (Nat.zero_le 1)
      rw [hcur ho]
      exact hs.once o
    zero := fun o hvers => by
      by_cases ho : o = obj
      · subst ho
        rw [hself]
        exact hborn.2
      rw [hcur ho]
      exact hs.zero o hvers
    unborn := fun o acq hacq => by
      rw [hlen] at hacq
      exact hs.unborn o acq (Nat.le_of_succ_le hacq)
    exact := ⟨hs.exact.once, hs.exact.own⟩ }

theorem sound_made (hs : s.Sound) {new : Context χ δ φ} (hnew : new.version = 0) :
    Sound { s with heap := update s.heap s.made new, made := s.made + 1 } where
  latest f hf :=
    have hold := hs.latest f hf
    ⟨hold.1, Nat.lt_succ_of_lt hold.2.1, hold.2.2⟩
  pool obj hobj := Nat.lt_succ_of_lt (hs.pool obj hobj)
  version := hs.version
  bumped f hf hbum hlive := by
    have hold := hs.bumped f hf hbum hlive
    have hkept : update s.heap s.made new f.obj = s.heap f.obj :=
      update_of_ne (Nat.ne_of_lt (hs.latest f hf).2.1) ..
    rwa [← hkept] at hold
  count := hs.count
  once := hs.once
  zero obj hver := by
    have hver : (update s.heap s.made new obj).version ≠ 0 := hver
    by_cases hobj : obj = s.made
    · rw [hobj, update_self, hnew] at hver
      exact absurd rfl hver
    rw [update_of_ne hobj] at hver
    exact hs.zero obj hver
  unborn := hs.unborn
  exact := ⟨hs.exact.once, hs.exact.own⟩

theorem sound_step {act : Act χ δ} (hs : s.Sound) (hgd : s.orderly act = true)
    (h : Move n s act s') : s'.Sound := by
  cases h with
  | act ht hstk hdoes hbefore hafter =>
    exact sound_act hs hdoes hbefore hafter (orderly_step ht hstk hgd)
  | receive ht hidle hrec hl hchan hsame =>
    exact sound_same hs hsame rfl rfl (fun _ h => h) rfl rfl rfl
  | reuse entry obj hpool =>
    have hera : Sound { s with pool := s.pool.erase obj } :=
      sound_same hs (.refl _) rfl rfl (fun _ => mem_of_mem_erase) rfl rfl rfl
    simp only [orderly, all_eq_true, decide_eq_true_eq] at hgd
    exact sound_acquired hera entry (hs.pool obj hpool) hgd
  | make entry =>
    exact sound_acquired (sound_made hs (version_new entry)) entry (Nat.lt_succ_self _)
      fun f hf => Nat.ne_of_lt (hs.latest f hf).2.1

theorem run_sound {acts : List (Act χ δ)} {actors : ℕ}
    (h : Run (guardedRel (step n) orderly) (init actors) acts s) : s.Sound := by
  refine run_states Sound (sound_init actors) ?_ h
  intro s act s' hs hgd hnext
  exact sound_step hs hgd (move_of_next hnext)

/-- In every run that keeps to `orderly`, recycling is exact. -/
theorem recycling_exact (n : Config χ δ ε) (actors : ℕ) (acts : List (Act χ δ)) (s : State χ δ φ)
    (h : Run (guardedRel (step n) orderly) (init actors) acts s) : s.Exact :=
  (run_sound h).exact

def bare : Config ℕ ℕ Unit := ⟨"node-1", 0, .ok⟩

def handled (source : ℕ) (obj : Option ℕ) : List (Act ℕ ℕ) :=
  [.call (.deliverWithContext none "gate-1" "" "" 7 100 0 1 1 (some 5)) obj, .step source .go,
    .step source .go, .receive 0 .reqChan, .step 0 .go]

def recycled (thread : ℕ) : List (Act ℕ ℕ) :=
  [.step thread .ret, .step thread .go, .step thread .ret, .step thread .go, .step thread .ret,
    .step thread .go, .step thread .go]

def workerReturnsLast : List (Act ℕ ℕ) :=
  handled 2 none ++ [.step 0 .task, .step 0 .ret, .step 0 .go, .step 0 .go] ++ recycled 3 ++
    handled 4 (some 0) ++ recycled 0

theorem workerReturnsLast_isSome :
    (exec (step (φ := ℕ) bare) orderly (init 1) workerReturnsLast).isSome = true := rfl

theorem workerReturnsLast_exact :
    let s := ((exec (step (φ := ℕ) bare) orderly (init 1) workerReturnsLast).get
      workerReturnsLast_isSome).2
    s.puts 0 0 = 1 ∧ s.puts 0 1 = 1 ∧ s.Exact :=
  ⟨by decide +kernel, by decide +kernel,
    recycling_exact bare 1 _ _ (run_of_exec _ workerReturnsLast_isSome)⟩

/-- The worker returns before the handler that started it; `Deliver` then sends the request to an
actor with the version that the handler still has. -/
def workerReturnsFirst : List (Act ℕ ℕ) :=
  handled 2 none ++ [.step 0 .task] ++ recycled 3 ++
    [.call (.deliver 0 200 ⟨1, 2, some 6⟩) (some 0), .step 4 .go, .step 4 .go, .step 4 .go,
      .step 4 .go] ++ recycled 0

/-- The handler of the first acquisition resets the request and puts it back while it is queued for
an actor by the second. -/
theorem handler_recycles_queued_request :
    ¬ ∀ acts s, Run (guardedRel (step (φ := ℕ) bare) fun _ _ => true) (init 1) acts s →
      ∀ m ∈ s.log, ⟨.mailbox 0, 0, 1⟩ ∈ s.letters → m.Own := by
  intro h
  have hown := h _ _ (run_of_exec workerReturnsFirst rfl) (.put 0 0 1) (by decide +kernel)
    (by decide +kernel)
  exact absurd hown Nat.zero_ne_one

end State

end DueServer.Node
