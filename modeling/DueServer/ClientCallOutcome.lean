import DueServer.ClientCallRefine

/-! What becomes of the responses that are read from a connection. -/
namespace DueServer.Client

open Lib
open Lib.OneShot (Op Outcome Cells)
open Function (update update_self update_of_ne)

def Reader.call {ι : Type} : Reader ι → Option ι
  | .delivering c | .sending c | .sent c => some c
  | _ => none

def Op.isSend : Op ℕ → Bool
  | .send _ => true
  | .close => false

def Orderly (ops : List (Op ℕ)) : Prop :=
  (ops.filter Op.isSend).length ≤ 1 ∧ ops.count .close ≤ 1 ∧ ∀ b, ¬ [.close, .send b].Sublist ops

theorem orderly_of_length {ops : List (Op ℕ)} (h : ops.length ≤ 1) : Orderly ops := by
  refine ⟨Nat.le_trans (List.length_filter_le _ _) h,
    Nat.le_trans List.count_le_length h, fun b hsub => ?_⟩
  have hlen : 2 ≤ ops.length := hsub.length_le
  omega

namespace Conn

variable {ι : Type} (seq : ι → UInt64)

def settled (s : Conn ι) (b : ℕ) : ℕ := (s.outcomes.map Outcome.value).count b

def Complete [DecidableEq ι] (s : Conn ι) : Prop :=
  (∀ c, s.stepCaller seq c = none) ∧ ∀ b, s.stepReader b = none

structure Routed (s : Conn ι) : Prop where
  pending (k : UInt64) (c : ι) : s.pending k = some c → seq c = k
  bound (b : ℕ) (c : ι) : (s.responses b).reader.call = some c → (s.responses b).seq = some (seq c)

variable {seq} {s s' : Conn ι}

theorem routed_init : Routed seq ({} : Conn ι) where
  pending _ _ := nofun
  bound _ _ := nofun

theorem Routed.delete (h : Routed seq s) (k : UInt64) : Routed seq (s.delete k) where
  pending k' c hc := by
    have hc : update s.pending k none k' = some c := hc
    by_cases hk : k' = k
    · subst hk
      rw [update_self] at hc
      cases hc
    rw [update_of_ne hk] at hc
    exact h.pending k' c hc
  bound := h.bound

variable {b : ℕ} {a : Cells ι ℕ ℕ} {c : ι} {act : Action ι}

theorem Routed.setReader (h : Routed seq s) {r : Reader ι}
    (hcall : ∀ c, r.call = some c → (s.responses b).seq = some (seq c)) :
    Routed seq (s.setReader b r) where
  pending := h.pending
  bound b' c hc := by
    have hc : (update s.responses b ⟨(s.responses b).seq, r⟩ b').reader.call = some c := hc
    show (update s.responses b ⟨(s.responses b).seq, r⟩ b').seq = some (seq c)
    by_cases hb : b' = b
    · subst hb
      rw [update_self] at hc ⊢
      exact hcall c hc
    rw [update_of_ne hb] at hc ⊢
    exact h.bound b' c hc

theorem Routed.frame (h : Routed seq s) (hpend : s'.pending = s.pending)
    (hresp : s'.responses = s.responses) : Routed seq s' where
  pending := hpend ▸ h.pending
  bound := hresp ▸ h.bound

theorem refines_init : Refines ({} : Conn ι) Cells.init where
  fits _ := ⟨⟨rfl, trivial⟩, rfl, rfl⟩
  closing _ _ := iff_of_false nofun nofun
  sending _ _ := iff_of_false nofun nofun
  place _ := rfl
  outcomes := rfl

theorem seq_of_bound (h : Refines s a) (hinv : a.Inv)
    (hrou : Routed seq s) (hcell : a.cell c = .spent b) :
    (s.responses b).seq = some (seq c) := by
  have hpl : (s.responses b).reader.place = .bound c := by
    rw [← h.place, hinv.bound b c, hcell]
    rfl
  refine hrou.bound b c ?_
  cases hrd : (s.responses b).reader with
  | sending c' | sent c' =>
    rw [hrd] at hpl
    exact congrArg some (OneShot.Place.bound.inj hpl)
  | _ =>
    rw [hrd] at hpl
    cases hpl

theorem spent_of_response (h : Refines s a)
    (hcr : (s.calls c).caller = .returned (.response b)) : a.cell c = .spent b := by
  have hsta := (h.fits c).stands
  cases hcell : a.cell c <;> rw [hcell] at hsta <;>
    simp_all [Stands, Caller.Live, Caller.Fresh]

variable [DecidableEq ι]

theorem routed_callerMove (h : Routed seq s) (hmove : CallerMove seq s c s') : Routed seq s' := by
  cases hmove with
  | delete => exact (h.delete (seq c)).frame rfl rfl
  | _ => exact h.frame rfl rfl

theorem routed_writerMove {t : ℕ} (h : Routed seq s) (hmove : WriterMove seq s t s') :
    Routed seq s' := by
  cases hmove with
  | store e c hwr =>
    refine ⟨fun k c' hc => ?_, h.bound⟩
    have hc : update s.pending (seq c) (some c) k = some c' := hc
    by_cases hk : k = seq c
    · subst hk
      rw [update_self] at hc
      rw [Option.some.inj hc]
    rw [update_of_ne hk] at hc
    exact h.pending k c' hc
  | delete c hwr => exact (h.delete (seq c)).frame rfl rfl
  | _ => exact h.frame rfl rfl

theorem routed_readerMove (h : Routed seq s) (hmove : ReaderMove s b s') : Routed seq s' := by
  cases hmove with
  | unknown | lose => exact h.setReader nofun
  | extract k c hrd hseq hpend =>
    refine (h.delete k).setReader ?_
    rintro c' ⟨⟩
    exact hseq.trans (congrArg some (h.pending k c hpend).symm)
  | win c hrd =>
    have hfrm : Routed seq (s.setCall c { s.calls c with word := .delivered }) := h.frame rfl rfl
    refine hfrm.setReader ?_
    rintro c' ⟨⟩
    exact h.bound b c (by rw [hrd]; rfl)
  | send c hrd =>
    have hfrm : Routed seq (s.setCall c { s.calls c with
      chan := some b
      ops := (s.calls c).ops ++ [.send b] }) := h.frame rfl rfl
    refine hfrm.setReader ?_
    rintro c' ⟨⟩
    exact h.bound b c (by rw [hrd]; rfl)
  | release => exact Routed.frame (h.setReader (r := .released) nofun) rfl rfl

theorem routed_move (h : Routed seq s) (hmove : Move seq s act s') : Routed seq s' := by
  cases hmove with
  | caller c hmove => exact routed_callerMove h hmove
  | writer t ok hmove => exact routed_writerMove h hmove
  | reader b hmove => exact routed_readerMove h hmove
  | read b seq' hrd =>
    refine ⟨h.pending, fun b' c hc => ?_⟩
    have hc : (update s.responses b ⟨seq', .parsed⟩ b').reader.call = some c := hc
    show (update s.responses b ⟨seq', .parsed⟩ b').seq = some (seq c)
    by_cases hb : b' = b
    · subst hb
      rw [update_self] at hc
      cases hc
    rw [update_of_ne hb] at hc ⊢
    exact h.bound b' c hc
  | _ => exact h.frame rfl rfl

structure Sound (seq : ι → UInt64) (s : Conn ι) : Prop where
  held : s.Held
  routed : Routed seq s
  refines : ∃ a, Refines s a ∧ a.Inv

omit [DecidableEq ι] in
theorem sound_init : Sound seq ({} : Conn ι) :=
  ⟨held_init, routed_init, Cells.init, refines_init, Cells.inv_init⟩

theorem sound_move (h : Sound seq s) (hmove : Move seq s act s') : Sound seq s' := by
  obtain ⟨hheld, hrou, a, href, hinv⟩ := h
  obtain ⟨a', hstep, href'⟩ := refines_move href hheld hmove
  exact ⟨held_move hheld hmove, routed_move hrou hmove, a', href', Cells.inv_step hinv hstep⟩

theorem sound_of_reaches {acts : List (Action ι)} (h : Reaches seq acts s) : Sound seq s :=
  run_invariant (Sound seq) sound_init (fun _ _ _ hs _ => sound_move hs) h

section Progress

variable {a : Cells ι ℕ ℕ} {b : ℕ} {c : ι}

theorem stepCaller_of_chan (hchan : (s.calls c).chan = some b)
    (hcr : (s.calls c).caller.Live ∨ (s.calls c).caller = .receiving) :
    s.stepCaller seq c ≠ none := by
  have hrece : received (s.calls c) = some (some b) := by rw [received, hchan]
  unfold stepCaller
  simp only [hrece]
  rcases hcr with hlive | hrec
  · cases hcr : (s.calls c).caller with
    | waiting => simp
    | loading =>
      simp only
      split <;> exact Option.some_ne_none _
    | swapping sent =>
      by_cases hword : (s.calls c).word = if sent then .sent else .pending
      · exact ne_of_eq_of_ne (if_pos hword) (Option.some_ne_none _)
      · exact ne_of_eq_of_ne (if_neg hword) (Option.some_ne_none _)
    | _ =>
      rw [hcr] at hlive
      exact hlive.elim
  · rw [hrec]
    simp

theorem settled_of_complete (h : Refines s a) (hinv : a.Inv) (hcmp : Complete seq s)
    (hread : (s.responses b).reader ≠ .unread) : s.settled b = 1 := by
  have hsett : s.settled b = a.settled b := by rw [settled, Cells.settled, h.outcomes]
  have hle : a.settled b ≤ 1 := Cells.settled_le_one hinv b
  by_contra hne
  have hpl : a.place b ≠ .absent := by
    rw [h.place]
    cases hrd : (s.responses b).reader with
    | unread => exact absurd hrd hread
    | _ => exact fun h => by cases h
  rcases Cells.unsettled_cases hinv hpl (by omega) with hheld | ⟨c, hcell | hcell | hcell⟩
  · -- a reader has it
    have hstep := hcmp.2 b
    rw [h.place] at hheld
    unfold stepReader at hstep
    cases hrd : (s.responses b).reader with
    | parsed =>
      simp only [hrd] at hstep
      split at hstep
      · cases hstep
      · split at hstep <;> cases hstep
    | delivering c =>
      simp only [hrd] at hstep
      split at hstep <;> cases hstep
    | releasing =>
      simp only [hrd] at hstep
      cases hstep
    | _ =>
      rw [hrd] at hheld
      cases hheld
  · have hstep := hcmp.2 b
    have hchan : (s.calls c).chan = none := by rw [(h.fits c).chan, hcell]; rfl
    simp only [stepReader, (h.sending b c).mpr hcell, if_pos hchan] at hstep
    cases hstep
  · have hfits := h.fits c
    rw [hcell] at hfits
    exact stepCaller_of_chan hfits.chan hfits.stands.2 (hcmp.1 c)
  · have hfits := h.fits c
    rw [hcell] at hfits
    have hstep := hcmp.1 c
    simp only [stepCaller, hfits.stands.2] at hstep
    cases hstep

end Progress

/-- In every run a response is returned or released at most once, and exactly once when no caller
and no reader can go on; it is returned to a call whose number it carries, and the channel of a call
is used in order. -/
theorem call_outcome_unique (seq : ι → UInt64) {acts : List (Action ι)} {s : Conn ι}
    (h : Reaches seq acts s) :
    (∀ b, s.settled b ≤ 1) ∧
    (Complete seq s → ∀ b, (s.responses b).reader ≠ .unread → s.settled b = 1) ∧
    (∀ c b, .returned c b ∈ s.outcomes → (s.responses b).seq = some (seq c)) ∧
    (∀ c b, (s.calls c).caller = .returned (.response b) →
      (s.responses b).seq = some (seq c)) ∧
    ∀ c, Orderly (s.calls c).ops := by
  obtain ⟨-, hrou, a, href, hinv⟩ := sound_of_reaches h
  refine ⟨fun b => ?_, fun hcmp b => settled_of_complete href hinv hcmp,
    fun c b hmem => ?_, fun c b hcr => ?_, fun c => ?_⟩
  · rw [settled, ← href.outcomes]
    exact Cells.settled_le_one hinv b
  · rw [← href.outcomes] at hmem
    exact seq_of_bound href hinv hrou (hinv.returned c b hmem)
  · exact seq_of_bound href hinv hrou (spent_of_response href hcr)
  · rw [(href.fits c).ops]
    exact orderly_of_length (OneShot.Cell.length_ops_le _)

def answered : List (Action (Fin 1)) :=
  [.call 0 0, .enqueue 0, .take 0, .writer 0 true, .writer 0 true, .writer 0 true, .read 7 (some 5),
    .reader 7, .reader 7, .reader 7, .caller 0]

theorem answered_isSome :
    (exec (fun s act => Conn.step s (fun _ : Fin 1 => 5) act) (fun _ _ => true) {}
      answered).isSome = true := rfl

theorem answered_call_outcome :
    let s := ((exec (fun s act => Conn.step s (fun _ : Fin 1 => 5) act) (fun _ _ => true) {}
      answered).get answered_isSome).2
    (s.calls 0).caller = .returned (.response 7) ∧ (s.responses 7).seq = some 5 :=
  ⟨by decide +kernel, (call_outcome_unique _ (run_of_exec _ answered_isSome)).2.2.2.1 0 7
    (by decide +kernel)⟩

end Conn

end DueServer.Client
