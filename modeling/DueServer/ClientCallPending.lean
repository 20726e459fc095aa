import DueServer.ClientCallOutcome

/-! The pending table of a connection: which calls have an entry in it. -/
namespace DueServer.Client

open Lib
open Function (update update_self update_of_ne)

variable {ι : Type}

structure Single (envelopes : ℕ → Envelope ι) (writers : ℕ → Writer ι) : Prop where
  unique (e e' : ℕ) (c : ι) : (envelopes e).call = some c → (envelopes e').call = some c → e = e'
  inHand (t e : ℕ) (c : ι) : (writers t).envelope = some e → (writers t).call = some c →
    (envelopes e).call = some c
  past (t e : ℕ) (c : ι) : (writers t).envelope = none → (writers t).call = some c →
    (envelopes e).call ≠ some c

namespace Conn

/-- Where an entry of the table can be: before its message was stored there is none, and neither is
there once a reader or a failing writer has taken it out. -/
structure Tidy (seq : ι → UInt64) (s : Conn ι) : Prop where
  single : Single s.envelopes s.writers
  fresh (c : ι) : (s.calls c).caller = .idle → (∀ e, (s.envelopes e).call ≠ some c) ∧
    s.pending (seq c) ≠ some c ∧ ∀ b, (s.responses b).reader.call ≠ some c
  early (c : ι) (e : ℕ) : (s.envelopes e).call = some c → (∀ t, s.writers t ≠ .writing e c) →
    s.pending (seq c) ≠ some c ∧ ∀ b, (s.responses b).reader.call ≠ some c
  failing (t : ℕ) (c : ι) : s.writers t = .failing c → s.pending (seq c) ≠ some c
  delivering (b : ℕ) (c : ι) : (s.responses b).reader = .delivering c → s.pending (seq c) ≠ some c
  entry (c : ι) : s.pending (seq c) = some c →
    (s.calls c).word = .sent ∨ (s.calls c).caller = .deleting

variable {seq : ι → UInt64} {s s' : Conn ι}

attribute [local grind cases] Tidy Single

namespace Tidy

theorem settle (h : Tidy seq s) (o : OneShot.Outcome ι ℕ) : Tidy seq (s.settle o) :=
  ⟨h.single, h.fresh, h.early, h.failing, h.delivering, h.entry⟩

theorem delete (h : Tidy seq s) (k : UInt64) : Tidy seq (s.delete k) := by
  constructor <;> simp only [Conn.delete] <;> grind

theorem not_writing {t e : ℕ} {c : ι} {w : Writer ι} (hold : s.writers t ≠ .writing e c)
    (h : ∀ t', update s.writers t w t' ≠ .writing e c) (t' : ℕ) : s.writers t' ≠ .writing e c := by
  by_cases ht : t' = t
  · rw [ht]
    exact hold
  have hne := h t'
  rwa [update_of_ne ht] at hne

section

variable (h : Tidy seq s)

include h

theorem takeWriter {t : ℕ} {w : Writer ι}
    (hhand : ∀ e c, w.envelope = some e → w.call = some c → (s.envelopes e).call = some c)
    (hout : ∀ e c, w.envelope = none → w.call = some c → (s.envelopes e).call ≠ some c)
    (hold : ∀ e c, s.writers t ≠ .writing e c)
    (hfail : ∀ c, w = .failing c → s.pending (seq c) ≠ some c) : Tidy seq (s.setWriter t w) := by
  refine ⟨⟨h.single.unique, ?_, ?_⟩, h.fresh, ?_, ?_, h.delivering, h.entry⟩
  · simp only [Conn.setWriter]
    grind
  · simp only [Conn.setWriter]
    grind
  · exact fun c e hcall hnot => h.early c e hcall (not_writing (hold e c) hnot)
  · simp only [Conn.setWriter]
    grind

theorem setWriter {t : ℕ} {w : Writer ι} (henv : w.envelope = (s.writers t).envelope)
    (hcall : w.call = (s.writers t).call) (hold : ∀ e c, s.writers t ≠ .writing e c)
    (hfail : ∀ c, w = .failing c → s.pending (seq c) ≠ some c) : Tidy seq (s.setWriter t w) :=
  h.takeWriter (fun e c he hc => h.single.inHand t e c (henv ▸ he) (hcall ▸ hc))
    (fun e c he hc => h.single.past t e c (henv ▸ he) (hcall ▸ hc)) hold hfail

theorem idleWriter {t : ℕ} (hold : ∀ e c, s.writers t ≠ .writing e c) :
    Tidy seq (s.setWriter t .idle) :=
  h.takeWriter nofun nofun hold nofun

theorem release {t e : ℕ} {w : Writer ι} (hheld : s.Held)
    (henv : (s.writers t).envelope = some e) (hw : w.envelope = none)
    (hcall : ∀ c, w.call = some c → (s.writers t).call = some c) (hfail : ∀ c, w ≠ .failing c) :
    Tidy seq ((s.release e).setWriter t w) := by
  refine ⟨⟨?_, ?_, ?_⟩, ?_, ?_, ?_, h.delivering, h.entry⟩
  · simp only [Conn.setWriter, Conn.release]
    grind
  · -- another writer has another envelope
    have hheld' := hheld.writer
    simp only [Conn.setWriter, Conn.release]
    grind
  · simp only [Conn.setWriter, Conn.release]
    grind
  · simp only [Conn.setWriter, Conn.release]
    grind
  · intro c e' hcall' hnot
    have hcall' : (update s.envelopes e {} e').call = some c := hcall'
    by_cases he : e' = e
    · subst he
      rw [update_self] at hcall'
      cases hcall'
    rw [update_of_ne he] at hcall'
    refine h.early c e' hcall' (not_writing (fun hwtg => he ?_) hnot)
    rw [hwtg] at henv
    exact Option.some.inj henv
  · simp only [Conn.setWriter, Conn.release]
    grind

theorem setReader {b : ℕ} {r : Reader ι} {q : Option UInt64}
    (hcall : ∀ c, r.call = some c → (s.responses b).reader.call = some c)
    (hdeli : ∀ c, r ≠ .delivering c) :
    Tidy seq { s with responses := update s.responses b ⟨q, r⟩ } := by
  have hrds (c : ι) (hold : ∀ b', (s.responses b').reader.call ≠ some c) (b' : ℕ) :
      (update s.responses b ⟨q, r⟩ b').reader.call ≠ some c := by
    by_cases hb : b' = b
    · subst hb
      rw [update_self]
      exact fun hc => hold b' (hcall c hc)
    rw [update_of_ne hb]
    exact hold b'
  refine ⟨h.single, fun c hidle => ?_, fun c e he hnot => ?_, h.failing, ?_, h.entry⟩
  · obtain ⟨henv, hpend, hold⟩ := h.fresh c hidle
    exact ⟨henv, hpend, hrds c hold⟩
  · obtain ⟨hpend, hold⟩ := h.early c e he hnot
    exact ⟨hpend, hrds c hold⟩
  · grind

theorem extract {b : ℕ} {c : ι} (hpend : s.pending (seq c) = some c) :
    Tidy seq ((s.delete (seq c)).setReader b (.delivering c)) := by
  obtain ⟨hsin, hfr, hear, hfai, hdeli, hent⟩ := h.delete (seq c)
  have hrds (c' : ι) (hc : c' ≠ c) (hold : ∀ b', (s.responses b').reader.call ≠ some c')
      (b' : ℕ) :
      (update s.responses b ⟨(s.responses b).seq, .delivering c⟩ b').reader.call ≠ some c' := by
    by_cases hb : b' = b
    · subst hb
      rw [update_self]
      exact fun heq => hc (Option.some.inj heq).symm
    rw [update_of_ne hb]
    exact hold b'
  refine ⟨hsin, fun c' hidle => ?_, fun c' e he hnot => ?_, hfai, ?_, hent⟩
  · have hc : c' ≠ c := by
      rintro rfl
      exact (h.fresh c' hidle).2.1 hpend
    obtain ⟨henv, hnone, hold⟩ := hfr c' hidle
    exact ⟨henv, hnone, hrds c' hc hold⟩
  · have hc : c' ≠ c := by
      rintro rfl
      exact (h.early c' e he hnot).1 hpend
    obtain ⟨hnone, hold⟩ := hear c' e he hnot
    exact ⟨hnone, hrds c' hc hold⟩
  · intro b' c' hb'
    have hb' : (update s.responses b ⟨(s.responses b).seq, .delivering c⟩ b').reader =
      .delivering c' := hb'
    by_cases hb : b' = b
    · subst hb
      rw [update_self] at hb'
      cases hb'
      show update s.pending (seq c) none (seq c) ≠ some c
      rw [update_self]
      exact nofun
    · rw [update_of_ne hb] at hb'
      exact hdeli b' c' hb'

theorem setEnvelope (e : ℕ) (env : Envelope ι) (queue : List ℕ)
    (hcall : ∀ c, env.call = some c → (s.envelopes e).call = some c)
    (hhand : ∀ t, (s.writers t).envelope = some e → env.call = (s.envelopes e).call) :
    Tidy seq { s with envelopes := update s.envelopes e env, queue := queue } := by
  refine ⟨⟨?_, ?_, ?_⟩, fun c hidle => ?_, fun c e' he hnot => ?_, h.failing, h.delivering, h.entry⟩
  all_goals grind

end

variable [DecidableEq ι]

theorem setCall {c : ι} {call : CallState} (h : Tidy seq s)
    (hcr : call.caller = .idle → (s.calls c).caller = .idle)
    (hcall : s.pending (seq c) = some c → call.word = .sent ∨ call.caller = .deleting) :
    Tidy seq (s.setCall c call) := by
  refine ⟨h.single, ?_, h.early, h.failing, h.delivering, ?_⟩
  · simp only [Conn.setCall]
    grind
  · simp only [Conn.setCall]
    grind

theorem store {t e : ℕ} {c : ι} (hseq : Function.Injective seq) (h : Tidy seq s) (hheld : s.Held)
    (hwr : s.writers t = .storing e c)
    (hcall : (s.calls c).word = .sent ∨ (s.calls c).caller = .deleting) :
    Tidy seq ({ s with pending := update s.pending (seq c) (some c) }.setWriter t
      (.writing e c)) := by
  have hcal : (s.envelopes e).call = some c :=
    h.single.inHand t e c (by rw [hwr]; rfl) (by rw [hwr]; rfl)
  -- nobody else writes this message, so it was not stored before
  have hhd : (s.envelopes e).holder = .writer t := hheld.writer t e (by rw [hwr]; rfl)
  have hnot : ∀ t', s.writers t' ≠ .writing e c := by
    intro t' ht'
    have hhd' : (s.envelopes e).holder = .writer t' := hheld.writer t' e (by rw [ht']; rfl)
    rw [hhd] at hhd'
    cases hhd'
    rw [hwr] at ht'
    cases ht'
  obtain ⟨-, hrds⟩ := h.early c e hcal hnot
  have hoth : ∀ c', c' ≠ c → update s.pending (seq c) (some c) (seq c') = s.pending (seq c') :=
    fun c' hc => update_of_ne (fun hk => hc (hseq hk)) ..
  have hkept {c' : ι} (hc : c' ≠ c) (hold : s.pending (seq c') ≠ some c') :
      update s.pending (seq c) (some c) (seq c') ≠ some c' := by rwa [hoth c' hc]
  refine ⟨⟨h.single.unique, ?_, ?_⟩, ?_, ?_, ?_, ?_, ?_⟩
  · simp only [Conn.setWriter]
    grind [Writer.envelope, Writer.call]
  · simp only [Conn.setWriter]
    grind [Writer.envelope, Writer.call]
  · intro c' hidle
    have hc : c' ≠ c := by
      rintro rfl
      exact (h.fresh c' hidle).1 e hcal
    obtain ⟨henv, hold, hrds⟩ := h.fresh c' hidle
    exact ⟨henv, hkept hc hold, hrds⟩
  · intro c' e' hcall' hnot'
    have hc : c' ≠ c := by
      rintro rfl
      have he : e' = e := h.single.unique e' e c' hcall' hcal
      subst he
      exact hnot' t (update_self ..)
    refine (h.early c' e' hcall' (not_writing ?_ hnot')).imp_left (hkept hc)
    rw [hwr]
    exact fun h => by cases h
  · intro t' c' hfl
    have hw : update s.writers t (.writing e c) t' = .failing c' := hfl
    have ht : t' ≠ t := by
      rintro rfl
      rw [update_self] at hw
      cases hw
    rw [update_of_ne ht] at hw
    have hc : c' ≠ c := by
      rintro rfl
      exact h.single.past t' e c' (by rw [hw]; rfl) (by rw [hw]; rfl) hcal
    exact hkept hc (h.failing t' c' hw)
  · intro b c' hb
    have hc : c' ≠ c := by
      rintro rfl
      have hb : (s.responses b).reader = .delivering c' := hb
      exact hrds b (by rw [hb]; rfl)
    exact hkept hc (h.delivering b c' hb)
  · intro c' hc'
    have hc' : update s.pending (seq c) (some c) (seq c') = some c' := hc'
    by_cases hc : c' = c
    · subst hc
      exact hcall
    rw [hoth c' hc] at hc'
    exact h.entry c' hc'

theorem setCall_word {c : ι} {call : CallState} (h : Tidy seq s)
    (hword : call.word = (s.calls c).word) (hcr : call.caller ≠ .idle)
    (hold : (s.calls c).caller ≠ .deleting) : Tidy seq (s.setCall c call) := by
  refine h.setCall (fun hidle => absurd hidle hcr) fun hpend => ?_
  rw [hword]
  exact .inl ((h.entry c hpend).resolve_right hold)

theorem call {c : ι} {e : ℕ} (h : Tidy seq s) (hheld : s.Held)
    (hcr : (s.calls c).caller = .idle) (hpool : (s.envelopes e).holder = .pool) :
    Tidy seq { s.setCaller c (.sending e) with
      envelopes := update s.envelopes e ⟨some c, .sender⟩ } := by
  have hset : Tidy seq (s.setCaller c (.sending e)) :=
    h.setCall_word rfl nofun (by rw [hcr]; exact nofun)
  obtain ⟨henv, hpend, hrds⟩ := h.fresh c hcr
  have hque (t : ℕ) : (s.writers t).call ≠ some c := by
    intro ht
    have hq := hheld.called t c ht
    rw [hcr] at hq
    exact hq
  have hhand (t : ℕ) : (s.writers t).envelope ≠ some e := by
    intro ht
    rw [hheld.writer t e ht] at hpool
    cases hpool
  obtain ⟨⟨huni, hinH, hpast⟩, hfr, hear, hfai, hdeli, hent⟩ := hset
  have hwri : (s.setCaller c (.sending e)).writers = s.writers := rfl
  have henvs : (s.setCaller c (.sending e)).envelopes = s.envelopes := rfl
  refine ⟨⟨?_, ?_, ?_⟩, fun c' hidle => ?_, fun c' e' he hnot => ?_, hfai, hdeli, hent⟩
  · grind
  · simp only [hwri] at hinH ⊢
    grind
  · simp only [hwri] at hpast ⊢
    grind
  · have hc : c' ≠ c := by
      rintro rfl
      have hidle : (update s.calls c' _ c').caller = .idle := hidle
      rw [update_self] at hidle
      cases hidle
    have hnone := (hfr c' hidle).1
    rw [henvs] at hnone
    grind
  · by_cases hc : c' = c
    · subst hc
      exact ⟨hpend, hrds⟩
    · refine hear c' e' ?_ hnot
      grind

end Tidy

variable [DecidableEq ι]

theorem tidy_callerMove {c : ι} (h : Tidy seq s) (hmove : CallerMove seq s c s') : Tidy seq s' := by
  cases hmove with
  | receive b hcr =>
    have hset : Tidy seq (s.setCall c { s.calls c with
        chan := none
        caller := .returned (.response b) }) :=
      h.setCall_word rfl nofun (by rw [hcr]; exact nofun)
    exact hset.settle _
  | hang hcr | load sent hcr | loadDelivered hcr | loadOver hcr
  | again sent hcr | take b hcr | takeClosed hcr =>
    exact h.setCall_word rfl nofun (by rw [hcr]; exact nofun)
  | cancelPending hcr hword =>
    refine h.setCall nofun fun hpend => ?_
    rcases h.entry c hpend with hsent | hdele
    · rw [hword] at hsent
      cases hsent
    rw [hcr] at hdele
    cases hdele
  | cancelSent => exact h.setCall nofun fun _ => .inr rfl
  | delete =>
    refine (h.delete (seq c)).setCall nofun fun hpend => ?_
    have hpend : update s.pending (seq c) none (seq c) = some c := hpend
    rw [update_self] at hpend
    cases hpend
  | release b hcr =>
    have hset : Tidy seq (s.setCaller c (.returned .canceled)) :=
      h.setCall_word rfl nofun (by rw [hcr]; exact nofun)
    exact hset.settle _

/-- A writer whose `pending.store`, if it is next, finds the call waiting for its response or about
to delete the entry. -/
theorem tidy_writerMove {t : ℕ} (hseq : Function.Injective seq) (h : Tidy seq s) (hheld : s.Held)
    (hpro : ∀ e c, s.writers t = .storing e c →
      (s.calls c).word = .sent ∨ (s.calls c).caller = .deleting)
    (hmove : WriterMove seq s t s') : Tidy seq s' := by
  cases hmove with
  | swap e c hwr =>
    have hset : Tidy seq (s.setCall c { s.calls c with word := .sent }) :=
      h.setCall id fun _ => .inl rfl
    have hwr' : (s.setCall c { s.calls c with word := .sent }).writers t = .swapping e c := hwr
    exact hset.setWriter (by rw [hwr']; rfl) (by rw [hwr']; rfl)
      (by rw [hwr']; exact fun _ _ h => by cases h) (fun _ h => by cases h)
  | skip e c hwr =>
    exact h.release hheld (by rw [hwr]; rfl) rfl (fun _ h => by cases h) (fun _ h => by cases h)
  | store e c hwr => exact h.store hseq hheld hwr (hpro e c hwr)
  | write e c ok hwr =>
    refine h.release hheld (by rw [hwr]; rfl) ?_ ?_ ?_
    · cases ok <;> rfl
    · rw [hwr]
      cases ok
      · exact fun _ => id
      · exact fun _ h => by cases h
    · cases ok <;> exact fun _ h => by cases h
  | delete c hwr =>
    have hwr' : (s.delete (seq c)).writers t = .deleting c := hwr
    refine (h.delete (seq c)).setWriter (by rw [hwr']; rfl) (by rw [hwr']; rfl)
      (by rw [hwr']; exact fun _ _ h => by cases h) ?_
    rintro c' ⟨⟩ hpend
    have hpend : update s.pending (seq c) none (seq c) = some c := hpend
    rw [update_self] at hpend
    cases hpend
  | fail c hwr =>
    have hset : Tidy seq (s.setCall c { s.calls c with word := .failed }) :=
      h.setCall id fun hpend => absurd hpend (h.failing t c hwr)
    have hwr' : (s.setCall c { s.calls c with word := .failed }).writers t = .failing c := hwr
    exact hset.setWriter (by rw [hwr']; rfl) (by rw [hwr']; rfl)
      (by rw [hwr']; exact fun _ _ h => by cases h) (fun _ h => by cases h)
  | late c hwr => exact h.idleWriter (by rw [hwr]; exact fun _ _ h => by cases h)
  | close c hwr =>
    have hset : Tidy seq (s.setCall c { s.calls c with ops := (s.calls c).ops ++ [.close] }) :=
      h.setCall id (h.entry c)
    exact hset.idleWriter (by rw [setCall, hwr]; exact fun _ _ h => by cases h)

theorem tidy_readerMove {b : ℕ} (h : Tidy seq s) (hrou : Routed seq s)
    (hmove : ReaderMove s b s') : Tidy seq s' := by
  cases hmove with
  | unknown | lose => exact h.setReader (fun _ h => by cases h) (fun _ h => by cases h)
  | extract k c hrd hseq hpend =>
    obtain rfl := hrou.pending k c hpend
    exact h.extract hpend
  | win c hrd =>
    have hset : Tidy seq (s.setCall c { s.calls c with word := .delivered }) :=
      h.setCall id fun hpend => absurd hpend (h.delivering b c hrd)
    refine hset.setReader ?_ (fun _ h => by cases h)
    rw [setCall, hrd]
    exact fun _ => id
  | send c hrd =>
    have hset : Tidy seq (s.setCall c { s.calls c with
        chan := some b
        ops := (s.calls c).ops ++ [.send b] }) := h.setCall id (h.entry c)
    refine hset.setReader ?_ (fun _ h => by cases h)
    rw [setCall, hrd]
    exact fun _ => id
  | release =>
    exact Tidy.settle (h.setReader (fun _ h => by cases h) (fun _ h => by cases h)) _

/-- `pending.store` finds the call in the state sent, or its `cancel` before `pending.delete`. -/
def prompt (s : Conn ι) : Action ι → Bool
  | .writer t _ =>
    match s.writers t with
    | .storing _ c => (s.calls c).word == .sent || (s.calls c).caller == .deleting
    | _ => true
  | _ => true

theorem tidy_move {act : Action ι} (hseq : Function.Injective seq) (h : Tidy seq s)
    (hsou : Sound seq s) (hpro : s.prompt act = true) (hmove : Move seq s act s') :
    Tidy seq s' := by
  have hheld := hsou.held
  cases hmove with
  | call c e hcr hpool => exact h.call hheld hcr hpool
  | callClosed c hcr | done c hcr =>
    exact h.setCall_word rfl nofun (by rw [hcr]; exact nofun)
  | enqueue c e hcr =>
    have hset : Tidy seq (s.enqueue e) := h.setEnvelope e _ _ (fun _ => id) fun _ _ => rfl
    exact hset.setCall_word rfl nofun (by rw [enqueue, hcr]; exact nofun)
  | refuse c e hcr =>
    have hset : Tidy seq (s.release e) := by
      refine h.setEnvelope e {} s.queue (fun _ => nofun) fun t ht => ?_
      have hhd := hheld.writer t e ht
      rw [hheld.sender c e hcr] at hhd
      cases hhd
    exact hset.setCall_word rfl nofun (by rw [release, hcr]; exact nofun)
  | send e => exact h.setEnvelope e _ _ (fun _ => id) fun _ _ => rfl
  | caller c hmove => exact tidy_callerMove h hmove
  | takeSend t e queue hqu =>
    refine h.setEnvelope e {} queue (fun _ => nofun) fun t' ht => ?_
    have hhd := hheld.writer t' e ht
    rw [hheld.waiting e (by rw [hqu]; exact List.mem_cons_self)] at hhd
    cases hhd
  | take t e c queue hwr hqu hcall =>
    have hset := h.setEnvelope e ⟨some c, .writer t⟩ queue (fun _ hc => hcall.trans hc)
      fun _ _ => hcall.symm
    refine hset.takeWriter ?_ nofun ?_ nofun
    · rintro e' c' ⟨⟩ ⟨⟩
      show (update s.envelopes e ⟨some c, .writer t⟩ e).call = some c
      rw [update_self]
    · rw [hwr]
      exact fun _ _ => nofun
  | writer t ok hmove =>
    refine tidy_writerMove hseq h hheld (fun e c hwr => ?_) hmove
    simpa [prompt, hwr] using hpro
  | read => exact h.setReader nofun nofun
  | reader b hmove => exact tidy_readerMove h hsou.routed hmove

omit [DecidableEq ι] in
theorem tidy_init : Tidy seq ({} : Conn ι) where
  single := ⟨nofun, nofun, nofun⟩
  fresh _ _ := ⟨nofun, nofun, nofun⟩
  early _ _ := nofun
  failing _ _ := nofun
  delivering _ _ := nofun
  entry _ := nofun

def Finished (s : Conn ι) (c : ι) : Prop :=
  (∃ r, (s.calls c).caller = .returned r) ∧ (∀ e ∈ s.queue, (s.envelopes e).call ≠ some c) ∧
    ∀ t, (s.writers t).call ≠ some c

/-- In every run in which `pending.store` never comes after the `pending.delete` of a cancelled
call, the table has no entry of a finished call. -/
theorem no_stale_entry (seq : ι → UInt64) (hseq : Function.Injective seq) {acts : List (Action ι)}
    {s : Conn ι} (h : Run (guardedRel (fun s act => Conn.step s seq act) prompt) {} acts s)
    (c : ι) (hdone : s.Finished c) : s.pending (seq c) = none := by
  obtain ⟨hsou, htidy⟩ := run_invariant (fun s => Sound seq s ∧ Tidy seq s)
    ⟨sound_init, tidy_init⟩
    (fun _ _ _ hs hG hmove => ⟨sound_move hs.1 hmove, tidy_move hseq hs.2 hs.1 hG hmove⟩) h
  cases hpend : s.pending (seq c) with
  | none => rfl
  | some c' =>
    obtain rfl := hseq (hsou.routed.pending _ _ hpend)
    obtain ⟨r, hcr⟩ := hdone.1
    rcases htidy.entry c' hpend with hword | hdele
    · -- a sent call has a caller that waits
      obtain ⟨a, href, -⟩ := hsou.refines
      have hsta := (href.fits c').stands
      have hcell := hsta.of_sent hword
      rw [hcr, hcell] at hsta
      exact hsta.2.elim
    · rw [hcr] at hdele
      cases hdele

theorem answered_prompt :
    (exec (fun s act => Conn.step s (fun _ : Fin 1 => 5) act) prompt {} answered).isSome =
      true := by
  decide +kernel

theorem answered_no_entry :
    let s := ((exec (fun s act => Conn.step s (fun _ : Fin 1 => 5) act) prompt {}
      answered).get answered_prompt).2
    s.Finished 0 ∧ s.pending 5 = none := by
  have hdone : (((exec (fun s act => Conn.step s (fun _ : Fin 1 => 5) act) prompt {}
      answered).get answered_prompt).2).Finished 0 := by
    refine ⟨⟨.response 7, by decide +kernel⟩, by decide +kernel, fun t => ?_⟩
    cases t <;> exact nofun
  exact ⟨hdone, no_stale_entry (fun _ : Fin 1 => 5) (fun _ _ _ => Subsingleton.elim _ _)
    (run_of_exec _ answered_prompt) 0 hdone⟩

def overtaken : List (Action (Fin 1)) :=
  let c := Fin.last 0
  [.call c 0, .enqueue c, .take 0, .writer 0 true, .done c, .caller c, .caller c, .caller c,
    .writer 0 true, .writer 0 true]

theorem overtaken_isSome :
    (exec (fun s act => Conn.step s (fun _ : Fin 1 => 5) act) (fun _ _ => true) {}
      overtaken).isSome = true := rfl

theorem entry_after_return :
    ¬ ∀ acts s, Reaches (fun _ : Fin 1 => 5) acts s → ∀ c, s.Finished c → s.pending 5 = none := by
  intro h
  have hnone := h _ _ (run_of_exec _ overtaken_isSome) 0
    ⟨⟨.canceled, by decide +kernel⟩, by decide +kernel, fun t => by cases t <;> exact nofun⟩
  revert hnone
  decide +kernel

end Conn

end DueServer.Client
