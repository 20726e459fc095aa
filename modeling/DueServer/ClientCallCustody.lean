import DueServer.ClientCallSteps

/-! The pooled messages of a connection: each has one holder, and a writer only ever works for a
call whose message was queued. -/
namespace DueServer.Client

open Function (update)

def Caller.Queued : Caller → Prop
  | .idle | .sending _ | .returned .refused | .returned .clientClosed => False
  | _ => True

namespace Writer

variable {ι : Type}

def envelope : Writer ι → Option ℕ
  | .swapping e _ | .storing e _ | .writing e _ => some e
  | _ => none

def call : Writer ι → Option ι
  | .swapping _ c | .storing _ c | .writing _ c | .deleting c | .failing c | .closing c => some c
  | .idle => none

end Writer

variable {ι : Type}

structure Custody (calls : ι → CallState) (envelopes : ℕ → Envelope ι) (queue : List ℕ)
    (writers : ℕ → Writer ι) : Prop where
  sender (c : ι) (e : ℕ) : (calls c).caller = .sending e → envelopes e = ⟨some c, .sender⟩
  pool (e : ℕ) : (envelopes e).holder = .pool → (envelopes e).call = none
  waiting (e : ℕ) : e ∈ queue → (envelopes e).holder = .queue
  nodup : queue.Nodup
  writer (t e : ℕ) : (writers t).envelope = some e → (envelopes e).holder = .writer t
  queued (e : ℕ) (c : ι) : (envelopes e).holder = .queue → (envelopes e).call = some c →
    (calls c).caller.Queued
  called (t : ℕ) (c : ι) : (writers t).call = some c → (calls c).caller.Queued

namespace Custody

variable {calls : ι → CallState} {envelopes : ℕ → Envelope ι} {queue : List ℕ}
  {writers : ℕ → Writer ι} {c : ι} {e t : ℕ}

theorem setWriter (h : Custody calls envelopes queue writers) {w : Writer ι}
    (henv : ∀ e, w.envelope = some e → (writers t).envelope = some e)
    (hcall : ∀ c, w.call = some c → (writers t).call = some c) :
    Custody calls envelopes queue (update writers t w) := by
  cases h
  constructor <;> grind

theorem enqueue (h : Custody calls envelopes queue writers)
    (hhd : (envelopes e).holder = .pool ∨ (envelopes e).holder = .sender)
    (hsd : ∀ c, (calls c).caller ≠ .sending e)
    (hcall : ∀ c, (envelopes e).call = some c → (calls c).caller.Queued) :
    Custody calls (update envelopes e { envelopes e with holder := .queue }) (queue ++ [e])
      writers := by
  cases h
  constructor <;> grind

theorem release (h : Custody calls envelopes queue writers)
    (hsd : ∀ c, (calls c).caller ≠ .sending e) (hqu : e ∉ queue)
    (hwr : ∀ t, (writers t).envelope ≠ some e) :
    Custody calls (update envelopes e {}) queue writers := by
  cases h
  constructor <;> grind

theorem tail (h : Custody calls envelopes (e :: queue) writers) :
    Custody calls envelopes queue writers :=
  ⟨h.sender, h.pool, fun e' he => h.waiting e' (List.mem_cons_of_mem e he),
    (List.nodup_cons.mp h.nodup).2, h.writer, h.queued, h.called⟩

theorem take (h : Custody calls envelopes (e :: queue) writers)
    (hcall : (envelopes e).call = some c) :
    Custody calls (update envelopes e ⟨some c, .writer t⟩) queue
      (update writers t (.swapping e c)) := by
  have hhd : (envelopes e).holder = .queue := h.waiting e List.mem_cons_self
  have hnot : e ∉ queue := (List.nodup_cons.mp h.nodup).1
  cases h.tail
  constructor <;> grind [Writer.envelope, Writer.call]

theorem releaseWriter (h : Custody calls envelopes queue writers)
    (henv : (writers t).envelope = some e) {w : Writer ι} (hw : w.envelope = none)
    (hcall : ∀ c, w.call = some c → (writers t).call = some c) :
    Custody calls (update envelopes e {}) queue (update writers t w) := by
  have hhd : (envelopes e).holder = .writer t := h.writer t e henv
  refine (h.setWriter ?_ hcall).release ?_ ?_ ?_
  · rw [hw]
    exact nofun
  · intro c hc
    rw [h.sender c e hc] at hhd
    cases hhd
  · intro hmem
    rw [h.waiting e hmem] at hhd
    cases hhd
  · intro t' ht'
    by_cases ht : t' = t
    · subst ht
      rw [Function.update_self, hw] at ht'
      cases ht'
    rw [Function.update_of_ne ht] at ht'
    rw [h.writer t' e ht'] at hhd
    exact ht (Holder.writer.inj hhd)

variable [DecidableEq ι]

section

variable (h : Custody calls envelopes queue writers)

include h

theorem setCall {call : CallState}
    (hsen : ∀ e, call.caller = .sending e → (calls c).caller = .sending e)
    (hcr : (calls c).caller.Queued → call.caller.Queued) :
    Custody (update calls c call) envelopes queue writers := by
  cases h
  constructor <;> grind

theorem call {call : CallState} (hidle : (calls c).caller = .idle)
    (hhd : (envelopes e).holder = .pool) (hcall : call.caller = .sending e) :
    Custody (update calls c call) (update envelopes e ⟨some c, .sender⟩) queue writers := by
  cases h
  constructor <;> grind [Caller.Queued]

theorem unhand (hcr : (calls c).caller = .sending e) (call : CallState)
    (hcall : ∀ e, call.caller ≠ .sending e) :
    Custody (update calls c call) envelopes queue writers ∧
      (∀ c', (update calls c call c').caller ≠ .sending e) ∧ e ∉ queue ∧
      ∀ t, (writers t).envelope ≠ some e := by
  have henv := h.sender c e hcr
  have hfr : ¬ (calls c).caller.Queued := by
    rw [hcr]
    exact id
  refine ⟨h.setCall (fun e he => absurd he (hcall e)) fun hq => absurd hq hfr, ?_, ?_, ?_⟩
  · intro c' hc'
    by_cases hcc : c' = c
    · subst hcc
      rw [Function.update_self] at hc'
      exact hcall e hc'
    rw [Function.update_of_ne hcc] at hc'
    have hsame := (h.sender c' e hc').symm.trans henv
    exact hcc (Option.some.inj (Envelope.mk.inj hsame).1)
  · intro hmem
    have hhd := h.waiting e hmem
    rw [henv] at hhd
    cases hhd
  · intro t ht
    have hhd := h.writer t e ht
    rw [henv] at hhd
    cases hhd

end

end Custody

namespace Conn

def Held (s : Conn ι) : Prop := Custody s.calls s.envelopes s.queue s.writers

theorem held_init : ({} : Conn ι).Held where
  sender _ _ := nofun
  pool _ _ := rfl
  waiting _ := nofun
  nodup := List.nodup_nil
  writer _ _ := nofun
  queued _ _ := nofun
  called _ _ := nofun

variable [DecidableEq ι] {seq : ι → UInt64} {s s' : Conn ι}

theorem held_setCaller {c : ι} {caller : Caller} (h : s.Held)
    (hsen : ∀ e, caller ≠ .sending e) (hque : (s.calls c).caller.Queued → caller.Queued) :
    (s.setCaller c caller).Held :=
  Custody.setCall h (fun e he => absurd he (hsen e)) hque

theorem held_callerMove {c : ι} (h : s.Held) (hmove : CallerMove seq s c s') : s'.Held := by
  cases hmove with
  | receive | take | cancelPending | cancelSent | delete | release =>
    exact Custody.setCall h nofun fun _ => trivial
  | hang | load | loadDelivered | loadOver | again | takeClosed =>
    exact held_setCaller h nofun fun _ => trivial

theorem held_setWord {c : ι} {call : CallState} (h : s.Held)
    (hcr : call.caller = (s.calls c).caller) : (s.setCall c call).Held := by
  refine Custody.setCall h (fun e he => hcr ▸ he) ?_
  rw [hcr]
  exact id

omit [DecidableEq ι] in
theorem held_setWriter {t : ℕ} {w : Writer ι} (h : s.Held)
    (henv : ∀ e, w.envelope = some e → (s.writers t).envelope = some e)
    (hcall : ∀ c, w.call = some c → (s.writers t).call = some c) : (s.setWriter t w).Held :=
  Custody.setWriter h henv hcall

theorem held_writerMove {t : ℕ} (h : s.Held) (hmove : WriterMove seq s t s') : s'.Held := by
  cases hmove with
  | swap e c hwr =>
    refine held_setWriter (held_setWord h rfl) (fun e' he => ?_) (fun c' hc => ?_) <;>
      rwa [setCall, hwr]
  | skip e c hwr => exact Custody.releaseWriter h (by rw [hwr]; rfl) rfl nofun
  | store e c hwr =>
    refine held_setWriter h (fun e' he => ?_) (fun c' hc => ?_) <;> rwa [hwr]
  | write e c ok hwr =>
    cases ok with
    | true => exact Custody.releaseWriter h (by rw [hwr]; rfl) rfl nofun
    | false =>
      refine Custody.releaseWriter h (by rw [hwr]; rfl) rfl fun c' hc => ?_
      rwa [hwr]
  | delete c hwr =>
    refine held_setWriter h nofun fun c' hc => ?_
    rwa [delete, hwr]
  | fail c hwr =>
    refine held_setWriter (held_setWord h rfl) nofun fun c' hc => ?_
    rwa [setCall, hwr]
  | late => exact held_setWriter h nofun nofun
  | close => exact held_setWriter (held_setWord h rfl) nofun nofun

theorem held_readerMove {b : ℕ} (h : s.Held) (hmove : ReaderMove s b s') : s'.Held := by
  cases hmove with
  | unknown | extract | lose | release => exact h
  | win | send => exact held_setWord h rfl

theorem held_move (h : s.Held) {act : Action ι} (hmove : Move seq s act s') : s'.Held := by
  cases hmove with
  | call c e hcr hpool => exact Custody.call h hcr hpool rfl
  | callClosed c hcr =>
    refine held_setCaller h nofun ?_
    rw [hcr]
    exact False.elim
  | enqueue c e hcr =>
    obtain ⟨hcs, hsd, -⟩ := Custody.unhand h hcr
      { s.calls c with caller := .waiting } nofun
    refine Custody.enqueue hcs ?_ hsd ?_
    · rw [h.sender c e hcr]
      exact .inr rfl
    · rw [h.sender c e hcr]
      rintro c' ⟨⟩
      show (update s.calls c _ c).caller.Queued
      rw [Function.update_self]
      trivial
  | refuse c e hcr =>
    obtain ⟨hcs, hsd, hqu, hwr⟩ := Custody.unhand h hcr
      { s.calls c with caller := .returned .refused } nofun
    exact hcs.release hsd hqu hwr
  | send e hpool =>
    refine Custody.enqueue h (.inl hpool) ?_ ?_
    · intro c hc
      rw [h.sender c e hc] at hpool
      cases hpool
    · rw [h.pool e hpool]
      exact nofun
  | done => exact held_setCaller h nofun fun _ => trivial
  | caller c hmove => exact held_callerMove h hmove
  | takeSend t e queue hqu =>
    have hall : Custody s.calls s.envelopes (e :: queue) s.writers := hqu ▸ h
    have hhd := hall.waiting e List.mem_cons_self
    refine hall.tail.release ?_ (List.nodup_cons.mp hall.nodup).1 ?_
    · intro c hc
      rw [h.sender c e hc] at hhd
      cases hhd
    · intro t ht
      rw [h.writer t e ht] at hhd
      cases hhd
  | take t e c queue hwr hqu hcall =>
    have hall : Custody s.calls s.envelopes (e :: queue) s.writers := hqu ▸ h
    exact hall.take hcall
  | writer t ok hmove => exact held_writerMove h hmove
  | read => exact h
  | reader b hmove => exact held_readerMove h hmove

end Conn

end DueServer.Client
