import DueServer.RedisScript

/-! `session/redis/store.go` on the hash of one user. `Acquire` is cut where it waits for
redis or for the range allocator: `acquireReply` is what it makes of the first script's
reply, `Use` its local variables while `WithGenerationRange` runs, `finishAcquire` its end. -/
namespace DueServer.Redis

def errGenerationRangeRequired : DueErr :=
  .other "session ownership requires a durable generation range allocator"

def errInvalidGenerationRange : DueErr :=
  .other "invalid session ownership generation range or allocator reply"

-- the escapes of %q are left out: redis only holds digits here
def quote (v : Str) : String := "\"" ++ String.ofList v ++ "\""

/-- `strconv.ParseUint(v, 10, 63)`. -/
def parseUint (v : Str) : Except String ℕ :=
  if v = [] ∨ ¬ v.all Char.isDigit then
    .error ("strconv.ParseUint: parsing " ++ quote v ++ ": invalid syntax")
  else if Nat.ofDigitChars 10 v 0 ≤ maxInt64 then .ok (Nat.ofDigitChars 10 v 0)
  else .error ("strconv.ParseUint: parsing " ++ quote v ++ ": value out of range")

def decodeRangeReply (values : List Str) : Except DueErr (ℕ × Bool) :=
  match values with
  | [kind, v] =>
    if kind ≠ "ok".toList ∧ kind ≠ "range".toList then .error errInvalidGenerationRange
    else
      match parseUint v with
      | .error _ => .error errInvalidGenerationRange
      | .ok value =>
        if formatUint value ≠ v ∨ (kind = "ok".toList ∧ value = 0) then
          .error errInvalidGenerationRange
        else .ok (value, decide (kind = "range".toList))
  | _ => .error errInvalidGenerationRange

/-- A script that leaves `r`, run on `h`: what the caller sees and the hash afterwards. -/
def runScript (rep : Reply) (r : Except ScriptErr (List Str) × Hash) (h : Hash) :
    Except DueErr (List Str) × Hash :=
  match rep with
  | .ok => (r.1.mapError fun err => .other err.text, r.2)
  | .failed executed err => (.error err, if executed then r.2 else h)

def issuedBy (rep : Reply) (r : Except ScriptErr (List Str)) : Option ℕ :=
  if rep.executed then
    match r with
    | .error _ => none
    | .ok values =>
      match decodeRangeReply values with
      | .ok (generation, false) => some generation
      | _ => none
  else none

def acquireArgs (ctx : Ctx) (uid : ℤ) : Option DueErr :=
  match ctx with
  | some err => some err
  | none => if uid ≤ 0 then some .errInvalidArgument else none

/-- `Acquire` after its first script: it returns, or goes on to the range allocator. -/
inductive Acquiring where
  | done (result : Except DueErr Token)
  | range (floor : ℕ)
deriving DecidableEq

def acquireReply (uid : ℤ) (rangeAllocator : Bool) (reply : Except DueErr (List Str)) : Acquiring :=
  match reply with
  | .error err => .done (.error err)
  | .ok values =>
    match decodeRangeReply values with
    | .error err => .done (.error err)
    | .ok (generation, needRange) =>
      if ¬ needRange then .done (.ok ⟨uid, generation⟩)
      else if generation = maxInt64 then .done (.error .errOwnershipGenerationExhausted)
      else if ¬ rangeAllocator then .done (.error errGenerationRangeRequired)
      else .range generation

/-- The variables `floor`, `calls` and `generation` of `Acquire`, and the first error that
a run of the callback has returned to the allocator. -/
structure Use where
  floor : ℕ
  calls : ℕ
  generation : ℕ
  err : Option DueErr
deriving DecidableEq

def Use.new (floor : ℕ) : Use := ⟨floor, 0, floor, none⟩

def Use.rejects (u : Use) (operation : Bool) (start last : ℕ) : Bool :=
  decide (u.calls + 1 ≠ 1) || !operation || decide (start ≤ u.floor) || decide (start = 0)
    || decide (last < start) || decide (maxInt64 < last)

def Use.failed (u : Use) (err : DueErr) : Use :=
  { u with calls := u.calls + 1, err := u.err.or (some err) }

def Use.replied (u : Use) (reply : Except DueErr (List Str)) : Use :=
  match reply with
  | .error err => u.failed err
  | .ok values =>
    match decodeRangeReply values with
    | .error err => { u.failed err with generation := 0 }
    | .ok (generation, needs) =>
      if needs ∨ generation ≤ u.floor then
        { u.failed errInvalidGenerationRange with generation := generation }
      else { u with calls := u.calls + 1, generation := generation }

def Use.run (u : Use) (h : Hash) (operation : Bool) (start last : ℕ) (rep : Reply) :
    Use × Hash × Option ℕ :=
  if u.rejects operation start last then (u.failed errInvalidGenerationRange, h, none)
  else
    let r := initializeRangeScript h (formatUint start) (formatUint last)
    let seen := runScript rep r h
    (u.replied seen.1, seen.2, issuedBy rep r.1)

def finishAcquire (ctx : Ctx) (uid : ℤ) (u : Use) (err : Option DueErr) : Except DueErr Token :=
  match err with
  | some err => .error err
  | none =>
    if u.calls ≠ 1 ∨ u.generation = 0 then .error errInvalidGenerationRange
    else
      match ctx with
      | some err => .error err
      | none => .ok ⟨uid, u.generation⟩

def current (h : Hash) (ctx : Ctx) (uid : ℤ) : Except DueErr (Option Token) :=
  match acquireArgs ctx uid with
  | some err => .error err
  | none =>
    match h.current with
    | none => .ok none
    | some value =>
      match parseUint value with
      | .error err =>
        .error (.other ("decode session ownership generation " ++ quote value ++ ": " ++ err))
      | .ok generation =>
        if generation = 0 ∨ formatUint generation ≠ value then
          .error .errOwnershipGenerationExhausted
        else .ok (some ⟨uid, generation⟩)

def release (h : Hash) (ctx : Ctx) (uid : ℤ) (token : Token) (rep : Reply) :
    Except DueErr Bool × Hash :=
  match ctx with
  | some err => (.error err, h)
  | none =>
    if uid ≤ 0 ∨ token.uid ≠ uid ∨ token.generation = 0 then (.error .errInvalidArgument, h)
    else
      let r := releaseScript h (formatUint token.generation)
      match rep with
      | .ok => (.ok (decide (r.1 = 1)), r.2)
      | .failed executed err => (.error err, if executed then r.2 else h)

section Replies

variable {generation : ℕ}

theorem parseUint_formatUint (h : generation ≤ maxInt64) :
    parseUint (formatUint generation) = .ok generation := by
  have hdig : (formatUint generation).all Char.isDigit = true :=
    List.all_eq_true.mpr (Lib.toDigits_isDigit generation)
  unfold parseUint
  rw [if_neg (by simp [hdig]), Nat.ofDigitChars_ten_toDigits, if_pos h]

theorem decodeRangeReply_ok (hpos : 0 < generation) (h : generation ≤ maxInt64) :
    decodeRangeReply ["ok".toList, formatUint generation] = .ok (generation, false) := by
  unfold decodeRangeReply
  dsimp only
  rw [if_neg (by decide), parseUint_formatUint h]
  dsimp only
  rw [if_neg (by simp [hpos.ne'])]
  rfl

theorem decodeRangeReply_range (h : generation ≤ maxInt64) :
    decodeRangeReply ["range".toList, formatUint generation] = .ok (generation, true) := by
  unfold decodeRangeReply
  dsimp only
  rw [if_neg (by decide), parseUint_formatUint h]
  dsimp only
  rw [if_neg (by simp)]
  rfl

end Replies

section Ranges

variable {o o' : Option Range} {reserved : Option (ℕ × ℕ)} {g : Option ℕ} {rep : Reply}

/-- What a script does to the range in the hash, and the generation it issues: nothing, the
next one of the range, or the first one of a range reserved for it. -/
inductive Issues (o : Option Range) (reserved : Option (ℕ × ℕ)) :
    Option Range → Option ℕ → Prop where
  | nothing : Issues o reserved o none
  | next (r : Range) (h : r.generation < r.limit) (ho : o = some r) :
      Issues o reserved (some (r.next h)) (some (r.generation + 1))
  | first (start last : ℕ) (hpos : 0 < start) (hle : start ≤ last) (hmax : last ≤ maxInt64)
      (hr : reserved = some (start, last)) :
      Issues o reserved (some (Range.first start last hpos hle hmax)) (some start)

theorem runScript_hash (rep : Reply) (r : Except ScriptErr (List Str) × Hash) (h : Hash) :
    (runScript rep r h).2 = if rep.executed then r.2 else h := by
  rcases rep with _ | ⟨executed, err⟩ <;> rfl

theorem issuedBy_ok {n : ℕ} (hpos : 0 < n) (hn : n ≤ maxInt64) :
    issuedBy rep (.ok ["ok".toList, formatUint n]) = if rep.executed then some n else none := by
  simp only [issuedBy, decodeRangeReply_ok hpos hn]

theorem issuedBy_range {n : ℕ} (hn : n ≤ maxInt64) :
    issuedBy rep (.ok ["range".toList, formatUint n]) = none := by
  simp only [issuedBy, decodeRangeReply_range hn, ite_self]

theorem acquireScript_issues (o : Option Range) (rep : Reply) :
    ∃ o', (runScript rep (acquireScript (encode o)) (encode o)).2 = encode o' ∧
      Issues o none o' (issuedBy rep (acquireScript (encode o)).1) := by
  rcases full_or_capacity o with h | ⟨r, rfl, h⟩
  · rw [acquireScript_full h, runScript_hash, issuedBy_range (newest_le o), ite_self]
    exact ⟨o, rfl, Issues.nothing⟩
  rw [acquireScript_next r h, runScript_hash,
    issuedBy_ok (Nat.succ_pos _) (h.trans_le r.limit_le)]
  split
  · exact ⟨_, rfl, Issues.next r h rfl⟩
  · exact ⟨_, rfl, Issues.nothing⟩

theorem Use.run_issues (u : Use) (operation : Bool) {start last : ℕ} (rep : Reply)
    (hnew : 0 < start → newest o < start) :
    ∃ o', (u.run (encode o) operation start last rep).2.1 = encode o' ∧
      Issues o (some (start, last)) o' (u.run (encode o) operation start last rep).2.2 := by
  unfold Use.run
  split
  · exact ⟨o, rfl, Issues.nothing⟩
  rename_i hrej
  simp only [Use.rejects, Bool.or_eq_true, decide_eq_true_eq, not_or, not_lt] at hrej
  obtain ⟨⟨⟨_, hzero⟩, hle⟩, hmax⟩ := hrej
  have hpos : 0 < start := Nat.pos_of_ne_zero hzero
  dsimp only
  rcases full_or_capacity o with h | ⟨r, rfl, h⟩
  · rw [initializeRangeScript_first h hpos hle hmax (hnew hpos), runScript_hash,
      issuedBy_ok hpos (hle.trans hmax)]
    split
    · exact ⟨_, rfl, Issues.first start last hpos hle hmax rfl⟩
    · exact ⟨o, rfl, Issues.nothing⟩
  · rw [initializeRangeScript_next r h, runScript_hash,
      issuedBy_ok (Nat.succ_pos _) (h.trans_le r.limit_le)]
    split
    · exact ⟨_, rfl, Issues.next r h rfl⟩
    · exact ⟨_, rfl, Issues.nothing⟩

end Ranges

section Results

variable {r : Except ScriptErr (List Str) × Hash} {h : Hash} {rep : Reply} {ctx : Ctx} {uid : ℤ}

theorem issuedBy_of_seen {values : List Str} {generation : ℕ}
    (hseen : (runScript rep r h).1 = .ok values)
    (hdec : decodeRangeReply values = .ok (generation, false)) :
    issuedBy rep r.1 = some generation := by
  rcases rep with _ | ⟨executed, err⟩
  · rcases r with ⟨_ | v, h'⟩
    · cases hseen
    · cases hseen
      simp [issuedBy, Reply.executed, hdec]
  · cases hseen

theorem acquireReply_token {rangeAllocator : Bool} {t : Token}
    (hd : acquireReply uid rangeAllocator (runScript rep r h).1 = .done (.ok t)) :
    t.uid = uid ∧ issuedBy rep r.1 = some t.generation := by
  unfold acquireReply at hd
  split at hd
  · cases hd
  rename_i values hseen
  split at hd
  · cases hd
  rename_i generation needRange hdec
  rcases needRange with _ | _
  · cases hd
    exact ⟨rfl, issuedBy_of_seen hseen hdec⟩
  rw [if_neg (by simp)] at hd
  split at hd
  · cases hd
  · split at hd <;> cases hd

theorem Use.failed_err (u : Use) (err : DueErr) : (u.failed err).err ≠ none := by
  unfold Use.failed
  cases u.err <;> simp

theorem Use.replied_own {u : Use} (herr : (u.replied (runScript rep r h).1).err = none) :
    issuedBy rep r.1 = some (u.replied (runScript rep r h).1).generation := by
  unfold Use.replied at herr ⊢
  split at herr
  · exact absurd herr (Use.failed_err u _)
  rename_i values hseen
  split at herr
  · exact absurd herr (Use.failed_err u _)
  rename_i generation needs hdec
  split at herr
  · exact absurd herr (Use.failed_err u _)
  rename_i hnee
  rcases needs with _ | _
  · rw [if_neg hnee]
    exact issuedBy_of_seen hseen hdec
  · simp at hnee

theorem Use.run_own {u : Use} {operation : Bool} {start last : ℕ}
    (herr : (u.run h operation start last rep).1.err = none) :
    (u.run h operation start last rep).2.2 =
      some (u.run h operation start last rep).1.generation := by
  unfold Use.run at herr ⊢
  split at herr
  · exact absurd herr (Use.failed_err u _)
  rename_i hrej
  rw [if_neg hrej]
  exact Use.replied_own herr

theorem finishAcquire_token {u : Use} {err : Option DueErr} {t : Token}
    (hf : finishAcquire ctx uid u err = .ok t) :
    t = ⟨uid, u.generation⟩ ∧ u.calls = 1 ∧ err = none := by
  unfold finishAcquire at hf
  split at hf
  · cases hf
  split at hf
  · cases hf
  rename_i hcs
  push Not at hcs
  split at hf
  · cases hf
  cases hf
  exact ⟨rfl, hcs.1, rfl⟩

theorem current_encode (o : Option Range) (huid : 0 < uid) : current (encode o) none uid =
      .ok (o.bind fun r => if r.held then some ⟨uid, r.generation⟩ else none) := by
  have hargs : acquireArgs none uid = none := if_neg (by omega)
  unfold current
  rw [hargs]
  rcases o with _ | r
  · rfl
  rcases hheld : r.held with _ | _
  · simp [encode, hheld]
  · simp [encode, hheld, parseUint_formatUint r.generation_le, r.pos.ne']

theorem release_range (o : Option Range) (ctx : Ctx) (uid : ℤ) (token : Token) (rep : Reply) :
    (release (encode o) ctx uid token rep).2 = encode o ∨
      ∃ r, o = some r ∧ (release (encode o) ctx uid token rep).2 = encode (some r.release) ∧
        current (encode o) none uid = .ok (some token) := by
  rcases ctx with _ | err
  · by_cases hargs : uid ≤ 0 ∨ token.uid ≠ uid ∨ token.generation = 0
    · exact .inl (by simp only [release, if_pos hargs])
    · simp only [release, if_neg hargs]
      push Not at hargs
      obtain ⟨huid, htok, _⟩ := hargs
      by_cases hown : ∃ r, o = some r ∧ r.held = true ∧ r.generation = token.generation
      · obtain ⟨r, rfl, hheld, hgen⟩ := hown
        rw [← hgen, releaseScript_held r hheld]
        have hcur : current (encode (some r)) none uid = .ok (some token) := by
          rw [current_encode _ huid, Option.bind_some, if_pos hheld, hgen, ← htok]
        rcases rep with _ | ⟨_ | _, err⟩
        · exact .inr ⟨r, rfl, rfl, hcur⟩
        · exact .inl rfl
        · exact .inr ⟨r, rfl, rfl, hcur⟩
      · rw [releaseScript_ne o token.generation fun r hr hheld hgen => hown ⟨r, hr, hheld, hgen⟩]
        rcases rep with _ | ⟨_ | _, err⟩ <;> exact .inl rfl
  · exact .inl rfl

end Results

end DueServer.Redis
