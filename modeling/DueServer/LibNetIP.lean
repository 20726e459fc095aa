import Mathlib.Data.List.Basic
import Mathlib.Tactic.IntervalCases

/-! IP addresses as Go's `net` package reads and prints them: `net.ParseIP`, which is
`netip.ParseAddr` without zones, `IP.To4`, and `IP.String` of four bytes. Texts are their bytes,
and a parsed address has sixteen bytes. -/
namespace DueServer.Lib.NetIP

open List

-- the characters '.', ':' and '%'
def dot : UInt8 := 46
def colon : UInt8 := 58
def percent : UInt8 := 37

/-- `parseIPv4Fields`: `prev` is the character before the rest, `val` and `digLen` the octet that
is being read, `fields` the octets before it. -/
def parseIPv4Fields (prev : Option UInt8) (val digLen : ℕ) (fields : List UInt8) :
    List UInt8 → Option (List UInt8)
  | [] => if fields.length < 3 then none else some (fields ++ [UInt8.ofNat val])
  | c :: s =>
    if 48 ≤ c.toNat ∧ c.toNat ≤ 57 then
      -- a leading zero
      if digLen = 1 ∧ val = 0 then none
      else if val * 10 + (c.toNat - 48) > 255 then none
      else parseIPv4Fields (some c) (val * 10 + (c.toNat - 48)) (digLen + 1) fields s
    else if c = dot then
      -- an octet without digits: .1.2.3, 1.2.3. or 1..2.3
      if prev = none ∨ s = [] ∨ prev = some dot then none
      else if fields.length = 3 then none
      else parseIPv4Fields (some c) 0 0 (fields ++ [UInt8.ofNat val]) s
    else none

def mapped (v4 : List UInt8) : List UInt8 := replicate 10 0 ++ [255, 255] ++ v4

def parseIPv4 (s : List UInt8) : Option (List UInt8) := (parseIPv4Fields none 0 0 [] s).map mapped

def hexVal (c : UInt8) : Option ℕ :=
  if 48 ≤ c.toNat ∧ c.toNat ≤ 57 then some (c.toNat - 48)
  else if 97 ≤ c.toNat ∧ c.toNat ≤ 102 then some (c.toNat - 87)
  else if 65 ≤ c.toNat ∧ c.toNat ≤ 70 then some (c.toNat - 55)
  else none

def hexGroup (off acc : ℕ) : List UInt8 → Option (ℕ × ℕ × List UInt8)
  | [] => some (off, acc, [])
  | c :: s =>
    match hexVal c with
    | none => some (off, acc, c :: s)
    | some v =>
      if off > 3 then none
      else if acc * 16 + v > 65535 then none
      else hexGroup (off + 1) (acc * 16 + v) s

/-- The loop of `parseIPv6` with room for `n` more groups: the bytes so far, the position of the
`::` in them, and the rest of the text. -/
def parseGroups : ℕ → List UInt8 → Option ℕ → List UInt8 →
    Option (List UInt8 × Option ℕ × List UInt8)
  | 0, ip, ellipsis, s => some (ip, ellipsis, s)
  | n + 1, ip, ellipsis, s =>
    match hexGroup 0 0 s with
    | none => none
    | some (off, acc, rest) =>
      if off = 0 then none
      else if rest.head? = some dot then
        -- an IPv4 address takes the place of the last two groups
        if ellipsis = none ∧ ip.length ≠ 12 then none
        else if ip.length + 4 > 16 then none
        else (parseIPv4Fields none 0 0 [] s).map fun fields => (ip ++ fields, ellipsis, [])
      else
        let ip := ip ++ [UInt8.ofNat (acc / 256), UInt8.ofNat acc]
        match rest with
        | [] => some (ip, ellipsis, [])
        | [_] => none
        | c :: d :: rest =>
          if c ≠ colon then none
          else if d ≠ colon then parseGroups n ip ellipsis (d :: rest)
          else if ellipsis ≠ none then none
          else if rest = [] then some (ip, some ip.length, [])
          else parseGroups n ip (some ip.length) rest

/-- What follows the loop: the whole text must be used, and `::` stands for at least one group. -/
def expand (ip : List UInt8) (ellipsis : Option ℕ) (s : List UInt8) : Option (List UInt8) :=
  if s ≠ [] then none
  else
    match ellipsis with
    | none => if ip.length < 16 then none else some ip
    | some k =>
      if ip.length < 16 then some (ip.take k ++ replicate (16 - ip.length) 0 ++ ip.drop k)
      else none

/-- `parseIPv6`; an address with a zone is none for `net.ParseIP`. -/
def parseIPv6 (s : List UInt8) : Option (List UInt8) :=
  if percent ∈ s then none
  else if s.take 2 = [colon, colon] then
    if s.drop 2 = [] then some (replicate 16 0)
    else (parseGroups 8 [] (some 0) (s.drop 2)).bind fun (ip, ellipsis, s) => expand ip ellipsis s
  else (parseGroups 8 [] none s).bind fun (ip, ellipsis, s) => expand ip ellipsis s

def isMark (c : UInt8) : Bool := c == dot || c == colon || c == percent

/-- `net.ParseIP`: the first of the three characters tells the kind of the address. -/
def parseIP (s : List UInt8) : Option (List UInt8) :=
  match s.find? isMark with
  | none => none
  | some c => if c = dot then parseIPv4 s else if c = colon then parseIPv6 s else none

def to4 (ip : List UInt8) : Option (List UInt8) :=
  if ip.length = 16 ∧ ip.take 12 = replicate 10 0 ++ [255, 255] then some (ip.drop 12)
  else none

def appendDecimal (x : UInt8) : List UInt8 :=
  (if 100 ≤ x.toNat then [UInt8.ofNat (48 + x.toNat / 100)] else []) ++
    (if 10 ≤ x.toNat then [UInt8.ofNat (48 + x.toNat / 10 % 10)] else []) ++
      [UInt8.ofNat (48 + x.toNat % 10)]

def string4 (a b c d : UInt8) : List UInt8 :=
  appendDecimal a ++ dot :: (appendDecimal b ++ dot :: (appendDecimal c ++ dot :: appendDecimal d))

section Print

variable {prev : Option UInt8} {val digLen : ℕ} {fields rest : List UInt8}

theorem parseIPv4Fields_digit {n : ℕ} (hn : n < 10) (hzero : ¬ (digLen = 1 ∧ val = 0))
    (hle : val * 10 + n ≤ 255) :
    parseIPv4Fields prev val digLen fields (UInt8.ofNat (48 + n) :: rest) =
      parseIPv4Fields (some (UInt8.ofNat (48 + n))) (val * 10 + n) (digLen + 1) fields rest := by
  have hc : (UInt8.ofNat (48 + n)).toNat = 48 + n := by
    rw [UInt8.toNat_ofNat']
    omega
  rw [parseIPv4Fields, hc, if_pos (by omega), if_neg hzero, Nat.add_sub_cancel_left,
    if_neg (by omega)]

theorem appendDecimal_cases (x : UInt8) :
    (x.toNat < 10 ∧ appendDecimal x = [UInt8.ofNat (48 + x.toNat % 10)]) ∨
    (10 ≤ x.toNat ∧ x.toNat < 100 ∧ appendDecimal x =
      [UInt8.ofNat (48 + x.toNat / 10 % 10), UInt8.ofNat (48 + x.toNat % 10)]) ∨
    (100 ≤ x.toNat ∧ appendDecimal x = [UInt8.ofNat (48 + x.toNat / 100),
      UInt8.ofNat (48 + x.toNat / 10 % 10), UInt8.ofNat (48 + x.toNat % 10)]) := by
  rcases Nat.lt_or_ge x.toNat 10 with h10 | h10
  · refine .inl ⟨h10, ?_⟩
    rw [appendDecimal, if_neg (by omega), if_neg (by omega)]
    rfl
  rcases Nat.lt_or_ge x.toNat 100 with h100 | h100
  · refine .inr (.inl ⟨h10, h100, ?_⟩)
    rw [appendDecimal, if_neg (by omega), if_pos h10]
    rfl
  refine .inr (.inr ⟨h100, ?_⟩)
  rw [appendDecimal, if_pos h100, if_pos h10]
  rfl

theorem parseIPv4Fields_appendDecimal (prev : Option UInt8) (fields : List UInt8) (x : UInt8)
    (rest : List UInt8) : ∃ c len, c ≠ dot ∧
    parseIPv4Fields prev 0 0 fields (appendDecimal x ++ rest) =
      parseIPv4Fields (some c) x.toNat len fields rest := by
  have hx : x.toNat < 256 := x.toNat_lt
  have hlast : UInt8.ofNat (48 + x.toNat % 10) ≠ dot := by
    intro h
    have h := congrArg UInt8.toNat h
    rw [UInt8.toNat_ofNat'] at h
    have hdot : dot.toNat = 46 := rfl
    omega
  rcases appendDecimal_cases x with ⟨h, he⟩ | ⟨h, h', he⟩ | ⟨h, he⟩
  · refine ⟨_, 1, hlast, ?_⟩
    have hval : 0 * 10 + x.toNat % 10 = x.toNat := by omega
    rw [he, cons_append, nil_append,
      parseIPv4Fields_digit (by omega) (by omega) (by omega), hval]
  · refine ⟨_, 2, hlast, ?_⟩
    have hval : (0 * 10 + x.toNat / 10 % 10) * 10 + x.toNat % 10 = x.toNat := by omega
    rw [he, cons_append, cons_append, nil_append,
      parseIPv4Fields_digit (by omega) (by omega) (by omega),
      parseIPv4Fields_digit (by omega) (by omega) (by omega), hval]
  · refine ⟨_, 3, hlast, ?_⟩
    have hval : ((0 * 10 + x.toNat / 100) * 10 + x.toNat / 10 % 10) * 10 + x.toNat % 10 =
        x.toNat := by omega
    rw [he, cons_append, cons_append, cons_append, nil_append,
      parseIPv4Fields_digit (by omega) (by omega) (by omega),
      parseIPv4Fields_digit (by omega) (by omega) (by omega),
      parseIPv4Fields_digit (by omega) (by omega) (by omega), hval]

theorem appendDecimal_ne_nil (x : UInt8) : appendDecimal x ≠ [] := by
  unfold appendDecimal
  simp

theorem parseIPv4Fields_dot {c : UInt8} (hc : c ≠ dot) (hrest : rest ≠ [])
    (hlen : fields.length ≠ 3) :
    parseIPv4Fields (some c) val digLen fields (dot :: rest) =
      parseIPv4Fields (some dot) 0 0 (fields ++ [UInt8.ofNat val]) rest := by
  have hdig : ¬ (48 ≤ dot.toNat ∧ dot.toNat ≤ 57) := by decide
  have hfst : ¬ (some c = none ∨ rest = [] ∨ some c = some dot) := by
    rintro (h | h | h)
    · cases h
    · exact hrest h
    · exact hc (Option.some.inj h)
  rw [parseIPv4Fields, if_neg hdig, if_pos rfl, if_neg hfst, if_neg hlen]

theorem parseIPv4Fields_octet (x : UInt8) (hrest : rest ≠ []) (hlen : fields.length ≠ 3) :
    parseIPv4Fields prev 0 0 fields (appendDecimal x ++ dot :: rest) =
      parseIPv4Fields (some dot) 0 0 (fields ++ [x]) rest := by
  obtain ⟨c, len, hc, h⟩ := parseIPv4Fields_appendDecimal prev fields x (dot :: rest)
  rw [h, parseIPv4Fields_dot hc hrest hlen, UInt8.ofNat_toNat]

theorem parseIPv4_string4 (a b c d : UInt8) :
    parseIPv4 (string4 a b c d) = some (mapped [a, b, c, d]) := by
  have hne (x : UInt8) (s : List UInt8) : appendDecimal x ++ s ≠ [] :=
    append_ne_nil_of_left_ne_nil (appendDecimal_ne_nil x) s
  have hlast : parseIPv4Fields (some dot) 0 0 [a, b, c] (appendDecimal d) =
      some [a, b, c, d] := by
    obtain ⟨e, len, -, h⟩ := parseIPv4Fields_appendDecimal (some dot) [a, b, c] d []
    rw [append_nil] at h
    rw [h, parseIPv4Fields, UInt8.ofNat_toNat]
    rfl
  have hall : parseIPv4Fields none 0 0 [] (string4 a b c d) = some [a, b, c, d] := by
    rw [string4, parseIPv4Fields_octet a (hne b _) (by decide),
      parseIPv4Fields_octet b (hne c _) (by simp),
      parseIPv4Fields_octet c (appendDecimal_ne_nil d) (by simp)]
    exact hlast
  rw [parseIPv4, hall]
  rfl

theorem find_digit {n : ℕ} (hn : n < 10) (s : List UInt8) :
    (UInt8.ofNat (48 + n) :: s).find? isMark = s.find? isMark := by
  have hdig : isMark (UInt8.ofNat (48 + n)) = false := by
    interval_cases n <;> decide
  rw [find?_cons, hdig]

theorem find_appendDecimal (x : UInt8) (s : List UInt8) :
    (appendDecimal x ++ dot :: s).find? isMark = some dot := by
  have hx : x.toNat < 256 := x.toNat_lt
  rcases appendDecimal_cases x with ⟨h, he⟩ | ⟨h, h', he⟩ | ⟨h, he⟩
  · rw [he, cons_append, find_digit (by omega)]
    rfl
  · rw [he, cons_append, find_digit (by omega), cons_append, find_digit (by omega)]
    rfl
  rw [he, cons_append, find_digit (by omega), cons_append, find_digit (by omega),
    cons_append, find_digit (by omega)]
  rfl

theorem parseIP_string4 (a b c d : UInt8) :
    parseIP (string4 a b c d) = some (mapped [a, b, c, d]) := by
  rw [parseIP, string4, find_appendDecimal]
  exact parseIPv4_string4 a b c d

end Print

theorem mapped_of_to4 {ip v4 : List UInt8} (h : to4 ip = some v4) :
    v4.length = 4 ∧ ip = mapped v4 := by
  unfold to4 at h
  split at h
  · rename_i hip
    cases h
    refine ⟨by rw [length_drop, hip.1], ?_⟩
    rw [mapped, ← hip.2, take_append_drop]
  · cases h

end DueServer.Lib.NetIP
