import Mathlib.Data.Rat.Floor

/-! The chaining of blocks in `crypto/rsa/encryptor.go`. An error or a panic is `none`. -/
namespace DueServer.Rsa

open List

inductive Padding where
  | oaep (hashSize : ℕ)
  | pkcs1v15

def Padding.limit (size : ℕ) : Padding → ℤ
  | oaep hashSize => size - 2 * hashSize - 2
  | pkcs1v15 => size - 11

/-- An encryptor without an error, after `init`. -/
structure Encryptor where
  padding : Padding
  /-- `Size()` of the keys -/
  size : ℕ+
  option : ℤ
  blockSize : ℤ
  init : (if option ≤ 0 then some (padding.limit size)
    else if option > padding.limit size then none else some option) = some blockSize

/-- The functions of `crypto/rsa` with a pair of keys; the first one uses some randomness. -/
structure Primitives (e : Encryptor) where
  encrypt : ℕ → List UInt8 → Option (List UInt8)
  decrypt : List UInt8 → Option (List UInt8)
  inverse : ∀ r b, (b.length : ℤ) ≤ e.padding.limit e.size →
    ∃ c, encrypt r b = some c ∧ c.length = e.size ∧ decrypt c = some b

/-- `data[start:end]` in round `i`. -/
def block (data : List UInt8) (n i : ℕ) : List UInt8 := (data.take ((i + 1) * n)).drop (i * n)

/-- The loops of `Encrypt` and `Decrypt`. -/
def chain (f : ℕ → List UInt8 → Option (List UInt8)) (data : List UInt8) (n rounds : ℕ) :
    Option (List UInt8) :=
  (range rounds).foldlM (fun out i => (f i (block data n i)).map (out ++ ·)) []

/-- What Go leaves to the implementation: the `int` of a NaN and of an infinite float, and the
largest capacity of a `[]byte`. -/
structure Platform where
  nan : Int64
  inf : Int64
  maxAlloc : Int64

variable (m : Platform) {e : Encryptor} (p : Primitives e)

/-- `total` in `Encrypt`; the quotient is not a number or infinite for blocks of size 0. -/
def total (e : Encryptor) (data : List UInt8) : ℤ :=
  if e.blockSize = 0 then (if data = [] then m.nan else m.inf).toInt
  else ⌈(data.length / e.blockSize : ℚ)⌉

/-- `total * e.publicKey.Size()`, which may wrap. -/
def capacity (e : Encryptor) (data : List UInt8) : Int64 :=
  Int64.ofInt (total m e data * (e.size : ℕ))

/-- `make` does not panic. -/
def Allocates (e : Encryptor) (data : List UInt8) : Prop :=
  0 ≤ capacity m e data ∧ capacity m e data ≤ m.maxAlloc

instance (data : List UInt8) : Decidable (Allocates m e data) := inferInstanceAs (Decidable (_ ∧ _))

def encrypt (data : List UInt8) : Option (List UInt8) :=
  if Allocates m e data then chain p.encrypt data e.blockSize.toNat (total m e data).toNat else none

def decrypt (ciphertext : List UInt8) : Option (List UInt8) :=
  chain (fun _ => p.decrypt) ciphertext e.size ⌈(ciphertext.length / (e.size : ℕ) : ℚ)⌉.toNat

def Lossless (data : List UInt8) : Prop :=
  ∃ ciphertext, encrypt m p data = some ciphertext ∧ decrypt p ciphertext = some data

variable {m p} {data : List UInt8}

theorem chain_succ (f : ℕ → List UInt8 → Option (List UInt8)) (n k : ℕ) :
    chain f data n (k + 1) = (chain f data n k).bind fun out =>
      (f k (block data n k)).map (out ++ ·) := by
  simp [chain, range_succ, foldlM_append]

theorem block_append {c : List UInt8} {n i : ℕ} (h : (i + 1) * n ≤ data.length) :
    block (data ++ c) n i = block data n i := by
  rw [block, take_append_of_le_length h, block]

theorem chain_encrypt (data : List UInt8) {n : ℕ} (hn : (n : ℤ) ≤ e.padding.limit e.size) (k : ℕ) :
    ∃ c, chain p.encrypt data n k = some c ∧ c.length = k * e.size ∧
      ∀ i < k, p.decrypt (block c e.size i) = some (block data n i) := by
  induction k with
  | zero => exact ⟨[], rfl, by simp, by simp⟩
  | succ k ih =>
    obtain ⟨c, hc, hlen, hdec⟩ := ih
    have hblock : (block data n k).length ≤ n := by
      simp only [block, length_drop, length_take, Nat.add_mul]
      omega
    obtain ⟨b, hb, hsize, hinv⟩ := p.inverse k (block data n k) (by omega)
    refine ⟨c ++ b, by simp [chain_succ, hc, hb], by simp [hlen, hsize, Nat.add_mul],
      fun i hi => ?_⟩
    rcases Nat.lt_succ_iff_lt_or_eq.mp hi with hlt | rfl
    · rw [block_append (hlen ▸ Nat.mul_le_mul_right _ hlt), hdec i hlt]
    · have hlast : block (c ++ b) e.size i = b := by
        rw [block, take_of_length_le (by simp [hlen, hsize, Nat.add_mul]), ← hlen, drop_left]
      rw [hlast, hinv]

theorem chain_decrypt {c : List UInt8} {n k : ℕ}
    (hdec : ∀ i < k, p.decrypt (block c e.size i) = some (block data n i)) :
    chain (fun _ => p.decrypt) c e.size k = some (data.take (k * n)) := by
  induction k with
  | zero => simp [chain]
  | succ k ih =>
    rw [chain_succ, ih fun i hi => hdec i (by omega), Option.bind_some, hdec k (by omega),
      Option.map_some, block]
    congr 1
    have htake : data.take (k * n) = (data.take ((k + 1) * n)).take (k * n) := by
      rw [take_take, min_eq_left (Nat.mul_le_mul_right _ (by omega))]
    rw [htake, take_append_drop]

theorem blockSize_le (e : Encryptor) : e.blockSize ≤ e.padding.limit e.size := by
  have hinit := e.init
  split_ifs at hinit <;> simp at hinit <;> omega

theorem total_nonpos (h : e.blockSize < 0) : total m e data ≤ 0 := by
  have hneg : (e.blockSize : ℚ) ≤ 0 := by exact_mod_cast h.le
  rw [total, if_neg h.ne]
  exact Int.ceil_le.mpr
    (by exact_mod_cast div_nonpos_of_nonneg_of_nonpos (Nat.cast_nonneg _) hneg)

/-- `total` blocks are encrypted, and come back. -/
theorem exists_chain (data : List UInt8) : ∃ c,
    chain p.encrypt data e.blockSize.toNat (total m e data).toNat = some c ∧
    decrypt p c = some (data.take ((total m e data).toNat * e.blockSize.toNat)) := by
  rcases lt_or_ge e.blockSize 0 with hneg | hnon
  · refine ⟨[], ?_, ?_⟩
    · rw [Int.toNat_of_nonpos (total_nonpos hneg)]
      rfl
    · rw [Int.toNat_of_nonpos hneg.le]
      simp [decrypt, chain]
  · have hlim : (e.blockSize.toNat : ℤ) ≤ e.padding.limit e.size := by
      rw [Int.toNat_of_nonneg hnon]
      exact blockSize_le e
    obtain ⟨c, hc, hlen, hdec⟩ := chain_encrypt (p := p) data hlim (total m e data).toNat
    refine ⟨c, hc, ?_⟩
    -- as many rounds again
    have hsize : ((e.size : ℕ) : ℚ) ≠ 0 := by exact_mod_cast e.size.ne_zero
    have hrounds : (c.length / (e.size : ℕ) : ℚ) = (total m e data).toNat := by
      rw [hlen, Nat.cast_mul, mul_div_cancel_right₀ _ hsize]
    rw [decrypt, hrounds, Int.ceil_natCast, Int.toNat_natCast, chain_decrypt hdec]

theorem length_le_iff : data.length ≤ (total m e data).toNat * e.blockSize.toNat ↔
    0 < e.blockSize ∨ data = [] := by
  rcases lt_or_ge 0 e.blockSize with hpos | hnon
  · refine iff_of_true ?_ (.inl hpos)
    obtain ⟨n, hn⟩ := Int.eq_ofNat_of_zero_le hpos.le
    have hpos' : (0 : ℚ) < n := by exact_mod_cast hn ▸ hpos
    have hle := Int.le_ceil (data.length / n : ℚ)
    obtain ⟨k, hk⟩ := Int.eq_ofNat_of_zero_le
      (Int.ceil_nonneg (show 0 ≤ (data.length / n : ℚ) by positivity))
    rw [total, if_neg hpos.ne', hn, Int.cast_natCast, hk]
    rw [hk, div_le_iff₀ hpos'] at hle
    exact_mod_cast hle
  · rw [Int.toNat_of_nonpos hnon, Nat.mul_zero, Nat.le_zero, length_eq_zero_iff]
    exact (or_iff_right hnon.not_gt).symm

/-- A block size that is not positive is left if the key is too short for the padding. -/
theorem lossless_iff (m : Platform) (e : Encryptor) (p : Primitives e) (data : List UInt8) :
    Lossless m p data ↔ Allocates m e data ∧ (0 < e.blockSize ∨ data = []) := by
  obtain ⟨c, hc, hdec⟩ := exists_chain (m := m) (p := p) data
  rw [← length_le_iff (m := m), ← take_eq_self_iff, Lossless, encrypt]
  by_cases halloc : Allocates m e data
  · rw [if_pos halloc, hc]
    simp [hdec, halloc]
  · simp [halloc]

def amd64 : Platform := ⟨Int64.minValue, Int64.minValue, 0x1000000000000⟩

-- a key of 1040 bits and SHA-512 leave blocks of size 0, and the empty string comes back
example : Allocates amd64 ⟨.oaep 64, 130, 0, 0, rfl⟩ [] := by decide +kernel

/-- A key of 1024 bits and SHA-512: every block is too long. -/
def short : Primitives ⟨.oaep 64, 128, 0, -2, rfl⟩ where
  encrypt _ _ := none
  decrypt _ := none
  inverse _ b h := by
    simp only [Padding.limit, PNat.val_ofNat] at h
    omega

theorem short_loses : encrypt amd64 short [7] = some [] ∧ ¬ Lossless amd64 short [7] ∧
    encrypt amd64 short [7, 8] = none := by
  have hone : encrypt amd64 short [7] = some [] := by decide +kernel
  refine ⟨hone, ?_, by decide +kernel⟩
  rintro ⟨c, henc, hdec⟩
  rw [hone] at henc
  cases henc
  exact absurd hdec (by decide +kernel)

end DueServer.Rsa
