import Mathlib.Data.List.Basic
import Mathlib.Tactic.Ring

/-! Fixed-width numbers as lists of bytes in either byte order, sequences of them, and
overwriting a part of a list. -/
namespace DueServer.Lib

open List

def bytesBE : ℕ → ℕ → List UInt8
  | 0, _ => []
  | k + 1, n => UInt8.ofNat (n / 256 ^ k) :: bytesBE k n

def natBE (bs : List UInt8) : ℕ := bs.foldl (fun acc b => acc * 256 + b.toNat) 0

@[simp] theorem length_bytesBE (k n : ℕ) : (bytesBE k n).length = k := by
  induction k with
  | zero => rfl
  | succ k ih => rw [bytesBE, length_cons, ih]

theorem foldl_bytesBE (k n : ℕ) : ∀ acc : ℕ,
    (bytesBE k n).foldl (fun acc b => acc * 256 + b.toNat) acc = acc * 256 ^ k + n % 256 ^ k := by
  induction k with
  | zero =>
    simp [bytesBE, Nat.mod_one]
  | succ k ih =>
    intro acc
    have hbyte : (UInt8.ofNat (n / 256 ^ k)).toNat = n / 256 ^ k % 256 := UInt8.toNat_ofNat'
    have hsp : n % 256 ^ (k + 1) = n % 256 ^ k + 256 ^ k * (n / 256 ^ k % 256) :=
      Nat.mod_pow_succ
    rw [bytesBE, foldl_cons, ih, hbyte, hsp]
    ring

theorem natBE_bytesBE (k n : ℕ) : natBE (bytesBE k n) = n % 256 ^ k := by
  rw [natBE, foldl_bytesBE, Nat.zero_mul, Nat.zero_add]

theorem natBE_bytesBE_of_lt {k n : ℕ} (h : n < 256 ^ k) : natBE (bytesBE k n) = n := by
  rw [natBE_bytesBE, Nat.mod_eq_of_lt h]

theorem ofNat_natBE_uint16 (v : UInt16) : UInt16.ofNat (natBE (bytesBE 2 v.toNat)) = v := by
  rw [natBE_bytesBE_of_lt v.toNat_lt, UInt16.ofNat_toNat]

theorem ofNat_natBE_uint32 (v : UInt32) : UInt32.ofNat (natBE (bytesBE 4 v.toNat)) = v := by
  rw [natBE_bytesBE_of_lt v.toNat_lt, UInt32.ofNat_toNat]

theorem ofNat_natBE_uint64 (v : UInt64) : UInt64.ofNat (natBE (bytesBE 8 v.toNat)) = v := by
  rw [natBE_bytesBE_of_lt v.toNat_lt, UInt64.ofNat_toNat]

theorem foldl_byte (bs : List UInt8) : ∀ acc : ℕ,
    bs.foldl (fun acc b => acc * 256 + b.toNat) acc = acc * 256 ^ bs.length + natBE bs := by
  induction bs with
  | nil =>
    simp [natBE]
  | cons b bs ih =>
    intro acc
    rw [natBE, foldl_cons, foldl_cons, ih, ih (0 * 256 + b.toNat), length_cons]
    ring

theorem natBE_cons (b : UInt8) (bs : List UInt8) :
    natBE (b :: bs) = b.toNat * 256 ^ bs.length + natBE bs := by
  rw [natBE, foldl_cons, foldl_byte]
  ring

theorem natBE_append (as bs : List UInt8) :
    natBE (as ++ bs) = natBE as * 256 ^ bs.length + natBE bs := by
  rw [natBE, foldl_append, foldl_byte]
  rfl

theorem natBE_lt (bs : List UInt8) : natBE bs < 256 ^ bs.length := by
  induction bs with
  | nil => decide
  | cons b bs ih =>
    have hb : b.toNat < 256 := b.toNat_lt
    have hmul : b.toNat * 256 ^ bs.length ≤ 255 * 256 ^ bs.length :=
      Nat.mul_le_mul_right _ (by omega)
    rw [natBE_cons, length_cons]
    omega

theorem bytesBE_mod (k m n : ℕ) (h : k ≤ m) : bytesBE k (n % 256 ^ m) = bytesBE k n := by
  induction k with
  | zero => rfl
  | succ k ih =>
    have hsp : 256 ^ m = 256 ^ k * 256 ^ (m - k) := by
      rw [← pow_add]
      congr 1
      omega
    have hdvd : 256 ∣ 256 ^ (m - k) := dvd_pow_self 256 (by omega)
    have hbyte : UInt8.ofNat (n % 256 ^ m / 256 ^ k) = UInt8.ofNat (n / 256 ^ k) := by
      apply UInt8.toNat_inj.mp
      rw [hsp, Nat.mod_mul_right_div_self]
      exact Nat.mod_mod_of_dvd _ hdvd
    rw [bytesBE, bytesBE, hbyte, ih (by omega)]

theorem bytesBE_natBE (bs : List UInt8) : bytesBE bs.length (natBE bs) = bs := by
  induction bs with
  | nil => rfl
  | cons b bs ih =>
    have hpos : 0 < 256 ^ bs.length := Nat.pow_pos (by decide)
    have hlow := natBE_lt bs
    have hhead : natBE (b :: bs) / 256 ^ bs.length = b.toNat := by
      rw [natBE_cons, Nat.mul_comm, Nat.mul_add_div hpos, Nat.div_eq_of_lt hlow, Nat.add_zero]
    have htail : bytesBE bs.length (natBE (b :: bs)) = bs := by
      rw [← bytesBE_mod bs.length bs.length _ le_rfl, natBE_cons, Nat.mul_comm,
        Nat.mul_add_mod, Nat.mod_eq_of_lt hlow, ih]
    rw [length_cons, bytesBE, hhead, htail, UInt8.ofNat_toNat]

inductive ByteOrder where
  | big
  | little
deriving DecidableEq

namespace ByteOrder

/-- `PutUint…` for a width of `k` bytes. -/
def put : ByteOrder → ℕ → ℕ → List UInt8
  | big, k, n => bytesBE k n
  | little, k, n => (bytesBE k n).reverse

/-- `Uint…` of all the given bytes. -/
def nat : ByteOrder → List UInt8 → ℕ
  | big, bs => natBE bs
  | little, bs => natBE bs.reverse

@[simp] theorem length_put (o : ByteOrder) (k n : ℕ) : (o.put k n).length = k := by
  cases o with
  | big => exact length_bytesBE k n
  | little => rw [put, length_reverse, length_bytesBE]

theorem nat_put (o : ByteOrder) (k n : ℕ) : o.nat (o.put k n) = n % 256 ^ k := by
  cases o with
  | big => exact natBE_bytesBE k n
  | little => rw [put, nat, reverse_reverse, natBE_bytesBE]

theorem nat_lt (o : ByteOrder) (bs : List UInt8) : o.nat bs < 256 ^ bs.length := by
  cases o with
  | big => exact natBE_lt bs
  | little =>
    have h := natBE_lt bs.reverse
    rwa [length_reverse] at h

theorem put_nat (o : ByteOrder) (bs : List UInt8) : o.put bs.length (o.nat bs) = bs := by
  cases o with
  | big => exact bytesBE_natBE bs
  | little =>
    have h := bytesBE_natBE bs.reverse
    rw [length_reverse] at h
    rw [put, nat, h, reverse_reverse]

end ByteOrder

/-- `n` numbers of `k` bytes each from the front of a list. -/
def natsBE (k : ℕ) : ℕ → List UInt8 → List ℕ
  | 0, _ => []
  | n + 1, bs => natBE (bs.take k) :: natsBE k n (bs.drop k)

theorem natsBE_flatMap (k : ℕ) (ns : List ℕ) :
    natsBE k ns.length (ns.flatMap (bytesBE k)) = ns.map (· % 256 ^ k) := by
  induction ns with
  | nil => rfl
  | cons n ns ih =>
    rw [length_cons, natsBE, flatMap_cons, map_cons,
      take_left' (length_bytesBE k n), drop_left' (length_bytesBE k n), natBE_bytesBE, ih]

@[simp] theorem length_natsBE (k n : ℕ) (bs : List UInt8) : (natsBE k n bs).length = n := by
  induction n generalizing bs with
  | zero => rfl
  | succ n ih => rw [natsBE, length_cons, ih]

theorem flatMap_natsBE (k n : ℕ) (bs : List UInt8) (h : bs.length = k * n) :
    (natsBE k n bs).flatMap (bytesBE k) = bs := by
  induction n generalizing bs with
  | zero =>
    rw [length_eq_zero_iff.mp h]
    rfl
  | succ n ih =>
    rw [Nat.mul_succ] at h
    have htake : (bs.take k).length = k := length_take_of_le (by omega)
    have hfst : bytesBE k (natBE (bs.take k)) = bs.take k := by
      have hdig := bytesBE_natBE (bs.take k)
      rw [htake] at hdig
      exact hdig
    have hrest : (bs.drop k).length = k * n := by
      rw [length_drop]
      omega
    rw [natsBE, flatMap_cons, hfst, ih _ hrest, take_append_drop]

theorem lt_of_mem_natsBE {k n v : ℕ} {bs : List UInt8} (h : v ∈ natsBE k n bs) : v < 256 ^ k := by
  induction n generalizing bs with
  | zero => cases h
  | succ n ih =>
    rcases mem_cons.mp h with rfl | h
    · have hlen : (bs.take k).length ≤ k := length_take_le ..
      exact Nat.lt_of_lt_of_le (natBE_lt _) (Nat.pow_le_pow_right (by decide) hlen)
    · exact ih h

theorem length_flatMap_bytesBE (k : ℕ) (ns : List ℕ) :
    (ns.flatMap (bytesBE k)).length = k * ns.length := by
  induction ns with
  | nil => rfl
  | cons n ns ih =>
    rw [flatMap_cons, length_append, length_bytesBE, length_cons, Nat.mul_succ]
    omega

theorem length_flatten_map {α β : Type*} {f : α → List β} {k : ℕ} (hf : ∀ a, (f a).length = k)
    (as : List α) : (as.map f).flatten.length = k * as.length := by
  induction as with
  | nil => rfl
  | cons a as ih =>
    rw [map_cons, flatten_cons, length_append, hf, length_cons,
      Nat.mul_succ]
    omega

section Overwrite

variable {β : Type*}

/-- `bs` in place of the elements from position `off` on. -/
def overwrite (l : List β) (off : ℕ) (bs : List β) : List β :=
  l.take off ++ bs ++ l.drop (off + bs.length)

theorem length_overwrite {l bs : List β} {off : ℕ} (h : off + bs.length ≤ l.length) :
    (overwrite l off bs).length = l.length := by
  simp only [overwrite, length_append, length_take, length_drop]
  omega

theorem take_overwrite {l bs : List β} {off : ℕ} (h : off ≤ l.length) :
    (overwrite l off bs).take (off + bs.length) = l.take off ++ bs := by
  apply take_left'
  rw [length_append, length_take, Nat.min_eq_left h]

theorem take_overwrite_overwrite (l as bs : List β) (h : as.length + bs.length ≤ l.length) :
    (overwrite (overwrite l 0 as) as.length bs).take (as.length + bs.length) = as ++ bs := by
  have hfst : (overwrite l 0 as).take as.length = as := by
    simp [overwrite]
  have hlen : (overwrite l 0 as).length = l.length := length_overwrite (by omega)
  rw [take_overwrite (by omega), hfst]

end Overwrite

end DueServer.Lib
