import Mathlib.Algebra.Ring.Nat

/-! # Fixed-width integers — numbers as octets, in both byte orders

A number below `256 ^ k` is `k` octets, least significant first (`toLE`) or
most significant first (`toBE`).  Writing and reading are inverse in both
directions: a number that fits is read back, and any `k` octets are the
writing of the number they read as. -/

namespace Octets

open List

/-- The lowest `k` octets, least significant first. -/
def toLE : Nat → Nat → List UInt8
  | 0, _ => []
  | k + 1, n => UInt8.ofNat n :: toLE k (n / 256)

/-- The number whose octets these are, least significant first. -/
def ofLE : List UInt8 → Nat
  | [] => 0
  | b :: bs => b.toNat + 256 * ofLE bs

/-- The lowest `k` octets, most significant first. -/
def toBE (k n : Nat) : List UInt8 := (toLE k n).reverse

/-- The number whose octets these are, most significant first. -/
def ofBE (bs : List UInt8) : Nat := ofLE bs.reverse

@[simp] theorem length_toLE (k n : Nat) : (toLE k n).length = k := by
  induction k generalizing n with
  | zero => rfl
  | succ k ih => rw [toLE, length_cons, ih]

@[simp] theorem length_toBE (k n : Nat) : (toBE k n).length = k := by
  rw [toBE, length_reverse, length_toLE]

theorem ofLE_toLE {k n : Nat} (h : n < 256 ^ k) : ofLE (toLE k n) = n := by
  induction k generalizing n with
  | zero =>
    rw [Nat.pow_zero, Nat.lt_one_iff] at h
    rw [h, toLE, ofLE]
  | succ k ih =>
    have hdiv : n / 256 < 256 ^ k := by
      rw [Nat.div_lt_iff_lt_mul (by decide)]
      rwa [Nat.pow_succ] at h
    rw [toLE, ofLE, ih hdiv, UInt8.toNat_ofNat']
    exact Nat.mod_add_div n 256

theorem toLE_ofLE (bs : List UInt8) : toLE bs.length (ofLE bs) = bs := by
  induction bs with
  | nil => rfl
  | cons b bs ih =>
    have hb : b.toNat < 256 := b.toNat_lt
    have hmod : UInt8.ofNat (b.toNat + 256 * ofLE bs) = b := by
      apply UInt8.toNat_inj.mp
      rw [UInt8.toNat_ofNat']
      omega
    have hdiv : (b.toNat + 256 * ofLE bs) / 256 = ofLE bs := by omega
    rw [length_cons, ofLE, toLE, hmod, hdiv, ih]

theorem ofLE_lt (bs : List UInt8) : ofLE bs < 256 ^ bs.length := by
  induction bs with
  | nil => exact Nat.one_pos
  | cons b bs ih =>
    have hb : b.toNat < 256 := b.toNat_lt
    rw [length_cons, ofLE, Nat.pow_succ]
    omega

theorem ofBE_toBE {k n : Nat} (h : n < 256 ^ k) : ofBE (toBE k n) = n := by
  rw [ofBE, toBE, reverse_reverse, ofLE_toLE h]

theorem toBE_ofBE (bs : List UInt8) : toBE bs.length (ofBE bs) = bs := by
  have h := toLE_ofLE bs.reverse
  rw [length_reverse] at h
  rw [toBE, ofBE, h, reverse_reverse]

end Octets
