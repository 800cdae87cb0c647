import Mathlib.Algebra.Group.Nat.Defs
import Mathlib.Data.List.Basic

/-!
# Numbers as bits

A number in so many bits, the high one first, and the number that bits are.  Bytes are eight bits
each.
-/

namespace MmtCore.Lib

open List Nat

/-- The low `n` bits of `v`, the high one first. -/
def msb : Nat → Nat → List Bool
  | 0, _ => []
  | n + 1, v => v.testBit n :: msb n v

def ofBits : List Bool → Nat
  | [] => 0
  | b :: l => b.toNat * 2 ^ l.length + ofBits l

def bytesBits (l : List UInt8) : List Bool := l.flatMap fun b => msb 8 b.toNat

variable {n v : Nat} {l : List Bool}

@[simp] theorem length_msb (n v : Nat) : (msb n v).length = n := by
  induction n with
  | zero => rfl
  | succ n ih => rw [msb, length_cons, ih]

@[simp] theorem msb_zero_left (v : Nat) : msb 0 v = [] := rfl

/-- The high bits, then the low ones. -/
theorem msb_add (a b v : Nat) : msb (a + b) v = msb a (v / 2 ^ b) ++ msb b v := by
  induction a with
  | zero => rw [zero_add, msb_zero_left, nil_append]
  | succ a ih =>
    grind [msb]

theorem msb_congr {w : Nat} (h : v % 2 ^ n = w % 2 ^ n) : msb n v = msb n w := by
  have hbits : ∀ i < n, v.testBit i = w.testBit i := by
    intro i hi
    have hv := testBit_mod_two_pow v n i
    simp_all
  clear h
  induction n with
  | zero => rfl
  | succ n ih =>
    rw [msb, msb, hbits n (lt_succ_self n), ih fun i hi => hbits i (lt_succ_of_lt hi)]

theorem msb_mod (n v : Nat) : msb n (v % 2 ^ n) = msb n v := msb_congr (mod_mod v (2 ^ n))

/-- Two numbers side by side. -/
theorem msb_join {k t h c : Nat} (hc : c < 2 ^ t) :
    msb (k + t) (h * 2 ^ t + c) = msb k h ++ msb t c := by
  have hdiv : (h * 2 ^ t + c) / 2 ^ t = h := by
    rw [Nat.mul_comm, Nat.mul_add_div (Nat.two_pow_pos t), Nat.div_eq_of_lt hc, Nat.add_zero]
  grind [mul_comm, mul_add_mod, msb_add, msb_congr]

theorem msb_zero_right (n : Nat) : msb n 0 = List.replicate n false := by
  induction n with
  | zero => rfl
  | succ n ih => rw [msb, ih, zero_testBit, replicate_succ]

theorem ofBits_append (l m : List Bool) :
    ofBits (l ++ m) = ofBits l * 2 ^ m.length + ofBits m := by
  induction l with
  | nil => rw [List.nil_append, ofBits, Nat.zero_mul, Nat.zero_add]
  | cons b l ih =>
    rw [List.cons_append, ofBits, ofBits, ih, List.length_append, Nat.pow_add, Nat.add_mul,
      mul_assoc, add_assoc]

theorem ofBits_lt (l : List Bool) : ofBits l < 2 ^ l.length := by
  induction l with
  | nil => exact Nat.one_pos
  | cons b l ih =>
    rw [ofBits, length_cons, pow_succ]
    have hb := Bool.toNat_le b
    have hmul : b.toNat * 2 ^ l.length ≤ 1 * 2 ^ l.length := mul_le_mul_right _ hb
    omega

theorem ofBits_msb (n v : Nat) : ofBits (msb n v) = v % 2 ^ n := by
  induction n with
  | zero => rw [msb_zero_left, ofBits, pow_zero, mod_one]
  | succ n ih =>
    rw [msb, ofBits, ih, length_msb, testBit_eq_decide_div_mod_eq, mod_pow_succ,
      mul_comm, add_comm]
    rcases mod_two_eq_zero_or_one (v / 2 ^ n) with h | h
    · rw [h]
      rfl
    · rw [h]
      rfl

theorem ofBits_msb_of_lt (h : v < 2 ^ n) : ofBits (msb n v) = v := by
  rw [ofBits_msb, mod_eq_of_lt h]

@[simp] theorem length_bytesBits (l : List UInt8) : (bytesBits l).length = 8 * l.length := by
  unfold bytesBits
  induction l with
  | nil => rfl
  | cons b l ih =>
    rw [flatMap_cons, length_append, ih, length_msb, length_cons]
    omega

@[simp] theorem bytesBits_nil : bytesBits [] = [] := rfl

theorem bytesBits_cons (b : UInt8) (l : List UInt8) :
    bytesBits (b :: l) = msb 8 b.toNat ++ bytesBits l := rfl

theorem bytesBits_append (l m : List UInt8) :
    bytesBits (l ++ m) = bytesBits l ++ bytesBits m := flatMap_append

theorem bytesBits_singleton (b : UInt8) : bytesBits [b] = msb 8 b.toNat := by
  rw [bytesBits_cons, bytesBits_nil, append_nil]

end MmtCore.Lib
