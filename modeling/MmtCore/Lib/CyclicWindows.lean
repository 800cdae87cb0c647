/-!
# Cyclic lists of windows

A list of `n` windows of given durations laid end to end from the time 0, the last of which holds
on past its end.  Each time lies in exactly one of them, and a walk that adds up durations until
their sum exceeds the time stops there.  A time of the clock is taken to its phase in the cycle,
on both sides of the base.
-/

namespace MmtCore.Lib

open Nat Int

namespace Windows

/-- Where the window `i` starts. -/
def start (d : Nat → Nat) : Nat → Nat
  | 0 => 0
  | i + 1 => start d i + d i

@[simp] theorem start_zero (d : Nat → Nat) : start d 0 = 0 := rfl

theorem start_succ (d : Nat → Nat) (i : Nat) : start d (i + 1) = start d i + d i := rfl

theorem start_mono (d : Nat → Nat) {i j : Nat} (h : i ≤ j) : start d i ≤ start d j := by
  induction h with
  | refl => exact Nat.le_refl _
  | step _ ih => exact Nat.le_trans ih (Nat.le_add_right _ _)

/-- A bound on the durations bounds the starts. -/
theorem start_le_mul (d : Nat → Nat) (b : Nat) (hb : ∀ i, d i ≤ b) (i : Nat) :
    start d i ≤ i * b := by
  induction i with
  | zero => simp
  | succ i ih =>
    have hd : d i ≤ b := hb i
    rw [start_succ, succ_mul]
    omega

/-- The window `i` of `n` covers the time `t`: it has started by then, and it has not ended unless
it is the last one. -/
def Covers (d : Nat → Nat) (n i t : Nat) : Prop :=
  i < n ∧ start d i ≤ t ∧ (t < start d (i + 1) ∨ i + 1 = n)

variable {d : Nat → Nat}

theorem Covers.unique {n i j t : Nat} (hi : Covers d n i t) (hj : Covers d n j t) : i = j := by
  obtain ⟨hin, his, hie⟩ := hi
  obtain ⟨hjn, hjs, hje⟩ := hj
  rcases Nat.lt_trichotomy i j with hlt | heq | hgt
  · have hle : start d (i + 1) ≤ start d j := start_mono d hlt
    omega
  · exact heq
  · have hle : start d (j + 1) ≤ start d i := start_mono d hgt
    omega

/-- A walk over the windows from `i` on stops at the first one that ends after `t`. -/
def walk (d : Nat → Nat) (t : Nat) : Nat → Nat → Option Nat
  | 0, _ => none
  | k + 1, i => if t < start d (i + 1) then some i else walk d t k (i + 1)

/-- Where the walk stops the window covers the time; if it passes all windows, the last one does. -/
theorem walk_covers {t : Nat} {k i : Nat} (hi : start d i ≤ t) :
    (∀ j, walk d t k i = some j → Covers d (i + k) j t) ∧
      (walk d t k i = none → start d (i + k) ≤ t) := by
  induction k generalizing i with
  | zero => exact ⟨fun j hj => by simp [walk] at hj, fun _ => hi⟩
  | succ k ih =>
    have hadd : i + (k + 1) = i + 1 + k := by omega
    rw [walk, hadd]
    split
    · rename_i hlt
      refine ⟨fun j hj => ?_, fun h => by simp at h⟩
      rw [← Option.some.inj hj]
      exact ⟨by omega, hi, Or.inl hlt⟩
    · exact ih (by omega)

/-- The window at `t`, as the walk finds it. -/
def find (d : Nat → Nat) (n t : Nat) : Nat := (walk d t n 0).getD (n - 1)

theorem find_covers (d : Nat → Nat) {n : Nat} (hn : 0 < n) (t : Nat) :
    Covers d n (find d n t) t := by
  have hw := walk_covers (d := d) (t := t) (k := n) (i := 0) (Nat.zero_le t)
  rw [Nat.zero_add] at hw
  unfold find
  cases hf : walk d t n 0 with
  | some j => exact hw.1 j hf
  | none =>
    have hend : start d n ≤ t := hw.2 hf
    have hstart : start d (n - 1) ≤ start d n := start_mono d (sub_le n 1)
    exact ⟨Nat.sub_lt hn Nat.one_pos, Nat.le_trans hstart hend, Or.inr (Nat.sub_add_cancel hn)⟩

end Windows

/-! ## The phase of a time -/

/-- The phase of `now` in a cycle of length `c` from `base`, by the distance to the base on either
side. -/
def phase (c base now : Nat) : Nat :=
  if base ≤ now then (now - base) % c
  else if (base - now) % c = 0 then 0 else c - (base - now) % c

/-- The phase is the Euclidean remainder of the signed distance. -/
theorem phase_eq_emod {c : Nat} (hc : 0 < c) (base now : Nat) :
    (phase c base now : Int) = ((now : Int) - base) % c := by
  unfold phase
  split
  · rename_i hle
    rw [natCast_emod, ofNat_sub hle]
  · have hneg : (now : Int) - base = -((base - now : Nat) : Int) := by omega
    have hlt' : (base - now) % c < c := mod_lt _ hc
    have hdiv : (base - now : Nat) = c * ((base - now) / c) + (base - now) % c :=
      (div_add_mod _ _).symm
    rw [hneg]
    generalize (base - now) / c = q at hdiv
    generalize hr : (base - now) % c = r at hdiv hlt'
    rw [hdiv, natCast_add, natCast_mul]
    split
    · simp_all
    · have hsplit : -((c : Int) * q + r) = (c - r : Int) + c * (-(q : Int) - 1) := by
        rw [Int.mul_sub, Int.mul_neg, Int.mul_one]
        omega
      rw [hsplit, add_mul_emod_self_left, emod_eq_of_lt (by omega) (by omega)]
      omega

end MmtCore.Lib
