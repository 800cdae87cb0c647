import Mathlib.Data.List.GetD
import MmtCore.Lib.Probe

/-!
# Writes to a memory

Bytes put into a memory at an index, and bytes moved within one: what is there afterwards, in the
range and outside of it.
-/

namespace MmtCore.Lib

open List

namespace Probe

variable {mem : Memory} {i j k n : Nat} {l : List UInt8}

/-- The bytes are put there from `i` on. -/
def store (mem : Memory) (i : Nat) (l : List UInt8) : Memory := fun j =>
  if i ≤ j ∧ j < i + l.length then l.getD (j - i) 0 else mem j

/-- `memmove`. -/
def move (mem : Memory) (dst src n : Nat) : Memory := fun j =>
  if dst ≤ j ∧ j < dst + n then mem (src + (j - dst)) else mem j

theorem store_outside (h : j < i ∨ i + l.length ≤ j) : store mem i l j = mem j :=
  if_neg (by omega)

theorem store_inside (h : k < l.length) : store mem i l (i + k) = l.getD k 0 := by
  unfold store
  rw [if_pos (by omega), Nat.add_sub_cancel_left]

theorem move_outside {dst src : Nat} (h : j < dst ∨ dst + n ≤ j) : move mem dst src n j = mem j :=
  if_neg (by omega)

theorem move_inside {dst src : Nat} (h : k < n) : move mem dst src n (dst + k) = mem (src + k) := by
  unfold move
  rw [if_pos (by omega), Nat.add_sub_cancel_left]

theorem move_zero {dst src : Nat} : move mem dst src 0 = mem := by
  funext j
  exact move_outside (by omega)

/-! ## Ranges -/

theorem getD_slice (mem : Memory) (i : Nat) (h : k < n) :
    (slice mem i n).getD k 0 = mem (i + k) := by
  grind [slice]

/-- A range is its bytes. -/
theorem slice_eq_iff : slice mem i l.length = l ↔ ∀ k < l.length, mem (i + k) = l.getD k 0 := by
  constructor
  · intro h k hk
    rw [← getD_slice mem i hk, h]
  · intro h
    refine ext_getElem (length_slice mem i _) fun k hk hk' => ?_
    have hbyte := h k hk'
    rw [← getD_slice mem i hk', getD_eq_getElem _ _ hk, getD_eq_getElem _ _ hk'] at hbyte
    exact hbyte

theorem slice_congr {mem' : Memory} (h : ∀ k < n, mem (i + k) = mem' (j + k)) :
    slice mem i n = slice mem' j n := by
  grind [length_slice, slice_eq_iff]

theorem slice_store : slice (store mem i l) i l.length = l :=
  slice_eq_iff.2 fun _ hk => store_inside hk

theorem slice_append (mem : Memory) (i m n : Nat) :
    slice mem i (m + n) = slice mem i m ++ slice mem (i + m) n := by
  unfold slice
  rw [← range'_append_1, map_append]

end Probe

end MmtCore.Lib
