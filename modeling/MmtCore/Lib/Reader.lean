import Mathlib.Data.List.Basic

/-!
# Reading from a byte string

What is read at the front of a byte string, and what is left of it.  A reader that meets too few
bytes reads nothing.
-/

namespace MmtCore.Lib

open List UInt8

/-- `n` bytes and what follows them. -/
def takeBytes (n : Nat) (b : List UInt8) : Option (List UInt8 × List UInt8) :=
  if n ≤ b.length then some (b.take n, b.drop n) else none

/-- A number in two bytes, the high one first. -/
def putUint16 (n : Nat) : List UInt8 := [UInt8.ofNat (n / 256), UInt8.ofNat n]

def takeUint16 : List UInt8 → Option (Nat × List UInt8)
  | a :: b :: rest => some (a.toNat * 256 + b.toNat, rest)
  | _ => none

def takeUint8 : List UInt8 → Option (UInt8 × List UInt8)
  | a :: rest => some (a, rest)
  | [] => none

variable {n : Nat} {b v rest : List UInt8}

@[simp] theorem takeUint8_cons (a : UInt8) : takeUint8 (a :: rest) = some (a, rest) := rfl

theorem takeBytes_append (v rest : List UInt8) :
    takeBytes v.length (v ++ rest) = some (v, rest) := by
  unfold takeBytes
  rw [if_pos (by simp), take_left, drop_left]

theorem takeBytes_of_length (h : v.length = n) : takeBytes n (v ++ rest) = some (v, rest) := by
  rw [← h]
  exact takeBytes_append v rest

/-- What is read is what was there. -/
theorem takeBytes_eq_some (h : takeBytes n b = some (v, rest)) :
    v.length = n ∧ b = v ++ rest := by
  grind [takeBytes, take_append_drop]

/-- What follows is left alone. -/
theorem takeBytes_more (h : takeBytes n b = some (v, rest)) (c : List UInt8) :
    takeBytes n (b ++ c) = some (v, rest ++ c) := by
  obtain ⟨hlen, rfl⟩ := takeBytes_eq_some h
  rw [append_assoc]
  exact takeBytes_of_length hlen

theorem takeUint8_more {a : UInt8} (h : takeUint8 b = some (a, rest)) (c : List UInt8) :
    takeUint8 (b ++ c) = some (a, rest ++ c) := by
  cases b with
  | nil => cases h
  | cons x b =>
    cases h
    rfl

theorem takeUint16_more {a : Nat} (h : takeUint16 b = some (a, rest)) (c : List UInt8) :
    takeUint16 (b ++ c) = some (a, rest ++ c) := by
  cases b with
  | nil => cases h
  | cons x b =>
    cases b with
    | nil => cases h
    | cons y b =>
      cases h
      rfl

theorem length_putUint16 : (putUint16 n).length = 2 := rfl

theorem takeUint16_put (h : n < 65536) :
    takeUint16 (putUint16 n ++ rest) = some (n, rest) := by
  change some ((ofNat (n / 256)).toNat * 256 + (ofNat n).toNat, rest) = some (n, rest)
  grind [toNat_ofNat']

theorem takeUint16_lt {a : Nat} (h : takeUint16 b = some (a, rest)) : a < 65536 := by
  unfold takeUint16 at h
  split at h
  · case h_1 x y tail =>
    cases h
    have hx := x.toNat_lt
    have hy := y.toNat_lt
    omega
  · cases h

/-! ## Readers that may fail -/

section

variable {ε α β : Type} {r : Except ε α}
variable {f : α → Except ε β} {y : β}

/-- What a reader that goes on has read first. -/
theorem ok_of_bind (h : (r >>= f) = .ok y) : ∃ x, r = .ok x ∧ f x = .ok y := by
  cases r with
  | error => cases h
  | ok x => exact ⟨x, rfl, h⟩

theorem bind_of_ok {x : α} (h : r = .ok x) : (r >>= f) = f x := by
  rw [h]
  rfl

theorem ok_of_map {f : α → β} (h : r.map f = .ok y) : ∃ x, r = .ok x ∧ f x = y := by
  cases r with
  | error => cases h
  | ok x => exact ⟨x, rfl, Except.ok.inj h⟩

end

end MmtCore.Lib
