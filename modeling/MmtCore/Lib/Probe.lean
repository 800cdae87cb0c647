import Mathlib.Algebra.Group.Nat.Defs

/-!
# Computations that read a memory

A computation that asks for bytes by their index: what it returns on a memory, and which indices it
asks for.  A computation that asks for indices below a bound only is determined by the bytes there
(`Within.congr`).  A loop counts its rounds down and returns `none` when it has none left, so
that it ends on a memory when it returns something for some number of rounds.
-/

namespace MmtCore.Lib

open List

/-- A memory: what lies past the end of a buffer is there too. -/
abbrev Memory := Nat → UInt8

/-- A computation that reads bytes. -/
inductive Probe (α : Type) where
  | done (a : α)
  | read (i : Nat) (k : UInt8 → Probe α)

namespace Probe

variable {α β : Type} {mem mem' : Memory} {n : Nat}

/-- One computation after another. -/
def bind : Probe α → (α → Probe β) → Probe β
  | done a, f => f a
  | read i k, f => read i fun b => (k b).bind f

/-- The byte at an index. -/
def byte (i : Nat) : Probe UInt8 := read i done

instance : Monad Probe where
  pure := done
  bind := bind

/-- What the computation returns. -/
def value (mem : Memory) : Probe α → α
  | done a => a
  | read i k => value mem (k (mem i))

/-- The indices it reads, in order. -/
def reads (mem : Memory) : Probe α → List Nat
  | done _ => []
  | read i k => i :: reads mem (k (mem i))

@[simp] theorem value_pure (a : α) : (pure a : Probe α).value mem = a := rfl

@[simp] theorem reads_pure (a : α) : (pure a : Probe α).reads mem = [] := rfl

@[simp] theorem value_byte (i : Nat) : (byte i).value mem = mem i := rfl

@[simp] theorem reads_byte (i : Nat) : (byte i).reads mem = [i] := rfl

@[simp] theorem value_bind (p : Probe α) (f : α → Probe β) :
    (p >>= f).value mem = (f (p.value mem)).value mem := by
  induction p with
  | done a => rfl
  | read i k ih => exact ih (mem i)

@[simp] theorem reads_bind (p : Probe α) (f : α → Probe β) :
    (p >>= f).reads mem = p.reads mem ++ (f (p.value mem)).reads mem := by
  induction p with
  | done a => rfl
  | read i k ih => exact congrArg (i :: ·) (ih (mem i))

@[simp] theorem value_ite (c : Prop) [Decidable c] (p q : Probe α) :
    (if c then p else q).value mem = if c then p.value mem else q.value mem := by
  split <;> rfl

@[simp] theorem reads_ite (c : Prop) [Decidable c] (p q : Probe α) :
    (if c then p else q).reads mem = if c then p.reads mem else q.reads mem := by
  split <;> rfl

/-! ## Numbers and strings of bytes -/

end Probe

/-- A number in two bytes, the high one first. -/
def be16 (a b : UInt8) : UInt16 := UInt16.ofNat (a.toNat * 2 ^ 8 + b.toNat)

/-- A number in four bytes, the high one first. -/
def be32 (a b c d : UInt8) : UInt32 :=
  UInt32.ofNat (a.toNat * 2 ^ 24 + b.toNat * 2 ^ 16 + c.toNat * 2 ^ 8 + d.toNat)

theorem be16_toNat (a b : UInt8) : (be16 a b).toNat = a.toNat * 256 + b.toNat := by
  have ha := a.toNat_lt
  have hb := b.toNat_lt
  rw [be16, UInt16.toNat_ofNat']
  omega

namespace Probe

variable {α β : Type} {mem mem' : Memory} {n : Nat}

/-- The number in the two bytes from an index on. -/
def word (i : Nat) : Probe UInt16 := byte i >>= fun a => byte (i + 1) >>= fun b => pure (be16 a b)

/-- The number in the four bytes from an index on. -/
def dword (i : Nat) : Probe UInt32 :=
  byte i >>= fun a => byte (i + 1) >>= fun b => byte (i + 2) >>= fun c =>
    byte (i + 3) >>= fun d => pure (be32 a b c d)

/-- The `n` bytes from an index on. -/
def bytes (i : Nat) : Nat → Probe (List UInt8)
  | 0 => pure []
  | n + 1 => byte i >>= fun a => bytes (i + 1) n >>= fun l => pure (a :: l)

@[simp] theorem value_word (i : Nat) : (word i).value mem = be16 (mem i) (mem (i + 1)) := rfl

@[simp] theorem value_dword (i : Nat) :
    (dword i).value mem = be32 (mem i) (mem (i + 1)) (mem (i + 2)) (mem (i + 3)) := rfl

/-- The `n` bytes of a memory from an index on. -/
def slice (mem : Memory) (i n : Nat) : List UInt8 := (List.range' i n).map mem

@[simp] theorem length_slice (mem : Memory) (i n : Nat) : (slice mem i n).length = n := by
  simp [slice]

@[simp] theorem value_bytes (i n : Nat) : (bytes i n).value mem = slice mem i n := by
  induction n generalizing i with
  | zero => rfl
  | succ n ih =>
    rw [bytes, value_bind, value_bind, value_byte, value_pure, ih]
    rfl

/-! ## Reads within a bound -/

/-- Every index it reads is below `n`. -/
def Within (mem : Memory) (n : Nat) (p : Probe α) : Prop := ∀ i ∈ p.reads mem, i < n

@[simp] theorem within_pure (a : α) : Within mem n (pure a : Probe α) := by
  intro i hi
  cases hi

variable {i : Nat} {p : Probe α}

@[simp] theorem within_byte : Within mem n (byte i) ↔ i < n := by
  simp [Within]

@[simp] theorem within_bind {f : α → Probe β} :
    Within mem n (p >>= f) ↔ Within mem n p ∧ Within mem n (f (p.value mem)) := by
  simp [Within, or_imp, forall_and]

@[simp] theorem within_word : Within mem n (word i) ↔ i + 1 < n := by
  simp only [word, within_bind, within_byte, within_pure, value_byte, and_true]
  omega

@[simp] theorem within_dword : Within mem n (dword i) ↔ i + 3 < n := by
  simp only [dword, within_bind, within_byte, within_pure, value_byte, and_true]
  omega

theorem within_bytes {k : Nat} (h : i + k ≤ n) : Within mem n (bytes i k) := by
  induction k generalizing i with
  | zero => exact within_pure _
  | succ k ih =>
    rw [bytes, within_bind, within_bind]
    exact ⟨within_byte.mpr (by omega), ih (by omega), within_pure _⟩

theorem Within.of_le {m : Nat} (h : Within mem m p) (hmn : m ≤ n) : Within mem n p :=
  fun i hi => Nat.lt_of_lt_of_le (h i hi) hmn

/-- Memories that agree on what is read cannot be told apart. -/
theorem congr_of_reads (p : Probe α) (h : ∀ i ∈ p.reads mem, mem i = mem' i) :
    p.value mem' = p.value mem ∧ p.reads mem' = p.reads mem := by
  induction p with
  | done a => exact ⟨rfl, rfl⟩
  | read i k ih =>
    simp_all [value, reads]

/-- A computation that reads below `n` is a function of the bytes there. -/
theorem Within.congr (h : Within mem n p) (heq : ∀ i < n, mem i = mem' i) :
    p.value mem' = p.value mem ∧ Within mem' n p := by
  grind [Within, congr_of_reads]

/-! ## Reads within a set -/

/-- Every index it reads lies in `S`. -/
def Confined (mem : Memory) (S : Nat → Prop) (p : Probe α) : Prop := ∀ i ∈ p.reads mem, S i

section Confined

variable {S : Nat → Prop}

theorem Within.confined {p : Probe α} (h : Within mem n p) (hS : ∀ i < n, S i) :
    Confined mem S p :=
  fun i hi => hS i (h i hi)

theorem confined_pure (a : α) : Confined mem S (pure a : Probe α) := by
  intro i hi
  cases hi

theorem confined_bind {p : Probe α} {f : α → Probe β} (hp : Confined mem S p)
    (hf : Confined mem S (f (p.value mem))) : Confined mem S (p >>= f) := by
  intro i hi
  rw [reads_bind, mem_append] at hi
  exact hi.elim (hp i) (hf i)

theorem confined_bytes {i k : Nat} (h : ∀ j, i ≤ j → j < i + k → S j) :
    Confined mem S (bytes i k) := by
  induction k generalizing i with
  | zero => exact confined_pure _
  | succ k ih =>
    refine confined_bind (fun j hj => ?_) (confined_bind (ih fun j h1 h2 => ?_) (confined_pure _))
    · rw [reads_byte, mem_singleton] at hj
      exact h j (by omega) (by omega)
    · exact h j (by omega) (by omega)

theorem confined_ite {c : Prop} [Decidable c] {p q : Probe α} (hp : c → Confined mem S p)
    (hq : ¬c → Confined mem S q) : Confined mem S (if c then p else q) := by
  split
  · exact hp ‹_›
  · exact hq ‹_›

end Confined

/-! ## What a computation yields -/

/-- The computation reads below `n`, and it returns the values with a property and no others. -/
def Yields (mem : Memory) (n : Nat) (p : Probe (Option α)) (Q : α → Prop) : Prop :=
  Within mem n p ∧ ∀ a, p.value mem = some a ↔ Q a

section Yields

variable {Q : α → Prop} {p q : Probe (Option α)}

theorem yields_none (h : ∀ a, ¬Q a) : Yields mem n (pure none) Q := by
  refine ⟨within_pure _, fun a => ⟨fun hv => ?_, fun hq => absurd hq (h a)⟩⟩
  cases hv

theorem yields_some {x : α} (h : ∀ a, Q a ↔ x = a) : Yields mem n (pure (some x)) Q :=
  ⟨within_pure _, fun a => ⟨fun hv => (h a).mpr (Option.some.inj hv),
    fun hq => congrArg some ((h a).mp hq)⟩⟩

theorem yields_ite {c : Prop} [Decidable c] (hp : c → Yields mem n p Q)
    (hq : ¬c → Yields mem n q Q) : Yields mem n (if c then p else q) Q := by
  split
  · exact hp ‹_›
  · exact hq ‹_›

theorem yields_bind {r : Probe β} {f : β → Probe (Option α)} (hr : Within mem n r)
    (hf : Yields mem n (f (r.value mem)) Q) : Yields mem n (r >>= f) Q :=
  ⟨within_bind.mpr ⟨hr, hf.1⟩, fun a => by rw [value_bind]; exact hf.2 a⟩

end Yields

/-! ## Bytes at a place -/

/-- The bytes of a list lie in the memory from an index on. -/
def Lies (mem : Memory) (off : Nat) : List UInt8 → Prop
  | [] => True
  | a :: l => mem off = a ∧ Lies mem (off + 1) l

theorem lies_append {off : Nat} {l m : List UInt8} :
    Lies mem off (l ++ m) ↔ Lies mem off l ∧ Lies mem (off + l.length) m := by
  induction l generalizing off with
  | nil => simp [Lies]
  | cons a l ih =>
    have hadd : off + 1 + l.length = off + (l.length + 1) := by omega
    rw [cons_append, Lies, Lies, ih, length_cons, hadd, and_assoc]

theorem Lies.slice_eq {off : Nat} {l : List UInt8} (h : Lies mem off l) :
    slice mem off l.length = l := by
  induction l generalizing off with
  | nil => rfl
  | cons a l ih =>
    have hrest := ih h.2
    rw [slice] at hrest ⊢
    rw [length_cons, range'_succ, map_cons, hrest, h.1]

end Probe

end MmtCore.Lib
