import Mathlib.Data.List.Basic

/-!
# Records one after the other

A loop that reads records from the front of a byte string until none is left, and gives each to a
function that updates a state.  Over records that were written one after the other it is a fold.
-/

namespace MmtCore.Lib

open List

variable {ε ρ σ : Type} {next : List UInt8 → Except ε (ρ × List UInt8)} {fn : σ → ρ → Except ε σ}
  {s : σ} {x : ρ} {b rest : List UInt8}

/-- A reader that takes bytes whenever it succeeds. -/
def Consumes (next : List UInt8 → Except ε (ρ × List UInt8)) : Prop :=
  ∀ {b x rest}, next b = .ok (x, rest) → rest.length < b.length

def eachRecord (next : List UInt8 → Except ε (ρ × List UInt8)) (fn : σ → ρ → Except ε σ) :
    Nat → σ → List UInt8 → Except ε σ
  | _, s, [] => .ok s
  | 0, s, _ :: _ => .ok s
  | n + 1, s, a :: b => do
    let r ← next (a :: b)
    let s ← fn s r.1
    eachRecord next fn n s r.2

/-- The loop; every record takes a byte at least. -/
def forEachRecord (next : List UInt8 → Except ε (ρ × List UInt8)) (fn : σ → ρ → Except ε σ)
    (s : σ) (b : List UInt8) : Except ε σ :=
  eachRecord next fn b.length s b

@[simp] theorem eachRecord_nil (n : Nat) : eachRecord next fn n s [] = .ok s := by
  cases n <;> rfl

/-- Fuel for the bytes that are there is enough. -/
theorem eachRecord_fuel (hnext : Consumes next) {n m : Nat} (hn : b.length ≤ n)
    (hm : b.length ≤ m) : eachRecord next fn n s b = eachRecord next fn m s b := by
  induction n generalizing m s b with
  | zero =>
    cases b with
    | nil => rw [eachRecord_nil, eachRecord_nil]
    | cons => cases hn
  | succ n ih =>
    cases b with
    | nil => rw [eachRecord_nil, eachRecord_nil]
    | cons a b =>
      cases m with
      | zero => cases hm
      | succ m =>
        rw [eachRecord, eachRecord]
        cases hread : next (a :: b) with
        | error e => rfl
        | ok r =>
          have hlt := hnext hread
          change (fn s r.1 >>= fun s => eachRecord next fn n s r.2) =
            fn s r.1 >>= fun s => eachRecord next fn m s r.2
          grind

@[simp] theorem forEachRecord_nil : forEachRecord next fn s [] = .ok s := rfl

theorem forEachRecord_read (hnext : Consumes next) (h : next b = .ok (x, rest)) :
    forEachRecord next fn s b = fn s x >>= fun s => forEachRecord next fn s rest := by
  have hlt := hnext h
  cases b with
  | nil => cases hlt
  | cons a b =>
    have hloop : forEachRecord next fn s (a :: b) =
        fn s x >>= fun s => eachRecord next fn b.length s rest := by
      rw [forEachRecord, length_cons, eachRecord, h]
      rfl
    rw [hloop]
    congr 1
    rw [length_cons] at hlt
    exact funext fun s => eachRecord_fuel hnext (by omega) (Nat.le_refl _)

theorem forEachRecord_fail {e : ε} (hb : b ≠ []) (h : next b = .error e) :
    forEachRecord next fn s b = .error e := by
  cases b with
  | nil => exact absurd rfl hb
  | cons a b =>
    rw [forEachRecord, length_cons, eachRecord, h]
    rfl

/-- Records that were written are read in their order. -/
theorem forEachRecord_flatMap {α : Type} {enc : α → List UInt8} {dec : α → ρ} {l : List α}
    (hnext : Consumes next)
    (h : ∀ r ∈ l, ∀ rest, next (enc r ++ rest) = .ok (dec r, rest)) :
    forEachRecord next fn s (l.flatMap enc ++ rest) =
      l.foldlM (fun s r => fn s (dec r)) s >>= fun s => forEachRecord next fn s rest := by
  induction l generalizing s with
  | nil => rfl
  | cons r l ih =>
    rw [flatMap_cons, append_assoc, forEachRecord_read hnext (h r mem_cons_self _),
      foldlM_cons, bind_assoc]
    simp_all

/-- A fold that acts on a part of the state is a fold over that part. -/
theorem foldlM_embed {α τ : Type} {fn' : τ → α → Except ε τ} {g : τ → σ} {dec : α → ρ} {l : List α}
    (h : ∀ a ∈ l, ∀ t y, fn (g t) (dec a) = .ok y ↔ ∃ t', fn' t a = .ok t' ∧ y = g t') {t : τ}
    {y : σ} :
    (l.map dec).foldlM fn (g t) = .ok y ↔ ∃ t', l.foldlM fn' t = .ok t' ∧ y = g t' := by
  induction l generalizing t with
  | nil =>
    constructor
    · exact fun h => ⟨t, rfl, (Except.ok.inj h).symm⟩
    · rintro ⟨t', ht, rfl⟩
      rw [← Except.ok.inj ht]
      rfl
  | cons a l ih =>
    have hfirst := h a mem_cons_self t
    have hrest := fun t => ih (t := t) fun a' ha => h a' (mem_cons_of_mem _ ha)
    rw [map_cons, foldlM_cons, foldlM_cons]
    cases hfn : fn' t a with
    | error e =>
      cases hgn : fn (g t) (dec a) with
      | error e' => exact iff_of_false (fun h => nomatch h) (fun ⟨_, h, _⟩ => nomatch h)
      | ok y' =>
        obtain ⟨t', ht, -⟩ := (hfirst y').1 hgn
        rw [hfn] at ht
        cases ht
    | ok t' =>
      rw [(hfirst (g t')).2 ⟨t', hfn, rfl⟩]
      exact hrest t'

end MmtCore.Lib
