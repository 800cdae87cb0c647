import Mathlib.Data.List.Infix
import Mathlib.Tactic.Ring

/-!
# Byte strings as Go has them

A Go string is a sequence of bytes that need not be UTF-8.  This module has what `unicode/utf8`,
`strings` and `strconv` do with one: runes, `TrimSpace`, `ToLower`, `Atoi` and the decimal text of a
number.
-/

namespace MmtCore.Lib

open List UInt8

abbrev Bytes := List UInt8

/-- The bytes of an ASCII text. -/
def txt (s : String) : Bytes := s.toList.map fun c => c.toNat.toUInt8

/-! ## Runes -/

/-- `utf8.RuneError`. -/
def runeError : Nat := 0xFFFD

/-- How many bytes follow a leading byte, and what the first of them may be. -/
def lead (b : UInt8) : Option (Nat × UInt8 × UInt8) :=
  if 0xC2 ≤ b ∧ b ≤ 0xDF then some (1, 0x80, 0xBF)
  else if b = 0xE0 then some (2, 0xA0, 0xBF)
  else if b = 0xED then some (2, 0x80, 0x9F)
  else if 0xE1 ≤ b ∧ b ≤ 0xEF then some (2, 0x80, 0xBF)
  else if b = 0xF0 then some (3, 0x90, 0xBF)
  else if b = 0xF4 then some (3, 0x80, 0x8F)
  else if 0xF1 ≤ b ∧ b ≤ 0xF3 then some (3, 0x80, 0xBF)
  else none

/-- The rune above ASCII that `b` begins, and its width. -/
def decodeWide (b : UInt8) (s : Bytes) : Nat × Nat :=
  match lead b, s with
  | some (1, lo, hi), b₁ :: _ =>
    if lo ≤ b₁ ∧ b₁ ≤ hi then (b.toNat % 32 * 64 + b₁.toNat % 64, 2) else (runeError, 1)
  | some (2, lo, hi), b₁ :: b₂ :: _ =>
    if lo ≤ b₁ ∧ b₁ ≤ hi ∧ 0x80 ≤ b₂ ∧ b₂ ≤ 0xBF then
      ((b.toNat % 16 * 64 + b₁.toNat % 64) * 64 + b₂.toNat % 64, 3)
    else (runeError, 1)
  | some (3, lo, hi), b₁ :: b₂ :: b₃ :: _ =>
    if lo ≤ b₁ ∧ b₁ ≤ hi ∧ 0x80 ≤ b₂ ∧ b₂ ≤ 0xBF ∧ 0x80 ≤ b₃ ∧ b₃ ≤ 0xBF then
      (((b.toNat % 8 * 64 + b₁.toNat % 64) * 64 + b₂.toNat % 64) * 64 + b₃.toNat % 64, 4)
    else (runeError, 1)
  | _, _ => (runeError, 1)

/-- `utf8.DecodeRune`: the rune at the front and its width. -/
def decodeRune : Bytes → Nat × Nat
  | [] => (runeError, 0)
  | b :: s => if b < 0x80 then (b.toNat, 1) else decodeWide b s

/-- `utf8.AppendRune`. -/
def encodeRune (r : Nat) : Bytes :=
  if r < 0x80 then [r.toUInt8]
  else if r < 0x800 then [(0xC0 + r / 64).toUInt8, (0x80 + r % 64).toUInt8]
  else if (0xD800 ≤ r ∧ r < 0xE000) ∨ 0x10FFFF < r then [0xEF, 0xBF, 0xBD]
  else if r < 0x10000 then
    [(0xE0 + r / 4096).toUInt8, (0x80 + r / 64 % 64).toUInt8, (0x80 + r % 64).toUInt8]
  else
    [(0xF0 + r / 262144).toUInt8, (0x80 + r / 4096 % 64).toUInt8, (0x80 + r / 64 % 64).toUInt8,
      (0x80 + r % 64).toUInt8]

/-- The upper-case runes above ASCII: first, last, distance, and what is added for lower case. -/
def caseRanges : List (Nat × Nat × Nat × Int) :=
  [(0xC0, 0xD6, 1, 32), (0xD8, 0xDE, 1, 32), (0x100, 0x12E, 2, 1), (0x130, 0x130, 1, -199),
    (0x132, 0x136, 2, 1), (0x139, 0x147, 2, 1), (0x14A, 0x176, 2, 1), (0x178, 0x178, 1, -121),
    (0x179, 0x17D, 2, 1), (0x181, 0x181, 1, 210), (0x182, 0x184, 2, 1), (0x186, 0x186, 1, 206),
    (0x187, 0x187, 1, 1), (0x189, 0x18A, 1, 205), (0x18B, 0x18B, 1, 1), (0x18E, 0x18E, 1, 79),
    (0x18F, 0x18F, 1, 202), (0x190, 0x190, 1, 203), (0x191, 0x191, 1, 1), (0x193, 0x193, 1, 205),
    (0x194, 0x194, 1, 207), (0x196, 0x196, 1, 211), (0x197, 0x197, 1, 209), (0x198, 0x198, 1, 1),
    (0x19C, 0x19C, 1, 211), (0x19D, 0x19D, 1, 213), (0x19F, 0x19F, 1, 214), (0x1A0, 0x1A4, 2, 1),
    (0x1A6, 0x1A6, 1, 218), (0x1A7, 0x1A7, 1, 1), (0x1A9, 0x1A9, 1, 218), (0x1AC, 0x1AC, 1, 1),
    (0x1AE, 0x1AE, 1, 218), (0x1AF, 0x1AF, 1, 1), (0x1B1, 0x1B2, 1, 217), (0x1B3, 0x1B5, 2, 1),
    (0x1B7, 0x1B7, 1, 219), (0x1B8, 0x1B8, 1, 1), (0x1BC, 0x1BC, 1, 1), (0x1C4, 0x1C4, 1, 2),
    (0x1C5, 0x1C5, 1, 1), (0x1C7, 0x1C7, 1, 2), (0x1C8, 0x1C8, 1, 1), (0x1CA, 0x1CA, 1, 2),
    (0x1CB, 0x1DB, 2, 1), (0x1DE, 0x1EE, 2, 1), (0x1F1, 0x1F1, 1, 2), (0x1F2, 0x1F4, 2, 1),
    (0x1F6, 0x1F6, 1, -97), (0x1F7, 0x1F7, 1, -56), (0x1F8, 0x21E, 2, 1), (0x220, 0x220, 1, -130),
    (0x222, 0x232, 2, 1), (0x23A, 0x23A, 1, 10795), (0x23B, 0x23B, 1, 1), (0x23D, 0x23D, 1, -163),
    (0x23E, 0x23E, 1, 10792), (0x241, 0x241, 1, 1), (0x243, 0x243, 1, -195), (0x244, 0x244, 1, 69),
    (0x245, 0x245, 1, 71), (0x246, 0x24E, 2, 1), (0x370, 0x372, 2, 1), (0x376, 0x376, 1, 1),
    (0x37F, 0x37F, 1, 116), (0x386, 0x386, 1, 38), (0x388, 0x38A, 1, 37), (0x38C, 0x38C, 1, 64),
    (0x38E, 0x38F, 1, 63), (0x391, 0x3A1, 1, 32), (0x3A3, 0x3AB, 1, 32), (0x3CF, 0x3CF, 1, 8),
    (0x3D8, 0x3EE, 2, 1), (0x3F4, 0x3F4, 1, -60), (0x3F7, 0x3F7, 1, 1), (0x3F9, 0x3F9, 1, -7),
    (0x3FA, 0x3FA, 1, 1), (0x3FD, 0x3FF, 1, -130), (0x400, 0x40F, 1, 80), (0x410, 0x42F, 1, 32),
    (0x460, 0x480, 2, 1), (0x48A, 0x4BE, 2, 1), (0x4C0, 0x4C0, 1, 15), (0x4C1, 0x4CD, 2, 1),
    (0x4D0, 0x52E, 2, 1), (0x531, 0x556, 1, 48), (0x10A0, 0x10C5, 1, 7264),
    (0x10C7, 0x10C7, 1, 7264), (0x10CD, 0x10CD, 1, 7264), (0x13A0, 0x13EF, 1, 38864),
    (0x13F0, 0x13F5, 1, 8), (0x1C90, 0x1CBA, 1, -3008), (0x1CBD, 0x1CBF, 1, -3008),
    (0x1E00, 0x1E94, 2, 1), (0x1E9E, 0x1E9E, 1, -7615), (0x1EA0, 0x1EFE, 2, 1),
    (0x1F08, 0x1F0F, 1, -8), (0x1F18, 0x1F1D, 1, -8), (0x1F28, 0x1F2F, 1, -8),
    (0x1F38, 0x1F3F, 1, -8), (0x1F48, 0x1F4D, 1, -8), (0x1F59, 0x1F5F, 2, -8),
    (0x1F68, 0x1F6F, 1, -8), (0x1F88, 0x1F8F, 1, -8), (0x1F98, 0x1F9F, 1, -8),
    (0x1FA8, 0x1FAF, 1, -8), (0x1FB8, 0x1FB9, 1, -8), (0x1FBA, 0x1FBB, 1, -74),
    (0x1FBC, 0x1FBC, 1, -9), (0x1FC8, 0x1FCB, 1, -86), (0x1FCC, 0x1FCC, 1, -9),
    (0x1FD8, 0x1FD9, 1, -8), (0x1FDA, 0x1FDB, 1, -100), (0x1FE8, 0x1FE9, 1, -8),
    (0x1FEA, 0x1FEB, 1, -112), (0x1FEC, 0x1FEC, 1, -7), (0x1FF8, 0x1FF9, 1, -128),
    (0x1FFA, 0x1FFB, 1, -126), (0x1FFC, 0x1FFC, 1, -9), (0x2126, 0x2126, 1, -7517),
    (0x212A, 0x212A, 1, -8383), (0x212B, 0x212B, 1, -8262), (0x2132, 0x2132, 1, 28),
    (0x2160, 0x216F, 1, 16), (0x2183, 0x2183, 1, 1), (0x24B6, 0x24CF, 1, 26),
    (0x2C00, 0x2C2F, 1, 48), (0x2C60, 0x2C60, 1, 1), (0x2C62, 0x2C62, 1, -10743),
    (0x2C63, 0x2C63, 1, -3814), (0x2C64, 0x2C64, 1, -10727), (0x2C67, 0x2C6B, 2, 1),
    (0x2C6D, 0x2C6D, 1, -10780), (0x2C6E, 0x2C6E, 1, -10749), (0x2C6F, 0x2C6F, 1, -10783),
    (0x2C70, 0x2C70, 1, -10782), (0x2C72, 0x2C72, 1, 1), (0x2C75, 0x2C75, 1, 1),
    (0x2C7E, 0x2C7F, 1, -10815), (0x2C80, 0x2CE2, 2, 1), (0x2CEB, 0x2CED, 2, 1),
    (0x2CF2, 0x2CF2, 1, 1), (0xA640, 0xA66C, 2, 1), (0xA680, 0xA69A, 2, 1), (0xA722, 0xA72E, 2, 1),
    (0xA732, 0xA76E, 2, 1), (0xA779, 0xA77B, 2, 1), (0xA77D, 0xA77D, 1, -35332),
    (0xA77E, 0xA786, 2, 1), (0xA78B, 0xA78B, 1, 1), (0xA78D, 0xA78D, 1, -42280),
    (0xA790, 0xA792, 2, 1), (0xA796, 0xA7A8, 2, 1), (0xA7AA, 0xA7AA, 1, -42308),
    (0xA7AB, 0xA7AB, 1, -42319), (0xA7AC, 0xA7AC, 1, -42315), (0xA7AD, 0xA7AD, 1, -42305),
    (0xA7AE, 0xA7AE, 1, -42308), (0xA7B0, 0xA7B0, 1, -42258), (0xA7B1, 0xA7B1, 1, -42282),
    (0xA7B2, 0xA7B2, 1, -42261), (0xA7B3, 0xA7B3, 1, 928), (0xA7B4, 0xA7C2, 2, 1),
    (0xA7C4, 0xA7C4, 1, -48), (0xA7C5, 0xA7C5, 1, -42307), (0xA7C6, 0xA7C6, 1, -35384),
    (0xA7C7, 0xA7C9, 2, 1), (0xA7D0, 0xA7D0, 1, 1), (0xA7D6, 0xA7D8, 2, 1), (0xA7F5, 0xA7F5, 1, 1),
    (0xFF21, 0xFF3A, 1, 32), (0x10400, 0x10427, 1, 40), (0x104B0, 0x104D3, 1, 40),
    (0x10570, 0x10594, 2, 39), (0x10571, 0x10579, 2, 39), (0x1057D, 0x10589, 2, 39),
    (0x1058D, 0x10591, 2, 39), (0x10595, 0x10595, 1, 39), (0x10C80, 0x10CB2, 1, 64),
    (0x118A0, 0x118BF, 1, 32), (0x16E40, 0x16E5F, 1, 32), (0x1E900, 0x1E921, 1, 34)]

/-- `unicode.ToLower`. -/
def lowerRune (r : Nat) : Nat :=
  if r < 0x80 then if 65 ≤ r ∧ r ≤ 90 then r + 32 else r
  else
    match caseRanges.find? fun e => e.1 ≤ r ∧ r ≤ e.2.1 ∧ (r - e.1) % e.2.2.1 = 0 with
    | some e => (r + e.2.2.2).toNat
    | none => r

/-- Each rune in lower case, after skipping the bytes of the last one. -/
def lowerRunes : Nat → Bytes → Bytes
  | _, [] => []
  | skip + 1, _ :: s => lowerRunes skip s
  | 0, b :: s =>
    let p := decodeRune (b :: s)
    encodeRune (lowerRune p.1) ++ lowerRunes (p.2 - 1) s

/-- `strings.ToLower`; a byte that is not UTF-8 becomes `runeError`. -/
def toLower (s : Bytes) : Bytes := lowerRunes 0 s

/-! ## White space -/

/-- The runes of `unicode.IsSpace`. -/
def spaceRunes : List Nat :=
  [9, 10, 11, 12, 13, 32, 0x85, 0xA0, 0x1680, 0x2000, 0x2001, 0x2002, 0x2003, 0x2004, 0x2005,
    0x2006, 0x2007, 0x2008, 0x2009, 0x200A, 0x2028, 0x2029, 0x202F, 0x205F, 0x3000]

def spaces : List Bytes := spaceRunes.map encodeRune

section

variable {α : Type*} [DecidableEq α]

/-- At most `n` of the given prefixes are taken off. -/
def stripPrefixes (ps : List (List α)) : Nat → List α → List α
  | 0, s => s
  | n + 1, s =>
    match ps.find? (· <+: s) with
    | none => s
    | some p => stripPrefixes ps n (s.drop p.length)

def stripLeft (ps : List (List α)) (s : List α) : List α := stripPrefixes ps s.length s

def stripRight (ps : List (List α)) (s : List α) : List α :=
  (stripLeft (ps.map List.reverse) s.reverse).reverse

end

/-- `strings.TrimSpace`. -/
def trimSpace (s : Bytes) : Bytes := stripRight spaces (stripLeft spaces s)

section

variable {α : Type*} [DecidableEq α] {ps : List (List α)} {s : List α} {n : Nat}

theorem stripPrefixes_suffix : stripPrefixes ps n s <:+ s := by
  induction n generalizing s with
  | zero => exact suffix_refl s
  | succ n ih =>
    unfold stripPrefixes
    split
    · exact suffix_refl s
    · exact ih.trans (drop_suffix _ s)

theorem stripPrefixes_of_clean (h : ∀ p ∈ ps, ¬ p <+: s) : stripPrefixes ps n s = s := by
  cases n with
  | zero => rfl
  | succ n =>
    grind [stripPrefixes]

/-- With enough rounds no prefix is left. -/
theorem stripPrefixes_clean (hne : [] ∉ ps) (hn : s.length ≤ n) :
    ∀ p ∈ ps, ¬ p <+: stripPrefixes ps n s := by
  induction n generalizing s with
  | zero =>
    obtain rfl := eq_nil_of_length_eq_zero (Nat.le_zero.mp hn)
    intro p hp hpre
    exact hne (prefix_nil.mp hpre ▸ hp)
  | succ n ih =>
    unfold stripPrefixes
    split
    · simp_all
    · case h_2 p hfind =>
      refine ih ?_
      have hp : p ≠ [] := fun h => hne (h ▸ mem_of_find?_eq_some hfind)
      have hpos := length_pos_of_ne_nil hp
      rw [length_drop]
      omega

theorem stripLeft_suffix : stripLeft ps s <:+ s := stripPrefixes_suffix

theorem stripRight_prefix : stripRight ps s <+: s := by
  unfold stripRight
  rw [← reverse_suffix, reverse_reverse]
  exact stripLeft_suffix

theorem stripLeft_clean (hne : [] ∉ ps) : ∀ p ∈ ps, ¬ p <+: stripLeft ps s :=
  stripPrefixes_clean hne (Nat.le_refl _)

theorem stripRight_clean (hne : [] ∉ ps) : ∀ p ∈ ps, ¬ p <:+ stripRight ps s := by
  intro p hp hsuf
  have hne' : [] ∉ ps.map reverse := by
    simp_all
  refine @stripLeft_clean α _ _ s.reverse hne' p.reverse (mem_map_of_mem hp) ?_
  unfold stripRight at hsuf
  rwa [← reverse_prefix, reverse_reverse] at hsuf

theorem stripRight_of_clean (h : ∀ p ∈ ps, ¬ p <:+ s) : stripRight ps s = s := by
  grind [stripPrefixes_of_clean, stripRight, stripLeft]

end

/-- No white space at either end. -/
def Trimmed (s : Bytes) : Prop :=
  (∀ p ∈ spaces, ¬ p <+: s) ∧ ∀ p ∈ spaces, ¬ p <:+ s
  deriving Decidable

variable {s : Bytes}

theorem nil_notMem_spaces : [] ∉ spaces := by decide

theorem trimSpace_trimmed : Trimmed (trimSpace s) := by
  refine ⟨?_, stripRight_clean nil_notMem_spaces⟩
  intro p hp hpre
  exact stripLeft_clean nil_notMem_spaces p hp (hpre.trans stripRight_prefix)

theorem Trimmed.trimSpace_eq (h : Trimmed s) : trimSpace s = s := by
  unfold trimSpace stripLeft
  rw [stripPrefixes_of_clean h.1, stripRight_of_clean h.2]

theorem trimSpace_isInfix : trimSpace s <:+: s :=
  stripRight_prefix.isInfix.trans stripLeft_suffix.isInfix

@[simp] theorem trimSpace_trimSpace : trimSpace (trimSpace s) = trimSpace s :=
  trimSpace_trimmed.trimSpace_eq

/-- A leading blank is trimmed. -/
theorem trimSpace_blank : trimSpace (32 :: s) = trimSpace s := rfl

/-! ## Numbers -/

/-- `%d` of a number that is not negative. -/
def decimal (n : Nat) : Bytes := (Nat.toDigits 10 n).map fun c => c.toNat.toUInt8

/-- `strconv.Itoa`. -/
def itoa (n : Int64) : Bytes :=
  if n.toInt < 0 then 45 :: decimal n.toInt.natAbs else decimal n.toInt.natAbs

def isDigit (b : UInt8) : Bool := 48 ≤ b && b ≤ 57

def ofDecimal (s : Bytes) : Nat := s.foldl (fun n b => n * 10 + (b.toNat - 48)) 0

/-- Whether there is a minus, and what is after the sign. -/
def splitSign : Bytes → Bool × Bytes
  | 45 :: s => (true, s)
  | 43 :: s => (false, s)
  | s => (false, s)

/-- `strconv.Atoi`. -/
def atoi (s : Bytes) : Option Int64 :=
  let p := splitSign s
  if p.2 ≠ [] ∧ p.2.all isDigit = true then
    let n : Int := ofDecimal p.2
    let v := if p.1 then -n else n
    if -2 ^ 63 ≤ v ∧ v < 2 ^ 63 then some (Int64.ofInt v) else none
  else none

theorem toNat_digit {c : Char} (h : c.isDigit = true) :
    48 ≤ c.toNat ∧ c.toNat ≤ 57 ∧ c.toNat.toUInt8.toNat = c.toNat := by
  unfold Char.isDigit at h
  rw [Bool.and_eq_true, decide_eq_true_eq, decide_eq_true_eq] at h
  have hlo : 48 ≤ c.toNat := UInt32.le_iff_toNat_le.mp h.1
  have hhi : c.toNat ≤ 57 := UInt32.le_iff_toNat_le.mp h.2
  refine ⟨hlo, hhi, ?_⟩
  rw [Nat.toUInt8_eq, toNat_ofNat']
  omega

theorem isDigit_decimal (n : Nat) : (decimal n).all isDigit = true := by
  rw [all_eq_true]
  intro b hb
  obtain ⟨c, hc, rfl⟩ := mem_map.mp hb
  obtain ⟨hlo, hhi, hnat⟩ :=
    toNat_digit (Nat.isDigit_of_mem_toDigits (by decide) (by decide) hc)
  unfold isDigit
  rw [Bool.and_eq_true, decide_eq_true_eq, decide_eq_true_eq, le_iff_toNat_le,
    le_iff_toNat_le, hnat]
  exact ⟨hlo, hhi⟩

theorem decimal_ne_nil (n : Nat) : decimal n ≠ [] :=
  fun h => Nat.toDigits_ne_nil (map_eq_nil_iff.mp h)

theorem ofDecimal_decimal (n : Nat) : ofDecimal (decimal n) = n := by
  have hfold : ∀ (cs : List Char) (init : Nat), (∀ c ∈ cs, c.isDigit = true) →
      (cs.map fun c => c.toNat.toUInt8).foldl (fun n b => n * 10 + (b.toNat - 48)) init =
        Nat.ofDigitChars 10 cs init := by
    intro cs
    induction cs with
    | nil =>
      intros
      rfl
    | cons c cs ih =>
      intro init hcs
      have hc := toNat_digit (hcs c (mem_cons_self ..))
      grind [Nat.ofDigitChars_cons]
  unfold ofDecimal decimal
  rw [hfold _ 0 fun c hc => Nat.isDigit_of_mem_toDigits (by decide) (by decide) hc]
  exact Nat.ofDigitChars_ten_toDigits

theorem splitSign_of_isDigit {s : Bytes} (h : s.all isDigit = true) :
    splitSign s = (false, s) := by
  unfold splitSign
  split
  · cases h
  · cases h
  · rfl

/-- A number is read back from its text. -/
theorem atoi_itoa (n : Int64) : atoi (itoa n) = some n := by
  have hlo := n.le_toInt
  have hhi := n.toInt_lt
  have hdigits : decimal n.toInt.natAbs ≠ [] ∧ (decimal n.toInt.natAbs).all isDigit = true :=
    ⟨decimal_ne_nil _, isDigit_decimal _⟩
  unfold itoa atoi
  split
  · case isTrue hneg =>
    have hval : -(n.toInt.natAbs : Int) = n.toInt := by omega
    simp_all [splitSign, ofDecimal_decimal]
  · case isFalse hneg =>
    have hval : (n.toInt.natAbs : Int) = n.toInt := by omega
    simp only [splitSign_of_isDigit hdigits.2, ofDecimal_decimal, hval, Bool.false_eq_true,
      if_false]
    rw [if_pos hdigits, if_pos ⟨hlo, hhi⟩, Int64.ofInt_toInt]

/-! ## Bytes that lower case leaves alone -/

/-- The runes of the table and what they become are above ASCII, but for two that become letters. -/
theorem caseRanges_above : ∀ e ∈ caseRanges, 0x80 ≤ e.1 ∧ 58 < e.1 + e.2.2.2 := by
  decide +kernel

variable {r n : Nat} {b : UInt8}

theorem lowerRune_colon : lowerRune r = 58 ↔ r = 58 := by
  unfold lowerRune
  split
  · case isTrue hr =>
    split <;> omega
  · case isFalse hr =>
    split
    · case h_1 e hfind =>
      have he := caseRanges_above e (mem_of_find?_eq_some hfind)
      have hle := find?_some hfind
      simp only [decide_eq_true_eq] at hle
      omega
    · omega

theorem eq_toUInt8_iff : 58 = n.toUInt8 ↔ n % 256 = 58 := by
  rw [← UInt8.toNat_inj, Nat.toUInt8_eq, UInt8.toNat_ofNat']
  exact eq_comm

theorem colon_mem_encodeRune : 58 ∈ encodeRune r ↔ r = 58 := by
  unfold encodeRune
  split
  · rw [List.mem_singleton, eq_toUInt8_iff]
    omega
  split
  · simp only [List.mem_cons, List.not_mem_nil, eq_toUInt8_iff, or_false]
    omega
  split
  · grind
  split
  · simp only [List.mem_cons, List.not_mem_nil, eq_toUInt8_iff, or_false]
    omega
  · simp only [List.mem_cons, List.not_mem_nil, eq_toUInt8_iff, or_false]
    omega

theorem decodeRune_ascii {s : Bytes} (hb : b < 0x80) :
    decodeRune (b :: s) = (b.toNat, 1) := if_pos hb

/-- Every encoding that is longer than needed is excluded by its first two bytes. -/
theorem lead_spec {lo hi : UInt8} (h : lead b = some (n, lo, hi)) :
    128 ≤ lo.toNat ∧ hi.toNat ≤ 191 ∧ (n = 1 → 2 ≤ b.toNat % 32) ∧
      (n = 2 → 1 ≤ b.toNat % 16 ∨ 160 ≤ lo.toNat) ∧
      (n = 3 → 1 ≤ b.toNat % 8 ∨ 144 ≤ lo.toNat) := by
  unfold lead at h
  simp only [UInt8.le_iff_toNat_le, ← UInt8.toNat_inj] at h
  change (if 194 ≤ b.toNat ∧ b.toNat ≤ 223 then _ else if b.toNat = 224 then _ else
    if b.toNat = 237 then _ else if 225 ≤ b.toNat ∧ b.toNat ≤ 239 then _ else
    if b.toNat = 240 then _ else if b.toNat = 244 then _ else
    if 241 ≤ b.toNat ∧ b.toNat ≤ 243 then _ else _) = _ at h
  split_ifs at h <;> cases h <;> simp <;> omega

theorem ne_colon_of_le {c lo : UInt8} (hlo : 128 ≤ lo.toNat) (h : lo ≤ c) : c ≠ 58 := by
  rintro rfl
  have hle : lo.toNat ≤ 58 := le_iff_toNat_le.mp h
  omega

/-- A rune above ASCII has no ASCII byte. -/
theorem decodeRune_above {s : Bytes} (hb : ¬ b < 0x80) :
    (decodeRune (b :: s)).1 ≠ 58 ∧ ∀ c ∈ s.take ((decodeRune (b :: s)).2 - 1), c ≠ 58 := by
  have hwide : decodeRune (b :: s) = decodeWide b s := if_neg hb
  rw [hwide]
  unfold decodeWide
  split
  · case h_1 lo hi b₁ t hlead =>
    obtain ⟨hlo, -, h₁, -, -⟩ := lead_spec hlead
    split
    · case isTrue hle =>
      simp [ne_colon_of_le hlo hle.1]
      omega
    · simp [runeError]
  · case h_2 lo hi b₁ b₂ t hlead =>
    obtain ⟨hlo, hhi, -, h₂, -⟩ := lead_spec hlead
    split
    · grind [ne_colon_of_le, le_iff_toNat_le]
    · simp [runeError]
  · case h_3 lo hi b₁ b₂ b₃ t hlead =>
    obtain ⟨hlo, hhi, -, -, h₃⟩ := lead_spec hlead
    split
    · grind [ne_colon_of_le, le_iff_toNat_le]
    · simp [runeError]
  · simp [runeError]

theorem colon_mem_lowerRunes {skip : Nat} : 58 ∈ lowerRunes skip s ↔ 58 ∈ s.drop skip := by
  induction s generalizing skip with
  | nil => simp [lowerRunes]
  | cons b s ih =>
    cases skip with
    | succ skip => exact ih
    | zero =>
      have hcons : lowerRunes 0 (b :: s) = encodeRune (lowerRune (decodeRune (b :: s)).1) ++
          lowerRunes ((decodeRune (b :: s)).2 - 1) s := rfl
      rw [hcons, mem_append, colon_mem_encodeRune, lowerRune_colon, ih, drop_zero]
      by_cases hb : b < 0x80
      · rw [decodeRune_ascii hb, Nat.sub_self, List.drop_zero, List.mem_cons,
          ← UInt8.toNat_inj]
        exact or_congr_left eq_comm
      · obtain ⟨hr, htake⟩ := decodeRune_above (s := s) hb
        rw [mem_cons]
        have hmem : 58 ∈ s ↔ 58 ∈ s.take ((decodeRune (b :: s)).2 - 1) ∨
            58 ∈ s.drop ((decodeRune (b :: s)).2 - 1) := by
          rw [← mem_append, take_append_drop]
        grind

theorem colon_mem_toLower : 58 ∈ toLower s ↔ 58 ∈ s := colon_mem_lowerRunes

end MmtCore.Lib
