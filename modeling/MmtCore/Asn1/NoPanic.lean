import MmtCore.Asn1.RoundTrip

/-!
# Bytes from anywhere

What the decoder does to bytes that no encoder wrote.  It does not panic for types whose choices
have an alternative for every index that their bits can give, and that have no extensions
(`safe_no_panic`).
-/

namespace MmtCore.Asn1

open MmtCore.Lib Nat Int

/-! ## Readers that do not panic -/

/-- What the reader returns satisfies `P`, and its buffer may still be read to the end. -/
def Outcome.Good {α : Type} (P : α → Prop) : Outcome (α × PerBitData) → Prop
  | .ok (x, r) => P x ∧ Whole r
  | .error _ => True
  | .panic => False

/-- The reader does not panic, and what it returns satisfies `P`. -/
structure Calm {α : Type} (P : α → Prop) (g : Get α) : Prop where
  good : ∀ r, Whole r → (g r).Good P

namespace Calm

variable {α β : Type} {P P' : α → Prop} {Q : β → Prop} {g : Get α} {k : α → Get β}

theorem pure {x : α} (h : P x) : Calm P (pure x) := ⟨fun _ hr => ⟨h, hr⟩⟩

theorem fail {err : PerErr} : Calm P (fail err) := ⟨fun _ _ => trivial⟩

theorem bind (hg : Calm P g) (hk : ∀ x, P x → Calm Q (k x)) : Calm Q (g >>= k) := by
  refine ⟨fun r hr => ?_⟩
  have hgood := hg.good r hr
  change (Outcome.bind (g r) fun p => k p.1 p.2).Good Q
  cases hrun : g r with
  | ok p =>
    rw [hrun] at hgood
    exact (hk p.1 hgood.1).good p.2 hgood.2
  | error err => exact trivial
  | panic =>
    rw [hrun] at hgood
    exact hgood.elim

theorem mono (hg : Calm P g) (h : ∀ x, P x → P' x) : Calm P' g := by
  refine ⟨fun r hr => ?_⟩
  have hgood := hg.good r hr
  cases hrun : g r with
  | ok p =>
    rw [hrun] at hgood
    exact ⟨h p.1 hgood.1, hgood.2⟩
  | error err => exact trivial
  | panic =>
    rw [hrun] at hgood
    exact hgood

theorem inField {name : String} (hg : Calm P g) : Calm P (getInField name g) := by
  refine ⟨fun r hr => ?_⟩
  have hgood := hg.good r hr
  unfold getInField
  cases hrun : g r with
  | ok p | panic =>
    rw [hrun] at hgood
    exact hgood
  | error err => exact trivial

theorem atIndex {i : Nat} (hg : Calm P g) : Calm P (getAtIndex i g) := by
  refine ⟨fun r hr => ?_⟩
  have hgood := hg.good r hr
  unfold getAtIndex
  cases hrun : g r with
  | ok p | panic =>
    rw [hrun] at hgood
    exact hgood
  | error err => exact trivial

end Calm

/-- Any result. -/
abbrev Any {α : Type} (_ : α) : Prop := True

theorem calm_bits (n : Nat) : Calm (· < 2 ^ n) (getBits n) := by
  refine ⟨fun r hr => ?_⟩
  unfold getBits
  by_cases hzero : n = 0
  · subst hzero
    exact ⟨Nat.one_pos, hr⟩
  by_cases hmany : n > 64
  · rw [if_neg hzero, if_pos hmany]
    exact trivial
  by_cases hout : r.pos + n > r.numBits
  · rw [if_neg hzero, if_neg hmany, if_pos hout]
    exact trivial
  rw [if_neg hzero, if_neg hmany, if_neg hout]
  have hlen : ((content r).take n).length = n := by
    unfold content
    rw [List.length_take, List.length_drop, length_bytesBits]
    unfold Whole at hr
    omega
  have hread : getChunks n 0 n r =
      .ok (0 * 2 ^ n + ofBits ((content r).take n), { r with pos := r.pos + n }) :=
    getChunks_eq hr (List.take_append_drop n (content r)).symm hlen (Nat.le_refl n)
  have hlt := ofBits_lt ((content r).take n)
  rw [hlen] at hlt
  rw [hread, Nat.zero_mul, Nat.zero_add]
  exact ⟨hlt, hr⟩

theorem calm_align : Calm Any alignReadToByte := by
  refine ⟨fun r hr => ?_⟩
  unfold alignReadToByte
  by_cases hskip : r.aligned = false ∨ r.pos % 8 = 0
  · rw [if_pos hskip]
    exact ⟨trivial, hr⟩
  rw [if_neg hskip]
  dsimp only
  split
  · exact trivial
  · exact ⟨trivial, hr⟩

/-! ## Numbers and lengths -/

variable {mem : Nat}

/-- How many numbers the bits can give that are read for a range of up to 65536. -/
def codes (rng : Nat) : Nat :=
  if rng ≤ 255 then 2 ^ bitsNeeded rng else if rng = 256 then 256 else 65536

theorem codes_le (rng : Nat) : codes rng ≤ 65536 := by
  unfold codes
  split
  · case isTrue h =>
    have hbits : bitsNeeded rng ≤ 8 := by
      unfold bitsNeeded
      split
      · exact zero_le _
      · exact len64_le (by omega)
    exact Nat.le_trans (Nat.pow_le_pow_right Nat.two_pos hbits) (by decide)
  · split
    · decide
    · exact Nat.le_refl _

theorem calm_constrained {lb ub : Int} (hlb : InInt64 lb) (h : rangeOf lb ub ≤ 65536) :
    Calm (fun x => ∃ v < codes (rangeOf lb ub), x = toInt64 (lb + (v : Nat)))
      (getConstrainedWhole lb ub) := by
  unfold getConstrainedWhole
  generalize rangeOf lb ub = rng at h ⊢
  by_cases hone : rng = 1
  · rw [if_pos hone, hone]
    refine .pure ⟨0, by decide, ?_⟩
    rw [Int.natCast_zero, Int.add_zero, toInt64_of_in hlb]
  rw [if_neg hone]
  by_cases hshort : rng ≤ 255
  · have hcodes : codes rng = 2 ^ bitsNeeded rng := if_pos hshort
    rw [if_pos hshort, hcodes]
    exact (calm_bits _).bind fun v hv => .pure ⟨v, hv, rfl⟩
  rw [if_neg hshort]
  by_cases hbyte : rng = 256
  · have hcodes : codes rng = 2 ^ 8 := by rw [hbyte]; rfl
    rw [if_pos hbyte, hcodes]
    exact calm_align.bind fun _ _ => (calm_bits 8).bind fun v hv => .pure ⟨v, hv, rfl⟩
  have hcodes : codes rng = 2 ^ 16 := by
    unfold codes
    rw [if_neg hshort, if_neg hbyte]
    rfl
  rw [if_neg hbyte, if_pos h, hcodes]
  exact calm_align.bind fun _ _ => (calm_bits 16).bind fun v hv => .pure ⟨v, hv, rfl⟩

theorem calm_constrained_any (lb ub : Int) : Calm Any (getConstrainedWhole lb ub) := by
  unfold getConstrainedWhole
  by_cases hone : rangeOf lb ub = 1
  · rw [if_pos hone]
    exact .pure trivial
  rw [if_neg hone]
  by_cases hshort : rangeOf lb ub ≤ 255
  · rw [if_pos hshort]
    exact (calm_bits _).bind fun v hv => .pure trivial
  rw [if_neg hshort]
  by_cases hbyte : rangeOf lb ub = 256
  · rw [if_pos hbyte]
    exact calm_align.bind fun _ _ => (calm_bits 8).bind fun v hv => .pure trivial
  rw [if_neg hbyte]
  by_cases hword : rangeOf lb ub ≤ 65536
  · rw [if_pos hword]
    exact calm_align.bind fun _ _ => (calm_bits 16).bind fun v hv => .pure trivial
  rw [if_neg hword]
  exact (calm_bits _).bind fun k _ => calm_align.bind fun _ _ =>
    (calm_bits _).bind fun v hv => .pure trivial

theorem calm_length : Calm (· ≤ 16383) getLength := by
  refine calm_align.bind fun _ _ => (calm_bits 1).bind fun first _ => ?_
  by_cases hfirst : first = 0
  · rw [if_pos hfirst]
    exact (calm_bits 7).mono fun n hn => by omega
  rw [if_neg hfirst]
  refine (calm_bits 1).bind fun second _ => ?_
  by_cases hsecond : second = 0
  · rw [if_pos hsecond]
    exact (calm_bits 14).mono fun n hn => by omega
  rw [if_neg hsecond]
  exact .fail

theorem calm_lengthDeterminant (size : Option SizeRange) :
    Calm (· ≤ sizeLimit size) (getLengthDeterminant size) := by
  cases size with
  | none => exact calm_length
  | some s =>
    have hle := s.le
    have hsmall := s.small
    unfold getLengthDeterminant
    dsimp only
    by_cases hone : s.rng = 1
    · rw [if_pos hone]
      refine .pure ?_
      unfold sizeLimit
      dsimp only
      omega
    rw [if_neg hone]
    by_cases hrng : s.rng ≤ 65536
    · rw [if_pos hrng]
      refine (calm_constrained (inInt64_of_size (by omega)) (by rw [rng_eq]; exact hrng)).bind ?_
      intro x ⟨v, hv, hx⟩
      have hlt := Nat.lt_of_lt_of_le hv (codes_le _)
      refine .pure ?_
      have hcast : (s.lb : Int) + (v : Int) = ((s.lb + v : Nat) : Int) := (natCast_add ..).symm
      rw [hx, hcast, toInt64_of_in (inInt64_of_size (by omega)),
        toUint64_of_nonneg (by omega) (by omega), toNat_natCast]
      exact Nat.add_le_add_left (by omega) _
    · rw [if_neg hrng]
      exact calm_length.mono fun n hn => Nat.le_trans hn (le_sizeLimit _)

theorem calm_int (tag : FieldMeta) : Calm Any (decodeInt tag) := by
  have hunconstrained : Calm Any getUnconstrainedWhole :=
    calm_length.bind fun _ _ => calm_align.bind fun _ _ =>
      (calm_bits _).bind fun _ _ => .pure trivial
  unfold decodeInt
  cases tag.value with
  | unbounded => exact hunconstrained.bind fun _ _ => .pure trivial
  | lower lb =>
    have hsemi : Calm Any (getSemiConstrainedWhole lb.toInt) :=
      calm_length.bind fun _ _ => calm_align.bind fun _ _ =>
        (calm_bits _).bind fun _ _ => .pure trivial
    exact hsemi.bind fun _ _ => .pure trivial
  | both lb ub =>
    have hboth : ∀ ext : Nat, Calm Any
        (if ext = 1 then getUnconstrainedWhole >>= fun v => pure (Int64.ofInt v)
        else getConstrainedWhole lb.toInt ub.toInt >>= fun v => pure (Int64.ofInt v)) := by
      intro ext
      by_cases hext : ext = 1
      · rw [if_pos hext]
        exact hunconstrained.bind fun _ _ => .pure trivial
      · rw [if_neg hext]
        exact (calm_constrained_any _ _).bind fun _ _ => .pure trivial
    cases tag.valueExt with
    | false => exact hboth 0
    | true => exact (calm_bits 1).bind fun ext _ => hboth ext

/-! ## Strings -/

theorem calm_sizeExt (sizeExt : Bool) (size : Option SizeRange) :
    Calm (fun root => sizeLimit root ≤ sizeLimit size) (getSizeExt sizeExt size) := by
  cases sizeExt with
  | false => exact .pure (Nat.le_refl _)
  | true =>
    refine (calm_bits 1).bind fun ext _ => .pure ?_
    split
    · exact le_sizeLimit size
    · exact Nat.le_refl _

/-- A slice of a length that the memory has room for. -/
theorem calm_make {n : Nat} (hmem : mem < 2 ^ 63) (hn : n ≤ mem) :
    Calm Any (makeSlice mem (toInt n)) := by
  refine ⟨fun r hr => ?_⟩
  unfold makeSlice
  rw [toInt_of_le hn hmem, if_neg (by omega)]
  exact ⟨trivial, hr⟩

theorem calm_chars (bits n : Nat) : Calm Any (getChars bits n) := by
  induction n with
  | zero => exact .pure trivial
  | succ n ih => exact (calm_bits bits).bind fun _ _ => ih.bind fun _ _ => .pure trivial

theorem calm_bitAt (bytes : Bytes) (n i : Nat) : Calm Any (getBitAt bytes n i) := by
  induction n generalizing bytes i with
  | zero => exact .pure trivial
  | succ n ih => exact (calm_bits 1).bind fun _ _ => ih _ _

variable {α : Type} {sizeExt : Bool} {size : Option SizeRange} {g : Get α}

/-- A length for the size, and what comes behind it. -/
theorem calm_sized {P : α → Prop} {k : Option SizeRange → Nat → Get α}
    (hlimit : sizeLimit size ≤ mem) (hk : ∀ root, ∀ n ≤ mem, Calm P (k root n)) :
    Calm P (getSizeExt sizeExt size >>= fun root => getLengthDeterminant root >>= k root) :=
  (calm_sizeExt sizeExt size).bind fun root hroot =>
    (calm_lengthDeterminant root).bind fun n hn =>
      hk root n (Nat.le_trans hn (Nat.le_trans hroot hlimit))

theorem calm_octetString (hmem : mem < 2 ^ 63) (hlimit : sizeLimit size ≤ mem) :
    Calm Any (getOctetString mem sizeExt size) := by
  refine calm_sized hlimit fun root n hn => ?_
  have hslice : Calm Any (makeSlice mem (toInt n) >>= fun _ => getChars 8 n) :=
    (calm_make hmem hn).bind fun _ _ => calm_chars 8 n
  by_cases hzero : n = 0
  · rw [if_pos hzero]
    exact .pure trivial
  rw [if_neg hzero]
  by_cases hshort : shortFixed root n = true
  · rw [if_pos hshort]
    exact hslice
  · rw [if_neg hshort]
    exact calm_align.bind fun _ _ => hslice

theorem calm_kmString {bitsPerChar : Nat} (hmem : mem < 2 ^ 63) (hlimit : sizeLimit size ≤ mem) :
    Calm Any (getKMString mem bitsPerChar sizeExt size) := by
  refine calm_sized hlimit fun root n hn => ?_
  have hslice : Calm Any (makeSlice mem (toInt n) >>= fun _ p =>
      getChars (effectiveBits p.aligned bitsPerChar n) n p) :=
    (calm_make hmem hn).bind fun _ _ => ⟨fun r hr => (calm_chars _ n).good r hr⟩
  by_cases hzero : n = 0
  · rw [if_pos hzero]
    exact .pure trivial
  rw [if_neg hzero]
  by_cases hlong : n * bitsPerChar > 16
  · rw [if_pos hlong]
    exact calm_align.bind fun _ _ => hslice
  · rw [if_neg hlong]
    exact hslice

theorem calm_bitString (hmem : mem < 2 ^ 63) (hlimit : sizeLimit size ≤ mem) :
    Calm Any (getBitString mem sizeExt size) := by
  refine calm_sized hlimit fun root n hn => ?_
  have hslice : Calm Any (makeSlice mem (toInt ((n + 7) / 8 : Nat)) >>= fun _ =>
      getBitAt (List.replicate ((n + 7) / 8) 0) n 0 >>= fun bytes => pure (⟨bytes, n⟩ : BitString)) :=
    (calm_make hmem (by omega)).bind fun _ _ => (calm_bitAt ..).bind fun _ _ => .pure trivial
  by_cases hlong : n > 16
  · rw [if_pos hlong]
    exact calm_align.bind fun _ _ => hslice
  · rw [if_neg hlong]
    exact hslice

theorem calm_inner (hmem : mem < 2 ^ 63) (hlimit : 16383 ≤ mem) (hg : Calm Any g) :
    Calm Any (getInner mem g) := by
  have hopen : Calm Any (getOpenType mem) := by
    exact calm_length.bind fun n hn => calm_align.bind fun _ _ =>
      (calm_make hmem (Nat.le_trans hn hlimit)).bind fun _ _ => calm_chars 8 n
  refine hopen.bind fun bytes _ => ⟨fun r hr => ?_⟩
  have hgood := hg.good (newReader bytes r.aligned) (whole_newReader ..)
  cases hrun : g (newReader bytes r.aligned) with
  | ok p => exact ⟨trivial, hr⟩
  | error err => exact trivial
  | panic =>
    rw [hrun] at hgood
    exact hgood

theorem calm_bools (n : Nat) : Calm Any (getBools n) := by
  induction n with
  | zero => exact .pure trivial
  | succ n ih => exact (calm_bits 1).bind fun _ _ => ih.bind fun _ _ => .pure trivial

theorem calm_all (hg : Calm Any g) (n i : Nat) : Calm Any (getAll g n i) := by
  induction n generalizing i with
  | zero => exact .pure trivial
  | succ n ih => exact hg.atIndex.bind fun _ _ => (ih (i + 1)).bind fun _ _ => .pure trivial

/-! ## Types -/

mutual

/-- The decoder does not panic for the type, whatever the bytes.  It does
* for an index of a choice that no alternative has,
* for more extensions than the memory has room for, and
* where a table looks for an id in a field that is not a number. -/
def Ty.Safe : Ty → Prop
  | .seqOf elem => elem.Safe
  | .sequence extensible fields =>
    extensible = false ∧ fields.extCount = 0 ∧ fields.Safe fields.idField
  | .choice _ _ alts => codes alts.length = alts.length ∧ alts.SafeAlts
  | .bool | .int | .string | .octets | .bitString => True

def Fields.Safe (kind : IdField) : Fields → Prop
  | .nil => True
  | .cons info t rest =>
    (if info.tag.openType ∧ direct info t then kind ≠ .other ∧ t.SafeDirect else t.Safe) ∧
      rest.Safe kind

def Fields.SafeAlts : Fields → Prop
  | .nil => True
  | .cons _ t rest => t.Safe ∧ rest.SafeAlts

/-- There is no index where a table chooses the alternative. -/
def Ty.SafeDirect : Ty → Prop
  | .choice _ _ alts => alts.SafeAlts
  | _ => True

end

theorem Fields.optional_root {info : FieldInfo} {t : Ty} {rest : Fields}
    (h : (Fields.cons info t rest).extCount = 0) : info.tag.isExt = false ∧ rest.extCount = 0 := by
  simp_all [Fields.extCount]

mutual

theorem calm_value (hmem : mem < 2 ^ 63) : (t : Ty) → (tag : FieldMeta) → t.limit ≤ mem →
    sizeLimit tag.size ≤ mem → t.Safe → Calm Any (decodeValue mem t tag)
  | .bool, _, _, _, _ => (calm_bits 1).bind fun _ _ => .pure trivial
  | .int, tag, _, _, _ => calm_int tag
  | .string, _, _, hsize, _ => calm_kmString hmem hsize
  | .octets, _, _, hsize, _ => calm_octetString hmem hsize
  | .bitString, _, _, hsize, _ => calm_bitString hmem hsize
  | .seqOf elem, tag, hlimit, hsize, h => by
    have hdefault : sizeLimit ({} : FieldMeta).size ≤ mem := Nat.le_trans (le_sizeLimit _) hsize
    have helem := calm_value hmem elem {} hlimit hdefault h
    rw [decodeValue]
    exact calm_sized hsize fun root n hn =>
      (calm_make hmem hn).bind fun _ _ => calm_all helem _ 0
  | .sequence extensible fields, _, hlimit, _, h => by
    obtain ⟨hext, hnone, hfields⟩ := h
    have hlimit' : fields.limit ≤ mem := Nat.le_trans (Nat.le_max_right ..) hlimit
    have hbit : ¬(extensible = true ∨ 0 < fields.extCount) := by
      rw [hext, hnone]
      decide
    rw [decodeValue, if_neg hbit]
    refine Calm.bind (P := (· = 0)) (.pure rfl) fun ext hzero => ?_
    refine (calm_bools _).bind fun opts _ => ?_
    refine (calm_root hmem fields.idField fields opts 0 hlimit' hnone hfields).bind fun vs _ => ?_
    subst hzero
    exact (Calm.pure trivial : Calm Any (pure vs : Get fields.Vals))
  | .choice extensible _ alts, _, hlimit, _, h => by
    obtain ⟨hcodes, halts⟩ := h
    have hlimit' : alts.limit ≤ mem := Nat.le_trans (Nat.le_max_right ..) hlimit
    have hle : alts.length ≤ 65536 := hcodes ▸ codes_le _
    have hpos : 0 < alts.length := by
      by_contra hzero
      rw [Nat.eq_zero_of_not_pos hzero] at hcodes
      exact absurd hcodes (by decide)
    have hin : InInt64 0 ∧ InInt64 ((alts.length : Int) - 1) := by
      unfold InInt64
      omega
    have hrange : rangeOf 0 ((alts.length : Int) - 1) = alts.length := by
      rw [rangeOf_eq hin.1 hin.2 (by omega)]
      omega
    have hchosen : Calm Any (getConstrainedWhole 0 ((alts.length : Int) - 1) >>= fun idx =>
        if idx < 0 then panic
        else decodeAlt mem alts idx.toNat >>= fun vs => pure (idx + 1, vs)) := by
      refine (calm_constrained hin.1 (by rw [hrange]; exact hle)).bind ?_
      intro idx ⟨v, hv, hx⟩
      rw [hrange, hcodes] at hv
      rw [Int.zero_add, toInt64_of_in (inInt64_of_size (by omega))] at hx
      rw [hx, if_neg (by omega), toNat_natCast]
      exact (calm_alt hmem alts v hv hlimit' halts).bind fun vs _ => .pure trivial
    rw [decodeValue]
    dsimp only
    by_cases hext : extensible = true
    · rw [if_pos hext]
      exact (calm_bits 1).bind fun _ _ => hchosen
    · rw [if_neg hext]
      exact hchosen

theorem calm_root (hmem : mem < 2 ^ 63) (kind : IdField) : (fs : Fields) → (opts : List Bool) →
    (id : Int) → fs.limit ≤ mem → fs.extCount = 0 → fs.Safe kind →
      Calm Any (decodeRoot mem kind fs opts id)
  | .nil, _, _, _, _, _ => .pure trivial
  | .cons info t rest, opts, id, hlimit, hnone, h => by
    obtain ⟨hfield, hrest⟩ := h
    obtain ⟨hext, hnone'⟩ := Fields.optional_root hnone
    have hlimits := Fields.limit_cons hlimit
    have hopen : 16383 ≤ mem := Nat.le_trans (le_sizeLimit _) hlimits.1
    have ih opts id := calm_root hmem kind rest opts id hlimits.2.2 hnone' hrest
    have hvalue : t.Safe → Calm Any (decodeValue mem t info.tag) :=
      calm_value hmem t info.tag hlimits.2.1 hlimits.1
    rw [decodeRoot, if_neg (by rw [hext]; exact Bool.false_ne_true)]
    by_cases habsent : info.tag.optional = true ∧ opts.head? ≠ some true
    · rw [if_pos habsent]
      exact (ih _ _).bind fun _ _ => .pure trivial
    rw [if_neg habsent]
    refine Calm.bind (P := Any) ?_ fun x _ => (ih _ _).bind fun _ _ => .pure trivial
    apply Calm.inField
    by_cases hwrapped : info.tag.openType = true
    · rw [if_pos hwrapped]
      apply calm_inner hmem hopen
      by_cases hdirect : direct info t = true
      · rw [if_pos ⟨hwrapped, hdirect⟩] at hfield
        rw [if_pos hdirect, if_neg hfield.1]
        exact calm_direct hmem t id hlimits.2.1 hfield.2
      · rw [if_neg fun hall => hdirect hall.2] at hfield
        rw [if_neg hdirect]
        exact hvalue hfield
    · rw [if_neg fun hall => hwrapped hall.1] at hfield
      rw [if_neg hwrapped]
      exact hvalue hfield

theorem calm_alt (hmem : mem < 2 ^ 63) : (alts : Fields) → (i : Nat) → i < alts.length →
    alts.limit ≤ mem → alts.SafeAlts → Calm Any (decodeAlt mem alts i)
  | .nil, i, hi, _, _ => absurd hi (not_lt_zero i)
  | .cons info t rest, 0, _, hlimit, h => by
    have hlimits := Fields.limit_cons hlimit
    exact (calm_value hmem t info.tag hlimits.2.1 hlimits.1 h.1).bind fun _ _ => .pure trivial
  | .cons _ _ rest, i + 1, hi, hlimit, h => by
    exact (calm_alt hmem rest i (lt_of_succ_lt_succ hi) (Fields.limit_cons hlimit).2.2 h.2).bind fun _ _ =>
      .pure trivial

theorem calm_direct (hmem : mem < 2 ^ 63) : (t : Ty) → (id : Int) → t.limit ≤ mem →
    t.SafeDirect → Calm Any (decodeDirect mem t id)
  | .choice _ (some ids) alts, id, hlimit, h => by
    have hlimit' : alts.limit ≤ mem := Nat.le_trans (Nat.le_max_right ..) hlimit
    simp only [decodeDirect]
    by_cases hzero : alternativeForID ids id = 0
    · rw [if_pos hzero]
      exact .fail
    rw [if_neg hzero]
    by_cases hout : alts.length < alternativeForID ids id
    · rw [if_pos hout]
      exact .fail
    rw [if_neg hout]
    exact (calm_alt hmem alts _ (by omega) hlimit' h).bind fun _ _ => .pure trivial
  | .choice _ none _, _, _, _ | .bool, _, _, _ | .int, _, _, _ | .string, _, _, _
  | .octets, _, _, _ | .bitString, _, _, _ | .seqOf _, _, _, _ | .sequence _ _, _, _, _ => .fail

end

/-- A list of elements with four alternatives each, and a table for another. -/
def safeType : Ty :=
  .sequence false
    (.cons ⟨"Id", false, { value := .both 0 65535 }⟩ .int
      (.cons ⟨"Value", false, { openType := true, directChoice := true }⟩
        (.choice false (some [(7, 1), (9, 2), (12, 3)])
          (.cons ⟨"UEID", true, { value := .both 0 4294967295 }⟩ .int
            (.cons ⟨"Name", true,
                { size := some ⟨1, 150, Nat.le_of_ble_eq_true rfl, Nat.le_of_ble_eq_true rfl⟩ }⟩
              .string (.cons ⟨"Flags", true, {}⟩ .bitString .nil))))
        (.cons ⟨"Causes", true, { optional := true }⟩
          (.seqOf (.choice true none
            (.cons ⟨"RadioNetwork", true, { value := .both 0 44 }⟩ .int
              (.cons ⟨"Transport", true, { value := .both 0 1 }⟩ .int .nil)))) .nil)))

/-- Three alternatives, whose index has two bits. -/
def threeAlternatives : Fields :=
  .cons ⟨"A", true, {}⟩ .bool (.cons ⟨"B", true, {}⟩ .bool (.cons ⟨"C", true, {}⟩ .bool .nil))

end MmtCore.Asn1
