import MmtCore.Asn1.SizedStrings

/-!
# Bounds of what is decoded

The decoder reads as many bits as a range needs and does not compare the number with the bounds: it
is within them whatever the bits are where the range has a number for each of the patterns, and
only there (`Constrained.bounded_iff_filled`).
-/

namespace MmtCore.Asn1

open MmtCore.Lib List UInt64 Yields StringKind Nat Int

/-! ## Codes -/

/-- How many numbers there are patterns for in the bits that a range gets. -/
def codesOf (rng : Nat) : Nat :=
  if rng ≤ 255 then 2 ^ bitsNeeded rng
  else if rng ≤ 256 then 256
  else if rng ≤ 65536 then 65536
  else if rng ≤ 2 ^ 32 then 2 ^ 32
  else 2 ^ 64

/-- There is a number for every pattern. -/
def Filled (count : Nat) : Prop :=
  count ∈ [1, 2, 4, 8, 16, 32, 64, 128, 256, 65536, 2 ^ 32, 2 ^ 64]
  deriving Decidable

set_option maxRecDepth 4000 in
theorem codesOf_short : ∀ rng < 256, 0 < rng →
    rng ≤ 2 ^ bitsNeeded rng ∧ (2 ^ bitsNeeded rng = rng ↔ Filled rng) := by
  decide

theorem codesOf_zero : codesOf 0 = 1 := by decide

variable {rng : Nat}

set_option maxRecDepth 4000 in
theorem codesOf_le (h : rng ≤ 65536) : codesOf rng ≤ 65536 := by
  have hshort : ∀ rng < 256, 2 ^ bitsNeeded rng ≤ 256 := by decide
  grind [codesOf]

theorem filled_iff_of_lt {count : Nat} (h : 255 < count) :
    Filled count ↔ count = 256 ∨ count = 65536 ∨ count = 2 ^ 32 ∨ count = 2 ^ 64 := by
  unfold Filled
  simp only [mem_cons, not_mem_nil, or_false]
  omega

theorem le_codesOf (hpos : 0 < rng) (h : rng < 2 ^ 64) : rng ≤ codesOf rng := by
  grind [codesOf, codesOf_short]

theorem codesOf_eq_iff (hpos : 0 < rng) (h : rng < 2 ^ 64) : codesOf rng = rng ↔ Filled rng := by
  grind [filled_iff_of_lt, codesOf, codesOf_short]

/-! ## Numbers -/

section Numbers

variable {aligned : Bool} {lb ub : Int}

theorem lt_len64_of_le {n v : Nat} (h : 2 ^ n ≤ v) : n < len64 v :=
  (Nat.pow_lt_pow_iff_right (by decide)).1 (Nat.lt_of_le_of_lt h (lt_len64 v))

/-- The bits for the number of octets: two for up to four, three for up to eight. -/
theorem bitsNeeded_maxOctets {rng : Nat} (hlow : 65536 < rng) (hhigh : rng < 2 ^ 64) :
    bitsNeeded (maxOctets rng) = if rng ≤ 2 ^ 32 then 2 else 3 := by
  have hseventeen : 16 < len64 (rng - 1) := lt_len64_of_le (by omega)
  have hmost : len64 (rng - 1) ≤ 64 := len64_le (by omega)
  have hsmall : ∀ k ∈ [3, 4], bitsNeeded k = 2 := by decide
  have hlarge : ∀ k ∈ [5, 6, 7, 8], bitsNeeded k = 3 := by decide
  unfold maxOctets
  split
  · have hle : len64 (rng - 1) ≤ 32 := len64_le (by omega)
    apply hsmall
    simp only [mem_cons, not_mem_nil, or_false]
    omega
  · have hgt : 32 < len64 (rng - 1) := lt_len64_of_le (by omega)
    apply hlarge
    simp only [mem_cons, not_mem_nil, or_false]
    omega

theorem rangeOf_lt (lb ub : Int) : rangeOf lb ub < 2 ^ 64 := mod_lt _ (by decide)

theorem toInt64_add_zero (hlb : InInt64 lb) : toInt64 (lb + (0 : Nat)) = lb := by
  rw [Int.natCast_zero, Int.add_zero]
  exact toInt64_of_in hlb

/-- Every number that is read has a code. -/
theorem yields_code (hlb : InInt64 lb) :
    Yields aligned (fun x => ∃ v < codesOf (rangeOf lb ub), x = toInt64 (lb + v))
      (getConstrainedWhole lb ub) := by
  have hlt := rangeOf_lt lb ub
  unfold getConstrainedWhole
  generalize rangeOf lb ub = rng at hlt ⊢
  have hvalue {n : Nat} (hn : 2 ^ n ≤ codesOf rng) :
      Yields aligned (fun x => ∃ v < codesOf rng, x = toInt64 (lb + v))
        (getBits n >>= fun v => (pure (toInt64 (lb + v)) : Get Int)) :=
    (Yields.bits n).bind fun v hv => .pure ⟨v, Nat.lt_of_lt_of_le hv hn, rfl⟩
  by_cases hone : rng = 1
  · rw [if_pos hone, hone]
    exact .pure ⟨0, by decide, (toInt64_add_zero hlb).symm⟩
  rw [if_neg hone]
  by_cases hshort : rng ≤ 255
  · simp_all [codesOf]
  rw [if_neg hshort]
  by_cases hbyte : rng = 256
  · rw [if_pos hbyte]
    exact align.bind fun _ _ => hvalue (by rw [hbyte]; decide)
  rw [if_neg hbyte]
  by_cases hword : rng ≤ 65536
  · rw [if_pos hword]
    refine Yields.align.bind fun _ _ => hvalue (Nat.le_of_eq ?_)
    grind [codesOf]
  rw [if_neg hword]
  have hbits := bitsNeeded_maxOctets (Nat.lt_of_not_le hword) hlt
  refine (Yields.bits _).bind fun k hk => Yields.align.bind fun _ _ =>
    ((Yields.bits _).and (Yields.bits_le _)).bind ?_
  rintro v ⟨hv, hle⟩
  refine .pure ⟨v, Nat.lt_of_lt_of_le hv ?_, rfl⟩
  rw [hbits] at hk
  unfold codesOf
  rw [if_neg hshort, if_neg (by omega), if_neg hword]
  by_cases hfour : rng ≤ 2 ^ 32
  · rw [if_pos hfour] at hk ⊢
    exact Nat.pow_le_pow_right (by decide) (by omega)
  · rw [if_neg hfour]
    exact Nat.pow_le_pow_right (by decide) hle

variable (aligned) in
/-- Every number that has a code can be read. -/
theorem trip_code {v : Nat} (hlb : InInt64 lb) (hv : v < codesOf (rangeOf lb ub)) :
    ∃ f : Put, f.Total ∧ Trip aligned f (getConstrainedWhole lb ub) (toInt64 (lb + v)) := by
  have hlt := rangeOf_lt lb ub
  unfold getConstrainedWhole
  generalize rangeOf lb ub = rng at hlt hv ⊢
  have hvalue {n : Nat} (hn : v < 2 ^ n) : Trip aligned (putBits v n)
      (getBits n >>= fun v => (pure (toInt64 (lb + v)) : Get Int)) (toInt64 (lb + v)) :=
    (Trip.putBits hn).bind rfl
  unfold codesOf at hv
  by_cases hone : rng = 1
  · have hzero : v = 0 := by
      rw [hone] at hv
      exact lt_one_iff.1 hv
    rw [if_pos hone, hzero, toInt64_add_zero hlb]
    exact ⟨_, .skip, .skip⟩
  rw [if_neg hone]
  by_cases hshort : rng ≤ 255
  · rw [if_pos hshort] at hv ⊢
    have hbits : bitsNeeded rng ≤ 64 := by
      unfold bitsNeeded
      split
      · exact zero_le _
      · exact len64_le (by omega)
    exact ⟨_, .putBits hbits, hvalue hv⟩
  rw [if_neg hshort] at hv ⊢
  by_cases hbyte : rng = 256
  · rw [if_pos (by omega)] at hv
    rw [if_pos hbyte]
    exact ⟨_, .and .align (.putBits (by decide)), .seq .align (hvalue hv)⟩
  rw [if_neg (by omega)] at hv
  rw [if_neg hbyte]
  by_cases hword : rng ≤ 65536
  · rw [if_pos hword] at hv ⊢
    exact ⟨_, .and .align (.putBits (by decide)), .seq .align (hvalue hv)⟩
  rw [if_neg hword] at hv ⊢
  have hsixtyfour : v < 2 ^ 64 := by
    split at hv <;> omega
  have hk : minOctets v - 1 + 1 = minOctets v := Nat.sub_add_cancel (minOctets_pos v)
  have hoctets : minOctets v - 1 < 2 ^ bitsNeeded (maxOctets rng) := by
    rw [bitsNeeded_maxOctets (Nat.lt_of_not_le hword) hlt]
    split at hv
    · case isTrue hfour =>
      have hle : minOctets v ≤ 4 := minOctets_le hv (by decide)
      rw [if_pos hfour]
      omega
    · case isFalse hfour =>
      have hle : minOctets v ≤ 8 := minOctets_le hv (by decide)
      rw [if_neg hfour]
      omega
  have hfew : bitsNeeded (maxOctets rng) ≤ 64 := by
    rw [bitsNeeded_maxOctets (Nat.lt_of_not_le hword) hlt]
    split <;> decide
  refine ⟨_, .and (.putBits hfew) (.and .align (.octets hsixtyfour)),
    .seq (.putBits hoctets) (.seq .align ?_)⟩
  rw [hk]
  exact hvalue (lt_minOctets v)

end Numbers

variable {α : Type} {aligned : Bool} {g : Get α} {f : Put} {x : α}

/-- What is written somewhere can be read there. -/
theorem Trip.exists_reader (h : Trip aligned f g x) (ht : f.Total) :
    ∃ r r', Whole r ∧ r.aligned = aligned ∧ g r = .ok (x, r') := by
  obtain ⟨p', hput⟩ := ht (newWriter aligned)
  obtain ⟨-, M, hp', hread⟩ := h _ p' [] (holds_newWriter aligned) rfl hput
  obtain ⟨m, hbuffer⟩ := hp'.buffer
  exact ⟨newReader p'.buffer aligned, _, whole_newReader _ _, rfl,
    hread _ _ (whole_newReader _ _) rfl rfl ((content_newReader _ _).trans hbuffer)⟩

theorem Yields.of_trip {P : α → Prop} (hy : Yields aligned P g) (h : Trip aligned f g x)
    (ht : f.Total) : P x := by
  obtain ⟨r, r', hr, ha, hrun⟩ := h.exists_reader ht
  exact (hy r x r' hr ha hrun).1

/-- The number that is read is within its bounds if and only if there is a number for each pattern
of bits. -/
theorem bounded_number_iff {lb ub : Int64} (h : lb ≤ ub) :
    Yields aligned (fun v => lb.toInt ≤ v ∧ v ≤ ub.toInt) (getConstrainedWhole lb.toInt ub.toInt) ↔
      Filled ((ub.toInt - lb.toInt).toNat + 1) := by
  have hlb := inInt64_toInt lb
  have hub := inInt64_toInt ub
  rw [Int64.le_iff_toInt_le] at h
  have hcount := rangeOf_eq hlb hub h
  generalize hrng : rangeOf lb.toInt ub.toInt = rng at hcount
  generalize hn : (ub.toInt - lb.toInt).toNat + 1 = count at hcount
  have hrange : 0 < count ∧ count ≤ 2 ^ 64 := by
    unfold InInt64 at hlb hub
    omega
  by_cases hfull : count = 2 ^ 64
  · have hall : Yields aligned (fun v => lb.toInt ≤ v ∧ v ≤ ub.toInt)
        (getConstrainedWhole lb.toInt ub.toInt) := by
      refine (yields_code hlb).mono ?_
      rintro x ⟨v, -, rfl⟩
      unfold InInt64 at hlb hub
      unfold toInt64
      rw [bmod_def]
      omega
    exact iff_of_true hall (by rw [hfull]; decide)
  · rw [mod_eq_of_lt (by omega)] at hcount
    subst hcount
    have hlt : rng < 2 ^ 64 := by omega
    rw [← codesOf_eq_iff hrange.1 hlt]
    constructor
    · intro hy
      by_contra hmore
      have hcode : rng < codesOf (rangeOf lb.toInt ub.toInt) := by
        rw [hrng]
        exact Nat.lt_of_le_of_ne (le_codesOf hrange.1 hlt) (Ne.symm hmore)
      obtain ⟨f, ht, htrip⟩ := trip_code aligned hlb hcode
      have hin := hy.of_trip htrip ht
      unfold toInt64 at hin
      rw [bmod_def] at hin
      omega
    · intro heq
      refine (yields_code hlb).mono ?_
      grind [toInt64_of_in, InInt64]

/-! ## Lengths -/

section Lengths

variable {aligned : Bool} {lb ub : UInt64}

theorem rangeOf_toInt64 (h : lb ≤ ub) :
    rangeOf (toInt64 lb.toNat) (toInt64 ub.toNat) = (ub.toNat - lb.toNat + 1) % 2 ^ 64 := by
  have hlt := ub.toNat_lt
  rw [le_iff_toNat_le] at h
  have hsub : toUint64 (toInt64 ub.toNat - toInt64 lb.toNat) = ub.toNat - lb.toNat := by
    change ((toInt64 ub.toNat - toInt64 lb.toNat) % ((2 ^ 64 : Nat) : Int)).toNat = _
    rw [toInt64_toNat, toInt64_toNat]
    split <;> split <;> omega
  unfold rangeOf
  rw [hsub]

theorem toUint64_toInt64_add (lb : UInt64) (v : Nat) :
    toUint64 (toInt64 (toInt64 lb.toNat + v)) = (lb.toNat + v) % 2 ^ 64 := by
  change (bmod (toInt64 lb.toNat + v) (2 ^ 64 : Nat) % ((2 ^ 64 : Nat) : Int)).toNat = _
  rw [bmod_emod, toInt64_toNat]
  split <;> omega

/-- The lengths that may be read for these bounds. -/
def ReadableLength (lb ub n : Nat) : Prop :=
  if ub - lb < 65536 then ∃ v < codesOf (ub - lb + 1), n = (lb + v) % 2 ^ 64
  else n < 16384 ∧ (ub - lb = 2 ^ 64 - 1 → n = 0)

theorem readable_iff {lb ub n : Nat} (h : ub - lb < 65536) :
    ReadableLength lb ub n ↔ ∃ v < codesOf (ub - lb + 1), n = (lb + v) % 2 ^ 64 := by
  unfold ReadableLength
  rw [if_pos h]

theorem yields_readable (h : lb ≤ ub) :
    Yields aligned (ReadableLength lb.toNat ub.toNat) (getLengthBounds lb ub true) := by
  have hcount := toNat_range h
  have horder := le_iff_toNat_le.1 h
  have hlt := ub.toNat_lt
  have hword : ub - lb + 1 ≤ 65536 ↔ (ub - lb + 1).toNat ≤ 65536 := le_iff_toNat_le
  rw [hcount] at hword
  unfold getLengthBounds
  by_cases hone : true = true ∧ ub - lb + 1 = 1
  · rw [hone.2] at hcount
    change 1 = _ at hcount
    rw [if_pos hone]
    refine .pure ?_
    unfold ReadableLength
    rw [if_pos (by omega)]
    refine ⟨0, Nat.lt_of_lt_of_le (Nat.succ_pos _) (le_codesOf (Nat.succ_pos _) (by omega)), ?_⟩
    omega
  rw [if_neg hone]
  by_cases hsmall : true = true ∧ ub - lb + 1 ≤ 65536
  · rw [if_pos hsmall]
    refine (yields_code (inInt64_toInt64_toNat lb)).bind ?_
    rintro x ⟨v, hv, hx⟩
    rw [rangeOf_toInt64 h] at hv
    rw [hx, toUint64_toInt64_add]
    refine .pure ?_
    unfold ReadableLength
    by_cases hfull : ub.toNat - lb.toNat = 2 ^ 64 - 1
    · grind [codesOf_zero]
    · grind
  · rw [if_neg hsmall]
    refine yields_length.mono fun n hn => ?_
    grind [ReadableLength]

variable (aligned) in
theorem trip_readable {n : Nat} (h : lb ≤ ub) (hn : ReadableLength lb.toNat ub.toNat n) :
    ∃ f : Put, f.Total ∧ Trip aligned f (getLengthBounds lb ub true) n := by
  have hcount := toNat_range h
  have horder := le_iff_toNat_le.1 h
  have hlt := ub.toNat_lt
  have hword : ub - lb + 1 ≤ 65536 ↔ (ub - lb + 1).toNat ≤ 65536 := le_iff_toNat_le
  rw [hcount] at hword
  unfold ReadableLength at hn
  unfold getLengthBounds
  by_cases hone : true = true ∧ ub - lb + 1 = 1
  · rw [hone.2] at hcount
    change 1 = _ at hcount
    have heq : ub.toNat - lb.toNat = 0 := by omega
    rw [heq, if_pos (by decide)] at hn
    obtain ⟨v, hv, rfl⟩ := hn
    have hzero : v = 0 := lt_one_iff.1 hv
    have hback : (lb.toNat + v) % 2 ^ 64 = lb.toNat := by omega
    rw [if_pos hone, hback]
    exact ⟨_, .skip, .skip⟩
  rw [if_neg hone]
  by_cases hsmall : true = true ∧ ub - lb + 1 ≤ 65536
  · rw [if_pos hsmall]
    have hcode {v : Nat} (hv : v < codesOf ((ub.toNat - lb.toNat + 1) % 2 ^ 64)) :
        ∃ f : Put, f.Total ∧ Trip aligned f
          (getConstrainedWhole (toInt64 lb.toNat) (toInt64 ub.toNat) >>= fun v =>
            pure (toUint64 v)) ((lb.toNat + v) % 2 ^ 64) := by
      rw [← rangeOf_toInt64 h] at hv
      obtain ⟨f, ht, htrip⟩ := trip_code aligned (inInt64_toInt64_toNat lb) hv
      exact ⟨f, ht, htrip.bind (by rw [toUint64_toInt64_add])⟩
    by_cases hfull : ub.toNat - lb.toNat = 2 ^ 64 - 1
    · rw [if_neg (by omega)] at hn
      have hzero : n = (lb.toNat + 0) % 2 ^ 64 := by omega
      simp_all [codesOf_zero]
    · grind
  · have hrng : ¬(ub.toNat - lb.toNat + 1) % 2 ^ 64 ≤ 65536 := fun hle =>
      hsmall ⟨rfl, hword.2 hle⟩
    rw [if_neg hsmall]
    rw [if_neg (by omega)] at hn
    exact ⟨_, .length hn.1, trip_length n⟩

/-- The codes of the lengths within the bounds are the first ones. -/
theorem within_of_code {v : Nat} (hcount : ub.toNat - lb.toNat < 65536)
    (hv : v < codesOf (ub.toNat - lb.toNat + 1)) (h : lb ≤ ub) :
    lb.toNat ≤ (lb.toNat + v) % 2 ^ 64 ∧ (lb.toNat + v) % 2 ^ 64 ≤ ub.toNat ↔
      v < ub.toNat - lb.toNat + 1 := by
  have hlt := ub.toNat_lt
  grind [le_iff_toNat_le, codesOf_le]

/-- A short length is within the bounds where they begin at zero. -/
theorem length_within_iff (hcount : ¬ub.toNat - lb.toNat < 65536) :
    (∀ n, ReadableLength lb.toNat ub.toNat n → lb.toNat ≤ n ∧ n ≤ ub.toNat) ↔ lb = 0 := by
  have hzero : lb = 0 ↔ lb.toNat = 0 := UInt64.toNat_inj.symm
  rw [hzero]
  unfold ReadableLength
  constructor
  · intro hall
    have hin := hall 0 (by rw [if_neg hcount]; exact ⟨by decide, fun _ => rfl⟩)
    omega
  · intro hlb n hn
    rw [if_neg hcount] at hn
    omega

/-- Where lengths are numbers, there is one for every pattern; where they are not, the least is
zero. -/
def LengthFilled (lb ub : Nat) : Prop :=
  if ub - lb < 65536 then Filled (ub - lb + 1) else lb = 0

theorem bounded_length_iff (h : lb ≤ ub) :
    Yields aligned (fun n => lb.toNat ≤ n ∧ n ≤ ub.toNat) (getLengthBounds lb ub true) ↔
      LengthFilled lb.toNat ub.toNat := by
  have hall : Yields aligned (fun n => lb.toNat ≤ n ∧ n ≤ ub.toNat) (getLengthBounds lb ub true) ↔
      ∀ n, ReadableLength lb.toNat ub.toNat n → lb.toNat ≤ n ∧ n ≤ ub.toNat := by
    constructor
    · intro hy n hn
      obtain ⟨f, ht, htrip⟩ := trip_readable aligned h hn
      exact hy.of_trip htrip ht
    · exact fun hall => (yields_readable h).mono hall
  rw [hall]
  unfold LengthFilled
  by_cases hcount : ub.toNat - lb.toNat < 65536
  · have hpos : 0 < ub.toNat - lb.toNat + 1 := succ_pos _
    rw [if_pos hcount, ← codesOf_eq_iff hpos (by omega)]
    constructor
    · intro hwithin
      by_contra hmore
      have hcode := Nat.lt_of_le_of_ne (le_codesOf hpos (by omega)) (Ne.symm hmore)
      have hin := hwithin _ ((readable_iff hcount).2 ⟨_, hcode, rfl⟩)
      exact absurd ((within_of_code hcount hcode h).1 hin) (Nat.lt_irrefl _)
    · intro heq n hn
      obtain ⟨v, hv, rfl⟩ := (readable_iff hcount).1 hn
      refine (within_of_code hcount hv h).2 ?_
      rwa [heq] at hv
  · rw [if_neg hcount, length_within_iff hcount]
    exact UInt64.toNat_inj.symm

end Lengths

/-! ## Strings -/

/-- The elements of the string fit a slice. -/
def StringKind.Fits (mem : Nat) : StringKind → Nat → Prop
  | bits, n => (n + 7) / 8 ≤ mem
  | octets, n => n ≤ mem
  | chars _, n => n ≤ mem

/-- What comes after the length. -/
def StringKind.getAfter (mem : Nat) (s : SizeBounds) : StringKind → Nat → Get PerString
  | bits, n => getBitsAfter mem n >>= fun bs => pure (.bits bs)
  | octets, n => getOctetsAfter mem s n >>= fun data => pure (.octets data)
  | chars bitsPerChar, n =>
    getCharsAfter mem bitsPerChar n >>= fun data => pure (.chars data bitsPerChar)

/-- A string without the bit of an extensible size. -/
def StringKind.getRoot (mem : Nat) (s : SizeBounds) (kind : StringKind) : Get PerString :=
  s.getLength >>= kind.getAfter mem s

section Strings

variable {aligned sizeExt : Bool} {lb ub : UInt64} {mem : Nat} {s : SizeBounds}

theorem bind_assoc {α β γ : Type} (g : Get α) (k : α → Get β) (l : β → Get γ) :
    (g >>= k) >>= l = g >>= fun x => k x >>= l := by
  funext r
  change Outcome.bind (Outcome.bind (g r) _) _ = Outcome.bind (g r) _
  cases g r with
  | ok p | error err | panic => rfl

theorem StringKind.get_eq (kind : StringKind) :
    kind.get sizeExt s mem = s.getExt sizeExt >>= fun s => kind.getRoot mem s := by
  cases kind with
  | bits | octets | chars bitsPerChar =>
    change (s.getExt sizeExt >>= fun s => s.getLength >>= fun n => _) >>= _ = _
    simp only [bind_assoc]
    rfl

/-- A size that a slice is made of fits. -/
theorem fits_of_make {n : Nat} (hn : n < 2 ^ 64) (h : 0 ≤ toInt n ∧ toInt n ≤ mem) : n ≤ mem := by
  unfold toInt toInt64 at h
  rw [bmod_def] at h
  omega

theorem yields_bitAt (bytes : Bytes) (n i : Nat) :
    Yields aligned (fun _ => True) (getBitAt bytes n i) := by
  induction n generalizing bytes i with
  | zero => exact .pure trivial
  | succ n ih => exact (Yields.bits 1).bind fun b _ => ih _ (i + 1)

theorem yields_after (kind : StringKind) {n : Nat} (hn : n < 2 ^ 64) :
    Yields aligned (fun x => x.length = n ∧ kind.Fits mem n) (kind.getAfter mem s n) := by
  cases kind with
  | bits =>
    refine bind (P := fun bs => bs.bitLength = n ∧ (n + 7) / 8 ≤ mem) ?_
      fun bs hbs => .pure hbs
    unfold getBitsAfter
    have hbits : Yields aligned (fun bs => bs.bitLength = n ∧ (n + 7) / 8 ≤ mem)
        (makeSlice mem (toInt ((n + 7) / 8)) >>= fun _ =>
          getBitAt (replicate ((n + 7) / 8) 0) n 0 >>= fun bytes =>
            pure (BitString.mk bytes n)) :=
      (yields_make _).bind fun _ hmake => (yields_bitAt _ n 0).bind fun bytes _ =>
        .pure ⟨rfl, fits_of_make (by omega) hmake⟩
    split
    · exact align.bind fun _ _ => hbits
    · exact hbits
  | octets =>
    refine bind (P := fun data => data.length = n ∧ n ≤ mem) ?_ fun data hdata => .pure hdata
    unfold getOctetsAfter
    by_cases hzero : n = 0
    · rw [if_pos hzero]
      exact .pure ⟨hzero.symm, by omega⟩
    rw [if_neg hzero]
    have hchars : Yields aligned (fun data => length data = n ∧ n ≤ mem)
        (makeSlice mem (toInt n) >>= fun _ => getChars 8 n) :=
      (yields_make _).bind fun _ hmake =>
        (yields_chars 8 n).mono fun data hdata => ⟨hdata.1, fits_of_make hn hmake⟩
    split
    · exact hchars
    · exact align.bind fun _ _ => hchars
  | chars bitsPerChar =>
    refine bind (P := fun data => data.length = n ∧ n ≤ mem) ?_ fun data hdata => .pure hdata
    unfold getCharsAfter
    by_cases hzero : n = 0
    · rw [if_pos hzero]
      exact .pure ⟨hzero.symm, by omega⟩
    rw [if_neg hzero]
    have hchars : Yields aligned (fun data => length data = n ∧ n ≤ mem)
        (makeSlice mem (toInt n) >>= fun _ p =>
          getChars (effectiveBits p.aligned bitsPerChar n) n p) :=
      (yields_make _).bind fun _ hmake =>
        (ofAligned (g := fun a => getChars (effectiveBits a bitsPerChar n) n)
          (yields_chars _ n)).mono fun data hdata => ⟨hdata.1, fits_of_make hn hmake⟩
    split
    · exact align.bind fun _ _ => hchars
    · exact hchars

theorem total_bitAt (bytes : Bytes) (n i : Nat) : Put.Total (putBitAt bytes n i) := by
  induction n generalizing i with
  | zero => exact .skip
  | succ n ih => exact .and (.putBits (by decide)) (ih (i + 1))

theorem total_octets (l : Bytes) : Put.Total (putOctets l) := by
  rw [putOctets_eq]
  exact .chars (by decide) l

theorem total_alignIf (c : Prop) [Decidable c] : Put.Total (if c then alignToByte else .skip) := by
  split
  · exact .align
  · exact .skip

variable (aligned s) in
/-- There is a string for every size that fits. -/
theorem trip_after (kind : StringKind) {n : Nat} (hmem : mem ≤ 2 ^ 48) (hn : kind.Fits mem n)
    (hbits : ∀ bitsPerChar, kind = .chars bitsPerChar → bitsPerChar ≤ 32) :
    ∃ f x, Put.Total f ∧ x.length = n ∧ Trip aligned f (kind.getAfter mem s n) x := by
  cases kind with
  | bits =>
    have htrip : Trip aligned (putBitsAfter ⟨[], n⟩) (getBitsAfter mem n)
        (BitString.packed ⟨[], n⟩) := trip_bitsAfter hmem hn
    exact ⟨_, .bits (BitString.packed ⟨[], n⟩), .and (total_alignIf _) (total_bitAt [] n 0), rfl,
      htrip.bind rfl⟩
  | octets =>
    have hlen : (replicate n (0 : UInt8)).length = n := length_replicate
    have htrip : Trip aligned (putOctetsAfter s (replicate n 0)) (getOctetsAfter mem s _)
        (replicate n 0) := trip_octetsAfter hmem (by rw [hlen]; exact hn)
    rw [hlen] at htrip
    refine ⟨_, .octets (replicate n 0), ?_, hlen, htrip.bind rfl⟩
    unfold putOctetsAfter
    split
    · exact .skip
    · refine .and ?_ (total_octets _)
      split
      · exact .skip
      · exact .align
  | chars bitsPerChar =>
    have hlen : (replicate n (0 : UInt8)).length = n := length_replicate
    have htrip : Trip aligned (putCharsAfter (replicate n 0) bitsPerChar)
        (getCharsAfter mem bitsPerChar (replicate n (0 : UInt8)).length)
        (replicate n 0) := by
      refine trip_charsAfter hmem (by rw [hlen]; exact hn) fun c hc => ?_
      rw [eq_of_mem_replicate hc]
      exact Nat.two_pow_pos _
    rw [hlen] at htrip
    refine ⟨_, .chars (replicate n 0) bitsPerChar, ?_, hlen, htrip.bind rfl⟩
    unfold putCharsAfter
    split
    · exact .skip
    · exact .and (total_alignIf _) fun p => Put.Total.chars
        (effectiveBits_le p.aligned _ (hbits bitsPerChar rfl)) _ p

/-- No pattern above the range stands for a size that fits. -/
def StringFilled (kind : StringKind) (mem lb ub : Nat) : Prop :=
  if ub - lb < 65536 then
    ∀ v, ub - lb < v → v < codesOf (ub - lb + 1) → ¬kind.Fits mem ((lb + v) % 2 ^ 64)
  else lb = 0

theorem ReadableLength.lt {n : Nat} (h : ReadableLength lb.toNat ub.toNat n) : n < 2 ^ 64 := by
  grind [ReadableLength]

theorem filled_iff (kind : StringKind) (h : lb ≤ ub) :
    (∀ n, ReadableLength lb.toNat ub.toNat n → kind.Fits mem n → lb.toNat ≤ n ∧ n ≤ ub.toNat) ↔
      StringFilled kind mem lb.toNat ub.toNat := by
  unfold StringFilled
  by_cases hcount : ub.toNat - lb.toNat < 65536
  · rw [if_pos hcount]
    constructor
    · grind [readable_iff, within_of_code]
    · intro hnone n hn hfits
      obtain ⟨v, hv, rfl⟩ := (readable_iff hcount).1 hn
      refine (within_of_code hcount hv h).2 ?_
      by_contra hmore
      exact hnone v (by omega) hv hfits
  · rw [if_neg hcount]
    constructor
    · intro hwithin
      have hzero : kind.Fits mem 0 := by
        cases kind <;> exact zero_le _
      have hreads : ReadableLength lb.toNat ub.toNat 0 := by
        grind [ReadableLength]
      exact le_zero.1 (hwithin 0 hreads hzero).1
    · intro hlb n hn _
      exact (length_within_iff hcount).2 (UInt64.toNat_inj.1 hlb) n hn

variable (aligned) in
/-- A size that can be read and fits is that of a string. -/
theorem trip_inRoot {kind : StringKind} {n : Nat} (h : lb ≤ ub) (hmem : mem ≤ 2 ^ 48)
    (hbits : ∀ bitsPerChar, kind = .chars bitsPerChar → bitsPerChar ≤ 32)
    (hn : ReadableLength lb.toNat ub.toNat n) (hfits : kind.Fits mem n) :
    ∃ f x, Put.Total f ∧ x.length = n ∧ Trip aligned f (kind.getRoot mem ⟨lb, ub, true⟩) x := by
  obtain ⟨f, hf, htrip⟩ := trip_readable aligned h hn
  obtain ⟨f', x, hf', hx, htrip'⟩ := trip_after aligned ⟨lb, ub, true⟩ kind hmem hfits hbits
  exact ⟨_, x, hf.and hf', hx, htrip.seq htrip'⟩

variable (aligned) in
theorem yields_root {kind : StringKind} (h : lb ≤ ub)
    (hwithin : ∀ n, ReadableLength lb.toNat ub.toNat n → kind.Fits mem n →
      lb.toNat ≤ n ∧ n ≤ ub.toNat) :
    Yields aligned (fun x => lb.toNat ≤ x.length ∧ x.length ≤ ub.toNat)
      (kind.getRoot mem ⟨lb, ub, true⟩) := by
  refine bind (yields_readable h) fun n hn => (yields_after kind hn.lt).mono ?_
  rintro x ⟨hx, hfits⟩
  rw [hx]
  exact hwithin n hn hfits

/-- A string with its size in the root of its constraint. -/
theorem StringKind.get_of_root {kind : StringKind} {r q : PerBitData}
    (hbit : getBits 1 r = .ok (0, q)) : kind.get true s mem r = kind.getRoot mem s q := by
  have hext : s.getExt true r = .ok (s, q) := by
    change (getBits 1 >>= fun ext => pure (if ext = 1 then { s with known := false } else s)) r = _
    rw [bind_ok hbit]
    rfl
  rw [get_eq, bind_ok hext]

end Strings

/-! ## All of them -/

/-- What is decoded for a constraint. -/
inductive Constrained where
  | number (lb ub : Int64)
  | length (lb ub : UInt64)
  | string (kind : StringKind) (sizeExt : Bool) (lb ub : UInt64)

namespace Constrained

variable {mem : Nat} {aligned : Bool}

/-- The bounds are in order, and a character has no more bits than characters may have. -/
def Ordered : Constrained → Prop
  | number lb ub => lb ≤ ub
  | length lb ub => lb ≤ ub
  | string kind _ lb ub => lb ≤ ub ∧ ∀ bitsPerChar, kind = .chars bitsPerChar → bitsPerChar ≤ 32

/-- Whatever the bits are, what is read is within the bounds, unless the first of them is set for a
string with an extensible size. -/
def Bounded (mem : Nat) (aligned : Bool) : Constrained → Prop
  | number lb ub =>
    Yields aligned (fun v => lb.toInt ≤ v ∧ v ≤ ub.toInt) (getConstrainedWhole lb.toInt ub.toInt)
  | length lb ub =>
    Yields aligned (fun n => lb.toNat ≤ n ∧ n ≤ ub.toNat) (getLengthBounds lb ub true)
  | string kind sizeExt lb ub =>
    ∀ r x r', Whole r → r.aligned = aligned → kind.get sizeExt ⟨lb, ub, true⟩ mem r = .ok (x, r') →
      (sizeExt = true → ∃ q, getBits 1 r = .ok (0, q)) →
        lb.toNat ≤ x.length ∧ x.length ≤ ub.toNat

/-- The range has a number for each pattern of its bits. -/
def Filled (mem : Nat) : Constrained → Prop
  | number lb ub => Asn1.Filled ((ub.toInt - lb.toInt).toNat + 1)
  | length lb ub => LengthFilled lb.toNat ub.toNat
  | string kind _ lb ub => StringFilled kind mem lb.toNat ub.toNat

theorem bounded_string_iff {kind : StringKind} {sizeExt : Bool} {lb ub : UInt64} (h : lb ≤ ub)
    (hmem : mem ≤ 2 ^ 48) (hbits : ∀ bitsPerChar, kind = .chars bitsPerChar → bitsPerChar ≤ 32) :
    (string kind sizeExt lb ub).Bounded mem aligned ↔
      StringFilled kind mem lb.toNat ub.toNat := by
  rw [← filled_iff kind h]
  constructor
  · intro hbounded n hn hfits
    obtain ⟨f, x, hf, hx, htrip⟩ := trip_inRoot aligned h hmem hbits hn hfits
    rw [← hx]
    cases hext : sizeExt with
    | false =>
      rw [hext] at hbounded
      obtain ⟨r, r', hr, ha, hrun⟩ := htrip.exists_reader hf
      refine hbounded r x r' hr ha ?_ fun hfalse => Bool.noConfusion hfalse
      rw [get_eq]
      exact hrun
    | true =>
      rw [hext] at hbounded
      have hboth : Trip aligned (.and (putBits 0 1) f) (getBits 1 >>= fun b =>
          kind.getRoot mem ⟨lb, ub, true⟩ >>= fun x => pure (b, x)) (0, x) :=
        .seq (.putBits (by decide)) (htrip.bind rfl)
      obtain ⟨r, r', hr, ha, hrun⟩ := hboth.exists_reader (.and (.putBits (by decide)) hf)
      obtain ⟨b, q, hbit, hrest⟩ := bind_eq_ok hrun
      obtain ⟨y, q', hroot, hpair⟩ := bind_eq_ok hrest
      cases hpair
      refine hbounded r x r' hr ha ?_ fun _ => ⟨q, hbit⟩
      rw [get_of_root hbit]
      exact hroot
  · intro hwithin r x r' hr ha hrun hroot
    have hyields := yields_root aligned h hwithin
    cases hext : sizeExt with
    | false =>
      rw [hext, get_eq] at hrun
      exact (hyields r x r' hr ha hrun).1
    | true =>
      obtain ⟨q, hbit⟩ := hroot hext
      obtain ⟨-, hq, hqa⟩ := bits 1 r 0 q hr ha hbit
      rw [hext, get_of_root hbit] at hrun
      exact (hyields q x r' hq hqa hrun).1

/-- What is decoded is within the bounds for all bits if and only if the range has a number for
each of their patterns. -/
theorem bounded_iff_filled (c : Constrained) (h : c.Ordered) (hmem : mem ≤ 2 ^ 48) :
    c.Bounded mem aligned ↔ c.Filled mem := by
  cases c with
  | number lb ub => exact bounded_number_iff h
  | length lb ub => exact bounded_length_iff h
  | string kind sizeExt lb ub => exact bounded_string_iff h.1 hmem h.2

theorem bounded_iff_filled_nibble :
    (number 0 15).Bounded 1024 true ↔ (number 0 15).Filled 1024 :=
  bounded_iff_filled (number 0 15) (by unfold Ordered; decide) (by decide)

/-- Seven is read for a number from zero to five. -/
theorem seven_read_for_five :
    ¬∀ (mem : Nat) (aligned : Bool) (c : Constrained), c.Ordered → mem ≤ 2 ^ 48 →
      c.Bounded mem aligned := by
  intro hall
  have hbounded := hall 1024 true (number 0 5) (by unfold Ordered; decide) (by decide)
  have hread : getConstrainedWhole 0 5 (newReader [0xE0] true) =
      .ok (7, ⟨[0xE0], 8, 3, true⟩) := by decide +kernel
  have hin := (hbounded _ 7 _ (whole_newReader [0xE0] true) rfl hread).1
  exact absurd hin.2 (by decide)

end Constrained

end MmtCore.Asn1
