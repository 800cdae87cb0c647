import MmtCore.Asn1.Trip

/-!
# Trips of numbers and lengths

A constrained number comes back unless all of 64 bits are in its range, for which the codec writes
nothing.  Other numbers always do, and lengths do where the codec has a form for them
(`Primitive.inverts_iff`).
-/

namespace MmtCore.Asn1

open MmtCore.Lib List UInt64 Nat Int64 Int

/-! ## Sizes of numbers -/

theorem lt_len64 (v : Nat) : v < 2 ^ len64 v := by
  grind [len64, lt_log2_self]

variable {n : Nat} {x value : Int}

theorem len64_le {v : Nat} (h : v < 2 ^ n) : len64 v ≤ n := by
  unfold len64
  split
  · exact zero_le _
  · case isFalse hv => exact (log2_lt hv).2 h

theorem lt_bitsNeeded {v rng : Nat} (h : v < rng) : v < 2 ^ bitsNeeded rng := by
  unfold bitsNeeded
  split
  · rw [pow_zero]
    omega
  · exact Nat.lt_of_le_of_lt (by omega) (lt_len64 (rng - 1))

theorem lt_minOctets (v : Nat) : v < 2 ^ (minOctets v * 8) := by
  grind [minOctets, Nat.lt_of_lt_of_le, lt_len64, Nat.pow_le_pow_right]

theorem minOctets_pos (v : Nat) : 0 < minOctets v := by
  grind [minOctets, len64]

theorem minOctets_le {v : Nat} (h : v < 2 ^ (n * 8)) (hn : 0 < n) : minOctets v ≤ n := by
  unfold minOctets
  split
  · exact hn
  · have hlen := len64_le h
    omega

/-- The octets of an offset are no more than those of its range. -/
theorem minOctets_lt_maxOctets {v rng : Nat} (h : v < rng) (hrng : 1 < rng) :
    minOctets v - 1 < maxOctets rng := by
  have hle : minOctets v ≤ maxOctets rng := by
    apply minOctets_le
    · grind [maxOctets, Nat.lt_of_lt_of_le, lt_len64, Nat.pow_le_pow_right]
    · unfold maxOctets len64
      rw [if_neg (by omega)]
      omega
  have hpos := minOctets_pos v
  omega

/-! ## Conversions -/

/-- A number of type `int64`. -/
def InInt64 (x : Int) : Prop := -((2 ^ 63 : Nat) : Int) ≤ x ∧ x < ((2 ^ 63 : Nat) : Int)

theorem toInt64_of_in (h : InInt64 x) : toInt64 x = x := by
  unfold InInt64 at h
  unfold toInt64
  rw [bmod_def]
  omega

theorem toUint64_of_nonneg (h : 0 ≤ x) (hx : x < ((2 ^ 64 : Nat) : Int)) :
    toUint64 x = x.toNat := by
  unfold toUint64
  have hmod : x.emod ((2 ^ 64 : Nat) : Int) = x := emod_eq_of_lt h hx
  rw [hmod]

theorem toUint64_lt (x : Int) : toUint64 x < 2 ^ 64 := by
  unfold toUint64
  have hlt : x.emod ((2 ^ 64 : Nat) : Int) < ((2 ^ 64 : Nat) : Int) :=
    emod_lt_of_pos x (by decide)
  omega

/-- An offset added to where it was taken from. -/
theorem toInt64_add_toUint64 {lb : Int} (hx : InInt64 x) :
    toInt64 (lb + toUint64 (x - lb)) = x := by
  have hnonneg : 0 ≤ (x - lb).emod ((2 ^ 64 : Nat) : Int) := emod_nonneg _ (by decide)
  have hcast : ((toUint64 (x - lb) : Nat) : Int) = (x - lb).emod ((2 ^ 64 : Nat) : Int) :=
    toNat_of_nonneg hnonneg
  have hsum : lb + (x - lb) = x := by omega
  rw [hcast, Int.add_comm]
  change bmod ((x - lb) % ((2 ^ 64 : Nat) : Int) + lb) (2 ^ 64) = x
  rw [Int.emod_add_bmod, Int.add_comm, hsum]
  exact toInt64_of_in hx

/-- The range of a constraint, from what it counts. -/
theorem rangeOf_eq {lb ub : Int} (hlb : InInt64 lb) (hub : InInt64 ub) (h : lb ≤ ub) :
    rangeOf lb ub = ((ub - lb).toNat + 1) % 2 ^ 64 := by
  unfold InInt64 at hlb hub
  unfold rangeOf
  rw [toUint64_of_nonneg (by omega) (by omega)]

theorem inInt64_toInt (v : Int64) : InInt64 v.toInt := by
  have hlow := v.minValue_le_toInt
  have hhigh := v.toInt_le
  unfold InInt64
  rw [toInt_minValue] at hlow
  rw [toInt_maxValue] at hhigh
  omega

/-- A range of all numbers of 64 bits is the only one that counts none. -/
theorem full_of_rangeOf {lb ub : Int64} (h : rangeOf lb.toInt ub.toInt = 0) (hle : lb ≤ ub) :
    lb = Int64.minValue ∧ ub = Int64.maxValue := by
  have hlb := inInt64_toInt lb
  have hub := inInt64_toInt ub
  rw [le_iff_toInt_le] at hle
  rw [rangeOf_eq hlb hub hle] at h
  unfold InInt64 at hlb hub
  rw [← toInt_inj, ← toInt_inj, toInt_minValue, toInt_maxValue]
  omega

/-! ## Constrained numbers -/

theorem trip_constrained {aligned : Bool} {lb ub : Int} (hvalue : InInt64 value) (hlb : InInt64 lb)
    (hub : InInt64 ub) (h : rangeOf lb ub ≠ 0 ∨ value = lb) :
    Trip aligned (putConstrainedWhole value lb ub) (getConstrainedWhole lb ub) value := by
  unfold putConstrainedWhole getConstrainedWhole
  split
  · exact .fail
  case isFalse hin =>
  have hrange := rangeOf_eq hlb hub (by omega)
  have hoffset : toUint64 (value - lb) = (value - lb).toNat := by
    unfold InInt64 at hlb hvalue
    exact toUint64_of_nonneg (by omega) (by omega)
  have hback : toInt64 (lb + toUint64 (value - lb)) = value := toInt64_add_toUint64 hvalue
  have hlt : rangeOf lb ub ≠ 0 → toUint64 (value - lb) < rangeOf lb ub := by
    unfold InInt64 at hlb hub
    omega
  generalize toUint64 (value - lb) = offset at hoffset hback hlt ⊢
  generalize rangeOf lb ub = rng at hrange hlt h ⊢
  by_cases hone : rng = 1
  · rw [if_pos hone, if_pos hone]
    have heq : value = lb := by
      omega
    rw [heq]
    exact .skip
  rw [if_neg hone, if_neg hone]
  by_cases hshort : rng ≤ 255
  · rw [if_pos hshort, if_pos hshort]
    have hfits : offset < 2 ^ bitsNeeded rng := by
      by_cases hzero : rng = 0
      · grind
      · exact lt_bitsNeeded (hlt hzero)
    exact (Trip.putBits hfits).bind (by rw [hback])
  rw [if_neg hshort, if_neg hshort]
  have hlt := hlt (by omega)
  by_cases hbyte : rng = 256
  · rw [if_pos hbyte, if_pos hbyte]
    exact .seq .align ((Trip.putBits (by omega)).bind (by rw [hback]))
  rw [if_neg hbyte, if_neg hbyte]
  by_cases hword : rng ≤ 65536
  · rw [if_pos hword, if_pos hword]
    exact .seq .align ((Trip.putBits (by omega)).bind (by rw [hback]))
  rw [if_neg hword, if_neg hword]
  have hoctets := minOctets_lt_maxOctets hlt (by omega)
  have hk : minOctets offset - 1 + 1 = minOctets offset := Nat.sub_add_cancel (minOctets_pos offset)
  refine .seq (.putBits (lt_bitsNeeded hoctets)) (.seq .align ?_)
  rw [hk]
  exact (Trip.putBits (lt_minOctets offset)).bind (by rw [hback])

/-! ## Lengths -/

variable {aligned : Bool}

/-- Bits that are written together and read one after the other. -/
theorem trip_parts {α : Type} {v : Nat} {f : Put} {g k : Get α} {x : α}
    (hg : ∀ r rest, Whole r → content r = msb n v ++ rest → g r = k { r with pos := r.pos + n })
    (h : Trip aligned f k x) : Trip aligned (.and (putBits v n) f) g x := by
  intro p p' L hp ha hput
  unfold Put.and at hput
  cases hfirst : putBits v n p with
  | error err =>
    rw [hfirst] at hput
    cases hput
  | ok q =>
    rw [hfirst] at hput
    obtain ⟨hq, hqa, -⟩ := holds_putBits hp hfirst
    obtain ⟨hpa, M, hp', hread⟩ := h q p' _ hq (hqa.trans ha) hput
    refine ⟨hpa, msb n v ++ M, by rwa [← append_assoc], fun r rest hr hra hpos hcontent => ?_⟩
    rw [append_assoc] at hcontent
    have hnext := content_advance hcontent
    rw [length_msb] at hnext
    have hwhole : Whole { r with pos := r.pos + n } := hr
    rw [hg r _ hr hcontent, hread _ rest hwhole hra
      (by rw [length_append, length_msb, ← hpos]) hnext, length_append, length_msb,
      add_assoc]

theorem trip_length (n : Nat) : Trip aligned (putLength n) getLength n := by
  refine .seq .align ?_
  split
  · case isTrue hshort => exact .seq (.putBits (by decide)) (.putBits (by omega))
  · split
    · case isTrue hlong =>
      refine trip_parts (k := getBits 14) (fun r rest hr hcontent => ?_) (.putBits (by omega))
      have hfirst : content r = [true] ++ ([false] ++ rest) := hcontent
      have hsecond := content_advance hfirst
      have hwhole : Whole { r with pos := r.pos + 1 } := hr
      rw [bind_ok (getBits_eq (n := 1) hr hfirst rfl (by decide)), if_neg (by decide),
        bind_ok (getBits_eq (n := 1) hwhole hsecond rfl (by decide)), if_pos (by decide)]
    · exact .fail

theorem inInt64_of_size (h : n < 2 ^ 63) : InInt64 n := by
  unfold InInt64
  omega

theorem rng_eq (s : SizeRange) : rangeOf s.lb s.ub = s.rng := by
  have hle := s.le
  have hsmall := s.small
  grind [rangeOf_eq, SizeRange.rng, inInt64_of_size]

/-- A length that is in the range, or that is written without it. -/
theorem trip_lengthDeterminant {size : Option SizeRange} (hn : n < 2 ^ 63)
    (h : ∀ s, size = some s → s.rng = 1 → n = s.lb) :
    Trip aligned (putLengthDeterminant n size) (getLengthDeterminant size) n := by
  cases size with
  | none => exact trip_length n
  | some s =>
    unfold putLengthDeterminant getLengthDeterminant
    dsimp only
    split
    · case isTrue hone =>
      rw [← h s rfl hone]
      exact .skip
    · split
      · have hsmall := s.small
        have hle := s.le
        refine (trip_constrained (inInt64_of_size hn) (inInt64_of_size (by omega))
          (inInt64_of_size (by omega)) (.inl ?_)).bind ?_
        · rw [rng_eq]
          unfold SizeRange.rng
          omega
        · rw [toUint64_of_nonneg (by omega) (by omega)]
          rfl
      · exact trip_length n

/-! ## Other numbers -/

theorem trip_normallySmall (v : Nat) :
    Trip aligned (putNormallySmallNonNegative v) getNormallySmallNonNegative v := by
  unfold putNormallySmallNonNegative getNormallySmallNonNegative
  split
  · case isTrue hsmall => exact .seq (.putBits (by decide)) (.putBits hsmall)
  · exact .seq (.putBits (by decide)) (.seq (trip_length _) (.seq .align (.putBits (lt_minOctets v))))

theorem trip_semiConstrained {lb : Int} (h : InInt64 value) :
    Trip aligned (putSemiConstrainedWhole value lb) (getSemiConstrainedWhole lb) value := by
  refine .seq (trip_length _) (.seq .align ((Trip.putBits (lt_minOctets _)).bind ?_))
  rw [toInt64_add_toUint64 h]

/-- The octets of a number have room for its sign. -/
theorem signedMinOctets_spec {v : Int} (h : InInt64 v) :
    0 < signedMinOctets v ∧ signedMinOctets v ≤ 8 ∧
      -((2 ^ (signedMinOctets v * 8 - 1) : Nat) : Int) ≤ v ∧
      v < ((2 ^ (signedMinOctets v * 8 - 1) : Nat) : Int) := by
  unfold InInt64 at h
  unfold signedMinOctets
  generalize hw : (if 0 ≤ v then v.toNat else (-v - 1).toNat) = w
  have hwlt : w < 2 ^ 63 := by
    rw [← hw]
    split <;> omega
  have hlen : len64 w ≤ 63 := len64_le hwlt
  generalize hn : (if len64 w + 1 ≤ 8 then 1 else (len64 w + 1 + 7) / 8) = n
  have hbound : len64 w ≤ n * 8 - 1 ∧ 0 < n ∧ n ≤ 8 := by
    rw [← hn]
    split <;> omega
  have hfit : w < 2 ^ (n * 8 - 1) :=
    Nat.lt_of_lt_of_le (lt_len64 w) (Nat.pow_le_pow_right (by decide) hbound.1)
  grind

/-- The sign bit is the highest of the bits. -/
theorem testBit_sign {u m : Nat} (h : u < 2 ^ (m + 1)) : u.testBit m = decide (2 ^ m ≤ u) := by
  rw [testBit_eq_decide_div_mod_eq]
  have hpow : 2 ^ (m + 1) = 2 ^ m * 2 := pow_succ 2 m
  have hdiv : u / 2 ^ m < 2 := Nat.div_lt_of_lt_mul (hpow ▸ h)
  rw [mod_eq_of_lt hdiv]
  congr 1
  rw [eq_iff_iff]
  constructor
  · grind [Nat.div_pos_iff]
  · intro hle
    have hpos := Nat.div_pos hle (Nat.two_pow_pos m)
    omega

theorem signExtend_eq {v : Int} {m : Nat} (hm : m < 64) (hlow : -((2 ^ m : Nat) : Int) ≤ v)
    (hhigh : v < ((2 ^ m : Nat) : Int)) :
    signExtend (toUint64 v % 2 ^ (m + 1)) (m + 1) = v := by
  have hle : 2 ^ m ≤ 2 ^ 63 := Nat.pow_le_pow_right (by decide) (by omega)
  have hin : InInt64 v := by
    unfold InInt64
    omega
  unfold signExtend
  rw [Nat.add_sub_cancel]
  by_cases hv : 0 ≤ v
  · have hu : toUint64 v % 2 ^ (m + 1) = v.toNat := by
      rw [toUint64_of_nonneg hv (by omega)]
      exact mod_eq_of_lt (by omega)
    have hsign : v.toNat.testBit m = false := testBit_lt_two_pow (by omega)
    rw [hu, if_neg (by rw [hsign]; simp), toNat_of_nonneg hv]
    exact toInt64_of_in hin
  · have hsixty : 2 ^ (m + 1) * 2 ^ (63 - m) = 2 ^ 64 := by
      rw [← pow_add]
      congr 1
      omega
    have hu : toUint64 v % 2 ^ (m + 1) = 2 ^ (m + 1) - (-v).toNat := by
      have hmod : toUint64 v = 2 ^ 64 - (-v).toNat := by
        unfold toUint64
        have heq : v.emod ((2 ^ 64 : Nat) : Int) = v + ((2 ^ 64 : Nat) : Int) := by
          change v % ((2 ^ 64 : Nat) : Int) = _
          omega
        rw [heq]
        omega
      have hsum : 2 ^ 64 - (-v).toNat =
          2 ^ (m + 1) * (2 ^ (63 - m) - 1) + (2 ^ (m + 1) - (-v).toNat) := by
        rw [Nat.mul_sub, hsixty, Nat.mul_one]
        have hbig : 2 ^ (m + 1) ≤ 2 ^ 64 := Nat.pow_le_pow_right (by decide) (by omega)
        omega
      rw [hmod, hsum, mul_add_mod]
      exact mod_eq_of_lt (by omega)
    have hlt : 2 ^ (m + 1) - (-v).toNat < 2 ^ (m + 1) := by omega
    have hsign : (2 ^ (m + 1) - (-v).toNat).testBit m = true := by
      rw [testBit_sign hlt, decide_eq_true_eq]
      omega
    have hor : (2 ^ (m + 1) - (-v).toNat) ||| (2 ^ 64 - 2 ^ (m + 1)) =
        2 ^ 64 - (-v).toNat := by
      have hhigh : 2 ^ 64 - 2 ^ (m + 1) = (2 ^ (63 - m) - 1) <<< (m + 1) := by
        rw [Nat.shiftLeft_eq, Nat.sub_mul, Nat.mul_comm, hsixty, Nat.one_mul]
      have hbig : 2 ^ (m + 1) ≤ 2 ^ 64 := Nat.pow_le_pow_right (by decide) (by omega)
      rw [Nat.or_comm, hhigh, ← Nat.shiftLeft_add_eq_or_of_lt hlt, ← hhigh]
      omega
    rw [hu, if_pos ⟨succ_pos m, hsign⟩, hor]
    have hcast : ((2 ^ 64 - (-v).toNat : Nat) : Int) = ((2 ^ 64 : Nat) : Int) + v := by omega
    rw [hcast]
    unfold toInt64
    rw [add_bmod_left]
    exact toInt64_of_in hin

theorem trip_unconstrained (h : InInt64 value) :
    Trip aligned (putUnconstrainedWhole value) getUnconstrainedWhole value := by
  obtain ⟨hpos, hle, hlow, hhigh⟩ := signedMinOctets_spec h
  have hbits : signedMinOctets value * 8 = signedMinOctets value * 8 - 1 + 1 := by omega
  refine .seq (trip_length _)
    (.seq .align ((Trip.putBits (Nat.mod_lt _ (Nat.two_pow_pos _))).bind ?_))
  rw [hbits, signExtend_eq (by omega) hlow hhigh]

/-! ## Every primitive -/

/-- The writer succeeds wherever it starts; the reader finds `x` there and stops where it did. -/
def Inverts {α : Type} (aligned : Bool) (f : Put) (g : Get α) (x : α) : Prop :=
  ∀ p L, Holds p L → p.aligned = aligned → ∃ p' M, f p = .ok p' ∧ Holds p' (L ++ M) ∧
    ∀ r rest, Whole r → r.aligned = aligned → r.pos = p.numBits → content r = M ++ rest →
      g r = .ok (x, { r with pos := p'.numBits })

/-- The writer does not fail. -/
def Put.Total (f : Put) : Prop := ∀ p, ∃ p', f p = .ok p'

namespace Put.Total

variable {f g : Put}

theorem skip : Put.Total .skip := fun p => ⟨p, rfl⟩

theorem and (hf : f.Total) (hg : g.Total) : Put.Total (.and f g) := by
  intro p
  obtain ⟨q, hq⟩ := hf p
  obtain ⟨p', hp'⟩ := hg q
  refine ⟨p', ?_⟩
  unfold Put.and
  rw [hq]
  exact hp'

theorem putBits {v n : Nat} (h : n ≤ 64) : Put.Total (putBits v n) := by
  intro p
  unfold Asn1.putBits
  by_cases hzero : n = 0
  · exact ⟨p, if_pos hzero⟩
  · rw [if_neg hzero, if_neg (Nat.not_lt.2 h)]
    exact ⟨_, rfl⟩

theorem align : Put.Total alignToByte := by
  intro p
  unfold alignToByte
  split
  · exact ⟨p, rfl⟩
  · exact putBits (by omega) p

theorem octets {v : Nat} (h : v < 2 ^ 64) : Put.Total (Asn1.putBits v (minOctets v * 8)) := by
  have hle : minOctets v ≤ 8 := minOctets_le h (by decide)
  exact putBits (by omega)

theorem length {n : Nat} (h : n < 16384) : Put.Total (putLength n) := by
  refine .and .align ?_
  by_cases hshort : n < 128
  · rw [if_pos hshort]
    exact .and (putBits (by decide)) (putBits (by decide))
  · rw [if_neg hshort, if_pos h]
    exact .and (putBits (by decide)) (putBits (by decide))

theorem lengthOfOctets {v : Nat} (h : v < 2 ^ 64) : Put.Total (putLength (minOctets v)) := by
  have hle : minOctets v ≤ 8 := minOctets_le h (by decide)
  exact length (by omega)

theorem constrained {value lb ub : Int} (h : lb ≤ value ∧ value ≤ ub) :
    Put.Total (putConstrainedWhole value lb ub) := by
  have hoffset := toUint64_lt (value - lb)
  have hrng : rangeOf lb ub < 2 ^ 64 := mod_lt _ (by decide)
  unfold putConstrainedWhole
  rw [if_neg (by omega)]
  generalize rangeOf lb ub = rng at hrng ⊢
  have hbits {v : Nat} (hv : v < 2 ^ 64) : bitsNeeded v ≤ 64 := by
    unfold bitsNeeded
    split
    · exact zero_le _
    · exact len64_le (by omega)
  by_cases hone : rng = 1
  · rw [if_pos hone]
    exact .skip
  rw [if_neg hone]
  by_cases hshort : rng ≤ 255
  · rw [if_pos hshort]
    exact putBits (hbits hrng)
  rw [if_neg hshort]
  by_cases hbyte : rng = 256
  · rw [if_pos hbyte]
    exact .and .align (putBits (by decide))
  rw [if_neg hbyte]
  by_cases hword : rng ≤ 65536
  · rw [if_pos hword]
    exact .and .align (putBits (by decide))
  rw [if_neg hword]
  have hmax : maxOctets rng < 2 ^ 64 := by
    have hlen : len64 (rng - 1) ≤ 64 := len64_le (by omega)
    unfold maxOctets
    omega
  exact .and (putBits (hbits hmax)) (.and .align (.octets hoffset))

end Put.Total

variable {α : Type} {f : Put} {g : Get α} {x : α}

theorem Trip.inverts (h : Trip aligned f g x) (ht : f.Total) : Inverts aligned f g x := by
  intro p L hp ha
  obtain ⟨p', hput⟩ := ht p
  obtain ⟨-, M, hp', hread⟩ := h p p' L hp ha hput
  refine ⟨p', M, hput, hp', fun r rest hr hra hpos hcontent => ?_⟩
  have hstop : r.pos + M.length = p'.numBits := by
    rw [hpos, hp.numBits, hp'.numBits, length_append]
  rw [hread r rest hr hra (by rw [hpos, hp.numBits]) hcontent, hstop]

/-- The value that comes back where nothing was written. -/
theorem Inverts.of_nothing {y : α} (h : Inverts aligned f g x) (hf : ∀ p, f p = .ok p)
    (hg : ∀ r, g r = .ok (y, r)) : x = y := by
  obtain ⟨p', M, hput, hp', hread⟩ := h (newWriter aligned) [] (holds_newWriter aligned) rfl
  rw [hf] at hput
  cases hput
  have hM : M = [] := by
    have hlen := hp'.numBits
    exact length_eq_zero_iff.1 hlen.symm
  subst hM
  have hrun := hread (newReader [] aligned) [] (whole_newReader _ _) rfl rfl rfl
  rw [hg] at hrun
  cases hrun
  rfl

/-- Where the writer fails at the start of a buffer, nothing comes back. -/
theorem not_inverts_of_error {err : PerErr} {p : PerBitData} (hp : Holds p [])
    (ha : p.aligned = aligned) (h : f p = .error err) :
    ¬Inverts aligned f g x := by
  intro hinv
  obtain ⟨p', -, hput, -⟩ := hinv p [] hp ha
  rw [h] at hput
  cases hput

/-! ### Constrained numbers -/

section Constrained

variable {value lb ub : Int64}

/-- Nothing is written for a number that may be any of 64 bits. -/
theorem putConstrainedWhole_full (p : PerBitData) :
    putConstrainedWhole value.toInt Int64.minValue.toInt Int64.maxValue.toInt p = .ok p := by
  have hrng : rangeOf minValue.toInt maxValue.toInt = 0 := by decide
  have hlow := value.minValue_le_toInt
  have hhigh := value.toInt_le
  unfold putConstrainedWhole
  rw [if_neg (by omega)]
  rw [hrng]
  rfl

theorem getConstrainedWhole_full (r : PerBitData) :
    getConstrainedWhole Int64.minValue.toInt Int64.maxValue.toInt r =
      .ok (Int64.minValue.toInt, r) := by
  have hrng : rangeOf minValue.toInt maxValue.toInt = 0 := by decide
  unfold getConstrainedWhole
  rw [hrng]
  rfl

theorem inverts_constrained_iff (hge : lb ≤ value) (hle : value ≤ ub) :
    Inverts aligned (putConstrainedWhole value.toInt lb.toInt ub.toInt)
        (getConstrainedWhole lb.toInt ub.toInt) value.toInt ↔
      ¬(lb = Int64.minValue ∧ ub = Int64.maxValue ∧ value ≠ lb) := by
  constructor
  · rintro hinv ⟨rfl, rfl, hne⟩
    exact hne (toInt_inj.1
      (hinv.of_nothing putConstrainedWhole_full getConstrainedWhole_full))
  · intro hnot
    have hrange : rangeOf lb.toInt ub.toInt ≠ 0 ∨ value.toInt = lb.toInt := by
      by_cases hzero : rangeOf lb.toInt ub.toInt = 0
      · obtain ⟨hlb, hub⟩ := full_of_rangeOf hzero (Int64.le_trans hge hle)
        simp_all
      · exact .inl hzero
    exact (trip_constrained (inInt64_toInt value) (inInt64_toInt lb) (inInt64_toInt ub)
      hrange).inverts (.constrained ⟨le_iff_toInt_le.1 hge, le_iff_toInt_le.1 hle⟩)

end Constrained

/-! ### Lengths -/

section Lengths

variable {length sizeLB sizeUB : UInt64} {hasBounds : Bool}

theorem toInt64_toNat (x : UInt64) :
    toInt64 x.toNat = if x.toNat < 2 ^ 63 then (x.toNat : Int) else x.toNat - (2 ^ 64 : Nat) := by
  have hlt := x.toNat_lt
  unfold toInt64
  rw [bmod_def]
  split <;> split <;> omega

theorem inInt64_toInt64_toNat (x : UInt64) : InInt64 (toInt64 x.toNat) := by
  have hlt := x.toNat_lt
  rw [toInt64_toNat]
  unfold InInt64
  split <;> omega

theorem toUint64_toInt64_toNat (x : UInt64) : toUint64 (toInt64 x.toNat) = x.toNat := by
  have hlt := x.toNat_lt
  unfold toUint64
  rw [toInt64_toNat]
  split
  · have hmod : emod (x.toNat : Int) ((2 ^ 64 : Nat) : Int) = x.toNat :=
      emod_eq_of_lt (by omega) (by omega)
    rw [hmod, toNat_natCast]
  · have hmod : emod ((x.toNat : Int) - (2 ^ 64 : Nat)) ((2 ^ 64 : Nat) : Int) = x.toNat := by
      change ((x.toNat : Int) - (2 ^ 64 : Nat)) % ((2 ^ 64 : Nat) : Int) = x.toNat
      omega
    rw [hmod, toNat_natCast]

/-- The range of a size, from what it counts. -/
theorem toNat_range (h : sizeLB ≤ sizeUB) :
    (sizeUB - sizeLB + 1).toNat = (sizeUB.toNat - sizeLB.toNat + 1) % 2 ^ 64 := by
  rw [UInt64.toNat_add, UInt64.toNat_sub_of_le _ _ h]
  rfl

/-- The bounds are on the same side of `2 ^ 63`, where numbers of type `int64` turn negative. -/
def OneSide (sizeLB sizeUB : Nat) : Prop := 2 ^ 63 ≤ sizeLB ∨ sizeUB < 2 ^ 63

/-- The length has a form in which it is read again. -/
def LengthHeld (length sizeLB sizeUB : Nat) (hasBounds : Bool) : Prop :=
  if hasBounds then
    sizeLB = sizeUB ∨ sizeUB - sizeLB < 65536 ∧ OneSide sizeLB sizeUB ∨
      65536 ≤ sizeUB - sizeLB ∧ sizeUB - sizeLB ≠ 2 ^ 64 - 1 ∧ length < 16384
  else length < 16384

theorem inverts_length_iff (n : Nat) :
    Inverts aligned (putLength n) getLength n ↔ n < 16384 := by
  constructor
  · intro hinv
    by_contra hlong
    have hfail : putLength n (newWriter aligned) = .error (.fragmentation n) := by
      unfold putLength
      rw [if_neg (by omega), if_neg hlong]
      cases aligned <;> rfl
    exact not_inverts_of_error (holds_newWriter aligned) rfl hfail hinv
  · intro h
    exact (trip_length n).inverts (.length h)

/-- Bounds on both sides leave no number between them. -/
theorem putConstrainedWhole_crossing (h : ¬OneSide sizeLB.toNat sizeUB.toNat) (value : Int) :
    putConstrainedWhole value (toInt64 sizeLB.toNat) (toInt64 sizeUB.toNat) =
      .fail (.value value (toInt64 sizeLB.toNat) (toInt64 sizeUB.toNat)) := by
  have hlt := sizeUB.toNat_lt
  unfold OneSide at h
  have hlb : toInt64 sizeLB.toNat = sizeLB.toNat := by
    rw [toInt64_toNat, if_pos (by omega)]
  have hub : toInt64 sizeUB.toNat = sizeUB.toNat - (2 ^ 64 : Nat) := by
    rw [toInt64_toNat, if_neg (by omega)]
  unfold putConstrainedWhole
  rw [if_pos (by rw [hlb, hub]; omega)]

/-- Bounds on one side keep their order. -/
theorem toInt64_mono {x y : UInt64} (hx : sizeLB ≤ x) (hxy : x ≤ y) (hy : y ≤ sizeUB)
    (hside : OneSide sizeLB.toNat sizeUB.toNat) : toInt64 x.toNat ≤ toInt64 y.toNat := by
  grind [le_iff_toNat_le, toInt64_toNat, OneSide]

theorem trip_bounded (hbounds : sizeLB ≤ sizeUB) (hside : OneSide sizeLB.toNat sizeUB.toNat) :
    Trip aligned
      (putConstrainedWhole (toInt64 length.toNat) (toInt64 sizeLB.toNat) (toInt64 sizeUB.toNat))
      (getConstrainedWhole (toInt64 sizeLB.toNat) (toInt64 sizeUB.toNat) >>= fun v =>
        pure (toUint64 v)) length.toNat := by
  have horder := toInt64_mono UInt64.le_rfl hbounds UInt64.le_rfl hside
  have hlt := sizeUB.toNat_lt
  have hlb := toInt64_toNat sizeLB
  have hub := toInt64_toNat sizeUB
  rw [le_iff_toNat_le] at hbounds
  have hcount : rangeOf (toInt64 sizeLB.toNat) (toInt64 sizeUB.toNat) ≠ 0 := by
    rw [rangeOf_eq (inInt64_toInt64_toNat _) (inInt64_toInt64_toNat _) horder, hlb, hub]
    split <;> split <;> omega
  refine (trip_constrained (inInt64_toInt64_toNat _) (inInt64_toInt64_toNat _)
    (inInt64_toInt64_toNat _) (.inl hcount)).bind ?_
  rw [toUint64_toInt64_toNat]

/-- A length that is written as a number within its bounds. -/
theorem inverts_bounded_iff (hge : sizeLB ≤ length) (hle : length ≤ sizeUB) :
    Inverts aligned
        (putConstrainedWhole (toInt64 length.toNat) (toInt64 sizeLB.toNat) (toInt64 sizeUB.toNat))
        (getConstrainedWhole (toInt64 sizeLB.toNat) (toInt64 sizeUB.toNat) >>= fun v =>
          pure (toUint64 v)) length.toNat ↔
      OneSide sizeLB.toNat sizeUB.toNat := by
  constructor
  · intro hinv
    by_contra hcross
    have hfail := congrFun (putConstrainedWhole_crossing hcross (toInt64 length.toNat))
      (newWriter aligned)
    exact not_inverts_of_error (holds_newWriter aligned) rfl hfail hinv
  · intro hside
    exact (trip_bounded (UInt64.le_trans hge hle) hside).inverts
      (.constrained ⟨toInt64_mono UInt64.le_rfl hge hle hside, toInt64_mono hge hle UInt64.le_rfl hside⟩)

/-- The bounds of a length that are equal have it between them. -/
theorem trip_lengthBounds (hbounds : sizeLB ≤ sizeUB)
    (hfixed : hasBounds = true → sizeLB = sizeUB → length = sizeLB) :
    Trip aligned (putLengthBounds length sizeLB sizeUB hasBounds)
      (getLengthBounds sizeLB sizeUB hasBounds) length.toNat := by
  have hcount := toNat_range hbounds
  have horder := le_iff_toNat_le.1 hbounds
  have hlt := sizeUB.toNat_lt
  unfold putLengthBounds getLengthBounds
  by_cases hone : hasBounds = true ∧ sizeUB - sizeLB + 1 = 1
  · have heq : sizeLB.toNat = sizeUB.toNat := by
      rw [hone.2] at hcount
      change 1 = _ at hcount
      omega
    rw [if_pos hone, if_pos hone, hfixed hone.1 (UInt64.toNat_inj.1 heq)]
    exact .skip
  rw [if_neg hone, if_neg hone]
  by_cases hsmall : hasBounds = true ∧ sizeUB - sizeLB + 1 ≤ 65536
  · rw [if_pos hsmall, if_pos hsmall]
    by_cases hside : OneSide sizeLB.toNat sizeUB.toNat
    · exact trip_bounded hbounds hside
    · rw [putConstrainedWhole_crossing hside]
      exact .fail
  · rw [if_neg hsmall, if_neg hsmall]
    exact trip_length length.toNat

theorem inverts_lengthBounds_iff (h : hasBounds = true → sizeLB ≤ length ∧ length ≤ sizeUB) :
    Inverts aligned (putLengthBounds length sizeLB sizeUB hasBounds)
        (getLengthBounds sizeLB sizeUB hasBounds) length.toNat ↔
      LengthHeld length.toNat sizeLB.toNat sizeUB.toNat hasBounds := by
  unfold LengthHeld
  cases hasBounds with
  | false => exact inverts_length_iff length.toNat
  | true =>
    obtain ⟨hge, hle⟩ := h rfl
    have hbounds := UInt64.le_trans hge hle
    have hcount := toNat_range hbounds
    have hlt := sizeUB.toNat_lt
    have hword : sizeUB - sizeLB + 1 ≤ 65536 ↔ (sizeUB - sizeLB + 1).toNat ≤ 65536 :=
      le_iff_toNat_le
    unfold putLengthBounds getLengthBounds
    rw [if_pos rfl]
    by_cases heq : sizeLB = sizeUB
    · have hone : sizeUB - sizeLB + 1 = 1 := by
        rw [heq, UInt64.sub_self]
        rfl
      have hvalue : sizeLB = length := UInt64.le_antisymm hge (heq ▸ hle)
      rw [if_pos ⟨rfl, hone⟩, if_pos ⟨rfl, hone⟩, hvalue]
      exact ⟨fun _ => .inl (congrArg UInt64.toNat (hvalue.symm.trans heq)),
        fun _ => Trip.skip.inverts .skip⟩
    have hmany : ¬(true = true ∧ sizeUB - sizeLB + 1 = 1) := by
      grind
    rw [if_neg hmany, if_neg hmany]
    by_cases hsmall : true = true ∧ sizeUB - sizeLB + 1 ≤ 65536
    · grind [inverts_bounded_iff, OneSide]
    · grind [inverts_length_iff]

theorem toNat_ofNat_of_size {n : Nat} (h : n < 2 ^ 63) : (UInt64.ofNat n).toNat = n :=
  UInt64.toNat_ofNat_of_lt' (Nat.lt_trans h (by decide))

end Lengths

/-! ### All of them -/

/-- A call of the codec for one number. -/
inductive Primitive where
  | constrainedWhole (value lb ub : Int64)
  | semiConstrainedWhole (value lb : Int64)
  | unconstrainedWhole (value : Int64)
  | normallySmallNonNegative (v : UInt64)
  | lengthDeterminant (length sizeLB sizeUB : UInt64) (hasBounds : Bool)

namespace Primitive

/-- The number is within the bounds that there are. -/
def Within : Primitive → Prop
  | constrainedWhole value lb ub => lb ≤ value ∧ value ≤ ub
  | semiConstrainedWhole value lb => lb ≤ value
  | unconstrainedWhole _ => True
  | normallySmallNonNegative _ => True
  | lengthDeterminant length sizeLB sizeUB hasBounds =>
    hasBounds = true → sizeLB ≤ length ∧ length ≤ sizeUB

/-- What `Put` writes, `Get` reads. -/
def ComesBack (aligned : Bool) : Primitive → Prop
  | constrainedWhole value lb ub =>
    Inverts aligned (putConstrainedWhole value.toInt lb.toInt ub.toInt)
      (getConstrainedWhole lb.toInt ub.toInt) value.toInt
  | semiConstrainedWhole value lb =>
    Inverts aligned (putSemiConstrainedWhole value.toInt lb.toInt)
      (getSemiConstrainedWhole lb.toInt) value.toInt
  | unconstrainedWhole value =>
    Inverts aligned (putUnconstrainedWhole value.toInt) getUnconstrainedWhole value.toInt
  | normallySmallNonNegative v =>
    Inverts aligned (putNormallySmallNonNegative v.toNat) getNormallySmallNonNegative v.toNat
  | lengthDeterminant length sizeLB sizeUB hasBounds =>
    Inverts aligned (putLengthBounds length sizeLB sizeUB hasBounds)
      (getLengthBounds sizeLB sizeUB hasBounds) length.toNat

/-- The range of the number does not overflow, and its length needs no fragments. -/
def Held : Primitive → Prop
  | constrainedWhole value lb ub => ¬(lb = Int64.minValue ∧ ub = Int64.maxValue ∧ value ≠ lb)
  | semiConstrainedWhole _ _ => True
  | unconstrainedWhole _ => True
  | normallySmallNonNegative _ => True
  | lengthDeterminant length sizeLB sizeUB hasBounds =>
    LengthHeld length.toNat sizeLB.toNat sizeUB.toNat hasBounds

theorem inverts_semiConstrained (value lb : Int64) :
    Inverts aligned (putSemiConstrainedWhole value.toInt lb.toInt)
      (getSemiConstrainedWhole lb.toInt) value.toInt := by
  have hoff := toUint64_lt (value.toInt - lb.toInt)
  exact (trip_semiConstrained (inInt64_toInt value)).inverts
    (.and (.lengthOfOctets hoff) (.and .align (.octets hoff)))

theorem inverts_unconstrained (value : Int64) :
    Inverts aligned (putUnconstrainedWhole value.toInt) getUnconstrainedWhole value.toInt := by
  have hvalue := inInt64_toInt value
  obtain ⟨-, hle, -⟩ := signedMinOctets_spec hvalue
  exact (trip_unconstrained hvalue).inverts
    (.and (.length (by omega)) (.and .align (.putBits (by omega))))

theorem inverts_normallySmall (v : UInt64) :
    Inverts aligned (putNormallySmallNonNegative v.toNat) getNormallySmallNonNegative v.toNat := by
  refine (trip_normallySmall v.toNat).inverts ?_
  unfold putNormallySmallNonNegative
  split
  · exact .and (.putBits (by decide)) (.putBits (by decide))
  · exact .and (.putBits (by decide))
      (.and (.lengthOfOctets v.toNat_lt) (.and .align (.octets v.toNat_lt)))

/-- Every number comes back from wherever it is written, apart from those that leave no trace
because their range is all of 64 bits, and lengths that would need fragments or whose bounds are
on both sides of the numbers that `int64` has. -/
theorem inverts_iff (aligned : Bool) (c : Primitive) (h : c.Within) :
    c.ComesBack aligned ↔ c.Held := by
  cases c with
  | constrainedWhole value lb ub => exact inverts_constrained_iff h.1 h.2
  | semiConstrainedWhole value lb => exact iff_true_intro (inverts_semiConstrained value lb)
  | unconstrainedWhole value => exact iff_true_intro (inverts_unconstrained value)
  | normallySmallNonNegative v => exact iff_true_intro (inverts_normallySmall v)
  | lengthDeterminant length sizeLB sizeUB hasBounds => exact inverts_lengthBounds_iff h

theorem inverts_iff_word :
    (constrainedWhole 70000 (-5) 100000).ComesBack true ↔
      (constrainedWhole 70000 (-5) 100000).Held :=
  inverts_iff true (constrainedWhole 70000 (-5) 100000) (by unfold Within; decide)

/-- Zero among all of 64 bits is read as the least number. -/
theorem zero_comes_back_least :
    ¬∀ (aligned : Bool) (c : Primitive), c.Within → c.ComesBack aligned := by
  intro hall
  have hback := hall true (constrainedWhole 0 minValue maxValue)
    (by unfold Within; decide)
  have heq : (0 : Int64).toInt = minValue.toInt :=
    Inverts.of_nothing hback putConstrainedWhole_full getConstrainedWhole_full
  exact absurd heq (by decide)

end Primitive

end MmtCore.Asn1
