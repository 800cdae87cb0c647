import MmtCore.Asn1.NumberTrips
import MmtCore.Asn1.PerString

/-!
# Trips of strings

Octets and open types come back as they were, characters that fit their bits do, and so do bit
strings with exactly the bytes that their bits need and zeros behind the last bit.
-/

namespace MmtCore.Asn1

open MmtCore.Lib List Nat

variable {aligned : Bool} {mem : Nat}

/-! ## Sizes -/

/-- No length that is read for this size is greater. -/
def sizeLimit : Option SizeRange → Nat
  | some s => s.lb + 65535
  | none => 16383

theorem le_sizeLimit (size : Option SizeRange) : 16383 ≤ sizeLimit size := by
  cases size with
  | none => exact Nat.le_refl _
  | some s =>
    unfold sizeLimit
    dsimp only
    omega

theorem putLength_le {n : Nat} {p p' : PerBitData} (h : putLength n p = .ok p') : n ≤ 16383 := by
  unfold putLength Put.and at h
  cases halign : alignToByte p with
  | error err =>
    rw [halign] at h
    cases h
  | ok q =>
    rw [halign] at h
    by_cases hshort : n < 128
    · omega
    rw [if_neg hshort] at h
    by_cases hlong : n < 16384
    · omega
    rw [if_neg hlong] at h
    cases h

/-- What is written for a length is within the bounds, or without them. -/
theorem putLengthDeterminant_le {n : Nat} {size : Option SizeRange} {p p' : PerBitData}
    (hfixed : ∀ s, size = some s → s.rng = 1 → n = s.lb)
    (h : putLengthDeterminant n size p = .ok p') : n ≤ sizeLimit size := by
  cases size with
  | none => exact putLength_le h
  | some s =>
    unfold putLengthDeterminant at h
    dsimp only at h
    by_cases hone : s.rng = 1
    · simp_all [sizeLimit]
    rw [if_neg hone] at h
    by_cases hsmall : s.rng ≤ 65536
    · rw [if_pos hsmall] at h
      unfold putConstrainedWhole at h
      by_cases hout : (n : Int) < s.lb ∨ (s.ub : Int) < n
      · rw [if_pos hout] at h
        cases h
      · unfold SizeRange.rng at hsmall
        unfold sizeLimit
        dsimp only
        omega
    · rw [if_neg hsmall] at h
      exact Nat.le_trans (putLength_le h) (le_sizeLimit _)

theorem toInt_of_le {n : Nat} (h : n ≤ mem) (hmem : mem < 2 ^ 63) : toInt n = n :=
  toInt64_of_in (inInt64_of_size (by omega))

namespace Trip

variable {α : Type} {f : Put} {x : α} {n : Nat} {size : Option SizeRange}

/-- A length, and what needs a slice of that length. -/
theorem sized {k : Nat → Get α} (hmem : mem < 2 ^ 63) (hlimit : sizeLimit size ≤ mem)
    (hfixed : ∀ s, size = some s → s.rng = 1 → n = s.lb)
    (h : n ≤ mem → Trip aligned f (k n) x) :
    Trip aligned (.and (putLengthDeterminant n size) f) (getLengthDeterminant size >>= k) x := by
  intro p p' L hp ha hput
  have hn : n ≤ mem := by
    unfold Put.and at hput
    cases hlength : putLengthDeterminant n size p with
    | error err =>
      rw [hlength] at hput
      cases hput
    | ok q => exact Nat.le_trans (putLengthDeterminant_le hfixed hlength) hlimit
  exact (Trip.seq (trip_lengthDeterminant (by omega) hfixed) (h hn)) p p' L hp ha hput

/-- A slice is made. -/
theorem make {g : Get α} (hmem : mem < 2 ^ 63) (hn : n ≤ mem) (h : Trip aligned f g x) :
    Trip aligned f (makeSlice mem (toInt n) >>= fun _ => g) x := by
  have hmake : makeSlice mem (toInt n) = pure () := by
    funext p
    unfold makeSlice
    rw [toInt_of_le hn hmem, if_neg (by omega)]
    rfl
  rw [hmake]
  exact h

/-- The bit that says which size is meant. -/
theorem sizeExt {sizeExt : Bool} {k : Option SizeRange → Get α}
    (h : Trip aligned f (k (rootSize sizeExt size n)) x) :
    Trip aligned (.and (putSizeExt sizeExt size n) f) (getSizeExt sizeExt size >>= k) x := by
  refine .seq ?_ h
  cases sizeExt with
  | false => exact .skip
  | true =>
    unfold putSizeExt getSizeExt rootSize
    refine (Trip.putBits ?_).bind ?_
    · split <;> decide
    · cases outside size n <;> rfl

/-- A size that is checked is within its bounds. -/
theorem checked {kind : String} {sizeExt : Bool} {g : Get α}
    (h : (∀ s, rootSize sizeExt size n = some s → s.Within n) → Trip aligned f g x) :
    Trip aligned (.and (checkSize kind sizeExt size n) f) g x := by
  have hroot : rootSize sizeExt size n = if sizeExt ∧ outside size n then none else size := rfl
  cases size with
  | none =>
    refine h fun s hs => ?_
    rw [hroot, ite_self] at hs
    cases hs
  | some s =>
    by_cases hin : s.Within n
    · have hskip : checkSize kind sizeExt (some s) n = .skip := if_neg fun hout => hout.2 hin
      rw [hskip]
      refine h fun s' hs' => ?_
      simp_all
    · cases sizeExt with
      | false =>
        have hfail : checkSize kind false (some s) n = .fail (.size kind n s.lb s.ub) :=
          if_pos ⟨rfl, hin⟩
        rw [hfail]
        intro p p' L hp ha hput
        cases hput
      | true =>
        have hskip : checkSize kind true (some s) n = .skip := by
          simp [checkSize]
        rw [hskip]
        refine h fun s' hs' => ?_
        rw [hroot, if_pos ⟨rfl, decide_eq_true hin⟩] at hs'
        cases hs'

/-- The reader and the writer agree on the alignment. -/
theorem ofAligned {f : Bool → Put} {g : Bool → Get α} (h : Trip aligned (f aligned) (g aligned) x) :
    Trip aligned (fun p => f p.aligned p) (fun p => g p.aligned p) x := by
  intro p p' L hp ha hput
  dsimp only at hput
  rw [ha] at hput
  obtain ⟨ha', M, hM, hread⟩ := h p p' L hp ha hput
  grind

end Trip

theorem rootSize_limit (sizeExt : Bool) (size : Option SizeRange) (n : Nat) :
    sizeLimit (rootSize sizeExt size n) ≤ sizeLimit size := by
  unfold rootSize
  split
  · exact le_sizeLimit size
  · exact Nat.le_refl _

/-- A length within the bounds of a fixed size is that size. -/
theorem eq_of_fixed {s : SizeRange} {n : Nat} (hin : s.Within n) (h : s.rng = 1) : n = s.lb := by
  obtain ⟨hge, hle⟩ := hin
  unfold SizeRange.rng at h
  omega

/-! ## Characters -/

theorem putOctets_eq (l : Bytes) : putOctets l = putChars 8 l := by
  induction l with
  | nil => rfl
  | cons b l ih => rw [putOctets, putChars, ih]

theorem trip_chars {bits : Nat} {l : Bytes} (h : ∀ c ∈ l, c.toNat < 2 ^ bits) :
    Trip aligned (putChars bits l) (getChars bits l.length) l := by
  induction l with
  | nil => exact .skip
  | cons c l ih =>
    have hrest := ih fun d hd => h d (mem_cons_of_mem c hd)
    refine .seq (.putBits (h c mem_cons_self)) (hrest.bind ?_)
    rw [UInt8.ofNat_toNat]

theorem trip_octets (l : Bytes) : Trip aligned (putOctets l) (getChars 8 l.length) l := by
  rw [putOctets_eq]
  exact trip_chars fun c _ => c.toNat_lt

theorem trip_octetString (data : Bytes) {sizeExt : Bool} {size : Option SizeRange}
    (hmem : mem < 2 ^ 63) (hlimit : sizeLimit size ≤ mem) :
    Trip aligned (putOctetString data sizeExt size) (getOctetString mem sizeExt size) data := by
  refine .checked fun hin => .sizeExt (.sized hmem (Nat.le_trans (rootSize_limit ..) hlimit)
    (fun s hs hone => eq_of_fixed (hin s hs) hone) fun hle => ?_)
  by_cases hzero : data.length = 0
  · rw [if_pos hzero, if_pos hzero, length_eq_zero_iff.1 hzero]
    exact .skip
  rw [if_neg hzero, if_neg hzero]
  have hoctets : Trip aligned (putOctets data)
      (makeSlice mem (toInt data.length) >>= fun _ => getChars 8 data.length) data :=
    .make hmem hle (trip_octets data)
  by_cases hshort : shortFixed (rootSize sizeExt size data.length) data.length = true
  · rw [if_pos hshort, if_pos hshort]
    exact hoctets
  · rw [if_neg hshort, if_neg hshort]
    exact .seq .align hoctets

theorem trip_kmString {data : Bytes} {bitsPerChar : Nat} {sizeExt : Bool} {size : Option SizeRange}
    (hmem : mem < 2 ^ 63) (hlimit : sizeLimit size ≤ mem)
    (hchars : ∀ c ∈ data, c.toNat < 2 ^ effectiveBits aligned bitsPerChar data.length)
    (hfixed : ∀ s, rootSize sizeExt size data.length = some s → s.rng = 1 → data.length = s.lb) :
    Trip aligned (putKMString data bitsPerChar sizeExt size)
      (getKMString mem bitsPerChar sizeExt size) data := by
  refine .sizeExt (.sized hmem (Nat.le_trans (rootSize_limit ..) hlimit) hfixed fun hle => ?_)
  by_cases hzero : data.length = 0
  · rw [if_pos hzero, if_pos hzero, length_eq_zero_iff.1 hzero]
    exact .skip
  rw [if_neg hzero, if_neg hzero]
  have hslice := Trip.make hmem hle (Trip.ofAligned
    (f := fun a => putChars (effectiveBits a bitsPerChar data.length) data)
    (g := fun a => getChars (effectiveBits a bitsPerChar data.length) data.length)
    (trip_chars hchars))
  by_cases hlong : data.length * bitsPerChar > 16
  · rw [if_pos hlong, if_pos hlong]
    exact .seq .align hslice
  · rw [if_neg hlong, if_neg hlong]
    exact hslice

/-! ## Bits -/

/-- `bitAt` as a truth value. -/
def bit (bytes : Bytes) (i : Nat) : Bool :=
  match bytes[i / 8]? with
  | some b => b.toNat.testBit (7 - i % 8)
  | none => false

theorem bitAt_eq (bytes : Bytes) (i : Nat) : bitAt bytes i = (bit bytes i).toNat := by
  grind [shiftRight_eq_div_pow, bitAt, bit]

/-- The bit is set. -/
def setBit (bytes : Bytes) (i : Nat) : Bytes :=
  bytes.modify (i / 8) fun x => x ||| (1 <<< UInt8.ofNat (7 - i % 8))

/-- Bits of `src` are copied. -/
def copyBits (src : Bytes) : Bytes → (n i : Nat) → Bytes
  | acc, 0, _ => acc
  | acc, n + 1, i => copyBits src (if bit src i then setBit acc i else acc) n (i + 1)

theorem trip_bits (src acc : Bytes) (n i : Nat) :
    Trip aligned (putBitAt src n i) (getBitAt acc n i) (copyBits src acc n i) := by
  induction n generalizing acc i with
  | zero => exact .skip
  | succ n ih =>
    have hput : putBitAt src (n + 1) i =
        .and (putBits (bit src i).toNat 1) (putBitAt src n (i + 1)) := by
      rw [← bitAt_eq]
      rfl
    rw [hput]
    refine .seq (.putBits (lt_succ_of_le (Bool.toNat_le _))) ?_
    have hnext : (if (bit src i).toNat = 1 then setBit acc i else acc) =
        if bit src i then setBit acc i else acc := by
      cases bit src i <;> rfl
    change Trip aligned _
      (getBitAt (if (bit src i).toNat = 1 then setBit acc i else acc) n (i + 1)) _
    rw [hnext]
    exact ih _ (i + 1)

theorem length_setBit (bytes : Bytes) (i : Nat) : (setBit bytes i).length = bytes.length :=
  length_modify ..

theorem length_copyBits (src acc : Bytes) (n i : Nat) :
    (copyBits src acc n i).length = acc.length := by
  induction n generalizing acc i with
  | zero => rfl
  | succ n ih =>
    rw [copyBits, ih]
    split
    · exact length_setBit acc i
    · rfl

theorem testBit_mask {k t : Nat} (hk : k < 8) (ht : t < 8) :
    ((1 : UInt8) <<< UInt8.ofNat k).toNat.testBit t = decide (t = k) := by
  have hall : ∀ k < 8, ∀ t < 8,
      ((1 : UInt8) <<< UInt8.ofNat k).toNat.testBit t = decide (t = k) := by decide
  exact hall k hk t ht

theorem bit_setBit {bytes : Bytes} {i j : Nat} (hi : i < 8 * bytes.length) :
    bit (setBit bytes i) j = (bit bytes j || decide (j = i)) := by
  unfold bit setBit
  rw [getElem?_modify]
  by_cases hbyte : i / 8 = j / 8
  · grind [UInt8.toNat_or, testBit_mask]
  · have hne : j ≠ i := by
      rintro rfl
      exact hbyte rfl
    simp_all

theorem bit_copyBits {src acc : Bytes} {n i j : Nat} (h : i + n ≤ 8 * acc.length) :
    bit (copyBits src acc n i) j = (bit acc j || (decide (i ≤ j ∧ j < i + n) && bit src j)) := by
  induction n generalizing acc i with
  | zero =>
    have hout : ¬(i ≤ j ∧ j < i + 0) := by omega
    rw [copyBits, decide_eq_false hout, Bool.false_and, Bool.or_false]
  | succ n ih =>
    have hlen : (if bit src i then setBit acc i else acc).length = acc.length := by
      split
      · exact length_setBit acc i
      · rfl
    rw [copyBits, ih (by rw [hlen]; omega)]
    have hfirst : bit (if bit src i then setBit acc i else acc) j =
        (bit acc j || (decide (j = i) && bit src j)) := by
      by_cases hbit : bit src i = true
      · rw [if_pos hbit, bit_setBit (by omega)]
        by_cases hj : j = i
        · rw [hj, hbit, Bool.and_true]
        · rw [decide_eq_false hj, Bool.false_and]
      · rw [if_neg hbit]
        by_cases hj : j = i
        · rw [hj, Bool.eq_false_iff.2 hbit, Bool.and_false, Bool.or_false]
        · rw [decide_eq_false hj, Bool.false_and, Bool.or_false]
    grind

/-- Bytes are their bits. -/
theorem eq_of_bits {a b : Bytes} (hlen : a.length = b.length)
    (h : ∀ j < 8 * a.length, bit a j = bit b j) : a = b := by
  refine List.ext_getElem hlen fun k hk hk' => ?_
  refine UInt8.toNat_inj.1 (Nat.eq_of_testBit_eq fun t => ?_)
  by_cases ht : t < 8
  · have hbit := h (8 * k + (7 - t)) (by omega)
    have hdiv : (8 * k + (7 - t)) / 8 = k := by omega
    grind [bit]
  · have hhigh (x : UInt8) : x.toNat.testBit t = false :=
      testBit_lt_two_pow
        (Nat.lt_of_lt_of_le x.toNat_lt (Nat.pow_le_pow_right (by decide) (by omega)))
    rw [hhigh, hhigh]

theorem bit_replicate_zero (m j : Nat) : bit (List.replicate m 0) j = false := by
  grind [bit]

/-- As many bytes as the bits need, with zeros behind the last bit. -/
def BitString.Canonical (bs : BitString) : Prop :=
  bs.bytes.length = (bs.bitLength + 7) / 8 ∧
    ∀ j < 8 * bs.bytes.length, bs.bitLength ≤ j → bit bs.bytes j = false

instance (bs : BitString) : Decidable bs.Canonical := inferInstanceAs (Decidable (_ ∧ _))

theorem copyBits_canonical {bs : BitString} (h : bs.Canonical) :
    copyBits bs.bytes (List.replicate ((bs.bitLength + 7) / 8) 0) bs.bitLength 0 = bs.bytes := by
  obtain ⟨hlen, hzero⟩ := h
  have hlength : (copyBits bs.bytes (List.replicate ((bs.bitLength + 7) / 8) 0) bs.bitLength
      0).length = bs.bytes.length := by
    rw [length_copyBits, length_replicate, hlen]
  refine eq_of_bits hlength fun j hj => ?_
  rw [hlength] at hj
  rw [bit_copyBits (by rw [List.length_replicate]; omega), bit_replicate_zero, Bool.false_or]
  by_cases hin : j < bs.bitLength
  · rw [decide_eq_true ⟨Nat.zero_le j, by omega⟩, Bool.true_and]
  · rw [decide_eq_false (by omega), Bool.false_and, hzero j hj (by omega)]

theorem trip_bitString {bs : BitString} {sizeExt : Bool} {size : Option SizeRange}
    (hmem : mem < 2 ^ 63) (hlimit : sizeLimit size ≤ mem) (h : bs.Canonical) :
    Trip aligned (putBitString bs sizeExt size) (getBitString mem sizeExt size) bs := by
  refine .checked fun hin => .sizeExt (.sized hmem (Nat.le_trans (rootSize_limit ..) hlimit)
    (fun s hs hone => eq_of_fixed (hin s hs) hone) fun hle => ?_)
  have hbits : Trip aligned (putBitAt bs.bytes bs.bitLength 0)
      (getBitAt (replicate ((bs.bitLength + 7) / 8) 0) bs.bitLength 0 >>= fun bytes =>
        pure ⟨bytes, bs.bitLength⟩) bs := by
    refine (trip_bits bs.bytes _ bs.bitLength 0).bind ?_
    rw [copyBits_canonical h]
  have hslice := Trip.make hmem (show (bs.bitLength + 7) / 8 ≤ mem by omega) hbits
  by_cases hlong : bs.bitLength > 16
  · rw [if_pos hlong, if_pos hlong]
    exact .seq .align hslice
  · rw [if_neg hlong, if_neg hlong]
    exact hslice

/-! ## Open types -/

theorem trip_openType (inner : Bytes) (hmem : mem < 2 ^ 63) (hlimit : 16383 ≤ mem) :
    Trip aligned (putOpenType inner) (getOpenType mem) inner := by
  unfold putOpenType getOpenType
  have hlength : putLength inner.length = putLengthDeterminant inner.length none := rfl
  have hget : getLength = getLengthDeterminant none := rfl
  rw [hlength, hget]
  exact .sized hmem hlimit (fun _ h => nomatch h) fun hle =>
    .seq .align (.make hmem hle (trip_octets inner))

end MmtCore.Asn1
