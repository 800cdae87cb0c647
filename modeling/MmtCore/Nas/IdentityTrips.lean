import MmtCore.Nas.ReadBack

/-!
# Mobile identities there and back

What a well-formed 5GS mobile identity looks like on the wire, and that decoding one and encoding it
again gives the same bytes.
-/

namespace MmtCore.Nas

open List Nat

set_option maxRecDepth 4000 in
theorem join_nibbles (b : UInt8) : ((b >>> 4) <<< 4) ||| (b &&& 0x0F) = b :=
  forall_uint8 (P := fun b => ((b >>> 4) <<< 4) ||| (b &&& 0x0F) = b) (by decide) b

theorem nibbleText_of_lt {d : UInt8} (h : d < 10) : nibbleText d = [48 + d] := if_pos h

theorem add_sub_zero (d : UInt8) : 48 + d - 48 = d := by grind

/-- The octets of a network: digits, and a digit or the filler for the third one of the MNC. -/
structure PlmnOctets (a b c : UInt8) : Prop where
  mcc : a &&& 0x0F < 10 ∧ a >>> 4 < 10 ∧ b &&& 0x0F < 10
  mnc : c &&& 0x0F < 10 ∧ c >>> 4 < 10
  third : b >>> 4 < 10 ∨ b >>> 4 = 0x0F

theorem PlmnOctets.encode_decode {a b c : UInt8} (h : PlmnOctets a b c) :
    (PlmnId.decodeBCD a b c).encodeBCD = [a, b, c] := by
  obtain ⟨⟨h₁, h₂, h₃⟩, ⟨h₄, h₅⟩, h₆⟩ := h
  have hb := join_nibbles b
  rcases h₆ with h₆ | h₆
  · have hne : b >>> 4 ≠ 0x0F := fun he => absurd (he ▸ h₆) (by decide)
    simp [PlmnId.decodeBCD, PlmnId.encodeBCD, nibbleText_of_lt, digitAt, mncDigits, add_sub_zero,
      and_0F_and_0F, join_nibbles, h₁, h₂, h₃, h₄, h₅, h₆, hne]
  · rw [h₆] at hb
    simp [PlmnId.decodeBCD, PlmnId.encodeBCD, nibbleText_of_lt, digitAt, mncDigits, add_sub_zero,
      and_0F_and_0F, join_nibbles, h₁, h₂, h₃, h₄, h₅, h₆, hb]

/-- Two digits in each octet. -/
def DigitPairs (v : Bytes) : Prop := ∀ b ∈ v, b &&& 0x0F < 10 ∧ b >>> 4 < 10

theorem digitPairs_digitsOf {v : Bytes} (h : DigitPairs v) (more : Bytes) :
    digitPairs (digitsOf v ++ more) = v ++ digitPairs more ∧
      (digitsOf v ++ more).length = 2 * v.length + more.length := by
  induction v with
  | nil => simp [digitsOf]
  | cons b v ih =>
    obtain ⟨-, hhi⟩ := h b mem_cons_self
    obtain ⟨hpairs, hlen⟩ := ih fun x hx => h x (mem_cons_of_mem _ hx)
    have hne : b >>> 4 ≠ 0x0F := fun he => absurd (he ▸ hhi) (by decide)
    rw [digitsOf_cons, if_neg hne]
    refine ⟨?_, by simp at hlen ⊢; omega⟩
    simp [digitPairs, hpairs, add_sub_zero, join_nibbles]

/-- The octets of an identity made of digits: the first one has a digit, the type and whether the
number of digits is odd; where it is even, the last one ends in the filler. -/
inductive DigitOctets : Bytes → Prop
  | odd {d : UInt8} {v : Bytes} (hd : d < 10) (hv : DigitPairs v) :
    DigitOctets (((d <<< 4) ||| ((1 : UInt8) <<< 3) ||| 0x03) :: v)
  | even {d last : UInt8} {v : Bytes} (hd : d < 10) (hv : DigitPairs v) (hlast : last < 10) :
    DigitOctets (((d <<< 4) ||| ((0 : UInt8) <<< 3) ||| 0x03) ::
      (v ++ [((0x0F : UInt8) <<< 4) ||| last]))

/-! ## TBCD -/

def encodeTBCD (digits : Bytes) : Option Bytes :=
  if digits.all fun c => decide (Digit c) then some (digitPairs digits) else none

/-- Up to the first filler. -/
def decodeTBCD : Bytes → Bytes
  | [] => []
  | x :: b =>
    if x &&& 0x0F = 0x0F then []
    else if x >>> 4 = 0x0F then [(48 : UInt8) + (x &&& 0x0F)]
    else ((48 : UInt8) + (x &&& 0x0F)) :: ((48 : UInt8) + (x >>> 4)) :: decodeTBCD b

set_option maxRecDepth 4000 in
theorem tbcd_octet {a : UInt8} : Digit a →
    (a - 48) &&& 0x0F = a - 48 ∧ a - 48 ≠ 0x0F ∧ 48 + (a - 48) = a :=
  forall_uint8 (P := fun a => Digit a →
    (a - 48) &&& 0x0F = a - 48 ∧ a - 48 ≠ 0x0F ∧ 48 + (a - 48) = a) (by decide) a

theorem decodeTBCD_encode {digits : Bytes} (h : ∀ c ∈ digits, Digit c) :
    (encodeTBCD digits).map decodeTBCD = some digits := by
  rw [encodeTBCD, if_pos (by simpa using h), Option.map_some]
  congr 1
  induction digits using digitPairs.induct with
  | case1 => rfl
  | case2 a =>
    obtain ⟨hlow, hne, hback⟩ := tbcd_octet (h a (by simp))
    rw [digitPairs, decodeTBCD, low_or, hlow, if_neg hne, high_filler, if_pos rfl, hback]
  | case3 a b rest ih =>
    obtain ⟨hlow, hne, hback⟩ := tbcd_octet (h a (by simp))
    obtain ⟨hlow', hne', hback'⟩ := tbcd_octet (h b (by simp))
    have hhigh := high_or (b - 48) (a - 48)
    rw [hlow] at hhigh
    rw [digitPairs, decodeTBCD, low_or, hlow, if_neg hne, hhigh, hlow', if_neg hne', hback, hback',
      ih fun c hc => h c (by simp [hc])]

namespace MobileIdentity5GS

/-- A well-formed encoding of an identity: a SUCI here has the null scheme, and neither a routing
indicator nor a key. -/
inductive WellFormed : Bytes → Prop
  | suci {a b c : UInt8} (output : Bytes) (h : PlmnOctets a b c) :
    WellFormed (0x01 :: a :: b :: c :: 0 :: 0 :: 0 :: 0 :: output)
  | guti5G {a b c : UInt8} (region s₁ s₂ t₁ t₂ t₃ t₄ : UInt8) (h : PlmnOctets a b c) :
    WellFormed [0xF2, a, b, c, region, s₁, s₂, t₁, t₂, t₃, t₄]
  | imei {v : Bytes} (h : DigitOctets v) : WellFormed v
  | stmsi5G (s₁ s₂ t₁ t₂ t₃ t₄ : UInt8) : WellFormed [0xF4, s₁, s₂, t₁, t₂, t₃, t₄]
  | noIdentity : WellFormed [0x00]

theorem putAmf_get (s₁ s₂ : UInt8) : putAmf (getAmfSet s₁ s₂) (s₂ &&& 0x3F) = [s₁, s₂] := by
  have h₁ := s₁.toNat_lt
  have h₂ := s₂.toNat_lt
  refine List.cons_eq_cons.2 ⟨UInt8.toNat_inj.1 ?_, List.cons_eq_cons.2 ⟨UInt8.toNat_inj.1 ?_, rfl⟩⟩
  all_goals
    simp only [UInt16.toNat_toUInt8, UInt16.toNat_shiftRight, toNat_amf, toNat_getAmfSet,
      UInt8.toNat_and, UInt16.reduceToNat, UInt8.reduceToNat, Nat.reduceMod,
      shiftRight_eq_div_pow, reducePow]
    rw [Nat.and_two_pow_sub_one_eq_mod _ 6]
    omega

theorem putTMSI_get (t₁ t₂ t₃ t₄ : UInt8) : putTMSI (getTMSI t₁ t₂ t₃ t₄) = [t₁, t₂, t₃, t₄] := by
  have h₁ := t₁.toNat_lt
  have h₂ := t₂.toNat_lt
  have h₃ := t₃.toNat_lt
  have h₄ := t₄.toNat_lt
  unfold putTMSI
  simp only [List.cons.injEq, ← UInt8.toNat_inj, UInt32.toNat_toUInt8, UInt32.toNat_shiftRight,
    toNat_getTMSI, UInt32.reduceToNat, Nat.reduceMod, Nat.shiftRight_eq_div_pow, Nat.reducePow,
    and_true]
  omega

variable {d : UInt8} {v : Bytes}

set_option maxRecDepth 4000 in
theorem low_of_lt : d < 10 → d &&& 0x0F = d :=
  forall_uint8 (P := fun d => d < 10 → d &&& 0x0F = d) (by decide) d

set_option maxRecDepth 4000 in
theorem digit_ne_filler : d < 10 → 48 + d ≠ 63 :=
  forall_uint8 (P := fun d => d < 10 → 48 + d ≠ 63) (by decide) d

set_option maxRecDepth 4000 in
theorem filler_or : d < 10 → ((0x0F : UInt8) <<< 4 ||| d) &&& 0x0F = d ∧
    ((0x0F : UInt8) <<< 4 ||| d) >>> 4 = 0x0F :=
  forall_uint8 (P := fun d => d < 10 → ((0x0F : UInt8) <<< 4 ||| d) &&& 0x0F = d ∧
    ((0x0F : UInt8) <<< 4 ||| d) >>> 4 = 0x0F) (by decide) d

theorem encode_decode_digits (h : DigitOctets v) : ∃ i, decode v = .ok i ∧ i.encode = v := by
  cases h with
  | @odd d v hd hv =>
    obtain ⟨htype, hfirst, hodd⟩ := decodeIMEI_first d 1 (.inr rfl)
    obtain ⟨hpairs, hlen⟩ := digitPairs_digitsOf hv []
    refine ⟨imei ((48 + d) :: digitsOf v), ?_, ?_⟩
    · simp [decode, decodeIMEI, htype, hfirst, hodd, low_of_lt hd]
    · simp only [append_nil, length_nil, digitPairs] at hpairs hlen
      simp [encode, hpairs, hlen, add_sub_zero]
  | @even d last v hd hv hlast =>
    obtain ⟨htype, hfirst, hodd⟩ := decodeIMEI_first d 0 (.inl rfl)
    obtain ⟨hpairs, hlen⟩ := digitPairs_digitsOf hv [48 + last]
    have hback : digitsOf (v ++ [((0x0F : UInt8) <<< 4) ||| last]) = digitsOf v ++ [48 + last] := by
      rw [digitsOf, flatMap_append]
      exact congrArg (digitsOf v ++ ·) (by simp [filler_or hlast])
    refine ⟨imei ((48 + d) :: (digitsOf v ++ [48 + last])), ?_, ?_⟩
    · have hend : ((48 + d) :: (digitsOf v ++ [48 + last])).getLast? = some (48 + last) := by
        rw [← cons_append, getLast?_concat]
      generalize (d <<< 4) ||| ((0 : UInt8) <<< 3) ||| 3 = o at htype hfirst hodd ⊢
      simp [decode, decodeIMEI, htype, hfirst, low_of_lt hd, hback, hend, digit_ne_filler hlast]
    · grind [digitPairs, encode]

theorem WellFormed.encode_decode (h : WellFormed v) : ∃ i, decode v = .ok i ∧ i.encode = v := by
  cases h with
  | suci output h => exact ⟨_, rfl, by rw [encode, h.encode_decode]; rfl⟩
  | guti5G region s₁ s₂ t₁ t₂ t₃ t₄ h =>
    exact ⟨_, rfl, by rw [encode, h.encode_decode, putAmf_get, putTMSI_get]; rfl⟩
  | imei h => exact encode_decode_digits h
  | stmsi5G s₁ s₂ t₁ t₂ t₃ t₄ => exact ⟨_, rfl, by rw [encode, putAmf_get, putTMSI_get]; rfl⟩
  | noIdentity => exact ⟨_, rfl, rfl⟩

end MobileIdentity5GS

end MmtCore.Nas
