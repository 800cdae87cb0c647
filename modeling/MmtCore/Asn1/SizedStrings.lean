import MmtCore.Asn1.StringTrips

/-!
# Strings with any size constraint

The strings of `runtime/perstring.go` with bounds that are any numbers of 64 bits.  Bit strings and
octet strings are refused or come back; character strings are not checked, and come back where
their characters fit the bits of one and a fixed size is theirs (`PerString.comesBack_iff_carried`).
-/

namespace MmtCore.Asn1

open MmtCore.Lib List UInt64 Yields

/-! ## Sizes -/

/-- The arguments `lb`, `ub` and `ubKnown`. -/
structure SizeBounds where
  lb : UInt64
  ub : UInt64
  known : Bool
deriving DecidableEq

namespace SizeBounds

variable (s : SizeBounds)

def Within (length : UInt64) : Prop := s.lb ≤ length ∧ length ≤ s.ub
  deriving Decidable

/-- A constraint with a lower bound above the upper one has no string. -/
def Ordered : Prop := s.known = true → s.lb ≤ s.ub
  deriving Decidable

/-- The length comes without its bounds. -/
def outside (length : UInt64) : Bool := s.known && !decide (s.Within length)

/-- The bounds after the bit of an extensible size. -/
def root (sizeExt : Bool) (length : UInt64) : SizeBounds :=
  if sizeExt = true ∧ s.outside length = true then { s with known := false } else s

def putExt (sizeExt : Bool) (length : UInt64) : Put :=
  if sizeExt then putBits (if s.outside length then 1 else 0) 1 else .skip

def getExt (sizeExt : Bool) : Get SizeBounds :=
  if sizeExt then do
    let ext ← getBits 1
    pure (if ext = 1 then { s with known := false } else s)
  else pure s

def check (kind : String) (sizeExt : Bool) (length : UInt64) : Put :=
  if s.known = true ∧ sizeExt = false ∧ ¬s.Within length then
    .fail (.size kind length.toNat s.lb.toNat s.ub.toNat)
  else .skip

def putLength (length : UInt64) : Put := putLengthBounds length s.lb s.ub s.known

def getLength : Get Nat := getLengthBounds s.lb s.ub s.known

/-- At most two octets of a fixed size are not aligned. -/
def shortFixed (length : Nat) : Bool := s.known && decide (s.lb = s.ub ∧ length ≤ 2)

end SizeBounds

/-! ## Strings -/

inductive StringKind where
  | bits
  | octets
  | chars (bitsPerChar : Nat)
deriving DecidableEq

/-- A string with what the codec is told about it. -/
inductive PerString where
  | bits (bs : BitString)
  | octets (data : Bytes)
  | chars (data : Bytes) (bitsPerChar : Nat)

namespace PerString

def kind : PerString → StringKind
  | bits _ => .bits
  | octets _ => .octets
  | chars _ bitsPerChar => .chars bitsPerChar

/-- The length that is written. -/
def length : PerString → Nat
  | bits bs => bs.bitLength
  | octets data => data.length
  | chars data _ => data.length

end PerString

/-! What comes after the length. -/

def putBitsAfter (bs : BitString) : Put :=
  .and (if bs.bitLength > 16 then alignToByte else .skip) (putBitAt bs.bytes bs.bitLength 0)

def getBitsAfter (mem length : Nat) : Get BitString := do
  if length > 16 then alignReadToByte
  makeSlice mem (toInt ((length + 7) / 8))
  let bytes ← getBitAt (List.replicate ((length + 7) / 8) 0) length 0
  pure ⟨bytes, length⟩

def putOctetsAfter (s : SizeBounds) (data : Bytes) : Put :=
  if data.length = 0 then .skip
  else .and (if s.shortFixed data.length then .skip else alignToByte) (putOctets data)

def getOctetsAfter (mem : Nat) (s : SizeBounds) (length : Nat) : Get Bytes :=
  if length = 0 then pure []
  else do
    if s.shortFixed length then pure () else alignReadToByte
    makeSlice mem (toInt length)
    getChars 8 length

def putCharsAfter (data : Bytes) (bitsPerChar : Nat) : Put :=
  if data.length = 0 then .skip
  else
    .and (if data.length * bitsPerChar > 16 then alignToByte else .skip) fun p =>
      putChars (effectiveBits p.aligned bitsPerChar data.length) data p

def getCharsAfter (mem bitsPerChar length : Nat) : Get Bytes :=
  if length = 0 then pure []
  else do
    if length * bitsPerChar > 16 then alignReadToByte
    makeSlice mem (toInt length)
    fun p => getChars (effectiveBits p.aligned bitsPerChar length) length p

/-! The functions of the codec. -/

variable (sizeExt : Bool) (s : SizeBounds)

def putSizedBits (bs : BitString) : Put :=
  let length := UInt64.ofNat bs.bitLength
  .and (s.check "BIT STRING" sizeExt length) <|
  .and (s.putExt sizeExt length) <|
  .and ((s.root sizeExt length).putLength length) (putBitsAfter bs)

def getSizedBits (mem : Nat) : Get BitString := do
  let s ← s.getExt sizeExt
  let length ← s.getLength
  getBitsAfter mem length

def putSizedOctets (data : Bytes) : Put :=
  let length := UInt64.ofNat data.length
  .and (s.check "OCTET STRING" sizeExt length) <|
  .and (s.putExt sizeExt length) <|
  .and ((s.root sizeExt length).putLength length) (putOctetsAfter (s.root sizeExt length) data)

def getSizedOctets (mem : Nat) : Get Bytes := do
  let s ← s.getExt sizeExt
  let length ← s.getLength
  getOctetsAfter mem s length

/-- The size of a string is not checked. -/
def putSizedChars (data : Bytes) (bitsPerChar : Nat) : Put :=
  let length := UInt64.ofNat data.length
  .and (s.putExt sizeExt length) <|
  .and ((s.root sizeExt length).putLength length) (putCharsAfter data bitsPerChar)

def getSizedChars (mem bitsPerChar : Nat) : Get Bytes := do
  let s ← s.getExt sizeExt
  let length ← s.getLength
  getCharsAfter mem bitsPerChar length

def PerString.put : PerString → Put
  | bits bs => putSizedBits sizeExt s bs
  | octets data => putSizedOctets sizeExt s data
  | chars data bitsPerChar => putSizedChars sizeExt s data bitsPerChar

def StringKind.get (mem : Nat) : StringKind → Get PerString
  | bits => getSizedBits sizeExt s mem >>= fun bs => pure (.bits bs)
  | octets => getSizedOctets sizeExt s mem >>= fun data => pure (.octets data)
  | chars bitsPerChar =>
    getSizedChars sizeExt s mem bitsPerChar >>= fun data => pure (.chars data bitsPerChar)

/-! ## Sizes of slices -/

namespace SizeBounds

end SizeBounds

/-! Sizes of slices are a case of these: the codec does the same for them. -/

/-! ## Trips of sizes -/

section Sizes

variable {sizeExt : Bool} {s : SizeBounds} {aligned : Bool} {mem : Nat} {n : UInt64} {α : Type}
  {f : Put} {g : Get α} {k : SizeBounds → Get α} {x : α}

namespace SizeBounds

@[simp] theorem root_lb : (s.root sizeExt n).lb = s.lb := by
  unfold root
  split <;> rfl

@[simp] theorem root_ub : (s.root sizeExt n).ub = s.ub := by
  unfold root
  split <;> rfl

theorem known_of_root (h : (s.root sizeExt n).known = true) : s.known = true := by
  unfold root at h
  split at h
  · cases h
  · exact h

/-- A size with its bounds is within them, unless it was not extensible. -/
theorem within_of_root (h : (s.root sizeExt n).known = true)
    (hfixed : sizeExt = false → s.Within n) : s.Within n := by
  grind [outside, root]

end SizeBounds

theorem Trip.ext (h : Trip aligned f (k (s.root sizeExt n)) x) :
    Trip aligned (.and (s.putExt sizeExt n) f) (s.getExt sizeExt >>= k) x := by
  refine .seq ?_ h
  cases sizeExt with
  | false => exact .skip
  | true =>
    unfold SizeBounds.putExt SizeBounds.getExt SizeBounds.root
    refine (Trip.putBits ?_).bind ?_
    · split <;> decide
    · cases s.outside n <;> rfl

theorem Trip.check {kind : String}
    (h : ((s.root sizeExt n).known = true → s.Within n) → Trip aligned f g x) :
    Trip aligned (.and (s.check kind sizeExt n) f) g x := by
  unfold SizeBounds.check
  by_cases hbad : s.known = true ∧ sizeExt = false ∧ ¬s.Within n
  · rw [if_pos hbad]
    intro p p' L hp ha hput
    cases hput
  · rw [if_neg hbad]
    refine .skip_and (h fun hroot => SizeBounds.within_of_root hroot fun hext => ?_)
    by_contra hout
    exact hbad ⟨SizeBounds.known_of_root hroot, hext, hout⟩

/-- A length, and what comes after it. -/
theorem Trip.length {k : Nat → Get α} (hs : s.Ordered)
    (hfixed : (s.root sizeExt n).known = true → s.lb = s.ub → n = s.lb)
    (h : Trip aligned f (k n.toNat) x) :
    Trip aligned (.and ((s.root sizeExt n).putLength n) f)
      ((s.root sizeExt n).getLength >>= k) x := by
  refine .seq ?_ h
  unfold SizeBounds.putLength SizeBounds.getLength
  rw [SizeBounds.root_lb, SizeBounds.root_ub]
  cases hknown : (s.root sizeExt n).known with
  | false => exact trip_length n.toNat
  | true => exact trip_lengthBounds (hs (SizeBounds.known_of_root hknown)) fun _ => hfixed hknown

/-- A length within equal bounds. -/
theorem SizeBounds.eq_of_fixed (h : s.Within n) (heq : s.lb = s.ub) : n = s.lb :=
  UInt64.le_antisymm (heq ▸ h.2) h.1

end Sizes

/-! ## Trips of strings -/

section Strings

variable {sizeExt : Bool} {s : SizeBounds} {aligned : Bool} {mem : Nat}
variable {data : Bytes} {bitsPerChar : Nat} {bs : BitString}

theorem trip_octetsAfter (hmem : mem ≤ 2 ^ 48) (h : data.length ≤ mem) :
    Trip aligned (putOctetsAfter s data) (getOctetsAfter mem s data.length) data := by
  unfold putOctetsAfter getOctetsAfter
  by_cases hzero : data.length = 0
  · rw [if_pos hzero, if_pos hzero, length_eq_zero_iff.1 hzero]
    exact .skip
  rw [if_neg hzero, if_neg hzero]
  have hoctets : Trip aligned (putOctets data)
      (makeSlice mem (toInt data.length) >>= fun _ => getChars 8 data.length) data :=
    .make (by omega) h (trip_octets data)
  by_cases hshort : s.shortFixed data.length = true
  · rw [if_pos hshort, if_pos hshort]
    exact hoctets
  · rw [if_neg hshort, if_neg hshort]
    exact .seq .align hoctets

theorem trip_charsAfter (hmem : mem ≤ 2 ^ 48) (h : data.length ≤ mem)
    (hchars : ∀ c ∈ data, c.toNat < 2 ^ effectiveBits aligned bitsPerChar data.length) :
    Trip aligned (putCharsAfter data bitsPerChar) (getCharsAfter mem bitsPerChar data.length)
      data := by
  unfold putCharsAfter getCharsAfter
  by_cases hzero : data.length = 0
  · rw [if_pos hzero, if_pos hzero, length_eq_zero_iff.1 hzero]
    exact .skip
  rw [if_neg hzero, if_neg hzero]
  have hslice := Trip.make (by omega) h (Trip.ofAligned
    (f := fun a => putChars (effectiveBits a bitsPerChar data.length) data)
    (g := fun a => getChars (effectiveBits a bitsPerChar data.length) data.length)
    (trip_chars hchars))
  by_cases hlong : data.length * bitsPerChar > 16
  · rw [if_pos hlong, if_pos hlong]
    exact .seq .align hslice
  · rw [if_neg hlong, if_neg hlong]
    exact hslice

/-- The bits of a string, in the bytes that they need. -/
def BitString.packed (bs : BitString) : BitString :=
  ⟨copyBits bs.bytes (List.replicate ((bs.bitLength + 7) / 8) 0) bs.bitLength 0, bs.bitLength⟩

theorem BitString.bit_packed (bs : BitString) {i : Nat} (h : i < bs.bitLength) :
    bit bs.packed.bytes i = bit bs.bytes i := by
  unfold packed
  rw [bit_copyBits (by rw [List.length_replicate]; omega), bit_replicate_zero, Bool.false_or,
    decide_eq_true ⟨Nat.zero_le i, by omega⟩, Bool.true_and]

theorem trip_bitsAfter (hmem : mem ≤ 2 ^ 48) (h : (bs.bitLength + 7) / 8 ≤ mem) :
    Trip aligned (putBitsAfter bs) (getBitsAfter mem bs.bitLength) bs.packed := by
  unfold putBitsAfter getBitsAfter
  have hbits : Trip aligned (putBitAt bs.bytes bs.bitLength 0)
      (getBitAt (replicate ((bs.bitLength + 7) / 8) 0) bs.bitLength 0 >>= fun bytes =>
        pure ⟨bytes, bs.bitLength⟩) bs.packed :=
    (trip_bits bs.bytes _ bs.bitLength 0).bind rfl
  have hslice := Trip.make (by omega) h hbits
  by_cases hlong : bs.bitLength > 16
  · rw [if_pos hlong, if_pos hlong]
    exact .seq .align hslice
  · rw [if_neg hlong, if_neg hlong]
    exact hslice

section

variable (hs : s.Ordered) (hmem : mem ≤ 2 ^ 48)
include hmem hs

theorem trip_sizedOctets (h : data.length ≤ mem) :
    Trip aligned (putSizedOctets sizeExt s data) (getSizedOctets sizeExt s mem) data := by
  have hn : (ofNat data.length).toNat = data.length := toNat_ofNat_of_size (by omega)
  refine .check fun hin => .ext (.length hs
    (fun hroot heq => SizeBounds.eq_of_fixed (hin hroot) heq) ?_)
  rw [hn]
  exact trip_octetsAfter hmem h

theorem trip_sizedChars (h : data.length ≤ mem)
    (hchars : ∀ c ∈ data, c.toNat < 2 ^ effectiveBits aligned bitsPerChar data.length)
    (hfixed : (s.root sizeExt (UInt64.ofNat data.length)).known = true → s.lb = s.ub →
      UInt64.ofNat data.length = s.lb) :
    Trip aligned (putSizedChars sizeExt s data bitsPerChar)
      (getSizedChars sizeExt s mem bitsPerChar) data := by
  have hn : (ofNat data.length).toNat = data.length := toNat_ofNat_of_size (by omega)
  refine .ext (.length hs hfixed ?_)
  rw [hn]
  exact trip_charsAfter hmem h hchars

theorem trip_sizedBits (h : (bs.bitLength + 7) / 8 ≤ mem) :
    Trip aligned (putSizedBits sizeExt s bs) (getSizedBits sizeExt s mem) bs.packed := by
  have hn : (ofNat bs.bitLength).toNat = bs.bitLength := toNat_ofNat_of_size (by omega)
  refine .check fun hin => .ext (.length hs
    (fun hroot heq => SizeBounds.eq_of_fixed (hin hroot) heq) ?_)
  rw [hn]
  exact trip_bitsAfter hmem h

end

end Strings

/-! ## What is read -/

section Readers

variable {aligned : Bool} {s : SizeBounds} {sizeExt : Bool} {mem : Nat}

theorem yields_any_constrained (lb ub : Int) :
    Yields aligned (fun _ => True) (getConstrainedWhole lb ub) := by
  have hvalue (n : Nat) : Yields aligned (fun _ => True)
      (getBits n >>= fun v => (pure (toInt64 (lb + v)) : Get Int)) :=
    (bits n).bind fun v _ => .pure trivial
  unfold getConstrainedWhole
  dsimp only
  split
  · exact .pure trivial
  · split
    · exact hvalue _
    · split
      · exact align.bind fun _ _ => hvalue 8
      · split
        · exact align.bind fun _ _ => hvalue 16
        · exact (bits _).bind fun k _ => align.bind fun _ _ => hvalue _

theorem yields_length : Yields aligned (· < 16384) getLength := by
  refine align.bind fun _ _ => (bits 1).bind fun first _ => ?_
  split
  · exact (bits 7).mono fun v hv => by omega
  · refine (bits 1).bind fun second _ => ?_
    split
    · exact (bits 14).mono fun v hv => by omega
    · exact .fail

/-- The length of a fixed size is that size. -/
theorem yields_fixed : Yields aligned (fun n => s.known = true → s.lb = s.ub → n = s.lb.toNat)
    s.getLength := by
  unfold SizeBounds.getLength getLengthBounds
  by_cases hone : s.known = true ∧ s.ub - s.lb + 1 = 1
  · rw [if_pos hone]
    exact .pure fun _ _ => rfl
  rw [if_neg hone]
  have hnot (hknown : s.known = true) (heq : s.lb = s.ub) : False := by
    refine hone ⟨hknown, ?_⟩
    rw [heq, UInt64.sub_self]
    rfl
  split
  · exact (yields_any_constrained _ _).bind fun v _ =>
      .pure fun hknown heq => (hnot hknown heq).elim
  · exact yields_length.mono fun n _ hknown heq => (hnot hknown heq).elim

theorem yields_ext : Yields aligned (fun s' => sizeExt = false → s' = s) (s.getExt sizeExt) := by
  cases sizeExt with
  | false => exact .pure fun _ => rfl
  | true => exact (Yields.bits 1).bind fun ext _ => .pure fun h => Bool.noConfusion h

theorem yields_make (n : Int) : Yields aligned (fun _ => 0 ≤ n ∧ n ≤ mem) (makeSlice mem n) := by
  intro r x r' hr ha hrun
  grind [makeSlice]

theorem yields_chars (bits n : Nat) :
    Yields aligned (fun l => l.length = n ∧ ∀ c ∈ l, c.toNat < 2 ^ bits) (getChars bits n) := by
  induction n with
  | zero => exact .pure ⟨rfl, fun c hc => absurd hc not_mem_nil⟩
  | succ n ih =>
    refine (Yields.bits bits).bind fun v hv => ih.bind fun l hl => .pure ⟨?_, ?_⟩
    · rw [List.length_cons, hl.1]
    · grind [UInt8.toNat_ofNat']

theorem yields_charsAfter (bitsPerChar n : Nat) :
    Yields aligned
      (fun data => data.length = n ∧
        ∀ c ∈ data, c.toNat < 2 ^ effectiveBits aligned bitsPerChar data.length)
      (getCharsAfter mem bitsPerChar n) := by
  unfold getCharsAfter
  by_cases hzero : n = 0
  · rw [if_pos hzero]
    exact .pure ⟨hzero.symm, fun c hc => absurd hc not_mem_nil⟩
  rw [if_neg hzero]
  have hchars : Yields aligned
      (fun data => data.length = n ∧
        ∀ c ∈ data, c.toNat < 2 ^ effectiveBits aligned bitsPerChar data.length)
      (makeSlice mem (toInt n) >>= fun _ p =>
        getChars (effectiveBits p.aligned bitsPerChar n) n p) := by
    refine (yields_make _).bind fun _ _ => (ofAligned
      (g := fun a => getChars (effectiveBits a bitsPerChar n) n) (yields_chars _ n)).mono ?_
    rintro data ⟨hlen, hdata⟩
    refine ⟨hlen, ?_⟩
    rwa [hlen]
  by_cases hlong : n * bitsPerChar > 16
  · rw [if_pos hlong]
    exact align.bind fun _ _ => hchars
  · rw [if_neg hlong]
    exact hchars

/-- The characters of a string fit their bits, and a fixed size is that of the string. -/
theorem yields_sizedChars (bitsPerChar : Nat) :
    Yields aligned
      (fun data => (∀ c ∈ data, c.toNat < 2 ^ effectiveBits aligned bitsPerChar data.length) ∧
        (sizeExt = false → s.known = true → s.lb = s.ub → data.length = s.lb.toNat))
      (getSizedChars sizeExt s mem bitsPerChar) := by
  refine yields_ext.bind fun s' hs' => yields_fixed.bind fun n hn =>
    (yields_charsAfter bitsPerChar n).mono ?_
  simp_all

end Readers

/-! ## Strings that are refused or come back -/

/-- The length has a form. -/
def SizeBounds.Takes (s : SizeBounds) (length : Nat) : Prop :=
  if s.known then
    s.lb = s.ub ∨
      s.ub.toNat - s.lb.toNat < 65536 ∧ s.ub.toNat < 2 ^ 63 ∧ s.lb.toNat ≤ length ∧
        length ≤ s.ub.toNat ∨
      65536 ≤ s.ub.toNat - s.lb.toNat ∧ s.ub.toNat - s.lb.toNat ≠ 2 ^ 64 - 1 ∧ length < 16384
  else length < 16384

namespace PerString

/-- The same string; the bits behind the last one are not part of it. -/
def Same : PerString → PerString → Prop
  | bits a, bits b => a.bitLength = b.bitLength ∧ ∀ i < a.bitLength, bit a.bytes i = bit b.bytes i
  | octets a, octets b => a = b
  | chars a n, chars b m => a = b ∧ n = m
  | _, _ => False

/-- The string is in the memory, and a character has no more bits than characters may have. -/
def InMemory (mem : Nat) : PerString → Prop
  | bits bs => (bs.bitLength + 7) / 8 ≤ mem
  | octets data => data.length ≤ mem
  | chars data bitsPerChar => data.length ≤ mem ∧ bitsPerChar ≤ 32

/-- Whatever the writer writes, the reader finds the string there and stops where it did. -/
def ComesBack (mem : Nat) (aligned sizeExt : Bool) (s : SizeBounds) (x : PerString) : Prop :=
  ∀ p p' L, Holds p L → p.aligned = aligned → x.put sizeExt s p = .ok p' →
    ∃ M, Holds p' (L ++ M) ∧
      ∀ r rest, Whole r → r.aligned = aligned → r.pos = p.numBits → content r = M ++ rest →
        ∃ y, x.kind.get sizeExt s mem r = .ok (y, { r with pos := p'.numBits }) ∧ y.Same x

/-- Characters that fit their bits and have a fixed size, unless their number has no form. -/
def Carried (aligned sizeExt : Bool) (s : SizeBounds) : PerString → Prop
  | bits _ => True
  | octets _ => True
  | chars data bitsPerChar =>
    (s.root sizeExt (UInt64.ofNat data.length)).Takes data.length →
      (∀ c ∈ data, c.toNat < 2 ^ effectiveBits aligned bitsPerChar data.length) ∧
        (sizeExt = false → s.known = true → s.lb = s.ub → data.length = s.lb.toNat)

end PerString

section ComesBack

variable {aligned : Bool} {s : SizeBounds} {sizeExt : Bool} {mem : Nat}

theorem Trip.comesBack {x y : PerString}
    (h : Trip aligned (x.put sizeExt s) (x.kind.get sizeExt s mem) y) (hsame : y.Same x) :
    x.ComesBack mem aligned sizeExt s := by
  intro p p' L hp ha hput
  obtain ⟨-, M, hp', hread⟩ := h p p' L hp ha hput
  refine ⟨M, hp', fun r rest hr hra hpos hcontent => ⟨y, ?_, hsame⟩⟩
  have hstop : r.pos + M.length = p'.numBits := by
    rw [hpos, hp.numBits, hp'.numBits, length_append]
  rw [hread r rest hr hra (by rw [hpos, hp.numBits]) hcontent, hstop]

theorem PerString.bits_comesBack (hs : s.Ordered) (hmem : mem ≤ 2 ^ 48) {bs : BitString}
    (h : (bs.bitLength + 7) / 8 ≤ mem) : (bits bs).ComesBack mem aligned sizeExt s := by
  have htrip : Trip aligned ((bits bs).put sizeExt s) (StringKind.bits.get sizeExt s mem)
      (bits bs.packed) := (trip_sizedBits hs hmem h).bind rfl
  exact htrip.comesBack ⟨rfl, fun _ hi => bs.bit_packed hi⟩

variable {data : Bytes} {n : UInt64} {bitsPerChar : Nat}

theorem PerString.octets_comesBack (hs : s.Ordered) (hmem : mem ≤ 2 ^ 48) (h : data.length ≤ mem) :
    (octets data).ComesBack mem aligned sizeExt s := by
  have htrip : Trip aligned ((octets data).put sizeExt s) (StringKind.octets.get sizeExt s mem)
      (octets data) := (trip_sizedOctets hs hmem h).bind rfl
  exact htrip.comesBack rfl

theorem SizeBounds.Ordered.root (hs : s.Ordered) (n : UInt64) : (s.root sizeExt n).Ordered := by
  intro hknown
  rw [SizeBounds.root_lb, SizeBounds.root_ub]
  exact hs (SizeBounds.known_of_root hknown)

theorem total_lengthBounds (hs : s.Ordered) (h : s.Takes n.toNat) : Put.Total (s.putLength n) := by
  unfold SizeBounds.Takes at h
  unfold SizeBounds.putLength putLengthBounds
  cases hknown : s.known with
  | false =>
    rw [hknown] at h
    exact .length h
  | true =>
    rw [hknown, if_pos rfl] at h
    have hbounds := hs hknown
    have hcount := toNat_range hbounds
    have hlt := s.ub.toNat_lt
    by_cases hone : true = true ∧ s.ub - s.lb + 1 = 1
    · rw [if_pos hone]
      exact .skip
    rw [if_neg hone]
    have hne : s.lb ≠ s.ub := by
      grind
    have hword : s.ub - s.lb + 1 ≤ 65536 ↔ (s.ub - s.lb + 1).toNat ≤ 65536 :=
      le_iff_toNat_le
    rcases h with heq | ⟨hnear, hub, hge, hle⟩ | ⟨hfar, hfull, hshort⟩
    · exact absurd heq hne
    · have hsmall : true = true ∧ s.ub - s.lb + 1 ≤ 65536 :=
        ⟨rfl, hword.2 (by rw [hcount]; omega)⟩
      rw [if_pos hsmall]
      have hge' : s.lb ≤ n := le_iff_toNat_le.2 hge
      have hle' : n ≤ s.ub := le_iff_toNat_le.2 hle
      exact .constrained ⟨toInt64_mono UInt64.le_rfl hge' hle' (.inr hub),
        toInt64_mono hge' hle' UInt64.le_rfl (.inr hub)⟩
    · have hbig : ¬(true = true ∧ s.ub - s.lb + 1 ≤ 65536) := by
        grind
      rw [if_neg hbig]
      exact .length hshort

/-- A length between bounds of type `int64` is between the bounds. -/
theorem within_of_toInt64 {sizeLB sizeUB : UInt64} {n : Nat}
    (hbounds : sizeLB.toNat ≤ sizeUB.toNat) (hge : toInt64 sizeLB.toNat ≤ n)
    (hle : (n : Int) ≤ toInt64 sizeUB.toNat) :
    sizeUB.toNat < 2 ^ 63 ∧ sizeLB.toNat ≤ n ∧ n ≤ sizeUB.toNat := by
  have hlt := sizeUB.toNat_lt
  grind [toInt64_toNat]

theorem takes_of_putLength (hs : s.Ordered) (hn : n.toNat < 2 ^ 63) {p p' : PerBitData}
    (h : s.putLength n p = .ok p') : s.Takes n.toNat := by
  unfold SizeBounds.putLength putLengthBounds at h
  unfold SizeBounds.Takes
  cases hknown : s.known with
  | false =>
    rw [hknown] at h
    have hle := putLength_le h
    exact Nat.lt_succ_of_le hle
  | true =>
    rw [hknown] at h
    rw [if_pos rfl]
    have hbounds := hs hknown
    have hcount := toNat_range hbounds
    have horder := le_iff_toNat_le.1 hbounds
    have hword : s.ub - s.lb + 1 ≤ 65536 ↔ (s.ub - s.lb + 1).toNat ≤ 65536 :=
      le_iff_toNat_le
    by_cases hone : true = true ∧ s.ub - s.lb + 1 = 1
    · grind
    rw [if_neg hone] at h
    by_cases hsmall : true = true ∧ s.ub - s.lb + 1 ≤ 65536
    · rw [if_pos hsmall] at h
      have hvalue : toInt64 n.toNat = n.toNat := by
        rw [toInt64_toNat, if_pos hn]
      unfold putConstrainedWhole at h
      split at h
      · cases h
      · case isFalse hin =>
        obtain ⟨hlow, hwithin⟩ := within_of_toInt64 (n := n.toNat) horder (by omega) (by omega)
        grind
    · rw [if_neg hsmall] at h
      have hle := putLength_le h
      grind

/-- What two writers write one after the other, the first of them writes. -/
theorem ok_of_and {f g : Put} {p p' : PerBitData} (h : Put.and f g p = .ok p') :
    ∃ q, f p = .ok q ∧ g q = .ok p' := by
  unfold Put.and at h
  cases hf : f p with
  | error err =>
    rw [hf] at h
    cases h
  | ok q =>
    rw [hf] at h
    exact ⟨q, rfl, h⟩

theorem Put.Total.chars {bits : Nat} (h : bits ≤ 64) (l : Bytes) : Put.Total (putChars bits l) := by
  induction l with
  | nil => exact .skip
  | cons c l ih => exact .and (.putBits h) ih

theorem effectiveBits_le (a : Bool) (n : Nat) (h : bitsPerChar ≤ 32) :
    effectiveBits a bitsPerChar n ≤ 64 := by
  unfold effectiveBits nextPow2Bits
  repeat' split
  all_goals omega

theorem total_sizedChars (hs : s.Ordered) (hn : data.length < 2 ^ 63) (hbits : bitsPerChar ≤ 32)
    (h : (s.root sizeExt (UInt64.ofNat data.length)).Takes data.length) :
    Put.Total (putSizedChars sizeExt s data bitsPerChar) := by
  have hcast := toNat_ofNat_of_size hn
  have hchars : Put.Total fun p =>
      putChars (effectiveBits p.aligned bitsPerChar data.length) data p :=
    fun p => Put.Total.chars (effectiveBits_le p.aligned data.length hbits) data p
  refine .and ?_ (.and (total_lengthBounds (hs.root _) (by rw [hcast]; exact h)) ?_)
  · unfold SizeBounds.putExt
    split
    · exact .putBits (by decide)
    · exact .skip
  · unfold putCharsAfter
    split
    · exact .skip
    · refine .and ?_ hchars
      split
      · exact .align
      · exact .skip

theorem PerString.chars_comesBack_iff (hs : s.Ordered) (hmem : mem ≤ 2 ^ 48) (h : data.length ≤ mem)
    (hbits : bitsPerChar ≤ 32) :
    (chars data bitsPerChar).ComesBack mem aligned sizeExt s ↔
      (chars data bitsPerChar).Carried aligned sizeExt s := by
  have hcast : (ofNat data.length).toNat = data.length := toNat_ofNat_of_size (by omega)
  constructor
  · intro hback htakes
    obtain ⟨p', hput⟩ := total_sizedChars hs (by omega) hbits htakes (newWriter aligned)
    obtain ⟨M, hp', hread⟩ := hback _ p' [] (holds_newWriter aligned) rfl hput
    obtain ⟨m, hbuffer⟩ := hp'.buffer
    obtain ⟨y, hget, hsame⟩ := hread (newReader p'.buffer aligned) _ (whole_newReader _ _) rfl rfl
      ((content_newReader _ _).trans hbuffer)
    obtain ⟨data', q, hdata, hy⟩ := bind_eq_ok hget
    cases hy
    obtain ⟨heq, -⟩ : data' = data ∧ _ := hsame
    have hyields := (yields_sizedChars bitsPerChar _ data' _ (whole_newReader _ _) rfl hdata).1
    rwa [heq] at hyields
  · intro hcarried p p' L hp ha hput
    have htakes : (s.root sizeExt (ofNat data.length)).Takes data.length := by
      obtain ⟨p₁, -, hrest⟩ := ok_of_and hput
      obtain ⟨p₂, hlength, -⟩ := ok_of_and hrest
      have htakes := takes_of_putLength (hs.root _) (by omega) hlength
      rwa [hcast] at htakes
    obtain ⟨hchars, hfixed⟩ := hcarried htakes
    have htrip : Trip aligned ((chars data bitsPerChar).put sizeExt s)
        ((StringKind.chars bitsPerChar).get sizeExt s mem) (chars data bitsPerChar) := by
      refine (trip_sizedChars hs hmem h hchars fun hroot heq => ?_).bind rfl
      cases hext : sizeExt with
      | false =>
        refine UInt64.toNat_inj.1 (hcast.trans ?_)
        exact hfixed hext (SizeBounds.known_of_root hroot) heq
      | true =>
        refine SizeBounds.eq_of_fixed (SizeBounds.within_of_root hroot fun hfalse => ?_) heq
        rw [hext] at hfalse
        cases hfalse
    exact htrip.comesBack (y := chars data bitsPerChar) ⟨rfl, rfl⟩ p p' L hp ha hput

/-- Bit strings and octet strings are refused or come back.  Character strings do where their
characters fit the bits that are written for them and a size that is fixed is theirs. -/
theorem PerString.comesBack_iff_carried (x : PerString) (hs : s.Ordered) (hmem : mem ≤ 2 ^ 48)
    (h : x.InMemory mem) : x.ComesBack mem aligned sizeExt s ↔ x.Carried aligned sizeExt s := by
  cases x with
  | bits bs => exact iff_true_intro (bits_comesBack hs hmem h)
  | octets data => exact iff_true_intro (octets_comesBack hs hmem h)
  | chars data bitsPerChar => exact chars_comesBack_iff hs hmem h.1 h.2

end ComesBack

theorem PerString.comesBack_iff_carried_pair :
    (chars [65, 66] 7).ComesBack 1024 true false ⟨2, 2, true⟩ ↔
      (chars [65, 66] 7).Carried true false ⟨2, 2, true⟩ :=
  comesBack_iff_carried (chars [65, 66] 7) (by decide) (by decide) ⟨by decide, by decide⟩

/-- A character of eight bits is written in seven. -/
theorem PerString.wide_char_lost :
    ¬∀ (mem : Nat) (aligned sizeExt : Bool) (s : SizeBounds) (x : PerString), s.Ordered →
      mem ≤ 2 ^ 48 → x.InMemory mem → x.ComesBack mem aligned sizeExt s := by
  intro hall
  have hback := hall 1024 true false ⟨0, 0, false⟩ (chars [200] 7) (by decide) (by decide)
    ⟨by decide, by decide⟩
  have hcarried := (chars_comesBack_iff (by decide) (by decide) (by decide) (by decide)).1 hback
  have hfits := (hcarried (show 1 < 16384 by decide)).1 200 mem_cons_self
  exact absurd hfits (by decide)

end MmtCore.Asn1
