import Mathlib.Algebra.Group.Nat.Defs
import Mathlib.Data.List.Basic

/-!
# Bits of PER

The buffer of the codec (`runtime/perbitdata.go`), which is written and read bit by bit, with and
without alignment, and the numbers and lengths that are put in it.
-/

namespace MmtCore.Asn1

abbrev Bytes := List UInt8

/-! ## Outcomes -/

inductive PerErr where
  | tooManyBits (op : String) (numBits : Nat)
  | outOfData (op : String)
  | value (value lb ub : Int)
  | size (kind : String) (length lb ub : Nat)
  | fragmentation (length : Nat)
  | fragmented
  | noAlternative
  | presentOutOfRange (present : Int)
  | noChooser
  | noAlternativeForID (id : Int)
  | field (name : String) (err : PerErr)
  | index (i : Nat) (err : PerErr)
deriving DecidableEq

/-- What a call of the decoder comes to. -/
inductive Outcome (α : Type) where
  | ok (x : α)
  | error (err : PerErr)
  | panic
deriving DecidableEq

namespace Outcome

def bind {α β : Type} : Outcome α → (α → Outcome β) → Outcome β
  | ok x, f => f x
  | error err, _ => error err
  | panic, _ => panic

instance : Monad Outcome where
  pure := ok
  bind := bind

end Outcome

/-! ## The buffer -/

structure PerBitData where
  buffer : Bytes
  /-- The bits that are used by a writer, all of them for a reader. -/
  numBits : Nat
  pos : Nat
  aligned : Bool
deriving DecidableEq

abbrev Put := PerBitData → Except PerErr PerBitData

abbrev Get (α : Type) := StateT PerBitData Outcome α

def newWriter (aligned : Bool) : PerBitData := ⟨[], 0, 0, aligned⟩

def newReader (buf : Bytes) (aligned : Bool) : PerBitData := ⟨buf, buf.length * 8, 0, aligned⟩

def Put.skip : Put := .ok

/-- One after the other. -/
def Put.and (f g : Put) : Put := fun p => (f p).bind g

def Put.fail (err : PerErr) : Put := fun _ => .error err

def fail {α : Type} (err : PerErr) : Get α := fun _ => .error err

def panic {α : Type} : Get α := fun _ => .panic

/-- The loop of `PutBits`; each round fills what is free of a byte, so `fuel` rounds are enough for
as many bits. -/
def putChunks : (fuel value remaining : Nat) → PerBitData → PerBitData
  | 0, _, _, p => p
  | fuel + 1, value, remaining, p =>
    if remaining = 0 then p
    else
      let byteOff := p.numBits / 8
      let bitOff := p.numBits % 8
      let buffer := if p.buffer.length ≤ byteOff then p.buffer ++ [0] else p.buffer
      let free := 8 - bitOff
      let take := min remaining free
      let shift := remaining - take
      let chunk := ((value >>> shift) &&& (2 ^ take - 1)) <<< (free - take)
      putChunks fuel value (remaining - take)
        { p with
          buffer := buffer.modify byteOff fun b => b ||| UInt8.ofNat chunk
          numBits := p.numBits + take }

def putBits (value numBits : Nat) : Put := fun p =>
  if numBits = 0 then .ok p
  else if numBits > 64 then .error (.tooManyBits "PutBits" numBits)
  else .ok (putChunks numBits value numBits p)

/-- The loop of `GetBits`. -/
def getChunks : (fuel out remaining : Nat) → Get Nat
  | 0, out, _ => pure out
  | fuel + 1, out, remaining => fun p =>
    if remaining = 0 then .ok (out, p)
    else
      let byteOff := p.pos / 8
      let bitOff := p.pos % 8
      let free := 8 - bitOff
      let take := min remaining free
      match p.buffer[byteOff]? with
      | none => .panic
      | some b =>
        let b := (b.toNat >>> (free - take)) &&& (2 ^ take - 1)
        getChunks fuel ((out <<< take) ||| b) (remaining - take) { p with pos := p.pos + take }

def getBits (numBits : Nat) : Get Nat := fun p =>
  if numBits = 0 then .ok (0, p)
  else if numBits > 64 then .error (.tooManyBits "GetBits" numBits)
  else if p.pos + numBits > p.numBits then .error (.outOfData "GetBits")
  else getChunks numBits 0 numBits p

def alignToByte : Put := fun p =>
  if p.aligned = false ∨ p.numBits % 8 = 0 then .ok p else putBits 0 (8 - p.numBits % 8) p

def alignReadToByte : Get Unit := fun p =>
  if p.aligned = false ∨ p.pos % 8 = 0 then .ok ((), p)
  else
    let p := { p with pos := p.pos + (8 - p.pos % 8) }
    if p.pos > p.numBits then .error (.outOfData "AlignReadToByte") else .ok ((), p)

/-! ## Constrained whole numbers -/

/-- `bits.Len64`. -/
def len64 (v : Nat) : Nat := if v = 0 then 0 else v.log2 + 1

def bitsNeeded (rangeVal : Nat) : Nat := if rangeVal ≤ 1 then 0 else len64 (rangeVal - 1)

def minOctets (v : Nat) : Nat := if v = 0 then 1 else (len64 v + 7) / 8

def maxOctets (rng : Nat) : Nat := (len64 (rng - 1) + 7) / 8

/-- Conversion to `int64`. -/
def toInt64 (x : Int) : Int := x.bmod (2 ^ 64 : Nat)

/-- Conversion to `uint64`. -/
def toUint64 (x : Int) : Nat := (x.emod ((2 ^ 64 : Nat) : Int)).toNat

/-- How many values there are; none where all of 64 bits are. -/
def rangeOf (lb ub : Int) : Nat := (toUint64 (ub - lb) + 1) % 2 ^ 64

def putConstrainedWhole (value lb ub : Int) : Put :=
  if value < lb ∨ ub < value then .fail (.value value lb ub)
  else
    let rng := rangeOf lb ub
    let offset := toUint64 (value - lb)
    if rng = 1 then .skip
    else if rng ≤ 255 then putBits offset (bitsNeeded rng)
    else if rng = 256 then .and alignToByte (putBits offset 8)
    else if rng ≤ 65536 then .and alignToByte (putBits offset 16)
    else
      let octets := minOctets offset
      .and (putBits (octets - 1) (bitsNeeded (maxOctets rng)))
        (.and alignToByte (putBits offset (octets * 8)))

def getConstrainedWhole (lb ub : Int) : Get Int :=
  let rng := rangeOf lb ub
  if rng = 1 then pure lb
  else if rng ≤ 255 then do
    let v ← getBits (bitsNeeded rng)
    pure (toInt64 (lb + v))
  else if rng = 256 then do
    alignReadToByte
    let v ← getBits 8
    pure (toInt64 (lb + v))
  else if rng ≤ 65536 then do
    alignReadToByte
    let v ← getBits 16
    pure (toInt64 (lb + v))
  else do
    let k ← getBits (bitsNeeded (maxOctets rng))
    alignReadToByte
    let v ← getBits ((k + 1) * 8)
    pure (toInt64 (lb + v))

/-! ## Lengths -/

/-- A size constraint; no slice is longer than its upper bound may be. -/
structure SizeRange where
  lb : Nat
  ub : Nat
  le : lb ≤ ub
  small : ub < 2 ^ 48
deriving DecidableEq

namespace SizeRange

variable (s : SizeRange)

def rng : Nat := s.ub - s.lb + 1

def Within (length : Nat) : Prop := s.lb ≤ length ∧ length ≤ s.ub
  deriving Decidable

end SizeRange

/-- The form without bounds. -/
def putLength (length : Nat) : Put :=
  .and alignToByte <|
    if length < 128 then .and (putBits 0 1) (putBits length 7)
    else if length < 16384 then .and (putBits 2 2) (putBits length 14)
    else .fail (.fragmentation length)

def putLengthDeterminant (length : Nat) : Option SizeRange → Put
  | some s =>
    if s.rng = 1 then .skip
    else if s.rng ≤ 65536 then putConstrainedWhole length s.lb s.ub
    else putLength length
  | none => putLength length

def getLength : Get Nat := do
  alignReadToByte
  let first ← getBits 1
  if first = 0 then getBits 7
  else do
    let second ← getBits 1
    if second = 0 then getBits 14 else fail .fragmented

def getLengthDeterminant : Option SizeRange → Get Nat
  | some s =>
    if s.rng = 1 then pure s.lb
    else if s.rng ≤ 65536 then do
      let v ← getConstrainedWhole s.lb s.ub
      pure (toUint64 v)
    else getLength
  | none => getLength

/-- `putLengthDeterminant` with bounds that may be any numbers of 64 bits. -/
def putLengthBounds (length sizeLB sizeUB : UInt64) (hasBounds : Bool) : Put :=
  let rng := sizeUB - sizeLB + 1
  if hasBounds = true ∧ rng = 1 then .skip
  else if hasBounds = true ∧ rng ≤ 65536 then
    putConstrainedWhole (toInt64 length.toNat) (toInt64 sizeLB.toNat) (toInt64 sizeUB.toNat)
  else putLength length.toNat

def getLengthBounds (sizeLB sizeUB : UInt64) (hasBounds : Bool) : Get Nat :=
  let rng := sizeUB - sizeLB + 1
  if hasBounds = true ∧ rng = 1 then pure sizeLB.toNat
  else if hasBounds = true ∧ rng ≤ 65536 then do
    let v ← getConstrainedWhole (toInt64 sizeLB.toNat) (toInt64 sizeUB.toNat)
    pure (toUint64 v)
  else getLength

/-! ## Other whole numbers -/

def putNormallySmallNonNegative (v : Nat) : Put :=
  if v < 64 then .and (putBits 0 1) (putBits v 6)
  else
    .and (putBits 1 1) <| .and (putLength (minOctets v)) <|
      .and alignToByte (putBits v (minOctets v * 8))

def getNormallySmallNonNegative : Get Nat := do
  let bit ← getBits 1
  if bit = 0 then getBits 6
  else do
    let length ← getLength
    alignReadToByte
    getBits (length * 8)

def putSemiConstrainedWhole (value lb : Int) : Put :=
  let off := toUint64 (value - lb)
  .and (putLength (minOctets off)) <| .and alignToByte (putBits off (minOctets off * 8))

def getSemiConstrainedWhole (lb : Int) : Get Int := do
  let length ← getLength
  alignReadToByte
  let v ← getBits (length * 8)
  pure (toInt64 (lb + v))

def signedMinOctets (v : Int) : Nat :=
  let b := len64 (if 0 ≤ v then v.toNat else (-v - 1).toNat) + 1
  if b ≤ 8 then 1 else (b + 7) / 8

def putUnconstrainedWhole (value : Int) : Put :=
  let octets := signedMinOctets value
  .and (putLength octets) <|
    .and alignToByte (putBits (toUint64 value % 2 ^ (octets * 8)) (octets * 8))

/-- A number of `n` bits with its sign. -/
def signExtend (v n : Nat) : Int :=
  toInt64 (if 0 < n ∧ v.testBit (n - 1) then v ||| (2 ^ 64 - 2 ^ n) else v : Nat)

def getUnconstrainedWhole : Get Int := do
  let length ← getLength
  alignReadToByte
  let v ← getBits (length * 8)
  pure (signExtend v (length * 8))

end MmtCore.Asn1
