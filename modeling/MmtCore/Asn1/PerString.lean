import MmtCore.Asn1.PerBitData

/-!
# Strings of PER

Bit strings, octet strings, character strings of seven bits and the wrapper of an open type
(`runtime/perstring.go`).
-/

namespace MmtCore.Asn1

structure BitString where
  bytes : Bytes
  bitLength : Nat
deriving DecidableEq

/-- `make`, of at most `mem` elements. -/
def makeSlice (mem : Nat) (n : Int) : Get Unit := fun p =>
  if n < 0 ∨ (mem : Int) < n then .panic else .ok ((), p)

/-- `int` of an unsigned number. -/
def toInt (n : Nat) : Int := toInt64 n

/-! ## Sizes -/

/-- The size is not that of the root; the length comes without its bounds. -/
def outside (size : Option SizeRange) (length : Nat) : Bool :=
  match size with
  | some s => decide ¬s.Within length
  | none => false

/-- The size that the encoder goes on with, after the bit of an extensible one. -/
def rootSize (sizeExt : Bool) (size : Option SizeRange) (length : Nat) : Option SizeRange :=
  if sizeExt ∧ outside size length then none else size

def putSizeExt (sizeExt : Bool) (size : Option SizeRange) (length : Nat) : Put :=
  if sizeExt then putBits (if outside size length then 1 else 0) 1 else .skip

def getSizeExt (sizeExt : Bool) (size : Option SizeRange) : Get (Option SizeRange) :=
  if sizeExt then do
    let ext ← getBits 1
    pure (if ext = 1 then none else size)
  else pure size

def checkSize (kind : String) (sizeExt : Bool) (size : Option SizeRange) (length : Nat) : Put :=
  match size with
  | some s => if sizeExt = false ∧ ¬s.Within length then .fail (.size kind length s.lb s.ub) else .skip
  | none => .skip

/-! ## Bit strings -/

/-- A bit of the bytes; there are zeros after them. -/
def bitAt (bytes : Bytes) (i : Nat) : Nat :=
  match bytes[i / 8]? with
  | some b => (b.toNat >>> (7 - i % 8)) &&& 1
  | none => 0

def putBitAt (bytes : Bytes) : (n i : Nat) → Put
  | 0, _ => .skip
  | n + 1, i => .and (putBits (bitAt bytes i) 1) (putBitAt bytes n (i + 1))

def putBitString (bs : BitString) (sizeExt : Bool) (size : Option SizeRange) : Put :=
  .and (checkSize "BIT STRING" sizeExt size bs.bitLength) <|
  .and (putSizeExt sizeExt size bs.bitLength) <|
  .and (putLengthDeterminant bs.bitLength (rootSize sizeExt size bs.bitLength)) <|
  .and (if bs.bitLength > 16 then alignToByte else .skip) (putBitAt bs.bytes bs.bitLength 0)

/-- The bits that are left, set in the bytes. -/
def getBitAt (bytes : Bytes) : (n i : Nat) → Get Bytes
  | 0, _ => pure bytes
  | n + 1, i => do
    let b ← getBits 1
    getBitAt
      (if b = 1 then bytes.modify (i / 8) fun x => x ||| (1 <<< UInt8.ofNat (7 - i % 8)) else bytes)
      n (i + 1)

def getBitString (mem : Nat) (sizeExt : Bool) (size : Option SizeRange) : Get BitString := do
  let size ← getSizeExt sizeExt size
  let length ← getLengthDeterminant size
  if length > 16 then alignReadToByte
  makeSlice mem (toInt ((length + 7) / 8))
  let bytes ← getBitAt (List.replicate ((length + 7) / 8) 0) length 0
  pure ⟨bytes, length⟩

/-! ## Octets -/

def putOctets : Bytes → Put
  | [] => .skip
  | b :: l => .and (putBits b.toNat 8) (putOctets l)

/-- `n` characters of so many bits each. -/
def getChars (bits : Nat) : Nat → Get Bytes
  | 0 => pure []
  | n + 1 => do
    let v ← getBits bits
    let rest ← getChars bits n
    pure (UInt8.ofNat v :: rest)

/-- At most two octets of a fixed size are not aligned. -/
def shortFixed (size : Option SizeRange) (length : Nat) : Bool :=
  match size with
  | some s => decide (s.lb = s.ub ∧ length ≤ 2)
  | none => false

def putOctetString (data : Bytes) (sizeExt : Bool) (size : Option SizeRange) : Put :=
  .and (checkSize "OCTET STRING" sizeExt size data.length) <|
  .and (putSizeExt sizeExt size data.length) <|
  .and (putLengthDeterminant data.length (rootSize sizeExt size data.length)) <|
  if data.length = 0 then .skip
  else
    .and (if shortFixed (rootSize sizeExt size data.length) data.length then .skip else alignToByte)
      (putOctets data)

def getOctetString (mem : Nat) (sizeExt : Bool) (size : Option SizeRange) : Get Bytes := do
  let size ← getSizeExt sizeExt size
  let length ← getLengthDeterminant size
  if length = 0 then pure []
  else do
    if shortFixed size length then pure () else alignReadToByte
    makeSlice mem (toInt length)
    getChars 8 length

/-! ## Characters -/

def nextPow2Bits (n : Nat) : Nat :=
  if n ≤ 1 then 1 else if n ≤ 2 then 2 else if n ≤ 4 then 4 else if n ≤ 8 then 8
  else if n ≤ 16 then 16 else 32

/-- The bits that are used for a character; more than 16 in all are aligned. -/
def effectiveBits (aligned : Bool) (bitsPerChar length : Nat) : Nat :=
  if aligned ∧ length * bitsPerChar > 16 then nextPow2Bits bitsPerChar else bitsPerChar

def putChars (bits : Nat) : Bytes → Put
  | [] => .skip
  | c :: l => .and (putBits c.toNat bits) (putChars bits l)

/-- The size of a string is not checked. -/
def putKMString (data : Bytes) (bitsPerChar : Nat) (sizeExt : Bool) (size : Option SizeRange) :
    Put :=
  .and (putSizeExt sizeExt size data.length) <|
  .and (putLengthDeterminant data.length (rootSize sizeExt size data.length)) <|
  if data.length = 0 then .skip
  else
    .and (if data.length * bitsPerChar > 16 then alignToByte else .skip) fun p =>
      putChars (effectiveBits p.aligned bitsPerChar data.length) data p

def getKMString (mem bitsPerChar : Nat) (sizeExt : Bool) (size : Option SizeRange) : Get Bytes := do
  let size ← getSizeExt sizeExt size
  let length ← getLengthDeterminant size
  if length = 0 then pure []
  else do
    if length * bitsPerChar > 16 then alignReadToByte
    makeSlice mem (toInt length)
    fun p => getChars (effectiveBits p.aligned bitsPerChar length) length p

/-! ## Open types -/

def putOpenType (inner : Bytes) : Put :=
  .and (putLength inner.length) <| .and alignToByte (putOctets inner)

def getOpenType (mem : Nat) : Get Bytes := do
  let length ← getLength
  alignReadToByte
  makeSlice mem (toInt length)
  getChars 8 length

end MmtCore.Asn1
