import Mathlib.Algebra.Group.Nat.Defs
import MmtCore.Lib.Reader

/-!
# NAS information elements

The types of the information elements as the code generator knows them (`codegen/ie.go`), with the
hand-written ones of the runtime (`runtime/types.go`): what a value is, the bytes it is encoded to,
and what bytes decode to.
-/

namespace MmtCore.Nas

open MmtCore.Lib

abbrev Bytes := List UInt8

inductive NasErr where
  | bufferTooShort
  | invalidLength
  | unsupportedIdentity (type : UInt8)
deriving DecidableEq

/-! ## Digits -/

/-- `%d` of a nibble. -/
def nibbleText (d : UInt8) : Bytes := if d < 10 then [48 + d] else [49, 48 + (d - 10)]

structure PlmnId where
  mcc : Bytes
  mnc : Bytes
deriving DecidableEq

/-- Digits that are not there are 0. -/
def digitAt (s : Bytes) (i : Nat) : UInt8 := if i < s.length then s.getD i 0 - 48 else 0

/-- The digits of the MNC; the third of a short one is the filler. -/
def mncDigits (mnc : Bytes) : UInt8 × UInt8 × UInt8 :=
  match mnc with
  | [a, b] => (a - 48, b - 48, 0x0F)
  | [a, b, c] => (a - 48, b - 48, c - 48)
  | _ => (0, 0, 0)

namespace PlmnId

def encodeBCD (p : PlmnId) : Bytes :=
  let n := mncDigits p.mnc
  [(digitAt p.mcc 1 <<< 4) ||| (digitAt p.mcc 0 &&& 0x0F),
    (n.2.2 <<< 4) ||| (digitAt p.mcc 2 &&& 0x0F),
    (n.2.1 <<< 4) ||| (n.1 &&& 0x0F)]

/-- From three bytes. -/
def decodeBCD (a b c : UInt8) : PlmnId :=
  let mcc := nibbleText (a &&& 0x0F) ++ nibbleText (a >>> 4) ++ nibbleText (b &&& 0x0F)
  let mnc := nibbleText (c &&& 0x0F) ++ nibbleText (c >>> 4)
  ⟨mcc, if b >>> 4 = 0x0F then mnc else mnc ++ nibbleText (b >>> 4)⟩

end PlmnId

/-! ## Mobile identities -/

inductive MobileIdentity5GS where
  | suci (protectionSchemeId : UInt8) (homeNetworkId : PlmnId) (routingIndicator : Bytes)
      (schemeOutput : Bytes)
  | guti5G (plmn : PlmnId) (amfRegionId : UInt8) (amfSetId : UInt16) (amfPointer : UInt8)
      (tmsi5G : UInt32)
  | imei (digits : Bytes)
  | stmsi5G (amfSetId : UInt16) (amfPointer : UInt8) (tmsi5G : UInt32)
  | noIdentity
deriving DecidableEq

def putTMSI (t : UInt32) : Bytes :=
  [(t >>> 24).toUInt8, (t >>> 16).toUInt8, (t >>> 8).toUInt8, t.toUInt8]

def getTMSI (a b c d : UInt8) : UInt32 :=
  (a.toUInt32 <<< 24) ||| (b.toUInt32 <<< 16) ||| (c.toUInt32 <<< 8) ||| d.toUInt32

/-- AMF set and pointer in one word. -/
def putAmf (amfSetId : UInt16) (amfPointer : UInt8) : Bytes :=
  let v := ((amfSetId &&& 0x03FF) <<< 6) ||| (amfPointer.toUInt16 &&& 0x3F)
  [(v >>> 8).toUInt8, v.toUInt8]

def getAmfSet (a b : UInt8) : UInt16 :=
  ((a.toUInt16 <<< 2) ||| (b.toUInt16 >>> 6)) &&& 0x03FF

/-- Two digits to a byte; an odd one has the filler beside it. -/
def digitPairs : Bytes → Bytes
  | [] => []
  | [a] => [((0x0F : UInt8) <<< 4) ||| (a - 48)]
  | a :: b :: rest => (((b - 48) <<< 4) ||| (a - 48)) :: digitPairs rest

/-- The characters of the bytes after the first; a filler is passed over. -/
def digitsOf (v : Bytes) : Bytes :=
  v.flatMap fun b =>
    ((48 : UInt8) + (b &&& 0x0F)) :: if b >>> 4 = 0x0F then [] else [(48 : UInt8) + (b >>> 4)]

namespace MobileIdentity5GS

def encode : MobileIdentity5GS → Bytes
  | suci scheme home _ output =>
    [0x01] ++ home.encodeBCD ++ [0x00, 0x00, scheme &&& 0x0F, 0x00] ++ output
  | guti5G plmn region set pointer tmsi =>
    [0xF2] ++ plmn.encodeBCD ++ [region] ++ putAmf set pointer ++ putTMSI tmsi
  | imei digits =>
    let odd : UInt8 := if digits.length % 2 = 1 then 1 else 0
    let first : UInt8 := match digits with
      | [] => 0x0F
      | d :: _ => d - 48
    ((first <<< 4) ||| (odd <<< 3) ||| 0x03) :: digitPairs digits.tail
  | stmsi5G set pointer tmsi => [0xF4] ++ putAmf set pointer ++ putTMSI tmsi
  | noIdentity => [0x00]

def decodeSUCI : Bytes → Except NasErr MobileIdentity5GS
  | _ :: a :: b :: c :: _ :: _ :: _ :: scheme :: output =>
    -- the scheme is read one byte after the place where it was written
    .ok (suci (scheme &&& 0x0F) (.decodeBCD a b c) [] output)
  | _ => .error .bufferTooShort

def decodeGUTI5G : Bytes → Except NasErr MobileIdentity5GS
  | _ :: a :: b :: c :: region :: s₁ :: s₂ :: t₁ :: t₂ :: t₃ :: t₄ :: _ =>
    .ok (guti5G (.decodeBCD a b c) region (getAmfSet s₁ s₂) (s₂ &&& 0x3F) (getTMSI t₁ t₂ t₃ t₄))
  | _ => .error .bufferTooShort

def decodeIMEI (b : UInt8) (rest : Bytes) : MobileIdentity5GS :=
  let s := ((48 : UInt8) + (b >>> 4)) :: digitsOf rest
  imei (if (b >>> 3) &&& 0x01 = 0 ∧ s.getLast? = some (48 + 0x0F) then s.dropLast else s)

def decodeSTMSI : Bytes → Except NasErr MobileIdentity5GS
  | _ :: s₁ :: s₂ :: t₁ :: t₂ :: t₃ :: t₄ :: _ =>
    .ok (stmsi5G (getAmfSet s₁ s₂) (s₂ &&& 0x3F) (getTMSI t₁ t₂ t₃ t₄))
  | _ => .error .bufferTooShort

/-- `DecodeMobileIdentity5GS`: the low bits of the first byte tell the type. -/
def decode : Bytes → Except NasErr MobileIdentity5GS
  | [] => .error .bufferTooShort
  | b :: rest =>
    let type := b &&& 0x07
    if type = 0 then .ok noIdentity
    else if type = 1 then decodeSUCI (b :: rest)
    else if type = 2 then decodeGUTI5G (b :: rest)
    else if type = 3 ∨ type = 5 then .ok (decodeIMEI b rest)
    else if type = 4 then decodeSTMSI (b :: rest)
    else .error (.unsupportedIdentity type)

end MobileIdentity5GS

/-! ## Data network names and session bitmaps -/

/-- Labels with their lengths; empty ones are left out. -/
def encodeDNN (value : Bytes) : Bytes :=
  (value.splitOn 0x2E).flatMap fun label =>
    if label = [] then [] else UInt8.ofNat label.length :: label

/-- The labels; the fuel is the number of bytes. -/
def dnnLabels : Nat → Bytes → Option (List Bytes)
  | _, [] => some []
  | 0, _ :: _ => none
  | fuel + 1, ln :: rest =>
    if ln = 0 ∨ rest.length < ln.toNat then none
    else (dnnLabels fuel (rest.drop ln.toNat)).map (rest.take ln.toNat :: ·)

def decodeDNN (v : Bytes) : Except NasErr Bytes :=
  match dnnLabels v.length v with
  | none => .error .invalidLength
  | some labels => .ok ([0x2E].intercalate labels)

/-- The bit of a session in its octet. -/
def psiBit (psi : UInt8) : UInt8 := 1 <<< (psi &&& 7)

/-- Sessions 1 to 7 are in the first octet, 8 to 15 in the second; others are left out. -/
def encodePSIs (psis : List UInt8) : Bytes :=
  [psis.foldl (fun o p => if 1 ≤ p ∧ p ≤ 7 then o ||| psiBit p else o) 0,
    psis.foldl (fun o p => if 8 ≤ p ∧ p ≤ 15 then o ||| psiBit p else o) 0]

def decodePSIs : Bytes → Except NasErr (List UInt8)
  | a :: b :: _ =>
    .ok (([1, 2, 3, 4, 5, 6, 7] : List UInt8).filter (fun p => a &&& psiBit p ≠ 0) ++
      ([8, 9, 10, 11, 12, 13, 14, 15] : List UInt8).filter fun p => b &&& psiBit p ≠ 0)
  | _ => .error .bufferTooShort

/-! ## Element types -/

/-- A field of a bit-field element. -/
structure BitField where
  bits : Nat
  offset : Nat
deriving DecidableEq

def BitField.mask (f : BitField) : UInt8 := UInt8.ofNat (2 ^ f.bits - 1)

/-- What the generator makes of an element type. -/
inductive Shape where
  /-- Fields packed in one byte. -/
  | bits (fields : List BitField)
  /-- Fields of so many bytes each. -/
  | struct (sizes : List Nat)
  /-- Bytes that are not looked into. -/
  | raw
  | mobileIdentity
  | dnn
  | psiBitmap
deriving DecidableEq

def total : List Nat → Nat
  | [] => 0
  | n :: l => n + total l

structure IETypeDef where
  shape : Shape
  minLength : Nat
deriving DecidableEq

inductive Value where
  | bits (fields : List UInt8)
  /-- A number is its bytes, the high one first; a byte slice may have any length. -/
  | struct (fields : List Bytes)
  | raw (value : Bytes)
  | identity (id : MobileIdentity5GS)
  | dnn (value : Bytes)
  | psis (psis : List UInt8)
deriving DecidableEq

/-- The field has as many bytes as a number of that size. -/
def FieldHas (size : Nat) (f : Bytes) : Prop := size = 1 ∨ size = 2 ∨ size = 4 → f.length = size

/-- The value is of a type of that shape. -/
def Value.Has : Value → Shape → Prop
  | .bits l, .bits fields => l.length = fields.length
  | .struct l, .struct sizes => List.Forall₂ FieldHas sizes l
  | .raw _, .raw => True
  | .identity _, .mobileIdentity => True
  | .dnn _, .dnn => True
  | .psis _, .psiBitmap => True
  | _, _ => False

def encodeBits (fields : List BitField) (l : List UInt8) : UInt8 :=
  (fields.zip l).foldl (fun o p => o ||| ((p.2 &&& p.1.mask) <<< UInt8.ofNat p.1.offset)) 0

def decodeBits (fields : List BitField) (b : UInt8) : List UInt8 :=
  fields.map fun f => (b >>> UInt8.ofNat f.offset) &&& f.mask

/-- The fields of a struct, one after the other; what follows them is not looked at. -/
def decodeFields : List Nat → Bytes → Option (List Bytes)
  | [], _ => some []
  | n :: sizes, v =>
    match takeBytes n v with
    | none => none
    | some (f, rest) => (decodeFields sizes rest).map (f :: ·)

/-- `Encode` or `EncodeBytes` of the value. -/
def Value.encode (shape : Shape) : Value → Bytes
  | .bits l =>
    match shape with
    | .bits fields => [encodeBits fields l]
    | _ => []
  | .struct l => l.flatten
  | .raw v => v
  | .identity id => id.encode
  | .dnn v => encodeDNN v
  | .psis l => encodePSIs l

namespace IETypeDef

/-- `DecodeBytes`; the types of the runtime do not look at the minimal length. -/
def decodeBytes (t : IETypeDef) (v : Bytes) : Except NasErr Value :=
  match t.shape with
  | .bits fields =>
    match v with
    | [] => .error .bufferTooShort
    | b :: _ => .ok (.bits (decodeBits fields b))
  | .struct sizes =>
    if v.length < t.minLength then .error .bufferTooShort
    else
      match decodeFields sizes v with
      | none => .error .bufferTooShort
      | some l => .ok (.struct l)
  | .raw => if v.length < t.minLength then .error .bufferTooShort else .ok (.raw v)
  | .mobileIdentity => (MobileIdentity5GS.decode v).map .identity
  | .dnn => (decodeDNN v).map .dnn
  | .psiBitmap => (decodePSIs v).map .psis

/-- The value that a declaration gives, before anything is decoded. -/
def zero (t : IETypeDef) : Option Value :=
  match t.shape with
  | .bits fields => some (.bits (fields.map fun _ => 0))
  | .struct sizes =>
    some (.struct (sizes.map fun n => if n = 1 ∨ n = 2 ∨ n = 4 then List.replicate n 0 else []))
  | .raw => some (.raw [])
  | .mobileIdentity => none
  | .dnn => some (.dnn [])
  | .psiBitmap => some (.psis [])

end IETypeDef

end MmtCore.Nas
