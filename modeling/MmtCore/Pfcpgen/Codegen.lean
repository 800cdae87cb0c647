import MmtCore.Lib.Records
import MmtCore.Pfcpgen.Runtime

/-!
# What the PFCP generator generates

The codec that `codegen` makes of the definitions of information elements and messages: the type of
the values, their zero, `EncodeBytes` and `DecodeBytes`, and the messages with their header.
-/

namespace MmtCore.Pfcpgen

open MmtCore.Lib MmtCore.Pfcp

/-! ## Flag-conditional elements -/

inductive LengthPrefix where
  | u8
  | u16
deriving DecidableEq

/-- `emitLengthPrefix`. -/
def LengthPrefix.put (p : LengthPrefix) (n : Nat) : Bytes :=
  match p with
  | .u8 => [UInt8.ofNat n]
  | .u16 => putUint16 n

def takeUint (r : Option (Nat × Bytes)) : Except CodecErr (Nat × Bytes) :=
  match r with
  | none => .error .bufferTooShort
  | some r => .ok r

def LengthPrefix.take (p : LengthPrefix) (v : Bytes) : Except CodecErr (Nat × Bytes) :=
  match p with
  | .u8 => takeUint ((takeUint8 v).map fun r => (r.1.toNat, r.2))
  | .u16 => takeUint (takeUint16 v)

/-- The types of a sub-field; a string has a length prefix, the others have none. -/
inductive SubType where
  | tbcdDigits (lengthPrefix : LengthPrefix)
  | utf8 (lengthPrefix : LengthPrefix)
  | uint16
  | uint24
  | uint32
  | uint64
  | smmiiList
deriving DecidableEq

/-! How `flagCondEmitEncode` writes a sub-field that is there, and how `flagCondEmitDecode` reads
one whose flag is set. -/

/-- The error of `EncodeTBCD` is not looked at. -/
def putDigits (p : LengthPrefix) (s : Bytes) : Bytes :=
  let tbcd := (encodeTBCD s).getD []
  p.put tbcd.length ++ tbcd

def takeDigits (p : LengthPrefix) (v : Bytes) : Except CodecErr (Bytes × Bytes) := do
  let (n, v) ← p.take v
  let (s, v) ← take n v
  pure (decodeTBCD s, v)

def putText (p : LengthPrefix) (s : Bytes) : Bytes := p.put s.length ++ s

def takeText (p : LengthPrefix) (v : Bytes) : Except CodecErr (Bytes × Bytes) := do
  let (n, v) ← p.take v
  take n v

/-- The low bytes of a number that is there. -/
def putNumber (n : Nat) (v : Option Nat) : Bytes := (v.map (beBytes n)).getD []

def takeNumber (n : Nat) (v : Bytes) : Except CodecErr (Nat × Bytes) :=
  (take n v).map fun r => (beNat r.1, r.2)

def putBody (body : Bytes) : Bytes := putUint16 body.length ++ body

def takeBody (v : Bytes) : Except CodecErr (Bytes × Bytes) := do
  let (m, v) ← takeUint (takeUint16 v)
  take m v

def putBodies (l : List Bytes) : Bytes := UInt8.ofNat l.length :: l.flatMap putBody

def takeCounted : Nat → Bytes → Except CodecErr (List Bytes × Bytes)
  | 0, v => .ok ([], v)
  | n + 1, v => do
    let (body, v) ← takeBody v
    let (bodies, v) ← takeCounted n v
    pure (body :: bodies, v)

def takeBodies (v : Bytes) : Except CodecErr (List Bytes × Bytes) := do
  let (count, v) ← LengthPrefix.u8.take v
  takeCounted count v

namespace SubType

/-- `flagCondGoType`. -/
def Val : SubType → Type
  | tbcdDigits _ => Bytes
  | utf8 _ => Bytes
  | uint16 => Option UInt16
  | uint24 => Option UInt32
  | uint32 => Option UInt32
  | uint64 => Option UInt64
  | smmiiList => List Bytes

def zero : (t : SubType) → t.Val
  | tbcdDigits _ => ([] : Bytes)
  | utf8 _ => ([] : Bytes)
  | uint16 => (none : Option UInt16)
  | uint24 => (none : Option UInt32)
  | uint32 => (none : Option UInt32)
  | uint64 => (none : Option UInt64)
  | smmiiList => ([] : List Bytes)

/-- `flagCondPresenceExpr`. -/
def present : (t : SubType) → t.Val → Bool
  | tbcdDigits _, s => !List.isEmpty s
  | utf8 _, s => !List.isEmpty s
  | uint16, v => Option.isSome v
  | uint24, v => Option.isSome v
  | uint32, v => Option.isSome v
  | uint64, v => Option.isSome v
  | smmiiList, l => !List.isEmpty l

def encode : (t : SubType) → t.Val → Bytes
  | tbcdDigits p, s => putDigits p s
  | utf8 p, s => putText p s
  | uint16, v => putNumber 2 (Option.map UInt16.toNat v)
  | uint24, v => putNumber 3 (Option.map UInt32.toNat v)
  | uint32, v => putNumber 4 (Option.map UInt32.toNat v)
  | uint64, v => putNumber 8 (Option.map UInt64.toNat v)
  | smmiiList, l => putBodies l

def decode : (t : SubType) → Bytes → Except CodecErr (t.Val × Bytes)
  | tbcdDigits p, v => takeDigits p v
  | utf8 p, v => takeText p v
  | uint16, v => (takeNumber 2 v).map fun r => (some (UInt16.ofNat r.1), r.2)
  | uint24, v => (takeNumber 3 v).map fun r => (some (UInt32.ofNat r.1), r.2)
  | uint32, v => (takeNumber 4 v).map fun r => (some (UInt32.ofNat r.1), r.2)
  | uint64, v => (takeNumber 8 v).map fun r => (some (UInt64.ofNat r.1), r.2)
  | smmiiList, v => takeBodies v

end SubType

structure SubField where
  bit : Nat
  type : SubType
deriving DecidableEq

def SubField.mask (f : SubField) : UInt8 := 1 <<< UInt8.ofNat f.bit

/-- The fields of the structure. -/
def SubVals : List SubField → Type
  | [] => Unit
  | f :: fs => f.type.Val × SubVals fs

namespace SubVals

def zero : (fs : List SubField) → SubVals fs
  | [] => ()
  | f :: fs => (f.type.zero, zero fs)

def flags : (fs : List SubField) → SubVals fs → UInt8
  | [], _ => 0
  | f :: fs, (x, s) => (if f.type.present x then f.mask else 0) ||| flags fs s

def encode : (fs : List SubField) → SubVals fs → Bytes
  | [], _ => []
  | f :: fs, (x, s) => (if f.type.present x then f.type.encode x else []) ++ encode fs s

def decode (flags : UInt8) : (fs : List SubField) → SubVals fs → Bytes →
    Except CodecErr (SubVals fs)
  | [], _, _ => .ok ()
  | f :: fs, (x, s), v => do
    let (x, v) ← if flags &&& f.mask ≠ 0 then f.type.decode v else pure (x, v)
    let s ← decode flags fs s v
    pure (x, s)

end SubVals

/-! ## Structured elements -/

/-- `structFieldType`. -/
inductive StructType where
  | uint8
  | uint16
  | uint32
  | uint64
  | bytes (n : Nat)
deriving DecidableEq

namespace StructType

def Val : StructType → Type
  | uint8 => UInt8
  | uint16 => UInt16
  | uint32 => UInt32
  | uint64 => UInt64
  | bytes _ => Bytes

def zero : (t : StructType) → t.Val
  | uint8 => (0 : UInt8)
  | uint16 => (0 : UInt16)
  | uint32 => (0 : UInt32)
  | uint64 => (0 : UInt64)
  | bytes _ => ([] : Bytes)

def size : StructType → Nat
  | uint8 => 1
  | uint16 => 2
  | uint32 => 4
  | uint64 => 8
  | bytes n => n

/-- `emitStructFieldEncode`. -/
def encode : (t : StructType) → t.Val → Bytes
  | uint8, v => beBytes 1 (UInt8.toNat v)
  | uint16, v => beBytes 2 (UInt16.toNat v)
  | uint32, v => beBytes 4 (UInt32.toNat v)
  | uint64, v => beBytes 8 (UInt64.toNat v)
  | bytes _, v => v

/-- The value of a field in its bytes. -/
def ofBytes : (t : StructType) → Bytes → t.Val
  | uint8, b => UInt8.ofNat (beNat b)
  | uint16, b => UInt16.ofNat (beNat b)
  | uint32, b => UInt32.ofNat (beNat b)
  | uint64, b => UInt64.ofNat (beNat b)
  | bytes _, b => b

end StructType

def StructVals : List StructType → Type
  | [] => Unit
  | t :: ts => t.Val × StructVals ts

namespace StructVals

def zero : (ts : List StructType) → StructVals ts
  | [] => ()
  | t :: ts => (t.zero, zero ts)

def encode : (ts : List StructType) → StructVals ts → Bytes
  | [], _ => []
  | t :: ts, (x, s) => t.encode x ++ encode ts s

def decode : (ts : List StructType) → Bytes → Except CodecErr (StructVals ts)
  | [], _ => .ok ()
  | t :: ts, v => do
    let (b, v) ← take t.size v
    let s ← decode ts v
    pure (t.ofBytes b, s)

end StructVals

/-! ## Element types that are not grouped -/

inductive GoType where
  | FSEID
  | NodeID
  | FTEID
  | UEIPAddress
  | OuterHeaderCreation
  | MBR
  | APNDNN
deriving DecidableEq

namespace GoType

def Val : GoType → Type
  | FSEID => Pfcpgen.FSEID
  | NodeID => Pfcpgen.NodeID
  | FTEID => Pfcpgen.FTEID
  | UEIPAddress => Pfcpgen.UEIPAddress
  | OuterHeaderCreation => Pfcpgen.OuterHeaderCreation
  | MBR => Pfcpgen.MBR
  | APNDNN => Pfcpgen.APNDNN

def zero : (t : GoType) → t.Val
  | FSEID => ({} : Pfcpgen.FSEID)
  | NodeID => ({} : Pfcpgen.NodeID)
  | FTEID => ({} : Pfcpgen.FTEID)
  | UEIPAddress => ({} : Pfcpgen.UEIPAddress)
  | OuterHeaderCreation => ({} : Pfcpgen.OuterHeaderCreation)
  | MBR => ({} : Pfcpgen.MBR)
  | APNDNN => ({} : Pfcpgen.APNDNN)

def encode : (t : GoType) → t.Val → Bytes
  | FSEID, f => Pfcpgen.FSEID.encode f
  | NodeID, n => Pfcpgen.NodeID.encode n
  | FTEID, f => Pfcpgen.FTEID.encode f
  | UEIPAddress, u => Pfcpgen.UEIPAddress.encode u
  | OuterHeaderCreation, o => Pfcpgen.OuterHeaderCreation.encode o
  | MBR, m => Pfcpgen.MBR.encode m
  | APNDNN, a => Pfcpgen.APNDNN.encode a

def decode : (t : GoType) → t.Val → Bytes → Except CodecErr t.Val
  | FSEID, f, v => Pfcpgen.FSEID.decode f v
  | NodeID, n, v => Pfcpgen.NodeID.decode n v
  | FTEID, f, v => Pfcpgen.FTEID.decode f v
  | UEIPAddress, u, v => Pfcpgen.UEIPAddress.decode u v
  | OuterHeaderCreation, o, v => Pfcpgen.OuterHeaderCreation.decode o v
  | MBR, _, v => Pfcpgen.MBR.decode v
  | APNDNN, _, v => Pfcpgen.APNDNN.decode v

end GoType

/-- What `generateIEType` makes of an element that is not grouped. -/
inductive Layout where
  /-- `generateByteContainerIE`. -/
  | container (minLength : Nat)
  /-- `generateBitFieldIE`. -/
  | bitField (fields : List Nas.BitField)
  /-- `generateStructuredIE`. -/
  | structured (minLength : Nat) (fields : List StructType)
  /-- `generateFlagConditionalIE`. -/
  | flagConditional (spareOctetAfterFlags : Bool) (fields : List SubField)
  /-- `generateRuntimeAlias`. -/
  | runtimeAlias (goType : GoType)

namespace Layout

def Val : Layout → Type
  | container _ => Bytes
  | bitField fields => { l : List UInt8 // l.length = fields.length }
  | structured _ fields => StructVals fields
  | flagConditional _ fields => SubVals fields
  | runtimeAlias t => t.Val

def zero : (l : Layout) → l.Val
  | container _ => ([] : Bytes)
  | bitField fields => ⟨fields.map fun _ => 0, List.length_map _⟩
  | structured _ fields => StructVals.zero fields
  | flagConditional _ fields => SubVals.zero fields
  | runtimeAlias t => t.zero

/-- `EncodeBytes`. -/
def encode : (l : Layout) → l.Val → Bytes
  | container _, v => v
  | bitField fields, l => [Nas.encodeBits fields l.val]
  | structured _ fields, s => StructVals.encode fields s
  | flagConditional spare fields, s =>
    SubVals.flags fields s :: (if spare then [0] else []) ++ SubVals.encode fields s
  | runtimeAlias t, v => t.encode v

/-- `DecodeBytes`. -/
def decode : (l : Layout) → l.Val → Bytes → Except CodecErr l.Val
  | container minLength, _, v =>
    if v.length < minLength then .error .bufferTooShort else .ok v
  | bitField fields, _, v =>
    match v with
    | [] => .error .bufferTooShort
    | b :: _ => .ok ⟨Nas.decodeBits fields b, List.length_map _⟩
  | structured minLength fields, _, v =>
    if v.length < minLength then .error .bufferTooShort else StructVals.decode fields v
  | flagConditional spare fields, s, v => do
    let (head, v) ← take (if spare then 2 else 1) v
    SubVals.decode (head.headD 0) fields s v
  | runtimeAlias t, x, v => t.decode x v

end Layout

/-! ## Information elements on the wire -/

structure DecodedIE where
  type : UInt16
  enterpriseID : UInt32
  value : Bytes
deriving DecidableEq

/-- `DecodeIE`. -/
def decodeIE (b : Bytes) : Except CodecErr (DecodedIE × Bytes) := do
  let (ieType, b) ← takeUint (takeUint16 b)
  let (length, b) ← takeUint (takeUint16 b)
  let ieType := UInt16.ofNat ieType
  if ieType &&& 0x8000 ≠ 0 then do
    let (eid, b) ← take 4 b
    if length < 4 then .error .invalidLength
    else
      let (v, b) ← take (length - 4) b
      pure (⟨ieType &&& 0x7FFF, UInt32.ofNat (beNat eid), v⟩, b)
  else
    let (v, b) ← take length b
    pure (⟨ieType, 0, v⟩, b)

/-- `ForEachIE`. -/
def forEachIE {σ : Type} (fn : σ → DecodedIE → Except CodecErr σ) (s : σ) (b : Bytes) :
    Except CodecErr σ :=
  forEachRecord decodeIE fn s b

inductive EncodeErr where
  | valueTooLong (length : Nat)
  | enterpriseBit (type : UInt16)
deriving DecidableEq

/-- `EncodeIE`, as what it writes. -/
def encodeIE (ieType : UInt16) (value : Bytes) : Except EncodeErr Bytes :=
  if 0xFFFF < value.length then .error (.valueTooLong value.length)
  else if ieType &&& 0x8000 ≠ 0 then .error (.enterpriseBit ieType)
  else .ok (putUint16 ieType.toNat ++ putUint16 value.length ++ value)

/-- `_ = e.EncodeIE(...)`: after an error nothing was written. -/
def written (r : Except EncodeErr Bytes) : Bytes :=
  match r with
  | .ok b => b
  | .error _ => []

/-! ## Grouped elements -/

inductive Presence where
  | M
  | C
  | O
deriving DecidableEq

structure IEEntry where
  name : String
  presence : Presence
  multiple : Bool
deriving DecidableEq

mutual

/-- `IETypeDef`; a type reference is the type itself. -/
inductive IETypeDef where
  | single (name : String) (typeCode : UInt16) (layout : Layout)
  | grouped (name : String) (typeCode : UInt16) (members : Members)

inductive Members where
  | nil
  | cons (entry : IEEntry) (typeRef : IETypeDef) (rest : Members)

end

/-- Rows of a table of members. -/
def Members.ofList : List (String × Presence × Bool × IETypeDef) → Members
  | [] => .nil
  | (name, presence, multiple, t) :: l => .cons ⟨name, presence, multiple⟩ t (.ofList l)

def Members.isEmpty : Members → Bool
  | .nil => true
  | .cons .. => false

def IETypeDef.name : IETypeDef → String
  | .single n _ _ => n
  | .grouped n _ _ => n

def IETypeDef.typeCode : IETypeDef → UInt16
  | .single _ c _ => c
  | .grouped _ c _ => c

/-- How `emitMemberField` declares a member. -/
inductive Field where
  | slice
  | value
  | pointer
deriving DecidableEq

def IEEntry.field (e : IEEntry) : Field :=
  if e.multiple then .slice else if e.presence = .M then .value else .pointer

namespace Field

variable {V : Type}

def Slot (k : Field) (V : Type) : Type :=
  match k with
  | slice => List V
  | value => V
  | pointer => Option V

def zero : (k : Field) → V → k.Slot V
  | slice, _ => ([] : List V)
  | value, z => z
  | pointer, _ => (none : Option V)

/-- The values that there are, in the order in which `emitMemberEncode` writes them. -/
def elems : (k : Field) → k.Slot V → List V
  | slice, l => l
  | value, x => [x]
  | pointer, o => Option.toList o

/-- `emitMemberCaseBody`: only a mandatory member is decoded into what was there. -/
def put (decode : V → Bytes → Except CodecErr V) (z : V) :
    (k : Field) → k.Slot V → Bytes → Except CodecErr (k.Slot V)
  | slice, l, v => (decode z v).map fun x => List.append l [x]
  | value, x, v => decode x v
  | pointer, _, v => (decode z v).map some

end Field

mutual

/-- The structure that is generated. -/
def IETypeDef.Val : IETypeDef → Type
  | .single _ _ l => l.Val
  | .grouped _ _ ms => ms.Val

def Members.Val : Members → Type
  | .nil => Unit
  | .cons e t rest => e.field.Slot t.Val × rest.Val

end

mutual

def IETypeDef.zero : (t : IETypeDef) → t.Val
  | .single _ _ l => l.zero
  | .grouped _ _ ms => ms.zero

def Members.zero : (ms : Members) → ms.Val
  | .nil => ()
  | .cons e t rest => (e.field.zero t.zero, rest.zero)

end

mutual

/-- `EncodeBytes`. -/
def IETypeDef.encode : (t : IETypeDef) → t.Val → Bytes
  | .single _ _ l, x => l.encode x
  | .grouped _ _ ms, s => ms.encode s

/-- `emitMemberEncode` for each member. -/
def Members.encode : (ms : Members) → ms.Val → Bytes
  | .nil, _ => []
  | .cons e t rest, (x, s) =>
    (e.field.elems x).flatMap (fun y => written (encodeIE t.typeCode (t.encode y))) ++
      rest.encode s

end

mutual

/-- `DecodeBytes`, into the value that is there. -/
def IETypeDef.decode : (t : IETypeDef) → t.Val → Bytes → Except CodecErr t.Val
  | .single _ _ l, x, v => l.decode x v
  | .grouped name _ ms, s, v => forEachIE (fun s ie => ms.dispatch name s ie) s v

/-- `emitMemberDispatchSwitch`; other types are passed over. -/
def Members.dispatch : (ms : Members) → String → ms.Val → DecodedIE → Except CodecErr ms.Val
  | .nil, _, s, _ => .ok s
  | .cons e t rest, ctxName, (x, s), ie =>
    if ie.type = t.typeCode then
      match e.field.put (fun y v => t.decode y v) t.zero x ie.value with
      | .ok x => .ok (x, s)
      | .error err => .error (.decodeError ctxName e.name ie.type 0 err)
    else (rest.dispatch ctxName s ie).map fun s => (x, s)

end

/-! ## Messages -/

structure MessageDef where
  name : String
  messageType : UInt8
  hasSEID : Bool
  ies : Members

/-- The structure of a message; it has a SEID where the header has one. -/
structure Message (d : MessageDef) where
  seid : UInt64
  sequenceNumber : UInt32
  priority : UInt8
  ies : d.ies.Val
  noSeid : d.hasSEID = false → seid = 0

namespace Message

variable {d : MessageDef}

def payload (m : Message d) : Bytes := d.ies.encode m.ies

/-- The header that `Encode` builds; its length is cut to sixteen bits. -/
def header (m : Message d) : Header :=
  let h : Header :=
    { version := 1
      followOn := false
      messagePriority := false
      hasSEID := d.hasSEID
      messageType := d.messageType
      length := 0
      seid := m.seid
      sequenceNumber := m.sequenceNumber
      priority := m.priority }
  { h with length := UInt16.ofNat (h.headerSize - 4 + m.payload.length) }

/-- `Encode`, which never returns an error. -/
def encode (m : Message d) : Bytes := m.header.encode ++ m.payload

/-- The dispatcher sets the fields of the header. -/
def received (h : Header) (ies : d.ies.Val) : Message d where
  seid := if d.hasSEID then h.seid else 0
  sequenceNumber := h.sequenceNumber
  priority := h.priority
  ies := ies
  noSeid := fun hno => by rw [hno]; rfl

/-- `Decode` of the payload.  A message without elements does not look at it. -/
def decode (d : MessageDef) (h : Header) (payload : Bytes) : Except CodecErr (Message d) :=
  (if d.ies.isEmpty then .ok d.ies.zero
    else forEachIE (fun s ie => d.ies.dispatch d.name s ie) d.ies.zero payload).map (received h)

end Message

/-- `DecodePFCPMessage`, for the messages that there are. -/
def decodePFCPMessage (messages : List MessageDef) (data : Bytes) :
    Except CodecErr (Σ d, Message d) :=
  match parseHeader data with
  | none => .error .header
  | some (h, payload) =>
    match messages.find? fun d => d.messageType == h.messageType with
    | none => .error .invalidMessageType
    | some d => (Message.decode d h payload).map (Sigma.mk d)

end MmtCore.Pfcpgen
