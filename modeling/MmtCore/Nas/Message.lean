import MmtCore.Nas.Elements

/-!
# NAS messages

`Encode` and `Decode` as they are generated from the table of a message (`codegen/message.go`), over
the encoder and the buffer of the runtime (`runtime/encoder.go`, `runtime/decoder.go`).
-/

namespace MmtCore.Nas

open MmtCore.Lib

/-! ## Tables -/

inductive Format where
  | v
  | tv
  | lv
  | tlv
  | lve
  | tlve
  | t
deriving DecidableEq

/-- A whole byte, or the high half of one. -/
inductive IEI where
  | full (b : UInt8)
  | half (b : UInt8)
deriving DecidableEq

namespace IEI

def byte : IEI → UInt8
  | full b => b
  | half b => b

def Matches : IEI → UInt8 → Prop
  | full b, iei => iei = b
  | half b, iei => iei &&& 0xF0 = b

instance : ∀ i b, Decidable (Matches i b)
  | full b, iei => inferInstanceAs (Decidable (iei = b))
  | half b, iei => inferInstanceAs (Decidable (iei &&& 0xF0 = b))

/-- No byte that one of them begins is taken for the other. -/
def Apart : IEI → IEI → Prop
  | full a, full b => a ≠ b
  | full a, half b => a &&& 0xF0 ≠ b
  | half a, full b => b &&& 0xF0 ≠ a
  | half a, half b => a ≠ b

instance : ∀ i j, Decidable (Apart i j)
  | full a, full b => inferInstanceAs (Decidable (a ≠ b))
  | full a, half b => inferInstanceAs (Decidable (a &&& 0xF0 ≠ b))
  | half a, full b => inferInstanceAs (Decidable (b &&& 0xF0 ≠ a))
  | half a, half b => inferInstanceAs (Decidable (a ≠ b))

end IEI

/-- A row of the table of a message; a mandatory element has no IEI. -/
structure IEEntry where
  name : String
  iei : Option IEI
  format : Format
  /-- The length is given as `1/2`. -/
  halfOctet : Bool
  type : IETypeDef
deriving DecidableEq

structure MessageDef where
  name : String
  epd : UInt8
  messageType : UInt8
  ies : List IEEntry

/-- `pairIndex`: two mandatory half octets that follow each other share a byte. -/
def IEEntry.Pair (a b : IEEntry) : Prop :=
  a.iei = none ∧ b.iei = none ∧ a.format = .v ∧ b.format = .v ∧ a.halfOctet = true ∧
    b.halfOctet = true
  deriving Decidable

/-- The fields of a message; those of the headers are used by some protocols only. -/
structure Fields where
  pduSessionID : UInt8
  pti : UInt8
  epsBearerIdentity : UInt8
  vals : List (Option Value)
deriving DecidableEq

/-! ## The encoder -/

def header (m : MessageDef) (f : Fields) : Bytes :=
  if m.epd = 0x7E then [0x7E, 0, m.messageType]
  else if m.epd = 0x2E then [0x2E, f.pduSessionID, f.pti, m.messageType]
  else if m.epd = 0x07 then [0x07, m.messageType]
  else if m.epd = 0x02 then
    [((f.epsBearerIdentity &&& 0x0F) <<< 4) ||| 0x02, f.pti, m.messageType]
  else [m.epd, 0, m.messageType]

/-- `EncodeLV`; the generated code does not look at the error of a value that is too long. -/
def encodeLV (v : Bytes) : Bytes :=
  if v.length > 0xFF then [] else UInt8.ofNat v.length :: v

def encodeLVE (v : Bytes) : Bytes :=
  if v.length > 0xFFFF then [] else putUint16 v.length ++ v

def encodeTLV (iei : UInt8) (v : Bytes) : Bytes :=
  if v.length > 0xFF then [] else iei :: UInt8.ofNat v.length :: v

def encodeTLVE (iei : UInt8) (v : Bytes) : Bytes :=
  if v.length > 0xFFFF then [] else iei :: (putUint16 v.length ++ v)

namespace IEEntry

variable (e : IEEntry)

/-- The low half of the byte of a bit-field element. -/
def nibble (x : Value) : UInt8 := (x.encode e.type.shape).headD 0 &&& 0x0F

def mandatoryBytes (x : Value) : Bytes :=
  match e.format with
  | .v => x.encode e.type.shape
  | .lv => encodeLV (x.encode e.type.shape)
  | .lve => encodeLVE (x.encode e.type.shape)
  | _ => []

def optionalBytes (iei : IEI) (x : Value) : Bytes :=
  match e.format with
  | .tv =>
    match iei with
    | .half b => [(((b >>> 4) &&& 0x0F) <<< 4) ||| e.nibble x]
    | .full b => b :: x.encode e.type.shape
  | .t => [iei.byte]
  | .tlv => encodeTLV iei.byte (x.encode e.type.shape)
  | .tlve => encodeTLVE iei.byte (x.encode e.type.shape)
  | _ => []

end IEEntry

/-- None where the identity that is to be encoded is not set: the program stops there. -/
def encodeMandatory : List IEEntry → List (Option Value) → Option Bytes
  | e :: f :: es, v :: w :: vs =>
    if e.Pair f then do
      let x ← v
      let y ← w
      let rest ← encodeMandatory es vs
      pure (((f.nibble y <<< 4) ||| e.nibble x) :: rest)
    else if e.iei = none then do
      let x ← v
      let rest ← encodeMandatory (f :: es) (w :: vs)
      pure (e.mandatoryBytes x ++ rest)
    else encodeMandatory (f :: es) (w :: vs)
  | [e], [v] => if e.iei = none then v.map e.mandatoryBytes else some []
  | _, _ => some []

def encodeOptional : List IEEntry → List (Option Value) → Bytes
  | e :: es, v :: vs =>
    (match e.iei, v with
      | some iei, some x => e.optionalBytes iei x
      | _, _ => []) ++ encodeOptional es vs
  | _, _ => []

def encode (m : MessageDef) (f : Fields) : Option Bytes :=
  (encodeMandatory m.ies f.vals).map fun b => header m f ++ b ++ encodeOptional m.ies f.vals

/-! ## The decoder -/

structure DecodeError where
  messageType : String
  ieName : String
  err : NasErr
deriving DecidableEq

namespace IEEntry

variable (msg : String) (e : IEEntry)

def fail {α : Type} (err : NasErr) : Except DecodeError α := .error ⟨msg, e.name, err⟩

/-- The value that was decoded, or the error under the name of the element. -/
def wrap (r : Except NasErr Value) : Except DecodeError Value :=
  match r with
  | .error err => e.fail msg err
  | .ok x => .ok x

/-- `n` bytes, decoded. -/
def decodeBody (n : Nat) (b : Bytes) : Except DecodeError (Option Value × Bytes) :=
  match takeBytes n b with
  | none => e.fail msg .bufferTooShort
  | some (v, rest) => (e.wrap msg (e.type.decodeBytes v)).map fun x => (some x, rest)

def decodeLV (b : Bytes) : Except DecodeError (Option Value × Bytes) :=
  match takeUint8 b with
  | none => e.fail msg .bufferTooShort
  | some (n, rest) => e.decodeBody msg n.toNat rest

def decodeLVE (b : Bytes) : Except DecodeError (Option Value × Bytes) :=
  match takeUint16 b with
  | none => e.fail msg .bufferTooShort
  | some (n, rest) => e.decodeBody msg n rest

/-- How many bytes are read where the message gives no length. -/
def fixedLength : Nat :=
  match e.type.shape with
  | .bits _ => 1
  | _ => e.type.minLength

/-- A type of the runtime that has no length is not read at all. -/
def decodeMandatoryOne (b : Bytes) : Except DecodeError (Option Value × Bytes) :=
  match e.format with
  | .v =>
    match e.type.shape with
    | .bits _ | .struct _ | .raw => e.decodeBody msg e.fixedLength b
    | _ => .ok (e.type.zero, b)
  | .lv => e.decodeLV msg b
  | .lve => e.decodeLVE msg b
  | _ => .ok (e.type.zero, b)

/-- The case of an optional element; its IEI has been read.  The first component is what is assigned
to the field. -/
def decodeCase (iei : UInt8) (b : Bytes) : Except DecodeError (Option Value × Bytes) :=
  match e.format with
  | .t => .ok (e.type.zero, b)
  | .tv =>
    match e.iei with
    | some (.half _) =>
      (e.wrap msg (e.type.decodeBytes [iei &&& 0x0F])).map fun x => (some x, b)
    | _ => e.decodeBody msg (if e.type.minLength = 0 then 1 else e.type.minLength) b
  | .tlv => e.decodeLV msg b
  | .tlve => e.decodeLVE msg b
  | _ => .ok (none, b)

end IEEntry

def decodeMandatory (msg : String) : List IEEntry → Bytes →
    Except DecodeError (List (Option Value) × Bytes)
  | e :: f :: es, b =>
    if e.Pair f then
      match takeUint8 b with
      | none => .error ⟨msg, e.name ++ "/" ++ f.name, .bufferTooShort⟩
      | some (a, rest) => do
        let x ← e.wrap msg (e.type.decodeBytes [a &&& 0x0F])
        let y ← f.wrap msg (f.type.decodeBytes [(a >>> 4) &&& 0x0F])
        let (vals, rest) ← decodeMandatory msg es rest
        pure (some x :: some y :: vals, rest)
    else if e.iei = none then do
      let (x, rest) ← e.decodeMandatoryOne msg b
      let (vals, rest) ← decodeMandatory msg (f :: es) rest
      pure (x :: vals, rest)
    else do
      let (vals, rest) ← decodeMandatory msg (f :: es) b
      pure (none :: vals, rest)
  | [e], b =>
    if e.iei = none then do
      let (x, rest) ← e.decodeMandatoryOne msg b
      pure ([x], rest)
    else .ok ([none], b)
  | [], b => .ok ([], b)

/-- The first optional element whose IEI matches, if there is one. -/
def dispatch (msg : String) (iei : UInt8) (b : Bytes) : List IEEntry → List (Option Value) →
    Option (Except DecodeError (List (Option Value) × Bytes))
  | e :: es, v :: vs =>
    match e.iei with
    | some i =>
      if i.Matches iei then
        some ((e.decodeCase msg iei b).map fun r => (r.1.or v :: vs, r.2))
      else (dispatch msg iei b es vs).map fun r => r.map fun p => (v :: p.1, p.2)
    | none => (dispatch msg iei b es vs).map fun r => r.map fun p => (v :: p.1, p.2)
  | _, _ => none

/-- `SkipUnknownIE`. -/
def skipUnknownIE (iei : UInt8) (b : Bytes) : Option Bytes :=
  if iei >>> 4 ≤ 7 then
    match takeUint8 b with
    | none => none
    | some (n, rest) => (takeBytes n.toNat rest).map (·.2)
  else some b

/-- The loop over the optional elements; the fuel is the number of bytes, each round reads one.  An
unknown element that is cut off ends the message without an error. -/
def decodeOptional (msg : String) (es : List IEEntry) : Nat → List (Option Value) → Bytes →
    Except DecodeError (List (Option Value))
  | _, vals, [] => .ok vals
  | 0, vals, _ :: _ => .ok vals
  | fuel + 1, vals, iei :: b =>
    match dispatch msg iei b es vals with
    | some (.error err) => .error err
    | some (.ok (vals, b)) => decodeOptional msg es fuel vals b
    | none =>
      match skipUnknownIE iei b with
      | none => .ok vals
      | some b => decodeOptional msg es fuel vals b

/-- The elements of the payload, which comes without the header. -/
def decode (m : MessageDef) (payload : Bytes) : Except DecodeError (List (Option Value)) := do
  let (vals, rest) ← decodeMandatory m.name m.ies payload
  decodeOptional m.name m.ies rest.length vals rest

/-! ## Tables of the generator -/

/-- The fields do not meet. -/
def BitField.Apart (f g : BitField) : Prop :=
  f.offset + f.bits ≤ g.offset ∨ g.offset + g.bits ≤ f.offset
  deriving Decidable

/-- The fields of a type stand side by side in so many bits, and the minimal length of a structure
is the length of its fields. -/
def IETypeDef.Laid (t : IETypeDef) (width : Nat) : Prop :=
  match t.shape with
  | .bits fields =>
    fields.Pairwise BitField.Apart ∧ ∀ f ∈ fields, 0 < f.bits ∧ f.offset + f.bits ≤ width
  | .struct sizes => t.minLength = total sizes
  | _ => True

/-- The bits that an element has for its fields. -/
def IEEntry.width (e : IEEntry) : Nat :=
  match e.halfOctet, e.iei with
  | true, _ | false, some (.half _) => 4
  | _, _ => 8

/-- The element has a format that the generator supports with its type. -/
def IEEntry.Regular (e : IEEntry) : Prop :=
  e.type.Laid e.width ∧
    match e.iei, e.format, e.type.shape with
    | none, .v, .bits _ => True
    | none, .v, .struct _ | none, .lv, _ | none, .lve, _ => e.halfOctet = false
    | some (.half b), .tv, .bits _ => e.halfOctet = false ∧ b &&& 0x0F = 0
    | some (.full _), .tv, .bits _ => e.halfOctet = false ∧ e.type.minLength ≤ 1
    | some (.full _), .tv, .struct _ | some (.full _), .tv, .raw =>
      e.halfOctet = false ∧ 0 < e.type.minLength
    | some (.full _), .tlv, _ | some (.full _), .tlve, _ => e.halfOctet = false
    | _, _, _ => False

/-- Half octets come in pairs. -/
def Paired : List IEEntry → Prop
  | e :: f :: es => if e.Pair f then Paired es else e.halfOctet = false ∧ Paired (f :: es)
  | [e] => e.halfOctet = false
  | [] => True

/-- A table as the definitions of the generator have them. -/
structure MessageTable extends MessageDef where
  regular : ∀ e ∈ ies, e.Regular
  paired : Paired ies
  apart : (ies.filterMap (·.iei)).Pairwise IEI.Apart

/-- The field holds a value of its type; only an optional one or an identity may be missing. -/
def IEEntry.Holds (e : IEEntry) (v : Option Value) : Prop :=
  (∀ x, v = some x → x.Has e.type.shape) ∧
    (v = none → e.iei ≠ none ∨ e.type.shape = .mobileIdentity)

/-- A message of the type that is generated from the table. -/
structure Message (t : MessageTable) extends Fields where
  typed : List.Forall₂ IEEntry.Holds t.ies vals

end MmtCore.Nas
