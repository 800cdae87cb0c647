import MmtCore.Asn1.PerString

/-!
# Marshalling by the tags of a type

The generated types as the codec sees them (`runtime/marshal.go`): what is written for a value of a
type and its tags, and what is read for it.
-/

namespace MmtCore.Asn1

/-! ## Types -/

/-- The bounds of a number in a tag. -/
inductive ValueRange where
  | unbounded
  | lower (lb : Int64)
  | both (lb ub : Int64)
deriving DecidableEq

/-- `fieldMeta`, from the tag of a field. -/
structure FieldMeta where
  value : ValueRange := .unbounded
  valueExt : Bool := false
  size : Option SizeRange := none
  sizeExt : Bool := false
  optional : Bool := false
  isExt : Bool := false
  openType : Bool := false
  directChoice : Bool := false
deriving DecidableEq

/-- A field of a struct; it may be nil if it is a pointer, or a slice that is optional. -/
structure FieldInfo where
  name : String
  nilable : Bool
  tag : FieldMeta
deriving DecidableEq

mutual

/-- A generated type.  The fields with the tag `skip` are not among those of a sequence. -/
inductive Ty where
  | bool
  | int
  | string
  | octets
  | bitString
  | seqOf (elem : Ty)
  | sequence (extensible : Bool) (fields : Fields)
  /-- The alternatives, and the one for each id if it is chosen by a table (`APERAlternativeForID`). -/
  | choice (extensible : Bool) (ids : Option (List (Int × Nat))) (alts : Fields)

inductive Fields where
  | nil
  | cons (info : FieldInfo) (type : Ty) (rest : Fields)

end

/-- What a field holds. -/
def Slot : Bool → Type → Type
  | true, α => Option α
  | false, α => α

namespace Slot

variable {α : Type}

def get? : {b : Bool} → Slot b α → Option α
  | true, s => s
  | false, s => some s

def full : (b : Bool) → α → Slot b α
  | true, x => some x
  | false, x => x

/-- The zero value of a field. -/
def zero : (b : Bool) → α → Slot b α
  | true, _ => none
  | false, z => z

end Slot

mutual

def Ty.Val : Ty → Type
  | .bool => Bool
  | .int => Int64
  | .string => Bytes
  | .octets => Bytes
  | .bitString => BitString
  | .seqOf elem => List elem.Val
  | .sequence _ fields => fields.Vals
  | .choice _ _ alts => Int × alts.Vals

def Fields.Vals : Fields → Type
  | .nil => Unit
  | .cons info type rest => Slot info.nilable type.Val × rest.Vals

end

mutual

def Ty.zero : (t : Ty) → t.Val
  | .bool => false
  | .int => (0 : Int64)
  | .string => ([] : Bytes)
  | .octets => ([] : Bytes)
  | .bitString => (⟨[], 0⟩ : BitString)
  | .seqOf _ => []
  | .sequence _ fields => fields.zeros
  | .choice _ _ alts => (0, alts.zeros)

def Fields.zeros : (fs : Fields) → fs.Vals
  | .nil => ()
  | .cons info type rest => (.zero info.nilable type.zero, rest.zeros)

end

namespace Fields

def length : Fields → Nat
  | .nil => 0
  | .cons _ _ rest => rest.length + 1

/-- How many fields are extensions. -/
def extCount : Fields → Nat
  | .nil => 0
  | .cons info _ rest => (if info.tag.isExt then 1 else 0) + rest.extCount

/-- Whether each extension is there. -/
def extPresence : (fs : Fields) → fs.Vals → List Bool
  | .nil, _ => []
  | .cons info _ rest, vs =>
    if info.tag.isExt then vs.1.get?.isSome :: rest.extPresence vs.2 else rest.extPresence vs.2

/-- Whether each optional field of the root is there. -/
def optPresence : (fs : Fields) → fs.Vals → List Bool
  | .nil, _ => []
  | .cons info _ rest, vs =>
    if info.tag.isExt = false ∧ info.tag.optional then
      vs.1.get?.isSome :: rest.optPresence vs.2
    else rest.optPresence vs.2

/-- How many of the fields of the root are optional. -/
def optCount : Fields → Nat
  | .nil => 0
  | .cons info _ rest =>
    (if info.tag.isExt = false ∧ info.tag.optional then 1 else 0) + rest.optCount

end Fields

/-! ## Encoding -/

def inField (name : String) (f : Put) : Put := fun p =>
  match f p with
  | .ok p => .ok p
  | .error err => .error (.field name err)

def atIndex (i : Nat) (f : Put) : Put := fun p =>
  match f p with
  | .ok p => .ok p
  | .error err => .error (.index i err)

def putBools : List Bool → Put
  | [] => .skip
  | b :: l => .and (putBits b.toNat 1) (putBools l)

def putAll {α : Type} (f : α → Put) : (i : Nat) → List α → Put
  | _, [] => .skip
  | i, x :: l => .and (atIndex i (f x)) (putAll f (i + 1) l)

def encodeInt (v : Int64) (tag : FieldMeta) : Put :=
  match tag.value with
  | .both lb ub =>
    if tag.valueExt then
      if v < lb ∨ ub < v then .and (putBits 1 1) (putUnconstrainedWhole v.toInt)
      else .and (putBits 0 1) (putConstrainedWhole v.toInt lb.toInt ub.toInt)
    else putConstrainedWhole v.toInt lb.toInt ub.toInt
  | .lower lb => putSemiConstrainedWhole v.toInt lb.toInt
  | .unbounded => putUnconstrainedWhole v.toInt

/-- `marshalFieldToBytes`: what is written to a buffer of its own, and put in an open type. -/
def putInner (f : Put) : Put := fun p =>
  match Put.and f alignToByte (newWriter p.aligned) with
  | .ok w => putOpenType w.buffer p
  | .error err => .error err

def Ty.isStruct : Ty → Bool
  | .bitString | .sequence .. | .choice .. => true
  | _ => false

/-- The value is put in an open type without the index of its alternative. -/
def direct (info : FieldInfo) (t : Ty) : Bool :=
  info.tag.directChoice && !info.nilable && t.isStruct

mutual

def encodeValue : (t : Ty) → FieldMeta → t.Val → Put
  | .bool, _, b => putBits (Bool.toNat b) 1
  | .int, tag, v => encodeInt v tag
  | .string, tag, s => putKMString s 7 tag.sizeExt tag.size
  | .octets, tag, s => putOctetString s tag.sizeExt tag.size
  | .bitString, tag, s => putBitString s tag.sizeExt tag.size
  | .seqOf elem, tag, l =>
    .and (checkSize "SEQUENCE OF" tag.sizeExt tag.size l.length) <|
    .and (putSizeExt tag.sizeExt tag.size l.length) <|
    .and (putLengthDeterminant l.length (rootSize tag.sizeExt tag.size l.length)) <|
      putAll (encodeValue elem {}) 0 l
  | .sequence extensible fields, _, vs =>
    .and
      (if extensible ∨ 0 < fields.extCount then
        putBits (if (fields.extPresence vs).any id then 1 else 0) 1
      else .skip) <|
    .and (putBools (fields.optPresence vs)) <|
    .and (encodeRoot fields vs) <|
      -- the bitmap is written even if the bit before said that there is none
      if 0 < fields.extCount then
        .and (putNormallySmallNonNegative (fields.extCount - 1)) <|
        .and (putBools (fields.extPresence vs)) (encodeExts fields vs)
      else .skip
  | .choice extensible _ alts, _, v =>
    if v.1 ≤ 0 then .fail .noAlternative
    else if (alts.length : Int) < v.1 then .fail (.presentOutOfRange v.1)
    else
      .and (if extensible then putBits 0 1 else .skip) <|
      .and (putConstrainedWhole (v.1 - 1) 0 ((alts.length : Int) - 1)) <|
        encodeAlt alts (v.1 - 1).toNat v.2

/-- The components of the root; a nil pointer is written as nothing. -/
def encodeRoot : (fs : Fields) → fs.Vals → Put
  | .nil, _ => .skip
  | .cons info t rest, vs =>
    .and
      (if info.tag.isExt then .skip
      else
        match vs.1.get? with
        | none =>
          if info.tag.optional = false ∧ info.tag.openType then
            inField info.name (putInner .skip)
          else .skip
        | some x =>
          inField info.name <|
            if info.tag.openType then
              putInner (if direct info t then encodeDirect t x else encodeValue t info.tag x)
            else encodeValue t info.tag x) <|
      encodeRoot rest vs.2

/-- The extensions that are there, each in an open type. -/
def encodeExts : (fs : Fields) → fs.Vals → Put
  | .nil, _ => .skip
  | .cons info t rest, vs =>
    .and
      (if info.tag.isExt then
        match vs.1.get? with
        | none => .skip
        | some x => putInner (encodeValue t info.tag x)
      else .skip) <|
      encodeExts rest vs.2

/-- The alternative of that index. -/
def encodeAlt : (alts : Fields) → Nat → alts.Vals → Put
  | .nil, _, _ => .skip
  | .cons info t _, 0, vs =>
    match vs.1.get? with
    | none => .skip
    | some x => encodeValue t info.tag x
  | .cons _ _ rest, i + 1, vs => encodeAlt rest i vs.2

/-- `marshalDirectChoice`. -/
def encodeDirect : (t : Ty) → t.Val → Put
  | .choice _ _ alts, v =>
    if v.1 ≤ 0 then .fail .noAlternative
    else if (alts.length : Int) < v.1 then .fail (.presentOutOfRange v.1)
    else encodeAlt alts (v.1 - 1).toNat v.2
  | _, _ => .fail .noAlternative

end

/-- `marshalPER` of a pointer. -/
def marshalPER (t : Ty) (v : t.Val) (aligned : Bool) : Except PerErr Bytes :=
  (encodeValue t {} v (newWriter aligned)).map (·.buffer)

/-! ## Decoding -/

def getInField {α : Type} (name : String) (g : Get α) : Get α := fun p =>
  match g p with
  | .error err => .error (.field name err)
  | r => r

def getAtIndex {α : Type} (i : Nat) (g : Get α) : Get α := fun p =>
  match g p with
  | .error err => .error (.index i err)
  | r => r

def getBools : Nat → Get (List Bool)
  | 0 => pure []
  | n + 1 => do
    let b ← getBits 1
    let rest ← getBools n
    pure ((b == 1) :: rest)

def getAll {α : Type} (g : Get α) : (n i : Nat) → Get (List α)
  | 0, _ => pure []
  | n + 1, i => do
    let x ← getAtIndex i g
    let rest ← getAll g n (i + 1)
    pure (x :: rest)

def decodeInt (tag : FieldMeta) : Get Int64 :=
  match tag.value with
  | .both lb ub => do
    let ext ← if tag.valueExt then getBits 1 else pure 0
    let v ← if ext = 1 then getUnconstrainedWhole else getConstrainedWhole lb.toInt ub.toInt
    pure (Int64.ofInt v)
  | .lower lb => do
    let v ← getSemiConstrainedWhole lb.toInt
    pure (Int64.ofInt v)
  | .unbounded => do
    let v ← getUnconstrainedWhole
    pure (Int64.ofInt v)

/-- What is read from the bytes of an open type; what is left of them is not looked at. -/
def getInner {α : Type} (mem : Nat) (g : Get α) : Get α := do
  let inner ← getOpenType mem
  fun p =>
    match g (newReader inner p.aligned) with
    | .ok (x, _) => .ok (x, p)
    | .error err => .error err
    | .panic => .panic

/-- The field `Id` of a struct, as the decoder of a table finds it. -/
inductive IdField where
  | absent
  | int
  | other
deriving DecidableEq

def idKind (info : FieldInfo) : Ty → IdField
  | .int => if info.nilable then .other else .int
  | _ => .other

def Fields.idField : Fields → IdField
  | .nil => .absent
  | .cons info t rest => if info.name = "Id" then idKind info t else rest.idField

def slotInt : (b : Bool) → (t : Ty) → Slot b t.Val → Option Int
  | false, .int, (v : Int64) => some v.toInt
  | _, _, _ => none

/-- The id after a field has been read. -/
def idAfter (info : FieldInfo) (t : Ty) (s : Slot info.nilable t.Val) (id : Int) : Int :=
  if info.name = "Id" then (slotInt info.nilable t s).getD id else id

/-- The alternative for an id; 0 where there is none. -/
def alternativeForID (ids : List (Int × Nat)) (id : Int) : Nat :=
  ((ids.find? fun e => e.1 = id).map (·.2)).getD 0

mutual

def decodeValue (mem : Nat) : (t : Ty) → FieldMeta → Get t.Val
  | .bool, _ => do
    let b ← getBits 1
    pure (b == 1)
  | .int, tag => decodeInt tag
  | .string, tag => getKMString mem 7 tag.sizeExt tag.size
  | .octets, tag => getOctetString mem tag.sizeExt tag.size
  | .bitString, tag => getBitString mem tag.sizeExt tag.size
  | .seqOf elem, tag => do
    let size ← getSizeExt tag.sizeExt tag.size
    let length ← getLengthDeterminant size
    makeSlice mem (toInt length)
    getAll (decodeValue mem elem {}) (toInt length).toNat 0
  | .sequence extensible fields, _ => do
    let ext ← if extensible ∨ 0 < fields.extCount then getBits 1 else pure 0
    let opts ← getBools fields.optCount
    let vs ← decodeRoot mem fields.idField fields opts 0
    if ext = 1 then do
      let n ← getNormallySmallNonNegative
      let n := toInt ((n + 1) % 2 ^ 64)
      makeSlice mem n
      let presence ← getBools n.toNat
      decodeExts mem fields presence vs
    else pure vs
  | .choice extensible _ alts, _ => do
    -- the bit of an extensible choice is thrown away
    if extensible then let _ ← getBits 1
    let idx ← getConstrainedWhole 0 ((alts.length : Int) - 1)
    if idx < 0 then panic
    else do
      let vs ← decodeAlt mem alts idx.toNat
      pure (idx + 1, vs)

/-- The components of the root, with the bits of the optional ones. -/
def decodeRoot (mem : Nat) (kind : IdField) : (fs : Fields) → List Bool → Int → Get fs.Vals
  | .nil, _, _ => pure ()
  | .cons info t rest, opts, id =>
    if info.tag.isExt then do
      let vs ← decodeRoot mem kind rest opts id
      pure (.zero info.nilable t.zero, vs)
    else if info.tag.optional ∧ opts.head? ≠ some true then do
      let vs ← decodeRoot mem kind rest opts.tail (idAfter info t (.zero info.nilable t.zero) id)
      pure (.zero info.nilable t.zero, vs)
    else do
      let x ← getInField info.name <|
        if info.tag.openType then
          getInner mem <|
            if direct info t then (if kind = .other then panic else decodeDirect mem t id)
            else decodeValue mem t info.tag
        else decodeValue mem t info.tag
      let vs ← decodeRoot mem kind rest (if info.tag.optional then opts.tail else opts)
        (idAfter info t (.full info.nilable x) id)
      pure (.full info.nilable x, vs)

/-- The extensions that the bitmap says are there. -/
def decodeExts (mem : Nat) : (fs : Fields) → List Bool → fs.Vals → Get fs.Vals
  | .nil, _, _ => pure ()
  | .cons info t rest, presence, vs =>
    if info.tag.isExt then
      if presence.head? = some true then do
        let x ← getInner mem (decodeValue mem t info.tag)
        let rest ← decodeExts mem rest presence.tail vs.2
        pure (.full info.nilable x, rest)
      else do
        let rest ← decodeExts mem rest presence.tail vs.2
        pure (vs.1, rest)
    else do
      let rest ← decodeExts mem rest presence vs.2
      pure (vs.1, rest)

/-- The alternative of that index; there may be none. -/
def decodeAlt (mem : Nat) : (alts : Fields) → Nat → Get alts.Vals
  | .nil, _ => panic
  | .cons info t rest, 0 => do
    let x ← decodeValue mem t info.tag
    pure (.full info.nilable x, rest.zeros)
  | .cons info t rest, i + 1 => do
    let vs ← decodeAlt mem rest i
    pure (.zero info.nilable t.zero, vs)

/-- `decodeDirectChoice`. -/
def decodeDirect (mem : Nat) : (t : Ty) → Int → Get t.Val
  | .choice _ (some ids) alts, id =>
    let present := alternativeForID ids id
    if present = 0 then fail (.noAlternativeForID id)
    else if alts.length < present then fail (.presentOutOfRange present)
    else do
      let vs ← decodeAlt mem alts (present - 1)
      pure ((present : Int), vs)
  | _, _ => fail .noChooser

end

/-- `unmarshalPER` into a zero value. -/
def unmarshalPER (mem : Nat) (t : Ty) (b : Bytes) (aligned : Bool) : Outcome (t.Val × PerBitData) :=
  decodeValue mem t {} (newReader b aligned)

end MmtCore.Asn1
