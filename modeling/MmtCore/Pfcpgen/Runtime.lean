import MmtCore.Nas.Elements
import MmtCore.Pfcp.Header

/-!
# The runtime of the PFCP codec

The information elements that `runtime/types.go` codes by hand: what a value is, the bytes it is
encoded to, and what bytes decode to.  A decoder writes into the value that is there, so that a part
that the bytes do not carry keeps what it had.
-/

namespace MmtCore.Pfcpgen

open MmtCore.Lib MmtCore.Pfcp

abbrev Bytes := List UInt8

inductive CodecErr where
  | bufferTooShort
  | invalidLength
  | invalidMessageType
  | unknownNodeIDType (type : UInt8)
  /-- What `ParseHeader` returns. -/
  | header
  /-- `DecodeError`. -/
  | decodeError (messageType ieName : String) (ieType : UInt16) (offset : Nat) (err : CodecErr)
deriving DecidableEq

/-- So many bytes of the front, after the check of the length. -/
def take (n : Nat) (v : Bytes) : Except CodecErr (Bytes × Bytes) :=
  match takeBytes n v with
  | none => .error .bufferTooShort
  | some r => .ok r

/-- The same where a flag asks for it. -/
def takeIf (c : Bool) (n : Nat) (v : Bytes) : Except CodecErr (Option Bytes × Bytes) :=
  if c then (take n v).map fun r => (some r.1, r.2) else .ok (none, v)

/-! ## Addresses -/

def v4InV6Prefix : Bytes := [0, 0, 0, 0, 0, 0, 0, 0, 0, 0, 0xFF, 0xFF]

/-- An IPv4 address in sixteen bytes. -/
def IsMapped (b : Bytes) : Prop := b.length = 16 ∧ b.take 12 = v4InV6Prefix
  deriving Decidable

/-- A `net.IP`, as `Equal` tells them apart: an IPv4 address is the same in four and in sixteen
bytes. -/
structure IP where
  bytes : Bytes
  short : ¬IsMapped bytes
deriving DecidableEq

namespace IP

def ofSlice (b : Bytes) : IP :=
  if h : IsMapped b then
    ⟨b.drop 12, fun hd => by
      have hlen := hd.1
      have hb := h.1
      rw [List.length_drop] at hlen
      omega⟩
  else ⟨b, h⟩

/-- What `append` takes from `To4`, which is nil for other addresses. -/
def to4 (ip : IP) : Bytes := if ip.bytes.length = 4 then ip.bytes else []

def to16 (ip : IP) : Bytes :=
  if ip.bytes.length = 4 then v4InV6Prefix ++ ip.bytes
  else if ip.bytes.length = 16 then ip.bytes
  else []

end IP

/-- The bytes of an address that may be nil. -/
def put4 (ip : Option IP) : Bytes := (ip.map IP.to4).getD []

def put16 (ip : Option IP) : Bytes := (ip.map IP.to16).getD []

/-! ## Digits and names -/

def IsDigit (c : UInt8) : Prop := 48 ≤ c ∧ c ≤ 57
  deriving Decidable

/-- `EncodeTBCD`; `none` is the error. -/
def encodeTBCD : Bytes → Option Bytes
  | [] => some []
  | [a] => if IsDigit a then some [0xF0 ||| (a - 48)] else none
  | a :: b :: rest =>
    if IsDigit a ∧ IsDigit b then
      (encodeTBCD rest).map (((b - 48) <<< 4 ||| (a - 48)) :: ·)
    else none

def decodeTBCD : Bytes → Bytes
  | [] => []
  | x :: rest =>
    if x &&& 0x0F = 0x0F then []
    else if x >>> 4 = 0x0F then [(48 : UInt8) + (x &&& 0x0F)]
    else ((48 : UInt8) + (x &&& 0x0F)) :: ((48 : UInt8) + (x >>> 4)) :: decodeTBCD rest

/-- `encodeFQDN` and `APNDNN.Encode` are one loop, which is also the one of the NAS. -/
def encodeFQDN (name : Bytes) : Bytes := Nas.encodeDNN name

/-- The labels up to the first that is not whole; the fuel is the number of bytes. -/
def fqdnLabels : Nat → Bytes → List Bytes
  | _, [] => []
  | 0, _ :: _ => []
  | fuel + 1, n :: rest =>
    if n = 0 ∨ rest.length < n.toNat then []
    else rest.take n.toNat :: fqdnLabels fuel (rest.drop n.toNat)

def decodeFQDN (b : Bytes) : Bytes := [0x2E].intercalate (fqdnLabels b.length b)

/-! ## F-SEID -/

structure FSEID where
  seid : UInt64 := 0
  ipv4 : Option IP := none
  ipv6 : Option IP := none
deriving DecidableEq

namespace FSEID

def flags (v4 v6 : Bool) : UInt8 := (if v4 then 0x02 else 0) ||| (if v6 then 0x01 else 0)

def encode (f : FSEID) : Bytes :=
  flags f.ipv4.isSome f.ipv6.isSome :: beBytes 8 f.seid.toNat ++ put4 f.ipv4 ++ put16 f.ipv6

def decode (f : FSEID) (v : Bytes) : Except CodecErr FSEID := do
  let (head, v) ← take 9 v
  let flags := head.headD 0
  let (v4, v) ← takeIf (flags &&& 0x02 != 0) 4 v
  let (v6, _) ← takeIf (flags &&& 0x01 != 0) 16 v
  pure
    { seid := UInt64.ofNat (beNat head.tail)
      ipv4 := (v4.map IP.ofSlice).or f.ipv4
      ipv6 := (v6.map IP.ofSlice).or f.ipv6 }

end FSEID

/-! ## Node ID -/

structure NodeID where
  type : UInt8 := 0
  ipv4 : Option IP := none
  ipv6 : Option IP := none
  fqdn : Bytes := []
deriving DecidableEq

namespace NodeID

def encode (n : NodeID) : Bytes :=
  (n.type &&& 0x0F) ::
    (if n.type = 0 then put4 n.ipv4
    else if n.type = 1 then put16 n.ipv6
    else if n.type = 2 then encodeFQDN n.fqdn
    else [])

def decode (n : NodeID) : Bytes → Except CodecErr NodeID
  | [] => .error .bufferTooShort
  | b :: v =>
    let type := b &&& 0x0F
    if type = 0 then do
      let (a, _) ← take 4 v
      pure { n with type, ipv4 := some (.ofSlice a) }
    else if type = 1 then do
      let (a, _) ← take 16 v
      pure { n with type, ipv6 := some (.ofSlice a) }
    else if type = 2 then .ok { n with type, fqdn := decodeFQDN v }
    else .error (.unknownNodeIDType type)

end NodeID

/-! ## F-TEID -/

structure FTEID where
  teid : UInt32 := 0
  ipv4 : Option IP := none
  ipv6 : Option IP := none
  ch : Bool := false
  chid : Bool := false
  id : UInt8 := 0
deriving DecidableEq

namespace FTEID

def flags (v4 v6 ch chid : Bool) : UInt8 :=
  (if v4 then 0x01 else 0) ||| (if v6 then 0x02 else 0) ||| (if ch then 0x04 else 0) |||
    (if chid then 0x08 else 0)

def encode (f : FTEID) : Bytes :=
  flags f.ipv4.isSome f.ipv6.isSome f.ch f.chid ::
    (if f.ch then (if f.chid then [f.id] else [])
    else beBytes 4 f.teid.toNat ++ put4 f.ipv4 ++ put16 f.ipv6)

def decode (f : FTEID) : Bytes → Except CodecErr FTEID
  | [] => .error .bufferTooShort
  | flags :: v =>
    let f := { f with ch := flags &&& 0x04 != 0, chid := flags &&& 0x08 != 0 }
    if f.ch then do
      let (id, _) ← takeIf f.chid 1 v
      pure { f with id := (id.map fun b => b.headD 0).getD f.id }
    else do
      let (teid, v) ← take 4 v
      let (v4, v) ← takeIf (flags &&& 0x01 != 0) 4 v
      let (v6, _) ← takeIf (flags &&& 0x02 != 0) 16 v
      pure { f with
        teid := UInt32.ofNat (beNat teid)
        ipv4 := (v4.map IP.ofSlice).or f.ipv4
        ipv6 := (v6.map IP.ofSlice).or f.ipv6 }

end FTEID

/-! ## UE IP address -/

structure UEIPAddress where
  ipv4 : Option IP := none
  ipv6 : Option IP := none
  sourceOrDestination : Bool := false
  ipv6PrefixDelegationBits : Option UInt8 := none
  ipv6PrefixLength : Option UInt8 := none
  chooseV4 : Bool := false
  chooseV6 : Bool := false
deriving DecidableEq

namespace UEIPAddress

def flags (v6 v4 sd ipv6D chv4 chv6 ip6PL : Bool) : UInt8 :=
  (if v6 then 0x01 else 0) ||| (if v4 then 0x02 else 0) ||| (if sd then 0x04 else 0) |||
    (if ipv6D then 0x08 else 0) ||| (if chv4 then 0x10 else 0) ||| (if chv6 then 0x20 else 0) |||
    (if ip6PL then 0x40 else 0)

def encode (u : UEIPAddress) : Bytes :=
  flags u.ipv6.isSome u.ipv4.isSome u.sourceOrDestination u.ipv6PrefixDelegationBits.isSome
      u.chooseV4 u.chooseV6 u.ipv6PrefixLength.isSome ::
    (put4 u.ipv4 ++ put16 u.ipv6 ++ u.ipv6PrefixDelegationBits.toList ++ u.ipv6PrefixLength.toList)

def decode (u : UEIPAddress) : Bytes → Except CodecErr UEIPAddress
  | [] => .error .bufferTooShort
  | flags :: v => do
    let (v4, v) ← takeIf (flags &&& 0x02 != 0) 4 v
    let (v6, v) ← takeIf (flags &&& 0x01 != 0) 16 v
    let (bits, v) ← takeIf (flags &&& 0x08 != 0) 1 v
    let (len, _) ← takeIf (flags &&& 0x40 != 0) 1 v
    pure
      { ipv4 := (v4.map IP.ofSlice).or u.ipv4
        ipv6 := (v6.map IP.ofSlice).or u.ipv6
        sourceOrDestination := flags &&& 0x04 != 0
        ipv6PrefixDelegationBits := (bits.map fun b => b.headD 0).or u.ipv6PrefixDelegationBits
        ipv6PrefixLength := (len.map fun b => b.headD 0).or u.ipv6PrefixLength
        chooseV4 := flags &&& 0x10 != 0
        chooseV6 := flags &&& 0x20 != 0 }

end UEIPAddress

/-! ## Outer header creation -/

structure OuterHeaderCreation where
  description : UInt16 := 0
  teid : UInt32 := 0
  ipv4 : Option IP := none
  ipv6 : Option IP := none
  port : UInt16 := 0
  ctag : Bytes := []
  stag : Bytes := []
deriving DecidableEq

namespace OuterHeaderCreation

def ohcDescGTPUUDPIPv4 : UInt16 := 0x01
def ohcDescGTPUUDPIPv6 : UInt16 := 0x02
def ohcDescUDPIPv4 : UInt16 := 0x04
def ohcDescUDPIPv6 : UInt16 := 0x08
def ohcDescIPv4 : UInt16 := 0x10
def ohcDescIPv6 : UInt16 := 0x20
def ohcDescCTAG : UInt16 := 0x40
def ohcDescSTAG : UInt16 := 0x80

/-! What a description asks for. -/

def hasTEID (d : UInt16) : Bool := d &&& (ohcDescGTPUUDPIPv4 ||| ohcDescGTPUUDPIPv6) != 0

def hasIPv4 (d : UInt16) : Bool :=
  d &&& (ohcDescGTPUUDPIPv4 ||| ohcDescUDPIPv4 ||| ohcDescIPv4) != 0

def hasIPv6 (d : UInt16) : Bool :=
  d &&& (ohcDescGTPUUDPIPv6 ||| ohcDescUDPIPv6 ||| ohcDescIPv6) != 0

def hasPort (d : UInt16) : Bool := d &&& (ohcDescUDPIPv4 ||| ohcDescUDPIPv6) != 0

def hasCTAG (d : UInt16) : Bool := d &&& ohcDescCTAG != 0

def hasSTAG (d : UInt16) : Bool := d &&& ohcDescSTAG != 0

/-- A tag of fewer than three bytes is left out. -/
def putTag (tag : Bytes) : Bytes := if 3 ≤ tag.length then tag.take 3 else []

def encode (o : OuterHeaderCreation) : Bytes :=
  [o.description.toUInt8, (o.description >>> 8).toUInt8] ++
    (if hasTEID o.description then beBytes 4 o.teid.toNat else []) ++
    (if hasIPv4 o.description then put4 o.ipv4 else []) ++
    (if hasIPv6 o.description then put16 o.ipv6 else []) ++
    (if hasPort o.description then beBytes 2 o.port.toNat else []) ++
    (if hasCTAG o.description then putTag o.ctag else []) ++
    (if hasSTAG o.description then putTag o.stag else [])

def decode (o : OuterHeaderCreation) : Bytes → Except CodecErr OuterHeaderCreation
  | a :: b :: v => do
    let d := a.toUInt16 ||| (b.toUInt16 <<< 8)
    let (teid, v) ← takeIf (hasTEID d) 4 v
    let (v4, v) ← takeIf (hasIPv4 d) 4 v
    let (v6, v) ← takeIf (hasIPv6 d) 16 v
    let (port, v) ← takeIf (hasPort d) 2 v
    let (ctag, v) ← takeIf (hasCTAG d) 3 v
    let (stag, _) ← takeIf (hasSTAG d) 3 v
    pure
      { description := d
        teid := (teid.map fun b => UInt32.ofNat (beNat b)).getD o.teid
        ipv4 := (v4.map IP.ofSlice).or o.ipv4
        ipv6 := (v6.map IP.ofSlice).or o.ipv6
        port := (port.map fun b => UInt16.ofNat (beNat b)).getD o.port
        ctag := ctag.getD o.ctag
        stag := stag.getD o.stag }
  | _ => .error .bufferTooShort

end OuterHeaderCreation

/-! ## Bit rates and access point names -/

/-- `MBR`, which is also `GBR`. -/
structure MBR where
  ul : UInt64 := 0
  dl : UInt64 := 0
deriving DecidableEq

/-- Higher values saturate. -/
def encU40BE (v : UInt64) : Bytes := beBytes 5 (min v.toNat (2 ^ 40 - 1))

namespace MBR

def encode (m : MBR) : Bytes := encU40BE m.ul ++ encU40BE m.dl

def decode (v : Bytes) : Except CodecErr MBR := do
  let (ul, v) ← take 5 v
  let (dl, _) ← take 5 v
  pure { ul := UInt64.ofNat (beNat ul), dl := UInt64.ofNat (beNat dl) }

end MBR

structure APNDNN where
  value : Bytes := []
deriving DecidableEq

namespace APNDNN

def encode (a : APNDNN) : Bytes := Nas.encodeDNN a.value

def decode (v : Bytes) : Except CodecErr APNDNN :=
  match Nas.dnnLabels v.length v with
  | none => .error .invalidLength
  | some parts => .ok { value := [0x2E].intercalate parts }

end APNDNN

end MmtCore.Pfcpgen
