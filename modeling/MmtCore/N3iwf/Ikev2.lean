import MmtCore.Pfcp.Header

/-!
# The IKEv2 codec

The `ikev2` package of the N3IWF: the fixed header, the chain of payloads, and the payloads its
handlers read and write.  A parser answers `none` where the code answers an error.  The loops over
a buffer take its length as fuel; every turn consumes a byte at least.
-/

namespace MmtCore.N3iwf

open MmtCore.Pfcp (beNat beBytes)

abbrev Bytes := List UInt8

/-- The big-endian number in `n` bytes at an offset. -/
def Bytes.beAt (buf : Bytes) (off n : Nat) : Nat := beNat ((buf.drop off).take n)

/-! ## Constants -/

def exchangeIKESAInit : UInt8 := 34
def exchangeIKEAuth : UInt8 := 35
def exchangeCreateChildSA : UInt8 := 36
def exchangeInformational : UInt8 := 37

def payloadNone : UInt8 := 0
def payloadSA : UInt8 := 33
def payloadKE : UInt8 := 34
def payloadIDi : UInt8 := 35
def payloadIDr : UInt8 := 36
def payloadAUTH : UInt8 := 39
def payloadNonce : UInt8 := 40
def payloadNotify : UInt8 := 41
def payloadDelete : UInt8 := 42
def payloadTSi : UInt8 := 44
def payloadTSr : UInt8 := 45
def payloadSK : UInt8 := 46
def payloadCP : UInt8 := 47
def payloadEAP : UInt8 := 48

def flagInitiator : UInt8 := 8
def flagResponse : UInt8 := 32

def headerLen : Nat := 28
def payloadHeaderLen : Nat := 4
def versionByte : UInt8 := 0x20

/-! ## The header -/

structure Header where
  spii : UInt64
  spir : UInt64
  nextPayload : UInt8
  version : UInt8
  exchangeType : UInt8
  flags : UInt8
  messageID : UInt32
  length : UInt32
deriving DecidableEq

def Header.isInitiator (h : Header) : Bool := h.flags &&& flagInitiator != 0

def Header.isResponse (h : Header) : Bool := h.flags &&& flagResponse != 0

/-- `ParseHeader`. -/
def parseHeader (buf : Bytes) : Option Header :=
  if buf.length < headerLen then none
  else
    let h : Header :=
      { spii := UInt64.ofNat (buf.beAt 0 8)
        spir := UInt64.ofNat (buf.beAt 8 8)
        nextPayload := buf.getD 16 0
        version := buf.getD 17 0
        exchangeType := buf.getD 18 0
        flags := buf.getD 19 0
        messageID := UInt32.ofNat (buf.beAt 20 4)
        length := UInt32.ofNat (buf.beAt 24 4) }
    if h.spii = 0 then none else some h

/-- `MarshalHeader`. -/
def marshalHeader (h : Header) : Bytes :=
  beBytes 8 h.spii.toNat ++ beBytes 8 h.spir.toNat ++
    [h.nextPayload, if h.version = 0 then versionByte else h.version, h.exchangeType, h.flags] ++
    beBytes 4 h.messageID.toNat ++ beBytes 4 h.length.toNat

/-! ## The payload chain -/

structure Payload where
  type : UInt8
  critical : Bool
  data : Bytes
deriving DecidableEq

/-- A payload as the handlers build it, not critical. -/
def Payload.of (type : UInt8) (data : Bytes) : Payload :=
  { type := type, critical := false, data := data }

/-- The loop of `ParsePayloads`; `buf` is what is left of the buffer. -/
def parsePayloadsLoop : Nat → Bytes → UInt8 → Option (List Payload)
  | 0, _, _ => none
  | fuel + 1, buf, pt =>
    if pt = payloadNone then some []
    else if buf.length < payloadHeaderLen then none
    else
      let critByte := buf.getD 1 0
      let plLen := buf.beAt 2 2
      if critByte &&& 0x7F != 0 then none
      else if plLen < payloadHeaderLen then none
      else if buf.length < plLen then none
      else
        (parsePayloadsLoop fuel (buf.drop plLen) (buf.getD 0 0)).map
          ({ type := pt
             critical := critByte &&& 0x80 != 0
             data := (buf.take plLen).drop payloadHeaderLen } :: ·)

/-- `ParsePayloads`. -/
def parsePayloads (buf : Bytes) (firstType : UInt8) : Option (List Payload) :=
  parsePayloadsLoop (buf.length + 1) buf firstType

/-- `marshalOne`. -/
def marshalOne (p : Payload) (next : UInt8) : Bytes :=
  [next, if p.critical then 0x80 else 0] ++ beBytes 2 (payloadHeaderLen + p.data.length) ++ p.data

/-- The type of the first payload of a chain. -/
def firstType : List Payload → UInt8
  | [] => payloadNone
  | p :: _ => p.type

/-- `MarshalPayloads`; the type it returns as well is `firstType`. -/
def marshalPayloads : List Payload → Bytes
  | [] => []
  | p :: ps => marshalOne p (firstType ps) ++ marshalPayloads ps

/-- `Find`, and the body of what it finds. -/
def findPayload (payloads : List Payload) (t : UInt8) : Option Bytes :=
  (payloads.find? (·.type == t)).map (·.data)

/-! ## Simple payloads -/

/-- `KE`. -/
structure KE where
  dhGroup : UInt16
  pub : Bytes
deriving DecidableEq

def KE.marshal (k : KE) : Bytes := beBytes 2 k.dhGroup.toNat ++ [0, 0] ++ k.pub

def parseKE (buf : Bytes) : Option KE :=
  if buf.length < 4 then none
  else some { dhGroup := UInt16.ofNat (buf.beAt 0 2), pub := buf.drop 4 }

/-- `ID` and `Auth`: one octet of type or method, three reserved, data. -/
structure TypedBody where
  type : UInt8
  data : Bytes
deriving DecidableEq

def TypedBody.marshal (b : TypedBody) : Bytes := [b.type, 0, 0, 0] ++ b.data

/-- `ParseID` and `ParseAuth`. -/
def parseTypedBody (buf : Bytes) : Option TypedBody :=
  if buf.length < 4 then none else some { type := buf.getD 0 0, data := buf.drop 4 }

def idTypeFQDN : UInt8 := 2
def authSharedKeyMIC : UInt8 := 2

def parseID (buf : Bytes) : Option TypedBody := parseTypedBody buf

def parseAuth (buf : Bytes) : Option TypedBody := parseTypedBody buf

def parseNonce (buf : Bytes) : Option Bytes :=
  if buf.length < 16 ∨ 256 < buf.length then none else some buf

/-! ## Notify and Delete -/

inductive NotifyType
  | unspecified | invalidSyntax | noProposalChosen | invalidKEPayload | authenticationFailed
  | internalAddressFailure
deriving DecidableEq

def NotifyType.code : NotifyType → Nat
  | .unspecified => 0
  | .invalidSyntax => 7
  | .noProposalChosen => 14
  | .invalidKEPayload => 17
  | .authenticationFailed => 24
  | .internalAddressFailure => 36

/-- `Notify.Marshal`, with no protocol, SPI or data. -/
def NotifyType.marshal (t : NotifyType) : Bytes := [0, 0] ++ beBytes 2 t.code

def protocolIKE : UInt8 := 1
def protocolAH : UInt8 := 2
def protocolESP : UInt8 := 3

structure Delete where
  protocolID : UInt8
  spis : List Bytes
deriving DecidableEq

def parseDelete (buf : Bytes) : Option Delete :=
  if buf.length < 4 then none
  else
    let protocolID := buf.getD 0 0
    let spiSize := buf.getD 1 0
    let num := buf.beAt 2 2
    if protocolID = protocolIKE then
      if spiSize ≠ 0 then none
      else if num ≠ 0 then none
      else some { protocolID := protocolID, spis := [] }
    else if protocolID = protocolAH ∨ protocolID = protocolESP then
      if spiSize ≠ 4 then none
      else if buf.length < 4 + num * 4 then none
      else some
        { protocolID := protocolID
          spis := (List.range num).map fun i => (buf.drop (4 + i * 4)).take 4 }
    else none

/-! ## Security associations -/

structure Attribute where
  type : UInt16
  isTV : Bool
  value : Bytes
  tvValue : UInt16
deriving DecidableEq

def attrKeyLength : UInt16 := 14

structure Transform where
  type : UInt8
  id : UInt16
  attributes : List Attribute
deriving DecidableEq

structure Proposal where
  num : UInt8
  protocolID : UInt8
  spi : Bytes
  transforms : List Transform
deriving DecidableEq

def transformENCR : UInt8 := 1
def transformPRF : UInt8 := 2
def transformINTEG : UInt8 := 3
def transformDH : UInt8 := 4
def transformESN : UInt8 := 5

def encrAESCBC : UInt16 := 12
def prfHMACSHA1 : UInt16 := 2
def prfHMACSHA256 : UInt16 := 5
def integHMACSHA1_96 : UInt16 := 2
def integHMACSHA256_128 : UInt16 := 12
def dhMODP2048 : UInt16 := 14
def dhMODP3072 : UInt16 := 15
def esnNone : UInt16 := 0

def lastSubstrucEnd : UInt8 := 0
def lastSubstrucMoreProposal : UInt8 := 2
def lastSubstrucMoreTransform : UInt8 := 3

/-- `parseAttr`, and what follows the attribute. -/
def parseAttr (buf : Bytes) : Option (Attribute × Bytes) :=
  if buf.length < 4 then none
  else
    let rawType := buf.beAt 0 2
    let type := UInt16.ofNat (rawType % 0x8000)
    let v := buf.beAt 2 2
    if 0x8000 ≤ rawType then
      some ({ type := type, isTV := true, value := [], tvValue := UInt16.ofNat v }, buf.drop 4)
    else if buf.length < 4 + v then none
    else
      some ({ type := type, isTV := false, value := (buf.drop 4).take v, tvValue := 0 },
        buf.drop (4 + v))

/-- The attributes that fill a buffer. -/
def parseAttrs : Nat → Bytes → Option (List Attribute)
  | 0, _ => none
  | fuel + 1, buf =>
    if buf.isEmpty then some []
    else
      match parseAttr buf with
      | none => none
      | some (a, rest) => (parseAttrs fuel rest).map (a :: ·)

/-- `parseTransform`: the transform, its last-substructure octet and its length. -/
def parseTransform (buf : Bytes) : Option (Transform × UInt8 × Nat) :=
  if buf.length < 8 then none
  else
    let tlen := buf.beAt 2 2
    if tlen < 8 ∨ buf.length < tlen then none
    else
      (parseAttrs (tlen + 1) ((buf.take tlen).drop 8)).map fun attrs =>
        ({ type := buf.getD 4 0, id := UInt16.ofNat (buf.beAt 6 2), attributes := attrs },
          buf.getD 0 0, tlen)

/-- `numTrans` transforms in a row. -/
def parseTransforms : Nat → Bytes → Option (List Transform)
  | 0, _ => some []
  | numTrans + 1, buf =>
    if buf.isEmpty then none
    else
      match parseTransform buf with
      | none => none
      | some (t, tlast, adv) =>
        if tlast ≠ (if numTrans = 0 then lastSubstrucEnd else lastSubstrucMoreTransform) then none
        else (parseTransforms numTrans (buf.drop adv)).map (t :: ·)

/-- `parseProposal`: the proposal, its last-substructure octet and its length. -/
def parseProposal (buf : Bytes) : Option (Proposal × UInt8 × Nat) :=
  if buf.length < 8 then none
  else
    let plen := buf.beAt 2 2
    if plen < 8 ∨ buf.length < plen then none
    else
      let spiSize := (buf.getD 6 0).toNat
      if plen < 8 + spiSize then none
      else
        (parseTransforms (buf.getD 7 0).toNat ((buf.take plen).drop (8 + spiSize))).map
          fun transforms =>
            ({ num := buf.getD 4 0
               protocolID := buf.getD 5 0
               spi := (buf.drop 8).take spiSize
               transforms := transforms },
              buf.getD 0 0, plen)

/-- The loop of `ParseSA`; `buf` is what is left of the buffer. -/
def parseSALoop : Nat → Bytes → Option (List Proposal)
  | 0, _ => none
  | fuel + 1, buf =>
    if buf.isEmpty then some []
    else
      match parseProposal buf with
      | none => none
      | some (p, last, advance) =>
        if last = lastSubstrucEnd then some [p]
        else if last ≠ lastSubstrucMoreProposal then none
        else (parseSALoop fuel (buf.drop advance)).map (p :: ·)

/-- `ParseSA`. -/
def parseSA (buf : Bytes) : Option (List Proposal) := parseSALoop (buf.length + 1) buf

def marshalAttr (a : Attribute) : Bytes :=
  if a.isTV then
    beBytes 2 (a.type.toNat % 0x8000 + 0x8000) ++ beBytes 2 a.tvValue.toNat
  else beBytes 2 (a.type.toNat % 0x8000) ++ beBytes 2 a.value.length ++ a.value

def marshalTransform (t : Transform) (last : UInt8) : Bytes :=
  let attrs := (t.attributes.map marshalAttr).flatten
  [last, 0] ++ beBytes 2 (8 + attrs.length) ++ [t.type, 0] ++ beBytes 2 t.id.toNat ++ attrs

def marshalTransforms : List Transform → Bytes
  | [] => []
  | [t] => marshalTransform t lastSubstrucEnd
  | t :: ts => marshalTransform t lastSubstrucMoreTransform ++ marshalTransforms ts

/-- `SA.Marshal` of a single proposal. -/
def Proposal.marshal (p : Proposal) : Bytes :=
  let trans := marshalTransforms p.transforms
  [lastSubstrucEnd, 0] ++ beBytes 2 (8 + p.spi.length + trans.length) ++
    [p.num, p.protocolID, UInt8.ofNat p.spi.length, UInt8.ofNat p.transforms.length] ++
    p.spi ++ trans

/-! ## Configuration -/

/-- `CP.Marshal` of a CFG_REPLY with one INTERNAL_IP4_ADDRESS. -/
def marshalCFGReply (v4 : UInt32) : Bytes :=
  [2, 0, 0, 0] ++ beBytes 2 1 ++ beBytes 2 4 ++ beBytes 4 v4.toNat

end MmtCore.N3iwf
