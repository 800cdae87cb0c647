import MmtCore.N3iwf.Ikev2

/-!
# EAP-5G

The `eap5g` package: the parser of the packets a UE sends inside IKE_AUTH, and the packets the
N3IWF answers with.
-/

namespace MmtCore.N3iwf

open MmtCore.Pfcp (beNat beBytes)

def codeRequest : UInt8 := 1
def codeSuccess : UInt8 := 3
def typeExpanded : UInt8 := 254
def vendorID3GPP : Nat := 10415
def vendorTypeEAP5G : Nat := 3

def msgIDStart : UInt8 := 1
def msgIDNAS : UInt8 := 2
def msgIDNotification : UInt8 := 3
def msgIDStop : UInt8 := 4

def expandedHeaderLen : Nat := 12

/-- The code and identifier, the length still open, and the expanded type of EAP-5G. -/
def fixedPrefix12 (code identifier : UInt8) (length : Nat) : Bytes :=
  [code, identifier] ++ beBytes 2 length ++ [typeExpanded] ++ beBytes 3 vendorID3GPP ++
    beBytes 4 vendorTypeEAP5G

/-- `buildEAP5GStart`. -/
def buildEAP5GStart (identifier : UInt8) : Bytes :=
  fixedPrefix12 codeRequest identifier 14 ++ [msgIDStart, 0]

/-- `Build5GNASRequest`. -/
def build5GNASRequest (identifier : UInt8) (nasPDU : Bytes) : Bytes :=
  fixedPrefix12 codeRequest identifier (16 + nasPDU.length) ++ [msgIDNAS, 0] ++
    beBytes 2 nasPDU.length ++ nasPDU

/-- `BuildEAPSuccess`. -/
def buildEAPSuccess (identifier : UInt8) : Bytes := [codeSuccess, identifier, 0, 4]

/-- `Response`, the fields the handler reads. -/
structure Response where
  messageID : UInt8
  nasPDU : Bytes
deriving DecidableEq

/-- `decodeANParameters`, whether it succeeds. -/
def anParametersOk : Nat → Bytes → Bool
  | 0, _ => false
  | fuel + 1, buf =>
    if buf.isEmpty then true
    else if buf.length < 2 then false
    else
      let l := (buf.getD 1 0).toNat
      if buf.length < 2 + l then false else anParametersOk fuel (buf.drop (2 + l))

/-- A block of AN parameters with its two-octet length; what follows it. -/
def skipANParameters (body : Bytes) : Option Bytes :=
  let anLen := body.beAt 0 2
  if body.length < 2 + anLen then none
  else if !anParametersOk (anLen + 1) ((body.drop 2).take anLen) then none
  else some (body.drop (2 + anLen))

/-- `parse5GNAS`, from the spare octet on: the NAS PDU. -/
def parse5GNAS (body : Bytes) : Option Bytes :=
  if body.length < 3 then none
  else
    match skipANParameters (body.drop 1) with
    | none => none
    | some rest =>
      if rest.length < 2 then none
      else
        let nasLen := rest.beAt 0 2
        if rest.length < 2 + nasLen then none
        else
          let tail := rest.drop (2 + nasLen)
          -- the extended AN parameters are there if two more octets are
          if 2 ≤ tail.length ∧ (skipANParameters tail).isNone then none
          else some ((rest.drop 2).take nasLen)

/-- `parse5GNASRequest`. -/
def parse5GNASRequest (body : Bytes) : Option Bytes :=
  if body.length < 3 then none
  else
    let nasLen := body.beAt 1 2
    if body.length < 3 + nasLen then none else some ((body.drop 3).take nasLen)

/-- `Parse`. -/
def parseEAP5G (buf : Bytes) : Option Response :=
  if buf.length < expandedHeaderLen + 1 then none
  else if buf.beAt 2 2 ≠ buf.length then none
  else if buf.getD 4 0 ≠ typeExpanded then none
  else if buf.beAt 5 3 ≠ vendorID3GPP then none
  else if buf.beAt 8 4 ≠ vendorTypeEAP5G then none
  else
    let messageID := buf.getD 12 0
    let body := buf.drop 13
    if messageID = msgIDStart ∨ messageID = msgIDStop then
      if body.isEmpty then none else some { messageID := messageID, nasPDU := [] }
    else if messageID = msgIDNAS then
      (if buf.getD 0 0 = codeRequest then parse5GNASRequest body else parse5GNAS body).map
        fun nas => { messageID := messageID, nasPDU := nas }
    else if messageID = msgIDNotification then
      if body.length < 3 then none
      else (skipANParameters (body.drop 1)).map fun _ => { messageID := messageID, nasPDU := [] }
    else none

end MmtCore.N3iwf
