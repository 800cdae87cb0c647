import Mathlib.Algebra.Group.Nat.Defs
import Mathlib.Tactic.Common

/-!
# The PFCP header

The header codec of `pfcpgen` and the numbering of the messages.  Requests and responses have types
of their own; the header says nothing else about the direction of a message.
-/

namespace MmtCore.Pfcp

open List UInt8 Nat

/-- `runtime.Header`. -/
structure Header where
  version : UInt8
  followOn : Bool
  messagePriority : Bool
  hasSEID : Bool
  messageType : UInt8
  length : UInt16
  seid : UInt64
  sequenceNumber : UInt32
  priority : UInt8
deriving DecidableEq

/-- A big-endian number. -/
def beNat (bs : List UInt8) : Nat := bs.foldl (fun n b => n * 256 + b.toNat) 0

/-- `ParseHeader`, and what is left after the header; `none` is an error. -/
def parseHeader (data : List UInt8) : Option (Header × List UInt8) :=
  if data.length < 8 then none
  else
    match data with
    | flags :: messageType :: l₁ :: l₂ :: rest =>
      let h : Header :=
        { version := (flags >>> 5) &&& 7
          followOn := flags &&& 4 != 0
          messagePriority := flags &&& 2 != 0
          hasSEID := flags &&& 1 != 0
          messageType := messageType
          length := UInt16.ofNat (beNat [l₁, l₂])
          seid := 0
          sequenceNumber := 0
          priority := 0 }
      if h.version != 1 then none
      else if h.hasSEID && rest.length < 8 then none
      else
        let seid := if h.hasSEID then UInt64.ofNat (beNat (rest.take 8)) else 0
        match if h.hasSEID then rest.drop 8 else rest with
        | s₁ :: s₂ :: s₃ :: p :: payload =>
          some ({ h with
            seid := seid
            sequenceNumber := UInt32.ofNat (beNat [s₁, s₂, s₃])
            priority := (p >>> 4) &&& 15 }, payload)
        | _ => none
    | _ => none

/-- The low bytes of a number, the highest first. -/
def beBytes : Nat → Nat → List UInt8
  | 0, _ => []
  | n + 1, v => beBytes n (v / 256) ++ [UInt8.ofNat v]

theorem length_beBytes (n v : Nat) : (beBytes n v).length = n := by
  induction n generalizing v with
  | zero => rfl
  | succ n ih => rw [beBytes, length_append, ih, length_singleton]

theorem beNat_beBytes (n v : Nat) : beNat (beBytes n v) = v % 256 ^ n := by
  induction n generalizing v with
  | zero => rw [pow_zero, mod_one]; rfl
  | succ n ih =>
    have hlow : (ofNat v).toNat = v % 256 := toNat_ofNat'
    have hsplit : beNat (beBytes n (v / 256) ++ [ofNat v]) =
        beNat (beBytes n (v / 256)) * 256 + (ofNat v).toNat := by
      rw [beNat, foldl_append]
      rfl
    rw [beBytes, hsplit, ih, hlow, pow_succ, mul_comm (256 ^ n), mod_mul]
    omega

theorem beNat_beBytes_of_lt {n v : Nat} (h : v < 256 ^ n) : beNat (beBytes n v) = v := by
  rw [beNat_beBytes, mod_eq_of_lt h]

/-- `Header.Encode`. -/
def Header.encode (h : Header) : List UInt8 :=
  let flags := ((h.version &&& 7) <<< 5) ||| (if h.followOn then 4 else 0) |||
    (if h.messagePriority then 2 else 0) ||| (if h.hasSEID then 1 else 0)
  [flags, h.messageType] ++ beBytes 2 h.length.toNat ++
    (if h.hasSEID then beBytes 8 h.seid.toNat else []) ++
    beBytes 3 h.sequenceNumber.toNat ++ [(h.priority &&& 15) <<< 4]

/-- `HeaderSize`. -/
def Header.headerSize (h : Header) : Nat := if h.hasSEID then 16 else 8

/-! ## Message types -/

def messageTypeHeartbeatRequest : UInt8 := 1
def messageTypeHeartbeatResponse : UInt8 := 2
def messageTypePFDManagementRequest : UInt8 := 3
def messageTypePFDManagementResponse : UInt8 := 4
def messageTypeAssociationSetupRequest : UInt8 := 5
def messageTypeAssociationSetupResponse : UInt8 := 6
def messageTypeAssociationUpdateRequest : UInt8 := 7
def messageTypeAssociationUpdateResponse : UInt8 := 8
def messageTypeAssociationReleaseRequest : UInt8 := 9
def messageTypeAssociationReleaseResponse : UInt8 := 10
def messageTypeNodeReportRequest : UInt8 := 12
def messageTypeNodeReportResponse : UInt8 := 13
def messageTypeSessionSetDeletionRequest : UInt8 := 14
def messageTypeSessionSetDeletionResponse : UInt8 := 15
def messageTypeSessionEstablishmentRequest : UInt8 := 50
def messageTypeSessionEstablishmentResponse : UInt8 := 51
def messageTypeSessionModificationRequest : UInt8 := 52
def messageTypeSessionModificationResponse : UInt8 := 53
def messageTypeSessionDeletionRequest : UInt8 := 54
def messageTypeSessionDeletionResponse : UInt8 := 55
def messageTypeSessionReportRequest : UInt8 := 56
def messageTypeSessionReportResponse : UInt8 := 57

/-- The requests, each with the response that answers it. -/
def messagePairs : List (UInt8 × UInt8) :=
  [(messageTypeHeartbeatRequest, messageTypeHeartbeatResponse),
   (messageTypePFDManagementRequest, messageTypePFDManagementResponse),
   (messageTypeAssociationSetupRequest, messageTypeAssociationSetupResponse),
   (messageTypeAssociationUpdateRequest, messageTypeAssociationUpdateResponse),
   (messageTypeAssociationReleaseRequest, messageTypeAssociationReleaseResponse),
   (messageTypeNodeReportRequest, messageTypeNodeReportResponse),
   (messageTypeSessionSetDeletionRequest, messageTypeSessionSetDeletionResponse),
   (messageTypeSessionEstablishmentRequest, messageTypeSessionEstablishmentResponse),
   (messageTypeSessionModificationRequest, messageTypeSessionModificationResponse),
   (messageTypeSessionDeletionRequest, messageTypeSessionDeletionResponse),
   (messageTypeSessionReportRequest, messageTypeSessionReportResponse)]

/-- The type of the response to a request of a type. -/
def pairedResponse (messageType : UInt8) : Option UInt8 := messagePairs.lookup messageType

def isRequest (messageType : UInt8) : Bool := (pairedResponse messageType).isSome

/-- No response is a request. -/
theorem pairedResponse_not_request :
    ∀ t r : UInt8, pairedResponse t = some r → isRequest r = false := by
  intro t r h
  have hmem : (t, r) ∈ messagePairs := by
    obtain ⟨l₁, l₂, hsplit, -⟩ := lookup_eq_some_iff.1 h
    rw [hsplit]
    simp
  have hall : messagePairs.all (fun p => !isRequest p.2) = true := by decide
  simpa using all_eq_true.1 hall _ hmem

end MmtCore.Pfcp
