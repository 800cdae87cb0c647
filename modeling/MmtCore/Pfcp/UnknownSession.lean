import MmtCore.Pfcp.HandlerSteps

/-!
# Modifications of sessions that are not known

`handleSessionModification` looks its session up, and goes on without one: the hooks get the empty
IMSI and PDU session 0, and the response accepts.  `handleSessionDeletion` answers Cause 65 there.
So no modification of an unknown session is refused (`unknown_never_refused`).  The tables of the
handler stay as they are, and so does the dataplane, unless a session without a user id is there:
that one takes all the rules of the request.
-/

namespace MmtCore.Pfcp

open MmtCore.Upf

namespace Handler

variable {codec : Codec} {env : DpEnv} {h : Handler} {hdr : Header} {payload : List UInt8}
  {peer : UDPAddr}

/-- What is claimed of the modification of a session that is not known: it is refused with Cause 65,
session context not found, and nothing changes. -/
structure RefusesUnknown (h : Handler) (hdr : Header) (peer : UDPAddr)
    (r : Handler × List Response) : Prop where
  refused : r.2 = [reject hdr peer messageTypeSessionModificationResponse 65]
  unchanged : r.1 = h

section

variable (hunknown : h.sessions.lookup hdr.seid = none)
include hunknown

/-- The one response has Cause 68 where the request cannot be decoded, else Cause 1. -/
theorem unknown_response : (h.handleSessionModification codec env hdr payload peer).2 =
      [reject hdr peer messageTypeSessionModificationResponse
        (if (codec.modification payload).isSome then 1 else 68)] := by
  unfold handleSessionModification
  cases codec.modification payload with
  | none => rfl
  | some req =>
    rw [hunknown]
    rfl

/-- The tables of the handler are not touched. -/
theorem unknown_tables : let h' := (h.handleSessionModification codec env hdr payload peer).1
    h'.sessions = h.sessions ∧ h'.byIMSI = h.byIMSI ∧ h'.nextSEID = h.nextSEID := by
  grind [handleSessionModification]

/-- Nor is the dataplane, without a session for the empty IMSI. -/
theorem unknown_unchanged (hpending : h.dp.pending ⟨[], 0⟩ = none)
    (hsession : h.dp.sessions (ImsiPduKey.dpKey ⟨[], 0⟩) = none) :
    (h.handleSessionModification codec env hdr payload peer).1 = h := by
  unfold handleSessionModification
  cases codec.modification payload with
  | none => rfl
  | some req =>
    have habsent : (Work.mk none h.dp).Absent ⟨[], 0⟩ := ⟨rfl, hpending, hsession⟩
    rw [hunknown]
    dsimp only
    rw [habsent.modification]

end

/-- No modification of an unknown session is refused as it should be.  The tables of the handler
stay, and the dataplane does where it has no session for the empty IMSI. -/
theorem unknown_never_refused (codec : Codec) (env : DpEnv) (h : Handler) (hdr : Header)
    (payload : List UInt8) (peer : UDPAddr) (hunknown : h.sessions.lookup hdr.seid = none) :
    let r := h.handleSessionModification codec env hdr payload peer
    ¬RefusesUnknown h hdr peer r ∧
      r.1.sessions = h.sessions ∧ r.1.byIMSI = h.byIMSI ∧ r.1.nextSEID = h.nextSEID ∧
      (h.dp.pending ⟨[], 0⟩ = none → h.dp.sessions (ImsiPduKey.dpKey ⟨[], 0⟩) = none → r.1 = h) := by
  intro r
  have htables : r.1.sessions = h.sessions ∧ r.1.byIMSI = h.byIMSI ∧ r.1.nextSEID = h.nextSEID :=
    unknown_tables hunknown
  obtain ⟨hsessions, hindex, hseid⟩ := htables
  refine ⟨fun hr => ?_, hsessions, hindex, hseid, unknown_unchanged hunknown⟩
  have hcause := hr.refused.symm.trans (unknown_response hunknown)
  split at hcause <;> cases hcause

/-! ## A session without a user id -/

/-- An establishment that names no user. -/
def anonymousEstablishment : SessionEstablishmentRequest :=
  { sampleEstablishment with userID := none }

/-- A modification that creates a FAR that drops. -/
def farModification : SessionModificationRequest :=
  { SessionModificationRequest.empty with
    createFAR := [⟨1, ⟨0, 0, 1⟩, none⟩] }

/-- The codec on these two. -/
def anonymousCodec : Codec where
  establishment _ := some anonymousEstablishment
  modification _ := some farModification
  associationRelease _ := none

/-- A handler with one session, which has no user. -/
def anonymous : Handler :=
  (newHandler.handleSessionEstablishment anonymousCodec DpEnv.roomy
    (sampleHeader messageTypeSessionEstablishmentRequest 0) [] samplePeer).1

def strayHeader : Header := sampleHeader messageTypeSessionModificationRequest 9

theorem unknown_never_refused_anonymous :
    ¬RefusesUnknown anonymous strayHeader samplePeer
      (anonymous.handleSessionModification anonymousCodec DpEnv.roomy strayHeader [] samplePeer) :=
  (unknown_never_refused anonymousCodec DpEnv.roomy anonymous strayHeader [] samplePeer rfl).1

/-- A modification of session 9, which there is not, is accepted, and its FAR is that of the
session without a user. -/
theorem stray_modification :
    ¬∀ (codec : Codec) (env : DpEnv) (h : Handler) (hdr : Header) (payload : List UInt8)
        (peer : UDPAddr), h.sessions.lookup hdr.seid = none →
          RefusesUnknown h hdr peer (h.handleSessionModification codec env hdr payload peer) := by
  intro hall
  have hr := hall anonymousCodec DpEnv.roomy anonymous strayHeader [] samplePeer rfl
  have hfars := congrArg
    (fun h : Handler => (h.dp.sessions (ImsiPduKey.dpKey ⟨[], 0⟩)).map (·.fars.length)) hr.unchanged
  exact absurd hfars (by decide)

end Handler

end MmtCore.Pfcp
