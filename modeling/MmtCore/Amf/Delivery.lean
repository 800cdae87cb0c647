import MmtCore.Amf.Footprint

/-!
# How a PDU reaches its handler

A step that carries an uplink NAS PDU finds a context, receives the PDU layer by layer, and hands
the innermost message to a handler.  The three parts are named here (`delivery`, `receive`,
`Message`), so that conditions on the inputs of a run can speak about what the handlers are given.
-/

namespace MmtCore.Amf

open MmtCore.Lib

variable (V : Env) (X : Ext) {r : Ref} {s t : AmfState}

/-! ## Receiving -/

/-- The layers of a PDU: the innermost message, if every layer is accepted, and the state with
the uplink counts stored. -/
def receive : Nat → Ref → Bytes → AmfState → Option Bytes × AmfState
  | 0, _, _, s => (none, s)
  | fuel + 1, r, pdu, s =>
    match rxNAS V (s.ue r).sec pdu with
    | .error _ => (none, s)
    | .ok (inner, m) =>
      let s := storeUl r pdu m s
      if inner.length < 3 then (none, s)
      else
        match expandNASMessageContainer V (s.ue r).sec (msgTypeOf inner) inner with
        | some expanded => receive fuel r expanded s
        | none => (some inner, s)

theorem dispatchWithOuter_eq (fuel : Nat) (r : Ref) (pdu : Bytes) (outer : Option Bytes)
    (s : AmfState) :
    dispatchWithOuter V X fuel r pdu outer s =
      match receive V fuel r pdu s with
      | (none, t) => t
      | (some inner, t) => handleMessage V X r inner outer t := by
  induction fuel generalizing pdu s with
  | zero => rfl
  | succ fuel ih =>
    grind [dispatchWithOuter, receive]

theorem storeUl_acts (pdu : Bytes) (m : RxMeta) : Acts r [.ul] s (storeUl r pdu m s) := by
  unfold storeUl
  split
  · apply Acts.one <;> rfl
  · exact .refl

/-- Receiving only stores uplink counts. -/
theorem receive_acts (fuel : Nat) (pdu : Bytes) : Acts r [.ul] s (receive V fuel r pdu s).2 := by
  induction fuel generalizing pdu s with
  | zero => exact .refl
  | succ fuel ih =>
    simp only [receive]
    split
    · exact .refl
    · rename_i inner m _
      have h : Acts r [.ul] s (storeUl r pdu m s) := storeUl_acts pdu m
      split
      · exact h
      split
      · exact h.andThen (ih _) rfl
      · exact h

/-! ### The bound on the layers is never met -/

/-! ## The message handed over -/

/-- A PDU at the dispatcher: the context found, and the state at that point. -/
structure Delivery where
  r : Ref
  pdu : Bytes
  state : AmfState

/-- The PDU of an initial UE message or an uplink NAS transport, once its context is found. -/
def delivery (s : AmfState) : Event → Option Delivery
  | .initialUE gnb ran nas tmsi req =>
    if ran = 0 ∨ nas = [] then none
    else (contextForInitialUE X gnb ran tmsi s).map fun p =>
      ⟨p.1, nas, p.2.exec (.book p.1 fun b =>
        { b with cm := .connected, ueContextRequest := req })⟩
  | .uplinkNAS gnb amfId ran nas =>
    (locateUE gnb amfId ran s).map fun r => ⟨r, nas, s.exec (.cancel r .t3513)⟩
  | _ => none

theorem stepEvent_of_delivery {ev : Event} {d : Delivery} (h : delivery X s ev = some d) :
    stepEvent V X s ev = dispatch V X d.r d.pdu d.state := by
  cases ev with
  | initialUE gnb ran nas tmsi req =>
    grind [delivery, stepEvent, initialUEHandle]
  | uplinkNAS gnb amfId ran nas =>
    simp only [delivery, Option.map_eq_some_iff] at h
    obtain ⟨q, hq, rfl⟩ := h
    simp [stepEvent, uplinkNASHandle, hq]
  | _ => cases h

/-- A 5GMM message as the collision check finds it: the context, the message, the PDU it came in
if that has a security header, and the state. -/
structure Message where
  r : Ref
  inner : Bytes
  outer : Option Bytes
  state : AmfState

def Message.msgType (m : Message) : UInt8 := msgTypeOf m.inner

/-- The message goes on to its handler. -/
def Message.passes (m : Message) : Bool := (checkCollision m.r m.msgType m.state).2

/-- The state in which the handler starts. -/
def Message.entry (m : Message) : AmfState := (checkCollision m.r m.msgType m.state).1

/-- The collision check aborts the running procedure. -/
def Message.aborts (m : Message) : Bool :=
  (m.msgType == msgRegistrationRequest || m.msgType == msgDeregistrationRequestMO) &&
    (m.state.ue m.r).book.gmmProc != .none

/-- The message a delivered PDU holds. -/
def Delivery.message (d : Delivery) : Option Message :=
  match receive V (d.pdu.length + 1) d.r d.pdu d.state with
  | (some inner, t) => some ⟨d.r, inner, outerPDU d.pdu, t⟩
  | (none, _) => none

/-- What the handlers are given in a step. -/
def handed (s : AmfState) (ev : Event) : Option Message :=
  (delivery X s ev).bind (Delivery.message V)

theorem dispatch_of_message {d : Delivery} {m : Message} (h : d.message V = some m) :
    dispatch V X d.r d.pdu d.state = handleMessage V X m.r m.inner m.outer m.state := by
  grind [dispatchWithOuter_eq, Delivery.message, dispatch]

theorem dispatch_of_no_message {d : Delivery} (h : d.message V = none) :
    dispatch V X d.r d.pdu d.state =
      (receive V (d.pdu.length + 1) d.r d.pdu d.state).2 := by
  grind [dispatchWithOuter_eq, Delivery.message, dispatch]

/-- The message's state is the delivery's with counts stored. -/
theorem message_acts {d : Delivery} {m : Message} (h : d.message V = some m) :
    m.r = d.r ∧ m.outer = outerPDU d.pdu ∧ Acts d.r [.ul] d.state m.state := by
  grind [Delivery.message, receive_acts]

/-! ## The collision check -/

theorem handleMessage_eq (m : Message) :
    handleMessage V X m.r m.inner m.outer m.state =
      if m.passes then handle V X m.r m.msgType m.inner m.outer m.entry else m.entry := rfl

theorem Message.entry_of_aborts {m : Message} (h : m.aborts = true) :
    m.entry = abortCurrentProcedure m.r m.state := by
  simp only [Message.aborts, Bool.and_eq_true, Bool.or_eq_true, beq_iff_eq, bne_iff_ne] at h
  obtain ⟨htype, hproc⟩ := h
  have hresp : m.msgType ∉ responseTypes := by
    rcases htype with h | h <;> rw [h] <;> decide
  simp [Message.entry, checkCollision, hresp, hproc, htype]

theorem Message.entry_of_not_aborts {m : Message} (h : m.aborts = false) : m.entry = m.state := by
  simp only [Message.aborts, Bool.and_eq_false_iff, Bool.or_eq_false_iff, beq_eq_false_iff_ne,
    bne_eq_false_iff_eq] at h
  unfold Message.entry checkCollision
  split
  · rfl
  split
  · rfl
  · rename_i hproc
    rcases h with h | h
    · simp only [h.1, h.2, or_self, if_false]
      split <;> rfl
    · exact absurd h hproc

theorem entry_acts (m : Message) :
    Acts m.r [.abort, .cancel, .book, .clearPending] m.state m.entry := by
  cases h : m.aborts with
  | true =>
    rw [Message.entry_of_aborts h]
    exact abortCurrentProcedure_acts
  | false =>
    rw [Message.entry_of_not_aborts h]
    exact .refl

/-! ## The handlers by kind -/

/-- The message types whose handlers may move keys, identities or the procedure state. -/
def procedureTypes : List UInt8 :=
  [msgRegistrationRequest, msgDeregistrationRequestMO, msgAuthenticationResponse,
    msgAuthenticationFailure, msgIdentityResponse, msgSecurityModeComplete,
    msgSecurityModeReject]

/-- All other messages. -/
theorem handle_other_acts {msgType : UInt8} (h : msgType ∉ procedureTypes) (inner : Bytes)
    (outer : Option Bytes) :
    Acts r ([.dl] ++ fireKinds) s (handle V X r msgType inner outer s) := by
  simp only [procedureTypes, List.mem_cons, List.not_mem_nil, or_false, not_or] at h
  obtain ⟨h41, h45, h57, h59, h5C, h5E, h5F⟩ := h
  unfold handle
  simp only [h41, h45, h57, h59, h5C, h5E, h5F, if_false]
  split
  · exact handleRegistrationComplete_acts V X inner
  split
  · exact (handleDeregistrationAcceptFromUE_acts X).mono rfl
  split
  · exact handleServiceRequest_acts V X inner
  split
  · exact (handleConfigUpdateComplete_acts V X inner).mono rfl
  split
  · exact (handle5GMMStatus_acts V X inner).mono rfl
  split
  · exact handleULNASTransport_acts V X inner
  · exact (send5GMMStatus_acts V X _).mono rfl

/-- What holds after each handler of `procedureTypes`, and after all others, holds after `handle`. -/
theorem handle_elim {motive : AmfState → Prop} {msgType : UInt8} {inner : Bytes}
    {outer : Option Bytes}
    (registrationRequest : msgType = msgRegistrationRequest →
      motive (handleRegistrationRequest V X r inner outer s))
    (deregistrationRequest : msgType = msgDeregistrationRequestMO →
      motive (handleDeregistrationRequestMO V X r inner s))
    (authenticationResponse : msgType = msgAuthenticationResponse →
      motive (handleAuthenticationResponse V X r inner s))
    (authenticationFailure : msgType = msgAuthenticationFailure →
      motive (handleAuthenticationFailure V X r inner s))
    (identityResponse : msgType = msgIdentityResponse →
      motive (handleIdentityResponse V X r inner s))
    (securityModeComplete : msgType = msgSecurityModeComplete →
      motive (handleSecurityModeComplete V X r inner s))
    (securityModeReject : msgType = msgSecurityModeReject →
      motive (handleSecurityModeReject V X r inner s))
    (other : msgType ∉ procedureTypes → motive (handle V X r msgType inner outer s)) :
    motive (handle V X r msgType inner outer s) := by
  by_cases hother : msgType ∈ procedureTypes
  · simp only [procedureTypes, List.mem_cons, List.not_mem_nil, or_false] at hother
    obtain rfl | rfl | rfl | rfl | rfl | rfl | rfl := hother
    · exact registrationRequest rfl
    · exact deregistrationRequest rfl
    · exact authenticationResponse rfl
    · exact authenticationFailure rfl
    · exact identityResponse rfl
    · exact securityModeComplete rfl
    · exact securityModeReject rfl
  · exact other hother

/-! ## The other events -/

theorem releaseRequest_acts (userInactivity : Bool) (psis : List Nat) :
    Acts r [.abort, .cancel, .book, .clearPending, .resetTo, .dropFsm, .send] s
      (releaseRequest X r userInactivity psis s) := by
  unfold releaseRequest
  dsimp only
  split
  · exact .refl
  · have hstart : Acts r [.abort, .cancel, .book, .clearPending, .resetTo, .dropFsm, .send] s
        (((if psis = [] then s else
          s.exec (.book r fun b => { b with pendingReleasePDUList := psis })).exec
            (.cancelAll r)).exec (.book r fun b =>
              { b with cm := .idle, gnbContextEstablished := false, ngapProc := .none })) := by
      split
      · refine Acts.exec (Acts.one ?_ ?_) ?_ ?_ <;> rfl
      · refine Acts.exec (Acts.exec (Acts.one ?_ ?_) ?_ ?_) ?_ ?_ <;> rfl
    generalize ((if psis = [] then s else
          s.exec (.book r fun b => { b with pendingReleasePDUList := psis })).exec
            (.cancelAll r)).exec (.book r fun b =>
              { b with cm := .idle, gnbContextEstablished := false, ngapProc := .none }) = s₁
      at hstart ⊢
    refine Acts.andThen ?_ (sendCommand_acts X) rfl
    split
    · exact hstart
    · exact (hstart.andThen onNASLowerLayerFailure_acts rfl).andThen endProcedure_acts
        rfl

theorem suspendPDUSessions_acts (psis : List Nat) :
    Acts r [.sessions, .smf, .book] s (suspendPDUSessions r psis s) := by
  unfold suspendPDUSessions
  dsimp only
  generalize (if psis = [] then (s.ue r).book.pendingReleasePDUList else psis) = ids
  split
  · exact .refl
  · have hset : Acts r [.sessions, .smf, .book] s
        (s.exec (.setSessions r (markSuspended ids (s.ue r).pduSessions))) := by
      apply Acts.one <;> rfl
    exact (hset.andThen (smfCalls_acts _ (by simp [AmfState.exec])) rfl).andThen
      (book_acts _) rfl

theorem releaseComplete_acts (ran : Nat) (psis : List Nat) :
    Acts r [.sessions, .smf, .book, .unindex, .dropFsm, .cancel, .rm] s
      (releaseComplete r ran psis s) := by
  unfold releaseComplete
  dsimp only
  split
  · exact .refl
  · have hstart : Acts r [.sessions, .smf, .book, .unindex, .dropFsm, .cancel, .rm] s
        (suspendPDUSessions r psis (s.exec (.book r fun b =>
          { b with ngapProc := .none, gnbContextEstablished := false, cm := .idle }))) :=
      ((book_acts _).mono rfl).andThen (suspendPDUSessions_acts psis) rfl
    split
    · exact hstart
    split
    · exact (hstart.andThen (book_acts _) rfl).andThen remove_acts rfl
    · exact hstart.andThen clearVolatile_acts rfl

theorem icsResponse_acts : Acts r [.dl, .send, .book] s (icsResponse V X r s) :=
  ((book_acts _).mono rfl).andThen (drainPendingReactivations_acts V X) rfl

theorem icsFailure_acts : Acts r [.book] s (icsFailure r s) := book_acts _

theorem retransmitTimer_acts (t : Timer) :
    Acts r [.dl, .send] s (retransmitTimer V X r t s) := by
  unfold retransmitTimer
  split
  · exact resendCachedNAS_acts V X
  · exact .refl

theorem expireTimer_acts (t : Timer) :
    Acts r (.enterSecurityMode :: fireKinds) s (expireTimer X r t s) := by
  unfold expireTimer
  split
  · exact .refl
  · refine Acts.andThen (Acts.one ?_ ?_) (fire_acts_any X _) rfl <;> rfl

theorem sendDLNASByIMSI_acts (imsi : Imsi) (nasPDU : Bytes) :
    ∃ r, Acts r [.dl, .send] s (sendDLNASByIMSI V X imsi nasPDU s) := by
  unfold sendDLNASByIMSI
  split
  · exact ⟨0, .refl⟩
  · rename_i r _
    refine ⟨r, ?_⟩
    split
    · exact dlnasSend_acts V X _
    · exact .refl

end MmtCore.Amf
