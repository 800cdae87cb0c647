import MmtCore.Amf.Types

/-!
# The GMM state machine

The transition table in the order of the source, and the parts of `Fire` that concern one
context: the first row for the current state and the event decides the timers to stop and start,
the next state, and what is mirrored into the context.  The actions that do more than log are
tags here; `Ngap.lean` gives them their meaning.
-/

namespace MmtCore.Amf

/-- The transition actions with an effect; all other actions of the table only log. -/
inductive FsmAction
  | log
  | identityTimeout
  | authenticationTimeout
  | securityModeTimeout
  | implicitDeregistration
  | finaliseDeregistration
deriving DecidableEq

structure Transition where
  source : GmmState
  event : GmmEvent
  target : GmmState
  action : FsmAction
  stopTimers : List Timer
  startTimer : Option (Timer × GmmEvent)
deriving DecidableEq

/-- `gmmTransitions`, in the order of the source. -/
def gmmTransitions : List Transition :=
  [ ⟨.deregistered, .registrationRequest, .authentication, .log, [],
      some (.t3560, .t3560AuthExpired)⟩,
    ⟨.deregistered, .regRequestContextValid, .registeredInitiated, .log, [],
      some (.t3550, .t3550Expired)⟩,
    ⟨.registered, .regRequestContextValid, .registeredInitiated, .log, [.t3512],
      some (.t3550, .t3550Expired)⟩,
    ⟨.deregistered, .identityRequestSent, .identification, .log, [],
      some (.t3570, .t3570Expired)⟩,
    ⟨.identification, .identityResponse, .authentication, .log, [.t3570],
      some (.t3560, .t3560AuthExpired)⟩,
    ⟨.identification, .t3570Expired, .deregistered, .identityTimeout, [], none⟩,
    ⟨.identification, .identityResponseFail, .deregistered, .log, [.t3570], none⟩,
    ⟨.authentication, .authResponseValid, .securityMode, .log, [.t3560],
      some (.t3560, .t3560SMCExpired)⟩,
    ⟨.authentication, .authResponseInvalid, .deregistered, .log, [.t3560], none⟩,
    ⟨.authentication, .authRetry, .authentication, .log, [.t3560],
      some (.t3560, .t3560AuthExpired)⟩,
    ⟨.authentication, .authenticationFailure, .deregistered, .log, [.t3560], none⟩,
    ⟨.authentication, .t3560AuthExpired, .deregistered, .authenticationTimeout, [], none⟩,
    ⟨.securityMode, .securityModeComplete, .registeredInitiated, .log, [.t3560],
      some (.t3550, .t3550Expired)⟩,
    ⟨.securityMode, .securityModeReject, .deregistered, .log, [.t3560], none⟩,
    ⟨.securityMode, .t3560SMCExpired, .deregistered, .securityModeTimeout, [], none⟩,
    ⟨.registeredInitiated, .registrationComplete, .registered, .log, [.t3550],
      some (.t3512, .t3512Expired)⟩,
    ⟨.registeredInitiated, .t3550Expired, .registered, .log, [], some (.t3512, .t3512Expired)⟩,
    ⟨.registered, .ulNASTransport, .registered, .log, [], none⟩,
    ⟨.registered, .serviceRequest, .registered, .log, [], none⟩,
    ⟨.registered, .configUpdateComplete, .registered, .log, [], none⟩,
    ⟨.registered, .status5GMM, .registered, .log, [], none⟩,
    ⟨.registered, .registrationRequest, .authentication, .log, [.t3512],
      some (.t3560, .t3560AuthExpired)⟩,
    ⟨.registeredInitiated, .registrationRequest, .authentication, .log, [.t3550],
      some (.t3560, .t3560AuthExpired)⟩,
    ⟨.identification, .registrationRequest, .authentication, .log, [.t3570],
      some (.t3560, .t3560AuthExpired)⟩,
    ⟨.securityMode, .registrationRequest, .authentication, .log, [.t3560],
      some (.t3560, .t3560AuthExpired)⟩,
    ⟨.authentication, .registrationRequest, .authentication, .log, [.t3560],
      some (.t3560, .t3560AuthExpired)⟩,
    ⟨.registered, .configUpdateCommandSent, .registered, .log, [],
      some (.t3555, .t3555Expired)⟩,
    ⟨.registered, .configUpdateComplete, .registered, .log, [.t3555], none⟩,
    ⟨.registered, .t3555Expired, .registered, .log, [], none⟩,
    ⟨.registered, .deregistrationRequestSentMT, .mtDeregPending, .log, [.t3512],
      some (.t3522, .t3522Expired)⟩,
    ⟨.registered, .registrationRequest, .authentication, .log, [.t3512],
      some (.t3560, .t3560AuthExpired)⟩,
    ⟨.registered, .t3512Expired, .deregistered, .implicitDeregistration, [], none⟩,
    ⟨.registered, .deregistrationRequestMO, .deregistrationInitiated, .log, [.t3512],
      some (.twaitUECtxRelease, .twaitDeregReleaseExpired)⟩,
    ⟨.deregistrationInitiated, .ueContextReleaseComplete, .deregistered,
      .finaliseDeregistration, [.twaitUECtxRelease], none⟩,
    ⟨.deregistrationInitiated, .twaitDeregReleaseExpired, .deregistered,
      .finaliseDeregistration, [], none⟩,
    ⟨.mtDeregPending, .deregistrationAcceptMT, .deregistered, .finaliseDeregistration,
      [.t3522], none⟩,
    ⟨.mtDeregPending, .t3522Expired, .deregistered, .finaliseDeregistration, [], none⟩ ]

/-- The row `Fire` takes: the first for the state and the event. -/
def findTransition (st : GmmState) (ev : GmmEvent) : Option Transition :=
  gmmTransitions.find? fun t => t.source == st && t.event == ev

theorem findTransition_some {st : GmmState} {ev : GmmEvent} {t : Transition}
    (h : findTransition st ev = some t) :
    t ∈ gmmTransitions ∧ t.source = st ∧ t.event = ev := by
  have hp := List.find?_some h
  simp only [Bool.and_eq_true, beq_iff_eq] at hp
  exact ⟨List.mem_of_find?_eq_some h, hp⟩

/-- `mirrorToUECtx`. -/
def Ue.mirror (u : Ue) : GmmState → Ue
  | .deregistered =>
    { u with rm := .deregistered, book := { u.book with gmmProc := .none, gmmSub := .none } }
  | .identification =>
    { u with book := { u.book with gmmProc := .registration, gmmSub := .identification } }
  | .authentication =>
    { u with book := { u.book with gmmProc := .registration, gmmSub := .authentication } }
  | .securityMode =>
    { u with book := { u.book with gmmProc := .registration, gmmSub := .securityMode } }
  | .registeredInitiated =>
    { u with book := { u.book with gmmProc := .registration, gmmSub := .none } }
  | .registered =>
    { u with rm := .registered, book := { u.book with gmmProc := .none, gmmSub := .none } }
  | .deregistrationInitiated | .mtDeregPending =>
    { u with book := { u.book with gmmProc := .deregistration, gmmSub := .none } }

/-- Stopping and starting the timers of a row. -/
def Transition.setTimers (t : Transition) (timers : Timer → Option GmmEvent) :
    Timer → Option GmmEvent := fun n =>
  match t.startTimer with
  | none => if n ∈ t.stopTimers then none else timers n
  | some (m, ev) => if n = m then some ev else if n ∈ t.stopTimers then none else timers n

/-- What a row does to the context, its action apart. -/
def Ue.take (u : Ue) (t : Transition) : Ue :=
  let u' := { u with fsm := t.target }.mirror t.target
  { u' with timers := t.setTimers u.timers }

section

variable (u : Ue) (st : GmmState) (t : Transition)

@[simp] theorem Ue.mirror_sec : (u.mirror st).sec = u.sec := by cases st <;> rfl
@[simp] theorem Ue.mirror_fsm : (u.mirror st).fsm = u.fsm := by cases st <;> rfl
@[simp] theorem Ue.mirror_imsi : (u.mirror st).imsi = u.imsi := by cases st <;> rfl
@[simp] theorem Ue.mirror_tmsi5g : (u.mirror st).tmsi5g = u.tmsi5g := by cases st <;> rfl
@[simp] theorem Ue.mirror_gnbKey : (u.mirror st).gnbKey = u.gnbKey := by cases st <;> rfl
@[simp] theorem Ue.mirror_ranUeNgapId : (u.mirror st).ranUeNgapId = u.ranUeNgapId := by
  cases st <;> rfl
@[simp] theorem Ue.mirror_amfUeNgapId : (u.mirror st).amfUeNgapId = u.amfUeNgapId := by
  cases st <;> rfl
@[simp] theorem Ue.mirror_timers : (u.mirror st).timers = u.timers := by cases st <;> rfl
@[simp] theorem Ue.mirror_pduSessions : (u.mirror st).pduSessions = u.pduSessions := by
  cases st <;> rfl

@[simp] theorem Ue.take_sec : (u.take t).sec = u.sec := by simp [Ue.take]
@[simp] theorem Ue.take_fsm : (u.take t).fsm = t.target := by simp [Ue.take]
@[simp] theorem Ue.take_timers : (u.take t).timers = t.setTimers u.timers := rfl
@[simp] theorem Ue.take_imsi : (u.take t).imsi = u.imsi := by simp [Ue.take]
@[simp] theorem Ue.take_tmsi5g : (u.take t).tmsi5g = u.tmsi5g := by simp [Ue.take]
@[simp] theorem Ue.take_gnbKey : (u.take t).gnbKey = u.gnbKey := by simp [Ue.take]
@[simp] theorem Ue.take_ranUeNgapId : (u.take t).ranUeNgapId = u.ranUeNgapId := by
  simp [Ue.take]
@[simp] theorem Ue.take_amfUeNgapId : (u.take t).amfUeNgapId = u.amfUeNgapId := by
  simp [Ue.take]
@[simp] theorem Ue.take_pduSessions : (u.take t).pduSessions = u.pduSessions := by
  simp [Ue.take]

end

end MmtCore.Amf
