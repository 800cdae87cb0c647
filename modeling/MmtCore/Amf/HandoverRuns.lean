import MmtCore.Amf.Handover

/-!
# What the handover relays reach, and what they move

The handover a UE is in follows from the messages alone: a Handover Required that is relayed begins
it, and the messages of its own target and of its own source carry it on and end it.  The relays
are compared with that.
-/

namespace MmtCore.Amf.Handover

open MmtCore.Lib Function List Option

variable {V : Env} {C : Codec} {X : Surroundings}

/-! ## What sending and the session map do -/

section

variable (g : GnbCtx) (env : Envelope) (stream : Nat) (s : State)

@[simp] theorem sendEnvelope_sent :
    (sendEnvelope X g env stream s).1.sent = ⟨g, env, stream, X.sendOk s.sent.length⟩ :: s.sent :=
  rfl

@[simp] theorem sendEnvelope_hoSessions :
    (sendEnvelope X g env stream s).1.hoSessions = s.hoSessions := rfl

@[simp] theorem sendEnvelope_ok : (sendEnvelope X g env stream s).2 = X.sendOk s.sent.length := rfl

end

section

variable (k : HoSessionKey)

@[simp] theorem rememberSession_sent (h : HandoverSession) (s : State) :
    (rememberSession k h s).sent = s.sent := rfl

@[simp] theorem rememberSession_hoSessions (h : HandoverSession) (s : State) :
    (rememberSession k h s).hoSessions = s.hoSessions.assign k h := rfl

@[simp] theorem forgetSession_sent (s : State) : (forgetSession k s).sent = s.sent := rfl

@[simp] theorem forgetSession_hoSessions (s : State) :
    (forgetSession k s).hoSessions = s.hoSessions.erase k := rfl

end

section

variable (g : GnbCtx) (stream : Nat)

@[simp] theorem releaseUE_sent (s : State) : (releaseUE X g stream s).sent =
      ⟨g, ⟨.initiatingMessage, .ueContextRelease, emptyValue⟩, stream, X.sendOk s.sent.length⟩ ::
        s.sent := rfl

@[simp] theorem releaseUE_hoSessions (s : State) :
    (releaseUE X g stream s).hoSessions = s.hoSessions := rfl

@[simp] theorem preparationFailure_sent (ids : UeIds) (cause : Cause) (s : State) :
    (sendHandoverPreparationFailure C X g stream ids cause s).sent =
      ⟨g, ⟨.unsuccessfulOutcome, .handoverPreparation,
        (C.handoverPreparationFailureValue ids cause).getD emptyValue⟩, stream,
        X.sendOk s.sent.length⟩ :: s.sent := rfl

@[simp] theorem preparationFailure_hoSessions (ids : UeIds) (cause : Cause) (s : State) :
    (sendHandoverPreparationFailure C X g stream ids cause s).hoSessions = s.hoSessions := rfl

end

theorem mem_sessions {s : State} {h : HandoverSession} :
    h ∈ sessions s ↔ ∃ k, s.hoSessions.lookup k = some h := by
  unfold sessions
  constructor
  · grind [AssocMap.mem_entries_iff]
  · rintro ⟨k, hk⟩
    exact mem_map.2 ⟨⟨k, h⟩, AssocMap.mem_entries_iff.2 hk, rfl⟩

/-! ## Finding a session by its target -/

/-- What a loop over the map can return. -/
theorem pickSession_some {p : HandoverSession → Bool} {s : State} {h : HandoverSession}
    (hp : pickSession X p s = some h) : h ∈ (sessions s).filter p :=
  mem_of_getElem? hp

/-- A loop that returns nothing has met no session. -/
theorem pickSession_none {p : HandoverSession → Bool} {s : State}
    (hp : pickSession X p s = none) : (sessions s).filter p = [] := by
  by_contra hne
  have hlt := Nat.mod_lt X.mapOrder (length_pos_iff.2 hne)
  exact absurd (getElem?_eq_none_iff.1 hp) (Nat.not_le.2 hlt)

/-- The sessions a message from a target can be taken to be about. -/
def byTarget (target : GnbCtx) (stream : Nat) (s : State) : List HandoverSession :=
  if (sessions s).filter (onStream target stream) = [] then (sessions s).filter (towards target)
  else (sessions s).filter (onStream target stream)

section

variable {target : GnbCtx} {stream : Nat} {s : State}

theorem lookupSessionByTarget_some
    {h : HandoverSession} (hl : lookupSessionByTarget X target stream s = some h) :
    h ∈ byTarget target stream s := by
  unfold lookupSessionByTarget at hl
  unfold byTarget
  cases he : pickSession X (onStream target stream) s with
  | none =>
    rw [he, none_or] at hl
    rw [if_pos (pickSession_none he)]
    exact pickSession_some hl
  | some h' =>
    rw [he, some_or, some.injEq] at hl
    subst hl
    have hmem := pickSession_some he
    rw [if_neg (ne_nil_of_mem hmem)]
    exact hmem

theorem targetGnb_of_mem_byTarget {h : HandoverSession} (hm : h ∈ byTarget target stream s) :
    h ∈ sessions s ∧ h.targetGnb = target := by
  unfold byTarget at hm
  split at hm
  · simp_all [towards]
  · simp_all [onStream]

/-- Where the lookup finds nothing there is no session towards that target. -/
theorem lookupSessionByTarget_none
    (hl : lookupSessionByTarget X target stream s = none) {h : HandoverSession}
    (hm : h ∈ sessions s) : h.targetGnb ≠ target := by
  intro ht
  have hnone := pickSession_none (or_eq_none_iff.1 hl).2
  simp_all [towards]

end

/-! ## The handover a UE is in -/

variable (C)

/-- The ids by which a message names its UE. -/
def namedIds (m : Message) : UeIds :=
  match m.env.procedureCode with
  | .handoverPreparation => requiredIds C m.env.value
  | .pathSwitchRequest => (C.pathSwitchRequest m.env.value).getD ⟨0, 0⟩
  | p => C.ids p m.env.type m.env.value

/-- The AMF-UE-NGAP-ID a message names. -/
def named (m : Message) : Nat := (namedIds C m).amfUEID

/-- The handover a Handover Required begins, if the request reaches a target. -/
def begun (X : Surroundings) (s : State) (m : Message) : Option HandoverSession :=
  if X.sendOk s.sent.length then
    (targetFor C X m.gnb m.env.value).map fun target =>
      ⟨m.gnb, target, m.stream, m.stream, requiredIds C m.env.value⟩
  else none

/-- What an acknowledgement makes of the handover: it goes on with the stream of the target, unless
the command to the source cannot be sent. -/
def acknowledged (X : Surroundings) (s : State) (m : Message) (h : HandoverSession) :
    Option HandoverSession :=
  if X.sendOk s.sent.length then some { h with targetStream := m.stream } else none

/-- What a message makes of the handover of the UE it names. -/
def advance (X : Surroundings) (s : State) (m : Message) (current : Option HandoverSession) :
    Option HandoverSession :=
  match m.env.procedureCode, m.env.type with
  | .handoverPreparation, .initiatingMessage => (begun C X s m).or current
  | .handoverResourceAllocation, .successfulOutcome =>
    current.bind fun h => if h.targetGnb = m.gnb then acknowledged X s m h else some h
  | .handoverResourceAllocation, .unsuccessfulOutcome
  | .handoverNotification, .initiatingMessage => current.filter (·.targetGnb ≠ m.gnb)
  | .handoverCancel, _ => current.filter (·.key ≠ ⟨m.gnb.gnbIP, m.stream⟩)
  | _, _ => current

/-- The handover each UE is in, by AMF-UE-NGAP-ID. -/
abbrev Current := Nat → Option HandoverSession

/-- A message concerns the UE it names. -/
def track (X : Surroundings) (s : State) (m : Message) (t : Current) : Current :=
  update t (named C m) (advance C X s m (t (named C m)))

/-! ## Where a message belongs -/

/-- The message goes to the source side of the handover. -/
def AtSource (h : HandoverSession) (o : Sent) : Prop :=
  o.gnb.gnbIP = h.sourceGnb.gnbIP ∧ o.stream = h.sourceStream

/-- The message goes to the target side of the handover. -/
def AtTarget (h : HandoverSession) (o : Sent) : Prop :=
  o.gnb = h.targetGnb ∧ o.stream = h.targetStream

/-- What the AMF sends on a message is for the source or the target of the UE the message names,
and where it carries ids they are those of that UE. -/
def Right (t : Current) (m : Message) (o : Sent) : Prop :=
  match o.env.procedureCode, o.env.type with
  | .handoverPreparation, .successfulOutcome => ∃ h, t (named C m) = some h ∧ AtSource h o
  | .handoverPreparation, .unsuccessfulOutcome =>
    if m.env.procedureCode = .handoverPreparation then
      o.gnb = m.gnb ∧ o.stream = m.stream ∧
        ∃ cause, o.env.value =
          (C.handoverPreparationFailureValue (namedIds C m) cause).getD emptyValue
    else ∃ h, t (named C m) = some h ∧ AtSource h o ∧
      ∃ cause, o.env.value = (C.handoverPreparationFailureValue h.ids cause).getD emptyValue
  | .downlinkRANStatusTransfer, _ | .downlinkRANEarlyStatusTransfer, _ =>
    ∃ h, t (named C m) = some h ∧ AtTarget h o
  | .handoverCancel, _ =>
    ∃ h, t (named C m) = some h ∧ AtSource h o ∧
      o.env.value = (C.handoverCancelAcknowledgeValue h.ids).getD emptyValue
  | .ueContextRelease, _ =>
    ∃ h, t (named C m) = some h ∧
      if m.env.procedureCode = .handoverCancel then AtTarget h o else AtSource h o
  | _, _ => True

/-- What was sent between the two states. -/
def emitted (s s' : State) : List Sent := s'.sent.take (s'.sent.length - s.sent.length)

/-- Everything sent on the message is right, and a message that does not begin a handover leaves
the sessions of the other UEs as they are. -/
def Correct (s : State) (t : Current) (X : Surroundings) (m : Message) : Prop :=
  (∀ o ∈ emitted s (handle C X m s), Right C t m o) ∧
    (m.env.procedureCode ≠ .handoverPreparation →
      ∀ k h, s.hoSessions.lookup k = some h → h.ids.amfUEID ≠ named C m →
        (handle C X m s).hoSessions.lookup k = some h)

/-! ## When the AMF cannot mistake the UE -/

/-- The sessions a message can be taken to be about: by the gNB and the stream it comes from, as
the AMF does not look at the ids. -/
def candidates (m : Message) (s : State) : List HandoverSession :=
  match m.env.procedureCode, m.env.type with
  | .handoverResourceAllocation, .successfulOutcome
  | .handoverResourceAllocation, .unsuccessfulOutcome
  | .handoverNotification, .initiatingMessage => byTarget m.gnb m.stream s
  | .handoverCancel, _ | .uplinkRANStatusTransfer, _
  | .uplinkRANEarlyStatusTransfer, .initiatingMessage =>
    (lookupSession ⟨m.gnb.gnbIP, m.stream⟩ s).toList
  | _, _ => []

/-- Every session the message can be taken to be about is of the UE it names, and a handover is
begun only where that UE has no session on another channel. -/
def Unmistakable (s : State) (X : Surroundings) (m : Message) : Prop :=
  (∀ h ∈ candidates m s, h.ids.amfUEID = named C m) ∧
    (m.env.procedureCode = .handoverPreparation → m.env.type = .initiatingMessage →
      (begun C X s m).isSome → ∀ h ∈ sessions s, h.ids.amfUEID = named C m →
        h.key = ⟨m.gnb.gnbIP, m.stream⟩)

/-! ## One message -/

/-- The sessions are those of the handovers the UEs are in, under their own keys. -/
def Consistent (s : State) (t : Current) : Prop :=
  ∀ k h, s.hoSessions.lookup k = some h → k = h.key ∧ t h.ids.amfUEID = some h

variable {C}
variable {s s' : State} {t : Current} {m : Message} {h h' : HandoverSession}

/-- Between the two states only such messages are sent. -/
def Sends (P : Sent → Prop) (s s' : State) : Prop :=
  ∃ new, s'.sent = new ++ s.sent ∧ ∀ o ∈ new, P o

theorem Sends.none {P : Sent → Prop} (hs : s'.sent = s.sent) : Sends P s s' :=
  ⟨[], hs, by simp⟩

theorem Sends.one {P : Sent → Prop} {s₁ : State} {o : Sent} (h₁ : Sends P s s₁)
    (hs : s'.sent = o :: s₁.sent) (ho : P o) : Sends P s s' := by
  obtain ⟨new, hnew, hP⟩ := h₁
  refine ⟨o :: new, by rw [hs, hnew, cons_append], ?_⟩
  exact forall_mem_cons.2 ⟨ho, hP⟩

theorem Sends.emitted {P : Sent → Prop} (hs : Sends P s s') : ∀ o ∈ emitted s s', P o := by
  obtain ⟨new, hnew, hP⟩ := hs
  have heq : Handover.emitted s s' = new := by simp [Handover.emitted, hnew]
  rw [heq]
  exact hP

theorem Consistent.init : Consistent State.init fun _ => none := by
  intro k h hk
  simp [State.init] at hk

section

variable (hc : Consistent s t)
include hc

/-- A UE has one session at most. -/
theorem Consistent.unique {k k' : HoSessionKey}
    (hk : s.hoSessions.lookup k = some h) (hk' : s.hoSessions.lookup k' = some h')
    (ha : h.ids.amfUEID = h'.ids.amfUEID) : k = k' := by
  obtain ⟨hkey, ht⟩ := hc k h hk
  obtain ⟨hkey', ht'⟩ := hc k' h' hk'
  rw [ha, ht', some.injEq] at ht
  rw [hkey, hkey', ht]

theorem Consistent.session (hm : h ∈ sessions s) :
    s.hoSessions.lookup h.key = some h ∧ t h.ids.amfUEID = some h := by
  obtain ⟨k, hk⟩ := mem_sessions.1 hm
  obtain ⟨hkey, ht⟩ := hc k h hk
  exact ⟨hkey ▸ hk, ht⟩

/-- The sessions stay, and so does the handover of a UE that has one of them. -/
theorem Consistent.same (hs : s'.hoSessions = s.hoSessions) {a : Nat} {v : Option HandoverSession}
    (hv : ∀ h ∈ sessions s, h.ids.amfUEID = a → v = some h) :
    Consistent s' (update t a v) := by
  intro k h hk
  rw [hs] at hk
  refine ⟨(hc k h hk).1, ?_⟩
  by_cases ha : h.ids.amfUEID = a
  · rw [ha, update_self]
    exact hv h (mem_sessions.2 ⟨k, hk⟩) ha
  · rw [update_of_ne ha]
    exact (hc k h hk).2

/-- The session of a UE is forgotten. -/
theorem Consistent.erase {k₀ : HoSessionKey}
    (h₀ : s.hoSessions.lookup k₀ = some h) (hs : s'.hoSessions = s.hoSessions.erase k₀)
    (v : Option HandoverSession) : Consistent s' (update t h.ids.amfUEID v) := by
  intro k h' hk
  rw [hs, AssocMap.lookup_erase_eq] at hk
  split at hk
  case isTrue => simp at hk
  case isFalse hne =>
    refine ⟨(hc k h' hk).1, ?_⟩
    have ha : h'.ids.amfUEID ≠ h.ids.amfUEID := fun ha => hne (hc.unique hk h₀ ha)
    rw [update_of_ne ha]
    exact (hc k h' hk).2

/-- A session is assigned, and no session of that UE is under another key. -/
theorem Consistent.assign (hs : s'.hoSessions = s.hoSessions.assign h.key h)
    (honly : ∀ h' ∈ sessions s, h'.ids.amfUEID = h.ids.amfUEID → h'.key = h.key) :
    Consistent s' (update t h.ids.amfUEID (some h)) := by
  intro k h' hk
  rw [hs, AssocMap.lookup_assign_eq] at hk
  split at hk
  case isTrue heq =>
    simp_all
  case isFalse hne =>
    refine ⟨(hc k h' hk).1, ?_⟩
    have ha : h'.ids.amfUEID ≠ h.ids.amfUEID := fun ha =>
      hne ((hc k h' hk).1.trans (honly h' (mem_sessions.2 ⟨k, hk⟩) ha))
    rw [update_of_ne ha]
    exact (hc k h' hk).2

end

/-- The two things a message must keep up. -/
abbrev KeptUp (C : Codec) (s : State) (t : Current) (X : Surroundings) (m : Message) : Prop :=
  Correct C s t X m ∧ Consistent (handle C X m s) (track C X s m t)

section

variable (hc : Consistent s t)
include hc

/-- A message that sends what is right, and leaves the sessions and the handovers alone. -/
theorem KeptUp.of_relay (ht : track C X s m t = t) (hsends : Sends (Right C t m) s (handle C X m s))
    (hsess : (handle C X m s).hoSessions = s.hoSessions) : KeptUp C s t X m := by
  refine ⟨⟨hsends.emitted, ?_⟩, ?_⟩
  · intro _ k h hk _
    rw [hsess]
    exact hk
  · rw [ht]
    intro k h hk
    rw [hsess] at hk
    exact hc k h hk

/-- A message that ends the handover of the UE it names, whose session it has found. -/
theorem KeptUp.of_forget (hm : h ∈ sessions s)
    (ha : h.ids.amfUEID = named C m) (hsends : Sends (Right C t m) s (handle C X m s))
    (hsess : (handle C X m s).hoSessions = s.hoSessions.erase h.key) : KeptUp C s t X m := by
  obtain ⟨hk₀, -⟩ := hc.session hm
  refine ⟨⟨hsends.emitted, ?_⟩, ?_⟩
  · grind [AList.lookup_erase_ne]
  · unfold track
    rw [← ha]
    exact hc.erase hk₀ hsess _

/-- A message the AMF has no session for: nothing is sent. -/
theorem KeptUp.of_ignored (hstep : handle C X m s = s)
    (ht : ∀ h ∈ sessions s, h.ids.amfUEID = named C m →
      advance C X s m (some h) = some h) : KeptUp C s t X m := by
  refine ⟨⟨?_, ?_⟩, ?_⟩
  · rw [hstep]
    exact (Sends.none rfl).emitted
  · intro _ k h hk _
    rw [hstep]
    exact hk
  · rw [hstep]
    refine hc.same rfl ?_
    intro h hm ha
    rw [← ha, (hc.session hm).2]
    exact ht h hm ha

/-! ## The handlers, one by one -/

theorem keptUp_preparation
    (hp : m.env.procedureCode = .handoverPreparation) (hu : Unmistakable C s X m) :
    KeptUp C s t X m := by
  have hstep : handle C X m s = handleHandoverPreparation C X m.gnb m.env m.stream s := by
    simp only [handle, hp]
  have hnamed : namedIds C m = requiredIds C m.env.value := by simp only [namedIds, hp]
  by_cases hty : m.env.type = .initiatingMessage
  case neg =>
    refine .of_ignored hc ?_ ?_
    · rw [hstep, handleHandoverPreparation, if_pos hty]
    · intro h _ _
      cases hty' : m.env.type <;> simp_all [advance]
  -- The failure goes back where the request came from, with the ids of the request.
  have hfail : ∀ (cause : Cause) (ok : Bool), Right C t m
      ⟨m.gnb, ⟨.unsuccessfulOutcome, .handoverPreparation,
        (C.handoverPreparationFailureValue (requiredIds C m.env.value) cause).getD emptyValue⟩,
        m.stream, ok⟩ := by
    intro cause ok
    simp only [Right, hp, if_true, hnamed]
    exact ⟨trivial, trivial, cause, rfl⟩
  have hkeep : begun C X s m = none → track C X s m t = t := by
    intro hb
    simp only [track, advance, hp, hty, hb, none_or, update_eq_self]
  cases htar : targetFor C X m.gnb m.env.value with
  | none =>
    have heff : handle C X m s = sendHandoverPreparationFailure C X m.gnb m.stream
        (requiredIds C m.env.value) .radioNetworkUnknownTargetID s := by
      rw [hstep, handleHandoverPreparation, if_neg (not_not.2 hty), htar]
    refine .of_relay hc (hkeep (by simp [begun, htar])) ?_ ?_
    · rw [heff]
      exact (Sends.none rfl).one rfl (hfail _ _)
    · rw [heff]
      rfl
  | some target =>
    have heff := hstep
    rw [handleHandoverPreparation, if_neg (not_not.2 hty), htar] at heff
    by_cases hok : X.sendOk s.sent.length = true
    · simp only [sendEnvelope_ok, hok, if_true] at heff
      have hb : begun C X s m =
          some ⟨m.gnb, target, m.stream, m.stream, requiredIds C m.env.value⟩ := by
        simp [begun, hok, htar]
      refine ⟨⟨?_, fun hne => absurd hp hne⟩, ?_⟩
      · rw [heff]
        exact ((Sends.none rfl).one rfl trivial).emitted
      · unfold track
        simp only [advance, hp, hty, hb, some_or]
        have ha : named C m = (requiredIds C m.env.value).amfUEID := by rw [named, hnamed]
        rw [ha, heff]
        refine hc.assign (h := ⟨m.gnb, target, m.stream, m.stream, _⟩) rfl ?_
        intro h' hm ha'
        exact hu.2 hp hty (by rw [hb]; rfl) h' hm (ha'.trans ha.symm)
    · simp only [sendEnvelope_ok, hok] at heff
      refine .of_relay hc (hkeep (by simp [begun, hok])) ?_ ?_
      · rw [heff]
        exact ((Sends.none rfl).one rfl trivial).one rfl (hfail _ _)
      · rw [heff]
        rfl

theorem keptUp_resourceAllocation
    (hp : m.env.procedureCode = .handoverResourceAllocation) (hu : Unmistakable C s X m) :
    KeptUp C s t X m := by
  have hstep : handle C X m s =
      handleHandoverResourceAllocation C X m.gnb m.env m.stream s := by
    simp only [handle, hp]
  cases hl : lookupSessionByTarget X m.gnb m.stream s with
  | none =>
    refine .of_ignored hc (by rw [hstep, handleHandoverResourceAllocation, hl]) ?_
    grind [advance, lookupSessionByTarget_none]
  | some h =>
    have hmem := lookupSessionByTarget_some hl
    obtain ⟨hm, htar⟩ := targetGnb_of_mem_byTarget hmem
    rw [handleHandoverResourceAllocation, hl] at hstep
    cases hty : m.env.type with
    | initiatingMessage =>
      simp only [hty] at hstep
      refine .of_ignored hc hstep ?_
      intro h' _ _
      simp only [advance, hp, hty]
    | successfulOutcome =>
      have ha := hu.1 h (by simpa [candidates, hp, hty] using hmem)
      obtain ⟨hk, ht⟩ := hc.session hm
      simp only [hty] at hstep
      have hright : ∀ ok, Right C t m
          ⟨h.sourceGnb, ⟨.successfulOutcome, .handoverPreparation, m.env.value⟩,
            h.sourceStream, ok⟩ := by
        intro ok
        exact ⟨h, ha ▸ ht, rfl, rfl⟩
      by_cases hok : X.sendOk s.sent.length = true
      · simp only [sendEnvelope_ok, hok, if_true] at hstep
        refine ⟨⟨?_, ?_⟩, ?_⟩
        · rw [hstep]
          exact ((Sends.none rfl).one rfl (hright _)).emitted
        · intro _ k h' hk' hne
          have hkey : k ≠ h.key := by
            grind
          simp_all
        · unfold track
          rw [← ha, ht]
          simp only [advance, hp, hty, bind_some]
          rw [if_pos htar, acknowledged, if_pos hok]
          have hassign : (handle C X m s).hoSessions =
              s.hoSessions.assign h.key { h with targetStream := m.stream } := by
            rw [hstep]
            rfl
          refine hc.assign (h := { h with targetStream := m.stream }) hassign ?_
          intro h' hm' ha'
          exact hc.unique (hc.session hm').1 hk ha'
      · simp only [sendEnvelope_ok, hok] at hstep
        refine .of_forget hc hm ha ?_ ?_
        · rw [hstep]
          exact (Sends.none rfl).one rfl (hright _)
        · rw [hstep]
          rfl
    | unsuccessfulOutcome =>
      have ha := hu.1 h (by simpa [candidates, hp, hty] using hmem)
      obtain ⟨hk, ht⟩ := hc.session hm
      simp only [hty] at hstep
      refine .of_forget hc hm ha ?_ ?_
      · rw [hstep]
        refine (Sends.none rfl).one rfl ?_
        simp only [Right, hp]
        exact ⟨h, ha ▸ ht, ⟨rfl, rfl⟩, _, rfl⟩
      · rw [hstep]
        rfl

theorem keptUp_notification
    (hp : m.env.procedureCode = .handoverNotification) (hu : Unmistakable C s X m) :
    KeptUp C s t X m := by
  have hstep : handle C X m s = handleHandoverNotification C X m.gnb m.env m.stream s := by
    simp only [handle, hp]
  cases hl : lookupSessionByTarget X m.gnb m.stream s with
  | none =>
    refine .of_ignored hc (by rw [hstep, handleHandoverNotification, hl]) ?_
    grind [advance, lookupSessionByTarget_none]
  | some h =>
    have hmem := lookupSessionByTarget_some hl
    obtain ⟨hm, -⟩ := targetGnb_of_mem_byTarget hmem
    rw [handleHandoverNotification, hl] at hstep
    by_cases hty : m.env.type = .initiatingMessage
    case neg =>
      simp only [if_pos hty] at hstep
      refine .of_ignored hc hstep ?_
      grind [advance]
    have ha := hu.1 h (by simpa [candidates, hp, hty] using hmem)
    obtain ⟨-, ht⟩ := hc.session hm
    simp only [hty, ne_eq, not_true, if_false] at hstep
    have hright : ∀ ok, Right C t m
        ⟨h.sourceGnb, ⟨.initiatingMessage, .ueContextRelease, emptyValue⟩, h.sourceStream,
          ok⟩ := by
      intro ok
      simp only [Right, hp]
      exact ⟨h, ha ▸ ht, rfl, rfl⟩
    refine .of_forget hc hm ha ?_ ?_
    · rw [hstep]
      split
      · exact ((Sends.none rfl).one rfl trivial).one rfl (hright _)
      · exact (Sends.none rfl).one rfl (hright _)
    · rw [hstep]
      split <;> rfl

theorem keptUp_cancel (hp : m.env.procedureCode = .handoverCancel)
    (hu : Unmistakable C s X m) : KeptUp C s t X m := by
  have hstep : handle C X m s = handleHandoverCancel C X m.gnb m.env m.stream s := by
    simp only [handle, hp]
  cases hl : lookupSession ⟨m.gnb.gnbIP, m.stream⟩ s with
  | none =>
    refine .of_ignored hc (by rw [hstep, handleHandoverCancel, hl]) ?_
    intro h hm _
    have hne : h.key ≠ ⟨m.gnb.gnbIP, m.stream⟩ := by
      intro hkey
      have hk := (hc.session hm).1
      rw [hkey] at hk
      exact absurd (hl.symm.trans hk) (by simp)
    simp [advance, hp, hne]
  | some h =>
    obtain ⟨hkey, ht⟩ := hc _ h hl
    have ha := hu.1 h (by simp [candidates, hp, hl])
    rw [handleHandoverCancel, hl] at hstep
    simp only [HandoverSession.key, HoSessionKey.mk.injEq] at hkey
    refine .of_forget hc (mem_sessions.2 ⟨_, hl⟩) ha ?_ ?_
    · rw [hstep]
      refine ((Sends.none rfl).one rfl ?_).one rfl ?_
      · exact ⟨h, ha ▸ ht, ⟨hkey.1, hkey.2⟩, rfl⟩
      · simp only [Right, hp]
        exact ⟨h, ha ▸ ht, rfl, rfl⟩
    · rw [hstep, HandoverSession.key, ← hkey.1, ← hkey.2]
      rfl

/-- The two RAN status transfers, which go down as `down`. -/
theorem keptUp_statusTransfer {down : Procedure}
    (hdown : down = .downlinkRANStatusTransfer ∨ down = .downlinkRANEarlyStatusTransfer)
    (hstep : handle C X m s = relayToTarget X down m.gnb m.env.value m.stream s)
    (ht : track C X s m t = t)
    (hcand : candidates m s = (lookupSession ⟨m.gnb.gnbIP, m.stream⟩ s).toList)
    (hu : Unmistakable C s X m) : KeptUp C s t X m := by
  cases hl : lookupSession ⟨m.gnb.gnbIP, m.stream⟩ s with
  | none =>
    rw [relayToTarget, hl] at hstep
    refine .of_relay hc ht ?_ (by rw [hstep])
    rw [hstep]
    exact .none rfl
  | some h =>
    have ha := hu.1 h (by simp [hcand, hl])
    rw [relayToTarget, hl] at hstep
    refine .of_relay hc ht ?_ (by rw [hstep]; rfl)
    rw [hstep]
    refine (Sends.none rfl).one rfl ?_
    have hcur : t (named C m) = some h := ha ▸ (hc _ h hl).2
    obtain rfl | rfl := hdown <;> exact ⟨h, hcur, rfl, rfl⟩

/-- Whatever the message, what is sent is right and the handovers are kept, when the UE cannot be
mistaken. -/
theorem keptUp_of_unmistakable (hu : Unmistakable C s X m) : KeptUp C s t X m := by
  have htrack : (advance C X s m (t (named C m)) = t (named C m)) → track C X s m t = t := by
    intro h
    simp only [track, h, update_eq_self]
  cases hp : m.env.procedureCode with
  | handoverPreparation => exact keptUp_preparation hc hp hu
  | handoverResourceAllocation => exact keptUp_resourceAllocation hc hp hu
  | handoverNotification => exact keptUp_notification hc hp hu
  | handoverCancel => exact keptUp_cancel hc hp hu
  | uplinkRANStatusTransfer =>
    grind [handle, handleUplinkRANStatusTransfer, advance, candidates, keptUp_statusTransfer]
  | uplinkRANEarlyStatusTransfer =>
    by_cases hty : m.env.type = .initiatingMessage
    · refine keptUp_statusTransfer hc (.inr rfl) ?_ (htrack ?_) ?_ hu
      · simp only [handle, hp, handleUplinkRANEarlyStatus, hty, ne_eq, not_true, if_false]
      · simp only [advance, hp]
      · simp only [candidates, hp, hty]
    · have hstep : handle C X m s = s := by
        simp only [handle, hp, handleUplinkRANEarlyStatus, ne_eq, hty, not_false_eq_true, if_true]
      exact .of_ignored hc hstep fun h _ _ => by simp only [advance, hp]
  | pathSwitchRequest =>
    have hstep : handle C X m s = handlePathSwitchRequest C X m.gnb m.env m.stream s := by
      simp only [handle, hp]
    rw [handlePathSwitchRequest] at hstep
    refine .of_relay hc (htrack (by simp only [advance, hp])) ?_ ?_
    · rw [hstep]
      split
      · exact .none rfl
      · dsimp only
        split <;> exact (Sends.none rfl).one rfl trivial
    · rw [hstep]
      split
      · rfl
      · dsimp only
        split <;> rfl
  | ngReset =>
    have hstep : handle C X m s = handleNGReset X m.gnb m.env s := by simp only [handle, hp]
    rw [handleNGReset] at hstep
    refine .of_relay hc (htrack (by simp only [advance, hp])) ?_ ?_
    · rw [hstep]
      split
      · exact (Sends.none rfl).one rfl trivial
      · exact .none rfl
    · rw [hstep]
      split <;> rfl
  | handoverSuccess | ueContextRelease | downlinkRANStatusTransfer
  | downlinkRANEarlyStatusTransfer =>
    have hstep : handle C X m s = s := by simp only [handle, hp]
    exact .of_ignored hc hstep fun h _ _ => by simp only [advance, hp]

end

/-! ## When it can -/

/-! ## Runs -/

/-- A state with the handover each UE is in. -/
abbrev Tracked := State × Current

def Tracked.init : Tracked := (.init, fun _ => none)

variable (V C)

def tstep (s : Tracked) (e : Event) : Tracked :=
  (step V C s.1 e,
    match e with
    | .ngap X m => track C X s.1 m s.2
    | .amf _ | .userPlane .. => s.2)

/-- The event is no NGAP message, or one whose UE the AMF cannot mistake. -/
def Clear (s : Tracked) : Event → Prop
  | .ngap X m => Unmistakable C s.1 X m
  | .amf _ | .userPlane .. => True

/-- What the AMF makes of the event is right. -/
def Relays (s : Tracked) : Event → Prop
  | .ngap X m => Correct C s.1 s.2 X m
  | .amf _ | .userPlane .. => True

/-- In every run in which the AMF cannot mistake the UE of any message, each message it sends goes
to the source or the target of the UE that the message before it names, and no message ends the
handover of another UE. -/
theorem relays_of_clear {es : List Event} (h : Meets (tstep V C) (Clear C) Tracked.init es) :
    Meets (tstep V C) (Relays C) Tracked.init es := by
  refine h.imp (I := fun s => Consistent s.1 s.2) ?_ Consistent.init
  intro s e hc hclear
  cases e with
  | ngap X m => exact keptUp_of_unmistakable hc hclear
  | amf i | userPlane imsi psi tunnel => exact ⟨trivial, hc⟩

/-! ## A laboratory with two gNBs

The values carry the two NGAP ids and nothing else the AMF reads. -/

namespace Lab

def source : GnbCtx := ⟨1, Amf.Lab.gnb⟩

def target : GnbCtx := ⟨2, [0x67, 0x32]⟩

/-- The IEs AMF-UE-NGAP-ID and RAN-UE-NGAP-ID, for ids of one octet. -/
def idsValue (a r : UInt8) : Bytes :=
  [0x00, 0x00, 0x02, 0x00, 0x0A, 0x00, 0x02, 0x00, a, 0x00, 0x55, 0x00, 0x02, 0x00, r]

def readIds : Bytes → Option UeIds
  | [0x00, 0x00, 0x02, 0x00, 0x0A, _, 0x02, 0x00, a, 0x00, 0x55, _, 0x02, 0x00, r] =>
    some ⟨a.toNat, r.toNat⟩
  | _ => none

def codec : Codec where
  handoverRequired v := (readIds v).map fun ids => ⟨ids, none⟩
  notifySource v := (readIds v).map fun _ => false
  handoverFailureCause _ := none
  pathSwitchRequest _ := none
  handoverPreparationFailureValue _ _ := none
  handoverCancelAcknowledgeValue ids :=
    some (idsValue (UInt8.ofNat ids.amfUEID) (UInt8.ofNat ids.ranUEID))
  pathSwitchRequestFailureValue _ := none
  ids _ _ v := (readIds v).getD ⟨0, 0⟩
  tunnels _ _ := []

/-- Both gNBs are connected and every send succeeds. -/
def surroundings : Surroundings where
  all := [source, target]
  isConnected _ := true
  allPLMNs _ := []
  handoverRequestValue _ _ _ := none
  sendOk _ := true
  mapOrder := 0
  acceptor := none

/-- A message that names a UE by its ids, on stream 1. -/
def message (gnb : GnbCtx) (type : MsgType) (procedure : Procedure) (a r : UInt8) : Event :=
  .ngap surroundings ⟨gnb, ⟨type, procedure, idsValue a r⟩, 1⟩

/-- One handover from preparation to notification. -/
def oneHandover : List Event :=
  [message source .initiatingMessage .handoverPreparation 1 7,
    message target .successfulOutcome .handoverResourceAllocation 1 9,
    message source .initiatingMessage .uplinkRANStatusTransfer 1 7,
    message target .initiatingMessage .handoverNotification 1 9]

/-- Two UEs of the source share a stream; the first one's handover is cancelled. -/
def sharedStream : List Event :=
  [message source .initiatingMessage .handoverPreparation 1 7,
    message source .initiatingMessage .handoverPreparation 2 8,
    message source .initiatingMessage .handoverCancel 1 7]

end Lab

theorem relays_one_handover :
    Meets (tstep Amf.Lab.env Lab.codec) (Relays Lab.codec) Tracked.init Lab.oneHandover := by
  refine relays_of_clear Amf.Lab.env Lab.codec ⟨⟨?_, ?_⟩, ⟨?_, ?_⟩, ⟨?_, ?_⟩, ⟨?_, ?_⟩, trivial⟩
  · decide
  · decide
  · decide
  · decide
  · decide
  · decide
  · decide
  · decide

/-- The cancellation of the first UE's handover ends that of the second one. -/
theorem relays_wrong_on_shared_stream :
    ¬ ∀ es, Meets (tstep Amf.Lab.env Lab.codec) (Relays Lab.codec) Tracked.init es := by
  intro hall
  obtain ⟨-, -, hcancel, -⟩ := hall Lab.sharedStream
  have hkept := hcancel.2 (by decide) ⟨Amf.Lab.gnb, 1⟩ ⟨Lab.source, Lab.target, 1, 1, ⟨2, 8⟩⟩
    (by decide) (by decide)
  exact absurd hkept (by decide)

end MmtCore.Amf.Handover
