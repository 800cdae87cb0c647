import MmtCore.Amf.HandoverRuns

/-!
# Where a handover leaves the UE

The context of a UE is bound to a gNB and a RAN-UE-NGAP-ID, and its downlink FARs forward to
tunnels.  No handler of the handover messages writes either, the final ones included, so that a UE
is served by the target afterwards just if it was so before.
-/

namespace MmtCore.Amf.Handover

open MmtCore.Lib

variable {V : Env} {C : Codec} {X : Surroundings} {s s' : State} {m : Message}

/-! ## The handlers leave contexts and FARs alone -/

/-- The UE contexts and the downlink FARs are the same. -/
def SameBinding (s s' : State) : Prop := s'.amf = s.amf ∧ s'.downlink = s.downlink

theorem SameBinding.refl (s : State) : SameBinding s s := ⟨rfl, rfl⟩

theorem handleHandoverPreparation_binding (g : GnbCtx) (env : Envelope) (stream : Nat) :
    SameBinding s (handleHandoverPreparation C X g env stream s) := by
  unfold handleHandoverPreparation
  split
  · exact .refl s
  · dsimp only
    split
    · exact ⟨rfl, rfl⟩
    · split <;> exact ⟨rfl, rfl⟩

theorem handleHandoverResourceAllocation_binding (g : GnbCtx) (env : Envelope) (stream : Nat) :
    SameBinding s (handleHandoverResourceAllocation C X g env stream s) := by
  unfold handleHandoverResourceAllocation
  split
  · exact .refl s
  · split
    · dsimp only
      split <;> exact ⟨rfl, rfl⟩
    · exact ⟨rfl, rfl⟩
    · exact .refl s

theorem relayToTarget_binding (down : Procedure) (g : GnbCtx) (value : Bytes) (stream : Nat) :
    SameBinding s (relayToTarget X down g value stream s) := by
  unfold relayToTarget
  split <;> exact ⟨rfl, rfl⟩

section

variable (g : GnbCtx) (env : Envelope) (stream : Nat)

theorem handleHandoverNotification_binding :
    SameBinding s (handleHandoverNotification C X g env stream s) := by
  unfold handleHandoverNotification
  split
  · exact .refl s
  · split
    · exact .refl s
    · split <;> exact ⟨rfl, rfl⟩

theorem handleHandoverCancel_binding : SameBinding s (handleHandoverCancel C X g env stream s) := by
  unfold handleHandoverCancel
  split <;> exact ⟨rfl, rfl⟩

theorem handlePathSwitchRequest_binding :
    SameBinding s (handlePathSwitchRequest C X g env stream s) := by
  unfold handlePathSwitchRequest
  split
  · exact .refl s
  · dsimp only
    split <;> exact ⟨rfl, rfl⟩

end

/-- Only NG Reset changes a binding. -/
theorem handle_binding (hm : m.env.procedureCode ≠ .ngReset) :
    SameBinding s (handle C X m s) := by
  unfold handle
  split
  · exact handleHandoverPreparation_binding ..
  · exact handleHandoverResourceAllocation_binding ..
  · exact handleHandoverNotification_binding ..
  · exact handleHandoverCancel_binding ..
  · exact relayToTarget_binding ..
  · exact handlePathSwitchRequest_binding ..
  · unfold handleUplinkRANEarlyStatus
    split
    · exact .refl s
    · exact relayToTarget_binding ..
  · rename_i hreset
    exact absurd hreset hm
  · exact .refl s
  · exact .refl s
  · exact .refl s
  · exact .refl s

variable (V C)

/-! ## NG Reset of the source -/

section Reset

variable {a : AmfState} {r : Ref} {id : Nat}

end Reset

/-! ## When a handover has moved the UE -/

/-- The message completes a handover, or is a path switch request that is acknowledged. -/
def Completes (s : State) (X : Surroundings) (m : Message) : Prop :=
  (m.env.procedureCode = .handoverNotification ∧ m.env.type = .initiatingMessage ∧
    ∃ h ∈ sessions s, h.targetGnb = m.gnb) ∨
  (m.env.procedureCode = .pathSwitchRequest ∧ m.env.type = .initiatingMessage ∧
    (pathSwitchDecision X m.gnb m.env.value).2 = true ∧ X.sendOk s.sent.length = true)

/-- The tunnels each target has last acknowledged, by AMF-UE-NGAP-ID. -/
abbrev Admitted := GnbCtx → Nat → List (Nat × Tunnel)

def acked (m : Message) (t : Admitted) : Admitted :=
  if m.env.procedureCode = .handoverResourceAllocation ∧ m.env.type = .successfulOutcome then
    Function.update t m.gnb
      (Function.update (t m.gnb) (named C m) (C.tunnels m.env.procedureCode m.env.value))
  else t

/-- The tunnels of the target for the UE the message names. -/
def targetTunnels (t : Admitted) (m : Message) : List (Nat × Tunnel) :=
  if m.env.procedureCode = .pathSwitchRequest then C.tunnels m.env.procedureCode m.env.value
  else t m.gnb (named C m)

/-- The context is bound to the gNB and the RAN-UE-NGAP-ID, and the downlink forwards to the
tunnels. -/
def Served (s : State) (r : Ref) (gnb : GnbKey) (ran : Nat) (tunnels : List (Nat × Tunnel)) :
    Prop :=
  (s.amf.ue r).gnbKey = gnb ∧ (s.amf.ue r).ranUeNgapId = ran ∧
    ∀ p ∈ tunnels, s.downlink (s.amf.ue r).imsi p.1 = some p.2

/-- The UE a message names, if the AMF has a context for it, is served by the gNB the message comes
from. -/
def ServedBySender (s : State) (t : Admitted) (m : Message) (s' : State) : Prop :=
  ∀ r, s.amf.lookupByAmfID (named C m) = some r →
    Served s' r m.gnb.gnbIP (namedIds C m).ranUEID (targetTunnels C t m)

/-- A completed handover or acknowledged path switch moves the UE to the sender; every other
message of the procedures leaves the UEs where they are. -/
def Moves (s : State × Admitted) : Event → Prop
  | .ngap X m =>
    (Completes s.1 X m → ServedBySender C s.1 s.2 m (handle C X m s.1)) ∧
      (¬ Completes s.1 X m → m.env.procedureCode ≠ .ngReset →
        SameBinding s.1 (handle C X m s.1))
  | .amf _ | .userPlane .. => True

/-- A handover that is completed, or a path switch that is acknowledged, finds the UE served by the
target already. -/
def AlreadyMoved (s : State × Admitted) : Event → Prop
  | .ngap X m => Completes s.1 X m → ServedBySender C s.1 s.2 m s.1
  | .amf _ | .userPlane .. => True

def bstep (s : State × Admitted) (e : Event) : State × Admitted :=
  (step V C s.1 e,
    match e with
    | .ngap _ m => acked C m s.2
    | .amf _ | .userPlane .. => s.2)

variable {C}

theorem Completes.not_reset (h : Completes s X m) : m.env.procedureCode ≠ .ngReset := by
  obtain ⟨hp, -⟩ | ⟨hp, -⟩ := h <;> simp [hp]

theorem SameBinding.served (h : SameBinding s s') {r : Ref} {gnb : GnbKey} {ran : Nat}
    {tunnels : List (Nat × Tunnel)} :
    Served s' r gnb ran tunnels ↔ Served s r gnb ran tunnels := by
  unfold Served
  rw [h.1, h.2]

theorem moves_iff_alreadyMoved (s : State × Admitted) (e : Event) :
    Moves C s e ↔ AlreadyMoved C s e := by
  cases e with
  | amf i | userPlane imsi psi tunnel => exact Iff.rfl
  | ngap X m =>
    have hserved : Completes s.1 X m →
        (ServedBySender C s.1 s.2 m (handle C X m s.1) ↔ ServedBySender C s.1 s.2 m s.1) := by
      intro hcomp
      have hsame : SameBinding s.1 (handle C X m s.1) := handle_binding hcomp.not_reset
      exact forall₂_congr fun r _ => hsame.served
    constructor
    · intro h hcomp
      exact (hserved hcomp).1 (h.1 hcomp)
    · intro h
      exact ⟨fun hcomp => (hserved hcomp).2 (h hcomp), fun _ hm => handle_binding hm⟩

variable (C)

/-- Over any run, the handovers move the UEs just if each final message finds its UE moved. -/
theorem handover_moves_iff {s : State × Admitted} (es : List Event) :
    Meets (bstep V C) (Moves C) s es ↔ Meets (bstep V C) (AlreadyMoved C) s es :=
  Meets.congr moves_iff_alreadyMoved

/-- A registered UE is handed over to the target and remains bound to the source. -/
theorem notify_leaves_ue_at_source :
    ¬ ∀ es, Meets (bstep Amf.Lab.env Lab.codec) (Moves Lab.codec)
      (State.init, fun _ _ => []) es := by
  intro hall
  have h := hall (Amf.Lab.registered.map .amf ++ Lab.oneHandover)
  obtain ⟨-, -, -, -, -, -, -, hnotify, -⟩ := h
  have hserved := hnotify.1 (.inl ⟨rfl, rfl, ⟨Lab.source, Lab.target, 1, 1, ⟨1, 7⟩⟩,
    by decide, rfl⟩) 0 (by decide)
  exact absurd hserved.1 (by decide)

end MmtCore.Amf.Handover
