import MmtCore.Amf.Moves

/-!
# When a cached security context is used again

A registration request skips primary authentication when its context, or the context of its
subscriber, holds keys from an earlier registration.  Here: exactly when that happens
(`contextReused_iff`), and exactly when the request that brings it about is known to come from the
holder of those keys (`reuse_authenticated_iff`).
-/

namespace MmtCore.Amf

open MmtCore.Lib List

variable {V : Env} {X : Ext} {r : Ref} {s t : AmfState}

/-! ## The integrity check -/

/-- The MAC of a protected PDU is right under the keys of the slot. -/
def MacVerifies (V : Env) (slot : NasSlot) (pdu : Bytes) : Prop :=
  securityHeaderType (some pdu) ≠ 0 ∧ slot.knasInt.length = nasKeyLen ∧
    ∃ epd sht m₁ m₂ m₃ m₄ sqn payload,
      pdu = epd :: sht :: m₁ :: m₂ :: m₃ :: m₄ :: sqn :: payload ∧
      nasMAC V slot.eia slot.knasInt (estimateCount slot.ul sqn) .uplink (sqn :: payload) =
        .ok [m₁, m₂, m₃, m₄]

variable {sec : SecurityCtx} {pdu : Bytes} {verified : Option Nat} {L : List Kind}
  {rr : RegistrationRequest} {existing : Ref} {outer : Option Bytes} {inner : Bytes} {m : Message}
  {src : Ref} {d : Delivery}

theorem unwrap_macVerifies {sht : UInt8} {p : Bytes × Nat} (h : unwrap V sec pdu sht = .ok p)
    (hsht : securityHeaderType (some pdu) ≠ 0) :
    MacVerifies V (sec.slot (sec.rxPending sht)) pdu := by
  unfold unwrap at h
  dsimp only at h
  split at h
  · cases h
  · rename_i hkey
    refine ⟨hsht, by simpa using hkey, ?_⟩
    split at h
    · split at h
      · cases h
      · split at h
        · cases h
        · simp_all
    · cases h

/-- What is received with a key at hand has a right MAC. -/
theorem rxNAS_macVerifies {p : Bytes × RxMeta} (h : rxNAS V sec pdu = .ok p)
    (hsht : securityHeaderType (some pdu) ≠ 0)
    (hkey : sec.checksMac (securityHeaderType (some pdu)) = true) :
    MacVerifies V (sec.slot (sec.rxPending (securityHeaderType (some pdu)))) pdu := by
  unfold rxNAS at h
  split at h
  · rename_i epd sht x tl
    change sht ≠ 0 at hsht
    change sec.checksMac sht = true at hkey
    split at h
    · cases h
    split at h
    · cases h
    split at h
    · cases h
    · rename_i hun
      exact unwrap_macVerifies hun hsht
  · cases h

theorem reuseNAS_macVerifies (h : reuseNAS V sec pdu = .ok verified)
    (hsht : securityHeaderType (some pdu) ≠ 0) :
    (∃ count, verified = some count) ∧
      MacVerifies V (sec.slot (sec.rxPending (securityHeaderType (some pdu)))) pdu := by
  unfold reuseNAS at h
  split at h
  · rename_i epd sht tl
    change sht ≠ 0 at hsht
    split at h
    · cases h
    split at h
    · cases h
    · rename_i count hun
      cases h
      exact ⟨⟨count, rfl⟩, unwrap_macVerifies hun hsht⟩
  · cases h

/-! ## What is logged of reuse -/

def Obs.reused : Obs → Option (Ref × Ref)
  | .contextReused r src => some (r, src)
  | _ => none

theorem Moves.reused_eq (h : Moves L s t) (hL : L.elem .reuse = false) :
    t.log.filterMap Obs.reused = s.log.filterMap Obs.reused := by
  refine h.log_frame Obs.reused fun o hk => ?_
  cases o <;> first | rfl | skip
  rw [← elem_iff] at hk
  exact absurd (hL.symm.trans hk) (by decide)

theorem Acts.reused_eq (h : Acts r L s t) (hL : L.elem .reuse = false) :
    t.log.filterMap Obs.reused = s.log.filterMap Obs.reused :=
  h.moves.reused_eq hL

/-- The initial context setup that carries the accept can be sent. -/
def setupSendable (X : Ext) (u : Ue) (cap : Bytes) (n : Nat) : Bool :=
  X.gnbUp u.gnbKey && canStartNGAPProcedure u.book.ngapProc .initialContextSetup &&
    2 ≤ cap.length && X.sendOk n

theorem sendRegistrationAcceptReusedContext_ok (hallowed : (s.ue r).book.allowedNSSAI ≠ []) :
    (sendRegistrationAcceptReusedContext V X r s).2 =
      setupSendable X (s.ue r) (s.ue r).sec.ueSecCap s.log.length := by
  have hue : ∀ tmsi, (s.exec (.setTmsi r tmsi)).ue r = { s.ue r with tmsi5g := tmsi } :=
    fun tmsi => exec_ue_self rfl
  have hlog : ∀ tmsi, (s.exec (.setTmsi r tmsi)).log = s.log := fun _ => rfl
  unfold sendRegistrationAcceptReusedContext setupSendable
  simp only [hue]
  by_cases hup : X.gnbUp (s.ue r).gnbKey = true
  · simp only [hup, if_true, Bool.true_and, initialCtxSetupSend, hue, gnbSendNGAP, hlog]
    grind
  · simp [hup]

/-! ## Which requests lead to reuse -/

/-- The context whose keys a path uses again, if the accept can be sent. -/
def RegistrationPath.reuses (X : Ext) (r : Ref) (s : AmfState) : RegistrationPath → Option Ref
  | .reuseOwn rr _ =>
    if setupSendable X (s.ue r) (rr.ueSecurityCapability.getD (s.ue r).sec.ueSecCap) s.log.length
    then some r else none
  | .reuseOther _ _ existing _ =>
    if setupSendable X (s.ue r) (s.ue existing).sec.ueSecCap (s.log.length + 1)
    then some existing else none
  | _ => none

section

variable (rr : RegistrationRequest) (inner : Bytes) (supi : Imsi)

/-- The request leaves alone what the setup looks at. -/
theorem enterSubscriber_setupSendable (cap : Bytes) (n : Nat) :
    setupSendable X ((enterSubscriber X r rr inner supi s).ue r) cap n =
      setupSendable X (s.ue r) cap n := by
  have hgnb : ((enterSubscriber X r rr inner supi s).ue r).gnbKey = (s.ue r).gnbKey := by
    refine (enterSubscriber_acts X rr inner supi).frame Ue.gnbKey (fun s c u hk => ?_) r
    cases c <;> first | rfl | (simp [Cmd.effect]; done) | (simp [Cmd.kind] at hk)
  have hproc : ((enterSubscriber X r rr inner supi s).ue r).book.ngapProc =
      (s.ue r).book.ngapProc := by
    simp [enterSubscriber, runNSSFWithRequested, enterSUPI, AmfState.exec, Book.ofRequest]
  unfold setupSendable
  rw [hgnb, hproc]

theorem enterSubscriber_log : (enterSubscriber X r rr inner supi s).log = s.log :=
  (enterSubscriber_acts X rr inner supi).log_eq rfl

end

theorem reuseOwnContext_reused (hallowed : (s.ue r).book.allowedNSSAI ≠ []) :
    (reuseOwnContext V X r rr s).log.filterMap Obs.reused =
      (if setupSendable X (s.ue r) (s.ue r).sec.ueSecCap s.log.length then [(r, r)] else []) ++
        s.log.filterMap Obs.reused := by
  have hsent : (sendRegistrationAcceptReusedContext V X r s).1.log.filterMap Obs.reused =
      s.log.filterMap Obs.reused :=
    (sendRegistrationAcceptReusedContext_acts V X).reused_eq rfl
  unfold reuseOwnContext
  dsimp only
  rw [sendRegistrationAcceptReusedContext_ok hallowed]
  split
  · rw [(reconcilePDUSessionsOnRegistration_acts X rr).reused_eq rfl]
    simp only [AmfState.exec, AmfState.push_log, filterMap_cons, Obs.reused, hsent]
    rfl
  · rw [(authenticateAfresh_acts V X).reused_eq rfl]
    exact hsent

theorem acceptAdopted_reused (hallowed : (s.ue r).book.allowedNSSAI ≠ []) :
    (acceptAdopted V X r existing rr s).log.filterMap Obs.reused =
      (if setupSendable X (s.ue r) (s.ue r).sec.ueSecCap s.log.length then [(r, existing)]
        else []) ++ s.log.filterMap Obs.reused := by
  have hsent : (sendRegistrationAcceptReusedContext V X r s).1.log.filterMap Obs.reused =
      s.log.filterMap Obs.reused :=
    (sendRegistrationAcceptReusedContext_acts V X).reused_eq rfl
  unfold acceptAdopted
  dsimp only
  rw [sendRegistrationAcceptReusedContext_ok hallowed]
  split
  · rw [(reconcilePDUSessionsOnRegistration_acts X rr).reused_eq rfl]
    simp only [AmfState.exec, AmfState.push_log, filterMap_cons, Obs.reused, hsent]
    rfl
  · rw [(startAuthentication_acts V X).reused_eq rfl]
    exact hsent

/-- What the adopting context has when it takes the place of the other one. -/
theorem adopt_ue (outer : Bytes) (count : Nat) (hne : existing ≠ r) :
    let t := replaceContext existing r (adoptKeys r existing outer (some count) s)
    t.log.length = s.log.length + 1 ∧ (t.ue r).sec.ueSecCap = (s.ue existing).sec.ueSecCap ∧
      (t.ue r).book = (s.ue r).book ∧ (t.ue r).gnbKey = (s.ue r).gnbKey := by
  have hremove : ∀ s' : AmfState, (replaceContext existing r s').ue r = s'.ue r := fun s' => by
    have h : (remove existing s').ue r = s'.ue r := remove_acts.ue_of_ne hne.symm
    exact h
  have hremoveLog : ∀ s' : AmfState, (replaceContext existing r s').log = s'.log := fun s' => by
    have h : (remove existing s').log = s'.log := remove_acts.log_eq rfl
    exact h
  dsimp only
  rw [hremove, hremoveLog]
  simp only [adoptKeys, AmfState.exec, AmfState.updSec]
  refine ⟨by simp, ?_, ?_, ?_⟩
  · simp only [AmfState.upd_ue_self, AmfState.push_ue, SecurityCtx.migrate]
    unfold SecurityCtx.setSlot
    split <;> rfl
  · simp [AmfState.upd_ue_of_ne _ hne.symm]
  · simp [AmfState.upd_ue_of_ne _ hne.symm]

/-- The outer PDU of an adopted context is there, and counted. -/
theorem reuseOther_verified (hsht : securityHeaderType outer ≠ 0)
    (hver : reuseNAS V sec (outer.getD []) = .ok verified) :
    ∃ pdu count, outer = some pdu ∧ verified = some count := by
  cases outer with
  | none => exact absurd rfl hsht
  | some pdu =>
    obtain ⟨⟨count, rfl⟩, -⟩ := reuseNAS_macVerifies hver hsht
    exact ⟨pdu, count, rfl, rfl⟩

theorem enterAdopted_setup {supi : Imsi}
    (hdec : (RegistrationPath.reuseOther rr supi existing verified).Decided V X r inner outer s) :
    let t := enterAdopted X r existing rr inner supi outer verified s
    setupSendable X (t.ue r) (t.ue r).sec.ueSecCap t.log.length =
        setupSendable X (s.ue r) (s.ue existing).sec.ueSecCap (s.log.length + 1) ∧
      (t.ue r).book.allowedNSSAI ≠ [] := by
  obtain ⟨-, -, hne, hslices, -, hsht, hver⟩ := hdec
  obtain ⟨pdu, count, rfl, rfl⟩ := reuseOther_verified hsht hver
  obtain ⟨hlen, hcap, hbook, hgnb⟩ := adopt_ue (s := enterSubscriber X r rr inner supi s)
    pdu count hne
  dsimp only [enterAdopted, Option.getD_some]
  refine ⟨?_, by rw [hbook, enterSubscriber_allowed]; exact hslices⟩
  rw [hlen, hcap, enterSubscriber_log, enterSubscriber_ue_of_ne X rr inner supi hne]
  have hsend := enterSubscriber_setupSendable (X := X) (r := r) (s := s) rr inner supi
    (s.ue existing).sec.ueSecCap (s.log.length + 1)
  unfold setupSendable at hsend ⊢
  rw [hbook, hgnb, hsend]

/-- The request is answered on the keys of another context, or of its own, or not at all. -/
theorem followPath_reused {path : RegistrationPath} (hdec : path.Decided V X r inner outer s) :
    (followPath V X r inner outer s path).log.filterMap Obs.reused =
      ((path.reuses X r s).toList.map fun src => (r, src)) ++ s.log.filterMap Obs.reused := by
  cases path with
  | duplicate => exact (resendCachedNAS_acts V X).reused_eq rfl
  | malformed cause => exact (rejectRegistration_acts V X cause).reused_eq rfl
  | unidentified rr =>
    exact ((sendIdentityRequest_acts V X _).reused_eq rfl).trans
      ((copyRequest_acts rr).reused_eq rfl)
  | unresolvable rr =>
    exact ((abortRegistrationAndReleaseN1_acts V X _).reused_eq rfl).trans
      ((copyRequest_acts rr).reused_eq rfl)
  | illegal rr supi =>
    exact ((rejectRegistration_acts V X _).reused_eq rfl).trans
      ((enterSUPI_acts rr inner supi).reused_eq rfl)
  | noSlices rr supi =>
    exact ((rejectRegistration_acts V X _).reused_eq rfl).trans
      ((enterSubscriber_acts X rr inner supi).reused_eq rfl)
  | reuseOwn rr supi =>
    obtain ⟨-, -, hslices, -⟩ := hdec
    rw [followPath, reuseOwnContext_reused (by rw [enterSubscriber_allowed]; exact hslices),
      enterSubscriber_setupSendable, enterSubscriber_log, enterSubscriber_sec]
    unfold RegistrationPath.reuses
    dsimp only
    split <;> rfl
  | reuseOther rr supi existing verified =>
    obtain ⟨hsend, hallowed⟩ := enterAdopted_setup hdec
    rw [followPath_reuseOther, acceptAdopted_reused hallowed, hsend,
      (enterAdopted_moves existing rr inner supi outer verified).reused_eq rfl]
    unfold RegistrationPath.reuses
    dsimp only
    split <;> rfl
  | authenticate rr supi existing =>
    refine ((authenticateAfresh_acts V X).reused_eq rfl).trans ?_
    have htake : ∀ s' : AmfState, (takePlace existing r s').log = s'.log := fun s' => by
      unfold takePlace
      split
      · rfl
      · have h : (remove existing s').log = s'.log := remove_acts.log_eq rfl
        exact h
    rw [htake, enterSubscriber_log]
    rfl

/-- The context a message makes the AMF use again. -/
def Message.reuses (V : Env) (X : Ext) (m : Message) : Option Ref :=
  if m.msgType = msgRegistrationRequest then
    (registrationPath V X m.r m.inner m.outer m.entry).reuses X m.r m.entry
  else none

theorem handle_reused (m : Message) :
    (handle V X m.r m.msgType m.inner m.outer m.entry).log.filterMap Obs.reused =
      ((m.reuses V X).toList.map fun src => (m.r, src)) ++ m.entry.log.filterMap Obs.reused := by
  unfold Message.reuses
  refine handle_elim V X
    (motive := fun t => t.log.filterMap Obs.reused = _ ++ m.entry.log.filterMap Obs.reused)
    (fun hty => ?_) (fun hty => ?_) (fun hty => ?_) (fun hty => ?_) (fun hty => ?_)
    (fun hty => ?_) (fun hty => ?_) (fun hty => ?_)
  · rw [handleRegistrationRequest_eq, if_pos hty]
    exact followPath_reused (registrationPath_decided V X m.inner m.outer)
  · rw [hty]
    exact (handleDeregistrationRequestMO_moves m.inner).reused_eq rfl
  · rw [hty]
    exact (handleAuthenticationResponse_acts V X m.inner).reused_eq rfl
  · rw [hty]
    exact (handleAuthenticationFailure_acts V X m.inner).reused_eq rfl
  · rw [hty]
    exact (handleIdentityResponse_moves m.inner).reused_eq rfl
  · rw [hty]
    exact (handleSecurityModeComplete_acts V X m.inner).reused_eq rfl
  · rw [hty]
    exact (handleSecurityModeReject_acts V X m.inner).reused_eq rfl
  · rw [if_neg (fun h => hty (by rw [h]; decide))]
    exact (handle_other_acts V X hty m.inner m.outer).reused_eq rfl

/-- A registration request always gets to its handler. -/
theorem Message.passes_of_registrationRequest (hty : m.msgType = msgRegistrationRequest) :
    m.passes = true := by
  unfold Message.passes checkCollision
  rw [hty]
  split
  · rfl
  split <;> rfl

/-- Exactly the messages that lead to reuse, and on which keys. -/
theorem contextReused_iff {ev : Event} : .contextReused r src ∈ emitted s (stepEvent V X s ev) ↔
      ∃ m, handed V X s ev = some m ∧ m.r = r ∧ m.reuses V X = some src := by
  have hemitted := emitted_of_handled (V := V) (X := X) (s := s) (f := Obs.reused)
    (fun o ho => by cases o <;> simp [Obs.kind] at ho <;> rfl) handle_reused
    (fun m hpass => by
      unfold Message.reuses
      rw [if_neg]
      · rfl
      · intro hty
        rw [Message.passes_of_registrationRequest hty] at hpass
        cases hpass) ev
  have hmem : .contextReused r src ∈ emitted s (stepEvent V X s ev) ↔
      (r, src) ∈ (emitted s (stepEvent V X s ev)).filterMap Obs.reused := by
    simp only [mem_filterMap]
    constructor
    · intro h
      exact ⟨_, h, rfl⟩
    · rintro ⟨o, ho, heq⟩
      cases o <;> simp [Obs.reused] at heq
      obtain ⟨rfl, rfl⟩ := heq
      exact ho
  grind

/-! ## Reuse and the integrity of the request -/

/-- A message comes out of a PDU whose outermost layer was accepted. -/
theorem message_rxNAS (h : d.message V = some m) :
    ∃ p, rxNAS V (d.state.ue d.r).sec d.pdu = .ok p := by
  unfold Delivery.message at h
  grind [receive]

theorem securityHeaderType_outerPDU (h : securityHeaderType (outerPDU pdu) ≠ 0) :
    outerPDU pdu = some pdu := by
  match pdu with
  | [] => exact absurd rfl h
  | [_] => exact absurd rfl h
  | epd :: sht :: tl =>
    by_cases hsht : sht = 0
    · simp [outerPDU, hsht, securityHeaderType] at h
    · simp [outerPDU, hsht]

theorem reuses_cases (h : m.reuses V X = some src) :
    src = m.r ∨ (src ≠ m.r ∧ securityHeaderType m.outer ≠ 0 ∧
      ∃ verified, reuseNAS V (m.entry.ue src).sec (m.outer.getD []) = .ok verified) := by
  unfold Message.reuses at h
  split at h
  · have hdec := registrationPath_decided V X (r := m.r) (s := m.entry) m.inner m.outer
    cases hpath : registrationPath V X m.r m.inner m.outer m.entry with
    | reuseOwn rr supi =>
      rw [hpath] at h
      simp only [RegistrationPath.reuses, Option.ite_none_right_eq_some, Option.some.injEq] at h
      exact .inl h.2.symm
    | reuseOther rr supi existing verified =>
      rw [hpath] at h hdec
      simp only [RegistrationPath.reuses, Option.ite_none_right_eq_some, Option.some.injEq] at h
      obtain ⟨-, rfl⟩ := h
      obtain ⟨-, -, hne, -, -, hsht, hver⟩ := hdec
      exact .inr ⟨hne, hsht, verified, hver⟩
    | _ =>
      rw [hpath] at h
      cases h
  · cases h

/-- A request that makes the AMF use keys again was sent under exactly these keys. -/
def ReuseAuthenticated (V : Env) (X : Ext) (s : AmfState) (ev : Event) : Prop :=
  ∀ r src, .contextReused r src ∈ emitted s (stepEvent V X s ev) →
    ∃ d, delivery X s ev = some d ∧ d.r = r ∧ MacVerifies V (d.state.ue src).sec.op d.pdu

/-- The check against the operative keys was made: on the connection's own context, the request
has a security header and there are operative keys; and nowhere does header type 4 make the
pending keys decide, or no keys at all. -/
def ReuseChecked (V : Env) (X : Ext) (s : AmfState) (ev : Event) : Prop :=
  ∀ d m src, delivery X s ev = some d → d.message V = some m → m.reuses V X = some src →
    if src = d.r then
      securityHeaderType (some d.pdu) ≠ 0 ∧ (d.state.ue src).sec.hasOperative = true ∧
        (securityHeaderType (some d.pdu) = 4 → MacVerifies V (d.state.ue src).sec.op d.pdu)
    else
      securityHeaderType (some d.pdu) = 4 → (d.state.ue src).sec.pending = true →
        MacVerifies V (d.state.ue src).sec.op d.pdu

/-- On the connection's own context, receiving the PDU was the check. -/
theorem macVerifies_own (hm : d.message V = some m) (hsht : securityHeaderType (some d.pdu) ≠ 0)
    (hsht4 : securityHeaderType (some d.pdu) ≠ 4)
    (hkey : (d.state.ue d.r).sec.hasOperative = true) :
    MacVerifies V (d.state.ue d.r).sec.op d.pdu := by
  obtain ⟨p, hrx⟩ := message_rxNAS hm
  have hmac := rxNAS_macVerifies hrx hsht (by simp [SecurityCtx.checksMac, hsht4, hkey])
  simpa [SecurityCtx.slot, SecurityCtx.rxPending, hsht4] using hmac

/-- On another context, `Reuse` was the check. -/
theorem macVerifies_other (hm : d.message V = some m) (hreuse : m.reuses V X = some src)
    (hne : src ≠ d.r) :
    MacVerifies V ((d.state.ue src).sec.slot
      ((d.state.ue src).sec.rxPending (securityHeaderType (some d.pdu)))) d.pdu := by
  obtain ⟨hr, houter, hacts⟩ := message_acts V hm
  have hsec : m.entry.ue src = d.state.ue src := by
    rw [(entry_acts m).ue_of_ne (hr ▸ hne), hacts.ue_of_ne hne]
  grind [reuses_cases, securityHeaderType_outerPDU, reuseNAS_macVerifies]

/-- Cached keys are used again on proof of their possession exactly when the check was made. -/
theorem reuse_authenticated_iff (V : Env) (X : Ext) (s : AmfState) (ev : Event) :
    ReuseAuthenticated V X s ev ↔ ReuseChecked V X s ev := by
  constructor
  · intro h d m src hd hm hreuse
    have hhanded : handed V X s ev = some m := by
      simp [handed, hd, hm]
    obtain ⟨d', hd', -, hmac⟩ := h m.r src (contextReused_iff.2 ⟨m, hhanded, rfl, hreuse⟩)
    cases hd.symm.trans hd'
    split
    · refine ⟨hmac.1, ?_, fun _ => hmac⟩
      simp [SecurityCtx.hasOperative, hmac.2.1]
    · exact fun _ _ => hmac
  · intro h r src hemitted
    obtain ⟨m, hhanded, hr, hreuse⟩ := contextReused_iff.1 hemitted
    obtain ⟨d, hd, hm⟩ := Option.bind_eq_some_iff.1 hhanded
    have hmr := (message_acts V hm).1
    refine ⟨d, hd, hmr.symm.trans hr, ?_⟩
    have hcond := h d m src hd hm hreuse
    by_cases hsht4 : securityHeaderType (some d.pdu) = 4
    · split at hcond
      · exact hcond.2.2 hsht4
      · rename_i hne
        cases hpend : (d.state.ue src).sec.pending with
        | true => exact hcond hsht4 hpend
        | false =>
          have hmac := macVerifies_other hm hreuse hne
          simpa [SecurityCtx.slot, SecurityCtx.rxPending, hpend] using hmac
    · split at hcond
      · rename_i heq
        subst heq
        exact macVerifies_own hm hcond.1 hsht4 hcond.2.1
      · rename_i hne
        have hmac := macVerifies_other hm hreuse hne
        simpa [SecurityCtx.slot, SecurityCtx.rxPending, hsht4] using hmac

/-- A plain request that names a 5G-S-TMSI and key set identifier 0, on a new connection. -/
theorem reuse_without_authentication :
    ¬ ∀ (V : Env) (s : AmfState) (i : Input),
      Reach (step V) (fun _ _ => True) AmfState.init s → ReuseAuthenticated V i.ext s i.ev := by
  intro h
  have hreach := reach_run (step Lab.env) AmfState.init Lab.registered
  obtain ⟨d, hd, -, hmac⟩ := h Lab.env _ (Lab.initial 2 Lab.gutiRequestPDU (some Lab.tmsi)) hreach
    0 0 (by decide +kernel)
  have hplain : (delivery Lab.ext (run (step Lab.env) AmfState.init Lab.registered)
      (Lab.initial 2 Lab.gutiRequestPDU (some Lab.tmsi)).ev).map
        (fun d => securityHeaderType (some d.pdu)) = some 0 := by
    decide +kernel
  have heq := congrArg (Option.map fun d : Delivery => securityHeaderType (some d.pdu)) hd
  rw [show (Lab.initial 2 Lab.gutiRequestPDU (some Lab.tmsi)).ext = Lab.ext from rfl, hplain] at heq
  simp only [Option.map_some, Option.some.injEq] at heq
  exact hmac.1 heq.symm

end MmtCore.Amf
