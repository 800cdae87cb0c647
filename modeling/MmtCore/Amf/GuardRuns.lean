import MmtCore.Amf.GuardHandlers

/-!
# Guard timers over whole runs

The handlers together: what a message has to meet (`Message.KeepsGuard`), what the other inputs
have to meet, and the invariant over every run whose inputs meet it.
-/

namespace MmtCore.Amf

open MmtCore.Lib List Option Prod Lab AmfState Message

variable {V : Env} {X : Ext} {r q : Ref} {s t : AmfState}

/-! ## Messages -/

/-- The message leaves the state machine guarded. -/
def Message.KeepsGuard (V : Env) (X : Ext) (m : Message) : Prop :=
  if m.msgType = msgRegistrationRequest then
    (registrationPath V X m.r m.inner m.outer m.entry).KeepsGuard V X m.aborts m.r m.entry
  else if m.msgType = msgDeregistrationRequestMO then
    DeregistrationKeepsGuard V X m.aborts m.r m.inner m.entry
  else if m.msgType = msgSecurityModeComplete then
    completeFails V X (m.entry.ue m.r) m.inner = false
  else if m.msgType = msgIdentityResponse then
    identityFails V X m.r m.inner m.entry = false
  else True

variable {m : Message} {L : List Kind} {ev : Event} {d : Delivery} {psis : List Nat} {ran : Nat}
  {gnb : GnbKey}

/-- Only requests abort a running procedure. -/
theorem Message.aborts_of_ne (hreg : m.msgType ≠ msgRegistrationRequest)
    (hdereg : m.msgType ≠ msgDeregistrationRequestMO) : m.aborts = false := by
  simp [aborts, hreg, hdereg]

theorem Message.entry_guard (h : AtRest m.state) : Entry m.aborts m.r m.entry := by
  cases ha : m.aborts with
  | false =>
    rw [entry_of_not_aborts ha]
    exact h.entry m.r false
  | true =>
    rw [entry_of_aborts ha]
    have hwatch := abortCurrentProcedure_watch m.r m.state
    have hacts := abortCurrentProcedure_acts (r := m.r) (s := m.state)
    refine ⟨fun q hq => ?_, Ue.loose_of_no_timers (Prod.mk.inj hwatch).2, ?_, fun hno => by cases hno⟩
    · rw [hacts.ue_of_ne hq]
      exact h q
    · rw [(Prod.mk.inj hwatch).1]
      exact (h m.r).2

theorem handle_guard (h : AtRest m.state) (hkeeps : m.KeepsGuard V X) :
    AtRest (handle V X m.r m.msgType m.inner m.outer m.entry) ∧
      (m.aborts = true →
        NothingDropped m.entry (handle V X m.r m.msgType m.inner m.outer m.entry)) := by
  have hentry := entry_guard h
  unfold Message.KeepsGuard at hkeeps
  -- all but the two requests start from a state at rest
  have hplain : m.msgType ≠ msgRegistrationRequest → m.msgType ≠ msgDeregistrationRequestMO →
      m.aborts = false ∧ AtRest m.entry := fun hreg hdereg =>
    have ha := aborts_of_ne hreg hdereg
    ⟨ha, hentry.atRest fun h' => by simp [ha] at h'⟩
  have hother : ∀ ty, m.msgType = ty → ty ≠ msgRegistrationRequest →
      ty ≠ msgDeregistrationRequestMO → m.aborts = false ∧ AtRest m.entry := fun ty hty =>
    hty ▸ hplain
  refine handle_elim V X
    (motive := fun t => AtRest t ∧ (m.aborts = true → NothingDropped m.entry t))
    (fun hty => ?_) (fun hty => ?_) (fun hty => ?_) (fun hty => ?_) (fun hty => ?_) (fun hty => ?_)
    (fun hty => ?_) (fun hty => ?_)
  · rw [if_pos hty] at hkeeps
    rw [handleRegistrationRequest_eq]
    exact followPath_guard hentry (registrationPath_decided V X m.inner m.outer) hkeeps
  · rw [if_neg (by rw [hty]; decide), if_pos hty] at hkeeps
    exact handleDeregistrationRequestMO_guard hentry hkeeps
  · obtain ⟨ha, hrest⟩ := hother _ hty (by decide) (by decide)
    exact ⟨(handleAuthenticationResponse_acts V X m.inner).atRest
      (handleAuthenticationResponse_atRest (hrest m.r)) hrest, fun h' => by simp [ha] at h'⟩
  · obtain ⟨ha, hrest⟩ := hother _ hty (by decide) (by decide)
    exact ⟨(handleAuthenticationFailure_acts V X m.inner).atRest
      (handleAuthenticationFailure_atRest (hrest m.r)) hrest, fun h' => by simp [ha] at h'⟩
  · obtain ⟨ha, hrest⟩ := hother _ hty (by decide) (by decide)
    rw [if_neg (by rw [hty]; decide), if_neg (by rw [hty]; decide), if_neg (by rw [hty]; decide),
      if_pos hty] at hkeeps
    exact ⟨handleIdentityResponse_atRest hrest hkeeps, fun h' => by simp [ha] at h'⟩
  · obtain ⟨ha, hrest⟩ := hother _ hty (by decide) (by decide)
    rw [if_neg (by rw [hty]; decide), if_neg (by rw [hty]; decide), if_pos hty] at hkeeps
    exact ⟨(handleSecurityModeComplete_acts V X m.inner).atRest
      (handleSecurityModeComplete_atRest (hrest m.r) hkeeps) hrest, fun h' => by simp [ha] at h'⟩
  · obtain ⟨ha, hrest⟩ := hother _ hty (by decide) (by decide)
    exact ⟨(handleSecurityModeReject_acts V X m.inner).atRest
      (handleSecurityModeReject_atRest (hrest m.r)) hrest, fun h' => by simp [ha] at h'⟩
  · obtain ⟨ha, hrest⟩ := hplain (fun heq => hty (by rw [heq]; decide))
      (fun heq => hty (by rw [heq]; decide))
    exact ⟨(handle_other_acts V X hty m.inner m.outer).atRest
      (handle_other_atRest hty (hrest m.r)) hrest, fun h' => by simp [ha] at h'⟩

theorem handleMessage_guard (h : AtRest m.state) (hkeeps : m.passes = true → m.KeepsGuard V X) :
    AtRest (handleMessage V X m.r m.inner m.outer m.state) ∧
      (m.aborts = true →
        NothingDropped m.state (handleMessage V X m.r m.inner m.outer m.state)) := by
  have hentry : NothingDropped m.state m.entry := (entry_acts m).moves.nothingDropped rfl
  rw [handleMessage_eq]
  split
  · rename_i hpass
    obtain ⟨hrest, hnote⟩ := handle_guard h (hkeeps hpass)
    exact ⟨hrest, fun ha => hentry.trans (hnote ha)⟩
  · rename_i hpass
    refine ⟨(entry_guard h).atRest fun ha => ?_, fun _ => hentry⟩
    -- a request that aborts is passed on
    refine absurd ?_ hpass
    simp only [aborts, Bool.and_eq_true, Bool.or_eq_true, beq_iff_eq, bne_iff_ne] at ha
    unfold passes checkCollision
    split
    · rfl
    · rw [if_neg ha.2, if_pos ha.1]

/-! ## Inputs -/

/-- The input leaves the state machines guarded: its message does, and a connection is not
released under a context that waits while no procedure is marked as running. -/
def KeepsGuards (V : Env) (X : Ext) (s : AmfState) : Event → Prop
  | .ueContextReleaseRequest gnb amfId ran userInactivity _ =>
    ∀ r ∈ locateUE gnb amfId ran s, (s.ue r).book.gmmProc = .none →
      (userInactivity = true ∧ (s.ue r).book.retxNASPDU ≠ []) ∨ (s.ue r).waits = false
  | ev => ∀ m ∈ handed V X s ev, m.passes = true → m.KeepsGuard V X

theorem moves_atRest (h : Moves L s t) (hL : L.all (· ∉ watchKinds) = true) (hs : AtRest s) :
    AtRest t := by
  refine h.keeps AtRest (fun s' c r hon hk hs' => ?_) hs
  have hone : Acts r [c.kind] s' (s'.exec c) := Acts.one hon (by simp)
  have hc : [c.kind].all (· ∉ watchKinds) = true := by
    simpa using all_eq_true.1 hL _ hk
  exact hone.atRest ((hs' r).congr (hone.watch_eq hc r)) hs'

theorem delivery_atRest (hd : delivery X s ev = some d) (h : AtRest s) : AtRest d.state := by
  cases ev with
  | initialUE gnb ran nas tmsi req =>
    simp only [delivery] at hd
    split at hd
    · cases hd
    · simp only [map_eq_some_iff] at hd
      obtain ⟨p, hp, rfl⟩ := hd
      dsimp only
      refine moves_atRest (L := [.book]) (book_acts _).moves rfl ?_
      unfold contextForInitialUE at hp
      split at hp
      · cases hp
        exact h
      split at hp
      · cases hp
        exact moves_atRest rebindByTMSI_acts.moves rfl h
      · simp only [Option.map_eq_some_iff] at hp
        obtain ⟨id, -, rfl⟩ := hp
        refine newContext_acts.atRest (atRest_of_dropped ?_) h
        simp [newContext, AmfState.exec, AmfState.create, AmfState.insert, Ue.new, Ue.watch]
  | uplinkNAS gnb amfId ran nas =>
    simp only [delivery, map_eq_some_iff] at hd
    obtain ⟨q, hq, rfl⟩ := hd
    have hcancel : Acts q [.cancel] s (s.exec (.cancel q .t3513)) := by
      apply Acts.one <;> rfl
    exact hcancel.atRest (cancel_t3513_atRest (h q)) h
  | _ => cases hd

theorem dispatch_guard (h : AtRest d.state)
    (hkeeps : ∀ m ∈ d.message V, m.passes = true → m.KeepsGuard V X) :
    AtRest (dispatch V X d.r d.pdu d.state) ∧
      (∀ m ∈ d.message V, m.aborts = true →
        NothingDropped d.state (dispatch V X d.r d.pdu d.state)) := by
  cases hm : d.message V with
  | none =>
    rw [dispatch_of_no_message V X hm]
    refine ⟨moves_atRest (receive_acts V _ _).moves rfl h, fun m hmem => ?_⟩
    cases hmem
  | some m =>
    obtain ⟨-, -, hacts⟩ := message_acts V hm
    obtain ⟨hrest, hnote⟩ := handleMessage_guard (V := V) (X := X)
      (moves_atRest hacts.moves rfl h) (hkeeps m hm)
    rw [dispatch_of_message V X hm]
    refine ⟨hrest, fun m' hmem ha => ?_⟩
    cases hmem
    exact (hacts.moves.nothingDropped rfl).trans (hnote ha)

theorem releaseRequest_atRest {userInactivity : Bool} (h : (s.ue r).AtRest)
    (hkeeps : (s.ue r).book.gmmProc = .none →
      (userInactivity = true ∧ (s.ue r).book.retxNASPDU ≠ []) ∨ (s.ue r).waits = false) :
    ((releaseRequest X r userInactivity psis s).ue r).AtRest := by
  unfold releaseRequest
  split
  · exact h
  rename_i hactive
  dsimp only
  have hlist : Acts r [.book] s (if psis = [] then s else
      s.exec (.book r fun b => { b with pendingReleasePDUList := psis })) := by
    split
    · exact .refl
    · exact book_acts _
  have hproc : ((if psis = [] then s else
      s.exec (.book r fun b => { b with pendingReleasePDUList := psis })).ue r).book.gmmProc =
        (s.ue r).book.gmmProc := by
    split
    · rfl
    · simp [exec]
  have hwatch := hlist.watch_eq rfl r
  generalize (if psis = [] then s else
    s.exec (.book r fun b => { b with pendingReleasePDUList := psis })) = s₁ at hproc hwatch ⊢
  -- the timers are off from here on
  have hstopped : (((s₁.exec (.cancelAll r)).exec (.book r fun b =>
      { b with cm := .idle, gnbContextEstablished := false, ngapProc := .none })).ue r).watch =
        ((s.ue r).fsm, fun _ => none) := by
    rw [(book_acts _).watch_eq rfl, cancelAll_watch, (mk.inj hwatch).1]
  have hproc' : (((s₁.exec (.cancelAll r)).exec (.book r fun b =>
      { b with cm := .idle, gnbContextEstablished := false, ngapProc := .none })).ue r).book.gmmProc
        = (s.ue r).book.gmmProc := by
    simpa [exec] using hproc
  generalize (s₁.exec (.cancelAll r)).exec (.book r fun b =>
    { b with cm := .idle, gnbContextEstablished := false, ngapProc := .none }) = s₂
    at hstopped hproc' ⊢
  have hsend : ∀ s', ((sendCommand X r s').ue r).watch = (s'.ue r).watch := fun s' =>
    (sendCommand_acts X).watch_eq rfl r
  rw [hproc']
  split
  · rename_i hnone
    refine Ue.AtRest.congr ?_ (hsend s₂)
    have hquiet := (hkeeps hnone).resolve_left hactive
    refine ⟨Ue.guarded_of_not_waits (Ue.loose_of_no_timers (mk.inj hstopped).2) ?_, ?_⟩
    · unfold Ue.waits at hquiet ⊢
      rw [(mk.inj hstopped).1]
      exact hquiet
    · rw [(mk.inj hstopped).1]
      exact h.2
  · refine Ue.AtRest.congr ?_ (hsend _)
    refine Ue.AtRest.congr ?_ (endProcedure_acts.watch_eq rfl r)
    have habort := abortCurrentProcedure_watch r s₂
    have hrm : ((abortCurrentProcedure r s₂).ue r).watch = ((s.ue r).fsm, fun _ => none) := by
      rw [habort, (mk.inj hstopped).1]
    unfold onNASLowerLayerFailure
    dsimp only
    split
    · refine ⟨Ue.guarded_of_loose (Ue.loose_of_no_timers ?_) ?_, ?_⟩
      · simpa [exec] using (mk.inj hrm).2
      · simp [exec, guardTimer]
      · simp [exec]
    · refine atRest_of_dropped ?_
      simpa [exec, Ue.watch] using (mk.inj hrm).2

theorem releaseComplete_atRest (h : (s.ue r).AtRest) :
    ((releaseComplete r ran psis s).ue r).AtRest := by
  unfold releaseComplete
  split
  · exact h
  dsimp only
  have hstart : Acts r [.sessions, .smf, .book] s (suspendPDUSessions r psis
      (s.exec (.book r fun b =>
        { b with ngapProc := .none, gnbContextEstablished := false, cm := .idle }))) :=
    ((book_acts _).mono rfl).andThen (suspendPDUSessions_acts psis) rfl
  split
  · exact h.congr (hstart.watch_eq rfl r)
  split
  · exact atRest_of_dropped (remove_watch r _)
  · exact atRest_of_dropped (clearVolatile_watch r _)

theorem expiry_not_unrest : ∀ ev ∈ expiryEvents, ev ∉ unrestEvents := by decide

theorem expireTimer_atRest {n : Timer} (h : (s.ue r).AtRest) :
    ((expireTimer X r n s).ue r).AtRest := by
  refine ⟨expireTimer_guarded h.1, ?_⟩
  unfold expireTimer
  split
  · exact h.2
  · rename_i ev hev
    -- no row of an expiry leads to a deregistration
    have hexpiry := allowed_expiry _ _ (h.1.1 n ev hev)
    have hcancel : ((s.exec (.cancel r n)).ue r).fsm = (s.ue r).fsm := by
      simp [exec]
    rw [fire_fsm, hcancel]
    cases hrow : findTransition (s.ue r).fsm ev with
    | none => exact h.2
    | some row =>
      obtain ⟨hmem, -, hevent⟩ := findTransition_some hrow
      grind [row_rests, expiry_not_unrest]

theorem foldl_atRest {f : AmfState → Ref → AmfState} (hf : ∀ s q, AtRest s → AtRest (f s q))
    (l : List Ref) (h : AtRest s) : AtRest (l.foldl f s) := by
  induction l generalizing s with
  | nil => exact h
  | cons q l ih => exact ih (hf s q h)

theorem removeAllForGnb_atRest (h : AtRest s) : AtRest (removeAllForGnb gnb s) := by
  refine foldl_atRest (fun s q hs => ?_) _ (foldl_atRest (fun s q hs => ?_) _ h)
  · exact removeHooks_acts.atRest (atRest_of_dropped (removeHooks_watch q s)) hs
  · exact hs

/-- Without a context there is nothing to do. -/
theorem initialUE_undelivered {nas : Bytes} {tmsi : Option Nat} {req : Bool}
    (hd : delivery X s (.initialUE gnb ran nas tmsi req) = none) :
    Moves [] s (stepEvent V X s (.initialUE gnb ran nas tmsi req)) := by
  simp only [delivery] at hd
  simp only [stepEvent, initialUEHandle]
  split
  · exact .refl
  · rename_i hne
    rw [if_neg hne, map_eq_none_iff] at hd
    rw [hd]
    exact .refl

/-! ## Runs -/

theorem stepEvent_atRest (h : AtRest s) (hkeeps : KeepsGuards V X s ev) :
    AtRest (stepEvent V X s ev) := by
  cases hd : delivery X s ev with
  | some d =>
    rw [stepEvent_of_delivery V X hd]
    refine (dispatch_guard (delivery_atRest hd h) fun m hm => ?_).1
    have hhanded : m ∈ handed V X s ev := by simpa [handed, hd] using hm
    cases ev with
    | initialUE | uplinkNAS => exact hkeeps m hhanded
    | _ => cases hd
  | none =>
    have hwith : ∀ {gnb amfId ran} {f : Ref → AmfState → AmfState},
        (∀ r, locateUE gnb amfId ran s = some r → AtRest (f r s)) →
        AtRest (withUE gnb amfId ran f s) := fun hf => by
      unfold withUE
      split
      · exact h
      · rename_i r hr
        exact hf r hr
    cases ev with
    | initialUE gnb ran nas tmsi req =>
      exact moves_atRest (initialUE_undelivered hd) rfl h
    | uplinkNAS gnb amfId ran nas =>
      simp only [delivery, map_eq_none_iff] at hd
      simp only [stepEvent, uplinkNASHandle, hd]
      exact h
    | ueContextReleaseRequest gnb amfId ran userInactivity psis =>
      exact hwith fun r hr => (releaseRequest_acts X _ _).atRest
        (releaseRequest_atRest (h r) (hkeeps r hr)) h
    | ueContextReleaseComplete gnb amfId ran psis =>
      exact hwith fun r _ => (releaseComplete_acts _ _).atRest (releaseComplete_atRest (h r)) h
    | initialContextSetupResponse =>
      exact hwith fun r _ => moves_atRest (icsResponse_acts V X).moves rfl h
    | initialContextSetupFailure =>
      exact hwith fun r _ => moves_atRest icsFailure_acts.moves rfl h
    | gnbDown gnb => exact removeAllForGnb_atRest h
    | retransmit r t => exact moves_atRest (retransmitTimer_acts V X t).moves rfl h
    | expire r t => exact (expireTimer_acts X t).atRest (expireTimer_atRest (h r)) h
    | sendDLNAS imsi nasPDU =>
      obtain ⟨r, hacts⟩ := sendDLNASByIMSI_acts V X (s := s) imsi nasPDU
      exact moves_atRest hacts.moves rfl h

theorem init_atRest : AtRest AmfState.init := fun _ => atRest_of_dropped rfl

theorem reach_atRest
    (h : Reach (step V) (fun s i => KeepsGuards V i.ext s i.ev) AmfState.init s) : AtRest s :=
  Reach.invariant init_atRest (fun _ _ hs hkeeps => stepEvent_atRest hs hkeeps) h

/-- The contexts aborted in the log. -/
def Obs.abortedRef : Obs → Option Ref
  | .aborted q => some q
  | _ => none

/-- Kinds other than these abort nothing. -/
theorem Moves.nothingAborted (h : Moves L s t) (hL : L.elem .abort = false) :
    t.log.filterMap Obs.abortedRef = s.log.filterMap Obs.abortedRef := by
  refine h.log_frame Obs.abortedRef fun o hk => ?_
  cases o <;> first | rfl | skip
  rw [← elem_iff] at hk
  exact absurd (hL.symm.trans hk) (by decide)

/-- In a step that aborts a procedure, every event fired finds a row. -/
theorem step_nothingDropped (h : AtRest s) (hkeeps : KeepsGuards V X s ev) :
    NothingDropped s (stepEvent V X s ev) ∨
      (stepEvent V X s ev).log.filterMap Obs.abortedRef = s.log.filterMap Obs.abortedRef := by
  cases hd : delivery X s ev with
  | none =>
    by_cases hexpire : ∃ q n, ev = .expire q n
    · obtain ⟨q, n, rfl⟩ := hexpire
      exact .inr ((expireTimer_acts X n).moves.nothingAborted rfl)
    · exact .inl ((stepEvent_quiet hd fun q n heq => hexpire ⟨q, n, heq⟩).nothingDropped
        rfl)
  | some d =>
    have hstart := delivery_moves hd
    rw [stepEvent_of_delivery V X hd]
    cases hm : d.message V with
    | none =>
      rw [dispatch_of_no_message V X hm]
      exact .inl ((hstart.nothingDropped rfl).trans
        ((receive_acts V _ _).moves.nothingDropped rfl))
    | some m =>
      cases ha : m.aborts with
      | true =>
        have hguard := dispatch_guard (V := V) (X := X) (delivery_atRest hd h) fun m' hm' => by
          have hhanded : m' ∈ handed V X s ev := by simpa [handed, hd] using hm'
          cases ev with
          | initialUE | uplinkNAS => exact hkeeps m' hhanded
          | _ => cases hd
        exact .inl ((hstart.nothingDropped rfl).trans (hguard.2 m hm ha))
      | false =>
        refine .inr (Eq.trans ?_ (hstart.nothingAborted rfl))
        obtain ⟨-, -, hacts⟩ := message_acts V hm
        rw [dispatch_of_message V X hm, handleMessage_eq, entry_of_not_aborts ha]
        refine Eq.trans ?_ (hacts.moves.nothingAborted rfl)
        split
        · exact (handle_moves ..).nothingAborted rfl
        · rfl

/-- In every run whose inputs keep the guards, a context in a state that waits for the UE has
exactly the timer of that state armed, one that waits for nobody has no timer of a procedure, and
the events fired after an abort all find a row in the table. -/
theorem guards_armed
    (h : Reach (step V) (fun s i => KeepsGuards V i.ext s i.ev) AmfState.init s) :
    (∀ q, (s.ue q).Guarded) ∧
      ∀ i : Input, KeepsGuards V i.ext s i.ev →
        (∃ q, .aborted q ∈ emitted s (step V s i)) →
          ∀ q st ev, .noTransition q st ev ∉ emitted s (step V s i) := by
  have hrest := reach_atRest h
  refine ⟨fun q => (hrest q).1, fun i hkeeps ⟨q, hq⟩ q' st ev hnote => ?_⟩
  have hmoves : Moves allKinds s (step V s i) := stepEvent_moves i.ev
  rcases step_nothingDropped hrest hkeeps with hdropped | haborted
  · have hnil := hmoves.emitted_filterMap (f := Obs.note) (l := []) hdropped
    have hmem := filterMap_eq_nil_iff.1 hnil _ hnote
    cases hmem
  · have hnil := hmoves.emitted_filterMap (f := Obs.abortedRef) (l := []) haborted
    have hmem := filterMap_eq_nil_iff.1 hnil _ hq
    cases hmem

/-- The same request once more, while the answer to the challenge is awaited. -/
theorem guard_lost :
    ¬ ∀ (V : Env) (s : AmfState), Reach (step V) (fun _ _ => True) AmfState.init s →
      ∀ q, (s.ue q).Guarded := by
  intro h
  have hguard := h env _ (reach_run (step env) init
    [initial 1 registrationRequestPDU none, uplink 1 1 registrationRequestPDU]) 0
  have harmed := hguard.2 .t3560 .t3560AuthExpired (by decide)
  revert harmed
  decide

/-- A registration up to the security mode command. -/
theorem guards_armed_commanded :
    ((run (step Lab.env) AmfState.init Lab.commanded).ue 0).Guarded := by
  refine (guards_armed (V := env)
    ((Reach.start.next (initial 1 registrationRequestPDU none) ?_).next
      (uplink 1 1 authenticationResponsePDU) ?_)).1 0
  · intro m hm _
    have hpath : (handed env ext init
        (Lab.initial 1 Lab.registrationRequestPDU none).ev).map (fun m => (m.msgType,
          registrationPath Lab.env Lab.ext m.r m.inner m.outer m.entry)) =
        some (msgRegistrationRequest, .authenticate (Lab.registrationRequest 7
          (.suci [0x30, 0x30, 0x31, 0x30, 0x31] 0 [0x00, 0x00, 0x00, 0x00, 0x10])
          (some Lab.securityCapability)) Lab.supi 0) := by
      decide
    have heq := congrArg (Option.map fun m : Message => (m.msgType,
      registrationPath env ext m.r m.inner m.outer m.entry)) hm
    change Option.map _ (handed Lab.env Lab.ext AmfState.init
      (initial 1 registrationRequestPDU none).ev) = _ at heq
    rw [hpath] at heq
    simp only [Option.map_some, Option.some.injEq, Prod.mk.injEq] at heq
    unfold Message.KeepsGuard
    rw [if_pos heq.1.symm]
    change (registrationPath Lab.env Lab.ext m.r m.inner m.outer m.entry).KeepsGuard _ _ _ _ _
    rw [← heq.2]
    trivial
  · intro m hm _
    have hty : (handed env ext (step env init
        (initial 1 registrationRequestPDU none))
          (uplink 1 1 authenticationResponsePDU).ev).map msgType =
        some msgAuthenticationResponse := by
      decide
    have heq := congrArg (Option.map Message.msgType) hm
    change Option.map _ (handed Lab.env Lab.ext (step Lab.env AmfState.init
      (initial 1 registrationRequestPDU none))
        (uplink 1 1 authenticationResponsePDU).ev) = _ at heq
    grind [Message.KeepsGuard]

end MmtCore.Amf
