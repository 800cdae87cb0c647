import MmtCore.Amf.Moves

/-!
# The guard timers of the state machine

A state of the machine that waits for the UE has one guard timer.  The transition table arms it,
and takes off the timers of the state left; an abort takes off all timers and leaves the state as
it is.  What is proved of a context is `Ue.Guarded`; in between, handlers keep `Ue.Loose`: no
timer is armed that does not belong to the state.
-/

namespace MmtCore.Amf

open MmtCore.Lib Function List Option Prod Ue Acts

variable {V : Env} {X : Ext} {r q : Ref} {s t : AmfState} {L : List Kind}

/-! ## Guards -/

/-- The timer that guards a state, with the event of its expiry. -/
def guardTimer : GmmState → Option (Timer × GmmEvent)
  | .deregistered | .registered => none
  | .identification => some (.t3570, .t3570Expired)
  | .authentication => some (.t3560, .t3560AuthExpired)
  | .securityMode => some (.t3560, .t3560SMCExpired)
  | .registeredInitiated => some (.t3550, .t3550Expired)
  | .deregistrationInitiated => some (.twaitUECtxRelease, .twaitDeregReleaseExpired)
  | .mtDeregPending => some (.t3522, .t3522Expired)

/-- The timers a state may have: its guard, and the periodic registration timer. -/
def allowedTimers (st : GmmState) : List (Timer × GmmEvent) :=
  (guardTimer st).toList ++ if st = .registered then [(.t3512, .t3512Expired)] else []

/-- No timer is armed that does not belong to the state. -/
def Ue.Loose (u : Ue) : Prop := ∀ n ev, u.timers n = some ev → (n, ev) ∈ allowedTimers u.fsm

/-- Of the timers that belong to the state, its guard is armed. -/
def Ue.Guarded (u : Ue) : Prop :=
  u.Loose ∧ ∀ n ev, guardTimer u.fsm = some (n, ev) → u.timers n = some ev

/-- The state machine and its timers. -/
def Ue.watch (u : Ue) : GmmState × (Timer → Option GmmEvent) := (u.fsm, u.timers)

variable {u : Ue} {n : Timer} {ev : GmmEvent} {inner : Bytes}

theorem Ue.Loose.congr {v : Ue} (h : u.Loose) (hw : v.watch = u.watch) : v.Loose := by
  simp only [Ue.watch, Prod.mk.injEq] at hw
  unfold Ue.Loose
  rw [hw.1, hw.2]
  exact h

theorem Ue.Guarded.congr {v : Ue} (h : u.Guarded) (hw : v.watch = u.watch) : v.Guarded := by
  refine ⟨h.1.congr hw, ?_⟩
  simp only [Ue.watch, Prod.mk.injEq] at hw
  rw [hw.1, hw.2]
  exact h.2

/-- A state that waits for nobody needs no timer. -/
theorem Ue.guarded_of_loose (h : u.Loose) (hst : guardTimer u.fsm = none) : u.Guarded := by
  refine ⟨h, fun n ev hg => ?_⟩
  rw [hst] at hg
  cases hg

theorem Ue.loose_of_no_timers (h : u.timers = fun _ => none) : u.Loose := by
  intro n ev hn
  rw [h] at hn
  cases hn

/-- The kinds that touch the state machine or its timers. -/
abbrev watchKinds : List Kind := [.create, .take, .enterSecurityMode, .cancel, .resetTo, .dropFsm]

theorem Acts.watch_eq (h : Acts r L s t) (hL : L.all (· ∉ watchKinds) = true) (q : Ref) :
    (t.ue q).watch = (s.ue q).watch := by
  refine h.frame watch (fun s c u hk => ?_) q
  have hc : c.kind ∉ watchKinds := by simpa using all_eq_true.1 hL _ hk
  cases c <;> try rfl
  all_goals first
    | (simp [Cmd.kind] at hc; done)
    | skip
  simp only [Cmd.kind] at hc
  split at hc <;> simp at hc

/-- Timers are armed by transitions only. -/
theorem Acts.timers_subset (h : Acts r L s t) (hL : L.all (· ∉ [.take, .enterSecurityMode]) = true)
    (ht : (t.ue q).timers n = some ev) : (s.ue q).timers n = some ev := by
  refine h.keeps (fun t => (t.ue q).timers n = some ev → (s.ue q).timers n = some ev)
    (fun s' c hon hk hs' ht => hs' ?_) id ht
  have hc : c.kind ∉ [.take, .enterSecurityMode] := by simpa using all_eq_true.1 hL _ hk
  by_cases hq : q = r
  · subst hq
    rw [exec_ue_self hon] at ht
    cases c <;> try exact ht
    case create => cases ht
    case take t' =>
      simp only [Cmd.kind] at hc
      split at hc <;> simp at hc
    case cancel =>
      simp only [Cmd.effect, update_apply] at ht
      split at ht
      · cases ht
      · exact ht
    case cancelAll => cases ht
    case resetTo => simpa [Cmd.effect] using ht
  · rwa [exec_ue_of_ne hon hq] at ht

/-! ## Rows of the transition table -/

/-- A row leaves no timer of the state left behind, but for the one whose expiry it is about. -/
theorem row_stops : ∀ t ∈ gmmTransitions, ∀ p ∈ allowedTimers t.source,
    p.2 = t.event ∨ p.1 ∈ t.stopTimers ∨ t.startTimer.map Prod.fst = some p.1 ∨
      p ∈ allowedTimers t.target := by decide

theorem row_starts : ∀ t ∈ gmmTransitions, ∀ p ∈ t.startTimer.toList,
    p ∈ allowedTimers t.target ∨ (t.event = .configUpdateCommandSent) := by decide

theorem row_guards : ∀ t ∈ gmmTransitions, ∀ p ∈ (guardTimer t.target).toList,
    t.startTimer = some p := by decide

/-- The events of expiries. -/
def expiryEvents : List GmmEvent :=
  [.t3570Expired, .t3560AuthExpired, .t3560SMCExpired, .t3550Expired, .twaitDeregReleaseExpired,
    .t3522Expired, .t3512Expired]

theorem allowed_expiry (st : GmmState) : ∀ p ∈ allowedTimers st, p.2 ∈ expiryEvents := by
  cases st <;> decide

/-! ## Firing -/

theorem fire_of_row {row : Transition} (hrow : findTransition (s.ue r).fsm ev = some row) :
    (fire X r ev s).ue r = ((runAction X r s row.action).ue r).take row := by
  unfold fire
  rw [hrow]
  simp [AmfState.exec]

theorem fire_of_no_row (hrow : findTransition (s.ue r).fsm ev = none) :
    fire X r ev s = s.exec (.emit (.noTransition r (s.ue r).fsm ev)) := by
  unfold fire
  rw [hrow]

/-- A transition leads to a guarded state. -/
theorem fire_guarded (hev : ev ≠ .configUpdateCommandSent) (hloose : (s.ue r).Loose)
    (hown : ∀ n, (s.ue r).timers n ≠ some ev)
    (hrow : (findTransition (s.ue r).fsm ev).isSome = true) :
    ((fire X r ev s).ue r).Guarded := by
  obtain ⟨row, hrow⟩ := isSome_iff_exists.1 hrow
  obtain ⟨hmem, hsource, hevent⟩ := findTransition_some hrow
  rw [fire_of_row hrow]
  refine ⟨?_, ?_⟩
  · intro n ev' hn
    rw [take_fsm]
    rw [take_timers] at hn
    unfold Transition.setTimers at hn
    have hkept : ((runAction X r s row.action).ue r).timers n = some ev' →
        n ∉ row.stopTimers → row.startTimer.map fst ≠ some n →
        (n, ev') ∈ allowedTimers row.target := by
      intro hold hstop hstart
      have hs : (s.ue r).timers n = some ev' := (runAction_acts X _).timers_subset rfl hold
      have hallowed := hloose n ev' hs
      rw [← hsource] at hallowed
      rcases row_stops row hmem _ hallowed with h | h | h | h
      · exact absurd (h.trans hevent ▸ hs) (hown n)
      · exact absurd h hstop
      · exact absurd h hstart
      · exact h
    split at hn
    · simp_all
    · rename_i m ev'' hsome
      split at hn
      · grind [row_starts]
      split at hn
      · cases hn
      · rename_i hne hstop
        refine hkept hn hstop ?_
        simp only [hsome, map_some, ne_eq, some.injEq]
        exact fun h => hne h.symm
  · intro n ev' hguard
    rw [take_fsm] at hguard
    have hstart := row_guards row hmem (n, ev') (by simp [hguard])
    rw [take_timers]
    unfold Transition.setTimers
    rw [hstart]
    simp

theorem fire_watch_of_no_row (hrow : findTransition (s.ue r).fsm ev = none) :
    ((fire X r ev s).ue r).watch = (s.ue r).watch := by
  rw [fire_of_no_row hrow]
  rfl

/-- An event that is no expiry finds no timer of its own. -/
theorem loose_not_own (h : u.Loose) (hev : ev ∉ expiryEvents) (n : Timer) : u.timers n ≠ some ev :=
  fun hn => hev (allowed_expiry _ _ (h n ev hn))

/-- A timer that runs out is taken off before its event is fired. -/
theorem expireTimer_guarded (h : (s.ue r).Guarded) : ((expireTimer X r n s).ue r).Guarded := by
  unfold expireTimer
  split
  · exact h
  · rename_i ev hev
    have hue : (s.exec (.cancel r n)).ue r =
        { s.ue r with timers := update (s.ue r).timers n none } := exec_ue_self rfl
    have hallowed := h.1 n ev hev
    have hloose : ((s.exec (.cancel r n)).ue r).Loose := by
      intro m ev' hm
      rw [hue] at hm ⊢
      simp only [update_apply] at hm
      split at hm
      · cases hm
      · exact h.1 m ev' hm
    have hown : ∀ m, ((s.exec (.cancel r n)).ue r).timers m ≠ some ev := by
      intro m hm
      rw [hue] at hm
      simp only [update_apply] at hm
      split at hm
      · cases hm
      · rename_i hne
        refine hne ?_
        have hm' := h.1 m ev hm
        grind [allowedTimers, guardTimer]
    refine fire_guarded ?_ hloose hown ?_
    · intro heq
      have hexpiry : GmmEvent.configUpdateCommandSent ∈ expiryEvents :=
        heq ▸ allowed_expiry _ _ hallowed
      exact absurd hexpiry (by decide)
    · rw [hue]
      revert hallowed
      generalize (s.ue r).fsm = st
      cases st <;> simp [allowedTimers, guardTimer] <;> rintro rfl rfl <;> decide

/-! ## Stopping -/

/-- Where the state machine starts. -/
abbrev dropped : GmmState × (Timer → Option GmmEvent) := (.deregistered, fun _ => none)

theorem guarded_of_dropped (h : u.watch = dropped) : u.Guarded := by
  simp only [Ue.watch, Prod.mk.injEq] at h
  exact Ue.guarded_of_loose (Ue.loose_of_no_timers h.2) (by rw [h.1]; rfl)

section

variable (r : Ref) (s : AmfState)

theorem removeHooks_watch : ((removeHooks r s).ue r).watch = dropped := by
  simp [removeHooks, AmfState.exec, Ue.watch]

theorem remove_watch : ((remove r s).ue r).watch = dropped :=
  removeHooks_watch r _

theorem clearVolatile_watch : ((clearVolatile r s).ue r).watch = dropped := by
  rw [← removeHooks_watch r s]
  have hrest : Acts r [.rm, .sessions, .book] (removeHooks r s) ((((removeHooks r s).exec
      (.setRm r .deregistered)).exec (.setSessions r [])).exec (.book r fun b =>
        { b with
          cm := .idle, gmmProc := .none, gmmSub := .none, ngapProc := .none,
          gnbContextEstablished := false, ueContextRequest := false, retxNASPDU := [],
          lastRegRequestPDU := [], initialRRCleartextOnly := false })) := by
    refine exec (exec (one ?_ ?_) ?_ ?_) ?_ ?_ <;> rfl
  exact hrest.watch_eq rfl r

theorem cancelAll_watch : ((s.exec (.cancelAll r)).ue r).watch = ((s.ue r).fsm, fun _ => none) := by
  simp [AmfState.exec, Ue.watch]

theorem abortCurrentProcedure_watch :
    ((abortCurrentProcedure r s).ue r).watch = ((s.ue r).fsm, fun _ => none) := by
  simp [abortCurrentProcedure, AmfState.exec, AmfState.updSec, Ue.watch]

end

theorem gnbKey_eq (h : Acts r L s t) (hL : L.all (· ∉ [.create, .rebind]) = true) (q : Ref) :
    (t.ue q).gnbKey = (s.ue q).gnbKey := by
  refine h.frame gnbKey (fun s c u hk => ?_) q
  have hc : c.kind ∉ [.create, .rebind] := by simpa using all_eq_true.1 hL _ hk
  cases c <;> first | rfl | (simp [Cmd.effect]; done) | (simp [Cmd.kind] at hc)

/-- What is left of the state machine after `abortRegistrationAndReleaseN1`: no timer, and the
state as it was unless the context was removed. -/
def releasedWatch (X : Ext) (u : Ue) : GmmState × (Timer → Option GmmEvent) :=
  (if X.gnbUp u.gnbKey then u.fsm else .deregistered, fun _ => none)

theorem abortRegistrationAndReleaseN1_watch (cause : Nat) :
    ((abortRegistrationAndReleaseN1 V X r cause s).ue r).watch = releasedWatch X (s.ue r) := by
  have hbefore : ∃ t, Acts r [.dl, .send, .book, .smf, .sessions] s t ∧
      abortRegistrationAndReleaseN1 V X r cause s =
        ((endProcedure r ((if X.gnbUp (t.ue r).gnbKey then sendCommand X r t
          else remove r t).exec (.cancelAll r))).exec (.setRm r .deregistered)).exec
            (.book r fun b => { b with cm := .idle }) := by
    refine ⟨(releaseAllPDUSessions r (if (s.ue r).book.gmmProc = .registration then
      sendRegistrationReject V X r cause s else s)).exec
        (.book r fun b => { b with hardRemoveOnComplete := true }), ?_, rfl⟩
    refine andThen (andThen ?_ releaseAllPDUSessions_acts rfl) (book_acts _)
      rfl
    split
    · exact (sendRegistrationReject_acts V X cause).mono rfl
    · exact .refl
  obtain ⟨t, hacts, heq⟩ := hbefore
  have hwatch : (t.ue r).watch = (s.ue r).watch := hacts.watch_eq rfl r
  have hrest : ∀ t' : AmfState, Acts r [.book, .rm] (t'.exec (.cancelAll r))
      (((endProcedure r (t'.exec (.cancelAll r))).exec (.setRm r .deregistered)).exec
        (.book r fun b => { b with cm := .idle })) := fun t' => by
    refine exec (exec (endProcedure_acts.mono rfl) ?_ ?_) ?_ ?_ <;> rfl
  rw [heq, (hrest _).watch_eq rfl, cancelAll_watch, gnbKey_eq hacts rfl]
  unfold releasedWatch
  split
  · have hcmd : ((sendCommand X r t).ue r).watch = (t.ue r).watch :=
      (sendCommand_acts X).watch_eq rfl r
    rw [← (mk.inj (hcmd.trans hwatch)).1]
  · rw [show ((remove r t).ue r).fsm = .deregistered from (mk.inj (remove_watch r t)).1]

/-- The AUSF has no vector for the SUPI. -/
def vectorMissing (X : Ext) (supi : Imsi) : Bool :=
  5 ≤ supi.length && (X.generateAV supi).isNone

theorem startAuthentication_watch :
    ((startAuthentication V X r s).ue r).watch =
      if vectorMissing X (s.ue r).imsi then releasedWatch X (s.ue r) else (s.ue r).watch := by
  have hreset : Acts r [.resetAuthentication] s (s.exec (.resetAuthentication r)) := by
    apply one <;> rfl
  unfold startAuthentication vectorMissing
  dsimp only
  split
  · rename_i hnil
    simp [hnil]
  split
  · rename_i hlen
    rw [if_neg (by simp [Nat.not_le.2 hlen])]
    exact hreset.watch_eq rfl r
  · rename_i hlen
    have hlen' : 5 ≤ (s.ue r).imsi.length := Nat.not_lt.1 hlen
    cases hav : X.generateAV (s.ue r).imsi with
    | none =>
      rw [if_pos (by simp [hlen'])]
      rw [abortRegistrationAndReleaseN1_watch]
      have hwatch := hreset.watch_eq rfl r
      unfold releasedWatch
      rw [gnbKey_eq hreset rfl, (mk.inj hwatch).1]
    | some av =>
      rw [if_neg (by simp)]
      have hsend : Acts r ([.challenge, .dl, .resetAuthentication, .send, .book]) s
          (sendAuthenticationRequest V X r (((s.exec (.resetAuthentication r)).exec
            (.book r fun b => { b with gmmProc := .registration, gmmSub := .authentication })).exec
            (.challenge r av (chooseNewNGKSI (s.ue r).book.nasKSI (s.ue r).sec [])))).1 := by
        refine andThen (exec (exec (hreset.mono rfl) ?_ ?_) ?_ ?_)
          (sendAuthenticationRequest_acts V X) rfl <;> rfl
      exact hsend.watch_eq rfl r

/-! ## At rest -/

/-- Guarded, and in a state a handler may leave the machine in. -/
def Ue.AtRest (u : Ue) : Prop :=
  u.Guarded ∧ u.fsm ≠ .deregistrationInitiated ∧ u.fsm ≠ .mtDeregPending

theorem Ue.AtRest.congr {v : Ue} (h : u.AtRest) (hw : v.watch = u.watch) : v.AtRest := by
  refine ⟨h.1.congr hw, ?_⟩
  simp only [Ue.watch, Prod.mk.injEq] at hw
  rw [hw.1]
  exact h.2

theorem atRest_of_dropped (h : u.watch = dropped) : u.AtRest := by
  refine ⟨guarded_of_dropped h, ?_⟩
  simp_all [watch]

/-- The events of deregistrations the handlers do not leave half done. -/
def unrestEvents : List GmmEvent :=
  [.configUpdateCommandSent, .deregistrationRequestMO, .deregistrationRequestSentMT]

theorem row_rests : ∀ t ∈ gmmTransitions, t.event ∈ unrestEvents ∨
    (t.target ≠ .deregistrationInitiated ∧ t.target ≠ .mtDeregPending) := by decide

theorem fire_atRest (hev : ev ∉ unrestEvents) (hloose : (s.ue r).Loose)
    (hown : ∀ n, (s.ue r).timers n ≠ some ev)
    (hrow : (findTransition (s.ue r).fsm ev).isSome = true) : ((fire X r ev s).ue r).AtRest := by
  refine ⟨fire_guarded (fun h => hev (h ▸ by decide)) hloose hown hrow, ?_⟩
  obtain ⟨row, hrow⟩ := isSome_iff_exists.1 hrow
  obtain ⟨hmem, -, hevent⟩ := findTransition_some hrow
  rw [fire_of_row hrow, take_fsm]
  rcases row_rests row hmem with h | h
  · exact absurd (hevent ▸ h) hev
  · exact h

theorem fire_keeps_atRest (hev : ev ∉ unrestEvents ++ expiryEvents) (h : (s.ue r).AtRest) :
    ((fire X r ev s).ue r).AtRest := by
  simp only [mem_append, not_or] at hev
  cases hrow : findTransition (s.ue r).fsm ev with
  | none => exact h.congr (fire_watch_of_no_row hrow)
  | some row =>
    exact fire_atRest hev.1 h.1.1 (loose_not_own h.1.1 hev.2) (by simp [hrow])

/-- A state that waits for the UE. -/
def Ue.waits (u : Ue) : Bool := (guardTimer u.fsm).isSome

theorem Ue.guarded_of_not_waits (h : u.Loose) (hw : u.waits = false) : u.Guarded :=
  guarded_of_loose h (by simpa [waits] using hw)

theorem not_waits_cases (hw : u.waits = false) : u.fsm = .deregistered ∨ u.fsm = .registered := by
  unfold waits at hw
  cases hst : u.fsm <;> simp [hst, guardTimer] at hw ⊢

theorem Ue.waits_congr {v : Ue} (hw : v.watch = u.watch) : v.waits = u.waits := by
  simp only [Ue.watch, Prod.mk.injEq] at hw
  unfold Ue.waits
  rw [hw.1]

/-- After a release, a context is at rest unless it was waiting and stays in the registry. -/
theorem atRest_of_released {v : Ue} (hv : v.watch = releasedWatch X u)
    (hrest : u.fsm ≠ .deregistrationInitiated ∧ u.fsm ≠ .mtDeregPending)
    (hw : X.gnbUp u.gnbKey = true → u.waits = false) : v.AtRest := by
  unfold releasedWatch at hv
  split at hv
  · rename_i hup
    simp only [Ue.watch, Prod.mk.injEq] at hv
    refine ⟨Ue.guarded_of_not_waits (Ue.loose_of_no_timers hv.2) ?_, by rw [hv.1]; exact hrest⟩
    unfold Ue.waits
    rw [hv.1]
    exact hw hup
  · exact atRest_of_dropped hv

/-- Whether or not a vector was missing, the event that follows leads to a guarded state. -/
theorem fire_after_startAuthentication (hev : ev ∉ unrestEvents ++ expiryEvents)
    (hloose : (s.ue r).Loose) (hrow : (findTransition (s.ue r).fsm ev).isSome = true) :
    ((fire X r ev (startAuthentication V X r s)).ue r).AtRest := by
  simp only [mem_append, not_or] at hev
  have hw := startAuthentication_watch (V := V) (X := X) (r := r) (s := s)
  split at hw
  · unfold releasedWatch at hw
    split at hw
    · simp only [Ue.watch, Prod.mk.injEq] at hw
      have hl := Ue.loose_of_no_timers hw.2
      exact fire_atRest hev.1 hl (loose_not_own hl hev.2) (by rw [hw.1]; exact hrow)
    · exact fire_keeps_atRest (by simp [hev.1, hev.2]) (atRest_of_dropped hw)
  · have hl := hloose.congr hw
    refine fire_atRest hev.1 hl (loose_not_own hl hev.2) ?_
    rw [(mk.inj hw).1]
    exact hrow

theorem registrationRequest_row {st : GmmState}
    (hst : st ≠ .deregistrationInitiated ∧ st ≠ .mtDeregPending) :
    (findTransition st .registrationRequest).isSome = true := by
  obtain ⟨h₁, h₂⟩ := hst
  cases st <;> first | decide | exact absurd rfl h₁ | exact absurd rfl h₂

theorem authenticateAfresh_atRest (hloose : (s.ue r).Loose)
    (hst : (s.ue r).fsm ≠ .deregistrationInitiated ∧ (s.ue r).fsm ≠ .mtDeregPending) :
    ((authenticateAfresh V X r s).ue r).AtRest :=
  fire_after_startAuthentication (by decide) hloose (registrationRequest_row hst)

/-! ## Handlers that always leave the machine at rest -/

theorem handleRegistrationComplete_atRest (h : (s.ue r).AtRest) :
    ((handleRegistrationComplete V X r inner s).ue r).AtRest := by
  have hguard := h.congr ((allowedIn_acts V X (r := r) (s := s) .registeredInitiated).watch_eq
    rfl r)
  unfold handleRegistrationComplete
  dsimp only
  generalize allowedIn V X r .registeredInitiated s = guard at hguard ⊢
  split
  · exact hguard
  split
  · exact hguard
  split
  · have hset : Acts r [.rm, .book] guard.1 ((guard.1.exec (.setRm r .registered)).exec
        (.book r fun b => { b with cm := .connected, gmmProc := .none, gmmSub := .none })) := by
      refine exec (one ?_ ?_) ?_ ?_ <;> rfl
    exact fire_keeps_atRest (by decide) (hguard.congr (hset.watch_eq (by decide) r))
  · exact hguard

theorem handleDeregistrationAcceptFromUE_atRest :
    ((handleDeregistrationAcceptFromUE X r s).ue r).AtRest :=
  atRest_of_dropped (clearVolatile_watch r _)

/-- T3513 is no guard. -/
theorem cancel_t3513_atRest (h : (s.ue r).AtRest) :
    ((s.exec (.cancel r .t3513)).ue r).AtRest := by
  refine h.congr ?_
  have hnone : (s.ue r).timers .t3513 = none := by
    cases hev : (s.ue r).timers .t3513 with
    | none => rfl
    | some ev =>
      have hallowed := h.1.1 _ _ hev
      revert hallowed
      generalize (s.ue r).fsm = st
      cases st <;> simp [allowedTimers, guardTimer]
  simp only [AmfState.exec, AmfState.upd_ue_self, Ue.watch, Prod.mk.injEq, true_and]
  rw [← hnone]
  exact update_eq_self _ _

theorem acceptService_atRest {sr : ServiceRequest} (h : (s.ue r).AtRest) :
    ((acceptService V X r sr s).ue r).AtRest := by
  unfold acceptService
  dsimp only
  have hics : Acts r [.dl, .send, .book, .smf] s (if (s.ue r).book.ueContextRequest then
      (initialCtxSetupSend V X r s).1 else s) := by
    split
    · exact (initialCtxSetupSend_acts V X).mono rfl
    · exact .refl
  have himsi := hics.imsi_eq rfl r
  have hcalls : Acts r [.dl, .send, .book, .smf] s
      (smfCalls (s.ue r).imsi ((sessionsToReleaseInUse X (s.ue r).imsi sr.pduSessionStatus).map
        .release) (if (s.ue r).book.ueContextRequest then (initialCtxSetupSend V X r s).1 else s)) :=
    hics.andThen (smfCalls_acts _ himsi.symm) rfl
  split
  · exact h.congr (hcalls.watch_eq rfl r)
  · refine fire_keeps_atRest (by decide) (h.congr ?_)
    exact ((hcalls.andThen (dlnasSend_acts V X _) rfl).andThen (book_acts _)
      rfl).watch_eq rfl r

theorem handleServiceRequest_atRest (h : (s.ue r).AtRest) :
    ((handleServiceRequest V X r inner s).ue r).AtRest := by
  have hguard := h.congr ((allowedIn_acts V X (r := r) (s := s) .registered).watch_eq
    rfl r)
  unfold handleServiceRequest
  dsimp only
  generalize allowedIn V X r .registered s = guard at hguard ⊢
  split
  · exact hguard
  split
  · have hbook : (((guard.1.exec (.cancel r .t3513)).exec (.book r fun b =>
        { b with gmmProc := .serviceRequest, cm := .connected })).ue r).AtRest :=
      (cancel_t3513_atRest hguard).congr ((book_acts _).watch_eq rfl r)
    split
    · exact acceptService_atRest hbook
    · exact hbook
  · exact hguard

theorem handleULNASTransport_atRest (h : (s.ue r).AtRest) :
    ((handleULNASTransport V X r inner s).ue r).AtRest := by
  unfold handleULNASTransport
  split
  · refine fire_keeps_atRest (by decide) (h.congr ?_)
    split
    · exact (handleN1SMPayload_acts V X _).watch_eq rfl r
    split
    · exact (handleSMSPayload_acts V X _).watch_eq rfl r
    · rfl
  · exact h

theorem handle_other_atRest {msgType : UInt8} (hty : msgType ∉ procedureTypes)
    {outer : Option Bytes} (h : (s.ue r).AtRest) :
    ((handle V X r msgType inner outer s).ue r).AtRest := by
  simp only [procedureTypes, mem_cons, not_mem_nil, or_false, not_or] at hty
  obtain ⟨h41, h45, h57, h59, h5C, h5E, h5F⟩ := hty
  unfold handle
  simp only [h41, h45, h57, h59, h5C, h5E, h5F, if_false]
  split
  · exact handleRegistrationComplete_atRest h
  split
  · exact handleDeregistrationAcceptFromUE_atRest
  split
  · exact handleServiceRequest_atRest h
  split
  · unfold handleConfigUpdateComplete
    split
    · exact fire_keeps_atRest (by decide) (h.congr ((book_acts _).watch_eq (by decide) r))
    · exact h
  split
  · unfold handle5GMMStatus
    split
    · exact fire_keeps_atRest (by decide) h
    · exact h
  split
  · exact handleULNASTransport_atRest h
  · exact h.congr ((send5GMMStatus_acts V X _).watch_eq rfl r)

end MmtCore.Amf
