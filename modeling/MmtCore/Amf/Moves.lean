import MmtCore.Amf.RegistrationPath

/-!
# What a step logs

A step may concern several contexts, one after another.  It is still a run of commands (`Moves`),
so that the log only grows, and what it grows by in a step is `emitted`.
-/

namespace MmtCore.Amf

open MmtCore.Lib List Option Acts

variable {V : Env} {X : Ext} {r : Ref} {s t u : AmfState}

/-- From `s` to `t` by commands of the kinds in `L`, about any contexts. -/
def Moves (L : List Kind) (s t : AmfState) : Prop :=
  Reach AmfState.exec (fun s c => (∃ r, c.On r s) ∧ c.kind ∈ L) s t

variable {L M : List Kind}

theorem Moves.refl : Moves L s s := Reach.start

theorem Moves.mono (h : Moves L s t) (hL : L.all M.elem = true) : Moves M s t :=
  Reach.mono (fun _ _ hc => ⟨hc.1, elem_iff.1 (all_eq_true.1 hL _ hc.2)⟩) h

theorem Moves.andThen (h : Moves M s t) (h' : Moves L t u) (hL : L.all M.elem = true) :
    Moves M s u :=
  Reach.trans h (h'.mono hL)

theorem Acts.moves (h : Acts r L s t) : Moves L s t :=
  Reach.mono (fun _ _ hc => ⟨⟨r, hc.1⟩, hc.2⟩) h

/-- A property that every command of these kinds keeps holds after the run. -/
theorem Moves.keeps (I : AmfState → Prop) (h : Moves L s t)
    (hI : ∀ s c r, c.On r s → c.kind ∈ L → I s → I (s.exec c)) (hs : I s) : I t :=
  Reach.invariant hs (fun s c hi hc => hc.1.elim fun r hon => hI s c r hon hc.2 hi) h

theorem Moves.log_suffix (h : Moves L s t) : s.log <:+ t.log := by
  refine h.keeps (fun s' => s.log <:+ s'.log) (fun s' c _ _ _ hs => ?_) (suffix_refl _)
  rw [exec_log]
  exact hs.trans (suffix_append ..)

variable {β : Type} {gnb : GnbKey} {ran : Nat} {ev : Event} {f : Obs → Option β}

/-- A part of the log to which the kinds in `L` add nothing. -/
theorem Moves.log_frame (f : Obs → Option β) (hf : ∀ o, o.kind ∈ L → f o = none) (h : Moves L s t) :
    t.log.filterMap f = s.log.filterMap f := by
  refine h.keeps (fun s' => s'.log.filterMap f = s.log.filterMap f)
    (fun s' c r hon hk hs => ?_) rfl
  have hone : Acts r [c.kind] s' (s'.exec c) := one hon (by simp)
  rw [← hs]
  refine hone.log_frame f fun _ o _ ho => hf o ?_
  rw [mem_singleton.1 ho]
  exact hk

/-! ## Every step is a run of commands -/

/-- The kinds of a context that takes the place of another one. -/
abbrev placeKinds : List Kind := [.insert, .unindex, .dropFsm, .cancel]

theorem replaceContext_moves (existing : Ref) :
    Moves placeKinds s (replaceContext existing r s) := by
  have hinsert : Acts r [.insert] (remove existing s) (replaceContext existing r s) := by
    apply one <;> rfl
  exact (remove_acts.moves.mono rfl).andThen hinsert.moves rfl

theorem takePlace_moves (existing : Ref) : Moves placeKinds s (takePlace existing r s) := by
  unfold takePlace
  split
  · have hinsert : Acts r [.insert] s (s.exec (.insert r)) := by
      apply one <;> rfl
    exact hinsert.moves.mono rfl
  · exact replaceContext_moves existing

theorem adoptKeys_moves (existing : Ref) (outer : Bytes) (verified : Option Nat) :
    Moves [.ul, .migrate] s (adoptKeys r existing outer verified s) := by
  obtain ⟨t, hul, hmigrate⟩ := adoptKeys_acts (r := r) (s := s) existing outer verified
  exact (hul.moves.mono rfl).andThen hmigrate.moves rfl

/-- The kinds of a context about to be accepted on keys taken over. -/
abbrev adoptKinds : List Kind := [.cap, .book, .imsi, .ul, .migrate] ++ placeKinds

theorem enterAdopted_moves (existing : Ref) (rr : RegistrationRequest) (inner : Bytes)
    (supi : Imsi) (outer : Option Bytes) (verified : Option Nat) :
    Moves adoptKinds s (enterAdopted X r existing rr inner supi outer verified s) := by
  have hsub := (enterSubscriber_acts X (r := r) (s := s) rr inner supi).moves
  exact ((hsub.mono rfl).andThen (adoptKeys_moves existing _ verified) rfl).andThen
    (replaceContext_moves existing) rfl

/-- The kinds of a registration request. -/
abbrev pathKinds : List Kind := [.cap, .imsi, .insert, .ul, .migrate] ++ reuseKinds

theorem followPath_moves (inner : Bytes) (outer : Option Bytes) (path : RegistrationPath) :
    Moves pathKinds s (followPath V X r inner outer s path) := by
  have hsub : ∀ rr supi, Moves pathKinds s (enterSubscriber X r rr inner supi s) :=
    fun rr supi => (enterSubscriber_acts X rr inner supi).moves.mono rfl
  cases path with
  | duplicate => exact (resendCachedNAS_acts V X).moves.mono rfl
  | malformed cause => exact (rejectRegistration_acts V X cause).moves.mono rfl
  | unidentified rr =>
    exact ((copyRequest_acts rr).moves.mono rfl).andThen
      (sendIdentityRequest_acts V X _).moves rfl
  | unresolvable rr =>
    exact ((copyRequest_acts rr).moves.mono rfl).andThen
      (abortRegistrationAndReleaseN1_acts V X _).moves rfl
  | illegal rr supi =>
    exact ((enterSUPI_acts rr inner supi).moves.mono rfl).andThen
      (rejectRegistration_acts V X _).moves rfl
  | noSlices rr supi => exact (hsub rr supi).andThen (rejectRegistration_acts V X _).moves rfl
  | reuseOwn rr supi => exact (hsub rr supi).andThen (reuseOwnContext_acts V X rr).moves rfl
  | reuseOther rr supi existing verified =>
    exact ((enterAdopted_moves existing rr inner supi outer verified).mono rfl).andThen
      (acceptAdopted_acts V X existing rr).moves rfl
  | authenticate rr supi existing =>
    exact ((hsub rr supi).andThen (takePlace_moves existing) rfl).andThen
      (authenticateAfresh_acts V X).moves rfl

theorem takeOverSUPI_eq (r : Ref) (supi : Imsi) (s : AmfState) :
    takeOverSUPI r supi s = takePlace (existingContext r supi s) r s := by
  grind [takeOverSUPI, takePlace, existingContext, replaceContext]

/-- The kinds of an identity response. -/
abbrev identityKinds : List Kind := [.imsi, .insert] ++ afreshKinds

theorem identityResolved_moves (supi : Imsi) :
    Moves identityKinds s (identityResolved V X r supi s) := by
  have htake : Moves identityKinds s (takeOverSUPI r supi (s.exec (.setImsi r supi))) := by
    have hset : Acts r [.imsi] s (s.exec (.setImsi r supi)) := by
      apply one <;> rfl
    rw [takeOverSUPI_eq]
    exact (hset.moves.mono rfl).andThen (takePlace_moves _) rfl
  unfold identityResolved
  dsimp only
  split
  · split
    · exact htake.andThen (abortRegistrationAndReleaseN1_acts V X _).moves rfl
    · exact ((htake.andThen (runNSSFWithRequested_acts X _).moves rfl).andThen
        (startAuthentication_acts V X).moves rfl).andThen
        (fire_acts X .identityResponse (by decide)).moves (by decide)
  · exact htake.andThen (fire_acts X .identityResponse (by decide)).moves (by decide)

theorem handleIdentityResponse_moves (inner : Bytes) :
    Moves identityKinds s (handleIdentityResponse V X r inner s) := by
  have h : Moves identityKinds s (allowedIn V X r .identification s).1 :=
    (allowedIn_acts V X _).moves.mono rfl
  have hfail : ∀ {s' cause}, Moves identityKinds s s' → Moves identityKinds s
      (abortRegistrationAndReleaseN1 V X r cause (fire X r .identityResponseFail s')) :=
    fun h' => (h'.andThen (fire_acts X .identityResponseFail (by decide)).moves (by decide)).andThen
      (abortRegistrationAndReleaseN1_acts V X _).moves rfl
  unfold handleIdentityResponse
  dsimp only
  split
  · exact h
  split
  · split
    · exact h.andThen (identityResolved_moves _) rfl
    · exact hfail h
  · exact hfail h

/-- The kinds of a deregistration request. -/
abbrev deregistrationKinds : List Kind := [.rebind, .unindex, .dl] ++ fireKinds

theorem retarget_moves (existing : Ref) : Moves deregistrationKinds s (retarget r existing s) := by
  unfold retarget
  split
  · exact .refl
  · have hbind : Acts existing [.rebind] s
        (s.exec (.rebind existing (s.ue r).gnbKey (s.ue r).ranUeNgapId)) := by
      apply one <;> rfl
    exact (hbind.moves.mono rfl).andThen remove_acts.moves rfl

theorem handleDeregistrationRequestMO_moves (inner : Bytes) :
    Moves deregistrationKinds s (handleDeregistrationRequestMO V X r inner s) := by
  unfold handleDeregistrationRequestMO
  split
  · exact (retarget_moves _).andThen (deregisterUE_acts V X _).moves rfl
  · exact .refl

/-- The kinds of the handlers. -/
abbrev handlerKinds : List Kind :=
  [.rebind, .cap, .imsi, .insert, .migrate, .tmsi, .reuse, .ngksiFlag, .resetAuthentication,
    .challenge, .authRetry, .answer, .activate, .promote, .markActivated, .authDone, .clearPending,
    .ul, .dl, .unindex, .enterSecurityMode] ++ fireKinds

/-- Every kind there is. -/
abbrev allKinds : List Kind := [.create, .resetTo, .abort] ++ handlerKinds

theorem handle_moves (msgType : UInt8) (inner : Bytes) (outer : Option Bytes) :
    Moves handlerKinds s (handle V X r msgType inner outer s) := by
  refine handle_elim V X (fun _ => ?_) (fun _ => ?_) (fun _ => ?_) (fun _ => ?_) (fun _ => ?_)
    (fun _ => ?_) (fun _ => ?_) (fun hty => ?_)
  · rw [handleRegistrationRequest_eq]
    exact (followPath_moves inner outer _).mono rfl
  · exact (handleDeregistrationRequestMO_moves inner).mono rfl
  · exact (handleAuthenticationResponse_acts V X inner).moves.mono rfl
  · exact (handleAuthenticationFailure_acts V X inner).moves.mono rfl
  · exact (handleIdentityResponse_moves inner).mono rfl
  · exact (handleSecurityModeComplete_acts V X inner).moves.mono rfl
  · exact (handleSecurityModeReject_acts V X inner).moves.mono rfl
  · exact (handle_other_acts V X hty inner outer).moves.mono rfl

theorem dispatch_moves (r : Ref) (pdu : Bytes) (s : AmfState) :
    Moves allKinds s (dispatch V X r pdu s) := by
  cases hm : Delivery.message V ⟨r, pdu, s⟩ with
  | none =>
    have hdisp := dispatch_of_no_message V X hm
    rw [hdisp]
    exact (receive_acts V _ _).moves.mono rfl
  | some m =>
    obtain ⟨-, -, hacts⟩ := message_acts V hm
    have hdisp := dispatch_of_message V X hm
    rw [hdisp, handleMessage_eq]
    have hentry : Moves allKinds s m.entry :=
      (hacts.moves.mono rfl).andThen (entry_acts m).moves rfl
    split
    · exact hentry.andThen (handle_moves ..) rfl
    · exact hentry

theorem foldl_moves {α : Type} {f : AmfState → α → AmfState} (hf : ∀ s a, Moves L s (f s a))
    (l : List α) (s : AmfState) : Moves L s (l.foldl f s) := by
  induction l generalizing s with
  | nil => exact .refl
  | cons a l ih => exact Reach.trans (hf s a) (ih (f s a))

theorem withUE_moves {amfId : Nat} {f : Ref → AmfState → AmfState} (hf : ∀ r, Moves L s (f r s)) :
    Moves L s (withUE gnb amfId ran f s) := by
  unfold withUE
  split
  · exact .refl
  · exact hf _

theorem rebindByTMSI_acts : Acts r [.rebind, .book] s (rebindByTMSI r gnb ran s) := by
  refine exec (one ?_ ?_) ?_ ?_ <;> rfl

theorem newContext_acts {id : Nat} :
    Acts s.nref [.create, .insert] s (newContext gnb ran id s) := by
  refine exec (one ?_ ?_) ?_ ?_ <;> rfl

theorem contextForInitialUE_moves {tmsi : Option Nat} {p : Ref × AmfState}
    (hp : contextForInitialUE X gnb ran tmsi s = some p) :
    Moves [.rebind, .book, .create, .insert] s p.2 := by
  unfold contextForInitialUE at hp
  split at hp
  · cases hp
    exact .refl
  split at hp
  · cases hp
    exact rebindByTMSI_acts.moves.mono rfl
  · simp only [map_eq_some_iff] at hp
    obtain ⟨id, -, rfl⟩ := hp
    exact newContext_acts.moves.mono rfl

/-- Up to the dispatcher. -/
theorem delivery_moves {d : Delivery} (hd : delivery X s ev = some d) :
    Moves [.rebind, .book, .create, .insert, .cancel] s d.state := by
  cases ev with
  | initialUE gnb ran nas tmsi req =>
    simp only [delivery] at hd
    split at hd
    · cases hd
    · simp only [map_eq_some_iff] at hd
      obtain ⟨p, hp, rfl⟩ := hd
      dsimp only
      exact ((contextForInitialUE_moves hp).mono rfl).andThen (book_acts _).moves rfl
  | uplinkNAS gnb amfId ran nas =>
    simp only [delivery, map_eq_some_iff] at hd
    obtain ⟨q, hq, rfl⟩ := hd
    have hcancel : Acts q [.cancel] s (s.exec (.cancel q .t3513)) := by
      apply one <;> rfl
    exact hcancel.moves.mono rfl
  | _ => cases hd

/-- The kinds of the events that bring no NAS message, timers that run out apart. -/
abbrev quietKinds : List Kind :=
  [.resetTo, .abort, .clearPending, .unindex, .dl, .send, .book, .smf, .sessions, .dropFsm,
    .cancel, .rm]

theorem stepEvent_quiet (hd : delivery X s ev = none) (hev : ∀ q n, ev ≠ .expire q n) :
    Moves quietKinds s (stepEvent V X s ev) := by
  cases ev with
  | initialUE gnb ran nas tmsi req =>
    simp only [delivery] at hd
    simp only [stepEvent, initialUEHandle]
    split
    · exact .refl
    · rename_i hne
      rw [if_neg hne, map_eq_none_iff] at hd
      rw [hd]
      exact .refl
  | uplinkNAS gnb amfId ran nas =>
    simp only [delivery, map_eq_none_iff] at hd
    simp only [stepEvent, uplinkNASHandle, hd]
    exact .refl
  | ueContextReleaseRequest gnb amfId ran inactive psis =>
    exact withUE_moves fun r => (releaseRequest_acts X inactive psis).moves.mono rfl
  | ueContextReleaseComplete gnb amfId ran psis =>
    exact withUE_moves fun r => (releaseComplete_acts ran psis).moves.mono rfl
  | initialContextSetupResponse gnb amfId ran =>
    exact withUE_moves fun r => (icsResponse_acts V X).moves.mono rfl
  | initialContextSetupFailure gnb amfId ran =>
    exact withUE_moves fun r => icsFailure_acts.moves.mono rfl
  | gnbDown gnb =>
    refine Reach.trans (foldl_moves (fun s q => ?_) _ _) (foldl_moves (fun s q => ?_) _ _)
    · have hone : Acts q [.unindex] s (s.exec (.unindex q)) := by
        apply one <;> rfl
      exact hone.moves.mono rfl
    · exact removeHooks_acts.moves.mono rfl
  | retransmit q t => exact (retransmitTimer_acts V X t).moves.mono rfl
  | expire q t => exact absurd rfl (hev q t)
  | sendDLNAS imsi nasPDU =>
    exact (sendDLNASByIMSI_acts V X imsi nasPDU).elim fun _ h => h.moves.mono rfl

/-- The kinds of the events that bring no NAS message. -/
abbrev eventKinds : List Kind := [.note, .take, .enterSecurityMode] ++ quietKinds

theorem stepEvent_of_no_delivery (hd : delivery X s ev = none) :
    Moves eventKinds s (stepEvent V X s ev) := by
  by_cases hexpire : ∃ q n, ev = .expire q n
  · obtain ⟨q, n, rfl⟩ := hexpire
    exact (expireTimer_acts X n).moves.mono rfl
  · exact (stepEvent_quiet hd fun q n h => hexpire ⟨q, n, h⟩).mono rfl

theorem stepEvent_moves (ev : Event) : Moves allKinds s (stepEvent V X s ev) := by
  cases hd : delivery X s ev with
  | none => exact (stepEvent_of_no_delivery hd).mono rfl
  | some d =>
    rw [stepEvent_of_delivery V X hd]
    exact ((delivery_moves hd).mono rfl).andThen (dispatch_moves ..) rfl

/-! ## The part of the log that is new -/

/-- What was logged on the way from `s` to `t`, the latest first. -/
def emitted (s t : AmfState) : List Obs := t.log.take (t.log.length - s.log.length)

theorem Moves.log_eq (h : Moves L s t) : t.log = emitted s t ++ s.log := by
  obtain ⟨new, hnew⟩ := h.log_suffix
  rw [emitted, ← hnew]
  simp

/-- The part of the log a projection sees. -/
theorem Moves.emitted_filterMap {l : List β} (h : Moves L s t)
    (hf : t.log.filterMap f = l ++ s.log.filterMap f) : (emitted s t).filterMap f = l := by
  rw [h.log_eq, filterMap_append] at hf
  exact append_cancel_right hf

/-- Observations that only handlers log: what a step logs of them is what the message handed over
makes its handler log. -/
theorem emitted_of_handled {g : Message → List β}
    (hf : ∀ o, o.kind ∈ .ul :: .abort :: eventKinds → f o = none) (hhandle : ∀ m : Message,
      (handle V X m.r m.msgType m.inner m.outer m.entry).log.filterMap f =
        g m ++ m.entry.log.filterMap f) (hpass : ∀ m : Message, m.passes = false → g m = [])
    (ev : Event) :
    (emitted s (stepEvent V X s ev)).filterMap f = (handed V X s ev).toList.flatMap g := by
  refine (stepEvent_moves ev).emitted_filterMap ?_
  cases hd : delivery X s ev with
  | none =>
    have hnone := (stepEvent_of_no_delivery (V := V) hd).log_frame f fun o ho =>
      hf o (mem_cons_of_mem _ (mem_cons_of_mem _ ho))
    simpa [handed, hd] using hnone
  | some d =>
    have hstart : d.state.log.filterMap f = s.log.filterMap f :=
      (delivery_moves hd).log_frame f fun o ho => by
        cases o <;> simp [Obs.kind] at ho
    have hul : ∀ {t t'}, Acts d.r [.ul] t t' → t'.log.filterMap f = t.log.filterMap f :=
      fun h => h.moves.log_frame f fun o ho => hf o (by simp [mem_singleton.1 ho])
    rw [stepEvent_of_delivery V X hd]
    cases hm : d.message V with
    | none =>
      rw [dispatch_of_no_message V X hm, hul (receive_acts V _ _), hstart]
      simp [handed, hd, hm]
    | some m =>
      obtain ⟨-, -, hacts⟩ := message_acts V hm
      have hentry : m.entry.log.filterMap f = m.state.log.filterMap f :=
        (entry_acts m).moves.log_frame f fun o ho => by
          refine hf o ?_
          simp only [mem_cons, not_mem_nil, or_false] at ho ⊢
          rcases ho with h | h | h | h <;> simp [h]
      have hrhs : (handed V X s ev).toList.flatMap g = g m := by
        simp [handed, hd, hm]
      rw [dispatch_of_message V X hm, handleMessage_eq, hrhs]
      split
      · rw [hhandle, hentry, hul hacts, hstart]
      · rename_i hpass'
        rw [hentry, hul hacts, hstart, hpass m (by simpa using hpass')]
        rfl

end MmtCore.Amf
