import MmtCore.Amf.RegistryIndex

/-!
# The registry over whole runs

The contexts of a run stay found under the keys they carry, as long as no handler assigns a key
in place that the indexes do not follow (`KeepsIndexes`).  A handler may take its own context out
of the registry on its way; what holds from there on is `Settled`.
-/

namespace MmtCore.Amf

open MmtCore.Lib Function List Option AmfState Lab Nat

variable {V : Env} {X : Ext} {r q : Ref} {s t : AmfState}

/-! ## Handlers that may remove their own context -/

/-- Nothing is entered under the keys of the context. -/
def Vacated (r : Ref) (s : AmfState) : Prop :=
  s.byAmfID (s.ue r).amfUeNgapId = none ∧
    ((s.ue r).gnbKey ≠ [] → s.byRanKey ((s.ue r).gnbKey, (s.ue r).ranUeNgapId) = none) ∧
    ((s.ue r).imsi ≠ [] → s.byIMSI (s.ue r).imsi = none)

theorem vacated_unindex (r : Ref) (s : AmfState) : Vacated r (s.unindex r) := by
  refine ⟨?_, fun hg => ?_, fun hm => ?_⟩
  · simp [unindex]
  · change (s.ue r).gnbKey ≠ [] at hg
    simp [unindex, hg]
  · change (s.ue r).imsi ≠ [] at hm
    simp [unindex, hm]

/-- Removing it once more finds nothing. -/
theorem Vacated.unindex_eq (h : Vacated r s) : s.unindex r = s := by
  obtain ⟨hid, hran, himsi⟩ := h
  unfold unindex
  dsimp only
  have hid' : update s.byAmfID (s.ue r).amfUeNgapId none = s.byAmfID := by
    rw [← hid]
    exact update_eq_self _ _
  have hran' : (if (s.ue r).gnbKey = [] then s.byRanKey
      else update s.byRanKey ((s.ue r).gnbKey, (s.ue r).ranUeNgapId) none) =
      s.byRanKey := by
    split
    · rfl
    · simp_all
  have himsi' : (if (s.ue r).imsi = [] then s.byIMSI
      else update s.byIMSI (s.ue r).imsi none) = s.byIMSI := by
    split
    · rfl
    · simp_all
  rw [hid', hran', himsi']

/-- The registry agrees, and the context is in it or leaves no trace there. -/
def Settled (r : Ref) (s : AmfState) : Prop := Indexed s ∧ (s.Live r ∨ Vacated r s)

theorem Entered.settled (h : Entered r s) : Settled r s := ⟨h.1, .inl h.2⟩

theorem Settled.congr (h : Settled r s) (hreg : t.registry = s.registry)
    (hkeys : ∀ q, (t.ue q).keys = (s.ue q).keys) : Settled r t := by
  obtain ⟨hidx, hlive⟩ := h.1.congr hreg hkeys
  refine ⟨hidx, h.2.imp (hlive r).2 fun hv => ?_⟩
  simp_all [registry, Ue.keys, Vacated]

theorem Settled.unindex (h : Settled r s) : Settled r (s.unindex r) := by
  rcases h.2 with hl | hv
  · exact ⟨h.1.unindex hl (some_ne_none r), .inr (vacated_unindex r s)⟩
  · rw [hv.unindex_eq]
    exact h

/-- The kinds that enter a context or assign a key. -/
abbrev keyKinds : List Kind := [.insert, .create, .imsi, .rebind]

theorem Acts.settled {L : List Kind} (h : Acts r L s t) (hL : L.all (· ∉ keyKinds) = true)
    (hs : Settled r s) : Settled r t := by
  refine h.keeps (Settled r) (fun s' c hon hk hs' => ?_) hs
  have hc : c.kind ∉ keyKinds := by simpa using all_eq_true.1 hL _ hk
  by_cases hun : c.kind = .unindex
  · cases c <;> first | (simp only [Cmd.kind] at hun; split at hun <;> cases hun) | skip
    case unindex =>
      cases hon
      exact hs'.unindex
    case emit o => cases o <;> cases hun
    all_goals cases hun
  · have hone : Acts r [c.kind] s' (s'.exec c) := Acts.one hon (by simp)
    have hL' : [c.kind].all (· ∉ registryKinds) = true := by
      simp only [keyKinds, mem_cons, not_mem_nil, or_false, not_or] at hc
      simp [hc, hun]
    exact hs'.congr (hone.registry_eq' hL') (hone.keys_eq hL')

/-! ## The handlers that store a SUPI -/

theorem existingContext_of_registry {imsi : Imsi} (h : t.registry = s.registry) :
    existingContext r imsi t = existingContext r imsi s := by
  rw [existingContext, existingContext, lookupByIMSI_of_registry h]

/-- The SUPI stored is the one the context had. -/
theorem setImsi_settled (h : Settled r s) : Settled r (s.exec (.setImsi r (s.ue r).imsi)) := by
  refine h.congr rfl fun q => ?_
  by_cases hq : q = r
  · subst hq
    have hself : (s.exec (.setImsi q (s.ue q).imsi)).ue q = { s.ue q with imsi := (s.ue q).imsi } :=
      exec_ue_self rfl
    rw [hself]
  · have hother : (s.exec (.setImsi r (s.ue r).imsi)).ue q = s.ue q := exec_ue_of_ne rfl hq
    rw [hother]

variable {rr : RegistrationRequest} {inner : Bytes} {supi : Imsi} {existing : Ref} {m : Message}
  {d : Delivery} {gnb : GnbKey} {ran : Nat} {ev : Event} {victims : List Ref}

theorem enterSUPI_settled (h : Settled r s) : Settled r (enterSUPI r rr inner (s.ue r).imsi s) := by
  have hcopy : Settled r (copyRequest r rr s) := (copyRequest_acts rr).settled rfl h
  have hset := setImsi_settled hcopy
  rw [copyRequest_imsi] at hset
  exact (book_acts _).settled rfl hset

/-- The SUPI stored is new to the context, which is not found by it yet. -/
theorem enterSubscriber_indexedBut (rr : RegistrationRequest) (inner : Bytes) (h : Entered r s)
    (hsupi : (s.ue r).imsi = [] ∨ supi = (s.ue r).imsi) :
    IndexedBut (some r) (enterSubscriber X r rr inner supi s) ∧
      (enterSubscriber X r rr inner supi s).Live r := by
  have hcopy : Entered r (copyRequest r rr s) := (copyRequest_acts rr).entered rfl h
  obtain ⟨hidx, hlive⟩ := setImsi_indexedBut supi hcopy.1 (by simpa using hsupi)
  have hrest : Acts r [.book] ((copyRequest r rr s).exec (.setImsi r supi))
      (enterSubscriber X r rr inner supi s) :=
    (book_acts _).andThen (runNSSFWithRequested_acts X _) rfl
  obtain ⟨hidx', hlive'⟩ := hrest.indexedBut rfl hidx
  exact ⟨hidx', (hlive' r).2 ((hlive r).2 hcopy.2)⟩

theorem enterSubscriber_takePlace (h : Entered r s)
    (hsupi : (s.ue r).imsi = [] ∨ supi = (s.ue r).imsi)
    (hexisting : existingContext r supi s = existing) :
    Entered r (takePlace existing r (enterSubscriber X r rr inner supi s)) := by
  obtain ⟨hidx, hlive⟩ := enterSubscriber_indexedBut (X := X) rr inner h hsupi
  have htake := takePlace_entered hidx hlive
  grind [enterSubscriber_imsi, existingContext_of_registry, enterSubscriber_registry]

/-- The context whose keys move makes way like any other. -/
theorem adopt_entered {outer : Bytes} {verified : Option Nat} (h : Entered r s)
    (hsupi : (s.ue r).imsi = [] ∨ supi = (s.ue r).imsi)
    (hexisting : existingContext r supi s = existing) (hne : existing ≠ r) :
    Entered r (replaceContext existing r
      (adoptKeys r existing outer verified (enterSubscriber X r rr inner supi s))) := by
  obtain ⟨hidx, hlive⟩ := enterSubscriber_indexedBut (X := X) rr inner h hsupi
  obtain ⟨t, hul, hmigrate⟩ := adoptKeys_acts (s := enterSubscriber X r rr inner supi s) (r := r)
    existing outer verified
  obtain ⟨hidx', hlive'⟩ := hul.indexedBut rfl hidx
  obtain ⟨hidx'', hlive''⟩ := hmigrate.indexedBut rfl hidx'
  have himsi := (hmigrate.imsi_eq rfl r).trans (hul.imsi_eq rfl r)
  have hreg := (hmigrate.registry_eq' rfl).trans
    ((hul.registry_eq' rfl).trans (enterSubscriber_registry X rr inner supi))
  grind [enterSubscriber_imsi, existingContext_of_registry, takePlace, takePlace_entered]

/-- The keys of the connection's context stay what the indexes say. -/
def RegistrationPath.KeepsIndexes (imsi : Imsi) : RegistrationPath → Prop
  | .illegal _ supi | .noSlices _ supi | .reuseOwn _ supi => supi = imsi
  | .reuseOther _ supi _ _ | .authenticate _ supi _ => imsi = [] ∨ supi = imsi
  | _ => True

theorem followPath_settled {outer : Option Bytes} {path : RegistrationPath} (h : Entered r s)
    (hdec : path.Decided V X r inner outer s) (hkeeps : path.KeepsIndexes (s.ue r).imsi) :
    Settled r (followPath V X r inner outer s path) := by
  cases path with
  | duplicate => exact (resendCachedNAS_acts V X).settled rfl h.settled
  | malformed cause => exact (rejectRegistration_acts V X cause).settled rfl h.settled
  | unidentified rr =>
    exact (sendIdentityRequest_acts V X _).settled rfl
      ((copyRequest_acts rr).settled rfl h.settled)
  | unresolvable rr =>
    exact (abortRegistrationAndReleaseN1_acts V X _).settled rfl
      ((copyRequest_acts rr).settled rfl h.settled)
  | illegal rr supi =>
    cases hkeeps
    exact (rejectRegistration_acts V X _).settled rfl (enterSUPI_settled h.settled)
  | noSlices rr supi =>
    cases hkeeps
    exact (rejectRegistration_acts V X _).settled rfl
      ((runNSSFWithRequested_acts X _).settled rfl (enterSUPI_settled h.settled))
  | reuseOwn rr supi =>
    cases hkeeps
    exact (reuseOwnContext_acts V X rr).settled rfl
      ((runNSSFWithRequested_acts X _).settled rfl (enterSUPI_settled h.settled))
  | reuseOther rr supi existing verified =>
    obtain ⟨-, hexisting, hne, -⟩ := hdec
    exact (acceptAdopted_acts V X existing rr).settled rfl
      (adopt_entered h hkeeps hexisting hne).settled
  | authenticate rr supi existing =>
    exact (authenticateAfresh_acts V X).settled rfl
      (enterSubscriber_takePlace h hkeeps hdec.2).settled

theorem identityResolved_settled (h : Entered r s)
    (hsupi : (s.ue r).imsi = [] ∨ supi = (s.ue r).imsi) :
    Settled r (identityResolved V X r supi s) := by
  obtain ⟨hidx, hlive⟩ := setImsi_indexedBut supi h.1 hsupi
  have hself : (s.exec (.setImsi r supi)).ue r = { s.ue r with imsi := supi } := exec_ue_self rfl
  have htake := takePlace_entered hidx ((hlive r).2 h.2)
  rw [hself, ← takeOverSUPI_eq] at htake
  unfold identityResolved
  dsimp only
  split
  · split
    · exact (abortRegistrationAndReleaseN1_acts V X _).settled rfl htake.settled
    · exact (fire_acts X .identityResponse (by decide)).settled (by decide)
        ((startAuthentication_acts V X).settled rfl
          ((runNSSFWithRequested_acts X _).settled rfl htake.settled))
  · exact (fire_acts X .identityResponse (by decide)).settled (by decide) htake.settled

/-! ## Messages -/

/-- The message stores no SUPI over another one, and moves no connection. -/
def Message.KeepsIndexes (V : Env) (X : Ext) (m : Message) : Prop :=
  (m.msgType = msgRegistrationRequest →
    (registrationPath V X m.r m.inner m.outer m.entry).KeepsIndexes (m.entry.ue m.r).imsi) ∧
  (m.msgType = msgDeregistrationRequestMO → ∀ ty id,
    V.decode m.inner = .ok (.deregistrationRequestUEOriginating ty id) →
    deregistrationTarget X m.r id m.entry = m.r) ∧
  (m.msgType = msgIdentityResponse → (m.entry.ue m.r).fsm = .identification → ∀ id supi,
    V.decode m.inner = .ok (.identityResponse id) →
    resolveSUPI X m.entry id (m.entry.ue m.r).imsi = .ok supi →
    (m.entry.ue m.r).imsi = [] ∨ supi = (m.entry.ue m.r).imsi)

theorem handleIdentityResponse_settled (h : Entered r s)
    (hsupi : (s.ue r).fsm = .identification → ∀ id supi,
      V.decode inner = .ok (.identityResponse id) →
      resolveSUPI X s id (s.ue r).imsi = .ok supi →
      (s.ue r).imsi = [] ∨ supi = (s.ue r).imsi) :
    Settled r (handleIdentityResponse V X r inner s) := by
  unfold handleIdentityResponse
  by_cases hst : (s.ue r).fsm = .identification
  · have hguard : allowedIn V X r .identification s = (s, true) := if_pos hst
    rw [hguard]
    simp only [Bool.true_eq_false, if_false]
    split
    · rename_i id hdec
      split
      · rename_i supi hres
        exact identityResolved_settled h (hsupi hst id supi hdec hres)
      · exact (abortRegistrationAndReleaseN1_acts V X _).settled rfl
          ((fire_acts X .identityResponseFail (by decide)).settled (by decide) h.settled)
    · exact (abortRegistrationAndReleaseN1_acts V X _).settled rfl
        ((fire_acts X .identityResponseFail (by decide)).settled (by decide) h.settled)
  · have hguard : (allowedIn V X r .identification s).2 = false := by
      simp only [allowedIn, if_neg hst]
    rw [if_pos hguard]
    exact (allowedIn_acts V X _).settled rfl h.settled

theorem handleDeregistrationRequestMO_settled (h : Entered r s)
    (htarget : ∀ ty id, V.decode inner = .ok (.deregistrationRequestUEOriginating ty id) →
      deregistrationTarget X r id s = r) :
    Settled r (handleDeregistrationRequestMO V X r inner s) := by
  unfold handleDeregistrationRequestMO
  split
  · rename_i ty id hdec
    dsimp only
    rw [htarget ty id hdec, retarget, if_pos rfl]
    exact (deregisterUE_acts V X ty).settled rfl h.settled
  · exact h.settled

theorem handle_settled (h : Entered m.r m.entry) (hkeeps : m.KeepsIndexes V X) :
    Settled m.r (handle V X m.r m.msgType m.inner m.outer m.entry) := by
  refine handle_elim V X (fun hty => ?_) (fun hty => ?_) (fun _ => ?_) (fun _ => ?_)
    (fun hty => ?_) (fun _ => ?_) (fun _ => ?_) (fun hty => ?_)
  · rw [handleRegistrationRequest_eq]
    exact followPath_settled h (registrationPath_decided V X m.inner m.outer) (hkeeps.1 hty)
  · exact handleDeregistrationRequestMO_settled h (hkeeps.2.1 hty)
  · exact (handleAuthenticationResponse_acts V X _).settled rfl h.settled
  · exact (handleAuthenticationFailure_acts V X _).settled rfl h.settled
  · exact handleIdentityResponse_settled h (hkeeps.2.2 hty)
  · exact (handleSecurityModeComplete_acts V X _).settled rfl h.settled
  · exact (handleSecurityModeReject_acts V X _).settled rfl h.settled
  · exact (handle_other_acts V X hty m.inner m.outer).settled rfl h.settled

theorem Message.entered (h : Entered m.r m.state) : Entered m.r m.entry :=
  (entry_acts m).entered rfl h

/-- Up to the handler, nothing concerns the registry. -/
theorem dispatch_indexed (h : Entered d.r d.state)
    (hkeeps : ∀ m, d.message V = some m → m.KeepsIndexes V X) :
    Indexed (dispatch V X d.r d.pdu d.state) := by
  cases hm : d.message V with
  | none =>
    rw [dispatch_of_no_message V X hm]
    exact ((receive_acts V _ _).entered rfl h).1
  | some m =>
    obtain ⟨hr, -, hacts⟩ := message_acts V hm
    have hstate : Entered m.r m.state := by
      rw [hr]
      exact hacts.entered rfl h
    rw [dispatch_of_message V X hm, handleMessage_eq]
    split
    · exact (handle_settled (Message.entered hstate) (hkeeps m hm)).1
    · exact (Message.entered hstate).1

/-! ## Finding and making a context -/

theorem live_of_byAmfID {i : Nat} (h : Indexed s) (hi : s.byAmfID i = some r) : s.Live r := by
  obtain ⟨hlt, hid⟩ := h.id_entry hi
  exact ⟨hlt, hid ▸ hi⟩

theorem live_of_lookupByRanKey (h : Indexed s) (hl : s.lookupByRanKey gnb ran = some r) :
    s.Live r := by
  obtain ⟨i, -, hi⟩ := bind_eq_some_iff.1 hl
  exact live_of_byAmfID h hi

theorem locateUE_live {amfId : Nat} (h : Indexed s) (hl : locateUE gnb amfId ran s = some r) :
    s.Live r := by
  rcases or_eq_some_iff.1 hl with hid | ⟨-, hran⟩
  · split at hid
    · cases hid
    · exact live_of_byAmfID h hid
  · split at hran
    · cases hran
    · exact live_of_lookupByRanKey h hran

theorem nextFreeID_free {fuel last id : Nat} (h : s.nextFreeID fuel last = some id) :
    s.byAmfID id = none := by
  induction fuel generalizing last with
  | zero => cases h
  | succ fuel ih =>
    grind [nextFreeID]

/-- A RAN key without a context is not entered at all. -/
theorem ranKey_free (h : Indexed s) (hl : s.lookupByRanKey gnb ran = none) :
    s.byRanKey (gnb, ran) = none := by
  cases hi : s.byRanKey (gnb, ran) with
  | none => rfl
  | some i =>
    obtain ⟨-, q, hq, -⟩ := h.ran_entry hi
    simp [lookupByRanKey, hi, hq] at hl

/-- A context made for a connection is entered under its id and its RAN key. -/
theorem newContext_entered {id : Nat} (h : Indexed s) (hid : s.byAmfID id = none)
    (hran : s.byRanKey (gnb, ran) = none) :
    Entered s.nref (newContext gnb ran id s) := by
  have hold : ∀ {i q}, s.byAmfID i = some q → q ≠ s.nref ∧ i ≠ id := by
    intro i q hi
    refine ⟨Nat.ne_of_lt (h.id_entry hi).1, ?_⟩
    rintro rfl
    rw [hid] at hi
    cases hi
  have hself : (newContext gnb ran id s).ue s.nref = Ue.new id ran gnb [] := by
    simp [newContext, AmfState.exec, AmfState.insert, AmfState.create]
  have hother : ∀ {q}, q ≠ s.nref → (newContext gnb ran id s).ue q = s.ue q := fun hq => by
    simp [newContext, AmfState.exec, AmfState.insert, AmfState.create, update_of_ne hq]
  have hbyId : (newContext gnb ran id s).byAmfID = update s.byAmfID id (some s.nref) := by
    simp [newContext, AmfState.exec, AmfState.insert, AmfState.create, Ue.new]
  have hbyRan : (newContext gnb ran id s).byRanKey =
      if gnb = [] then s.byRanKey else update s.byRanKey (gnb, ran) (some id) := by
    simp [newContext, AmfState.exec, AmfState.insert, AmfState.create, Ue.new]
  have hbyIMSI : (newContext gnb ran id s).byIMSI = s.byIMSI := by
    simp [newContext, AmfState.exec, AmfState.insert, AmfState.create, Ue.new]
  have hkeep : ∀ {i q}, s.byAmfID i = some q →
      (newContext gnb ran id s).byAmfID i = some q := fun hi => by
    rw [hbyId, update_of_ne (hold hi).2]
    exact hi
  have hlive : (newContext gnb ran id s).Live s.nref := by
    refine ⟨lt_succ_self _, ?_⟩
    rw [hself, hbyId]
    exact update_self ..
  have hback : ∀ {q}, q ≠ s.nref → (newContext gnb ran id s).Live q → s.Live q := by
    intro q hq hl
    have hi := hl.2
    rw [hother hq, hbyId, update_apply] at hi
    split at hi
    · exact absurd (some.inj hi).symm hq
    · exact ⟨(h.id_entry hi).1, hi⟩
  refine ⟨⟨?_, ?_, ?_, ?_, ?_⟩, hlive⟩
  · intro i q hi
    rw [hbyId, update_apply] at hi
    split at hi
    · rename_i heq
      cases hi
      rw [hself]
      exact ⟨lt_succ_self _, heq.symm⟩
    · obtain ⟨hlt, hq⟩ := h.id_entry hi
      rw [hother (hold hi).1]
      exact ⟨lt_succ_of_lt hlt, hq⟩
  · intro g n i hi
    have hi' : (g ≠ [] ∧ g = gnb ∧ n = ran ∧ i = id) ∨ s.byRanKey (g, n) = some i := by
      rw [hbyRan] at hi
      grind
    rcases hi' with ⟨hg, rfl, rfl, rfl⟩ | hi
    · refine ⟨hg, s.nref, ?_, by rw [hself]; rfl, by rw [hself]; rfl⟩
      rw [hbyId]
      exact update_self ..
    · obtain ⟨hg, q, hq, hgq, hnq⟩ := h.ran_entry hi
      rw [← hother (hold hq).1] at hgq hnq
      exact ⟨hg, q, hkeep hq, hgq, hnq⟩
  · intro m i hi
    rw [hbyIMSI] at hi
    obtain ⟨hm, q, hq, hmq⟩ := h.imsi_entry hi
    rw [← hother (hold hq).1] at hmq
    exact ⟨hm, q, hkeep hq, hmq⟩
  · intro q hl hg
    rw [hbyRan]
    by_cases hq : q = s.nref
    · subst hq
      rw [hself] at hg ⊢
      change gnb ≠ [] at hg
      rw [if_neg hg]
      exact update_self ..
    · have hls := hback hq hl
      rw [hother hq] at hg ⊢
      have hfound := h.ran_found hls hg
      grind
  · intro q _ hl hm
    rw [hbyIMSI]
    by_cases hq : q = s.nref
    · subst hq
      rw [hself] at hm
      exact absurd rfl hm
    · have hls := hback hq hl
      rw [hother hq] at hm ⊢
      exact h.imsi_found (some_ne_none q) hls hm

/-! ## Events -/

/-- The event moves a cached context to a new connection, found by its 5G-S-TMSI. -/
def rebinds (X : Ext) (s : AmfState) : Event → Bool
  | .initialUE gnb ran nas tmsi _ =>
    ran != 0 && !nas.isEmpty && (s.lookupByRanKey gnb ran).isNone &&
      (tmsi.bind (s.lookupByTMSI X.mapOrder)).isSome
  | _ => false

theorem contextForInitialUE_entered {tmsi : Option Nat} {p : Ref × AmfState} (h : Indexed s)
    (hp : contextForInitialUE X gnb ran tmsi s = some p)
    (hfresh : s.lookupByRanKey gnb ran = none → tmsi.bind (s.lookupByTMSI X.mapOrder) = none) :
    Entered p.1 p.2 := by
  unfold contextForInitialUE at hp
  split at hp
  · rename_i hl
    cases hp
    exact ⟨h, live_of_lookupByRanKey h hl⟩
  · rename_i hl
    rw [hfresh hl] at hp
    simp only [map_eq_some_iff] at hp
    obtain ⟨id, hid, rfl⟩ := hp
    exact newContext_entered h (nextFreeID_free hid) (ranKey_free h hl)

theorem delivery_entered (h : Indexed s) (hd : delivery X s ev = some d)
    (hre : rebinds X s ev = false) : Entered d.r d.state := by
  cases ev with
  | initialUE gnb ran nas tmsi req =>
    simp only [delivery] at hd
    split at hd
    · cases hd
    · rename_i hne
      simp only [map_eq_some_iff] at hd
      obtain ⟨p, hp, rfl⟩ := hd
      have hp' : Entered p.1 p.2 := contextForInitialUE_entered h hp fun hl => by
        simp only [not_or] at hne
        simpa [rebinds, hne, hl] using hre
      dsimp only
      exact (book_acts _).entered rfl hp'
  | uplinkNAS gnb amfId ran nas =>
    simp only [delivery, map_eq_some_iff] at hd
    obtain ⟨q, hq, rfl⟩ := hd
    have hcancel : Acts q [.cancel] s (s.exec (.cancel q .t3513)) := by
      apply Acts.one <;> rfl
    exact hcancel.entered rfl ⟨h, locateUE_live h hq⟩
  | _ => cases hd

/-- The contexts of a gNB leave one after the other. -/
theorem foldl_unindex_indexed (hnodup : victims.Nodup) (h : Indexed s)
    (hlive : ∀ q ∈ victims, s.Live q) :
    Indexed (victims.foldl (fun s r => s.exec (.unindex r)) s) := by
  induction victims generalizing s with
  | nil => exact h
  | cons r victims ih =>
    obtain ⟨hr, hnodup⟩ := nodup_cons.1 hnodup
    have hrl := hlive r mem_cons_self
    refine ih hnodup (h.unindex hrl (some_ne_none r)) fun q hq => ?_
    refine (unindex_live_iff hrl).2 ⟨hlive q (mem_cons_of_mem _ hq), ?_⟩
    rintro rfl
    exact hr hq

theorem foldl_removeHooks_indexed (h : Indexed s) :
    Indexed (victims.foldl (fun s r => removeHooks r s) s) := by
  induction victims generalizing s with
  | nil => exact h
  | cons r victims ih => exact ih (removeHooks_acts.indexedBut rfl h).1

theorem removeAllForGnb_indexed (h : Indexed s) : Indexed (removeAllForGnb gnb s) := by
  refine foldl_removeHooks_indexed (foldl_unindex_indexed ?_ h ?_)
  · exact List.Pairwise.filter _ nodup_range
  · intro q hq
    simp only [contextsOfGnb, mem_filter, Bool.and_eq_true, decide_eq_true_eq] at hq
    exact hq.2.1

theorem withUE_indexed {amfId : Nat} {f : Ref → AmfState → AmfState} (h : Indexed s)
    (hf : ∀ r, s.Live r → Indexed (f r s)) :
    Indexed (withUE gnb amfId ran f s) := by
  grind [withUE, locateUE_live]

/-! ## Runs -/

/-- No context is moved to a connection in place, and the message handled stores no key that the
indexes do not follow. -/
def KeepsIndexes (V : Env) (X : Ext) (s : AmfState) (ev : Event) : Prop :=
  rebinds X s ev = false ∧ ∀ m, handed V X s ev = some m → m.KeepsIndexes V X

theorem stepEvent_indexed (h : Indexed s) (hkeeps : KeepsIndexes V X s ev) :
    Indexed (stepEvent V X s ev) := by
  cases hd : delivery X s ev with
  | some d =>
    rw [stepEvent_of_delivery V X hd]
    refine dispatch_indexed (delivery_entered h hd hkeeps.1) fun m hm => hkeeps.2 m ?_
    simp [handed, hd, hm]
  | none =>
    cases ev with
    | initialUE gnb ran nas tmsi req =>
      grind [delivery, stepEvent, initialUEHandle]
    | uplinkNAS gnb amfId ran nas =>
      simp only [delivery, map_eq_none_iff] at hd
      simp only [stepEvent, uplinkNASHandle, hd]
      exact h
    | ueContextReleaseRequest gnb amfId ran inactive psis =>
      exact withUE_indexed h fun r _ =>
        ((releaseRequest_acts X inactive psis).indexedBut rfl h).1
    | ueContextReleaseComplete gnb amfId ran psis =>
      exact withUE_indexed h fun r hr =>
        ((releaseComplete_acts ran psis).settled rfl (Entered.settled ⟨h, hr⟩)).1
    | initialContextSetupResponse gnb amfId ran =>
      exact withUE_indexed h fun r _ => ((icsResponse_acts V X).indexedBut rfl h).1
    | initialContextSetupFailure gnb amfId ran =>
      exact withUE_indexed h fun r _ => (icsFailure_acts.indexedBut rfl h).1
    | gnbDown gnb => exact removeAllForGnb_indexed h
    | retransmit r t => exact ((retransmitTimer_acts V X t).indexedBut rfl h).1
    | expire r t => exact ((expireTimer_acts X t).indexedBut rfl h).1
    | sendDLNAS imsi nasPDU =>
      obtain ⟨r, hacts⟩ := sendDLNASByIMSI_acts V X imsi nasPDU (s := s)
      exact (hacts.indexedBut rfl h).1

theorem indexed_init : Indexed AmfState.init := by
  refine ⟨?_, ?_, ?_, ?_, ?_⟩
  · intro i q h
    cases h
  · intro g n i h
    cases h
  · intro m i h
    cases h
  · intro q h
    cases h.2
  · intro q _ h
    cases h.2

/-- In every state of a run, the indexes of the registry and the live contexts agree, and taking
one live context out leaves all others where they are found. -/
theorem registry_consistent
    (h : Reach (step V) (fun s i => KeepsIndexes V i.ext s i.ev) AmfState.init s) :
    Indexed s ∧ ∀ r, s.Live r →
      Indexed (remove r s) ∧ ∀ q, (remove r s).Live q ↔ s.Live q ∧ q ≠ r := by
  have hidx : Indexed s :=
    h.invariant indexed_init fun s i hs hkeeps => stepEvent_indexed hs hkeeps
  exact ⟨hidx, fun r hr => hidx.remove hr (some_ne_none r)⟩

/-- A registered UE comes back on a new connection, named by its 5G-S-TMSI: the old connection's
key still leads to its context. -/
theorem registry_inconsistent :
    ¬ ∀ (V : Env) (s : AmfState), Reach (step V) (fun _ _ => True) AmfState.init s → Indexed s := by
  intro h
  have hidx := h env _ (reach_run (step env) init
    (registered ++ [initial 2 gutiRequestPDU (some tmsi)]))
  obtain ⟨-, q, hq, -, hran⟩ := hidx.ran_entry (g := gnb) (n := 1) (i := 1) (by decide +kernel)
  have hzero : (run (step env) init (registered ++
      [initial 2 gutiRequestPDU (some tmsi)])).byAmfID 1 = some 0 := by
    decide +kernel
  cases hzero.symm.trans hq
  revert hran
  decide +kernel

/-- A first registration request. -/
theorem registry_consistent_request :
    Indexed (step Lab.env AmfState.init (Lab.initial 1 Lab.registrationRequestPDU none)) := by
  refine (registry_consistent (V := Lab.env)
    (Reach.start.next (Lab.initial 1 Lab.registrationRequestPDU none) ⟨by decide +kernel, ?_⟩)).1
  intro m hm
  have hpath : (handed env ext init
      (Lab.initial 1 Lab.registrationRequestPDU none).ev).map (fun m => (m.msgType,
        (m.entry.ue m.r).imsi, registrationPath Lab.env Lab.ext m.r m.inner m.outer m.entry)) =
      some (msgRegistrationRequest, [], .authenticate (Lab.registrationRequest 7
        (.suci [0x30, 0x30, 0x31, 0x30, 0x31] 0 [0x00, 0x00, 0x00, 0x00, 0x10])
        (some Lab.securityCapability)) Lab.supi 0) := by
    decide +kernel
  have heq := congrArg (Option.map fun m : Message => (m.msgType, (m.entry.ue m.r).imsi,
    registrationPath Lab.env Lab.ext m.r m.inner m.outer m.entry)) hm
  rw [show (Lab.initial 1 Lab.registrationRequestPDU none).ext = Lab.ext from rfl, hpath] at heq
  simp only [map_some, some.injEq, Prod.mk.injEq] at heq
  obtain ⟨hty, himsi, hauth⟩ := heq
  refine ⟨fun _ => ?_, fun hdereg => ?_, fun hident => ?_⟩
  · rw [show (Lab.initial 1 Lab.registrationRequestPDU none).ext = Lab.ext from rfl, ← hauth,
      ← himsi]
    exact .inl rfl
  · exact absurd (hty.trans hdereg) (by decide)
  · exact absurd (hty.trans hident) (by decide)

end MmtCore.Amf
