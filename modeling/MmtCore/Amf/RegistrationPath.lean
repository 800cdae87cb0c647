import MmtCore.Amf.Delivery

/-!
# The decisions of the registration handler

`handleRegistrationRequest` decides everything on what it finds when it starts: the message, the
registry, the cached contexts, the answers of the UDM and the NSSF.  `registrationPath` is that
decision as a pure function of the state, and `handleRegistrationRequest_eq` says that the handler
is one straight line of calls for each outcome.
-/

namespace MmtCore.Amf

open MmtCore.Lib

variable (V : Env) (X : Ext) {r : Ref} {s t : AmfState}

inductive RegistrationPath
  /-- The last request once more. -/
  | duplicate
  | malformed (cause : Nat)
  /-- No SUPI yet: the UE is asked for it. -/
  | unidentified (rr : RegistrationRequest)
  | unresolvable (rr : RegistrationRequest)
  /-- The UDM does not know the subscriber. -/
  | illegal (rr : RegistrationRequest) (supi : Imsi)
  | noSlices (rr : RegistrationRequest) (supi : Imsi)
  /-- The context cached is that of the connection itself. -/
  | reuseOwn (rr : RegistrationRequest) (supi : Imsi)
  /-- The outer PDU verifies under another context, with this count. -/
  | reuseOther (rr : RegistrationRequest) (supi : Imsi) (existing : Ref) (verified : Option Nat)
  /-- Primary authentication; `existing` is removed if it is not the connection's own context. -/
  | authenticate (rr : RegistrationRequest) (supi : Imsi) (existing : Ref)
deriving DecidableEq

/-- The existing context of the SUPI; the connection's own if there is none. -/
def existingContext (r : Ref) (supi : Imsi) (s : AmfState) : Ref := (s.lookupByIMSI supi).getD r

/-- The last part of the decision, for a subscriber with slices. -/
def subscriberPath (r : Ref) (rr : RegistrationRequest) (outer : Option Bytes) (supi : Imsi)
    (s : AmfState) : RegistrationPath :=
  let existing := existingContext r supi s
  if canReuseCachedContext (s.ue existing).sec rr.ngKSI then
    if existing = r then .reuseOwn rr supi
    else if securityHeaderType outer ≠ 0 then
      match reuseNAS V (s.ue existing).sec (outer.getD []) with
      | .ok verified => .reuseOther rr supi existing verified
      | .error _ => .authenticate rr supi existing
    else .authenticate rr supi existing
  else .authenticate rr supi existing

def registrationPath (r : Ref) (inner : Bytes) (outer : Option Bytes) (s : AmfState) :
    RegistrationPath :=
  if (s.ue r).isDuplicateRequest inner then .duplicate
  else
    match V.decode inner with
    | .error e => .malformed (causeForNASDecodeError e)
    | .ok (.registrationRequest rr) =>
      match resolveSUPI X s rr.mobileIdentity (s.ue r).imsi with
      | .error .noSUPI => .unidentified rr
      | .error .other => .unresolvable rr
      | .ok supi =>
        if X.authData supi = false then .illegal rr supi
        else if X.selectAllowedNSSAI supi rr.requestedNSSAI = [] then .noSlices rr supi
        else subscriberPath V r rr outer supi s
    | .ok _ => .malformed causeProtocolError

/-- The request is for this subscriber. -/
def Resolves (r : Ref) (inner : Bytes) (s : AmfState) (rr : RegistrationRequest) (supi : Imsi) :
    Prop :=
  V.decode inner = .ok (.registrationRequest rr) ∧
    resolveSUPI X s rr.mobileIdentity (s.ue r).imsi = .ok supi

/-- What each decision tells about the request and the state. -/
def RegistrationPath.Decided (r : Ref) (inner : Bytes) (outer : Option Bytes) (s : AmfState) :
    RegistrationPath → Prop
  | .duplicate => (s.ue r).isDuplicateRequest inner = true
  | .malformed _ => ∀ rr, V.decode inner ≠ .ok (.registrationRequest rr)
  | .unidentified rr => V.decode inner = .ok (.registrationRequest rr) ∧
      resolveSUPI X s rr.mobileIdentity (s.ue r).imsi = .error .noSUPI
  | .unresolvable rr => V.decode inner = .ok (.registrationRequest rr) ∧
      resolveSUPI X s rr.mobileIdentity (s.ue r).imsi = .error .other
  | .illegal rr supi => Resolves V X r inner s rr supi ∧ X.authData supi = false
  | .noSlices rr supi => Resolves V X r inner s rr supi ∧
      X.selectAllowedNSSAI supi rr.requestedNSSAI = []
  | .reuseOwn rr supi => Resolves V X r inner s rr supi ∧ existingContext r supi s = r ∧
      X.selectAllowedNSSAI supi rr.requestedNSSAI ≠ [] ∧
      canReuseCachedContext (s.ue r).sec rr.ngKSI = true
  | .reuseOther rr supi existing verified => Resolves V X r inner s rr supi ∧
      existingContext r supi s = existing ∧ existing ≠ r ∧
      X.selectAllowedNSSAI supi rr.requestedNSSAI ≠ [] ∧
      canReuseCachedContext (s.ue existing).sec rr.ngKSI = true ∧
      securityHeaderType outer ≠ 0 ∧
      reuseNAS V (s.ue existing).sec (outer.getD []) = .ok verified
  | .authenticate rr supi existing => Resolves V X r inner s rr supi ∧
      existingContext r supi s = existing

theorem registrationPath_decided (inner : Bytes) (outer : Option Bytes) :
    (registrationPath V X r inner outer s).Decided V X r inner outer s := by
  unfold registrationPath
  split
  · rename_i hdup
    exact hdup
  split
  · rename_i hdec
    intro rr h
    rw [hdec] at h
    cases h
  · rename_i rr hdec
    split
    · rename_i hres
      exact ⟨hdec, hres⟩
    · rename_i hres
      exact ⟨hdec, hres⟩
    · rename_i supi hres
      split
      · rename_i hauth
        exact ⟨⟨hdec, hres⟩, hauth⟩
      split
      · rename_i hslices
        exact ⟨⟨hdec, hres⟩, hslices⟩
      · rename_i hslices
        unfold subscriberPath
        dsimp only
        split
        · rename_i hreuse
          split
          · rename_i hown
            exact ⟨⟨hdec, hres⟩, hown, hslices, hown ▸ hreuse⟩
          · rename_i hother
            split
            · rename_i hsht
              split
              · rename_i verified hver
                exact ⟨⟨hdec, hres⟩, rfl, hother, hslices, hreuse, hsht, hver⟩
              · exact ⟨⟨hdec, hres⟩, rfl⟩
            · exact ⟨⟨hdec, hres⟩, rfl⟩
        · exact ⟨⟨hdec, hres⟩, rfl⟩
  · rename_i hne hdec
    intro rr h
    rw [hdec] at h
    cases h
    exact hne rr rfl

/-! ## The straight lines -/

/-- The request is copied into the context. -/
def copyRequest (r : Ref) (rr : RegistrationRequest) (s : AmfState) : AmfState :=
  storeUESecCap r rr.ueSecurityCapability (s.exec (.book r fun b => b.ofRequest rr))

/-- The SUPI is stored in place, and the request kept. -/
def enterSUPI (r : Ref) (rr : RegistrationRequest) (inner : Bytes) (supi : Imsi) (s : AmfState) :
    AmfState :=
  ((copyRequest r rr s).exec (.setImsi r supi)).exec
    (.book r fun b => { b with lastRegRequestPDU := inner })

/-- The slices are selected. -/
def enterSubscriber (r : Ref) (rr : RegistrationRequest) (inner : Bytes) (supi : Imsi)
    (s : AmfState) : AmfState :=
  runNSSFWithRequested X r rr.requestedNSSAI (enterSUPI r rr inner supi s)

/-- The context enters the registry, in the place of the existing one. -/
def takePlace (existing r : Ref) (s : AmfState) : AmfState :=
  if existing = r then s.exec (.insert r) else replaceContext existing r s

/-- What the handler does on a path. -/
def followPath (r : Ref) (inner : Bytes) (outer : Option Bytes) (s : AmfState) :
    RegistrationPath → AmfState
  | .duplicate => resendCachedNAS V X r s
  | .malformed cause => rejectRegistration V X r cause s
  | .unidentified rr => sendIdentityRequest V X r identityTypeSUCI (copyRequest r rr s)
  | .unresolvable rr =>
    abortRegistrationAndReleaseN1 V X r causeUEIdentityCannotBeDerived (copyRequest r rr s)
  | .illegal rr supi => rejectRegistration V X r causeIllegalUE (enterSUPI r rr inner supi s)
  | .noSlices rr supi =>
    rejectRegistration V X r causeNoNetworkSlicesAvailable (enterSubscriber X r rr inner supi s)
  | .reuseOwn rr supi => reuseOwnContext V X r rr (enterSubscriber X r rr inner supi s)
  | .reuseOther rr supi existing verified =>
    adoptContext V X r existing rr (outer.getD []) verified
      (enterSubscriber X r rr inner supi s)
  | .authenticate rr supi existing =>
    authenticateAfresh V X r (takePlace existing r (enterSubscriber X r rr inner supi s))

/-! ## Facts about the prefix -/

section

variable (rr : RegistrationRequest)

theorem copyRequest_acts : Acts r [.cap, .book] s (copyRequest r rr s) := by
  unfold copyRequest
  refine Acts.andThen (Acts.one ?_ ?_) (storeUESecCap_acts _) rfl <;> rfl

section

variable (inner : Bytes) (supi : Imsi)

theorem enterSUPI_acts : Acts r [.cap, .book, .imsi] s (enterSUPI r rr inner supi s) := by
  unfold enterSUPI
  refine Acts.exec (Acts.exec ((copyRequest_acts rr).mono rfl) ?_ ?_) ?_ ?_ <;> rfl

theorem enterSubscriber_acts :
    Acts r [.cap, .book, .imsi] s (enterSubscriber X r rr inner supi s) :=
  (enterSUPI_acts rr inner supi).andThen (runNSSFWithRequested_acts X _) rfl

theorem enterSubscriber_registry : (enterSubscriber X r rr inner supi s).registry = s.registry :=
  (enterSubscriber_acts X rr inner supi).registry_eq rfl

end

/-- The request only touches the UE security capability of the keys' context. -/
theorem copyRequest_sec : ((copyRequest r rr s).ue r).sec =
      { (s.ue r).sec with ueSecCap := rr.ueSecurityCapability.getD (s.ue r).sec.ueSecCap } := by
  unfold copyRequest storeUESecCap
  cases rr.ueSecurityCapability <;> simp [AmfState.exec, AmfState.updSec]

@[simp] theorem copyRequest_book :
    ((copyRequest r rr s).ue r).book = (s.ue r).book.ofRequest rr := by
  unfold copyRequest storeUESecCap
  cases rr.ueSecurityCapability <;> simp [AmfState.exec, AmfState.updSec]

@[simp] theorem copyRequest_imsi (q : Ref) : ((copyRequest r rr s).ue q).imsi = (s.ue q).imsi :=
  (copyRequest_acts rr).imsi_eq rfl q

section

variable (inner : Bytes) (supi : Imsi)

theorem enterSUPI_sec : ((enterSUPI r rr inner supi s).ue r).sec =
      { (s.ue r).sec with ueSecCap := rr.ueSecurityCapability.getD (s.ue r).sec.ueSecCap } := by
  rw [← copyRequest_sec]
  simp [enterSUPI, AmfState.exec]

@[simp] theorem enterSUPI_imsi : ((enterSUPI r rr inner supi s).ue r).imsi = supi := by
  simp [enterSUPI, AmfState.exec]

theorem enterSubscriber_sec : ((enterSubscriber X r rr inner supi s).ue r).sec =
      { (s.ue r).sec with ueSecCap := rr.ueSecurityCapability.getD (s.ue r).sec.ueSecCap } := by
  rw [← enterSUPI_sec rr inner supi]
  simp [enterSubscriber, runNSSFWithRequested, AmfState.exec]

@[simp] theorem enterSubscriber_imsi :
    ((enterSubscriber X r rr inner supi s).ue r).imsi = supi := by
  simp [enterSubscriber, runNSSFWithRequested, AmfState.exec]

theorem enterSubscriber_allowed : ((enterSubscriber X r rr inner supi s).ue r).book.allowedNSSAI =
      X.selectAllowedNSSAI supi rr.requestedNSSAI := by
  simp [enterSubscriber, runNSSFWithRequested, AmfState.exec]

theorem enterSubscriber_nasKSI :
    ((enterSubscriber X r rr inner supi s).ue r).book.nasKSI = rr.ngKSI := by
  simp [enterSubscriber, runNSSFWithRequested, enterSUPI, AmfState.exec, Book.ofRequest]

theorem enterSubscriber_ue_of_ne
    {q : Ref} (hq : q ≠ r) : (enterSubscriber X r rr inner supi s).ue q = s.ue q :=
  (enterSubscriber_acts X rr inner supi).ue_of_ne hq

end

end

theorem lookupByIMSI_of_registry {imsi : Imsi} (h : t.registry = s.registry) :
    t.lookupByIMSI imsi = s.lookupByIMSI imsi := by
  simp only [AmfState.registry, Prod.mk.injEq] at h
  simp only [AmfState.lookupByIMSI, h.2.1, h.2.2.2]

/-- The decision to reuse does not look at the UE security capability. -/
theorem canReuse_enterSubscriber (rr : RegistrationRequest) (inner : Bytes) (supi : Imsi)
    (q : Ref) (ksi : Nat) :
    canReuseCachedContext ((enterSubscriber X r rr inner supi s).ue q).sec ksi =
      canReuseCachedContext (s.ue q).sec ksi := by
  by_cases hq : q = r
  · subst hq
    rw [enterSubscriber_sec]
    rfl
  · rw [enterSubscriber_ue_of_ne X rr inner supi hq]

/-- Resolving a SUPI looks at the registry and at the identities. -/
theorem resolveSUPI_of_acts {L : List Kind} (h : Acts r L s t)
    (hL : L.all (· ∉ [.insert, .unindex, .create, .imsi, .tmsi]) = true) (id : MobileIdentity)
    (current : Imsi) : resolveSUPI X t id current = resolveSUPI X s id current := by
  have hreg := h.registry_eq (by
    simp only [List.all_eq_true, decide_eq_true_eq, List.mem_cons, not_or] at hL ⊢
    intro k hk
    exact ⟨(hL k hk).1, (hL k hk).2.1, (hL k hk).2.2.1, List.not_mem_nil⟩)
  have hue : ∀ q, ((t.ue q).amfUeNgapId, (t.ue q).tmsi5g, (t.ue q).imsi) =
      ((s.ue q).amfUeNgapId, (s.ue q).tmsi5g, (s.ue q).imsi) := by
    intro q
    refine h.frame (fun u => (u.amfUeNgapId, u.tmsi5g, u.imsi)) (fun s' c u hk => ?_) q
    have hc : c.kind ∉ [.insert, .unindex, .create, .imsi, .tmsi] := by
      simpa using List.all_eq_true.1 hL _ hk
    cases c <;> first | rfl | (simp [Cmd.effect]; done) | (simp [Cmd.kind] at hc)
  simp only [Prod.mk.injEq] at hue
  simp only [AmfState.registry, Prod.mk.injEq] at hreg
  have hlookup : ∀ pick tmsi, t.lookupByTMSI pick tmsi = s.lookupByTMSI pick tmsi := by
    intro pick tmsi
    simp only [AmfState.lookupByTMSI, AmfState.holdersOfTMSI, AmfState.Live, hreg.1, hreg.2.1,
      (hue _).1, (hue _).2.1]
  cases id <;> simp only [resolveSUPI, hlookup, (hue _).2.2]

/-- The second removal of the plain branch finds nothing more. -/
theorem remove_remove (q : Ref) : remove q (remove q s) = remove q s := by
  simp only [remove, removeHooks, AmfState.exec, AmfState.unindex, AmfState.upd,
    Function.update_self, Function.update_idem]
  split <;> split <;> simp_all [Function.update_idem]

/-! ## A context taken over -/

/-- The count of the verified PDU is stored, and the keys move. -/
def adoptKeys (r existing : Ref) (outer : Bytes) (verified : Option Nat) (s : AmfState) :
    AmfState :=
  (match verified with
    | none => s
    | some count => s.exec (.acceptUl existing
        ((s.ue existing).sec.rxPending (securityHeaderType (some outer))) count outer)).exec
    (.migrate existing r)

/-- The registration is accepted with the keys that moved, or else authentication follows. -/
def acceptAdopted (r existing : Ref) (rr : RegistrationRequest) (s : AmfState) : AmfState :=
  let out := sendRegistrationAcceptReusedContext V X r s
  if out.2 then
    reconcilePDUSessionsOnRegistration X r rr (out.1.exec (.emit (.contextReused r existing)))
  else startAuthentication V X r (out.1.exec (.unassignNgksi r))

theorem acceptAdopted_acts (existing : Ref) (rr : RegistrationRequest) :
    Acts r reuseKinds s (acceptAdopted V X r existing rr s) := by
  have h : Acts r reuseKinds s (sendRegistrationAcceptReusedContext V X r s).1 :=
    (sendRegistrationAcceptReusedContext_acts V X).mono rfl
  unfold acceptAdopted
  dsimp only
  split
  · refine Acts.andThen (h.exec ?_ ?_) (reconcilePDUSessionsOnRegistration_acts X _)
      rfl <;> rfl
  · refine Acts.andThen (h.exec ?_ ?_) (startAuthentication_acts V X) rfl <;> rfl

/-- The state in which a context taken over is accepted. -/
def enterAdopted (r existing : Ref) (rr : RegistrationRequest) (inner : Bytes) (supi : Imsi)
    (outer : Option Bytes) (verified : Option Nat) (s : AmfState) : AmfState :=
  replaceContext existing r
    (adoptKeys r existing (outer.getD []) verified (enterSubscriber X r rr inner supi s))

theorem followPath_reuseOther (inner : Bytes) (outer : Option Bytes) (rr : RegistrationRequest)
    (supi : Imsi) (existing : Ref) (verified : Option Nat) :
    followPath V X r inner outer s (.reuseOther rr supi existing verified) =
      acceptAdopted V X r existing rr (enterAdopted X r existing rr inner supi outer verified s) :=
  rfl

/-- The keys that move are in two contexts, one after the other. -/
theorem adoptKeys_acts (existing : Ref) (outer : Bytes) (verified : Option Nat) :
    ∃ t, Acts existing [.ul] s t ∧ Acts r [.migrate] t (adoptKeys r existing outer verified s) := by
  unfold adoptKeys
  cases verified with
  | none =>
    refine ⟨s, .refl, Acts.one ?_ ?_⟩ <;> rfl
  | some count =>
    refine ⟨s.exec (.acceptUl existing
      ((s.ue existing).sec.rxPending (securityHeaderType (some outer))) count outer),
      Acts.one ?_ ?_, Acts.one ?_ ?_⟩ <;> rfl

theorem enterAdopted_imsi {inner : Bytes} {outer : Option Bytes} {rr : RegistrationRequest}
    {supi : Imsi} {existing : Ref} {verified : Option Nat} (hne : existing ≠ r) :
    ((enterAdopted X r existing rr inner supi outer verified s).ue r).imsi = supi := by
  obtain ⟨t, hul, hmigrate⟩ := adoptKeys_acts (s := enterSubscriber X r rr inner supi s) (r := r)
    existing (outer.getD []) verified
  have hremove : ((enterAdopted X r existing rr inner supi outer verified s).ue r).imsi =
      ((adoptKeys r existing (outer.getD []) verified
        (enterSubscriber X r rr inner supi s)).ue r).imsi :=
    congrArg Ue.imsi (remove_acts.ue_of_ne hne.symm)
  rw [hremove, hmigrate.imsi_eq rfl, hul.imsi_eq rfl, enterSubscriber_imsi]

/-! ## The handler follows its path -/

section

variable (rr : RegistrationRequest) (inner : Bytes) (outer : Option Bytes)

theorem registerSubscriber_eq (supi : Imsi) :
    registerSubscriber V X r rr outer supi (enterSubscriber X r rr inner supi s) =
      followPath V X r inner outer s (subscriberPath V r rr outer supi s) := by
  have hexisting : ((enterSubscriber X r rr inner supi s).lookupByIMSI supi).getD r =
      existingContext r supi s := by
    rw [existingContext, lookupByIMSI_of_registry (enterSubscriber_registry X rr inner supi)]
  unfold registerSubscriber subscriberPath
  dsimp only
  rw [hexisting, enterSubscriber_nasKSI, canReuse_enterSubscriber]
  generalize existingContext r supi s = existing
  by_cases hreuse : canReuseCachedContext (s.ue existing).sec rr.ngKSI = true
  · simp only [hreuse, if_true]
    by_cases hown : existing = r
    · simp only [hown, if_true, followPath]
    · simp only [hown, if_false]
      by_cases hplain : securityHeaderType outer = 0
      · simp only [hplain, ne_eq, not_true_eq_false, if_false, followPath, takePlace, hown,
          replaceContext, remove_remove]
      · simp only [hplain, ne_eq, not_false_eq_true, if_true, reuseOtherContext,
          enterSubscriber_ue_of_ne X rr inner supi hown]
        cases reuseNAS V (s.ue existing).sec (outer.getD []) with
        | error _ => simp only [followPath, takePlace, hown, if_false]
        | ok verified => simp only [followPath]
  · simp only [hreuse, if_false, Bool.false_eq_true, followPath, takePlace]
    by_cases hown : existing = r
    · simp only [hown, if_true]
    · simp only [hown, if_false]

theorem registrationRequest_eq : registrationRequest V X r rr inner outer s =
      followPath V X r inner outer s
        (match resolveSUPI X s rr.mobileIdentity (s.ue r).imsi with
        | .error .noSUPI => .unidentified rr
        | .error .other => .unresolvable rr
        | .ok supi =>
          if X.authData supi = false then .illegal rr supi
          else if X.selectAllowedNSSAI supi rr.requestedNSSAI = [] then .noSlices rr supi
          else subscriberPath V r rr outer supi s) := by
  have hresolve : resolveSUPI X (copyRequest r rr s) rr.mobileIdentity
      ((copyRequest r rr s).ue r).imsi = resolveSUPI X s rr.mobileIdentity (s.ue r).imsi := by
    rw [copyRequest_imsi]
    exact resolveSUPI_of_acts X (copyRequest_acts rr) rfl _ _
  unfold registrationRequest
  dsimp only
  rw [show storeUESecCap r rr.ueSecurityCapability (s.exec (.book r fun b => b.ofRequest rr))
    = copyRequest r rr s from rfl, hresolve]
  cases resolveSUPI X s rr.mobileIdentity (s.ue r).imsi with
  | error e => cases e <;> rfl
  | ok supi =>
    change (if X.authData supi = false then
        rejectRegistration V X r causeIllegalUE (enterSUPI r rr inner supi s)
      else if ((enterSubscriber X r rr inner supi s).ue r).book.allowedNSSAI = [] then
        rejectRegistration V X r causeNoNetworkSlicesAvailable (enterSubscriber X r rr inner supi s)
      else registerSubscriber V X r rr outer supi (enterSubscriber X r rr inner supi s)) = _
    rw [enterSubscriber_allowed, registerSubscriber_eq]
    cases hauth : X.authData supi with
    | false => simp only [hauth, if_true, followPath]
    | true =>
      by_cases hslices : X.selectAllowedNSSAI supi rr.requestedNSSAI = []
      · simp only [hauth, hslices, Bool.true_eq_false, if_true, if_false, followPath]
      · simp only [hauth, hslices, Bool.true_eq_false, if_false]

end

/-- The handler follows the path decided at its start. -/
theorem handleRegistrationRequest_eq (inner : Bytes) (outer : Option Bytes) :
    handleRegistrationRequest V X r inner outer s =
      followPath V X r inner outer s (registrationPath V X r inner outer s) := by
  unfold handleRegistrationRequest registrationPath
  by_cases hdup : (s.ue r).isDuplicateRequest inner = true
  · simp only [hdup, if_true, followPath]
  · simp only [hdup, if_false, Bool.false_eq_true]
    cases V.decode inner with
    | error e => rfl
    | ok m =>
      cases m with
      | registrationRequest rr => exact registrationRequest_eq V X rr inner outer
      | _ => rfl

end MmtCore.Amf
