import MmtCore.Ims.Registration

/-!
# Registrations over runs

A binding is made only by a REGISTER that is verified against the challenge outstanding, for an
IMPU of the IMPI, and ends only with its time or by the network, as long as no other request
reaches a machine that is registered.
-/

namespace MmtCore.Ims

open MmtCore.Lib Option Registration

namespace CSCF

variable (hss : List (Text × Text)) (cfg : RegisterHandlerConfig) (c : CSCF)

/-! ## The property -/

/-- The request verifies against the challenge that is outstanding, and the subscriber data give
the IMPU to the IMPI. -/
def Owns (v : Verified) : Prop :=
  (∃ r ∈ c.registrations v.impi, r.state = .challenged ∧ realVerifyAuth v.req r.av = true) ∧
    (v.impi, (parseRegister v.req).impu) ∈ hss

/-- The step is a request of the authenticated owner. -/
def Authenticated (impi : Text) : CscfEvent → Prop
  | .verified v => v ∈ c.inFlight ∧ v.impi = impi ∧ Owns hss c v
  | _ => False

/-- The step is the timeout of the registration that is in force. -/
def Expired (impi : Text) : CscfEvent → Prop
  | .timeout i (.regExpires n) =>
    i = impi ∧ ∃ r ∈ c.registrations impi, .regExpires n ∈ r.fired ∧ n = r.number
  | _ => False

def ByNetwork (impi : Text) : CscfEvent → Prop
  | .networkDeregister i => i = impi
  | _ => False

def IsRequest : CscfEvent → Prop
  | .register _ _ | .verified _ => True
  | _ => False

/-- The bindings change only for the owner. -/
structure OwnerOnly (ev : CscfEvent) : Prop where
  bound : ∀ impi b, (c.step cfg ev).bindingOf impi = some b → c.bindingOf impi ≠ some b →
    Authenticated hss c impi ev
  ended : ∀ impi b, c.bindingOf impi = some b → (c.step cfg ev).bindingOf impi ≠ some b →
    Authenticated hss c impi ev ∨ Expired c impi ev ∨ ByNetwork impi ev
  reachable : IsRequest ev → (∀ impi, ¬ Authenticated hss c impi ev) →
    ∀ impu impi, (c.step cfg ev).Finds impu impi ↔ c.Finds impu impi
  entitled : ∀ impu impi, (c.step cfg ev).Finds impu impi → (impi, impu) ∈ hss

/-! ## The condition -/

def Registered (impi : Text) : Prop := (c.bindingOf impi).isSome
  deriving Decidable

/-- No de-registration and no unprotected request reaches a registered machine; a verified one
finds the challenge it was verified against, or one that it verifies against as well, and asks for
an IMPU of its IMPI; and a registration ends by its own timer. -/
def Keeps : CscfEvent → Prop
  | .register req av => (parseRegister req).impi ≠ [] →
    ((parseRegister req).expires = 0 ∨ isIntegrityProtected req = false ∧ av.isSome) →
      ¬ c.Registered (cfg.impiOf req)
  | .verified v => v ∈ c.inFlight → v.authOK = true →
    (c.getOrCreateRegistration v.impi).state = .challenged →
      realVerifyAuth v.req (c.getOrCreateRegistration v.impi).av = true ∧
        (v.impi, (parseRegister v.req).impu) ∈ hss
  | .timeout impi (.regExpires n) => c.Registered impi →
    .regExpires n ∈ (c.getOrCreateRegistration impi).fired →
      n = (c.getOrCreateRegistration impi).number
  | _ => True

instance (ev : CscfEvent) : Decidable (c.Keeps hss cfg ev) :=
  match ev with
  | .register req av => inferInstanceAs (Decidable ((parseRegister req).impi ≠ [] →
      ((parseRegister req).expires = 0 ∨ isIntegrityProtected req = false ∧ av.isSome) →
        ¬ c.Registered (cfg.impiOf req)))
  | .verified _ =>
    inferInstanceAs (Decidable (_ ∈ c.inFlight → _ = true → _ = _ → _ = true ∧ _ ∈ hss))
  | .timeout impi (.regExpires _) =>
    inferInstanceAs (Decidable (c.Registered impi → _ ∈ _ → _ = _))
  | .timeout _ .challenge | .challengeTimer _ | .regExpiresTimer _ | .networkDeregister _ =>
    inferInstanceAs (Decidable True)

/-! ## What a step does to a binding -/

variable {hss cfg c}

theorem bindingOf_setRegistration (impi i : Text) (r : Registration) :
    (c.setRegistration i r).bindingOf impi = if impi = i then r.binding else c.bindingOf impi := by
  unfold bindingOf setRegistration
  grind

theorem bindingOf_eq (impi : Text) :
    c.bindingOf impi = (c.getOrCreateRegistration impi).binding := by
  unfold bindingOf getOrCreateRegistration
  cases c.registrations impi with
  | none | some r => rfl

variable {r : Registration} {i : Text} {ev : CscfEvent}

theorem binding_eq_none : r.binding = none ↔ r.state ≠ .registered := by
  simp [binding]

theorem binding_of_ne (h : r.state ≠ .registered) : r.binding = none :=
  binding_eq_none.2 h

theorem not_registered_iff {impi : Text} : ¬ c.Registered impi ↔ c.bindingOf impi = none := by
  unfold Registered
  rw [Bool.not_eq_true, isSome_eq_false_iff, isNone_iff_eq_none]

/-- Where a change of one registration leaves its binding, all bindings stay. -/
theorem bindingOf_set_same (h : r.binding = c.bindingOf i) (impi : Text) :
    (c.setRegistration i r).bindingOf impi = c.bindingOf impi := by
  rw [bindingOf_setRegistration]
  split
  · case isTrue hi => rw [hi, h]
  · rfl

theorem bindingOf_update (impi i : Text) (f : Registration → Registration) :
    (c.update i f).bindingOf impi = c.bindingOf impi ∨
      ∃ r, c.registrations i = some r ∧ impi = i ∧ (c.update i f).bindingOf impi = (f r).binding := by
  grind [bindingOf_setRegistration, update]

/-- What becomes of the binding of an IMPI: it stays, the owner binds an IMPU of the IMPI, or it
ends with its time or by the network. -/
def Change (hss : List (Text × Text)) (cfg : RegisterHandlerConfig) (c : CSCF) (ev : CscfEvent)
    (impi : Text) : Prop :=
  (c.step cfg ev).bindingOf impi = c.bindingOf impi ∨
    (Authenticated hss c impi ev ∧
      ∀ b ∈ (c.step cfg ev).bindingOf impi, (impi, b.2.1) ∈ hss) ∨
    ((Expired c impi ev ∨ ByNetwork impi ev) ∧ (c.step cfg ev).bindingOf impi = none)

theorem register_change {req : SipRequest} {av : Option AuthVec}
    (hk : c.Keeps hss cfg (.register req av)) (impi : Text) :
    (c.step cfg (.register req av)).bindingOf impi = c.bindingOf impi := by
  unfold step handleRegister
  dsimp only
  split
  · rfl
  case isFalse hne =>
  have hk := hk hne
  split
  · case isTrue h0 =>
    refine bindingOf_set_same ?_ impi
    rw [not_registered_iff.1 (hk (.inl h0))]
    exact binding_of_ne (by simp [onDeregister, wiped])
  · split
    · exact bindingOf_set_same (bindingOf_eq _).symm impi
    · case isFalse hprot =>
      refine bindingOf_set_same ?_ impi
      unfold onUnprotected
      cases av with
      | none => exact (bindingOf_eq _).symm
      | some av =>
        dsimp only
        split
        · exact (bindingOf_eq _).symm
        · rw [not_registered_iff.1 (hk (.inr ⟨by simpa using hprot, rfl⟩))]
          exact binding_of_ne (by simp)

theorem verified_change {v : Verified} (hk : c.Keeps hss cfg (.verified v)) (impi : Text) :
    Change hss cfg c (.verified v) impi := by
  unfold Change CSCF.step
  dsimp only
  split
  case isFalse => exact .inl rfl
  case isTrue hin =>
  have hk := hk hin
  unfold onVerified
  change (c.setRegistration v.impi _).bindingOf impi = _ ∨
    (_ ∧ ∀ b ∈ (c.setRegistration v.impi _).bindingOf impi, _) ∨ _
  unfold onProtected
  split
  · exact .inl (bindingOf_set_same (bindingOf_eq _).symm impi)
  case isFalse hstate =>
  rw [not_ne_iff] at hstate
  have hnone : c.bindingOf v.impi = none := by
    rw [bindingOf_eq]
    exact binding_of_ne (by rw [hstate]; decide)
  split
  · refine .inl (bindingOf_set_same ?_ impi)
    rw [hnone]
    exact binding_of_ne (by simp)
  case isFalse hok =>
  rw [not_not] at hok
  obtain ⟨hverify, hown⟩ := hk hok hstate
  rw [bindingOf_setRegistration]
  by_cases hi : impi = v.impi
  · rw [if_pos hi]
    refine .inr (.inl ⟨⟨hin, hi.symm, ?_, hown⟩, ?_⟩)
    · unfold getOrCreateRegistration at hstate hverify
      cases hr : c.registrations v.impi with
      | none =>
        rw [hr] at hstate
        exact absurd hstate (by decide)
      | some r =>
        simp_all
    · intro b hb
      obtain rfl := some.inj hb
      rw [hi]
      exact hown
  · exact .inl (if_neg hi)

theorem timeout_change {t : Timeout} (hk : c.Keeps hss cfg (.timeout i t)) (impi : Text) :
    Change hss cfg c (.timeout i t) impi := by
  unfold Change CSCF.step
  rcases bindingOf_update (c := c) impi i
    (fun r => if t ∈ r.fired then { r.onTimeout t with fired := r.fired.erase t } else r) with
    hsame | ⟨r, hr, rfl, hnew⟩
  · exact .inl hsame
  have hold : c.bindingOf impi = r.binding := by
    unfold bindingOf
    rw [hr]
    rfl
  rw [hnew, hold]
  split
  case isFalse => exact .inl rfl
  case isTrue hin =>
  cases t with
  | challenge =>
    left
    change (onChallengeTimeout r).binding = _
    unfold onChallengeTimeout
    split
    · rfl
    · simp_all [binding_of_ne]
  | regExpires n =>
    change (onRegExpireTimeout r).binding = _ ∨ _ ∨
      (_ ∧ (onRegExpireTimeout r).binding = none)
    unfold onRegExpireTimeout
    split
    · exact .inl rfl
    · case isFalse hstate =>
      have hreg : c.Registered impi := by
        simp_all [Registered, binding]
      have hget : c.getOrCreateRegistration impi = r := by
        unfold getOrCreateRegistration
        rw [hr]
        rfl
      have hnumber := hk hreg (by rw [hget]; exact hin)
      rw [hget] at hnumber
      exact .inr (.inr ⟨.inl ⟨rfl, r, hr, hin, hnumber⟩, binding_of_ne (by simp)⟩)

theorem change_of_keeps (hk : c.Keeps hss cfg ev) (impi : Text) : Change hss cfg c ev impi := by
  cases ev with
  | register req av => exact .inl (register_change hk impi)
  | verified v => exact verified_change hk impi
  | challengeTimer i =>
    rcases bindingOf_update (c := c) impi i fireChallenge with hsame | ⟨r, hr, rfl, hnew⟩
    · exact .inl hsame
    · refine .inl (hnew.trans ?_)
      unfold bindingOf
      rw [hr]
      unfold fireChallenge
      split <;> rfl
  | regExpiresTimer i =>
    rcases bindingOf_update (c := c) impi i fireRegExpires with
      hsame | ⟨r, hr, rfl, hnew⟩
    · exact .inl hsame
    · refine .inl (hnew.trans ?_)
      unfold bindingOf
      rw [hr]
      unfold fireRegExpires
      split <;> rfl
  | timeout i t => exact timeout_change hk impi
  | networkDeregister i =>
    rcases bindingOf_update (c := c) impi i wiped with hsame | ⟨r, hr, rfl, hnew⟩
    · exact .inl hsame
    · exact .inr (.inr ⟨.inr rfl, hnew.trans (binding_of_ne (by simp [wiped]))⟩)

/-! ## The invariant -/

/-- Every binding is of an IMPU of its IMPI. -/
def Entitled (hss : List (Text × Text)) (c : CSCF) : Prop :=
  ∀ impi, ∀ b ∈ c.bindingOf impi, (impi, b.2.1) ∈ hss

theorem Entitled.step (h : Entitled hss c) (hk : c.Keeps hss cfg ev) :
    Entitled hss (c.step cfg ev) := by
  intro impi b hb
  rcases change_of_keeps hk impi with hsame | ⟨-, hown⟩ | ⟨-, hnone⟩
  · rw [hsame] at hb
    exact h impi b hb
  · exact hown b hb
  · rw [hnone] at hb
    cases hb

theorem ownerOnly_of_keeps (h : Entitled hss c) (hk : c.Keeps hss cfg ev) :
    c.OwnerOnly hss cfg ev := by
  refine ⟨?_, ?_, ?_, ?_⟩
  · intro impi b hb hne
    rcases change_of_keeps hk impi with hsame | ⟨hauth, -⟩ | ⟨-, hnone⟩
    · exact absurd (hsame.symm.trans hb) hne
    · exact hauth
    · rw [hnone] at hb
      cases hb
  · intro impi b hb hne
    rcases change_of_keeps hk impi with hsame | ⟨hauth, -⟩ | ⟨hend, -⟩
    · exact absurd (hsame.trans hb) hne
    · exact .inl hauth
    · exact .inr hend
  · intro hreq hnot impu impi
    have hsame : (c.step cfg ev).bindingOf impi = c.bindingOf impi := by
      rcases change_of_keeps hk impi with hsame | ⟨hauth, -⟩ | ⟨hend, -⟩
      · exact hsame
      · exact absurd hauth (hnot impi)
      · cases ev with
        | register req av | verified v => exact hend.elim False.elim False.elim
        | _ => exact hreq.elim
    unfold Finds
    rw [hsame]
  · rintro impu impi ⟨b, hb, rfl⟩
    exact h.step hk impi b hb

/-! ## Main result -/

/-- The registrar before the first request. -/
def empty : CSCF := ⟨fun _ => none, []⟩

/-- In every run whose steps meet the condition the bindings change only for the authenticated
owner, with their time or by the network. -/
theorem ownerOnly_runs (hss : List (Text × Text)) (cfg : RegisterHandlerConfig)
    (events : List CscfEvent) (h : Meets (step cfg) (Keeps hss cfg) empty events) :
    Meets (step cfg) (OwnerOnly hss cfg) empty events :=
  h.imp (I := Entitled hss)
    (fun _ _ hinv hk => ⟨ownerOnly_of_keeps hinv hk, hinv.step hk⟩)
    (fun _ _ hb => by cases hb)

/-! ## Runs -/

def alice : Text := "001010000000001".toList

def bob : Text := "001010000000002".toList

def impiOf (user : Text) : Text := user ++ "@ims.local".toList

def impuOf (user : Text) : Text := "sip:".toList ++ impiOf user

def aor (user : Text) : Text := "<".toList ++ impuOf user ++ ">".toList

/-- A REGISTER from one user for the address of another, or its own. -/
def registerRequest (authorization : Text) (expires : String) (fromUser toUser : Text) :
    SipRequest :=
  ⟨"REGISTER".toList, authorization, aor fromUser, aor toUser, "<sip:10.0.0.1>".toList,
    expires.toList, []⟩

def digestHeader (user : Text) (response : String) : Text :=
  "Digest username=\"".toList ++ impiOf user ++ "\", realm=\"ims.local\"".toList ++
    ", nonce=\"bm9uY2U=\"".toList ++ ", uri=\"sip:ims.local\"".toList ++
    ", response=\"".toList ++ response.toList ++ "\"".toList

/-- A vector whose XRES is `abcd`. -/
def aVector : AuthVec := ⟨[1], [2], [0xab, 0xcd]⟩

def subscribers : List (Text × Text) :=
  [(impiOf alice, impuOf alice), (impiOf bob, impuOf bob)]

def atHome : RegisterHandlerConfig := ⟨fun _ => none, "ims.local".toList⟩

/-- The response of Alice. -/
def aliceAnswers : SipRequest :=
  registerRequest (digestHeader alice "389fc09afa6b45396a7b8949e83f4ec9") "600" alice alice

/-- Alice is challenged and registers. -/
def aliceRegisters : List CscfEvent :=
  [.register (registerRequest [] "600" alice alice) (some aVector), .register aliceAnswers none,
    .verified ⟨impiOf alice, aliceAnswers, true⟩]

/-- Then her registration runs out. -/
def aliceExpires : List CscfEvent :=
  aliceRegisters ++ [.regExpiresTimer (impiOf alice),
    .timeout (impiOf alice) (.regExpires 1)]

theorem ownerOnly_aliceExpires :
    Meets (step atHome) (OwnerOnly subscribers atHome) empty aliceExpires :=
  ownerOnly_runs subscribers atHome aliceExpires
    ⟨by decide, by decide, by decide +kernel, by decide,
      by decide +kernel, trivial⟩

/-- Somebody sends a REGISTER for Alice without any authorization, with `Expires: 0` or as a first
request. -/
def strangerSends (expires : String) : List CscfEvent :=
  aliceRegisters ++ [.register (registerRequest [] expires alice alice) (some aVector)]

/-- Bob answers his own challenge with the address of Alice. -/
def bobAnswers : SipRequest :=
  registerRequest (digestHeader bob "0a406144924a1f867e3fe2dca554e2bb") "600" bob alice

def bobAsks : List CscfEvent :=
  [.register (registerRequest [] "600" bob alice) (some aVector), .register bobAnswers none]

def bobTakesAlice : List CscfEvent :=
  bobAsks ++ [.verified ⟨impiOf bob, bobAnswers, true⟩]

/-- The stranger ends the registration of Alice, and Bob is bound to her address. -/
theorem hijacked :
    (∀ expires ∈ ["0", "600"], ¬ Meets (step atHome) (OwnerOnly subscribers atHome) empty
        (strangerSends expires)) ∧
      ¬ Meets (step atHome) (OwnerOnly subscribers atHome) empty bobTakesAlice := by
  have hend : ∀ expires ∈ ["0", "600"],
      ((run (step atHome) empty (strangerSends expires)).bindingOf
          (impiOf alice)).isNone ∧
        ((run (step atHome) empty aliceRegisters).bindingOf
          (impiOf alice)).isSome := by
    decide +kernel
  have hbound : ((run (step atHome) empty bobTakesAlice).bindingOf
      (impiOf bob)).map (·.2.1) =
      some (impuOf alice) := by decide +kernel
  refine ⟨fun expires he h => ?_, fun h => ?_⟩
  · obtain ⟨hnone, hsome⟩ := hend expires he
    obtain ⟨b, hb⟩ := isSome_iff_exists.1 hsome
    obtain ⟨hlast, -⟩ := @Meets.of_append _ _ _ _ _ aliceRegisters _ h
    unfold strangerSends at hnone
    rw [run_append, run_cons, run_nil, isNone_iff_eq_none] at hnone
    have hother := hlast.ended _ b hb (by rw [hnone]; exact (some_ne_none b).symm)
    exact hother.elim id fun h => h.elim id id
  · obtain ⟨hlast, -⟩ := @Meets.of_append _ _ _ _ _ bobAsks _ h
    obtain ⟨b, hb, hu⟩ := map_eq_some_iff.1 hbound
    unfold bobTakesAlice at hb
    rw [run_append, run_cons, run_nil] at hb
    exact absurd (hlast.entitled _ _ ⟨b, hb, hu⟩) (by decide)

end CSCF

end MmtCore.Ims
