import MmtCore.Lib.Reach
import MmtCore.N3iwf.Negotiation

/-!
# Repeated and misdirected requests

The handler keeps no Message IDs: a request that comes again is handled again, in the state of that
time.  `Acts` says which protected requests change anything.
-/

namespace MmtCore.N3iwf

open MmtCore.Lib Option Handler Or

/-- A protected request: its header, its context, and what is inside. -/
def Handler.request (crypto : Crypto) (h : Handler) (msg : Bytes) :
    Option (Header × UEContext × List Payload) :=
  match parseHeader msg with
  | none => none
  | some hdr =>
    if hdr.length.toNat ≠ msg.length then none
    else if hdr.exchangeType = exchangeIKEAuth ∨ hdr.exchangeType = exchangeCreateChildSA ∨
        hdr.exchangeType = exchangeInformational then
      (h.opened crypto hdr msg).map fun o => (hdr, o.1, o.2.2)
    else none

/-- A protected request that passes the checks of its exchange and finds what it needs. -/
inductive Acts (crypto : Crypto) (h : Handler) (d : Draws) (hdr : Header) (u : UEContext)
    (inner : List Payload) : Prop
  | identity {idi : Bytes} (hexch : hdr.exchangeType = exchangeIKEAuth) (heap : u.state ≠ .eap5G)
      (hsucc : u.state ≠ .eapSuccess) (hread : readIDi inner = .ok idi)
  | round {nas : Bytes} (hexch : hdr.exchangeType = exchangeIKEAuth) (heap : u.state = .eap5G)
      (hread : readEAP5GResponse h.bridge inner = .ok nas)
  | auth {req : ChildRequest} (hexch : hdr.exchangeType = exchangeIKEAuth)
      (hsucc : u.state = .eapSuccess) (hread : u.readIKEAuthFinal crypto inner = .ok req)
      (hspi : d.espSPI ≠ none) (hpool : h.allocateInnerIP ≠ none)
  | child {req : ChildRequest × Bytes × Option KE}
      (hexch : hdr.exchangeType = exchangeCreateChildSA) (hread : readCreateChildSA inner = .ok req)
      (hspi : d.espSPI ≠ none)
  | deletion {spi : UInt32} {c : ChildSA} (hexch : hdr.exchangeType = exchangeInformational)
      (hspi : spi ∈ deletedSPIs inner) (hc : c ∈ u.childSAs) (hcs : c.spiIn = spi)
  | teardown (hexch : hdr.exchangeType = exchangeInformational) (hike : deletesIKE inner = true)
      (hiv : d.iv ≠ none)

variable {crypto : Crypto} {h : Handler} {msg : Bytes} {src : UDPAddr} {d : Draws} {hdr : Header}
  {u : UEContext} {inner : List Payload}

/-! ## What does not act -/

theorem Protected.request {exchange : UInt8} {suiteR : CipherSuite}
    (hopen : Protected crypto h msg exchange hdr u suiteR inner)
    (hexch : exchange = exchangeIKEAuth ∨ exchange = exchangeCreateChildSA ∨
      exchange = exchangeInformational) : h.request crypto msg = some (hdr, u, inner) := by
  unfold Handler.request
  rw [← hopen.exchange] at hexch
  simp [hopen.parses, hopen.length, hexch, hopen.opens]

/-- Deletions that name no child SA of the context. -/
theorem deleteChildSAs_none (hfiled : h.mgr.byID u.ueID = some u) {spis : List UInt32}
    (hnone : ∀ spi ∈ spis, ∀ c ∈ u.childSAs, c.spiIn ≠ spi) :
    h.deleteChildSAs u.ueID spis = h := by
  unfold deleteChildSAs
  induction spis with
  | nil => rfl
  | cons spi spis ih =>
    have hone : h.deleteChildSA u.ueID spi = h := by
      simp_all [deleteChildSA_of_some]
    simp_all

/-- A datagram that is no accepted IKE_SA_INIT and no request that acts changes nothing. -/
theorem handle_unchanged (hwf : h.mgr.WF)
    (hinit : ∀ hdr chosen keIn nonceIn, ¬ InitAccepted msg hdr chosen keIn nonceIn)
    (hacts : ∀ hdr u inner, h.request crypto msg = some (hdr, u, inner) →
      ¬ Acts crypto h d hdr u inner) : (h.handle crypto msg src d).1 = h := by
  obtain ⟨ms, hd⟩ := handle_handled crypto h msg src d
  generalize (h.handle crypto msg src d).1 = h' at hd ⊢
  cases hd with
  | ignored => rfl
  | initFailed hacc hneg hr | initDone hacc hneg hu => exact absurd hacc (hinit _ _ _ _)
  | identified hopen heap hsucc hread hstate =>
    exact absurd (.identity hopen.exchange heap hsucc hread)
      (hacts _ _ _ (hopen.request (inl rfl)))
  | relayed hopen heap hread =>
    exact absurd (.round hopen.exchange heap hread) (hacts _ _ _ (hopen.request (inl rfl)))
  | authenticated hopen hsucc hread halloc hspi hsig hteid =>
    exact absurd (.auth hopen.exchange hsucc hread (by simp [hspi]) (by simp [halloc]))
      (hacts _ _ _ (hopen.request (inl rfl)))
  | childCreated hopen hread hspi hsig hteid =>
    exact absurd (.child hopen.exchange hread (by simp [hspi]))
      (hacts _ _ _ (hopen.request (inr (inl rfl))))
  | deleted hopen hkeep =>
    have hnot := hacts _ _ _ (hopen.request (inr (inr rfl)))
    exact deleteChildSAs_none (hopen.filed hwf).1
      (fun spi hspi c hc hcs => hnot (.deletion hopen.exchange hspi hc hcs))
  | tornDown hopen hike hiv =>
    exact absurd (.teardown hopen.exchange hike hiv)
      (hacts _ _ _ (hopen.request (inr (inr rfl))))

/-! ## Answers -/

section

variable (hiv : d.iv = none) (suiteR : CipherSuite)
include hiv

/-- Without an IV no request is answered. -/
theorem reply_none (exchangeType : UInt8)
    (pls : List Payload) : u.reply crypto suiteR exchangeType hdr pls d = none := by
  simp [UEContext.reply, CipherSuite.encryptedMessage, hiv]

theorem encryptedNotify_none (t : NotifyType) :
    u.encryptedNotify crypto suiteR hdr t d = none := reply_none hiv ..

theorem handleIKEAuthInitial_silent :
    (h.handleIKEAuthInitial crypto u suiteR hdr inner d).2 = none := by
  unfold handleIKEAuthInitial
  split
  · exact encryptedNotify_none hiv ..
  · dsimp only
    rw [reply_none hiv]

theorem handleEAP5GResponse_silent :
    (h.handleEAP5GResponse crypto u suiteR hdr inner d).2 = none := by
  unfold handleEAP5GResponse
  grind [encryptedNotify_none, reply_none]

theorem handleIKEAuthFinal_silent :
    (h.handleIKEAuthFinal crypto u suiteR hdr inner d).2 = none := by
  unfold handleIKEAuthFinal
  split
  · exact encryptedNotify_none hiv ..
  split
  case h_2 => rfl
  case h_1 =>
    grind [encryptedNotify_none, reply_none]

end

theorem handleCreateChildSA_silent (hiv : d.iv = none) :
    (h.handleCreateChildSA crypto hdr msg d).2 = none := by
  unfold handleCreateChildSA
  split
  · rfl
  grind [encryptedNotify_none, reply_none]

theorem handleInformational_silent (hiv : d.iv = none) :
    (h.handleInformational crypto hdr msg d).2 = none := by
  unfold handleInformational
  split
  · rfl
  · simp [reply_none hiv]

/-- Without an IV no protected request is answered. -/
theorem handle_silent (hreq : h.request crypto msg = some (hdr, u, inner)) (src : UDPAddr)
    (hiv : d.iv = none) : (h.handle crypto msg src d).2 = none := by
  unfold request at hreq
  unfold handle
  cases hparse : parseHeader msg with
  | none => rfl
  | some hdr' =>
    rw [hparse] at hreq
    dsimp only at hreq ⊢
    split at hreq
    · cases hreq
    case isFalse hlen =>
      rw [if_neg hlen]
      split at hreq
      case isFalse => cases hreq
      case isTrue hexch =>
        have hne : hdr'.exchangeType ≠ exchangeIKESAInit := by
          intro hinit
          rw [hinit] at hexch
          revert hexch
          decide
        rw [if_neg hne]
        split
        · unfold handleIKEAuth
          grind [handleEAP5GResponse_silent, handleIKEAuthFinal_silent, handleIKEAuthInitial_silent]
        grind [handleCreateChildSA_silent, handleInformational_silent]

/-! ## Every run -/

/-- The answer to a datagram. -/
def Handler.answer (crypto : Crypto) (h : Handler) : Event → Option Bytes
  | .datagram msg src d => (h.handle crypto msg src d).2
  | .amf _ _ => none
  | .registerUPSA _ _ _ _ _ => none

/-- A protected request as it arrives: where, and what was drawn for it. -/
structure Arrival (crypto : Crypto) (h : Handler) (e : Event) (d : Draws) (hdr : Header)
    (u : UEContext) (inner : List Payload) : Prop where
  request : ∃ msg src, e = .datagram msg src d ∧ h.request crypto msg = some (hdr, u, inner)

/-- Two protected requests of one IKE SA. -/
def SameSA (u u₀ : UEContext) : Prop := u.ueID = u₀.ueID ∧ u.ike = u₀.ike

/-- A message that no request of an initiator is: it has the Response flag, or lacks the Initiator
flag. -/
def Misflagged (hdr : Header) : Prop := hdr.isResponse = true ∨ hdr.isInitiator = false
  deriving Decidable

/-- What is expected of one step, after others: a misflagged message and a request with another SPIr
than that of the IKE SA change nothing; a repeated request changes nothing if it did before, and is
answered as before; and a request changes nothing once a later one has. -/
structure TakesEffectOnce (crypto : Crypto) (past : List (Handler × Event)) (h : Handler)
    (e : Event) : Prop where
  misflagged : ∀ {msg src d hdr}, e = .datagram msg src d → parseHeader msg = some hdr →
    Misflagged hdr → h.step crypto e = h
  foreign : ∀ {d hdr u inner}, Arrival crypto h e d hdr u inner →
    hdr.spir ≠ u.ike.ikeResponder → h.step crypto e = h
  once : ∀ {h₀ e₀ d d₀ hdr hdr₀ u u₀ inner inner₀}, (h₀, e₀) ∈ past →
    Arrival crypto h₀ e₀ d₀ hdr₀ u₀ inner₀ → Arrival crypto h e d hdr u inner → SameSA u u₀ →
    hdr.messageID = hdr₀.messageID →
      (h₀.step crypto e₀ ≠ h₀ → h.step crypto e = h) ∧ h.answer crypto e = h₀.answer crypto e₀
  ordered : ∀ {h₀ e₀ d d₀ hdr hdr₀ u u₀ inner inner₀}, (h₀, e₀) ∈ past →
    Arrival crypto h₀ e₀ d₀ hdr₀ u₀ inner₀ → Arrival crypto h e d hdr u inner → SameSA u u₀ →
    hdr.messageID < hdr₀.messageID → h₀.step crypto e₀ ≠ h₀ → h.step crypto e = h

/-- The condition on one step, after others: no misflagged message is an accepted IKE_SA_INIT or a
request that acts, nor does one with a foreign SPIr act; a repeated request does not act if it did
before, and is answered neither time, for want of an IV; and none acts that comes after a later one
that did. -/
structure InSequence (crypto : Crypto) (past : List (Handler × Event)) (h : Handler)
    (e : Event) : Prop where
  misflagged : ∀ {msg src d hdr}, e = .datagram msg src d → parseHeader msg = some hdr →
    Misflagged hdr → (∀ chosen keIn nonceIn, ¬ InitAccepted msg hdr chosen keIn nonceIn) ∧
      ∀ u inner, Arrival crypto h e d hdr u inner → ¬ Acts crypto h d hdr u inner
  foreign : ∀ {d hdr u inner}, Arrival crypto h e d hdr u inner →
    hdr.spir ≠ u.ike.ikeResponder → ¬ Acts crypto h d hdr u inner
  once : ∀ {h₀ e₀ d d₀ hdr hdr₀ u u₀ inner inner₀}, (h₀, e₀) ∈ past →
    Arrival crypto h₀ e₀ d₀ hdr₀ u₀ inner₀ → Arrival crypto h e d hdr u inner → SameSA u u₀ →
    hdr.messageID = hdr₀.messageID →
      (Acts crypto h₀ d₀ hdr₀ u₀ inner₀ → ¬ Acts crypto h d hdr u inner) ∧
        d₀.iv = none ∧ d.iv = none
  ordered : ∀ {h₀ e₀ d d₀ hdr hdr₀ u u₀ inner inner₀}, (h₀, e₀) ∈ past →
    Arrival crypto h₀ e₀ d₀ hdr₀ u₀ inner₀ → Arrival crypto h e d hdr u inner → SameSA u u₀ →
    hdr.messageID < hdr₀.messageID → Acts crypto h₀ d₀ hdr₀ u₀ inner₀ →
      ¬ Acts crypto h d hdr u inner

variable {e : Event} {past : List (Handler × Event)}

section

variable (ha : Arrival crypto h e d hdr u inner)
include ha

/-- A request that does not act changes nothing. -/
theorem Arrival.unchanged (hwf : h.mgr.WF)
    (hnot : ¬ Acts crypto h d hdr u inner) : h.step crypto e = h := by
  obtain ⟨msg, src, rfl, hreq⟩ := ha.request
  refine handle_unchanged hwf ?_ ?_
  · intro hdr' chosen keIn nonceIn hacc
    unfold Handler.request at hreq
    simp only [hacc.parses, hacc.length, hacc.exchange] at hreq
    revert hreq
    simp [exchangeIKESAInit, exchangeIKEAuth, exchangeCreateChildSA, exchangeInformational]
  · simp_all

theorem Arrival.acts (hwf : h.mgr.WF)
    (hchanged : h.step crypto e ≠ h) : Acts crypto h d hdr u inner :=
  by_contra fun hnot => hchanged (ha.unchanged hwf hnot)

theorem Arrival.silent (hiv : d.iv = none) : h.answer crypto e = none := by
  obtain ⟨msg, src, rfl, hreq⟩ := ha.request
  exact handle_silent hreq src hiv

end

theorem InSequence.takesEffectOnce (hpast : ∀ p ∈ past, p.1.mgr.WF) (hwf : h.mgr.WF)
    (hseq : InSequence crypto past h e) :
    TakesEffectOnce crypto past h e where
  misflagged := by
    rintro msg src d hdr rfl hparse hflags
    obtain ⟨hinit, hacts⟩ := hseq.misflagged rfl hparse hflags
    refine handle_unchanged hwf ?_ ?_
    · intro hdr' chosen keIn nonceIn hacc
      have heq := hacc.parses
      rw [hparse] at heq
      cases heq
      exact hinit _ _ _ hacc
    · intro hdr' u inner hreq
      have heq : hdr' = hdr := by
        unfold request at hreq
        rw [hparse] at hreq
        dsimp only at hreq
        split at hreq
        · cases hreq
        split at hreq
        · obtain ⟨o, -, ho⟩ := map_eq_some_iff.1 hreq
          cases ho
          rfl
        · cases hreq
      subst heq
      exact hacts u inner ⟨msg, src, rfl, hreq⟩
  foreign ha hne := ha.unchanged hwf (hseq.foreign ha hne)
  once hmem ha₀ ha hsa hid := by
    obtain ⟨hacts, hiv₀, hiv⟩ := hseq.once hmem ha₀ ha hsa hid
    refine ⟨fun hchanged => ha.unchanged hwf (hacts (ha₀.acts (hpast _ hmem) hchanged)), ?_⟩
    rw [ha.silent hiv, ha₀.silent hiv₀]
  ordered hmem ha₀ ha hsa hid hchanged :=
    ha.unchanged hwf (hseq.ordered hmem ha₀ ha hsa hid (ha₀.acts (hpast _ hmem) hchanged))

/-- In every run whose requests come in sequence each takes effect once at most, in the order of the
Message IDs. -/
theorem requests_once (crypto : Crypto) (identity : Bytes) (amf : Bool) (cidr : Option (Nat × Nat))
    {es : List Event}
    (hseq : Throughout (Handler.step crypto) (InSequence crypto) []
      (newHandler identity amf cidr) es) :
    Throughout (Handler.step crypto) (TakesEffectOnce crypto) [] (newHandler identity amf cidr)
      es :=
  hseq.mono (I := fun h => h.mgr.WF) (fun h e hwf => step_wf (h := h) crypto hwf e)
    (fun _ _ _ hpast hwf hstep => hstep.takesEffectOnce hpast hwf) (by simp) Manager.WF.new

theorem Arrival.parses (ha : Arrival crypto h e d hdr u inner) :
    ∃ msg src, e = .datagram msg src d ∧ parseHeader msg = some hdr := by
  obtain ⟨msg, src, rfl, hreq⟩ := ha.request
  refine ⟨msg, src, rfl, ?_⟩
  unfold Handler.request at hreq
  split at hreq
  · cases hreq
  case h_2 hdr' hparse =>
    simp_all

/-- A well flagged datagram, with the SPIr of its IKE SA and a Message ID above those before it
there, is in sequence. -/
theorem inSequence_of_increasing {hdr : Header} (hparse : parseHeader msg = some hdr)
    (hflags : ¬ Misflagged hdr) (hspir : ∀ u inner, h.request crypto msg = some (hdr, u, inner) →
      hdr.spir = u.ike.ikeResponder)
    (hnew : ∀ p ∈ past, ∀ d₀ hdr₀ u₀ inner₀, Arrival crypto p.1 p.2 d₀ hdr₀ u₀ inner₀ →
      hdr₀.messageID < hdr.messageID) :
    InSequence crypto past h (.datagram msg src d) := by
  have hheader : ∀ {d' hdr' u' inner'}, Arrival crypto h (.datagram msg src d) d' hdr' u' inner' →
      hdr' = hdr ∧ h.request crypto msg = some (hdr', u', inner') := by
    intro d' hdr' u' inner' ha
    obtain ⟨msg', src', heq, hparse'⟩ := ha.parses
    obtain ⟨msg'', src'', heq', hreq⟩ := ha.request
    cases heq
    cases heq'
    rw [hparse] at hparse'
    exact ⟨(some.inj hparse').symm, hreq⟩
  refine ⟨?_, fun ha hne => ?_, fun hmem ha₀ ha _ hid => ?_, fun hmem ha₀ ha _ hid => ?_⟩
  · grind
  · grind
  · obtain ⟨rfl, -⟩ := hheader ha
    have hlt := hnew _ hmem _ _ _ _ ha₀
    rw [hid] at hlt
    exact absurd hlt (UInt32.lt_irrefl _)
  · obtain ⟨rfl, -⟩ := hheader ha
    exact absurd hid (UInt32.lt_asymm (hnew _ hmem _ _ _ _ ha₀))

/-- The first two protected requests of the sample exchange. -/
theorem requests_once_sample :
    Throughout (Handler.step sampleCrypto) (TakesEffectOnce sampleCrypto) [] sampleHandler
      [sampleIKESAInit, sampleIdentity, sampleRound] := by
  -- one step, its Message ID above those of the steps before
  have hstep : ∀ {past h msg src d} (k : UInt32),
      (parseHeader msg).any (fun hdr => decide (¬ Misflagged hdr ∧ hdr.messageID = k)) = true →
      (h.request sampleCrypto msg).all
        (fun r => decide (r.1.spir = r.2.1.ike.ikeResponder)) = true →
      (∀ p ∈ past, ∃ msg₀ src₀ d₀, p.2 = .datagram msg₀ src₀ d₀ ∧
        (parseHeader msg₀).any (fun hdr => decide (hdr.messageID < k)) = true) →
      InSequence sampleCrypto past h (.datagram msg src d) := by
    intro past h msg src d k hhdr hspir hpast
    obtain ⟨hdr, hparse, hk⟩ := (any_eq_true _ _).1 hhdr
    obtain ⟨hflags, hid⟩ := of_decide_eq_true hk
    refine inSequence_of_increasing hparse hflags (fun u inner hreq => ?_)
      (fun p hp d₀ hdr₀ u₀ inner₀ ha => ?_)
    · rw [hreq] at hspir
      exact of_decide_eq_true hspir
    · obtain ⟨msg₀, src₀, d', heq, hlt⟩ := hpast p hp
      obtain ⟨msg₁, src₁, heq₁, hparse₁⟩ := ha.parses
      simp_all
  refine requests_once sampleCrypto _ _ _ ⟨?_, ?_, ?_, trivial⟩
  · exact hstep 0 (by decide +kernel) (by decide +kernel) (by simp)
  · refine hstep 1 (by decide +kernel) (by decide +kernel) ?_
    intro p hp
    rw [List.mem_singleton.1 hp]
    exact ⟨_, _, _, rfl, by decide +kernel⟩
  · refine hstep 2 (by decide +kernel) (by decide +kernel) ?_
    intro p hp
    obtain hp | hp : p = _ ∨ p = _ := by simpa using hp
    · rw [hp]
      exact ⟨_, _, _, rfl, by decide +kernel⟩
    · rw [hp]
      exact ⟨_, _, _, rfl, by decide +kernel⟩

/-- The sample exchange, and then the request for a child SA twice. -/
def sampleRepeated : List Event :=
  (sampleRegistration ++ [sampleCreateChildSA 0x2000 0x66 0xB4]) ++
    [sampleCreateChildSA 0x2001 0x77 0xB5]

/-- The number of child SAs of the first context after a run. -/
def sampleChildren (es : List Event) : Option Nat :=
  ((run (Handler.step sampleCrypto) sampleHandler es).mgr.byID 1).map (·.childSAs.length)

/-- A repeated CREATE_CHILD_SA makes another child SA. -/
theorem child_repeated :
    ¬ Throughout (Handler.step sampleCrypto) (TakesEffectOnce sampleCrypto) [] sampleHandler
      sampleRepeated := by
  intro honce
  obtain ⟨past, -, hstep, hlast⟩ := Throughout.at honce
  have hmem := hlast (sampleCreateChildSA 0x2000 0x66 0xB4) sampleRegistration rfl
  have hcount : sampleChildren sampleRegistration = some 1 ∧
      sampleChildren (sampleRegistration ++ [sampleCreateChildSA 0x2000 0x66 0xB4]) = some 2 ∧
      sampleChildren sampleRepeated = some 3 := by
    decide +kernel
  have hsame : ((run (step sampleCrypto) sampleHandler sampleRegistration).request
      sampleCrypto (sampleRequest exchangeCreateChildSA 4 sampleChild 0xA4)).any (fun r₀ =>
        ((run (step sampleCrypto) sampleHandler
          (sampleRegistration ++ [sampleCreateChildSA 0x2000 0x66 0xB4])).request sampleCrypto
            (sampleRequest exchangeCreateChildSA 4 sampleChild 0xA4)).any fun r =>
          decide (r.1.messageID = r₀.1.messageID ∧ r.2.1.ueID = r₀.2.1.ueID ∧
            r.2.1.ike = r₀.2.1.ike)) = true := by
    decide +kernel
  obtain ⟨hone, htwo, hthree⟩ := hcount
  obtain ⟨⟨hdr₀, u₀, inner₀⟩, hreq₀, hany⟩ := (any_eq_true _ _).1 hsame
  obtain ⟨⟨hdr, u, inner⟩, hreq, hid⟩ := (any_eq_true _ _).1 hany
  obtain ⟨hid, hue, hike⟩ := of_decide_eq_true hid
  obtain ⟨hunchanged, -⟩ := hstep.once hmem ⟨_, _, rfl, hreq₀⟩ ⟨_, _, rfl, hreq⟩ ⟨hue, hike⟩ hid
  have hchanged : (run (step sampleCrypto) sampleHandler sampleRegistration).step
      sampleCrypto (sampleCreateChildSA 0x2000 0x66 0xB4) ≠
        run (step sampleCrypto) sampleHandler sampleRegistration := by
    intro heq
    rw [sampleChildren, run_append, run_cons, run_nil, heq] at htwo
    rw [sampleChildren, htwo] at hone
    cases hone
  grind [sampleRepeated, sampleChildren, run_append, run_cons, run_nil]

example : (parseHeader []).isNone := by decide +kernel

end MmtCore.N3iwf
