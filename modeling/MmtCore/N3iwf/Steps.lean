import MmtCore.N3iwf.Handler

/-!
# What one datagram does

`Handled` lists the changes that `Handle` can make, with the checks each of them has passed and the
marks it leaves on the IKE SAs.  The invariants are proved from this list, and no later proof takes
a handler apart.
-/

namespace MmtCore.N3iwf

open Option Bool Handler

open MmtCore.Pfcp (beNat beBytes)

/-- An IKE_SA_INIT request that passes the checks of `handleIKESAInit`. -/
structure InitAccepted (msg : Bytes) (hdr : Header) (chosen : Proposal) (keIn : KE)
    (nonceIn : Bytes) : Prop where
  parses : parseHeader msg = some hdr
  length : hdr.length.toNat = msg.length
  exchange : hdr.exchangeType = exchangeIKESAInit
  reads : readIKESAInit hdr msg = .accepted chosen keIn nonceIn

/-- A protected request: the header, the context whose keys it was protected with, and what is
inside. -/
structure Protected (crypto : Crypto) (h : Handler) (msg : Bytes) (exchange : UInt8)
    (hdr : Header) (u : UEContext) (suiteR : CipherSuite) (inner : List Payload) : Prop where
  parses : parseHeader msg = some hdr
  length : hdr.length.toNat = msg.length
  exchange : hdr.exchangeType = exchange
  opens : h.opened crypto hdr msg = some (u, suiteR, inner)

/-- A context with a new child SA. -/
def UEContext.withChild (u : UEContext) (child : ChildSA) (innerIP : Option Nat)
    (state : UEState) : UEContext :=
  { u with innerIP := innerIP, childSAs := u.childSAs ++ [child], state := state }

/-- The deletions of an INFORMATIONAL request. -/
def Handler.deleteChildSAs (h : Handler) (ueID : Nat) (spis : List UInt32) : Handler :=
  spis.foldl (fun h spi => h.deleteChildSA ueID spi) h

/-! ## Marks -/

/-- Something that takes effect in an IKE SA.  A first IKE_AUTH whose answer fails leaves the state
as it was (`unanswered`). -/
inductive Mark
  | init | unanswered | identified | round
  | amf (knh : Option Bytes)
  | success
  | authenticated (knh : Bytes) (spi : UInt32)
  | child (spi : UInt32)
  | deletion
deriving DecidableEq

/-- The Knh in an AMF message. -/
def AmfMsg.knh : AmfMsg → Option Bytes
  | .downlinkNAS _ _ _ => none
  | .initialContextSetup _ _ knh _ => some knh

/-- The UE that an AMF message is for, with its mark. -/
def Link.mark (l : Link) (m : AmfMsg) : Option (Nat × Mark) :=
  if !m.valid then none
  else (l.ueByRANID m.ranUEID).map fun ueID => (ueID, .amf m.knh)

/-- The marks of an EAP-5G round that leaves the handler `h'`: AMF messages come in if the NAS PDU
went out, and success is read off the state it leaves. -/
def Handler.roundMarks (h : Handler) (u : UEContext) (nas : Bytes) (d : Draws) (h' : Handler) :
    List (Nat × Mark) :=
  match h.bridge with
  | none => []
  | some link =>
    let forwarded := link.forwardNAS u nas d.n2Up
    (u.ueID, .round) ::
      (if !forwarded.2.2 then []
      else
        d.arrivals.filterMap forwarded.1.mark ++
          (if (h'.mgr.byID u.ueID).any (·.state == .eapSuccess) then [(u.ueID, .success)] else []))

/-- A deletion is marked if it finds a child SA. -/
def UEContext.deletionMarks (u : UEContext) (spis : List UInt32) : List (Nat × Mark) :=
  if spis.any fun spi => u.childSAs.any (·.spiIn == spi) then [(u.ueID, .deletion)] else []

/-! ## Changes -/

variable (crypto : Crypto)

/-- The changes of one datagram, from `h` to the handler in the next to last place, with the marks
in the last. -/
inductive Handled (h : Handler) (msg : Bytes) (src : UDPAddr) (d : Draws) :
    Handler → List (Nat × Mark) → Prop
  | ignored : Handled h msg src d h []
  | initFailed {hdr chosen keIn nonceIn ike r}
      (hacc : InitAccepted msg hdr chosen keIn nonceIn)
      (hneg : (h.mgr.findOrCreate src).2.ike.negotiate crypto hdr msg chosen keIn nonceIn d
        = (ike, r))
      (hr : ∀ spir pub nr, r ≠ .done spir pub nr) :
      Handled h msg src d
        { h with
          mgr := (h.mgr.findOrCreate src).1.put { (h.mgr.findOrCreate src).2 with ike := ike } }
        [((h.mgr.findOrCreate src).2.ueID, .init)]
  | initDone {hdr chosen keIn nonceIn ike spir pub nr u}
      (hacc : InitAccepted msg hdr chosen keIn nonceIn)
      (hneg : (h.mgr.findOrCreate src).2.ike.negotiate crypto hdr msg chosen keIn nonceIn d
        = (ike, .done spir pub nr))
      (hu : u =
        { (h.mgr.findOrCreate src).2 with
          ike :=
            { ike with
              ikeInitResponse := initResponse hdr chosen keIn.dhGroup spir pub nr }
          state := .ikeInit }) :
      Handled h msg src d { h with mgr := ((h.mgr.findOrCreate src).1.registerSPIi u).put u }
        [((h.mgr.findOrCreate src).2.ueID, .init)]
  | identified {hdr u suiteR inner idi state}
      (hopen : Protected crypto h msg exchangeIKEAuth hdr u suiteR inner)
      (heap : u.state ≠ .eap5G) (hsucc : u.state ≠ .eapSuccess)
      (hread : readIDi inner = .ok idi)
      (hstate : state = .eap5G ∨ state = u.state) :
      Handled h msg src d
        (h.put { u with idiBody := idi, eapID := u.eapID + 1, state := state })
        [(u.ueID, if state = .eap5G then .identified else .unanswered)]
  | relayed {hdr u suiteR inner nas}
      (hopen : Protected crypto h msg exchangeIKEAuth hdr u suiteR inner)
      (heap : u.state = .eap5G)
      (hread : readEAP5GResponse h.bridge inner = .ok nas) :
      Handled h msg src d (h.handleEAP5GResponse crypto u suiteR hdr inner d).1
        (h.roundMarks u nas d (h.handleEAP5GResponse crypto u suiteR hdr inner d).1)
  | authenticated {hdr u suiteR inner req child innerIP h₁}
      (hopen : Protected crypto h msg exchangeIKEAuth hdr u suiteR inner)
      (hsucc : u.state = .eapSuccess)
      (hread : u.readIKEAuthFinal crypto inner = .ok req)
      (halloc : h.allocateInnerIP = some (innerIP, h₁))
      (hspi : d.espSPI = some child.spiIn) (hsig : child.signalling = true)
      (hteid : child.teidDown = 0) :
      Handled h msg src d (h₁.put (u.withChild child (innerIP.or u.innerIP) .registered))
        [(u.ueID, .authenticated u.knh child.spiIn)]
  | childCreated {hdr u suiteR inner req child}
      (hopen : Protected crypto h msg exchangeCreateChildSA hdr u suiteR inner)
      (hread : readCreateChildSA inner = .ok req)
      (hspi : d.espSPI = some child.spiIn) (hsig : child.signalling = u.childSAs.isEmpty)
      (hteid : child.teidDown = if u.childSAs.isEmpty then 0 else h.mgr.nextTEID) :
      Handled h msg src d
        { h with
          mgr := (if u.childSAs.isEmpty then h.mgr else h.mgr.allocateTEID.1).put
            (u.withChild child u.innerIP
              (if u.state = .registered then .pduActive else u.state)) }
        [(u.ueID, .child child.spiIn)]
  | deleted {hdr u suiteR inner}
      (hopen : Protected crypto h msg exchangeInformational hdr u suiteR inner)
      (hkeep : deletesIKE inner = false ∨ d.iv = none) :
      Handled h msg src d (h.deleteChildSAs u.ueID (deletedSPIs inner))
        (u.deletionMarks (deletedSPIs inner))
  | tornDown {hdr u suiteR inner}
      (hopen : Protected crypto h msg exchangeInformational hdr u suiteR inner)
      (hike : deletesIKE inner = true) (hiv : d.iv ≠ none) :
      Handled h msg src d ((h.deleteChildSAs u.ueID (deletedSPIs inner)).tearDownUE u.ueID)
        [(u.ueID, .deletion)]

variable {crypto : Crypto} {h : Handler} {hdr : Header} {msg : Bytes} {src : UDPAddr} {d : Draws}
  {u : UEContext} {suiteR : CipherSuite} {inner : List Payload}

theorem handleIKESAInit_handled (hparse : parseHeader msg = some hdr)
    (hlen : hdr.length.toNat = msg.length) (hexch : hdr.exchangeType = exchangeIKESAInit) :
    ∃ ms, Handled crypto h msg src d (h.handleIKESAInit crypto hdr msg src d).1 ms := by
  unfold handleIKESAInit
  cases hread : readIKESAInit hdr msg with
  | malformed | rejected t => exact ⟨_, .ignored⟩
  | accepted chosen keIn nonceIn =>
    have hacc : InitAccepted msg hdr chosen keIn nonceIn := ⟨hparse, hlen, hexch, hread⟩
    dsimp only
    split
    case h_1 ike hneg => exact ⟨_, .initFailed hacc hneg (fun _ _ _ => by simp)⟩
    case h_2 ike t hneg => exact ⟨_, .initFailed hacc hneg (fun _ _ _ => by simp)⟩
    case h_3 ike spir pub nr hneg => exact ⟨_, .initDone hacc hneg rfl⟩

section

variable (hopen : Protected crypto h msg exchangeIKEAuth hdr u suiteR inner)
include hopen

theorem handleIKEAuthInitial_handled (heap : u.state ≠ .eap5G) (hsucc : u.state ≠ .eapSuccess) :
    ∃ ms, Handled crypto h msg src d (h.handleIKEAuthInitial crypto u suiteR hdr inner d).1 ms := by
  unfold handleIKEAuthInitial
  cases hread : readIDi inner with
  | error t => exact ⟨_, .ignored⟩
  | ok idi =>
    dsimp only
    split
    · exact ⟨_, .identified hopen heap hsucc hread (Or.inr rfl)⟩
    · exact ⟨_, .identified hopen heap hsucc hread (Or.inl rfl)⟩

theorem handleEAP5GResponse_handled (heap : u.state = .eap5G) :
    ∃ ms, Handled crypto h msg src d (h.handleEAP5GResponse crypto u suiteR hdr inner d).1 ms := by
  cases hread : readEAP5GResponse h.bridge inner with
  | error t =>
    have hsame : (h.handleEAP5GResponse crypto u suiteR hdr inner d).1 = h := by
      simp [handleEAP5GResponse, hread]
    rw [hsame]
    exact ⟨_, .ignored⟩
  | ok nas => exact ⟨_, .relayed hopen heap hread⟩

theorem handleIKEAuthFinal_handled (hsucc : u.state = .eapSuccess) :
    ∃ ms, Handled crypto h msg src d (h.handleIKEAuthFinal crypto u suiteR hdr inner d).1 ms := by
  unfold handleIKEAuthFinal
  cases hread : u.readIKEAuthFinal crypto inner with
  | error t => exact ⟨_, .ignored⟩
  | ok req =>
    dsimp only
    split
    case h_2 => exact ⟨_, .ignored⟩
    case h_1 prf keys _ _ =>
      split
      · exact ⟨_, .ignored⟩
      split
      case h_2 => exact ⟨_, .ignored⟩
      case h_1 childKeys ourSPI _ hspi =>
        cases halloc : h.allocateInnerIP with
        | none => exact ⟨_, .ignored⟩
        | some r =>
          dsimp only
          split <;> exact ⟨_, .authenticated hopen hsucc hread halloc hspi rfl rfl⟩

end

section

variable (hparse : parseHeader msg = some hdr) (hlen : hdr.length.toNat = msg.length)
include hlen hparse

theorem handleCreateChildSA_handled (hexch : hdr.exchangeType = exchangeCreateChildSA) :
    ∃ ms, Handled crypto h msg src d (h.handleCreateChildSA crypto hdr msg d).1 ms := by
  unfold handleCreateChildSA
  cases hopen : h.opened crypto hdr msg with
  | none => exact ⟨_, .ignored⟩
  | some o =>
    obtain ⟨u, suiteR, inner⟩ := o
    have hprot : Protected crypto h msg exchangeCreateChildSA hdr u suiteR inner :=
      ⟨hparse, hlen, hexch, hopen⟩
    dsimp only
    cases hread : readCreateChildSA inner with
    | error t => exact ⟨_, .ignored⟩
    | ok r =>
      dsimp only
      split
      case h_2 => exact ⟨_, .ignored⟩
      case h_1 gIRNew ourKE ourSPI nr prf keys _ hspi _ _ _ =>
        split
        · exact ⟨_, .ignored⟩
        split
        · exact ⟨_, .ignored⟩
        · exact ⟨_, .childCreated hprot hread hspi rfl rfl⟩

theorem handleInformational_handled (hexch : hdr.exchangeType = exchangeInformational) :
    ∃ ms, Handled crypto h msg src d (h.handleInformational crypto hdr msg d).1 ms := by
  unfold handleInformational
  cases hopen : h.opened crypto hdr msg with
  | none => exact ⟨_, .ignored⟩
  | some o =>
    obtain ⟨u, suiteR, inner⟩ := o
    have hprot : Protected crypto h msg exchangeInformational hdr u suiteR inner :=
      ⟨hparse, hlen, hexch, hopen⟩
    have hreply : ∀ pl, (u.reply crypto suiteR exchangeInformational hdr [pl] d).isSome
        = d.iv.isSome := by
      intro pl
      simp [UEContext.reply, CipherSuite.encryptedMessage]
    dsimp only
    split
    case isTrue hike =>
      simp only [and_eq_true, hreply] at hike
      exact ⟨_, .tornDown hprot hike.2 (isSome_iff_ne_none.1 hike.1)⟩
    case isFalse hike =>
      simp only [and_eq_true, hreply, not_and_or, not_eq_true,
        isSome_eq_false_iff, isNone_iff_eq_none] at hike
      exact ⟨_, .deleted hprot hike.symm⟩

end

/-- Every datagram makes one of the changes listed. -/
theorem handle_handled (crypto : Crypto) (h : Handler) (msg : Bytes) (src : UDPAddr) (d : Draws) :
    ∃ ms, Handled crypto h msg src d (h.handle crypto msg src d).1 ms := by
  unfold handle
  cases hparse : parseHeader msg with
  | none => exact ⟨_, .ignored⟩
  | some hdr =>
    dsimp only
    split
    · exact ⟨_, .ignored⟩
    case isFalse hlen =>
      have hlen := not_not.1 hlen
      split
      case isTrue hexch => exact handleIKESAInit_handled hparse hlen hexch
      split
      case isTrue hexch =>
        unfold handleIKEAuth
        cases hopen : h.opened crypto hdr msg with
        | none => exact ⟨_, .ignored⟩
        | some o =>
          obtain ⟨u, suiteR, inner⟩ := o
          have hprot : Protected crypto h msg exchangeIKEAuth hdr u suiteR inner :=
            ⟨hparse, hlen, hexch, hopen⟩
          dsimp only
          split
          case isTrue heap => exact handleEAP5GResponse_handled hprot heap
          split
          case isTrue hsucc => exact handleIKEAuthFinal_handled hprot hsucc
          case isFalse heap hsucc => exact handleIKEAuthInitial_handled hprot heap hsucc
      split
      case isTrue hexch => exact handleCreateChildSA_handled hparse hlen hexch
      split
      case isTrue hexch => exact handleInformational_handled hparse hlen hexch
      · exact ⟨_, .ignored⟩

end MmtCore.N3iwf
