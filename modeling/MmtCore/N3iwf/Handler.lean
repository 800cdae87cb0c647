import MmtCore.N3iwf.Context
import MmtCore.N3iwf.Eap5g

/-!
# The IKE handler of the N3IWF

The `handler` package: one function for each exchange, `Handle` over them, and `RegisterUPSA`.
Every function takes the handler with all it works on and gives it back with the bytes to send, if
any; an error is logged by the transport, which then sends nothing.

The part of an exchange that reads the request and decides whether to carry it out is a function of
its own (`read…`), ahead of the part that changes something.
-/

namespace MmtCore.N3iwf

open MmtCore.Pfcp (beNat beBytes)

structure Handler where
  mgr : Manager
  identity : Bytes
  bridge : Option Link
  registry : Option Registry
  innerIPPool : Option Pool

/-- What the handler draws at random while it answers a datagram (`none`: the source of randomness
fails), whether N2 takes what it sends, and what the AMF sends while it waits for an answer. -/
structure Draws where
  spir : Option UInt64
  dhPriv : Option Nat
  nonce : Option Bytes
  espSPI : Option UInt32
  iv : Option Bytes
  n2Up : Bool
  arrivals : List AmfMsg
deriving DecidableEq

variable (crypto : Crypto)

/-! ## IKE_SA_INIT -/

/-- `notifyResponse`. -/
def notifyResponse (hdr : Header) (t : NotifyType) : Bytes :=
  let pls := [Payload.of payloadNotify t.marshal]
  let body := marshalPayloads pls
  marshalHeader
    { spii := hdr.spii, spir := 0, nextPayload := firstType pls, version := 0
      exchangeType := exchangeIKESAInit, flags := flagResponse, messageID := hdr.messageID
      length := UInt32.ofNat (headerLen + body.length) } ++ body

inductive InitRead
  | malformed
  | rejected (t : NotifyType)
  | accepted (chosen : Proposal) (keIn : KE) (nonceIn : Bytes)
deriving DecidableEq

/-- The checks of `handleIKESAInit`. -/
def readIKESAInit (hdr : Header) (msg : Bytes) : InitRead :=
  match parsePayloads (msg.drop headerLen) hdr.nextPayload with
  | none => .malformed
  | some payloads =>
    match findPayload payloads payloadSA, findPayload payloads payloadKE,
        findPayload payloads payloadNonce with
    | some sa, some ke, some nonce =>
      match parseSA sa, parseKE ke, parseNonce nonce with
      | some saIn, some keIn, some nonceIn =>
        match pickAcceptableProposal saIn with
        | none => .rejected .noProposalChosen
        | some chosen =>
          if keIn.dhGroup ≠ getTransformID chosen transformDH then .rejected .invalidKEPayload
          else .accepted chosen keIn nonceIn
      | _, _, _ => .malformed
    | _, _, _ => .malformed

inductive Negotiated
  | failed
  | rejected (t : NotifyType)
  | done (spir : UInt64) (pub nr : Bytes)
deriving DecidableEq

/-- The writes of `handleIKESAInit` to the context up to the cipher suites.  Each error returns
with what was written before it. -/
def IKESA.negotiate (ike : IKESA) (hdr : Header) (msg : Bytes) (chosen : Proposal) (keIn : KE)
    (nonceIn : Bytes) (d : Draws) : IKESA × Negotiated :=
  let ike := { ike with ikeInitiator := hdr.spii, ikeInitRequest := msg }
  match d.spir with
  | none => (ike, .failed)
  | some spir =>
    let ike :=
      { ike with
        ikeResponder := spir
        ikeNonceI := nonceIn
        encrID := getTransformID chosen transformENCR
        prfID := getTransformID chosen transformPRF
        integID := getTransformID chosen transformINTEG
        encrKeyLen := encrKeyLenForProposal chosen }
    match newDH keIn.dhGroup with
    | none => (ike, .rejected .invalidKEPayload)
    | some dh =>
      match d.dhPriv.map dh.generateLocal with
      | none => (ike, .failed)
      | some (priv, pub) =>
        match dh.sharedSecret priv keIn.pub with
        | none => (ike, .failed)
        | some gIR =>
          let ike := { ike with dh := some dh, dhPriv := priv, dhPub := pub, sharedKey := gIR }
          match d.nonce with
          | none => (ike, .failed)
          | some nr =>
            let ike := { ike with ikeNonceR := nr }
            match (newPRF ike.prfID).bind fun prf =>
                prf.deriveIKESAKeys crypto ike.ikeNonceI ike.ikeNonceR ike.sharedKey
                  ike.ikeInitiator ike.ikeResponder (integKeyLen ike.integID) ike.encrKeyLen with
            | none => (ike, .failed)
            | some keys =>
              let ike := { ike with keys := some keys }
              if ike.integID ≠ integHMACSHA256_128 then (ike, .failed)
              else
                match newCipherSuite keys.skEi keys.skAi with
                | none => ({ ike with suiteI := none }, .failed)
                | some suiteI =>
                  match newCipherSuite keys.skEr keys.skAr with
                  | none => ({ ike with suiteI := some suiteI, suiteR := none }, .failed)
                  | some suiteR =>
                    ({ ike with suiteI := some suiteI, suiteR := some suiteR }, .done spir pub nr)

/-- The response of `handleIKESAInit`. -/
def initResponse (hdr : Header) (chosen : Proposal) (dhGroup : UInt16) (spir : UInt64)
    (pub nr : Bytes) : Bytes :=
  let respPayloads :=
    [Payload.of payloadSA chosen.marshal,
     Payload.of payloadKE (KE.marshal { dhGroup := dhGroup, pub := pub }),
     Payload.of payloadNonce nr]
  let body := marshalPayloads respPayloads
  marshalHeader
    { spii := hdr.spii, spir := spir, nextPayload := firstType respPayloads, version := 0
      exchangeType := exchangeIKESAInit, flags := flagResponse, messageID := hdr.messageID
      length := UInt32.ofNat (headerLen + body.length) } ++ body

/-- `handleIKESAInit`. -/
def Handler.handleIKESAInit (h : Handler) (hdr : Header) (msg : Bytes) (src : UDPAddr)
    (d : Draws) : Handler × Option Bytes :=
  match readIKESAInit hdr msg with
  | .malformed => (h, none)
  | .rejected t => (h, some (notifyResponse hdr t))
  | .accepted chosen keIn nonceIn =>
    let mgr := (h.mgr.findOrCreate src).1
    let u := (h.mgr.findOrCreate src).2
    match u.ike.negotiate crypto hdr msg chosen keIn nonceIn d with
    | (ike, .failed) => ({ h with mgr := mgr.put { u with ike := ike } }, none)
    | (ike, .rejected t) =>
      ({ h with mgr := mgr.put { u with ike := ike } }, some (notifyResponse hdr t))
    | (ike, .done spir pub nr) =>
      let out := initResponse hdr chosen keIn.dhGroup spir pub nr
      let u := { u with ike := { ike with ikeInitResponse := out }, state := .ikeInit }
      ({ h with mgr := (mgr.registerSPIi u).put u }, some out)

/-! ## Protected requests -/

/-- How the handlers of protected requests begin: the context of the SPIi, its suite for the
answer, and the inner payloads of a message that passes the integrity check. -/
def Handler.opened (h : Handler) (hdr : Header) (msg : Bytes) :
    Option (UEContext × CipherSuite × List Payload) :=
  match h.mgr.lookupBySPIi hdr.spii with
  | none => none
  | some u =>
    match u.ike.suiteI, u.ike.suiteR with
    | some suiteI, some suiteR =>
      (suiteI.decryptMessage crypto msg).map fun inner => (u, suiteR, inner)
    | _, _ => none

/-- The answer to a protected request. -/
def UEContext.reply (u : UEContext) (suiteR : CipherSuite) (exchangeType : UInt8) (hdr : Header)
    (inner : List Payload) (d : Draws) : Option Bytes :=
  suiteR.encryptedMessage crypto
    { spii := u.ike.ikeInitiator, spir := u.ike.ikeResponder, nextPayload := 0, version := 0
      exchangeType := exchangeType, flags := flagResponse, messageID := hdr.messageID
      length := 0 } inner d.iv

/-- `encryptedNotify`; the exchange type is that of IKE_AUTH for every exchange. -/
def UEContext.encryptedNotify (u : UEContext) (suiteR : CipherSuite) (hdr : Header)
    (t : NotifyType) (d : Draws) : Option Bytes :=
  u.reply crypto suiteR exchangeIKEAuth hdr [Payload.of payloadNotify t.marshal] d

/-- A write through the pointer to a context. -/
def Handler.put (h : Handler) (u : UEContext) : Handler :=
  { h with mgr := h.mgr.put u }

/-! ## IKE_AUTH -/

/-- The checks on the first IKE_AUTH: the body of the IDi payload. -/
def readIDi (inner : List Payload) : Except NotifyType Bytes :=
  match findPayload inner payloadIDi with
  | none => .error .authenticationFailed
  | some idi =>
    if (findPayload inner payloadAUTH).isSome then .error .authenticationFailed
    else
      match parseID idi with
      | none => .error .invalidSyntax
      | some _ => .ok idi

/-- `handleIKEAuth` from the check of the state on: the first IKE_AUTH. -/
def Handler.handleIKEAuthInitial (h : Handler) (u : UEContext) (suiteR : CipherSuite)
    (hdr : Header) (inner : List Payload) (d : Draws) : Handler × Option Bytes :=
  match readIDi inner with
  | .error t => (h, u.encryptedNotify crypto suiteR hdr t d)
  | .ok idi =>
    let u := { u with idiBody := idi, eapID := u.eapID + 1 }
    let innerResp :=
      [Payload.of payloadIDr (TypedBody.marshal { type := idTypeFQDN, data := h.identity }),
       Payload.of payloadEAP (buildEAP5GStart u.eapID)]
    match u.reply crypto suiteR exchangeIKEAuth hdr innerResp d with
    | none => (h.put u, none)
    | some out => (h.put { u with state := .eap5G }, some out)

/-- The checks of `handleEAP5GResponse`: the NAS PDU. -/
def readEAP5GResponse (bridge : Option Link) (inner : List Payload) : Except NotifyType Bytes :=
  if bridge.isNone then .error .authenticationFailed
  else
    match findPayload inner payloadEAP with
    | none => .error .invalidSyntax
    | some eap =>
      match parseEAP5G eap with
      | none => .error .invalidSyntax
      | some parsed =>
        if parsed.messageID ≠ msgIDNAS then .error .authenticationFailed
        else if parsed.nasPDU.isEmpty then .error .invalidSyntax
        else .ok parsed.nasPDU

/-- The NAS PDU goes to the AMF, under a new RAN id the first time; whether the send went
through comes last.  The channel is empty after it. -/
def Link.forwardNAS (l : Link) (u : UEContext) (nas : Bytes) (up : Bool) :
    Link × UEContext × Bool :=
  match u.ranUeNgapID with
  | none =>
    let ranID := l.allocateRANUEID.2
    let l := l.allocateRANUEID.1.registerUE ranID u.ueID
    let sent := l.send (.initialUEMessage ranID nas u.addr) up
    (sent.1, { u with ranUeNgapID := some ranID, waitDLNAS := none }, sent.2)
  | some ranID =>
    let sent := l.send (.uplinkNASTransport (u.amfUeNgapID.getD 0) ranID nas u.addr) up
    (sent.1, { u with waitDLNAS := none }, sent.2)

/-- The callbacks of a context: `onDL` and `onICS`.  The channel holds one NAS PDU. -/
def UEContext.receive (u : UEContext) : AmfMsg → UEContext
  | .downlinkNAS amfUEID _ nas =>
    { u with amfUeNgapID := some amfUEID, waitDLNAS := u.waitDLNAS.or (some nas) }
  | .initialContextSetup amfUEID _ knh nas =>
    { u with
      amfUeNgapID := some amfUEID
      knh := knh
      waitDLNAS := if nas.isEmpty then u.waitDLNAS else u.waitDLNAS.or (some nas) }

/-- The decoders of the two messages accept it: a NAS PDU; an AMF id and a key of 32 octets. -/
def AmfMsg.valid : AmfMsg → Bool
  | .downlinkNAS _ _ nas => !nas.isEmpty
  | .initialContextSetup amfUEID _ knh _ => amfUEID != 0 && knh.length == 32

def AmfMsg.ranUEID : AmfMsg → UInt32
  | .downlinkNAS _ ranUEID _ => ranUEID
  | .initialContextSetup _ ranUEID _ _ => ranUEID

/-- What the callbacks send to the AMF. -/
def Link.acknowledge (l : Link) (m : AmfMsg) (up : Bool) : Link :=
  match m with
  | .downlinkNAS _ _ _ => l
  | .initialContextSetup amfUEID ranUEID _ _ =>
    (l.send (.initialContextSetupResponse amfUEID ranUEID) up).1

/-- The receive loop of N2 for one message.  The callbacks of a context that was removed still run,
on a context that nothing reaches. -/
def Handler.deliver (h : Handler) (up : Bool) (m : AmfMsg) : Handler :=
  match h.bridge with
  | none => h
  | some link =>
    if !m.valid then h
    else
      match link.ueByRANID m.ranUEID with
      | none => h
      | some ueID =>
        let h := { h with bridge := some (link.acknowledge m up) }
        match h.mgr.byID ueID with
        | none => h
        | some u => h.put (u.receive m)

/-- `handleEAP5GResponse`.  While it waits, the AMF messages in `d.arrivals` come in. -/
def Handler.handleEAP5GResponse (h : Handler) (u : UEContext) (suiteR : CipherSuite)
    (hdr : Header) (inner : List Payload) (d : Draws) : Handler × Option Bytes :=
  match readEAP5GResponse h.bridge inner, h.bridge with
  | .error t, _ => (h, u.encryptedNotify crypto suiteR hdr t d)
  | .ok _, none => (h, none)
  | .ok nas, some link =>
    let forwarded := link.forwardNAS u nas d.n2Up
    let h := { h with bridge := some forwarded.1 }.put forwarded.2.1
    if !forwarded.2.2 then (h, u.encryptedNotify crypto suiteR hdr .authenticationFailed d)
    else
      let h := d.arrivals.foldl (fun h m => h.deliver d.n2Up m) h
      match h.mgr.byID u.ueID with
      | none => (h, none)
      | some u =>
        match u.waitDLNAS with
        | none => (h, u.encryptedNotify crypto suiteR hdr .authenticationFailed d)
        | some amfNAS =>
          let u := { u with waitDLNAS := none, eapID := u.eapID + 1 }
          if !u.knh.isEmpty && u.state != .eapSuccess then
            let u := { u with pendingDLNAS := amfNAS, state := .eapSuccess }
            (h.put u, u.reply crypto suiteR exchangeIKEAuth hdr
              [Payload.of payloadEAP (buildEAPSuccess u.eapID)] d)
          else
            (h.put u, u.reply crypto suiteR exchangeIKEAuth hdr
              [Payload.of payloadEAP (build5GNASRequest u.eapID amfNAS)] d)

def authKeyPad : Bytes := "Key Pad for IKEv2".toList.map fun c => UInt8.ofNat c.toNat

/-- `verifyInitiatorAUTH`. -/
def UEContext.verifyInitiatorAUTH (u : UEContext) (authData : Bytes) : Bool :=
  if u.knh.isEmpty || u.ike.ikeInitRequest.isEmpty || u.idiBody.isEmpty then false
  else
    match parseAuth authData, newPRF u.ike.prfID, u.ike.keys with
    | some auth, some prf, some keys =>
      if auth.type ≠ authSharedKeyMIC then false
      else
        let macedIDForI := prf.prf crypto keys.skPi u.idiBody
        let signed := u.ike.ikeInitRequest ++ u.ike.ikeNonceR ++ macedIDForI
        let padKey := prf.prf crypto u.knh authKeyPad
        prf.prf crypto padKey signed == auth.data
    | _, _, _ => false

/-- `computeResponderAUTH`. -/
def UEContext.computeResponderAUTH (u : UEContext) (prf : PRF) (keys : IKESAKeys) (idr : Bytes) :
    Option Bytes :=
  if u.knh.isEmpty || u.ike.ikeInitResponse.isEmpty then none
  else
    let macedIDForR := prf.prf crypto keys.skPr idr
    let signed := u.ike.ikeInitResponse ++ u.ike.ikeNonceI ++ macedIDForR
    let padKey := prf.prf crypto u.knh authKeyPad
    some (prf.prf crypto padKey signed)

/-- What a request for a child SA asks for: the proposal chosen and the traffic selectors. -/
structure ChildRequest where
  chosenIn : Proposal
  tsi : Bytes
  tsr : Bytes
deriving DecidableEq

/-- The checks on a proposal for a child SA. -/
def readESPProposal (saIn : List Proposal) : Except NotifyType Proposal :=
  match pickAcceptableESPProposal saIn with
  | none => .error .noProposalChosen
  | some chosenIn => if chosenIn.spi.length ≠ 4 then .error .invalidSyntax else .ok chosenIn

/-- The checks of `handleIKEAuthFinal`. -/
def UEContext.readIKEAuthFinal (u : UEContext) (inner : List Payload) :
    Except NotifyType ChildRequest :=
  match findPayload inner payloadAUTH, findPayload inner payloadSA, findPayload inner payloadTSi,
      findPayload inner payloadTSr with
  | some auth, some sa, some tsi, some tsr =>
    if !u.verifyInitiatorAUTH crypto auth then .error .authenticationFailed
    else
      match parseSA sa with
      | none => .error .invalidSyntax
      | some saIn =>
        match readESPProposal saIn with
        | .error t => .error t
        | .ok chosenIn => .ok { chosenIn := chosenIn, tsi := tsi, tsr := tsr }
  | _, _, _, _ => .error .invalidSyntax

/-- The chosen proposal with the SPI of this side. -/
def Proposal.withSPI (p : Proposal) (spi : UInt32) : Proposal :=
  { p with spi := beBytes 4 spi.toNat }

/-- The inner address for the UE, if there is a pool; `none` is an error. -/
def Handler.allocateInnerIP (h : Handler) : Option (Option Nat × Handler) :=
  match h.innerIPPool with
  | none => some (none, h)
  | some pool =>
    pool.allocate.map fun r => (some r.1, { h with innerIPPool := some r.2 })

/-- `handleIKEAuthFinal`. -/
def Handler.handleIKEAuthFinal (h : Handler) (u : UEContext) (suiteR : CipherSuite)
    (hdr : Header) (inner : List Payload) (d : Draws) : Handler × Option Bytes :=
  match u.readIKEAuthFinal crypto inner with
  | .error t => (h, u.encryptedNotify crypto suiteR hdr t d)
  | .ok req =>
    match newPRF u.ike.prfID, u.ike.keys with
    | some prf, some keys =>
      let integLen := integKeyLen (getTransformID req.chosenIn transformINTEG)
      if integLen = 0 then (h, u.encryptedNotify crypto suiteR hdr .noProposalChosen d)
      else
        match prf.deriveChildSAKeys crypto keys.skD u.ike.ikeNonceI u.ike.ikeNonceR []
            u.ike.encrKeyLen integLen, d.espSPI with
        | some childKeys, some ourSPI =>
          match h.allocateInnerIP with
          | none => (h, u.encryptedNotify crypto suiteR hdr .internalAddressFailure d)
          | some (innerIP, h) =>
            let signalling : ChildSA :=
              { spiIn := ourSPI
                spiOut := UInt32.ofNat (beNat req.chosenIn.spi)
                encrKeyIn := childKeys.skEi
                integKeyIn := childKeys.skAi
                encrKeyOut := childKeys.skEr
                integKeyOut := childKeys.skAr
                tsiBytes := req.tsi
                tsrBytes := req.tsr
                nonceI := u.ike.ikeNonceI
                nonceR := u.ike.ikeNonceR
                signalling := true
                teidDown := 0 }
            let u :=
              { u with
                innerIP := innerIP.or u.innerIP
                childSAs := u.childSAs ++ [signalling]
                state := .registered }
            let idr := TypedBody.marshal { type := idTypeFQDN, data := h.identity }
            match u.computeResponderAUTH crypto prf keys idr with
            | none => (h.put u, none)
            | some auth =>
              let cp := innerIP.toList.map fun ip =>
                Payload.of payloadCP (marshalCFGReply (UInt32.ofNat ip))
              let respPayloads :=
                [Payload.of payloadIDr idr,
                 Payload.of payloadAUTH
                   (TypedBody.marshal { type := authSharedKeyMIC, data := auth })] ++ cp ++
                [Payload.of payloadSA (req.chosenIn.withSPI ourSPI).marshal,
                 Payload.of payloadTSi req.tsi,
                 Payload.of payloadTSr req.tsr]
              (h.put u, u.reply crypto suiteR exchangeIKEAuth hdr respPayloads d)
        | _, _ => (h, none)
    | _, _ => (h, none)

/-- `handleIKEAuth`. -/
def Handler.handleIKEAuth (h : Handler) (hdr : Header) (msg : Bytes) (d : Draws) :
    Handler × Option Bytes :=
  match h.opened crypto hdr msg with
  | none => (h, none)
  | some (u, suiteR, inner) =>
    if u.state = .eap5G then h.handleEAP5GResponse crypto u suiteR hdr inner d
    else if u.state = .eapSuccess then h.handleIKEAuthFinal crypto u suiteR hdr inner d
    else h.handleIKEAuthInitial crypto u suiteR hdr inner d

/-! ## CREATE_CHILD_SA -/

/-- The checks of `handleCreateChildSA`: the request, the nonce, and the KE payload if any. -/
def readCreateChildSA (inner : List Payload) :
    Except NotifyType (ChildRequest × Bytes × Option KE) :=
  match findPayload inner payloadSA, findPayload inner payloadNonce, findPayload inner payloadTSi,
      findPayload inner payloadTSr with
  | some sa, some nonce, some tsi, some tsr =>
    match parseSA sa, parseNonce nonce with
    | some saIn, some nonceI =>
      match readESPProposal saIn with
      | .error t => .error t
      | .ok chosenIn =>
        let req := { chosenIn := chosenIn, tsi := tsi, tsr := tsr }
        match findPayload inner payloadKE with
        | none => .ok (req, nonceI, none)
        | some ke =>
          match parseKE ke with
          | none => .error .invalidSyntax
          | some keIn =>
            if getTransformID chosenIn transformDH ≠ keIn.dhGroup then .error .invalidKEPayload
            else if (newDH keIn.dhGroup).isNone then .error .invalidKEPayload
            else .ok (req, nonceI, some keIn)
    | _, _ => .error .invalidSyntax
  | _, _, _, _ => .error .invalidSyntax

/-- The new Diffie-Hellman exchange of CREATE_CHILD_SA: the shared secret, and the KE payload that
answers; `none` is an error. -/
def childDH (ke : Option KE) (d : Draws) : Option (Bytes × List Payload) :=
  match ke with
  | none => some ([], [])
  | some keIn =>
    match newDH keIn.dhGroup, d.dhPriv with
    | some dh, some priv =>
      (dh.sharedSecret (dh.generateLocal priv).1 keIn.pub).map fun shared =>
        (shared, [Payload.of payloadKE
          (KE.marshal { dhGroup := keIn.dhGroup, pub := (dh.generateLocal priv).2 })])
    | _, _ => none

/-- `handleCreateChildSA`. -/
def Handler.handleCreateChildSA (h : Handler) (hdr : Header) (msg : Bytes) (d : Draws) :
    Handler × Option Bytes :=
  match h.opened crypto hdr msg with
  | none => (h, none)
  | some (u, suiteR, inner) =>
    match readCreateChildSA inner with
    | .error t => (h, u.encryptedNotify crypto suiteR hdr t d)
    | .ok (req, nonceI, ke) =>
      match childDH ke d, d.espSPI, d.nonce, newPRF u.ike.prfID, u.ike.keys with
      | some (gIRNew, ourKE), some ourSPI, some nr, some prf, some keys =>
        let encrKeyLen :=
          if encrKeyLenForProposal req.chosenIn = 0 then u.ike.encrKeyLen
          else encrKeyLenForProposal req.chosenIn
        let integLen := integKeyLen (getTransformID req.chosenIn transformINTEG)
        if integLen = 0 then (h, u.encryptedNotify crypto suiteR hdr .noProposalChosen d)
        else
          match prf.deriveChildSAKeys crypto keys.skD nonceI nr gIRNew encrKeyLen integLen with
          | none => (h, none)
          | some childKeys =>
            let signalling := u.childSAs.isEmpty
            let mgr := if signalling then h.mgr else h.mgr.allocateTEID.1
            let child : ChildSA :=
              { spiIn := ourSPI
                spiOut := UInt32.ofNat (beNat req.chosenIn.spi)
                encrKeyIn := childKeys.skEi
                integKeyIn := childKeys.skAi
                encrKeyOut := childKeys.skEr
                integKeyOut := childKeys.skAr
                tsiBytes := req.tsi
                tsrBytes := req.tsr
                nonceI := nonceI
                nonceR := nr
                signalling := signalling
                teidDown := if signalling then 0 else h.mgr.allocateTEID.2 }
            let u :=
              { u with
                childSAs := u.childSAs ++ [child]
                state := if u.state = .registered then .pduActive else u.state }
            let respPayloads :=
              [Payload.of payloadSA (req.chosenIn.withSPI ourSPI).marshal,
               Payload.of payloadNonce nr] ++ ourKE ++
              [Payload.of payloadTSi req.tsi, Payload.of payloadTSr req.tsr]
            ({ h with mgr := mgr.put u },
              u.reply crypto suiteR exchangeCreateChildSA hdr respPayloads d)
      | _, _, _, _, _ => (h, none)

/-! ## INFORMATIONAL -/

/-- The Delete payloads of a request; those that do not parse are skipped. -/
def deletes (inner : List Payload) : List Delete :=
  (inner.filter (·.type == payloadDelete)).filterMap fun p => parseDelete p.data

/-- The request deletes the IKE SA. -/
def deletesIKE (inner : List Payload) : Bool :=
  (deletes inner).any (·.protocolID == protocolIKE)

/-- The ESP SPIs that a request deletes. -/
def deletedSPIs (inner : List Payload) : List UInt32 :=
  (((deletes inner).filter (·.protocolID == protocolESP)).flatMap (·.spis)).filterMap fun raw =>
    if raw.length ≠ 4 then none else some (UInt32.ofNat (beNat raw))

/-- `deleteChildSAs` for one SPI. -/
def Handler.deleteChildSA (h : Handler) (ueID : Nat) (spi : UInt32) : Handler :=
  match h.mgr.byID ueID with
  | none => h
  | some u =>
    if u.childSAs.any (·.spiIn == spi) then
      let h := { h with registry := h.registry.map (Registry.removeBySPI · spi) }
      h.put { u with childSAs := u.childSAs.filter (·.spiIn != spi) }
    else h

/-- `tearDownUE`. -/
def Handler.tearDownUE (h : Handler) (ueID : Nat) : Handler :=
  match h.mgr.byID ueID with
  | none => h
  | some u =>
    { h with
      mgr := h.mgr.remove ueID
      registry := h.registry.map (Registry.removeAll · u.childSAs)
      innerIPPool := h.innerIPPool.map fun p =>
        match u.innerIP with
        | none => p
        | some ip => p.release ip }

/-- `handleInformational`. -/
def Handler.handleInformational (h : Handler) (hdr : Header) (msg : Bytes) (d : Draws) :
    Handler × Option Bytes :=
  match h.opened crypto hdr msg with
  | none => (h, none)
  | some (u, suiteR, inner) =>
    let h := (deletedSPIs inner).foldl (fun h spi => h.deleteChildSA u.ueID spi) h
    let out := u.reply crypto suiteR exchangeInformational hdr
      [Payload.of payloadNotify (NotifyType.unspecified).marshal] d
    if out.isSome && deletesIKE inner then (h.tearDownUE u.ueID, out) else (h, out)

/-! ## The handler -/

/-- `Handle`. -/
def Handler.handle (h : Handler) (msg : Bytes) (src : UDPAddr) (d : Draws) :
    Handler × Option Bytes :=
  match parseHeader msg with
  | none => (h, none)
  | some hdr =>
    if hdr.length.toNat ≠ msg.length then (h, none)
    else if hdr.exchangeType = exchangeIKESAInit then h.handleIKESAInit crypto hdr msg src d
    else if hdr.exchangeType = exchangeIKEAuth then h.handleIKEAuth crypto hdr msg d
    else if hdr.exchangeType = exchangeCreateChildSA then h.handleCreateChildSA crypto hdr msg d
    else if hdr.exchangeType = exchangeInformational then h.handleInformational crypto hdr msg d
    else (h, none)

/-- `RegisterUPSA`; `none` is an error. -/
def Handler.registerUPSA (h : Handler) (ueID childIdx : Nat) (teidUp : UInt32)
    (ueAddr upfAddr : UDPAddr) : Option Handler :=
  match h.registry, h.mgr.byID ueID with
  | some registry, some u =>
    match u.childSAs[childIdx]? with
    | none => none
    | some csa =>
      if csa.signalling then none
      else if csa.teidDown = 0 then none
      -- `NewBridge` takes ESP keys of 32 octets only
      else if csa.encrKeyIn.length ≠ 32 ∨ csa.integKeyIn.length ≠ 32 ∨
          csa.encrKeyOut.length ≠ 32 ∨ csa.integKeyOut.length ≠ 32 then none
      else
        (registry.add
          { spiIn := csa.spiIn, spiOut := csa.spiOut, teidUp := teidUp, teidDown := csa.teidDown
            ueAddr := ueAddr, upfAddr := upfAddr }).map fun r => { h with registry := some r }
  | _, _ => none

/-- What happens to the N3IWF: a datagram, a message from the AMF outside of a wait, and the binding
of a child SA to a tunnel. -/
inductive Event
  | datagram (msg : Bytes) (src : UDPAddr) (d : Draws)
  | amf (m : AmfMsg) (n2Up : Bool)
  | registerUPSA (ueID childIdx : Nat) (teidUp : UInt32) (ueAddr upfAddr : UDPAddr)
deriving DecidableEq

def Handler.step (h : Handler) : Event → Handler
  | .datagram msg src d => (h.handle crypto msg src d).1
  | .amf m up => h.deliver up m
  | .registerUPSA ueID childIdx teidUp ueAddr upfAddr =>
    (h.registerUPSA ueID childIdx teidUp ueAddr upfAddr).getD h

end MmtCore.N3iwf
