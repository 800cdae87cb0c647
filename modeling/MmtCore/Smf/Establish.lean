import MmtCore.Pcf.SmPolicy
import MmtCore.Smf.IpAlloc
import MmtCore.Smf.Manager

/-!
# PDU sessions of the SMF

`session.go` and `establish.go`: the store of PDU sessions, and how a session is established,
deactivated, activated and released over the address allocator, the SM policy associations, the
5GSM state machines and the manager of the UPF sessions.  What the databases, the registry and the
UPFs answer during a call comes with the call.
-/

namespace MmtCore.Smf

open MmtCore.Lib MmtCore.Upf MmtCore.Pfcp Function

/-! ## Sessions -/

/-- `State` of a PDU session. -/
inductive SessState
  | inactive
  | pending
  | active
  | suspended
  | releasing
  | released
deriving DecidableEq

structure PduSession where
  dnn : Dnn
  sst : UInt8
  /-- What `sdToUint32` makes of the SD. -/
  sd : UInt32
  pduType : UInt8
  ipv4 : Option Addr
  ipv6 : Option Addr
  ambrDL : UInt32
  ambrUL : UInt32
  upfID : UpfID
  /-- What `ipv4StringToU32` makes of the N3 address. -/
  upfN3IP : UInt32
  upfTEID : UInt32
  state : SessState
  /-- `SmPolicyCtxRef` is not empty. -/
  smPolicyCtxRef : Bool
deriving DecidableEq

/-- `State` of a 5GSM state machine. -/
inductive GsmState
  | inactive
  | establishmentPending
  | activationPending
  | active
  | modificationPending
  | releasePending
  | released
deriving DecidableEq

inductive GsmEvent
  | establishmentRequest
  | pfcpEstablishResponse
  | resourceSetupResponse
  | resourceSetupFailure
  | releaseRequest
  | releaseComplete
deriving DecidableEq

/-- The transitions on these events. -/
def GsmState.next : GsmState → GsmEvent → Option GsmState
  | .inactive, .establishmentRequest => some .establishmentPending
  | .establishmentPending, .pfcpEstablishResponse => some .activationPending
  | .activationPending, .resourceSetupResponse => some .active
  | .activationPending, .resourceSetupFailure => some .inactive
  | .active, .releaseRequest => some .releasePending
  | .releasePending, .releaseComplete => some .released
  | .establishmentPending, .releaseRequest => some .released
  | .activationPending, .releaseRequest => some .released
  | .modificationPending, .releaseRequest => some .released
  | _, _ => none

structure SmfState where
  alloc : Allocator
  pcf : Pcf.SmPolicy.PCF
  store : ImsiPduKey → Option PduSession
  fsms : ImsiPduKey → Option GsmState
  mgr : Manager

/-! ## What a call is given -/

/-- `RequestType`. -/
inductive RequestType
  | initialRequest
  | existingPDUSession
  | initialEmergencyRequest
  | existingEmergencyPDUSession
  /-- Another value, or none. -/
  | other
deriving DecidableEq

/-- `EstablishInput`; every UE has an IMSI. -/
structure EstablishInput where
  imsi : List UInt8
  pduSessionID : UInt8
  pti : UInt8
  dnn : Dnn
  sst : UInt8
  sd : UInt32
  requestedPDUType : UInt8
  requestType : RequestType
  imsi_ne : imsi ≠ []

def EstablishInput.key (inp : EstablishInput) : ImsiPduKey := ⟨inp.imsi, inp.pduSessionID⟩

/-- A row of `apn_config` with its address pools. -/
structure Apn where
  pduSessionType : List UInt8
  ambrDLKbps : Int
  ambrULKbps : Int
  v4Pools : List (Option Prefix)
  v6Pools : List (Option Prefix)

/-- What a policy decision authorizes beside its rules; zero is nothing. -/
structure AuthorizedQos where
  sessionAMBRDL : Int
  sessionAMBRUL : Int
  default5QI : Int

/-- The rates of the default service; `none` is a column that is not set. -/
structure ServiceRates where
  mbrUL : Option UInt64
  mbrDL : Option UInt64
  gbrUL : Option UInt64
  gbrDL : Option UInt64

/-- What becomes of the requests that an establishment sends. -/
structure InstallFates where
  farUL : Fate
  farDL : Fate
  pdrUL : Fate
  pdrDL : Fate
  qer : Fate
  urr : Fate
  ambr : Fate
  commit : Fate

/-- What an establishment is answered. -/
structure EstablishEnv where
  /-- `LookupAPN`. -/
  apn : Option Apn
  authorized : AuthorizedQos
  /-- `upf.Select`: the UPF, and its N3 address. -/
  selected : Option (UpfID × UInt32)
  /-- `LookupDefault5QI`. -/
  default5QI : Option UInt8
  /-- `encodeAccept` succeeds. -/
  accept : Bool
  /-- `LookupDefaultService`. -/
  service : Option ServiceRates
  /-- What the registry answers to the router. -/
  registry : UpfID
  /-- What becomes of the deletion of an earlier session. -/
  release : Fate
  install : InstallFates

inductive EstablishError
  | badPDUSessionID
  | invalidPTI
  | emptyDNN
  | pduSessionIDInUse
  | pduSessionDoesNotExist
  | apnLookup
  | ipAllocation (e : AllocError)
  | upfSelection
  | default5QI
  | encodeAccept
deriving DecidableEq

/-! ## Addresses -/

def apnToPDNType (s : List UInt8) : UInt8 :=
  if s = ascii "IPv4" then 1
  else if s = ascii "IPv6" then 2
  else if s = ascii "IPv4v6" then 3
  else if s = ascii "Ethernet" then 5
  else if s = ascii "Unstructured" then 4
  else 1

def pickPDNType (reqType : UInt8) (apn : Apn) : UInt8 :=
  let apnType := apnToPDNType apn.pduSessionType
  if reqType = 0 then apnType
  else if reqType = apnType then reqType
  else if apnType = 3 then reqType
  else apnType

/-- `allocIP`; a session without IP gets no address. -/
def allocIP (a : Allocator) (dnn : Dnn) (apn : Apn) (pdnType : UInt8) :
    Allocator × Except AllocError (Option Addr × Option Addr) :=
  if pdnType = 1 then
    let r := a.allocate dnn apn.v4Pools .ipv4
    (r.1, r.2.map fun v4 => (some v4, none))
  else if pdnType = 2 then
    let r := a.allocate dnn apn.v6Pools .ipv6
    (r.1, r.2.map fun v6 => (none, some v6))
  else if pdnType = 3 then
    let r := a.allocateDualStack dnn apn.v4Pools apn.v6Pools
    (r.1, r.2.map fun v => (some v.1, some v.2))
  else (a, .ok (none, none))

/-- An address is given back, when there is one. -/
def Allocator.giveBack (a : Allocator) (dnn : Dnn) (addr : Option Addr) : Allocator :=
  addr.elim a (a.release dnn)

def releaseOnFail (a : Allocator) (dnn : Dnn) (v4 v6 : Option Addr) : Allocator :=
  (a.giveBack dnn v4).giveBack dnn v6

def ipToUint32 : Option Addr → UInt32
  | some (.v4 bits) => UInt32.ofNat bits
  | _ => 0

/-- `String` of an address that was drawn for IPv4, which may be an IPv4-mapped one. -/
def addrString : Option Addr → List UInt8
  | none => ascii "invalid IP"
  | some a =>
    let octet (i : Nat) : List UInt8 := decimal (UInt8.ofNat (a.bits / 2 ^ (8 * i)))
    let dotted := octet 3 ++ ascii "." ++ octet 2 ++ ascii "." ++ octet 1 ++ ascii "." ++ octet 0
    if a.is4 then dotted else ascii "::ffff:" ++ dotted

/-! ## SM policy associations -/

/-- The bytes of a Go string as the text that the PCF is given. -/
def text (b : List UInt8) : String := String.ofList (b.map fun c => Char.ofNat c.toNat)

def policyKey (k : ImsiPduKey) : Pcf.SmPolicy.Key := ⟨text k.imsi, k.pduSessionID⟩

def EstablishInput.policyContext (inp : EstablishInput) : Pcf.SmPolicy.SmPolicyContextData where
  supi := "imsi-" ++ text inp.imsi
  pduSessionID := inp.pduSessionID
  dnn := text inp.dnn
  sst := inp.sst

/-! ## The rules of a session -/

def ulTEID (id : UInt8) (ipv4 : Option Addr) : UInt32 :=
  id.toUInt32 <<< 16 ||| (ipToUint32 ipv4 &&& 0xFFFF)

/-- The uplink tunnel of a session is known when its rules are installed. -/
def PduSession.withTunnel (sess : PduSession) (id : UInt8) : PduSession :=
  { sess with upfTEID := ulTEID id sess.ipv4 }

/-- What the manager is told of a session. -/
def PduSession.managed (sess : PduSession) : Session where
  dnn := sess.dnn
  sst := sess.sst
  sd := sess.sd
  ueAddr := ipToUint32 sess.ipv4
  pdnType := sess.pduType
  pdrs := []
  fars := []
  qers := []
  urrs := []

/-- The default UL FAR forwards to the core. -/
def defaultULFAR : FAR :=
  { farID := 1, action := 1, dstIface := 1, teid := 0, peerAddr := 0, peerPort := 0 }

/-- The default DL FAR buffers until the tunnel of the gNB is known. -/
def defaultDLFAR : FAR :=
  { farID := 2, action := 2, dstIface := 0, teid := 0, peerAddr := 0, peerPort := 0 }

def defaultULPDR (id : UInt8) (sess : PduSession) : PDR where
  pdrID := 1
  precedence := 255
  pdiSource := 0
  qfi := 1
  farID := 1
  qerID := 1
  urrID := 1
  sdfRules := ascii "permit out ip from " ++ addrString sess.ipv4 ++ ascii "/32 to any"
  ueIPv4 := 0
  teid := ulTEID id sess.ipv4
  n3IPv4 := sess.upfN3IP

def defaultDLPDR (sess : PduSession) : PDR where
  pdrID := 2
  precedence := 255
  pdiSource := 1
  qfi := 1
  farID := 2
  qerID := 1
  urrID := 1
  sdfRules := ascii "permit out ip from any to " ++ addrString sess.ipv4 ++ ascii "/32"
  ueIPv4 := ipToUint32 sess.ipv4
  teid := 0
  n3IPv4 := 0

def defaultQER (service : Option ServiceRates) : QER where
  qerID := 1
  qfi := 1
  gateUL := 0
  gateDL := 0
  mbrUL := (service.bind (·.mbrUL)).getD 0
  mbrDL := (service.bind (·.mbrDL)).getD 0
  gbrUL := (service.bind (·.gbrUL)).getD 0
  gbrDL := (service.bind (·.gbrDL)).getD 0

def defaultURR : URR where
  urrID := 1
  measMethod := 1
  reportTrigger := 1
  volThreshUL := 0
  volThreshDL := 0
  timeThresh := 0

def PduSession.ambr (sess : PduSession) : AMBRSpec :=
  ⟨sess.ambrUL.toUInt64, sess.ambrDL.toUInt64⟩

/-- `installUPFRules`; the errors of the manager are logged. -/
def installUPFRules (m : Manager) (k : ImsiPduKey) (sess : PduSession) (env : EstablishEnv) :
    Manager × PduSession :=
  match m.createSession k sess.managed env.registry with
  | (m, .error _) => (m, sess)
  | (m, .ok ()) =>
    let fates := env.install
    let m := (m.addFAR k fates.farUL defaultULFAR).1
    let m := (m.addFAR k fates.farDL defaultDLFAR).1
    let m := (m.addPDR k fates.pdrUL (defaultULPDR k.pduSessionID sess)).1
    let m := (m.addPDR k fates.pdrDL (defaultDLPDR sess)).1
    let m := (m.addQER k fates.qer (defaultQER env.service)).1
    let m := (m.addURR k fates.urr defaultURR).1
    let m := m.setSessionAMBR k fates.ambr sess.ambr
    ((m.commitSession k fates.commit).1, sess.withTunnel k.pduSessionID)

/-! ## Operations -/

namespace SmfState

variable (s : SmfState) (k : ImsiPduKey)

def put (sess : PduSession) : SmfState :=
  { s with store := update s.store k (some sess) }

/-- `Fire` on the machine of a session; a machine that is not there yet is inactive. -/
def fire (ev : GsmEvent) : SmfState :=
  let st := (s.fsms k).getD .inactive
  { s with fsms := update s.fsms k (some ((st.next ev).getD st)) }

def drop : SmfState := { s with fsms := update s.fsms k none }

/-- `ReleaseWithCause`; what the UPF answers is logged. -/
def release (fate : Fate) : SmfState :=
  match s.store k with
  | none => s
  | some sess =>
    let s := { s with
      alloc := releaseOnFail s.alloc sess.dnn sess.ipv4 sess.ipv6
      mgr := (s.mgr.deleteSession k fate).1
      pcf := if sess.smPolicyCtxRef then s.pcf.delete (policyKey k) else s.pcf
      store := update s.store k none }
    ((s.fire k .releaseRequest).fire k .releaseComplete).drop k

/-- The record of a new session. -/
def newSession (inp : EstablishInput) (env : EstablishEnv) (apn : Apn) (created : Bool)
    (addrs : Option Addr × Option Addr) (sel : UpfID × UInt32) : PduSession where
  dnn := inp.dnn
  sst := inp.sst
  sd := inp.sd
  pduType := pickPDNType inp.requestedPDUType apn
  ipv4 := addrs.1
  ipv6 := addrs.2
  ambrDL := UInt32.ofInt
    (if created = true ∧ 0 < env.authorized.sessionAMBRDL then env.authorized.sessionAMBRDL
      else apn.ambrDLKbps)
  ambrUL := UInt32.ofInt
    (if created = true ∧ 0 < env.authorized.sessionAMBRUL then env.authorized.sessionAMBRUL
      else apn.ambrULKbps)
  upfID := sel.1
  upfN3IP := sel.2
  upfTEID := 0
  state := .pending
  smPolicyCtxRef := created

/-- The 5QI of the default flow is known: from the decision, or from the subscription. -/
def has5QI (env : EstablishEnv) (created : Bool) : Bool :=
  (created && decide (0 < env.authorized.default5QI)) || env.default5QI.isSome

/-- A session is entered into the store and installed at its UPF. -/
def install (sess : PduSession) (env : EstablishEnv) : SmfState :=
  let s := (s.put k sess).fire k .establishmentRequest
  let (mgr, sess) := installUPFRules s.mgr k sess env
  ({ s with mgr }.put k sess).fire k .pfcpEstablishResponse

/-- `Establish`, from the lookup of the APN on. -/
def proceed (db : Pcf.SmPolicy.Provisioning) (inp : EstablishInput) (env : EstablishEnv) :
    SmfState × Except EstablishError Unit :=
  match env.apn with
  | none => (s, .error .apnLookup)
  | some apn =>
    let (pcf, decision) := s.pcf.create db inp.policyContext
    let s := { s with pcf }
    let undone := pcf.delete (policyKey inp.key)
    let created := decision.isSome
    match allocIP s.alloc inp.dnn apn (pickPDNType inp.requestedPDUType apn) with
    | (alloc, .error e) => ({ s with alloc, pcf := undone }, .error (.ipAllocation e))
    | (alloc, .ok addrs) =>
      let back := releaseOnFail alloc inp.dnn addrs.1 addrs.2
      match env.selected with
      | none => ({ s with alloc := back }, .error .upfSelection)
      | some sel =>
        if has5QI env created = false then
          ({ s with alloc := back, pcf := undone }, .error .default5QI)
        else if env.accept = false then
          ({ s with alloc := back, pcf := undone }, .error .encodeAccept)
        else
          (install { s with alloc } inp.key (newSession inp env apn created addrs sel) env, .ok ())

/-- What `Establish` refuses before it does anything; a request for a session that is there must be
an initial one, which releases that session. -/
def refusal (inp : EstablishInput) : Option EstablishError :=
  if inp.pduSessionID < 1 ∨ inp.pduSessionID > 15 then some .badPDUSessionID
  else if inp.pti = 0 ∨ inp.pti = 255 then some .invalidPTI
  else if inp.dnn = [] then some .emptyDNN
  else
    match s.store inp.key, inp.requestType with
    | some _, .initialRequest | some _, .initialEmergencyRequest => none
    | some _, _ => some .pduSessionIDInUse
    | none, .existingPDUSession | none, .existingEmergencyPDUSession =>
      some .pduSessionDoesNotExist
    | none, _ => none

/-- `Establish`. -/
def establish (db : Pcf.SmPolicy.Provisioning) (inp : EstablishInput) (env : EstablishEnv) :
    SmfState × Except EstablishError Unit :=
  match s.refusal inp with
  | some e => (s, .error e)
  | none => (s.release inp.key env.release).proceed db inp env

/-! ## What the operations change -/

variable {s : SmfState} {k k' : ImsiPduKey}

@[simp] theorem store_fire (ev : GsmEvent) : (s.fire k ev).store = s.store := rfl

@[simp] theorem mgr_fire (ev : GsmEvent) : (s.fire k ev).mgr = s.mgr := rfl

@[simp] theorem store_put (sess : PduSession) :
    (s.put k sess).store = update s.store k (some sess) := rfl

@[simp] theorem mgr_put (sess : PduSession) : (s.put k sess).mgr = s.mgr := rfl

theorem release_of_none (h : s.store k = none) (fate : Fate) : s.release k fate = s := by
  unfold release
  rw [h]

theorem store_release (s : SmfState) (k : ImsiPduKey) (fate : Fate) :
    (s.release k fate).store = update s.store k none := by
  cases h : s.store k with
  | none => rw [release_of_none h, ← h, update_eq_self]
  | some sess =>
    unfold release
    rw [h]
    rfl

theorem mgr_release {sess : PduSession} (h : s.store k = some sess) (fate : Fate) :
    (s.release k fate).mgr = (s.mgr.deleteSession k fate).1 := by
  unfold release
  rw [h]
  rfl

/-- How an establishment ends: before anything is done, after a failure on the way, or with the
session installed. -/
inductive Outcome (s : SmfState) (inp : EstablishInput) (env : EstablishEnv) :
    SmfState × Except EstablishError Unit → Prop
  | refused (e : EstablishError) (h : s.refusal inp = some e) : Outcome s inp env (s, .error e)
  | failed (e : EstablishError) (alloc : Allocator) (pcf : Pcf.SmPolicy.PCF)
      (h : s.refusal inp = none) :
    Outcome s inp env ({ s.release inp.key env.release with alloc, pcf }, .error e)
  | done (apn : Apn) (created : Bool) (alloc : Allocator) (pcf : Pcf.SmPolicy.PCF)
      (addrs : Option Addr × Option Addr) (sel : UpfID × UInt32) (hapn : env.apn = some apn)
      (haddrs : allocIP (s.release inp.key env.release).alloc inp.dnn apn
        (pickPDNType inp.requestedPDUType apn) = (alloc, .ok addrs))
      (hsel : env.selected = some sel) (h : s.refusal inp = none) :
    Outcome s inp env
      (install { s.release inp.key env.release with alloc, pcf } inp.key
        (newSession inp env apn created addrs sel) env, .ok ())

variable (db : Pcf.SmPolicy.Provisioning) {inp : EstablishInput} {env : EstablishEnv}

theorem outcome_proceed (h : s.refusal inp = none) :
    Outcome s inp env ((s.release inp.key env.release).proceed db inp env) := by
  unfold proceed
  cases hapn : env.apn with
  | none => exact .failed _ _ _ h
  | some apn =>
    dsimp only
    split
    case h_1 alloc e haddrs => exact .failed _ _ _ h
    case h_2 alloc addrs haddrs =>
      cases hsel : env.selected with
      | none => exact .failed _ _ _ h
      | some sel =>
        dsimp only
        split
        · exact .failed _ _ _ h
        · split
          · exact .failed _ _ _ h
          · exact .done apn _ alloc _ addrs sel hapn haddrs hsel h

theorem refusal_none (h : s.refusal inp = none) :
    1 ≤ inp.pduSessionID ∧ inp.pduSessionID ≤ 15 := by
  unfold refusal at h
  split at h
  case isTrue => cases h
  case isFalse hid =>
    rw [not_or, UInt8.not_lt, UInt8.not_lt] at hid
    exact hid

theorem outcome_establish : Outcome s inp env (s.establish db inp env) := by
  unfold establish
  cases h : s.refusal inp with
  | some e => exact .refused e h
  | none => exact outcome_proceed db h

end SmfState

end MmtCore.Smf
