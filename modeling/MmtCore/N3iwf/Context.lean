import Mathlib.Logic.Function.Basic
import MmtCore.N3iwf.Crypto

/-!
# What the N3IWF keeps

The contexts of the UEs with their three indexes (`ctx`), the pool of inner addresses (`ipool`), the
index of user-plane bridges (`userplane`) and the link to the AMF (`n2`).

A context is reached through a pointer in the code.  Here it is a value in the manager's table, and
`Manager.put` is a write through the pointer.
-/

namespace MmtCore.N3iwf

open Function Option

/-! ## UE contexts -/

/-- `net.UDPAddr`; the address in its 16-byte form. -/
structure UDPAddr where
  ip : Bytes
  port : UInt16
deriving DecidableEq

inductive UEState
  | init | ikeInit | eap5G | eapSuccess | registered | pduActive | released
deriving DecidableEq

structure ChildSA where
  spiIn : UInt32
  spiOut : UInt32
  encrKeyIn : Bytes
  integKeyIn : Bytes
  encrKeyOut : Bytes
  integKeyOut : Bytes
  tsiBytes : Bytes
  tsrBytes : Bytes
  nonceI : Bytes
  nonceR : Bytes
  signalling : Bool
  teidDown : UInt32
deriving DecidableEq

/-- The fields of a context that IKE_SA_INIT fills in.  The two Message ID fields beside them,
`NextRecvMsgID` and `NextSendMsgID`, are left out: no code reads or writes them. -/
structure IKESA where
  ikeInitiator : UInt64
  ikeResponder : UInt64
  ikeNonceI : Bytes
  ikeNonceR : Bytes
  dh : Option DH
  dhPriv : Bytes
  dhPub : Bytes
  sharedKey : Bytes
  keys : Option IKESAKeys
  prfID : UInt16
  integID : UInt16
  encrID : UInt16
  encrKeyLen : Nat
  suiteI : Option CipherSuite
  suiteR : Option CipherSuite
  ikeInitRequest : Bytes
  ikeInitResponse : Bytes
deriving DecidableEq

def newIKESA : IKESA where
  ikeInitiator := 0
  ikeResponder := 0
  ikeNonceI := []
  ikeNonceR := []
  dh := none
  dhPriv := []
  dhPub := []
  sharedKey := []
  keys := none
  prfID := 0
  integID := 0
  encrID := 0
  encrKeyLen := 0
  suiteI := none
  suiteR := none
  ikeInitRequest := []
  ikeInitResponse := []

/-- `UEContext`.  `waitDLNAS` is what the channel of one place holds; an address is a number. -/
structure UEContext where
  ueID : Nat
  addr : UDPAddr
  state : UEState
  ike : IKESA
  eapID : UInt8
  amfUeNgapID : Option UInt64
  ranUeNgapID : Option UInt32
  knh : Bytes
  pendingDLNAS : Bytes
  idiBody : Bytes
  childSAs : List ChildSA
  waitDLNAS : Option Bytes
  innerIP : Option Nat
deriving DecidableEq

/-- A context as `Create` builds it. -/
def newUEContext (ueID : Nat) (addr : UDPAddr) : UEContext where
  ueID := ueID
  addr := addr
  state := .init
  ike := newIKESA
  eapID := 0
  amfUeNgapID := none
  ranUeNgapID := none
  knh := []
  pendingDLNAS := []
  idiBody := []
  childSAs := []
  waitDLNAS := none
  innerIP := none

/-- The states after a completed IKE_AUTH. -/
def UEContext.Established (u : UEContext) : Prop :=
  u.state = .registered ∨ u.state = .pduActive
  deriving Decidable

/-! ## The manager -/

structure Manager where
  byID : Nat → Option UEContext
  byAddr : UDPAddr → Option Nat
  bySPIi : UInt64 → Option Nat
  nextUEID : Nat
  nextTEID : UInt32

def newManager : Manager where
  byID := fun _ => none
  byAddr := fun _ => none
  bySPIi := fun _ => none
  nextUEID := 1
  nextTEID := 1

namespace Manager

/-- A write through the pointer to a context. -/
def put (m : Manager) (u : UEContext) : Manager :=
  { m with byID := update m.byID u.ueID (some u) }

/-- `Create`, and the new context. -/
def create (m : Manager) (addr : UDPAddr) : Manager × UEContext :=
  let u := newUEContext m.nextUEID addr
  ({ m with
      byID := update m.byID m.nextUEID (some u)
      byAddr := update m.byAddr addr (some m.nextUEID)
      nextUEID := m.nextUEID + 1 }, u)

def lookupByAddr (m : Manager) (addr : UDPAddr) : Option UEContext :=
  (m.byAddr addr).bind m.byID

def lookupBySPIi (m : Manager) (spii : UInt64) : Option UEContext :=
  (m.bySPIi spii).bind m.byID

/-- `RegisterSPIi`. -/
def registerSPIi (m : Manager) (u : UEContext) : Manager :=
  { m with bySPIi := update m.bySPIi u.ike.ikeInitiator (some u.ueID) }

/-- `AllocateTEID`; the counter skips zero when it wraps. -/
def allocateTEID (m : Manager) : Manager × UInt32 :=
  let next := m.nextTEID + 1
  ({ m with nextTEID := if next = 0 then 1 else next }, m.nextTEID)

/-- `Remove`. -/
def remove (m : Manager) (ueID : Nat) : Manager :=
  match m.byID ueID with
  | none => m
  | some u =>
    { m with
      byID := update m.byID ueID none
      byAddr := update m.byAddr u.addr none
      bySPIi := update m.bySPIi u.ike.ikeInitiator none }

/-- The context of a source address, created where there is none. -/
def findOrCreate (m : Manager) (addr : UDPAddr) : Manager × UEContext :=
  match m.lookupByAddr addr with
  | some u => (m, u)
  | none => m.create addr

section Lemmas

variable {m : Manager} {u : UEContext} {id : Nat} {addr : UDPAddr} {spii : UInt64}

theorem put_byID : (m.put u).byID id = if id = u.ueID then some u else m.byID id := by
  simp [put, update_apply]

@[simp] theorem put_byID_self : (m.put u).byID u.ueID = some u := by simp [put]

@[simp] theorem put_byAddr : (m.put u).byAddr = m.byAddr := rfl

@[simp] theorem put_bySPIi : (m.put u).bySPIi = m.bySPIi := rfl

@[simp] theorem put_nextUEID : (m.put u).nextUEID = m.nextUEID := rfl

@[simp] theorem put_nextTEID : (m.put u).nextTEID = m.nextTEID := rfl

@[simp] theorem registerSPIi_byID : (m.registerSPIi u).byID = m.byID := rfl

@[simp] theorem registerSPIi_byAddr : (m.registerSPIi u).byAddr = m.byAddr := rfl

@[simp] theorem registerSPIi_nextUEID : (m.registerSPIi u).nextUEID = m.nextUEID := rfl

@[simp] theorem registerSPIi_nextTEID : (m.registerSPIi u).nextTEID = m.nextTEID := rfl

theorem registerSPIi_bySPIi : (m.registerSPIi u).bySPIi spii =
    if spii = u.ike.ikeInitiator then some u.ueID else m.bySPIi spii := by
  simp [registerSPIi, update_apply]

@[simp] theorem allocateTEID_byID : m.allocateTEID.1.byID = m.byID := rfl

@[simp] theorem allocateTEID_byAddr : m.allocateTEID.1.byAddr = m.byAddr := rfl

@[simp] theorem allocateTEID_bySPIi : m.allocateTEID.1.bySPIi = m.bySPIi := rfl

@[simp] theorem allocateTEID_nextUEID : m.allocateTEID.1.nextUEID = m.nextUEID := rfl

theorem lookupByAddr_eq_some : m.lookupByAddr addr = some u ↔
    ∃ id, m.byAddr addr = some id ∧ m.byID id = some u := by
  simp [lookupByAddr, bind_eq_some_iff]

theorem lookupBySPIi_eq_some : m.lookupBySPIi spii = some u ↔
    ∃ id, m.bySPIi spii = some id ∧ m.byID id = some u := by
  simp [lookupBySPIi, bind_eq_some_iff]

/-- The context comes from the table, or is new. -/
theorem findOrCreate_cases (m : Manager) (addr : UDPAddr) :
    (m.lookupByAddr addr = some (m.findOrCreate addr).2 ∧
      (m.findOrCreate addr).1 = m) ∨
    (m.lookupByAddr addr = none ∧ m.findOrCreate addr = m.create addr) := by
  grind [findOrCreate]

theorem remove_of_none (h : m.byID id = none) : m.remove id = m := by
  simp [remove, h]

theorem remove_of_some (h : m.byID id = some u) : m.remove id =
    { m with
      byID := update m.byID id none
      byAddr := update m.byAddr u.addr none
      bySPIi := update m.bySPIi u.ike.ikeInitiator none } := by
  simp [remove, h]

end Lemmas

end Manager

/-! ## The pool of inner addresses -/

/-- `Pool`; addresses are numbers. -/
structure Pool where
  gateway : Nat
  nextHint : Nat
  bcast : Nat
  used : Nat → Bool

/-- `New`, from the parsed network and prefix length. -/
def newPool (network ones : Nat) : Option Pool :=
  if 31 ≤ ones then none
  else
    some
      { gateway := network + 1
        nextHint := network + 2
        bcast := network + (2 ^ (32 - ones) - 1)
        used := fun _ => false }

namespace Pool

def first (p : Pool) : Nat := p.gateway + 1

def last (p : Pool) : Nat := p.bcast - 1

/-- The address looked at after another one. -/
def next (p : Pool) (candidate : Nat) : Nat :=
  if p.last < candidate + 1 then p.first else candidate + 1

/-- The loop of `Allocate`: the first free one of so many addresses. -/
def scan (p : Pool) : Nat → Nat → Option Nat
  | 0, _ => none
  | n + 1, candidate =>
    if p.used candidate then p.scan n (p.next candidate) else some candidate

/-- `Allocate`: the address, and the pool with it in use. -/
def allocate (p : Pool) : Option (Nat × Pool) :=
  if p.last < p.first then none
  else
    let candidate :=
      if p.nextHint < p.first ∨ p.last < p.nextHint then p.first else p.nextHint
    (p.scan (p.last - p.first + 1) candidate).map fun ip =>
      (ip, { p with nextHint := p.next ip, used := update p.used ip true })

/-- `Release`. -/
def release (p : Pool) (ip : Nat) : Pool :=
  { p with used := update p.used ip false }

theorem scan_free {p : Pool} {n candidate ip : Nat} (h : p.scan n candidate = some ip) :
    p.used ip = false := by
  induction n generalizing candidate with
  | zero => cases h
  | succ n ih =>
    grind [scan]

/-- An address allocated was free, and nothing else comes into use. -/
theorem allocate_spec {p q : Pool} {ip : Nat} (h : p.allocate = some (ip, q)) :
    p.used ip = false ∧ q.used = update p.used ip true := by
  grind [allocate, map_eq_some_iff, scan_free]

end Pool

/-! ## The user-plane registry -/

/-- `Bridge`, with the SPIs of its two ESP associations. -/
structure Bridge where
  spiIn : UInt32
  spiOut : UInt32
  teidUp : UInt32
  teidDown : UInt32
  ueAddr : UDPAddr
  upfAddr : UDPAddr
deriving DecidableEq

structure Registry where
  bySPI : UInt32 → Option Bridge
  byTEID : UInt32 → Option Bridge

def newRegistry : Registry where
  bySPI := fun _ => none
  byTEID := fun _ => none

namespace Registry

/-- `Add`; `none` is an error. -/
def add (r : Registry) (b : Bridge) : Option Registry :=
  if (r.bySPI b.spiIn).isSome then none
  else if (r.byTEID b.teidDown).isSome then none
  else some
    { bySPI := update r.bySPI b.spiIn (some b)
      byTEID := update r.byTEID b.teidDown (some b) }

/-- `Remove`. -/
def remove (r : Registry) (b : Bridge) : Registry where
  bySPI := update r.bySPI b.spiIn none
  byTEID := update r.byTEID b.teidDown none

/-- `LookupBySPI`, and the removal of what it finds. -/
def removeBySPI (r : Registry) (spi : UInt32) : Registry :=
  match r.bySPI spi with
  | none => r
  | some b => r.remove b

/-- The two indexes hold the same bridges, each under its own keys. -/
structure WF (r : Registry) : Prop where
  bySPI : ∀ {spi b}, r.bySPI spi = some b → b.spiIn = spi ∧ r.byTEID b.teidDown = some b
  byTEID : ∀ {teid b}, r.byTEID teid = some b → b.teidDown = teid ∧ r.bySPI b.spiIn = some b

variable {r r' : Registry} {b b' : Bridge} {spi : UInt32}

theorem WF.new : newRegistry.WF where
  bySPI h := by cases h
  byTEID h := by cases h

theorem add_eq_some (h : r.add b = some r') :
    r.bySPI b.spiIn = none ∧ r.byTEID b.teidDown = none ∧
      r' =
        { bySPI := update r.bySPI b.spiIn (some b)
          byTEID := update r.byTEID b.teidDown (some b) } := by
  simp_all [add]

theorem WF.add (hwf : r.WF) (h : r.add b = some r') : r'.WF := by
  obtain ⟨hspi, hteid, rfl⟩ := add_eq_some h
  constructor
  · intro spi c hc
    by_cases heq : spi = b.spiIn
    · simp_all [update_self, some.injEq]
    · simp only [update_of_ne heq] at hc
      obtain ⟨hcs, hct⟩ := hwf.bySPI hc
      grind [update_of_ne]
  · intro teid c hc
    by_cases heq : teid = b.teidDown
    · simp_all [update_self, some.injEq]
    · simp only [update_of_ne heq] at hc
      obtain ⟨hct, hcs⟩ := hwf.byTEID hc
      grind [update_of_ne]

/-- A removal takes out the bridges of that SPI and no others. -/
theorem WF.removeBySPI_bySPI (hwf : r.WF) {s : UInt32} :
    (r.removeBySPI spi).bySPI s = if s = spi then none else r.bySPI s := by
  unfold Registry.removeBySPI
  cases h : r.bySPI spi with
  | none =>
    simp_all
  | some b =>
    obtain ⟨hb, -⟩ := hwf.bySPI h
    simp only [Registry.remove, update_apply, hb]

theorem WF.removeBySPI_byTEID (hwf : r.WF) {teid : UInt32} :
    (r.removeBySPI spi).byTEID teid = some b' ↔ r.byTEID teid = some b' ∧ b'.spiIn ≠ spi := by
  unfold Registry.removeBySPI
  cases h : r.bySPI spi with
  | none =>
    constructor
    · intro hb'
      refine ⟨hb', fun hs => ?_⟩
      rw [← hs, (hwf.byTEID hb').2] at h
      cases h
    · exact fun hb' => hb'.1
  | some b =>
    obtain ⟨hbs, hbt⟩ := hwf.bySPI h
    simp only [Registry.remove, update_apply]
    split
    case isTrue hteid =>
      grind
    case isFalse hteid =>
      refine ⟨fun hb' => ⟨hb', fun hs => ?_⟩, fun hb' => hb'.1⟩
      have hspi := (hwf.byTEID hb').2
      rw [hs, h] at hspi
      cases hspi
      exact hteid (hwf.byTEID hb').1.symm

theorem WF.removeBySPI (hwf : r.WF) : (r.removeBySPI spi).WF := by
  constructor
  · intro s c hc
    rw [hwf.removeBySPI_bySPI] at hc
    split at hc
    · cases hc
    case isFalse hs =>
      obtain ⟨hcs, hct⟩ := hwf.bySPI hc
      exact ⟨hcs, hwf.removeBySPI_byTEID.2 ⟨hct, hcs ▸ hs⟩⟩
  · intro teid c hc
    obtain ⟨hct, hne⟩ := hwf.removeBySPI_byTEID.1 hc
    obtain ⟨hteid, hcs⟩ := hwf.byTEID hct
    exact ⟨hteid, by rw [hwf.removeBySPI_bySPI, if_neg hne, hcs]⟩

/-- The removals of `tearDownUE`. -/
def removeAll (r : Registry) (cs : List ChildSA) : Registry :=
  cs.foldl (fun r c => r.removeBySPI c.spiIn) r

theorem WF.removeAll (hwf : r.WF) (cs : List ChildSA) : (r.removeAll cs).WF := by
  induction cs generalizing r with
  | nil => exact hwf
  | cons c cs ih => exact ih hwf.removeBySPI

theorem WF.removeAll_bySPI (hwf : r.WF) (cs : List ChildSA) :
    (r.removeAll cs).bySPI spi = some b ↔
      r.bySPI spi = some b ∧ ∀ c ∈ cs, c.spiIn ≠ spi := by
  unfold Registry.removeAll
  induction cs generalizing r with
  | nil => simp
  | cons c cs ih =>
    rw [List.foldl_cons, ih hwf.removeBySPI, hwf.removeBySPI_bySPI]
    by_cases hs : spi = c.spiIn
    · simp [hs]
    · simp [hs, Ne.symm hs]

theorem WF.removeAll_byTEID (hwf : r.WF) (cs : List ChildSA) {teid : UInt32} :
    (r.removeAll cs).byTEID teid = some b ↔
      r.byTEID teid = some b ∧ ∀ c ∈ cs, c.spiIn ≠ b.spiIn := by
  unfold Registry.removeAll
  induction cs generalizing r with
  | nil => simp
  | cons c cs ih =>
    rw [List.foldl_cons, ih hwf.removeBySPI, hwf.removeBySPI_byTEID]
    grind

end Registry

/-! ## The link to the AMF -/

/-- What the N3IWF sends on N2. -/
inductive N2Msg
  | initialUEMessage (ranUEID : UInt32) (nas : Bytes) (ue : UDPAddr)
  | uplinkNASTransport (amfUEID : UInt64) (ranUEID : UInt32) (nas : Bytes) (ue : UDPAddr)
  | initialContextSetupResponse (amfUEID : UInt64) (ranUEID : UInt32)
deriving DecidableEq

/-- What the AMF sends to a UE. -/
inductive AmfMsg
  | downlinkNAS (amfUEID : UInt64) (ranUEID : UInt32) (nas : Bytes)
  | initialContextSetup (amfUEID : UInt64) (ranUEID : UInt32) (knh : Bytes) (nas : Bytes)
deriving DecidableEq

/-- The N2 `Manager` behind its adapter: whose callbacks a RAN id names, and what was sent. -/
structure Link where
  nextRANID : UInt32
  ueByRANID : UInt32 → Option Nat
  sent : List N2Msg

def newLink : Link where
  nextRANID := 1
  ueByRANID := fun _ => none
  sent := []

namespace Link

/-- `AllocateRANUEID`; the counter skips zero when it wraps. -/
def allocateRANUEID (l : Link) : Link × UInt32 :=
  let next := l.nextRANID + 1
  ({ l with nextRANID := if next = 0 then 1 else next }, l.nextRANID)

/-- `RegisterUE`; the callbacks are those of a context. -/
def registerUE (l : Link) (ranUEID : UInt32) (ueID : Nat) : Link :=
  if ranUEID = 0 then l
  else { l with ueByRANID := update l.ueByRANID ranUEID (some ueID) }

/-- A send, and whether it goes through. -/
def send (l : Link) (msg : N2Msg) (up : Bool) : Link × Bool :=
  (if up then { l with sent := l.sent ++ [msg] } else l, up)

end Link

end MmtCore.N3iwf
