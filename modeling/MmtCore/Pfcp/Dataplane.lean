import MmtCore.Upf.SessionPool

/-!
# The dataplane behind the PFCP handler

`ManagerHook` as `bridgeHook` and `dpdkBridge` implement it: what a session is created with is
buffered until `CommitSession`, everything else goes to the C session directly.  The C side finds a
session by the first 15 bytes of its IMSI (`makeKey`).  Whether a table has room for one more entry
depends on what it went through; it is an input of each request, `DpEnv`.
-/

namespace MmtCore.Pfcp

open MmtCore.Upf

/-! ## Rules -/

/-- The arguments of `AddPDR` that the dataplane keeps. -/
structure PdrRule where
  precedence : UInt32
  pdiSource : UInt8
  qfi : UInt8
  farID : UInt32
  qerID : UInt32
  urrID : UInt32
  sdfRules : List UInt8
deriving DecidableEq

structure FarRule where
  action : UInt8
  dstIface : UInt8
  teid : UInt32
  peerAddr : UInt32
  peerPort : UInt16
  ohcType : UInt8
deriving DecidableEq

/-- A FAR gets a tunnel; one that buffers starts to forward. -/
def FarRule.update (teid peerAddr : UInt32) (peerPort : UInt16) (far : FarRule) : FarRule :=
  let far := { far with teid, peerAddr, peerPort }
  if far.action == 2 then { far with action := 1, ohcType := 1 } else far

/-- A FAR buffers and loses its tunnel, unless it buffers already. -/
def FarRule.deactivate (far : FarRule) : FarRule :=
  if far.action == 2 then far
  else { far with action := 2, teid := 0, peerAddr := 0, peerPort := 0 }

structure QerRule where
  qfi : UInt8
  gateUL : UInt8
  gateDL : UInt8
  mbrUL : UInt64
  mbrDL : UInt64
  gbrUL : UInt64
  gbrDL : UInt64
deriving DecidableEq

structure UrrRule where
  measMethod : UInt8
  reportTrigger : UInt8
  volThreshUL : UInt64
  volThreshDL : UInt64
  timeThresh : UInt32
deriving DecidableEq

/-- A slot of one of the rule arrays of a session. -/
structure RuleSlot (ι α : Type) where
  id : ι
  active : Bool
  rule : α
deriving DecidableEq

/-- The slots in use of a rule array. -/
abbrev RuleSlots (ι α : Type) := List (RuleSlot ι α)

namespace RuleSlots

variable {ι α : Type} [DecidableEq ι]

/-- The `find_or_alloc_*_slot` of an array of this capacity, and the rule written there. -/
def add (cap : Nat) (slots : RuleSlots ι α) (id : ι) (rule : α) : Option (RuleSlots ι α) :=
  let slot : RuleSlot ι α := ⟨id, true, rule⟩
  match slots.findIdx? fun s => s.id == id with
  | some i => some (slots.set i slot)
  | none =>
    if slots.length < cap then some (slots ++ [slot])
    else (slots.findIdx? fun s => !s.active).map fun i => slots.set i slot

/-- The update of a rule that must exist. -/
def update (cap : Nat) (slots : RuleSlots ι α) (id : ι) (rule : α) : Option (RuleSlots ι α) :=
  if slots.any fun s => s.id == id then add cap slots id rule else none

/-- The removal of a rule: the first active slot of the id is flagged. -/
def remove (slots : RuleSlots ι α) (id : ι) (clear : α → α) : RuleSlots ι α :=
  match slots.findIdx? fun s => s.id == id && s.active with
  | some i => slots.modify i fun s => { s with active := false, rule := clear s.rule }
  | none => slots

/-- The first slot of an id is rewritten in place. -/
def modifyRule (slots : RuleSlots ι α) (id : ι) (f : α → α) : Option (RuleSlots ι α) :=
  (slots.findIdx? fun s => s.id == id).map fun i =>
    slots.modify i fun s => { s with rule := f s.rule }

end RuleSlots

/-- `upf_session_t`, as the handler fills it. -/
structure DpSession where
  dnn : List UInt8
  sst : UInt8
  sd : UInt32
  ueAddr : UInt32
  pdrs : RuleSlots UInt16 PdrRule
  fars : RuleSlots UInt32 FarRule
  qers : RuleSlots UInt32 QerRule
  urrs : RuleSlots UInt32 UrrRule
deriving DecidableEq

/-- `sessionKey` and `imsiPduKey`. -/
structure ImsiPduKey where
  imsi : List UInt8
  pduSessionID : UInt8
deriving DecidableEq

/-- The key the C side knows a session by. -/
def ImsiPduKey.dpKey (k : ImsiPduKey) : SessionKey := makeKey k.imsi k.pduSessionID

/-- `pendingSession`. -/
structure PendingSession where
  dnn : List UInt8
  sst : UInt8
  sd : UInt32
  ueAddr : UInt32
  pdrs : List (UInt16 × PdrRule)
  fars : List (UInt32 × FarRule)
  qers : List (UInt32 × QerRule)
  urrs : List (UInt32 × UrrRule)
  teids : List UInt32
  ueIPs : List UInt32

/-- `dpdkBridge` and the C tables. -/
structure Dataplane where
  pending : ImsiPduKey → Option PendingSession
  sessions : SessionKey → Option DpSession
  /-- The reverse maps. -/
  teids : UInt32 → Option SessionKey
  ueips : UInt32 → Option SessionKey

def Dataplane.empty : Dataplane :=
  ⟨fun _ => none, fun _ => none, fun _ => none, fun _ => none⟩

/-- What has room during a request: the session table, and the reverse maps for a key. -/
structure DpEnv where
  sessionRoom : Bool
  teidRoom : UInt32 → Bool
  ueipRoom : UInt32 → Bool

/-- There is room for everything. -/
def DpEnv.roomy : DpEnv := ⟨true, fun _ => true, fun _ => true⟩

namespace Dataplane

variable (dp : Dataplane) (env : DpEnv) (k : ImsiPduKey)

/-! ## The C entry points -/

/-- A change of the C session, `none` when there is none or the change fails. -/
def onSession (f : DpSession → Option DpSession) : Option Dataplane :=
  match dp.sessions k.dpKey with
  | none => none
  | some sess =>
    (f sess).map fun sess' =>
      { dp with sessions := Function.update dp.sessions k.dpKey (some sess') }

/-- `upf_dp_session_create`. -/
def upfDpSessionCreate (dnn : List UInt8) (sst : UInt8) (sd ueAddr : UInt32) : Option Dataplane :=
  match dp.sessions k.dpKey with
  | some _ => none
  | none =>
    if env.sessionRoom then
      let sess : DpSession := { dnn, sst, sd, ueAddr, pdrs := [], fars := [], qers := [], urrs := [] }
      some { dp with sessions := Function.update dp.sessions k.dpKey (some sess) }
    else none

/-- `upf_dp_session_delete`. -/
def upfDpSessionDelete : Dataplane :=
  { dp with sessions := Function.update dp.sessions k.dpKey none }

def upfDpAddPdr (id : UInt16) (rule : PdrRule) : Option Dataplane :=
  dp.onSession k fun sess => (sess.pdrs.add 16 id rule).map fun pdrs => { sess with pdrs }

def upfDpAddFar (id : UInt32) (rule : FarRule) : Option Dataplane :=
  dp.onSession k fun sess => (sess.fars.add 16 id rule).map fun fars => { sess with fars }

def upfDpAddQer (id : UInt32) (rule : QerRule) : Option Dataplane :=
  dp.onSession k fun sess => (sess.qers.add 8 id rule).map fun qers => { sess with qers }

def upfDpAddUrr (id : UInt32) (rule : UrrRule) : Option Dataplane :=
  dp.onSession k fun sess => (sess.urrs.add 8 id rule).map fun urrs => { sess with urrs }

def upfDpUpdatePdr (id : UInt16) (rule : PdrRule) : Option Dataplane :=
  dp.onSession k fun sess => (sess.pdrs.update 16 id rule).map fun pdrs => { sess with pdrs }

def upfDpUpdateQer (id : UInt32) (rule : QerRule) : Option Dataplane :=
  dp.onSession k fun sess => (sess.qers.update 8 id rule).map fun qers => { sess with qers }

def upfDpUpdateUrr (id : UInt32) (rule : UrrRule) : Option Dataplane :=
  dp.onSession k fun sess => (sess.urrs.update 8 id rule).map fun urrs => { sess with urrs }

/-- `upf_dp_update_far`. -/
def upfDpUpdateFar (id teid peerAddr : UInt32) (peerPort : UInt16) : Option Dataplane :=
  dp.onSession k fun sess =>
    (sess.fars.modifyRule id (FarRule.update teid peerAddr peerPort)).map
      fun fars => { sess with fars }

/-- `upf_dp_deactivate_dl`. -/
def upfDpDeactivateDl (id : UInt32) : Option Dataplane :=
  dp.onSession k fun sess =>
    (sess.fars.modifyRule id FarRule.deactivate).map fun fars => { sess with fars }

/-- `upf_dp_register_teid`: a key that is there is overwritten. -/
def upfDpRegisterTeid (teid : UInt32) : Option Dataplane :=
  if (dp.teids teid).isSome || env.teidRoom teid then
    some { dp with teids := Function.update dp.teids teid (some k.dpKey) }
  else none

def upfDpRegisterUeip (ueAddr : UInt32) : Option Dataplane :=
  if (dp.ueips ueAddr).isSome || env.ueipRoom ueAddr then
    some { dp with ueips := Function.update dp.ueips ueAddr (some k.dpKey) }
  else none

/-! ## The hook -/

/-- `SessionCreate`. -/
def createSession (dnn : List UInt8) (sst : UInt8) (sd ueAddr : UInt32) : Dataplane :=
  let sess : PendingSession :=
    { dnn, sst, sd, ueAddr, pdrs := [], fars := [], qers := [], urrs := [], teids := [], ueIPs := [] }
  { dp with pending := Function.update dp.pending k (some sess) }

/-- The buffer takes a call while the session is being established, the C side otherwise. -/
def buffered (f : PendingSession → PendingSession) (direct : Option Dataplane) :
    Option Dataplane :=
  match dp.pending k with
  | some p => some { dp with pending := Function.update dp.pending k (some (f p)) }
  | none => direct

def addPDR (id : UInt16) (rule : PdrRule) : Option Dataplane :=
  dp.buffered k (fun p => { p with pdrs := p.pdrs ++ [(id, rule)] }) (dp.upfDpAddPdr k id rule)

def addFAR (id : UInt32) (rule : FarRule) : Option Dataplane :=
  dp.buffered k (fun p => { p with fars := p.fars ++ [(id, rule)] }) (dp.upfDpAddFar k id rule)

def addQER (id : UInt32) (rule : QerRule) : Option Dataplane :=
  dp.buffered k (fun p => { p with qers := p.qers ++ [(id, rule)] }) (dp.upfDpAddQer k id rule)

def addURR (id : UInt32) (rule : UrrRule) : Option Dataplane :=
  dp.buffered k (fun p => { p with urrs := p.urrs ++ [(id, rule)] }) (dp.upfDpAddUrr k id rule)

def registerTEID (teid : UInt32) : Option Dataplane :=
  dp.buffered k (fun p => { p with teids := p.teids ++ [teid] }) (dp.upfDpRegisterTeid env k teid)

def registerUEIP (ueAddr : UInt32) : Option Dataplane :=
  dp.buffered k (fun p => { p with ueIPs := p.ueIPs ++ [ueAddr] })
    (dp.upfDpRegisterUeip env k ueAddr)

/-- The removals report no error. -/
def removePDR (id : UInt16) : Dataplane :=
  (dp.onSession k fun sess => some { sess with pdrs := sess.pdrs.remove id fun r => r }).getD dp

/-- A removed FAR drops what still refers to it. -/
def removeFAR (id : UInt32) : Dataplane :=
  (dp.onSession k fun sess =>
    some { sess with fars := sess.fars.remove id fun far => { far with action := 0 } }).getD dp

def removeQER (id : UInt32) : Dataplane :=
  (dp.onSession k fun sess => some { sess with qers := sess.qers.remove id fun r => r }).getD dp

def removeURR (id : UInt32) : Dataplane :=
  (dp.onSession k fun sess => some { sess with urrs := sess.urrs.remove id fun r => r }).getD dp

def unregisterTEID (teid : UInt32) : Dataplane :=
  { dp with teids := Function.update dp.teids teid none }

def unregisterUEIP (ueAddr : UInt32) : Dataplane :=
  { dp with ueips := Function.update dp.ueips ueAddr none }

/-- `UnregisterSessionKeys`. -/
def unregisterSessionKeys (teids ueips : List UInt32) : Dataplane :=
  ueips.foldl unregisterUEIP (teids.foldl unregisterTEID dp)

/-- The registrations of `CommitSession`; one that fails is passed over. -/
def registerAll (p : PendingSession) : Dataplane :=
  p.ueIPs.foldl (fun dp ip => (dp.upfDpRegisterUeip env k ip).getD dp)
    (p.teids.foldl (fun dp teid => (dp.upfDpRegisterTeid env k teid).getD dp) dp)

/-- The rules of `CommitSession`, in its order. -/
def installAll (p : PendingSession) : Option Dataplane := do
  let dp ← p.fars.foldlM (fun dp r => dp.upfDpAddFar k r.1 r.2) dp
  let dp ← p.urrs.foldlM (fun dp r => dp.upfDpAddUrr k r.1 r.2) dp
  let dp ← p.qers.foldlM (fun dp r => dp.upfDpAddQer k r.1 r.2) dp
  p.pdrs.foldlM (fun dp r => dp.upfDpAddPdr k r.1 r.2) dp

/-- `CommitSession`; a rule that cannot be installed takes the session away again. -/
def commitSession : Dataplane :=
  match dp.pending k with
  | none => dp
  | some p =>
    let dp := { dp with pending := Function.update dp.pending k none }
    match dp.upfDpSessionCreate env k p.dnn p.sst p.sd p.ueAddr with
    | none => dp
    | some created =>
      match created.installAll k p with
      | none => created.upfDpSessionDelete k
      | some installed => installed.registerAll env k p

/-- `SessionDelete`. -/
def deleteSession : Dataplane :=
  match dp.pending k with
  | some _ => { dp with pending := Function.update dp.pending k none }
  | none => dp.upfDpSessionDelete k

end Dataplane

end MmtCore.Pfcp
