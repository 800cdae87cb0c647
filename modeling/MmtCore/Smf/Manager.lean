import MmtCore.Smf.PfcpBridge

/-!
# The manager of the SMF's sessions

`router.go` binds each session to the bridge of one UPF.  The manager of `upf.go` and
`modify_batch.go` keeps the rules of the sessions, its mirror, and passes every change on.
-/

namespace MmtCore.Smf

open MmtCore.Lib MmtCore.Upf MmtCore.Pfcp Function

/-! ## The router -/

/-- `upfID`. -/
abbrev UpfID := List UInt8

/-- `RouterBridge`, each bridge with its UPF. -/
structure RouterBridge where
  bridges : UpfID → Option Link
  sessUPF : ImsiPduKey → Option UpfID
  fallback : UpfID

namespace RouterBridge

variable (r : RouterBridge) (k : ImsiPduKey)

def set (u : UpfID) (l : Link) : RouterBridge :=
  { r with bridges := update r.bridges u (some l) }

/-- Where `dispatch` looks for the bridge of a session. -/
def upfOf : UpfID := (r.sessUPF k).getD r.fallback

/-- A call on the bridge that `dispatch` finds. -/
def dispatch (call : Link → Link × Except BridgeError Unit) :
    RouterBridge × Except BridgeError Unit :=
  match r.bridges (r.upfOf k) with
  | none => (r, .error .noBridge)
  | some l => (r.set (r.upfOf k) (call l).1, (call l).2)

/-- `pickForCreate`: the UPF the registry selects, if there is a bridge to it. -/
def pickForCreate (selected : UpfID) : UpfID :=
  if (r.bridges selected).isSome then selected else r.fallback

/-- `SessionCreate`. -/
def sessionCreate (selected : UpfID) (dnn : List UInt8) (sst : UInt8) (sd ueAddr : UInt32)
    (pdnType : UInt8) : RouterBridge × Except BridgeError Unit :=
  let u := r.pickForCreate selected
  match r.bridges u with
  | none => (r, .error .noBridge)
  | some l =>
    ({ r.set u (l.sessionCreate k dnn sst sd ueAddr pdnType) with
        sessUPF := update r.sessUPF k (some u) }, .ok ())

/-- `SessionDelete`; the binding goes whatever the UPF answers. -/
def sessionDelete (fate : Fate) : RouterBridge × Except BridgeError Unit :=
  match r.bridges (r.upfOf k) with
  | none => (r, .error .noBridge)
  | some l =>
    ({ r.set (r.upfOf k) (l.sessionDelete k fate).1 with
        sessUPF := update r.sessUPF k none }, (l.sessionDelete k fate).2)

/-- A call for each of these FARs, in order. -/
def forEach (call : FAR → Fate → Link → Link × Except BridgeError Unit) :
    List FAR → List Fate → RouterBridge → RouterBridge
  | [], _, r => r
  | f :: fs, fates, r => forEach call fs fates.tail (r.dispatch k (call f (fates.headD .lost))).1

end RouterBridge

/-! ## The mirror -/

/-- `Session`, without the key it is stored under. -/
structure Session where
  dnn : List UInt8
  sst : UInt8
  sd : UInt32
  ueAddr : UInt32
  pdnType : UInt8
  pdrs : List PDR
  fars : List FAR
  qers : List QER
  urrs : List URR
deriving DecidableEq

/-- A FAR forwards into this tunnel. -/
def FAR.forward (teid peerAddr : UInt32) (peerPort : UInt16) (f : FAR) : FAR :=
  { f with action := 1, teid, peerAddr, peerPort }

/-- A FAR buffers, its tunnel cleared. -/
def FAR.deactivated (f : FAR) : FAR :=
  { f with action := 2, teid := 0, peerAddr := 0, peerPort := 0 }

/-- A DL FAR that has not been deactivated already. -/
def FAR.active (f : FAR) : Bool := f.dstIface == 0 && !(f.action == 2 && f.teid == 0)

def FAR.isDL (f : FAR) : Bool := f.dstIface == 0

/-- The FAR after an update of a batch, which forwards only with a peer address. -/
def UpdateFARSpec.apply (u : UpdateFARSpec) (f : FAR) : FAR :=
  { f with
    teid := u.teid, peerAddr := u.peerAddr, peerPort := u.peerPort
    action := if u.peerAddr != 0 then 1 else f.action }

/-- The first FAR of an id is changed. -/
def updateFirst (farID : UInt32) (change : FAR → FAR) (fars : List FAR) : List FAR :=
  fars.replaceF fun f => if f.farID == farID then some (change f) else none

/-- The mirror after a batch. -/
def Session.applyBatch (b : ModifyBatch) (s : Session) : Session :=
  let update (fars : List FAR) (u : UpdateFARSpec) := updateFirst u.farID u.apply fars
  { s with
    pdrs := (s.pdrs ++ b.createPDRs).filter (·.pdrID ∉ b.removePDRs)
    fars := (b.updateFARs.foldl update (s.fars ++ b.createFARs)).filter (·.farID ∉ b.removeFARs)
    qers := (s.qers ++ b.createQERs).filter (·.qerID ∉ b.removeQERs)
    urrs := (s.urrs ++ b.createURRs).filter (·.urrID ∉ b.removeURRs) }

/-! ## The manager -/

inductive ManagerError
  | sessionExists
  | noSession
  | farNotFound (farID : UInt32)
  | bridge (e : BridgeError)
deriving DecidableEq

/-- `Manager`, with the router as its bridge. -/
structure Manager where
  sessions : ImsiPduKey → Option Session
  router : RouterBridge

namespace Manager

variable (m : Manager) (k : ImsiPduKey) (fate : Fate)

def putSession (s : Session) : Manager :=
  { m with sessions := update m.sessions k (some s) }

/-- `CreateSession`; `selected` is what the registry answers to the router. -/
def createSession (s : Session) (selected : UpfID) : Manager × Except ManagerError Unit :=
  match m.sessions k with
  | some _ => (m, .error .sessionExists)
  | none =>
    ({ m.putSession k s with
        router :=
          (m.router.sessionCreate k selected s.dnn s.sst s.sd s.ueAddr s.pdnType).1 }, .ok ())

/-- `CommitSession`. -/
def commitSession : Manager × Except ManagerError Unit :=
  let (router, res) := m.router.dispatch k (·.commitSession k fate)
  ({ m with router }, res.mapError .bridge)

/-- `DeleteSession`. -/
def deleteSession : Manager × Except ManagerError Unit :=
  ({ sessions := update m.sessions k none
     router := (m.router.sessionDelete k fate).1 }, .ok ())

/-- The mirror is changed, and what the bridge answers is logged at most. -/
def edit (change : Session → Session) (call : Link → Link × Except BridgeError Unit) :
    Manager × Except ManagerError Unit :=
  match m.sessions k with
  | none => (m, .error .noSession)
  | some s =>
    ({ m.putSession k (change s) with router := (m.router.dispatch k call).1 }, .ok ())

def addPDR (p : PDR) : Manager × Except ManagerError Unit :=
  m.edit k (fun s => { s with pdrs := s.pdrs ++ [p] }) (·.addPDR k fate p)

def addFAR (f : FAR) : Manager × Except ManagerError Unit :=
  m.edit k (fun s => { s with fars := s.fars ++ [f] }) (·.addFAR k fate f)

def addQER (q : QER) : Manager × Except ManagerError Unit :=
  m.edit k (fun s => { s with qers := s.qers ++ [q] }) (·.addQER k fate q)

def addURR (u : URR) : Manager × Except ManagerError Unit :=
  m.edit k (fun s => { s with urrs := s.urrs ++ [u] }) (·.addURR k fate u)

def removeFAR (farID : UInt32) : Manager × Except ManagerError Unit :=
  m.edit k (fun s => { s with fars := s.fars.eraseP (·.farID == farID) }) (·.removeFAR farID)

def removeQER (qerID : UInt32) : Manager × Except ManagerError Unit :=
  m.edit k (fun s => { s with qers := s.qers.eraseP (·.qerID == qerID) }) (·.removeQER qerID)

def updateFAR (farID teid peerAddr : UInt32) (peerPort : UInt16) :
    Manager × Except ManagerError Unit :=
  match m.sessions k with
  | none => (m, .error .noSession)
  | some s =>
    if s.fars.any (·.farID == farID) then
      m.edit k
        (fun s => { s with fars := updateFirst farID (FAR.forward teid peerAddr peerPort) s.fars })
        (·.updateFAR k fate farID teid peerAddr)
    else (m, .error (.farNotFound farID))

/-- `DeactivateDL`, and how many FARs it deactivates. -/
def deactivateDL (fates : List Fate) : Manager × Nat :=
  match m.sessions k with
  | none => (m, 0)
  | some s =>
    let call (f : FAR) (fate : Fate) (l : Link) := l.deactivateDLFAR k fate f.farID
    let active := s.fars.filter (·.active)
    ({ m.putSession k
          { s with fars := s.fars.map fun f => if f.active then f.deactivated else f } with
        router := m.router.forEach k call active fates }, active.length)

/-- `ActivateDL`, and how many FARs it activates. -/
def activateDL (gnbTEID peerAddr : UInt32) (fates : List Fate) : Manager × Nat :=
  match m.sessions k with
  | none => (m, 0)
  | some s =>
    let call (f : FAR) (fate : Fate) (l : Link) := l.updateFAR k fate f.farID gnbTEID peerAddr
    let dl := s.fars.filter (·.isDL)
    ({ m.putSession k
          { s with
            fars := s.fars.map fun f => if f.isDL then f.forward gnbTEID peerAddr 2152 else f } with
        router := m.router.forEach k call dl fates }, dl.length)

/-- `SetSessionAMBR`, which reports nothing. -/
def setSessionAMBR (a : AMBRSpec) : Manager :=
  { m with router := (m.router.dispatch k (·.setSessionAMBR k fate a)).1 }

/-- `ApplyModifyBatch`: the mirror first, then the bridge. -/
def applyModifyBatch (b : ModifyBatch) : Manager × Except ManagerError Unit :=
  if b.isEmpty then (m, .ok ())
  else
    let (router, res) := m.router.dispatch k (·.applyModifyBatch k fate b)
    ({ sessions := update m.sessions k ((m.sessions k).map (Session.applyBatch b))
       router }, res.mapError .bridge)

end Manager

/-! ## Operations -/

/-- An operation of the manager, what the registry answers, and the fate of each request that the
operation may send. -/
inductive ManagerOp
  | createSession (s : Session) (selected : UpfID)
  | commitSession (fate : Fate)
  | deleteSession (fate : Fate)
  | addPDR (fate : Fate) (p : PDR)
  | addFAR (fate : Fate) (f : FAR)
  | addQER (fate : Fate) (q : QER)
  | addURR (fate : Fate) (u : URR)
  | removeFAR (farID : UInt32)
  | removeQER (qerID : UInt32)
  | updateFAR (fate : Fate) (farID teid peerAddr : UInt32) (peerPort : UInt16)
  | deactivateDL (fates : List Fate)
  | activateDL (gnbTEID peerAddr : UInt32) (fates : List Fate)
  | setSessionAMBR (fate : Fate) (a : AMBRSpec)
  | applyModifyBatch (fate : Fate) (b : ModifyBatch)
deriving DecidableEq

namespace Manager

/-- An operation on a session, and its result; one without a result succeeds. -/
def perform (m : Manager) (k : ImsiPduKey) : ManagerOp → Manager × Except ManagerError Unit
  | .createSession s selected => m.createSession k s selected
  | .commitSession fate => m.commitSession k fate
  | .deleteSession fate => m.deleteSession k fate
  | .addPDR fate p => m.addPDR k fate p
  | .addFAR fate f => m.addFAR k fate f
  | .addQER fate q => m.addQER k fate q
  | .addURR fate u => m.addURR k fate u
  | .removeFAR farID => m.removeFAR k farID
  | .removeQER qerID => m.removeQER k qerID
  | .updateFAR fate farID teid peerAddr peerPort =>
    m.updateFAR k fate farID teid peerAddr peerPort
  | .deactivateDL fates => ((m.deactivateDL k fates).1, .ok ())
  | .activateDL gnbTEID peerAddr fates => ((m.activateDL k gnbTEID peerAddr fates).1, .ok ())
  | .setSessionAMBR fate a => (m.setSessionAMBR k fate a, .ok ())
  | .applyModifyBatch fate b => m.applyModifyBatch k fate b

/-- A step of a run. -/
def step (m : Manager) (e : ImsiPduKey × ManagerOp) : Manager := (m.perform e.1 e.2).1

end Manager

end MmtCore.Smf
