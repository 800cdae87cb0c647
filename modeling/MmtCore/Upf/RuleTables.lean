import MmtCore.Lib.IdSlots
import MmtCore.Upf.PdrInstall

/-!
# The rule tables of a session

`upf_dp_api.c`: a session has a table of PDRs, of FARs, of QERs and of URRs.  An entry is added
where its id lies, whether it is active there or not, else in the next slot, else over the first
inactive one; a removal marks it inactive.  The update of a PDR, a QER or a URR stores it anew.
That of a FAR changes the tunnel of the entry that lies there, and so does its deactivation.
-/

namespace MmtCore.Upf

open MmtCore.Lib

/-! ## Rules -/

/-- `UPF_MAX_FAR_PER_SESSION`. -/
abbrev upfMaxFarPerSession : Nat := 16

/-- `UPF_MAX_QER_PER_SESSION`. -/
abbrev upfMaxQerPerSession : Nat := 8

/-- `UPF_MAX_URR_PER_SESSION`. -/
abbrev upfMaxUrrPerSession : Nat := 8

/-- The IPv4 fields of `upf_far_t`. -/
structure Far where
  farId : UInt32
  /-- 0 drops, 1 forwards, 2 buffers, 3 notifies the control plane. -/
  action : UInt8
  dstIface : UInt8
  ohcTeid : UInt32
  ohcPeerAddr : UInt32
  ohcPeerPort : UInt16
  ohcType : UInt8
  active : Bool
deriving DecidableEq

/-- `upf_qer_t`. -/
structure Qer where
  qerId : UInt32
  gateStatusUl : UInt8
  gateStatusDl : UInt8
  qfi : UInt8
  mbrUl : UInt64
  mbrDl : UInt64
  gbrUl : UInt64
  gbrDl : UInt64
  droppedPktsUl : UInt64
  droppedPktsDl : UInt64
  droppedBytesUl : UInt64
  droppedBytesDl : UInt64
  active : Bool
deriving DecidableEq

/-- `upf_urr_t`. -/
structure Urr where
  urrId : UInt32
  measurementMethod : UInt8
  reportingTrigger : UInt8
  volThresholdUl : UInt64
  volThresholdDl : UInt64
  timeThreshold : UInt32
  volUl : UInt64
  volDl : UInt64
  pktUl : UInt64
  pktDl : UInt64
  active : Bool
deriving DecidableEq

def Pdr.view : SlotView Pdr UInt16 := ⟨Pdr.pdrId, Pdr.active⟩
def Far.view : SlotView Far UInt32 := ⟨Far.farId, Far.active⟩
def Qer.view : SlotView Qer UInt32 := ⟨Qer.qerId, Qer.active⟩
def Urr.view : SlotView Urr UInt32 := ⟨Urr.urrId, Urr.active⟩

/-- The rules of an `upf_session_t`: the slots in use, in order. -/
structure RuleSession where
  ueAddr : UInt32
  pdrs : List Pdr
  fars : List Far
  qers : List Qer
  urrs : List Urr

/-- A session as it is created. -/
def RuleSession.start (ueAddr : UInt32) : RuleSession := ⟨ueAddr, [], [], [], []⟩

/-! ## Adding -/

/-- `find_or_alloc_far_slot`. -/
def findOrAllocFarSlot (fars : List Far) (farId : UInt32) : Option (Nat × Bool) :=
  Far.view.findOrAlloc upfMaxFarPerSession fars farId

/-- `find_or_alloc_qer_slot`. -/
def findOrAllocQerSlot (qers : List Qer) (qerId : UInt32) : Option (Nat × Bool) :=
  Qer.view.findOrAlloc upfMaxQerPerSession qers qerId

/-- `find_or_alloc_urr_slot`. -/
def findOrAllocUrrSlot (urrs : List Urr) (urrId : UInt32) : Option (Nat × Bool) :=
  Urr.view.findOrAlloc upfMaxUrrPerSession urrs urrId

/-- The arguments of `upf_dp_add_far`. -/
structure FarArgs where
  farId : UInt32
  action : UInt8
  dstIface : UInt8
  ohcTeid : UInt32
  ohcPeerAddr : UInt32
  ohcPeerPort : UInt16
  ohcType : UInt8
deriving DecidableEq

def FarArgs.far (a : FarArgs) : Far where
  farId := a.farId
  action := a.action
  dstIface := a.dstIface
  ohcTeid := a.ohcTeid
  ohcPeerAddr := a.ohcPeerAddr
  ohcPeerPort := a.ohcPeerPort
  ohcType := a.ohcType
  active := true

/-- The arguments of `upf_dp_add_qer` and `upf_dp_update_qer`; rates in kbit/s. -/
structure QerArgs where
  qerId : UInt32
  qfi : UInt8
  gateUl : UInt8
  gateDl : UInt8
  mbrUl : UInt64
  mbrDl : UInt64
  gbrUl : UInt64
  gbrDl : UInt64
deriving DecidableEq

def QerArgs.qer (a : QerArgs) : Qer where
  qerId := a.qerId
  gateStatusUl := a.gateUl
  gateStatusDl := a.gateDl
  qfi := a.qfi
  mbrUl := a.mbrUl
  mbrDl := a.mbrDl
  gbrUl := a.gbrUl
  gbrDl := a.gbrDl
  droppedPktsUl := 0
  droppedPktsDl := 0
  droppedBytesUl := 0
  droppedBytesDl := 0
  active := true

/-- The arguments of `upf_dp_add_urr` and `upf_dp_update_urr`. -/
structure UrrArgs where
  urrId : UInt32
  measMethod : UInt8
  reportingTrigger : UInt8
  volThreshUl : UInt64
  volThreshDl : UInt64
  timeThresh : UInt32
deriving DecidableEq

def UrrArgs.urr (a : UrrArgs) : Urr where
  urrId := a.urrId
  measurementMethod := a.measMethod
  reportingTrigger := a.reportingTrigger
  volThresholdUl := a.volThreshUl
  volThresholdDl := a.volThreshDl
  timeThreshold := a.timeThresh
  volUl := 0
  volDl := 0
  pktUl := 0
  pktDl := 0
  active := true

/-- `upf_dp_add_far`, on the session it finds; `none` is the return value -1. -/
def upfDpAddFar (s : RuleSession) (a : FarArgs) : Option RuleSession :=
  (findOrAllocFarSlot s.fars a.farId).map fun slot =>
    { s with fars := SlotView.store s.fars slot a.far }

/-- `upf_dp_add_qer`, without its meter. -/
def upfDpAddQer (s : RuleSession) (a : QerArgs) : Option RuleSession :=
  (findOrAllocQerSlot s.qers a.qerId).map fun slot =>
    { s with qers := SlotView.store s.qers slot a.qer }

/-- `upf_dp_add_urr`. -/
def upfDpAddUrr (s : RuleSession) (a : UrrArgs) : Option RuleSession :=
  (findOrAllocUrrSlot s.urrs a.urrId).map fun slot =>
    { s with urrs := SlotView.store s.urrs slot a.urr }

/-! ## Updating -/

/-- `upf_dp_update_qer`. -/
def upfDpUpdateQer (s : RuleSession) (a : QerArgs) : Option RuleSession :=
  if s.qers.any fun q => q.qerId == a.qerId then upfDpAddQer s a else none

/-- `upf_dp_update_urr`. -/
def upfDpUpdateUrr (s : RuleSession) (a : UrrArgs) : Option RuleSession :=
  if s.urrs.any fun u => u.urrId == a.urrId then upfDpAddUrr s a else none

/-- The outer header creation of a FAR. -/
structure Tunnel where
  ohcTeid : UInt32
  ohcPeerAddr : UInt32
  ohcPeerPort : UInt16
deriving DecidableEq

/-- What `upf_dp_update_far` makes of the FAR: one that buffers begins to forward. -/
def Far.updated (far : Far) (t : Tunnel) : Far :=
  { far with
    ohcTeid := t.ohcTeid
    ohcPeerAddr := t.ohcPeerAddr
    ohcPeerPort := t.ohcPeerPort
    action := if far.action == 2 then 1 else far.action
    ohcType := if far.action == 2 then 1 else far.ohcType }

/-- `upf_dp_update_far`, without the flush of the packets it held. -/
def upfDpUpdateFar (s : RuleSession) (farId : UInt32) (t : Tunnel) : Option RuleSession :=
  (SlotView.change (fun far => far.farId == farId) (fun far => far.updated t) s.fars).map
    fun fars => { s with fars }

/-- What `upf_dp_deactivate_dl` makes of the FAR. -/
def Far.deactivated (far : Far) : Far :=
  if far.action == 2 then far
  else { far with action := 2, ohcTeid := 0, ohcPeerAddr := 0, ohcPeerPort := 0 }

/-- `upf_dp_deactivate_dl`. -/
def upfDpDeactivateDl (s : RuleSession) (farId : UInt32) : Option RuleSession :=
  (SlotView.change (fun far => far.farId == farId) Far.deactivated s.fars).map
    fun fars => { s with fars }

/-! ## Removing -/

/-- `upf_dp_remove_pdr`. -/
def upfDpRemovePdr (s : RuleSession) (pdrId : UInt16) : Option RuleSession :=
  (SlotView.change (fun pdr => pdr.pdrId == pdrId && pdr.active)
    (fun pdr => { pdr with active := false }) s.pdrs).map fun pdrs => { s with pdrs }

/-- `upf_dp_remove_far`. -/
def upfDpRemoveFar (s : RuleSession) (farId : UInt32) : Option RuleSession :=
  (SlotView.change (fun far => far.farId == farId && far.active)
    (fun far => { far with action := 0, active := false }) s.fars).map fun fars => { s with fars }

/-- `upf_dp_remove_qer`. -/
def upfDpRemoveQer (s : RuleSession) (qerId : UInt32) : Option RuleSession :=
  (SlotView.change (fun qer => qer.qerId == qerId && qer.active)
    (fun qer => { qer with active := false }) s.qers).map fun qers => { s with qers }

/-- `upf_dp_remove_urr`. -/
def upfDpRemoveUrr (s : RuleSession) (urrId : UInt32) : Option RuleSession :=
  (SlotView.change (fun urr => urr.urrId == urrId && urr.active)
    (fun urr => { urr with active := false }) s.urrs).map fun urrs => { s with urrs }

/-! ## Lookups -/

/-- `find_far`. -/
def findFar (s : RuleSession) (farId : UInt32) : Option Far := Far.view.lookup s.fars farId

/-- `find_qer`. -/
def findQer (s : RuleSession) (qerId : UInt32) : Option Qer := Qer.view.lookup s.qers qerId

/-- `find_urr`. -/
def findUrr (s : RuleSession) (urrId : UInt32) : Option Urr := Urr.view.lookup s.urrs urrId

/-- The active PDR with this id. -/
def findPdr (s : RuleSession) (pdrId : UInt16) : Option Pdr := Pdr.view.lookup s.pdrs pdrId

/-! ## Calls -/

/-- The calls on the rules of a session. -/
inductive RuleCall
  | addPdr (a : PdrArgs)
  | updatePdr (a : PdrArgs)
  | removePdr (pdrId : UInt16)
  | addFar (a : FarArgs)
  | updateFar (farId : UInt32) (t : Tunnel)
  | deactivateDl (farId : UInt32)
  | removeFar (farId : UInt32)
  | addQer (a : QerArgs)
  | updateQer (a : QerArgs)
  | removeQer (qerId : UInt32)
  | addUrr (a : UrrArgs)
  | updateUrr (a : UrrArgs)
  | removeUrr (urrId : UInt32)

/-- What comes of a call. -/
inductive CallResult
  /-- It returns -1, with nothing changed. -/
  | rejected
  /-- It reads a buffer that no longer exists. -/
  | undefined
  /-- It returns 0. -/
  | done (s : RuleSession)

def CallResult.ofOption : Option RuleSession → CallResult
  | none => .rejected
  | some s => .done s

def CallResult.ofPdr (s : RuleSession) : PdrResult → CallResult
  | .rejected => .rejected
  | .undefined => .undefined
  | .installed t => .done { s with ueAddr := t.ueAddr, pdrs := t.pdrs }

def RuleSession.call (s : RuleSession) : RuleCall → CallResult
  | .addPdr a => .ofPdr s (upfDpAddPdr ⟨s.ueAddr, s.pdrs⟩ a)
  | .updatePdr a => .ofPdr s (upfDpUpdatePdr ⟨s.ueAddr, s.pdrs⟩ a)
  | .removePdr pdrId => .ofOption (upfDpRemovePdr s pdrId)
  | .addFar a => .ofOption (upfDpAddFar s a)
  | .updateFar farId t => .ofOption (upfDpUpdateFar s farId t)
  | .deactivateDl farId => .ofOption (upfDpDeactivateDl s farId)
  | .removeFar farId => .ofOption (upfDpRemoveFar s farId)
  | .addQer a => .ofOption (upfDpAddQer s a)
  | .updateQer a => .ofOption (upfDpUpdateQer s a)
  | .removeQer qerId => .ofOption (upfDpRemoveQer s qerId)
  | .addUrr a => .ofOption (upfDpAddUrr s a)
  | .updateUrr a => .ofOption (upfDpUpdateUrr s a)
  | .removeUrr urrId => .ofOption (upfDpRemoveUrr s urrId)

/-- The table of PDRs uses its slots like the others. -/
theorem findOrAllocPdrSlot_eq (pdrs : List Pdr) (pdrId : UInt16) :
    findOrAllocPdrSlot pdrs pdrId = Pdr.view.findOrAlloc upfMaxPdrPerSession pdrs pdrId :=
  rfl

end MmtCore.Upf
