import MmtCore.Amf.Fsm
import MmtCore.Amf.Security
import MmtCore.Lib.Reach

/-!
# The state of the AMF and its elementary updates

`AmfState` holds the context objects, the three indexes of the registry, and a log of what an outside
observer, or the authors of a property, care about.  The log is a ghost: no handler reads it,
except that the length of the log numbers the calls whose outcome the surroundings decide.

Handlers change the state through `AmfState.exec` only.  A handler's run is thus a sequence of
commands (`Cmd`), each one statement of the source or a few adjacent ones, and what holds of
every command holds of every handler.
-/

namespace MmtCore.Amf

open Function

/-! ## Observations -/

/-- Calls into the session management function. -/
inductive SmfOp
  | release (psi : Nat)
  | releaseAll
  | establish (psi : Nat)
  | modify (psi : Nat)
  | modificationComplete (psi : Nat)
  | deactivateUserPlane (psi : Nat)
deriving DecidableEq

/-- NGAP messages to a gNB, apart from those that only carry NAS. -/
inductive NgapMsg
  | ueContextReleaseCommand
  | initialContextSetupRequest (kgnb : Option Bytes)
  | pduSessionResourceSetupRequest (psi : Nat)
  | pduSessionResourceReleaseCommand (psi : Nat)
deriving DecidableEq

inductive Obs
  /-- A vector with this K_AMF became current, to be challenged under this ngKSI. -/
  | challenged (r : Ref) (kamf : Bytes) (ngksi : Nat)
  /-- An AUTHENTICATION RESPONSE matched the stored XRES*. -/
  | answered (r : Ref)
  /-- `ActivateCtx` installed this integrity key in the pending slot. -/
  | activated (r : Ref) (knasInt : Bytes)
  | promoted (r : Ref)
  /-- An uplink PDU verified under this key, with this count. -/
  | ulAccepted (r : Ref) (knasInt : Bytes) (count : Nat) (pdu : Bytes)
  /-- A downlink message was protected under this key, with this count. -/
  | dlSecured (r : Ref) (knasInt : Bytes) (count : Nat) (plain pdu : Bytes)
  | nasSent (r : Ref) (pdu : Bytes) (ok : Bool)
  | ngapSent (r : Ref) (m : NgapMsg) (ok : Bool)
  /-- Authentication is skipped for `r`, on the context cached in `src`. -/
  | contextReused (r src : Ref)
  | aborted (r : Ref)
  /-- `Fire` found no row. -/
  | noTransition (r : Ref) (st : GmmState) (ev : GmmEvent)
  | smf (imsi : Imsi) (op : SmfOp)
deriving DecidableEq

/-! ## State -/

structure AmfState where
  ue : Ref → Ue
  /-- Contexts allocated so far; the references below it are in use. -/
  nref : Nat
  byAmfID : Nat → Option Ref
  byRanKey : GnbKey × Nat → Option Nat
  byIMSI : Imsi → Option Nat
  nextAmfID : Nat
  log : List Obs

/-- The AMF as it starts, with no context. -/
def AmfState.init : AmfState where
  ue := fun _ => Ue.new 0 0 [] []
  nref := 0
  byAmfID := fun _ => none
  byRanKey := fun _ => none
  byIMSI := fun _ => none
  nextAmfID := 0
  log := []

namespace AmfState

/-- An update of one context. -/
def upd (s : AmfState) (r : Ref) (f : Ue → Ue) : AmfState :=
  { s with ue := update s.ue r (f (s.ue r)) }

def push (s : AmfState) (o : Obs) : AmfState := { s with log := o :: s.log }

section

variable (s : AmfState)

@[simp] theorem upd_ue_self (r : Ref) (f : Ue → Ue) :
    (s.upd r f).ue r = f (s.ue r) := update_self ..

theorem upd_ue_of_ne {q r : Ref} (h : q ≠ r) (f : Ue → Ue) :
    (s.upd r f).ue q = s.ue q := update_of_ne h ..

theorem upd_ue (q r : Ref) (f : Ue → Ue) :
    (s.upd r f).ue q = if q = r then f (s.ue q) else s.ue q := by
  by_cases h : q = r
  · subst h; simp
  · rw [upd_ue_of_ne s h, if_neg h]

section

variable (r : Ref) (f : Ue → Ue)

@[simp] theorem upd_nref : (s.upd r f).nref = s.nref := rfl
@[simp] theorem upd_byAmfID : (s.upd r f).byAmfID = s.byAmfID := rfl
@[simp] theorem upd_byRanKey : (s.upd r f).byRanKey = s.byRanKey := rfl
@[simp] theorem upd_byIMSI : (s.upd r f).byIMSI = s.byIMSI := rfl
@[simp] theorem upd_nextAmfID : (s.upd r f).nextAmfID = s.nextAmfID := rfl
@[simp] theorem upd_log : (s.upd r f).log = s.log := rfl

end

section

variable (o : Obs)

@[simp] theorem push_ue : (s.push o).ue = s.ue := rfl
@[simp] theorem push_nref : (s.push o).nref = s.nref := rfl
@[simp] theorem push_byAmfID : (s.push o).byAmfID = s.byAmfID := rfl
@[simp] theorem push_byRanKey : (s.push o).byRanKey = s.byRanKey := rfl
@[simp] theorem push_byIMSI : (s.push o).byIMSI = s.byIMSI := rfl
@[simp] theorem push_nextAmfID : (s.push o).nextAmfID = s.nextAmfID := rfl
@[simp] theorem push_log : (s.push o).log = o :: s.log := rfl

end

end

/-! ## Registry -/

/-- `Insert`: the context is entered under its id, and under its RAN key and SUPI if it has
them. -/
def insert (s : AmfState) (r : Ref) : AmfState :=
  let u := s.ue r
  { s with
    byAmfID := update s.byAmfID u.amfUeNgapId (some r)
    byRanKey := if u.gnbKey = [] then s.byRanKey
      else update s.byRanKey (u.gnbKey, u.ranUeNgapId) (some u.amfUeNgapId)
    byIMSI := if u.imsi = [] then s.byIMSI
      else update s.byIMSI u.imsi (some u.amfUeNgapId) }

/-- The index deletions of `Remove`: whatever is entered under the context's keys goes. -/
def unindex (s : AmfState) (r : Ref) : AmfState :=
  let u := s.ue r
  { s with
    byAmfID := update s.byAmfID u.amfUeNgapId none
    byRanKey := if u.gnbKey = [] then s.byRanKey
      else update s.byRanKey (u.gnbKey, u.ranUeNgapId) none
    byIMSI := if u.imsi = [] then s.byIMSI else update s.byIMSI u.imsi none }

def lookupByAmfID (s : AmfState) (id : Nat) : Option Ref := s.byAmfID id

def lookupByRanKey (s : AmfState) (gnbKey : GnbKey) (ran : Nat) : Option Ref :=
  (s.byRanKey (gnbKey, ran)).bind s.byAmfID

def lookupByIMSI (s : AmfState) (imsi : Imsi) : Option Ref :=
  (s.byIMSI imsi).bind s.byAmfID

/-- The context is in the registry. -/
def Live (s : AmfState) (r : Ref) : Prop :=
  r < s.nref ∧ s.byAmfID (s.ue r).amfUeNgapId = some r

instance (s : AmfState) (r : Ref) : Decidable (s.Live r) := by unfold Live; infer_instance

/-- The contexts `LookupByTMSI` may answer with. -/
def holdersOfTMSI (s : AmfState) (tmsi : Nat) : List Ref :=
  (List.range s.nref).filter fun r => decide (s.Live r) && (s.ue r).tmsi5g == tmsi

/-- `LookupByTMSI`: the scan follows Go's map order, which `pick` stands for. -/
def lookupByTMSI (s : AmfState) (pick : Nat) (tmsi : Nat) : Option Ref :=
  if tmsi = 0 then none
  else
    let found := s.holdersOfTMSI tmsi
    found[pick % found.length]?

/-- The search of `AllocateAmfID` from the last id given out, for at most `fuel` ids. -/
def nextFreeID (s : AmfState) : Nat → Nat → Option Nat
  | 0, _ => none
  | fuel + 1, last =>
    if last + 1 ≥ countMod then nextFreeID s fuel 0
    else if s.byAmfID (last + 1) = none then some (last + 1)
    else nextFreeID s fuel (last + 1)

/-- `AllocateAmfID`; one wrap and `nref` taken ids are the most the search can meet. -/
def allocateAmfID (s : AmfState) : Option Nat := s.nextFreeID (s.nref + 2) s.nextAmfID

/-- A fresh context for a new connection, not yet in the registry. -/
def create (s : AmfState) (id ran : Nat) (gnbKey : GnbKey) : AmfState :=
  { s with
    ue := update s.ue s.nref (Ue.new id ran gnbKey [])
    nref := s.nref + 1
    nextAmfID := id }

end AmfState

/-! ## Commands -/

/-- An authentication vector. -/
structure Av where
  rand : Bytes
  autn : Bytes
  xresStar : Bytes
  kausf : Bytes
  kseaf : Bytes
  kamf : Bytes
deriving DecidableEq

/-- The elementary updates. -/
inductive Cmd
  | book (r : Ref) (f : Book → Book)
  | setRm (r : Ref) (rm : RmState)
  | setSessions (r : Ref) (l : List (Nat × PduState))
  | setTmsi (r : Ref) (tmsi : Nat)
  | setImsi (r : Ref) (imsi : Imsi)
  /-- In-place assignment of the RAN key. -/
  | rebind (r : Ref) (gnbKey : GnbKey) (ran : Nat)
  | create (id ran : Nat) (gnbKey : GnbKey)
  | insert (r : Ref)
  | unindex (r : Ref)
  | take (r : Ref) (t : Transition)
  | cancel (r : Ref) (t : Timer)
  | cancelAll (r : Ref)
  /-- `ResetTo`. -/
  | resetTo (r : Ref) (st : GmmState)
  /-- `Drop`: the next machine of the context starts in its first state. -/
  | dropFsm (r : Ref)
  /-- `ue.Security.UESecCap = …`. -/
  | setUESecCap (r : Ref) (cap : Bytes)
  /-- The default ABBA, and `AuthDone = false`. -/
  | resetAuthentication (r : Ref)
  | countAuthRetry (r : Ref)
  | unassignNgksi (r : Ref)
  | setAuthDone (r : Ref) (b : Bool)
  /-- The vector is stored and an ngKSI assigned to it. -/
  | challenge (r : Ref) (av : Av) (ngksi : Nat)
  /-- The stored vector gets another ngKSI. -/
  | rechallenge (r : Ref) (ngksi : Nat)
  /-- The response matched: `AuthDone = true`. -/
  | answer (r : Ref)
  | activate (V : Env) (r : Ref) (ngksi eea eia : Nat)
  | promote (r : Ref)
  /-- `AuthDone` and `Activated` after the promotion. -/
  | markActivated (r : Ref)
  | clearPending (r : Ref)
  /-- The slot's uplink count becomes `count + 1`. -/
  | acceptUl (r : Ref) (usePending : Bool) (count : Nat) (pdu : Bytes)
  /-- The slot's downlink count goes up by one. -/
  | secureDl (r : Ref) (usePending : Bool) (plain pdu : Bytes)
  | migrate (src dst : Ref)
  | emit (o : Obs)

def SecurityCtx.setSlot (sec : SecurityCtx) (usePending : Bool) (f : NasSlot → NasSlot) :
    SecurityCtx :=
  if usePending then { sec with pend := f sec.pend } else { sec with op := f sec.op }

def SecurityCtx.challenge (sec : SecurityCtx) (av : Av) (ngksi : Nat) : SecurityCtx :=
  { sec with
    rand := av.rand, autn := av.autn, xresStar := av.xresStar, kausf := av.kausf,
    kseaf := av.kseaf, kamf := av.kamf, pendingNgksi := ngksi, ngksiAssigned := true }

def AmfState.updSec (s : AmfState) (r : Ref) (f : SecurityCtx → SecurityCtx) : AmfState :=
  s.upd r fun u => { u with sec := f u.sec }

/-- What a command does. -/
def AmfState.exec (s : AmfState) : Cmd → AmfState
  | .book r f => s.upd r fun u => { u with book := f u.book }
  | .setRm r rm => s.upd r fun u => { u with rm := rm }
  | .setSessions r l => s.upd r fun u => { u with pduSessions := l }
  | .setTmsi r tmsi => s.upd r fun u => { u with tmsi5g := tmsi }
  | .setImsi r imsi => s.upd r fun u => { u with imsi := imsi }
  | .rebind r gnbKey ran => s.upd r fun u => { u with gnbKey := gnbKey, ranUeNgapId := ran }
  | .create id ran gnbKey => s.create id ran gnbKey
  | .insert r => s.insert r
  | .unindex r => s.unindex r
  | .take r t => s.upd r fun u => u.take t
  | .cancel r t => s.upd r fun u => { u with timers := update u.timers t none }
  | .cancelAll r => s.upd r fun u => { u with timers := fun _ => none }
  | .resetTo r st => s.upd r fun u => { u with fsm := st }.mirror st
  | .dropFsm r => s.upd r fun u => { u with fsm := .deregistered }
  | .setUESecCap r cap => s.updSec r fun c => { c with ueSecCap := cap }
  | .resetAuthentication r => s.updSec r fun c => { c with abba := [0, 0], authDone := false }
  | .countAuthRetry r => s.updSec r fun c => { c with authRetryCount := c.authRetryCount + 1 }
  | .unassignNgksi r => s.updSec r fun c => { c with ngksiAssigned := false }
  | .setAuthDone r b => s.updSec r fun c => { c with authDone := b }
  | .challenge r av ngksi =>
    (s.updSec r fun c => c.challenge av ngksi).push (.challenged r av.kamf ngksi)
  | .rechallenge r ngksi =>
    (s.updSec r fun c => { c with pendingNgksi := ngksi }).push
      (.challenged r (s.ue r).sec.kamf ngksi)
  | .answer r => (s.updSec r fun c => { c with authDone := true }).push (.answered r)
  | .activate V r ngksi eea eia =>
    (s.updSec r fun c => c.activate V ngksi eea eia).push
      (.activated r (deriveSlot V (s.ue r).sec.kamf eea eia).knasInt)
  | .promote r => (s.updSec r SecurityCtx.promote).push (.promoted r)
  | .markActivated r => s.updSec r fun c => { c with authDone := true, activated := true }
  | .clearPending r => s.updSec r SecurityCtx.clearPending
  | .acceptUl r p count pdu =>
    (s.updSec r fun c => c.setSlot p fun k => { k with ul := (count + 1) % countMod }).push
      (.ulAccepted r ((s.ue r).sec.slot p).knasInt count pdu)
  | .secureDl r p plain pdu =>
    (s.updSec r fun c => c.setSlot p fun k => { k with dl := (k.dl + 1) % countMod }).push
      (.dlSecured r ((s.ue r).sec.slot p).knasInt ((s.ue r).sec.slot p).dl plain pdu)
  | .migrate src dst => s.updSec dst fun c => (s.ue src).sec.migrate c
  | .emit o => s.push o

end MmtCore.Amf
