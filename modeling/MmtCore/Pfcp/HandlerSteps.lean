import MmtCore.Pfcp.DataplaneSteps
import MmtCore.Pfcp.Handler

/-!
# What the handler keeps

Whatever rules a request carries, the session they are applied to stays the session it is: its
SEIDs, its key and its peer are written once, by the Establishment.
-/

namespace MmtCore.Pfcp

open MmtCore.Lib MmtCore.Upf List Dataplane

/-- What a session is known by. -/
structure SessionIdent where
  upSEID : UInt64
  cpSEID : UInt64
  key : ImsiPduKey
  peer : UDPAddr
deriving DecidableEq

def HandlerSession.ident (sess : HandlerSession) : SessionIdent :=
  ⟨sess.upSEID, sess.cpSEID, sess.key, sess.peer⟩

/-! ## The rules of a request -/

/-- A fold keeps what each of its steps keeps. -/
theorem foldl_keeps {α β γ : Type*} (f : α → γ) (g : α → β → α) (hg : ∀ a b, f (g a b) = f a)
    (l : List β) (a : α) : f (l.foldl g a) = f a := by
  induction l generalizing a with
  | nil => rfl
  | cons b l ih => rw [foldl_cons, ih, hg]

namespace Dataplane

@[simp] theorem unregisterSessionKeys_sessions (dp : Dataplane) (teids ueips : List UInt32) :
    (dp.unregisterSessionKeys teids ueips).sessions = dp.sessions := by
  unfold unregisterSessionKeys
  rw [foldl_keeps sessions unregisterUEIP fun _ _ => rfl,
    foldl_keeps sessions unregisterTEID fun _ _ => rfl]

@[simp] theorem unregisterSessionKeys_pending (dp : Dataplane) (teids ueips : List UInt32) :
    (dp.unregisterSessionKeys teids ueips).pending = dp.pending := by
  unfold unregisterSessionKeys
  rw [foldl_keeps pending unregisterUEIP fun _ _ => rfl,
    foldl_keeps pending unregisterTEID fun _ _ => rfl]

end Dataplane

namespace Work

variable (env : DpEnv) (k : ImsiPduKey) (w : Work)

/-- The identity of the session at hand. -/
def ident : Option SessionIdent := w.sess.map (·.ident)

@[simp] theorem ident_hook (dp : Option Dataplane) : (w.hook dp).ident = w.ident := rfl

@[simp] theorem ident_applyCreateFARToHook (far : CreateFAR) :
    (w.applyCreateFARToHook k far).ident = w.ident := rfl

@[simp] theorem ident_applyCreateQERToHook (qer : CreateQER) :
    (w.applyCreateQERToHook k qer).ident = w.ident := rfl

@[simp] theorem ident_applyCreateURRToHook (urr : CreateURR) :
    (w.applyCreateURRToHook k urr).ident = w.ident := by
  unfold applyCreateURRToHook
  split
  case h_1 => rfl
  case h_2 => cases h : w.sess <;> simp [ident, h, HandlerSession.ident]

@[simp] theorem ident_applyCreatePDRToHook (pdr : CreatePDR) :
    (w.applyCreatePDRToHook env k pdr).ident = w.ident := by
  unfold applyCreatePDRToHook
  split
  case h_1 => rfl
  case h_2 => cases h : w.sess <;> simp [ident, h, HandlerSession.ident]

@[simp] theorem ident_applyUpdateFARToHook (uf : UpdateFAR) :
    (w.applyUpdateFARToHook k uf).ident = w.ident := by
  unfold applyUpdateFARToHook
  split <;> rfl

@[simp] theorem ident_applyUpdatePDRToHook (up : UpdatePDR) :
    (w.applyUpdatePDRToHook env k up).ident = w.ident := by
  unfold applyUpdatePDRToHook
  split
  case h_1 => rfl
  case h_2 =>
    grind [ident, HandlerSession.ident]

@[simp] theorem ident_applyUpdateURRToHook (uu : UpdateURR) :
    (w.applyUpdateURRToHook k uu).ident = w.ident := rfl

@[simp] theorem ident_applyUpdateQERToHook (uq : UpdateQER) :
    (w.applyUpdateQERToHook k uq).ident = w.ident := rfl

@[simp] theorem ident_applyRemovePDRToHook (pdrID : UInt16) :
    (w.applyRemovePDRToHook k pdrID).ident = w.ident := by
  grind [ident, HandlerSession.ident, applyRemovePDRToHook]

@[simp] theorem ident_applyRemoveFARToHook (farID : UInt32) :
    (w.applyRemoveFARToHook k farID).ident = w.ident := rfl

@[simp] theorem ident_applyRemoveQERToHook (qerID : UInt32) :
    (w.applyRemoveQERToHook k qerID).ident = w.ident := rfl

@[simp] theorem ident_applyRemoveURRToHook (urrID : UInt32) :
    (w.applyRemoveURRToHook k urrID).ident = w.ident := by
  unfold applyRemoveURRToHook
  cases h : w.sess <;> simp [ident, h, HandlerSession.ident]

@[simp] theorem ident_applyCreates (fars : List CreateFAR) (urrs : List CreateURR)
    (qers : List CreateQER) (pdrs : List CreatePDR) :
    (w.applyCreates env k fars urrs qers pdrs).ident = w.ident := by
  unfold applyCreates
  rw [foldl_keeps ident _ fun w pdr => ident_applyCreatePDRToHook env k w pdr,
    foldl_keeps ident _ fun w qer => ident_applyCreateQERToHook k w qer,
    foldl_keeps ident _ fun w urr => ident_applyCreateURRToHook k w urr,
    foldl_keeps ident _ fun w far => ident_applyCreateFARToHook k w far]

@[simp] theorem ident_applyModification (req : SessionModificationRequest) :
    (w.applyModification env k req).ident = w.ident := by
  unfold applyModification
  rw [foldl_keeps ident _ fun w qerID => ident_applyRemoveQERToHook k w qerID,
    foldl_keeps ident _ fun w urrID => ident_applyRemoveURRToHook k w urrID,
    foldl_keeps ident _ fun w farID => ident_applyRemoveFARToHook k w farID,
    foldl_keeps ident _ fun w pdrID => ident_applyRemovePDRToHook k w pdrID,
    foldl_keeps ident _ fun w uq => ident_applyUpdateQERToHook k w uq,
    foldl_keeps ident _ fun w uu => ident_applyUpdateURRToHook k w uu,
    foldl_keeps ident _ fun w up => ident_applyUpdatePDRToHook env k w up,
    foldl_keeps ident _ fun w uf => ident_applyUpdateFARToHook k w uf, ident_applyCreates]

/-- There is nothing to apply rules to: the session is unknown to the handler and the dataplane. -/
structure Absent (k : ImsiPduKey) (w : Work) : Prop where
  sess : w.sess = none
  pending : w.dp.pending k = none
  session : w.dp.sessions k.dpKey = none

variable {env k w}

section

variable (h : w.Absent k)
include h

theorem Absent.hook (f : DpSession → Option DpSession) : w.hook (w.dp.onSession k f) = w := by
  rw [onSession_absent h.session]
  rfl

theorem Absent.createFAR (far : CreateFAR) : w.applyCreateFARToHook k far = w := by
  unfold applyCreateFARToHook addFAR
  rw [buffered_none h.pending]
  exact h.hook _

theorem Absent.createQER (qer : CreateQER) : w.applyCreateQERToHook k qer = w := by
  unfold applyCreateQERToHook addQER
  rw [buffered_none h.pending]
  exact h.hook _

theorem Absent.createURR (urr : CreateURR) : w.applyCreateURRToHook k urr = w := by
  unfold applyCreateURRToHook addURR Dataplane.upfDpAddUrr
  rw [buffered_none h.pending, onSession_absent h.session]

theorem Absent.createPDR (pdr : CreatePDR) : w.applyCreatePDRToHook env k pdr = w := by
  unfold applyCreatePDRToHook addPDR Dataplane.upfDpAddPdr
  rw [buffered_none h.pending, onSession_absent h.session]

theorem Absent.updateFAR (uf : UpdateFAR) : w.applyUpdateFARToHook k uf = w := by
  unfold applyUpdateFARToHook
  split <;> exact h.hook _

theorem Absent.updatePDR (up : UpdatePDR) : w.applyUpdatePDRToHook env k up = w := by
  unfold applyUpdatePDRToHook Dataplane.upfDpUpdatePdr
  rw [onSession_absent h.session]

theorem Absent.removePDR (pdrID : UInt16) : w.applyRemovePDRToHook k pdrID = w := by
  unfold applyRemovePDRToHook Dataplane.removePDR
  rw [h.sess]
  dsimp only
  rw [onSession_absent h.session]
  rfl

theorem Absent.removeURR (urrID : UInt32) : w.applyRemoveURRToHook k urrID = w := by
  unfold applyRemoveURRToHook Dataplane.removeURR
  rw [onSession_absent h.session, h.sess]
  exact congrArg (Work.mk · w.dp) h.sess.symm

/-- A modification of what is not there does nothing. -/
theorem Absent.modification (req : SessionModificationRequest) :
    w.applyModification env k req = w := by
  unfold applyModification applyCreates
  dsimp only
  rw [foldl_fixed' fun far => h.createFAR far, foldl_fixed' fun urr => h.createURR urr,
    foldl_fixed' fun qer => h.createQER qer, foldl_fixed' fun pdr => h.createPDR pdr,
    foldl_fixed' fun uf => h.updateFAR uf, foldl_fixed' fun up => h.updatePDR up,
    foldl_fixed' fun uu : UpdateURR => h.hook _,
    foldl_fixed' fun uq : UpdateQER => h.hook _,
    foldl_fixed' fun pdrID => h.removePDR pdrID,
    foldl_fixed' (f := applyRemoveFARToHook k) fun farID => h.hook _,
    foldl_fixed' fun urrID => h.removeURR urrID,
    foldl_fixed' (f := applyRemoveQERToHook k) fun qerID => h.hook _]

end

/-- The session at hand is still there, and the one it was. -/
theorem sess_of_ident {w w' : Work} (h : w'.ident = w.ident) {sess : HandlerSession}
    (hsess : w.sess = some sess) :
    ∃ sess', w'.sess = some sess' ∧ sess'.ident = sess.ident := by
  rw [ident, ident, hsess] at h
  exact Option.map_eq_some_iff.1 h

end Work

/-! ## Requests -/

/-- A request as it reaches the handler, and what has room while it is handled. -/
structure Request where
  env : DpEnv
  hdr : Header
  payload : List UInt8
  peer : UDPAddr

/-- What a request establishes, when it is an Establishment Request that decodes. -/
def Request.establishes (codec : Codec) (r : Request) : Option SessionEstablishmentRequest :=
  if r.hdr.messageType = messageTypeSessionEstablishmentRequest then
    codec.establishment r.payload
  else none

/-- What a request modifies, when it is a Modification Request that decodes. -/
def Request.modifies (codec : Codec) (r : Request) : Option SessionModificationRequest :=
  if r.hdr.messageType = messageTypeSessionModificationRequest then
    codec.modification r.payload
  else none

namespace Handler

variable (codec : Codec)

/-- One request is handled. -/
def step (h : Handler) (r : Request) : Handler := (h.dispatch codec r.env r.hdr r.payload r.peer).1

/-- The session of an Establishment, before its rules. -/
def newSession (h : Handler) (req : SessionEstablishmentRequest) (peer : UDPAddr) :
    HandlerSession :=
  { upSEID := h.nextSEID + 1, cpSEID := req.cpSEID, key := req.key, peer, pdrKeys := ∅,
    urrIDs := [] }

/-- The tables after an Establishment, with what became of the session and the dataplane. -/
def established (h : Handler) (key : ImsiPduKey) (sess : HandlerSession) (dp : Dataplane) :
    Handler where
  sessions := h.sessions.assign (h.nextSEID + 1) sess
  byIMSI :=
    if key.imsi == [] then h.byIMSI else Function.update h.byIMSI key (some (h.nextSEID + 1))
  nextSEID := h.nextSEID + 1
  dp

/-- The session of an Establishment and the dataplane, when its rules are applied. -/
def establishing (h : Handler) (req : SessionEstablishmentRequest) (peer : UDPAddr) : Work :=
  ⟨some (h.newSession req peer), h.dp.createSession req.key req.dnn req.sst req.slice.2 0⟩

/-- Dropping the sessions first and tearing them down afterwards is doing both for each. -/
theorem release_eq (vs : List ((_ : UInt64) × HandlerSession)) (h : Handler) :
    { vs.foldl (fun h v => h.dropSession v.1 v.2) h with
      dp := vs.foldl (fun dp v => tearDownSession dp v.2) h.dp } =
    vs.foldl (fun h v => h.removeSession v.1 v.2) h := by
  have hdp : ∀ (vs : List ((_ : UInt64) × HandlerSession)) (h : Handler) (dp dp' : Dataplane),
      { vs.foldl (fun h v => h.dropSession v.1 v.2) { h with dp } with dp := dp' } =
        { vs.foldl (fun h v => h.dropSession v.1 v.2) h with dp := dp' } := by
    intro vs
    induction vs with
    | nil =>
      intro h dp dp'
      rfl
    | cons v vs ih =>
      intro h dp dp'
      exact ih (h.dropSession v.1 v.2) dp dp'
  induction vs generalizing h with
  | nil => rfl
  | cons v vs ih =>
    rw [foldl_cons, foldl_cons, foldl_cons, ← ih]
    exact (hdp vs (h.dropSession v.1 v.2) (tearDownSession h.dp v.2) _).symm

variable {codec} {h : Handler} {r : Request}

theorem establishes_eq_some_iff {req : SessionEstablishmentRequest} :
    r.establishes codec = some req ↔
      r.hdr.messageType = messageTypeSessionEstablishmentRequest ∧
        codec.establishment r.payload = some req := by
  simp [Request.establishes]

variable {req : SessionModificationRequest} {w : Work}

theorem modifies_eq_some_iff : r.modifies codec = some req ↔
      r.hdr.messageType = messageTypeSessionModificationRequest ∧
        codec.modification r.payload = some req := by
  simp [Request.modifies]

theorem step_establishment {req : SessionEstablishmentRequest}
    (hreq : r.establishes codec = some req)
    (hw : (h.establishing req r.peer).applyCreates r.env req.key req.createFAR req.createURR
      req.createQER req.createPDR = w) :
    h.step codec r = h.established req.key (w.sess.getD (h.newSession req r.peer))
      (w.dp.commitSession r.env req.key) := by
  obtain ⟨htype, hdec⟩ := establishes_eq_some_iff.1 hreq
  subst hw
  unfold step dispatch
  rw [htype, if_neg (by decide), if_pos rfl, handleSessionEstablishment, hdec]
  rfl

theorem step_modification (hreq : r.modifies codec = some req) {sess : HandlerSession}
    (hs : h.sessions.lookup r.hdr.seid = some sess)
    (hw : (Work.mk (some sess) h.dp).applyModification r.env sess.key req = w) :
    h.step codec r =
      { h with sessions := h.sessions.assign r.hdr.seid (w.sess.getD sess), dp := w.dp } := by
  obtain ⟨htype, hdec⟩ := modifies_eq_some_iff.1 hreq
  subst hw
  unfold step dispatch
  rw [htype, if_neg (by decide), if_neg (by decide), if_pos rfl, handleSessionModification, hdec]
  rw [hs]

theorem step_strayModification (hreq : r.modifies codec = some req)
    (hs : h.sessions.lookup r.hdr.seid = none) :
    h.step codec r =
      { h with dp := ((Work.mk none h.dp).applyModification r.env ⟨[], 0⟩ req).dp } := by
  obtain ⟨htype, hdec⟩ := modifies_eq_some_iff.1 hreq
  unfold step dispatch
  rw [htype, if_neg (by decide), if_neg (by decide), if_pos rfl, handleSessionModification, hdec]
  rw [hs]

/-- Any other request removes sessions, or does nothing. -/
theorem step_removal (hest : r.establishes codec = none) (hmod : r.modifies codec = none) :
    h.step codec r = h ∨
      (∃ sess, h.sessions.lookup r.hdr.seid = some sess ∧
        h.step codec r = h.removeSession r.hdr.seid sess) ∨
      h.step codec r = (h.victims r.peer).foldl (fun h v => h.removeSession v.1 v.2) h := by
  unfold step dispatch
  split
  case isTrue =>
    grind [release_eq, handleAssociationRelease]
  case isFalse =>
    split
    case isTrue htype =>
      grind [establishes_eq_some_iff, handleSessionEstablishment]
    case isFalse =>
      split
      case isTrue htype =>
        grind [modifies_eq_some_iff, handleSessionModification]
      case isFalse =>
        grind [handleSessionDeletion]

variable (codec)

/-- What a request can do to the tables. -/
inductive Outcome (h : Handler) (r : Request) : Handler → Prop
  | nothing : Outcome h r h
  | establishment (req : SessionEstablishmentRequest) (sess : HandlerSession) (dp : Dataplane) :
      r.establishes codec = some req → sess.ident = (h.newSession req r.peer).ident →
      Outcome h r (h.established req.key sess dp)
  | modification (sess sess' : HandlerSession) (dp : Dataplane) :
      h.sessions.lookup r.hdr.seid = some sess → sess'.ident = sess.ident →
      Outcome h r { h with sessions := h.sessions.assign r.hdr.seid sess', dp }
  | strayModification (dp : Dataplane) : Outcome h r { h with dp }
  | deletion (sess : HandlerSession) : h.sessions.lookup r.hdr.seid = some sess →
      Outcome h r (h.removeSession r.hdr.seid sess)
  | release :
      Outcome h r ((h.victims r.peer).foldl (fun h v => h.removeSession v.1 v.2) h)

theorem step_outcome (h : Handler) (r : Request) : Outcome codec h r (h.step codec r) := by
  cases hest : r.establishes codec with
  | some req =>
    rw [step_establishment hest rfl]
    have hident := Work.ident_applyCreates r.env req.key (h.establishing req r.peer)
      req.createFAR req.createURR req.createQER req.createPDR
    obtain ⟨sess, hsess, hid⟩ := Work.sess_of_ident hident rfl
    rw [hsess]
    exact .establishment req sess _ hest hid
  | none =>
    cases hmod : r.modifies codec with
    | some req =>
      cases hs : h.sessions.lookup r.hdr.seid with
      | none =>
        rw [step_strayModification hmod hs]
        exact .strayModification _
      | some sess =>
        rw [step_modification hmod hs rfl]
        have hident := Work.ident_applyModification r.env sess.key (Work.mk (some sess) h.dp) req
        obtain ⟨sess', hsess', hid⟩ := Work.sess_of_ident hident rfl
        rw [hsess']
        exact .modification sess sess' _ hs hid
    | none =>
      obtain hsame | ⟨sess, hs, hdel⟩ | hrel := step_removal hest hmod
      · rw [hsame]
        exact .nothing
      · rw [hdel]
        exact .deletion sess hs
      · rw [hrel]
        exact .release

end Handler

/-! ## A request in bytes -/

/-- An IE on the wire. -/
def ie (ieType : Nat) (value : List UInt8) : List UInt8 :=
  beBytes 2 ieType ++ beBytes 2 value.length ++ value

def samplePeer : UDPAddr := ⟨[127, 0, 0, 1], 8805⟩

def sampleHeader (messageType : UInt8) (seid : UInt64) : Header :=
  { version := 1, followOn := false, messagePriority := false, hasSEID := true, messageType,
    length := 0, seid, sequenceNumber := 1, priority := 0 }

/-- CP F-SEID 7 at 127.0.0.1, and the User ID with NAI "1" and SUPI "1". -/
def establishmentPayload : List UInt8 :=
  ie 57 ([2] ++ beBytes 8 7 ++ [127, 0, 0, 1]) ++ ie 141 ([24, 1] ++ ascii "1" ++ [1] ++ ascii "1")

def sampleEstablishment : SessionEstablishmentRequest :=
  { cpSEID := 7, userID := some ⟨ascii "1", ascii "1"⟩, snssai := none, apnDNN := none,
    createPDR := [], createFAR := [], createURR := [], createQER := [] }

/-- The codec on the payload above, and on one without IEs. -/
def sampleCodec : Codec where
  establishment payload := if payload = establishmentPayload then some sampleEstablishment else none
  modification payload := if payload = [] then some SessionModificationRequest.empty else none
  associationRelease _ := none

def sampleRequest (payload : List UInt8) : Request :=
  ⟨DpEnv.roomy, sampleHeader messageTypeSessionEstablishmentRequest 0, payload, samplePeer⟩

end MmtCore.Pfcp
