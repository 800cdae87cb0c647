import MmtCore.Ims.Sdp
import MmtCore.Pcf.PccRules

/-!
# Calls

How the CSCF answers INVITE, BYE and CANCEL (`server.go`), and the media authorisation that they
bring about at the PCF (`af.go`).  A request is handled to its end before the next; what the
machine of an INVITE transaction makes of the responses given to it comes later, as an event of
its own.
-/

namespace MmtCore.Ims

open Pcf

/-! ## The application function -/

/-- The services that the media of an offer need. -/
def servicesOf (sdp : Text) : List String :=
  mapMediaToServices (mediaTypes (parseSDP sdp))

/-- True if a rule was activated. -/
def authorizeMediaFromSDP (db : PolicyData) (p : Policy) (imsi sdp : Text) : Policy × Bool :=
  if imsi = [] ∨ sdp = [] then (p, false)
  else
    let types := mediaTypes (parseSDP sdp)
    if types = [] then (p, false)
    else
      match handleAARequest p.mgr imsi types with
      | (mgr, false) => ({ p with mgr }, false)
      | (mgr, true) =>
        let p := { p with mgr }
        match p.update db imsi with
        | none => (p, true)
        | some decision => (p.pushNotify imsi decision [], true)

/-- The SMF is told of the rules that were active before. -/
def releaseMedia (db : PolicyData) (p : Policy) (imsi : Text) : Policy × Bool :=
  if imsi = [] then (p, false)
  else
    let activeBefore := p.mgr.getActiveServiceNames imsi "ims"
    let p := { p with mgr := handleSessionTermination p.mgr imsi }
    if activeBefore = [] then (p, true)
    else
      match p.update db imsi with
      | none => (p, true)
      | some decision => (p.pushNotify imsi decision activeBefore, true)

section

variable {db : PolicyData} {p : Policy} {imsi sdp : Text}

/-- What becomes active is what the offer needs. -/
theorem active_authorizeMedia (hs : p.mgr.Settled) (hi : imsi ≠ []) (hsdp : sdp ≠ []) {i : Text}
    {svc : String} :
    (authorizeMediaFromSDP db p imsi sdp).1.Active i svc ↔
      p.Active i svc ∨ i = imsi ∧ svc ∈ servicesOf sdp := by
  have hreq := @active_handleAARequest p.mgr imsi (mediaTypes (parseSDP sdp)) svc i hs
  unfold authorizeMediaFromSDP servicesOf
  rw [if_neg (by simp [hi, hsdp])]
  dsimp only
  split
  · case isTrue hnil => simp [hnil, mapMediaToServices]
  · split
    · case h_1 hm => rw [hm] at hreq; exact hreq
    · case h_2 hm =>
      rw [hm] at hreq
      split
      · exact hreq
      · exact hreq

theorem settled_authorizeMedia (hs : p.mgr.Settled) :
    (authorizeMediaFromSDP db p imsi sdp).1.mgr.Settled := by
  have hreq := @Settled.handleAARequest p.mgr imsi (mediaTypes (parseSDP sdp)) hs
  unfold authorizeMediaFromSDP
  split
  · exact hs
  dsimp only
  split
  · exact hs
  · split
    · case h_1 hm => rw [hm] at hreq; exact hreq
    · case h_2 hm =>
      rw [hm] at hreq
      split
      · exact hreq
      · exact hreq

theorem informed_authorizeMedia (hs : p.mgr.Settled) (h : p.Informed db) :
    (authorizeMediaFromSDP db p imsi sdp).1.Informed db := by
  have hreq := fun i svc => @active_handleAARequest p.mgr imsi (mediaTypes (parseSDP sdp)) svc i hs
  have hfalse := fun i svc =>
    @active_of_handleAARequest_false p.mgr imsi (mediaTypes (parseSDP sdp)) svc i hs
  unfold authorizeMediaFromSDP
  split
  · exact h
  dsimp only
  split
  · exact h
  · split
    · case h_1 hm =>
      rw [hm] at hfalse
      exact h.of_same fun i svc => hfalse i svc rfl
    · case h_2 mgr hm =>
      rw [hm] at hreq
      have hpush := @Policy.Informed.push _ _ imsi mgr [] h
        (fun i svc hi => (hreq i svc).trans (or_iff_left fun hr => hi hr.1))
        (by simp) (fun svc hact _ => (hreq _ svc).2 (.inl hact))
      grind

/-- Nothing stays active for the subscriber. -/
theorem active_releaseMedia (hi : imsi ≠ []) {i : Text} {svc : String} :
    (releaseMedia db p imsi).1.Active i svc ↔ p.Active i svc ∧ i ≠ imsi := by
  have hgone : svc ∈ (handleSessionTermination p.mgr imsi).getActiveServiceNames i "ims" ↔
      p.Active i svc ∧ i ≠ imsi := by
    unfold handleSessionTermination
    rw [PccRuleManager.active_deactivateRules]
    exact and_congr_right fun _ => not_congr (and_iff_left rfl)
  unfold releaseMedia
  rw [if_neg hi]
  dsimp only
  split
  · exact hgone
  · split
    · exact hgone
    · exact hgone

theorem settled_releaseMedia (hs : p.mgr.Settled) : (releaseMedia db p imsi).1.mgr.Settled := by
  unfold releaseMedia
  split
  · exact hs
  dsimp only
  split
  · exact hs.deactivateRules
  · split
    · exact hs.deactivateRules
    · exact hs.deactivateRules

theorem informed_releaseMedia (h : p.Informed db) : (releaseMedia db p imsi).1.Informed db := by
  have hgone : ∀ i svc, svc ∈ (handleSessionTermination p.mgr imsi).getActiveServiceNames i "ims" ↔
      p.Active i svc ∧ i ≠ imsi := by
    intro i svc
    unfold handleSessionTermination
    rw [PccRuleManager.active_deactivateRules]
    exact and_congr_right fun _ => not_congr (and_iff_left rfl)
  unfold releaseMedia
  split
  · exact h
  dsimp only
  split
  · case isTrue hnil =>
    refine h.of_same fun i svc => (hgone i svc).trans (and_iff_left_of_imp fun hact hi => ?_)
    unfold Policy.Active at hact
    rw [hi, hnil] at hact
    exact absurd hact List.not_mem_nil
  · have hpush := @Policy.Informed.push _ _ imsi (handleSessionTermination p.mgr imsi)
      (p.mgr.getActiveServiceNames imsi "ims") h
      (fun i svc hi => (hgone i svc).trans (and_iff_left hi))
      (fun svc _ hact => ((hgone imsi svc).1 hact).2 rfl)
      (fun svc hact hrem => absurd hact hrem)
    grind

end

/-! ## Requests -/

structure CallRequest where
  via : Text
  callID : Text
  fromHeader : Text
  toHeader : Text
  body : Text
deriving DecidableEq

/-- The registered bindings, IMPU and IMPI, in the order in which the lookup meets them. -/
abbrev Registrar := List (Text × Text)

def lookupRegistrationByIMPU (regs : Registrar) (impu : Text) : Option Text :=
  regs.lookup impu

def extractBranchFromVia (via : Text) : Text :=
  match cut [';'] via with
  | none => []
  | some (_, params) =>
    match ((params.splitOnP (· = ';')).map trimSIP).find? fun p =>
        "branch=".toList.isPrefixOf p && 7 < p.length with
    | some p => p.drop 7
    | none => []

def extractURI (h : Text) : Text :=
  let h := trimSpace h
  let addrSpec := match cut [';'] h with
    | some (before, _) => trimSpace before
    | none => h
  match cut ['<'] h with
  | none => addrSpec
  | some (_, rest) =>
    match cut ['>'] rest with
    | some (uri, _) => trimSpace uri
    | none => addrSpec

/-- The IMPI of the caller up to the `@`; empty if the caller is not registered. -/
def callerIMSI (regs : Registrar) (fromHeader : Text) : Text :=
  let fromURI := extractURI fromHeader
  if fromURI = [] then []
  else
    match lookupRegistrationByIMPU regs fromURI with
    | none => []
    | some impi =>
      match cut ['@'] impi with
      | some (user, _) => if user = [] then impi else user
      | none => impi

def isConferenceURI (uri : Text) : Bool :=
  "sip:conf-".toList.isPrefixOf uri || "sip:conference-factory@".toList.isPrefixOf uri

structure DialogInfo where
  toTag : Text
  callerIMSI : Text
  conferenceURI : Text
deriving DecidableEq

/-! ## INVITE transactions -/

inductive ISState where
  | proceeding
  | completed
  | confirmed
deriving DecidableEq

inductive ISEvent where
  | send2xx
  | sendFinalErr
  | ack
  | timerH
  | timerI
deriving DecidableEq

/-- The state after an event; `none` when the transaction is terminated. -/
def ISState.handle : ISState → ISEvent → Option ISState
  | .proceeding, .send2xx => none
  | .proceeding, .sendFinalErr => some .completed
  | .completed, .ack => some .confirmed
  | .completed, .timerH => none
  | .confirmed, .timerI => none
  | s, _ => some s

/-- The timer that runs in a state. -/
def ISState.armed : ISState → Option ISEvent
  | .proceeding => none
  | .completed => some .timerH
  | .confirmed => some .timerI

/-- The state of the machine and the events it has not handled yet. -/
structure InviteServerTxn where
  state : ISState
  events : List ISEvent
deriving DecidableEq

def InviteServerTxn.send (txn : InviteServerTxn) (ev : ISEvent) : InviteServerTxn :=
  { txn with events := txn.events ++ [ev] }

/-- The CSCF with the PCF behind it. -/
structure CallServer where
  dialogs : Text → Option DialogInfo
  /-- The INVITE transactions by branch. -/
  invites : Text → Option InviteServerTxn
  /-- The branches of the BYE transactions. -/
  byes : Text → Bool
  conferences : Nat
  policy : Policy

namespace CallServer

variable (db : PolicyData) (domain : Text) (s : CallServer)

def send (branch : Text) (ev : ISEvent) : CallServer :=
  { s with invites := Function.update s.invites branch ((s.invites branch).map (·.send ev)) }

def storeDialog (callID : Text) (d : DialogInfo) : CallServer :=
  { s with dialogs := Function.update s.dialogs callID (some d) }

def removeDialog (callID : Text) : CallServer :=
  { s with dialogs := Function.update s.dialogs callID none }

def createConference : CallServer × Text :=
  ({ s with conferences := s.conferences + 1 },
    "sip:conf-".toList ++ (toString (s.conferences + 1)).toList ++ '@' :: domain)

/-- The focus answers itself: the dialog of the answer, if there is one. -/
def dispatchInviteToConferenceFactory (req : CallRequest) (regs : Registrar)
    (branch toTag : Text) : CallServer × Option DialogInfo :=
  let caller := callerIMSI regs req.fromHeader
  if caller = [] then (s.send branch .sendFinalErr, none)
  else
    match s.dialogs req.callID with
    | none =>
      let (s, conferenceURI) := s.createConference domain
      let d : DialogInfo := { toTag, callerIMSI := caller, conferenceURI }
      ((s.send branch .send2xx).storeDialog req.callID d, some d)
    | some d =>
      if d.conferenceURI ≠ [] then (s.send branch .send2xx, some d)
      else
        let (s, conferenceURI) := s.createConference domain
        (s.send branch .send2xx, some { toTag, callerIMSI := caller, conferenceURI })

/-- The state after an INVITE, and the dialog in which it is answered with 200; `toTag` is the tag
minted for a new one. -/
def dispatchInvite (req : CallRequest) (regs : Registrar) (toTag : Text) :
    CallServer × Option DialogInfo :=
  let branch := extractBranchFromVia req.via
  if branch = [] then (s, none)
  else if (s.invites branch).isSome then (s, none)
  else
    let s := { s with invites := Function.update s.invites branch (some ⟨.proceeding, []⟩) }
    let toURI := extractURI req.toHeader
    if isConferenceURI toURI then
      dispatchInviteToConferenceFactory domain s req regs branch toTag
    else if lookupRegistrationByIMPU regs toURI = none then (s.send branch .sendFinalErr, none)
    else
      let existingDialog := s.dialogs req.callID
      let caller := match existingDialog with
        | some d => d.callerIMSI
        | none => callerIMSI regs req.fromHeader
      let s := if req.body ≠ [] ∧ caller ≠ [] then
          { s with policy := (authorizeMediaFromSDP db s.policy caller req.body).1 }
        else s
      let s := s.send branch .send2xx
      match existingDialog with
      | some d => (s, some d)
      | none =>
        let d : DialogInfo := { toTag, callerIMSI := caller, conferenceURI := [] }
        (s.storeDialog req.callID d, some d)

/-- The subscriber whose media a BYE or CANCEL releases: that of the dialog, else the sender. -/
def released (req : CallRequest) (regs : Registrar) : Text :=
  match s.dialogs req.callID with
  | some d => d.callerIMSI
  | none => callerIMSI regs req.fromHeader

/-- The part that BYE and CANCEL share. -/
def releaseCall (req : CallRequest) (regs : Registrar) : CallServer :=
  let imsi := s.released req regs
  let s := s.removeDialog req.callID
  if imsi ≠ [] then { s with policy := (releaseMedia db s.policy imsi).1 } else s

/-- A BYE that is no retransmission is carried out. -/
def dispatchBye (req : CallRequest) (regs : Registrar) : CallServer × Bool :=
  let branch := extractBranchFromVia req.via
  if branch = [] then (s.releaseCall db req regs, true)
  else if s.byes branch then (s, false)
  else ({ s.releaseCall db req regs with byes := Function.update s.byes branch true }, true)

/-- A CANCEL takes back an INVITE that its transaction has not answered. -/
def dispatchCancel (req : CallRequest) (regs : Registrar) : CallServer × Bool :=
  let branch := extractBranchFromVia req.via
  if branch = [] then (s, false)
  else
    match s.invites branch with
    | none => (s, false)
    | some txn =>
      if txn.state ≠ .proceeding then (s, false)
      else ((s.releaseCall db req regs).send branch .sendFinalErr, true)

def dispatchAck (req : CallRequest) : CallServer :=
  let branch := extractBranchFromVia req.via
  if branch = [] then s else s.send branch .ack

/-- The machine of a transaction handles its next event. -/
def handleNext (branch : Text) : CallServer :=
  match s.invites branch with
  | some ⟨state, ev :: evs⟩ =>
    { s with
      invites := Function.update s.invites branch
        ((state.handle ev).map fun state => ⟨state, evs⟩) }
  | _ => s

/-- The timer of a transaction fires. -/
def fireTimer (branch : Text) : CallServer :=
  match (s.invites branch).bind (·.state.armed) with
  | some ev => s.send branch ev
  | none => s

/-! ## What a request can do -/

variable {db domain s} {req : CallRequest} {regs : Registrar}

@[simp] theorem send_policy (branch : Text) (ev : ISEvent) : (s.send branch ev).policy = s.policy :=
  rfl

@[simp] theorem send_dialogs (branch : Text) (ev : ISEvent) :
    (s.send branch ev).dialogs = s.dialogs := rfl

/-- An answered INVITE: in the dialog of its Call-ID, for the caller of that dialog, or in a new
one, for the sender. -/
inductive AnsweredIn (s : CallServer) (req : CallRequest) (regs : Registrar) (caller : Text) :
    (Text → Option DialogInfo) → Prop
  | existing (d : DialogInfo) : s.dialogs req.callID = some d → d.callerIMSI = caller →
    AnsweredIn s req regs caller s.dialogs
  | new (d : DialogInfo) : s.dialogs req.callID = none → d.callerIMSI = caller →
    caller = callerIMSI regs req.fromHeader →
    AnsweredIn s req regs caller (Function.update s.dialogs req.callID (some d))

theorem AnsweredIn.keeps {caller id : Text} {dialogs : Text → Option DialogInfo} {d : DialogInfo}
    (h : s.AnsweredIn req regs caller dialogs) (hne : id ≠ req.callID)
    (hd : s.dialogs id = some d) : dialogs id = some d := by
  cases h with
  | existing => exact hd
  | new => rw [Function.update_of_ne hne]; exact hd

/-- An INVITE is answered, with the media authorised unless the focus answers, or it changes
neither the dialogs nor the rules. -/
theorem dispatchInvite_cases (toTag : Text) :
    ((s.dispatchInvite db domain req regs toTag).2 = none ∧
      (s.dispatchInvite db domain req regs toTag).1.policy = s.policy ∧
      (s.dispatchInvite db domain req regs toTag).1.dialogs = s.dialogs) ∨
    (∃ d caller, (s.dispatchInvite db domain req regs toTag).2 = some d ∧
      AnsweredIn s req regs caller (s.dispatchInvite db domain req regs toTag).1.dialogs ∧
      (isConferenceURI (extractURI req.toHeader) = true ∧
          (s.dispatchInvite db domain req regs toTag).1.policy = s.policy ∨
        (s.dispatchInvite db domain req regs toTag).1.policy =
          (authorizeMediaFromSDP db s.policy caller req.body).1)) := by
  unfold dispatchInvite
  dsimp only
  split
  · exact .inl ⟨rfl, rfl, rfl⟩
  split
  · exact .inl ⟨rfl, rfl, rfl⟩
  split
  · case isTrue hconf =>
    unfold dispatchInviteToConferenceFactory
    dsimp only
    split
    · exact .inl ⟨rfl, rfl, rfl⟩
    · cases hd : s.dialogs req.callID with
      | none => exact .inr ⟨_, _, rfl, .new _ hd rfl rfl, .inl ⟨hconf, rfl⟩⟩
      | some d =>
        dsimp only
        split
        · exact .inr ⟨_, _, rfl, .existing d hd rfl, .inl ⟨hconf, rfl⟩⟩
        · exact .inr ⟨_, _, rfl, .existing d hd rfl, .inl ⟨hconf, rfl⟩⟩
  split
  · exact .inl ⟨rfl, rfl, rfl⟩
  · have hskip : ∀ caller, ¬ (req.body ≠ [] ∧ caller ≠ []) →
        s.policy = (authorizeMediaFromSDP db s.policy caller req.body).1 := by
      intro caller h
      unfold authorizeMediaFromSDP
      rw [if_pos (by tauto)]
    cases hd : s.dialogs req.callID with
    | none =>
      dsimp only
      refine .inr ⟨_, callerIMSI regs req.fromHeader, rfl, ?_, .inr ?_⟩
      · split
        · exact .new ⟨toTag, callerIMSI regs req.fromHeader, []⟩ hd rfl rfl
        · exact .new ⟨toTag, callerIMSI regs req.fromHeader, []⟩ hd rfl rfl
      · split
        · rfl
        · case isFalse h => exact hskip _ h
    | some d =>
      dsimp only
      refine .inr ⟨_, d.callerIMSI, rfl, ?_, .inr ?_⟩
      · split
        · exact .existing d hd rfl
        · exact .existing d hd rfl
      · split
        · rfl
        · case isFalse h => exact hskip _ h

theorem releaseCall_dialogs :
    (s.releaseCall db req regs).dialogs = Function.update s.dialogs req.callID none := by
  unfold releaseCall
  dsimp only
  split <;> rfl

theorem releaseCall_policy : (s.releaseCall db req regs).policy =
    (releaseMedia db s.policy (s.released req regs)).1 := by
  unfold releaseCall
  dsimp only
  split
  · rfl
  · case isFalse h =>
    rw [not_not.1 h]
    rfl

/-- A request that ends a call does to the dialogs and the rules what `releaseCall` does. -/
def Ends (db : PolicyData) (s : CallServer) (req : CallRequest) (regs : Registrar)
    (r : CallServer × Bool) : Prop :=
  (r.2 = false ∧ r.1 = s) ∨
    (r.2 = true ∧ r.1.policy = (s.releaseCall db req regs).policy ∧
      r.1.dialogs = (s.releaseCall db req regs).dialogs)

theorem dispatchBye_ends : Ends db s req regs (s.dispatchBye db req regs) := by
  unfold dispatchBye
  dsimp only
  split
  · exact .inr ⟨rfl, rfl, rfl⟩
  · split
    · exact .inl ⟨rfl, rfl⟩
    · exact .inr ⟨rfl, rfl, rfl⟩

theorem dispatchCancel_ends : Ends db s req regs (s.dispatchCancel db req regs) := by
  unfold dispatchCancel
  dsimp only
  split
  · exact .inl ⟨rfl, rfl⟩
  · split
    · exact .inl ⟨rfl, rfl⟩
    · split
      · exact .inl ⟨rfl, rfl⟩
      · exact .inr ⟨rfl, rfl, rfl⟩

theorem handleNext_same (branch : Text) : (s.handleNext branch).policy = s.policy ∧
    (s.handleNext branch).dialogs = s.dialogs := by
  unfold handleNext
  split <;> exact ⟨rfl, rfl⟩

theorem fireTimer_same (branch : Text) : (s.fireTimer branch).policy = s.policy ∧
    (s.fireTimer branch).dialogs = s.dialogs := by
  unfold fireTimer
  split <;> exact ⟨rfl, rfl⟩

theorem dispatchAck_same : (s.dispatchAck req).policy = s.policy ∧
    (s.dispatchAck req).dialogs = s.dialogs := by
  unfold dispatchAck
  dsimp only
  split <;> exact ⟨rfl, rfl⟩

end CallServer

end MmtCore.Ims
