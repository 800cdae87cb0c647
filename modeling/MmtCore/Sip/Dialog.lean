import MmtCore.Sip.Message

/-!
# SIP dialogs

A dialog is changed by its own loop only, one event at a time, and `DialogManager` indexes dialogs
by the tuple that identifies them.  The methods of a dialog wait for its loop: after `Stop` they never
return, and `Add` and `Remove` call one of them with the lock of the manager held.
-/

namespace MmtCore.Sip

open MmtCore.Lib

inductive DialogState
  | init
  | early
  | confirmed
  | terminated
  deriving DecidableEq

/-- How far the life of a dialog has come. -/
def DialogState.rank : DialogState → Nat
  | .init => 0
  | .early => 1
  | .confirmed => 2
  | .terminated => 3

/-- Call-ID, local tag and remote tag. -/
abbrev DialogID := Bytes × Bytes × Bytes

structure SipDialog where
  callID : Bytes
  localURI : Bytes
  localTag : Bytes
  remoteTag : Bytes
  remoteURI : Bytes
  routeSet : List Bytes
  localCSeq : Nat
  state : DialogState
  /-- The loop has ended. -/
  stopped : Bool

namespace SipDialog

/-- A UAC-side dialog. -/
def new (callID localURI remoteURI localTag : Bytes) : SipDialog :=
  ⟨callID, localURI, localTag, [], remoteURI, [], 0, .init, false⟩

/-- The last `tag=` among the parts of a `From` header. -/
def fromTag (fromHdr : Bytes) : Bytes :=
  let parts := (split [59] fromHdr).map trimSpace
  match parts.reverse.find? fun p => txt "tag=" <+: p with
  | some p => p.drop 4
  | none => []

/-- What is between angle brackets. -/
def bracketedURI (fromHdr : Bytes) : Bytes :=
  match cut [60] fromHdr with
  | none => []
  | some (_, rest) =>
    match cut [62] rest with
    | none => []
    | some (uri, _) => uri

/-- A UAS-side dialog from an incoming INVITE. -/
def newFromRequest (req : Visit) (requestURI localTag : Bytes) : SipDialog :=
  let fromHdr := getHeader req (txt "From")
  ⟨getHeader req (txt "Call-ID"), requestURI, localTag, fromTag fromHdr, bracketedURI fromHdr,
    getHeaderValues req (txt "Record-Route"), 1, .init, false⟩

def dialogID (d : SipDialog) : DialogID := (d.callID, d.localTag, d.remoteTag)

/-- The To tag of a response. -/
def respTag (resp : Visit) : Bytes := extractParam (getHeader resp (txt "To")) (txt "tag")

/-- A To tag in a response becomes the remote tag. -/
def learnTag (d : SipDialog) (resp : Visit) : SipDialog :=
  if respTag resp = [] then d else { d with remoteTag := respTag resp }

def onProvisional (d : SipDialog) : Option Visit → SipDialog
  | none => d
  | some resp =>
    if d.state = .terminated then d
    else if d.state = .init then { d.learnTag resp with state := .early }
    else d.learnTag resp

/-- The route set that a 2xx response leaves. -/
def routesOf (resp : Visit) (routeSet : List Bytes) : List Bytes :=
  let rrs := getHeaderValues resp (txt "Record-Route")
  if 0 < rrs.length then rrs else routeSet

def on2xx (d : SipDialog) : Option Visit → SipDialog
  | none => d
  | some resp =>
    if d.state = .terminated then d
    else { d.learnTag resp with routeSet := routesOf resp d.routeSet, state := .confirmed }

def onError (d : SipDialog) : SipDialog := { d with state := .terminated }

def terminate (d : SipDialog) : SipDialog := { d with state := .terminated }

/-! ## Requests within the dialog -/

/-- `BuildFrom` without a display name; a tag is generated where there is none. -/
def buildFrom (uri tag generated : Bytes) : Bytes :=
  [60] ++ uri ++ txt ">;tag=" ++ (if tag = [] then generated else tag)

/-- `BuildTo` without a display name. -/
def buildTo (uri tag : Bytes) : Bytes :=
  [60] ++ uri ++ [62] ++ (if tag = [] then [] else txt ";tag=" ++ tag)

/-- The request that goes out with the number `cseq`. -/
def request (d : SipDialog) (cseq : Nat) (method generated : Bytes) : SipMessage :=
  let h : Headers := ∅
  let h := setHeader h (txt "Call-ID") d.callID
  let h := setHeader h (txt "From") (buildFrom d.localURI d.localTag generated)
  let h := setHeader h (txt "To") (buildTo d.remoteURI d.remoteTag)
  let h := setHeader h (txt "CSeq") (decimal cseq ++ [32] ++ method)
  let h := setHeader h (txt "Max-Forwards") (txt "70")
  let h := d.routeSet.foldl (fun h r => addHeader h.entries h (txt "Route") r false) h
  ⟨.request method d.remoteURI, h, []⟩

/-- The number of a request is in its CSeq header. -/
theorem request_cseq (d : SipDialog) (cseq : Nat) (method generated : Bytes) :
    (d.request cseq method generated).headers.lookup (txt "CSeq") =
      some [decimal cseq ++ [32] ++ method] := by
  have hroutes : ∀ (rs : List Bytes) (h : Headers),
      (rs.foldl (fun h r => addHeader h.entries h (txt "Route") r false) h).lookup (txt "CSeq") =
        h.lookup (txt "CSeq") := by
    intro rs
    induction rs with
    | nil => exact fun _ => rfl
    | cons r rs ih =>
      intro h
      rw [List.foldl_cons, ih, lookup_addHeader_ne (by decide)]
  unfold request
  rw [hroutes, lookup_setHeader_ne (by decide), lookup_setHeader]

def onCreateRequest (d : SipDialog) (method generated : Bytes) : SipDialog × Option SipMessage :=
  if d.state = .terminated then (d, none)
  else ({ d with localCSeq := d.localCSeq + 1 },
    some (d.request (d.localCSeq + 1) method generated))

end SipDialog

/-! ## The dialogs and their manager -/

/-- A pointer to a dialog. -/
abbrev Ref := Nat

structure DialogManager where
  /-- The dialogs that have been created. -/
  dialog : Ref → Option SipDialog
  dialogs : AssocMap DialogID Ref
  /-- A call holds the lock and waits for a loop that has ended. -/
  stuck : Bool

inductive DialogInput
  | newDialog (r : Ref) (callID localURI remoteURI localTag : Bytes)
  | newDialogFromRequest (r : Ref) (req : Visit) (requestURI localTag : Bytes)
  | onProvisional (r : Ref) (resp : Option Visit)
  | on2xx (r : Ref) (resp : Option Visit)
  | onError (r : Ref)
  | terminate (r : Ref)
  | createRequest (r : Ref) (method generated : Bytes)
  | add (r : Ref)
  | remove (r : Ref)

namespace DialogManager

def new : DialogManager := ⟨fun _ => none, ∅, false⟩

def add (m : DialogManager) (r : Ref) : DialogManager :=
  match m.dialog r with
  | none => m
  | some d =>
    if m.stuck then m
    else if d.stopped then { m with stuck := true }
    else { m with dialogs := m.dialogs.insert d.dialogID r }

def remove (m : DialogManager) (r : Ref) : DialogManager :=
  match m.dialog r with
  | none => m
  | some d =>
    if m.stuck then m
    else if d.stopped then { m with stuck := true }
    else
      { m with
        dialogs := m.dialogs.erase d.dialogID
        dialog := Function.update m.dialog r (some { d with stopped := true }) }

/-- `Get`, when it returns. -/
def get (m : DialogManager) (id : DialogID) : Option Ref :=
  if m.stuck then none else m.dialogs.lookup id

/-- The request that `CreateRequest` returns. -/
def created (m : DialogManager) : DialogInput → Option SipMessage
  | .createRequest r method generated =>
    match m.dialog r with
    | none => none
    | some d => if d.stopped then none else (d.onCreateRequest method generated).2
  | _ => none

end DialogManager

end MmtCore.Sip
