import Mathlib
import MmtCore.Lib.Reach
import MmtCore.Pfcp.Header

/-!
# PFD management

The SMF pushes the packet flow descriptions of all applications to every UPF anchor.  An anchor
keeps what a request does not mention, so the SMF adds an empty entry for each application that was
in the push before and is not in this one.
-/

namespace MmtCore.Pfcp

open MmtCore.Lib

/-! ## The SMF -/

abbrev AppID := List UInt8

structure PFDRule where
  appID : AppID
  detectionType : String
  pattern : List UInt8
deriving DecidableEq

structure AppPFDs where
  appID : AppID
  rules : List PFDRule
deriving DecidableEq

inductive PfdKind
  | fd | url | dn | cp | raw
deriving DecidableEq

structure ParsedPFD where
  kind : PfdKind
  pattern : List UInt8
deriving DecidableEq

def flagFD : UInt8 := 0x01
def flagURL : UInt8 := 0x02
def flagDN : UInt8 := 0x04
def flagCP : UInt8 := 0x08

/-- The variant and the text that a detection type and a pattern stand for; `none` is an unknown
type. -/
def pfdContent (detectionType : String) (pattern : List UInt8) : Option (UInt8 × List UInt8) :=
  match detectionType with
  | "sni" | "dns" | "host" => some (flagDN, pattern)
  | "ip_range" => some (flagFD, "permit out ip from any to ".toUTF8.toList ++ pattern)
  | "port_range" => some (flagFD, "permit out ip from any to any ".toUTF8.toList ++ pattern)
  | _ => none

def encodePFDContents (detectionType : String) (pattern : List UInt8) : Option (List UInt8) :=
  if pattern = [] then none
  else
    (pfdContent detectionType pattern).map fun (flag, content) =>
      [flag, 0x00] ++ beBytes 2 content.length ++ content

def PFDRule.body (r : PFDRule) : Option (List UInt8) :=
  encodePFDContents r.detectionType r.pattern

/-- `genpfcp.ApplicationIDsPFDs`: for each PFD context its PFD contents. -/
structure ApplicationIDsPFDs where
  applicationID : AppID
  pfdContext : List (List (List UInt8))
deriving DecidableEq

def encodeApplicationIDsPFDs (g : AppPFDs) : ApplicationIDsPFDs where
  applicationID := g.appID
  pfdContext := (g.rules.filterMap PFDRule.body).map fun body => [body]

/-- The application entries of a PFD Management Request. -/
abbrev PfdRequest := List ApplicationIDsPFDs

/-- The octets of the information elements of an application. -/
def ApplicationIDsPFDs.size (app : ApplicationIDsPFDs) : Nat :=
  4 + (4 + app.applicationID.length) +
    (app.pfdContext.map fun pc => 4 + (pc.map fun pfd => 4 + pfd.length).sum).sum

/-- The value of the length field of the message: sequence number, node ID and applications. -/
def PfdRequest.size (req : PfdRequest) : Nat :=
  4 + 9 + (req.map ApplicationIDsPFDs.size).sum

/-- The applications of this push, as the next one sees them. -/
def nextPushSet (groups : List AppPFDs) : List AppID := (groups.map (·.appID)).filter (· ≠ [])

/-- The entries `addRemovalDeltas` appends: what was in the last push and is not in this one. -/
def removals (pfdPushSet : List AppID) (groups : List AppPFDs) : List AppPFDs :=
  (pfdPushSet.filter fun prev => prev ∉ nextPushSet groups).map fun prev => ⟨prev, []⟩

/-- The request of `PushPFDsToAll`. -/
def pushRequest (pfdPushSet : List AppID) (groups : List AppPFDs) : PfdRequest :=
  (groups ++ removals pfdPushSet groups).map encodeApplicationIDsPFDs

/-! ## The UPF -/

/-- The closure of `decodePFDContents`; it moves past the length even when the field is short. -/
def readField (v : List UInt8) (pos : Nat) : Nat × Option (List UInt8) :=
  if pos + 2 > v.length then (pos, none)
  else
    let ln := beNat ((v.drop pos).take 2)
    if pos + 2 + ln > v.length then (pos + 2, none)
    else (pos + 2 + ln, some ((v.drop (pos + 2)).take ln))

def hexDigit (n : UInt8) : UInt8 := if n < 10 then 0x30 + n else 0x57 + n

/-- `%x`. -/
def hex (v : List UInt8) : List UInt8 := v.flatMap fun b => [hexDigit (b / 16), hexDigit (b % 16)]

/-- The fields that the flags announce are tried in this order, from `pos` on. -/
def decodeFields (v : List UInt8) (flags : UInt8) : List (UInt8 × PfdKind) → Nat → ParsedPFD
  | [], _ => ⟨.raw, hex v⟩
  | (flag, kind) :: rest, pos =>
    if flags &&& flag ≠ 0 then
      match readField v pos with
      | (_, some s) => ⟨kind, s⟩
      | (pos, none) => decodeFields v flags rest pos
    else decodeFields v flags rest pos

def decodePFDContents (v : List UInt8) : Option ParsedPFD :=
  match v with
  | flags :: _ :: _ =>
    some (decodeFields v flags [(flagFD, .fd), (flagURL, .url), (flagDN, .dn), (flagCP, .cp)] 2)
  | _ => none

/-- What an anchor has cached for each application. -/
abbrev PfdCache := AppID → Option (List ParsedPFD)

def parsedPFDs (app : ApplicationIDsPFDs) : List ParsedPFD :=
  app.pfdContext.flatMap fun pc => pc.filterMap decodePFDContents

def storeApp (cache : PfdCache) (app : ApplicationIDsPFDs) : PfdCache :=
  let parsed := parsedPFDs app
  Function.update cache app.applicationID (if parsed = [] then none else some parsed)

def handlePFDManagement (cache : PfdCache) (req : PfdRequest) : PfdCache :=
  if req = [] then fun _ => none else req.foldl storeApp cache

/-! ## Pushes -/

/-- What becomes of the exchange with an anchor. -/
inductive Exchange
  /-- The request does not arrive. -/
  | lost
  /-- The request arrives, but no answer of the anchor does. -/
  | unanswered
  | answered
deriving DecidableEq

section Push

variable {Anchor Host : Type} [DecidableEq Host]

/-- A call of `PushPFDsToAll`: the anchors in the router, the applications, each at most once, and
the exchanges. -/
structure Push (Anchor : Type) where
  bridges : List Anchor
  groups : List AppPFDs
  nodup : (groups.map (·.appID)).Nodup
  exchange : Anchor → Exchange

/-- `pfdPushSet` of the SMF and `pfdCache` of each process that hosts anchors. -/
structure PfdState (Host : Type) where
  pfdPushSet : List AppID
  pfdCache : Host → PfdCache

def PfdState.init : PfdState Host := ⟨[], fun _ _ => none⟩

variable (host : Anchor → Host) (wire : PfdRequest → Option PfdRequest)

/-- The exchange with one anchor.  `wire` is what it decodes; an anchor that decodes nothing
changes nothing. -/
def sendPFDManagement (p : Push Anchor) (req : PfdRequest) (caches : Host → PfdCache) (u : Anchor) :
    Host → PfdCache :=
  match p.exchange u, wire req with
  | .lost, _ | _, none => caches
  | _, some req => Function.update caches (host u) (handlePFDManagement (caches (host u)) req)

def pushPFDsToAll (s : PfdState Host) (p : Push Anchor) : PfdState Host :=
  if p.bridges = [] then s
  else
    { pfdPushSet := nextPushSet p.groups
      pfdCache := p.bridges.foldl
        (sendPFDManagement host wire p (pushRequest s.pfdPushSet p.groups)) s.pfdCache }

/-- The anchor accepted the request and the SMF knows. -/
def Acked (s : PfdState Host) (p : Push Anchor) (u : Anchor) : Prop :=
  u ∈ p.bridges ∧ p.exchange u = .answered ∧ (wire (pushRequest s.pfdPushSet p.groups)).isSome

end Push

end MmtCore.Pfcp
