import MmtCore.Ims.Register

/-!
# SDP offers

The media descriptions of an SDP body (`sdp.go`): type, port, bandwidth and direction of each
`m=` line.
-/

namespace MmtCore.Ims

inductive Direction where
  | sendrecv
  | sendonly
  | recvonly
  | inactive
deriving DecidableEq

structure MediaDescription where
  type : Text
  port : Int
  proto : Text
  formats : List Text
  bandwidthKbps : Int
  /-- `none` where the media block has no direction of its own. -/
  direction : Option Direction
deriving DecidableEq

def Direction.ofText (s : Text) : Option Direction :=
  if s = "sendrecv".toList then some .sendrecv
  else if s = "sendonly".toList then some .sendonly
  else if s = "recvonly".toList then some .recvonly
  else if s = "inactive".toList then some .inactive
  else none

/-- `strings.Fields`. -/
def fields (s : Text) : List Text :=
  (s.splitOnP isSpace).filter (· ≠ [])

def parseMLine (val : Text) : Option MediaDescription :=
  match fields val with
  | type :: portField :: proto :: formats =>
    let portStr := match cut ['/'] portField with
      | some (before, _) => if before ≠ [] then before else portField
      | none => portField
    some { type, port := (atoi portStr).getD 0, proto, formats, bandwidthKbps := 0,
           direction := none }
  | _ => none

/-- The lines; one is there after the last line break only if it is not empty. -/
def splitLines (s : Text) : List Text :=
  let lines := s.splitOnP (· = '\n')
  if lines.getLast? = some [] then lines.dropLast else lines

/-- The descriptions that are complete, and the one that the lines read now are about. -/
structure SdpParse where
  out : List MediaDescription
  cur : Option MediaDescription
deriving DecidableEq

namespace SdpParse

def flush (p : SdpParse) : List MediaDescription := p.out ++ p.cur.toList

def bandwidthLine (val : Text) (md : MediaDescription) : MediaDescription :=
  match (cut [':'] val).bind fun kv => atoi (trimSpace kv.2) with
  | some n => { md with bandwidthKbps := n }
  | none => md

def directionLine (val : Text) (md : MediaDescription) : MediaDescription :=
  match Direction.ofText (trimSpace val) with
  | some dir => { md with direction := some dir }
  | none => md

def line (p : SdpParse) (raw : Text) : SdpParse :=
  match (raw.reverse.dropWhile (· = '\r')).reverse with
  | 'm' :: '=' :: val => { out := p.flush, cur := parseMLine val }
  | 'b' :: '=' :: val => { p with cur := p.cur.map (bandwidthLine val) }
  | 'a' :: '=' :: val => { p with cur := p.cur.map (directionLine val) }
  | _ => p

end SdpParse

def parseSDP (body : Text) : List MediaDescription :=
  ((splitLines body).foldl SdpParse.line { out := [], cur := none }).flush

/-- The types in lower case, in the order of their first line; port 0 means rejected. -/
def mediaTypes (media : List MediaDescription) : List Text :=
  media.foldl (fun seen md =>
    let t := md.type.map Char.toLower
    if md.port = 0 ∨ t ∈ seen then seen else seen ++ [t]) []

end MmtCore.Ims
