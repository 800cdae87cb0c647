import Mathlib.Algebra.Group.Int.Defs
import MmtCore.Upf.RteHash

/-!
# SDF filters

`upf_sdf_parser.c` and the matching of `upf_classifier.c`.  A filter is parsed from one line of text
with `strtok`, whose place in the text is a static variable of the C library: it outlives the
parser's own buffer, and the caller's loop over the lines shares it.
-/

namespace MmtCore.Upf

/-! ## Strings -/

/-- The bytes of a literal. -/
def ascii (s : String) : List UInt8 := s.toList.map fun c => UInt8.ofNat c.toNat

def isNewline (b : UInt8) : Bool := b == 10

/-- A space or a tab. -/
def isBlank (b : UInt8) : Bool := b == 32 || b == 9

/-- The place `strtok` has kept: the text it goes on with, or nothing once a token reached the end. -/
abbrev Strtok := Option (List UInt8)

/-- `strtok` on a text. -/
def strtok (delim : UInt8 → Bool) (s : List UInt8) : Option (List UInt8) × Strtok :=
  match s.dropWhile delim with
  | [] => (none, none)
  | b :: bs =>
    let tok := (b :: bs).takeWhile fun c => !delim c
    match (b :: bs).dropWhile fun c => !delim c with
    | [] => (some tok, none)
    | _ :: rest => (some tok, some rest)

/-- `isspace`. -/
def isSpace (b : UInt8) : Bool := b == 32 || (9 ≤ b && b ≤ 13)

def isDigit (b : UInt8) : Bool := 48 ≤ b && b ≤ 57

/-- The number the leading digits write. -/
def digitsValue (s : List UInt8) : Nat :=
  (s.takeWhile isDigit).foldl (fun n b => n * 10 + (b.toNat - 48)) 0

/-- `strtol` in base 10: what does not fit a `long` becomes the nearest one. -/
def strtol (s : List UInt8) : Int :=
  match s.dropWhile isSpace with
  | 45 :: rest => max (-(2 ^ 63)) (-(digitsValue rest : Int))
  | 43 :: rest => min (2 ^ 63 - 1) (digitsValue rest)
  | rest => min (2 ^ 63 - 1) (digitsValue rest)

/-- `atoi`: the `long` cut to an `int`. -/
def atoi (s : List UInt8) : Int := (strtol s).bmod (2 ^ 32)

/-- The loop of `inet_pton` for IPv4: the finished octets, the current one, and whether it has a
digit yet. -/
def inetPton4Loop : List UInt8 → List Nat → Nat → Bool → Option (List Nat)
  | [], octets, cur, sawDigit =>
    if sawDigit then some (octets ++ [cur]) else none
  | b :: bs, octets, cur, sawDigit =>
    if isDigit b then
      let new := cur * 10 + (b.toNat - 48)
      if sawDigit && cur == 0 then none
      else if new > 255 then none
      else if !sawDigit && octets.length == 4 then none
      else inetPton4Loop bs octets new true
    else if b == 46 && sawDigit then
      if octets.length + 1 == 4 then none
      else inetPton4Loop bs (octets ++ [cur]) 0 false
    else none

/-- `inet_pton` with `AF_INET`; addresses are read as they stand in a packet. -/
def inetPton4 (s : List UInt8) : Option UInt32 :=
  match inetPton4Loop s [] 0 false with
  | some [a, b, c, d] => some (UInt32.ofNat (((a * 256 + b) * 256 + c) * 256 + d))
  | _ => none

/-! ## The filter -/

/-- The IPv4 fields of `upf_sdf_filter_t`. -/
structure SdfFilter where
  action : UInt8
  direction : UInt8
  proto : UInt8
  srcAddr : UInt32
  srcMask : UInt32
  srcPortLo : UInt16
  srcPortHi : UInt16
  dstAddr : UInt32
  dstMask : UInt32
  dstPortLo : UInt16
  dstPortHi : UInt16
deriving DecidableEq

/-- The mask of an address prefix. -/
def prefixMask (bits : Nat) : UInt32 :=
  if bits == 0 then 0 else ~~~((1 <<< UInt32.ofNat (32 - bits)) - 1)

/-- `parse_addr`: the address and its mask. -/
def parseAddr (s : List UInt8) : Option (UInt32 × UInt32) :=
  if s = ascii "any" then some (0, 0)
  else
    let buf := s.take 63
    let host := buf.takeWhile (· != 47)
    match buf.dropWhile (· != 47) with
    | [] => (inetPton4 host).map fun addr => (addr, prefixMask 32)
    | _ :: bits =>
      let bits := atoi bits
      if bits < 0 ∨ bits > 32 then none
      else (inetPton4 host).map fun addr => (addr, prefixMask bits.toNat)

/-- `parse_port_range`. -/
def parsePortRange (s : List UInt8) : UInt16 × UInt16 :=
  if s = [] then (0, 65535)
  else
    match s.dropWhile (· != 45) with
    | [] => (UInt16.ofInt (atoi s), UInt16.ofInt (atoi s))
    | _ :: hi => (UInt16.ofInt (atoi s), UInt16.ofInt (atoi hi))

/-- The action of a rule: 1 for `permit`, 2 for `deny`. -/
def parseAction (tok : List UInt8) : Option UInt8 :=
  if tok = ascii "permit" then some 1
  else if tok = ascii "deny" then some 2
  else none

def parseDirection (tok : List UInt8) : Option UInt8 :=
  if tok = ascii "in" then some 1
  else if tok = ascii "out" then some 2
  else if tok = ascii "bidirectional" then some 3
  else none

def parseProto (tok : List UInt8) : UInt8 :=
  if tok = ascii "ip" then 255 else UInt8.ofInt (atoi tok)

/-- The ports before the keyword `to`, and the tokens from there on. -/
def parseSrcPorts : List (List UInt8) → (UInt16 × UInt16) × List (List UInt8)
  | tok :: rest =>
    if tok = ascii "to" then ((0, 65535), tok :: rest) else (parsePortRange tok, rest)
  | [] => ((0, 65535), [])

/-- The ports after the destination; tokens after them are not looked at. -/
def parseDstPorts : List (List UInt8) → UInt16 × UInt16
  | tok :: _ => parsePortRange tok
  | [] => (0, 65535)

/-- `upf_sdf_parse` on the tokens. -/
def parseTokens (tokens : List (List UInt8)) : Option SdfFilter :=
  if tokens.length < 6 then none
  else
    match tokens with
    | act :: dir :: proto :: kwFrom :: src :: rest => do
      let action ← parseAction act
      let direction ← parseDirection dir
      guard (kwFrom = ascii "from")
      let (srcAddr, srcMask) ← parseAddr src
      let ((srcPortLo, srcPortHi), rest) := parseSrcPorts rest
      match rest with
      | kwTo :: dst :: rest =>
        guard (kwTo = ascii "to")
        let (dstAddr, dstMask) ← parseAddr dst
        let (dstPortLo, dstPortHi) := parseDstPorts rest
        some { action, direction, proto := parseProto proto, srcAddr, srcMask, srcPortLo,
               srcPortHi, dstAddr, dstMask, dstPortLo, dstPortHi }
      | _ => none
    | _ => none

/-- The tokens of a rule, at most `n` of them.  One more is taken from the text than is kept. -/
def ruleTokens : Nat → List UInt8 → List (List UInt8) × Strtok
  | 0, s => ([], (strtok isBlank s).2)
  | n + 1, s =>
    match strtok isBlank s with
    | (none, saved) => ([], saved)
    | (some tok, none) => ([tok], none)
    | (some tok, some rest) =>
      let r := ruleTokens n rest
      (tok :: r.1, r.2)

/-- `upf_sdf_parse`: the filter, and where `strtok` stands in the parser's buffer of 256 bytes. -/
def upfSdfParse (ruleStr : List UInt8) : Option SdfFilter × Strtok :=
  let r := ruleTokens 12 (ruleStr.take 255)
  (parseTokens r.1, r.2)

/-! ## Matching -/

/-- What the classifier knows about a packet. -/
structure Packet where
  direction : UInt8
  qfi : UInt8
  proto : UInt8
  srcAddr : UInt32
  dstAddr : UInt32
  srcPort : UInt16
  dstPort : UInt16
deriving DecidableEq

/-- An address check of `sdf_match`. -/
def addrMatch (mask want addr : UInt32) : Bool :=
  mask == 0 || addr &&& mask == want &&& mask

/-- A port check of `sdf_match`. -/
def portMatch (lo hi port : UInt16) : Bool :=
  (lo == 0 && hi == 65535) || (lo ≤ port && port ≤ hi)

/-- `sdf_match`. -/
def sdfMatch (sdf : SdfFilter) (pkt : Packet) : Bool :=
  (sdf.proto == 255 || sdf.proto == pkt.proto) &&
    addrMatch sdf.srcMask sdf.srcAddr pkt.srcAddr &&
    addrMatch sdf.dstMask sdf.dstAddr pkt.dstAddr &&
    portMatch sdf.srcPortLo sdf.srcPortHi pkt.srcPort &&
    portMatch sdf.dstPortLo sdf.dstPortHi pkt.dstPort

/-- The fields of `upf_pdr_t`; `sdf` holds the `n_sdf` filters in use. -/
structure Pdr where
  pdrId : UInt16
  precedence : UInt32
  pdiSource : UInt8
  ueAddr : UInt32
  qfi : UInt8
  sdf : List SdfFilter
  farId : UInt32
  qerId : UInt32
  urrId : UInt32
  active : Bool
deriving DecidableEq

/-- The checks of `pdr_match` before the filters. -/
def Pdr.pdiMatch (pdr : Pdr) (pkt : Packet) : Bool :=
  pdr.active && pdr.pdiSource == pkt.direction &&
    !(pkt.direction == 0 && 0 < pdr.qfi && 0 < pkt.qfi && pdr.qfi != pkt.qfi) &&
    (pdr.ueAddr == 0 ||
      (if pkt.direction == 0 then pkt.srcAddr == pdr.ueAddr else pkt.dstAddr == pdr.ueAddr))

/-- The filters of `pdr_match`: the first that matches decides. -/
def sdfListMatch (sdf : List SdfFilter) (pkt : Packet) : Bool :=
  match sdf with
  | [] => true
  | _ :: _ =>
    match sdf.find? fun f => sdfMatch f pkt with
    | some f => f.action != 2
    | none => false

/-- `pdr_match`. -/
def pdrMatch (pdr : Pdr) (pkt : Packet) : Bool :=
  pdr.pdiMatch pkt && sdfListMatch pdr.sdf pkt

end MmtCore.Upf
