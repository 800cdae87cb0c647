import MmtCore.Lib.AssocMap
import MmtCore.Lib.GoText
import MmtCore.Lib.Split

/-!
# SIP messages

The message type of `libs/sip`, its accessors, and the parser and serialiser that every CSCF
forwards messages through.  The headers are a Go map: an iteration visits them in an order of its
own, so what iterates takes that order, `Visit`, as an argument.
-/

namespace MmtCore.Sip

open MmtCore.Lib

/-- Case-preserved key → multi-value. -/
abbrev Headers := AssocMap Bytes (List Bytes)

/-- The headers as one iteration over the map visits them. -/
abbrev Visit := List (Sigma fun _ : Bytes => List Bytes)

/-- What tells a `SipRequest` from a `SipResponse`. -/
inductive StartLine
  | request (method requestURI : Bytes)
  | response (statusCode : Int64) (reason : Bytes)
  deriving DecidableEq

structure SipMessage where
  start : StartLine
  headers : Headers
  body : Bytes

/-! ## Accessors -/

/-- The first value of a header, or the empty string. -/
def getHeader (es : Visit) (name : Bytes) : Bytes :=
  match es.find? fun e => toLower e.1 = toLower name ∧ 0 < e.2.length with
  | some e => e.2.headD []
  | none => []

/-- All values of a header. -/
def getHeaderValues (es : Visit) (name : Bytes) : List Bytes :=
  match es.find? fun e => toLower e.1 = toLower name with
  | some e => e.2
  | none => []

def setHeader (h : Headers) (name value : Bytes) : Headers :=
  (h.entries.foldl (fun h e => if toLower e.1 = toLower name then h.erase e.1 else h) h).insert name
    [value]

def addHeader (es : Visit) (h : Headers) (name value : Bytes) (prepend : Bool) : Headers :=
  match es.find? fun e => toLower e.1 = toLower name with
  | some e => h.insert e.1 (if prepend then value :: e.2 else e.2 ++ [value])
  | none => h.insert name [value]

section

variable {h : Headers} {name k value : Bytes}

theorem lookup_setHeader : (setHeader h name value).lookup name = some [value] :=
  AList.lookup_insert _

/-- A header of another name is left as it is. -/
theorem lookup_setHeader_ne (hk : toLower k ≠ toLower name) :
    (setHeader h name value).lookup k = h.lookup k := by
  have herase : ∀ (l : Visit) (h' : Headers),
      (l.foldl (fun h e => if toLower e.1 = toLower name then h.erase e.1 else h) h').lookup k =
        h'.lookup k := by
    intro l
    induction l with
    | nil => exact fun _ => rfl
    | cons e l ih =>
      grind [AList.lookup_erase_ne]
  grind [AList.lookup_insert_ne, setHeader]

theorem lookup_addHeader_ne {es : Visit} {prepend : Bool} (hk : toLower k ≠ toLower name) :
    (addHeader es h name value prepend).lookup k = h.lookup k := by
  grind [addHeader, AList.lookup_insert_ne]

end

/-! ## Parameters -/

/-- `trimSpace` of the transaction layer: blanks and tabs. -/
def trimBlanks (s : Bytes) : Bytes := stripRight [[32], [9]] (stripLeft [[32], [9]] s)

/-- The value of a parameter of a header, or the empty string. -/
def extractParam (header param : Bytes) : Bytes :=
  let parts := (split [59] header).map trimBlanks
  match parts.find? fun p => param.length + 1 < p.length ∧ param ++ [61] <+: p with
  | some p => p.drop (param.length + 1)
  | none => []

/-! ## Serialize -/

def crlf : Bytes := [13, 10]

/-- `String()`. -/
def StartLine.text : StartLine → Bytes
  | .request method requestURI => method ++ [32] ++ requestURI ++ txt " SIP/2.0"
  | .response statusCode reason => txt "SIP/2.0 " ++ itoa statusCode ++ [32] ++ reason

def serializeMsg (startLine : Bytes) (es : Visit) (body : Bytes) : Bytes :=
  startLine ++ crlf ++
    (es.flatMap fun e => e.2.flatMap fun v => e.1 ++ txt ": " ++ v ++ crlf) ++ crlf ++ body

/-- `Serialize()`, by an iteration over the headers. -/
def SipMessage.serialize (m : SipMessage) (es : Visit) : Bytes :=
  serializeMsg m.start.text es m.body

/-! ## Parse -/

inductive ParseError
  /-- `sip: empty message`. -/
  | emptyMessage
  /-- `sip: bad response line: %q`. -/
  | badResponseLine (line : Bytes)
  /-- `sip: bad status code: %q`. -/
  | badStatusCode (field : Bytes)
  /-- `sip: bad request line: %q`. -/
  | badRequestLine (line : Bytes)
  deriving DecidableEq

/-- Headers that contain commas in values and must not be split. -/
def noCommaSplit : List Bytes :=
  [txt "www-authenticate", txt "authorization", txt "proxy-authenticate",
    txt "proxy-authorization"]

instance : LawfulBEq Bytes := inferInstanceAs (LawfulBEq (List UInt8))

/-- The values of the header are left as they are. -/
def keepsCommas (name : Bytes) : Bool :=
  let lower := toLower name
  decide (lower ∈ noCommaSplit) || decide (lower = txt "via") || decide (lower = txt "v")

/-- The line continues the one before it. -/
def isFolded (line : Bytes) : Bool :=
  line.head? == some 32 || line.head? == some 9

/-- One round of the loop that undoes header folding. -/
def unfoldLine (unfolded : List Bytes) (line : Bytes) : List Bytes :=
  match isFolded line, unfolded.getLast? with
  | true, some last => unfolded.dropLast ++ [last ++ [32] ++ trimSpace line]
  | _, _ => unfolded ++ [line]

def unfoldLines (lines : List Bytes) : List Bytes :=
  lines.foldl unfoldLine []

/-- The name and the values of a header line; a line without a colon is skipped. -/
def headerField (hl : Bytes) : Option (Bytes × List Bytes) :=
  (cut [58] hl).map fun p =>
    let name := trimSpace p.1
    let value := trimSpace p.2
    (name, if keepsCommas name then [value] else (split [44] value).map trimSpace)

/-- `headers[name] = append(headers[name], …)`. -/
def addField (h : Headers) (hl : Bytes) : Headers :=
  match headerField hl with
  | none => h
  | some (name, values) => h.insert name ((h.lookup name).getD [] ++ values)

def parseStart (startLine : Bytes) (headers : Headers) (body : Bytes) :
    Except ParseError SipMessage :=
  let fields := splitN [32] 2 startLine
  if txt "SIP/2.0" <+: startLine then
    match fields with
    | _ :: field :: rest =>
      match atoi field with
      | none => .error (.badStatusCode field)
      | some code => .ok ⟨.response code (rest.headD []), headers, body⟩
    | _ => .error (.badResponseLine startLine)
  else
    match fields with
    | method :: requestURI :: _ => .ok ⟨.request method requestURI, headers, body⟩
    | _ => .error (.badRequestLine startLine)

/-- The header section and the body. -/
def sections (data : Bytes) : Bytes × Bytes :=
  match cut (crlf ++ crlf) data with
  | some p => p
  | none => (data, [])

def parse (data : Bytes) : Except ParseError SipMessage :=
  match unfoldLines (split crlf (sections data).1) with
  | [] => .error .emptyMessage
  | startLine :: hls => parseStart startLine (hls.foldl addField ∅) (sections data).2

end MmtCore.Sip
