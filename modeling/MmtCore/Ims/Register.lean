import MmtCore.Ims.Md5
import MmtCore.Udm.AuthCache

/-!
# REGISTER requests

What the S-CSCF reads from a REGISTER (`register.go`, `handler.go`) and the digest that a protected
one is verified with (`aka.go`).  A header is the first value `GetHeader` finds, the empty text if
there is none.
-/

namespace MmtCore.Ims

abbrev Text := List Char

structure SipRequest where
  method : Text
  authorization : Text
  fromHeader : Text
  toHeader : Text
  contact : Text
  expires : Text
  body : Text
deriving DecidableEq

/-! ## Texts -/

/-- What is before and after the first occurrence of `sep`. -/
def cut (sep : Text) : Text → Option (Text × Text)
  | [] => if sep = [] then some ([], []) else none
  | c :: cs =>
    if sep.isPrefixOf (c :: cs) then some ([], (c :: cs).drop sep.length)
    else (cut sep cs).map fun p => (c :: p.1, p.2)

/-- The code points of `unicode.IsSpace`. -/
def isSpace (c : Char) : Bool :=
  let n := c.toNat
  (9 ≤ n && n ≤ 13) || n = 32 || n = 0x85 || n = 0xA0 || n = 0x1680 ||
    (0x2000 ≤ n && n ≤ 0x200A) || n = 0x2028 || n = 0x2029 || n = 0x202F || n = 0x205F ||
    n = 0x3000

def trimBoth (p : Char → Bool) (s : Text) : Text :=
  ((s.dropWhile p).reverse.dropWhile p).reverse

def trimSpace : Text → Text := trimBoth isSpace

/-- `trimSIP`: blanks and tabs. -/
def trimSIP : Text → Text := trimBoth fun c => c = ' ' || c = '\t'

/-- Without the quotes around it. -/
def unquote (s : Text) : Text :=
  if 2 ≤ s.length ∧ s.head? = some '"' ∧ s.getLast? = some '"' then (s.drop 1).dropLast else s

/-- `strconv.Atoi`. -/
def atoi (s : Text) : Option Int :=
  let (neg, digits) := match s with
    | '-' :: rest => (true, rest)
    | '+' :: rest => (false, rest)
    | _ => (false, s)
  if Udm.isAllDigits digits then
    let n : Int := digits.foldl (fun n c => n * 10 + (c.toNat - 48 : Nat)) 0
    let v := if neg then -n else n
    if -2 ^ 63 ≤ v ∧ v < 2 ^ 63 then some v else none
  else none

/-! ## Identities -/

/-- The URI of a header, without angle brackets. -/
def bracketed (header : Text) : Text :=
  match cut ['<'] header with
  | none => header
  | some (_, rest) =>
    match cut ['>'] rest with
    | none => rest
    | some (uri, _) => uri

def usernameOf (authHeader : Text) : Option Text :=
  (cut "username=\"".toList authHeader).bind fun p => (cut ['"'] p.2).map (·.1)

def extractIMPI (authHeader fromHeader : Text) : Text :=
  match usernameOf authHeader with
  | some username => username
  | none =>
    let uri := bracketed fromHeader
    if "sip:".toList.isPrefixOf uri then uri.drop 4 else uri

def extractIMPU (toHeader : Text) : Text :=
  let uri := bracketed toHeader
  match cut ";tag=".toList uri with
  | none => uri
  | some (before, _) => before

structure RegisterFields where
  impi : Text
  impu : Text
  contact : Text
  expires : Int
deriving DecidableEq

def parseRegister (req : SipRequest) : RegisterFields :=
  { impi := extractIMPI req.authorization req.fromHeader
    impu := extractIMPU req.toHeader
    contact := req.contact
    expires := (atoi req.expires).getD 0 }

/-- `canonicalIMPI`: the form that the IMSI gives. -/
def canonicalIMPI (byMSISDN : String → Option Udm.Imsi) (domain impi : Text) : Text :=
  match Udm.imsiFromIMPI byMSISDN (String.ofList impi) with
  | none => impi
  | some imsi =>
    if imsi = "" then impi
    else
      match cut ['@'] impi with
      | some (_, rest) =>
        if rest ≠ [] then imsi.toList ++ '@' :: rest
        else imsi.toList ++ '@' :: (if domain = [] then "ims.local".toList else domain)
      | none => imsi.toList ++ '@' :: (if domain = [] then "ims.local".toList else domain)

/-- `isIntegrityProtected`: the request claims to be, or carries a nonce and a response. -/
def isIntegrityProtected (req : SipRequest) : Bool :=
  let auth := req.authorization.map fun c => if c = ',' then ' ' else c
  let fields := (auth.splitOnP fun c => c = ' ' || c = '\t').filter (· ≠ [])
  let params := fields.filterMap fun field => (cut ['='] field).map fun p =>
    (trimSIP p.1, trimSIP (unquote p.2))
  params.any (fun p => p.1 = "integrity-protected".toList && p.2 = "yes".toList) ||
    (params.any (fun p => p.1 = "nonce".toList && p.2 ≠ []) &&
      params.any (fun p => p.1 = "response".toList && p.2 ≠ []))

/-! ## The digest -/

/-- The fields between commas outside quotes: the first, and the others. -/
def splitParams (quoted : Bool) : Text → Text × List Text
  | [] => ([], [])
  | c :: cs =>
    if c = '"' then
      let (field, fields) := splitParams (!quoted) cs
      (c :: field, fields)
    else
      let (field, fields) := splitParams quoted cs
      if c = ',' ∧ ¬ quoted then ([], field :: fields) else (c :: field, fields)

def parseDigestParams (header : Text) : List (Text × Text) :=
  let h := trimSpace header
  let h := if "digest ".toList.isPrefixOf (h.map Char.toLower) then h.drop 7 else h
  let (field, fields) := splitParams false h
  (field :: fields).filterMap fun f => (cut ['='] (trimSpace f)).map fun p =>
    ((trimSpace p.1).map Char.toLower, unquote (trimSpace p.2))

/-- The value of a parameter: the last one counts, an absent one is empty. -/
def param (params : List (Text × Text)) (k : String) : Text :=
  (params.reverse.lookup k.toList).getD []

def bytesOf (s : Text) : Bytes := s.flatMap String.utf8EncodeChar

def hexDigit (n : Nat) : UInt8 := UInt8.ofNat (if n < 10 then 48 + n else 87 + n)

def hexOf (b : Bytes) : Bytes :=
  b.flatMap fun x => [hexDigit (x.toNat / 16), hexDigit (x.toNat % 16)]

/-- `md5sum`: the digest in hexadecimal. -/
def md5sum (b : Bytes) : Bytes := hexOf (Md5.sum b)

/-- The parts with colons between them. -/
def colons : List Bytes → Bytes
  | [] => []
  | [b] => b
  | b :: bs => b ++ 58 :: colons bs

/-- An authentication vector as the registration keeps it. -/
structure AuthVec where
  rand : Bytes
  autn : Bytes
  xres : Bytes
deriving DecidableEq

/-- The response that the password calls for. -/
def digestResponse (req : SipRequest) (params : List (Text × Text)) (password : Bytes) : Bytes :=
  let p := fun k => bytesOf (param params k)
  let ha1 := md5sum (colons [p "username", p "realm", password])
  let ha2 := if param params "qop" = "auth-int".toList
    then md5sum (colons [bytesOf req.method, p "uri", md5sum (bytesOf req.body)])
    else md5sum (colons [bytesOf req.method, p "uri"])
  if param params "qop" ≠ [] then
    md5sum (colons [ha1, p "nonce", p "nc", p "cnonce", p "qop", ha2])
  else md5sum (colons [ha1, p "nonce", ha2])

/-- `realVerifyAuth`: the response is that of XRES, in hexadecimal or raw. -/
def realVerifyAuth (req : SipRequest) (av : Option AuthVec) : Bool :=
  match av with
  | none => false
  | some av =>
    let params := parseDigestParams req.authorization
    let want := bytesOf ((param params "response").map Char.toLower)
    if av.xres = [] ∨ req.authorization = [] ∨ param params "response" = [] then false
    else [hexOf av.xres, av.xres].any fun password => digestResponse req params password = want

end MmtCore.Ims
