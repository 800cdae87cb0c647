import Mathlib.Data.BitVec
import MmtCore.Lib.AssocMap
import MmtCore.Lib.Reach

/-!
# Authentication data and sequence numbers

The authentication cache of `udm/cache.go` with its flusher, and the calls that use it: vector
generation in the AUSF and in the IMS, re-synchronisation, reloads.  Each call is split at the
points where others can come in between: a generation reads the credentials and writes the SQN
later, a reload reads the table and fills the cache later, the flusher takes a snapshot and writes
its rows one by one.
-/

namespace MmtCore.Udm

open MmtCore.Lib

/-! ## Milenage

`milenage.go` over an arbitrary block cipher of 128 bits: `f1`, the anonymity keys of `f2345` and
`f5*`.  A buffer is the number its bytes spell, the first byte the highest. -/

/-- `E k x` encrypts one block. -/
abbrev BlockCipher := BitVec 128 → BitVec 128 → BitVec 128

inductive OpType
  | op | opc
deriving DecidableEq

namespace Milenage

variable (E : BlockCipher)

def makeOPc (k op : BitVec 128) : BitVec 128 := E k op ^^^ op

/-- The operator constant in use: given, or derived from the key. -/
def getOPc (opType : OpType) (k op : BitVec 128) : BitVec 128 :=
  match opType with
  | .op => makeOPc E k op
  | .opc => op

/-- MAC-A. -/
def f1 (opc k rand : BitVec 128) (sqn : BitVec 48) (amf : BitVec 16) : BitVec 64 :=
  let tmp := E k (rand ^^^ opc)
  let in1 : BitVec 128 := sqn ++ amf ++ sqn ++ amf
  let rot := (in1 ^^^ opc).rotateLeft 0x40
  let out1 := E k (rot ^^^ tmp) ^^^ opc
  out1.extractLsb' 64 64

def aesXORRot (k tmp : BitVec 128) (r : Nat) (c opc : BitVec 128) : BitVec 128 :=
  E k (tmp.rotateLeft r ^^^ c) ^^^ opc

def temp (opc k rand : BitVec 128) : BitVec 128 := E k (opc ^^^ rand) ^^^ opc

/-- RES and AK of `F2345`. -/
def f2345 (opc k rand : BitVec 128) : BitVec 64 × BitVec 48 :=
  let out2 := aesXORRot E k (temp E opc k rand) 0x00 1 opc
  (out2.extractLsb' 0 64, out2.extractLsb' 80 48)

/-- AK of the re-synchronisation. -/
def f5Star (opc k rand : BitVec 128) : BitVec 48 :=
  (aesXORRot E k (temp E opc k rand) 0x60 8 opc).extractLsb' 80 48

end Milenage

/-! ## The cache -/

abbrev Imsi := String

structure UEAuthData where
  k : BitVec 128
  /-- An `int64`; the low 48 bits are what a vector carries. -/
  sqn : Int
  opType : OpType
  op : BitVec 128
  amf : BitVec 16
deriving DecidableEq

def UEAuthData.opc (E : BlockCipher) (creds : UEAuthData) : BitVec 128 :=
  Milenage.getOPc E creds.opType creds.k creds.op

/-- `IncrementSQN`: the next SEQ, the IND left alone, in 48 bits. -/
def incrementSQN (sqn : Int) : Int := (sqn + 32) % 2 ^ 48

def sqnBytes (v : Int) : BitVec 48 := BitVec.ofInt 48 v

/-- What a vector shows of itself, and the SQN that its AUTN conceals. -/
structure AuthVector where
  imsi : Imsi
  sqn : BitVec 48
  rand : BitVec 128
  autn : BitVec 128
deriving DecidableEq

/-- The computation of `GenerateAV` and of `realGenerateAV`, the keys apart. -/
def authVector (E : BlockCipher) (imsi : Imsi) (creds : UEAuthData) (rand : BitVec 128) :
    AuthVector :=
  let sqn := sqnBytes creds.sqn
  let mac := Milenage.f1 E (creds.opc E) creds.k rand sqn creds.amf
  let ak := (Milenage.f2345 E (creds.opc E) creds.k rand).2
  ⟨imsi, sqn, rand, (sqn ^^^ ak) ++ creds.amf ++ mac⟩

/-! ## Re-synchronisation -/

/-- A buffer as a number. -/
def ofBytes (w : Nat) (bytes : List UInt8) : BitVec w :=
  BitVec.ofNat w (bytes.foldl (fun n b => n * 256 + b.toNat) 0)

/-- `SQN_ms` of an AUTS. -/
def sqnMs (E : BlockCipher) (creds : UEAuthData) (auts randBuf : List UInt8) : BitVec 48 :=
  ofBytes 48 (auts.take 6) ^^^ Milenage.f5Star E (creds.opc E) creds.k (ofBytes 128 randBuf)

/-- The SQN that `UpdateSQNOnSyncFailure` stores. -/
def nextSQN (E : BlockCipher) (creds : UEAuthData) (auts randBuf : List UInt8) : Int :=
  let next := incrementSQN (sqnMs E creds auts randBuf).toNat
  if next < creds.sqn then creds.sqn + 1 else next

/-! ## Identities -/

def isAllDigits (s : List Char) : Bool := s ≠ [] && s.all Char.isDigit

/-- `imsiFromIMPI`; `byMSISDN` is the column of the `ue` table. -/
def imsiFromIMPI (byMSISDN : String → Option Imsi) (impi : String) : Option Imsi :=
  let user := impi.toList.takeWhile (· ≠ '@')
  if user = [] then none
  else if isAllDigits user ∧ (user.length = 14 ∨ user.length = 15) then some (String.ofList user)
  else
    let candidate := if user.head? = some '+' then user.tail else user
    if ¬ isAllDigits candidate then none
    else
      match byMSISDN (String.ofList candidate) with
      | some imsi => some imsi
      | none => byMSISDN (String.ofList ('+' :: candidate))

/-! ## The cache -/

/-- A call between what it has read and what it does with it. -/
inductive AuthCall
  | generate (imsi : Imsi) (creds : UEAuthData) (rand : BitVec 128)
  | resync (imsi : Imsi) (creds : UEAuthData) (auts randBuf : List UInt8)
  | reload (imsi : Imsi) (row : Option UEAuthData)
  | load (todo : List Imsi) (rows : AssocMap Imsi UEAuthData)
deriving DecidableEq

structure AuthStore where
  /-- The rows of `ue_auth_data`. -/
  db : AssocMap Imsi UEAuthData
  authByIMSI : AssocMap Imsi UEAuthData
  sqnDirty : List Imsi
  /-- The rows of the snapshot that the flusher has not come to. -/
  flushing : List (Imsi × Int)
  inFlight : List AuthCall
  /-- The vectors issued since the process started, the latest first. -/
  issued : List AuthVector
  /-- Those issued before. -/
  before : List AuthVector
  /-- What the cache was filled with at the start. -/
  started : AssocMap Imsi UEAuthData

namespace AuthStore

variable (u : AuthStore)

def bumpSQN (imsi : Imsi) (newSQN : Int) : AuthStore :=
  match u.authByIMSI.lookup imsi with
  | none => u
  | some ad =>
    { u with
      authByIMSI := u.authByIMSI.assign imsi { ad with sqn := newSQN }
      sqnDirty := u.sqnDirty.insert imsi }

def dropAuth (imsi : Imsi) : AuthStore :=
  { u with
    authByIMSI := u.authByIMSI.erase imsi
    sqnDirty := u.sqnDirty.erase imsi }

/-- `ReloadAuth` once it holds the lock. -/
def setAuth (imsi : Imsi) : Option UEAuthData → AuthStore
  | none => u.dropAuth imsi
  | some ad =>
    { u with
      authByIMSI := u.authByIMSI.assign imsi ad
      sqnDirty := u.sqnDirty.erase imsi }

/-- `LoadCache` once it holds the lock. -/
def setCache (rows : AssocMap Imsi UEAuthData) : AuthStore :=
  { u with authByIMSI := rows, sqnDirty := [] }

/-- `takeDirtySnapshot`. -/
def takeDirtySnapshot : AuthStore :=
  { u with
    flushing := u.sqnDirty.filterMap fun imsi =>
      (u.authByIMSI.lookup imsi).map fun ad => (imsi, ad.sqn)
    sqnDirty := [] }

/-- `UpdateUeAuthData` of an SQN: 0 stands for no change, and without a row it fails. -/
def updateUeAuthData (imsi : Imsi) (sqn : Int) : AuthStore :=
  match u.db.lookup imsi with
  | none => u
  | some row => { u with db := u.db.assign imsi { row with sqn := if sqn = 0 then row.sqn else sqn } }

def begin (call : AuthCall) : AuthStore := { u with inFlight := call :: u.inFlight }

/-- The next part of a call. -/
def advance (E : BlockCipher) : AuthCall → AuthStore
  | .generate imsi creds rand =>
    let u := u.bumpSQN imsi (incrementSQN creds.sqn)
    { u with issued := authVector E imsi creds rand :: u.issued }
  | .resync imsi creds auts randBuf => u.bumpSQN imsi (nextSQN E creds auts randBuf)
  | .reload imsi row => u.setAuth imsi row
  | .load (imsi :: todo) rows =>
    match u.db.lookup imsi with
    | none => u.begin (.load todo rows)
    | some row => u.begin (.load todo (rows.assign imsi row))
  | .load [] rows => u.setCache rows

/-- The process starts anew: what was in memory is gone, and the cache is filled from the table
before anything else runs. -/
def restart : AuthStore :=
  { db := u.db
    authByIMSI := u.db
    sqnDirty := []
    flushing := []
    inFlight := []
    issued := []
    before := u.issued ++ u.before
    started := u.db }

end AuthStore

/-! ## Events -/

inductive UdmEvent
  /-- The AUSF reads the credentials for a vector. -/
  | generateAV (imsi : Imsi) (rand : BitVec 128)
  /-- The IMS reads them. -/
  | realGenerateAV (impi : String) (rand : BitVec 128)
  | updateSQNOnSyncFailure (imsi : Imsi) (auts randBuf : List UInt8)
  | reloadAuth (imsi : Imsi)
  | loadCache
  | proceed (call : AuthCall)
  | flushOnce
  /-- The flusher writes a row of its snapshot, or the write fails. -/
  | persist (imsi : Imsi) (sqn : Int) (ok : Bool)
  /-- A row is written or deleted through the web service. -/
  | provision (imsi : Imsi) (row : Option UEAuthData)
  | dropAuth (imsi : Imsi)
  | restart

namespace AuthStore

variable (E : BlockCipher) (byMSISDN : String → Option Imsi)

/-- `GetAuthData` for a call. -/
def withCreds (u : AuthStore) (imsi : Imsi) (call : UEAuthData → AuthCall) : AuthStore :=
  match u.authByIMSI.lookup imsi with
  | none => u
  | some creds => u.begin (call creds)

def step (u : AuthStore) : UdmEvent → AuthStore
  | .generateAV imsi rand => u.withCreds imsi fun creds => .generate imsi creds rand
  | .realGenerateAV impi rand =>
    match imsiFromIMPI byMSISDN impi with
    | none => u
    | some imsi => u.withCreds imsi fun creds => .generate imsi creds rand
  | .updateSQNOnSyncFailure imsi auts randBuf =>
    if auts.length < 14 ∨ randBuf.length ≠ 16 then u
    else u.withCreds imsi fun creds => .resync imsi creds auts randBuf
  | .reloadAuth imsi => u.begin (.reload imsi (u.db.lookup imsi))
  | .loadCache => u.begin (.load u.db.keys ∅)
  | .proceed call =>
    if call ∈ u.inFlight then { u with inFlight := u.inFlight.erase call }.advance E call else u
  | .flushOnce => if u.flushing = [] then u.takeDirtySnapshot else u
  | .persist imsi sqn ok =>
    if (imsi, sqn) ∈ u.flushing then
      let u := { u with flushing := u.flushing.erase (imsi, sqn) }
      if ok then u.updateUeAuthData imsi sqn else u
    else u
  | .provision imsi row =>
    { u with
      db := match row with
        | none => u.db.erase imsi
        | some row => u.db.assign imsi row }
  | .dropAuth imsi => u.dropAuth imsi
  | .restart => u.restart

end AuthStore

end MmtCore.Udm
