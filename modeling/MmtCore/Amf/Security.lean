import MmtCore.Amf.Types

/-!
# The NAS security layer

The functions of the AMF's `security` package, over the security context of one UE.  Functions
that the Go code lets advance a count are split in two: what they answer, here as a pure
function, and the update of the slot, which the callers perform.

The cryptographic functions, the NAS codec and the operator's configuration are parameters
(`Env`), with the few facts about them that the code relies on.
-/

namespace MmtCore.Amf

/-! ## Parameters -/

inductive AlgName
  | nea0 | nea1 | nea2 | nea3 | nia0 | nia1 | nia2 | nia3
deriving DecidableEq

/-- `algoBit`: the algorithm's bit in the UE security capability octets. -/
def AlgName.bit : AlgName → UInt8
  | .nea0 | .nia0 => 0x80
  | .nea1 | .nia1 => 0x40
  | .nea2 | .nia2 => 0x20
  | .nea3 | .nia3 => 0x10

/-- `AlgoPriority`: one entry of a configured priority list. -/
structure AlgoPriority where
  algorithm : AlgName
  algoID : Nat
deriving DecidableEq

inductive Direction
  | uplink | downlink
deriving DecidableEq

/-- `AlgTypeNASEnc` and `AlgTypeNASInt`. -/
inductive AlgType
  | nasEnc | nasInt
deriving DecidableEq

structure Env where
  /-- `DecodeNASMessage`. -/
  decode : Bytes → Except DecodeError NasMsg
  /-- `Encode` of a downlink message; `none` is an encoding error. -/
  encode : DlMsg → Option Bytes
  /-- `NIA2` and `NEA2` under a 16-byte key, on the default bearer. -/
  nia2 : Bytes → Nat → Direction → Bytes → Bytes
  nea2 : Bytes → Nat → Direction → Bytes → Bytes
  /-- The key derivations of TS 33.501 Annex A.8 and A.9 from a 32-byte K_AMF. -/
  convA8 : Bytes → AlgType → Nat → Bytes
  convA9 : Bytes → Nat → Bytes
  cipheringAlgos : List AlgoPriority
  integrityAlgos : List AlgoPriority
  /-- A GUAMI is configured, so that 5G-GUTIs can be built. -/
  guamiConfigured : Bool
  /-- Encoded 5GMM messages carry the 5GMM discriminator and security header type 0. -/
  encode_plain : ∀ {m b}, encode m = some b → ∃ t, b = 0x7E :: 0x00 :: t
  /-- A container is a proper part of the message that carries it. -/
  container_length : ∀ {b m c}, decode b = .ok m → nasMessageContainer m = some c →
    c.length < b.length
  convA8_length : ∀ k t a, (convA8 k t a).length = 32
  nia2_length : ∀ k c d m, (nia2 k c d m).length = 4
  nea2_length : ∀ k c d m, (nea2 k c d m).length = m.length

inductive SecError
  | tooShort | notFivegmm | truncated | innerTooShort | innerNotFivegmm | noIntegrityKey
  | macVerify | noCipherKey | algorithm | kamfMissing
deriving DecidableEq

variable (V : Env)

/-! ## Primitives -/

def nasEncrypt (eea : Nat) (key : Bytes) (count : Nat) (dir : Direction) (data : Bytes) :
    Except SecError Bytes :=
  match eea with
  | 0 => .ok data
  | 2 => .ok (V.nea2 key count dir data)
  | _ => .error .algorithm

def nasMAC (eia : Nat) (key : Bytes) (count : Nat) (dir : Direction) (data : Bytes) :
    Except SecError Bytes :=
  match eia with
  | 0 => .ok [0, 0, 0, 0]
  | 2 => .ok (V.nia2 key count dir data)
  | _ => .error .algorithm

/-- The slot a PDU is checked or protected with. -/
def SecurityCtx.slot (sec : SecurityCtx) (usePending : Bool) : NasSlot :=
  if usePending then sec.pend else sec.op

/-- The uplink count a sequence number stands for, relative to the stored next count. -/
def estimateCount (stored : Nat) (sqn : UInt8) : Nat :=
  if sqn.toNat < stored % 256 then ((stored / 256 + 1) * 256) % countMod + sqn.toNat
  else stored / 256 * 256 + sqn.toNat

/-- `usePending` of `unwrap`. -/
def SecurityCtx.rxPending (sec : SecurityCtx) (sht : UInt8) : Bool :=
  sht == 4 && sec.pending

/-- `unwrap`: the plaintext and the count used; the caller stores `count + 1` in the slot. -/
def unwrap (sec : SecurityCtx) (pdu : Bytes) (sht : UInt8) : Except SecError (Bytes × Nat) :=
  let slot := sec.slot (sec.rxPending sht)
  if slot.knasInt.length ≠ nasKeyLen then .error .noIntegrityKey
  else
    match pdu with
    | _ :: _ :: m₁ :: m₂ :: m₃ :: m₄ :: sqn :: payload =>
      let count := estimateCount slot.ul sqn
      match nasMAC V slot.eia slot.knasInt count .uplink (sqn :: payload) with
      | .error e => .error e
      | .ok macCalc =>
        if macCalc ≠ [m₁, m₂, m₃, m₄] then .error .macVerify
        else if (sht = 2 ∨ sht = 4) ∧ slot.eea ≠ 0 then
          if slot.knasEnc.length ≠ nasKeyLen then .error .noCipherKey
          else
            match nasEncrypt V slot.eea slot.knasEnc count .uplink payload with
            | .error e => .error e
            | .ok dec => .ok (dec, count)
        else .ok (payload, count)
    | _ => .error .truncated

/-- `usePending` of `wrap`. -/
def SecurityCtx.txPending (sec : SecurityCtx) (newCtx : Bool) : Bool :=
  newCtx && sec.pending

/-- `wrap`: the protected PDU; the caller stores `count + 1` in the slot. -/
def wrap (sec : SecurityCtx) (inner : Bytes) (newCtx ciphered : Bool) : Except SecError Bytes :=
  let slot := sec.slot (sec.txPending newCtx)
  if slot.knasInt.length ≠ nasKeyLen then .error .noIntegrityKey
  else
    let count := slot.dl
    let sqn := UInt8.ofNat (count % 256)
    let payload :=
      if ciphered ∧ slot.eea ≠ 0 then
        if slot.knasEnc.length ≠ nasKeyLen then .error .noCipherKey
        else nasEncrypt V slot.eea slot.knasEnc count .downlink inner
      else .ok inner
    match payload with
    | .error e => .error e
    | .ok payload =>
      match nasMAC V slot.eia slot.knasInt count .downlink (sqn :: payload) with
      | .error e => .error e
      | .ok mac =>
        let sht : UInt8 :=
          if ciphered ∧ newCtx then 4 else if ciphered then 2 else if newCtx then 3 else 1
        .ok (0x7E :: sht :: (mac ++ sqn :: payload))

/-! ## Receiving -/

structure RxMeta where
  sht : UInt8
  ulCount : Nat
  plain : Bool
  verified : Bool
deriving DecidableEq

def SecurityCtx.hasOperative (sec : SecurityCtx) : Bool :=
  sec.op.knasInt.length == nasKeyLen

def SecurityCtx.hasPending (sec : SecurityCtx) : Bool :=
  sec.pending && sec.pend.knasInt.length == nasKeyLen

/-- `RxNAS` looks for a key: the pending one for security header type 4, else the operative. -/
def SecurityCtx.checksMac (sec : SecurityCtx) (sht : UInt8) : Bool :=
  (sht == 4 && sec.hasPending) || (sht != 4 && sec.hasOperative)

/-- A message the dispatcher goes on with: three bytes at least, 5GMM discriminator. -/
def isFivegmm : Bytes → Bool
  | epd :: _ :: _ :: _ => epd == 0x7E
  | _ => false

/-- `RxNAS`: the inner message and how it was checked.  Without a key the security header is
only stripped off. -/
def rxNAS (sec : SecurityCtx) (pdu : Bytes) : Except SecError (Bytes × RxMeta) :=
  match pdu with
  | epd :: sht :: _ :: _ =>
    if epd ≠ 0x7E then .error .notFivegmm
    else if sht = 0 then .ok (pdu, { sht := 0, ulCount := 0, plain := true, verified := false })
    else if pdu.length < 8 then .error .truncated
    else if sec.checksMac sht then
      match unwrap V sec pdu sht with
      | .error e => .error e
      | .ok (decoded, used) =>
        if isFivegmm decoded then
          .ok (decoded, { sht, ulCount := used, plain := false, verified := true })
        else .error .innerNotFivegmm
    else
      let inner := pdu.drop 7
      if inner.length < 3 then .error .innerTooShort
      else if isFivegmm inner then
        .ok (inner, { sht, ulCount := 0, plain := false, verified := false })
      else .error .innerNotFivegmm
  | _ => .error .tooShort

/-- `Reuse`: the outer PDU verifies under the existing context; a plain one is let through. -/
def reuseNAS (existing : SecurityCtx) (pdu : Bytes) : Except SecError (Option Nat) :=
  match pdu with
  | epd :: sht :: _ =>
    if epd ≠ 0x7E then .error .macVerify
    else if sht = 0 then .ok none
    else
      match unwrap V existing pdu sht with
      | .error e => .error e
      | .ok (_, count) => .ok (some count)
  | _ => .error .macVerify

/-- `DecipherContainer`. -/
def decipherContainer (sec : SecurityCtx) (ulCount : Nat) (container : Bytes) :
    Except SecError Bytes :=
  if sec.op.eea = 0 then .ok container
  else if sec.op.knasEnc.length ≠ nasKeyLen then .error .noCipherKey
  else nasEncrypt V sec.op.eea sec.op.knasEnc ulCount .uplink container

/-! ## Sending -/

/-- `TxDL` sends as it is, or protects. -/
inductive TxResult
  | asIs (pdu : Bytes)
  | secured (pdu : Bytes)
deriving DecidableEq

/-- The PDU already carries a security header. -/
def isProtected : Bytes → Bool
  | epd :: sht :: _ => epd == 0x7E && sht != 0
  | _ => false

def txDL (sec : SecurityCtx) (plain : Bytes) : Except SecError TxResult :=
  if sec.activated = false then .ok (.asIs plain)
  else if sec.op.knasInt.length ≠ nasKeyLen then .ok (.asIs plain)
  else if isProtected plain then .ok (.asIs plain)
  else (wrap V sec plain false true).map .secured

def txSMC (sec : SecurityCtx) (inner : Bytes) : Except SecError Bytes :=
  wrap V sec inner true false

/-! ## Context activation -/

/-- The slot `ActivateCtx` derives: the last 16 bytes of each derivation, counts at zero. -/
def deriveSlot (kamf : Bytes) (eea eia : Nat) : NasSlot where
  knasEnc := (V.convA8 kamf .nasEnc eea).drop 16
  knasInt := (V.convA8 kamf .nasInt eia).drop 16
  eea := eea
  eia := eia
  ul := 0
  dl := 0

/-- `ActivateCtx` once K_AMF is known to be there. -/
def SecurityCtx.activate (sec : SecurityCtx) (ngksi eea eia : Nat) : SecurityCtx :=
  { sec with pend := deriveSlot V sec.kamf eea eia, pendingNgksi := ngksi, pending := true }

/-- `clearPending`. -/
def SecurityCtx.clearPending (sec : SecurityCtx) : SecurityCtx :=
  { sec with pending := false, pend := .empty, pendingNgksi := 0 }

/-- `PromoteContext`. -/
def SecurityCtx.promote (sec : SecurityCtx) : SecurityCtx :=
  if sec.pending then
    SecurityCtx.clearPending
      { sec with op := sec.pend, ngksi := sec.pendingNgksi, ngksiAssigned := true }
  else sec

/-- `migrateSecurityContext`. -/
def SecurityCtx.migrate (src dst : SecurityCtx) : SecurityCtx :=
  { dst with
    kausf := src.kausf, kseaf := src.kseaf, kamf := src.kamf, ueSecCap := src.ueSecCap,
    abba := src.abba, op := src.op, authDone := src.authDone, activated := src.activated,
    ngksi := src.ngksi, ngksiAssigned := src.ngksiAssigned }

/-- `DeriveKgNB`: from the uplink count of the last accepted PDU. -/
def deriveKgNB (sec : SecurityCtx) : Except SecError Bytes :=
  if sec.kamf.length ≠ 32 then .error .kamfMissing
  else .ok (V.convA9 sec.kamf ((sec.op.ul + countMod - 1) % countMod))

/-- `ueSupports` of `negotiateAlgorithms`: the algorithm's bit in one capability octet. -/
def ueSupports (ueSecCap : Bytes) (byteIdx : Nat) (a : AlgoPriority) : Bool :=
  match ueSecCap[byteIdx]? with
  | none => false
  | some b => b &&& a.algorithm.bit != 0

/-- The first entry of a priority list the UE supports, else algorithm 0. -/
def selectAlgo (ueSecCap : Bytes) (byteIdx : Nat) (algos : List AlgoPriority) : Nat :=
  match algos.find? (ueSupports ueSecCap byteIdx) with
  | none => 0
  | some a => a.algoID

/-- `negotiateAlgorithms`: ciphering and integrity algorithm; the null integrity algorithm is
refused. -/
def negotiateAlgorithms (ueSecCap : Bytes) : Option (Nat × Nat) :=
  if selectAlgo ueSecCap 1 V.integrityAlgos = 0 then none
  else some (selectAlgo ueSecCap 0 V.cipheringAlgos, selectAlgo ueSecCap 1 V.integrityAlgos)

/-- `chooseNewNGKSI`: the least of 0 to 6 that the UE did not name, that is not in use, and that
is not excluded besides. -/
def chooseNewNGKSI (nasKSI : Nat) (sec : SecurityCtx) (alsoExclude : List Nat) : Nat :=
  let excluded (i : Nat) : Bool :=
    (nasKSI < 7 && nasKSI == i) ||
      (sec.activated && sec.ngksiAssigned && sec.ngksi < 7 && sec.ngksi == i) ||
      alsoExclude.contains i
  ((List.range 7).find? fun i => !excluded i).getD 0

/-- `canReuseCachedContext`. -/
def canReuseCachedContext (existing : SecurityCtx) (ueNGKSI : Nat) : Bool :=
  existing.authDone && !existing.kamf.isEmpty && existing.ngksi ≤ 6 && existing.ngksi == ueNGKSI

end MmtCore.Amf
