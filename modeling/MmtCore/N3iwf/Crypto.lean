import MmtCore.N3iwf.Ikev2

/-!
# Keys and the Encrypted payload

Diffie-Hellman, the key derivations and the SK payload of the `ikev2` package.  The hash functions
and the block cipher are parameters (`Crypto`); all that is assumed of them is a length.
-/

namespace MmtCore.N3iwf

open List Option

open MmtCore.Pfcp (beNat beBytes)

/-- HMAC over the two hashes, key first, and AES in CBC mode: key, IV, text. -/
structure Crypto where
  hmacSHA1 : Bytes → Bytes → Bytes
  hmacSHA256 : Bytes → Bytes → Bytes
  aesCBCEncrypt : Bytes → Bytes → Bytes → Bytes
  aesCBCDecrypt : Bytes → Bytes → Bytes → Bytes
  hmacSHA256_length : ∀ key data, (hmacSHA256 key data).length = 32

/-! ## Diffie-Hellman -/

/-- A group: its prime and the number of octets in it.  The generator is 2. -/
structure DH where
  groupID : UInt16
  prime : Nat
  primeLen : Nat
deriving DecidableEq

/-- A number from its 64-bit words, the highest first. -/
def ofWords (ws : List Nat) : Nat := ws.foldl (fun n w => n * 2 ^ 64 + w) 0

def modp2048P : Nat :=
  ofWords
    [0xFFFFFFFFFFFFFFFF, 0xC90FDAA22168C234, 0xC4C6628B80DC1CD1, 0x29024E088A67CC74,
     0x020BBEA63B139B22, 0x514A08798E3404DD, 0xEF9519B3CD3A431B, 0x302B0A6DF25F1437,
     0x4FE1356D6D51C245, 0xE485B576625E7EC6, 0xF44C42E9A637ED6B, 0x0BFF5CB6F406B7ED,
     0xEE386BFB5A899FA5, 0xAE9F24117C4B1FE6, 0x49286651ECE45B3D, 0xC2007CB8A163BF05,
     0x98DA48361C55D39A, 0x69163FA8FD24CF5F, 0x83655D23DCA3AD96, 0x1C62F356208552BB,
     0x9ED529077096966D, 0x670C354E4ABC9804, 0xF1746C08CA18217C, 0x32905E462E36CE3B,
     0xE39E772C180E8603, 0x9B2783A2EC07A28F, 0xB5C55DF06F4C52C9, 0xDE2BCBF695581718,
     0x3995497CEA956AE5, 0x15D2261898FA0510, 0x15728E5A8AACAA68, 0xFFFFFFFFFFFFFFFF]

def modp3072P : Nat :=
  ofWords
    [0xFFFFFFFFFFFFFFFF, 0xC90FDAA22168C234, 0xC4C6628B80DC1CD1, 0x29024E088A67CC74,
     0x020BBEA63B139B22, 0x514A08798E3404DD, 0xEF9519B3CD3A431B, 0x302B0A6DF25F1437,
     0x4FE1356D6D51C245, 0xE485B576625E7EC6, 0xF44C42E9A637ED6B, 0x0BFF5CB6F406B7ED,
     0xEE386BFB5A899FA5, 0xAE9F24117C4B1FE6, 0x49286651ECE45B3D, 0xC2007CB8A163BF05,
     0x98DA48361C55D39A, 0x69163FA8FD24CF5F, 0x83655D23DCA3AD96, 0x1C62F356208552BB,
     0x9ED529077096966D, 0x670C354E4ABC9804, 0xF1746C08CA18217C, 0x32905E462E36CE3B,
     0xE39E772C180E8603, 0x9B2783A2EC07A28F, 0xB5C55DF06F4C52C9, 0xDE2BCBF695581718,
     0x3995497CEA956AE5, 0x15D2261898FA0510, 0x15728E5A8AAAC42D, 0xAD33170D04507A33,
     0xA85521ABDF1CBA64, 0xECFB850458DBEF0A, 0x8AEA71575D060C7D, 0xB3970F85A6E1E4C7,
     0xABF5AE8CDB0933D7, 0x1E8C94E04A25619D, 0xCEE3D2261AD2EE6B, 0xF12FFA06D98A0864,
     0xD87602733EC86A64, 0x521F2B18177B200C, 0xBBE117577A615D6C, 0x770988C0BAD946E2,
     0x08E24FA074E5AB31, 0x43DB5BFCE0FD108E, 0x4B82D120A93AD2CA, 0xFFFFFFFFFFFFFFFF]

/-- `NewDH`. -/
def newDH (groupID : UInt16) : Option DH :=
  if groupID = dhMODP2048 then
    some { groupID := groupID, prime := modp2048P, primeLen := 256 }
  else if groupID = dhMODP3072 then
    some { groupID := groupID, prime := modp3072P, primeLen := 384 }
  else none

/-- `Exp` modulo a number, one bit of the exponent a turn, the highest first. -/
def expMod (b m : Nat) : Nat → Nat → Nat
  | 0, _ => 1 % m
  | bits + 1, e =>
    let r := expMod b m bits (e / 2)
    if e % 2 = 1 then r * r % m * b % m else r * r % m

/-- The lowest `n` octets of a number, put before others. -/
def padLoop : Nat → Nat → Bytes → Bytes
  | 0, _, acc => acc
  | n + 1, x, acc => padLoop n (x / 256) (UInt8.ofNat x :: acc)

/-- `padBE`. -/
def DH.padBE (d : DH) (x : Nat) : Bytes := padLoop d.primeLen x []

/-- `Exp` modulo the prime. -/
def DH.exp (d : DH) (b e : Nat) : Nat := expMod b d.prime (e.log2 + 1) e

/-- `GenerateLocal`, from the exponent drawn: the private and the public value. -/
def DH.generateLocal (d : DH) (priv : Nat) : Bytes × Bytes :=
  (d.padBE priv, d.padBE (d.exp 2 priv))

/-- `SharedSecret`. -/
def DH.sharedSecret (d : DH) (myPriv peerPub : Bytes) : Option Bytes :=
  if myPriv.isEmpty ∨ peerPub.isEmpty then none
  else
    let pub := beNat peerPub
    if pub = 0 ∨ d.prime ≤ pub then none
    else if pub = 1 ∨ pub = d.prime - 1 then none
    else some (d.padBE (d.exp pub (beNat myPriv)))

/-! ## The pseudo-random functions -/

inductive PRF
  | hmacSHA1 | hmacSHA256
deriving DecidableEq

/-- `NewPRF`. -/
def newPRF (id : UInt16) : Option PRF :=
  if id = prfHMACSHA1 then some .hmacSHA1
  else if id = prfHMACSHA256 then some .hmacSHA256
  else none

/-- The length of the output. -/
def PRF.out : PRF → Nat
  | .hmacSHA1 => 20
  | .hmacSHA256 => 32

variable (crypto : Crypto)

/-- `PRF.PRF`. -/
def PRF.prf (p : PRF) (key data : Bytes) : Bytes :=
  match p with
  | .hmacSHA1 => crypto.hmacSHA1 key data
  | .hmacSHA256 => crypto.hmacSHA256 key data

/-- The loop of `PRFPlus`: the blocks `i`, `i + 1`, …, each computed from the one before. -/
def PRF.blocks (p : PRF) (key seed : Bytes) : Nat → Nat → Bytes → Bytes
  | 0, _, _ => []
  | fuel + 1, i, t =>
    let t' := p.prf crypto key (t ++ seed ++ [UInt8.ofNat i])
    t' ++ p.blocks key seed fuel (i + 1) t'

/-- `PRFPlus`: `n` bytes. -/
def PRF.prfPlus (p : PRF) (key seed : Bytes) (n : Nat) : Option Bytes :=
  if 255 * p.out < n then none
  else some ((p.blocks crypto key seed ((n + p.out - 1) / p.out) 1 []).take n)

structure IKESAKeys where
  skD : Bytes
  skAi : Bytes
  skAr : Bytes
  skEi : Bytes
  skEr : Bytes
  skPi : Bytes
  skPr : Bytes
deriving DecidableEq

/-- `DeriveIKESAKeys`. -/
def PRF.deriveIKESAKeys (p : PRF) (ni nr gIR : Bytes) (spiI spiR : UInt64)
    (integKeyLen encrKeyLen : Nat) : Option IKESAKeys :=
  if ni.isEmpty ∨ nr.isEmpty ∨ gIR.isEmpty then none
  else
    let skeyseed := p.prf crypto (ni ++ nr) gIR
    let seed := ni ++ nr ++ beBytes 8 spiI.toNat ++ beBytes 8 spiR.toNat
    let total := p.out + 2 * integKeyLen + 2 * encrKeyLen + 2 * p.out
    (p.prfPlus crypto skeyseed seed total).map fun stream =>
      let s₁ := stream.drop p.out
      let s₂ := s₁.drop integKeyLen
      let s₃ := s₂.drop integKeyLen
      let s₄ := s₃.drop encrKeyLen
      let s₅ := s₄.drop encrKeyLen
      { skD := stream.take p.out
        skAi := s₁.take integKeyLen
        skAr := s₂.take integKeyLen
        skEi := s₃.take encrKeyLen
        skEr := s₄.take encrKeyLen
        skPi := s₅.take p.out
        skPr := (s₅.drop p.out).take p.out }

structure ChildSAKeys where
  skEi : Bytes
  skAi : Bytes
  skEr : Bytes
  skAr : Bytes
deriving DecidableEq

/-- `DeriveChildSAKeys`; `gIRNew` is empty without a new Diffie-Hellman exchange. -/
def PRF.deriveChildSAKeys (p : PRF) (skD ni nr gIRNew : Bytes) (encrKeyLen integKeyLen : Nat) :
    Option ChildSAKeys :=
  if skD.isEmpty ∨ ni.isEmpty ∨ nr.isEmpty then none
  else if encrKeyLen = 0 ∧ integKeyLen = 0 then none
  else
    (p.prfPlus crypto skD (gIRNew ++ ni ++ nr) (2 * encrKeyLen + 2 * integKeyLen)).map
      fun stream =>
        let s₁ := stream.drop encrKeyLen
        let s₂ := s₁.drop integKeyLen
        { skEi := stream.take encrKeyLen
          skAi := s₁.take integKeyLen
          skEr := s₂.take encrKeyLen
          skAr := (s₂.drop encrKeyLen).take integKeyLen }

/-! ## The Encrypted payload -/

/-- `CipherSuite`: AES-CBC with HMAC-SHA-256-128, the only suite the handlers build. -/
structure CipherSuite where
  encrKey : Bytes
  integKey : Bytes
deriving DecidableEq

def blockSize : Nat := 16
def icvLen : Nat := 16

/-- `NewAESCBC_HMACSHA256_128`. -/
def newCipherSuite (encKey integKey : Bytes) : Option CipherSuite :=
  if encKey.length ≠ 16 ∧ encKey.length ≠ 24 ∧ encKey.length ≠ 32 then none
  else if integKey.length ≠ 32 then none
  else some { encrKey := encKey, integKey := integKey }

/-- The checksum over a message up to the ICV. -/
def CipherSuite.icv (c : CipherSuite) (authenticated : Bytes) : Bytes :=
  (crypto.hmacSHA256 c.integKey authenticated).take icvLen

/-- `EncryptedMessage` with no preceding payloads; `iv` is the IV drawn. -/
def CipherSuite.encryptedMessage (c : CipherSuite) (hdr : Header) (innerPayloads : List Payload)
    (iv : Option Bytes) : Option Bytes :=
  if innerPayloads.isEmpty then none
  else
    let innerBytes := marshalPayloads innerPayloads
    let padLen := (blockSize - (innerBytes.length + 1) % blockSize) % blockSize
    let plaintext := innerBytes ++ List.replicate padLen 0 ++ [UInt8.ofNat padLen]
    iv.map fun iv =>
      let ciphertext := crypto.aesCBCEncrypt c.encrKey iv plaintext
      let skPayloadLen := payloadHeaderLen + (iv.length + ciphertext.length + icvLen)
      let hdr' : Header :=
        { hdr with
          nextPayload := payloadSK
          length := UInt32.ofNat (headerLen + skPayloadLen) }
      let authenticated := marshalHeader hdr' ++ [firstType innerPayloads, 0] ++
        beBytes 2 skPayloadLen ++ iv ++ ciphertext
      authenticated ++ c.icv crypto authenticated

/-- The search of `DecryptMessage` for the SK payload: what precedes it from the first payload
header on, its generic header and its body. -/
def findSK : Nat → Bytes → UInt8 → Bytes → Option (Bytes × Bytes × Bytes)
  | 0, _, _, _ => none
  | fuel + 1, buf, curType, preceding =>
    if curType = payloadNone then none
    else if buf.length < payloadHeaderLen then none
    else
      let plLen := buf.beAt 2 2
      if plLen < payloadHeaderLen ∨ buf.length < plLen then none
      else if curType = payloadSK then
        some (preceding, buf.take payloadHeaderLen, (buf.take plLen).drop payloadHeaderLen)
      else findSK fuel (buf.drop plLen) (buf.getD 0 0) (preceding ++ buf.take plLen)

/-- `DecryptMessage`, what it answers of the inner payloads; the header was parsed before. -/
def CipherSuite.decryptMessage (c : CipherSuite) (msg : Bytes) : Option (List Payload) :=
  if msg.length < headerLen + payloadHeaderLen then none
  else
    match parseHeader msg with
    | none => none
    | some hdr =>
      if hdr.length.toNat ≠ msg.length then none
      else
        match findSK (msg.length + 1) (msg.drop headerLen) hdr.nextPayload [] with
        | none => none
        | some (preceding, skGenericHeader, skBody) =>
          if skBody.length < blockSize + icvLen then none
          else
            let iv := skBody.take blockSize
            let ct := (skBody.take (skBody.length - icvLen)).drop blockSize
            let icv := skBody.drop (skBody.length - icvLen)
            if ct.length % blockSize ≠ 0 then none
            else if c.icv crypto (msg.take headerLen ++ preceding ++ skGenericHeader ++ iv ++ ct)
                ≠ icv then none
            else
              let pt := crypto.aesCBCDecrypt c.encrKey iv ct
              match pt.getLast? with
              | none => none
              | some padLen =>
                if pt.length < padLen.toNat + 1 then none
                else
                  parsePayloads (pt.take (pt.length - padLen.toNat - 1))
                    (skGenericHeader.getD 0 0)

/-! ## Proposals -/

/-- `hasKeyLength`. -/
def hasKeyLength (t : Transform) (bits : UInt16) : Bool :=
  t.attributes.any fun a => a.type == attrKeyLength && a.isTV && a.tvValue == bits

/-- `getTransformID`. -/
def getTransformID (p : Proposal) (tt : UInt8) : UInt16 :=
  ((p.transforms.find? (·.type == tt)).map (·.id)).getD 0

/-- `encrKeyLenForProposal`: the first key length of an ENCR transform, in octets. -/
def encrKeyLenForProposal (p : Proposal) : Nat :=
  let attrs := ((p.transforms.filter (·.type == transformENCR)).map (·.attributes)).flatten
  ((attrs.find? fun a => a.type == attrKeyLength && a.isTV).map (·.tvValue.toNat / 8)).getD 0

/-- `integKeyLen`. -/
def integKeyLen (id : UInt16) : Nat :=
  if id = integHMACSHA256_128 then 32
  else if id = integHMACSHA1_96 then 20
  else 0

/-- The transform of a type that `matched` ends up with: the last one with the wanted id. -/
def matchedTransform (p : Proposal) (tt : UInt8) (id : UInt16) : Option Transform :=
  (p.transforms.filter fun t => t.type == tt && t.id == id).getLast?

/-- One proposal of `pickAcceptableProposal`. -/
def acceptableProposal (p : Proposal) : Option Proposal :=
  if p.protocolID ≠ protocolIKE then none
  else
    match matchedTransform p transformENCR encrAESCBC,
        matchedTransform p transformPRF prfHMACSHA256,
        matchedTransform p transformINTEG integHMACSHA256_128,
        matchedTransform p transformDH dhMODP2048 with
    | some encr, some prf, some integ, some dh =>
      if !hasKeyLength encr 256 then none
      else some
        { num := p.num, protocolID := protocolIKE, spi := [], transforms := [encr, prf, integ, dh] }
    | _, _, _, _ => none

/-- `pickAcceptableProposal`. -/
def pickAcceptableProposal (sa : List Proposal) : Option Proposal :=
  sa.findSome? acceptableProposal

/-- One proposal of `pickAcceptableESPProposal`. -/
def acceptableESPProposal (p : Proposal) : Option Proposal :=
  if p.protocolID ≠ protocolESP then none
  else
    match matchedTransform p transformENCR encrAESCBC,
        matchedTransform p transformINTEG integHMACSHA256_128 with
    | some encr, some integ =>
      if !hasKeyLength encr 256 then none
      else
        let esn := (p.transforms.find? (·.type == transformESN)).getD
          { type := transformESN, id := esnNone, attributes := [] }
        let dh := (p.transforms.find? (·.type == transformDH)).toList
        some
          { num := p.num, protocolID := protocolESP, spi := p.spi
            transforms := [encr, integ, esn] ++ dh }
    | _, _ => none

/-- `pickAcceptableESPProposal`. -/
def pickAcceptableESPProposal (sa : List Proposal) : Option Proposal :=
  sa.findSome? acceptableESPProposal

/-! ## Lengths -/

section Lengths

@[simp] theorem beBytes_length (n v : Nat) : (beBytes n v).length = n := by
  induction n generalizing v with
  | zero => rfl
  | succ n ih => simp [beBytes, ih]

theorem padLoop_length (n x : Nat) (acc : Bytes) :
    (padLoop n x acc).length = n + acc.length := by
  induction n generalizing x acc with
  | zero => simp [padLoop]
  | succ n ih =>
    rw [padLoop, ih, length_cons]
    omega

theorem PRF.blocks_length (key seed : Bytes) (fuel i : Nat) (t : Bytes) :
    (PRF.hmacSHA256.blocks crypto key seed fuel i t).length = 32 * fuel := by
  induction fuel generalizing i t with
  | zero => rfl
  | succ fuel ih =>
    simp only [PRF.blocks, length_append, ih, PRF.prf, crypto.hmacSHA256_length]
    omega

variable {n encrKeyLen : Nat}

/-- Within its limit, `prf+` answers with as many octets as are asked for. -/
theorem PRF.prfPlus_sha256 (key seed : Bytes) (hn : n ≤ 255 * 32) :
    ∃ stream, PRF.hmacSHA256.prfPlus crypto key seed n = some stream ∧ stream.length = n := by
  refine ⟨_, if_neg (show ¬ 255 * PRF.hmacSHA256.out < n from Nat.not_lt.2 hn), ?_⟩
  simp only [length_take, PRF.blocks_length, PRF.out]
  omega

/-- `prf+` answers within its limit only. -/
theorem PRF.prfPlus_length {key seed stream : Bytes}
    (h : PRF.hmacSHA256.prfPlus crypto key seed n = some stream) : stream.length = n := by
  have hn : n ≤ 255 * 32 := by
    unfold PRF.prfPlus at h
    split at h
    · cases h
    case isFalse hlt => exact Nat.not_lt.1 hlt
  obtain ⟨stream', hstream, hlen⟩ := PRF.prfPlus_sha256 crypto key seed hn
  rw [hstream] at h
  cases h
  exact hlen

/-- What IKE SA keys that derive say about what they derive from. -/
theorem PRF.deriveIKESAKeys_eq_some {ni nr gIR : Bytes} {spiI spiR : UInt64} {integKeyLen : Nat}
    {keys : IKESAKeys}
    (h : PRF.hmacSHA256.deriveIKESAKeys crypto ni nr gIR spiI spiR integKeyLen encrKeyLen
      = some keys) : nr ≠ [] ∧ keys.skEi.length = encrKeyLen := by
  unfold PRF.deriveIKESAKeys at h
  grind [length_take, length_drop, map_eq_some_iff, PRF.prfPlus_length]

/-- The IKE SA keys derive, and have the lengths of the two cipher keys. -/
theorem PRF.deriveIKESAKeys_sha256 {ni nr gIR : Bytes} (hni : ni ≠ []) (hnr : nr ≠ [])
    (hg : gIR ≠ []) (spiI spiR : UInt64) (hlen : encrKeyLen ≤ 32) :
    ∃ keys, PRF.hmacSHA256.deriveIKESAKeys crypto ni nr gIR spiI spiR 32 encrKeyLen = some keys ∧
      keys.skEi.length = encrKeyLen ∧ keys.skEr.length = encrKeyLen ∧
      keys.skAi.length = 32 ∧ keys.skAr.length = 32 := by
  have hne : ¬ ((ni.isEmpty = true) ∨ (nr.isEmpty = true) ∨ (gIR.isEmpty = true)) := by
    simp [hni, hnr, hg]
  unfold PRF.deriveIKESAKeys
  rw [if_neg hne]
  obtain ⟨stream, hstream, hslen⟩ := PRF.prfPlus_sha256 crypto
    (PRF.hmacSHA256.prf crypto (ni ++ nr) gIR)
    (ni ++ nr ++ beBytes 8 spiI.toNat ++ beBytes 8 spiR.toNat)
    (n := PRF.hmacSHA256.out + 2 * 32 + 2 * encrKeyLen + 2 * PRF.hmacSHA256.out)
    (by simp only [PRF.out]; omega)
  simp only [PRF.out] at hstream hslen
  simp only [PRF.out, hstream, map_some, some.injEq, exists_eq_left']
  simp only [length_take, length_drop, hslen]
  omega

end Lengths

/-! ## What the codec keeps -/

/-- The transforms of an accepted IKE proposal are those the code asks for. -/
theorem acceptableProposal_transforms {p q : Proposal} (h : acceptableProposal p = some q) :
    getTransformID q transformPRF = prfHMACSHA256 ∧
      getTransformID q transformINTEG = integHMACSHA256_128 ∧
      getTransformID q transformDH = dhMODP2048 := by
  have hmem : ∀ {tt : UInt8} {id : UInt16} {t : Transform},
      matchedTransform p tt id = some t → t.type = tt ∧ t.id = id := by
    intro tt id t ht
    have hmem := mem_of_getLast? ht
    simpa using (mem_filter.1 hmem).2
  unfold acceptableProposal at h
  split at h
  · cases h
  · split at h
    case h_2 => cases h
    case h_1 encr prf integ dh hencr hprf hinteg hdh =>
      split at h
      · cases h
      · cases h
        obtain ⟨he, -⟩ := hmem hencr
        obtain ⟨hp, hpid⟩ := hmem hprf
        obtain ⟨hi, hiid⟩ := hmem hinteg
        obtain ⟨hd, hdid⟩ := hmem hdh
        simp [getTransformID, he, hp, hi, hd, hpid, hiid, hdid, transformENCR, transformPRF,
          transformINTEG, transformDH]

end MmtCore.N3iwf
