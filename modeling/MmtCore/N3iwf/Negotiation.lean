import MmtCore.N3iwf.Index

/-!
# Negotiation

Which IKE_SA_INIT requests are carried out to the end, and what they write.
-/

namespace MmtCore.N3iwf

open MmtCore.Pfcp (beNat beBytes)

/-- A request that negotiates: the draws succeed, the public value of the peer is in range, and the
first key length of the cipher is one of AES. -/
structure Negotiable (chosen : Proposal) (keIn : KE) (d : Draws) : Prop where
  spir : ∃ spir, d.spir = some spir
  nonce : ∃ nr, d.nonce = some nr ∧ nr ≠ []
  shared : ∀ dh, newDH keIn.dhGroup = some dh → ∃ priv gIR, d.dhPriv = some priv ∧
    dh.sharedSecret (dh.generateLocal priv).1 keIn.pub = some gIR
  keyLen : encrKeyLenForProposal chosen = 16 ∨ encrKeyLenForProposal chosen = 24 ∨
    encrKeyLenForProposal chosen = 32

variable {crypto : Crypto} {msg : Bytes} {hdr : Header} {chosen : Proposal} {keIn : KE}
  {nonceIn : Bytes} {d : Draws}

/-- What the checks of an accepted request say about it. -/
theorem InitAccepted.spec (hacc : InitAccepted msg hdr chosen keIn nonceIn) :
    getTransformID chosen transformPRF = prfHMACSHA256 ∧
      getTransformID chosen transformINTEG = integHMACSHA256_128 ∧
      keIn.dhGroup = dhMODP2048 ∧ nonceIn ≠ [] := by
  have hread := hacc.reads
  unfold readIKESAInit at hread
  split at hread
  · cases hread
  split at hread
  case h_2 => cases hread
  case h_1 sa ke nonce _ _ _ =>
    split at hread
    case h_2 => cases hread
    case h_1 saIn keIn' nonceIn' _ _ hnonce =>
      split at hread
      · cases hread
      case h_2 chosen' hpick =>
        split at hread
        · cases hread
        case isFalse hgroup =>
          cases hread
          obtain ⟨p, -, hp⟩ := List.exists_of_findSome?_eq_some hpick
          grind [parseNonce, acceptableProposal_transforms]

theorem sharedSecret_ne_nil {dh : DH} {priv pub gIR : Bytes} (hlen : dh.primeLen ≠ 0)
    (h : dh.sharedSecret priv pub = some gIR) : gIR ≠ [] := by
  grind [DH.padBE, padLoop_length, DH.sharedSecret]

/-- Every negotiation writes the SPI of the initiator first. -/
theorem negotiate_ikeInitiator {ike ike' : IKESA} {r : Negotiated}
    (hneg : ike.negotiate crypto hdr msg chosen keIn nonceIn d = (ike', r)) :
    ike'.ikeInitiator = hdr.spii := by
  have hfst : (ike.negotiate crypto hdr msg chosen keIn nonceIn d).1.ikeInitiator = hdr.spii := by
    unfold IKESA.negotiate
    split
    · rfl
    split
    · rfl
    split
    · rfl
    split
    · rfl
    grind
  rwa [hneg] at hfst

/-- An accepted request that negotiates is carried out to the end. -/
theorem negotiate_done (crypto : Crypto) (hacc : InitAccepted msg hdr chosen keIn nonceIn)
    (hneg : Negotiable chosen keIn d) (ike : IKESA) :
    ∃ ike' spir pub nr,
      ike.negotiate crypto hdr msg chosen keIn nonceIn d = (ike', .done spir pub nr) := by
  obtain ⟨hprf, hinteg, hgroup, hnonce⟩ := hacc.spec
  obtain ⟨spir, hspir⟩ := hneg.spir
  obtain ⟨nr, hnr, hnrne⟩ := hneg.nonce
  have hdh : newDH keIn.dhGroup =
      some { groupID := dhMODP2048, prime := modp2048P, primeLen := 256 } := by
    rw [hgroup]
    rfl
  obtain ⟨priv, gIR, hpriv, hshared⟩ := hneg.shared _ hdh
  have hgne : gIR ≠ [] := sharedSecret_ne_nil (by decide) hshared
  have hle : encrKeyLenForProposal chosen ≤ 32 := by
    have hlen := hneg.keyLen
    omega
  obtain ⟨keys, hkeys, hei, her, hai, har⟩ := PRF.deriveIKESAKeys_sha256 crypto hnonce hnrne hgne
    hdr.spii spir hle
  have hsuite : ∀ {ke ka : Bytes}, ke.length = encrKeyLenForProposal chosen → ka.length = 32 →
      newCipherSuite ke ka = some { encrKey := ke, integKey := ka } := by
    intro ke ka hke hka
    have hlen := hneg.keyLen
    unfold newCipherSuite
    rw [if_neg (by omega), if_neg (by omega)]
  have hbind : (newPRF prfHMACSHA256).bind (fun prf =>
      prf.deriveIKESAKeys crypto nonceIn nr gIR hdr.spii spir (integKeyLen integHMACSHA256_128)
        (encrKeyLenForProposal chosen)) = some keys := hkeys
  simp_all [IKESA.negotiate]

/-- An accepted request that is carried out to the end negotiates. -/
theorem negotiable_of_done (hacc : InitAccepted msg hdr chosen keIn nonceIn) {ike ike' : IKESA}
    {spir : UInt64} {pub nr : Bytes}
    (h : ike.negotiate crypto hdr msg chosen keIn nonceIn d = (ike', .done spir pub nr)) :
    Negotiable chosen keIn d := by
  obtain ⟨hprf, hinteg, hgroup, -⟩ := hacc.spec
  unfold IKESA.negotiate at h
  dsimp only at h
  split at h
  · cases h
  case h_2 spir' hspir =>
    split at h
    · cases h
    case h_2 dh hdh =>
      split at h
      · cases h
      case h_2 priv pub' hpair =>
        split at h
        · cases h
        case h_2 gIR hshared =>
          split at h
          · cases h
          case h_2 nr' hnr =>
            rw [hprf] at h
            split at h
            · cases h
            case h_2 keys hkeys =>
              obtain ⟨hnrne, hlen⟩ := PRF.deriveIKESAKeys_eq_some crypto hkeys
              split at h
              · cases h
              split at h
              · cases h
              case h_2 suiteI hsuite =>
                obtain ⟨priv', hpriv, hgen⟩ := Option.map_eq_some_iff.1 hpair
                refine ⟨⟨spir', hspir⟩, ⟨nr', hnr, hnrne⟩, ?_, ?_⟩
                · intro dh' hdh'
                  rw [hdh] at hdh'
                  cases hdh'
                  exact ⟨priv', gIR, hpriv, by rw [hgen]; exact hshared⟩
                · rw [← hlen]
                  unfold newCipherSuite at hsuite
                  split at hsuite
                  · cases hsuite
                  case isFalse hsize => omega

/-! ## A sample exchange

One UE from IKE_SA_INIT to the first child SA after the signalling SA.  `sampleCrypto` tabulates
HMAC-SHA-256 and AES-256 in CBC mode on what the exchange computes: a hash by two octets each of the
end of the key, the length of the data and its end, a ciphertext by the first octet of the IV. -/

def hmacTable : List (Nat × Nat) :=
  [(0x222201000004, 0x146384645C60D09F866815325274BD90B812A39E4480AA1CD558CE0E20E9E7C1),
   (0xE7C100410A01, 0xB5114730F2017D66C77B227F72AFA743F92F0809CBDC93063D69E79781FAA65B),
   (0xE7C100610A02, 0xB19D7E7D82C8DA1A66F8AD53A589791D37A17B4E876A78D58A441FCC47980A49),
   (0xE7C100610A03, 0xA62DBE173874BDDF27BC351FB9D336CEFB37A24007EEB4301E35204D61B0E733),
   (0xE7C100610A04, 0xFF5C261FB2ED5918DC6B8FCA8EAE570130C9ED273F7427AF4F712CB1256CAAD6),
   (0xE7C100610A05, 0xA6245A9F4DD255B4B566277749494A1B7995AB92C37054DFCA599F622598B211),
   (0xE7C100610A06, 0x3BC89FDC90AE5A8DEF1FC1469A66886047FC1F2B55062A85C3D4B7B6674C6989),
   (0xE7C100610A07, 0x77357610F7929BCEE4BC15C8FE2DCA5A5B73B0C888CD510F5CE5E3DBBCE019CA),
   (0x333301000004, 0xA19ADA762E270730CBE9B110FD279E869E8DB97E0D5AC3C7042A431126FCFDE1),
   (0xFDE100410B01, 0x51A0895AB48C98FA0D08D53B01F5330CA84650857A43F540FB15A1FFBF7A45D2),
   (0xFDE100610B02, 0x037906030770A18A7298EF0101E9DA3F66B6673D86ABF3301910C75CBAAE2A75),
   (0xFDE100610B03, 0x6C655219A67164F058FBB12AF333368037EA1AF1ECF432D7FEAAC7BDAAD42E67),
   (0xFDE100610B04, 0xA104E4DB40AF23E0FD4F8B2EA79C420BF788CFE71814848D3162291137D74831),
   (0xFDE100610B05, 0x5E939E574696992368F0B1F5354E8556BA4C8B21A3646C2BCCCB6D61D55AE92B),
   (0xFDE100610B06, 0xED1E1A781A6673ABF152C2B647C4F055A6F81D6167E2563B0F4BB81D26A60EDF),
   (0xFDE100610B07, 0xF9276D2242331D98BA09709EC580FD63C10DE1A5E20D19230B6CAC544FE51C7F),
   (0xFDE100410C01, 0xC5CF4585B6464BF7AE5875CFAD7916D8D0346BA0EFAE74F9D7A26A9E6EA4DF8F),
   (0xFDE100610C02, 0x6F80140817B0879DDB625DA435A0CE9E72D88F55E49EB63221D80313EDF81A28),
   (0xFDE100610C03, 0x5FCC98FE13D7035BA8E260D3DB64BA8DD44AAD24802995F620D4C5F3929BA46F),
   (0xFDE100610C04, 0x67261708306996AE216B678CF25EA3E467FF1C03220EA33110B1BB431037A4BC),
   (0xFDE100610C05, 0xB99EE884158C173FC82BA2E5A254EAE8E2700AF7FF4BB701A5A7A1393A39EF7A),
   (0xFDE100610C06, 0xAF9047820DC3996C560AF5AC5ECEE9BFADDD3E772E7B8982B3A8501B4F7EA3B3),
   (0xFDE100610C07, 0x34965B259A6411921D82BC75E661FAF7DCA9284E98BF9846C0DDD1235FE377E1),
   (0x0A49004075AF, 0xF2A003FB2F95A06A690112AA76D900BF67AB3F1020F7DC9761B46E1740E1B17A),
   (0xE7330050007A, 0x8B8342471D70797C24C21F2A8DBCB43165358B15C693F8F46EBFCA7C8ED340C6),
   (0x0A49005063FE, 0x8EC88D7DB8E01C9939ECE70AEA4A21F2F36C9E89FA8C1FCD406DB0C6C04A5A9A),
   (0xE73300404B39, 0x26953DBA063EE14F11FEDED0C31E069F065AEDE1DC7C9209038B99F8F76559E6),
   (0x444400117632, 0x0552EEC715A4DDF7FA3D1DC85E402376916106079DF1B9555277005EA0423AC2),
   (0x698900067565, 0x57186A37F8658B12E7CC1C6DAED19565223796AE8115B9F0376F0CEF48ED44B6),
   (0x3AC201A844B6, 0xFC8D3E9DB15023D9404EB6B75B6C2E055CBCE9663CF6E491762960A97A16F12C),
   (0x0A4900C0ABF4, 0xBB5A743284A64EC05974F207A4D02907C1E697EABB61481BEE3988359C68D7DD),
   (0xA65B00312201, 0x7F2D971214BACC882854C7646F3CD83819C875BC84798664CB42ACF646BF16B9),
   (0xA65B00512202, 0xAF229DED45F89E0C21F4E9C3C5D8126FC2A151B656F5BB07BC17972D1D4412C7),
   (0xA65B00512203, 0xE3B832650F5981EC7AF904418D792D922EC9196DCC1DD6B7C3D3197098F528E5),
   (0xA65B00512204, 0xB4DCABC2D05CBF5A9141BDB194DEB602A836D8C379ABBD019449A4AD4D8AB475),
   (0x19CA00097766, 0xA67663C7DB2FA2DE68ACA074EE9EB44EE5F9F1713D8E04E12C1227BF208BE935),
   (0x3AC201A8E935, 0xB7CC2D8DB7B7C862BFEC882CA473CFF3588069FD7FE4354BC30DACFD0CAA6497),
   (0xE73300E078AE, 0xE58ACDA40042FDE010B72BD5E052D5D2FD6C5CDAAB513A943395C4FD055B5A81),
   (0x0A4900B0DB30, 0x309CBA57550BB1C9BFBAFFC1E1C98857108BB27FA8631897DABB504B0E9327F2),
   (0xA65B00316601, 0x3687795B7A95BFA784753D84CC77D63F3F110EE01757375B43B89FD77392CF8E),
   (0xA65B00516602, 0x9905132CAF581C966CEB9D17C4B9D44BA3E4667A0F795FE7AEF9149AE1E7EEC1),
   (0xA65B00516603, 0x9262D52DC9EAF4E73AA8F5A0B2FFEC0C88DE71D12FC677DACF6F949D6493C549),
   (0xA65B00516604, 0xD5BE25346463AB77A5D9DF99F5BD49967D4561CE8EEA068A0E847D9DF28DE2E7),
   (0xE73300C0800D, 0xC8D54EB08C949935BB5638422737EEF7A455F0AC0265FE2B406C97DAF8E6F186),
   (0xA65B00317701, 0xEAC7801F9D45DD04ABCBB04C157E373357D19AF9D81507F245991D212775DE38),
   (0xA65B00517702, 0x40EF8C5473B1C5E93779D2942FC0ACE089123DC8EED19A32E2F4066C44146F25),
   (0xA65B00517703, 0xF81F5B518A9BF5A72CE3A7556280EBFE14AAA4FFECF7E7F2C93C018E4973021B),
   (0xA65B00517704, 0xC8AA75D4AD305CB82044CFBD520D3E5E9865FE3A11F87C754C2AB7AECD588DDC),
   (0xE73300C01E8E, 0x3C9ECA37707537B796208AF973960B896F34444C42734B889CC018F440A952F2)]

def aesTable : List (UInt8 × Nat × List Nat) :=
  [(0xA1, 16,
     [0x7F6FECD792F2784A, 0xAE91BE326BA675AF]),
   (0xB1, 32,
     [0x03E65DA2D0A726B4, 0x24B12866380182A8, 0x06138E0ABB2D6EBF, 0x6EFE3FB081B6007A]),
   (0xA2, 32,
     [0x508996C08283CE66, 0x5631837BF7C2158D, 0xEC06C789A47B0EB8, 0x7D6A257D2ABB63FE]),
   (0xB2, 16,
     [0x9E0A34953FAA91DB, 0x9D27C496E3EE4B39]),
   (0xA3, 144,
     [0x584D01EF62039109, 0x3C70083791BC03F7, 0xB2C6AB4439EC62A4, 0x0309C42A869E39AD,
      0x25CEAE90E1B13746, 0x85FC1B874D8021E2, 0x59FCF0F200D6BC44, 0xE44A017839B81238,
      0xDB98EEB4C6C67C81, 0xB24B8A6924FA7D68, 0xA2946A051E11458E, 0x3069A16677E2345F,
      0x99BBAC6B6D24EF41, 0xD053CB8D1CF02959, 0xF046CEA088AF1EC3, 0x6B73AB18A3534DE9,
      0x278B0F5298519247, 0xE53C5CB592ADABF4]),
   (0xB3, 176,
     [0xEB422D0C75926A26, 0x242F7100F0B15156, 0xB3675FD55C49AF1C, 0x86E10F73AEA6236E,
      0xE07DAD12579AB4E1, 0xDC398F0232B8C876, 0x38C50FE413D718E5, 0x338E53D5861995A2,
      0x704E4E7C8E963848, 0x4102A7E8C729B68E, 0x1A48590EC950DE8F, 0x5A16E7F952F2AE17,
      0x22841E1F1A0D8459, 0x08EE6F5CF80B56FA, 0xCCA28AA13B4F2A4E, 0x36A67D04ADC3F657,
      0xF9D34AAA245CADEB, 0xBCEBF5302BA49648, 0x45B6CB55CA805CF5, 0x84FA6A704075BA55,
      0x695CB58782554CAE, 0x6E0669544FAA78AE]),
   (0xA4, 128,
     [0x9FA69485371F65C8, 0x97AF965FACBF324C, 0x9576A04630573CCF, 0xF6919D06CA39557C,
      0xB17AEC32CF5AEDDD, 0x9DE986A3D1245D89, 0x5094B2E30664A578, 0x5AF5018312175116,
      0x217D1EABBF8CBA2E, 0x3ABD742691828D0E, 0xD8EF7FC5B772BFC9, 0x972EA65A648EC35E,
      0x084CEB9B98A4F2D6, 0x6B8A2A9821FDBCAC, 0xEDBB534A56341209, 0xB87731BF9CA0DB30]),
   (0xB4, 144,
     [0x5C9023A92D37CD8F, 0xCA9584A3672E7856, 0x65B8B639751BD4ED, 0x0487B6DB04759EB6,
      0xA6564872A5918234, 0x443672FDD5AC359D, 0xED0A9898D4FAB13C, 0xAD31F58767F7EF70,
      0xFDD47939CBAD860D, 0x0CA82074628022F8, 0x6E61155A26008C8B, 0xD26E678176092BE8,
      0x4DE3DEE0C1D38A79, 0x2D3277D774675195, 0x8D3ED85F4C05AC60, 0xEBBE4F282B650CEB,
      0x33450087498E713B, 0xE0CC1FEFBBA6800D]),
   (0xB5, 144,
     [0x447C741B325FCF22, 0x7347996D14A886DE, 0xDD5D92FFA336B715, 0x012662E8CB24E789,
      0x11F488D77E60C4F2, 0xA526850DBAC4A6F1, 0x38168275B5D63D17, 0x1F010B8544F28349,
      0x9E2A25CBC92D953E, 0xFC60E3452D4925B0, 0xD6506543D91652D2, 0x93219C78EF7D5365,
      0x92BFC733F9E870C3, 0xC872E06D57AB0908, 0x3DD40411F3838FC8, 0xB5556A7378C9FB4B,
      0x407D7A0F0944570C, 0x66773274E1971E8E])]

def samplePad (pls : List Payload) : Bytes :=
  let inner := marshalPayloads pls
  let padLen := (blockSize - (inner.length + 1) % blockSize) % blockSize
  inner ++ List.replicate padLen 0 ++ [UInt8.ofNat padLen]

def sampleKeyLength : Attribute where
  type := attrKeyLength
  isTV := true
  value := []
  tvValue := 256

def sampleIKEProposal : Proposal where
  num := 1
  protocolID := protocolIKE
  spi := []
  transforms :=
    [{ type := transformENCR, id := encrAESCBC, attributes := [sampleKeyLength] },
     { type := transformPRF, id := prfHMACSHA256, attributes := [] },
     { type := transformINTEG, id := integHMACSHA256_128, attributes := [] },
     { type := transformDH, id := dhMODP2048, attributes := [] }]

def sampleESPProposal (spi : Nat) : Proposal where
  num := 1
  protocolID := protocolESP
  spi := beBytes 4 spi
  transforms :=
    [{ type := transformENCR, id := encrAESCBC, attributes := [sampleKeyLength] },
     { type := transformINTEG, id := integHMACSHA256_128, attributes := [] },
     { type := transformESN, id := esnNone, attributes := [] }]

/-- All of IPv4, any port. -/
def sampleTS : Bytes := [1, 0, 0, 0, 7, 0, 0, 16, 0, 0, 255, 255, 0, 0, 0, 0, 255, 255, 255, 255]

def sampleIDi : List Payload :=
  [Payload.of payloadIDi (TypedBody.marshal { type := 11, data := [0x75, 0x65] })]

/-- An EAP response with a NAS PDU and no AN parameters. -/
def sampleEAP : List Payload :=
  [Payload.of payloadEAP
    (fixedPrefix12 2 1 21 ++ [msgIDNAS, 0, 0, 0] ++ beBytes 2 3 ++ [0x7E, 0, 0x41])]

def sampleAUTH : List Payload :=
  [Payload.of payloadAUTH
     (TypedBody.marshal
       { type := authSharedKeyMIC
         data := beBytes 32 0xFC8D3E9DB15023D9404EB6B75B6C2E055CBCE9663CF6E491762960A97A16F12C }),
   Payload.of payloadSA (sampleESPProposal 0x1001).marshal,
   Payload.of payloadTSi sampleTS, Payload.of payloadTSr sampleTS]

def sampleChild : List Payload :=
  [Payload.of payloadSA (sampleESPProposal 0x1002).marshal,
   Payload.of payloadNonce (List.replicate 16 0x55),
   Payload.of payloadTSi sampleTS, Payload.of payloadTSr sampleTS]

def sampleCrypto : Crypto where
  hmacSHA1 _ _ := []
  hmacSHA256 key data :=
    match beNat (key.drop (key.length - 2)) * 2 ^ 32 + data.length * 2 ^ 16 +
        beNat (data.drop (data.length - 2)) with
    | 0 => beBytes 32 0
    | k + 1 => beBytes 32 ((hmacTable.lookup (k + 1)).getD 0)
  aesCBCEncrypt _ iv _ :=
    ((aesTable.lookup (iv.headD 0)).map fun (n, words) => beBytes n (ofWords words)).getD []
  aesCBCDecrypt _ iv _ :=
    match iv.headD 0 with
    | 0xA1 => samplePad sampleIDi
    | 0xA2 => samplePad sampleEAP
    | 0xA3 => samplePad sampleAUTH
    | 0xA4 => samplePad sampleChild
    | _ => []
  hmacSHA256_length _ _ := by
    split
    · exact beBytes_length ..
    · exact beBytes_length ..

/-- The IKE_SA_INIT request, under an SPI. -/
def sampleInit (spii : UInt64) : Bytes :=
  let pls :=
    [Payload.of payloadSA sampleIKEProposal.marshal,
     Payload.of payloadKE (KE.marshal { dhGroup := dhMODP2048, pub := padLoop 256 2 [] }),
     Payload.of payloadNonce (List.replicate 16 0x11)]
  let body := marshalPayloads pls
  marshalHeader
    { spii := spii, spir := 0, nextPayload := firstType pls, version := 0
      exchangeType := exchangeIKESAInit, flags := flagInitiator, messageID := 0
      length := UInt32.ofNat (headerLen + body.length) } ++ body

/-- SK_ei and SK_ai of the exchange. -/
def sampleSuite : CipherSuite where
  encrKey := beBytes 32 0xFF5C261FB2ED5918DC6B8FCA8EAE570130C9ED273F7427AF4F712CB1256CAAD6
  integKey := beBytes 32 0xB19D7E7D82C8DA1A66F8AD53A589791D37A17B4E876A78D58A441FCC47980A49

/-- A protected request of the UE. -/
def sampleRequest (exchangeType : UInt8) (messageID : UInt32) (inner : List Payload) (iv : UInt8) :
    Bytes :=
  (sampleSuite.encryptedMessage sampleCrypto
    { spii := 1, spir := 0x0A0A0A0A0A0A0A0A, nextPayload := 0, version := 0
      exchangeType := exchangeType, flags := flagInitiator, messageID := messageID, length := 0 }
    inner (some (List.replicate 16 iv))).getD []

def sampleDraws : Draws where
  spir := some 0x0A0A0A0A0A0A0A0A
  dhPriv := some 2
  nonce := some (List.replicate 32 0x22)
  espSPI := some 0x1000
  iv := some (List.replicate 16 0xB1)
  n2Up := true
  arrivals := []

/-- What is drawn for a second IKE_SA_INIT, under the SPI 2. -/
def sampleOtherDraws : Draws :=
  { sampleDraws with
    spir := some 0x0C0C0C0C0C0C0C0C
    nonce := some (List.replicate 32 0x33) }

/-- The UE at a port of its address. -/
def sampleAddr (port : UInt16) : UDPAddr where
  ip := List.replicate 10 0 ++ [0xFF, 0xFF, 192, 0, 2, 1]
  port := port

def sampleIKESAInit : Event := .datagram (sampleInit 1) (sampleAddr 500) sampleDraws

def sampleIdentity : Event :=
  .datagram (sampleRequest exchangeIKEAuth 1 sampleIDi 0xA1) (sampleAddr 500) sampleDraws

/-- The NAS PDU, which the AMF answers with a context and its key. -/
def sampleRound : Event :=
  .datagram (sampleRequest exchangeIKEAuth 2 sampleEAP 0xA2) (sampleAddr 500)
    { sampleDraws with
      iv := some (List.replicate 16 0xB2)
      arrivals := [.initialContextSetup 7 1 (List.replicate 32 0x44) [0x7E, 0, 0x42]] }

def sampleFinal : Event :=
  .datagram (sampleRequest exchangeIKEAuth 3 sampleAUTH 0xA3) (sampleAddr 500)
    { sampleDraws with iv := some (List.replicate 16 0xB3) }

def sampleRegistration : List Event := [sampleIKESAInit, sampleIdentity, sampleRound, sampleFinal]

/-- The request for a child SA; the SPI, the nonce and the IV of the answer. -/
def sampleCreateChildSA (espSPI : UInt32) (nonce iv : UInt8) : Event :=
  .datagram (sampleRequest exchangeCreateChildSA 4 sampleChild 0xA4) (sampleAddr 500)
    { sampleDraws with
      espSPI := some espSPI
      nonce := some (List.replicate 32 nonce)
      iv := some (List.replicate 16 iv) }

/-- The N3IWF of the exchange, with an AMF and the pool 10.45.0.0/24. -/
def sampleHandler : Handler :=
  newHandler ("n3iwf".toList.map fun c => UInt8.ofNat c.toNat) true (some (0x0A2D0000, 24))

section

variable {hdr : Header} {chosen : Proposal} {keIn : KE} {nonceIn : Bytes}
  (hacc : InitAccepted (sampleInit 1) hdr chosen keIn nonceIn)
include hacc

/-- What the sample request is read as. -/
theorem sampleInit_accepted :
    hdr.spii = 1 ∧ keIn.pub = padLoop 256 2 [] ∧ encrKeyLenForProposal chosen = 32 := by
  have hread : ((parseHeader (sampleInit 1)).map fun hdr => (hdr.spii,
      match readIKESAInit hdr (sampleInit 1) with
      | .accepted chosen keIn _ => some (keIn.pub, encrKeyLenForProposal chosen)
      | _ => none)) = some (1, some (padLoop 256 2 [], 32)) := by decide +kernel
  rw [hacc.parses, Option.map_some, hacc.reads] at hread
  simpa using hread

theorem sample_negotiable : Negotiable chosen keIn sampleDraws := by
  obtain ⟨-, hpub, hlen⟩ := sampleInit_accepted hacc
  refine ⟨⟨_, rfl⟩, ⟨_, rfl, by decide⟩, ?_, Or.inr (Or.inr hlen)⟩
  intro dh hdh
  rw [hacc.spec.2.2.1] at hdh
  cases hdh
  rw [hpub]
  exact ⟨2, _, rfl, Option.eq_some_of_isSome (by decide +kernel)⟩

end

end MmtCore.N3iwf
