import MmtCore.Amf.Run
import MmtCore.Pfcp.Header

/-!
# NAS protection there and back

What `unwrap` makes of a PDU that the UE protected, with `NEA2` (`sacrypto/nas.go`) over any block
cipher; and what a NAS message container is dispatched again as.
-/

namespace MmtCore.Amf

open UInt8 SecurityCtx

open MmtCore.Pfcp (beBytes)

/-! ## The cipher -/

def Direction.octet : Direction → Nat
  | .uplink => 0
  | .downlink => 1

/-- A block of the counter: the count, the bearer, the direction and the number of the block. -/
def counterBlock (count : Nat) (dir : Direction) (i : Nat) : Bytes :=
  beBytes 4 count ++ UInt8.ofNat (8 + 4 * dir.octet) :: beBytes 11 i

/-- `NEA2`: AES in counter mode on the default bearer. -/
def NEA2 (aes : Bytes → Bytes → Bytes) (key : Bytes) (count : Nat) (dir : Direction)
    (data : Bytes) : Bytes :=
  data.mapIdx fun i b => b ^^^ (aes key (counterBlock count dir (i / 16))).getD (i % 16) 0

variable {aes : Bytes → Bytes → Bytes}

theorem NEA2_NEA2 (key : Bytes) (count : Nat) (dir : Direction) (data : Bytes) :
    NEA2 aes key count dir (NEA2 aes key count dir data) = data := by
  refine List.ext_getElem (by simp [NEA2]) fun i _ _ => ?_
  simp [NEA2]

/-- The parameters with this cipher. -/
def Env.ciphering (V : Env) (aes : Bytes → Bytes → Bytes) : Env :=
  { V with nea2 := NEA2 aes, nea2_length := by simp [NEA2] }

variable {V : Env}

/-- With an algorithm that is implemented, deciphering undoes ciphering. -/
theorem nasEncrypt_nasEncrypt {eea : Nat} (h : eea = 0 ∨ eea = 2) (key : Bytes) (count : Nat)
    (dir : Direction) (data : Bytes) :
    ∃ c, nasEncrypt (V.ciphering aes) eea key count dir data = .ok c ∧
      nasEncrypt (V.ciphering aes) eea key count dir c = .ok data := by
  rcases h with rfl | rfl
  · exact ⟨data, rfl, rfl⟩
  · exact ⟨_, rfl, congrArg Except.ok (NEA2_NEA2 key count dir data)⟩

/-! ## A protected PDU -/

/-- `wrap` on the side of the UE: its count, and uplink. -/
def ueWrap (V : Env) (slot : NasSlot) (sht : UInt8) (count : Nat) (inner : Bytes) :
    Except SecError Bytes :=
  let sqn := UInt8.ofNat (count % 256)
  match if sht = 2 ∧ slot.eea ≠ 0 then nasEncrypt V slot.eea slot.knasEnc count .uplink inner
    else .ok inner with
  | .error e => .error e
  | .ok payload =>
    match nasMAC V slot.eia slot.knasInt count .uplink (sqn :: payload) with
    | .error e => .error e
    | .ok mac => .ok (0x7E :: sht :: (mac ++ sqn :: payload))

/-- A count that is less than 256 ahead is found again. -/
theorem estimateCount_eq {stored count : Nat} (hle : stored ≤ count) (hlt : count < stored + 256)
    (h32 : count < countMod) : estimateCount stored (UInt8.ofNat (count % 256)) = count := by
  have hsqn : (ofNat (count % 256)).toNat = count % 256 :=
    toNat_ofNat_of_lt' (Nat.mod_lt _ (by decide))
  unfold estimateCount
  rw [hsqn]
  simp only [countMod] at h32 ⊢
  split <;> omega

theorem nasMAC_four {eia : Nat} (h : eia = 0 ∨ eia = 2) (key : Bytes) (count : Nat)
    (dir : Direction) (data : Bytes) :
    ∃ m₁ m₂ m₃ m₄, nasMAC V eia key count dir data = .ok [m₁, m₂, m₃, m₄] := by
  rcases h with rfl | rfl
  · exact ⟨0, 0, 0, 0, rfl⟩
  · have hlen := V.nia2_length key count dir data
    match hmac : V.nia2 key count dir data with
    | [m₁, m₂, m₃, m₄] => exact ⟨m₁, m₂, m₃, m₄, congrArg Except.ok hmac⟩
    | [] | [_] | [_, _] | [_, _, _] | _ :: _ :: _ :: _ :: _ :: _ => simp [hmac] at hlen

theorem unwrap_ueWrap {sec : SecurityCtx} (hint : sec.op.knasInt.length = nasKeyLen)
    (henc : sec.op.knasEnc.length = nasKeyLen) (heia : sec.op.eia = 0 ∨ sec.op.eia = 2)
    (heea : sec.op.eea = 0 ∨ sec.op.eea = 2) {count : Nat} (hle : sec.op.ul ≤ count)
    (hlt : count < sec.op.ul + 256) (h32 : count < countMod) {sht : UInt8}
    (hsht : sht = 1 ∨ sht = 2) (inner : Bytes) :
    ∃ pdu, ueWrap (V.ciphering aes) sec.op sht count inner = .ok pdu ∧
      unwrap (V.ciphering aes) sec pdu sht = .ok (inner, count) := by
  have hslot : sec.slot (sec.rxPending sht) = sec.op := by
    rcases hsht with rfl | rfl <;> rfl
  obtain ⟨payload, hpay, hdec⟩ : ∃ payload,
      (if sht = 2 ∧ sec.op.eea ≠ 0 then
        nasEncrypt (V.ciphering aes) sec.op.eea sec.op.knasEnc count .uplink inner
        else .ok inner) = .ok payload ∧
      (if (sht = 2 ∨ sht = 4) ∧ sec.op.eea ≠ 0 then
        nasEncrypt (V.ciphering aes) sec.op.eea sec.op.knasEnc count .uplink payload
        else .ok payload) = .ok inner := by
    rcases hsht with rfl | rfl
    · exact ⟨inner, rfl, rfl⟩
    · obtain ⟨c, hc, hback⟩ := @nasEncrypt_nasEncrypt aes V _ heea
        sec.op.knasEnc count .uplink inner
      grind
  obtain ⟨m₁, m₂, m₃, m₄, hmac⟩ := nasMAC_four (V := V.ciphering aes) heia sec.op.knasInt count
    .uplink (ofNat (count % 256) :: payload)
  have hcount := estimateCount_eq hle hlt h32
  refine ⟨0x7E :: sht :: m₁ :: m₂ :: m₃ :: m₄ :: ofNat (count % 256) :: payload,
    by simp [ueWrap, hpay, hmac], ?_⟩
  grind [unwrap]

/-! ## A container -/

/-- Under the null cipher, the message that is dispatched again is the one in the container. -/
theorem expand_null {sec : SecurityCtx} (hnull : sec.op.eea = 0) {inner : Bytes} {m : NasMsg}
    (htype : msgTypeOf inner = msgRegistrationRequest ∨ msgTypeOf inner = msgServiceRequest)
    (hm : V.decode inner = .ok m) {plain : Bytes} (hplain : isFivegmm plain = true)
    (hcont : nasMessageContainer m = some plain) :
    expandNASMessageContainer V sec (msgTypeOf inner) inner = some plain := by
  unfold expandNASMessageContainer
  rw [if_pos (by tauto), hm]
  dsimp only
  rw [hcont]
  cases plain with
  | nil => cases hplain
  | cons a plain =>
    simp [containerBytes, ciphersContainers, hnull, hplain]

theorem storeUl_eea (r : Ref) (pdu : Bytes) (m : RxMeta) (s : AmfState) :
    ((storeUl r pdu m s).ue r).sec.op.eea = ((s.ue r).sec).op.eea := by
  unfold storeUl
  split
  · simp only [AmfState.exec, AmfState.updSec, AmfState.push_ue, AmfState.upd_ue_self,
       setSlot]
    split <;> rfl
  · rfl

/-- A registration request whose octets after the fourth are its container. -/
def containerEnv : Env :=
  { Lab.env with
    decode := fun b =>
      if b.take 4 = [0x7E, 0, 0x41, 0] then
        .ok (.registrationRequest
          ⟨1, false, 7, .other, none, false, none, none, none, false, some (b.drop 4)⟩)
      else .error .other
    container_length := by
      intro b m c hdec hc
      split at hdec
      · case isTrue h4 =>
        have hlen := congrArg List.length h4
        cases hdec
        cases hc
        simp at hlen ⊢
        omega
      · cases hdec }

/-- A slot with 128-NEA2 and 128-NIA2, next count 5. -/
def slot22 : NasSlot := ⟨Lab.knasEnc, Lab.knasInt, 2, 2, 5, 0⟩

/-- A block cipher that gives the low octet of the count. -/
def lowCount (_ block : Bytes) : Bytes := List.replicate 16 (block.getD 3 0)

end MmtCore.Amf
