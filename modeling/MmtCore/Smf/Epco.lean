import MmtCore.Lib.Reader

/-!
# Extended protocol configuration options

`epco.go`: which configuration the UE asks for in its options, and the options that answer it.  A
result `none` of the model is an access out of range.
-/

namespace MmtCore.Smf.Epco

open MmtCore.Lib List Nat

abbrev Bytes := List UInt8

/-- A container, or an option of IPCP: identifier and contents. -/
structure Tlv (ι : Type) where
  id : ι
  contents : Bytes
deriving DecidableEq

/-- The identifier of a container. -/
abbrev ContainerID := UInt8 × UInt8

def protocolIDIPCP : ContainerID := (0x80, 0x21)
def containerIDPCSCFIPv4 : ContainerID := (0x00, 0x0C)
def containerIDDNSServerIPv4 : ContainerID := (0x00, 0x0D)
def containerIDIPv4LinkMTU : ContainerID := (0x00, 0x10)
def containerIDLocalAddrInTFT : ContainerID := (0x00, 0x11)

structure IPv4 where
  a : UInt8
  b : UInt8
  c : UInt8
  d : UInt8
deriving DecidableEq

def IPv4.bytes (ip : IPv4) : Bytes := [ip.a, ip.b, ip.c, ip.d]

/-- `APNConfig`, with what `parseIPv4` makes of its texts. -/
structure ApnConfig where
  pcscf : Option IPv4
  dnsPrimary : Option IPv4
  dnsSecondary : Option IPv4
  mtu : Int

/-! ## The request -/

/-- The containers up to the first that is cut short; the fuel is the number of octets. -/
def containers : Nat → Bytes → List (Tlv ContainerID)
  | fuel + 1, hi :: lo :: n :: v =>
    if v.length < n.toNat then []
    else ⟨(hi, lo), v.take n.toNat⟩ :: containers fuel (v.drop n.toNat)
  | _, _ => []

/-- Only PPP for use with IP is looked at. -/
def containersOf : Bytes → List (Tlv ContainerID)
  | [] => []
  | b :: v => if b &&& 0x07 ≠ 0 then [] else containers v.length v

structure RequestedContainers where
  wantsPCSCFIPv4 : Bool := false
  wantsDNSIPv4 : Bool := false
  wantsMTU : Bool := false
  msSupportsLocalAddrInTFT : Bool := false
  ipcpConfigReq : Option Bytes := none

/-- The switch of `parseRequestedEPCO`; requests other than IPCP are empty. -/
def RequestedContainers.note (r : RequestedContainers) (u : Tlv ContainerID) :
    RequestedContainers :=
  if u.id = protocolIDIPCP then
    if 4 ≤ u.contents.length ∧ u.contents.head? = some 1 then
      { r with ipcpConfigReq := some u.contents }
    else r
  else if u.contents ≠ [] then r
  else if u.id = containerIDPCSCFIPv4 then { r with wantsPCSCFIPv4 := true }
  else if u.id = containerIDDNSServerIPv4 then { r with wantsDNSIPv4 := true }
  else if u.id = containerIDIPv4LinkMTU then { r with wantsMTU := true }
  else if u.id = containerIDLocalAddrInTFT then { r with msSupportsLocalAddrInTFT := true }
  else r

def parseRequestedEPCO (ie : Bytes) : RequestedContainers :=
  (containersOf ie).foldl RequestedContainers.note {}

/-! ## The answer -/

/-- The types of the options, up to the first whose length is wrong. -/
def optionTypes : Nat → Bytes → List UInt8
  | fuel + 1, t :: len :: v =>
    if len < 2 ∨ (t :: len :: v).length < len.toNat then []
    else t :: optionTypes fuel ((t :: len :: v).drop len.toNat)
  | _, _ => []

/-- The address for a DNS option. -/
def ApnConfig.dns (apn : ApnConfig) (t : UInt8) : Option IPv4 :=
  if t = 129 then apn.dnsPrimary else if t = 131 then apn.dnsSecondary else none

/-- The options that can be filled. -/
def filled (apn : ApnConfig) (types : List UInt8) : List (Tlv UInt8) :=
  types.filterMap fun t => (apn.dns t).map fun ip => ⟨t, ip.bytes⟩

/-- An option: its length counts its type and itself. -/
def optionOctets (o : Tlv UInt8) : Bytes := o.id :: UInt8.ofNat (2 + o.contents.length) :: o.contents

/-- The length that an IPCP packet declares; it is not trusted past the end. -/
def declared (req : Bytes) : Nat :=
  min ((req.getD 2 0).toNat * 256 + (req.getD 3 0).toNat) req.length

/-- The options that `buildIPCPConfigureAck` answers. -/
def answered (req : Bytes) (apn : ApnConfig) : List (Tlv UInt8) :=
  filled apn (optionTypes req.length ((req.take (declared req)).drop 4))

/-- A packet that acknowledges these options. -/
def ackPacket (identifier : UInt8) (options : List (Tlv UInt8)) : Bytes :=
  let ack := options.flatMap optionOctets
  2 :: identifier :: (putUint16 (4 + ack.length) ++ ack)

/-- `req[4:declared]` is out of range where the packet declares less than its header. -/
def buildIPCPConfigureAck (req : Bytes) (apn : ApnConfig) : Option (Option Bytes) :=
  if req.length < 4 then some none
  else if declared req < 4 then none
  else if answered req apn = [] then some none
  else some (some (ackPacket (req.getD 1 0) (answered req apn)))

def encodeContainer (u : Tlv ContainerID) : Bytes :=
  u.id.1 :: u.id.2 :: UInt8.ofNat u.contents.length :: u.contents

/-- The containers that answer the request besides IPCP. -/
def plainAnswers (apn : ApnConfig) (req : RequestedContainers) : List (Tlv ContainerID) :=
  (if req.wantsPCSCFIPv4 then
    apn.pcscf.toList.map fun ip => ⟨containerIDPCSCFIPv4, ip.bytes⟩ else []) ++
  (if req.wantsDNSIPv4 then
    (apn.dnsPrimary.toList ++ apn.dnsSecondary.toList).map fun ip =>
      ⟨containerIDDNSServerIPv4, ip.bytes⟩ else []) ++
  (if req.wantsMTU ∧ 0 < apn.mtu ∧ apn.mtu ≤ 0xFFFF then
    [⟨containerIDIPv4LinkMTU, putUint16 apn.mtu.toNat⟩] else []) ++
  if req.msSupportsLocalAddrInTFT then [⟨containerIDLocalAddrInTFT, []⟩] else []

def buildExtendedPCO (apn : Option ApnConfig) (ie : Bytes) : Option (Option Bytes) :=
  match apn with
  | none => some none
  | some apn => do
    let req := parseRequestedEPCO ie
    let ack ← match req.ipcpConfigReq with
      | none => some none
      | some packet => buildIPCPConfigureAck packet apn
    let units := ack.toList.map (⟨protocolIDIPCP, ·⟩) ++ plainAnswers apn req
    pure (if units = [] then none else some (0x80 :: units.flatMap encodeContainer))

/-! ## What an answer should be -/

/-- A container with its real length; one of IPCP acknowledges a packet of the UE, and its options
are inside the length that it declares. -/
structure WellFormed (ie : Bytes) (u : Tlv ContainerID) : Prop where
  length : u.contents.length < 256
  requested : ∃ v ∈ containersOf ie, v.id = u.id
  ipcp : u.id = protocolIDIPCP → ∃ v ∈ containersOf ie, v.id = protocolIDIPCP ∧
    ∃ options : List (Tlv UInt8), (∀ o ∈ options, 2 + o.contents.length < 256) ∧
      u.contents = ackPacket (v.contents.getD 1 0) options

/-- There is no out-of-range access, and the result is absent or a list of such containers. -/
def Answers (apn : Option ApnConfig) (ie : Bytes) : Prop :=
  ∃ out, buildExtendedPCO apn ie = some out ∧
    ∀ v, out = some v → ∃ units : List (Tlv ContainerID),
      v = 0x80 :: units.flatMap encodeContainer ∧ ∀ u ∈ units, WellFormed ie u

/-- The IPCP packet that is answered, the last one, declares at least its header, and asks for at
most 41 addresses that are configured. -/
def Fits (apn : Option ApnConfig) (ie : Bytes) : Prop :=
  ∀ a, apn = some a → ∀ req, (parseRequestedEPCO ie).ipcpConfigReq = some req →
    4 ≤ declared req ∧ (answered req a).length ≤ 41

/-! ## What was asked for -/

/-- Everything that is noted was in a container. -/
structure Noted (S : Tlv ContainerID → Prop) (r : RequestedContainers) : Prop where
  pcscf : r.wantsPCSCFIPv4 → ∃ v, S v ∧ v.id = containerIDPCSCFIPv4
  dns : r.wantsDNSIPv4 → ∃ v, S v ∧ v.id = containerIDDNSServerIPv4
  mtu : r.wantsMTU → ∃ v, S v ∧ v.id = containerIDIPv4LinkMTU
  local_ : r.msSupportsLocalAddrInTFT → ∃ v, S v ∧ v.id = containerIDLocalAddrInTFT
  ipcp : ∀ req, r.ipcpConfigReq = some req →
    4 ≤ req.length ∧ ∃ v, S v ∧ v.id = protocolIDIPCP ∧ v.contents = req

theorem Noted.note {S : Tlv ContainerID → Prop} {r : RequestedContainers} (h : Noted S r)
    {u : Tlv ContainerID} (hu : S u) : Noted S (r.note u) := by
  unfold RequestedContainers.note
  split
  · case isTrue hid =>
    split
    · case isTrue hreq =>
      refine ⟨h.pcscf, h.dns, h.mtu, h.local_, fun req hsome => ?_⟩
      cases hsome
      exact ⟨hreq.1, u, hu, hid, rfl⟩
    · exact h
  split
  · exact h
  split
  · case isTrue hid => exact { h with pcscf := fun _ => ⟨u, hu, hid⟩ }
  split
  · case isTrue hid => exact { h with dns := fun _ => ⟨u, hu, hid⟩ }
  split
  · case isTrue hid => exact { h with mtu := fun _ => ⟨u, hu, hid⟩ }
  split
  · case isTrue hid => exact { h with local_ := fun _ => ⟨u, hu, hid⟩ }
  · exact h

theorem noted (ie : Bytes) : Noted (· ∈ containersOf ie) (parseRequestedEPCO ie) :=
  foldlRecOn (motive := Noted (· ∈ containersOf ie)) _ _
    ⟨nofun, nofun, nofun, nofun, nofun⟩ fun _ hr _ hu => hr.note hu

theorem contents_le {fuel : Nat} {v : Bytes} {u : Tlv ContainerID} (h : u ∈ containers fuel v) :
    u.contents.length ≤ 255 := by
  induction fuel, v using containers.induct with
  | case1 fuel hi lo n v hlt => simp [containers, hlt] at h
  | case2 fuel hi lo n v hlt ih =>
    rw [containers, if_neg hlt] at h
    rcases mem_cons.1 h with rfl | h
    · exact Nat.le_trans (List.length_take_le _ _) (Nat.lt_succ_iff.1 n.toNat_lt)
    · exact ih h
  | case3 fuel v hv => rw [containers] at h <;> simp_all

theorem optionTypes_length (fuel : Nat) (v : Bytes) :
    2 * (optionTypes fuel v).length ≤ v.length := by
  induction fuel, v using optionTypes.induct with
  | case1 fuel t len v hbad =>
    rw [optionTypes, if_pos hbad]
    exact zero_le _
  | case2 fuel t len v hgood ih =>
    rw [optionTypes, if_neg hgood]
    rw [UInt8.lt_iff_toNat_lt] at hgood
    simp at hgood ih ⊢
    omega
  | case3 fuel v hv => rw [optionTypes] <;> simp_all

theorem mem_filled {apn : ApnConfig} {types : List UInt8} {o : Tlv UInt8}
    (h : o ∈ filled apn types) : o.contents.length = 4 := by
  obtain ⟨t, -, ht⟩ := mem_filterMap.1 h
  obtain ⟨ip, -, rfl⟩ := Option.map_eq_some_iff.1 ht
  rfl

theorem length_options {options : List (Tlv UInt8)} (h : ∀ o ∈ options, o.contents.length = 4) :
    (options.flatMap optionOctets).length = 6 * options.length := by
  induction options with
  | nil => rfl
  | cons o options ih =>
    simp [flatMap_cons, optionOctets, ih fun o ho => h o (by simp [ho]), h o (by simp)]
    omega

theorem length_ackPacket (identifier : UInt8) (options : List (Tlv UInt8)) :
    (ackPacket identifier options).length = 4 + (options.flatMap optionOctets).length := by
  simp [ackPacket, putUint16]
  omega

variable {a : ApnConfig} {ie : Bytes}

theorem wellFormed_of {id : ContainerID} {contents : Bytes}
    (hasked : ∃ v, v ∈ containersOf ie ∧ v.id = id) (hid : id ≠ protocolIDIPCP)
    (hlen : contents.length ≤ 4) : WellFormed ie ⟨id, contents⟩ :=
  ⟨Nat.lt_of_le_of_lt hlen (by decide), hasked, fun h => absurd h hid⟩

theorem wellFormed_plain {u : Tlv ContainerID} (h : u ∈ plainAnswers a (parseRequestedEPCO ie)) :
    WellFormed ie u := by
  have hn := noted ie
  simp only [plainAnswers, mem_append] at h
  rcases h with ((h | h) | h) | h <;> split at h
  · case isTrue hw =>
    obtain ⟨ip, -, rfl⟩ := mem_map.1 h
    exact wellFormed_of (hn.pcscf hw) (by decide) (Nat.le_refl 4)
  · cases h
  · case isTrue hw =>
    obtain ⟨ip, -, rfl⟩ := mem_map.1 h
    exact wellFormed_of (hn.dns hw) (by decide) (Nat.le_refl 4)
  · cases h
  · case isTrue hw =>
    rw [mem_singleton.1 h]
    exact wellFormed_of (hn.mtu hw.1) (by decide) (le_add_right 2 2)
  · cases h
  · case isTrue hw =>
    rw [mem_singleton.1 h]
    exact wellFormed_of (hn.local_ hw) (by decide) (zero_le _)
  · cases h

/-- The acknowledgement of a packet of the request, where it fits its length. -/
theorem wellFormed_ack {req : Bytes} (hreq : (parseRequestedEPCO ie).ipcpConfigReq = some req)
    (h : (answered req a).length ≤ 41) :
    WellFormed ie ⟨protocolIDIPCP, ackPacket (req.getD 1 0) (answered req a)⟩ := by
  obtain ⟨-, v, hv, hid, rfl⟩ := (noted ie).ipcp req hreq
  have hfour : ∀ o ∈ answered v.contents a, o.contents.length = 4 := fun o ho => mem_filled ho
  refine ⟨?_, ⟨v, hv, hid⟩, fun _ => ⟨v, hv, hid, _, fun o ho => ?_, rfl⟩⟩
  · rw [length_ackPacket, length_options hfour]
    omega
  · rw [hfour o ho]
    decide

/-- What is at the front of a list of containers. -/
theorem front_eq {pkt rest : Bytes} {units : List (Tlv ContainerID)} (hlen : pkt.length < 65536)
    (hunits : ∀ u ∈ units, WellFormed ie u) {identifier : UInt8} {options : List (Tlv UInt8)}
    (hpkt : pkt = ackPacket identifier options)
    (h : encodeContainer ⟨protocolIDIPCP, pkt⟩ ++ rest = units.flatMap encodeContainer) :
    pkt.length < 256 := by
  cases units with
  | nil => cases h
  | cons u units =>
    obtain ⟨⟨hi, lo⟩, contents⟩ := u
    rw [flatMap_cons] at h
    simp only [encodeContainer, cons_append, cons.injEq] at h
    obtain ⟨rfl, rfl, -, hrest⟩ := h
    obtain ⟨hshort, -, hipcp⟩ := hunits _ mem_cons_self
    obtain ⟨v, -, -, options', -, hc⟩ := hipcp rfl
    dsimp only at hc hrest hshort
    have hl := length_ackPacket (v.contents.getD 1 0) options'
    have hl' := length_ackPacket identifier options
    rw [← hc] at hl
    rw [← hpkt] at hl'
    rw [hpkt, hc] at hrest
    simp only [ackPacket, putUint16, cons_append, nil_append, cons.injEq] at hrest
    obtain ⟨-, -, hhi, hlo, -⟩ := hrest
    rw [← UInt8.toNat_inj, UInt8.toNat_ofNat', UInt8.toNat_ofNat'] at hhi hlo
    omega

theorem answers_of_units {units : List (Tlv ContainerID)} (h : ∀ u ∈ units, WellFormed ie u)
    (hout : buildExtendedPCO (some a) ie =
      some (if units = [] then none else some (0x80 :: units.flatMap encodeContainer))) :
    Answers (some a) ie := by
  refine ⟨_, hout, fun v hv => ?_⟩
  split at hv
  · cases hv
  · cases hv
    exact ⟨units, rfl, h⟩

theorem answered_length {req : Bytes} (hreq : (parseRequestedEPCO ie).ipcpConfigReq = some req) :
    (answered req a).length ≤ 127 := by
  obtain ⟨-, v, hv, -, rfl⟩ := (noted ie).ipcp req hreq
  have hle : v.contents.length ≤ 255 := by
    cases ie with
    | nil => cases hv
    | cons b ie =>
      rw [containersOf] at hv
      split at hv
      · cases hv
      · exact contents_le hv
  have htypes := optionTypes_length v.contents.length ((v.contents.take (declared v.contents)).drop 4)
  have hfilled : (answered v.contents a).length ≤ (optionTypes v.contents.length
      ((v.contents.take (declared v.contents)).drop 4)).length := length_filterMap_le _ _
  simp only [length_drop, length_take] at htypes
  omega

/-- The options are answered as they should be just where the IPCP packet that is answered
declares at least its header, and asks for at most 41 addresses that are configured. -/
theorem answers_iff (apn : Option ApnConfig) (ie : Bytes) : Answers apn ie ↔ Fits apn ie := by
  cases apn with
  | none => exact iff_of_true ⟨none, rfl, nofun⟩ nofun
  | some a =>
    cases hreq : (parseRequestedEPCO ie).ipcpConfigReq with
    | none =>
      refine iff_of_true (@answers_of_units a ie (plainAnswers a (parseRequestedEPCO ie))
        (fun u hu => wellFormed_plain hu) ?_)
        fun _ _ req hr => by rw [hreq] at hr; cases hr
      simp [buildExtendedPCO, hreq]
    | some req =>
      have hfour := ((noted ie).ipcp req hreq).1
      have hiff : Fits (some a) ie ↔ 4 ≤ declared req ∧ (answered req a).length ≤ 41 := by
        simp [Fits, hreq]
      rw [hiff]
      by_cases hdecl : declared req < 4
      · refine iff_of_false (fun ⟨out, hout, _⟩ => ?_) fun h => absurd h.1 (Nat.not_le.2 hdecl)
        simp [buildExtendedPCO, hreq, buildIPCPConfigureAck, Nat.not_lt.2 hfour, hdecl] at hout
      rw [and_iff_right (Nat.not_lt.1 hdecl)]
      by_cases hnil : answered req a = []
      · refine iff_of_true (@answers_of_units a ie (plainAnswers a (parseRequestedEPCO ie))
        (fun u hu => wellFormed_plain hu) ?_) (by simp [hnil])
        simp [buildExtendedPCO, hreq, buildIPCPConfigureAck, hdecl, hnil]
      have hout : buildExtendedPCO (some a) ie = some (some (0x80 ::
          (⟨protocolIDIPCP, ackPacket (req.getD 1 0) (answered req a)⟩ ::
            plainAnswers a (parseRequestedEPCO ie)).flatMap encodeContainer)) := by
        simp [buildExtendedPCO, hreq, buildIPCPConfigureAck, Nat.not_lt.2 hfour, hdecl, hnil]
      constructor
      · rintro ⟨out, hsome, hunits⟩
        rw [hout] at hsome
        obtain ⟨units, hv, hall⟩ := hunits _ (Option.some.inj hsome).symm
        have hlen : ∀ o ∈ answered req a, o.contents.length = 4 := fun o ho => mem_filled ho
        have hpkt := length_ackPacket (req.getD 1 0) (answered req a)
        have hshort := answered_length (a := a) hreq
        rw [length_options hlen] at hpkt
        have hfront := front_eq (by omega) hall rfl (cons.inj hv).2
        omega
      · intro h
        have hall := forall_mem_cons.2
          ⟨wellFormed_ack (a := a) hreq h, fun u hu => wellFormed_plain (a := a) hu⟩
        exact answers_of_units hall (hout.trans (by rw [if_neg (cons_ne_nil _ _)]))

/-- An IPCP packet that declares no length. -/
theorem answers_out_of_range :
    ¬∀ apn ie, Answers apn ie := by
  intro h
  obtain ⟨out, hout, -⟩ := h (some ⟨none, none, none, 0⟩) [0x80, 0x80, 0x21, 4, 1, 7, 0, 0]
  cases hout

end MmtCore.Smf.Epco
