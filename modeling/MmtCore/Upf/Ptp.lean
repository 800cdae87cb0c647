import MmtCore.Lib.MemoryWrites
import MmtCore.Upf.Checksums

/-!
# The PTP steering

`upf_ptp_process` (`upf_ptp.c`) on the memory that holds the packet, with the indices that it
touches.  The fields of a PTP message over UDP are found by the lengths that the packet gives, and
the sum of the header length and the UDP length is made in 16 bits before it is compared.  So the
packet is left within its buffer exactly where that sum fits
(`ptp_inBounds_iff`).
-/

namespace MmtCore.Upf

open MmtCore.Lib MmtCore.Lib.Probe List Nat

/-! ## The message -/

/-- A PTP message in a packet: the length of the IP header, the length fields of UDP and PTP, and
the length of the body, which the type gives. -/
structure PtpFrame where
  ihl : Nat
  udpLen : Nat
  msgLen : Nat
  body : Nat
deriving DecidableEq

namespace PtpFrame

variable (f : PtpFrame)

def ptp : Nat := f.ihl + 8

/-- Where the TLVs begin. -/
def tlv : Nat := f.ptp + (34 + f.body)

def msgEnd : Nat := f.ptp + f.msgLen

end PtpFrame

/-- The checks down to the UDP length: an IPv4 packet to a PTP port of UDP, of which the length
field has room for a PTP header. -/
def ptpUdp (ipLen : Nat) : Probe (Option (Nat × Nat)) :=
  if ipLen < 20 then pure none
  else
    Probe.byte 0 >>= fun b =>
      if (b >>> 4) &&& 0x0F ≠ 4 then pure none
      else if ((b &&& 0x0F) * 4).toNat < 20 then pure none
      else
        Probe.byte 9 >>= fun proto =>
          if proto ≠ 17 ∨ ipLen < (((b &&& 0x0F) * 4).toNat + 8) % 65536 then pure none
          else
            Probe.word (((b &&& 0x0F) * 4).toNat + 2) >>= fun dport =>
              if dport ≠ 319 ∧ dport ≠ 320 then pure none
              else
                Probe.word (((b &&& 0x0F) * 4).toNat + 4) >>= fun udpLen =>
                  if udpLen.toNat < 8 + 34 then pure none
                  else pure (some (((b &&& 0x0F) * 4).toNat, udpLen.toNat))

/-- The checks on the PTP message in so many bytes of UDP. -/
def ptpBody (ihl udpLen : Nat) : Probe (Option PtpFrame) :=
  Probe.byte (ihl + 8 + 1) >>= fun version =>
    if version &&& 0x0F ≠ 2 then pure none
    else
      Probe.word (ihl + 8 + 2) >>= fun msgLen =>
        if msgLen.toNat < 34 ∨ udpLen - 8 < msgLen.toNat then pure none
        else
          Probe.byte (ihl + 8) >>= fun msgType =>
            pure ((ptpBodyLen msgType).bind fun body =>
              if msgLen.toNat < (34 + body) % 65536 then none
              else some ⟨ihl, udpLen, msgLen.toNat, body⟩)

/-- The checks of `upf_ptp_process`; the sum is one of 16 bits. -/
def ptpFrame (ipLen : Nat) : Probe (Option PtpFrame) :=
  ptpUdp ipLen >>= fun r =>
    match r with
    | none => pure none
    | some (ihl, udpLen) =>
      if ipLen < (ihl + udpLen) % 65536 then pure none else ptpBody ihl udpLen

/-- The walk over the TLVs at the egress, to the 5GS suffix; each round goes on by 4 bytes or more,
so that as many rounds as there are bytes are enough. -/
def findSuffix (msgEnd : Nat) : Nat → Nat → Probe (Option Nat)
  | 0, _ => pure none
  | fuel + 1, tlv =>
    if tlv + 4 ≤ msgEnd then
      Probe.word (tlv + 2) >>= fun len =>
        if msgEnd < tlv + 4 + len.toNat then pure none
        else if len = 14 then
          Probe.bytes tlv 10 >>= fun pre =>
            if pre = suffixPrefix then pure (some tlv)
            else findSuffix msgEnd fuel (tlv + 4 + len.toNat)
        else findSuffix msgEnd fuel (tlv + 4 + len.toNat)
    else pure none

/-! ## The two directions -/

/-- A call of `memmove`. -/
structure Move where
  dst : Nat
  src : Nat
  len : Nat
deriving DecidableEq

/-- What a run leaves, what it returns, and what it has touched: the indices of its reads, the
ranges of its writes, and its moves. -/
structure PtpRun where
  mem : Memory
  ipLen : Nat
  residenceNs : UInt64
  reads : List Nat
  writes : List (Nat × Nat)
  moves : List Move

/-- `ip_checksum`. -/
def ptpIpChecksum (mem : Memory) (ihl : Nat) : Memory :=
  let mem := store mem 10 [0, 0]
  store mem 10 (Pfcp.beBytes 2 (csumFinish (csumAddBe (slice mem 0 ihl))))

/-- The lengths that both directions write last; the checksum of UDP is left out. -/
def writeLengths (mem : Memory) (ihl msgLen udpLen ipLen : Nat) : Memory :=
  let mem := store mem (ihl + 8 + 2) (Pfcp.beBytes 2 msgLen)
  let mem := store mem (ihl + 4) (Pfcp.beBytes 2 udpLen)
  let mem := store mem (ihl + 6) [0, 0]
  store mem 2 (Pfcp.beBytes 2 ipLen)

/-- The lengths and the checksums. -/
def putLengths (mem : Memory) (ihl msgLen udpLen ipLen : Nat) : Memory :=
  ptpIpChecksum (writeLengths mem ihl msgLen udpLen ipLen) ihl

/-- What `putLengths` writes. -/
def lengthWrites (ihl : Nat) : List (Nat × Nat) :=
  [(ihl + 8 + 2, 2), (ihl + 4, 2), (ihl + 6, 2), (2, 2), (10, 2), (10, 2)]

/-- The ingress: the suffix is put behind the message, where there is room for it. -/
def ptpIngress (mem : Memory) (ipLen cap : Nat) (nowNs : UInt64) (f : PtpFrame) : PtpRun :=
  if cap < ipLen + 18 then ⟨mem, ipLen, 0, [], [], []⟩
  else
    let tail := (ipLen + 65536 - f.msgEnd % 65536) % 65536
    let mem := if tail ≠ 0 then move mem (f.msgEnd + 18) f.msgEnd tail else mem
    let mem := store mem f.msgEnd suffixPrefix
    let mem := store mem (f.msgEnd + 10) (Pfcp.beBytes 8 nowNs.toNat)
    { mem := putLengths mem f.ihl ((f.msgLen + 18) % 65536) ((f.udpLen + 18) % 65536)
        ((ipLen + 18) % 65536)
      ipLen := (ipLen + 18) % 65536
      residenceNs := 0
      reads := List.range f.ihl
      writes := [(f.msgEnd, 10), (f.msgEnd + 10, 8)] ++ lengthWrites f.ihl
      moves := if tail ≠ 0 then [⟨f.msgEnd + 18, f.msgEnd, tail⟩] else [] }

/-- The number in the eight bytes from an index on. -/
def rd64 (mem : Memory) (i : Nat) : UInt64 := UInt64.ofNat (Pfcp.beNat (slice mem i 8))

/-- The egress, where the suffix was found at an index: the residence time goes into the correction
field, and the suffix out. -/
def ptpStrip (mem : Memory) (ipLen : Nat) (nowNs : UInt64) (f : PtpFrame) (tlv : Nat) : PtpRun :=
  let tEnd := tlv + 18
  let tsi := rd64 mem (tlv + 10)
  let residence := if tsi < nowNs then nowNs - tsi else 0
  let corr := rd64 mem (f.ptp + 8) + residence <<< 16
  let rest := (ipLen + 65536 - tEnd % 65536) % 65536
  let mem := store mem (f.ptp + 8) (Pfcp.beBytes 8 corr.toNat)
  let mem := move mem tlv tEnd rest
  { mem := putLengths mem f.ihl ((f.msgLen + 65536 - 18) % 65536)
      ((f.udpLen + 65536 - 18) % 65536) ((ipLen + 65536 - 18) % 65536)
    ipLen := (ipLen + 65536 - 18) % 65536
    residenceNs := residence
    reads := List.range' (tlv + 10) 8 ++ List.range' (f.ptp + 8) 8 ++ List.range f.ihl
    writes := (f.ptp + 8, 8) :: lengthWrites f.ihl
    moves := [⟨tlv, tEnd, rest⟩] }

/-- The egress. -/
def ptpEgress (mem : Memory) (ipLen : Nat) (nowNs : UInt64) (f : PtpFrame) : PtpRun :=
  let walk := findSuffix f.msgEnd f.msgLen f.tlv
  let r : PtpRun := match walk.value mem with
    | none => ⟨mem, ipLen, 0, [], [], []⟩
    | some tlv => ptpStrip mem ipLen nowNs f tlv
  { r with reads := walk.reads mem ++ r.reads }

/-- `upf_ptp_process`. -/
def upfPtpProcess (mem : Memory) (ipLen : UInt16) (cap : UInt32) (ingress : Bool)
    (nowNs : UInt64) : PtpRun :=
  let head := ptpFrame ipLen.toNat
  let r : PtpRun := match head.value mem with
    | none => ⟨mem, ipLen.toNat, 0, [], [], []⟩
    | some f =>
      if ingress then ptpIngress mem ipLen.toNat cap.toNat nowNs f
      else ptpEgress mem ipLen.toNat nowNs f
  { r with reads := head.reads mem ++ r.reads }

/-! ## What is touched -/

/-- The run reads and writes below the capacity, moves bytes of the packet only, and returns no more
than the capacity; and the sum of the header length and the UDP length, where it is made, is one of
16 bits. -/
structure InBounds (mem : Memory) (ipLen cap : Nat) (r : PtpRun) : Prop where
  reads : ∀ i ∈ r.reads, i < cap
  writes : ∀ w ∈ r.writes, w.1 + w.2 ≤ cap
  moves : ∀ mv ∈ r.moves, ∀ k < mv.len,
    mv.src + k < ipLen ∧ mv.src + k < cap ∧ mv.dst + k < cap
  returns : r.ipLen ≤ cap
  sums : ∀ ihl udpLen, (ptpUdp ipLen).value mem = some (ihl, udpLen) → ihl + udpLen < 65536

/-- The packet is one of UDP to a PTP port, with an IPv4 header of its length and a UDP length of at
least 42. -/
structure PtpDatagram (mem : Memory) (ipLen ihl udpLen : Nat) : Prop where
  long : 20 ≤ ipLen
  version : (mem 0 >>> 4) &&& 0x0F = 4
  ihl_eq : ihl = ((mem 0 &&& 0x0F) * 4).toNat
  header : 20 ≤ ihl
  udp : mem 9 = 17
  ports : ihl + 8 ≤ ipLen
  port : be16 (mem (ihl + 2)) (mem (ihl + 3)) = 319 ∨ be16 (mem (ihl + 2)) (mem (ihl + 3)) = 320
  udpLen_eq : udpLen = (be16 (mem (ihl + 4)) (mem (ihl + 5))).toNat
  room : 42 ≤ udpLen

variable {mem : Memory} {ipLen ihl udpLen : Nat}

/-- A header length is a multiple of 4 up to 60. -/
theorem ihl_eq_mod (b : UInt8) : ((b &&& 0x0F) * 4).toNat = b.toNat % 16 * 4 := by
  have hand : (b &&& 0x0F).toNat = b.toNat % 16 := by
    rw [UInt8.toNat_and]
    exact and_two_pow_sub_one_eq_mod b.toNat 4
  have hfour : (4 : UInt8).toNat = 4 := rfl
  rw [UInt8.toNat_mul, hand, hfour]
  omega

theorem ihl_le (b : UInt8) : ((b &&& 0x0F) * 4).toNat ≤ 60 := by
  rw [ihl_eq_mod]
  omega

theorem yields_ptpUdp (mem : Memory) (ipLen : Nat) :
    Yields mem ipLen (ptpUdp ipLen) fun a => PtpDatagram mem ipLen a.1 a.2 := by
  refine yields_ite (fun hshort => yields_none fun a h => ?_) fun hlong => ?_
  · exact absurd h.long (Nat.not_le_of_lt hshort)
  refine yields_bind (within_byte.2 (by omega)) ?_
  rw [value_byte]
  refine yields_ite (fun hver => yields_none fun a h => hver h.version) fun hver => ?_
  refine yields_ite (fun hsmall => yields_none fun a h => ?_) fun hsmall => ?_
  · have hhead := h.header
    rw [h.ihl_eq] at hhead
    omega
  have hle := ihl_le (mem 0)
  have hmod : (((mem 0 &&& 0x0F) * 4).toNat + 8) % 65536 = ((mem 0 &&& 0x0F) * 4).toNat + 8 :=
    mod_eq_of_lt (by omega)
  rw [hmod]
  generalize hihl : ((mem 0 &&& 0x0F) * 4).toNat = ihl at *
  refine yields_bind (within_byte.2 (by omega)) ?_
  rw [value_byte]
  refine yields_ite (fun hbad => yields_none fun a h => ?_) fun hgood => ?_
  · have hudp := h.udp
    have hports := h.ports
    rw [h.ihl_eq, hihl] at hports
    rcases hbad with hbad | hbad
    · exact hbad hudp
    · omega
  obtain ⟨hudp, hports⟩ := not_or.1 hgood
  have hports := Nat.le_of_not_lt hports
  refine yields_bind (within_word.2 (by omega)) ?_
  rw [value_word]
  refine yields_ite (fun hbad => yields_none fun a h => ?_) fun hgood => ?_
  · have hport := h.port
    rw [h.ihl_eq, hihl] at hport
    exact hport.elim hbad.1 hbad.2
  refine yields_bind (within_word.2 (by omega)) ?_
  rw [value_word]
  refine yields_ite (fun hbad => yields_none fun a h => ?_) fun hroom => ?_
  · have hroom := h.room
    rw [h.udpLen_eq, h.ihl_eq, hihl] at hroom
    exact absurd hroom (Nat.not_le_of_lt hbad)
  refine yields_some fun a => ⟨fun h => ?_, fun h => ?_⟩
  · rw [Prod.ext_iff, h.ihl_eq, h.udpLen_eq, h.ihl_eq, hihl]
    exact ⟨rfl, rfl⟩
  · cases h
    exact ⟨Nat.le_of_not_lt hlong, not_not.1 hver, hihl.symm, Nat.le_of_not_lt hsmall,
      not_not.1 hudp, hports, Decidable.or_iff_not_not_and_not.2 hgood, rfl, Nat.le_of_not_lt hroom⟩

/-- The message of a frame: version 2, with a body of its type, within the bytes of UDP. -/
structure PtpMessage (mem : Memory) (f : PtpFrame) : Prop where
  version : mem (f.ihl + 8 + 1) &&& 0x0F = 2
  msgLen_eq : f.msgLen = (be16 (mem (f.ihl + 8 + 2)) (mem (f.ihl + 8 + 2 + 1))).toNat
  body_eq : ptpBodyLen (mem (f.ihl + 8)) = some f.body
  whole : 34 + f.body ≤ f.msgLen
  fits : 8 + f.msgLen ≤ f.udpLen

theorem ptpBodyLen_le {b : UInt8} {body : Nat} (h : ptpBodyLen b = some body) : body ≤ 30 := by
  unfold ptpBodyLen at h
  split at h <;> cases h <;> decide

theorem yields_ptpBody (mem : Memory) {n : Nat} (hroom : 42 ≤ udpLen) (hn : ihl + udpLen ≤ n) :
    Yields mem n (ptpBody ihl udpLen) fun f =>
      f.ihl = ihl ∧ f.udpLen = udpLen ∧ PtpMessage mem f := by
  refine yields_bind (within_byte.2 (by omega)) ?_
  rw [value_byte]
  refine yields_ite (fun hver => yields_none fun f h => ?_) fun hver => ?_
  · obtain ⟨rfl, -, h⟩ := h
    exact hver h.version
  refine yields_bind (within_word.2 (by omega)) ?_
  rw [value_word]
  refine yields_ite (fun hbad => yields_none fun f h => ?_) fun hgood => ?_
  · obtain ⟨rfl, rfl, h⟩ := h
    have hmsg := h.msgLen_eq
    have hwhole := h.whole
    have hfits := h.fits
    omega
  refine yields_bind (within_byte.2 (by omega)) ?_
  rw [value_byte]
  refine ⟨within_pure _, fun f => ?_⟩
  rw [value_pure, Option.bind_eq_some_iff]
  constructor
  · rintro ⟨body, hbody, h⟩
    have hle := ptpBodyLen_le hbody
    rw [mod_eq_of_lt (by omega)] at h
    split at h
    · cases h
    case isFalse hwhole =>
    cases h
    refine ⟨rfl, rfl, not_not.1 hver, rfl, hbody, Nat.le_of_not_lt hwhole, ?_⟩
    dsimp only
    omega
  · rintro ⟨rfl, rfl, h⟩
    have hle := ptpBodyLen_le h.body_eq
    refine ⟨f.body, h.body_eq, ?_⟩
    rw [Nat.mod_eq_of_lt (by omega), ← h.msgLen_eq, if_neg (Nat.not_lt_of_le h.whole)]

/-- The sum of the lengths fits its 16 bits, where it is made. -/
def SumFits (mem : Memory) (ipLen : Nat) : Prop :=
  ∀ ihl udpLen, PtpDatagram mem ipLen ihl udpLen → ihl + udpLen < 65536

/-- The frame that is found, and what is read for it, where the sum is that of the lengths. -/
theorem yields_ptpFrame (hsum : SumFits mem ipLen) :
    Yields mem ipLen (ptpFrame ipLen) fun f =>
      PtpDatagram mem ipLen f.ihl f.udpLen ∧ f.ihl + f.udpLen ≤ ipLen ∧ PtpMessage mem f := by
  obtain ⟨hread, hval⟩ := yields_ptpUdp mem ipLen
  refine yields_bind hread ?_
  cases hudp : (ptpUdp ipLen).value mem with
  | none =>
    refine yields_none fun f h => ?_
    have hsome := (hval (f.ihl, f.udpLen)).2 h.1
    rw [hudp] at hsome
    cases hsome
  | some r =>
    have hdgram := (hval r).1 hudp
    have hlt := hsum _ _ hdgram
    have hsame : ∀ f : PtpFrame, PtpDatagram mem ipLen f.ihl f.udpLen →
        f.ihl = r.1 ∧ f.udpLen = r.2 := by
      intro f h
      have hsome := (hval (f.ihl, f.udpLen)).2 h
      rw [hudp] at hsome
      cases hsome
      exact ⟨rfl, rfl⟩
    dsimp only
    rw [mod_eq_of_lt hlt]
    refine yields_ite (fun hlong => yields_none fun f h => ?_) fun hfits => ?_
    · grind
    have hbody := yields_ptpBody mem hdgram.room (Nat.le_of_not_lt hfits)
    refine ⟨hbody.1, fun f => (hbody.2 f).trans ⟨?_, ?_⟩⟩ <;> simp_all

/-- The walk stays before the end of the message, and so does the suffix that it finds. -/
theorem findSuffix_spec {msgEnd n fuel tlv : Nat} (hn : msgEnd ≤ n) :
    Within mem n (findSuffix msgEnd fuel tlv) ∧
      ∀ i, (findSuffix msgEnd fuel tlv).value mem = some i →
        tlv ≤ i ∧ i + 18 ≤ msgEnd ∧ slice mem i 10 = suffixPrefix := by
  induction fuel generalizing tlv with
  | zero =>
    refine ⟨within_pure _, fun i h => ?_⟩
    cases h
  | succ fuel ih =>
    unfold findSuffix
    by_cases hroom : tlv + 4 ≤ msgEnd
    case neg =>
      rw [if_neg hroom]
      refine ⟨within_pure _, fun i h => ?_⟩
      cases h
    rw [if_pos hroom, within_bind, value_bind, value_word]
    generalize hlen : be16 (mem (tlv + 2)) (mem (tlv + 2 + 1)) = len
    by_cases hover : msgEnd < tlv + 4 + len.toNat
    · rw [if_pos hover]
      refine ⟨⟨within_word.2 (by omega), within_pure _⟩, fun i h => ?_⟩
      cases h
    rw [if_neg hover]
    by_cases hsize : len = 14
    case neg =>
      grind [within_word]
    have hfour : len.toNat = 14 := by rw [hsize]; rfl
    rw [if_pos hsize, within_bind, value_bind, value_bytes]
    by_cases hpre : slice mem tlv 10 = suffixPrefix
    · rw [if_pos hpre]
      refine ⟨⟨within_word.2 (by omega), within_bytes (by omega), within_pure _⟩, fun i h => ?_⟩
      cases h
      exact ⟨le_refl _, by omega, hpre⟩
    · grind [within_word, within_bytes]

/-- A difference of 16 bits. -/
theorem sub_mod {a b : Nat} (hle : b ≤ a) (ha : a < 65536) :
    (a + 65536 - b % 65536) % 65536 = a - b := by
  have hb : b % 65536 = b := mod_eq_of_lt (by omega)
  rw [hb]
  omega

theorem lengthWrites_le {n : Nat} (hn : ihl + 12 ≤ n) (hihl : 20 ≤ ihl) :
    ∀ w ∈ lengthWrites ihl, w.1 + w.2 ≤ n := by
  intro w hw
  simp only [lengthWrites, mem_cons, not_mem_nil, or_false] at hw
  rcases hw with rfl | rfl | rfl | rfl | rfl | rfl <;> dsimp only <;> omega

section

variable {f : PtpFrame} {cap : Nat} {nowNs : UInt64}
  (hdgram : PtpDatagram mem ipLen f.ihl f.udpLen) (hfits : f.ihl + f.udpLen ≤ ipLen)
  (hmsg : PtpMessage mem f)
include hdgram hfits hmsg

omit hdgram in
theorem PtpFrame.msgEnd_le : f.tlv ≤ f.msgEnd ∧ f.msgEnd ≤ ipLen ∧ f.ihl + 42 ≤ f.msgEnd := by
  have hwhole := hmsg.whole
  have hroom := hmsg.fits
  unfold tlv msgEnd ptp
  omega

theorem ptpIngress_inBounds (hshort : ipLen < 65536) (hcap : ipLen ≤ cap)
    (hsum : ∀ ihl udpLen, (ptpUdp ipLen).value mem = some (ihl, udpLen) → ihl + udpLen < 65536) :
    InBounds mem ipLen cap (ptpIngress mem ipLen cap nowNs f) := by
  obtain ⟨-, hend, hptp⟩ := PtpFrame.msgEnd_le hfits hmsg
  have hihl := hdgram.header
  unfold ptpIngress
  by_cases hhead : cap < ipLen + 18
  · rw [if_pos hhead]
    exact ⟨by simp, by simp, by simp, hcap, hsum⟩
  rw [if_neg hhead]
  have htail := sub_mod hend hshort
  rw [htail]
  refine ⟨fun i hi => ?_, fun w hw => ?_, fun mv hmv k hk => ?_, ?_, hsum⟩
  · have hi := mem_range.1 hi
    omega
  · rcases mem_append.1 hw with hw | hw
    · simp only [mem_cons, not_mem_nil, or_false] at hw
      rcases hw with rfl | rfl <;> dsimp only <;> omega
    · have hle := lengthWrites_le (le_refl _) hihl w hw
      omega
  · grind
  · dsimp only
    omega

theorem ptpStrip_inBounds {i : Nat} (hshort : ipLen < 65536) (hcap : ipLen ≤ cap)
    (hsum : ∀ ihl udpLen, (ptpUdp ipLen).value mem = some (ihl, udpLen) → ihl + udpLen < 65536)
    (hi : i + 18 ≤ f.msgEnd) : InBounds mem ipLen cap (ptpStrip mem ipLen nowNs f i) := by
  obtain ⟨-, hend, hptp⟩ := PtpFrame.msgEnd_le hfits hmsg
  have hihl := hdgram.header
  have hrest := sub_mod (le_trans hi hend) hshort
  unfold ptpStrip
  dsimp only
  rw [hrest]
  refine ⟨fun j hj => ?_, fun w hw => ?_, fun mv hmv k hk => ?_, ?_, hsum⟩
  · simp only [mem_append, mem_range'_1, mem_range] at hj
    unfold PtpFrame.ptp at hj
    omega
  · rcases mem_cons.1 hw with rfl | hw
    · unfold PtpFrame.ptp
      omega
    · have hle := lengthWrites_le (le_refl _) hihl w hw
      omega
  · cases mem_singleton.1 hmv
    dsimp only at hk ⊢
    omega
  · dsimp only
    omega

end

/-- A run with the reads before it. -/
def PtpRun.after (r : PtpRun) (reads : List Nat) : PtpRun := { r with reads := reads ++ r.reads }

theorem InBounds.after_iff {cap : Nat} {r : PtpRun} {reads : List Nat} :
    InBounds mem ipLen cap (r.after reads) ↔ (∀ i ∈ reads, i < cap) ∧ InBounds mem ipLen cap r := by
  constructor
  · intro h
    exact ⟨fun i hi => h.reads i (mem_append_left _ hi),
      fun i hi => h.reads i (mem_append_right _ hi), h.writes, h.moves, h.returns, h.sums⟩
  · rintro ⟨hreads, h⟩
    exact ⟨fun i hi => (mem_append.1 hi).elim (hreads i) (h.reads i), h.writes, h.moves,
      h.returns, h.sums⟩

/-- The run that does nothing. -/
def PtpRun.idle (mem : Memory) (ipLen : Nat) : PtpRun := ⟨mem, ipLen, 0, [], [], []⟩

section

variable {f : PtpFrame} {nowNs : UInt64}

theorem ptpEgress_none (h : (findSuffix f.msgEnd f.msgLen f.tlv).value mem = none) :
    ptpEgress mem ipLen nowNs f =
      (PtpRun.idle mem ipLen).after ((findSuffix f.msgEnd f.msgLen f.tlv).reads mem) := by
  unfold ptpEgress
  dsimp only
  rw [h]
  rfl

theorem ptpEgress_some {tlv : Nat}
    (h : (findSuffix f.msgEnd f.msgLen f.tlv).value mem = some tlv) :
    ptpEgress mem ipLen nowNs f =
      (ptpStrip mem ipLen nowNs f tlv).after ((findSuffix f.msgEnd f.msgLen f.tlv).reads mem) := by
  unfold ptpEgress
  dsimp only
  rw [h]
  rfl

variable {ipLen : UInt16} {cap : UInt32} {ingress : Bool}

theorem upfPtpProcess_none (h : (ptpFrame ipLen.toNat).value mem = none) :
    upfPtpProcess mem ipLen cap ingress nowNs =
      (PtpRun.idle mem ipLen.toNat).after ((ptpFrame ipLen.toNat).reads mem) := by
  unfold upfPtpProcess
  dsimp only
  rw [h]
  rfl

theorem upfPtpProcess_ingress (h : (ptpFrame ipLen.toNat).value mem = some f) :
    upfPtpProcess mem ipLen cap true nowNs =
      (ptpIngress mem ipLen.toNat cap.toNat nowNs f).after ((ptpFrame ipLen.toNat).reads mem) := by
  unfold upfPtpProcess
  dsimp only
  rw [h]
  rfl

theorem upfPtpProcess_egress (h : (ptpFrame ipLen.toNat).value mem = some f) :
    upfPtpProcess mem ipLen cap false nowNs =
      (ptpEgress mem ipLen.toNat nowNs f).after ((ptpFrame ipLen.toNat).reads mem) := by
  unfold upfPtpProcess
  dsimp only
  rw [h]
  rfl

end

/-- A packet that is longer than its buffer is not left within it. -/
theorem le_of_ptpStrip {f : PtpFrame} {cap tlv : Nat} {nowNs : UInt64} (hend : f.msgEnd ≤ ipLen)
    (hshort : ipLen < 65536) (hi : tlv + 18 ≤ f.msgEnd)
    (h : InBounds mem ipLen cap (ptpStrip mem ipLen nowNs f tlv)) : ipLen ≤ cap := by
  have hrest := sub_mod (le_trans hi hend) hshort
  by_cases hzero : ipLen = tlv + 18
  · -- nothing is moved, but the last byte of the suffix is read
    have hlast : tlv + 17 ∈ (ptpStrip mem ipLen nowNs f tlv).reads := by
      unfold ptpStrip
      simp only [mem_append, mem_range'_1, mem_range]
      omega
    have hlt := h.reads _ hlast
    omega
  · have hmoved : (⟨tlv, tlv + 18, ipLen - (tlv + 18)⟩ : Move) ∈
        (ptpStrip mem ipLen nowNs f tlv).moves := by
      unfold ptpStrip
      dsimp only
      rw [hrest]
      exact mem_singleton_self _
    have hlt := h.moves _ hmoved (ipLen - (tlv + 18) - 1) (by
      dsimp only
      omega)
    dsimp only at hlt
    omega

/-- A run that keeps to its buffer has its packet there. -/
theorem le_of_inBounds {f : PtpFrame} {ipLen cap : Nat} (ingress : Bool) (nowNs : UInt64)
    (hfits : f.ihl + f.udpLen ≤ ipLen) (hmsg : PtpMessage mem f) (hshort : ipLen < 65536)
    (h : InBounds mem ipLen cap (if ingress then ptpIngress mem ipLen cap nowNs f
      else ptpEgress mem ipLen nowNs f)) : ipLen ≤ cap := by
  obtain ⟨-, hend, -⟩ := PtpFrame.msgEnd_le hfits hmsg
  cases ingress with
  | true =>
    rw [if_pos rfl, ptpIngress] at h
    by_cases hhead : cap < ipLen + 18
    · rw [if_pos hhead] at h
      exact h.returns
    · omega
  | false =>
    rw [if_neg Bool.false_ne_true] at h
    obtain ⟨-, hfound⟩ := findSuffix_spec hend
    cases hwalk : (findSuffix f.msgEnd f.msgLen f.tlv).value mem with
    | none =>
      rw [ptpEgress_none hwalk] at h
      exact h.returns
    | some tlv =>
      rw [ptpEgress_some hwalk, InBounds.after_iff] at h
      exact le_of_ptpStrip hend hshort (hfound tlv hwalk).2.1 h.2

/-- `upf_ptp_process` keeps to its buffer if and only if the packet is in it and the sum of the
header length and the UDP length fits its 16 bits. -/
theorem ptp_inBounds_iff (mem : Memory) (ipLen : UInt16) (cap : UInt32) (ingress : Bool)
    (nowNs : UInt64) :
    InBounds mem ipLen.toNat cap.toNat (upfPtpProcess mem ipLen cap ingress nowNs) ↔
      ipLen.toNat ≤ cap.toNat ∧ SumFits mem ipLen.toNat := by
  have hudp := yields_ptpUdp mem ipLen.toNat
  have hshort : ipLen.toNat < 65536 := ipLen.toNat_lt
  have hsums : SumFits mem ipLen.toNat ↔ ∀ ihl udpLen,
      (ptpUdp ipLen.toNat).value mem = some (ihl, udpLen) → ihl + udpLen < 65536 := by
    refine forall_congr' fun ihl => forall_congr' fun udpLen => ?_
    rw [hudp.2 (ihl, udpLen)]
  constructor
  · intro h
    have hsum := hsums.2 h.sums
    refine ⟨?_, hsum⟩
    cases hframe : (ptpFrame ipLen.toNat).value mem with
    | none =>
      rw [upfPtpProcess_none hframe] at h
      exact h.returns
    | some f =>
      obtain ⟨-, hfits, hmsg⟩ := ((yields_ptpFrame hsum).2 f).1 hframe
      refine le_of_inBounds ingress nowNs hfits hmsg hshort ?_
      grind [upfPtpProcess_ingress, upfPtpProcess_egress, InBounds.after_iff]
  · rintro ⟨hcap, hsum⟩
    obtain ⟨hread, hval⟩ := yields_ptpFrame hsum
    have hbelow : ∀ i ∈ (ptpFrame ipLen.toNat).reads mem, i < cap.toNat := fun i hi =>
      lt_of_lt_of_le (hread i hi) hcap
    have hidle : InBounds mem ipLen.toNat cap.toNat (.idle mem ipLen.toNat) :=
      ⟨forall_mem_nil _, forall_mem_nil _, forall_mem_nil _, hcap, hsums.1 hsum⟩
    cases hframe : (ptpFrame ipLen.toNat).value mem with
    | none =>
      rw [upfPtpProcess_none hframe]
      exact InBounds.after_iff.2 ⟨hbelow, hidle⟩
    | some f =>
      obtain ⟨hdgram, hfits, hmsg⟩ := (hval f).1 hframe
      obtain ⟨-, hend, -⟩ := PtpFrame.msgEnd_le hfits hmsg
      cases ingress with
      | true =>
        rw [upfPtpProcess_ingress hframe]
        exact InBounds.after_iff.2
          ⟨hbelow, ptpIngress_inBounds hdgram hfits hmsg hshort hcap (hsums.1 hsum)⟩
      | false =>
        rw [upfPtpProcess_egress hframe]
        refine InBounds.after_iff.2 ⟨hbelow, ?_⟩
        obtain ⟨hwithin, hfound⟩ :=
          findSuffix_spec hend
        have hwalked : ∀ i ∈ (findSuffix f.msgEnd f.msgLen f.tlv).reads mem, i < cap.toNat :=
          fun i hi => lt_of_lt_of_le (hwithin i hi) hcap
        cases hwalk : (findSuffix f.msgEnd f.msgLen f.tlv).value mem with
        | none =>
          rw [ptpEgress_none hwalk]
          exact InBounds.after_iff.2 ⟨hwalked, hidle⟩
        | some tlv =>
          rw [ptpEgress_some hwalk]
          exact InBounds.after_iff.2 ⟨hwalked, ptpStrip_inBounds hdgram hfits hmsg hshort hcap
            (hsums.1 hsum) (hfound tlv hwalk).2.1⟩

/-- A packet of 28 bytes with a UDP length of 65535, in a buffer of its size. -/
def wrappedLength : Memory := fun i =>
  [0x45, 0, 0, 28, 0, 0, 0, 0, 64, 17, 0, 0, 10, 0, 0, 1, 10, 0, 0, 2, 0, 0, 0x01, 0x3F, 0xFF, 0xFF,
    0, 0].getD i 0

/-- The version is read beyond it. -/
theorem read_past_packet :
    ¬∀ (mem : Memory) (ipLen : UInt16) (cap : UInt32) (ingress : Bool) (nowNs : UInt64),
      ipLen.toNat ≤ cap.toNat →
        InBounds mem ipLen.toNat cap.toNat (upfPtpProcess mem ipLen cap ingress nowNs) := by
  intro h
  have hread : 29 ∈ (upfPtpProcess wrappedLength 28 28 false 0).reads := by decide
  have hlt := (h wrappedLength 28 28 false 0 (le_refl _)).reads 29 hread
  exact absurd hlt (by decide)

end MmtCore.Upf
