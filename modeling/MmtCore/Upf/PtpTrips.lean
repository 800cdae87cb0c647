import MmtCore.Upf.Ptp

/-!
# The residence time of a PTP message

What the egress makes of a packet that the ingress has stamped: it finds the suffix behind any
number of TLVs, takes it out and puts the lengths back, and the correction field has grown by the
time between the two (`residence_corrected`).
-/

namespace MmtCore.Upf

open MmtCore.Lib MmtCore.Lib.Probe List UInt16 Pfcp PtpFrame Nat

variable {mem mem' : Memory} {ihl msgLen udpLen ipLen j : Nat} {f : PtpFrame}

/-! ## Numbers in a memory -/

/-- The number in the two bytes from an index on. -/
def wordAt (mem : Memory) (i : Nat) : Nat := (be16 (mem i) (mem (i + 1))).toNat

theorem wordAt_store {v : Nat} (h : v < 65536) (i : Nat) :
    wordAt (store mem i (Pfcp.beBytes 2 v)) i = v := by
  have hfirst : store mem i (Pfcp.beBytes 2 v) i = UInt8.ofNat (v / 256) :=
    store_inside (k := 0) Nat.zero_lt_two
  have hsecond : store mem i (Pfcp.beBytes 2 v) (i + 1) = UInt8.ofNat v :=
    store_inside (k := 1) one_lt_two
  rw [wordAt, hfirst, hsecond, be16_toNat, UInt8.toNat_ofNat', UInt8.toNat_ofNat']
  omega

variable {i : Nat} {l : List UInt8}

theorem wordAt_congr (h : mem' i = mem i) (h' : mem' (i + 1) = mem (i + 1)) :
    wordAt mem' i = wordAt mem i := by
  rw [wordAt, wordAt, h, h']

theorem wordAt_store_outside {k : Nat} (h : i + 2 ≤ k ∨ k + l.length ≤ i) :
    wordAt (store mem k l) i = wordAt mem i :=
  wordAt_congr (store_outside (by omega)) (store_outside (by omega))

theorem rd64_store (v : UInt64) (i : Nat) :
    rd64 (store mem i (Pfcp.beBytes 8 v.toNat)) i = v := by
  have hslice : slice (store mem i (Pfcp.beBytes 8 v.toNat)) i (Pfcp.beBytes 8 v.toNat).length =
      Pfcp.beBytes 8 v.toNat := slice_store
  rw [Pfcp.length_beBytes] at hslice
  rw [rd64, hslice, Pfcp.beNat_beBytes_of_lt v.toNat_lt, UInt64.ofNat_toNat]

theorem rd64_congr {j : Nat} (h : ∀ k < 8, mem' (i + k) = mem (j + k)) :
    rd64 mem' i = rd64 mem j := by
  rw [rd64, rd64, slice_congr h]

/-! ## The lengths and the checksums -/

/-- A byte of a length or a checksum. -/
def LengthField (ihl j : Nat) : Prop :=
  (2 ≤ j ∧ j < 4) ∨ (10 ≤ j ∧ j < 12) ∨ (ihl + 4 ≤ j ∧ j < ihl + 8) ∨ (ihl + 10 ≤ j ∧ j < ihl + 12)

theorem writeLengths_outside (h : ¬LengthField ihl j) :
    writeLengths mem ihl msgLen udpLen ipLen j = mem j := by
  unfold LengthField at h
  have htwo : ∀ v, (beBytes 2 v).length = 2 := length_beBytes 2
  have hzero : ([0, 0] : List UInt8).length = 2 := rfl
  unfold writeLengths
  rw [store_outside (by rw [htwo]; omega), store_outside (by rw [hzero]; omega),
    store_outside (by rw [htwo]; omega), store_outside (by rw [htwo]; omega)]

/-- The bytes away from the checksum of the header. -/
theorem ptpIpChecksum_outside (h : j < 10 ∨ 12 ≤ j) : ptpIpChecksum mem ihl j = mem j := by
  have htwo : ∀ v, (beBytes 2 v).length = 2 := length_beBytes 2
  simp_all [store_outside, ptpIpChecksum]

theorem putLengths_outside (h : ¬LengthField ihl j) :
    putLengths mem ihl msgLen udpLen ipLen j = mem j := by
  have hoff : j < 10 ∨ 12 ≤ j := by
    unfold LengthField at h
    omega
  rw [putLengths, ptpIpChecksum_outside hoff, writeLengths_outside h]

/-- What is written into the lengths. -/
structure HasLengths (mem : Memory) (ihl msgLen udpLen ipLen : Nat) : Prop where
  msgLen : wordAt mem (ihl + 8 + 2) = msgLen
  udpLen : wordAt mem (ihl + 4) = udpLen
  udpChecksum : wordAt mem (ihl + 6) = 0
  ipLen : wordAt mem 2 = ipLen

theorem hasLengths_putLengths (mem : Memory) (hihl : 20 ≤ ihl) (hmsg : msgLen < 65536)
    (hudp : udpLen < 65536) (hip : ipLen < 65536) :
    HasLengths (putLengths mem ihl msgLen udpLen ipLen) ihl msgLen udpLen ipLen := by
  have htwo : ∀ v, (beBytes 2 v).length = 2 := length_beBytes 2
  have haway : ∀ i, i + 2 ≤ 10 ∨ 12 ≤ i →
      wordAt (putLengths mem ihl msgLen udpLen ipLen) i =
        wordAt (writeLengths mem ihl msgLen udpLen ipLen) i := fun i hi =>
    wordAt_congr (ptpIpChecksum_outside (by omega)) (ptpIpChecksum_outside (by omega))
  constructor
  · grind [writeLengths, wordAt_store_outside, wordAt_store]
  · grind [writeLengths, wordAt_store_outside, wordAt_store]
  · rw [haway _ (by omega), writeLengths, wordAt_store_outside (by rw [htwo]; omega)]
    exact wordAt_store (zero_lt_succ _) _
  · rw [haway _ (by omega), writeLengths]
    exact wordAt_store hip _

/-! ## The checksum of the header -/

theorem csumAddBe_eq (h : l.length % 2 = 0) : csumAddBe l = beSum l := by
  induction l using beSum.induct with
  | case1 => rfl
  | case2 a => simp at h
  | case3 a b l ih =>
    grind [csumAddBe, beSum]

theorem beSum_le (l : List UInt8) : beSum l ≤ 65535 * ((l.length + 1) / 2) := by
  induction l using beSum.induct with
  | case1 => exact zero_le _
  | case2 a =>
    have ha := a.toNat_lt
    simp only [beSum, length_singleton]
    omega
  | case3 a b l ih =>
    have ha := a.toNat_lt
    have hb := b.toNat_lt
    simp only [beSum, length_cons]
    omega

/-- The header around its checksum. -/
theorem slice_header (mem : Memory) (hihl : 20 ≤ ihl) :
    slice mem 0 ihl = slice mem 0 10 ++ (slice mem 10 2 ++ slice mem 12 (ihl - 12)) := by
  have hsplit : ihl = 10 + (2 + (ihl - 12)) := by omega
  conv => lhs; rw [hsplit]
  rw [slice_append, slice_append]

theorem sumsToOnes_ptpIpChecksum (hihl : 20 ≤ ihl) (hle : ihl ≤ 60) (heven : ihl % 2 = 0)
    (hver : mem 0 ≠ 0) : SumsToOnes (slice (ptpIpChecksum mem ihl) 0 ihl) := by
  have hzero : ([0, 0] : List UInt8).length = 2 := rfl
  -- the header before and behind the checksum, which nothing here changes
  have hhead : ∀ m : Memory, (∀ j, j < 10 ∨ 12 ≤ j → m j = mem j) →
      beSum (slice m 0 ihl) = beSum (slice mem 0 10) + beSum (slice m 10 2) +
        beSum (slice mem 12 (ihl - 12)) := by
    intro m hm
    have hfront : slice m 0 10 = slice mem 0 10 := slice_congr fun k hk => hm _ (by omega)
    have hback : slice m 12 (ihl - 12) = slice mem 12 (ihl - 12) :=
      slice_congr fun k hk => hm _ (by omega)
    rw [slice_header m hihl, hfront, hback, beSum_append (by rw [length_slice]),
      beSum_append (by rw [length_slice]), add_assoc]
  have hpos : 0 < beSum (slice mem 0 10) := by
    refine Nat.pos_of_ne_zero fun h => hver ?_
    have hfirst := getD_zero_le_leSum (slice mem 0 10)
    rw [beSum_eq_zero.1 h, getD_slice mem 0 (by decide)] at hfirst
    exact UInt8.toNat_inj.1 (Nat.le_zero.1 hfirst)
  have hclear := hhead (store mem 10 [0, 0]) fun j hj => store_outside (by rw [hzero]; omega)
  have hnone : slice (store mem 10 [0, 0]) 10 2 = [0, 0] := slice_store
  rw [hnone] at hclear
  have hsum := hhead (ptpIpChecksum mem ihl) fun j hj => ptpIpChecksum_outside hj
  have hbound := beSum_le (slice (store mem 10 [0, 0]) 0 ihl)
  rw [length_slice] at hbound
  have hput : slice (ptpIpChecksum mem ihl) 10 2 = beBytes 2 (65535 -
      onesFold (beSum (slice (store mem 10 [0, 0]) 0 ihl))) := by
    rw [ptpIpChecksum, csumAddBe_eq (by rw [length_slice]; exact heven),
      PktIo.upf_csumFinish_eq (by omega)]
    exact slice_store
  generalize hs : beSum (slice (store mem 10 [0, 0]) 0 ihl) = s at *
  have hfold : onesFold s = (s - 1) % 65535 + 1 := if_neg (by
    have hz : beSum ([0, 0] : List UInt8) = 0 := rfl
    omega)
  have hbytes : beSum (beBytes 2 (65535 - onesFold s)) = 65535 - onesFold s := by
    change (UInt8.ofNat _).toNat * 256 + (UInt8.ofNat _).toNat + 0 = _
    rw [UInt8.toNat_ofNat', UInt8.toNat_ofNat']
    omega
  have hz : beSum ([0, 0] : List UInt8) = 0 := rfl
  rw [SumsToOnes, onesFold_eq_ones, hsum, hput, hbytes, hfold]
  omega

/-! ## Packets -/

/-- TLVs that fill the message from an index to its end, none of them a 5GS suffix. -/
inductive TlvChain (mem : Memory) (msgEnd : Nat) : Nat → Prop
  | done : TlvChain mem msgEnd msgEnd
  | tlv {i : Nat} (hfit : i + 4 + wordAt mem (i + 2) ≤ msgEnd)
      (hnot : ¬(wordAt mem (i + 2) = 14 ∧ slice mem i 10 = suffixPrefix))
      (rest : TlvChain mem msgEnd (i + 4 + wordAt mem (i + 2))) : TlvChain mem msgEnd i

/-- A PTP message over UDP, with TLVs that are well formed and no suffix among them. -/
structure PtpPacket (mem : Memory) (ipLen : Nat) (f : PtpFrame) : Prop where
  datagram : PtpDatagram mem ipLen f.ihl f.udpLen
  fits : f.ihl + f.udpLen ≤ ipLen
  message : PtpMessage mem f
  chain : TlvChain mem f.msgEnd f.tlv

theorem TlvChain.le {msgEnd : Nat} (h : TlvChain mem msgEnd i) : i ≤ msgEnd := by
  induction h with
  | done => exact le_refl _
  | tlv _ _ _ ih => omega

/-- The walk comes to a suffix behind the chain. -/
theorem TlvChain.findSuffix {msgEnd : Nat} (h : TlvChain mem msgEnd i)
    (hsame : ∀ j, i ≤ j → j < msgEnd → mem' j = mem j)
    (hsuffix : wordAt mem' (msgEnd + 2) = 14 ∧ slice mem' msgEnd 10 = suffixPrefix) {fuel : Nat}
    (hfuel : msgEnd + 18 ≤ i + fuel) :
    (findSuffix (msgEnd + 18) fuel i).value mem' = some msgEnd := by
  induction h generalizing fuel with
  | done =>
    cases fuel with
    | zero => omega
    | succ fuel =>
      have hlen : be16 (mem' (msgEnd + 2)) (mem' (msgEnd + 2 + 1)) = 14 :=
        UInt16.toNat_inj.1 hsuffix.1
      have hword : (14 : UInt16).toNat = 14 := rfl
      unfold Upf.findSuffix
      rw [if_pos (by omega), value_bind, value_word, hlen, if_neg (by rw [hword]; omega),
        if_pos rfl, value_bind, value_bytes, hsuffix.2, if_pos rfl]
      rfl
  | @tlv i hfit hnot rest ih =>
    cases fuel with
    | zero =>
      have hle := rest.le
      omega
    | succ fuel =>
      have hle := rest.le
      have hword : wordAt mem' (i + 2) = wordAt mem (i + 2) :=
        wordAt_congr (hsame _ (by omega) (by omega)) (hsame _ (by omega) (by omega))
      have hnext : (Upf.findSuffix (msgEnd + 18) fuel (i + 4 + wordAt mem (i + 2))).value mem' =
          some msgEnd := ih (fun j hj hj' => hsame j (by omega) hj') (by omega)
      rw [← hword] at hnext
      unfold wordAt at hnext
      unfold Upf.findSuffix
      rw [if_pos (by omega), value_bind, value_word]
      generalize hlen : be16 (mem' (i + 2)) (mem' (i + 2 + 1)) = len at hnext ⊢
      have hlenNat : len.toNat = wordAt mem (i + 2) := by rw [← hword, wordAt, hlen]
      rw [if_neg (by rw [hlenNat]; omega)]
      by_cases hsize : len = 14
      · have hfourteen : wordAt mem (i + 2) = 14 := by
          rw [← hlenNat, hsize]
          rfl
        have hpre : slice mem' i 10 = slice mem i 10 :=
          slice_congr fun k hk => hsame _ (by omega) (by omega)
        rw [if_pos hsize, value_bind, value_bytes, hpre,
          if_neg fun heq => hnot ⟨hfourteen, heq⟩]
        exact hnext
      · rw [if_neg hsize]
        exact hnext

/-- And to nothing in the chain itself. -/
theorem TlvChain.findSuffix_none {msgEnd fuel : Nat} (h : TlvChain mem msgEnd i) :
    (Upf.findSuffix msgEnd fuel i).value mem = none := by
  induction h generalizing fuel with
  | done =>
    cases fuel with
    | zero => rfl
    | succ fuel =>
      unfold Upf.findSuffix
      rw [if_neg (by omega)]
      rfl
  | @tlv i hfit hnot rest ih =>
    cases fuel with
    | zero => rfl
    | succ fuel =>
      have hnext : (Upf.findSuffix msgEnd fuel (i + 4 + wordAt mem (i + 2))).value mem = none := ih
      unfold wordAt at hfit hnot hnext
      unfold Upf.findSuffix
      rw [if_pos (by omega), value_bind, value_word, if_neg (by omega)]
      by_cases hsize : be16 (mem (i + 2)) (mem (i + 2 + 1)) = 14
      · simp_all
      · rw [if_neg hsize]
        exact hnext

/-! ## The ingress -/

/-- The packet with the suffix behind the message, before the lengths are written. -/
def stamped (mem : Memory) (ipLen : Nat) (nowNs : UInt64) (f : PtpFrame) : Memory :=
  let tail := (ipLen + 65536 - f.msgEnd % 65536) % 65536
  let mem := if tail ≠ 0 then move mem (f.msgEnd + 18) f.msgEnd tail else mem
  let mem := store mem f.msgEnd suffixPrefix
  store mem (f.msgEnd + 10) (Pfcp.beBytes 8 nowNs.toNat)

section

variable {nowNs : UInt64}

theorem stamped_eq (hend : f.msgEnd ≤ ipLen) (hshort : ipLen < 65536) :
    stamped mem ipLen nowNs f =
      store (store (move mem (f.msgEnd + 18) f.msgEnd (ipLen - f.msgEnd)) f.msgEnd suffixPrefix)
        (f.msgEnd + 10) (Pfcp.beBytes 8 nowNs.toNat) := by
  grind [sub_mod, move_zero, stamped]

variable (hend : f.msgEnd ≤ ipLen) (hshort : ipLen < 65536)
include hend hshort

theorem stamped_before (h : j < f.msgEnd) : stamped mem ipLen nowNs f j = mem j := by
  rw [stamped_eq hend hshort, store_outside (by omega), store_outside (by omega),
    move_outside (by omega)]

theorem stamped_behind (h : f.msgEnd ≤ j) (hj : j < ipLen) :
    stamped mem ipLen nowNs f (j + 18) = mem j := by
  have height : (beBytes 8 nowNs.toNat).length = 8 := length_beBytes 8 _
  have hten : suffixPrefix.length = 10 := rfl
  have hsplit : j + 18 = f.msgEnd + 18 + (j - f.msgEnd) := by omega
  rw [stamped_eq hend hshort, store_outside (by rw [height]; omega),
    store_outside (by rw [hten]; omega), hsplit, move_inside (by omega)]
  congr 1
  omega

theorem stamped_lead : slice (stamped mem ipLen nowNs f) f.msgEnd 10 = suffixPrefix := by
  have hsame : slice (stamped mem ipLen nowNs f) f.msgEnd 10 =
      slice (store (move mem (f.msgEnd + 18) f.msgEnd (ipLen - f.msgEnd)) f.msgEnd suffixPrefix)
        f.msgEnd 10 := by
    refine slice_congr fun k hk => ?_
    rw [stamped_eq hend hshort, store_outside (by omega)]
  rw [hsame]
  exact slice_store

theorem stamped_time : rd64 (stamped mem ipLen nowNs f) (f.msgEnd + 10) = nowNs := by
  rw [stamped_eq hend hshort]
  exact rd64_store nowNs _

end

theorem ptpIngress_mem (mem : Memory) (f : PtpFrame) (nowNs : UInt64) {cap : Nat}
    (h : ipLen + 18 ≤ cap) :
    (ptpIngress mem ipLen cap nowNs f).mem =
        putLengths (stamped mem ipLen nowNs f) f.ihl ((f.msgLen + 18) % 65536)
          ((f.udpLen + 18) % 65536) ((ipLen + 18) % 65536) ∧
      (ptpIngress mem ipLen cap nowNs f).ipLen = (ipLen + 18) % 65536 := by
  unfold ptpIngress
  rw [if_neg (Nat.not_lt_of_le h)]
  exact ⟨rfl, rfl⟩

/-! ## The egress of a stamped packet -/

/-- The frame of the packet with the suffix. -/
def PtpFrame.grown (f : PtpFrame) : PtpFrame :=
  { f with udpLen := f.udpLen + 18, msgLen := f.msgLen + 18 }

/-- The packet that leaves the ingress. -/
def stampedPacket (mem : Memory) (ipLen : Nat) (nowNs : UInt64) (f : PtpFrame) : Memory :=
  putLengths (stamped mem ipLen nowNs f) f.ihl (f.msgLen + 18) (f.udpLen + 18) (ipLen + 18)

namespace PtpPacket

variable {nowNs : UInt64} (h : PtpPacket mem ipLen f) (hshort : ipLen + 18 < 65536)
include h

theorem bounds : 20 ≤ f.ihl ∧ f.ihl ≤ 60 ∧ f.ihl % 4 = 0 ∧ f.ihl + 42 ≤ f.tlv ∧
    f.tlv ≤ f.msgEnd ∧ f.msgEnd ≤ ipLen ∧ f.msgLen + 8 ≤ f.udpLen ∧ f.ihl + f.udpLen ≤ ipLen := by
  obtain ⟨htlv, hend, -⟩ := msgEnd_le h.fits h.message
  have hle := ihl_le (mem 0)
  have hmod := ihl_eq_mod (mem 0)
  rw [← h.datagram.ihl_eq] at hle hmod
  have hfits := h.message.fits
  refine ⟨h.datagram.header, hle, by omega, ?_, htlv, hend, by omega, h.fits⟩
  unfold tlv ptp
  omega

include hshort

theorem stampedPacket_before (hj : j < f.msgEnd) (hfield : ¬LengthField f.ihl j) :
    stampedPacket mem ipLen nowNs f j = mem j := by
  obtain ⟨-, -, -, -, -, hend, -⟩ := h.bounds
  rw [stampedPacket, putLengths_outside hfield, stamped_before hend (by omega) hj]

omit hshort in
theorem stampedPacket_from (hj : f.msgEnd ≤ j) :
    stampedPacket mem ipLen nowNs f j = stamped mem ipLen nowNs f j := by
  obtain ⟨hihl, -, -, htlv, hle, -⟩ := h.bounds
  refine putLengths_outside ?_
  unfold LengthField
  omega

theorem hasLengths_stampedPacket :
    HasLengths (stampedPacket mem ipLen nowNs f) f.ihl (f.msgLen + 18) (f.udpLen + 18)
      (ipLen + 18) := by
  obtain ⟨hihl, -, -, -, -, -, hudp, hip⟩ := h.bounds
  exact hasLengths_putLengths _ hihl (by omega) (by omega) hshort

theorem datagram_stampedPacket :
    PtpDatagram (stampedPacket mem ipLen nowNs f) (ipLen + 18) f.ihl (f.udpLen + 18) := by
  obtain ⟨hihl, -, -, htlv, hle, -⟩ := h.bounds
  have hdgram := h.datagram
  have hkeep : ∀ j, j < f.ihl + 4 → j ≠ 2 → j ≠ 3 → j ≠ 10 → j ≠ 11 →
      stampedPacket mem ipLen nowNs f j = mem j := fun j hj h2 h3 h10 h11 =>
    h.stampedPacket_before hshort (by omega) (by unfold LengthField; omega)
  have hports := hdgram.ports
  refine ⟨by omega, ?_, ?_, hihl, ?_, by omega, ?_, ?_, le_add_right_of_le hdgram.room⟩
  · rw [hkeep 0 (by omega) (by decide) (by decide) (by decide) (by decide)]
    exact hdgram.version
  · rw [hkeep 0 (by omega) (by decide) (by decide) (by decide) (by decide)]
    exact hdgram.ihl_eq
  · rw [hkeep 9 (by omega) (by decide) (by decide) (by decide) (by decide)]
    exact hdgram.udp
  · rw [hkeep (f.ihl + 2) (by omega) (by omega) (by omega) (by omega) (by omega),
      hkeep (f.ihl + 3) (by omega) (by omega) (by omega) (by omega) (by omega)]
    exact hdgram.port
  · exact (h.hasLengths_stampedPacket hshort).udpLen.symm

theorem message_stampedPacket : PtpMessage (stampedPacket mem ipLen nowNs f) f.grown := by
  obtain ⟨hihl, -, -, htlv, hle, -⟩ := h.bounds
  have hmsg := h.message
  have hkeep : ∀ j, f.ihl + 8 ≤ j → j < f.ihl + 10 →
      stampedPacket mem ipLen nowNs f j = mem j := fun j hj hj' =>
    h.stampedPacket_before hshort (by omega) (by unfold LengthField; omega)
  refine ⟨?_, ?_, ?_, ?_, ?_⟩
  · change stampedPacket mem ipLen nowNs f (f.ihl + 8 + 1) &&& 0x0F = 2
    rw [hkeep _ (by omega) (by omega)]
    exact hmsg.version
  · exact (h.hasLengths_stampedPacket hshort).msgLen.symm
  · change ptpBodyLen (stampedPacket mem ipLen nowNs f (f.ihl + 8)) = some f.body
    rw [hkeep _ (by omega) (by omega)]
    exact hmsg.body_eq
  · exact le_add_right_of_le hmsg.whole
  · have hfits := hmsg.fits
    change 8 + (f.msgLen + 18) ≤ f.udpLen + 18
    omega

theorem frame_stampedPacket :
    (ptpFrame (ipLen + 18)).value (stampedPacket mem ipLen nowNs f) = some f.grown := by
  have hdgram : PtpDatagram (stampedPacket mem ipLen nowNs f) (ipLen + 18) f.ihl (f.udpLen + 18) :=
    h.datagram_stampedPacket hshort
  have hfits : f.ihl + (f.udpLen + 18) ≤ ipLen + 18 := by
    have hle := h.fits
    omega
  have hsum : SumFits (stampedPacket mem ipLen nowNs f) (ipLen + 18) := by
    intro ihl udpLen hother
    rw [hother.udpLen_eq, hother.ihl_eq, ← hdgram.ihl_eq, ← hdgram.udpLen_eq]
    omega
  exact ((yields_ptpFrame hsum).2 f.grown).2 ⟨hdgram, hfits, h.message_stampedPacket hshort⟩

theorem suffix_stampedPacket :
    wordAt (stampedPacket mem ipLen nowNs f) (f.msgEnd + 2) = 14 ∧
      slice (stampedPacket mem ipLen nowNs f) f.msgEnd 10 = suffixPrefix := by
  obtain ⟨-, -, -, -, -, hend, -⟩ := h.bounds
  have hpre : slice (stampedPacket mem ipLen nowNs f) f.msgEnd 10 = suffixPrefix :=
    (slice_congr fun k hk => h.stampedPacket_from (by omega)).trans
      (stamped_lead hend (by omega))
  refine ⟨?_, hpre⟩
  have hbyte : ∀ k, k < 10 → stampedPacket mem ipLen nowNs f (f.msgEnd + k) =
      suffixPrefix.getD k 0 := fun k hk => by
    rw [← hpre, getD_slice _ _ hk]
  rw [wordAt, hbyte 2 (by decide), hbyte 3 (by decide)]
  rfl

theorem found_stampedPacket :
    (findSuffix f.grown.msgEnd f.grown.msgLen f.grown.tlv).value (stampedPacket mem ipLen nowNs f) =
      some f.msgEnd := by
  obtain ⟨hihl, -, -, htlv, hle, -⟩ := h.bounds
  have hend : f.grown.msgEnd = f.msgEnd + 18 := rfl
  rw [hend]
  refine h.chain.findSuffix (fun j hj hj' => ?_) (h.suffix_stampedPacket hshort) ?_
  · refine h.stampedPacket_before hshort hj' ?_
    unfold LengthField
    omega
  · change f.msgEnd + 18 ≤ f.tlv + (f.msgLen + 18)
    unfold msgEnd tlv
    omega

end PtpPacket

/-- The packet is as it was but for the correction field, which has grown by so many nanoseconds in
units of `2 ^ -16`; lengths and checksums agree with what it holds. -/
structure Corrected (mem mem' : Memory) (ipLen : Nat) (f : PtpFrame) (ns : UInt64) : Prop where
  same : ∀ j < ipLen, ¬LengthField f.ihl j → ¬(f.ptp + 8 ≤ j ∧ j < f.ptp + 16) → mem' j = mem j
  correction : rd64 mem' (f.ptp + 8) = rd64 mem (f.ptp + 8) + ns <<< 16
  lengths : HasLengths mem' f.ihl f.msgLen f.udpLen ipLen
  header : SumsToOnes (slice mem' 0 f.ihl)

namespace PtpPacket

variable {t₁ t₂ : UInt64} (h : PtpPacket mem ipLen f) (hshort : ipLen + 18 < 65536)
include h

/-- The packet without the suffix again, before the lengths are written. -/
theorem stripped_eq {corr : List UInt8} (hcorr : corr.length = 8) (hj : j < ipLen)
    (hfield : ¬LengthField f.ihl j) (hout : ¬(f.ptp + 8 ≤ j ∧ j < f.ptp + 16))
    (hshort : ipLen + 18 < 65536) :
    move (store (stampedPacket mem ipLen t₁ f) (f.ptp + 8) corr) f.msgEnd (f.msgEnd + 18)
      (ipLen - f.msgEnd) j = mem j := by
  obtain ⟨hihl, -, -, htlv, hle, hend, -⟩ := h.bounds
  have hptp : f.ptp = f.ihl + 8 := rfl
  by_cases hbefore : j < f.msgEnd
  · rw [move_outside (.inl hbefore), store_outside (by omega),
      h.stampedPacket_before hshort hbefore hfield]
  · have hsplit : j = f.msgEnd + (j - f.msgEnd) := by omega
    have hmoved : f.msgEnd + 18 + (j - f.msgEnd) = j + 18 := by omega
    conv => lhs; rw [hsplit]
    rw [move_inside (by omega), hmoved, store_outside (by omega),
      h.stampedPacket_from (by omega), stamped_behind hend (by omega) (by omega) hj]

include hshort

theorem residence_stampedPacket (hle : t₁ ≤ t₂) :
    (if rd64 (stampedPacket mem ipLen t₁ f) (f.msgEnd + 10) < t₂ then
      t₂ - rd64 (stampedPacket mem ipLen t₁ f) (f.msgEnd + 10) else 0) = t₂ - t₁ := by
  obtain ⟨-, -, -, -, -, hend, -⟩ := h.bounds
  have htime : rd64 (stampedPacket mem ipLen t₁ f) (f.msgEnd + 10) = t₁ := by
    exact (rd64_congr fun k hk => h.stampedPacket_from (by omega)).trans
      (stamped_time hend (by omega))
  grind

theorem correction_stampedPacket :
    rd64 (stampedPacket mem ipLen t₁ f) (f.ptp + 8) = rd64 mem (f.ptp + 8) := by
  obtain ⟨hihl, -, -, htlv, hle, -⟩ := h.bounds
  have hptp : f.ptp = f.ihl + 8 := rfl
  refine rd64_congr fun k hk => h.stampedPacket_before hshort (by omega) ?_
  unfold LengthField
  omega

/-- The egress undoes what the ingress did. -/
theorem strip (hle : t₁ ≤ t₂) :
    (ptpStrip (stampedPacket mem ipLen t₁ f) (ipLen + 18) t₂ f.grown f.msgEnd).ipLen = ipLen ∧
      (ptpStrip (stampedPacket mem ipLen t₁ f) (ipLen + 18) t₂ f.grown f.msgEnd).residenceNs =
        t₂ - t₁ ∧
      Corrected mem (ptpStrip (stampedPacket mem ipLen t₁ f) (ipLen + 18) t₂ f.grown f.msgEnd).mem
        ipLen f (t₂ - t₁) := by
  obtain ⟨hihl, hsixty, hfour, htlv, hle', hend, hudp, hip⟩ := h.bounds
  have hrest : (ipLen + 18 + 65536 - (f.msgEnd + 18) % 65536) % 65536 = ipLen - f.msgEnd := by
    rw [sub_mod (by omega) hshort]
    omega
  have hback : ∀ n, n ≤ ipLen → (n + 18 + 65536 - 18) % 65536 = n := fun n hn => by omega
  have hptp : f.ptp = f.ihl + 8 := rfl
  have height : ∀ v, (beBytes 8 v).length = 8 := length_beBytes 8
  have hmem : (ptpStrip (stampedPacket mem ipLen t₁ f) (ipLen + 18) t₂ f.grown f.msgEnd).mem =
      putLengths (move (store (stampedPacket mem ipLen t₁ f) (f.ptp + 8)
        (beBytes 8 (rd64 mem (f.ptp + 8) + (t₂ - t₁) <<< 16).toNat)) f.msgEnd (f.msgEnd + 18)
          (ipLen - f.msgEnd)) f.ihl f.msgLen f.udpLen ipLen := by
    unfold ptpStrip
    dsimp only
    rw [h.residence_stampedPacket hshort hle, hrest]
    change putLengths (move (store (stampedPacket mem ipLen t₁ f) (f.ptp + 8) (beBytes 8
      (rd64 (stampedPacket mem ipLen t₁ f) (f.ptp + 8) + (t₂ - t₁) <<< 16).toNat)) _ _ _) f.ihl
        ((f.msgLen + 18 + 65536 - 18) % 65536) ((f.udpLen + 18 + 65536 - 18) % 65536) _ = _
    rw [h.correction_stampedPacket hshort, hback _ (by omega), hback _ (by omega),
      hback _ (le_refl _)]
  refine ⟨hback _ (le_refl _), h.residence_stampedPacket hshort hle, ?_⟩
  rw [hmem]
  refine ⟨fun j hj hfield hout => ?_, ?_, hasLengths_putLengths _ hihl (by omega) (by omega)
    (by omega), ?_⟩
  · rw [putLengths_outside hfield]
    exact h.stripped_eq (height _) hj hfield hout hshort
  · generalize hcorr : rd64 mem (f.ptp + 8) + (t₂ - t₁) <<< 16 = corr
    have hstored : ∀ k < 8, putLengths (move (store (stampedPacket mem ipLen t₁ f) (f.ptp + 8)
        (beBytes 8 corr.toNat)) f.msgEnd (f.msgEnd + 18) (ipLen - f.msgEnd)) f.ihl f.msgLen
          f.udpLen ipLen (f.ptp + 8 + k) = store (stampedPacket mem ipLen t₁ f) (f.ptp + 8)
            (beBytes 8 corr.toNat) (f.ptp + 8 + k) := by
      intro k hk
      have hfield : ¬LengthField f.ihl (f.ptp + 8 + k) := by
        unfold LengthField
        omega
      rw [putLengths_outside hfield, move_outside (by omega)]
    exact (rd64_congr hstored).trans (rd64_store corr _)
  · refine sumsToOnes_ptpIpChecksum hihl hsixty (by omega) ?_
    have hfield : ¬LengthField f.ihl 0 := by
      unfold LengthField
      omega
    rw [writeLengths_outside hfield, h.stripped_eq (height _) (by omega) hfield (by omega) hshort]
    intro hzero
    have hver := h.datagram.version
    rw [hzero] at hver
    exact absurd hver (by decide)

end PtpPacket

/-! ## Both directions -/

/-- The ingress of a packet, and the egress of what leaves it. -/
def ptpThrough (mem : Memory) (ipLen : UInt16) (cap cap' : UInt32) (t₁ t₂ : UInt64) : PtpRun :=
  let r := upfPtpProcess mem ipLen cap true t₁
  upfPtpProcess r.mem (UInt16.ofNat r.ipLen) cap' false t₂

theorem PtpRun.after_after (r : PtpRun) (reads reads' : List Nat) :
    (r.after reads).after reads' = r.after (reads' ++ reads) := by
  simp only [PtpRun.after, append_assoc]

/-- A number of 64 bits with a sign. -/
def signed (v : UInt64) : Int := v.toBitVec.toInt

/-- The increase is exact where the number has room for it. -/
theorem signed_add_shift {v ns : UInt64} (h : signed v + ns.toNat * 65536 < 2 ^ 63) :
    signed (v + ns <<< 16) = signed v + ns.toNat * 65536 := by
  have hlow : -(2 ^ 63 : Int) ≤ signed v := BitVec.le_toInt v.toBitVec
  have hshift : (ns <<< 16).toNat = ns.toNat * 65536 := by
    grind [UInt64.toNat_shiftLeft, Nat.shiftLeft_eq]
  unfold signed at h hlow ⊢
  rw [UInt64.toBitVec_add, BitVec.toInt_add, BitVec.toInt_eq_toNat_bmod (ns <<< 16).toBitVec,
    Int.add_bmod_bmod, UInt64.toNat_toBitVec, hshift, Int.bmod_eq_of_le (by omega) (by omega)]
  omega

namespace PtpPacket

variable {ipLen : UInt16} {cap cap' : UInt32} {t₁ t₂ : UInt64}
  (h : PtpPacket mem ipLen.toNat f)
include h

theorem frame : (ptpFrame ipLen.toNat).value mem = some f := by
  have hsum : SumFits mem ipLen.toNat := by
    intro ihl udpLen hother
    have hfits := h.fits
    have hshort := ipLen.toNat_lt
    rw [hother.udpLen_eq, hother.ihl_eq, ← h.datagram.ihl_eq, ← h.datagram.udpLen_eq]
    omega
  exact ((yields_ptpFrame hsum).2 f).2 ⟨h.datagram, h.fits, h.message⟩

/-- Without headroom the packet passes both untouched. -/
theorem through_untouched (hcap : cap.toNat < ipLen.toNat + 18) :
    (ptpThrough mem ipLen cap cap' t₁ t₂).mem = mem ∧
      (ptpThrough mem ipLen cap cap' t₁ t₂).ipLen = ipLen.toNat := by
  have hfirst : upfPtpProcess mem ipLen cap true t₁ =
      (PtpRun.idle mem ipLen.toNat).after ((ptpFrame ipLen.toNat).reads mem) := by
    rw [upfPtpProcess_ingress h.frame, ptpIngress, if_pos hcap]
    rfl
  have hback : UInt16.ofNat ((PtpRun.idle mem ipLen.toNat).after
      ((ptpFrame ipLen.toNat).reads mem)).ipLen = ipLen := UInt16.ofNat_toNat
  unfold ptpThrough
  rw [hfirst]
  dsimp only
  rw [hback]
  change (upfPtpProcess mem ipLen cap' false t₂).mem = mem ∧
    (upfPtpProcess mem ipLen cap' false t₂).ipLen = ipLen.toNat
  rw [upfPtpProcess_egress h.frame, ptpEgress_none h.chain.findSuffix_none]
  exact ⟨rfl, rfl⟩

variable (cap' t₁ t₂) in
/-- With headroom the egress undoes what the ingress did. -/
theorem through_strip (hcap : ipLen.toNat + 18 ≤ cap.toNat) (hshort : ipLen.toNat + 18 < 65536) :
    ∃ reads, ptpThrough mem ipLen cap cap' t₁ t₂ =
      (ptpStrip (stampedPacket mem ipLen.toNat t₁ f) (ipLen.toNat + 18) t₂ f.grown f.msgEnd).after
        reads := by
  obtain ⟨-, -, -, -, -, -, hudp, hip⟩ := h.bounds
  obtain ⟨hmem, hlen⟩ := ptpIngress_mem mem f t₁ hcap
  rw [mod_eq_of_lt (by omega), mod_eq_of_lt (by omega), mod_eq_of_lt hshort] at hmem
  rw [mod_eq_of_lt hshort] at hlen
  have hgrown : (UInt16.ofNat (ipLen.toNat + 18)).toNat = ipLen.toNat + 18 :=
    toNat_ofNat_of_lt hshort
  have hframe : (ptpFrame (UInt16.ofNat (ipLen.toNat + 18)).toNat).value
      (stampedPacket mem ipLen.toNat t₁ f) = some f.grown := by
    rw [hgrown]
    exact h.frame_stampedPacket hshort
  have hthere : ptpThrough mem ipLen cap cap' t₁ t₂ =
      upfPtpProcess (stampedPacket mem ipLen.toNat t₁ f) (ofNat (ipLen.toNat + 18)) cap'
        false t₂ := by
    unfold ptpThrough
    rw [upfPtpProcess_ingress h.frame]
    dsimp only [PtpRun.after]
    rw [hmem, hlen]
    rfl
  rw [hthere, upfPtpProcess_egress hframe, ptpEgress_some (h.found_stampedPacket hshort), hgrown]
  exact ⟨_, PtpRun.after_after _ _ _⟩

end PtpPacket

/-- A message without a suffix that goes through both, at times in this order, is as it was but for
the correction field, which has grown by the time between them; where there is no headroom for the
suffix, it passes untouched. -/
theorem residence_corrected {mem : Memory} {ipLen : UInt16} {f : PtpFrame}
    (h : PtpPacket mem ipLen.toNat f) {t₁ t₂ : UInt64} (hle : t₁ ≤ t₂) (cap cap' : UInt32) :
    (ipLen.toNat + 18 ≤ cap.toNat → ipLen.toNat + 18 < 65536 →
      let r := ptpThrough mem ipLen cap cap' t₁ t₂
      r.ipLen = ipLen.toNat ∧ r.residenceNs = t₂ - t₁ ∧
        Corrected mem r.mem ipLen.toNat f (t₂ - t₁) ∧
        (signed (rd64 mem (f.ptp + 8)) + (t₂ - t₁).toNat * 65536 < 2 ^ 63 →
          signed (rd64 r.mem (f.ptp + 8)) =
            signed (rd64 mem (f.ptp + 8)) + (t₂ - t₁).toNat * 65536)) ∧
    (cap.toNat < ipLen.toNat + 18 →
      let r := ptpThrough mem ipLen cap cap' t₁ t₂
      r.mem = mem ∧ r.ipLen = ipLen.toNat) := by
  refine ⟨fun hcap hshort => ?_, fun hcap => h.through_untouched hcap⟩
  obtain ⟨reads, hrun⟩ := h.through_strip cap' t₁ t₂ hcap hshort
  obtain ⟨hlen, htime, hback⟩ := h.strip hshort hle
  rw [hrun]
  refine ⟨hlen, htime, hback, fun hroom => ?_⟩
  have hcorr := hback.correction
  change signed (rd64 (ptpStrip (stampedPacket mem ipLen.toNat t₁ f) (ipLen.toNat + 18) t₂ f.grown
    f.msgEnd).mem (f.ptp + 8)) = _
  rw [hcorr, signed_add_shift hroom]

def syncHeader : Memory := fun i =>
  [0x45, 0, 0, 72, 0, 0, 0, 0, 64, 17, 0, 0, 10, 0, 0, 1, 10, 0, 0, 2, 0x01, 0x3F, 0x01, 0x3F, 0,
    52, 0, 0, 0, 2, 0, 44].getD i 0

/-- A Sync message in 72 bytes, with a correction field of its own. -/
def syncPacket (correction : UInt64) : Memory :=
  store syncHeader 36 (Pfcp.beBytes 8 correction.toNat)

def syncFrame : PtpFrame := ⟨20, 52, 44, 10⟩

theorem ptpPacket_sync (correction : UInt64) : PtpPacket (syncPacket correction) 72 syncFrame := by
  have hhead : ∀ j < 36, syncPacket correction j = syncHeader j := fun j hj =>
    store_outside (.inl hj)
  refine ⟨⟨by decide, ?_, ?_, by decide, ?_, by decide, .inl ?_, ?_, by decide⟩, by decide,
    ⟨?_, ?_, ?_, by decide, by decide⟩, .done⟩
  · rw [hhead 0 (by decide)]
    rfl
  · rw [hhead 0 (by decide)]
    rfl
  · exact hhead 9 (by decide)
  · rw [hhead (syncFrame.ihl + 2) (by decide), hhead (syncFrame.ihl + 3) (by decide)]
    rfl
  · rw [hhead (syncFrame.ihl + 4) (by decide), hhead (syncFrame.ihl + 5) (by decide)]
    rfl
  · rw [hhead (syncFrame.ihl + 8 + 1) (by decide)]
    rfl
  · rw [hhead (syncFrame.ihl + 8 + 2) (by decide), hhead (syncFrame.ihl + 8 + 2 + 1) (by decide)]
    rfl
  · rw [hhead (syncFrame.ihl + 8) (by decide)]
    rfl

/-- In a buffer with 56 bytes to spare, and in one with none. -/
theorem residence_corrected_sync :
    ((ptpThrough (syncPacket 7) 72 128 128 1000 3500).ipLen = 72 ∧
      (ptpThrough (syncPacket 7) 72 128 128 1000 3500).residenceNs = 2500 ∧
      Corrected (syncPacket 7) (ptpThrough (syncPacket 7) 72 128 128 1000 3500).mem 72 syncFrame
        2500 ∧
      signed (rd64 (ptpThrough (syncPacket 7) 72 128 128 1000 3500).mem 36) = 163840007) ∧
    (ptpThrough (syncPacket 7) 72 72 128 1000 3500).mem = syncPacket 7 := by
  have hpacket : PtpPacket (syncPacket 7) (72 : UInt16).toNat syncFrame := ptpPacket_sync 7
  have hle : (1000 : UInt64) ≤ 3500 := by decide
  have hcorr : signed (rd64 (syncPacket 7) 36) = 7 := by decide
  obtain ⟨hlen, htime, hback, hsum⟩ :=
    (residence_corrected hpacket hle 128 128).1 (by decide) (by decide)
  have hnone := (residence_corrected hpacket hle 72 128).2 (by decide)
  refine ⟨⟨hlen, htime, hback, ?_⟩, hnone.1⟩
  have hroom : signed (rd64 (syncPacket 7) 36) + ((3500 - 1000 : UInt64).toNat : Int) * 65536 <
      2 ^ 63 := by
    rw [hcorr]
    decide
  have hgrown := hsum hroom
  exact hgrown

/-- A packet that fills its buffer is not stamped, and a correction field at its largest value has
no room for a nanosecond. -/
theorem correction_not_added :
    signed (rd64 (ptpThrough (syncPacket 0) 72 72 72 0 1).mem 36) ≠
        signed (rd64 (syncPacket 0) 36) + 65536 ∧
      signed (rd64 (ptpThrough (syncPacket (2 ^ 63 - 1)) 72 128 128 0 1).mem 36) ≠
        signed (rd64 (syncPacket (2 ^ 63 - 1)) 36) + 65536 := by
  decide +kernel

end MmtCore.Upf
