import MmtCore.Upf.DlBuffer
import MmtCore.Upf.Gtpu

/-!
# What comes back through GTP-U

`gtpu_encode` of `upf_gtpu.c` and `gtpu_decode` of what it wrote.  The encoder adds up the length
of the packet in 16 bits and checks that sum against the capacity of the buffer, and it puts six
bits of the QFI into the header.  So an inner packet comes back exactly when the encoder refuses
it, or the sum does not wrap and the QFI has six bits (`round_trip_iff`).
-/

namespace MmtCore.Upf.Gtpu

open MmtCore.Lib List Probe Nat Or

/-! ## Encoding -/

/-- What `gtpu_encode` does when it does not fail: what it returns, and the bytes it stores from
the start of the buffer. -/
structure GtpuEncoded where
  total : UInt16
  written : List UInt8
deriving DecidableEq

/-- `htons`, as bytes. -/
def htons (n : UInt16) : List UInt8 := [UInt8.ofNat (n.toNat / 2 ^ 8), UInt8.ofNat n.toNat]

/-- `htonl`, as bytes. -/
def htonl (n : UInt32) : List UInt8 :=
  [UInt8.ofNat (n.toNat / 2 ^ 24), UInt8.ofNat (n.toNat / 2 ^ 16), UInt8.ofNat (n.toNat / 2 ^ 8),
    UInt8.ofNat n.toNat]

/-- The fields of `gtpu_hdr_t`. -/
def gtpuHdr (flags : UInt8) (length : UInt16) (teid : UInt32) : List UInt8 :=
  [flags, gtpuMsgGpdu] ++ htons length ++ htonl teid

/-- `memcpy` from the inner packet. -/
def innerBytes (innerPkt : Memory) (innerLen : UInt16) : List UInt8 :=
  (List.range innerLen.toNat).map innerPkt

/-- `gtpu_encode`; `none` is `-1`. -/
def gtpuEncode (outBufSz : UInt64) (teid : UInt32) (qfi : UInt8) (innerPkt : Memory)
    (innerLen : UInt16) : Option GtpuEncoded :=
  if qfi > 0 then
    let total : UInt16 := 16 + innerLen
    if total.toUInt64 > outBufSz then none
    else
      some ⟨total, gtpuHdr (gtpuVerV1 ||| gtpuPtGtp ||| gtpuEFlag) (innerLen + 8) teid ++
        [0, 0, 0, gtpuExtPduSessionContainer] ++ [1, 0x00, qfi &&& 0x3F, 0] ++
        innerBytes innerPkt innerLen⟩
  else
    let total : UInt16 := 8 + innerLen
    if total.toUInt64 > outBufSz then none
    else
      some ⟨total, gtpuHdr (gtpuVerV1 ||| gtpuPtGtp) innerLen teid ++ innerBytes innerPkt innerLen⟩

/-- The buffer after bytes have been stored from its start. -/
def stored (old : Memory) (l : List UInt8) : Memory := fun i => l[i]?.getD (old i)

/-- The length of the header in front of the inner packet. -/
def gtpuHeaderLen (qfi : UInt8) : Nat := if qfi > 0 then 16 else 8

/-- The encoder fails, or writes a header and the payload within the capacity, which decode to the
same TEID, QFI and inner bytes, whatever was in the buffer. -/
def RoundTrips (outBufSz : UInt64) (teid : UInt32) (qfi : UInt8) (innerPkt : Memory)
    (innerLen : UInt16) : Prop :=
  ∀ e, gtpuEncode outBufSz teid qfi innerPkt innerLen = some e →
    e.written.length = gtpuHeaderLen qfi + innerLen.toNat ∧
      e.written.length ≤ outBufSz.toNat ∧
      ∀ old, ∃ fuel d, (gtpuDecode e.total fuel).value (stored old e.written) = some (some d) ∧
        d.teid = teid ∧ d.qfi = qfi ∧ d.payloadLen = innerLen ∧
        ∀ i < innerLen.toNat, stored old e.written (d.payload + i) = innerPkt i

/-! ## What a decoding returns -/

section Decoded

variable {mem : Memory} {len : UInt16}
variable {fuel : Nat} {e : UInt16 × UInt8}

/-- The QFI of a packet has six bits. -/
theorem extLoop_qfi {next : UInt8} {h : UInt16} {qfi : UInt8} (hq : qfi.toNat < 64)
    (hv : (extLoop len fuel next h qfi).value mem = some (some e)) :
    e.2.toNat < 64 := by
  induction fuel generalizing next h qfi with
  | zero => cases hv
  | succ fuel ih =>
    by_cases hstop : next = 0 ∨ len.toNat ≤ h.toNat
    · rw [extLoop_leave hstop, value_pure] at hv
      cases hv
      exact hq
    · have hnext : next ≠ 0 := fun h0 => hstop (inl h0)
      have hlt : h.toNat < len.toNat := by omega
      by_cases hmem : mem h.toNat = 0
      · rw [(extLoop_empty hnext hlt hmem).1] at hv
        cases hv
      · rw [(extLoop_header hnext hlt hmem _ _).1] at hv
        refine ih ?_ hv
        unfold qfiAfter extQfi
        split
        · rw [Probe.value_bind, Probe.value_byte, Probe.value_pure, UInt8.toNat_and]
          exact lt_of_le_of_lt and_le_right (by decide)
        · exact hq

theorem gtpuHeaderEnd_qfi {flags : UInt8}
    (hv : (gtpuHeaderEnd len fuel flags).value mem = some (some e)) : e.2.toNat < 64 := by
  rw [gtpuHeaderEnd] at hv
  split at hv
  · split at hv
    · cases hv
    · split at hv
      · exact extLoop_qfi (by decide) hv
      · cases hv
        decide
  · cases hv
    decide

/-- Whatever the packet, the payload is no longer than it and the QFI has six bits. -/
theorem gtpuDecode_bounds {d : GtpuDecoded} (hv : (gtpuDecode len fuel).value mem = some (some d)) :
    d.payloadLen.toNat ≤ len.toNat ∧ d.qfi.toNat < 64 := by
  by_cases hg : IsGpdu mem len
  · rw [(gtpuDecode_gpdu hg fuel).1] at hv
    cases he : (gtpuHeaderEnd len fuel (mem 0)).value mem with
    | none =>
      rw [he] at hv
      cases hv
    | some p =>
      cases p with
      | none =>
        rw [he] at hv
        cases hv
      | some e =>
        grind [gtpuResult, UInt16.toNat_sub_of_le, gtpuHeaderEnd_qfi]
  · rw [(gtpuDecode_refused hg fuel).1] at hv
    cases hv

end Decoded

/-! ## What the encoder stores -/

section Stored

variable {teid : UInt32} {qfi : UInt8} {innerLen : UInt16} {innerPkt old : Memory}

/-- The sum of the lengths, in 16 bits. -/
def gtpuTotal (qfi : UInt8) (innerLen : UInt16) : UInt16 :=
  if qfi > 0 then 16 + innerLen else 8 + innerLen

/-- The header in front of the inner packet. -/
def gtpuHeader (teid : UInt32) (qfi : UInt8) (innerLen : UInt16) : List UInt8 :=
  if qfi > 0 then
    gtpuHdr (gtpuVerV1 ||| gtpuPtGtp ||| gtpuEFlag) (innerLen + 8) teid ++
      [0, 0, 0, gtpuExtPduSessionContainer] ++ [1, 0x00, qfi &&& 0x3F, 0]
  else gtpuHdr (gtpuVerV1 ||| gtpuPtGtp) innerLen teid

/-- The two branches of the encoder are one. -/
theorem gtpuEncode_eq (outBufSz : UInt64) (teid : UInt32) (qfi : UInt8) (innerPkt : Memory)
    (innerLen : UInt16) :
    gtpuEncode outBufSz teid qfi innerPkt innerLen =
      if (gtpuTotal qfi innerLen).toUInt64 > outBufSz then none
      else some ⟨gtpuTotal qfi innerLen,
        gtpuHeader teid qfi innerLen ++ innerBytes innerPkt innerLen⟩ := by
  grind [gtpuEncode, gtpuTotal, gtpuHeader]

theorem gtpuTotal_toNat (qfi : UInt8) (innerLen : UInt16) :
    (gtpuTotal qfi innerLen).toNat = (gtpuHeaderLen qfi + innerLen.toNat) % 2 ^ 16 := by
  unfold gtpuTotal gtpuHeaderLen
  split <;> exact UInt16.toNat_add _ _

theorem gtpuHeader_length (teid : UInt32) (qfi : UInt8) (innerLen : UInt16) :
    (gtpuHeader teid qfi innerLen).length = gtpuHeaderLen qfi := by
  unfold gtpuHeader gtpuHeaderLen
  split <;> rfl

theorem innerBytes_length : (innerBytes innerPkt innerLen).length = innerLen.toNat := by
  rw [innerBytes, length_map, length_range]

/-- The inner packet lies behind the header. -/
theorem stored_inner {i : Nat} (hi : i < innerLen.toNat) :
    stored old (gtpuHeader teid qfi innerLen ++ innerBytes innerPkt innerLen)
      (gtpuHeaderLen qfi + i) = innerPkt i := by
  rw [stored, ← gtpuHeader_length teid qfi innerLen,
    List.getElem?_append_right (Nat.le_add_right _ _), Nat.add_sub_cancel_left, innerBytes,
    getElem?_map, getElem?_range hi]
  rfl

/-- `ntohl` takes `htonl` back. -/
theorem be32_htonl (n : UInt32) :
    be32 (UInt8.ofNat (n.toNat / 2 ^ 24)) (UInt8.ofNat (n.toNat / 2 ^ 16))
      (UInt8.ofNat (n.toNat / 2 ^ 8)) (UInt8.ofNat n.toNat) = n := by
  have hn := n.toNat_lt
  apply UInt32.toNat_inj.mp
  simp only [be32, UInt32.toNat_ofNat', UInt8.toNat_ofNat']
  omega

/-- The six bits of a QFI that has no more. -/
theorem and_63_of_lt (h : qfi.toNat < 64) : qfi &&& 0x3F = qfi := by
  apply UInt8.toNat_inj.mp
  rw [UInt8.toNat_and]
  have h63 : (0x3F : UInt8).toNat = 2 ^ 6 - 1 := rfl
  rw [h63, and_two_pow_sub_one_eq_mod, mod_eq_of_lt h]

/-- What was stored is decoded to the header's fields, if the sum of the lengths did not wrap and
the header ends where it should. -/
theorem gtpuDecode_of_headerEnd {mem : Memory} {fuel : Nat}
    (hg : IsGpdu mem (gtpuTotal qfi innerLen))
    (hsum : gtpuHeaderLen qfi + innerLen.toNat < 2 ^ 16)
    (hteid : be32 (mem 4) (mem 5) (mem 6) (mem 7) = teid) {h : UInt16}
    (hh : h.toNat = gtpuHeaderLen qfi)
    (hv : (gtpuHeaderEnd (gtpuTotal qfi innerLen) fuel (mem 0)).value mem = some (some (h, qfi))) :
    (gtpuDecode (gtpuTotal qfi innerLen) fuel).value mem =
      some (some ⟨teid, qfi, gtpuHeaderLen qfi, innerLen⟩) := by
  have htotal : (gtpuTotal qfi innerLen).toNat = gtpuHeaderLen qfi + innerLen.toNat := by
    rw [gtpuTotal_toNat, mod_eq_of_lt hsum]
  have hle : h ≤ gtpuTotal qfi innerLen := UInt16.le_iff_toNat_le.mpr (by omega)
  have hrest : gtpuTotal qfi innerLen - h = innerLen := by
    apply UInt16.toNat_inj.mp
    rw [UInt16.toNat_sub_of_le _ _ hle]
    omega
  simp_all [gtpuResult, gtpuDecode_gpdu]

theorem gtpuDecode_stored (hsum : gtpuHeaderLen qfi + innerLen.toNat < 2 ^ 16)
    (hqfi : qfi.toNat < 64) :
    (gtpuDecode (gtpuTotal qfi innerLen) 2).value
        (stored old (gtpuHeader teid qfi innerLen ++ innerBytes innerPkt innerLen)) =
      some (some ⟨teid, qfi, gtpuHeaderLen qfi, innerLen⟩) := by
  have htotal : (gtpuTotal qfi innerLen).toNat = gtpuHeaderLen qfi + innerLen.toNat := by
    rw [gtpuTotal_toNat, mod_eq_of_lt hsum]
  generalize hm : stored old (gtpuHeader teid qfi innerLen ++ innerBytes innerPkt innerLen) = mem
  by_cases hq : qfi > 0
  · have hlen : gtpuHeaderLen qfi = 16 := if_pos hq
    rw [gtpuHeader, if_pos hq] at hm
    have h0 : mem 0 = 0x34 := by rw [← hm]; rfl
    have h1 : mem 1 = 0xFF := by rw [← hm]; rfl
    have h11 : mem 11 = 0x85 := by rw [← hm]; rfl
    have h12 : mem (12 : UInt16).toNat = 1 := by rw [← hm]; rfl
    have h14 : mem 14 = qfi &&& 0x3F := by rw [← hm]; rfl
    have h15 : mem 15 = 0 := by rw [← hm]; rfl
    have hteid : be32 (mem 4) (mem 5) (mem 6) (mem 7) = teid := by
      rw [← hm]
      exact be32_htonl teid
    have h12le : 12 ≤ (gtpuTotal qfi innerLen).toNat := by omega
    refine gtpuDecode_of_headerEnd (h := 16) ?_ hsum hteid hlen.symm ?_
    · exact ⟨by omega, by rw [h0]; decide, by rw [h0]; decide, h1⟩
    · have hlt : (12 : UInt16).toNat < (gtpuTotal qfi innerLen).toNat := by
        have htw : (12 : UInt16).toNat = 12 := rfl
        omega
      have hnz : mem (12 : UInt16).toNat ≠ 0 := by rw [h12]; decide
      rw [gtpuHeaderEnd, h0, if_pos (by decide), if_neg (not_lt_twelve h12le), if_pos (by decide),
        value_bind, value_byte, h11, (extLoop_header (by decide) hlt hnz 1 0).1, h12]
      have hq14 : qfiAfter mem 0x85 12 0 = qfi := by
        rw [qfiAfter, h12, extQfi, if_pos (by decide), value_bind, value_byte]
        simp_all [and_63_of_lt]
      simp_all [extLoop_leave]
  · have hlen : gtpuHeaderLen qfi = 8 := if_neg hq
    have hzero : qfi = 0 := UInt8.le_zero_iff.mp (UInt8.not_lt.mp hq)
    rw [gtpuHeader, if_neg hq] at hm
    have h0 : mem 0 = 0x30 := by rw [← hm]; rfl
    have h1 : mem 1 = 0xFF := by rw [← hm]; rfl
    have hteid : be32 (mem 4) (mem 5) (mem 6) (mem 7) = teid := by
      rw [← hm]
      exact be32_htonl teid
    refine gtpuDecode_of_headerEnd (h := 8) ?_ hsum hteid hlen.symm ?_
    · exact ⟨by omega, by rw [h0]; decide, by rw [h0]; decide, h1⟩
    · rw [gtpuHeaderEnd, h0, if_neg (by decide), hzero]
      rfl

end Stored

/-! ## Round trips -/

/-- The encoder refuses the packet, or the sum of the lengths does not wrap and the QFI has six
bits. -/
def Carriable (outBufSz : UInt64) (qfi : UInt8) (innerLen : UInt16) : Prop :=
  outBufSz.toNat < (gtpuHeaderLen qfi + innerLen.toNat) % 2 ^ 16 ∨
    gtpuHeaderLen qfi + innerLen.toNat < 2 ^ 16 ∧ qfi.toNat < 64
  deriving Decidable

section Trip

variable {outBufSz : UInt64} {teid : UInt32} {qfi : UInt8} {innerLen : UInt16} {innerPkt : Memory}

theorem gtpuTotal_gt_iff :
    (gtpuTotal qfi innerLen).toUInt64 > outBufSz ↔
      outBufSz.toNat < (gtpuHeaderLen qfi + innerLen.toNat) % 2 ^ 16 := by
  rw [gt_iff_lt, UInt64.lt_iff_toNat_lt, UInt16.toNat_toUInt64, gtpuTotal_toNat]

theorem roundTrips_of_carriable (h : Carriable outBufSz qfi innerLen) :
    RoundTrips outBufSz teid qfi innerPkt innerLen := by
  intro e he
  rw [gtpuEncode_eq] at he
  split at he
  · cases he
  · rename_i hcap
    rw [gtpuTotal_gt_iff] at hcap
    rcases h with hfail | ⟨hsum, hqfi⟩
    · exact absurd hfail hcap
    cases he
    have hlen : (gtpuHeader teid qfi innerLen ++ innerBytes innerPkt innerLen).length =
        gtpuHeaderLen qfi + innerLen.toNat := by
      rw [length_append, gtpuHeader_length, innerBytes_length]
    refine ⟨hlen, ?_, fun old => ?_⟩
    · simp_all [mod_eq_of_lt]
    · exact ⟨2, _, gtpuDecode_stored hsum hqfi, rfl, rfl, rfl, fun i hi => stored_inner hi⟩

theorem carriable_of_roundTrips (h : RoundTrips outBufSz teid qfi innerPkt innerLen) :
    Carriable outBufSz qfi innerLen := by
  by_cases hcap : (gtpuTotal qfi innerLen).toUInt64 > outBufSz
  · exact inl (gtpuTotal_gt_iff.mp hcap)
  · refine inr ?_
    obtain ⟨-, -, htrip⟩ := h _ (by rw [gtpuEncode_eq, if_neg hcap])
    obtain ⟨fuel, d, hv, -, hq, hlen, -⟩ := htrip fun _ => 0
    obtain ⟨hle, hbits⟩ := gtpuDecode_bounds hv
    grind [gtpuTotal_toNat, gtpuHeaderLen]

end Trip

/-- An inner packet comes back through GTP-U, or is refused, exactly when the sum of the lengths in
16 bits is above the capacity, or it does not wrap and the QFI has six bits. -/
theorem round_trip_iff (outBufSz : UInt64) (teid : UInt32) (qfi : UInt8) (innerPkt : Memory)
    (innerLen : UInt16) :
    RoundTrips outBufSz teid qfi innerPkt innerLen ↔ Carriable outBufSz qfi innerLen :=
  ⟨carriable_of_roundTrips, roundTrips_of_carriable⟩

/-- An inner packet of 65530 bytes is written past a buffer of 65536. -/
theorem not_every_round_trip :
    ¬∀ (outBufSz : UInt64) (teid : UInt32) (qfi : UInt8) (innerPkt : Memory) (innerLen : UInt16),
      RoundTrips outBufSz teid qfi innerPkt innerLen := by
  intro h
  have hc := carriable_of_roundTrips (h 65536 1 0 (fun _ => 0) 65530)
  exact absurd hc (by decide)

end MmtCore.Upf.Gtpu
