import MmtCore.Lib.Probe

/-!
# GTP-U headers

`upf_gtpu.c`.  `gtpu_decode` reads the mandatory header and walks the chain of extension headers
with a 16-bit cursor.  It looks at the length octet of an extension header only when that lies in
the packet, but at the QFI and the next type where that length says they are, in the packet or not,
and it stops at the end of the packet whether the chain has ended or not.  The length field of the
header it does not read.  So it is safe exactly on the packets whose chain lies in them, up to its
end or to a header of length zero, and that are no longer than their length field says
(`decode_safe_iff`).
-/

namespace MmtCore.Upf

open MmtCore.Lib UInt16 Probe Or

/-! ## The constants of the header -/

/-- `GTPU_VER_V1`. -/
def gtpuVerV1 : UInt8 := 0x20

/-- `GTPU_PT_GTP`. -/
def gtpuPtGtp : UInt8 := 0x10

/-- `GTPU_E_FLAG`. -/
def gtpuEFlag : UInt8 := 0x04

/-- `GTPU_S_FLAG`. -/
def gtpuSFlag : UInt8 := 0x02

/-- `GTPU_PN_FLAG`. -/
def gtpuPnFlag : UInt8 := 0x01

/-- `GTPU_MSG_GPDU`. -/
def gtpuMsgGpdu : UInt8 := 0xFF

/-- `GTPU_EXT_PDU_SESSION_CONTAINER`. -/
def gtpuExtPduSessionContainer : UInt8 := 0x85

/-! ## Decoding -/

/-- `gtpu_decoded_t`; the payload is given by its offset in the buffer. -/
structure GtpuDecoded where
  teid : UInt32
  qfi : UInt8
  payload : Nat
  payloadLen : UInt16
deriving DecidableEq

/-- The QFI of an extension header at `hdrLen`, where it is a PDU Session Container. -/
def extQfi (nextExt : UInt8) (hdrLen extTotal : UInt16) (qfi : UInt8) : Probe UInt8 :=
  if nextExt = gtpuExtPduSessionContainer ∧ extTotal ≥ 4 then
    Probe.byte (hdrLen.toNat + 2) >>= fun b => pure (b &&& 0x3F)
  else pure qfi

/-- The loop over the extension headers: the offset after them and the QFI.  The outer `none` is
for a loop that has not ended, the inner one for `-1`. -/
def extLoop (len : UInt16) :
    Nat → UInt8 → UInt16 → UInt8 → Probe (Option (Option (UInt16 × UInt8)))
  | 0, _, _, _ => pure none
  | fuel + 1, nextExt, hdrLen, qfi =>
    if nextExt ≠ 0x00 ∧ hdrLen < len then
      if hdrLen ≥ len then pure (some none)
      else
        Probe.byte hdrLen.toNat >>= fun extLenUnits =>
          if extLenUnits = 0 then pure (some none)
          else
            let extTotal : UInt16 := extLenUnits.toUInt16 * 4
            extQfi nextExt hdrLen extTotal qfi >>= fun qfi =>
              Probe.byte (hdrLen.toNat + extTotal.toNat - 1) >>= fun nextExt =>
                extLoop len fuel nextExt (hdrLen + extTotal) qfi
    else pure (some (some (hdrLen, qfi)))

/-- The optional part of the header: the offset of the payload and the QFI. -/
def gtpuHeaderEnd (len : UInt16) (fuel : Nat) (flags : UInt8) :
    Probe (Option (Option (UInt16 × UInt8))) :=
  if flags &&& (gtpuEFlag ||| gtpuSFlag ||| gtpuPnFlag) ≠ 0 then
    if len < 12 then pure (some none)
    else if flags &&& gtpuEFlag ≠ 0 then
      Probe.byte 11 >>= fun nextExt => extLoop len fuel nextExt 12 0
    else pure (some (some (12, 0)))
  else pure (some (some (8, 0)))

/-- `gtpu_decode`. -/
def gtpuDecode (len : UInt16) (fuel : Nat) : Probe (Option (Option GtpuDecoded)) :=
  if len < 8 then pure (some none)
  else
    Probe.byte 0 >>= fun flags => Probe.byte 1 >>= fun msgType =>
      if flags &&& 0xE0 ≠ gtpuVerV1 then pure (some none)
      else if flags &&& gtpuPtGtp = 0 then pure (some none)
      else if msgType ≠ gtpuMsgGpdu then pure (some none)
      else
        Probe.byte 4 >>= fun a => Probe.byte 5 >>= fun b => Probe.byte 6 >>= fun c =>
          Probe.byte 7 >>= fun d =>
            gtpuHeaderEnd len fuel flags >>= fun r =>
              pure (r.map fun r => r.bind fun h =>
                if h.1 > len then none
                else some ⟨be32 a b c d, h.2, h.1.toNat, len - h.1⟩)

/-! ## The chain of extension headers -/

/-- Following the chain from an offset with the type that announces it leads to an offset with the
type 0. -/
inductive ChainTo (mem : Memory) : Nat → UInt8 → Nat → Prop
  | last (pos : Nat) : ChainTo mem pos 0 pos
  | header {pos : Nat} {next : UInt8} {e : Nat} (hnext : next ≠ 0) (hpos : mem pos ≠ 0)
      (rest : ChainTo mem (pos + 4 * (mem pos).toNat) (mem (pos + 4 * (mem pos).toNat - 1)) e) :
      ChainTo mem pos next e

/-- The chain lies in a packet of `len` bytes, up to its end (`some`) or to a header of length zero
(`none`). -/
inductive ChainWithin (mem : Memory) (len : Nat) : Nat → UInt8 → Option Nat → Prop
  | last {pos : Nat} (hpos : pos ≤ len) : ChainWithin mem len pos 0 (some pos)
  | empty {pos : Nat} {next : UInt8} (hnext : next ≠ 0) (hpos : pos < len) (hmem : mem pos = 0) :
      ChainWithin mem len pos next none
  | header {pos : Nat} {next : UInt8} {e : Option Nat} (hnext : next ≠ 0) (hmem : mem pos ≠ 0)
      (hpos : pos + 4 * (mem pos).toNat ≤ len)
      (rest : ChainWithin mem len (pos + 4 * (mem pos).toNat)
        (mem (pos + 4 * (mem pos).toNat - 1)) e) :
      ChainWithin mem len pos next e

variable {mem : Memory} {next : UInt8}

theorem ChainTo.tail {pos e : Nat} (h : ChainTo mem pos next e) (hnext : next ≠ 0) : mem pos ≠ 0 ∧
      ChainTo mem (pos + 4 * (mem pos).toNat) (mem (pos + 4 * (mem pos).toNat - 1)) e := by
  cases h with
  | last => exact absurd rfl hnext
  | header _ hpos rest => exact ⟨hpos, rest⟩

theorem ChainTo.le {pos e : Nat} (h : ChainTo mem pos next e) : pos ≤ e := by
  induction h with
  | last => exact Nat.le_refl _
  | header _ _ _ ih => omega

/-- A chain that ends in the packet ends there without it too. -/
theorem ChainWithin.chainTo {len pos e : Nat} (h : ChainWithin mem len pos next (some e)) :
    ChainTo mem pos next e ∧ e ≤ len := by
  generalize he : some e = r at h
  induction h with
  | last hpos =>
    cases he
    exact ⟨ChainTo.last _, hpos⟩
  | empty => cases he
  | header hnext hmem _ _ ih => exact ⟨ChainTo.header hnext hmem (ih he).1, (ih he).2⟩

/-! ## The loop -/

section Loop

variable {mem : Memory} {len : UInt16}
variable {u : UInt8} {h : UInt16} {next qfi : UInt8} {fuel : Nat}

theorem pos_of_ne_zero (h : u ≠ 0) : 0 < u.toNat :=
  Nat.pos_of_ne_zero fun h0 => h (UInt8.toNat_inj.mp h0)

/-- The length of an extension header, in 16 bits. -/
theorem extTotal_toNat (u : UInt8) : (u.toUInt16 * 4).toNat = 4 * u.toNat := by
  have hu := u.toNat_lt
  grind [UInt16.toNat_mul, UInt8.toNat_toUInt16]

theorem hdrLen_add (hle : h.toNat + 4 * u.toNat ≤ len.toNat) :
    (h + u.toUInt16 * 4).toNat = h.toNat + 4 * u.toNat := by
  have hlen := len.toNat_lt
  rw [UInt16.toNat_add, extTotal_toNat]
  exact Nat.mod_eq_of_lt (by omega)

/-- The QFI is read in the extension header, if that has its four bytes. -/
theorem extQfi_within (hu : u ≠ 0) (hle : h.toNat + 4 * u.toNat ≤ len.toNat) :
    Probe.Within mem len.toNat (extQfi next h (u.toUInt16 * 4) qfi) := by
  grind [within_bind, extQfi, pos_of_ne_zero, within_byte, within_pure]

/-- The QFI after the extension header at `h`. -/
def qfiAfter (mem : Memory) (next : UInt8) (h : UInt16) (qfi : UInt8) : UInt8 :=
  (extQfi next h ((mem h.toNat).toUInt16 * 4) qfi).value mem

/-- A round at an extension header with a length. -/
theorem extLoop_header (hnext : next ≠ 0) (hlt : h.toNat < len.toNat) (hmem : mem h.toNat ≠ 0)
    (fuel : Nat) (qfi : UInt8) :
    (extLoop len (fuel + 1) next h qfi).value mem =
        (extLoop len fuel (mem (h.toNat + 4 * (mem h.toNat).toNat - 1))
          (h + (mem h.toNat).toUInt16 * 4) (qfiAfter mem next h qfi)).value mem ∧
      (Probe.Within mem len.toNat (extLoop len (fuel + 1) next h qfi) ↔
        h.toNat + 4 * (mem h.toNat).toNat ≤ len.toNat ∧
          Probe.Within mem len.toNat
            (extLoop len fuel (mem (h.toNat + 4 * (mem h.toNat).toNat - 1))
              (h + (mem h.toNat).toUInt16 * 4) (qfiAfter mem next h qfi))) := by
  have hlt' : h < len := lt_iff_toNat_lt.mpr hlt
  have hge : ¬h ≥ len := fun hge => absurd (UInt16.le_iff_toNat_le.mp hge) (Nat.not_le.mpr hlt)
  constructor
  · rw [extLoop, if_pos ⟨hnext, hlt'⟩, if_neg hge, value_bind, value_byte,
      if_neg hmem]
    rw [value_bind, value_bind, value_byte, extTotal_toNat]
    rfl
  · rw [extLoop, if_pos ⟨hnext, hlt'⟩, if_neg hge, within_bind, value_byte,
      if_neg hmem]
    rw [within_bind, within_bind, value_byte, within_byte,
      within_byte, extTotal_toNat]
    constructor
    · rintro ⟨-, -, hlast, hrest⟩
      exact ⟨by omega, hrest⟩
    · rintro ⟨hle, hrest⟩
      exact ⟨hlt, extQfi_within hmem hle, by omega, hrest⟩

/-- A round at an extension header of length zero. -/
theorem extLoop_empty (hnext : next ≠ 0) (hlt : h.toNat < len.toNat) (hmem : mem h.toNat = 0) :
    (extLoop len (fuel + 1) next h qfi).value mem = some none ∧
      Probe.Within mem len.toNat (extLoop len (fuel + 1) next h qfi) := by
  have hlt' : h < len := lt_iff_toNat_lt.mpr hlt
  have hge : ¬h ≥ len := fun hge => absurd (UInt16.le_iff_toNat_le.mp hge) (Nat.not_le.mpr hlt)
  constructor
  · rw [extLoop, if_pos ⟨hnext, hlt'⟩, if_neg hge, value_bind, value_byte,
      if_pos hmem, value_pure]
  · grind [extLoop, within_bind, value_byte, within_byte, within_pure]

/-- The round that leaves the loop. -/
theorem extLoop_leave (hstop : next = 0 ∨ len.toNat ≤ h.toNat) :
    extLoop len (fuel + 1) next h qfi = pure (some (some (h, qfi))) := by
  grind [extLoop, lt_iff_toNat_lt]

/-- A chain within the packet is walked to its end, and no byte past the packet is read. -/
theorem extLoop_of_within {pos : Nat} {e : Option Nat} (hc : ChainWithin mem len.toNat pos next e) :
    ∀ (h : UInt16) (qfi : UInt8), h.toNat = pos →
      ∃ (fuel : Nat) (r : Option (UInt16 × UInt8)),
        (extLoop len fuel next h qfi).value mem = some r ∧
          Probe.Within mem len.toNat (extLoop len fuel next h qfi) ∧
          r.map (·.1.toNat) = e := by
  induction hc with
  | last hpos =>
    rintro h qfi rfl
    refine ⟨1, some (h, qfi), ?_, ?_, rfl⟩
    · rw [extLoop_leave (inl rfl), value_pure]
    · rw [extLoop_leave (inl rfl)]
      exact within_pure _
  | empty hnext hpos hmem =>
    rintro h qfi rfl
    exact ⟨1, none, (extLoop_empty hnext hpos hmem).1, (extLoop_empty hnext hpos hmem).2, rfl⟩
  | header hnext hmem hle rest ih =>
    rintro h qfi rfl
    have hpos := pos_of_ne_zero hmem
    obtain ⟨fuel, r, hv, hw, hr⟩ := ih _ (qfiAfter mem _ h qfi) (hdrLen_add hle)
    obtain ⟨hstep, hreads⟩ := extLoop_header hnext (Nat.lt_of_lt_of_le (by omega) hle) hmem
      fuel qfi
    exact ⟨fuel + 1, r, hstep.trans hv, hreads.mpr ⟨hle, hw⟩, hr⟩

/-- A loop that ends, reads no byte past the packet, and accepts only at the end of the chain has
walked a chain within the packet. -/
theorem within_of_extLoop {r : Option (UInt16 × UInt8)} (hh : h.toNat ≤ len.toNat)
    (hv : (extLoop len fuel next h qfi).value mem = some r)
    (hw : Probe.Within mem len.toNat (extLoop len fuel next h qfi))
    (hend : ∀ e, r = some e → ChainTo mem h.toNat next e.1.toNat) :
    ChainWithin mem len.toNat h.toNat next (r.map (·.1.toNat)) := by
  induction fuel generalizing next h qfi with
  | zero => cases hv
  | succ fuel ih =>
    by_cases hnext : next = 0
    · subst hnext
      cases hv
      exact ChainWithin.last hh
    by_cases hlt : h.toNat < len.toNat
    · by_cases hmem : mem h.toNat = 0
      · rw [(extLoop_empty hnext hlt hmem).1] at hv
        cases hv
        exact ChainWithin.empty hnext hlt hmem
      · obtain ⟨hstep, hreads⟩ := extLoop_header hnext hlt hmem fuel qfi
        rw [hstep] at hv
        obtain ⟨hle, hrest⟩ := hreads.mp hw
        have hadd := hdrLen_add hle
        have hrec := ih (hadd ▸ hle) hv hrest
        rw [hadd] at hrec
        refine ChainWithin.header hnext hmem hle (hrec fun e he => ?_)
        -- The chain goes on at the header that follows.
        exact ((hend e he).tail hnext).2
    · -- Stopped by the end of the packet, the loop accepts a chain that has not ended.
      rw [extLoop_leave (inr (by omega)), value_pure] at hv
      cases hv
      obtain ⟨hmem, rest⟩ := (hend _ rfl).tail hnext
      have hpos := pos_of_ne_zero hmem
      have hle : h.toNat + 4 * (mem h.toNat).toNat ≤ h.toNat := rest.le
      omega

/-- A loop that reads no byte past the packet stops in it. -/
theorem extLoop_le {e : UInt16 × UInt8} (hh : h.toNat ≤ len.toNat)
    (hv : (extLoop len fuel next h qfi).value mem = some (some e))
    (hw : Probe.Within mem len.toNat (extLoop len fuel next h qfi)) : e.1.toNat ≤ len.toNat := by
  induction fuel generalizing next h qfi with
  | zero => cases hv
  | succ fuel ih =>
    by_cases hstop : next = 0 ∨ len.toNat ≤ h.toNat
    · rw [extLoop_leave hstop, value_pure] at hv
      cases hv
      exact hh
    · have hnext : next ≠ 0 := fun h0 => hstop (inl h0)
      have hlt : h.toNat < len.toNat := by omega
      by_cases hmem : mem h.toNat = 0
      · rw [(extLoop_empty hnext hlt hmem).1] at hv
        cases hv
      · grind [extLoop_header, hdrLen_add]

end Loop

/-! ## The header -/

/-- The flags octet announces the optional part of the header. -/
abbrev hasOptional (flags : UInt8) : Prop :=
  flags &&& (gtpuEFlag ||| gtpuSFlag ||| gtpuPnFlag) ≠ 0

/-- What the first eight bytes must be for a packet to be decoded. -/
structure IsGpdu (mem : Memory) (len : UInt16) : Prop where
  eight : 8 ≤ len.toNat
  version : mem 0 &&& 0xE0 = gtpuVerV1
  protocol : mem 0 &&& gtpuPtGtp ≠ 0
  message : mem 1 = gtpuMsgGpdu

/-- The header ends at an offset: behind its mandatory part, its optional part or the chain. -/
inductive HeaderEnds (mem : Memory) : Nat → Prop
  | mandatory (hopt : ¬hasOptional (mem 0)) : HeaderEnds mem 8
  | optional (hopt : hasOptional (mem 0)) (hext : mem 0 &&& gtpuEFlag = 0) : HeaderEnds mem 12
  | chain {e : Nat} (hopt : hasOptional (mem 0)) (hext : mem 0 &&& gtpuEFlag ≠ 0)
      (hchain : ChainTo mem 12 (mem 11) e) : HeaderEnds mem e

variable {mem : Memory} {e : Option Nat}

theorem ChainWithin.header_le {len pos : Nat} {next : UInt8} (h : ChainWithin mem len pos next e)
    (hnext : next ≠ 0) (hmem : mem pos ≠ 0) :
    pos + 4 * (mem pos).toNat ≤ len := by
  cases h with
  | last => exact absurd rfl hnext
  | empty _ _ h0 => exact absurd h0 hmem
  | header _ _ hpos _ => exact hpos

theorem HeaderEnds.chainTo {e : Nat} (h : HeaderEnds mem e) (hopt : hasOptional (mem 0))
    (hext : mem 0 &&& gtpuEFlag ≠ 0) : ChainTo mem 12 (mem 11) e := by
  cases h with
  | mandatory hnot => exact absurd hopt hnot
  | optional _ h0 => exact absurd h0 hext
  | chain _ _ hchain => exact hchain

/-- The header lies in the packet, up to its end, or is seen in the packet to be wrong. -/
inductive HeaderWithin (mem : Memory) (len : Nat) : Option Nat → Prop
  | mandatory (hopt : ¬hasOptional (mem 0)) : HeaderWithin mem len (some 8)
  | short (hopt : hasOptional (mem 0)) (hlen : len < 12) : HeaderWithin mem len none
  | optional (hopt : hasOptional (mem 0)) (hlen : 12 ≤ len) (hext : mem 0 &&& gtpuEFlag = 0) :
      HeaderWithin mem len (some 12)
  | chain {e : Option Nat} (hopt : hasOptional (mem 0)) (hlen : 12 ≤ len)
      (hext : mem 0 &&& gtpuEFlag ≠ 0) (hchain : ChainWithin mem len 12 (mem 11) e) :
      HeaderWithin mem len e

theorem HeaderWithin.chainWithin {len : Nat} (h : HeaderWithin mem len e)
    (hopt : hasOptional (mem 0)) (hlen : 12 ≤ len) (hext : mem 0 &&& gtpuEFlag ≠ 0) :
    ChainWithin mem len 12 (mem 11) e := by
  cases h with
  | mandatory hnot => exact absurd hopt hnot
  | short _ hshort => exact absurd hlen (Nat.not_le.mpr hshort)
  | optional _ _ h0 => exact absurd h0 hext
  | chain _ _ _ hchain => exact hchain

section Header

variable {mem : Memory} {len : UInt16}

theorem not_lt_twelve (h : 12 ≤ len.toNat) : ¬len < 12 :=
  fun hlt => absurd (UInt16.lt_iff_toNat_lt.mp hlt) (Nat.not_lt.mpr h)

/-- The optional part and the chain, from inside the packet to what the code makes of them. -/
theorem headerEnd_of_within {e : Option Nat} (hlen : 8 ≤ len.toNat)
    (hh : HeaderWithin mem len.toNat e) :
    ∃ (fuel : Nat) (r : Option (UInt16 × UInt8)),
      (gtpuHeaderEnd len fuel (mem 0)).value mem = some r ∧
        Probe.Within mem len.toNat (gtpuHeaderEnd len fuel (mem 0)) ∧
        r.map (·.1.toNat) = e ∧ ∀ p, e = some p → HeaderEnds mem p ∧ p ≤ len.toNat := by
  cases hh with
  | mandatory hopt =>
    have heq : gtpuHeaderEnd len 0 (mem 0) = pure (some (some (8, 0))) := by
      rw [gtpuHeaderEnd, if_neg hopt]
    refine ⟨0, some (8, 0), heq ▸ rfl, heq ▸ within_pure _, rfl, ?_⟩
    intro p hp
    cases hp
    exact ⟨HeaderEnds.mandatory hopt, hlen⟩
  | short hopt hshort =>
    simp_all [gtpuHeaderEnd, lt_iff_toNat_lt]
  | optional hopt h12 hext =>
    have heq : gtpuHeaderEnd len 0 (mem 0) = pure (some (some (12, 0))) := by
      rw [gtpuHeaderEnd, if_pos hopt, if_neg (not_lt_twelve h12), if_neg (fun h => h hext)]
    refine ⟨0, some (12, 0), heq ▸ rfl, heq ▸ within_pure _, rfl, ?_⟩
    intro p hp
    cases hp
    exact ⟨HeaderEnds.optional hopt hext, h12⟩
  | chain hopt h12 hext hchain =>
    obtain ⟨fuel, r, hv, hw, hr⟩ := extLoop_of_within hchain 12 0 rfl
    refine ⟨fuel, r, ?_, ?_, hr, ?_⟩
    · rw [gtpuHeaderEnd, if_pos hopt, if_neg (not_lt_twelve h12), if_pos hext, value_bind,
        value_byte]
      exact hv
    · grind [gtpuHeaderEnd, not_lt_twelve, within_bind, value_byte, within_byte]
    · rintro p rfl
      obtain ⟨hto, hp⟩ := hchain.chainTo
      exact ⟨HeaderEnds.chain hopt hext hto, hp⟩

/-- And back. -/
theorem within_of_headerEnd {fuel : Nat} {r : Option (UInt16 × UInt8)}
    (hv : (gtpuHeaderEnd len fuel (mem 0)).value mem = some r)
    (hw : Probe.Within mem len.toNat (gtpuHeaderEnd len fuel (mem 0)))
    (hend : ∀ e, r = some e → HeaderEnds mem e.1.toNat) :
    HeaderWithin mem len.toNat (r.map (·.1.toNat)) := by
  by_cases hopt : hasOptional (mem 0)
  · rw [gtpuHeaderEnd, if_pos hopt] at hv hw
    by_cases hlt : len < 12
    · rw [if_pos hlt, value_pure] at hv
      cases hv
      exact HeaderWithin.short hopt (lt_iff_toNat_lt.mp hlt)
    rw [if_neg hlt] at hv hw
    have h12 : 12 ≤ len.toNat := Nat.not_lt.mp fun h => hlt (UInt16.lt_iff_toNat_lt.mpr h)
    by_cases hext : mem 0 &&& gtpuEFlag = 0
    · rw [if_neg (fun h => h hext), value_pure] at hv
      cases hv
      exact HeaderWithin.optional hopt h12 hext
    · rw [if_pos hext, value_bind, value_byte] at hv
      rw [if_pos hext, within_bind, value_byte] at hw
      have hchain := within_of_extLoop (h := 12) h12 hv hw.2 fun e he =>
        (hend e he).chainTo hopt hext
      exact HeaderWithin.chain hopt h12 hext hchain
  · rw [gtpuHeaderEnd, if_neg hopt, value_pure] at hv
    cases hv
    exact HeaderWithin.mandatory hopt

theorem headerEnd_le {fuel : Nat} {e : UInt16 × UInt8} (hlen : 8 ≤ len.toNat)
    (hv : (gtpuHeaderEnd len fuel (mem 0)).value mem = some (some e))
    (hw : Probe.Within mem len.toNat (gtpuHeaderEnd len fuel (mem 0))) :
    e.1.toNat ≤ len.toNat := by
  by_cases hopt : hasOptional (mem 0)
  · rw [gtpuHeaderEnd, if_pos hopt] at hv hw
    by_cases hlt : len < 12
    · rw [if_pos hlt, value_pure] at hv
      cases hv
    rw [if_neg hlt] at hv hw
    have h12 : 12 ≤ len.toNat := Nat.not_lt.mp fun h => hlt (UInt16.lt_iff_toNat_lt.mpr h)
    by_cases hext : mem 0 &&& gtpuEFlag = 0
    · rw [if_neg (fun h => h hext), value_pure] at hv
      cases hv
      exact h12
    · rw [if_pos hext, value_bind, value_byte] at hv
      rw [if_pos hext, within_bind, value_byte] at hw
      exact extLoop_le (h := 12) h12 hv hw.2
  · rw [gtpuHeaderEnd, if_neg hopt, value_pure] at hv
    cases hv
    exact hlen

/-- What the header must be for the bytes the decoder looks at to lie in the packet and the payload
to be the one announced: a header that lies in the packet or is seen there to be wrong, and, where
it is accepted, a packet no longer than its length field says. -/
def LiesWithin (mem : Memory) (len : UInt16) : Prop :=
  IsGpdu mem len → ∃ e, HeaderWithin mem len.toNat e ∧
    (e ≠ none → len.toNat ≤ 8 + (be16 (mem 2) (mem 3)).toNat)

/-- Decoding ends and reads no byte past the packet, and a payload it returns lies in the packet,
starts behind the whole header and ends no later than the length field says. -/
def DecodeSafe (mem : Memory) (len : UInt16) : Prop :=
  ∃ (fuel : Nat) (r : Option GtpuDecoded), (gtpuDecode len fuel).value mem = some r ∧
    Probe.Within mem len.toNat (gtpuDecode len fuel) ∧
    ∀ d, r = some d → d.payload + d.payloadLen.toNat ≤ len.toNat ∧ HeaderEnds mem d.payload ∧
      d.payload + d.payloadLen.toNat ≤ 8 + (be16 (mem 2) (mem 3)).toNat

/-- A packet that is not a G-PDU is refused after its first two bytes. -/
theorem gtpuDecode_refused (h : ¬IsGpdu mem len) (fuel : Nat) :
    (gtpuDecode len fuel).value mem = some none ∧
      Probe.Within mem len.toNat (gtpuDecode len fuel) := by
  rw [gtpuDecode]
  by_cases hlen : len < 8
  · rw [if_pos hlen]
    exact ⟨rfl, within_pure _⟩
  have h8 : 8 ≤ len.toNat := Nat.not_lt.mp fun hlt => hlen (UInt16.lt_iff_toNat_lt.mpr hlt)
  have h0 : Probe.Within mem len.toNat (byte 0) := within_byte.mpr (by omega)
  have h1 : Probe.Within mem len.toNat (byte 1) := within_byte.mpr (by omega)
  rw [if_neg hlen, value_bind, value_bind, within_bind, within_bind,
    value_byte, value_byte]
  by_cases hver : mem 0 &&& 0xE0 = gtpuVerV1
  · rw [if_neg (fun hne => hne hver)]
    by_cases hpt : mem 0 &&& gtpuPtGtp = 0
    · rw [if_pos hpt]
      exact ⟨rfl, h0, h1, within_pure _⟩
    · rw [if_neg hpt]
      have hmsg : mem 1 ≠ gtpuMsgGpdu := fun hmsg => h ⟨h8, hver, hpt, hmsg⟩
      simp_all
  · rw [if_pos hver]
    exact ⟨rfl, h0, h1, within_pure _⟩

/-- What `gtpu_decode` makes of the end of the header. -/
def gtpuResult (mem : Memory) (len : UInt16) (h : UInt16 × UInt8) : Option GtpuDecoded :=
  if h.1 > len then none
  else some ⟨be32 (mem 4) (mem 5) (mem 6) (mem 7), h.2, h.1.toNat, len - h.1⟩

/-- A G-PDU is decoded by where its header ends. -/
theorem gtpuDecode_gpdu (h : IsGpdu mem len) (fuel : Nat) :
    (gtpuDecode len fuel).value mem =
        ((gtpuHeaderEnd len fuel (mem 0)).value mem).map (·.bind (gtpuResult mem len)) ∧
      (Probe.Within mem len.toNat (gtpuDecode len fuel) ↔
        Probe.Within mem len.toNat (gtpuHeaderEnd len fuel (mem 0))) := by
  have h8 := h.eight
  have hlen : ¬len < 8 :=
    fun hlt => absurd (UInt16.lt_iff_toNat_lt.mp hlt) (Nat.not_lt.mpr h8)
  have hbyte : ∀ i < 8, Probe.Within mem len.toNat (byte i) :=
    fun i hi => within_byte.mpr (by omega)
  rw [gtpuDecode, if_neg hlen, value_bind, value_bind, within_bind,
    within_bind, value_byte, value_byte]
  have hver : ¬(mem 0 &&& 0xE0 ≠ gtpuVerV1) := fun hne => hne h.version
  have hmsg : ¬(mem 1 ≠ gtpuMsgGpdu) := fun hne => hne h.message
  rw [if_neg hver, if_neg h.protocol, if_neg hmsg]
  simp only [value_bind, value_byte, within_bind, value_pure]
  refine ⟨rfl, ?_⟩
  simp_all

variable (mem) in
theorem gtpuResult_of_le {h : UInt16 × UInt8} (hle : h.1.toNat ≤ len.toNat) :
    ∃ d, gtpuResult mem len h = some d ∧ d.payload = h.1.toNat ∧
      d.payload + d.payloadLen.toNat = len.toNat := by
  have hle' : h.1 ≤ len := le_iff_toNat_le.mpr hle
  simp_all [gtpuResult]

/-- A header that lies in the packet is decoded safely. -/
theorem safe_of_liesWithin (h : LiesWithin mem len) : DecodeSafe mem len := by
  by_cases hg : IsGpdu mem len
  · obtain ⟨e, hh, hfield⟩ := h hg
    obtain ⟨fuel, r, hv, hw, hr, hends⟩ := headerEnd_of_within hg.eight hh
    obtain ⟨hval, hwithin⟩ := gtpuDecode_gpdu hg fuel
    rw [hv] at hval
    refine ⟨fuel, r.bind (gtpuResult mem len), hval, hwithin.mpr hw, fun d hd => ?_⟩
    cases r with
    | none => cases hd
    | some p =>
      obtain ⟨hend, hle⟩ := hends _ hr.symm
      obtain ⟨d', hres, hpay, hsum⟩ := gtpuResult_of_le mem hle
      grind
  · obtain ⟨hv, hw⟩ := gtpuDecode_refused hg 0
    refine ⟨0, none, hv, hw, fun d hd => ?_⟩
    cases hd

/-- A decoding that is safe has read a header that lies in the packet. -/
theorem liesWithin_of_safe (h : DecodeSafe mem len) : LiesWithin mem len := by
  intro hg
  obtain ⟨fuel, r, hv, hw, hok⟩ := h
  obtain ⟨hval, hwithin⟩ := gtpuDecode_gpdu hg fuel
  have hwh := hwithin.mp hw
  rw [hval] at hv
  cases he : (gtpuHeaderEnd len fuel (mem 0)).value mem with
  | none =>
    rw [he] at hv
    cases hv
  | some p =>
    rw [he] at hv
    have hr : p.bind (gtpuResult mem len) = r := Option.some.inj hv
    -- An accepted end of the header lies in the packet, so what is returned is checked.
    have hres : ∀ e, p = some e → ∃ d, r = some d ∧ d.payload = e.1.toNat ∧
        d.payload + d.payloadLen.toNat = len.toNat := by
      rintro e rfl
      obtain ⟨d, hres, hpay, hsum⟩ := gtpuResult_of_le mem (headerEnd_le hg.eight he hwh)
      exact ⟨d, hr.symm.trans hres, hpay, hsum⟩
    refine ⟨p.map (·.1.toNat), within_of_headerEnd he hwh fun e hp => ?_, fun hne => ?_⟩
    · grind
    · cases p with
      | none => exact absurd rfl hne
      | some e =>
        grind

end Header

/-- Decoding is safe exactly on the packets whose header lies in them and, where it is accepted,
that are no longer than their length field says. -/
theorem decode_safe_iff (mem : Memory) (len : UInt16) : DecodeSafe mem len ↔ LiesWithin mem len :=
  ⟨liesWithin_of_safe, safe_of_liesWithin⟩

/-- A G-PDU of thirteen bytes: an extension header of which only the length octet is there. -/
def cutExtension : Memory := fun i =>
  [0x34, 0xFF, 0, 5, 0, 0, 0, 1, 0, 0, 0, 0x85, 1].getD i 0

theorem decode_not_safe : ¬∀ (mem : Memory) (len : UInt16), DecodeSafe mem len := by
  intro h
  have hg : IsGpdu cutExtension 13 := ⟨by decide, by decide, by decide, by decide⟩
  obtain ⟨e, hh, -⟩ := liesWithin_of_safe (h cutExtension 13) hg
  have hbound := (hh.chainWithin (by decide) (by decide) (by decide)).header_le
    (by decide) (by decide)
  exact absurd hbound (by decide)

end MmtCore.Upf
