import MmtCore.Lib.OnesComplement
import MmtCore.Upf.DlPath

/-!
# Checksums of downlink packets

`fixup_checksums` of `upf_pkt_io.c`: the checksum of the IPv4 header and that of TCP or UDP are
computed anew before a packet goes into GTP-U.  The sums are taken over native 16-bit words, which
have their low byte first.  All of them are below `2 ^ 32`.
-/

namespace MmtCore.Upf.PktIo

open MmtCore.Lib List UInt8 Nat

/-! ## The sums -/

/-- The loop of `csum_add`. -/
def csumAddFrom (sum : UInt32) : List UInt8 → UInt32
  | [] => sum
  | [a] => sum + a.toUInt32
  | a :: b :: l => csumAddFrom (sum + (a.toUInt32 + b.toUInt32 * 256)) l

/-- `csum_add`. -/
def csumAdd (buf : List UInt8) : UInt32 := csumAddFrom 0 buf

/-- The loop of `csum_finish`, for at most `k` rounds. -/
def csumLoop : Nat → UInt32 → UInt32
  | 0, sum => sum
  | k + 1, sum =>
    if sum >>> 16 ≠ 0 then csumLoop k ((sum &&& (0xFFFF : UInt32)) + (sum >>> 16)) else sum

/-- `csum_finish`.  A 32-bit sum needs no more than two rounds. -/
def csumFinish (sum : UInt32) : UInt16 := (~~~csumLoop 2 sum).toUInt16

/-- A native 16-bit word of the packet. -/
def nativeWord (buf : List UInt8) (i : Nat) : UInt32 :=
  (buf.getD i 0).toUInt32 + (buf.getD (i + 1) 0).toUInt32 * 256

/-- `htons` on a machine with the low byte first. -/
def swap16 (n : UInt16) : UInt16 := UInt16.ofNat (n.toNat % 256 * 256 + n.toNat / 256)

/-- `memcpy` of a 16-bit word. -/
def store16 (buf : List UInt8) (i : Nat) (w : UInt16) : List UInt8 :=
  (buf.set i w.toUInt8).set (i + 1) (w >>> 8).toUInt8

/-- The second half of `fixup_checksums`: the checksum of TCP or UDP. -/
def fixTransport (ipPkt : List UInt8) (ihl : Nat) : List UInt8 :=
  let proto := ipPkt.getD 9 0
  let l4Len := ipPkt.length - ihl
  if (proto = 6 ∨ proto = 17) ∧ l4Len ≥ 8 then
    let csumOff := if proto = 6 then 16 else 6
    if l4Len < csumOff + 2 then ipPkt
    else
      let ipPkt := (ipPkt.set (ihl + csumOff) 0).set (ihl + csumOff + 1) 0
      let sum := nativeWord ipPkt 12 + nativeWord ipPkt 14
      let sum := sum + (nativeWord ipPkt 16 + nativeWord ipPkt 18)
      let sum := sum + (swap16 proto.toUInt16).toUInt32
      let sum := sum + (swap16 (UInt16.ofNat l4Len)).toUInt32
      let sum := sum + csumAdd (ipPkt.drop ihl)
      let csum := csumFinish sum
      let csum := if proto = 17 ∧ csum = 0 then 0xFFFF else csum
      store16 ipPkt (ihl + csumOff) csum
  else ipPkt

/-- `fixup_checksums`. -/
def fixupChecksums (ipPkt : List UInt8) : List UInt8 :=
  if ipPkt.length < 20 then ipPkt
  else
    let ihl : UInt8 := (ipPkt.getD 0 0 &&& 0x0F) * 4
    if ihl < 20 ∨ ipPkt.length < ihl.toNat then ipPkt
    else
      let ipPkt := (ipPkt.set 10 0).set 11 0
      let ipCsum := csumFinish (csumAdd (ipPkt.take ihl.toNat))
      fixTransport (store16 ipPkt 10 ipCsum) ihl.toNat

/-! ## What they compute -/

theorem csumAddFrom_toNat (sum : UInt32) (l : List UInt8) (h : sum.toNat + leSum l < 2 ^ 32) :
    (csumAddFrom sum l).toNat = sum.toNat + leSum l := by
  induction l using leSum.induct generalizing sum with
  | case1 => rfl
  | case2 a =>
    simp only [leSum] at h ⊢
    rw [csumAddFrom, UInt32.toNat_add, UInt8.toNat_toUInt32, Nat.mod_eq_of_lt h]
  | case3 a b l ih =>
    simp only [leSum] at h ⊢
    grind [UInt32.toNat_add, UInt32.toNat_mul, UInt8.toNat_toUInt32, csumAddFrom]

theorem csumAdd_toNat {l : List UInt8} (h : leSum l < 2 ^ 32) : (csumAdd l).toNat = leSum l := by
  have h0 : (0 : UInt32).toNat = 0 := rfl
  rw [csumAdd, csumAddFrom_toNat _ _ (by omega), h0, zero_add]

/-- One round adds the carries back. -/
theorem csumLoop_round (sum : UInt32) :
    (((sum &&& (0xFFFF : UInt32)) + (sum >>> 16)).toNat = foldCarry sum.toNat) ∧
      (sum >>> 16 = 0 ↔ sum.toNat < 65536) := by
  have hlt := sum.toNat_lt
  have hlow : (sum &&& (0xFFFF : UInt32)).toNat = sum.toNat % 65536 := by
    rw [UInt32.toNat_and]
    exact and_two_pow_sub_one_eq_mod _ 16
  have hhigh : (sum >>> 16).toNat = sum.toNat / 65536 := by
    rw [UInt32.toNat_shiftRight, Nat.shiftRight_eq_div_pow]
    rfl
  constructor
  · rw [UInt32.toNat_add, hlow, hhigh, foldCarry]
    omega
  · rw [← UInt32.toNat_inj, hhigh]
    have h0 : (0 : UInt32).toNat = 0 := rfl
    omega

/-- The loop of `csum_finish` ends within two rounds, with all carries added back. -/
theorem csumLoop_toNat (sum : UInt32) : (csumLoop 2 sum).toNat = onesFold sum.toNat := by
  have hlt := sum.toNat_lt
  obtain ⟨hnext, hdone⟩ := csumLoop_round sum
  rw [csumLoop]
  by_cases h : sum >>> 16 = 0
  · rw [if_neg (fun hne => hne h), onesFold_of_lt (hdone.mp h)]
  rw [if_pos h, csumLoop]
  generalize hs : (sum &&& (0xFFFF : UInt32)) + (sum >>> 16) = next at hnext
  obtain ⟨hnext', hdone'⟩ := csumLoop_round next
  have hfold : onesFold next.toNat = onesFold sum.toNat := by
    rw [hnext, onesFold_foldCarry]
  by_cases h' : next >>> 16 = 0
  · rw [if_neg (fun hne => hne h'), ← hfold, onesFold_of_lt (hdone'.mp h')]
  · grind [csumLoop, onesFold_foldCarry, foldCarry, onesFold_of_lt]

/-- `csum_finish` is the complement of the folded sum. -/
theorem csumFinish_toNat (sum : UInt32) :
    (csumFinish sum).toNat = 65535 - onesFold sum.toNat := by
  grind [csumFinish, UInt32.toNat_toUInt16, UInt32.toNat_not, csumLoop_toNat, onesFold_lt]

theorem store16_eq (buf : List UInt8) (i : Nat) (w : UInt16) :
    store16 buf i w = storePair buf i w.toNat := by
  have hlow : w.toUInt8 = UInt8.ofNat w.toNat := rfl
  have hhigh : (w >>> 8).toUInt8 = UInt8.ofNat (w.toNat / 256) := by
    apply UInt8.toNat_inj.mp
    rw [UInt16.toNat_toUInt8, UInt16.toNat_shiftRight, Nat.shiftRight_eq_div_pow,
      toNat_ofNat']
    rfl
  rw [store16, storePair, hlow, hhigh]

theorem nativeWord_toNat (buf : List UInt8) (i : Nat) :
    (nativeWord buf i).toNat = pairAt buf i := by
  have ha := (buf.getD i 0).toNat_lt
  have hb := (buf.getD (i + 1) 0).toNat_lt
  grind [nativeWord, pairAt, UInt32.toNat_add, UInt32.toNat_mul, UInt8.toNat_toUInt32]

theorem swap16_toNat (n : UInt16) : (swap16 n).toNat = n.toNat / 256 + 256 * (n.toNat % 256) := by
  have hn := n.toNat_lt
  rw [swap16, UInt16.toNat_ofNat']
  omega

/-! ## The computation of the downlink path -/

/-- Three turns leave what all of them would. -/
theorem upf_csumFinish_eq {sum : Nat} (h : sum < 2 ^ 32) :
    Upf.csumFinish sum = 65535 - onesFold sum := by
  have hfold : ∀ n, csumFold n = foldCarry n := fun _ => rfl
  grind [Upf.csumFinish, onesFold_of_lt, onesFold_foldCarry, csumFold_lt]

/-! ## Packets -/

/-- An IPv4 packet, as far as its checksums are concerned. -/
structure Ipv4Packet where
  header : List UInt8
  payload : List UInt8
  ihl : header.length = (header.getD 0 0 &&& 0x0F).toNat * 4
  header_min : 20 ≤ header.length
  fits : header.length + payload.length ≤ 65535

namespace Ipv4Packet

variable (p : Ipv4Packet)

def bytes : List UInt8 := p.header ++ p.payload

def proto : UInt8 := p.header.getD 9 0

/-- Neither the flag for more fragments is set, nor is there a fragment offset. -/
def Unfragmented : Prop := p.header.getD 6 0 &&& 0x3F = 0 ∧ p.header.getD 7 0 = 0
  deriving Decidable

/-- A fragment other than the first. -/
def LaterFragment : Prop := ¬(p.header.getD 6 0 &&& 0x1F = 0 ∧ p.header.getD 7 0 = 0)
  deriving Decidable

/-- Where the TCP or UDP header has its checksum, if it is there. -/
def checksumField : Option Nat :=
  if p.proto = 6 then if 18 ≤ p.payload.length then some 16 else none
  else if p.proto = 17 then if 8 ≤ p.payload.length then some 6 else none
  else none

/-- The addresses, a zero, the protocol and the length. -/
def pseudoHeader : List UInt8 :=
  (List.range' 12 8).map (p.header.getD · 0) ++
    [0, p.proto, UInt8.ofNat (p.payload.length / 256), UInt8.ofNat p.payload.length]

/-- The checksum of the header is right. -/
def HeaderValid : Prop := SumsToOnes p.header

/-- The checksum of TCP or UDP is right, where there is one. -/
def TransportValid : Prop :=
  ∀ off, p.checksumField = some off → SumsToOnes (p.pseudoHeader ++ p.payload)

/-- What is stored in the field at `off` for TCP or UDP. -/
def transportChecksum (off : Nat) : Nat :=
  if p.proto = 17 ∧ complementAt (leSum p.pseudoHeader) p.payload off = 0 then 65535
  else complementAt (leSum p.pseudoHeader) p.payload off

def fixedHeader : List UInt8 := storePair p.header 10 (complementAt 0 p.header 10)

def fixedPayload : List UInt8 :=
  p.checksumField.elim p.payload fun off => storePair p.payload off (p.transportChecksum off)

/-! ### The packet that comes out -/

theorem length_fixedHeader : p.fixedHeader.length = p.header.length := length_storePair

theorem length_fixedPayload : p.fixedPayload.length = p.payload.length := by
  unfold fixedPayload
  cases p.checksumField with
  | none => rfl
  | some off => exact length_storePair

variable {l : List UInt8} {i off : Nat}

theorem getD_storePair {j w : Nat} (h : j ≠ i) (h' : j ≠ i + 1) :
    (storePair l i w).getD j 0 = l.getD j 0 := by
  rw [getD_eq_getElem?_getD, getD_eq_getElem?_getD, getElem?_storePair h h']

theorem getD_fixedHeader {j : Nat} (h : j ≠ 10) (h' : j ≠ 11) :
    p.fixedHeader.getD j 0 = p.header.getD j 0 :=
  getD_storePair h h'

/-- A packet with the checksum of its header computed anew and a payload of the same length. -/
def withPayload (t : List UInt8) (ht : t.length = p.payload.length) : Ipv4Packet where
  header := p.fixedHeader
  payload := t
  ihl := by
    rw [length_fixedHeader, getD_fixedHeader p (by decide) (by decide)]
    exact p.ihl
  header_min := p.length_fixedHeader ▸ p.header_min
  fits := by
    rw [length_fixedHeader, ht]
    exact p.fits

/-- The packet with its checksums computed anew. -/
def fixed : Ipv4Packet := p.withPayload p.fixedPayload p.length_fixedPayload

/-- Packets that differ in the checksum of the header and the contents of the payload only have
their fields at the same places. -/
theorem frame_of {p q : Ipv4Packet}
    (hget : ∀ j, j ≠ 10 → j ≠ 11 → q.header.getD j 0 = p.header.getD j 0)
    (hlen : q.payload.length = p.payload.length) :
    q.proto = p.proto ∧ q.checksumField = p.checksumField ∧ q.pseudoHeader = p.pseudoHeader ∧
      (q.Unfragmented ↔ p.Unfragmented) := by
  have hproto : q.proto = p.proto := hget 9 (by decide) (by decide)
  refine ⟨hproto, ?_, ?_, ?_⟩
  · unfold checksumField
    rw [hproto, hlen]
  · grind [pseudoHeader, map_congr_left]
  · simp_all [Unfragmented]

theorem fixed_frame :
    p.fixed.proto = p.proto ∧ p.fixed.checksumField = p.checksumField ∧
      p.fixed.pseudoHeader = p.pseudoHeader ∧ (p.fixed.Unfragmented ↔ p.Unfragmented) :=
  frame_of (fun _ h h' => p.getD_fixedHeader h h') p.length_fixedPayload

theorem checksumField_some (h : p.checksumField = some off) :
    (p.proto = 6 ∧ off = 16 ∨ p.proto = 17 ∧ off = 6) ∧ off + 2 ≤ p.payload.length := by
  grind [checksumField]

/-- The sum of the pseudo header, as the code adds it up. -/
theorem leSum_pseudoHeader :
    leSum p.pseudoHeader = pairAt p.header 12 + pairAt p.header 14 +
      (pairAt p.header 16 + pairAt p.header 18) + 256 * p.proto.toNat +
      (p.payload.length / 256 + 256 * (p.payload.length % 256)) := by
  have hfits := p.fits
  have hrange : (range' 12 8).map (p.header.getD · 0) =
      [p.header.getD 12 0, p.header.getD (12 + 1) 0, p.header.getD 14 0,
        p.header.getD (14 + 1) 0, p.header.getD 16 0, p.header.getD (16 + 1) 0,
        p.header.getD 18 0, p.header.getD (18 + 1) 0] := rfl
  have hhigh : (UInt8.ofNat (p.payload.length / 256)).toNat = p.payload.length / 256 := by
    rw [UInt8.toNat_ofNat']
    omega
  have hlow : (UInt8.ofNat p.payload.length).toNat = p.payload.length % 256 :=
    toNat_ofNat'
  have hzero : (0 : UInt8).toNat = 0 := rfl
  rw [pseudoHeader, hrange]
  simp only [cons_append, nil_append, leSum, hhigh, hlow, hzero, pairAt]
  omega

/-! ### What the code makes of a packet -/

theorem leSum_lt (h : l.length ≤ 65535) : leSum l < 2 ^ 31 := by
  have hle := leSum_le l
  omega

theorem getD_append_lt {m : List UInt8} (h : i < l.length) :
    (l ++ m).getD i 0 = l.getD i 0 := getD_append _ _ _ _ h

theorem pairAt_append_left {m : List UInt8} (h : i + 1 < l.length) :
    pairAt (l ++ m) i = pairAt l i := by
  unfold pairAt
  rw [getD_append_lt (by omega), getD_append_lt h]

theorem checksumField_none (h : p.checksumField = none) :
    ¬((p.proto = 6 ∨ p.proto = 17) ∧ p.payload.length ≥ 8) ∨
      p.payload.length < (if p.proto = 6 then 16 else 6) + 2 := by
  grind [checksumField]

/-- The code's sum over the pseudo header and the payload with its checksum cleared. -/
def transportSum (buf : List UInt8) (proto : UInt8) (l4Len ihl : Nat) : UInt32 :=
  nativeWord buf 12 + nativeWord buf 14 + (nativeWord buf 16 + nativeWord buf 18) +
    (swap16 proto.toUInt16).toUInt32 + (swap16 (UInt16.ofNat l4Len)).toUInt32 +
    csumAdd (buf.drop ihl)

theorem transportSum_toNat {t : List UInt8} (ht : t.length = p.payload.length) :
    (transportSum (p.header ++ t) p.proto p.payload.length p.header.length).toNat =
      leSum p.pseudoHeader + leSum t := by
  have hmin := p.header_min
  have hfits := p.fits
  have hpair : ∀ i, i + 1 < p.header.length →
      (nativeWord (p.header ++ t) i).toNat = pairAt p.header i := fun i hi => by
    rw [nativeWord_toNat, pairAt_append_left hi]
  have h12 := hpair 12 (by omega)
  have h14 := hpair 14 (by omega)
  have h16 := hpair 16 (by omega)
  have h18 := hpair 18 (by omega)
  have l12 := pairAt_lt p.header 12
  have l14 := pairAt_lt p.header 14
  have l16 := pairAt_lt p.header 16
  have l18 := pairAt_lt p.header 18
  have hproto : (swap16 p.proto.toUInt16).toUInt32.toNat = 256 * p.proto.toNat := by
    have hlt := p.proto.toNat_lt
    rw [UInt16.toNat_toUInt32, swap16_toNat, UInt8.toNat_toUInt16]
    omega
  have hlen : (swap16 (UInt16.ofNat p.payload.length)).toUInt32.toNat =
      p.payload.length / 256 + 256 * (p.payload.length % 256) := by
    rw [UInt16.toNat_toUInt32, swap16_toNat, UInt16.toNat_ofNat']
    omega
  have hdata : (csumAdd ((p.header ++ t).drop p.header.length)).toNat = leSum t := by
    have hlt : leSum t < 2 ^ 31 := leSum_lt (by omega)
    rw [drop_left]
    exact csumAdd_toNat (by omega)
  have hlt : leSum t < 2 ^ 31 := leSum_lt (by omega)
  have hplt := p.proto.toNat_lt
  rw [leSum_pseudoHeader, transportSum]
  simp only [UInt32.toNat_add, h12, h14, h16, h18, hproto, hlen, hdata]
  omega

/-- The second half on a header and a payload. -/
theorem fixTransport_bytes : fixTransport p.bytes p.header.length = p.header ++ p.fixedPayload := by
  have hmin := p.header_min
  have hlen : p.bytes.length - p.header.length = p.payload.length := by
    rw [bytes, List.length_append, Nat.add_sub_cancel_left]
  have hproto : p.bytes.getD 9 0 = p.proto := getD_append_lt (by omega)
  unfold fixTransport fixedPayload
  rw [hlen, hproto]
  cases hf : p.checksumField with
  | none =>
    rcases p.checksumField_none hf with hnot | hshort
    · rw [if_neg hnot]
      rfl
    · by_cases hc : (p.proto = 6 ∨ p.proto = 17) ∧ p.payload.length ≥ 8
      · rw [if_pos hc, if_pos hshort]
        rfl
      · rw [if_neg hc]
        rfl
  | some off =>
    obtain ⟨hcase, hoff⟩ := p.checksumField_some hf
    have hcsum : (if p.proto = 6 then 16 else 6) = off := by
      grind
    have hcond : (p.proto = 6 ∨ p.proto = 17) ∧ p.payload.length ≥ 8 := by
      grind
    have hclear : (p.bytes.set (p.header.length + off) 0).set (p.header.length + off + 1) 0 =
        p.header ++ storePair p.payload off 0 := storePair_append_right _
    rw [if_pos hcond, hcsum, if_neg (by omega), hclear]
    have hsum := p.transportSum_toNat (t := storePair p.payload off 0) length_storePair
    change store16 _ _ (if p.proto = 17 ∧ csumFinish (transportSum _ _ _ _) = 0 then 0xFFFF
      else csumFinish (transportSum _ _ _ _)) = _
    have hfin : (csumFinish (transportSum (p.header ++ storePair p.payload off 0) p.proto
        p.payload.length p.header.length)).toNat =
        complementAt (leSum p.pseudoHeader) p.payload off := by
      rw [csumFinish_toNat, hsum]
      rfl
    generalize csumFinish (transportSum (p.header ++ storePair p.payload off 0) p.proto
      p.payload.length p.header.length) = c at hfin
    have hval : (if p.proto = 17 ∧ c = 0 then (0xFFFF : UInt16) else c).toNat =
        p.transportChecksum off := by
      rw [transportChecksum, ← hfin]
      have h0 : c = 0 ↔ c.toNat = 0 := UInt16.toNat_inj.symm
      by_cases hz : p.proto = 17 ∧ c = 0
      · rw [if_pos hz, if_pos ⟨hz.1, h0.mp hz.2⟩]
        rfl
      · rw [if_neg hz, if_neg fun h => hz ⟨h.1, h0.mpr h.2⟩]
    rw [store16_eq, hval, storePair_append_right, storePair_storePair (by omega)]
    rfl

/-- The mask and the shift of the header length do not leave a byte. -/
theorem ihl_toNat : ((p.header.getD 0 0 &&& 0x0F) * 4).toNat = p.header.length := by
  have hlt : (p.header.getD 0 0 &&& 0x0F).toNat ≤ 15 := by
    rw [UInt8.toNat_and]
    exact Nat.and_le_right
  have h4 : (4 : UInt8).toNat = 4 := rfl
  rw [UInt8.toNat_mul, h4, p.ihl]
  omega

/-- The header's checksum as the first half stores it. -/
theorem csumFinish_header :
    (csumFinish (csumAdd (storePair p.header 10 0))).toNat = complementAt 0 p.header 10 := by
  have hfits := p.fits
  have hlt : leSum (storePair p.header 10 0) < 2 ^ 31 := leSum_lt (by rw [length_storePair]; omega)
  rw [csumFinish_toNat, csumAdd_toNat (by omega), complementAt, zero_add]

/-- `fixup_checksums` computes both checksums anew. -/
theorem fixupChecksums_bytes : fixupChecksums p.bytes = p.fixed.bytes := by
  have hmin := p.header_min
  have hlen : p.bytes.length = p.header.length + p.payload.length := length_append
  have hzero : p.bytes.getD 0 0 = p.header.getD 0 0 := getD_append_lt (by omega)
  have hclear : (p.bytes.set 10 0).set 11 0 = storePair p.header 10 0 ++ p.payload :=
    storePair_append_left (by omega) _
  have htake : (storePair p.header 10 0 ++ p.payload).take p.header.length =
      storePair p.header 10 0 := take_left' length_storePair
  unfold fixupChecksums
  dsimp only
  rw [hzero, p.ihl_toNat, if_neg (by omega), if_neg, hclear, htake, store16_eq,
    storePair_append_left (by rw [length_storePair]; omega), storePair_storePair (by omega),
    p.csumFinish_header]
  · -- The second half finds the packet with the header done.
    have hhalf := (p.withPayload p.payload rfl).fixTransport_bytes
    obtain ⟨hproto, hfield, hpseudo, -⟩ :=
      frame_of (p := p) (q := p.withPayload p.payload rfl) (fun _ h h' => p.getD_fixedHeader h h')
        rfl
    have hpay : (p.withPayload p.payload rfl).fixedPayload = p.fixedPayload := by
      unfold fixedPayload transportChecksum
      rw [hproto, hfield, hpseudo]
      rfl
    have hhlen : (p.withPayload p.payload rfl).header.length = p.header.length :=
      p.length_fixedHeader
    rw [hpay, hhlen] at hhalf
    exact hhalf
  · rintro (hsmall | hlong)
    · have h20 := lt_iff_toNat_lt.mp hsmall
      rw [p.ihl_toNat] at h20
      exact absurd hmin (not_le.mpr h20)
    · omega

/-! ### Valid checksums -/

/-- The checksums of a packet are right; a UDP checksum of zero says that there is none. -/
def ChecksumsValid : Prop :=
  p.HeaderValid ∧ (p.Unfragmented → ∀ off, p.checksumField = some off →
    SumsToOnes (p.pseudoHeader ++ p.payload) ∨ p.proto = 17 ∧ pairAt p.payload off = 0)

/-- The checksums are written the way the code writes them: all ones as zero in the header and
in TCP, and zero as all ones in UDP. -/
def Canonical : Prop :=
  pairAt p.header 10 ≠ 65535 ∧ ∀ off, p.checksumField = some off →
    pairAt p.payload off ≠ if p.proto = 17 then 0 else 65535

/-- The first byte of the header has its length, so the sum is not zero. -/
theorem leSum_header_ne_zero (w : Nat) : leSum (storePair p.header 10 w) ≠ 0 := by
  have hle := getD_zero_le_leSum (storePair p.header 10 w)
  rw [getD_storePair (by decide) (by decide)] at hle
  have hmin := p.header_min
  have hihl := p.ihl
  grind [UInt8.toNat_and, Nat.and_le_left]

/-- Nor is that of the pseudo header of TCP or UDP. -/
theorem leSum_pseudoHeader_ne_zero (h : p.checksumField = some off) : leSum p.pseudoHeader ≠ 0 := by
  rw [leSum_pseudoHeader]
  rcases (p.checksumField_some h).1 with ⟨h6, -⟩ | ⟨h17, -⟩
  · rw [h6]
    have : (6 : UInt8).toNat = 6 := rfl
    omega
  · rw [h17]
    have : (17 : UInt8).toNat = 17 := rfl
    omega

theorem fixed_headerValid : p.fixed.HeaderValid := by
  have hmin := p.header_min
  have hsum := (storePair_sum_mod 0 (i := 10) (l := p.header) rfl (by omega)
    (complementAt_lt 0 p.header 10)).mpr rfl
  rw [zero_add] at hsum
  exact sumsToOnes_iff.mpr ⟨p.leSum_header_ne_zero _, hsum⟩

theorem transportChecksum_lt (off : Nat) : p.transportChecksum off < 65536 := by
  unfold transportChecksum
  split
  · decide
  · exact complementAt_lt _ _ _

theorem transportChecksum_mod (off : Nat) :
    p.transportChecksum off % 65535 =
      complementAt (leSum p.pseudoHeader) p.payload off % 65535 := by
  unfold transportChecksum
  split
  · rename_i h
    rw [h.2]
  · rfl

theorem fixedPayload_some (h : p.checksumField = some off) :
    p.fixedPayload = storePair p.payload off (p.transportChecksum off) := by
  rw [fixedPayload, h]
  rfl

theorem checksumField_even (h : p.checksumField = some off) : off % 2 = 0 := by
  rcases (p.checksumField_some h).1 with ⟨-, rfl⟩ | ⟨-, rfl⟩ <;> rfl

theorem sumsToOnes_transport (t : List UInt8) :
    SumsToOnes (p.pseudoHeader ++ t) ↔
      leSum p.pseudoHeader + leSum t ≠ 0 ∧ (leSum p.pseudoHeader + leSum t) % 65535 = 0 := by
  have hlen : p.pseudoHeader.length % 2 = 0 := by simp [pseudoHeader]
  rw [sumsToOnes_iff, leSum_append hlen]

theorem fixed_transportValid : p.fixed.TransportValid := by
  obtain ⟨-, hfield, hpseudo, -⟩ := p.fixed_frame
  intro off hoff
  rw [hfield] at hoff
  have hin := (p.checksumField_some hoff).2
  have hne := p.leSum_pseudoHeader_ne_zero hoff
  have hpay : p.fixed.payload = storePair p.payload off (p.transportChecksum off) :=
    p.fixedPayload_some hoff
  rw [hpseudo, hpay, sumsToOnes_transport]
  refine ⟨by omega, ?_⟩
  exact (storePair_sum_mod _ (p.checksumField_even hoff) (by omega)
    (p.transportChecksum_lt off)).mpr (p.transportChecksum_mod off)

/-! ### Packets that stay the same -/

/-- The payload stays the same exactly where its checksum is what would be stored, whatever the
payload is. -/
theorem fixedPayload_eq_iff :
    p.fixedPayload = p.payload ↔
      ∀ off, p.checksumField = some off → pairAt p.payload off = p.transportChecksum off := by
  constructor
  · intro h off hoff
    have hin := (p.checksumField_some hoff).2
    rw [p.fixedPayload_some hoff] at h
    exact (storePair_eq_self (by omega) (p.transportChecksum_lt off)).mp h
  · intro h
    cases hf : p.checksumField with
    | none =>
      rw [fixedPayload, hf]
      rfl
    | some off =>
      have hin := (p.checksumField_some hf).2
      rw [p.fixedPayload_some hf]
      exact (storePair_eq_self (by omega) (p.transportChecksum_lt off)).mpr (h off hf)

/-- A right checksum, or a UDP checksum of zero, is what would be stored where it is written the
way the code writes it. -/
theorem transportChecksum_eq_iff (h : p.checksumField = some off)
    (hvalid : SumsToOnes (p.pseudoHeader ++ p.payload) ∨ p.proto = 17 ∧ pairAt p.payload off = 0) :
    pairAt p.payload off = p.transportChecksum off ↔
      pairAt p.payload off ≠ if p.proto = 17 then 0 else 65535 := by
  have hin := (p.checksumField_some h).2
  have hne := p.leSum_pseudoHeader_ne_zero h
  have hcne := complementAt_ne_ones (leSum p.pseudoHeader) (l := p.payload) (i := off)
    (by omega)
  have hclt := complementAt_lt (leSum p.pseudoHeader) p.payload off
  have hlt := pairAt_lt p.payload off
  rcases hvalid with hsum | ⟨h17, h0⟩
  · have hmod : pairAt p.payload off % 65535 =
        complementAt (leSum p.pseudoHeader) p.payload off % 65535 := by
      rw [← storePair_sum_mod _ (p.checksumField_even h) (by omega) hlt,
        storePair_pairAt (by omega)]
      exact ((p.sumsToOnes_transport _).mp hsum).2
    grind [transportChecksum]
  · grind [transportChecksum]

/-- A packet with right checksums, fragmented or not, that has no TCP or UDP checksum field or
whose field holds a checksum, stays the same exactly if they are written as the code does. -/
theorem unchanged_iff (hwhole : p.Unfragmented ∨ p.checksumField = none)
    (hvalid : p.ChecksumsValid) : fixupChecksums p.bytes = p.bytes ↔ p.Canonical := by
  have hmin := p.header_min
  have hheader : p.fixedHeader = p.header ↔ pairAt p.header 10 ≠ 65535 := by
    have hsum := (sumsToOnes_iff.mp hvalid.1).2
    rw [fixedHeader, storePair_eq_self (by omega) (complementAt_lt _ _ _)]
    refine complementAt_eq_iff rfl (by omega) (by rw [zero_add]; exact hsum) ?_
    rw [zero_add]
    exact p.leSum_header_ne_zero 0
  have hpayload : p.fixedPayload = p.payload ↔ ∀ off, p.checksumField = some off →
      pairAt p.payload off ≠ if p.proto = 17 then 0 else 65535 := by
    rw [fixedPayload_eq_iff]
    refine forall_congr' fun off => imp_congr_right fun hoff => ?_
    rcases hwhole with hun | hnone
    · exact p.transportChecksum_eq_iff hoff (hvalid.2 hun off hoff)
    · rw [hnone] at hoff
      cases hoff
  rw [fixupChecksums_bytes, Canonical, ← hheader, ← hpayload]
  constructor
  · intro h
    exact append_inj h p.length_fixedHeader
  · rintro ⟨hh, hp⟩
    change p.fixedHeader ++ p.fixedPayload = p.header ++ p.payload
    rw [hh, hp]

/-- The fields of the checksums are the only places written. -/
def WrittenInFields (p q : Ipv4Packet) : Prop :=
  q.header.length = p.header.length ∧ q.payload.length = p.payload.length ∧
    (∀ j, j ≠ 10 → j ≠ 11 → q.header[j]? = p.header[j]?) ∧
    ∀ j, (∀ off, p.checksumField = some off → j ≠ off ∧ j ≠ off + 1) → q.payload[j]? = p.payload[j]?

theorem fixed_writtenInFields : p.WrittenInFields p.fixed := by
  refine ⟨p.length_fixedHeader, p.length_fixedPayload, fun j h h' => getElem?_storePair h h',
    fun j hj => ?_⟩
  change p.fixedPayload[j]? = p.payload[j]?
  cases hf : p.checksumField with
  | none =>
    rw [fixedPayload, hf]
    rfl
  | some off =>
    rw [p.fixedPayload_some hf]
    exact getElem?_storePair (hj off hf).1 (hj off hf).2

/-- All that is asked of the routine for a packet: right checksums in the result, nothing written
but their fields, no change where they were right, and none to the payload of a fragment that
does not have the TCP or UDP header. -/
def FixesUp : Prop :=
  ∃ q : Ipv4Packet, fixupChecksums p.bytes = q.bytes ∧ q.HeaderValid ∧
    (p.Unfragmented → q.TransportValid) ∧ p.WrittenInFields q ∧
    (p.ChecksumsValid → q.bytes = p.bytes) ∧ (p.LaterFragment → q.payload = p.payload)

/-- A UDP datagram of eight bytes without a checksum. -/
def withoutUdpChecksum : Ipv4Packet where
  header := [0x45, 0, 0, 0x1c, 0, 0, 0, 0, 0x40, 0x11, 0x66, 0xcf, 10, 0, 0, 1, 10, 0, 0, 2]
  payload := [0x12, 0x34, 0x12, 0x34, 0, 8, 0, 0]
  ihl := by decide
  header_min := by decide
  fits := by decide

theorem not_fixesUp : ¬∀ p : Ipv4Packet, p.FixesUp := by
  intro h
  obtain ⟨q, hbytes, -, -, -, hsame, -⟩ := h withoutUdpChecksum
  have hvalid : withoutUdpChecksum.ChecksumsValid := by
    refine ⟨?_, fun _ off hoff => Or.inr ?_⟩
    · unfold HeaderValid SumsToOnes
      decide
    · cases hoff
      decide
  have heq := hbytes.trans (hsame hvalid)
  exact absurd heq (by decide)

/-- For every packet the checksum of the header comes out right, for an unfragmented TCP or UDP
packet that of the transport header too, and nothing is written but the places of these fields.
A packet whose checksums were right already, and whose TCP or UDP checksum, if any, is not that
of a fragment, stays the same exactly if its checksums are written the way the code writes them. -/
theorem fixupChecksums_spec :
    ∃ q : Ipv4Packet, fixupChecksums p.bytes = q.bytes ∧ q.HeaderValid ∧
      (p.Unfragmented → q.TransportValid) ∧ p.WrittenInFields q ∧
      (p.Unfragmented ∨ p.checksumField = none → p.ChecksumsValid →
        (q.bytes = p.bytes ↔ p.Canonical)) := by
  refine ⟨p.fixed, p.fixupChecksums_bytes, p.fixed_headerValid, fun _ => p.fixed_transportValid,
    p.fixed_writtenInFields, fun hwhole hvalid => ?_⟩
  rw [← fixupChecksums_bytes]
  exact p.unchanged_iff hwhole hvalid

end Ipv4Packet

end MmtCore.Upf.PktIo
