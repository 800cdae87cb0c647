import MmtCore.Upf.RuleTables

/-!
# The classifier

`upf_classifier.c`: a packet is classified by the PDR with the lowest precedence value among those
that match it, and handled by the FAR, the QER and the URR whose ids that PDR names; the id 0 names
no QER and no URR.  The scan keeps a PDR only when its precedence is below the best one so far, and
begins with the greatest 32-bit number.  So a PDR with that precedence is never taken, and a packet
that only such PDRs match is reported as matching none (`classified_iff`).
-/

namespace MmtCore.Upf

open MmtCore.Lib MmtCore.Lib.SlotView List

/-! ## The fields of a packet -/

def byteAt (pkt : List UInt8) (i : Nat) : UInt8 := pkt.getD i 0

/-- Two bytes in network order. -/
def port16 (pkt : List UInt8) (i : Nat) : UInt16 :=
  UInt16.ofNat ((byteAt pkt i).toNat * 256 + (byteAt pkt (i + 1)).toNat)

/-- Four bytes in network order. -/
def addr32 (pkt : List UInt8) (i : Nat) : UInt32 :=
  UInt32.ofNat ((((byteAt pkt i).toNat * 256 + (byteAt pkt (i + 1)).toNat) * 256 +
    (byteAt pkt (i + 2)).toNat) * 256 + (byteAt pkt (i + 3)).toNat)

/-- `five_tuple_t` of an IPv4 packet. -/
structure FiveTuple where
  proto : UInt8
  srcAddr : UInt32
  dstAddr : UInt32
  srcPort : UInt16
  dstPort : UInt16
deriving DecidableEq

/-- The length of the IPv4 header, from its first byte. -/
def headerLength (ipPkt : List UInt8) : Nat := (byteAt ipPkt 0).toNat % 16 * 4

/-- `extract_5tuple_v4`. -/
def extract5tupleV4 (ipPkt : List UInt8) : Option FiveTuple :=
  if ipPkt.length < 20 then none
  else
    let ihl := headerLength ipPkt
    if ihl < 20 ∨ ihl > ipPkt.length then none
    else
      let proto := byteAt ipPkt 9
      let ports := (proto == 6 || proto == 17) && decide (ihl + 4 ≤ ipPkt.length)
      some
        { proto
          srcAddr := addr32 ipPkt 12
          dstAddr := addr32 ipPkt 16
          srcPort := if ports then port16 ipPkt ihl else 0
          dstPort := if ports then port16 ipPkt (ihl + 2) else 0 }

/-- `extract_5tuple`; only IPv4 packets have one. -/
def extract5tuple (ipPkt : List UInt8) : Option FiveTuple :=
  if ipPkt.length < 20 then none
  else if (byteAt ipPkt 0).toNat / 16 ≠ 4 then none
  else extract5tupleV4 ipPkt

def FiveTuple.packet (ft : FiveTuple) (direction qfi : UInt8) : Packet :=
  ⟨direction, qfi, ft.proto, ft.srcAddr, ft.dstAddr, ft.srcPort, ft.dstPort⟩

/-! ## The classification -/

/-- `UINT32_MAX`. -/
abbrev uint32Max : UInt32 := 0xFFFFFFFF

/-- One turn of the scan over the PDRs: the best so far, and its precedence. -/
def scanPdr (pkt : Packet) (best : Option Pdr × UInt32) (pdr : Pdr) : Option Pdr × UInt32 :=
  if pdrMatch pdr pkt && decide (pdr.precedence < best.2) then (some pdr, pdr.precedence) else best

/-- The fields of `upf_classify_result_t` that the classification sets. -/
structure ClassifyResult where
  matchedPdr : Pdr
  far : Option Far
  qer : Option Qer
  urr : Option Urr
  action : UInt8
deriving DecidableEq

/-- What is attached to the PDR that matched. -/
def attach (s : RuleSession) (pdr : Pdr) : ClassifyResult :=
  let far := findFar s pdr.farId
  { matchedPdr := pdr
    far
    qer := if 0 < pdr.qerId then findQer s pdr.qerId else none
    urr := if 0 < pdr.urrId then findUrr s pdr.urrId else none
    action := (far.map Far.action).getD 0 }

/-- `upf_classify`; `none` is the return value -1. -/
def upfClassify (s : RuleSession) (direction qfi : UInt8) (ipPkt : List UInt8) :
    Option ClassifyResult :=
  match extract5tuple ipPkt with
  | none => none
  | some ft =>
    (s.pdrs.foldl (scanPdr (ft.packet direction qfi)) (none, uint32Max)).1.map (attach s)

/-! ## What it is for -/

/-- The packet has a 5-tuple, and the PDR is active and matches it. -/
def Matches (pdr : Pdr) (direction qfi : UInt8) (ipPkt : List UInt8) : Prop :=
  ∃ ft, extract5tuple ipPkt = some ft ∧ pdrMatch pdr (ft.packet direction qfi) = true

/-- The entry is an active one of the table with this id, and missing only if there is none. -/
def Attached {α ι : Type} (v : SlotView α ι) (l : List α) (k : ι) : Option α → Prop
  | none => ∀ a ∈ l, v.id a = k → v.active a = false
  | some a => a ∈ l ∧ v.id a = k ∧ v.active a = true

/-- The PDR is an active one that matches, no other that matches has a lower precedence value, and
the rules it names are attached.  No match is reported only if there is none. -/
def Classified (s : RuleSession) (direction qfi : UInt8) (ipPkt : List UInt8) :
    Option ClassifyResult → Prop
  | none => ∀ p ∈ s.pdrs, ¬ Matches p direction qfi ipPkt
  | some r =>
    (r.matchedPdr ∈ s.pdrs ∧ Matches r.matchedPdr direction qfi ipPkt ∧
      ∀ p ∈ s.pdrs, Matches p direction qfi ipPkt → r.matchedPdr.precedence ≤ p.precedence) ∧
    Attached Far.view s.fars r.matchedPdr.farId r.far ∧
    (if r.matchedPdr.qerId = 0 then r.qer = none
      else Attached Qer.view s.qers r.matchedPdr.qerId r.qer) ∧
    if r.matchedPdr.urrId = 0 then r.urr = none
      else Attached Urr.view s.urrs r.matchedPdr.urrId r.urr

/-- The PDRs that match the packet, and there is one, have the greatest precedence value. -/
def OnlyLowest (s : RuleSession) (direction qfi : UInt8) (ipPkt : List UInt8) : Prop :=
  (∃ p ∈ s.pdrs, Matches p direction qfi ipPkt) ∧
    ∀ p ∈ s.pdrs, Matches p direction qfi ipPkt → p.precedence = uint32Max

/-! ## The scan -/

/-- The best of the PDRs scanned. -/
inductive IsBest (pkt : Packet) (scanned : List Pdr) : Option Pdr × UInt32 → Prop
  /-- Those that match have the greatest precedence value. -/
  | unset (h : ∀ p ∈ scanned, pdrMatch p pkt = true → p.precedence = uint32Max) :
    IsBest pkt scanned (none, uint32Max)
  | found (p : Pdr) (hmem : p ∈ scanned) (hmatch : pdrMatch p pkt = true)
    (hlt : p.precedence < uint32Max)
    (hmin : ∀ q ∈ scanned, pdrMatch q pkt = true → p.precedence ≤ q.precedence) :
    IsBest pkt scanned (some p, p.precedence)

variable {pkt : Packet} {scanned rest : List Pdr} {best : Option Pdr × UInt32} {pdr : Pdr}

theorem eq_uint32Max {n : UInt32} (h : ¬ n < uint32Max) : n = uint32Max := by
  grind

section

variable (h : IsBest pkt scanned best)
include h

theorem IsBest.skip (hskip : pdrMatch pdr pkt = true → ¬ pdr.precedence < best.2) :
    IsBest pkt (scanned ++ [pdr]) best := by
  cases h with
  | unset h =>
    refine .unset fun p hp hmatch => ?_
    rcases mem_append.1 hp with hp | hp
    · exact h p hp hmatch
    · rw [mem_singleton] at hp
      subst hp
      exact eq_uint32Max (hskip hmatch)
  | found p hmem hmatch hlt hmin =>
    refine .found p (mem_append_left _ hmem) hmatch hlt fun q hq hq' => ?_
    rcases mem_append.1 hq with hq | hq
    · exact hmin q hq hq'
    · rw [mem_singleton] at hq
      subst hq
      exact UInt32.not_lt.1 (hskip hq')

theorem IsBest.take (hmatch : pdrMatch pdr pkt = true) (hlt : pdr.precedence < best.2) :
    IsBest pkt (scanned ++ [pdr]) (some pdr, pdr.precedence) := by
  have hself : pdr ∈ scanned ++ [pdr] :=
    mem_append_right _ (mem_singleton_self pdr)
  cases h with
  | unset h =>
    refine .found pdr hself hmatch hlt fun q hq hq' => ?_
    rcases mem_append.1 hq with hq | hq
    · rw [h q hq hq']
      exact UInt32.le_of_lt hlt
    · rw [mem_singleton.1 hq]
      exact UInt32.le_refl _
  | found p hmem hp hplt hmin =>
    refine .found pdr hself hmatch (UInt32.lt_trans hlt hplt) fun q hq hq' => ?_
    rcases mem_append.1 hq with hq | hq
    · exact UInt32.le_trans (UInt32.le_of_lt hlt) (hmin q hq hq')
    · rw [mem_singleton.1 hq]
      exact UInt32.le_refl _

/-- One turn of the scan. -/
theorem IsBest.scan : IsBest pkt (scanned ++ [pdr]) (scanPdr pkt best pdr) := by
  unfold scanPdr
  split
  · rename_i hc
    simp only [Bool.and_eq_true, decide_eq_true_eq] at hc
    exact h.take hc.1 hc.2
  · rename_i hc
    simp only [Bool.and_eq_true, decide_eq_true_eq, not_and] at hc
    exact h.skip hc

/-- The whole scan, by induction on the PDRs that are left. -/
theorem IsBest.foldl : IsBest pkt (scanned ++ rest) (rest.foldl (scanPdr pkt) best) := by
  induction rest generalizing scanned best with
  | nil => simpa using h
  | cons pdr rest ih =>
    have hscan : IsBest pkt (scanned ++ [pdr]) (scanPdr pkt best pdr) := h.scan
    have hnext := ih hscan
    rwa [append_assoc, singleton_append] at hnext

end

theorem isBest_scan (pkt : Packet) (pdrs : List Pdr) :
    IsBest pkt pdrs (pdrs.foldl (scanPdr pkt) (none, uint32Max)) := by
  have hstart : IsBest pkt [] (none, uint32Max) := .unset fun p hp => by cases hp
  exact hstart.foldl

/-! ## The rules that are attached -/

theorem attached_lookup {α ι : Type} [DecidableEq ι] (v : SlotView α ι) (l : List α) (k : ι) :
    Attached v l k (v.lookup l k) := by
  cases hfind : v.lookup l k with
  | none =>
    intro a ha hid
    have hnone := find?_eq_none.1 hfind a ha
    simpa [hid] using hnone
  | some a =>
    have hp := find?_some hfind
    simp only [Bool.and_eq_true, beq_iff_eq] at hp
    exact ⟨mem_of_find?_eq_some hfind, hp.1, hp.2⟩

theorem uint32_pos_iff {n : UInt32} : 0 < n ↔ n ≠ 0 := by
  rw [UInt32.lt_iff_toNat_lt, ← UInt32.toNat_inj.ne]
  exact Nat.pos_iff_ne_zero

theorem classified_attach {s : RuleSession} {direction qfi : UInt8} {ipPkt : List UInt8}
    (hpdr : pdr ∈ s.pdrs ∧ Matches pdr direction qfi ipPkt ∧
      ∀ p ∈ s.pdrs, Matches p direction qfi ipPkt → pdr.precedence ≤ p.precedence) :
    Classified s direction qfi ipPkt (some (attach s pdr)) := by
  refine ⟨hpdr, attached_lookup _ _ _, ?_, ?_⟩
  · by_cases hid : pdr.qerId = 0
    · simp [attach, hid]
    · simp only [attach, hid, uint32_pos_iff.2 hid, if_false, if_true]
      exact attached_lookup _ _ _
  · by_cases hid : pdr.urrId = 0
    · simp [attach, hid]
    · simp only [attach, hid, uint32_pos_iff.2 hid, if_false, if_true]
      exact attached_lookup _ _ _

/-! ## When a packet is classified right -/

variable (s : RuleSession) (direction qfi : UInt8) (ipPkt : List UInt8)

/-- A packet is classified as it should be unless the PDRs that match it all have the greatest
precedence value. -/
theorem classified_iff :
    Classified s direction qfi ipPkt (upfClassify s direction qfi ipPkt) ↔
      ¬ OnlyLowest s direction qfi ipPkt := by
  unfold upfClassify
  cases hft : extract5tuple ipPkt with
  | none =>
    have hnone : ∀ p, ¬ Matches p direction qfi ipPkt := by
      rintro p ⟨ft, hft', -⟩
      rw [hft] at hft'
      cases hft'
    exact iff_of_true (fun p _ => hnone p) fun ⟨⟨p, _, hp⟩, _⟩ => hnone p hp
  | some ft =>
    have hmatch : ∀ p, Matches p direction qfi ipPkt ↔
        pdrMatch p (ft.packet direction qfi) = true := by
      intro p
      unfold Matches
      rw [hft]
      exact ⟨fun ⟨ft', heq, hp⟩ => by cases heq; exact hp, fun hp => ⟨ft, rfl, hp⟩⟩
    have hbest := isBest_scan (ft.packet direction qfi) s.pdrs
    dsimp only
    generalize s.pdrs.foldl (scanPdr (ft.packet direction qfi)) (none, uint32Max) = best at hbest
    cases hbest with
    | unset h =>
      constructor
      · rintro hno ⟨⟨p, hp, hpm⟩, -⟩
        exact hno p hp hpm
      · intro hlow p hp hpm
        exact hlow ⟨⟨p, hp, hpm⟩, fun q hq hqm => h q hq ((hmatch q).1 hqm)⟩
    | found p hmem hp hlt hmin =>
      constructor
      · rintro - ⟨-, hall⟩
        simp_all
      · intro _
        exact classified_attach
          ⟨hmem, (hmatch p).2 hp, fun q hq hqm => hmin q hq ((hmatch q).1 hqm)⟩

/-- A UDP packet to 10.45.0.2 without a payload. -/
def labPacket : List UInt8 :=
  [0x45, 0, 0, 28, 0, 0, 0, 0, 64, 17, 0, 0, 8, 8, 8, 8, 10, 45, 0, 2, 0, 53, 0x9C, 0x40, 0, 8, 0, 0]

/-- The default PDR of a downlink, with the greatest precedence value. -/
def labLowestPdr : Pdr := ⟨2, 0xFFFFFFFF, 1, 0x0A2D0002, 9, [], 2, 0, 0, true⟩

/-- A PDR with the greatest precedence value is passed over. -/
theorem lowest_not_classified :
    ¬ ∀ (s : RuleSession) (direction qfi : UInt8) (ipPkt : List UInt8),
      Classified s direction qfi ipPkt (upfClassify s direction qfi ipPkt) := by
  intro h
  have hft : extract5tuple labPacket = some ⟨17, 0x08080808, 0x0A2D0002, 53, 40000⟩ := by
    decide
  have hlab := h ⟨0x0A2D0002, [labLowestPdr], [], [], []⟩ 1 0 labPacket
  exact hlab labLowestPdr (mem_singleton_self _) ⟨_, hft, by decide⟩

end MmtCore.Upf
