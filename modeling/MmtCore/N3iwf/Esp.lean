import MmtCore.N3iwf.Crypto
import Mathlib.Data.List.Nodup

/-!
# ESP

The packets of an inbound and an outbound security association and the anti-replay window
(`nf/n3iwf/esp/esp.go`), and what is accepted in any run of a sender and a receiver that share
their keys, whatever is delivered.
-/

namespace MmtCore.N3iwf

open List Option

open MmtCore.Pfcp (beNat beBytes length_beBytes beNat_beBytes_of_lt)

variable (crypto : Crypto)

/-! ## The window -/

/-- `replayWindow`: bit `i` of `bits` stands for the number `last - i`. -/
structure ReplayWindow where
  last : UInt32
  size : Nat
  bits : BitVec 64

def newReplayWindow (size : Nat) : ReplayWindow :=
  ⟨0, if size = 0 ∨ size > 64 then 64 else size, 0⟩

def ReplayWindow.check (w : ReplayWindow) (seq : UInt32) : Bool :=
  if seq = 0 then false
  else if seq > w.last then true
  else
    let diff := (w.last - seq).toNat
    if diff ≥ w.size then false
    else if w.bits &&& (1#64 <<< diff) ≠ 0 then false
    else true

def ReplayWindow.commit (w : ReplayWindow) (seq : UInt32) : ReplayWindow :=
  if seq > w.last then
    let shift := (seq - w.last).toNat
    let bits := if shift ≥ w.size then 0 else w.bits <<< shift
    { w with bits := bits ||| 1, last := seq }
  else { w with bits := w.bits ||| (1#64 <<< (w.last - seq).toNat) }

/-! ## The packets -/

/-- `SA`, with keys of the lengths that `NewSA` takes. -/
structure EspSA where
  spi : UInt32
  encrKey : Bytes
  integKey : Bytes
  seqOut : UInt32
  seqInWin : ReplayWindow

def newEspSA (spi : UInt32) (encrKey integKey : Bytes) : Option EspSA :=
  if encrKey.length ≠ 32 then none
  else if integKey.length ≠ 32 then none
  else some ⟨spi, encrKey, integKey, 0, newReplayWindow 64⟩

def espICV (integKey macInput : Bytes) : Bytes := (crypto.hmacSHA256 integKey macInput).take 16

/-- The plaintext of `buildPacket`: the inner packet, `1, 2, 3, …` up to whole blocks, their number
and the next header. -/
def padded (inner : Bytes) (nextHdr : UInt8) : Bytes :=
  let rem := (inner.length + 2) % 16
  let padLen := if rem ≠ 0 then 16 - rem else 0
  inner ++ (List.range padLen).map (fun i => UInt8.ofNat (i + 1)) ++ [UInt8.ofNat padLen, nextHdr]

def buildPacket (spi seq : UInt32) (encrKey integKey iv inner : Bytes) (nextHdr : UInt8) :
    Option Bytes :=
  if inner.isEmpty then none
  else
    let pkt : Bytes := beBytes 4 spi.toNat ++ beBytes 4 seq.toNat ++ iv ++
      crypto.aesCBCEncrypt encrKey iv (padded inner nextHdr)
    some (pkt ++ espICV crypto integKey pkt)

/-- What `Decap` takes a plaintext apart into. -/
def stripped (pt : Bytes) : Option (Bytes × UInt8) :=
  if pt.length < 2 then none
  else
    let padLen := (pt.getD (pt.length - 2) 0).toNat
    if 2 + padLen > pt.length then none
    else if (List.range padLen).any fun i =>
      pt.getD (pt.length - 2 - padLen + i) 0 != UInt8.ofNat (i + 1) then none
    else some (pt.take (pt.length - 2 - padLen), pt.getD (pt.length - 1) 0)

/-- `Encap`, with the IV that is drawn; the number is taken also where no packet is built. -/
def EspSA.encap (s : EspSA) (inner : Bytes) (nextHdr : UInt8) (iv : Option Bytes) :
    Option Bytes × EspSA :=
  if s.seqOut = 0xFFFFFFFF then (none, s)
  else
    match iv with
    | none => (none, s)
    | some iv =>
      let s := { s with seqOut := s.seqOut + 1 }
      (buildPacket crypto s.spi s.seqOut s.encrKey s.integKey iv inner nextHdr, s)

/-- `Decap`: the inner packet and its next header. -/
def EspSA.decap (s : EspSA) (pkt : Bytes) : Option (Bytes × UInt8) × EspSA :=
  if pkt.length < 8 + 16 + 16 + 16 then (none, s)
  else
    let spi := UInt32.ofNat (pkt.beAt 0 4)
    let seq := UInt32.ofNat (pkt.beAt 4 4)
    if spi ≠ s.spi then (none, s)
    else if ¬ s.seqInWin.check seq then (none, s)
    else
      let icvOff := pkt.length - 16
      let macInput := pkt.take icvOff
      if espICV crypto s.integKey macInput ≠ pkt.drop icvOff then (none, s)
      else
        let iv := (pkt.drop 8).take 16
        let ct := macInput.drop 24
        if ct.length % 16 ≠ 0 then (none, s)
        else
          match stripped (crypto.aesCBCDecrypt s.encrKey iv ct) with
          | none => (none, s)
          | some r => (some r, { s with seqInWin := s.seqInWin.commit seq })

/-! ## What the window accepts -/

/-- The window, when these numbers have been accepted. -/
structure ReplayWindow.Inv (w : ReplayWindow) (accepted : List UInt32) : Prop where
  size : w.size = 64
  le (s : UInt32) (hs : s ∈ accepted) : s ≤ w.last
  last : w.last = 0 ∨ w.last ∈ accepted
  bit (i : Nat) (hi : i < 64) :
    w.bits.getLsbD i = true ↔ ∃ s ∈ accepted, s.toNat + i = w.last.toNat

variable {w : ReplayWindow} {accepted : List UInt32}

theorem inv_newReplayWindow : (newReplayWindow 64).Inv [] where
  size := rfl
  le := by simp
  last := .inl rfl
  bit := by simp [newReplayWindow]

/-- A number passes when it is not zero, was not accepted before and is above the highest accepted
one or fewer than 64 below. -/
theorem ReplayWindow.Inv.check_iff (h : w.Inv accepted) (s : UInt32) :
    w.check s = true ↔ s ≠ 0 ∧ s ∉ accepted ∧ w.last.toNat < s.toNat + 64 := by
  unfold ReplayWindow.check
  by_cases h0 : s = 0
  · simp [h0]
  rw [if_neg h0]
  by_cases hgt : s > w.last
  · have hnot : s ∉ accepted := fun hs => absurd (h.le s hs) (UInt32.not_le.mpr hgt)
    have := UInt32.lt_iff_toNat_lt.mp hgt
    rw [if_pos hgt]
    simp only [true_iff]
    exact ⟨h0, hnot, by omega⟩
  · have hle : s ≤ w.last := UInt32.not_lt.mp hgt
    have hlen := UInt32.le_iff_toNat_le.mp hle
    have hdiff : (w.last - s).toNat = w.last.toNat - s.toNat := UInt32.toNat_sub_of_le _ _ hle
    rw [if_neg hgt]
    dsimp only
    rw [hdiff, h.size]
    by_cases hfar : w.last.toNat - s.toNat ≥ 64
    · rw [if_pos hfar]
      simp only [Bool.false_eq_true, false_iff]
      omega
    · have hd : w.last.toNat - s.toNat < 64 := by omega
      have hmem : (∃ t ∈ accepted, t.toNat + (w.last.toNat - s.toNat) = w.last.toNat) ↔
          s ∈ accepted := by
        refine ⟨fun ⟨t, ht, heq⟩ => ?_, fun hs => ⟨s, hs, by omega⟩⟩
        rwa [UInt32.toNat_inj.mp (show s.toNat = t.toNat by clear hle hdiff; omega)]
      have hone : 1#64 <<< (w.last.toNat - s.toNat) ≠ 0#64 := by
        intro hz
        simpa [← BitVec.twoPow_eq, hd] using congrArg (·.getLsbD (w.last.toNat - s.toNat)) hz
      rw [if_neg hfar, ← hmem, ← h.bit _ hd, ← BitVec.twoPow_eq, BitVec.and_twoPow]
      cases w.bits.getLsbD (w.last.toNat - s.toNat) with
      | false => simp [h0]; omega
      | true => simpa [BitVec.twoPow_eq] using hone

theorem ReplayWindow.Inv.commit (h : w.Inv accepted) {s : UInt32} (hs : w.check s = true) :
    (w.commit s).Inv (s :: accepted) := by
  obtain ⟨h0, hnot, hnear⟩ := (h.check_iff s).mp hs
  unfold ReplayWindow.commit
  by_cases hgt : s > w.last
  · have hlt := UInt32.lt_iff_toNat_lt.mp hgt
    have hshift : (s - w.last).toNat = s.toNat - w.last.toNat :=
      UInt32.toNat_sub_of_le _ _ (UInt32.le_of_lt hgt)
    rw [if_pos hgt]
    refine ⟨h.size, ?_, .inr (by simp), ?_⟩
    · intro t ht
      rcases List.mem_cons.mp ht with rfl | ht
      · exact UInt32.le_refl _
      · exact UInt32.le_trans (h.le t ht) (UInt32.le_of_lt hgt)
    · intro i hi
      have hold : (if s.toNat - w.last.toNat ≥ 64 then 0 else
          w.bits <<< (s.toNat - w.last.toNat)).getLsbD i = true ↔
          ∃ t ∈ accepted, t.toNat + i = s.toNat := by
        have hle (t : UInt32) (ht : t ∈ accepted) := UInt32.le_iff_toNat_le.mp (h.le t ht)
        split
        · simp only [BitVec.getLsbD_zero, Bool.false_eq_true, false_iff, not_exists, not_and,
            BitVec.ofNat_eq_ofNat]
          intro t ht
          have := hle t ht
          omega
        · rw [BitVec.getLsbD_shiftLeft]
          by_cases hi' : i < s.toNat - w.last.toNat
          · simp only [hi', hi, decide_true, Bool.not_true, Bool.and_false, Bool.false_and,
              Bool.false_eq_true, false_iff, not_exists, not_and]
            intro t ht
            have := hle t ht
            omega
          · simp only [hi, hi', decide_true, decide_false, Bool.not_false, Bool.true_and,
              h.bit (i - (s.toNat - w.last.toNat)) (by omega)]
            exact exists_congr fun t => and_congr_right fun _ => by omega
      have hone : (1 : BitVec 64).getLsbD i = decide (i = 0) := by
        exact BitVec.getLsbD_one.trans (by simp)
      dsimp only
      rw [hshift, h.size, BitVec.getLsbD_or, hone, Bool.or_eq_true, hold, decide_eq_true_eq]
      simp only [List.mem_cons, exists_eq_or_imp]
      rw [or_comm]
      exact or_congr_left (by omega)
  · have hle : s ≤ w.last := UInt32.not_lt.mp hgt
    have hlen := UInt32.le_iff_toNat_le.mp hle
    have hdiff : (w.last - s).toNat = w.last.toNat - s.toNat := UInt32.toNat_sub_of_le _ _ hle
    rw [if_neg hgt]
    refine ⟨h.size, ?_, h.last.imp_right (List.mem_cons_of_mem _), ?_⟩
    · intro t ht
      rcases List.mem_cons.mp ht with rfl | ht
      · exact hle
      · exact h.le t ht
    · intro i hi
      dsimp only
      rw [hdiff, BitVec.getLsbD_or, ← BitVec.twoPow_eq, BitVec.getLsbD_twoPow, Bool.or_eq_true,
        h.bit i hi]
      simp only [List.mem_cons, exists_eq_or_imp, Bool.and_eq_true, decide_eq_true_eq]
      rw [or_comm]
      exact or_congr_left (by omega)

/-! ## There and back -/

/-- AES-CBC can be inverted: of whole blocks it makes as many octets, and the texts come back. -/
def Crypto.Inverts : Prop :=
  ∀ key iv text : Bytes, key.length = 32 → iv.length = 16 → text.length % 16 = 0 →
    (crypto.aesCBCEncrypt key iv text).length = text.length ∧
      crypto.aesCBCDecrypt key iv (crypto.aesCBCEncrypt key iv text) = text

/-- The number in a packet. -/
def seqOf (pkt : Bytes) : UInt32 := UInt32.ofNat (pkt.beAt 4 4)

variable {crypto} {spi seq : UInt32} {encrKey integKey iv inner pkt : Bytes} {nextHdr : UInt8}

theorem exists_padded (inner : Bytes) (nextHdr : UInt8) : ∃ k < 16,
    padded inner nextHdr = inner ++ (List.range k).map (fun i => UInt8.ofNat (i + 1)) ++
      [UInt8.ofNat k, nextHdr] ∧ (inner.length + k + 2) % 16 = 0 := by
  refine ⟨_, ?_, rfl, ?_⟩ <;> split <;> omega

theorem stripped_padded : stripped (padded inner nextHdr) = some (inner, nextHdr) := by
  obtain ⟨k, hk, heq, -⟩ := exists_padded inner nextHdr
  have hoct : (UInt8.ofNat k).toNat = k := UInt8.toNat_ofNat_of_lt' (Nat.lt_trans hk (by decide))
  generalize hpad : (List.range k).map (fun i => UInt8.ofNat (i + 1)) = pad at heq
  have hplen : pad.length = k := by simp [← hpad]
  have hlen : (padded inner nextHdr).length = inner.length + k + 2 := by simp [heq, hplen]; omega
  have hlast : (padded inner nextHdr).getD (inner.length + k + 2 - 2) 0 = UInt8.ofNat k := by
    simp [heq, List.getD_eq_getElem?_getD, hplen]
  have hnext : (padded inner nextHdr).getD (inner.length + k + 2 - 1) 0 = nextHdr := by
    rw [heq, List.getD_eq_getElem?_getD, List.getElem?_append_right (by simp [hplen])]
    simp [hplen]
  have hone : ¬ (List.range k).any fun i =>
      (padded inner nextHdr).getD (inner.length + k + 2 - 2 - k + i) 0 != UInt8.ofNat (i + 1) := by
    simp only [List.any_eq_true, List.mem_range, bne_iff_ne, not_exists, not_and, not_not]
    intro i hi
    rw [heq, ← hpad, List.getD_eq_getElem?_getD, List.append_assoc,
      List.getElem?_append_right (by omega), List.getElem?_append_left (by simp; omega)]
    simp [hi]
  unfold stripped
  rw [hlen, if_neg (by omega)]
  dsimp only
  rw [hlast, hoct, if_neg (by omega), if_neg hone, hnext, heq]
  simp

theorem seqOf_buildPacket
    (h : buildPacket crypto spi seq encrKey integKey iv inner nextHdr = some pkt) :
    seqOf pkt = seq := by
  have hseq : beNat (beBytes 4 seq.toNat) = seq.toNat := beNat_beBytes_of_lt seq.toNat_lt
  unfold buildPacket at h
  split at h
  · cases h
  · obtain rfl := some.inj h
    simp [seqOf, Bytes.beAt, hseq]

theorem buildPacket_icv
    (h : buildPacket crypto spi seq encrKey integKey iv inner nextHdr = some pkt) :
    pkt.drop (pkt.length - 16) = espICV crypto integKey (pkt.take (pkt.length - 16)) := by
  unfold buildPacket at h
  split at h
  · cases h
  · obtain rfl := some.inj h
    generalize beBytes 4 spi.toNat ++ _ ++ _ ++ _ = pre
    have hicv : (espICV crypto integKey pre).length = 16 := by
      simp [espICV, crypto.hmacSHA256_length]
    rw [List.length_append, hicv, Nat.add_sub_cancel, List.take_left, List.drop_left]

/-- A packet of the sender whose number passes comes back as it was. -/
theorem decap_buildPacket (hinv : crypto.Inverts) {s : EspSA} (henc : s.encrKey.length = 32)
    (hiv : iv.length = 16)
    (h : buildPacket crypto s.spi seq s.encrKey s.integKey iv inner nextHdr = some pkt)
    (hcheck : s.seqInWin.check seq = true) :
    s.decap crypto pkt =
      (some (inner, nextHdr), { s with seqInWin := s.seqInWin.commit seq }) := by
  have hseq := seqOf_buildPacket h
  obtain ⟨k, hk, htext, hmod⟩ := exists_padded inner nextHdr
  have htlen : (padded inner nextHdr).length = inner.length + k + 2 := by simp [htext]; omega
  obtain ⟨hclen, hback⟩ := hinv s.encrKey iv (padded inner nextHdr) henc hiv (by omega)
  unfold buildPacket at h
  split at h
  · cases h
  rename_i hne
  have hpos : inner.length ≠ 0 := by simpa using hne
  dsimp only at h
  generalize crypto.aesCBCEncrypt s.encrKey iv (padded inner nextHdr) = ct at *
  generalize hpre : beBytes 4 s.spi.toNat ++ beBytes 4 seq.toNat ++ iv ++ ct = pre at h
  obtain rfl := some.inj h
  have hspi : UInt32.ofNat (beNat (beBytes 4 s.spi.toNat)) = s.spi := by
    rw [beNat_beBytes_of_lt s.spi.toNat_lt, UInt32.ofNat_toNat]
  have hicv : (espICV crypto s.integKey pre).length = 16 := by
    simp [espICV, crypto.hmacSHA256_length]
  have hplen : pre.length = 24 + ct.length := by simp [← hpre, hiv]; omega
  have hspi' : UInt32.ofNat (Bytes.beAt (pre ++ espICV crypto s.integKey pre) 0 4) = s.spi := by
    simpa [← hpre, Bytes.beAt] using hspi
  have hiv' : ((pre ++ espICV crypto s.integKey pre).drop 8).take 16 = iv := by
    simp [← hpre, drop_append, take_append, hiv]
  have hct : pre.drop 24 = ct := hpre ▸ drop_left' (by simp [hiv])
  unfold EspSA.decap
  rw [if_neg (by simp only [length_append]; omega)]
  dsimp only
  rw [if_neg (not_not.mpr hspi'), show UInt32.ofNat (Bytes.beAt _ 4 4) = seq from hseq,
    if_neg (not_not.mpr hcheck), List.length_append, hicv, Nat.add_sub_cancel, List.take_left,
    drop_left, if_neg (not_not.mpr rfl), hct, if_neg (by omega), hiv', hback, stripped_padded]

/-- What `Encap` does: it answers nothing, or the packet with the next number. -/
theorem encap_cases (crypto : Crypto) (s : EspSA) (inner : Bytes) (nextHdr : UInt8)
    (iv : Option Bytes) :
    (∃ n, s.seqOut ≤ n ∧ s.encap crypto inner nextHdr iv = (none, { s with seqOut := n })) ∨
    ∃ b pkt, iv = some b ∧ s.seqOut < s.seqOut + 1 ∧ buildPacket crypto s.spi (s.seqOut + 1)
        s.encrKey s.integKey b inner nextHdr = some pkt ∧
      s.encap crypto inner nextHdr iv = (some pkt, { s with seqOut := s.seqOut + 1 }) := by
  unfold EspSA.encap
  by_cases hmax : s.seqOut = 0xFFFFFFFF
  · exact .inl ⟨s.seqOut, UInt32.le_refl _, by rw [if_pos hmax]⟩
  rw [if_neg hmax]
  cases iv with
  | none => exact .inl ⟨s.seqOut, UInt32.le_refl _, rfl⟩
  | some b =>
    have hnext : s.seqOut < s.seqOut + 1 := by
      have hlt := s.seqOut.toNat_lt
      have hne : s.seqOut.toNat ≠ 4294967295 := fun h => hmax (UInt32.toNat_inj.mp h)
      rw [UInt32.lt_iff_toNat_lt, UInt32.toNat_add]
      simp
      omega
    dsimp only
    cases hb : buildPacket crypto s.spi (s.seqOut + 1) s.encrKey s.integKey b inner nextHdr with
    | none => exact .inl ⟨s.seqOut + 1, UInt32.le_of_lt hnext, rfl⟩
    | some pkt => exact .inr ⟨b, pkt, rfl, hnext, hb, rfl⟩

/-- What `Decap` does: it rejects and leaves the association, or it accepts a number that passes
under a checksum that verifies. -/
theorem decap_cases (crypto : Crypto) (s : EspSA) (pkt : Bytes) :
    s.decap crypto pkt = (none, s) ∨
    ∃ r, s.decap crypto pkt = (some r, { s with seqInWin := s.seqInWin.commit (seqOf pkt) }) ∧
      s.seqInWin.check (seqOf pkt) = true ∧
      espICV crypto s.integKey (pkt.take (pkt.length - 16)) = pkt.drop (pkt.length - 16) := by
  fun_cases EspSA.decap crypto s pkt
  all_goals first | exact .inl rfl | skip
  rename_i hcheck _ _ hicv _ _ _ r _
  exact .inr ⟨r, rfl, not_not.mp hcheck, not_not.mp hicv⟩

/-! ## Every run -/

/-- A sender and a receiver, with what was sent, as it was given, and what was accepted. -/
structure EspLink where
  sender : EspSA
  receiver : EspSA
  sent : List (Bytes × Bytes × UInt8)
  accepted : List Bytes

variable (crypto) in
/-- The HMAC is not forged: what verifies under it was authenticated by the sender. -/
def EspLink.Unforged (l : EspLink) (pkt : Bytes) : Prop :=
  espICV crypto l.receiver.integKey (pkt.take (pkt.length - 16)) = pkt.drop (pkt.length - 16) →
    ∃ p ∈ l.sent, pkt.take (pkt.length - 16) = p.1.take (p.1.length - 16)

variable (crypto) in
def EspLink.send (l : EspLink) (inner : Bytes) (nextHdr : UInt8) (iv : Option Bytes) : EspLink :=
  let r := l.sender.encap crypto inner nextHdr iv
  { l with
    sender := r.2
    sent := (r.1.map (·, inner, nextHdr)).toList ++ l.sent }

variable (crypto) in
def EspLink.deliver (l : EspLink) (pkt : Bytes) : EspLink :=
  let r := l.receiver.decap crypto pkt
  { l with
    receiver := r.2
    accepted := if r.1.isSome then pkt :: l.accepted else l.accepted }

/-- What a link may come to: packets sent with whatever IVs are drawn, and any packets delivered. -/
inductive EspReach (crypto : Crypto) (sa : EspSA) : EspLink → Prop
  | start : EspReach crypto sa ⟨sa, sa, [], []⟩
  | send {l : EspLink} (inner : Bytes) (nextHdr : UInt8) (iv : Option Bytes)
      (hiv : ∀ b ∈ iv, b.length = 16) : EspReach crypto sa l →
      EspReach crypto sa (l.send crypto inner nextHdr iv)
  | deliver {l : EspLink} (pkt : Bytes) (hun : l.Unforged crypto pkt) :
      EspReach crypto sa l → EspReach crypto sa (l.deliver crypto pkt)

/-- What holds in every run. -/
structure EspLink.Inv (crypto : Crypto) (sa : EspSA) (l : EspLink) : Prop where
  sender : l.sender = { sa with seqOut := l.sender.seqOut }
  receiver : l.receiver = { sa with seqInWin := l.receiver.seqInWin }
  window : l.receiver.seqInWin.Inv (l.accepted.map seqOf)
  once : (l.accepted.map seqOf).Nodup
  genuine (p) (hp : p ∈ l.accepted) : ∃ q ∈ l.sent, q.1 = p
  built (p) (hp : p ∈ l.sent) : ∃ seq iv, iv.length = 16 ∧ seq ≠ 0 ∧ seq ≤ l.sender.seqOut ∧
    buildPacket crypto sa.spi seq sa.encrKey sa.integKey iv p.2.1 p.2.2 = some p.1
  fresh : (l.sent.map (seqOf ·.1)).Nodup
  count : l.sent.length ≤ l.sender.seqOut.toNat

variable {sa : EspSA} {l : EspLink}

theorem newEspSA_eq (h : newEspSA spi encrKey integKey = some sa) :
    encrKey.length = 32 ∧ sa = ⟨spi, encrKey, integKey, 0, newReplayWindow 64⟩ := by
  unfold newEspSA at h
  split at h
  · cases h
  · split at h
    · cases h
    · exact ⟨by omega, (some.inj h).symm⟩

theorem EspLink.Inv.start (h : newEspSA spi encrKey integKey = some sa) :
    (⟨sa, sa, [], []⟩ : EspLink).Inv crypto sa := by
  obtain rfl := (newEspSA_eq h).2
  exact ⟨rfl, rfl, inv_newReplayWindow, nodup_nil, by simp, by simp, nodup_nil,
    Nat.zero_le _⟩

theorem EspLink.Inv.send (h : l.Inv crypto sa) (inner : Bytes) (nextHdr : UInt8)
    {iv : Option Bytes} (hiv : ∀ b ∈ iv, b.length = 16) :
    (l.send crypto inner nextHdr iv).Inv crypto sa := by
  unfold EspLink.send
  obtain ⟨n, hn, heq⟩ | ⟨b, pkt, rfl, hlt, hb, heq⟩ :=
    encap_cases crypto l.sender inner nextHdr iv
  · rw [heq]
    refine { h with sender := ?_, built := ?_, count := ?_ }
    · dsimp only
      rw [h.sender]
    · intro p hp
      obtain ⟨seq, iv, hlen, h0, hle, hbuilt⟩ := h.built p hp
      exact ⟨seq, iv, hlen, h0, UInt32.le_trans hle hn, hbuilt⟩
    · exact Nat.le_trans h.count (UInt32.le_iff_toNat_le.mp hn)
  · rw [heq]
    have hseq := seqOf_buildPacket hb
    have hnat := UInt32.lt_iff_toNat_lt.mp hlt
    refine { h with sender := ?_, built := ?_, genuine := ?_, fresh := ?_, count := ?_ }
    · dsimp only
      rw [h.sender]
    · intro p hp
      obtain ⟨q, hq, rfl⟩ := h.genuine p hp
      exact ⟨q, List.mem_append_right _ hq, rfl⟩
    · intro p hp
      rcases List.mem_cons.mp hp with rfl | hp
      · refine ⟨_, b, hiv b rfl, ?_, UInt32.le_refl _, by rw [h.sender] at hb ⊢; exact hb⟩
        exact fun h0 => absurd (h0 ▸ hlt : l.sender.seqOut < 0) UInt32.not_lt_zero
      · obtain ⟨seq, iv, hlen, h0, hle, hbuilt⟩ := h.built p hp
        exact ⟨seq, iv, hlen, h0, UInt32.le_trans hle (UInt32.le_of_lt hlt), hbuilt⟩
    · refine List.nodup_cons.mpr ⟨?_, h.fresh⟩
      simp only [List.mem_map, not_exists, not_and]
      intro p hp heq
      obtain ⟨seq, iv, hlen, h0, hle, hbuilt⟩ := h.built p hp
      rw [hseq, seqOf_buildPacket hbuilt] at heq
      exact absurd hle (UInt32.not_le.mpr (heq ▸ hlt))
    · have := h.count
      simp only [Option.map_some, Option.toList_some, List.singleton_append, List.length_cons]
      omega

theorem EspLink.Inv.deliver (h : l.Inv crypto sa) {pkt : Bytes}
    (hun : l.Unforged crypto pkt) :
    (l.deliver crypto pkt).Inv crypto sa := by
  unfold EspLink.deliver
  obtain heq | ⟨r, heq, hcheck, hicv⟩ := decap_cases crypto l.receiver pkt
  · rw [heq]
    exact h
  · rw [heq]
    have hnot := ((h.window.check_iff _).mp hcheck).2.1
    refine { h with
      receiver := ?_
      window := h.window.commit hcheck
      once := nodup_cons.mpr ⟨hnot, h.once⟩
      genuine := ?_ }
    · dsimp only
      rw [h.receiver]
    · intro p hp
      rcases mem_cons.mp hp with rfl | hp
      · obtain ⟨q, hq, hpre⟩ := hun hicv
        obtain ⟨seq, iv, -, -, -, hbuilt⟩ := h.built q hq
        have hsame := buildPacket_icv hbuilt
        rw [h.receiver] at hicv
        rw [← hpre, hicv] at hsame
        refine ⟨q, hq, ?_⟩
        rw [← take_append_drop (q.1.length - 16) q.1, hsame, ← hpre, take_append_drop]
      · exact h.genuine p hp

theorem EspReach.inv (hnew : newEspSA spi encrKey integKey = some sa) (h : EspReach crypto sa l) :
    l.Inv crypto sa := by
  induction h with
  | start => exact .start hnew
  | send inner nextHdr iv hiv _ ih => exact ih.send inner nextHdr hiv
  | deliver pkt hun _ ih => exact ih.deliver hun

/-- Whatever is delivered, no number is accepted twice; a packet of the sender that was not accepted
before, with a number above or fewer than 64 below every accepted one, is accepted and comes back
as it was given; what is rejected leaves the association; and no two packets are sent under one
number, nor any after the last number. -/
theorem esp_accepts_once (hinv : crypto.Inverts) (hnew : newEspSA spi encrKey integKey = some sa)
    (h : EspReach crypto sa l) :
    (l.accepted.map seqOf).Nodup ∧
    (∀ pkt inner nextHdr, (pkt, inner, nextHdr) ∈ l.sent → pkt ∉ l.accepted →
      (∀ p ∈ l.accepted, (seqOf p).toNat < (seqOf pkt).toNat + 64) →
      (l.receiver.decap crypto pkt).1 = some (inner, nextHdr)) ∧
    (∀ pkt, (l.receiver.decap crypto pkt).1 = none →
      (l.receiver.decap crypto pkt).2 = l.receiver) ∧
    (l.sent.map (seqOf ·.1)).Nodup ∧ l.sent.length ≤ 2 ^ 32 - 1 ∧
    (l.sender.seqOut.toNat = 2 ^ 32 - 1 →
      ∀ inner nextHdr iv, (l.sender.encap crypto inner nextHdr iv).1 = none) := by
  have hl := h.inv hnew
  refine ⟨hl.once, ?_, ?_, hl.fresh, ?_, ?_⟩
  · intro pkt inner nextHdr hsent hnot hnear
    obtain ⟨seq, iv, hiv, h0, -, hbuilt⟩ := hl.built _ hsent
    have hseq := seqOf_buildPacket hbuilt
    have hcheck : l.receiver.seqInWin.check seq = true := by
      refine (hl.window.check_iff seq).mpr ⟨h0, ?_, ?_⟩
      · intro hmem
        obtain ⟨p, hp, hpseq⟩ := mem_map.mp hmem
        obtain ⟨q, hq, rfl⟩ := hl.genuine p hp
        have hqp := inj_on_of_nodup_map hl.fresh hq hsent (hpseq.trans hseq.symm)
        exact hnot (by rwa [hqp] at hp)
      · rcases hl.window.last with hz | hmem
        · rw [hz]
          exact Nat.lt_of_lt_of_le (by decide) (Nat.le_add_left 64 _)
        · obtain ⟨p, hp, hpseq⟩ := mem_map.mp hmem
          rw [← hpseq, ← hseq]
          exact hnear p hp
    have hkey : sa.encrKey.length = 32 := (newEspSA_eq hnew).2 ▸ (newEspSA_eq hnew).1
    have hback := decap_buildPacket hinv (hl.receiver ▸ hkey) hiv
      (by rw [hl.receiver]; exact hbuilt) hcheck
    rw [hback]
  · intro pkt hnone
    obtain heq | ⟨r, heq, -⟩ := decap_cases crypto l.receiver pkt
    · rw [heq]
    · rw [heq] at hnone
      cases hnone
  · have := l.sender.seqOut.toNat_lt
    have := hl.count
    omega
  · intro hmax inner nextHdr iv
    unfold EspSA.encap
    rw [if_pos (UInt32.toNat_inj.mp hmax)]

/-- AES in CBC mode, under the key and the IV of the packet below and on its one block. -/
def linkMask (_ _ text : Bytes) : Bytes :=
  text.mapIdx fun i b => b ^^^ (beBytes 16 0xcce91d5e8235b715bf65b26f8ccba6fc).getD (i % 16) 0

def linkCrypto : Crypto where
  hmacSHA1 _ _ := []
  hmacSHA256 _ _ := beBytes 32 0xd8729acbf92a0403881406b6b0fd32b0181de8c77935ccc7cf26b8f3ab847dc5
  aesCBCEncrypt := linkMask
  aesCBCDecrypt := linkMask
  hmacSHA256_length _ _ := length_beBytes ..

theorem linkCrypto_inverts : linkCrypto.Inverts := by
  intro key iv text _ _ _
  refine ⟨by simp [linkCrypto, linkMask], List.ext_getElem (by simp [linkCrypto, linkMask]) ?_⟩
  intro i _ _
  simp [linkCrypto, linkMask, UInt8.xor_assoc]

/-- A sender that has sent one octet, under keys of zeros. -/
def linkOnce : EspLink :=
  let sa : EspSA := ⟨1, List.replicate 32 0, List.replicate 32 0, 0, newReplayWindow 64⟩
  (⟨sa, sa, [], []⟩ : EspLink).send linkCrypto [0x45] 4 (some (List.replicate 16 0))

theorem esp_accepts_once_first :
    (linkOnce.receiver.decap linkCrypto (linkOnce.sent.headD ([], [], 0)).1).1 =
      some ([0x45], 4) :=
  have hnew : newEspSA 1 (replicate 32 0) (replicate 32 0) = some
      ⟨1, replicate 32 0, replicate 32 0, 0, newReplayWindow 64⟩ := rfl
  (esp_accepts_once linkCrypto_inverts hnew (.send [0x45] 4 _ (by simp) .start)).2.1 _ _ _
    (by decide) (by decide) (by simp [EspLink.send])

end MmtCore.N3iwf
