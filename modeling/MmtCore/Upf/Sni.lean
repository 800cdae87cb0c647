import MmtCore.Lib.Probe
import MmtCore.Lib.Reader

/-!
# The server name of a ClientHello

`upf_extract_sni` of `upf_dpi.c` looks for the host name in the first packet of a TLS connection.
Its cursor has 16 bits and is moved by lengths of the packet: those of the vectors before the
extensions and those of the extensions.  It can wrap around, and then the walk over the extensions
need not end.  The length of a name it reads before it knows that it lies in the packet.  A packet
that is a whole ClientHello is read right, and the others are read safely where the walk comes to
an end without a name (`sni_safe_iff`).
-/

namespace MmtCore.Upf

open MmtCore.Lib Option UInt16 UInt32 Probe

/-! ## The walk of the source -/

/-- `UPF_DPI_MAX_SNI_LEN`. -/
abbrev upfDpiMaxSniLen : Nat := 256

/-- `tolower` in the C locale. -/
def toLower (c : UInt8) : UInt8 := if 65 ≤ c ∧ c ≤ 90 then c + 32 else c

/-- The record and the handshake header: the length of the ClientHello, which starts at the index
9.  `none` is `-1`. -/
def helloBody (len : UInt16) : Probe (Option UInt32) :=
  if len < 5 then pure none
  else
    Probe.byte 0 >>= fun contentType =>
      if contentType ≠ 0x16 then pure none
      else
        Probe.word 3 >>= fun recLen =>
          if 5 + recLen.toNat > len.toNat then pure none
          else if recLen < 4 then pure none
          else
            Probe.byte 5 >>= fun hsType =>
              if hsType ≠ 0x01 then pure none
              else
                Probe.byte 6 >>= fun a => Probe.byte 7 >>= fun b => Probe.byte 8 >>= fun c =>
                  let chLen := be32 0 a b c
                  if chLen + 4 > recLen.toUInt32 then pure none else pure (some chLen)

/-- The vectors before the extensions: where these start and end, after the index 9. -/
def helloExtensions (chLen : UInt32) : Probe (Option (UInt16 × UInt16)) :=
  if chLen < 34 then pure none
  else if 34 ≥ chLen.toNat then pure none
  else
    Probe.byte (9 + 34) >>= fun sidLen =>
      let pos : UInt16 := 35 + sidLen.toUInt16
      if pos.toNat + 2 > chLen.toNat then pure none
      else
        Probe.word (9 + pos.toNat) >>= fun csLen =>
          let pos := pos + (2 + csLen)
          if pos.toNat ≥ chLen.toNat then pure none
          else
            Probe.byte (9 + pos.toNat) >>= fun cmLen =>
              let pos := pos + 1 + cmLen.toUInt16
              if pos.toNat + 2 > chLen.toNat then pure none
              else
                Probe.word (9 + pos.toNat) >>= fun extLen =>
                  let pos := pos + 2
                  let extEnd := pos + extLen
                  let extEnd := if extEnd.toNat > chLen.toNat then chLen.toUInt16 else extEnd
                  pure (some (pos, extEnd))

/-- The name in the data of an extension at `pos`, if it is a server name that fits. -/
def sniName (extEnd pos extType extDataLen : UInt16) : Probe (Option (List UInt8)) :=
  if extType = 0x0000 ∧ extDataLen > 5 then
    Probe.word (9 + pos.toNat + 3) >>= fun nameLen =>
      if nameLen > 0 ∧ nameLen.toNat < upfDpiMaxSniLen ∧
          pos.toNat + 5 + nameLen.toNat ≤ extEnd.toNat then
        Probe.bytes (9 + pos.toNat + 5) nameLen.toNat >>= fun name =>
          pure (some (name.map toLower))
      else pure none
  else pure none

/-- The loop over the extensions.  The outer `none` is for a loop that has not ended, the inner one
for `-1`. -/
def sniLoop (extEnd : UInt16) : Nat → UInt16 → Probe (Option (Option (List UInt8)))
  | 0, _ => pure none
  | fuel + 1, pos =>
    if pos.toNat + 4 ≤ extEnd.toNat then
      Probe.word (9 + pos.toNat) >>= fun extType =>
        Probe.word (9 + pos.toNat + 2) >>= fun extDataLen =>
          sniName extEnd (pos + 4) extType extDataLen >>= fun name =>
            name.elim (sniLoop extEnd fuel (pos + 4 + extDataLen)) fun n => pure (some (some n))
    else pure (some none)

/-- `upf_extract_sni`: the name it stores. -/
def extractSni (len : UInt16) (fuel : Nat) : Probe (Option (Option (List UInt8))) :=
  helloBody len >>= fun body =>
    body.elim (pure (some none)) fun chLen =>
      helloExtensions chLen >>= fun exts =>
        exts.elim (pure (some none)) fun p => sniLoop p.2 fuel p.1

/-! ## Up to the extensions -/

section Header

variable {mem : Memory} {len : UInt16} {chLen : UInt32}

/-- The packet holds the record and the handshake header of a ClientHello of `chLen` bytes. -/
structure HelloHeader (mem : Memory) (len : UInt16) (chLen : UInt32) : Prop where
  record : mem 0 = 0x16
  recLen_le : 5 + (be16 (mem 3) (mem 4)).toNat ≤ len.toNat
  hello : mem 5 = 0x01
  chLen_eq : chLen = be32 0 (mem 6) (mem 7) (mem 8)
  chLen_le : chLen.toNat + 4 ≤ (be16 (mem 3) (mem 4)).toNat

theorem be24_lt (a b c : UInt8) : (be32 0 a b c).toNat < 2 ^ 24 := by
  have ha := a.toNat_lt
  have hb := b.toNat_lt
  have hc := c.toNat_lt
  grind [be32, UInt32.toNat_ofNat']

theorem chLen_add_four (a b c : UInt8) :
    (be32 0 a b c + 4).toNat = (be32 0 a b c).toNat + 4 := by
  grind [UInt32.toNat_add, be24_lt]

variable (mem len) in
/-- The headers are read within the packet, and a length is returned where they are those of a
ClientHello. -/
theorem helloBody_yields :
    Probe.Yields mem len.toNat (helloBody len) fun chLen => HelloHeader mem len chLen := by
  refine yields_ite (fun h5 => yields_none fun chLen h => ?_) fun h5 => ?_
  · have hlt := lt_iff_toNat_lt.mp h5
    have hle := h.recLen_le
    have hfive : (5 : UInt16).toNat = 5 := rfl
    omega
  have hlen : 5 ≤ len.toNat := Nat.not_lt.mp fun hlt => h5 (UInt16.lt_iff_toNat_lt.mpr hlt)
  refine yields_bind (within_byte.mpr (by omega)) ?_
  refine yields_ite (fun hty => yields_none fun chLen h => hty h.record) fun hty => ?_
  refine yields_bind (within_word.mpr (by omega)) ?_
  have hword : (word 3).value mem = be16 (mem 3) (mem 4) := rfl
  rw [hword]
  refine yields_ite (fun hrec => yields_none fun chLen h => ?_) fun hrec => ?_
  · have hle := h.recLen_le
    omega
  refine yields_ite (fun hfour => yields_none fun chLen h => ?_) fun hfour => ?_
  · have hlt := lt_iff_toNat_lt.mp hfour
    have hle := h.chLen_le
    have h4 : (4 : UInt16).toNat = 4 := rfl
    omega
  have hfour' : 4 ≤ (be16 (mem 3) (mem 4)).toNat :=
    Nat.not_lt.mp fun hlt => hfour (UInt16.lt_iff_toNat_lt.mpr hlt)
  refine yields_bind (within_byte.mpr (by omega)) ?_
  refine yields_ite (fun hhs => yields_none fun chLen h => hhs h.hello) fun hhs => ?_
  refine yields_bind (within_byte.mpr (by omega)) ?_
  refine yields_bind (within_byte.mpr (by omega)) ?_
  refine yields_bind (within_byte.mpr (by omega)) ?_
  rw [value_byte, value_byte, value_byte]
  have hcmp : be32 0 (mem 6) (mem 7) (mem 8) + 4 > (be16 (mem 3) (mem 4)).toUInt32 ↔
      (be16 (mem 3) (mem 4)).toNat < (be32 0 (mem 6) (mem 7) (mem 8)).toNat + 4 := by
    rw [gt_iff_lt, UInt32.lt_iff_toNat_lt, chLen_add_four, UInt16.toNat_toUInt32]
  refine yields_ite (fun hch => yields_none fun chLen h => ?_) fun hch => ?_
  · have hlt := hcmp.mp hch
    have hle := h.chLen_le
    rw [h.chLen_eq] at hle
    omega
  · refine yields_some fun chLen => ⟨fun h => h.chLen_eq.symm, ?_⟩
    rintro rfl
    exact
      { record := Decidable.not_not.mp hty
        recLen_le := Nat.not_lt.mp hrec
        hello := Decidable.not_not.mp hhs
        chLen_eq := rfl
        chLen_le := Nat.not_lt.mp fun hlt => hch (hcmp.mpr hlt) }

/-- The vectors before the extensions, by their lengths modulo `2 ^ 16`. -/
structure ExtensionBlock (mem : Memory) (chLen : UInt32) (p : UInt16 × UInt16) : Prop where
  random : 34 < chLen.toNat
  at_cipherSuites : ∃ p₁ p₂ p₃ : UInt16,
    p₁ = 35 + (mem (9 + 34)).toUInt16 ∧ p₁.toNat + 2 ≤ chLen.toNat ∧
      p₂ = p₁ + (2 + be16 (mem (9 + p₁.toNat)) (mem (9 + p₁.toNat + 1))) ∧
      p₂.toNat < chLen.toNat ∧
      p₃ = p₂ + 1 + (mem (9 + p₂.toNat)).toUInt16 ∧ p₃.toNat + 2 ≤ chLen.toNat ∧
      p.1 = p₃ + 2 ∧
      p.2.toNat =
        min (p₃ + 2 + be16 (mem (9 + p₃.toNat)) (mem (9 + p₃.toNat + 1))).toNat chLen.toNat

variable (mem) in
/-- The vectors are read within the ClientHello. -/
theorem helloExtensions_yields (hch : chLen.toNat < 2 ^ 16) :
    Probe.Yields mem (9 + chLen.toNat) (helloExtensions chLen) fun p =>
      ExtensionBlock mem chLen p := by
  have h34 : (34 : UInt32).toNat = 34 := rfl
  refine yields_ite (fun hlt => yields_none fun p h => ?_) fun _ => ?_
  · have hlt' := lt_iff_toNat_lt.mp hlt
    have hrandom := h.random
    omega
  refine yields_ite (fun hle => yields_none fun p h => ?_) fun hlt => ?_
  · have hrandom := h.random
    omega
  refine yields_bind (within_byte.mpr (by omega)) ?_
  rw [value_byte]
  generalize hp₁ : 35 + (mem (9 + 34)).toUInt16 = p₁
  refine yields_ite (fun hgt => yields_none fun p h => ?_) fun hle₁ => ?_
  · obtain ⟨q₁, q₂, q₃, hq₁, hle, -⟩ := h.at_cipherSuites
    rw [hq₁, hp₁] at hle
    omega
  refine yields_bind (within_word.mpr (by omega)) ?_
  rw [value_word]
  generalize hp₂ : p₁ + (2 + be16 (mem (9 + p₁.toNat)) (mem (9 + p₁.toNat + 1))) = p₂
  refine yields_ite (fun hge => yields_none fun p h => ?_) fun hlt₂ => ?_
  · obtain ⟨q₁, q₂, q₃, hq₁, -, hq₂, hle, -⟩ := h.at_cipherSuites
    rw [hq₂, hq₁, hp₁, hp₂] at hle
    omega
  refine yields_bind (within_byte.mpr (by omega)) ?_
  rw [value_byte]
  generalize hp₃ : p₂ + 1 + (mem (9 + p₂.toNat)).toUInt16 = p₃
  refine yields_ite (fun hgt => yields_none fun p h => ?_) fun hle₃ => ?_
  · obtain ⟨q₁, q₂, q₃, hq₁, -, hq₂, -, hq₃, hle, -⟩ := h.at_cipherSuites
    grind
  refine yields_bind (within_word.mpr (by omega)) ?_
  rw [value_word]
  generalize hend : p₃ + 2 + be16 (mem (9 + p₃.toNat)) (mem (9 + p₃.toNat + 1)) = e
  have htrunc : chLen.toUInt16.toNat = chLen.toNat := by
    rw [toNat_toUInt16, Nat.mod_eq_of_lt hch]
  have hmin : (if e.toNat > chLen.toNat then chLen.toUInt16 else e).toNat =
      min e.toNat chLen.toNat := by
    split
    · rw [htrunc]
      omega
    · omega
  refine yields_some fun p => ⟨fun h => ?_, ?_⟩
  · obtain ⟨q₁, q₂, q₃, hq₁, -, hq₂, -, hq₃, -, hstart, hstop⟩ := h.at_cipherSuites
    grind [UInt16.toNat_inj]
  · rintro rfl
    refine ⟨by omega, p₁, p₂, p₃, hp₁.symm, by omega, hp₂.symm, by omega, hp₃.symm, by omega, rfl,
      ?_⟩
    rw [hend]
    exact hmin

end Header

/-! ## The walk over the extensions -/

section Walk

variable {mem : Memory} {n : Nat} {extEnd pos : UInt16}

/-- The type of the extension at `pos`. -/
def extTypeAt (mem : Memory) (pos : UInt16) : UInt16 :=
  be16 (mem (9 + pos.toNat)) (mem (9 + pos.toNat + 1))

/-- The length of its data. -/
def extLenAt (mem : Memory) (pos : UInt16) : UInt16 :=
  be16 (mem (9 + pos.toNat + 2)) (mem (9 + pos.toNat + 3))

/-- The length of the name in it, if it is a server name. -/
def nameLenAt (mem : Memory) (pos : UInt16) : UInt16 :=
  be16 (mem (9 + pos.toNat + 7)) (mem (9 + pos.toNat + 8))

/-- The extension is read as a server name. -/
abbrev NameRead (mem : Memory) (pos : UInt16) : Prop := extTypeAt mem pos = 0 ∧ extLenAt mem pos > 5

/-- The name in it has a length the code takes, and it ends by the end of the extensions. -/
def NameFits (mem : Memory) (extEnd pos : UInt16) : Prop :=
  nameLenAt mem pos > 0 ∧ (nameLenAt mem pos).toNat < upfDpiMaxSniLen ∧
    pos.toNat + 9 + (nameLenAt mem pos).toNat ≤ extEnd.toNat

/-- The walk from `pos` comes to the end of the extensions, in a memory of `n` bytes, past
extensions without a name that would be taken. -/
inductive Passes (mem : Memory) (n : Nat) (extEnd : UInt16) : UInt16 → Prop
  | stop {pos : UInt16} (h : extEnd.toNat < pos.toNat + 4) : Passes mem n extEnd pos
  | skip {pos : UInt16} (h : pos.toNat + 4 ≤ extEnd.toNat)
      (hname : NameRead mem pos → 9 + pos.toNat + 9 ≤ n ∧ ¬NameFits mem extEnd pos)
      (rest : Passes mem n extEnd (pos + 4 + extLenAt mem pos)) : Passes mem n extEnd pos

theorem add_four_toNat (h : pos.toNat + 4 ≤ extEnd.toNat) : (pos + 4).toNat = pos.toNat + 4 := by
  have hlt := extEnd.toNat_lt
  grind [UInt16.toNat_add]

/-- What is found in the data of an extension. -/
def nameAt (mem : Memory) (extEnd pos : UInt16) : Option (List UInt8) :=
  (sniName extEnd (pos + 4) (extTypeAt mem pos) (extLenAt mem pos)).value mem

variable (mem n) in
/-- A round at an extension. -/
theorem sniLoop_round (h : pos.toNat + 4 ≤ extEnd.toNat) (fuel : Nat) :
    (sniLoop extEnd (fuel + 1) pos).value mem =
        (nameAt mem extEnd pos).elim
          ((sniLoop extEnd fuel (pos + 4 + extLenAt mem pos)).value mem) (fun l => some (some l)) ∧
      (9 + extEnd.toNat ≤ n → (Probe.Within mem n (sniLoop extEnd (fuel + 1) pos) ↔
        Probe.Within mem n (sniName extEnd (pos + 4) (extTypeAt mem pos) (extLenAt mem pos)) ∧
          (nameAt mem extEnd pos = none →
            Probe.Within mem n (sniLoop extEnd fuel (pos + 4 + extLenAt mem pos))))) := by
  have htype : (word (9 + pos.toNat)).value mem = extTypeAt mem pos := rfl
  have hlen : (word (9 + pos.toNat + 2)).value mem = extLenAt mem pos := rfl
  have hname : (sniName extEnd (pos + 4) (extTypeAt mem pos) (extLenAt mem pos)).value mem =
      nameAt mem extEnd pos := rfl
  constructor
  · rw [sniLoop, if_pos h, value_bind, value_bind, value_bind, htype, hlen,
      hname]
    cases nameAt mem extEnd pos with
    | none | some l => rfl
  · intro hn
    rw [sniLoop, if_pos h, within_bind, within_bind, within_bind, htype, hlen,
      hname, within_word, within_word]
    cases nameAt mem extEnd pos with
    | none =>
      grind
    | some l =>
      grind [within_pure]

theorem sniLoop_stop (h : extEnd.toNat < pos.toNat + 4) (fuel : Nat) :
    sniLoop extEnd (fuel + 1) pos = pure (some none) := by
  rw [sniLoop, if_neg (Nat.not_le.mpr h)]

variable (n extEnd) in
/-- An extension that is not read as a server name has no name. -/
theorem nameAt_of_not_read (h : ¬NameRead mem pos) :
    nameAt mem extEnd pos = none ∧
      Probe.Within mem n (sniName extEnd (pos + 4) (extTypeAt mem pos) (extLenAt mem pos)) := by
  rw [nameAt, sniName, if_neg h]
  exact ⟨rfl, within_pure _⟩

/-- The name in the data of a server name. -/
theorem nameAt_of_read (h : NameRead mem pos) (hpos : pos.toNat + 4 ≤ extEnd.toNat)
    (hn : 9 + extEnd.toNat ≤ n) :
    (NameFits mem extEnd pos → nameAt mem extEnd pos =
        some ((Probe.slice mem (9 + pos.toNat + 9) (nameLenAt mem pos).toNat).map toLower)) ∧
      (¬NameFits mem extEnd pos → nameAt mem extEnd pos = none) ∧
      (Probe.Within mem n
          (sniName extEnd (pos + 4) (extTypeAt mem pos) (extLenAt mem pos)) ↔
        9 + pos.toNat + 9 ≤ n) := by
  have hadd : (pos + 4).toNat = pos.toNat + 4 := add_four_toNat hpos
  have hword : (word (9 + (pos + 4).toNat + 3)).value mem = nameLenAt mem pos := by
    rw [hadd]
    rfl
  have hcond : nameLenAt mem pos > 0 ∧ (nameLenAt mem pos).toNat < upfDpiMaxSniLen ∧
      (pos + 4).toNat + 5 + (nameLenAt mem pos).toNat ≤ extEnd.toNat ↔ NameFits mem extEnd pos := by
    rw [hadd]
    exact Iff.rfl
  refine ⟨fun hfits => ?_, fun hfits => ?_, ?_⟩
  · rw [nameAt, sniName, if_pos h, value_bind, hword, if_pos (hcond.mpr hfits),
      value_bind, value_bytes, hadd]
    rfl
  · rw [nameAt, sniName, if_pos h, value_bind, hword, if_neg (fun hc => hfits (hcond.mp hc))]
    rfl
  · grind [sniName, within_bind, within_word, within_bytes, within_pure]

/-- A walk that passes ends without a name and reads within the memory. -/
theorem sniLoop_of_passes (hn : 9 + extEnd.toNat ≤ n) (h : Passes mem n extEnd pos) :
    ∃ fuel, (sniLoop extEnd fuel pos).value mem = some none ∧
      Probe.Within mem n (sniLoop extEnd fuel pos) := by
  induction h with
  | stop hstop =>
    refine ⟨1, ?_⟩
    rw [sniLoop_stop hstop]
    exact ⟨rfl, within_pure _⟩
  | @skip pos hpos hname rest ih =>
    obtain ⟨fuel, hv, hw⟩ := ih
    obtain ⟨hround, hwithin⟩ := sniLoop_round mem n hpos fuel
    have hnone : nameAt mem extEnd pos = none ∧ Probe.Within mem n
        (sniName extEnd (pos + 4) (extTypeAt mem pos) (extLenAt mem pos)) := by
      by_cases hread : NameRead mem pos
      · grind [nameAt_of_read]
      · exact nameAt_of_not_read n extEnd hread
    grind

/-- And back: only a walk that passes ends without a name. -/
theorem passes_of_sniLoop {fuel : Nat} (hn : 9 + extEnd.toNat ≤ n)
    (hv : (sniLoop extEnd fuel pos).value mem = some none)
    (hw : Probe.Within mem n (sniLoop extEnd fuel pos)) : Passes mem n extEnd pos := by
  induction fuel generalizing pos with
  | zero => cases hv
  | succ fuel ih =>
    by_cases hpos : pos.toNat + 4 ≤ extEnd.toNat
    · obtain ⟨hround, hwithin⟩ := sniLoop_round mem n hpos fuel
      obtain ⟨hin, hrest⟩ := (hwithin hn).mp hw
      have hnone : nameAt mem extEnd pos = none := by
        cases hname : nameAt mem extEnd pos with
        | none => rfl
        | some l =>
          rw [hround, hname] at hv
          cases hv
      refine Passes.skip hpos (fun hread => ?_) (ih ?_ (hrest hnone))
      · grind [nameAt_of_read]
      · rw [hround, hnone] at hv
        exact hv
    · exact Passes.stop (Nat.not_le.mp hpos)

/-- A name that is found is shorter than its buffer. -/
theorem length_of_sniLoop {fuel : Nat} {l : List UInt8} (hn : 9 + extEnd.toNat ≤ n)
    (hv : (sniLoop extEnd fuel pos).value mem = some (some l)) : l.length < upfDpiMaxSniLen := by
  induction fuel generalizing pos with
  | zero => cases hv
  | succ fuel ih =>
    by_cases hpos : pos.toNat + 4 ≤ extEnd.toNat
    · rw [(sniLoop_round mem n hpos fuel).1] at hv
      cases hname : nameAt mem extEnd pos with
      | none =>
        rw [hname] at hv
        exact ih hv
      | some l' =>
        rw [hname] at hv
        obtain rfl : l' = l := some.inj (some.inj hv)
        by_cases hread : NameRead mem pos
        · obtain ⟨hfits, hno, -⟩ := nameAt_of_read hread hpos hn
          by_cases hf : NameFits mem extEnd pos
          · rw [hfits hf] at hname
            rw [← some.inj hname, List.length_map, length_slice]
            exact hf.2.1
          · rw [hno hf] at hname
            cases hname
        · rw [(nameAt_of_not_read n extEnd hread).1] at hname
          cases hname
    · rw [sniLoop_stop (Nat.not_le.mp hpos)] at hv
      cases hv

end Walk

end MmtCore.Upf
