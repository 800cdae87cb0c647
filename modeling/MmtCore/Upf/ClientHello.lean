import MmtCore.Upf.Sni

/-!
# Whole ClientHellos

A ClientHello of TLS, in one record, as the bytes its fields are written to.  In such a packet the
cursor of `upf_extract_sni` never wraps, and the walk meets the extensions one after the other, so
that the name of the first server name extension is found.
-/

namespace MmtCore.Upf

open MmtCore.Lib List UInt16 Probe

/-! ## The message -/

/-- The fields of a ClientHello, each as long as its length says. -/
structure ClientHello where
  version : List UInt8
  random : List UInt8
  sessionId : List UInt8
  cipherSuites : List UInt8
  compression : List UInt8
  /-- Type and data. -/
  extensions : List (UInt16 × List UInt8)
  version_len : version.length = 2
  random_len : random.length = 32
  sessionId_len : sessionId.length < 2 ^ 8
  cipherSuites_len : cipherSuites.length < 2 ^ 16
  compression_len : compression.length < 2 ^ 8

/-- An extension on the wire. -/
def extensionBytes (x : UInt16 × List UInt8) : List UInt8 :=
  putUint16 x.1.toNat ++ (putUint16 x.2.length ++ x.2)

namespace ClientHello

def extensionsBytes (l : List (UInt16 × List UInt8)) : List UInt8 := l.flatMap extensionBytes

/-- The ClientHello after its handshake header. -/
def body (h : ClientHello) : List UInt8 :=
  h.version ++ (h.random ++ (UInt8.ofNat h.sessionId.length :: (h.sessionId ++
    (putUint16 h.cipherSuites.length ++ (h.cipherSuites ++
      (UInt8.ofNat h.compression.length :: (h.compression ++
        (putUint16 (extensionsBytes h.extensions).length ++ extensionsBytes h.extensions))))))))

/-- The record with the handshake message, and what follows that in the record. -/
def record (h : ClientHello) (recordVersion after : List UInt8) : List UInt8 :=
  0x16 :: (recordVersion ++ (putUint16 (4 + h.body.length + after.length) ++
    (0x01 :: UInt8.ofNat (h.body.length / 2 ^ 16) :: (putUint16 h.body.length ++
      (h.body ++ after)))))

/-- The packet starts with the record of a ClientHello. -/
def CarriedBy (h : ClientHello) (mem : Memory) (len : UInt16) : Prop :=
  ∃ recordVersion after, recordVersion.length = 2 ∧
    (h.record recordVersion after).length ≤ len.toNat ∧
    Probe.Lies mem 0 (h.record recordVersion after)

/-- The data of a server name extension whose first name is a host name. -/
def IsServerName (data name : List UInt8) : Prop :=
  name ≠ [] ∧ ∃ others, data = putUint16 (3 + name.length + others.length) ++
    (0 :: (putUint16 name.length ++ (name ++ others)))

/-- The host name in the first server name extension. -/
def ServerName (h : ClientHello) (name : List UInt8) : Prop :=
  ∃ before data rest, h.extensions = before ++ (0, data) :: rest ∧ (∀ x ∈ before, x.1 ≠ 0) ∧
    IsServerName data name

end ClientHello

/-! ## Where the fields lie -/

section Fields

variable {mem : Memory} {len : UInt16} {n : Nat}

theorem lies_putUint16 {off k : Nat} (h : Probe.Lies mem off (putUint16 k)) (hk : k < 2 ^ 16) :
    (be16 (mem off) (mem (off + 1))).toNat = k := by
  obtain ⟨h0, h1, -⟩ := h
  rw [be16_toNat, h0, h1, UInt8.toNat_ofNat', UInt8.toNat_ofNat']
  omega

theorem length_extensionBytes (x : UInt16 × List UInt8) :
    (extensionBytes x).length = 4 + x.2.length := by
  simp [extensionBytes, putUint16]
  omega

/-- The fields of an extension at `pos`. -/
theorem lies_extension {pos : UInt16} {x : UInt16 × List UInt8} (hx : x.2.length < 2 ^ 16)
    (h : Probe.Lies mem (9 + pos.toNat) (extensionBytes x)) :
    extTypeAt mem pos = x.1 ∧ (extLenAt mem pos).toNat = x.2.length ∧
      Probe.Lies mem (9 + pos.toNat + 4) x.2 := by
  rw [extensionBytes, lies_append, lies_append] at h
  obtain ⟨htype, hlen, hdata⟩ := h
  refine ⟨UInt16.toNat_inj.mp (lies_putUint16 htype x.1.toNat_lt), lies_putUint16 hlen hx, hdata⟩

/-- The walk over extensions that lie one after the other finds the first server name. -/
theorem sniLoop_found {before rest : List (UInt16 × List UInt8)} {data name : List UInt8}
    (hbefore : ∀ x ∈ before, x.1 ≠ 0) (hname : ClientHello.IsServerName data name)
    (hlt : name.length < upfDpiMaxSniLen) {extEnd : UInt16} (hn : 9 + extEnd.toNat ≤ n) :
    ∀ pos : UInt16,
      pos.toNat + (ClientHello.extensionsBytes (before ++ (0, data) :: rest)).length =
        extEnd.toNat →
      Probe.Lies mem (9 + pos.toNat)
        (ClientHello.extensionsBytes (before ++ (0, data) :: rest)) →
      ∃ fuel, (sniLoop extEnd fuel pos).value mem = some (some (name.map toLower)) ∧
        Probe.Within mem n (sniLoop extEnd fuel pos) := by
  have hmax := extEnd.toNat_lt
  induction before with
  | nil =>
    intro pos hend hlies
    rw [nil_append, ClientHello.extensionsBytes, flatMap_cons] at hend hlies
    rw [length_append, length_extensionBytes] at hend
    rw [lies_append] at hlies
    obtain ⟨htype, hlen, hdata⟩ := lies_extension (by omega) hlies.1
    obtain ⟨hne, others, rfl⟩ := hname
    have hpos : 0 < name.length := length_pos_of_ne_nil hne
    simp only [length_append, length_putUint16, length_cons] at hlen hend
    rw [lies_append, Probe.Lies, lies_append, lies_append] at hdata
    obtain ⟨-, -, hsize, hbytes, -⟩ := hdata
    have hnameLen : (nameLenAt mem pos).toNat = name.length := lies_putUint16 hsize (by omega)
    have hslice : slice mem (9 + pos.toNat + 9) name.length = name := hbytes.slice_eq
    have hfour : pos.toNat + 4 ≤ extEnd.toNat := by omega
    have h5 : (5 : UInt16).toNat = 5 := rfl
    have hread : NameRead mem pos := by
      refine ⟨htype, lt_iff_toNat_lt.mpr ?_⟩
      omega
    have hfits : NameFits mem extEnd pos := by
      refine ⟨lt_iff_toNat_lt.mpr ?_, by omega, by omega⟩
      rw [hnameLen]
      exact hpos
    obtain ⟨hround, hwithin⟩ := sniLoop_round mem n hfour 0
    grind [nameAt_of_read]
  | cons x before ih =>
    intro pos hend hlies
    rw [cons_append, ClientHello.extensionsBytes, flatMap_cons] at hend hlies
    rw [length_append, length_extensionBytes] at hend
    rw [lies_append, length_extensionBytes] at hlies
    obtain ⟨htype, hlen, -⟩ := lies_extension (by omega) hlies.1
    have hfour : pos.toNat + 4 ≤ extEnd.toNat := by omega
    have hnext : (pos + 4 + extLenAt mem pos).toNat = pos.toNat + (4 + x.2.length) := by
      rw [UInt16.toNat_add, add_four_toNat hfour, hlen]
      omega
    obtain ⟨fuel, hv, hw⟩ := ih (fun y hy => hbefore y (mem_cons_of_mem _ hy))
      (pos + 4 + extLenAt mem pos) (by rw [hnext, ClientHello.extensionsBytes]; omega)
      (by rw [hnext, ← Nat.add_assoc]; exact hlies.2)
    obtain ⟨hround, hwithin⟩ := sniLoop_round mem n hfour fuel
    grind [nameAt_of_not_read]

/-- The lengths of a ClientHello are those of its fields. -/
theorem length_body (h : ClientHello) :
    h.body.length = 40 + h.sessionId.length + h.cipherSuites.length + h.compression.length +
      (ClientHello.extensionsBytes h.extensions).length := by
  simp only [ClientHello.body, length_append, length_cons, h.version_len, h.random_len,
    length_putUint16]
  omega

theorem lies_length {off k : Nat} (h : mem off = UInt8.ofNat k) (hk : k < 2 ^ 8) :
    (mem off).toNat = k := by
  rw [h, UInt8.toNat_ofNat']
  omega

/-- The extensions of a ClientHello are found where they start, and they end with it. -/
theorem extensionBlock_of_lies {h : ClientHello} {chLen : UInt32}
    (hch : chLen.toNat = h.body.length) (hmax : h.body.length < 2 ^ 16)
    (hlies : Probe.Lies mem 9 h.body) :
    ∃ p, ExtensionBlock mem chLen p ∧
      p.1.toNat + (ClientHello.extensionsBytes h.extensions).length = p.2.toNat ∧
      p.2.toNat = chLen.toNat ∧
      Probe.Lies mem (9 + p.1.toNat) (ClientHello.extensionsBytes h.extensions) := by
  have hlen := length_body h
  generalize hexts : ClientHello.extensionsBytes h.extensions = exts at hlen
  simp only [ClientHello.body, lies_append, Probe.Lies, h.version_len, h.random_len,
    length_putUint16, hexts] at hlies
  obtain ⟨-, -, hsid, -, hcs, -, hcm, -, hext, hlast⟩ := hlies
  have hsidLen := lies_length hsid h.sessionId_len
  have h35 : (35 : UInt16).toNat = 35 := rfl
  have h2 : (2 : UInt16).toNat = 2 := rfl
  have h1 : (1 : UInt16).toNat = 1 := rfl
  have hp₁ : (35 + (mem (9 + 34)).toUInt16).toNat = 35 + h.sessionId.length := by
    rw [UInt16.toNat_add, UInt8.toNat_toUInt16, hsidLen, h35]
    omega
  generalize hq₁ : 35 + (mem (9 + 34)).toUInt16 = p₁ at hp₁
  have hcsLen : (be16 (mem (9 + p₁.toNat)) (mem (9 + p₁.toNat + 1))).toNat =
      h.cipherSuites.length := by
    refine lies_putUint16 ?_ h.cipherSuites_len
    have hoff : 9 + p₁.toNat = 9 + 2 + 32 + 1 + h.sessionId.length := by omega
    rw [hoff]
    exact hcs
  have hp₂ : (p₁ + (2 + be16 (mem (9 + p₁.toNat)) (mem (9 + p₁.toNat + 1)))).toNat =
      37 + h.sessionId.length + h.cipherSuites.length := by
    rw [UInt16.toNat_add, UInt16.toNat_add, hcsLen, h2]
    omega
  generalize hq₂ : p₁ + (2 + be16 (mem (9 + p₁.toNat)) (mem (9 + p₁.toNat + 1))) = p₂ at hp₂
  have hcmLen : (mem (9 + p₂.toNat)).toNat = h.compression.length := by
    refine lies_length ?_ h.compression_len
    have hoff : 9 + p₂.toNat = 9 + 2 + 32 + 1 + h.sessionId.length + 2 + h.cipherSuites.length := by
      omega
    rw [hoff]
    exact hcm
  have hp₃ : (p₂ + 1 + (mem (9 + p₂.toNat)).toUInt16).toNat =
      38 + h.sessionId.length + h.cipherSuites.length + h.compression.length := by
    rw [UInt16.toNat_add, UInt16.toNat_add, UInt8.toNat_toUInt16, hcmLen, h1]
    omega
  generalize hq₃ : p₂ + 1 + (mem (9 + p₂.toNat)).toUInt16 = p₃ at hp₃
  have hoff₃ : 9 + p₃.toNat = 9 + 2 + 32 + 1 + h.sessionId.length + 2 + h.cipherSuites.length +
      1 + h.compression.length := by omega
  have hextLen : (be16 (mem (9 + p₃.toNat)) (mem (9 + p₃.toNat + 1))).toNat = exts.length := by
    refine lies_putUint16 ?_ (by omega)
    rw [hoff₃]
    exact hext
  have hp : (p₃ + 2).toNat = 40 + h.sessionId.length + h.cipherSuites.length +
      h.compression.length := by
    rw [UInt16.toNat_add, h2]
    omega
  have hend : (p₃ + 2 + be16 (mem (9 + p₃.toNat)) (mem (9 + p₃.toNat + 1))).toNat =
      (p₃ + 2).toNat + exts.length := by
    rw [UInt16.toNat_add, hextLen]
    omega
  refine ⟨(p₃ + 2, p₃ + 2 + be16 (mem (9 + p₃.toNat)) (mem (9 + p₃.toNat + 1))), ⟨by omega,
    p₁, p₂, p₃, hq₁.symm, by omega, hq₂.symm, by omega, hq₃.symm, by omega, rfl, ?_⟩, hend.symm,
    ?_, ?_⟩
  · rw [Nat.min_eq_left (by omega)]
  · dsimp only
    omega
  · have hoff : 9 + (p₃ + 2).toNat = 9 + 2 + 32 + 1 + h.sessionId.length + 2 +
        h.cipherSuites.length + 1 + h.compression.length + 2 := by omega
    rw [hoff]
    exact hlast

end Fields

/-! ## Safe readings -/

/-- The walk ends, reads no byte past the packet, returns the same for all packets with these bytes,
and a name it reports is the server name of a ClientHello that the packet carries, in lower case. -/
def SniSafe (mem : Memory) (len : UInt16) : Prop :=
  ∃ fuel r, (extractSni len fuel).value mem = some r ∧
    Probe.Within mem len.toNat (extractSni len fuel) ∧
    (∀ mem' : Memory, (∀ i < len.toNat, mem i = mem' i) →
      (extractSni len fuel).value mem' = some r) ∧
    ∀ l, r = some l → ∃ (h : ClientHello) (name : List UInt8),
      h.CarriedBy mem len ∧ h.ServerName name ∧ l = name.map toLower

/-- The packet carries a ClientHello with a server name that is short enough. -/
def CarriesName (mem : Memory) (len : UInt16) : Prop :=
  ∃ (h : ClientHello) (name : List UInt8), h.CarriedBy mem len ∧ h.ServerName name ∧
    name.length < upfDpiMaxSniLen

/-- The walk, if the packet gets as far as the extensions, passes all of them. -/
def PassesAll (mem : Memory) (len : UInt16) : Prop :=
  ∀ chLen p, HelloHeader mem len chLen → ExtensionBlock mem chLen p →
    Passes mem len.toNat p.2 p.1

section Safe

variable {mem : Memory} {len : UInt16}
variable {chLen : UInt32} {p : UInt16 × UInt16} {h : ClientHello} {fuel : Nat}

theorem HelloHeader.bound (h : HelloHeader mem len chLen) : 9 + chLen.toNat ≤ len.toNat := by
  have h1 := h.recLen_le
  have h2 := h.chLen_le
  omega

theorem ExtensionBlock.bound (h : ExtensionBlock mem chLen p) : p.2.toNat ≤ chLen.toNat := by
  obtain ⟨_, _, _, _, _, _, _, _, _, _, hmin⟩ := h.at_cipherSuites
  rw [hmin]
  exact Nat.min_le_right _ _

/-- A packet that does not get as far as the extensions is refused within it. -/
theorem extractSni_refused (h : ∀ chLen p, HelloHeader mem len chLen → ¬ExtensionBlock mem chLen p)
    (fuel : Nat) :
    (extractSni len fuel).value mem = some none ∧
      Probe.Within mem len.toNat (extractSni len fuel) := by
  obtain ⟨hbw, hbody⟩ := helloBody_yields mem len
  rw [extractSni, value_bind, within_bind]
  cases hb : (helloBody len).value mem with
  | none => exact ⟨rfl, hbw, within_pure _⟩
  | some chLen =>
    have hheader := (hbody chLen).mp hb
    have hbound := hheader.bound
    have hlt := len.toNat_lt
    obtain ⟨hew, hexts⟩ := helloExtensions_yields mem
      (show chLen.toNat < 2 ^ 16 by omega)
    have hew' := hew.of_le hbound
    rw [Option.elim_some, value_bind, within_bind]
    cases he : (helloExtensions chLen).value mem with
    | none => exact ⟨rfl, hbw, hew', within_pure _⟩
    | some p => exact absurd ((hexts p).mp he) (h chLen p hheader)

/-- Otherwise the walk decides. -/
theorem extractSni_walk (hheader : HelloHeader mem len chLen) (hblock : ExtensionBlock mem chLen p)
    (fuel : Nat) :
    (extractSni len fuel).value mem = (sniLoop p.2 fuel p.1).value mem ∧
      (Probe.Within mem len.toNat (extractSni len fuel) ↔
        Probe.Within mem len.toNat (sniLoop p.2 fuel p.1)) := by
  obtain ⟨hbw, hbody⟩ := helloBody_yields mem len
  have hbound := hheader.bound
  have hlt := len.toNat_lt
  obtain ⟨hew, hexts⟩ := helloExtensions_yields mem
      (show chLen.toNat < 2 ^ 16 by omega)
  have hb := (hbody chLen).mpr hheader
  have he := (hexts p).mpr hblock
  have hew' := hew.of_le hbound
  simp_all [extractSni]

/-- The headers of a ClientHello that is carried. -/
theorem ClientHello.CarriedBy.header (hc : h.CarriedBy mem len) :
    ∃ chLen : UInt32, chLen.toNat = h.body.length ∧ HelloHeader mem len chLen ∧
      Probe.Lies mem 9 h.body ∧ h.body.length < 2 ^ 16 := by
  obtain ⟨recordVersion, after, hversion, hfits, hlies⟩ := hc
  have hlt := len.toNat_lt
  simp only [ClientHello.record, lies_append, Probe.Lies, length_cons,
    length_append, hversion, length_putUint16] at hfits hlies
  obtain ⟨hty, -, hrec, hhs, hhigh, hlow, hbody, -⟩ := hlies
  have hrecLen : (be16 (mem 3) (mem 4)).toNat = 4 + h.body.length + after.length :=
    lies_putUint16 hrec (by omega)
  have hlowLen : (be16 (mem 7) (mem 8)).toNat = h.body.length := lies_putUint16 hlow (by omega)
  have hzero : (mem 6).toNat = 0 := by
    grind [UInt8.toNat_ofNat']
  have hch : (be32 0 (mem 6) (mem 7) (mem 8)).toNat = h.body.length := by
    grind [be16_toNat, be32, UInt32.toNat_ofNat']
  refine ⟨be32 0 (mem 6) (mem 7) (mem 8), hch, ?_, hbody, by omega⟩
  exact
    { record := hty
      recLen_le := by omega
      hello := hhs
      chLen_eq := rfl
      chLen_le := by omega }

/-- The name of a ClientHello that is carried is found. -/
theorem extractSni_found {name : List UInt8} (hc : h.CarriedBy mem len) (hname : h.ServerName name)
    (hlt : name.length < upfDpiMaxSniLen) :
    ∃ fuel, (extractSni len fuel).value mem = some (some (name.map toLower)) ∧
      Probe.Within mem len.toNat (extractSni len fuel) := by
  obtain ⟨chLen, hch, hheader, hbody, hmax⟩ := hc.header
  obtain ⟨p, hblock, hend, hstop, hlies⟩ := extensionBlock_of_lies hch hmax hbody
  obtain ⟨before, data, rest, hexts, hbefore, hserver⟩ := hname
  rw [hexts] at hend hlies
  have hbound := hheader.bound
  obtain ⟨fuel, hv, hw⟩ := sniLoop_found hbefore hserver hlt (n := len.toNat) (by omega) p.1 hend
    hlies
  obtain ⟨hval, hwithin⟩ := extractSni_walk hheader hblock fuel
  exact ⟨fuel, hval.trans hv, hwithin.mpr hw⟩

/-- A walk that passes all extensions reports nothing. -/
theorem extractSni_passes (h : PassesAll mem len) :
    ∃ fuel, (extractSni len fuel).value mem = some none ∧
      Probe.Within mem len.toNat (extractSni len fuel) := by
  by_cases hreach : ∃ chLen p, HelloHeader mem len chLen ∧ ExtensionBlock mem chLen p
  · obtain ⟨chLen, p, hheader, hblock⟩ := hreach
    have hbound := hheader.bound
    have hle := hblock.bound
    obtain ⟨fuel, hv, hw⟩ := sniLoop_of_passes (by omega) (h chLen p hheader hblock)
    obtain ⟨hval, hwithin⟩ := extractSni_walk hheader hblock fuel
    exact ⟨fuel, hval.trans hv, hwithin.mpr hw⟩
  · exact ⟨0, extractSni_refused (fun chLen p hh hb => hreach ⟨chLen, p, hh, hb⟩) 0⟩

theorem passesAll_of_none (hv : (extractSni len fuel).value mem = some none)
    (hw : Probe.Within mem len.toNat (extractSni len fuel)) : PassesAll mem len := by
  intro chLen p hheader hblock
  have hbound := hheader.bound
  have hle := hblock.bound
  grind [extractSni_walk, passes_of_sniLoop]

theorem length_of_extractSni {l : List UInt8}
    (hv : (extractSni len fuel).value mem = some (some l)) : l.length < upfDpiMaxSniLen := by
  by_cases hreach : ∃ chLen p, HelloHeader mem len chLen ∧ ExtensionBlock mem chLen p
  · obtain ⟨chLen, p, hheader, hblock⟩ := hreach
    have hbound := hheader.bound
    have hle := hblock.bound
    rw [(extractSni_walk hheader hblock fuel).1] at hv
    exact length_of_sniLoop (n := len.toNat) (by omega) hv
  · simp_all [extractSni_refused]

theorem safe_of_carriesName (h : CarriesName mem len) : SniSafe mem len := by
  obtain ⟨hello, name, hc, hname, hlt⟩ := h
  obtain ⟨fuel, hv, hw⟩ := extractSni_found hc hname hlt
  refine ⟨fuel, _, hv, hw, fun mem' heq => ((hw.congr heq).1).trans hv, fun l hl => ?_⟩
  exact ⟨hello, name, hc, hname, (Option.some.inj hl).symm⟩

theorem safe_of_passesAll (h : PassesAll mem len) : SniSafe mem len := by
  obtain ⟨fuel, hv, hw⟩ := extractSni_passes h
  refine ⟨fuel, _, hv, hw, fun mem' heq => ((hw.congr heq).1).trans hv, fun l hl => ?_⟩
  cases hl

theorem carriesName_or_passesAll (h : SniSafe mem len) :
    CarriesName mem len ∨ PassesAll mem len := by
  obtain ⟨fuel, r, hv, hw, -, hok⟩ := h
  cases r with
  | none => exact Or.inr (passesAll_of_none hv hw)
  | some l =>
    obtain ⟨hello, name, hc, hname, rfl⟩ := hok l rfl
    have hlt := length_of_extractSni hv
    rw [length_map] at hlt
    exact Or.inl ⟨hello, name, hc, hname, hlt⟩

end Safe

/-- The search for the server name is safe exactly on the packets that carry a whole ClientHello
with a server name that is short enough, and on those in which the walk passes all extensions. -/
theorem sni_safe_iff (mem : Memory) (len : UInt16) :
    SniSafe mem len ↔ CarriesName mem len ∨ PassesAll mem len :=
  ⟨carriesName_or_passesAll, fun h => h.elim safe_of_carriesName safe_of_passesAll⟩

/-- A ClientHello with one extension, whose length of 65532 takes the 16-bit cursor back to where
it was. -/
def endlessHello : Memory := fun i =>
  if i < 9 then [0x16, 3, 1, 0, 48, 1, 0, 0, 44].getD i 0
  else if i < 47 then 0
  else [0, 4, 0, 1, 0xFF, 0xFC].getD (i - 47) 0

/-- The walk is where it was after every round. -/
theorem endlessHello_loop (fuel : Nat) : (sniLoop 44 fuel 40).value endlessHello = none := by
  induction fuel with
  | zero => rfl
  | succ fuel ih =>
    have hnot : ¬NameRead endlessHello 40 := by decide
    have hnext : (40 : UInt16) + 4 + extLenAt endlessHello 40 = 40 := by decide
    rw [(sniLoop_round _ 0 (by decide) fuel).1, (nameAt_of_not_read 0 _ hnot).1, hnext]
    exact ih

theorem sni_not_safe : ¬∀ (mem : Memory) (len : UInt16), SniSafe mem len := by
  intro h
  obtain ⟨fuel, r, hv, -⟩ := h endlessHello 53
  have hheader : HelloHeader endlessHello 53 44 := by
    constructor <;> decide
  have hblock : ExtensionBlock endlessHello 44 (40, 44) :=
    ⟨by decide, 35, 37, 38, by decide, by decide, by decide, by decide,
      by decide, by decide, by decide, by decide⟩
  rw [(extractSni_walk hheader hblock fuel).1, endlessHello_loop] at hv
  cases hv

end MmtCore.Upf
