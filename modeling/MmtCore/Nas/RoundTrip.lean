import MmtCore.Nas.ReadBack

/-!
# Round trip of NAS messages

An element that does not fit its format is left out of the message, or is read back cut: the encoder
drops its own errors.  What is decoded always fits.  So a message comes back just when every
element in it does, and none that must be there is missing.
-/

namespace MmtCore.Nas

open MmtCore.Lib List Option IEEntry Nat Except

variable {msg : String} {e : IEEntry} {v : Option Value} {x : Value} {b rest : Bytes}

namespace IEEntry

/-- The bytes of the value fit the format of the element. -/
def Sized (e : IEEntry) (x : Value) : Prop :=
  match e.format with
  | .lv | .tlv => (x.encode e.type.shape).length ≤ 0xFF
  | .lve | .tlve => (x.encode e.type.shape).length ≤ 0xFFFF
  | _ => (x.encode e.type.shape).length = e.fixedLength

/-- The element carries what the field holds. -/
def Carries (e : IEEntry) (v : Option Value) : Prop :=
  (e.iei = none → v ≠ none) ∧ ∀ x, v = some x → e.Sized x ∧ x.Fits e.type

/-- What the decoder leaves in the field. -/
def InRange (e : IEEntry) (v : Option Value) : Prop := ∀ x, v = some x → e.Sized x

/-! ## What is decoded fits -/

theorem InRange.none : e.InRange none := fun _ h => by cases h

theorem InRange.some (h : e.Sized x) : e.InRange (some x) := by
  intro y hy
  cases hy
  exact h

theorem ok_of_wrap {r : Except NasErr Value} (h : e.wrap msg r = .ok x) : r = .ok x := by
  cases r with
  | error => cases h
  | ok y => exact congrArg _ (ok.inj h)

/-- The bytes that a value was read from. -/
theorem of_decodeBody {n : Nat} (h : e.decodeBody msg n b = .ok (v, rest)) :
    ∃ bytes x, bytes.length = n ∧ e.type.decodeBytes bytes = .ok x ∧ v = some x := by
  unfold decodeBody at h
  split at h
  · cases h
  case h_2 bytes rest' htake =>
  obtain ⟨x, hx, heq⟩ := ok_of_map h
  cases heq
  exact ⟨bytes, x, (takeBytes_eq_some htake).1, ok_of_wrap hx, rfl⟩

theorem length_of_decodeLV (h : e.decodeLV msg b = .ok (v, rest)) :
    ∃ x, (x.encode e.type.shape).length ≤ 0xFF ∧ v = some x := by
  unfold decodeLV at h
  split at h
  · cases h
  case h_2 n tail hn =>
  obtain ⟨bytes, x, hlen, hdec, rfl⟩ := of_decodeBody h
  have hle := length_encode_le hdec
  have hn := n.toNat_lt
  exact ⟨x, by omega, rfl⟩

theorem length_of_decodeLVE (h : e.decodeLVE msg b = .ok (v, rest)) :
    ∃ x, (x.encode e.type.shape).length ≤ 0xFFFF ∧ v = some x := by
  unfold decodeLVE at h
  split at h
  · cases h
  case h_2 n tail hn =>
  obtain ⟨bytes, x, hlen, hdec, rfl⟩ := of_decodeBody h
  have hle := length_encode_le hdec
  have hn := takeUint16_lt hn
  exact ⟨x, by omega, rfl⟩

/-- The types that are read without a length. -/
def Fixed (e : IEEntry) : Prop :=
  match e.type.shape with
  | .bits _ => True
  | .struct sizes => e.type.minLength = total sizes
  | .raw => True
  | _ => False

theorem length_of_fixed (hfixed : e.Fixed) (h : e.type.decodeBytes b = .ok x)
    (hlen : b.length = e.fixedLength) : (x.encode e.type.shape).length = e.fixedLength := by
  unfold Fixed at hfixed
  unfold IETypeDef.decodeBytes at h
  unfold fixedLength at hlen ⊢
  cases hshape : e.type.shape with
  | bits fields =>
    rw [hshape] at h
    dsimp only at h
    split at h
    · cases h
    · cases h
      rfl
  | struct sizes =>
    rw [hshape] at h hfixed
    dsimp only at h
    split at h
    · cases h
    · split at h
      · cases h
      · case h_2 l hl =>
        cases h
        exact (decodeFields_spec hl).1.trans hfixed.symm
  | raw =>
    rw [hshape] at h hlen
    dsimp only at h
    split at h
    · cases h
    · cases h
      exact hlen
  | _ =>
    rw [hshape] at hfixed
    exact hfixed.elim

/-! ## Regular elements -/

/-- The formats of a mandatory element. -/
theorem Regular.mandatory (h : e.Regular) (hiei : e.iei = none) :
    (e.format = .v ∧ e.Fixed) ∨ e.format = .lv ∨ e.format = .lve := by
  obtain ⟨hlaid, h⟩ := h
  rw [hiei] at h
  unfold IETypeDef.Laid at hlaid
  cases hformat : e.format with
  | v =>
    cases hshape : e.type.shape <;> simp_all [Fixed]
  | lv => exact .inr (.inl rfl)
  | lve => exact .inr (.inr rfl)
  | _ =>
    rw [hformat] at h
    exact h.elim

/-- The formats of an optional element. -/
theorem Regular.optional {i : IEI} (h : e.Regular) (hiei : e.iei = some i) :
    (∃ a fields, i = .half a ∧ a &&& 0x0F = 0 ∧ e.format = .tv ∧ e.type.shape = .bits fields ∧
      e.type.Laid 4) ∨
    (∃ a, i = .full a ∧ e.format = .tv ∧ e.Fixed ∧
      (if e.type.minLength = 0 then 1 else e.type.minLength) = e.fixedLength) ∨
    (∃ a, i = .full a ∧ e.format = .tlv) ∨ (∃ a, i = .full a ∧ e.format = .tlve) := by
  obtain ⟨hlaid, h⟩ := h
  unfold width at hlaid
  rw [hiei] at h hlaid
  cases i with
  | half a =>
    cases hformat : e.format <;> cases hshape : e.type.shape <;> simp_all
  | full a =>
    cases hformat : e.format with
    | tv =>
      rw [hformat] at h
      refine .inr (.inl ⟨a, rfl, rfl, ?_⟩)
      unfold Fixed fixedLength
      cases hshape : e.type.shape with
      | bits fields =>
        simp_all
        omega
      | struct sizes =>
        simp_all [IETypeDef.Laid]
        omega
      | raw =>
        simp_all
        omega
      | _ =>
        rw [hshape] at h
        exact h.elim
    | tlv => exact .inr (.inr (.inl ⟨a, rfl, rfl⟩))
    | tlve => exact .inr (.inr (.inr ⟨a, rfl, rfl⟩))
    | _ =>
      rw [hformat] at h
      exact h.elim

/-- Two half octets are bit fields in four bits. -/
theorem Regular.half (h : e.Regular) (hhalf : e.halfOctet = true) :
    ∃ fields, e.type.shape = .bits fields ∧ e.type.Laid 4 := by
  obtain ⟨hlaid, h⟩ := h
  unfold width at hlaid
  cases hiei : e.iei with
  | none =>
    cases hformat : e.format <;> cases hshape : e.type.shape <;> simp_all
  | some i =>
    cases i <;> cases hformat : e.format <;> cases hshape : e.type.shape <;> simp_all

theorem decodeMandatoryOne_fixed (hfixed : e.Fixed) (hformat : e.format = .v) :
    e.decodeMandatoryOne msg b = e.decodeBody msg e.fixedLength b := by
  grind [Fixed, decodeMandatoryOne]

theorem decodeMandatoryOne_lv (hformat : e.format = .lv) :
    e.decodeMandatoryOne msg b = e.decodeLV msg b := by
  unfold decodeMandatoryOne
  rw [hformat]

theorem decodeMandatoryOne_lve (hformat : e.format = .lve) :
    e.decodeMandatoryOne msg b = e.decodeLVE msg b := by
  unfold decodeMandatoryOne
  rw [hformat]

theorem sized_short (hformat : e.format = .lv ∨ e.format = .tlv) :
    e.Sized x ↔ (x.encode e.type.shape).length ≤ 0xFF := by
  grind [Sized]

theorem sized_long (hformat : e.format = .lve ∨ e.format = .tlve) :
    e.Sized x ↔ (x.encode e.type.shape).length ≤ 0xFFFF := by
  grind [Sized]

theorem sized_fixed (hformat : e.format = .v ∨ e.format = .tv) :
    e.Sized x ↔ (x.encode e.type.shape).length = e.fixedLength := by
  grind [Sized]

/-- What is read from a byte of bit fields is a byte. -/
theorem sized_bits {fields : List BitField} {y : UInt8} (hshape : e.type.shape = .bits fields)
    (hformat : e.format = .v ∨ e.format = .tv) (h : e.type.decodeBytes [y] = .ok x) :
    e.Sized x := by
  grind [fixedLength, Fixed, sized_fixed, length_of_fixed]

theorem inRange_mandatoryOne (h : e.Regular) (hiei : e.iei = none)
    (hdec : e.decodeMandatoryOne msg b = .ok (v, rest)) : e.InRange v := by
  rcases h.mandatory hiei with ⟨hformat, hfixed⟩ | hformat | hformat
  · rw [decodeMandatoryOne_fixed hfixed hformat] at hdec
    obtain ⟨bytes, x, hlen, hx, rfl⟩ := of_decodeBody hdec
    exact .some ((sized_fixed (.inl hformat)).2 (length_of_fixed hfixed hx hlen))
  · rw [decodeMandatoryOne_lv hformat] at hdec
    obtain ⟨x, hlen, rfl⟩ := length_of_decodeLV hdec
    exact .some ((sized_short (.inl hformat)).2 hlen)
  · rw [decodeMandatoryOne_lve hformat] at hdec
    obtain ⟨x, hlen, rfl⟩ := length_of_decodeLVE hdec
    exact .some ((sized_long (.inl hformat)).2 hlen)

theorem decodeCase_half {a : UInt8} {y : UInt8} (hiei : e.iei = some (.half a))
    (hformat : e.format = .tv) : e.decodeCase msg y b =
      (e.wrap msg (e.type.decodeBytes [y &&& 0x0F])).map fun x => (some x, b) := by
  unfold decodeCase
  rw [hiei, hformat]

theorem decodeCase_full {a : UInt8} {y : UInt8} (hiei : e.iei = some (.full a))
    (hformat : e.format = .tv)
    (hlen : (if e.type.minLength = 0 then 1 else e.type.minLength) = e.fixedLength) :
    e.decodeCase msg y b = e.decodeBody msg e.fixedLength b := by
  unfold decodeCase
  rw [hiei, hformat, ← hlen]

theorem decodeCase_tlv {y : UInt8} (hformat : e.format = .tlv) :
    e.decodeCase msg y b = e.decodeLV msg b := by
  unfold decodeCase
  rw [hformat]

theorem decodeCase_tlve {y : UInt8} (hformat : e.format = .tlve) :
    e.decodeCase msg y b = e.decodeLVE msg b := by
  unfold decodeCase
  rw [hformat]

theorem inRange_case {i : IEI} {y : UInt8} (h : e.Regular) (hiei : e.iei = some i)
    (hdec : e.decodeCase msg y b = .ok (v, rest)) : e.InRange v := by
  rcases h.optional hiei with ⟨a, fields, rfl, -, hformat, hshape, -⟩ |
    ⟨a, rfl, hformat, hfixed, hlen⟩ | ⟨a, rfl, hformat⟩ | ⟨a, rfl, hformat⟩
  · rw [decodeCase_half hiei hformat] at hdec
    obtain ⟨x, hx, heq⟩ := ok_of_map hdec
    cases heq
    exact .some (sized_bits hshape (.inr hformat) (ok_of_wrap hx))
  · rw [decodeCase_full hiei hformat hlen] at hdec
    obtain ⟨bytes, x, hlen, hx, rfl⟩ := of_decodeBody hdec
    exact .some ((sized_fixed (.inr hformat)).2 (length_of_fixed hfixed hx hlen))
  · rw [decodeCase_tlv hformat] at hdec
    obtain ⟨x, hlen, rfl⟩ := length_of_decodeLV hdec
    exact .some ((sized_short (.inr hformat)).2 hlen)
  · rw [decodeCase_tlve hformat] at hdec
    obtain ⟨x, hlen, rfl⟩ := length_of_decodeLVE hdec
    exact .some ((sized_long (.inr hformat)).2 hlen)

end IEEntry

variable {es : List IEEntry} {vals vs : List (Option Value)}

theorem Pair.regular {f : IEEntry} (h : e.Pair f) (he : e.Regular) (hf : f.Regular) :
    (∃ fields, e.type.shape = .bits fields ∧ e.type.Laid 4) ∧
      ∃ fields, f.type.shape = .bits fields ∧ f.type.Laid 4 :=
  ⟨he.half h.2.2.2.2.1, hf.half h.2.2.2.2.2⟩

theorem inRange_decodeMandatory : ∀ {es : List IEEntry} {b : Bytes} {vals rest},
    (∀ e ∈ es, e.Regular) → decodeMandatory msg es b = .ok (vals, rest) →
      List.Forall₂ IEEntry.InRange es vals
  | [], b, vals, rest, _, h => by
    cases h
    exact .nil
  | [e], b, vals, rest, hreg, h => by
    unfold decodeMandatory at h
    split at h
    · case isTrue hiei =>
      obtain ⟨⟨x, tail⟩, hx, heq⟩ := ok_of_bind h
      cases heq
      exact .cons (inRange_mandatoryOne (hreg e (by simp)) hiei hx) .nil
    · cases h
      exact .cons .none .nil
  | e :: f :: es, b, vals, rest, hreg, h => by
    have he := hreg e (by simp)
    have hf := hreg f (by simp)
    unfold decodeMandatory at h
    split at h
    · case isTrue hpair =>
      obtain ⟨⟨_, heshape, -⟩, ⟨_, hfshape, -⟩⟩ := Pair.regular hpair he hf
      split at h
      · cases h
      obtain ⟨x, hx, h⟩ := ok_of_bind h
      obtain ⟨y, hy, h⟩ := ok_of_bind h
      obtain ⟨⟨vals', rest'⟩, hrest, heq⟩ := ok_of_bind h
      cases heq
      exact .cons (.some (sized_bits heshape (.inl hpair.2.2.1) (ok_of_wrap hx)))
        (.cons (.some (sized_bits hfshape (.inl hpair.2.2.2.1) (ok_of_wrap hy)))
          (inRange_decodeMandatory (fun e he => hreg e (by simp [he])) hrest))
    split at h
    · case isTrue hiei =>
      obtain ⟨⟨x, tail⟩, hx, h⟩ := ok_of_bind h
      obtain ⟨⟨vals', rest'⟩, hrest, heq⟩ := ok_of_bind h
      cases heq
      exact .cons (inRange_mandatoryOne he hiei hx)
        (inRange_decodeMandatory (fun e he => hreg e (mem_cons_of_mem _ he)) hrest)
    · obtain ⟨⟨vals', rest'⟩, hrest, heq⟩ := ok_of_bind h
      cases heq
      exact .cons .none
        (inRange_decodeMandatory (fun e he => hreg e (mem_cons_of_mem _ he)) hrest)

theorem inRange_dispatch {y : UInt8} {r : Except DecodeError (List (Option Value) × Bytes)}
    (hreg : ∀ e ∈ es, e.Regular) (hvs : List.Forall₂ IEEntry.InRange es vs)
    (h : dispatch msg y b es vs = some r) (hr : r = .ok (vals, rest)) :
    List.Forall₂ IEEntry.InRange es vals := by
  induction hvs generalizing r vals with
  | nil => cases h
  | @cons e v es vs he hes ih =>
    have hnext : ∀ {r'}, dispatch msg y b es vs = some r' →
        r'.map (fun p => (v :: p.1, p.2)) = r → List.Forall₂ IEEntry.InRange (e :: es) vals := by
      intro r' hr' hmap
      rw [hr] at hmap
      obtain ⟨p, hp, heq⟩ := ok_of_map hmap
      cases heq
      exact .cons he (ih (fun e he => hreg e (mem_cons_of_mem _ he)) hr' hp)
    unfold dispatch at h
    split at h
    · case h_1 i hiei =>
      split at h
      · cases h
        obtain ⟨⟨x, tail⟩, hx, heq⟩ := ok_of_map hr
        cases heq
        have hcase := inRange_case (hreg e mem_cons_self) hiei hx
        refine .cons ?_ hes
        cases x with
        | none => exact he
        | some x => exact hcase
      · obtain ⟨r', hr', hmap⟩ := map_eq_some_iff.1 h
        exact hnext hr' hmap
    · obtain ⟨r', hr', hmap⟩ := map_eq_some_iff.1 h
      exact hnext hr' hmap

theorem inRange_decodeOptional {fuel : Nat} (hreg : ∀ e ∈ es, e.Regular)
    (hvs : List.Forall₂ IEEntry.InRange es vs)
    (h : decodeOptional msg es fuel vs b = .ok vals) : List.Forall₂ IEEntry.InRange es vals := by
  induction fuel generalizing vs b with
  | zero =>
    cases b with
    | nil | cons y b =>
      cases h
      exact hvs
  | succ fuel ih =>
    cases b with
    | nil =>
      cases h
      exact hvs
    | cons y b =>
      grind [decodeOptional, inRange_dispatch]

/-- What is decoded fits. -/
theorem inRange_decode (t : MessageTable) (h : decode t.toMessageDef b = .ok vals) :
    List.Forall₂ IEEntry.InRange t.ies vals := by
  obtain ⟨⟨vs, rest⟩, hmand, hopt⟩ := ok_of_bind h
  exact inRange_decodeOptional t.regular (inRange_decodeMandatory t.regular hmand) hopt

/-! ## What is read where every element fits -/

namespace IEEntry

/-- The value that is read from the bytes of another one. -/
def back (msg : String) (e : IEEntry) (x : Value) : Except DecodeError (Option Value) :=
  (e.wrap msg (e.type.decodeBytes (x.encode e.type.shape))).map some

theorem decodeBody_encode {n : Nat} (h : (x.encode e.type.shape).length = n) :
    e.decodeBody msg n (x.encode e.type.shape ++ rest) =
      (e.back msg x).map fun v => (v, rest) := by
  unfold decodeBody
  rw [takeBytes_of_length h]
  dsimp only
  unfold back
  cases e.wrap msg (e.type.decodeBytes (x.encode e.type.shape)) with
  | error | ok => rfl

theorem decodeLV_encode (h : (x.encode e.type.shape).length ≤ 0xFF) :
    e.decodeLV msg (encodeLV (x.encode e.type.shape) ++ rest) =
      (e.back msg x).map fun v => (v, rest) := by
  have hlen : (UInt8.ofNat (x.encode e.type.shape).length).toNat =
      (x.encode e.type.shape).length := by
    rw [UInt8.toNat_ofNat']
    omega
  unfold decodeLV encodeLV
  rw [if_neg (Nat.not_lt_of_le h), List.cons_append, takeUint8_cons]
  exact decodeBody_encode hlen.symm

theorem decodeLVE_encode (h : (x.encode e.type.shape).length ≤ 0xFFFF) :
    e.decodeLVE msg (encodeLVE (x.encode e.type.shape) ++ rest) =
      (e.back msg x).map fun v => (v, rest) := by
  unfold decodeLVE encodeLVE
  rw [if_neg (Nat.not_lt_of_le h), List.append_assoc,
    takeUint16_put (Nat.lt_succ_of_le h)]
  exact decodeBody_encode rfl

theorem encodeTLV_eq {a : UInt8} {bytes : Bytes} (h : bytes.length ≤ 0xFF) :
    encodeTLV a bytes = a :: encodeLV bytes := by
  unfold encodeTLV encodeLV
  rw [if_neg (Nat.not_lt_of_le h), if_neg (Nat.not_lt_of_le h)]

theorem encodeTLVE_eq {a : UInt8} {bytes : Bytes} (h : bytes.length ≤ 0xFFFF) :
    encodeTLVE a bytes = a :: encodeLVE bytes := by
  unfold encodeTLVE encodeLVE
  rw [if_neg (Nat.not_lt_of_le h), if_neg (Nat.not_lt_of_le h)]

theorem decodeMandatoryOne_encode (h : e.Regular) (hiei : e.iei = none) (hx : e.Sized x) :
    e.decodeMandatoryOne msg (e.mandatoryBytes x ++ rest) =
      (e.back msg x).map fun v => (v, rest) := by
  unfold mandatoryBytes
  rcases h.mandatory hiei with ⟨hformat, hfixed⟩ | hformat | hformat
  · rw [decodeMandatoryOne_fixed hfixed hformat, hformat]
    exact decodeBody_encode ((sized_fixed (.inl hformat)).1 hx)
  · rw [decodeMandatoryOne_lv hformat, hformat]
    exact decodeLV_encode ((sized_short (.inl hformat)).1 hx)
  · rw [decodeMandatoryOne_lve hformat, hformat]
    exact decodeLVE_encode ((sized_long (.inl hformat)).1 hx)

theorem high_of_half (a n : UInt8) :
    (((((a >>> 4) &&& 0x0F) <<< 4) ||| (n &&& 0x0F)) &&& 0xF0) = a &&& 0xF0 := by
  apply eq_of_bits
  simp [Fin.forall_fin_succ]

set_option maxRecDepth 4000 in
theorem eq_high {a : UInt8} : a &&& 0x0F = 0 → a &&& 0xF0 = a :=
  forall_uint8 (P := fun a => a &&& 0x0F = 0 → a &&& 0xF0 = a) (by decide) a

/-- Only the IEI of the element matches a byte that begins with it. -/
theorem matches_half {a y : UInt8} (hy : y &&& 0xF0 = a) :
    (IEI.half a).Matches y ∧ ∀ j : IEI, j.Apart (.half a) → ¬j.Matches y := by
  refine ⟨hy, fun j hj hmatch => ?_⟩
  cases j with
  | full c =>
    have hc : y = c := hmatch
    exact hj (hc ▸ hy)
  | half c =>
    have hc : y &&& 0xF0 = c := hmatch
    exact hj (hc.symm.trans hy)

theorem matches_full (a : UInt8) :
    (IEI.full a).Matches a ∧ ∀ j : IEI, j.Apart (.full a) → ¬j.Matches a := by
  refine ⟨rfl, fun j hj hmatch => ?_⟩
  cases j with
  | full c => exact hj (Eq.symm hmatch)
  | half c => exact hj hmatch

/-- The bytes of an optional element: one that its IEI matches and that of no other, and what is
read by its case. -/
theorem optionalBytes_spec (msg : String) {i : IEI} (h : e.Regular) (hiei : e.iei = some i)
    (hx : e.Sized x) (hhas : x.Has e.type.shape) :
    ∃ y body, e.optionalBytes i x = y :: body ∧
      (i.Matches y ∧ ∀ j : IEI, j.Apart i → ¬j.Matches y) ∧
      ∀ rest, e.decodeCase msg y (body ++ rest) = (e.back msg x).map fun v => (v, rest) := by
  unfold optionalBytes
  rcases h.optional hiei with ⟨a, fields, rfl, ha, hformat, hshape, hlaid⟩ |
    ⟨a, rfl, hformat, hfixed, hlen⟩ | ⟨a, rfl, hformat⟩ | ⟨a, rfl, hformat⟩
  · rw [hformat]
    refine ⟨_, [], rfl, matches_half ((high_of_half a _).trans (eq_high ha)), fun rest => ?_⟩
    rw [decodeCase_half hiei hformat, low_or]
    unfold nibble
    rw [and_0F_and_0F]
    change (e.wrap msg (e.type.decodeBytes [e.nibble x])).map _ = _
    rw [nibble_eq hshape hlaid hhas]
    unfold back
    cases e.wrap msg (e.type.decodeBytes (x.encode e.type.shape)) with
    | error | ok => rfl
  · rw [hformat]
    grind [decodeCase_full, matches_full, decodeBody_encode, sized_fixed]
  · have hle := (sized_short (.inr hformat)).1 hx
    rw [hformat]
    refine ⟨a, _, encodeTLV_eq hle, matches_full a, fun rest => ?_⟩
    rw [decodeCase_tlv hformat]
    exact decodeLV_encode hle
  · have hle := (sized_long (.inr hformat)).1 hx
    rw [hformat]
    refine ⟨a, _, encodeTLVE_eq hle, matches_full a, fun rest => ?_⟩
    rw [decodeCase_tlve hformat]
    exact decodeLVE_encode hle

/-- What comes of a mandatory field, and of an optional one after `w`. -/
def backMandatory (msg : String) (e : IEEntry) (v : Option Value) :
    Except DecodeError (Option Value) :=
  match e.iei, v with
  | none, some x => e.back msg x
  | _, _ => .ok none

theorem backMandatory_some (hiei : e.iei = none) : e.backMandatory msg (some x) = e.back msg x := by
  unfold backMandatory
  rw [hiei]

theorem backMandatory_of_optional (hiei : e.iei ≠ none) : e.backMandatory msg v = .ok none := by
  unfold backMandatory
  split
  · case h_1 x h => exact absurd h hiei
  · rfl

def backOptional (msg : String) (e : IEEntry) (v w : Option Value) :
    Except DecodeError (Option Value) :=
  match e.iei, v with
  | some _, some x => e.back msg x
  | _, _ => .ok w

end IEEntry

def backMandatory (msg : String) : List IEEntry → List (Option Value) →
    Except DecodeError (List (Option Value))
  | e :: es, v :: vs => do
    let x ← e.backMandatory msg v
    let rest ← backMandatory msg es vs
    pure (x :: rest)
  | _, _ => .ok []

def backOptional (msg : String) : List IEEntry → List (Option Value) → List (Option Value) →
    Except DecodeError (List (Option Value))
  | e :: es, v :: vs, w :: ws => do
    let x ← e.backOptional msg v w
    let rest ← backOptional msg es vs ws
    pure (x :: rest)
  | _, _, _ => .ok []

theorem decodeMandatory_encode : ∀ {es : List IEEntry} {vs : List (Option Value)} {b rest : Bytes},
    (∀ e ∈ es, e.Regular) → List.Forall₂ IEEntry.Holds es vs → List.Forall₂ IEEntry.InRange es vs →
      encodeMandatory es vs = some b →
        decodeMandatory msg es (b ++ rest) =
          (backMandatory msg es vs).map fun vals => (vals, rest)
  | [], [], b, rest, _, _, _, h => by
    cases h
    rfl
  | [e], [v], b, rest, hreg, _, hin, h => by
    have he := hreg e (by simp)
    unfold encodeMandatory at h
    unfold decodeMandatory backMandatory
    split at h
    · case isTrue hiei =>
      obtain ⟨x, rfl, rfl⟩ := map_eq_some_iff.1 h
      rw [if_pos hiei, backMandatory_some hiei,
        decodeMandatoryOne_encode he hiei ((forall₂_cons.1 hin).1 x rfl)]
      cases e.back msg x with
      | error | ok => rfl
    · case isFalse hiei =>
      cases h
      rw [if_neg hiei, backMandatory_of_optional hiei]
      rfl
  | e :: f :: es, v :: w :: vs, b, rest, hreg, hhas, hin, h => by
    have he := hreg e (by simp)
    have hf := hreg f (by simp)
    obtain ⟨hv, hin'⟩ := forall₂_cons.1 hin
    obtain ⟨hholds, hhas'⟩ := forall₂_cons.1 hhas
    unfold encodeMandatory at h
    unfold decodeMandatory
    split at h
    · case isTrue hpair =>
      obtain ⟨x, rfl, hx⟩ := bind_eq_some_iff.1 h
      obtain ⟨y, rfl, hy⟩ := bind_eq_some_iff.1 hx
      obtain ⟨tail, htail, heq⟩ := bind_eq_some_iff.1 hy
      cases heq
      obtain ⟨⟨_, heshape, helaid⟩, ⟨_, hfshape, hflaid⟩⟩ := Pair.regular hpair he hf
      have hlow : e.nibble x &&& 0x0F = e.nibble x := and_0F_and_0F _
      have hhigh : f.nibble y &&& 0x0F = f.nibble y := and_0F_and_0F _
      have hupper : ((f.nibble y <<< 4) ||| e.nibble x) >>> 4 = f.nibble y &&& 0x0F := by
        rw [← hlow, high_or]
      rw [if_pos hpair, cons_append, takeUint8_cons]
      dsimp only
      rw [low_or, hlow, hupper, hhigh, hhigh, nibble_eq heshape helaid (hholds.1 x rfl),
        nibble_eq hfshape hflaid ((forall₂_cons.1 hhas').1.1 y rfl),
        decodeMandatory_encode (fun e he => hreg e (by simp [he]))
          (forall₂_cons.1 hhas').2 (forall₂_cons.1 hin').2 htail]
      rw [backMandatory, backMandatory, backMandatory_some hpair.1,
        backMandatory_some hpair.2.1]
      unfold back
      cases e.wrap msg (e.type.decodeBytes (x.encode e.type.shape)) with
      | error => rfl
      | ok =>
        cases f.wrap msg (f.type.decodeBytes (y.encode f.type.shape)) with
        | error => rfl
        | ok =>
          cases backMandatory msg es vs with
          | error | ok => rfl
    · case isFalse hpair =>
      rw [if_neg hpair, backMandatory]
      split at h
      · case isTrue hiei =>
        obtain ⟨x, rfl, hx⟩ := bind_eq_some_iff.1 h
        obtain ⟨tail, htail, heq⟩ := bind_eq_some_iff.1 hx
        cases heq
        rw [if_pos hiei, backMandatory_some hiei, append_assoc,
          decodeMandatoryOne_encode he hiei (hv x rfl)]
        cases e.back msg x with
        | error => rfl
        | ok x' =>
          change (decodeMandatory msg (f :: es) (tail ++ rest) >>= fun p =>
            ok (x' :: p.1, p.2)) = _
          rw [decodeMandatory_encode (fun e he => hreg e (mem_cons_of_mem _ he)) hhas' hin'
            htail]
          cases backMandatory msg (f :: es) (w :: vs) with
          | error | ok => rfl
      · case isFalse hiei =>
        rw [if_neg hiei, backMandatory_of_optional hiei,
          decodeMandatory_encode (fun e he => hreg e (mem_cons_of_mem _ he)) hhas' hin' h]
        cases hback : backMandatory msg (f :: es) (w :: vs) with
        | error | ok => rfl

/-- The elements whose IEI does not match are passed over. -/
theorem dispatch_skip {pre : List IEEntry} {pv ws : List (Option Value)} {w : Option Value}
    {i : IEI} {y : UInt8} (hlen : pre.length = pv.length)
    (hpre : ∀ d ∈ pre, ∀ j, d.iei = some j → ¬j.Matches y) (hiei : e.iei = some i)
    (hi : i.Matches y) :
    dispatch msg y b (pre ++ e :: es) (pv ++ w :: ws) =
      some ((e.decodeCase msg y b).map fun r => (pv ++ r.1.or w :: ws, r.2)) := by
  induction pre generalizing pv with
  | nil =>
    grind [dispatch]
  | cons d pre ih =>
    cases pv with
    | nil => cases hlen
    | cons p pv =>
      have hrest := ih (succ.inj hlen) fun d hd => hpre d (mem_cons_of_mem _ hd)
      rw [cons_append, cons_append, dispatch, hrest]
      have hd := hpre d mem_cons_self
      cases hdi : d.iei with
      | none =>
        rw [map_some]
        cases e.decodeCase msg y b with
        | error | ok => rfl
      | some j =>
        dsimp only
        rw [if_neg (hd j hdi), map_some]
        cases e.decodeCase msg y b with
        | error | ok => rfl

theorem backOptional_cons_ok {ws : List (Option Value)} {w x : Option Value}
    (h : e.backOptional msg v w = .ok x) :
    backOptional msg (e :: es) (v :: vs) (w :: ws) =
      (backOptional msg es vs ws).map (x :: ·) := by
  rw [backOptional, h]
  cases backOptional msg es vs ws with
  | error | ok => rfl

/-- The loop reads every element that is there in its turn. -/
theorem decodeOptional_encode {pre : List IEEntry} {pv ws : List (Option Value)} {fuel : Nat}
    (hreg : ∀ e ∈ es, e.Regular) (hhas : List.Forall₂ IEEntry.Holds es vs)
    (hin : List.Forall₂ IEEntry.InRange es vs) (hws : es.length = ws.length)
    (hpre : pre.length = pv.length)
    (hapart : ((pre ++ es).filterMap (·.iei)).Pairwise IEI.Apart)
    (hfuel : (encodeOptional es vs).length ≤ fuel) :
    decodeOptional msg (pre ++ es) fuel (pv ++ ws) (encodeOptional es vs) =
      (backOptional msg es vs ws).map (pv ++ ·) := by
  induction hhas generalizing pre pv ws fuel with
  | nil =>
    cases length_eq_zero_iff.1 hws.symm
    cases fuel with
    | zero | succ => rfl
  | @cons e v es vs hholds hhas ih =>
    cases ws with
    | nil => cases hws
    | cons w ws =>
      obtain ⟨hv, hin⟩ := forall₂_cons.1 hin
      have hreg' : ∀ e ∈ es, e.Regular := fun e he => hreg e (mem_cons_of_mem _ he)
      -- the fields before the rest, once this element has left `x`
      have hnext : ∀ {x : Option Value} {fuel : Nat}, (encodeOptional es vs).length ≤ fuel →
          e.backOptional msg v w = .ok x →
            decodeOptional msg (pre ++ e :: es) fuel (pv ++ x :: ws) (encodeOptional es vs) =
              (backOptional msg (e :: es) (v :: vs) (w :: ws)).map (pv ++ ·) := by
        intro x fuel hfuel hx
        have happ : pre ++ e :: es = (pre ++ [e]) ++ es := append_cons pre e es
        rw [happ] at hapart
        rw [happ, append_cons pv x ws, ih hreg' hin (succ.inj hws)
          (by rw [length_append, length_append, hpre]; rfl) hapart hfuel,
          backOptional_cons_ok hx]
        cases backOptional msg es vs ws with
        | error => rfl
        | ok l => exact congrArg ok (append_cons pv x l).symm
      cases hiei : e.iei with
      | none =>
        have hbytes : encodeOptional (e :: es) (v :: vs) = encodeOptional es vs := by
          simp only [encodeOptional, hiei, nil_append]
        have hback : e.backOptional msg v w = .ok w := by
          unfold IEEntry.backOptional
          rw [hiei]
        rw [hbytes] at hfuel ⊢
        exact hnext hfuel hback
      | some i =>
        cases v with
        | none =>
          have hbytes : encodeOptional (e :: es) (none :: vs) = encodeOptional es vs := by
            simp only [encodeOptional, hiei, nil_append]
          have hback : e.backOptional msg none w = .ok w := by
            unfold IEEntry.backOptional
            rw [hiei]
          grind
        | some x =>
          obtain ⟨y, body, hbody, ⟨hmatch, hother⟩, hcase⟩ := optionalBytes_spec msg
            (hreg e mem_cons_self) hiei (hv x rfl) (hholds.1 x rfl)
          have hbytes : encodeOptional (e :: es) (some x :: vs) =
              y :: (body ++ encodeOptional es vs) := by
            simp only [encodeOptional, hiei, hbody, cons_append]
          have hskip : ∀ d ∈ pre, ∀ j, d.iei = some j → ¬j.Matches y := by
            grind
          have hback : e.backOptional msg (some x) w = e.back msg x := by
            unfold IEEntry.backOptional
            rw [hiei]
          rw [hbytes, length_cons, length_append] at hfuel
          cases fuel with
          | zero => cases hfuel
          | succ fuel =>
            rw [hbytes, decodeOptional, dispatch_skip hpre hskip hiei hmatch, hcase]
            cases hx : e.back msg x with
            | error err =>
              rw [backOptional, hback, hx]
              rfl
            | ok x' =>
              rw [hx] at hback
              obtain ⟨z, -, rfl⟩ := ok_of_map hx
              exact hnext (by omega) hback

theorem back_eq_some_iff : e.back msg x = .ok (some x) ↔
    e.type.decodeBytes (x.encode e.type.shape) = .ok x := by
  unfold back
  constructor
  · intro h
    obtain ⟨y, hy, heq⟩ := ok_of_map h
    cases heq
    exact ok_of_wrap hy
  · intro h
    rw [h]
    rfl

/-- What the two passes leave in a field is what was there just when its type reads it back. -/
theorem back_field_iff (hthere : e.iei = none → v ≠ none) :
    (∃ w, e.backMandatory msg v = .ok w ∧ e.backOptional msg v w = .ok v) ↔
      ∀ x, v = some x → e.type.decodeBytes (x.encode e.type.shape) = .ok x := by
  unfold IEEntry.backMandatory IEEntry.backOptional
  cases hiei : e.iei with
  | none =>
    cases v with
    | none => exact absurd rfl (hthere hiei)
    | some x =>
      grind [back_eq_some_iff]
  | some i =>
    cases v with
    | none => exact iff_of_true ⟨none, rfl, rfl⟩ fun x hx => by cases hx
    | some x =>
      grind [back_eq_some_iff]

theorem back_iff (h : List.Forall₂ (fun e v => e.iei = none → v ≠ none) es vs) :
    (∃ ws, backMandatory msg es vs = .ok ws ∧ backOptional msg es vs ws = .ok vs) ↔
      List.Forall₂ (fun e v => ∀ x, v = some x →
        e.type.decodeBytes (x.encode e.type.shape) = .ok x) es vs := by
  induction h with
  | nil => exact iff_of_true ⟨[], rfl, rfl⟩ .nil
  | @cons e v es vs hv _ ih =>
    rw [forall₂_cons, ← ih, ← @back_field_iff msg e v hv]
    constructor
    · rintro ⟨ws, hmand, hopt⟩
      obtain ⟨w, hw, hmand⟩ := ok_of_bind hmand
      obtain ⟨ws', hws', heq⟩ := ok_of_bind hmand
      cases heq
      obtain ⟨z, hz, hopt⟩ := ok_of_bind hopt
      obtain ⟨zs, hzs, heq⟩ := ok_of_bind hopt
      simp_all
    · rintro ⟨⟨w, hw, hv⟩, ws, hws, hvs⟩
      refine ⟨w :: ws, ?_, ?_⟩
      · rw [backMandatory, hw, hws]
        rfl
      · rw [backOptional_cons_ok hv, hvs]
        rfl

/-! ## Messages -/

theorem encodeMandatory_isSome_iff : ∀ {es : List IEEntry} {vs : List (Option Value)},
    es.length = vs.length → ((∃ b, encodeMandatory es vs = some b) ↔
      List.Forall₂ (fun e v => e.iei = none → v ≠ none) es vs)
  | [], [], _ => iff_of_true ⟨[], rfl⟩ .nil
  | [e], [v], _ => by
    rw [forall₂_cons, and_iff_left List.Forall₂.nil, encodeMandatory]
    split
    · case isTrue hiei =>
      cases v with
      | none => exact iff_of_false (fun ⟨_, h⟩ => by cases h) (fun h => h hiei rfl)
      | some x => exact iff_of_true ⟨_, rfl⟩ (fun _ => some_ne_none x)
    · case isFalse hiei => exact iff_of_true ⟨[], rfl⟩ (fun h => absurd h hiei)
  | e :: f :: es, v :: w :: vs, h => by
    have hes := @encodeMandatory_isSome_iff es vs (succ.inj (succ.inj h))
    have hfes := @encodeMandatory_isSome_iff (f :: es) (w :: vs) (succ.inj h)
    rw [forall₂_cons, encodeMandatory]
    split
    · case isTrue hpair =>
      rw [forall₂_cons, ← hes]
      constructor
      · rintro ⟨b, hb⟩
        obtain ⟨x, hx, hb⟩ := bind_eq_some_iff.1 hb
        obtain ⟨y, hy, hb⟩ := bind_eq_some_iff.1 hb
        obtain ⟨tail, htail, -⟩ := bind_eq_some_iff.1 hb
        rw [hx, hy]
        exact ⟨fun _ => some_ne_none x, fun _ => some_ne_none y, tail, htail⟩
      · rintro ⟨hv, hw, tail, htail⟩
        obtain ⟨x, rfl⟩ := ne_none_iff_exists'.1 (hv hpair.1)
        obtain ⟨y, rfl⟩ := ne_none_iff_exists'.1 (hw hpair.2.1)
        rw [htail]
        exact ⟨_, rfl⟩
    · rw [← hfes]
      split
      · case isTrue hiei =>
        constructor
        · rintro ⟨b, hb⟩
          obtain ⟨x, hx, hb⟩ := bind_eq_some_iff.1 hb
          obtain ⟨tail, htail, -⟩ := bind_eq_some_iff.1 hb
          rw [hx]
          exact ⟨fun _ => some_ne_none x, tail, htail⟩
        · rintro ⟨hv, tail, htail⟩
          obtain ⟨x, rfl⟩ := ne_none_iff_exists'.1 (hv hiei)
          rw [htail]
          exact ⟨_, rfl⟩
      · case isFalse hiei =>
        exact (and_iff_right fun h => absurd h hiei).symm

theorem IEEntry.width_le (e : IEEntry) : e.width ≤ 8 := by
  unfold width
  split <;> decide

/-- The message is encoded, and decoded to the same elements. -/
def ComesBack (t : MessageTable) (m : Message t) : Prop :=
  ∃ b, encode t.toMessageDef m.toFields = some b ∧
    decode t.toMessageDef (b.drop (header t.toMessageDef m.toFields).length) = .ok m.vals

variable {t : MessageTable}

theorem length_backMandatory {ws : List (Option Value)} (h : es.length = vs.length)
    (hback : backMandatory msg es vs = .ok ws) : ws.length = vs.length := by
  induction es generalizing vs ws with
  | nil =>
    cases length_eq_zero_iff.1 h.symm
    cases hback
    rfl
  | cons e es ih =>
    cases vs with
    | nil => cases h
    | cons v vs =>
      obtain ⟨w, -, hback⟩ := ok_of_bind hback
      obtain ⟨ws', hws', heq⟩ := ok_of_bind hback
      cases heq
      exact congrArg succ (ih (succ.inj h) hws')

/-- A message of which every element fits is read element by element. -/
theorem decode_encode (m : Message t) (hin : List.Forall₂ IEEntry.InRange t.ies m.vals) {b : Bytes}
    (h : encode t.toMessageDef m.toFields = some b) :
    decode t.toMessageDef (b.drop (header t.toMessageDef m.toFields).length) = .ok m.vals ↔
      List.Forall₂ (fun e v => ∀ x, v = some x →
        e.type.decodeBytes (x.encode e.type.shape) = .ok x) t.ies m.vals := by
  obtain ⟨mand, hmand, rfl⟩ := map_eq_some_iff.1 h
  have hlen := m.typed.length_eq
  rw [append_assoc, drop_left, ← @back_iff t.name _ _
    ((encodeMandatory_isSome_iff hlen).1 ⟨mand, hmand⟩), decode,
    decodeMandatory_encode t.regular m.typed hin hmand]
  cases hback : backMandatory t.name t.ies m.vals with
  | error err => exact iff_of_false (fun h => by cases h) (fun ⟨_, h, _⟩ => by cases h)
  | ok ws =>
    have hopt := @decodeOptional_encode t.name t.ies m.vals [] [] ws _ t.regular m.typed hin
      (hlen.trans (length_backMandatory hlen hback).symm) rfl t.apart (Nat.le_refl _)
    change decodeOptional t.name t.ies _ ws (encodeOptional t.ies m.vals) = _ ↔ _
    rw [nil_append, nil_append] at hopt
    rw [hopt]
    constructor
    · intro h
      obtain ⟨vals, hvals, rfl⟩ := ok_of_map h
      exact ⟨ws, rfl, hvals⟩
    · rintro ⟨ws', heq, hvals⟩
      cases heq
      rw [hvals]
      rfl

/-- Nothing is lost on the way, and nothing stops it, just when every field that must be there is,
and every value fits its type and its format. -/
theorem comesBack_iff (m : Message t) :
    ComesBack t m ↔ List.Forall₂ IEEntry.Carries t.ies m.vals := by
  have hlen := m.typed.length_eq
  have hfits : ∀ {e v}, (e, v) ∈ t.ies.zip m.vals → ∀ x, v = some x →
      (e.type.decodeBytes (x.encode e.type.shape) = .ok x ↔ x.Fits e.type) := by
    intro e v hmem x hx
    have hregular := t.regular e (of_mem_zip hmem).1
    have hholds := (forall₂_iff_zip.1 m.typed).2 hmem
    exact decodeBytes_encode_iff (hregular.1.mono e.width_le) (hholds.1 x hx)
  constructor
  · rintro ⟨b, henc, hdec⟩
    obtain ⟨mand, hmand, -⟩ := map_eq_some_iff.1 henc
    have hthere := (encodeMandatory_isSome_iff hlen).1 ⟨mand, hmand⟩
    have hin := inRange_decode t hdec
    have hback := (decode_encode m hin henc).1 hdec
    rw [forall₂_iff_zip] at hthere hin hback ⊢
    exact ⟨hlen, fun hmem => ⟨hthere.2 hmem, fun x hx =>
      ⟨hin.2 hmem x hx, (hfits hmem x hx).1 (hback.2 hmem x hx)⟩⟩⟩
  · intro h
    rw [forall₂_iff_zip] at h
    obtain ⟨mand, hmand⟩ := (encodeMandatory_isSome_iff hlen).2
      (forall₂_iff_zip.2 ⟨hlen, fun hmem => (h.2 hmem).1⟩)
    have henc : encode t.toMessageDef m.toFields = some
        (header t.toMessageDef m.toFields ++ mand ++ encodeOptional t.ies m.vals) := by
      rw [encode, hmand]
      rfl
    have hin : List.Forall₂ IEEntry.InRange t.ies m.vals :=
      forall₂_iff_zip.2 ⟨hlen, fun hmem x hx => ((h.2 hmem).2 x hx).1⟩
    refine ⟨_, henc, (decode_encode m hin henc).2 (forall₂_iff_zip.2 ⟨hlen, ?_⟩)⟩
    exact fun hmem x hx => (hfits hmem x hx).2 ((h.2 hmem).2 x hx).2

/-! ## A table -/

theorem IEEntry.Holds.some (h : x.Has e.type.shape) : e.Holds (some x) :=
  ⟨fun _ hy => some.inj hy ▸ h, fun hnone => absurd hnone (some_ne_none x)⟩

theorem IEEntry.Holds.none (h : e.iei ≠ none) : e.Holds none :=
  ⟨fun _ hx => absurd hx.symm (some_ne_none _), fun _ => .inl h⟩

def causeType : IETypeDef := ⟨.struct [1], 1⟩

/-- `DLNASTransport`, with an octet that two half octets share. -/
def dlNASTransport : MessageTable where
  name := "DLNASTransport"
  epd := 0x7E
  messageType := 0x68
  ies := [
    ⟨"PayloadContainerType", none, .v, true, ⟨.bits [⟨4, 0⟩], 0⟩⟩,
    ⟨"Spare", none, .v, true, ⟨.bits [⟨1, 3⟩, ⟨3, 0⟩], 0⟩⟩,
    ⟨"PayloadContainer", none, .lve, false, ⟨.raw, 1⟩⟩,
    ⟨"PDUSessionID", some (.full 0x12), .tv, false, causeType⟩,
    ⟨"AdditionalInformation", some (.full 0x24), .tlv, false, ⟨.raw, 2⟩⟩,
    ⟨"Cause5GMM", some (.full 0x58), .tv, false, causeType⟩,
    ⟨"BackOffTimerValue", some (.full 0x37), .tlv, false, causeType⟩]
  regular := by
    simp only [List.forall_mem_cons]
    refine ⟨⟨?_, trivial⟩, ⟨?_, trivial⟩, ⟨trivial, rfl⟩, ⟨rfl, rfl, by decide⟩, ⟨trivial, rfl⟩,
      ⟨rfl, rfl, by decide⟩, ⟨rfl, rfl⟩, List.forall_mem_nil _⟩
    · exact ⟨by decide, by decide⟩
    · exact ⟨by decide, by decide⟩
  paired := ⟨rfl, rfl, rfl, rfl, rfl⟩
  apart := by decide

/-- Downlink NAS transport of a payload with more information. -/
def transportOf (information : Bytes) : Message dlNASTransport where
  pduSessionID := 0
  pti := 0
  epsBearerIdentity := 0
  vals := [some (.bits [1]), some (.bits [0, 0]), some (.raw [1, 2, 3]), some (.struct [[5]]),
    some (.raw information), none, some (.struct [[0x21]])]
  typed := .cons (.some rfl) <| .cons (.some rfl) <| .cons (.some trivial) <|
    .cons (.some (.cons (fun _ => rfl) .nil)) <| .cons (.some trivial) <|
    .cons (.none (by decide)) <| .cons (.some (.cons (fun _ => rfl) .nil)) .nil

/-- Two bytes of it are read again. -/
example : ComesBack dlNASTransport (transportOf [7, 8]) := ⟨_, rfl, rfl⟩

/-- 256 bytes of it are left out. -/
theorem not_comesBack : ¬∀ (t : MessageTable) (m : Message t), ComesBack t m := by
  intro h
  obtain ⟨b, henc, hdec⟩ := h dlNASTransport (transportOf (replicate 256 0))
  have hbytes : encode dlNASTransport.toMessageDef (transportOf (replicate 256 0)).toFields =
      some [0x7E, 0, 0x68, 1, 0, 3, 1, 2, 3, 0x12, 5, 0x37, 1, 0x21] := by decide +kernel
  have hread : decode dlNASTransport.toMessageDef [1, 0, 3, 1, 2, 3, 0x12, 5, 0x37, 1, 0x21] =
      .ok [some (.bits [1]), some (.bits [0, 0]), some (.raw [1, 2, 3]), some (.struct [[5]]),
        none, none, some (.struct [[0x21]])] := rfl
  cases hbytes.symm.trans henc
  have heq := hread.symm.trans hdec
  have hvals := ok.inj heq
  have hfifth : (none : Option Value) = some (.raw (replicate 256 0)) :=
    congrArg (fun l => (l.getD 4 none)) hvals
  cases hfifth

end MmtCore.Nas
