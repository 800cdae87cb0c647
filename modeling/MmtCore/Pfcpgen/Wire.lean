import MmtCore.Nas.ReadBack
import MmtCore.Pfcpgen.Codegen

/-!
# Elements in a byte string

How an element is read back, whatever its type, and what the dispatch of a group does with it.
-/

namespace MmtCore.Pfcpgen

open MmtCore.Lib MmtCore.Pfcp

/-! ## The header -/

/-- The flags of a header of version 1. -/
theorem flags_back : ∀ fo mp s : Bool,
    let flags : UInt8 := (((1 : UInt8) &&& 7) <<< 5) ||| (if fo then 4 else 0) |||
      (if mp then 2 else 0) ||| (if s then 1 else 0)
    (flags >>> 5) &&& 7 = 1 ∧ (flags &&& 4 != 0) = fo ∧ (flags &&& 2 != 0) = mp ∧
      (flags &&& 1 != 0) = s := by
  decide

set_option maxRecDepth 4000 in
theorem nibble_back (p : UInt8) : (((p &&& 15) <<< 4) >>> 4) &&& 15 = p &&& 15 :=
  Nas.forall_uint8 (P := fun p => (((p &&& 15) <<< 4) >>> 4) &&& 15 = p &&& 15) (by decide) p

/-- What a header says, so far as it is carried. -/
def carriedHeader (h : Header) : Header :=
  { h with
    seid := if h.hasSEID then h.seid else 0
    sequenceNumber := UInt32.ofNat (h.sequenceNumber.toNat % 256 ^ 3)
    priority := h.priority &&& 15 }

theorem parseHeader_encode {h : Header} (hv : h.version = 1) (payload : Bytes) :
    parseHeader (h.encode ++ payload) = some (carriedHeader h, payload) := by
  obtain ⟨version, fo, mp, s, type, length, seid, seq, prio⟩ := h
  obtain rfl : version = 1 := hv
  obtain ⟨hversion, hfo, hmp, hs⟩ := flags_back fo mp s
  have hlen : UInt16.ofNat (beNat (beBytes 2 length.toNat)) = length := by
    rw [beNat_beBytes_of_lt length.toNat_lt, UInt16.ofNat_toNat]
  have hseid : UInt64.ofNat (beNat (beBytes 8 seid.toNat)) = seid := by
    rw [beNat_beBytes_of_lt seid.toNat_lt, UInt64.ofNat_toNat]
  have hseq := beNat_beBytes 3 seq.toNat
  obtain ⟨l₁, l₂, hl⟩ : ∃ l₁ l₂, beBytes 2 length.toNat = [l₁, l₂] := ⟨_, _, rfl⟩
  obtain ⟨q₁, q₂, q₃, hq⟩ : ∃ q₁ q₂ q₃, beBytes 3 seq.toNat = [q₁, q₂, q₃] := ⟨_, _, _, rfl⟩
  unfold parseHeader Header.encode
  rw [hl, hq]
  cases s with
  | false =>
    simp_all [carriedHeader, nibble_back]
  | true =>
    rw [if_neg (by simp; omega)]
    simp_all [carriedHeader, nibble_back, length_beBytes]

/-! ## Reading -/

variable {n : Nat} {v rest : Bytes}

theorem take_append (h : v.length = n) : take n (v ++ rest) = .ok (v, rest) := by
  rw [take, takeBytes_of_length h]

theorem take_eq_ok {b : Bytes} (h : take n b = .ok (v, rest)) : v.length = n ∧ b = v ++ rest := by
  grind [take, takeBytes_eq_some]

theorem takeUint16_ok (h : n < 65536) :
    takeUint (takeUint16 (putUint16 n ++ rest)) = .ok (n, rest) := by
  rw [takeUint16_put h]
  rfl

theorem takeUint_eq_ok {r : Option (Nat × Bytes)} {x : Nat × Bytes} (h : takeUint r = .ok x) :
    r = some x := by
  cases r with
  | none => cases h
  | some y => rw [Except.ok.inj h]

theorem length_takeUint16 {b : Bytes} {n : Nat} (h : takeUint16 b = some (n, rest)) :
    b.length = rest.length + 2 := by
  unfold takeUint16 at h
  split at h
  · cases h
    rfl
  · cases h

/-! ## One element -/

theorem decodeIE_consumes : Consumes decodeIE := by
  intro b ie rest h
  obtain ⟨⟨t, b₁⟩, ht, h⟩ := ok_of_bind h
  obtain ⟨⟨length, b₂⟩, hl, h⟩ := ok_of_bind h
  have h₁ := length_takeUint16 (takeUint_eq_ok ht)
  have h₂ := length_takeUint16 (takeUint_eq_ok hl)
  have htake : ∀ {n : Nat} {c w r : Bytes}, take n c = .ok (w, r) → r.length ≤ c.length := by
    intro n c w r hread
    rw [(take_eq_ok hread).2, List.length_append]
    omega
  dsimp only at h
  split at h
  · obtain ⟨⟨eid, b₃⟩, he, h⟩ := ok_of_bind h
    have h₃ := htake he
    dsimp only at h
    split at h
    · cases h
    · obtain ⟨⟨w, b₄⟩, hv, h⟩ := ok_of_bind h
      have h₄ := htake hv
      cases h
      dsimp only
      omega
  · obtain ⟨⟨w, b₄⟩, hv, h⟩ := ok_of_bind h
    have h₄ := htake hv
    cases h
    dsimp only
    omega

def IsVendor (type : UInt16) : Prop := type &&& 0x8000 ≠ 0
  deriving Decidable

/-- The number that the reader makes of the type of an element. -/
def readType (type : UInt16) : UInt16 := if IsVendor type then type &&& 0x7FFF else type

/-- An element as it stands in a message, standard or enterprise-specific; its length is a number
of sixteen bits. -/
structure RawIE where
  type : UInt16
  enterpriseID : UInt32
  body : Bytes
  fits : body.length + (if IsVendor type then 4 else 0) ≤ 0xFFFF

namespace RawIE

def length (e : RawIE) : Nat := e.body.length + (if IsVendor e.type then 4 else 0)

def bytes (e : RawIE) : Bytes :=
  putUint16 e.type.toNat ++ (putUint16 e.length ++
    ((if IsVendor e.type then beBytes 4 e.enterpriseID.toNat else []) ++ e.body))

def decoded (e : RawIE) : DecodedIE :=
  ⟨readType e.type, if IsVendor e.type then e.enterpriseID else 0, e.body⟩

end RawIE

/-- An element is read back; the bit of a vendor type is gone. -/
theorem decodeIE_bytes (e : RawIE) (rest : Bytes) :
    decodeIE (e.bytes ++ rest) = .ok (e.decoded, rest) := by
  have hfits := e.fits
  have htype : e.type.toNat < 65536 := e.type.toNat_lt
  have hlength : e.length < 65536 := by
    unfold RawIE.length
    omega
  rw [decodeIE, RawIE.bytes, List.append_assoc, List.append_assoc,
    bind_of_ok (takeUint16_ok htype)]
  dsimp only
  rw [bind_of_ok (takeUint16_ok hlength)]
  rw [UInt16.ofNat_toNat]
  by_cases hv : IsVendor e.type
  · have hlen : e.length = e.body.length + 4 := by rw [RawIE.length, if_pos hv]
    have heid : UInt32.ofNat (beNat (beBytes 4 e.enterpriseID.toNat)) = e.enterpriseID := by
      rw [beNat_beBytes_of_lt e.enterpriseID.toNat_lt, UInt32.ofNat_toNat]
    have hbit : e.type &&& 0x8000 ≠ 0 := hv
    rw [if_pos hv, if_pos hbit, List.append_assoc, bind_of_ok (take_append (length_beBytes 4 _))]
    rw [hlen, if_neg (by omega), Nat.add_sub_cancel, bind_of_ok (take_append rfl), heid,
      RawIE.decoded, readType, if_pos hv, if_pos hv]
    rfl
  · have hlen : e.length = e.body.length := by rw [RawIE.length, if_neg hv, Nat.add_zero]
    have hbit : ¬e.type &&& 0x8000 ≠ 0 := hv
    rw [if_neg hv, if_neg hbit, List.nil_append, hlen, bind_of_ok (take_append rfl), RawIE.decoded,
      readType, if_neg hv, if_neg hv]
    rfl

/-! ## Elements in a group -/

section

variable {σ : Type} {fn : σ → DecodedIE → Except CodecErr σ} {s : σ}

@[simp] theorem forEachIE_nil : forEachIE fn s [] = .ok s := rfl

theorem forEachIE_bytes (e : RawIE) (rest : Bytes) :
    forEachIE fn s (e.bytes ++ rest) = fn s e.decoded >>= fun s => forEachIE fn s rest :=
  forEachRecord_read decodeIE_consumes (decodeIE_bytes e rest)

theorem forEachIE_flatMap (l : List RawIE) (rest : Bytes) :
    forEachIE fn s (l.flatMap RawIE.bytes ++ rest) =
      l.foldlM (fun s e => fn s e.decoded) s >>= fun s => forEachIE fn s rest :=
  forEachRecord_flatMap decodeIE_consumes fun e _ rest => decodeIE_bytes e rest

theorem forEachIE_one (e : RawIE) : forEachIE fn s e.bytes = fn s e.decoded := by
  have h : forEachIE fn s (e.bytes ++ []) = _ := forEachIE_bytes e []
  rw [List.append_nil] at h
  rw [h]
  cases fn s e.decoded <;> rfl

end

namespace Members

/-- The type codes of the members. -/
def codes : Members → List UInt16
  | .nil => []
  | .cons _ t rest => t.typeCode :: rest.codes

/-- The member that the switch takes for a type. -/
def find (c : UInt16) : Members → Option (IEEntry × IETypeDef)
  | .nil => none
  | .cons e t rest => if c = t.typeCode then some (e, t) else rest.find c

variable {ms : Members} {ie : DecodedIE}

section

variable {e : IEEntry} {t : IETypeDef} {rest : Members} {ctxName : String}
  {x : e.field.Slot t.Val} {s : rest.Val} {y : (Members.cons e t rest).Val}

/-- An element of the type of the first member. -/
theorem dispatch_head (h : ie.type = t.typeCode) :
    (Members.cons e t rest).dispatch ctxName (x, s) ie = .ok y ↔
      ∃ x', e.field.put (fun y v => t.decode y v) t.zero x ie.value = .ok x' ∧ y = (x', s) := by
  grind [Members.dispatch]

theorem dispatch_tail (h : ie.type ≠ t.typeCode) :
    (Members.cons e t rest).dispatch ctxName (x, s) ie = .ok y ↔
      ∃ s', rest.dispatch ctxName s ie = .ok s' ∧ y = (x, s') := by
  have hrest : (Members.cons e t rest).dispatch ctxName (x, s) ie =
      (rest.dispatch ctxName s ie).map fun s => (x, s) := if_neg h
  rw [hrest]
  constructor
  · intro h
    obtain ⟨s', hs', rfl⟩ := ok_of_map h
    exact ⟨s', hs', rfl⟩
  · rintro ⟨s', hs', rfl⟩
    rw [hs']
    rfl

end

/-- Types that no member has are passed over. -/
theorem dispatch_of_not_mem (ctxName : String) (s : ms.Val) (h : ie.type ∉ ms.codes) :
    ms.dispatch ctxName s ie = .ok s := by
  induction ms using Members.rec (motive_1 := fun _ => True) with
  | single | grouped => trivial
  | nil => rfl
  | cons e t rest _ ih =>
    obtain ⟨x, s⟩ := s
    rw [codes, List.mem_cons, not_or] at h
    rw [dispatch, if_neg h.1, ih s h.2]
    rfl

end Members

/-! ## A message -/

section

variable {messages : List MessageDef} (hnodup : (messages.map MessageDef.messageType).Nodup)
  {d : MessageDef} (hd : d ∈ messages)
include hd hnodup

theorem find_messageType : messages.find? (fun d' => d'.messageType == d.messageType) = some d := by
  induction messages with
  | nil => cases hd
  | cons d' messages ih =>
    grind

/-- A message of a type that there is goes to its decoder. -/
theorem decodePFCPMessage_encode
    {h : Header} (hversion : h.version = 1) (htype : h.messageType = d.messageType)
    (payload : Bytes) :
    decodePFCPMessage messages (h.encode ++ payload) =
      (Message.decode d (carriedHeader h) payload).map (Sigma.mk d) := by
  have htype' : (carriedHeader h).messageType = d.messageType := htype
  rw [decodePFCPMessage, parseHeader_encode hversion]
  dsimp only
  rw [htype', find_messageType hnodup hd]

end

end MmtCore.Pfcpgen
