import MmtCore.Pfcpgen.Wire

/-!
# Runtime elements that read back

For each element that the runtime codes by hand, which of its values decode from their own bytes.
Addresses are of the family of their field, rates fit forty bits, names have whole labels, and what
a flag or a description does not ask for has its zero.
-/

namespace MmtCore.Pfcpgen

open MmtCore.Lib MmtCore.Pfcp List Option Bool Nas OuterHeaderCreation

/-! ## Parts -/

def need (c : Bool) (n : Nat) : Nat := if c then n else 0

variable {c : Bool} {n : Nat} {v rest : Bytes} {α : Type} {y : α}

theorem takeIf_append (h : v.length = need c n) :
    takeIf c n (v ++ rest) = .ok (if c then some v else none, rest) := by
  cases c with
  | false =>
    obtain rfl : v = [] := length_eq_zero_iff.1 h
    rfl
  | true =>
    have hread : take n (v ++ rest) = .ok (v, rest) := take_append h
    rw [takeIf, if_pos rfl, hread]
    rfl

/-- A decoder that goes on after a part has found the bytes of the part. -/
theorem need_le_of_takeIf {f : Option Bytes × Bytes → Except CodecErr α}
    (h : (takeIf c n v >>= f) = .ok y) :
    ∃ a rest, v.length = need c n + rest.length ∧ f (a, rest) = .ok y := by
  obtain ⟨⟨a, rest⟩, hread, h⟩ := ok_of_bind h
  refine ⟨a, rest, ?_, h⟩
  cases c with
  | false =>
    cases hread
    exact (Nat.zero_add _).symm
  | true =>
    obtain ⟨r, hr, heq⟩ := ok_of_map hread
    obtain ⟨hlen, hsplit⟩ := take_eq_ok hr
    rw [hsplit, length_append, hlen, (Prod.mk.inj heq).2]
    rfl

theorem le_of_take {f : Bytes × Bytes → Except CodecErr α} (h : (take n v >>= f) = .ok y) :
    ∃ a rest, a.length = n ∧ v = a ++ rest ∧ f (a, rest) = .ok y := by
  obtain ⟨⟨a, rest⟩, hread, h⟩ := ok_of_bind h
  grind [take_eq_ok]

/-! ## Addresses -/

namespace IP

def Is4 (ip : IP) : Prop := ip.bytes.length = 4
  deriving Decidable

/-- `To16` is not nil. -/
def Is16 (ip : IP) : Prop := ip.bytes.length = 4 ∨ ip.bytes.length = 16
  deriving Decidable

@[ext] theorem ext {a b : IP} (h : a.bytes = b.bytes) : a = b := by
  cases a
  cases b
  cases h
  rfl

variable {ip : IP}

theorem to4_of_is4 (h : ip.Is4) : ip.to4 = ip.bytes := if_pos h

theorem to4_of_not (h : ¬ip.Is4) : ip.to4 = [] := if_neg h

theorem to16_of_not (h : ¬ip.Is16) : ip.to16 = [] := by
  have h4 : ¬ip.bytes.length = 4 := fun h4 => h (.inl h4)
  have h16 : ¬ip.bytes.length = 16 := fun h16 => h (.inr h16)
  rw [to16, if_neg h4, if_neg h16]

theorem length_to16 (h : ip.Is16) : ip.to16.length = 16 := by
  by_cases h4 : ip.bytes.length = 4
  · rw [to16, if_pos h4, length_append, h4]
    rfl
  · have h16 := h.resolve_left h4
    rw [to16, if_neg h4, if_pos h16, h16]

theorem ofSlice_to4 (h : ip.Is4) : ofSlice ip.to4 = ip := by
  rw [to4_of_is4 h, ofSlice, dif_neg ip.short]

theorem ofSlice_to16 (h : ip.Is16) : ofSlice ip.to16 = ip := by
  by_cases h4 : ip.bytes.length = 4
  · have hmapped : IsMapped (v4InV6Prefix ++ ip.bytes) := by
      refine ⟨?_, take_left' rfl⟩
      rw [length_append, h4]
      rfl
    rw [to16, if_pos h4, ofSlice, dif_pos hmapped]
    exact ext (drop_left' rfl)
  · rw [to16, if_neg h4, if_pos (h.resolve_left h4), ofSlice, dif_neg ip.short]

end IP

/-- An address, where there is one, is of the family of its field. -/
def Fits4 (ip : Option IP) : Prop := ∀ a ∈ ip, a.Is4
  deriving Decidable

def Fits16 (ip : Option IP) : Prop := ∀ a ∈ ip, a.Is16
  deriving Decidable

/-- What the two families have in common: an address of the family is written in its width and read
back, and nothing is written for another one. -/
structure Family (put : Option IP → Bytes) (n : Nat) (Is : IP → Prop) : Prop where
  nil : put none = []
  length {a : IP} (h : Is a) : (put (some a)).length = n
  of_not {a : IP} (h : ¬Is a) : put (some a) = []
  back {a : IP} (h : Is a) : .ofSlice (put (some a)) = a
  pos : 0 < n

theorem family4 : Family put4 4 IP.Is4 where
  nil := rfl
  length {a} h := (congrArg length (a.to4_of_is4 h)).trans h
  of_not := IP.to4_of_not
  back := IP.ofSlice_to4
  pos := by decide

theorem family16 : Family put16 16 IP.Is16 where
  nil := rfl
  length := IP.length_to16
  of_not := IP.to16_of_not
  back := IP.ofSlice_to16
  pos := by decide

theorem need_le (c : Bool) (n : Nat) : need c n ≤ n := by
  cases c
  · exact Nat.zero_le n
  · exact Nat.le_refl n

namespace Family

variable {put : Option IP → Bytes} {Is : IP → Prop} {ip : Option IP} (F : Family put n Is)
include F

theorem length_iff : (put ip).length = need ip.isSome n ↔ ∀ a ∈ ip, Is a := by
  cases ip with
  | none => exact iff_of_true (congrArg List.length F.nil) fun _ h => nomatch h
  | some a =>
    constructor
    · rintro h b ⟨⟩
      by_contra hno
      rw [F.of_not hno] at h
      exact absurd h (Nat.ne_of_lt F.pos)
    · exact fun h => F.length (h a rfl)

theorem length_le (ip : Option IP) : (put ip).length ≤ need ip.isSome n := by
  by_cases h : ∀ a ∈ ip, Is a
  · exact Nat.le_of_eq (F.length_iff.2 h)
  · obtain ⟨a, rfl, hno⟩ : ∃ a, ip = some a ∧ ¬Is a := by simpa using h
    rw [F.of_not hno]
    exact Nat.zero_le _

theorem length_le_width (ip : Option IP) : (put ip).length ≤ n :=
  Nat.le_trans (F.length_le ip) (need_le _ n)

theorem length_some (hsome : ip.isSome) (h : ∀ a ∈ ip, Is a) : (put ip).length = n := by
  rw [F.length_iff.2 h, hsome]
  rfl

/-- The only part of an address, where it has the bytes that are asked for. -/
theorem of_length (h : (put ip).length = n) : ip.isSome ∧ ∀ a ∈ ip, Is a := by
  cases ip with
  | none => exact absurd ((congrArg List.length F.nil).symm.trans h) (Nat.ne_of_lt F.pos)
  | some a => exact ⟨rfl, F.length_iff.1 h⟩

theorem ofSlice_put (hsome : ip.isSome) (h : ∀ a ∈ ip, Is a) : some (IP.ofSlice (put ip)) = ip := by
  obtain ⟨a, rfl⟩ := isSome_iff_exists.1 hsome
  exact congrArg some (F.back (h a rfl))

theorem or_back (h : ∀ a ∈ ip, Is a) :
    ((if ip.isSome then some (put ip) else none).map IP.ofSlice).or none = ip := by
  cases ip with
  | none => rfl
  | some a => exact congrArg some (F.back (h a rfl))

theorem length_part_le (c : Bool) (ip : Option IP) :
    (if c then put ip else []).length ≤ need c n := by
  cases c with
  | false => exact Nat.le_refl 0
  | true => exact F.length_le_width ip

theorem length_part (h : ip.isSome = c) (hfit : ∀ a ∈ ip, Is a) :
    (if c then put ip else []).length = need c n := by
  cases c with
  | false => rfl
  | true => exact F.length_some h hfit

theorem part_back (hlen : (if c then put ip else []).length = need c n) :
    (if c then some (IP.ofSlice (if c then put ip else [])) else none) = ip ↔
      ip.isSome = c ∧ ∀ a ∈ ip, Is a := by
  cases c with
  | false =>
    constructor
    · intro h
      obtain rfl : ip = none := h.symm
      exact ⟨rfl, fun _ h => nomatch h⟩
    · exact fun h => (not_isSome_iff_eq_none.1 (eq_false_iff.1 h.1)).symm
  | true =>
    obtain ⟨hsome, hfit⟩ := F.of_length hlen
    exact iff_of_true (F.ofSlice_put hsome hfit) ⟨hsome, hfit⟩

end Family

/-! ## F-SEID -/

namespace FSEID

def Fits (f : FSEID) : Prop := Fits4 f.ipv4 ∧ Fits16 f.ipv6
  deriving Decidable

def size (f : FSEID) : Nat := 9 + need f.ipv4.isSome 4 + need f.ipv6.isSome 16

theorem length_encode {f : FSEID} (h : f.Fits) : f.encode.length = f.size := by
  unfold encode size
  rw [length_append, length_append, length_cons, length_beBytes,
    family4.length_iff.2 h.1, family16.length_iff.2 h.2]

theorem flags_back : ∀ v4 v6 : Bool,
    (flags v4 v6 &&& 0x02 != 0) = v4 ∧ (flags v4 v6 &&& 0x01 != 0) = v6 := by decide

theorem decode_encode_iff (f : FSEID) : decode {} f.encode = .ok f ↔ f.Fits := by
  obtain ⟨seid, ipv4, ipv6⟩ := f
  obtain ⟨h4, h6⟩ := flags_back ipv4.isSome ipv6.isSome
  have hseid : UInt64.ofNat (beNat (beBytes 8 seid.toNat)) = seid := by
    rw [beNat_beBytes_of_lt seid.toNat_lt, UInt64.ofNat_toNat]
  have hhead : (flags ipv4.isSome ipv6.isSome :: beBytes 8 seid.toNat).length = 9 := by
    rw [length_cons, length_beBytes]
  rw [encode, append_assoc, decode, bind_of_ok (take_append hhead)]
  dsimp only [headD_cons, tail_cons]
  rw [h4, h6, hseid]
  constructor
  · intro h
    obtain ⟨v4, rest, hlen, h⟩ := need_le_of_takeIf h
    obtain ⟨v6, rest', hlen', h⟩ := need_le_of_takeIf h
    have hle4 := family4.length_le ipv4
    have hle16 := family16.length_le ipv6
    rw [length_append] at hlen
    dsimp only at hlen'
    have heq4 : (put4 ipv4).length = need ipv4.isSome 4 := by omega
    have heq16 : (put16 ipv6).length = need ipv6.isSome 16 := by omega
    exact ⟨family4.length_iff.1 heq4, family16.length_iff.1 heq16⟩
  · rintro ⟨hfit4, hfit16⟩
    have hend : put16 ipv6 = put16 ipv6 ++ [] := (append_nil _).symm
    rw [bind_of_ok (takeIf_append (family4.length_iff.2 hfit4))]
    rw [hend, bind_of_ok (takeIf_append (family16.length_iff.2 hfit16))]
    rw [family4.or_back hfit4, family16.or_back hfit16]
    rfl

end FSEID

/-! ## Names -/

variable {ls : List Bytes} {fuel : Nat} {b : Bytes}

theorem length_labelCode (h : ∀ l ∈ ls, l ≠ []) :
    (Nas.labelCode ls).length = Nas.labelBytes ls := by
  induction ls with
  | nil => rfl
  | cons l ls ih =>
    have hsum : labelBytes (l :: ls) = l.length + 1 + labelBytes ls := rfl
    rw [labelCode_cons (h l mem_cons_self), hsum, length_cons, length_append,
      ih fun l' hl' => h l' (mem_cons_of_mem _ hl')]
    omega

/-- What the lenient reader keeps of a string, and whole labels. -/
theorem fqdnLabels_prefix (h : b.length ≤ fuel) :
    (∃ rest, b = Nas.labelCode (fqdnLabels fuel b) ++ rest) ∧
      ∀ l ∈ fqdnLabels fuel b, l ≠ [] ∧ l.length ≤ 255 := by
  induction fuel generalizing b with
  | zero =>
    obtain rfl : b = [] := length_eq_zero_iff.1 (Nat.le_zero.1 h)
    exact ⟨⟨[], rfl⟩, fun l hl => absurd hl not_mem_nil⟩
  | succ fuel ih =>
    cases b with
    | nil => exact ⟨⟨[], rfl⟩, fun l hl => absurd hl not_mem_nil⟩
    | cons n b =>
      rw [fqdnLabels]
      split
      · exact ⟨⟨n :: b, rfl⟩, fun l hl => absurd hl not_mem_nil⟩
      case isFalse hn =>
      have hne : n.toNat ≠ 0 := fun h0 => hn (.inl (UInt8.toNat_inj.1 h0))
      have hlt := n.toNat_lt
      rw [length_cons] at h
      have hlen : (b.take n.toNat).length = n.toNat :=
        length_take_of_le (Nat.not_lt.1 fun h => hn (.inr h))
      have htake : b.take n.toNat ≠ [] := length_pos_iff.1 (by omega)
      obtain ⟨⟨rest, hrest⟩, hall⟩ := ih (b := b.drop n.toNat) (by rw [length_drop]; omega)
      refine ⟨⟨rest, ?_⟩, fun l hl => ?_⟩
      · rw [Nas.labelCode_cons htake, hlen, UInt8.ofNat_toNat, List.cons_append, List.append_assoc,
          ← hrest, take_append_drop]
      · grind

theorem fqdnLabels_of_dnnLabels (h : Nas.dnnLabels fuel b = some ls) : fqdnLabels fuel b = ls := by
  induction fuel generalizing b ls with
  | zero =>
    cases b with
    | nil => exact some.inj h
    | cons => cases h
  | succ fuel ih =>
    cases b with
    | nil => exact some.inj h
    | cons n b =>
      grind [dnnLabels, fqdnLabels, map_eq_some_iff]

theorem decodeFQDN_encode_iff (name : Bytes) :
    decodeFQDN (encodeFQDN name) = name ↔ Nas.Labelled name := by
  rw [← decodeDNN_encode_iff, encodeFQDN]
  constructor
  · intro h
    by_cases hname : name = []
    · rw [hname]
      rfl
    obtain ⟨⟨rest, hrest⟩, hall⟩ := fqdnLabels_prefix (Nat.le_refl (encodeDNN name).length)
    unfold decodeFQDN at h
    generalize fqdnLabels (encodeDNN name).length (encodeDNN name) = back at *
    have hne : back ≠ [] := by
      rintro rfl
      exact hname h.symm
    have hjoin := length_intercalate hne
    have hcode := length_labelCode fun l hl => (hall l hl).1
    have hlen := congrArg length hrest
    have hle := length_encodeDNN name
    rw [length_append] at hlen
    rw [h] at hjoin
    obtain rfl : rest = [] := length_eq_zero_iff.1 (by omega)
    simp_all [dnnLabels_labelCode, decodeDNN]
  · grind [decodeFQDN, fqdnLabels_of_dnnLabels, decodeDNN]

/-- A dotted name takes a byte more than its text. -/
def nameSize (name : Bytes) : Nat := if name = [] then 0 else name.length + 1

theorem length_encodeDNN {name : Bytes} (h : Nas.Labelled name) :
    (Nas.encodeDNN name).length = nameSize name := by
  unfold nameSize
  split
  · case isTrue hname =>
    rw [hname]
    rfl
  · case isFalse hname =>
    have hsplit := length_intercalate (splitOn_ne_nil 0x2E name)
    rw [intercalate_splitOn] at hsplit
    rw [hsplit]
    exact length_labelCode fun l hl => (h.resolve_left hname l hl).1

namespace APNDNN

def Fits (a : APNDNN) : Prop := Nas.Labelled a.value
  deriving Decidable

def size (a : APNDNN) : Nat := nameSize a.value

theorem length_encode {a : APNDNN} (h : a.Fits) : a.encode.length = a.size := length_encodeDNN h

theorem decode_encode_iff (a : APNDNN) : decode a.encode = .ok a ↔ a.Fits := by
  obtain ⟨value⟩ := a
  rw [Fits, ← decodeDNN_encode_iff]
  grind [decode, encode, decodeDNN]

end APNDNN

/-! ## Node ID -/

namespace NodeID

/-- The part that the type names is there and whole, and no other part is. -/
def Fits (n : NodeID) : Prop :=
  (n.type = 0 ∧ n.ipv4.isSome ∧ Fits4 n.ipv4 ∧ n.ipv6 = none ∧ n.fqdn = []) ∨
    (n.type = 1 ∧ n.ipv6.isSome ∧ Fits16 n.ipv6 ∧ n.ipv4 = none ∧ n.fqdn = []) ∨
    (n.type = 2 ∧ Nas.Labelled n.fqdn ∧ n.ipv4 = none ∧ n.ipv6 = none)
  deriving Decidable

def size (n : NodeID) : Nat :=
  if n.type = 0 then 5 else if n.type = 1 then 17 else 1 + nameSize n.fqdn

theorem length_encode {n : NodeID} (h : n.Fits) : n.encode.length = n.size := by
  unfold encode size
  rw [length_cons]
  rcases h with ⟨ht, hsome, hfit, -⟩ | ⟨ht, hsome, hfit, -⟩ | ⟨ht, hname, -⟩
  · rw [ht, if_pos rfl, if_pos rfl, family4.length_some hsome hfit]
  · rw [ht, if_neg (by decide), if_pos rfl, if_neg (by decide), if_pos rfl,
      family16.length_some hsome hfit]
  · simp_all [encodeFQDN, length_encodeDNN, Nat.add_comm]

theorem decode_encode_iff (n : NodeID) : decode {} n.encode = .ok n ↔ n.Fits := by
  obtain ⟨type, ipv4, ipv6, fqdn⟩ := n
  have hmask : type &&& 0x0F &&& 0x0F = type &&& 0x0F := and_0F_and_0F type
  unfold encode decode Fits
  dsimp only
  rw [hmask]
  by_cases h0 : type = 0
  · subst h0
    rw [if_pos rfl]
    constructor
    · intro h
      obtain ⟨a, rest, ha, hsplit, h⟩ := le_of_take h
      have hle := family4.length_le_width ipv4
      have hlen := congrArg length hsplit
      rw [length_append, ha] at hlen
      obtain ⟨hsome, hfit⟩ := family4.of_length (show (put4 ipv4).length = 4 by omega)
      obtain ⟨-, -, h6, hname⟩ := NodeID.mk.inj (Except.ok.inj h)
      exact .inl ⟨rfl, hsome, hfit, h6.symm, hname.symm⟩
    · rintro (⟨-, hsome, hfit, rfl, rfl⟩ | ⟨h, -⟩ | ⟨h, -⟩)
      · have hend : put4 ipv4 = put4 ipv4 ++ [] := (append_nil _).symm
        rw [hend, bind_of_ok (take_append (family4.length_some hsome hfit))]
        change Except.ok (NodeID.mk 0 (some (IP.ofSlice (put4 ipv4))) none []) = _
        rw [family4.ofSlice_put hsome hfit]
      · exact absurd h (by decide)
      · exact absurd h (by decide)
  rw [if_neg h0]
  by_cases h1 : type = 1
  · subst h1
    rw [if_pos rfl]
    constructor
    · intro h
      obtain ⟨a, rest, ha, hsplit, h⟩ := le_of_take h
      have hle := family16.length_le_width ipv6
      have hlen := congrArg length hsplit
      rw [length_append, ha] at hlen
      obtain ⟨hsome, hfit⟩ := family16.of_length (show (put16 ipv6).length = 16 by omega)
      obtain ⟨-, h4, -, hname⟩ := NodeID.mk.inj (Except.ok.inj h)
      exact .inr (.inl ⟨rfl, hsome, hfit, h4.symm, hname.symm⟩)
    · rintro (⟨h, -⟩ | ⟨-, hsome, hfit, rfl, rfl⟩ | ⟨h, -⟩)
      · exact absurd h (by decide)
      · have hend : put16 ipv6 = put16 ipv6 ++ [] := (append_nil _).symm
        rw [hend, bind_of_ok (take_append (family16.length_some hsome hfit))]
        change Except.ok (NodeID.mk 1 none (some (IP.ofSlice (put16 ipv6))) []) = _
        rw [family16.ofSlice_put hsome hfit]
      · exact absurd h (by decide)
  rw [if_neg h1]
  by_cases h2 : type = 2
  · subst h2
    rw [if_pos rfl]
    change Except.ok (NodeID.mk 2 none none (decodeFQDN (encodeFQDN fqdn))) = _ ↔ _
    rw [Except.ok.injEq, NodeID.mk.injEq, decodeFQDN_encode_iff]
    constructor <;> simp_all
  rw [if_neg h2]
  refine iff_of_false (fun h => ?_) (by simp [h0, h1, h2])
  -- the type that is read back is not the one that was there, or is none
  split at h
  · cases h
  split at h
  · cases h
  split at h
  · simp_all
  · cases h

end NodeID

/-! ## F-TEID -/

namespace FTEID

/-- With the choose flag there is nothing but the choose id, without it no choose id. -/
def Fits (f : FTEID) : Prop :=
  if f.ch then f.teid = 0 ∧ f.ipv4 = none ∧ f.ipv6 = none ∧ (f.chid = false → f.id = 0)
  else Fits4 f.ipv4 ∧ Fits16 f.ipv6 ∧ f.id = 0
  deriving Decidable

def size (f : FTEID) : Nat :=
  1 + if f.ch then need f.chid 1 else 4 + need f.ipv4.isSome 4 + need f.ipv6.isSome 16

theorem length_encode {f : FTEID} (h : f.Fits) : f.encode.length = f.size := by
  obtain ⟨teid, ipv4, ipv6, ch, chid, id⟩ := f
  unfold encode size
  rw [length_cons, Nat.add_comm]
  cases ch with
  | true => cases chid <;> rfl
  | false =>
    obtain ⟨h4, h6, -⟩ := h
    rw [if_neg Bool.false_ne_true, if_neg Bool.false_ne_true, List.length_append,
      length_append, length_beBytes, family4.length_iff.2 h4, family16.length_iff.2 h6]

theorem flags_back : ∀ v4 v6 ch chid : Bool,
    (flags v4 v6 ch chid &&& 0x01 != 0) = v4 ∧ (flags v4 v6 ch chid &&& 0x02 != 0) = v6 ∧
      (flags v4 v6 ch chid &&& 0x04 != 0) = ch ∧ (flags v4 v6 ch chid &&& 0x08 != 0) = chid := by
  decide

theorem decode_encode_iff (f : FTEID) : decode {} f.encode = .ok f ↔ f.Fits := by
  obtain ⟨teid, ipv4, ipv6, ch, chid, id⟩ := f
  obtain ⟨h4, h6, hch, hchid⟩ := flags_back ipv4.isSome ipv6.isSome ch chid
  have hteid : UInt32.ofNat (beNat (beBytes 4 teid.toNat)) = teid := by
    rw [beNat_beBytes_of_lt teid.toNat_lt, UInt32.ofNat_toNat]
  unfold encode decode Fits
  dsimp only
  rw [h4, h6, hch, hchid]
  cases ch with
  | true =>
    rw [if_pos rfl, if_pos rfl, if_pos rfl]
    cases chid with
    | false =>
      change Except.ok (FTEID.mk 0 none none true false 0) = _ ↔ _
      rw [Except.ok.injEq, FTEID.mk.injEq]
      constructor
      · rintro ⟨ht, hi4, hi6, -, -, hid⟩
        exact ⟨ht.symm, hi4.symm, hi6.symm, fun _ => hid.symm⟩
      · rintro ⟨rfl, rfl, rfl, hid⟩
        exact ⟨rfl, rfl, rfl, rfl, rfl, (hid rfl).symm⟩
    | true =>
      change Except.ok (FTEID.mk 0 none none true true id) = _ ↔ _
      rw [Except.ok.injEq, FTEID.mk.injEq]
      constructor
      · rintro ⟨ht, hi4, hi6, -⟩
        exact ⟨ht.symm, hi4.symm, hi6.symm, fun h => nomatch h⟩
      · rintro ⟨rfl, rfl, rfl, -⟩
        exact ⟨rfl, rfl, rfl, rfl, rfl, rfl⟩
  | false =>
    rw [if_neg Bool.false_ne_true, if_neg Bool.false_ne_true, if_neg Bool.false_ne_true,
      append_assoc, bind_of_ok (take_append (length_beBytes 4 _))]
    rw [hteid]
    constructor
    · intro h
      obtain ⟨v4, rest, hlen, h⟩ := need_le_of_takeIf h
      obtain ⟨v6, rest', hlen', h⟩ := need_le_of_takeIf h
      have hle4 := family4.length_le ipv4
      have hle16 := family16.length_le ipv6
      rw [length_append] at hlen
      dsimp only at hlen'
      have heq4 : (put4 ipv4).length = need ipv4.isSome 4 := by omega
      have heq16 : (put16 ipv6).length = need ipv6.isSome 16 := by omega
      have hid := (FTEID.mk.inj (Except.ok.inj h)).2.2.2.2.2
      exact ⟨family4.length_iff.1 heq4, family16.length_iff.1 heq16, hid.symm⟩
    · rintro ⟨hfit4, hfit16, rfl⟩
      have hend : put16 ipv6 = put16 ipv6 ++ [] := (append_nil _).symm
      rw [bind_of_ok (takeIf_append (family4.length_iff.2 hfit4))]
      rw [hend, bind_of_ok (takeIf_append (family16.length_iff.2 hfit16))]
      rw [family4.or_back hfit4, family16.or_back hfit16]
      rfl

end FTEID

/-! ## UE IP address -/

namespace UEIPAddress

def Fits (u : UEIPAddress) : Prop := Fits4 u.ipv4 ∧ Fits16 u.ipv6
  deriving Decidable

def size (u : UEIPAddress) : Nat :=
  1 + need u.ipv4.isSome 4 + need u.ipv6.isSome 16 + need u.ipv6PrefixDelegationBits.isSome 1 +
    need u.ipv6PrefixLength.isSome 1

theorem length_toList (o : Option UInt8) : o.toList.length = need o.isSome 1 := by
  cases o <;> rfl

theorem length_encode {u : UEIPAddress} (h : u.Fits) : u.encode.length = u.size := by
  unfold encode size
  simp only [length_append, length_cons, length_toList, family4.length_iff.2 h.1,
    family16.length_iff.2 h.2]
  omega

set_option maxRecDepth 4000 in
theorem flags_back : ∀ v6 v4 sd bits ch4 ch6 len : Bool,
    (flags v6 v4 sd bits ch4 ch6 len &&& 0x01 != 0) = v6 ∧
      (flags v6 v4 sd bits ch4 ch6 len &&& 0x02 != 0) = v4 ∧
      (flags v6 v4 sd bits ch4 ch6 len &&& 0x04 != 0) = sd ∧
      (flags v6 v4 sd bits ch4 ch6 len &&& 0x08 != 0) = bits ∧
      (flags v6 v4 sd bits ch4 ch6 len &&& 0x10 != 0) = ch4 ∧
      (flags v6 v4 sd bits ch4 ch6 len &&& 0x20 != 0) = ch6 ∧
      (flags v6 v4 sd bits ch4 ch6 len &&& 0x40 != 0) = len := by
  decide

theorem back1 (o : Option UInt8) :
    ((if o.isSome then some o.toList else none).map fun b => b.headD 0).or none = o := by
  cases o <;> rfl

theorem decode_encode_iff (u : UEIPAddress) : decode {} u.encode = .ok u ↔ u.Fits := by
  obtain ⟨ipv4, ipv6, sd, bits, len, ch4, ch6⟩ := u
  obtain ⟨hf6, hf4, hsd, hbits, hch4, hch6, hlen⟩ :=
    flags_back ipv6.isSome ipv4.isSome sd bits.isSome ch4 ch6 len.isSome
  unfold encode decode
  dsimp only
  rw [hf4, hf6, hsd, hbits, hch4, hch6, hlen, append_assoc, append_assoc]
  have hlbits := length_toList bits
  have hllen := length_toList len
  constructor
  · intro h
    obtain ⟨a, rest, h₁, h⟩ := need_le_of_takeIf h
    obtain ⟨b, rest, h₂, h⟩ := need_le_of_takeIf h
    obtain ⟨c, rest, h₃, h⟩ := need_le_of_takeIf h
    obtain ⟨d, rest, h₄, h⟩ := need_le_of_takeIf h
    have hle4 := family4.length_le ipv4
    have hle16 := family16.length_le ipv6
    rw [length_append, length_append, length_append] at h₁
    dsimp only at h₂ h₃ h₄
    have heq4 : (put4 ipv4).length = need ipv4.isSome 4 := by omega
    have heq16 : (put16 ipv6).length = need ipv6.isSome 16 := by omega
    exact ⟨family4.length_iff.1 heq4, family16.length_iff.1 heq16⟩
  · rintro ⟨hfit4, hfit16⟩
    have hend : len.toList = len.toList ++ [] := (append_nil _).symm
    rw [bind_of_ok (takeIf_append (family4.length_iff.2 hfit4))]
    rw [bind_of_ok (takeIf_append (family16.length_iff.2 hfit16))]
    rw [bind_of_ok (takeIf_append hlbits)]
    rw [hend, bind_of_ok (takeIf_append hllen)]
    dsimp only
    rw [family4.or_back hfit4, family16.or_back hfit16, back1, back1]
    rfl

end UEIPAddress

/-! ## Outer header creation -/

namespace OuterHeaderCreation

/-- What the description asks for is there and whole, and nothing else is. -/
structure Fits (o : OuterHeaderCreation) : Prop where
  teid : hasTEID o.description = false → o.teid = 0
  ipv4 : o.ipv4.isSome = hasIPv4 o.description
  is4 : Fits4 o.ipv4
  ipv6 : o.ipv6.isSome = hasIPv6 o.description
  is16 : Fits16 o.ipv6
  port : hasPort o.description = false → o.port = 0
  ctag : o.ctag.length = need (hasCTAG o.description) 3
  stag : o.stag.length = need (hasSTAG o.description) 3

theorem fits_iff (o : OuterHeaderCreation) :
    o.Fits ↔ ((hasTEID o.description = false → o.teid = 0) ∧
      (o.ipv4.isSome = hasIPv4 o.description ∧ Fits4 o.ipv4) ∧
      (o.ipv6.isSome = hasIPv6 o.description ∧ Fits16 o.ipv6) ∧
      (hasPort o.description = false → o.port = 0) ∧
      o.ctag.length = need (hasCTAG o.description) 3 ∧
      o.stag.length = need (hasSTAG o.description) 3) := by
  constructor
  · rintro ⟨hteid, h4, hfit4, h6, hfit16, hport, hc, hs⟩
    exact ⟨hteid, ⟨h4, hfit4⟩, ⟨h6, hfit16⟩, hport, hc, hs⟩
  · rintro ⟨hteid, ⟨h4, hfit4⟩, ⟨h6, hfit16⟩, hport, hc, hs⟩
    exact ⟨hteid, h4, hfit4, h6, hfit16, hport, hc, hs⟩

instance (o : OuterHeaderCreation) : Decidable o.Fits := decidable_of_iff' _ (fits_iff o)

def size (o : OuterHeaderCreation) : Nat :=
  2 + need (hasTEID o.description) 4 + need (hasIPv4 o.description) 4 +
    need (hasIPv6 o.description) 16 + need (hasPort o.description) 2 +
    need (hasCTAG o.description) 3 + need (hasSTAG o.description) 3

theorem description_back (d : UInt16) :
    d.toUInt8.toUInt16 ||| ((d >>> 8).toUInt8.toUInt16 <<< 8) = d := by
  have hd := d.toNat_lt
  apply UInt16.toNat_inj.1
  simp only [UInt16.toNat_or, UInt16.toNat_shiftLeft, UInt8.toNat_toUInt16, UInt16.toNat_toUInt8,
    UInt16.toNat_shiftRight, UInt16.reduceToNat, Nat.reduceMod, Nat.shiftLeft_eq,
    Nat.shiftRight_eq_div_pow, Nat.reducePow]
  have hhigh : d.toNat / 256 < 256 := Nat.div_lt_of_lt_mul hd
  have hword : d.toNat / 256 * 256 < 65536 := by omega
  rw [Nat.mod_eq_of_lt hhigh, Nat.mod_eq_of_lt hword, Nat.or_comm,
    Nas.lor_of_lt 8 (by omega) (by omega)]
  omega

/-- A number that is written where the description asks for it. -/
theorem length_number (c : Bool) (n v : Nat) :
    (if c then beBytes n v else []).length = need c n := by
  cases c with
  | true => exact length_beBytes n v
  | false => rfl

theorem length_putTag_le (c : Bool) (tag : Bytes) :
    (if c then putTag tag else []).length ≤ need c 3 := by
  cases c with
  | false => exact Nat.le_refl 0
  | true =>
    change (putTag tag).length ≤ 3
    grind [putTag]

variable {tag : Bytes} {ip : Option IP}

theorem putTag_of_length (h : tag.length = 3) : putTag tag = tag := by
  rw [putTag, if_pos (Nat.le_of_eq h.symm), take_of_length_le (Nat.le_of_eq h)]

theorem length_partTag {c : Bool} (h : tag.length = need c 3) :
    (if c then putTag tag else []).length = need c 3 := by
  cases c with
  | false => rfl
  | true =>
    rw [putTag_of_length h]
    exact h

theorem length_encode {o : OuterHeaderCreation} (h : o.Fits) : o.encode.length = o.size := by
  unfold encode size
  simp only [length_append, length_number, family4.length_part h.ipv4 h.is4,
    family16.length_part h.ipv6 h.is16, length_partTag h.ctag, length_partTag h.stag, length_cons,
    length_nil]

/-- What is read of parts that have their lengths. -/
theorem decode_of_lengths {d : UInt16} {p₁ p₂ p₃ p₄ p₅ p₆ : Bytes}
    (h₁ : p₁.length = need (hasTEID d) 4) (h₂ : p₂.length = need (hasIPv4 d) 4)
    (h₃ : p₃.length = need (hasIPv6 d) 16) (h₄ : p₄.length = need (hasPort d) 2)
    (h₅ : p₅.length = need (hasCTAG d) 3) (h₆ : p₆.length = need (hasSTAG d) 3) :
    decode {} (d.toUInt8 :: (d >>> 8).toUInt8 :: (p₁ ++ (p₂ ++ (p₃ ++ (p₄ ++ (p₅ ++ p₆)))))) =
      .ok
        { description := d
          teid := if hasTEID d then UInt32.ofNat (beNat p₁) else 0
          ipv4 := if hasIPv4 d then some (.ofSlice p₂) else none
          ipv6 := if hasIPv6 d then some (.ofSlice p₃) else none
          port := if hasPort d then UInt16.ofNat (beNat p₄) else 0
          ctag := if hasCTAG d then p₅ else []
          stag := if hasSTAG d then p₆ else [] } := by
  have hend : p₆ = p₆ ++ [] := (append_nil _).symm
  unfold decode
  dsimp only
  rw [description_back, bind_of_ok (takeIf_append h₁)]
  rw [bind_of_ok (takeIf_append h₂)]
  rw [bind_of_ok (takeIf_append h₃)]
  rw [bind_of_ok (takeIf_append h₄)]
  rw [bind_of_ok (takeIf_append h₅)]
  rw [hend, bind_of_ok (takeIf_append h₆), append_nil]
  cases hasTEID d <;> cases hasIPv4 d <;> cases hasIPv6 d <;> cases hasPort d <;>
    cases hasCTAG d <;> cases hasSTAG d <;> rfl

theorem tag_back {c : Bool} (hlen : (if c then putTag tag else []).length = need c 3) :
    (if c then (if c then putTag tag else []) else []) = tag ↔ tag.length = need c 3 := by
  cases c with
  | false =>
    grind
  | true =>
    constructor
    · intro h
      rw [← h]
      exact hlen
    · exact putTag_of_length

/-- The bytes of a description with its parts. -/
theorem encode_eq (o : OuterHeaderCreation) :
    o.encode = o.description.toUInt8 :: (o.description >>> 8).toUInt8 ::
      ((if hasTEID o.description then beBytes 4 o.teid.toNat else []) ++
        ((if hasIPv4 o.description then put4 o.ipv4 else []) ++
          ((if hasIPv6 o.description then put16 o.ipv6 else []) ++
            ((if hasPort o.description then beBytes 2 o.port.toNat else []) ++
              ((if hasCTAG o.description then putTag o.ctag else []) ++
                (if hasSTAG o.description then putTag o.stag else [])))))) := by
  simp only [encode, append_assoc, cons_append, nil_append]

theorem decode_encode_iff (o : OuterHeaderCreation) : decode {} o.encode = .ok o ↔ o.Fits := by
  obtain ⟨d, teid, ipv4, ipv6, port, ctag, stag⟩ := o
  have hteid : UInt32.ofNat (beNat (beBytes 4 teid.toNat)) = teid := by
    rw [beNat_beBytes_of_lt teid.toNat_lt, UInt32.ofNat_toNat]
  have hport : UInt16.ofNat (beNat (beBytes 2 port.toNat)) = port := by
    rw [beNat_beBytes_of_lt port.toNat_lt, UInt16.ofNat_toNat]
  have h₁ := length_number (hasTEID d) 4 teid.toNat
  have h₄ := length_number (hasPort d) 2 port.toNat
  rw [encode_eq]
  dsimp only
  constructor
  · intro h
    have hlens : (if hasIPv4 d then put4 ipv4 else []).length = need (hasIPv4 d) 4 ∧
        (if hasIPv6 d then put16 ipv6 else []).length = need (hasIPv6 d) 16 ∧
        (if hasCTAG d then putTag ctag else []).length = need (hasCTAG d) 3 ∧
        (if hasSTAG d then putTag stag else []).length = need (hasSTAG d) 3 := by
      have hread := h
      unfold decode at hread
      dsimp only at hread
      rw [description_back] at hread
      obtain ⟨a, rest, l₁, hread⟩ := need_le_of_takeIf hread
      obtain ⟨a, rest, l₂, hread⟩ := need_le_of_takeIf hread
      obtain ⟨a, rest, l₃, hread⟩ := need_le_of_takeIf hread
      obtain ⟨a, rest, l₄, hread⟩ := need_le_of_takeIf hread
      obtain ⟨a, rest, l₅, hread⟩ := need_le_of_takeIf hread
      obtain ⟨a, rest, l₆, hread⟩ := need_le_of_takeIf hread
      have hle₂ := family4.length_part_le (hasIPv4 d) ipv4
      have hle₃ := family16.length_part_le (hasIPv6 d) ipv6
      have hle₅ := length_putTag_le (hasCTAG d) ctag
      have hle₆ := length_putTag_le (hasSTAG d) stag
      simp only [length_append] at l₁
      dsimp only at l₂ l₃ l₄ l₅ l₆
      omega
    obtain ⟨h₂, h₃, h₅, h₆⟩ := hlens
    rw [decode_of_lengths h₁ h₂ h₃ h₄ h₅ h₆, Except.ok.injEq, mk.injEq] at h
    obtain ⟨-, e₁, e₂, e₃, e₄, e₅, e₆⟩ := h
    obtain ⟨hsome4, hfit4⟩ := (family4.part_back h₂).1 e₂
    obtain ⟨hsome6, hfit6⟩ := (family16.part_back h₃).1 e₃
    refine ⟨fun hno => ?_, hsome4, hfit4, hsome6, hfit6, fun hno => ?_, (tag_back h₅).1 e₅,
      (tag_back h₆).1 e₆⟩
    · rw [← e₁]
      exact if_neg (eq_false_iff.1 hno)
    · rw [← e₄]
      exact if_neg (eq_false_iff.1 hno)
  · rintro ⟨f₁, f₂, f₃, f₄, f₅, f₆, f₇, f₈⟩
    have h₂ := family4.length_part f₂ f₃
    have h₃ := family16.length_part f₄ f₅
    have h₅ := length_partTag f₇
    have h₆ := length_partTag f₈
    rw [decode_of_lengths h₁ h₂ h₃ h₄ h₅ h₆, Except.ok.injEq, mk.injEq]
    refine ⟨rfl, ?_, (family4.part_back h₂).2 ⟨f₂, f₃⟩, (family16.part_back h₃).2 ⟨f₄, f₅⟩, ?_, (tag_back h₅).2 f₇,
      (tag_back h₆).2 f₈⟩
    · simp_all
    · simp_all

end OuterHeaderCreation

/-! ## Bit rates -/

namespace MBR

def Fits (m : MBR) : Prop := m.ul.toNat < 2 ^ 40 ∧ m.dl.toNat < 2 ^ 40
  deriving Decidable

def size (_ : MBR) : Nat := 10

theorem length_encU40BE (v : UInt64) : (encU40BE v).length = 5 := length_beBytes 5 _

theorem length_encode (m : MBR) : m.encode.length = m.size := by
  rw [encode, length_append, length_encU40BE, length_encU40BE, size]

/-- A rate that does not fit saturates. -/
theorem rate_back (v : UInt64) :
    UInt64.ofNat (beNat (encU40BE v)) = v ↔ v.toNat < 2 ^ 40 := by
  have hmin : min v.toNat (2 ^ 40 - 1) < 256 ^ 5 := by
    omega
  rw [encU40BE, beNat_beBytes_of_lt hmin, ← UInt64.toNat_inj, UInt64.toNat_ofNat',
    Nat.mod_eq_of_lt (Nat.lt_trans hmin (by decide))]
  omega

theorem decode_encode_iff (m : MBR) : decode m.encode = .ok m ↔ m.Fits := by
  obtain ⟨ul, dl⟩ := m
  have hend : encU40BE dl = encU40BE dl ++ [] := (append_nil _).symm
  unfold decode encode
  dsimp only
  rw [bind_of_ok (take_append (length_encU40BE ul))]
  dsimp only
  rw [hend, bind_of_ok (take_append (length_encU40BE dl))]
  dsimp only
  change Except.ok _ = _ ↔ _
  rw [Except.ok.injEq, MBR.mk.injEq]
  exact and_congr (rate_back ul) (rate_back dl)

end MBR

/-! ## Identities and addresses -/

/-- An identity or an address is decoded to what was encoded if and only if its parts are those that
its type, its flags or its description name. -/
theorem identity_decoded_iff (n : NodeID) (s : FSEID) (t : FTEID) (u : UEIPAddress)
    (o : OuterHeaderCreation) :
    (NodeID.decode {} n.encode = .ok n ↔ n.Fits) ∧
      (FSEID.decode {} s.encode = .ok s ↔ s.Fits) ∧
      (FTEID.decode {} t.encode = .ok t ↔ t.Fits) ∧
      (UEIPAddress.decode {} u.encode = .ok u ↔ u.Fits) ∧
      (OuterHeaderCreation.decode {} o.encode = .ok o ↔ o.Fits) :=
  ⟨NodeID.decode_encode_iff n, FSEID.decode_encode_iff s, FTEID.decode_encode_iff t,
    UEIPAddress.decode_encode_iff u, decode_encode_iff o⟩

/-- An IPv4 endpoint that the peer is to choose comes back without its family. -/
def chosenEndpoint : FTEID := { ipv4 := some (.ofSlice [10, 0, 0, 1]), ch := true }

/-- A header of which the IPv4 address is missing is not read at all. -/
example :
    OuterHeaderCreation.decode {} (OuterHeaderCreation.encode
      { description := OuterHeaderCreation.ohcDescGTPUUDPIPv4, teid := 7 }) =
        .error .bufferTooShort := by decide

theorem family_lost :
    ¬((∀ n : NodeID, NodeID.decode {} n.encode = .ok n) ∧
      (∀ f : FSEID, FSEID.decode {} f.encode = .ok f) ∧
      (∀ f : FTEID, FTEID.decode {} f.encode = .ok f) ∧
      (∀ u : UEIPAddress, UEIPAddress.decode {} u.encode = .ok u) ∧
      ∀ o : OuterHeaderCreation, OuterHeaderCreation.decode {} o.encode = .ok o) := by
  rintro ⟨-, -, hall, -⟩
  have hback : FTEID.decode {} chosenEndpoint.encode = .ok { ch := true } := by decide
  have heq := Except.ok.inj (hback.symm.trans (hall chosenEndpoint))
  have hfamily := congrArg FTEID.ipv4 heq
  cases hfamily

end MmtCore.Pfcpgen
