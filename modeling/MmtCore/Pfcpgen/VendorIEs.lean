import MmtCore.Pfcpgen.Definitions
import MmtCore.Pfcpgen.Wire

/-!
# Enterprise-specific elements

The reader of an element clears the vendor bit, and the dispatchers switch on what is left of the
type.  An enterprise-specific element is passed over just where no member of the group has the
type that its low fifteen bits spell.
-/

namespace MmtCore.Pfcpgen

open MmtCore.Lib MmtCore.Pfcp List Prod Members IETypeDef Message RawIE Nat Except

/-! ## Where an element is put -/

/-- The groups that the reader of a group comes to, with their depth. -/
inductive Within : Members → Members → Prop where
  | refl (ms : Members) : Within ms ms
  | step {ms gs target : Members} {c : UInt16} {e : IEEntry} {name : String} {code : UInt16} :
    ¬IsVendor c → ms.find c = some (e, .grouped name code gs) → Within gs target →
      Within ms target

/-- The second string is the first with an element put between two others, in a group of the
members `target`; the elements that it is put into have their length again. -/
inductive Inserted (w : RawIE) : Members → Members → Bytes → Bytes → Prop where
  | here {ms : Members} (pre : List RawIE) (post : Bytes) :
    Inserted w ms ms (pre.flatMap RawIE.bytes ++ post)
      (pre.flatMap RawIE.bytes ++ (w.bytes ++ post))
  | inside {ms gs target : Members} (pre : List RawIE) (post : Bytes) {e : IEEntry} {name : String}
      {code : UInt16} {g g' : RawIE} :
    ¬IsVendor g.type → g'.type = g.type → ms.find g.type = some (e, .grouped name code gs) →
      Inserted w gs target g.body g'.body →
      Inserted w ms target (pre.flatMap RawIE.bytes ++ (g.bytes ++ post))
        (pre.flatMap RawIE.bytes ++ (g'.bytes ++ post))

variable {ms gs target : Members} {w : RawIE} {b b' : Bytes}

/-- The loop of a group. -/
def Members.decode (ms : Members) (ctxName : String) (s : ms.Val) (b : Bytes) :
    Except CodecErr ms.Val :=
  forEachIE (fun s ie => ms.dispatch ctxName s ie) s b

theorem IETypeDef.decode_grouped (name : String) (code : UInt16) (s : ms.Val) (b : Bytes) :
    (IETypeDef.grouped name code ms).decode s b = ms.decode name s b := rfl

/-! ## Elements that are passed over -/

namespace Field

variable {V : Type} {decode : V → Bytes → Except CodecErr V} {z : V} {v v' : Bytes}

theorem put_congr (h : ∀ y, decode y v' = decode y v) (k : Field) (x : k.Slot V) :
    k.put decode z x v' = k.put decode z x v := by
  cases k with
  | slice => rw [put, put, h]
  | value => exact h x
  | pointer => rw [put, put, h]

/-- The zero of a member takes one value as the value alone would be taken. -/
theorem put_ne (k : Field) {x : V} (h : decode z v = .ok x) (hne : decode z v' ≠ .ok x) :
    ∃ s, k.put decode z (k.zero z) v = .ok s ∧ k.put decode z (k.zero z) v' ≠ .ok s := by
  cases k with
  | slice =>
    refine ⟨([x] : List V), by rw [put, h]; rfl, fun h' => ?_⟩
    obtain ⟨y, hy, hyx⟩ := ok_of_map h'
    rw [(cons.inj hyx).1] at hy
    exact hne hy
  | value => exact ⟨x, h, hne⟩
  | pointer =>
    refine ⟨(some x : Option V), by rw [put, h]; rfl, fun h' => ?_⟩
    obtain ⟨y, hy, hyx⟩ := ok_of_map h'
    rw [Option.some.inj hyx] at hy
    exact hne hy

end Field

namespace Members

variable {c : UInt16} {e : IEEntry} {t : IETypeDef} {ie ie' : DecodedIE}

/-- Two elements of one type that the member takes alike. -/
theorem dispatch_congr (hfind : ms.find c = some (e, t)) (htype : ie.type = c)
    (htype' : ie'.type = c) (h : ∀ y, t.decode y ie'.value = t.decode y ie.value)
    (ctxName : String) (s : ms.Val) :
    ms.dispatch ctxName s ie' = ms.dispatch ctxName s ie := by
  induction ms using rec (motive_1 := fun _ => True) with
  | single | grouped => trivial
  | nil => rfl
  | cons e' t' rest _ ih =>
    obtain ⟨x, s⟩ := s
    rw [find] at hfind
    rw [dispatch, dispatch, htype, htype']
    by_cases hc : c = t'.typeCode
    · grind [Field.put_congr]
    · rw [if_neg hc] at hfind
      rw [if_neg hc, if_neg hc, ih hfind]

end Members

/-- An element whose type no member has makes no difference where it is put. -/
theorem decode_of_inserted (h : Inserted w ms target b b')
    (hw : readType w.type ∉ target.codes) (ctxName : String) (s : ms.Val) :
    ms.decode ctxName s b' = ms.decode ctxName s b := by
  induction h generalizing ctxName with
  | here pre post =>
    unfold Members.decode
    rw [forEachIE_flatMap, forEachIE_flatMap]
    refine bind_congr fun s => ?_
    rw [forEachIE_bytes, bind_of_ok (dispatch_of_not_mem ctxName s hw)]
  | @inside ms gs target pre post e name code g g' hg htype hfind _ ih =>
    have hread : g.decoded.type = g.type := if_neg hg
    have hread' : g'.decoded.type = g.type := by
      rw [← htype]
      exact if_neg (htype ▸ hg)
    unfold Members.decode
    rw [forEachIE_flatMap, forEachIE_flatMap]
    refine bind_congr fun s => ?_
    have hdecode : ∀ y, (IETypeDef.grouped name code gs).decode y g'.decoded.value =
        (IETypeDef.grouped name code gs).decode y g.decoded.value := fun y =>
      (decode_grouped name code y g'.body).trans
        ((ih hw name y).trans (decode_grouped name code y g.body).symm)
    rw [forEachIE_bytes, forEachIE_bytes, dispatch_congr hfind hread hread' hdecode]

/-! ## Elements that are taken for others -/

/-- A structured element without a minimal length may take an empty body. -/
def Layout.tells : Layout → Bool
  | .structured minLength _ => decide (0 < minLength)
  | _ => true

mutual

/-- Every element tells some body from none. -/
def IETypeDef.tells : IETypeDef → Bool
  | .single _ _ l => l.tells
  | .grouped _ _ ms => ms.tells

def Members.tells : Members → Bool
  | .nil => true
  | .cons _ t rest => t.tells && rest.tells

end

theorem take_nil {n : Nat} (h : 0 < n) : take n [] = .error .bufferTooShort := by
  rw [take, takeBytes, if_neg (by rw [length_nil]; omega)]

theorem GoType.decode_tells (t : GoType) :
    ∃ body : Bytes, body.length ≤ 1 ∧ t.decode t.zero body ≠ .ok t.zero := by
  cases t with
  | APNDNN => exact ⟨[0], Nat.le_refl 1, fun h => nomatch h⟩
  | _ => exact ⟨[], zero_le 1, fun h => nomatch h⟩

theorem Layout.decode_tells {l : Layout} (h : l.tells = true) :
    ∃ body : Bytes, body.length ≤ 1 ∧ l.decode l.zero body ≠ .ok l.zero := by
  cases l with
  | container minLength =>
    refine ⟨[1], Nat.le_refl 1, fun hok => ?_⟩
    by_cases hlen : 1 < minLength
    · rw [show (container minLength).decode (container minLength).zero [1] =
        .error .bufferTooShort from if_pos hlen] at hok
      cases hok
    · rw [show (container minLength).decode (container minLength).zero [1] = .ok [1] from
        if_neg hlen] at hok
      cases ok.inj hok
  | bitField => exact ⟨[], zero_le 1, fun h => nomatch h⟩
  | structured minLength fields =>
    refine ⟨[], zero_le 1, fun hok => ?_⟩
    have hshort : (structured minLength fields).decode (structured minLength fields).zero [] =
        .error .bufferTooShort := if_pos (of_decide_eq_true h)
    rw [hshort] at hok
    cases hok
  | flagConditional spare fields =>
    refine ⟨[], zero_le 1, fun hok => ?_⟩
    obtain ⟨r, hr, -⟩ := ok_of_bind hok
    rw [take_nil (by split <;> decide)] at hr
    cases hr
  | runtimeAlias t => exact t.decode_tells

theorem IETypeDef.decode_tells {t : IETypeDef} (h : t.tells = true) :
    ∃ body : Bytes, body.length ≤ 1 ∧ t.decode t.zero body ≠ .ok t.zero := by
  cases t with
  | single name code l => exact l.decode_tells h
  | grouped name code ms =>
    refine ⟨[0], Nat.le_refl 1, ?_⟩
    have hread : decodeIE [0] = .error .bufferTooShort := rfl
    change ms.decode name ms.zero [0] ≠ .ok ms.zero
    rw [Members.decode, forEachIE, forEachRecord_fail (List.cons_ne_nil 0 []) hread]
    exact fun h => nomatch h

theorem Members.dispatch_tells {c : UInt16} (hmem : c ∈ ms.codes) (h : ms.tells = true) :
    ∃ body : Bytes, body.length ≤ 1 ∧
      ∀ ctxName eid, ms.dispatch ctxName ms.zero ⟨c, eid, body⟩ ≠ .ok ms.zero := by
  induction ms using rec (motive_1 := fun _ => True) with
  | single | grouped => trivial
  | nil => cases hmem
  | cons e t rest _ ih =>
    rw [tells, Bool.and_eq_true] at h
    by_cases hc : c = t.typeCode
    · obtain ⟨body, hlen, hbody⟩ := decode_tells h.1
      refine ⟨body, hlen, fun ctxName eid hok => ?_⟩
      obtain ⟨x, hput, hx⟩ := (dispatch_head hc).1 hok
      rw [← (mk.inj hx).1] at hput
      cases hk : e.field with
      | slice | pointer =>
        rw [hk] at hput
        obtain ⟨y, -, hy⟩ := ok_of_map hput
        cases hy
      | value =>
        rw [hk] at hput
        exact hbody hput
    · obtain ⟨body, hlen, hbody⟩ := ih ((mem_cons.1 hmem).resolve_left hc) h.2
      refine ⟨body, hlen, fun ctxName eid hok => hbody ctxName eid ?_⟩
      obtain ⟨s, hs, heq⟩ := (dispatch_tail hc).1 hok
      rw [← (mk.inj heq).2] at hs
      exact hs

namespace Members

variable {c : UInt16} {e : IEEntry} {t : IETypeDef}

/-- A member that takes two values apart from each other. -/
theorem dispatch_ne (hfind : ms.find c = some (e, t)) {v v' : Bytes} {x : t.Val}
    (h : t.decode t.zero v = .ok x) (hne : t.decode t.zero v' ≠ .ok x) (ctxName : String)
    (eid : UInt32) :
    ∃ s, ms.dispatch ctxName ms.zero ⟨c, eid, v⟩ = .ok s ∧
      ms.dispatch ctxName ms.zero ⟨c, eid, v'⟩ ≠ .ok s := by
  induction ms using rec (motive_1 := fun _ => True) with
  | single | grouped => trivial
  | nil => cases hfind
  | cons e' t' rest _ ih =>
    rw [find] at hfind
    by_cases hc : c = t'.typeCode
    · rw [if_pos hc] at hfind
      cases hfind
      obtain ⟨s, hs, hs'⟩ := e.field.put_ne h hne
      refine ⟨(s, rest.zero), (dispatch_head hc).2 ⟨s, hs, rfl⟩, fun hok => hs' ?_⟩
      obtain ⟨y, hy, heq⟩ := (dispatch_head hc).1 hok
      rw [(mk.inj heq).1]
      exact hy
    · rw [if_neg hc] at hfind
      obtain ⟨s, hs, hs'⟩ := ih hfind
      refine ⟨(e'.field.zero t'.zero, s), (dispatch_tail hc).2 ⟨s, hs, rfl⟩, fun hok => hs' ?_⟩
      obtain ⟨s', hs', heq⟩ := (dispatch_tail hc).1 hok
      rw [(mk.inj heq).2]
      exact hs'

end Members

/-! ### Groups in groups -/

mutual

def IETypeDef.depth : IETypeDef → Nat
  | .single .. => 0
  | .grouped _ _ ms => ms.depth + 1

def Members.depth : Members → Nat
  | .nil => 0
  | .cons _ t rest => max t.depth rest.depth

end

theorem Members.of_find {c : UInt16} {e : IEEntry} {t : IETypeDef}
    (hfind : ms.find c = some (e, t)) :
    t.depth ≤ ms.depth ∧ (ms.tells = true → t.tells = true) := by
  induction ms using rec (motive_1 := fun _ => True) with
  | single | grouped => trivial
  | nil => cases hfind
  | cons e' t' rest _ ih =>
    rw [find] at hfind
    rw [depth, tells, Bool.and_eq_true]
    grind

theorem RawIE.length_bytes (e : RawIE) : e.bytes.length = e.length + 4 := by
  unfold bytes length
  grind [length_putUint16, length_beBytes]

/-- Where some member has the type that is read, an element of that type can be put so that the
group decodes to something else. -/
theorem exists_inserted {t : UInt16} (ht : IsVendor t) (h : Within ms target)
    (hmem : readType t ∈ target.codes) (htells : ms.tells = true) (hdepth : ms.depth ≤ 1000) :
    ∃ w b b', w.type = t ∧ Inserted w ms target b b' ∧ b.length ≤ b'.length ∧
      b'.length ≤ 9 + 4 * ms.depth ∧ ∀ ctxName, ∃ s, ms.decode ctxName ms.zero b = .ok s ∧
        ms.decode ctxName ms.zero b' ≠ .ok s := by
  induction h with
  | refl ms =>
    obtain ⟨body, hbody, hne⟩ := dispatch_tells hmem htells
    let w : RawIE := ⟨t, 0, body, by rw [if_pos ht]; omega⟩
    have hlen : (w.bytes ++ []).length ≤ 9 + 4 * ms.depth := by
      rw [List.append_nil, w.length_bytes, RawIE.length, if_pos ht]
      change body.length + 4 + 4 ≤ _
      omega
    refine ⟨w, _, _, rfl, .here [] [], zero_le _, hlen, fun ctxName => ⟨ms.zero, rfl, ?_⟩⟩
    change ms.decode ctxName ms.zero (w.bytes ++ []) ≠ _
    rw [List.append_nil, Members.decode, forEachIE_one]
    exact hne ctxName _
  | @step ms gs target c e name code hc hfind _ ih =>
    obtain ⟨hle, htell⟩ := of_find hfind
    rw [IETypeDef.depth] at hle
    obtain ⟨w, b, b', hw, hins, hb, hb', hdec⟩ := ih hmem (htell htells) (by omega)
    have hfits : ∀ v : Bytes, v.length ≤ b'.length →
        v.length + (if IsVendor c then 4 else 0) ≤ 0xFFFF := by
      intro v hv
      rw [if_neg hc]
      omega
    let g : RawIE := ⟨c, 0, b, hfits b hb⟩
    let g' : RawIE := ⟨c, 0, b', hfits b' (Nat.le_refl _)⟩
    have hlen : ∀ e : RawIE, e.type = c → (e.bytes ++ []).length = e.body.length + 4 := by
      intro e he
      rw [List.append_nil, e.length_bytes, RawIE.length, he, if_neg hc]
    have hread : ∀ e : RawIE, e.type = c → e.decoded = ⟨c, 0, e.body⟩ := by
      intro e he
      rw [decoded, readType, he, if_neg hc, if_neg hc]
    have hinside : Inserted w ms target ([].flatMap bytes ++ (g.bytes ++ []))
        ([].flatMap bytes ++ (g'.bytes ++ [])) := .inside [] [] hc rfl hfind hins
    refine ⟨w, _, _, hw, hinside, ?_, ?_, fun ctxName => ?_⟩
    · grind
    · grind
    · obtain ⟨x, hx, hx'⟩ := hdec name
      change ∃ s, ms.decode ctxName ms.zero (g.bytes ++ []) = _ ∧
        ms.decode ctxName ms.zero (g'.bytes ++ []) ≠ _
      rw [List.append_nil, List.append_nil, Members.decode, Members.decode, forEachIE_one,
        forEachIE_one, hread g rfl, hread g' rfl]
      exact dispatch_ne hfind ((decode_grouped name code _ b).trans hx)
        (fun h => hx' ((decode_grouped name code _ b').symm.trans h)) ctxName 0

/-! ## Messages -/

theorem messages_tell {d : MessageDef} (hd : d ∈ messages) :
    d.ies.tells = true ∧ d.ies.depth ≤ 1000 := by
  have hall : messages.all (fun d => d.ies.tells && decide (d.ies.depth ≤ 1000)) = true := by
    decide +kernel
  simp_all

variable {d : MessageDef}

theorem Message.decode_eq (hne : d.ies.isEmpty = false) (h : Header) (payload : Bytes) :
    Message.decode d h payload =
      (d.ies.decode d.name d.ies.zero payload).map (Message.received h) := by
  rw [decode, hne]
  rfl

theorem Message.decode_congr {h h' : Header} {payload payload' : Bytes}
    (hseid : h'.seid = h.seid) (hseq : h'.sequenceNumber = h.sequenceNumber)
    (hprio : h'.priority = h.priority)
    (hies : d.ies.decode d.name d.ies.zero payload' = d.ies.decode d.name d.ies.zero payload) :
    Message.decode d h' payload' = Message.decode d h payload := by
  have hreceived : received (d := d) h' = received h := by
    funext ies
    simp only [received, hseid, hseq, hprio]
  grind [decode_eq, decode]

/-- In a group of a message, the elements of a vendor type make no difference just when the low
fifteen bits of the type are the type of no member of the group. -/
theorem vendor_ies_ignored (hd : d ∈ messages) (htarget : Within d.ies target) {t : UInt16}
    (ht : IsVendor t) :
    (∀ w : RawIE, w.type = t → ∀ payload payload', Inserted w d.ies target payload payload' →
      ∀ (h : Header) (length : UInt16), h.version = 1 → h.messageType = d.messageType →
        decodePFCPMessage messages (({ h with length } : Header).encode ++ payload') =
          decodePFCPMessage messages (h.encode ++ payload)) ↔
      t &&& 0x7FFF ∉ target.codes := by
  have hread : readType t = t &&& 0x7FFF := if_pos ht
  rw [← hread]
  constructor
  · intro hall hmem
    obtain ⟨htells, hdepth⟩ := messages_tell hd
    obtain ⟨w, b, b', hw, hins, -, -, hdec⟩ := exists_inserted ht htarget hmem htells hdepth
    obtain ⟨s, hs, hs'⟩ := hdec d.name
    let h : Header := ⟨1, false, false, d.hasSEID, d.messageType, 0, 0, 0, 0⟩
    have hsame := hall w hw b b' hins h 0 rfl rfl
    rw [decodePFCPMessage_encode nodup_messageType hd rfl rfl,
      decodePFCPMessage_encode nodup_messageType hd rfl rfl] at hsame
    have hne : d.ies.isEmpty = false := by
      cases hies : d.ies with
      | nil =>
        rw [hies] at htarget
        cases htarget with
        | refl => cases hmem
        | step _ hfind _ => cases hfind
      | cons => rfl
    rw [decode_eq hne, decode_eq hne, hs] at hsame
    obtain ⟨m, hm, heq⟩ := ok_of_map hsame
    obtain ⟨s', hs'', hm⟩ := ok_of_map hm
    have hies := congrArg ies (hm.trans (eq_of_heq (Sigma.mk.inj heq).2))
    rw [hs''] at hs'
    exact hs' (congrArg ok hies)
  · intro hmem w hw payload payload' hins h length hversion htype
    subst hw
    rw [decodePFCPMessage_encode nodup_messageType hd hversion htype,
      decodePFCPMessage_encode (h := { h with length := length }) nodup_messageType hd hversion
        htype]
    refine congrArg (Except.map (Sigma.mk d)) ?_
    exact decode_congr rfl rfl rfl (decode_of_inserted hins hmem d.name d.ies.zero)

/-- A vendor type that no member shadows, before the recovery time stamp of a heartbeat. -/
def unheard : RawIE := ⟨0x8001, 10415, [7], by decide⟩

def timeStamp : RawIE := ⟨96, 0, [0, 0, 0, 5], by decide⟩

theorem vendor_ies_ignored_heartbeat :
    decodePFCPMessage messages
        ((⟨1, false, false, false, 2, 21, 0, 9, 0⟩ : Header).encode ++
          (unheard.bytes ++ timeStamp.bytes)) =
      decodePFCPMessage messages
        ((⟨1, false, false, false, 2, 12, 0, 9, 0⟩ : Header).encode ++ timeStamp.bytes) :=
  (vendor_ies_ignored (d := heartbeatResponse) (by simp [messages]) (.refl _) (t := 0x8001)
    (by decide)).2 (by decide) unheard rfl _ _ (.here [] timeStamp.bytes) ⟨1, false, false, false, 2, 12, 0, 9, 0⟩ 21
      rfl rfl

/-- A vendor type that is read as the recovery time stamp. -/
def shadowing : RawIE := ⟨0x8060, 10415, [0, 0, 0, 7], by decide⟩

/-- The heartbeat response `2002000c000009000060000400000005` with the element
`80600008000028af00000007` after it has another time stamp. -/
theorem vendor_taken_for_time_stamp :
    ¬∀ d ∈ messages, ∀ target, Within d.ies target → ∀ w : RawIE, IsVendor w.type →
      ∀ payload payload', Inserted w d.ies target payload payload' →
        ∀ (h : Header) (length : UInt16), h.version = 1 → h.messageType = d.messageType →
          decodePFCPMessage messages (({ h with length } : Header).encode ++ payload') =
            decodePFCPMessage messages (h.encode ++ payload) := by
  intro h
  have hsame := h heartbeatResponse (by simp [messages]) _ (.refl _) shadowing (by decide) _ _
    (.here [timeStamp] []) ⟨1, false, false, false, 2, 12, 0, 9, 0⟩ 24 rfl rfl
  have hpayload := congrArg (Except.map fun m => m.2.payload) hsame
  revert hpayload
  decide

end MmtCore.Pfcpgen
