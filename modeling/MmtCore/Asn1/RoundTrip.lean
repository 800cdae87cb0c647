import MmtCore.Asn1.Marshal
import MmtCore.Asn1.StringTrips

/-!
# Marshalling and back

A value comes back from what is written for it if it is carried (`Ty.Carried`): what the codec
writes for some others cannot be told from what it writes for a third, or is not what the decoder
expects there.
-/

namespace MmtCore.Asn1

open MmtCore.Lib List

/-! ## Values -/

namespace Slot

variable {α : Type} {b : Bool}

theorem eq_full {s : Slot b α} {x : α} (h : s.get? = some x) : s = full b x := by
  cases b with
  | true => exact h
  | false => exact Option.some.inj h

theorem eq_zero {s : Slot b α} (z : α) (h : s.get? = none) : s = zero b z := by
  cases b with
  | true => exact h
  | false => cases h

end Slot

mutual

/-- No mandatory component is missing, and every choice is made. -/
def Ty.Whole : (t : Ty) → t.Val → Prop
  | .seqOf elem, (l : List elem.Val) => ∀ x ∈ l, elem.Whole x
  | .sequence _ fields, vs => fields.Whole vs
  | .choice _ _ alts, v => 0 < v.1 ∧ alts.WholeAlt (v.1 - 1).toNat v.2
  | .bool, _ | .int, _ | .string, _ | .octets, _ | .bitString, _ => True

def Fields.Whole : (fs : Fields) → fs.Vals → Prop
  | .nil, _ => True
  | .cons info t rest, vs =>
    (info.tag.isExt = false → info.tag.optional = false → vs.1.get?.isSome) ∧
      (∀ x, vs.1.get? = some x → t.Whole x) ∧ rest.Whole vs.2

def Fields.WholeAlt : (alts : Fields) → Nat → alts.Vals → Prop
  | .nil, _, _ => False
  | .cons _ t _, 0, vs => ∃ x, vs.1.get? = some x ∧ t.Whole x
  | .cons _ _ rest, i + 1, vs => rest.WholeAlt i vs.2

end

/-- The number may be any of 64 bits; nothing is written for it. -/
def FieldMeta.FullRange (tag : FieldMeta) : Prop :=
  tag.value = .both Int64.minValue Int64.maxValue

mutual

/-- What is written for the value is read as the value.  That is not so
* for a number with all of 64 bits for its range, other than the least,
* for characters that have more bits than are written for them,
* for a string that does not have its fixed size,
* for bit strings with other bytes than their bits need,
* for a sequence with extensions none of which is there,
* where a pointer that is not optional is nil,
* for a choice with alternatives other than that which is chosen, and
* where the table does not choose the alternative by the id before it. -/
def Ty.Carried (aligned : Bool) : (t : Ty) → FieldMeta → t.Val → Prop
  | .bool, _, _ | .octets, _, _ => True
  | .int, tag, v => tag.FullRange → v = Int64.minValue
  | .string, tag, (s : Bytes) =>
    (∀ c ∈ s, c.toNat < 2 ^ effectiveBits aligned 7 s.length) ∧
      ∀ r, rootSize tag.sizeExt tag.size s.length = some r → r.rng = 1 → s.length = r.lb
  | .bitString, _, bs => BitString.Canonical bs
  | .seqOf elem, _, (l : List elem.Val) => ∀ x ∈ l, elem.Carried aligned {} x
  | .sequence _ fields, _, vs =>
    (0 < fields.extCount → true ∈ fields.extPresence vs) ∧
      fields.Carried aligned fields.idField 0 vs
  | .choice _ _ alts, _, v => alts.CarriedAlt aligned (v.1 - 1).toNat v.2

/-- The fields, from the id that has been read before them. -/
def Fields.Carried (aligned : Bool) (kind : IdField) : (fs : Fields) → Int → fs.Vals → Prop
  | .nil, _, _ => True
  | .cons info t rest, id, vs =>
    (info.tag.isExt = false → info.tag.optional = false → vs.1.get?.isSome) ∧
      (∀ x, vs.1.get? = some x →
        if info.tag.isExt = false ∧ info.tag.openType ∧ direct info t then
          kind ≠ .other ∧ t.CarriedDirect aligned id x
        else t.Carried aligned info.tag x) ∧
      rest.Carried aligned kind (if info.tag.isExt then id else idAfter info t vs.1 id) vs.2

def Fields.CarriedAlt (aligned : Bool) : (alts : Fields) → Nat → alts.Vals → Prop
  | .nil, _, _ => True
  | .cons info t rest, 0, vs =>
    (∃ x, vs.1.get? = some x ∧ t.Carried aligned info.tag x) ∧ vs.2 = rest.zeros
  | .cons info t rest, i + 1, vs =>
    vs.1 = .zero info.nilable t.zero ∧ rest.CarriedAlt aligned i vs.2

def Ty.CarriedDirect (aligned : Bool) : (t : Ty) → Int → t.Val → Prop
  | .choice _ (some ids) alts, id, v =>
    (alternativeForID ids id : Int) = v.1 ∧ alts.CarriedAlt aligned (v.1 - 1).toNat v.2
  | .choice _ none _, _, _ => False
  | _, _, _ => True

end

mutual

/-- No slice that is made for the type is longer than this or than its size limits. -/
def Ty.limit : Ty → Nat
  | .seqOf elem => elem.limit
  | .sequence _ fields => max fields.extCount fields.limit
  | .choice _ _ alts => max alts.length alts.limit
  | _ => 16383

def Fields.limit : Fields → Nat
  | .nil => 16383
  | .cons info t rest => max (sizeLimit info.tag.size) (max t.limit rest.limit)

end

theorem Fields.limit_cons {info : FieldInfo} {t : Ty} {rest : Fields} {mem : Nat}
    (h : (Fields.cons info t rest).limit ≤ mem) :
    sizeLimit info.tag.size ≤ mem ∧ t.limit ≤ mem ∧ rest.limit ≤ mem := by
  unfold Fields.limit at h
  omega

/-! ## Trips -/

variable {aligned : Bool} {mem : Nat} {α : Type}

namespace Trip

variable {f : Put} {g : Get α} {x : α}

/-- A number is refused that is not one of those up to `n`. -/
theorem within {v n : Int} {err err' : PerErr} (h : 0 < v → v ≤ n → Trip aligned f g x) :
    Trip aligned (if v ≤ 0 then .fail err else if n < v then .fail err' else f) g x := by
  split
  · exact .fail
  split
  · exact .fail
  · exact h (by omega) (by omega)

theorem inField {name : String} (h : Trip aligned f g x) :
    Trip aligned (inField name f) (getInField name g) x := by
  intro p p' L hp ha hput
  unfold Asn1.inField at hput
  cases hf : f p with
  | error err =>
    rw [hf] at hput
    cases hput
  | ok q =>
    rw [hf] at hput
    cases hput
    obtain ⟨ha', M, hM, hread⟩ := h p p' L hp ha hf
    refine ⟨ha', M, hM, fun r rest hr hra hpos hcontent => ?_⟩
    unfold getInField
    rw [hread r rest hr hra hpos hcontent]

theorem atIndex {i : Nat} (h : Trip aligned f g x) :
    Trip aligned (atIndex i f) (getAtIndex i g) x := by
  intro p p' L hp ha hput
  unfold Asn1.atIndex at hput
  cases hf : f p with
  | error err =>
    rw [hf] at hput
    cases hput
  | ok q =>
    rw [hf] at hput
    cases hput
    obtain ⟨ha', M, hM, hread⟩ := h p p' L hp ha hf
    refine ⟨ha', M, hM, fun r rest hr hra hpos hcontent => ?_⟩
    unfold getAtIndex
    rw [hread r rest hr hra hpos hcontent]

/-- A bit that may be left out. -/
theorem bitIf {c : Prop} [Decidable c] {b : Bool} {f : Put} {k : Nat → Get α}
    (hleft : ¬c → b = false) (h : Trip aligned f (k b.toNat) x) :
    Trip aligned (.and (if c then Asn1.putBits (if b then 1 else 0) 1 else .skip) f)
      (if c then getBits 1 >>= k else pure 0 >>= k) x := by
  have hb : (if b then 1 else 0) = b.toNat := by cases b <;> rfl
  by_cases hc : c
  · rw [if_pos hc, if_pos hc, hb]
    exact .seq (.putBits (Nat.lt_succ_of_le (Bool.toNat_le b))) h
  · rw [hleft hc] at h
    rw [if_neg hc, if_neg hc]
    exact h

/-- Through the bytes of an open type. -/
theorem inner (hmem : mem < 2 ^ 63) (hlimit : 16383 ≤ mem) (h : Trip aligned f g x) :
    Trip aligned (putInner f) (getInner mem g) x := by
  intro p p' L hp ha hput
  obtain ⟨w, hinner, hput⟩ : ∃ w, (f (newWriter p.aligned)).bind alignToByte = .ok w ∧
      putOpenType w.buffer p = .ok p' := by
    unfold putInner Put.and at hput
    cases hinner : (f (newWriter p.aligned)).bind alignToByte with
    | error err =>
      rw [hinner] at hput
      cases hput
    | ok w =>
      rw [hinner] at hput
      exact ⟨w, rfl, hput⟩
  cases hf : f (newWriter p.aligned) with
  | error err =>
    rw [hf] at hinner
    cases hinner
  | ok q =>
    rw [hf] at hinner
    have halign : alignToByte q = .ok w := hinner
    obtain ⟨hqa, M, hq, hread⟩ := h _ q [] (holds_newWriter p.aligned) ha hf
    obtain ⟨-, N, hw, -⟩ := Trip.align q w _ hq hqa halign
    obtain ⟨m, hbuffer⟩ := hw.buffer
    obtain ⟨ha', O, hO, hopen⟩ := trip_openType w.buffer hmem hlimit p p' L hp ha hput
    refine ⟨ha', O, hO, fun r rest hr hra hpos hcontent => ?_⟩
    unfold getInner
    rw [bind_ok (hopen r rest hr hra hpos hcontent)]
    rw [hread (newReader w.buffer r.aligned) (N ++ replicate m false)
      (whole_newReader ..) hra rfl (by
        rw [content_newReader, hbuffer, nil_append, append_assoc])]

end Trip

theorem trip_bools (l : List Bool) : Trip aligned (putBools l) (getBools l.length) l := by
  induction l with
  | nil => exact .skip
  | cons b l ih =>
    refine .seq (.putBits (Nat.lt_succ_of_le (Bool.toNat_le b))) (ih.bind ?_)
    cases b <;> rfl

variable (aligned) in
theorem trip_all {f : α → Put} {g : Get α} {i : Nat} {l : List α}
    (h : ∀ x ∈ l, Trip aligned (f x) g x) : Trip aligned (putAll f i l) (getAll g l.length i) l := by
  induction l generalizing i with
  | nil => exact .skip
  | cons x l ih =>
    exact .seq (.atIndex (h x mem_cons_self))
      ((ih fun y hy => h y (mem_cons_of_mem x hy)).bind rfl)

theorem trip_int {v : Int64} {tag : FieldMeta} (h : tag.FullRange → v = Int64.minValue) :
    Trip aligned (encodeInt v tag) (decodeInt tag) v := by
  have hv := inInt64_toInt v
  have hback : Int64.ofInt v.toInt = v := Int64.ofInt_toInt v
  have hunconstrained : Trip aligned (putUnconstrainedWhole v.toInt) (getUnconstrainedWhole >>=
      fun v => pure (Int64.ofInt v)) v := (trip_unconstrained hv).bind (by rw [hback])
  unfold encodeInt decodeInt
  cases hvalue : tag.value with
  | unbounded => exact hunconstrained
  | lower lb => exact (trip_semiConstrained hv).bind (by rw [hback])
  | both lb ub =>
    have hconstrained : Trip aligned (putConstrainedWhole v.toInt lb.toInt ub.toInt)
        (getConstrainedWhole lb.toInt ub.toInt >>= fun v => pure (Int64.ofInt v)) v := by
      by_cases hin : lb ≤ v ∧ v ≤ ub
      · refine (trip_constrained hv (inInt64_toInt lb) (inInt64_toInt ub) ?_).bind (by rw [hback])
        by_cases hzero : rangeOf lb.toInt ub.toInt = 0
        · obtain ⟨rfl, rfl⟩ := full_of_rangeOf hzero (Int64.le_trans hin.1 hin.2)
          rw [h hvalue]
          exact .inr rfl
        · exact .inl hzero
      · have hout : v.toInt < lb.toInt ∨ ub.toInt < v.toInt := by
          rw [Int64.le_iff_toInt_le, Int64.le_iff_toInt_le] at hin
          omega
        unfold putConstrainedWhole
        rw [if_pos hout]
        exact .fail
    dsimp only
    cases tag.valueExt with
    | false => exact hconstrained
    | true =>
      rw [if_pos rfl]
      by_cases hout : v < lb ∨ ub < v
      · rw [if_pos hout]
        exact .seq (.putBits (by decide)) hunconstrained
      · rw [if_neg hout]
        exact .seq (.putBits (by decide)) hconstrained

/-! ## Sequences -/

namespace Fields

/-- The fields of the root, and zeros for the extensions. -/
def root : (fs : Fields) → fs.Vals → fs.Vals
  | .nil, _ => ()
  | .cons info t rest, vs =>
    (if info.tag.isExt then .zero info.nilable t.zero else vs.1, rest.root vs.2)

theorem root_eq : ∀ (fs : Fields) (vs : fs.Vals), fs.extCount = 0 → fs.root vs = vs
  | .nil, _, _ => rfl
  | .cons info t rest, vs, h => by
    have hroot : info.tag.isExt = false ∧ rest.extCount = 0 := by
      unfold extCount at h
      cases hext : info.tag.isExt with
      | false =>
        rw [hext] at h
        exact ⟨rfl, by simpa using h⟩
      | true =>
        rw [hext] at h
        simp at h
    change (_, _) = vs
    rw [hroot.1, root_eq rest vs.2 hroot.2]
    rfl

theorem length_extPresence : ∀ (fs : Fields) (vs : fs.Vals),
    (fs.extPresence vs).length = fs.extCount
  | .nil, _ => rfl
  | .cons info t rest, vs => by
    have ih := length_extPresence rest vs.2
    unfold extPresence extCount
    by_cases hext : info.tag.isExt = true
    · rw [if_pos hext, if_pos hext, length_cons, ih, Nat.add_comm]
    · rw [if_neg hext, if_neg hext, ih, Nat.zero_add]

theorem length_optPresence : ∀ (fs : Fields) (vs : fs.Vals),
    (fs.optPresence vs).length = fs.optCount
  | .nil, _ => rfl
  | .cons info t rest, vs => by
    have ih := length_optPresence rest vs.2
    unfold optPresence optCount
    by_cases hopt : info.tag.isExt = false ∧ info.tag.optional
    · rw [if_pos hopt, if_pos hopt, length_cons, ih, Nat.add_comm]
    · rw [if_neg hopt, if_neg hopt, ih, Nat.zero_add]

end Fields

/-- The id after a field that may be absent. -/
theorem idAfter_of_none {info : FieldInfo} {t : Ty} {s : Slot info.nilable t.Val} (id : Int)
    (h : s.get? = none) : idAfter info t (.zero info.nilable t.zero) id = idAfter info t s id := by
  rw [Slot.eq_zero t.zero h]

mutual

theorem trip_value (hmem : mem < 2 ^ 63) : (t : Ty) → (tag : FieldMeta) → (v : t.Val) →
    t.limit ≤ mem → sizeLimit tag.size ≤ mem → t.Carried aligned tag v →
      Trip aligned (encodeValue t tag v) (decodeValue mem t tag) v
  | .bool, tag, v, _, _, _ => by
    refine (Trip.putBits (Nat.lt_succ_of_le (Bool.toNat_le v))).bind ?_
    cases v <;> rfl
  | .int, tag, v, _, _, h => trip_int h
  | .string, tag, s, _, hsize, h => trip_kmString hmem hsize h.1 h.2
  | .octets, tag, s, _, hsize, _ => trip_octetString s hmem hsize
  | .bitString, tag, bs, _, hsize, h => trip_bitString hmem hsize h
  | .seqOf elem, tag, (l : List elem.Val), hlimit, hsize, h => by
    have hdefault : sizeLimit ({} : FieldMeta).size ≤ mem := Nat.le_trans (le_sizeLimit _) hsize
    have helem := trip_all aligned (i := 0) fun x hx =>
      trip_value hmem elem {} x hlimit hdefault (h x hx)
    refine .checked fun hin => .sizeExt (.sized hmem (Nat.le_trans (rootSize_limit ..) hsize)
      (fun s hs hone => eq_of_fixed (hin s hs) hone) fun hle => .make hmem hle ?_)
    have hn : (toInt l.length).toNat = l.length := by
      rw [toInt_of_le hle hmem, Int.toNat_natCast]
    rw [hn]
    exact helem
  | .sequence extensible fields, tag, (vs : fields.Vals), hlimit, hsize, h => by
    obtain ⟨hexts, hfields⟩ : (0 < fields.extCount → true ∈ fields.extPresence vs) ∧
      fields.Carried aligned fields.idField 0 vs := h
    have hcount : fields.extCount ≤ mem := Nat.le_trans (Nat.le_max_left ..) hlimit
    have hlimit' : fields.limit ≤ mem := Nat.le_trans (Nat.le_max_right ..) hlimit
    have hroot := trip_root hmem fields.idField fields 0 vs hlimit' hfields
    have hopts : Trip aligned (putBools (fields.optPresence vs)) (getBools fields.optCount)
        (fields.optPresence vs) := by
      rw [← fields.length_optPresence vs]
      exact trip_bools _
    have hany : (fields.extPresence vs).any id = decide (0 < fields.extCount) := by
      by_cases hpos : 0 < fields.extCount
      · rw [decide_eq_true hpos]
        exact any_eq_true.2 ⟨true, hexts hpos, rfl⟩
      · have hnil : fields.extPresence vs = [] := by
          rw [← length_eq_zero_iff, fields.length_extPresence]
          omega
        rw [decide_eq_false hpos, hnil]
        rfl
    change Trip aligned (.and (if extensible ∨ 0 < fields.extCount then
      putBits (if (fields.extPresence vs).any id then 1 else 0) 1 else .skip) _) _ _
    rw [decodeValue, hany]
    refine .bitIf (fun hnot => decide_eq_false fun hpos => hnot (.inr hpos)) ?_
    refine .seq hopts ?_
    refine .seq hroot ?_
    by_cases hpos : 0 < fields.extCount
    · have hn : (fields.extCount - 1 + 1) % 2 ^ 64 = fields.extCount := by
        rw [Nat.sub_add_cancel hpos]
        exact Nat.mod_eq_of_lt (by omega)
      have hnat : (toInt fields.extCount).toNat = (fields.extPresence vs).length := by
        rw [toInt_of_le hcount hmem, Int.toNat_natCast, fields.length_extPresence]
      have hlast : Trip aligned
          (.and (putNormallySmallNonNegative (fields.extCount - 1))
            (.and (putBools (fields.extPresence vs)) (encodeExts fields vs)))
          (getNormallySmallNonNegative >>= fun n =>
            makeSlice mem (toInt ((n + 1) % 2 ^ 64)) >>= fun _ =>
              getBools (toInt ((n + 1) % 2 ^ 64)).toNat >>= fun presence =>
                decodeExts mem fields presence (fields.root vs)) vs := by
        refine .seq (trip_normallySmall _) ?_
        rw [hn, hnat]
        exact .make hmem hcount
          (.seq (trip_bools _) (trip_exts hmem fields.idField fields 0 vs hlimit' hfields))
      rw [if_pos hpos, decide_eq_true hpos]
      exact hlast
    · have hlast : Trip aligned .skip (pure (fields.root vs)) vs := by
        rw [fields.root_eq vs (by omega)]
        exact .skip
      rw [if_neg hpos, decide_eq_false hpos]
      exact hlast
  | .choice extensible ids alts, tag, (v : Int × alts.Vals), hlimit, hsize, h => by
    have hcount : alts.length ≤ mem := Nat.le_trans (Nat.le_max_left ..) hlimit
    have hlimit' : alts.limit ≤ mem := Nat.le_trans (Nat.le_max_right ..) hlimit
    refine .within fun hpos hin => ?_
    have halt := trip_alt hmem alts (v.1 - 1).toNat v.2 (by omega) hlimit' h
    have hindex : InInt64 (v.1 - 1) ∧ InInt64 0 ∧ InInt64 ((alts.length : Int) - 1) := by
      unfold InInt64
      omega
    have hrange : rangeOf 0 ((alts.length : Int) - 1) ≠ 0 := by
      rw [rangeOf_eq hindex.2.1 hindex.2.2 (by omega)]
      omega
    have hchosen : Trip aligned
        (.and (putConstrainedWhole (v.1 - 1) 0 ((alts.length : Int) - 1))
          (encodeAlt alts (v.1 - 1).toNat v.2))
        (getConstrainedWhole 0 ((alts.length : Int) - 1) >>= fun idx =>
          if idx < 0 then panic
          else decodeAlt mem alts idx.toNat >>= fun vs => pure (idx + 1, vs)) v := by
      refine .seq (trip_constrained hindex.1 hindex.2.1 hindex.2.2 (.inl hrange)) ?_
      rw [if_neg (by omega)]
      refine halt.bind ?_
      rw [Int.sub_add_cancel]
    by_cases hext : extensible = true
    · subst hext
      exact .seq (k := fun _ => _) (.putBits (by decide)) hchosen
    · rw [Bool.not_eq_true] at hext
      subst hext
      exact hchosen

theorem trip_root (hmem : mem < 2 ^ 63) (kind : IdField) : (fs : Fields) → (id : Int) →
    (vs : fs.Vals) → fs.limit ≤ mem → fs.Carried aligned kind id vs →
      Trip aligned (encodeRoot fs vs) (decodeRoot mem kind fs (fs.optPresence vs) id) (fs.root vs)
  | .nil, _, _, _, _ => .skip
  | .cons info t rest, id, vs, hlimit, h => by
    obtain ⟨hthere, hcarried, hrest⟩ := h
    have hlimits := Fields.limit_cons hlimit
    have hopen : 16383 ≤ mem := Nat.le_trans (le_sizeLimit _) hlimits.1
    by_cases hext : info.tag.isExt = true
    · rw [if_pos hext] at hrest
      have ih := trip_root hmem kind rest id vs.2 hlimits.2.2 hrest
      simp only [encodeRoot, decodeRoot, Fields.optPresence, Fields.root, hext]
      exact ih.bind rfl
    rw [Bool.not_eq_true] at hext
    rw [if_neg (by rw [hext]; exact Bool.false_ne_true)] at hrest
    have ih := trip_root hmem kind rest _ vs.2 hlimits.2.2 hrest
    cases hget : vs.1.get? with
    | none =>
      have hopt : info.tag.optional = true := by
        by_contra hnot
        have hsome := hthere hext (Bool.not_eq_true _ ▸ hnot)
        rw [hget] at hsome
        cases hsome
      simp only [encodeRoot, decodeRoot, Fields.optPresence, Fields.root, hext, hopt, hget, and_self,
        if_true, if_false, Bool.false_eq_true, Bool.true_eq_false, false_and, Option.isSome_none,
        List.head?_cons, List.tail_cons, Option.some.injEq, ne_eq, not_false_eq_true,
        idAfter_of_none id hget]
      have hzero : (Slot.zero info.nilable t.zero : Slot info.nilable t.Val) = vs.1 :=
        (Slot.eq_zero t.zero hget).symm
      exact (Trip.skip_and ih).bind (congrArg (fun s => pure (s, rest.root vs.2)) hzero)
    | some x =>
      have hfull : Slot.full info.nilable x = vs.1 := (Slot.eq_full hget).symm
      have hfield : Trip aligned
          (inField info.name <|
            if info.tag.openType then
              putInner (if direct info t then encodeDirect t x else encodeValue t info.tag x)
            else encodeValue t info.tag x)
          (getInField info.name <|
            if info.tag.openType then
              getInner mem <|
                if direct info t then (if kind = .other then panic else decodeDirect mem t id)
                else decodeValue mem t info.tag
            else decodeValue mem t info.tag) x := by
        have hx := hcarried x hget
        by_cases hwrapped : info.tag.openType = true
        · rw [if_pos hwrapped, if_pos hwrapped]
          by_cases hdirect : direct info t = true
          · rw [if_pos ⟨hext, hwrapped, hdirect⟩] at hx
            rw [if_pos hdirect, if_pos hdirect, if_neg hx.1]
            exact .inField (.inner hmem hopen (trip_direct hmem t id x hlimits.2.1 hx.2))
          · rw [if_neg fun hall => hdirect hall.2.2] at hx
            rw [if_neg hdirect, if_neg hdirect]
            exact .inField
              (.inner hmem hopen (trip_value hmem t info.tag x hlimits.2.1 hlimits.1 hx))
        · rw [if_neg fun hall => hwrapped hall.2.1] at hx
          rw [if_neg hwrapped, if_neg hwrapped]
          exact .inField (trip_value hmem t info.tag x hlimits.2.1 hlimits.1 hx)
      rw [← hfull] at ih
      have hboth := Trip.seq (y := (Slot.full info.nilable x, rest.root vs.2))
        (k := fun x => decodeRoot mem kind rest (rest.optPresence vs.2)
          (idAfter info t (.full info.nilable x) id) >>= fun vs =>
            pure (.full info.nilable x, vs)) hfield (ih.bind rfl)
      cases hopt : info.tag.optional with
      | false | true =>
        simp only [encodeRoot, decodeRoot, Fields.optPresence, Fields.root, hext, hopt, hget]
        rw [← hfull]
        exact hboth

theorem trip_exts (hmem : mem < 2 ^ 63) (kind : IdField) : (fs : Fields) → (id : Int) →
    (vs : fs.Vals) → fs.limit ≤ mem → fs.Carried aligned kind id vs →
      Trip aligned (encodeExts fs vs) (decodeExts mem fs (fs.extPresence vs) (fs.root vs)) vs
  | .nil, _, _, _, _ => .skip
  | .cons info t rest, id, vs, hlimit, h => by
    obtain ⟨-, hcarried, hrest⟩ := h
    have hlimits := Fields.limit_cons hlimit
    have hopen : 16383 ≤ mem := Nat.le_trans (le_sizeLimit _) hlimits.1
    have ih := trip_exts hmem kind rest _ vs.2 hlimits.2.2 hrest
    cases hext : info.tag.isExt with
    | false =>
      simp only [encodeExts, decodeExts, Fields.extPresence, Fields.root, hext]
      exact ih.bind rfl
    | true =>
      cases hget : vs.1.get? with
      | none =>
        have hzero : (Slot.zero info.nilable t.zero : Slot info.nilable t.Val) = vs.1 :=
          (Slot.eq_zero t.zero hget).symm
        simp only [encodeExts, decodeExts, Fields.extPresence, Fields.root, hext, hget]
        exact (Trip.skip_and ih).bind (congrArg (fun s => pure (s, vs.2)) hzero)
      | some x =>
        have hfull : Slot.full info.nilable x = vs.1 := (Slot.eq_full hget).symm
        have hx := hcarried x hget
        rw [if_neg fun hall => by rw [hext] at hall; exact Bool.noConfusion hall.1] at hx
        simp only [encodeExts, decodeExts, Fields.extPresence, Fields.root, hext, hget]
        exact .seq (.inner hmem hopen (trip_value hmem t info.tag x hlimits.2.1 hlimits.1 hx))
          (ih.bind (congrArg (fun s => pure (s, vs.2)) hfull))

theorem trip_alt (hmem : mem < 2 ^ 63) : (alts : Fields) → (i : Nat) → (vs : alts.Vals) →
    i < alts.length → alts.limit ≤ mem → alts.CarriedAlt aligned i vs →
      Trip aligned (encodeAlt alts i vs) (decodeAlt mem alts i) vs
  | .nil, i, _, hi, _, _ => absurd hi (Nat.not_lt_zero i)
  | .cons info t rest, 0, vs, _, hlimit, h => by
    obtain ⟨⟨x, hget, hx⟩, hzeros⟩ := h
    have hlimits := Fields.limit_cons hlimit
    have hvs : ((.full info.nilable x, rest.zeros) : Slot info.nilable t.Val × rest.Vals) = vs := by
      rw [← hzeros, ← Slot.eq_full hget]
      rfl
    simp only [encodeAlt, decodeAlt, hget]
    exact (trip_value hmem t info.tag x hlimits.2.1 hlimits.1 hx).bind (congrArg pure hvs)
  | .cons info t rest, i + 1, vs, hi, hlimit, h => by
    obtain ⟨hzero, hrest⟩ := h
    have hvs : ((.zero info.nilable t.zero, vs.2) : Slot info.nilable t.Val × rest.Vals) = vs := by
      rw [← hzero]
      rfl
    simp only [encodeAlt, decodeAlt]
    exact (trip_alt hmem rest i vs.2 (Nat.lt_of_succ_lt_succ hi) (Fields.limit_cons hlimit).2.2 hrest).bind
      (congrArg pure hvs)

theorem trip_direct (hmem : mem < 2 ^ 63) : (t : Ty) → (id : Int) → (v : t.Val) →
    t.limit ≤ mem → t.CarriedDirect aligned id v →
      Trip aligned (encodeDirect t v) (decodeDirect mem t id) v
  | .choice _ (some ids) alts, id, (v : Int × alts.Vals), hlimit, h => by
    obtain ⟨hid, halt⟩ : (alternativeForID ids id : Int) = v.1 ∧
      alts.CarriedAlt aligned (v.1 - 1).toNat v.2 := h
    have hlimit' : alts.limit ≤ mem := Nat.le_trans (Nat.le_max_right ..) hlimit
    refine .within fun hpos hin => ?_
    have hindex : (v.1 - 1).toNat = alternativeForID ids id - 1 := by omega
    have htrip := trip_alt hmem alts (v.1 - 1).toNat v.2 (by omega) hlimit' halt
    rw [hindex] at htrip ⊢
    simp only [decodeDirect]
    rw [if_neg (by omega), if_neg (by omega)]
    exact htrip.bind (congrArg (fun n : Int => pure (n, v.2)) hid)
  | .choice _ none _, _, _, _, h => h.elim
  | .bool, _, _, _, _ | .int, _, _, _, _ | .string, _, _, _, _ | .octets, _, _, _, _
  | .bitString, _, _, _, _ | .seqOf _, _, _, _, _ | .sequence _ _, _, _, _, _ => .fail

end

/-! ## Missing components -/

/-- Something is written. -/
def Succeeds (f : Put) : Prop := ∃ p p', f p = .ok p'

namespace Succeeds

variable {f g : Put}

theorem and (h : Succeeds (.and f g)) : Succeeds f ∧ Succeeds g := by
  obtain ⟨p, p', h⟩ := h
  unfold Put.and at h
  cases hf : f p with
  | error err =>
    rw [hf] at h
    cases h
  | ok q =>
    rw [hf] at h
    exact ⟨⟨p, q, hf⟩, ⟨q, p', h⟩⟩

theorem inField {name : String} (h : Succeeds (inField name f)) : Succeeds f := by
  obtain ⟨p, p', h⟩ := h
  unfold Asn1.inField at h
  cases hf : f p with
  | error err =>
    rw [hf] at h
    cases h
  | ok q => exact ⟨p, q, hf⟩

theorem atIndex {i : Nat} (h : Succeeds (atIndex i f)) : Succeeds f := by
  obtain ⟨p, p', h⟩ := h
  unfold Asn1.atIndex at h
  cases hf : f p with
  | error err =>
    rw [hf] at h
    cases h
  | ok q => exact ⟨p, q, hf⟩

theorem inner (h : Succeeds (putInner f)) : Succeeds f := by
  obtain ⟨p, p', h⟩ := h
  unfold putInner Put.and at h
  cases hf : f (newWriter p.aligned) with
  | error err =>
    rw [hf] at h
    cases h
  | ok q => exact ⟨_, q, hf⟩

theorem all {f : α → Put} {i : Nat} {l : List α} (h : Succeeds (putAll f i l)) :
    ∀ x ∈ l, Succeeds (f x) := by
  induction l generalizing i with
  | nil => exact fun x hx => absurd hx not_mem_nil
  | cons y l ih =>
    intro x hx
    rcases mem_cons.1 hx with rfl | hx
    · exact h.and.1.atIndex
    · exact ih h.and.2 x hx

theorem not_fail {err : PerErr} : ¬Succeeds (.fail err) := fun ⟨_, _, h⟩ => by cases h

theorem within {v n : Int} {err err' : PerErr}
    (h : Succeeds (if v ≤ 0 then .fail err else if n < v then .fail err' else f)) :
    0 < v ∧ v ≤ n ∧ Succeeds f := by
  split at h
  · exact absurd h not_fail
  split at h
  · exact absurd h not_fail
  · exact ⟨by omega, by omega, h⟩

end Succeeds

mutual

theorem whole_value : (t : Ty) → (tag : FieldMeta) → (v : t.Val) → t.Carried aligned tag v →
    Succeeds (encodeValue t tag v) → t.Whole v
  | .bool, _, _, _, _ | .int, _, _, _, _ | .string, _, _, _, _ | .octets, _, _, _, _
  | .bitString, _, _, _, _ => trivial
  | .seqOf elem, _, (l : List elem.Val), h, hput => fun x hx =>
    whole_value elem {} x (h x hx) (hput.and.2.and.2.and.2.all x hx)
  | .sequence _ fields, _, (vs : fields.Vals), h, hput => by
    have hrest := hput.and.2.and.2.and
    refine whole_fields fields.idField fields 0 vs h.2 hrest.1 fun hpos => ?_
    have hexts := hrest.2
    rw [if_pos hpos] at hexts
    exact hexts.and.2.and.2
  | .choice _ _ alts, _, (v : Int × alts.Vals), h, hput => by
    obtain ⟨hpos, hin, hput⟩ := Succeeds.within hput
    exact ⟨by omega, whole_alt alts _ v.2 (by omega) h hput.and.2.and.2⟩

theorem whole_fields (kind : IdField) : (fs : Fields) → (id : Int) → (vs : fs.Vals) →
    fs.Carried aligned kind id vs → Succeeds (encodeRoot fs vs) →
      (0 < fs.extCount → Succeeds (encodeExts fs vs)) → fs.Whole vs
  | .nil, _, _, _, _, _ => trivial
  | .cons info t rest, id, vs, h, hroot, hexts => by
    obtain ⟨hthere, hcarried, hrest⟩ := h
    refine ⟨hthere, fun x hget => ?_, whole_fields kind rest _ vs.2 hrest hroot.and.2 fun hpos =>
      (hexts (Nat.lt_of_lt_of_le hpos (Nat.le_add_left ..))).and.2⟩
    have hx := hcarried x hget
    cases hext : info.tag.isExt with
    | true =>
      rw [if_neg fun hall => by rw [hext] at hall; exact Bool.noConfusion hall.1] at hx
      have hpos : 0 < (Fields.cons info t rest).extCount := by
        unfold Fields.extCount
        rw [if_pos hext]
        omega
      have hput := (hexts hpos).and.1
      rw [if_pos hext, hget] at hput
      exact whole_value t info.tag x hx hput.inner
    | false =>
      have hput := hroot.and.1
      rw [if_neg (by rw [hext]; exact Bool.false_ne_true), hget] at hput
      have hput := hput.inField
      by_cases hwrapped : info.tag.openType = true
      · rw [if_pos hwrapped] at hput
        have hput := hput.inner
        by_cases hdirect : direct info t = true
        · rw [if_pos ⟨hext, hwrapped, hdirect⟩] at hx
          rw [if_pos hdirect] at hput
          exact whole_direct t id x hx.2 hput
        · rw [if_neg fun hall => hdirect hall.2.2] at hx
          rw [if_neg hdirect] at hput
          exact whole_value t info.tag x hx hput
      · rw [if_neg fun hall => hwrapped hall.2.1] at hx
        rw [if_neg hwrapped] at hput
        exact whole_value t info.tag x hx hput

theorem whole_alt : (alts : Fields) → (i : Nat) → (vs : alts.Vals) → i < alts.length →
    alts.CarriedAlt aligned i vs → Succeeds (encodeAlt alts i vs) → alts.WholeAlt i vs
  | .nil, i, _, hi, _, _ => absurd hi (Nat.not_lt_zero i)
  | .cons info t rest, 0, vs, _, h, hput => by
    obtain ⟨⟨x, hget, hx⟩, -⟩ := h
    simp only [encodeAlt, hget] at hput
    exact ⟨x, hget, whole_value t info.tag x hx hput⟩
  | .cons _ _ rest, i + 1, vs, hi, h, hput =>
    whole_alt rest i vs.2 (Nat.lt_of_succ_lt_succ hi) h.2 hput

theorem whole_direct : (t : Ty) → (id : Int) → (v : t.Val) → t.CarriedDirect aligned id v →
    Succeeds (encodeDirect t v) → t.Whole v
  | .choice _ (some _) alts, _, (v : Int × alts.Vals), h, hput => by
    obtain ⟨hpos, hin, hput⟩ := Succeeds.within hput
    exact ⟨by omega, whole_alt alts _ v.2 (by omega) h.2 hput⟩
  | .choice _ none _, _, _, h, _ => h.elim
  | .bool, _, _, _, _ | .int, _, _, _, _ | .string, _, _, _, _ | .octets, _, _, _, _
  | .bitString, _, _, _, _ => trivial
  | .seqOf _, _, _, _, hput | .sequence _ _, _, _, _, hput => absurd hput Succeeds.not_fail

end

/-! ## Values of a type -/

mutual

theorem Ty.le_limit : (t : Ty) → 16383 ≤ t.limit
  | .seqOf elem => elem.le_limit
  | .sequence _ fields => Nat.le_trans fields.le_limit (Nat.le_max_right ..)
  | .choice _ _ alts => Nat.le_trans alts.le_limit (Nat.le_max_right ..)
  | .bool | .int | .string | .octets | .bitString => Nat.le_refl _

theorem Fields.le_limit : (fs : Fields) → 16383 ≤ fs.limit
  | .nil => Nat.le_refl _
  | .cons info _ _ => Nat.le_trans (le_sizeLimit info.tag.size) (Nat.le_max_left ..)

end

/-- What is written for the value is read as the value up to the bit where the writer stopped, and
nothing is written for a value that lacks something. -/
def Ty.RoundTrips (mem : Nat) (aligned : Bool) (t : Ty) (v : t.Val) : Prop :=
  (∀ w, encodeValue t {} v (newWriter aligned) = .ok w →
    ∃ r, unmarshalPER mem t w.buffer aligned = .ok (v, r) ∧ r.pos = w.numBits) ∧
  (¬t.Whole v → ∃ err, marshalPER t v aligned = .error err)

/-- An information element: its id, how critical it is, and the value that the id chooses. -/
def elementType : Ty :=
  .sequence true
    (.cons ⟨"Id", false, { value := .both 0 65535 }⟩ .int
      (.cons ⟨"Criticality", false, { value := .both 0 2 }⟩ .int
        (.cons ⟨"Value", false, { openType := true, directChoice := true }⟩
          (.choice false (some [(7, 1), (9, 2)])
            (.cons ⟨"UEID", true, { value := .both 0 4294967295 }⟩ .int
              (.cons ⟨"Name", true, { size := some ⟨1, 150, by decide, by decide⟩ }⟩ .string .nil)))
          (.cons ⟨"Cause", true, { optional := true }⟩ .bool
            (.cons ⟨"Items", true, { isExt := true }⟩ (.seqOf .octets) .nil)))))

def element : elementType.Val :=
  ((9 : Int64), (1 : Int64), ((2 : Int), none, some [65, 77, 70], ()), none, some [[1], [2, 3]], ())

theorem element_carried : elementType.Carried true {} element := by
  have hint {tag : FieldMeta} (v : Int64) (h : tag.value ≠ .both Int64.minValue Int64.maxValue) :
      Ty.Carried true .int tag v := fun hfull => absurd hfull h
  refine ⟨fun _ => .head _, ⟨fun _ _ => rfl, ?_, ⟨fun _ _ => rfl, ?_, ⟨fun _ _ => rfl, ?_,
    ⟨fun _ h => absurd h (by decide), ?_, ⟨fun h => absurd h (by decide), ?_, trivial⟩⟩⟩⟩⟩⟩
  · rintro x ⟨⟩
    exact hint 9 (by decide)
  · rintro x ⟨⟩
    exact hint 1 (by decide)
  · rintro x ⟨⟩
    refine ⟨by decide, by decide, rfl, ⟨_, rfl, by decide +kernel, ?_⟩, rfl⟩
    rintro s ⟨⟩ hs
    exact absurd hs (by decide)
  · rintro x ⟨⟩
  · rintro x ⟨⟩
    exact fun _ _ => trivial

/-- A sequence with an extension, and a flag behind it. -/
def flagged : Ty :=
  .sequence false
    (.cons ⟨"Inner", false, {}⟩
      (.sequence false (.cons ⟨"Extra", true, { isExt := true }⟩ .bool .nil))
      (.cons ⟨"Flag", false, {}⟩ .bool .nil))

end MmtCore.Asn1
