import MmtCore.Asn1.RoundTrip

/-!
# Newer types

A sequence that has got further extension additions, read by the type without them.  The decoder
reads the whole bitmap but goes through its own extensions only: the open types of the others are
left where they are, and what follows the sequence is read from them (`known_part_read_iff`).
-/

namespace MmtCore.Asn1

open MmtCore.Lib List Option Bool Fields Outcome Nat

/-! ## Extensions of a sequence -/

namespace Fields

def names : Fields → List String
  | .nil => []
  | .cons info _ rest => info.name :: rest.names

/-- The second fields are the first ones with further additions, which come after the extensions
that there are. -/
inductive Extension : Fields → Fields → Type
  | nil : Extension .nil .nil
  | keep (info : FieldInfo) (t : Ty) {fs fs' : Fields} :
    Extension fs fs' → Extension (.cons info t fs) (.cons info t fs')
  | add (info : FieldInfo) (t : Ty) {fs fs' : Fields} (hext : info.tag.isExt = true)
    (hlast : fs.extCount = 0) : Extension fs fs' → Extension fs (.cons info t fs')

namespace Extension

/-- The components that are known without the additions. -/
def known : {fs fs' : Fields} → Extension fs fs' → fs'.Vals → fs.Vals
  | _, _, .nil, _ => ()
  | _, _, .keep _ _ e, vs => (vs.1, e.known vs.2)
  | _, _, .add _ _ _ _ e, vs => e.known vs.2

/-- Whether each of the additions is there. -/
def added : {fs fs' : Fields} → Extension fs fs' → fs'.Vals → List Bool
  | _, _, .nil, _ => []
  | _, _, .keep _ _ e, vs => e.added vs.2
  | _, _, .add _ _ _ _ e, vs => vs.1.get?.isSome :: e.added vs.2

/-- The open types of the additions. -/
def encodeAdded : {fs fs' : Fields} → Extension fs fs' → fs'.Vals → Put
  | _, _, .nil, _ => .skip
  | _, _, .keep _ _ e, vs => e.encodeAdded vs.2
  | _, _, .add info t _ _ e, vs =>
    .and
      (match vs.1.get? with
      | none => .skip
      | some x => putInner (encodeValue t info.tag x)) <|
      e.encodeAdded vs.2

end Extension

end Fields

/-! ## What the newer type writes -/

theorem Put.and_assoc (f g h : Put) : Put.and (.and f g) h = .and f (.and g h) := by
  funext p
  unfold Put.and
  cases f p with
  | error err | ok q => rfl

theorem encodeExts_of_none : (fs : Fields) → (vs : fs.Vals) → fs.extCount = 0 →
    encodeExts fs vs = .skip
  | .nil, _, _ => rfl
  | .cons info t rest, vs, h => by
    have hext : info.tag.isExt = false := by
      cases hext : info.tag.isExt with
      | false => rfl
      | true =>
        unfold extCount at h
        rw [hext] at h
        simp at h
    have hrest : rest.extCount = 0 := by
      unfold extCount at h
      omega
    simp only [encodeExts, hext]
    exact encodeExts_of_none rest vs.2 hrest

theorem extPresence_of_none {fs : Fields} (vs : fs.Vals) (h : fs.extCount = 0) :
    fs.extPresence vs = [] := by
  rw [← length_eq_zero_iff, fs.length_extPresence, h]

namespace Fields.Extension

variable {fs fs' : Fields}

attribute [local simp] known added encodeAdded

theorem optPresence_eq : {fs fs' : Fields} → (e : Extension fs fs') → (vs : fs'.Vals) →
    fs'.optPresence vs = fs.optPresence (e.known vs)
  | _, _, .nil, _ => rfl
  | _, _, .keep info t e, vs => by
    have ih := e.optPresence_eq vs.2
    simp only [optPresence, known, ih]
  | _, _, .add info t hext _ e, vs => by
    have ih := e.optPresence_eq vs.2
    simp only [optPresence, known, hext, ← ih]
    rfl

theorem extPresence_eq : {fs fs' : Fields} → (e : Extension fs fs') → (vs : fs'.Vals) →
    fs'.extPresence vs = fs.extPresence (e.known vs) ++ e.added vs
  | _, _, .nil, _ => rfl
  | _, _, .keep info t e, vs => by
    have ih := e.extPresence_eq vs.2
    simp only [extPresence, known, added, ih]
    split <;> rfl
  | _, _, .add info t hext hlast e, vs => by
    have ih := e.extPresence_eq vs.2
    rw [extPresence_of_none _ hlast] at ih
    simp only [extPresence, known, added, hext, extPresence_of_none _ hlast, ih]
    rfl

theorem extCount_eq (e : Extension fs fs') (vs : fs'.Vals) :
    fs'.extCount = fs.extCount + (e.added vs).length := by
  rw [← fs'.length_extPresence vs, e.extPresence_eq vs, length_append, fs.length_extPresence]

theorem encodeRoot_eq : {fs fs' : Fields} → (e : Extension fs fs') → (vs : fs'.Vals) →
    encodeRoot fs' vs = encodeRoot fs (e.known vs)
  | _, _, .nil, _ => rfl
  | _, _, .keep info t e, vs => by
    have ih := e.encodeRoot_eq vs.2
    simp only [encodeRoot, known, ih]
  | _, _, .add info t hext _ e, vs => by
    have ih := e.encodeRoot_eq vs.2
    simp only [encodeRoot, known, hext, ← ih]
    rfl

/-- The open types of the additions come after the others. -/
theorem encodeExts_eq : {fs fs' : Fields} → (e : Extension fs fs') → (vs : fs'.Vals) →
    encodeExts fs' vs = .and (encodeExts fs (e.known vs)) (e.encodeAdded vs)
  | _, _, .nil, _ => rfl
  | _, _, .keep info t e, vs => by
    have ih := e.encodeExts_eq vs.2
    simp only [encodeExts, known, encodeAdded, ih, Put.and_assoc]
  | _, _, .add info t hext hlast e, vs => by
    have ih := e.encodeExts_eq vs.2
    rw [encodeExts_of_none _ _ hlast] at ih
    simp only [encodeExts, known, encodeAdded, encodeExts_of_none _ _ hlast, hext, ih]
    rfl

theorem limit_le : {fs fs' : Fields} → Extension fs fs' → fs.limit ≤ fs'.limit
  | _, _, .nil => Nat.le_refl _
  | _, _, .keep info t e => by
    have ih := e.limit_le
    unfold limit
    omega
  | _, _, .add info t _ _ e => by
    have ih := e.limit_le
    simp only [limit]
    omega

/-! ## Ids -/

theorem names_sub : {fs fs' : Fields} → Extension fs fs' → ∀ n ∈ fs.names, n ∈ fs'.names
  | _, _, .nil, _, hn => hn
  | _, _, .keep info t e, n, hn => by
    rcases mem_cons.1 hn with rfl | hn
    · exact mem_cons_self
    · exact mem_cons_of_mem _ (e.names_sub n hn)
  | _, _, .add info t _ _ e, n, hn => mem_cons_of_mem _ (e.names_sub n hn)

theorem mem_names_of_other : {fs : Fields} → fs.idField = .other → "Id" ∈ fs.names
  | .cons info t rest, h => by
    unfold idField at h
    by_cases hid : info.name = "Id"
    · exact hid ▸ mem_cons_self
    · rw [if_neg hid] at h
      exact mem_cons_of_mem _ (mem_names_of_other h)

/-- Fields with different names have the same one for an id. -/
theorem idField_other : {fs fs' : Fields} → Extension fs fs' → fs'.names.Nodup →
    fs.idField = .other → fs'.idField = .other
  | _, _, .nil, _, h => h
  | _, _, .keep info t e, hnodup, h => by
    unfold idField at h ⊢
    by_cases hid : info.name = "Id"
    · rw [if_pos hid] at h ⊢
      exact h
    · rw [if_neg hid] at h ⊢
      exact e.idField_other (nodup_cons.1 hnodup).2 h
  | _, _, .add info t _ _ e, hnodup, h => by
    have hmem := e.names_sub _ (mem_names_of_other h)
    have hid : info.name ≠ "Id" := fun heq => (nodup_cons.1 hnodup).1 (heq ▸ hmem)
    unfold idField
    rw [if_neg hid]
    exact e.idField_other (nodup_cons.1 hnodup).2 h

/-- What the newer type carries, the older one does. -/
theorem carried_known {aligned : Bool} {kind kind' : IdField}
    (hkind : kind' ≠ .other → kind ≠ .other) :
    {fs fs' : Fields} → (e : Extension fs fs') → (id : Int) → (vs : fs'.Vals) →
      fs'.Carried aligned kind' id vs → fs.Carried aligned kind id (e.known vs)
  | _, _, .nil, _, _, _ => trivial
  | _, _, .keep info t e, id, vs, h => by
    obtain ⟨hthere, hcarried, hrest⟩ := h
    refine ⟨hthere, fun x hx => ?_, e.carried_known hkind _ vs.2 hrest⟩
    have hx := hcarried x hx
    split
    · case isTrue hdirect =>
      rw [if_pos hdirect] at hx
      exact ⟨hkind hx.1, hx.2⟩
    · case isFalse hdirect =>
      rw [if_neg hdirect] at hx
      exact hx
  | _, _, .add info t hext _ e, id, vs, h => by
    obtain ⟨-, -, hrest⟩ := h
    rw [if_pos hext] at hrest
    exact e.carried_known hkind id vs.2 hrest

/-! ## The part that is known -/

/-- What is written before the open types of the additions. -/
def encodeKnown (e : Extension fs fs') (vs : fs'.Vals) : Put :=
  .and (putBits (if (fs'.extPresence vs).any id then 1 else 0) 1) <|
  .and (putBools (fs.optPresence (e.known vs))) <|
  .and (encodeRoot fs (e.known vs)) <|
    if 0 < fs'.extCount then
      .and (putNormallySmallNonNegative (fs'.extCount - 1)) <|
      .and (putBools (fs'.extPresence vs)) (encodeExts fs (e.known vs))
    else .skip

theorem encodeAdded_of_none : {fs fs' : Fields} → (e : Extension fs fs') → (vs : fs'.Vals) →
    (∀ b ∈ e.added vs, b = false) → e.encodeAdded vs = .skip
  | _, _, .nil, _, _ => rfl
  | _, _, .keep info t e, vs, h => e.encodeAdded_of_none vs.2 h
  | _, _, .add info t _ _ e, vs, h => by
    have ih := e.encodeAdded_of_none vs.2 fun b hb => h b (mem_cons_of_mem _ hb)
    have hnone : vs.1.get? = none := by
      have hfirst := h _ mem_cons_self
      cases hget : vs.1.get? with
      | none => rfl
      | some x =>
        rw [hget] at hfirst
        cases hfirst
    simp only [encodeAdded, hnone, ih]
    rfl

theorem encodeValue_eq (e : Extension fs fs') (vs : fs'.Vals) {extensible : Bool}
    (hext : extensible = true ∨ 0 < fs.extCount) (tag : FieldMeta) :
    encodeValue (.sequence extensible fs') tag vs = .and (e.encodeKnown vs) (e.encodeAdded vs) := by
  have hcount := e.extCount_eq vs
  have hext' : extensible = true ∨ 0 < fs'.extCount := hext.imp_right fun h => by omega
  change Put.and (if extensible = true ∨ 0 < fs'.extCount then
    putBits (if (fs'.extPresence vs).any id then 1 else 0) 1 else .skip) _ = _
  unfold encodeKnown
  rw [if_pos hext', e.optPresence_eq, e.encodeRoot_eq]
  by_cases hpos : 0 < fs'.extCount
  · rw [if_pos hpos, if_pos hpos, e.encodeExts_eq]
    simp only [Put.and_assoc]
  · have hnone : e.added vs = [] := by
      rw [← length_eq_zero_iff]
      omega
    have hskip : e.encodeAdded vs = .skip := by
      refine e.encodeAdded_of_none vs fun b hb => ?_
      rw [hnone] at hb
      cases hb
    rw [if_neg hpos, if_neg hpos, hskip]
    simp only [Put.and_assoc]
    rfl

/-- The decoder goes through as many bits as it has extensions. -/
theorem decodeExts_append (mem : Nat) : (fs : Fields) → (presence more : List Bool) →
    (vs : fs.Vals) → presence.length = fs.extCount →
      decodeExts mem fs (presence ++ more) vs = decodeExts mem fs presence vs
  | .nil, _, _, _, _ => rfl
  | .cons info t rest, presence, more, vs, h => by
    unfold extCount at h
    cases hext : info.tag.isExt with
    | false =>
      rw [hext, if_neg Bool.false_ne_true, Nat.zero_add] at h
      simp only [decodeExts, hext, decodeExts_append mem rest presence more vs.2 h,
        false_eq_true, if_false]
    | true =>
      rw [hext, if_pos rfl] at h
      cases presence with
      | nil =>
        rw [length_nil] at h
        omega
      | cons b presence =>
        rw [length_cons] at h
        have ih := decodeExts_append mem rest presence more vs.2 (by omega)
        simp only [decodeExts, hext, cons_append, head?_cons, tail_cons, if_true,
          ih]
        rfl

section Trip

variable {aligned extensible : Bool} {mem : Nat}

/-- The older type reads the part that is known, and stops behind it. -/
theorem trip_known (hmem : mem < 2 ^ 63) (e : Extension fs fs') (hnodup : fs'.names.Nodup)
    (hext : extensible = true ∨ 0 < fs.extCount) (tag : FieldMeta) (vs : fs'.Vals)
    (hlimit : (Ty.sequence extensible fs').limit ≤ mem)
    (h : (Ty.sequence extensible fs').Carried aligned tag vs) :
    Trip aligned (e.encodeKnown vs) (decodeValue mem (.sequence extensible fs) tag)
      (e.known vs) := by
  obtain ⟨hexts, hfields⟩ : (0 < fs'.extCount → true ∈ fs'.extPresence vs) ∧
    fs'.Carried aligned fs'.idField 0 vs := h
  have hcount : fs'.extCount ≤ mem := Nat.le_trans (Nat.le_max_left ..) hlimit
  have hlimit' : fs.limit ≤ mem :=
    Nat.le_trans e.limit_le (Nat.le_trans (Nat.le_max_right ..) hlimit)
  have hcarried : fs.Carried aligned fs.idField 0 (e.known vs) :=
    e.carried_known (fun hkind hother => hkind (e.idField_other hnodup hother)) 0 vs hfields
  have hroot := trip_root hmem fs.idField fs 0 (e.known vs) hlimit' hcarried
  have hopts : Trip aligned (putBools (fs.optPresence (e.known vs))) (getBools fs.optCount)
      (fs.optPresence (e.known vs)) := by
    rw [← fs.length_optPresence (e.known vs)]
    exact trip_bools _
  have hadded := e.extCount_eq vs
  unfold encodeKnown
  rw [decodeValue, if_pos hext]
  by_cases hpos : 0 < fs'.extCount
  · have hany : (fs'.extPresence vs).any id = true :=
      any_eq_true.2 ⟨true, hexts hpos, rfl⟩
    have hn : (fs'.extCount - 1 + 1) % 2 ^ 64 = fs'.extCount := by
      rw [Nat.sub_add_cancel hpos]
      exact mod_eq_of_lt (by omega)
    have hnat : (toInt fs'.extCount).toNat = (fs'.extPresence vs).length := by
      rw [toInt_of_le hcount hmem, Int.toNat_natCast, fs'.length_extPresence]
    have hown : decodeExts mem fs (fs'.extPresence vs) (fs.root (e.known vs)) =
        decodeExts mem fs (fs.extPresence (e.known vs)) (fs.root (e.known vs)) := by
      rw [e.extPresence_eq]
      exact decodeExts_append mem fs _ _ _ (fs.length_extPresence _)
    have hlast : Trip aligned
        (.and (putNormallySmallNonNegative (fs'.extCount - 1))
          (.and (putBools (fs'.extPresence vs)) (encodeExts fs (e.known vs))))
        (getNormallySmallNonNegative >>= fun n =>
          makeSlice mem (toInt ((n + 1) % 2 ^ 64)) >>= fun _ =>
            getBools (toInt ((n + 1) % 2 ^ 64)).toNat >>= fun presence =>
              decodeExts mem fs presence (fs.root (e.known vs))) (e.known vs) := by
      refine .seq (trip_normallySmall _) ?_
      rw [hn, hnat]
      refine .make hmem hcount (.seq (trip_bools _) ?_)
      rw [hown]
      exact trip_exts hmem fs.idField fs 0 (e.known vs) hlimit' hcarried
    rw [hany, if_pos hpos]
    refine .seq (x := 1) (.putBits (by decide)) (.seq hopts (.seq hroot ?_))
    exact hlast
  · have hany : (fs'.extPresence vs).any id = false := by
      rw [extPresence_of_none vs (by omega)]
      rfl
    have hlast : Trip aligned .skip (pure (fs.root (e.known vs))) (e.known vs) := by
      rw [fs.root_eq (e.known vs) (by omega)]
      exact .skip
    rw [hany, if_neg hpos]
    refine .seq (x := 0) (.putBits (by decide)) (.seq hopts (.seq hroot ?_))
    exact hlast

end Trip

end Fields.Extension

/-! ## What is left unread -/

/-- The writer writes at least so many bits. -/
def Put.Grows (k : Nat) (f : Put) : Prop :=
  ∀ p p' L, Holds p L → f p = .ok p' → ∃ M, k ≤ M.length ∧ Holds p' (L ++ M)

namespace Put.Grows

variable {f g : Put} {j k : Nat}

theorem skip : Put.Grows 0 .skip := by
  intro p p' L hp h
  cases h
  exact ⟨[], Nat.le_refl 0, by rwa [List.append_nil]⟩

theorem fail {err : PerErr} : Put.Grows k (.fail err) := by
  intro p p' L _ h
  cases h

theorem and (hf : f.Grows j) (hg : g.Grows k) : Put.Grows (j + k) (.and f g) := by
  intro p p' L hp h
  unfold Put.and at h
  cases hfp : f p with
  | error err =>
    rw [hfp] at h
    cases h
  | ok q =>
    rw [hfp] at h
    obtain ⟨M, hM, hq⟩ := hf p q L hp hfp
    obtain ⟨N, hN, hp'⟩ := hg q p' _ hq h
    refine ⟨M ++ N, ?_, by rwa [← append_assoc]⟩
    rw [length_append]
    omega

theorem mono (hf : f.Grows k) (h : j ≤ k) : f.Grows j := by
  intro p p' L hp hput
  obtain ⟨M, hM, hp'⟩ := hf p p' L hp hput
  exact ⟨M, Nat.le_trans h hM, hp'⟩

theorem bits (v n : Nat) : Put.Grows n (putBits v n) := by
  intro p p' L hp h
  obtain ⟨hp', -, -⟩ := holds_putBits hp h
  exact ⟨msb n v, Nat.le_of_eq (length_msb n v).symm, hp'⟩

theorem align : Put.Grows 0 alignToByte := by
  intro p p' L hp h
  unfold alignToByte at h
  split at h
  · exact skip p p' L hp h
  · exact (bits 0 _).mono (zero_le _) p p' L hp h

theorem octets (l : Bytes) : Put.Grows 0 (putOctets l) := by
  induction l with
  | nil => exact skip
  | cons b l ih => exact ((bits b.toNat 8).and ih).mono (zero_le _)

theorem length (n : Nat) : Put.Grows 8 (putLength n) := by
  unfold putLength
  split
  · exact align.and ((bits 0 1).and (bits n 7))
  · split
    · exact (align.and ((bits 2 2).and (bits n 14))).mono (by decide)
    · exact (align.and (fail (k := 8))).mono (by decide)

theorem inner (f : Put) : Put.Grows 8 (putInner f) := by
  intro p p' L hp h
  unfold putInner at h
  split at h
  · case h_1 w _ =>
    exact ((length w.buffer.length).and (align.and (octets w.buffer))) p p' L hp h
  · cases h

end Put.Grows

namespace Fields.Extension

variable {fs fs' : Fields}

theorem grows_added : {fs fs' : Fields} → (e : Extension fs fs') → (vs : fs'.Vals) →
    Put.Grows (if true ∈ e.added vs then 8 else 0) (e.encodeAdded vs)
  | _, _, .nil, _ => .skip
  | _, _, .keep _ _ e, vs => e.grows_added vs.2
  | _, _, .add info t _ _ e, vs => by
    have ih := e.grows_added vs.2
    cases hget : vs.1.get? with
    | none =>
      have hadded : true ∈ (false :: e.added vs.2) ↔ true ∈ e.added vs.2 := by
        rw [mem_cons]
        exact or_iff_right Bool.noConfusion
      simp only [added, encodeAdded, hget, isSome_none, hadded]
      exact ih
    | some x =>
      simp only [added, encodeAdded, hget, isSome_some]
      rw [if_pos mem_cons_self]
      exact ((Put.Grows.inner _).and ih).mono (le_add_right _ _)

/-- Read at the place of the newer type, the older one yields the components that it knows and stops
where that one does. -/
def ReadsKnown (e : Extension fs fs') (mem : Nat) (aligned extensible : Bool) (tag : FieldMeta)
    (vs : fs'.Vals) : Prop :=
  Trip aligned (encodeValue (.sequence extensible fs') tag vs)
    (decodeValue mem (.sequence extensible fs) tag) (e.known vs)

section ReadsKnown

variable {aligned extensible : Bool} {mem : Nat} {tag : FieldMeta} {vs : fs'.Vals} {b : Bytes}

section

variable (hmem : mem < 2 ^ 63) (e : Extension fs fs') (hnodup : fs'.names.Nodup)
  (hext : extensible = true ∨ 0 < fs.extCount) (hlimit : (Ty.sequence extensible fs').limit ≤ mem)
  (h : (Ty.sequence extensible fs').Carried aligned tag vs)
  (hwritten : marshalPER (.sequence extensible fs') vs aligned = .ok b)
include h hext hlimit hmem hnodup hwritten

/-- The open type of an addition stays behind. -/
theorem not_readsKnown
    (hadded : true ∈ e.added vs) : ¬e.ReadsKnown mem aligned extensible tag vs := by
  intro hreads
  have hknown := e.trip_known hmem hnodup hext tag vs hlimit h
  have hstart := holds_newWriter aligned
  unfold marshalPER at hwritten
  cases hput : encodeValue (.sequence extensible fs') {} vs (newWriter aligned) with
  | error err =>
    rw [hput] at hwritten
    cases hwritten
  | ok p' =>
    obtain ⟨-, M, hp', hread⟩ := hreads _ p' [] hstart rfl hput
    rw [e.encodeValue_eq vs hext] at hput
    unfold Put.and at hput
    cases hfirst : e.encodeKnown vs (newWriter aligned) with
    | error err =>
      rw [hfirst] at hput
      cases hput
    | ok q =>
      rw [hfirst] at hput
      obtain ⟨-, K, hq, hstop⟩ := hknown _ q [] hstart rfl hfirst
      obtain ⟨N, hN, hp''⟩ := e.grows_added vs q p' _ hq hput
      obtain ⟨m, hbuffer⟩ := hp'.buffer
      obtain ⟨n, hbuffer'⟩ := hp''.buffer
      have hlength : M.length = K.length + N.length := by
        have hbits := hp'.numBits.symm.trans hp''.numBits
        simpa only [nil_append, length_append] using hbits
      have hlong := hread (newReader p'.buffer aligned) _ (whole_newReader _ _) rfl rfl
        ((content_newReader _ _).trans hbuffer)
      have hcontent : content (newReader p'.buffer aligned) =
          K ++ (N ++ replicate n false) := by
        rw [content_newReader, hbuffer', nil_append, append_assoc]
      have hshort := hstop (newReader p'.buffer aligned) _ (whole_newReader _ _) rfl rfl hcontent
      grind

/-- A value that the newer type brings back is read by the older one if and only if none of the
additions is in it. -/
theorem readsKnown_iff :
    e.ReadsKnown mem aligned extensible tag vs ↔ ∀ b ∈ e.added vs, b = false := by
  constructor
  · intro hreads b hb
    cases b with
    | false => rfl
    | true => exact absurd hreads (e.not_readsKnown hmem hnodup hext hlimit h hwritten hb)
  · intro hnone
    unfold ReadsKnown
    rw [e.encodeValue_eq vs hext, e.encodeAdded_of_none vs hnone]
    exact (e.trip_known hmem hnodup hext tag vs hlimit h).and_skip

end

end ReadsKnown

/-- A flag and an extension. -/
def older : Fields :=
  .cons ⟨"Flag", false, {}⟩ .bool (.cons ⟨"Extra", true, { isExt := true }⟩ .bool .nil)

/-- One more extension. -/
def newer : Fields :=
  .cons ⟨"Flag", false, {}⟩ .bool
    (.cons ⟨"Extra", true, { isExt := true }⟩ .bool
      (.cons ⟨"More", true, { isExt := true }⟩ .bool .nil))

def oneMore : Extension older newer :=
  .keep _ _ (.keep _ _ (.add _ _ rfl rfl .nil))

/-- The value with both extensions. -/
def bothThere : newer.Vals := (true, some true, some true, ())

def oneThere : newer.Vals := (true, some true, none, ())

def noneThere : newer.Vals := (true, none, none, ())

theorem newer_carried (vs : newer.Vals) (h : true ∈ newer.extPresence vs) :
    (Ty.sequence true newer).Carried true {} vs := by
  refine ⟨fun _ => h, ⟨fun _ _ => rfl, fun _ _ => trivial, ?_⟩⟩
  refine ⟨fun hroot => absurd hroot (by decide), fun _ _ => trivial, ?_⟩
  exact ⟨fun hroot => absurd hroot (by decide), fun _ _ => trivial, trivial⟩

end Fields.Extension

/-! ## What the older type makes of the same bits -/

/-- A reader that goes on by at least so many bits. -/
def Advances {α : Type} (k : Nat) (g : Get α) : Prop :=
  ∀ r x r', g r = .ok (x, r') → r.pos + k ≤ r'.pos

theorem getChunks_pos {fuel out remaining v : Nat} {r r' : PerBitData} (hfuel : remaining ≤ fuel)
    (h : getChunks fuel out remaining r = .ok (v, r')) : r'.pos = r.pos + remaining := by
  induction fuel generalizing out remaining r with
  | zero =>
    cases le_zero.1 hfuel
    cases h
    rfl
  | succ fuel ih =>
    rw [getChunks] at h
    dsimp only at h
    by_cases hzero : remaining = 0
    · rw [if_pos hzero] at h
      cases h
      rw [hzero, add_zero]
    grind

namespace Advances

variable {α β : Type} {j k : Nat} {g : Get α} {l : α → Get β}

theorem pure (x : α) : Advances 0 (pure x : Get α) := by
  intro r y r' h
  cases h
  exact Nat.le_refl _

theorem fail (err : PerErr) : Advances k (fail err : Get α) := by
  intro r y r' h
  cases h

theorem bind (hg : Advances j g) (hl : ∀ x, Advances k (l x)) : Advances (j + k) (g >>= l) := by
  intro r y r' h
  obtain ⟨x, q, hx, hy⟩ := bind_eq_ok h
  have hle := hg r x q hx
  have hle' := hl x q y r' hy
  omega

theorem mono (hg : Advances k g) (h : j ≤ k) : Advances j g := by
  intro r x r' hrun
  have hle := hg r x r' hrun
  omega

theorem bits (n : Nat) : Advances n (getBits n) := by
  intro r v r' h
  unfold getBits at h
  by_cases hzero : n = 0
  · rw [if_pos hzero] at h
    cases h
    omega
  by_cases hmany : n > 64
  · rw [if_neg hzero, if_pos hmany] at h
    cases h
  by_cases hout : r.pos + n > r.numBits
  · rw [if_neg hzero, if_neg hmany, if_pos hout] at h
    cases h
  rw [if_neg hzero, if_neg hmany, if_neg hout] at h
  exact Nat.le_of_eq (getChunks_pos (Nat.le_refl n) h).symm

theorem align : Advances 0 alignReadToByte := by
  intro r x r' h
  grind [alignReadToByte]

theorem length : Advances 8 getLength := by
  refine (align.bind fun _ => (bits 1).bind (k := 7) fun first => ?_).mono (by decide)
  split
  · exact bits 7
  · refine ((bits 1).bind (k := 6) fun second => ?_).mono (by decide)
    split
    · exact (bits 14).mono (by decide)
    · exact fail _

theorem make (mem : Nat) (n : Int) : Advances 0 (makeSlice mem n) := by
  intro r x r' h
  grind [makeSlice]

theorem chars (b n : Nat) : Advances 0 (getChars b n) := by
  induction n with
  | zero => exact pure []
  | succ n ih =>
    exact ((bits b).bind fun v => ih.bind fun l => pure (UInt8.ofNat v :: l)).mono (zero_le _)

theorem inner (mem : Nat) (g : Get α) : Advances 8 (getInner mem g) := by
  intro r x r' h
  obtain ⟨bytes, q, hopen, hrest⟩ := bind_eq_ok h
  have hadvance : Advances 8 (getOpenType mem) :=
    length.bind fun n => align.bind fun _ => (make mem _).bind fun _ => chars 8 n
  have hle := hadvance r bytes q hopen
  grind

end Advances

theorem decodeExts_of_none (mem : Nat) : (fs : Fields) → (presence : List Bool) → (vs : fs.Vals) →
    fs.extCount = 0 → decodeExts mem fs presence vs = pure vs
  | .nil, _, _, _ => rfl
  | .cons info t rest, presence, vs, h => by
    have hext : info.tag.isExt = false := by
      cases hext : info.tag.isExt with
      | false => rfl
      | true =>
        unfold extCount at h
        rw [hext] at h
        simp at h
    have hrest : rest.extCount = 0 := by
      unfold extCount at h
      omega
    simp only [decodeExts, hext, decodeExts_of_none mem rest presence vs.2 hrest,
      false_eq_true, if_false]
    rfl

namespace Fields.Extension

variable {fs fs' : Fields} {mem : Nat}

theorem optCount_eq : {fs fs' : Fields} → Extension fs fs' → fs'.optCount = fs.optCount
  | _, _, .nil => rfl
  | _, _, .keep info t e => by
    unfold optCount
    rw [e.optCount_eq]
  | _, _, .add info t hext _ e => by
    rw [optCount, hext, if_neg fun h => Bool.noConfusion h.1, Nat.zero_add]
    exact e.optCount_eq

theorem extCount_le : {fs fs' : Fields} → Extension fs fs' → fs.extCount ≤ fs'.extCount
  | _, _, .nil => Nat.le_refl _
  | _, _, .keep info t e => by
    have ih := e.extCount_le
    unfold extCount
    omega
  | _, _, .add info t _ _ e => by
    have ih := e.extCount_le
    simp only [extCount]
    omega

variable {α : Type} {info : FieldInfo} {t : Ty}

theorem ok_of_inField {name : String} {g : Get α} {r q : PerBitData} {x : α}
    (h : getInField name g r = .ok (x, q)) : g r = .ok (x, q) := by
  unfold getInField at h
  split at h
  · cases h
  · exact h

theorem inner_panic_ne_ok (mem : Nat) (r : PerBitData) (x : α) (q : PerBitData) :
    getInner mem panic r ≠ .ok (x, q) := by
  intro h
  obtain ⟨bytes, q', -, hrest⟩ := bind_eq_ok h
  cases hrest

/-- The field with the value of a table, which panics where the id is no number. -/
theorem field_known {kind kind' : IdField} (hkind : kind' ≠ .other → kind ≠ .other) {id : Int}
    {r q : PerBitData} {x : t.Val} (h : getInField info.name
      (if info.tag.openType then
        getInner mem <|
          if direct info t then (if kind' = .other then panic else decodeDirect mem t id)
          else decodeValue mem t info.tag
      else decodeValue mem t info.tag) r = .ok (x, q)) :
    getInField info.name
      (if info.tag.openType then
        getInner mem <|
          if direct info t then (if kind = .other then panic else decodeDirect mem t id)
          else decodeValue mem t info.tag
      else decodeValue mem t info.tag) r = .ok (x, q) := by
  by_cases hopen : info.tag.openType = true
  · rw [if_pos hopen] at h ⊢
    by_cases hdirect : direct info t = true
    · rw [if_pos hdirect] at h ⊢
      by_cases hother : kind' = .other
      · rw [if_pos hother] at h
        exact absurd (ok_of_inField h) (inner_panic_ne_ok mem r x q)
      · simp_all
    · rw [if_neg hdirect] at h ⊢
      exact h
  · rw [if_neg hopen] at h ⊢
    exact h

/-- The root is read as by the newer type. -/
theorem decodeRoot_known {kind kind' : IdField} (hkind : kind' ≠ .other → kind ≠ .other) :
    {fs fs' : Fields} → (e : Extension fs fs') → {opts : List Bool} → {id : Int} →
      {r r' : PerBitData} → {vs : fs'.Vals} →
        decodeRoot mem kind' fs' opts id r = .ok (vs, r') →
          decodeRoot mem kind fs opts id r = .ok (e.known vs, r')
  | _, _, .nil, opts, id, r, r', vs, h => by
    cases h
    rfl
  | _, _, .add info t hext _ e, opts, id, r, r', vs, h => by
    simp only [decodeRoot, hext, if_true] at h
    obtain ⟨vs, q, hrest, hpure⟩ := bind_eq_ok h
    cases hpure
    exact e.decodeRoot_known hkind hrest
  | _, _, .keep info t e, opts, id, r, r', vs, h => by
    rw [decodeRoot] at h ⊢
    by_cases hext : info.tag.isExt = true
    · rw [if_pos hext] at h ⊢
      obtain ⟨vs, q, hrest, hpure⟩ := bind_eq_ok h
      cases hpure
      rw [bind_ok (e.decodeRoot_known hkind hrest)]
      rfl
    rw [if_neg hext] at h ⊢
    by_cases habsent : info.tag.optional = true ∧ opts.head? ≠ some true
    · rw [if_pos habsent] at h ⊢
      obtain ⟨vs, q, hrest, hpure⟩ := bind_eq_ok h
      cases hpure
      rw [bind_ok (e.decodeRoot_known hkind hrest)]
      rfl
    rw [if_neg habsent] at h ⊢
    obtain ⟨x, q, hfield, hrest⟩ := bind_eq_ok h
    obtain ⟨vs, q', hrest, hpure⟩ := bind_eq_ok hrest
    cases hpure
    rw [bind_ok (field_known hkind hfield), bind_ok (e.decodeRoot_known hkind hrest)]
    rfl

/-- The bits of a bitmap for the additions. -/
def unknownBits (_ : Extension fs fs') (presence : List Bool) : List Bool :=
  (presence.drop fs.extCount).take (fs'.extCount - fs.extCount)

theorem unknownBits_keep (e : Extension fs fs') (presence : List Bool) :
    (keep info t e).unknownBits presence =
      e.unknownBits (if info.tag.isExt then presence.tail else presence) := by
  have hfs : (cons info t fs).extCount = (if info.tag.isExt then 1 else 0) + fs.extCount := rfl
  have hfs' : (cons info t fs').extCount = (if info.tag.isExt then 1 else 0) + fs'.extCount := rfl
  unfold unknownBits
  rw [hfs, hfs']
  cases info.tag.isExt with
  | false => simp only [false_eq_true, if_false, zero_add]
  | true =>
    simp only [if_true, drop_tail]
    rw [Nat.add_sub_add_left, Nat.add_comm 1]

theorem unknownBits_add {hext : info.tag.isExt = true} {hlast : fs.extCount = 0}
    (e : Extension fs fs') (presence : List Bool) :
    true ∈ (add info t hext hlast e).unknownBits presence ↔
      presence.head? = some true ∨ true ∈ e.unknownBits presence.tail := by
  unfold unknownBits
  rw [hlast, extCount, if_pos hext]
  cases presence with
  | nil => simp
  | cons b presence =>
    rw [List.drop_zero, Nat.sub_zero, Nat.add_comm, List.take_succ_cons, List.mem_cons,
      List.head?_cons, List.tail_cons, List.drop_zero, Nat.sub_zero]
    exact or_congr_left ⟨fun h => congrArg some h.symm, fun h => (some.inj h).symm⟩

/-- The older type goes through its own extensions, and stops before those that it does not
know. -/
theorem decodeExts_known : {fs fs' : Fields} → (e : Extension fs fs') → {presence : List Bool} →
    {r r' : PerBitData} → {vs xs : fs'.Vals} →
      decodeExts mem fs' presence vs r = .ok (xs, r') →
        ∃ q, decodeExts mem fs presence (e.known vs) r = .ok (e.known xs, q) ∧
          if true ∈ e.unknownBits presence then q.pos < r'.pos else q = r'
  | _, _, .nil, presence, r, r', vs, xs, h => by
    cases h
    refine ⟨r, rfl, ?_⟩
    rw [if_neg]
    unfold unknownBits
    simp [extCount]
  | _, _, .keep info t e, presence, r, r', vs, xs, h => by
    rw [decodeExts] at h
    rw [unknownBits_keep]
    cases hext : info.tag.isExt with
    | false =>
      rw [hext, if_neg Bool.false_ne_true] at h
      obtain ⟨ys, q, hrest, hpure⟩ := bind_eq_ok h
      cases hpure
      obtain ⟨q', hq', hstop⟩ := e.decodeExts_known hrest
      refine ⟨q', ?_, hstop⟩
      rw [decodeExts, hext, if_neg Bool.false_ne_true]
      exact (bind_ok hq').trans rfl
    | true =>
      rw [hext, if_pos rfl] at h
      by_cases hhead : presence.head? = some true
      · rw [if_pos hhead] at h
        obtain ⟨x, q, hinner, hrest⟩ := bind_eq_ok h
        obtain ⟨ys, q', hrest, hpure⟩ := bind_eq_ok hrest
        cases hpure
        obtain ⟨s, hs, hstop⟩ := e.decodeExts_known hrest
        refine ⟨s, ?_, hstop⟩
        rw [decodeExts, hext, if_pos rfl, if_pos hhead, bind_ok hinner]
        exact (bind_ok hs).trans rfl
      · rw [if_neg hhead] at h
        obtain ⟨ys, q, hrest, hpure⟩ := bind_eq_ok h
        cases hpure
        obtain ⟨s, hs, hstop⟩ := e.decodeExts_known hrest
        refine ⟨s, ?_, hstop⟩
        rw [decodeExts, hext, if_pos rfl, if_neg hhead]
        exact (bind_ok hs).trans rfl
  | _, _, .add info t hext hlast e, presence, r, r', vs, xs, h => by
    rw [decodeExts, if_pos hext] at h
    rw [decodeExts_of_none mem _ _ _ hlast]
    by_cases hhead : presence.head? = some true
    · rw [if_pos hhead] at h
      obtain ⟨x, q, hinner, hrest⟩ := bind_eq_ok h
      obtain ⟨ys, q', hrest, hpure⟩ := bind_eq_ok hrest
      cases hpure
      have hle := Advances.inner mem _ r x q hinner
      obtain ⟨s, hs, hstop⟩ := e.decodeExts_known hrest
      rw [decodeExts_of_none mem _ _ _ hlast] at hs
      obtain ⟨hknown, rfl⟩ := Prod.mk.inj (ok.inj hs)
      refine ⟨r, congrArg (fun x => ok (x, r)) hknown, ?_⟩
      rw [if_pos ((e.unknownBits_add presence).2 (.inl hhead))]
      split at hstop
      · omega
      · rw [← hstop]
        omega
    · rw [if_neg hhead] at h
      obtain ⟨ys, q, hrest, hpure⟩ := bind_eq_ok h
      cases hpure
      obtain ⟨s, hs, hstop⟩ := e.decodeExts_known hrest
      rw [decodeExts_of_none mem _ _ _ hlast] at hs
      obtain ⟨hknown, rfl⟩ := Prod.mk.inj (ok.inj hs)
      refine ⟨r, congrArg (fun x => ok (x, r)) hknown, ?_⟩
      have hadd : true ∈ (add info t hext hlast e).unknownBits presence ↔
          true ∈ e.unknownBits presence.tail :=
        (e.unknownBits_add presence).trans (or_iff_right hhead)
      by_cases hset : true ∈ e.unknownBits presence.tail
      · rw [if_pos hset] at hstop
        rw [if_pos (hadd.2 hset)]
        exact hstop
      · rw [if_neg hset] at hstop
        rw [if_neg fun h => hset (hadd.1 h)]
        exact hstop

end Fields.Extension

/-- The bitmap of a sequence, as its decoder comes to it; it has none where the bit of the
extensions is not set. -/
def getBitmap (mem : Nat) (extensible : Bool) (fields : Fields) : Get (List Bool) := do
  let ext ← if extensible ∨ 0 < fields.extCount then getBits 1 else pure 0
  let opts ← getBools fields.optCount
  let _ ← decodeRoot mem fields.idField fields opts 0
  if ext = 1 then do
    let n ← getNormallySmallNonNegative
    let n := toInt ((n + 1) % 2 ^ 64)
    makeSlice mem n
    getBools n.toNat
  else pure []

namespace Fields.Extension

variable {fs fs' : Fields} {mem : Nat} {extensible : Bool}

/-- No bit is set for an addition where the newer type is read. -/
def NoneAt (e : Extension fs fs') (mem : Nat) (extensible : Bool) (r : PerBitData) : Prop :=
  ∀ presence q, getBitmap mem extensible fs' r = .ok (presence, q) →
    true ∉ e.unknownBits presence

/-- Where the newer type reads a value, the older one reads the part that it knows and stops at the
same bit if and only if no bit is set for an addition. -/
theorem decode_known_iff (e : Extension fs fs') (hnodup : fs'.names.Nodup)
    (hext : extensible = true ∨ 0 < fs.extCount) (tag : FieldMeta) {r r' : PerBitData}
    {x : fs'.Vals} (h : decodeValue mem (.sequence extensible fs') tag r = .ok (x, r')) :
    decodeValue mem (.sequence extensible fs) tag r = .ok (e.known x, r') ↔
      e.NoneAt mem extensible r := by
  have hext' : extensible = true ∨ 0 < fs'.extCount := by
    have hle := e.extCount_le
    exact hext.imp_right fun h => by omega
  rw [decodeValue, if_pos hext'] at h
  unfold NoneAt getBitmap
  rw [decodeValue, if_pos hext, if_pos hext']
  obtain ⟨ext, r₁, hbit, h⟩ := bind_eq_ok h
  obtain ⟨opts, r₂, hopts, h⟩ := bind_eq_ok h
  obtain ⟨vs, r₃, hroot, h⟩ := bind_eq_ok h
  have hopts' : getBools fs.optCount r₁ = .ok (opts, r₂) := by
    rw [← e.optCount_eq]
    exact hopts
  have hroot' := e.decodeRoot_known
    (fun hkind hother => hkind (e.idField_other hnodup hother)) hroot
  simp only [bind_ok hbit, bind_ok hopts, bind_ok hopts', bind_ok hroot, bind_ok hroot']
  by_cases hone : ext = 1
  · replace h := (congrFun (if_pos hone) r₃).symm.trans h
    refine (Eq.congr_left (congrFun (if_pos hone) r₃)).trans ?_
    simp only [if_pos hone]
    obtain ⟨n, r₄, hcount, h⟩ := bind_eq_ok h
    obtain ⟨u, r₅, hmake, h⟩ := bind_eq_ok h
    obtain ⟨presence, r₆, hbits, h⟩ := bind_eq_ok h
    obtain ⟨q, hq, hstop⟩ := e.decodeExts_known h
    simp only [bind_ok hcount, bind_ok hmake, bind_ok hbits, hbits, hq]
    by_cases hset : true ∈ e.unknownBits presence
    · grind
    · rw [if_neg hset] at hstop
      refine iff_of_true (congrArg (fun q => ok (e.known x, q)) hstop)
        fun presence' q' heq => ?_
      cases heq
      exact hset
  · replace h := (congrFun (if_neg hone) r₃).symm.trans h
    refine (Eq.congr_left (congrFun (if_neg hone) r₃)).trans ?_
    simp only [if_neg hone]
    cases h
    refine iff_of_true rfl fun presence q heq => ?_
    cases heq
    simp [unknownBits]

/-- Values and bits together: a value that the newer type brings back is read by the older one, and
bits that the newer type reads are read alike, if and only if no addition is there. -/
theorem known_part_read_iff (hmem : mem < 2 ^ 63) (e : Extension fs fs') (hnodup : fs'.names.Nodup)
    (hext : extensible = true ∨ 0 < fs.extCount) (tag : FieldMeta) :
    (∀ (aligned : Bool) (vs : fs'.Vals) (b : Bytes), (Ty.sequence extensible fs').limit ≤ mem →
      (Ty.sequence extensible fs').Carried aligned tag vs →
        marshalPER (.sequence extensible fs') vs aligned = .ok b →
          (e.ReadsKnown mem aligned extensible tag vs ↔ ∀ b ∈ e.added vs, b = false)) ∧
      ∀ (r r' : PerBitData) (x : fs'.Vals),
        decodeValue mem (.sequence extensible fs') tag r = .ok (x, r') →
          (decodeValue mem (.sequence extensible fs) tag r = .ok (e.known x, r') ↔
            e.NoneAt mem extensible r) :=
  ⟨fun _ _ _ hlimit h hwritten => e.readsKnown_iff hmem hnodup hext hlimit h hwritten,
    fun _ _ _ h => e.decode_known_iff hnodup hext tag h⟩

theorem known_part_read_iff_oneMore :
    (oneMore.ReadsKnown 16383 true true {} oneThere ↔ ∀ b ∈ oneMore.added oneThere, b = false) ∧
      (decodeValue 16383 (.sequence true older) {} (newReader [64] true) =
          .ok (oneMore.known noneThere, ⟨[64], 8, 2, true⟩) ↔
        oneMore.NoneAt 16383 true (newReader [64] true)) :=
  ⟨(oneMore.known_part_read_iff (by decide) (by decide) (.inl rfl) {}).1 true oneThere
      [192, 192, 1, 128] (by decide) (newer_carried oneThere (by decide)) rfl,
    (oneMore.known_part_read_iff (by decide) (by decide) (.inl rfl) {}).2 _ _ noneThere rfl⟩

/-- What follows is read from the open type of the addition. -/
theorem addition_left_unread :
    ¬∀ (mem : Nat) (aligned extensible : Bool) (tag : FieldMeta) (fs fs' : Fields)
      (e : Extension fs fs') (vs : fs'.Vals) (b : Bytes), mem < 2 ^ 63 → fs'.names.Nodup →
        extensible = true ∨ 0 < fs.extCount → (Ty.sequence extensible fs').limit ≤ mem →
          (Ty.sequence extensible fs').Carried aligned tag vs →
            marshalPER (.sequence extensible fs') vs aligned = .ok b →
              e.ReadsKnown mem aligned extensible tag vs := by
  intro hall
  have hcarried := newer_carried bothThere (by decide)
  have hwritten : marshalPER (.sequence true newer) bothThere true =
      .ok [192, 224, 1, 128, 1, 128] := rfl
  exact oneMore.not_readsKnown (by decide) (by decide) (.inl rfl) (by decide) hcarried hwritten
    (by decide) (hall 16383 true true {} older newer oneMore bothThere _ (by decide) (by decide)
      (.inl rfl) (by decide) hcarried hwritten)

end Fields.Extension

end MmtCore.Asn1
