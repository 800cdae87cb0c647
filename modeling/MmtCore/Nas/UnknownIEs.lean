import MmtCore.Nas.RoundTrip

/-!
# Unknown NAS information elements

What the decoder makes of elements that the table of a message does not list: `SkipUnknownIE`
(`runtime/decoder.go`) and the loop around it (`codegen/message.go`).
-/

namespace MmtCore.Nas

open MmtCore.Lib List Option UInt8 IEEntry Nat

variable {msg : String} {e : IEEntry} {v : Option Value} {b rest : Bytes}

/-! ## What follows an element -/

namespace IEEntry

theorem decodeBody_more {n : Nat} (h : e.decodeBody msg n b = .ok (v, rest)) (c : Bytes) :
    e.decodeBody msg n (b ++ c) = .ok (v, rest ++ c) := by
  unfold decodeBody at h ⊢
  cases htake : takeBytes n b with
  | none =>
    rw [htake] at h
    cases h
  | some p =>
    rw [htake] at h
    rw [takeBytes_more htake c]
    obtain ⟨x, hx, heq⟩ := ok_of_map h
    cases heq
    dsimp only
    rw [hx]
    rfl

theorem decodeLV_more (h : e.decodeLV msg b = .ok (v, rest)) (c : Bytes) :
    e.decodeLV msg (b ++ c) = .ok (v, rest ++ c) := by
  unfold decodeLV at h ⊢
  cases htake : takeUint8 b with
  | none =>
    rw [htake] at h
    cases h
  | some p =>
    rw [htake] at h
    rw [takeUint8_more htake c]
    exact decodeBody_more h c

theorem decodeLVE_more (h : e.decodeLVE msg b = .ok (v, rest)) (c : Bytes) :
    e.decodeLVE msg (b ++ c) = .ok (v, rest ++ c) := by
  unfold decodeLVE at h ⊢
  cases htake : takeUint16 b with
  | none =>
    rw [htake] at h
    cases h
  | some p =>
    rw [htake] at h
    rw [takeUint16_more htake c]
    exact decodeBody_more h c

theorem decodeMandatoryOne_more (h : e.Regular) (hiei : e.iei = none)
    (hdec : e.decodeMandatoryOne msg b = .ok (v, rest)) (c : Bytes) :
    e.decodeMandatoryOne msg (b ++ c) = .ok (v, rest ++ c) := by
  rcases h.mandatory hiei with ⟨hformat, hfixed⟩ | hformat | hformat
  · rw [decodeMandatoryOne_fixed hfixed hformat] at hdec ⊢
    exact decodeBody_more hdec c
  · rw [decodeMandatoryOne_lv hformat] at hdec ⊢
    exact decodeLV_more hdec c
  · rw [decodeMandatoryOne_lve hformat] at hdec ⊢
    exact decodeLVE_more hdec c

variable {i : IEI} {y : UInt8}

theorem decodeCase_more (h : e.Regular) (hiei : e.iei = some i)
    (hdec : e.decodeCase msg y b = .ok (v, rest)) (c : Bytes) :
    e.decodeCase msg y (b ++ c) = .ok (v, rest ++ c) := by
  rcases h.optional hiei with ⟨a, fields, rfl, -, hformat, -⟩ | ⟨a, rfl, hformat, -, hlen⟩ |
    ⟨a, rfl, hformat⟩ | ⟨a, rfl, hformat⟩
  · rw [decodeCase_half hiei hformat] at hdec ⊢
    obtain ⟨x, hx, heq⟩ := ok_of_map hdec
    cases heq
    rw [hx]
    rfl
  · rw [decodeCase_full hiei hformat hlen] at hdec ⊢
    exact decodeBody_more hdec c
  · rw [decodeCase_tlv hformat] at hdec ⊢
    exact decodeLV_more hdec c
  · rw [decodeCase_tlve hformat] at hdec ⊢
    exact decodeLVE_more hdec c

theorem length_rest_decodeBody {n : Nat} (h : e.decodeBody msg n b = .ok (v, rest)) :
    rest.length ≤ b.length := by
  unfold decodeBody at h
  split at h
  · cases h
  case h_2 bytes rest' htake =>
  obtain ⟨x, -, heq⟩ := ok_of_map h
  cases heq
  rw [(takeBytes_eq_some htake).2, length_append]
  exact le_add_left _ _

/-- The case of an element sets its field, and reads on. -/
theorem decodeCase_sets (h : e.Regular) (hiei : e.iei = some i)
    (hdec : e.decodeCase msg y b = .ok (v, rest)) :
    (∃ x, v = some x) ∧ rest.length ≤ b.length := by
  rcases h.optional hiei with ⟨a, fields, rfl, -, hformat, -⟩ | ⟨a, rfl, hformat, -, hlen⟩ |
    ⟨a, rfl, hformat⟩ | ⟨a, rfl, hformat⟩
  · rw [decodeCase_half hiei hformat] at hdec
    obtain ⟨x, -, heq⟩ := ok_of_map hdec
    cases heq
    exact ⟨⟨x, rfl⟩, Nat.le_refl _⟩
  · rw [decodeCase_full hiei hformat hlen] at hdec
    obtain ⟨-, x, -, -, hv⟩ := of_decodeBody hdec
    exact ⟨⟨x, hv⟩, length_rest_decodeBody hdec⟩
  · rw [decodeCase_tlv hformat] at hdec
    obtain ⟨x, -, hv⟩ := length_of_decodeLV hdec
    refine ⟨⟨x, hv⟩, ?_⟩
    cases b with
    | nil => cases hdec
    | cons n b => exact le_succ_of_le (length_rest_decodeBody hdec)
  · rw [decodeCase_tlve hformat] at hdec
    obtain ⟨x, -, hv⟩ := length_of_decodeLVE hdec
    refine ⟨⟨x, hv⟩, ?_⟩
    cases b with
    | nil => cases hdec
    | cons n b =>
      cases b with
      | nil => cases hdec
      | cons m b =>
        exact le_succ_of_le (le_succ_of_le (length_rest_decodeBody hdec))

end IEEntry

variable {es : List IEEntry} {vals vs : List (Option Value)}

theorem decodeMandatory_more : ∀ {es : List IEEntry} {b : Bytes} {vals rest},
    (∀ e ∈ es, e.Regular) → decodeMandatory msg es b = .ok (vals, rest) → ∀ c,
      decodeMandatory msg es (b ++ c) = .ok (vals, rest ++ c)
  | [], b, vals, rest, _, h, c => by
    cases h
    rfl
  | [e], b, vals, rest, hreg, h, c => by
    unfold decodeMandatory at h ⊢
    split at h
    · case isTrue hiei =>
      obtain ⟨⟨x, tail⟩, hx, heq⟩ := ok_of_bind h
      cases heq
      rw [if_pos hiei, bind_of_ok (decodeMandatoryOne_more (hreg e (by simp)) hiei hx c)]
      rfl
    · case isFalse hiei =>
      cases h
      rw [if_neg hiei]
  | e :: f :: es, b, vals, rest, hreg, h, c => by
    have he := hreg e (by simp)
    unfold decodeMandatory at h ⊢
    by_cases hpair : e.Pair f
    · rw [if_pos hpair] at h ⊢
      cases htake : takeUint8 b with
      | none =>
        rw [htake] at h
        cases h
      | some p =>
        rw [htake] at h
        rw [takeUint8_more htake c]
        obtain ⟨x, hx, h⟩ := ok_of_bind h
        obtain ⟨y, hy, h⟩ := ok_of_bind h
        obtain ⟨⟨vals', rest'⟩, hrest, heq⟩ := ok_of_bind h
        cases heq
        have hrec := decodeMandatory_more (fun e he => hreg e (by simp [he])) hrest c
        dsimp only
        rw [bind_of_ok hx, bind_of_ok hy, bind_of_ok hrec]
        rfl
    rw [if_neg hpair] at h ⊢
    by_cases hiei : e.iei = none
    · rw [if_pos hiei] at h ⊢
      obtain ⟨⟨x, tail⟩, hx, h⟩ := ok_of_bind h
      obtain ⟨⟨vals', rest'⟩, hrest, heq⟩ := ok_of_bind h
      cases heq
      have hrec := decodeMandatory_more (fun e he => hreg e (mem_cons_of_mem _ he)) hrest c
      rw [bind_of_ok (decodeMandatoryOne_more he hiei hx c)]
      dsimp only
      rw [bind_of_ok hrec]
      rfl
    · rw [if_neg hiei] at h ⊢
      obtain ⟨⟨vals', rest'⟩, hrest, heq⟩ := ok_of_bind h
      cases heq
      rw [bind_of_ok
        (decodeMandatory_more (fun e he => hreg e (mem_cons_of_mem _ he)) hrest c)]
      rfl

/-- The optional fields are not set before the loop. -/
theorem decodeMandatory_optional : ∀ {es : List IEEntry} {b : Bytes} {vals rest},
    decodeMandatory msg es b = .ok (vals, rest) →
      List.Forall₂ (fun e v => e.iei ≠ none → v = none) es vals
  | [], b, vals, rest, h => by
    cases h
    exact .nil
  | [e], b, vals, rest, h => by
    unfold decodeMandatory at h
    split at h
    · case isTrue hiei =>
      obtain ⟨⟨x, tail⟩, hx, heq⟩ := ok_of_bind h
      cases heq
      exact .cons (fun hne => absurd hiei hne) .nil
    · cases h
      exact .cons (fun _ => rfl) .nil
  | e :: f :: es, b, vals, rest, h => by
    unfold decodeMandatory at h
    split at h
    · case isTrue hpair =>
      split at h
      · cases h
      obtain ⟨x, hx, h⟩ := ok_of_bind h
      obtain ⟨y, hy, h⟩ := ok_of_bind h
      obtain ⟨⟨vals', rest'⟩, hrest, heq⟩ := ok_of_bind h
      cases heq
      exact .cons (fun hne => absurd hpair.1 hne)
        (.cons (fun hne => absurd hpair.2.1 hne) (decodeMandatory_optional hrest))
    split at h
    · case isTrue hiei =>
      obtain ⟨⟨x, tail⟩, hx, h⟩ := ok_of_bind h
      obtain ⟨⟨vals', rest'⟩, hrest, heq⟩ := ok_of_bind h
      cases heq
      exact .cons (fun hne => absurd hiei hne) (decodeMandatory_optional hrest)
    · obtain ⟨⟨vals', rest'⟩, hrest, heq⟩ := ok_of_bind h
      cases heq
      exact .cons (fun _ => rfl) (decodeMandatory_optional hrest)

/-! ## The loop -/

/-- No element of the table is taken to begin with the byte. -/
def Unlisted (es : List IEEntry) (y : UInt8) : Prop :=
  ∀ e ∈ es, ∀ i, e.iei = some i → ¬i.Matches y

variable {y : UInt8}

theorem dispatch_of_unlisted (h : Unlisted es y) (b : Bytes) (vs : List (Option Value)) :
    dispatch msg y b es vs = none := by
  induction es generalizing vs with
  | nil => rfl
  | cons e es ih =>
    cases vs with
    | nil => rfl
    | cons v vs =>
      have hrest := ih (fun e he => h e (mem_cons_of_mem _ he)) vs
      rw [dispatch, hrest]
      cases hiei : e.iei with
      | none => rfl
      | some i => exact if_neg (h e mem_cons_self i hiei)

/-- How many fields are set. -/
def countSet (vals : List (Option Value)) : Nat := vals.countP Option.isSome

theorem countSet_cons (v : Option Value) (vals : List (Option Value)) :
    countSet (v :: vals) = countSet vals + if v.isSome then 1 else 0 := countP_cons

/-- A round that takes an element up, with what follows it, and with the fields that it sets. -/
theorem dispatch_spec (hreg : ∀ e ∈ es, e.Regular)
    (h : dispatch msg y b es vs = some (.ok (vals, rest))) :
    (∀ c, dispatch msg y (b ++ c) es vs = some (.ok (vals, rest ++ c))) ∧
      rest.length ≤ b.length ∧ countSet vs ≤ countSet vals ∧
      (List.Forall₂ (fun e v => e.iei ≠ none → v = none) es vs → countSet vs < countSet vals) := by
  induction es generalizing vs vals with
  | nil => cases h
  | cons e es ih =>
    cases vs with
    | nil => cases h
    | cons v vs =>
      have hnext : ∀ {r}, dispatch msg y b es vs = some r →
          r.map (fun p => (v :: p.1, p.2)) = .ok (vals, rest) →
            (∀ c, (dispatch msg y (b ++ c) es vs).map
                (fun r => r.map fun p => (v :: p.1, p.2)) = some (.ok (vals, rest ++ c))) ∧
              rest.length ≤ b.length ∧ countSet (v :: vs) ≤ countSet vals ∧
              (List.Forall₂ (fun e v => e.iei ≠ none → v = none) (e :: es) (v :: vs) →
                countSet (v :: vs) < countSet vals) := by
        intro r hr hmap
        obtain ⟨⟨vals', rest'⟩, hp, heq⟩ := ok_of_map hmap
        cases heq
        rw [hp] at hr
        obtain ⟨hmore, hlen, hle, hlt⟩ := ih (fun e he => hreg e (mem_cons_of_mem _ he)) hr
        rw [countSet_cons, countSet_cons]
        refine ⟨fun c => ?_, hlen, Nat.add_le_add_right hle _, fun hnone => ?_⟩
        · rw [hmore c]
          rfl
        · exact Nat.add_lt_add_right (hlt (List.forall₂_cons.1 hnone).2) _
      rw [dispatch] at h
      simp only [dispatch]
      cases hiei : e.iei with
      | none =>
        grind [map_eq_some_iff]
      | some i =>
        rw [hiei] at h
        dsimp only at h ⊢
        by_cases hmatch : i.Matches y
        · rw [if_pos hmatch] at h
          obtain ⟨⟨x, tail⟩, hx, heq⟩ := ok_of_map (some.inj h)
          cases heq
          obtain ⟨⟨z, rfl⟩, hlen⟩ :=
            decodeCase_sets (hreg e mem_cons_self) hiei hx
          rw [countSet_cons, countSet_cons]
          refine ⟨fun c => ?_, hlen, ?_, fun hnone => ?_⟩
          · rw [if_pos hmatch,
              decodeCase_more (hreg e mem_cons_self) hiei hx c]
            rfl
          · grind
          · simp_all
        · grind [map_eq_some_iff]

theorem length_skipUnknownIE (h : skipUnknownIE y b = some rest) : rest.length ≤ b.length := by
  unfold skipUnknownIE at h
  split at h
  · cases b with
    | nil => cases h
    | cons n b =>
      obtain ⟨⟨body, rest'⟩, htake, rfl⟩ := map_eq_some_iff.1 h
      rw [length_cons, (takeBytes_eq_some htake).2, length_append]
      dsimp only
      omega
  · cases h
    exact Nat.le_refl _

theorem skipUnknownIE_more (h : skipUnknownIE y b = some rest) (c : Bytes) :
    skipUnknownIE y (b ++ c) = some (rest ++ c) := by
  unfold skipUnknownIE at h ⊢
  by_cases hlow : y >>> 4 ≤ 7
  · rw [if_pos hlow] at h ⊢
    cases b with
    | nil => cases h
    | cons n b =>
      obtain ⟨⟨body, rest'⟩, htake, rfl⟩ := map_eq_some_iff.1 h
      rw [cons_append, takeUint8_cons]
      dsimp only
      rw [takeBytes_more htake c]
      rfl
  · rw [if_neg hlow] at h ⊢
    cases h
    rfl

/-- More fuel than there are bytes changes nothing. -/
theorem decodeOptional_fuel (hreg : ∀ e ∈ es, e.Regular) {fuel more : Nat}
    (hfuel : b.length ≤ fuel) (hmore : b.length ≤ more) :
    decodeOptional msg es fuel vals b = decodeOptional msg es more vals b := by
  induction fuel generalizing more vals b with
  | zero =>
    cases length_eq_zero_iff.1 (le_zero.1 hfuel)
    cases more <;> rfl
  | succ fuel ih =>
    cases b with
    | nil => cases more <;> rfl
    | cons y b =>
      cases more with
      | zero => cases hmore
      | succ more =>
        have hfuel' := le_of_succ_le_succ hfuel
        have hmore' := le_of_succ_le_succ hmore
        rw [decodeOptional, decodeOptional]
        cases hdisp : dispatch msg y b es vals with
        | none =>
          cases hskip : skipUnknownIE y b with
          | none => rfl
          | some rest =>
            have hle := length_skipUnknownIE hskip
            exact ih (Nat.le_trans hle hfuel') (Nat.le_trans hle hmore')
        | some r =>
          cases r with
          | error => rfl
          | ok p =>
            have hle := (dispatch_spec hreg hdisp).2.1
            exact ih (Nat.le_trans hle hfuel') (Nat.le_trans hle hmore')

/-- The loop over so many bytes. -/
def readOptional (msg : String) (es : List IEEntry) (vals : List (Option Value)) (b : Bytes) :
    Except DecodeError (List (Option Value)) :=
  decodeOptional msg es b.length vals b

section

variable (hreg : ∀ e ∈ es, e.Regular)
include hreg

theorem readOptional_known (h : dispatch msg y b es vals = some (.ok (vs, rest))) :
    readOptional msg es vals (y :: b) = readOptional msg es vs rest := by
  unfold readOptional
  rw [length_cons, decodeOptional, h]
  exact decodeOptional_fuel hreg (dispatch_spec hreg h).2.1 (Nat.le_refl _)

theorem readOptional_skip (h : dispatch msg y b es vals = none)
    (hskip : skipUnknownIE y b = some rest) :
    readOptional msg es vals (y :: b) = readOptional msg es vals rest := by
  unfold readOptional
  rw [length_cons, decodeOptional, h]
  rw [hskip]
  exact decodeOptional_fuel hreg (length_skipUnknownIE hskip) (Nat.le_refl _)

end

/-- Bytes that are a number of whole elements, and the fields before and after them. -/
inductive Comes (msg : String) (es : List IEEntry) :
    List (Option Value) → Bytes → List (Option Value) → Prop where
  | nil (vals : List (Option Value)) : Comes msg es vals [] vals
  | known {vals vals' vals'' : List (Option Value)} {y : UInt8} {b pre : Bytes}
      (h : dispatch msg y b es vals = some (.ok (vals', [])))
      (more : Comes msg es vals' pre vals'') : Comes msg es vals (y :: (b ++ pre)) vals''
  | unknown {vals vals' : List (Option Value)} {y : UInt8} {b pre : Bytes}
      (hun : Unlisted es y)
      (hskip : skipUnknownIE y b = some []) (more : Comes msg es vals pre vals') :
      Comes msg es vals (y :: (b ++ pre)) vals'

theorem Comes.read {pre : Bytes} (hreg : ∀ e ∈ es, e.Regular) (h : Comes msg es vals pre vs)
    (rest : Bytes) :
    readOptional msg es vals (pre ++ rest) = readOptional msg es vs rest := by
  induction h with
  | nil => rfl
  | known h _ ih =>
    rw [cons_append, append_assoc, ← ih,
      readOptional_known hreg ((dispatch_spec hreg h).1 _)]
    rfl
  | unknown hun hskip _ ih =>
    rw [cons_append, append_assoc, ← ih,
      readOptional_skip hreg (dispatch_of_unlisted hun _ _) (skipUnknownIE_more hskip _)]
    rfl

/-! ## Elements that are skipped -/

/-- Octets whose high bit is set and elements with a length in one octet, none of them listed. -/
inductive Skipped (es : List IEEntry) : Bytes → Prop where
  | nil : Skipped es []
  | octet {y : UInt8} {b : Bytes} (hun : Unlisted es y) (hhigh : ¬y < 0x80)
      (more : Skipped es b) : Skipped es (y :: b)
  | tlv {y n : UInt8} {body b : Bytes} (hun : Unlisted es y) (hlow : y < 0x80)
      (hlen : body.length = n.toNat) (more : Skipped es b) : Skipped es (y :: n :: (body ++ b))

set_option maxRecDepth 4000 in
theorem shift_le_seven (y : UInt8) : y >>> 4 ≤ 7 ↔ y < 0x80 :=
  forall_uint8 (P := fun y => y >>> 4 ≤ 7 ↔ y < 0x80) (by decide) y

theorem skipUnknownIE_octet (h : ¬y < 0x80) (b : Bytes) : skipUnknownIE y b = some b :=
  if_neg fun hlow => h ((shift_le_seven y).1 hlow)

theorem skipUnknownIE_tlv (h : y < 0x80) {n : UInt8} (hlen : n.toNat ≤ b.length) :
    skipUnknownIE y (n :: b) = some (b.drop n.toNat) := by
  unfold skipUnknownIE takeBytes
  grind [shift_le_seven, takeUint8_cons]

theorem skipped_tlv_iff (hun : Unlisted es y) (h : y < 0x80) (n : UInt8) (b : Bytes) :
    Skipped es (y :: n :: b) ↔ n.toNat ≤ b.length ∧ Skipped es (b.drop n.toNat) := by
  constructor
  · intro hskipped
    cases hskipped with
    | octet _ hhigh => exact absurd h hhigh
    | tlv _ _ hlen more =>
      rw [length_append, ← hlen, drop_left]
      exact ⟨le_add_right _ _, more⟩
  · rintro ⟨hle, more⟩
    have hskipped := Skipped.tlv hun h (length_take_of_le hle) more
    rwa [take_append_drop] at hskipped

theorem Skipped.read {w : Bytes} (hreg : ∀ e ∈ es, e.Regular) (h : Skipped es w) (rest : Bytes) :
    readOptional msg es vals (w ++ rest) = readOptional msg es vals rest := by
  induction h with
  | nil => rfl
  | octet hun hhigh _ ih =>
    rw [cons_append, ← ih]
    exact readOptional_skip hreg (dispatch_of_unlisted hun _ _) (skipUnknownIE_octet hhigh _)
  | @tlv y n body b hun hlow hlen _ ih =>
    have hle : n.toNat ≤ (body ++ (b ++ rest)).length := by
      rw [length_append, hlen]
      exact le_add_right _ _
    have hskip := skipUnknownIE_tlv hlow hle
    grind [readOptional_skip, dispatch_of_unlisted]

/-! ## Elements that are not -/

theorem dispatch_of_listed (hlen : es.length = vs.length) (h : ¬Unlisted es y) :
    ∃ r, dispatch msg y b es vs = some r := by
  induction es generalizing vs with
  | nil => exact absurd (fun e he => by cases he) h
  | cons e es ih =>
    cases vs with
    | nil => cases hlen
    | cons v vs =>
      have hrest : (∀ i, e.iei = some i → ¬i.Matches y) →
          ∃ r, dispatch msg y b es vs = some r := by
        intro hfirst
        refine ih (succ.inj hlen) fun hun => h fun d hd => ?_
        rcases mem_cons.1 hd with rfl | hd
        · exact hfirst
        · exact hun d hd
      simp only [dispatch]
      cases hiei : e.iei with
      | none =>
        simp_all
      | some i =>
        by_cases hmatch : i.Matches y
        · exact ⟨_, if_pos hmatch⟩
        · simp_all

theorem countSet_decodeOptional {fuel : Nat} (hreg : ∀ e ∈ es, e.Regular)
    (h : decodeOptional msg es fuel vs b = .ok vals) : countSet vs ≤ countSet vals := by
  induction fuel generalizing vs b with
  | zero =>
    cases b with
    | nil | cons y b =>
      cases h
      exact Nat.le_refl _
  | succ fuel ih =>
    cases b with
    | nil =>
      cases h
      exact Nat.le_refl _
    | cons y b =>
      unfold decodeOptional at h
      split at h
      · cases h
      · case h_2 vs' b' hdisp =>
        exact Nat.le_trans (dispatch_spec hreg hdisp).2.2.1 (ih h)
      · grind

/-- An element with a length in one octet, in which a byte stands at a given place. -/
theorem exists_hidden (a : UInt8) {m : Nat} (hm : m < 256) :
    ∃ (n : UInt8) (body tail : Bytes), body.length = n.toNat ∧ m ≤ body.length ∧
      (n :: body).drop m = a :: tail := by
  cases m with
  | zero => exact ⟨a, replicate a.toNat 0, _, length_replicate, zero_le _, rfl⟩
  | succ k =>
    have hn : (ofNat (k + 1)).toNat = k + 1 := by
      rw [toNat_ofNat']
      omega
    refine ⟨ofNat (k + 1), replicate k 0 ++ [a], [], ?_, ?_, ?_⟩
    · rw [hn, length_append, length_replicate]
      rfl
    · rw [length_append, length_replicate]
      exact Nat.le_refl _
    · rw [drop_succ_cons]
      exact drop_left' length_replicate

section

variable (hreg : ∀ e ∈ es, e.Regular)
  (hvals : List.Forall₂ (fun e v => e.iei ≠ none → v = none) es vals)
include hreg hvals

/-- A listed element sets its field or stops the decoder. -/
theorem readOptional_of_listed (h : ¬Unlisted es y) :
    readOptional msg es vals (y :: b) ≠ .ok vals := by
  intro hread
  obtain ⟨r, hr⟩ := @dispatch_of_listed msg b es vals y hvals.length_eq h
  cases r with
  | error err =>
    unfold readOptional at hread
    rw [length_cons, decodeOptional, hr] at hread
    cases hread
  | ok p =>
    rw [readOptional_known hreg hr] at hread
    have hlt := (dispatch_spec hreg hr).2.2.2 hvals
    exact absurd (countSet_decodeOptional hreg hread) (Nat.not_le_of_lt hlt)

/-- Bytes that are not skipped have something behind them read in another way. -/
theorem exists_lost (hy : ∃ y, ¬Unlisted es y) {k : Nat} {w : Bytes} (hk : w.length ≤ k)
    (h : ¬Skipped es w) :
    ∃ post, readOptional msg es vals post = .ok vals ∧
      readOptional msg es vals (w ++ post) ≠ .ok vals := by
  induction k generalizing w with
  | zero =>
    cases length_eq_zero_iff.1 (le_zero.1 hk)
    exact absurd .nil h
  | succ k ih =>
    cases w with
    | nil => exact absurd .nil h
    | cons y w =>
    have hk := le_of_succ_le_succ hk
    by_cases hun : Unlisted es y
    case neg => exact ⟨[], rfl, readOptional_of_listed hreg hvals hun⟩
    by_cases hlow : y < 0x80
    case neg =>
      obtain ⟨post, hpost, hlost⟩ := ih hk fun hw => h (.octet hun hlow hw)
      refine ⟨post, hpost, ?_⟩
      rw [cons_append, readOptional_skip hreg (dispatch_of_unlisted hun _ _)
        (skipUnknownIE_octet hlow _)]
      exact hlost
    -- an element that is skipped, the body of which begins a listed one where `w` ends in its midst
    have hcut : ∀ m, m < 256 → (∀ n body, body.length = n.toNat → m ≤ body.length →
        skipUnknownIE y (w ++ y :: n :: body) = some ((n :: body).drop m)) →
          ∃ post, readOptional msg es vals post = .ok vals ∧
            readOptional msg es vals (y :: w ++ post) ≠ .ok vals := by
      intro m hm hskip
      obtain ⟨z, hz⟩ := hy
      obtain ⟨n, body, tail, hlen, hle, hdrop⟩ := exists_hidden z hm
      refine ⟨y :: n :: body, ?_, ?_⟩
      · have hwhole := skipUnknownIE_tlv hlow (Nat.le_of_eq hlen.symm)
        rw [← hlen, drop_length] at hwhole
        rw [readOptional_skip hreg (dispatch_of_unlisted hun _ _) hwhole]
        rfl
      · rw [cons_append, readOptional_skip hreg (dispatch_of_unlisted hun _ _)
          (hskip n body hlen hle), hdrop]
        exact readOptional_of_listed hreg hvals hz
    cases w with
    | nil =>
      refine hcut y.toNat y.toNat_lt fun n body hlen hle => ?_
      exact skipUnknownIE_tlv hlow (le_succ_of_le hle)
    | cons n' w =>
      by_cases hlen' : n'.toNat ≤ w.length
      · have hw : ¬Skipped es (w.drop n'.toNat) := fun hw =>
          h ((skipped_tlv_iff hun hlow n' w).2 ⟨hlen', hw⟩)
        have hshort : (w.drop n'.toNat).length ≤ k := by
          rw [length_cons] at hk
          rw [length_drop]
          omega
        obtain ⟨post, hpost, hlost⟩ := ih hshort hw
        refine ⟨post, hpost, ?_⟩
        have hskip := skipUnknownIE_tlv (b := w ++ post) hlow
          (Nat.le_trans hlen' (by rw [List.length_append]; exact Nat.le_add_right _ _))
        rw [drop_append_of_le_length hlen'] at hskip
        simp_all [readOptional_skip, dispatch_of_unlisted]
      · have hn := n'.toNat_lt
        refine hcut (n'.toNat - w.length - 1) (by omega) fun n body hlen hle => ?_
        have hsplit : n'.toNat = w.length + (n'.toNat - w.length - 1 + 1) := by omega
        have hle' : n'.toNat ≤ (w ++ y :: n :: body).length := by
          rw [length_append, length_cons, length_cons]
          omega
        rw [cons_append, skipUnknownIE_tlv hlow hle']
        conv => lhs; rw [hsplit]
        rw [drop_length_add_append]
        rfl

end

/-! ## Unknown elements in a message -/

/-- An element as the encoder writes it. -/
inductive EncodedIE where
  | half (iei value : UInt8)
  | tlv (iei : UInt8) (value : Bytes)
  | tlve (iei : UInt8) (value : Bytes)

namespace EncodedIE

/-- `EncodeTVHalfOctet`, `EncodeTLV` and `EncodeTLVE`. -/
def bytes : EncodedIE → Bytes
  | half iei value => [((iei &&& 0x0F) <<< 4) ||| (value &&& 0x0F)]
  | tlv iei value => encodeTLV iei value
  | tlve iei value => encodeTLVE iei value

def iei : EncodedIE → IEI
  | half a _ => .half (a <<< 4)
  | tlv a _ => .full a
  | tlve a _ => .full a

/-- The IEI is one of the format, and the encoder takes the value. -/
def Standard : EncodedIE → Prop
  | half a _ => 8 ≤ a ∧ a < 16
  | tlv a value => a < 0x80 ∧ value.length ≤ 0xFF
  | tlve a value => (0x70 ≤ a ∧ a < 0x80) ∧ value.length ≤ 0xFFFF

/-- What is left of the element, once the first octet of its length has been taken for the whole of
it, is skipped in its turn. -/
def Harmless (es : List IEEntry) : EncodedIE → Prop
  | half _ _ => True
  | tlv _ _ => True
  | tlve _ value => Skipped es ((UInt8.ofNat value.length :: value).drop (value.length / 256))

set_option maxRecDepth 4000 in
theorem half_high {a value : UInt8} (ha : 8 ≤ a ∧ a < 16) :
    ¬(((a &&& 0x0F) <<< 4) ||| (value &&& 0x0F)) < 0x80 := by
  have hbits : ((((a &&& 0x0F) <<< 4) ||| (value &&& 0x0F)) >>> 4) = a := by
    rw [high_or]
    exact forall_uint8 (P := fun a : UInt8 => 8 ≤ a ∧ a < 16 → (a &&& 0x0F) &&& 0x0F = a)
      (by decide) a ha
  grind [shift_le_seven]

theorem half_matches (a value : UInt8) :
    (((a &&& 0x0F) <<< 4) ||| (value &&& 0x0F)) &&& (0xF0 : UInt8) = a <<< (4 : UInt8) := by
  apply eq_of_bits
  simp [Fin.forall_fin_succ]

end EncodedIE

/-- An element that the table of a message does not list. -/
structure UnknownIE (t : MessageTable) where
  ie : EncodedIE
  standard : ie.Standard
  unlisted : ∀ e ∈ t.ies, ∀ i, e.iei = some i → i.Apart ie.iei

/-- The bytes may stand at any place between the optional elements of a message. -/
def Unaffected (t : MessageTable) (w : Bytes) : Prop :=
  ∀ head vals, decodeMandatory t.name t.ies head = .ok (vals, []) →
    ∀ pre vals' post values, Comes t.name t.ies vals pre vals' →
      decode t.toMessageDef (head ++ (pre ++ post)) = .ok values →
        decode t.toMessageDef (head ++ (pre ++ (w ++ post))) = .ok values

variable {t : MessageTable} {head : Bytes}

theorem decode_head (hhead : decodeMandatory t.name t.ies head = .ok (vals, [])) (b : Bytes) :
    decode t.toMessageDef (head ++ b) = readOptional t.name t.ies vals b :=
  bind_of_ok (decodeMandatory_more t.regular hhead b)

theorem readOptional_of_none (h : ∀ e ∈ es, e.iei = none) {fuel : Nat} :
    decodeOptional msg es fuel vals b = .ok vals := by
  have hun : ∀ y, Unlisted es y := fun y e he i hi => by
    rw [h e he] at hi
    cases hi
  induction fuel generalizing b with
  | zero => cases b <;> rfl
  | succ fuel ih =>
    cases b with
    | nil => rfl
    | cons y b =>
      rw [decodeOptional, dispatch_of_unlisted (hun y)]
      cases skipUnknownIE y b with
      | none => rfl
      | some => exact ih

theorem exists_listed (h : ¬∀ e ∈ t.ies, e.iei = none) : ∃ y, ¬Unlisted t.ies y := by
  obtain ⟨e, h⟩ := Classical.not_forall.1 h
  obtain ⟨he, hiei⟩ := Classical.not_imp.1 h
  obtain ⟨i, hi⟩ := ne_none_iff_exists'.1 hiei
  refine ⟨i.byte, fun hun => hun e he i hi ?_⟩
  rcases (t.regular e he).optional hi with ⟨a, fields, rfl, ha, -⟩ | ⟨a, rfl, -⟩ | ⟨a, rfl, -⟩ |
    ⟨a, rfl, -⟩
  · exact eq_high ha
  · rfl
  · rfl
  · rfl

/-- Bytes of any kind are passed over if and only if they are elements that are skipped. -/
theorem unaffected_iff_skipped (hhead : decodeMandatory t.name t.ies head = .ok (vals, []))
    (w : Bytes) : Unaffected t w ↔ (∀ e ∈ t.ies, e.iei = none) ∨ Skipped t.ies w := by
  constructor
  · intro h
    by_cases hnone : ∀ e ∈ t.ies, e.iei = none
    · exact .inl hnone
    refine .inr (Classical.byContradiction fun hw => ?_)
    obtain ⟨post, hpost, hlost⟩ := exists_lost t.regular (decodeMandatory_optional hhead)
      (exists_listed hnone) (Nat.le_refl _) hw
    have hkept := h head vals hhead [] vals post vals (.nil vals)
      ((decode_head hhead post).trans hpost)
    exact hlost ((decode_head hhead (w ++ post)).symm.trans hkept)
  · intro h head vals hhead pre vals' post values hpre hdec
    rw [decode_head hhead, hpre.read t.regular] at hdec ⊢
    rcases h with hnone | hw
    · unfold readOptional at hdec ⊢
      rw [readOptional_of_none hnone] at hdec ⊢
      exact hdec
    · rw [hw.read t.regular]
      exact hdec

theorem UnknownIE.skipped_iff (u : UnknownIE t) :
    Skipped t.ies u.ie.bytes ↔ u.ie.Harmless t.ies := by
  obtain ⟨ie, hstd, hun⟩ := u
  have hfull : ∀ a, ie.iei = .full a → Unlisted t.ies a := by
    intro a ha e he i hi
    exact (matches_full a).2 i (ha ▸ hun e he i hi)
  cases ie with
  | half a value =>
    refine iff_of_true (.octet (fun e he i hi => ?_) (EncodedIE.half_high hstd) .nil) trivial
    exact (matches_half (EncodedIE.half_matches a value)).2 i (hun e he i hi)
  | tlv a value =>
    obtain ⟨hlow, hlen⟩ := hstd
    refine iff_of_true ?_ trivial
    change Skipped t.ies (encodeTLV a value)
    have hn : (ofNat value.length).toNat = value.length := by
      rw [toNat_ofNat']
      omega
    rw [IEEntry.encodeTLV_eq hlen, encodeLV, if_neg (Nat.not_lt_of_le hlen),
      skipped_tlv_iff (hfull a rfl) hlow, hn, drop_length]
    exact ⟨Nat.le_refl _, .nil⟩
  | tlve a value =>
    obtain ⟨⟨-, hlow⟩, hlen⟩ := hstd
    change Skipped t.ies (encodeTLVE a value) ↔ Skipped t.ies _
    have hn : (ofNat (value.length / 256)).toNat = value.length / 256 := by
      rw [toNat_ofNat']
      omega
    rw [IEEntry.encodeTLVE_eq hlen, encodeLVE, if_neg (Nat.not_lt_of_le hlen)]
    change Skipped t.ies (a :: ofNat (value.length / 256) ::
      (ofNat value.length :: value)) ↔ _
    rw [skipped_tlv_iff (hfull a rfl) hlow, hn]
    refine and_iff_right ?_
    rw [length_cons]
    omega

/-- An unknown element may stand anywhere if and only if the message has no optional elements, or
what is left of it is skipped. -/
theorem unaffected_iff (hhead : decodeMandatory t.name t.ies head = .ok (vals, []))
    (u : UnknownIE t) :
    Unaffected t u.ie.bytes ↔ (∀ e ∈ t.ies, e.iei = none) ∨ u.ie.Harmless t.ies :=
  (unaffected_iff_skipped hhead _).trans (or_congr_right u.skipped_iff)

/-- `EAPMessage`, which this message does not list. -/
def eapMessage : UnknownIE dlNASTransport where
  ie := .tlve 0x78 [1, 2, 3]
  standard := ⟨by decide, by decide⟩
  unlisted := by decide

/-- Before the optional elements. -/
def transportVals : List (Option Value) :=
  [some (.bits [1]), some (.bits [0, 0]), some (.raw [1, 2, 3]), none, none, none, none]

theorem decodeMandatory_transport :
    decodeMandatory dlNASTransport.name dlNASTransport.ies [1, 0, 3, 1, 2, 3] =
      .ok (transportVals, []) := by decide

theorem unaffected_iff_eapMessage :
    Unaffected dlNASTransport eapMessage.ie.bytes ↔
      (∀ e ∈ dlNASTransport.ies, e.iei = none) ∨ eapMessage.ie.Harmless dlNASTransport.ies :=
  unaffected_iff decodeMandatory_transport eapMessage

/-- The cause behind it is not read. -/
theorem cause_lost : ¬∀ (t : MessageTable) (u : UnknownIE t), Unaffected t u.ie.bytes := by
  intro h
  have hread : decode dlNASTransport.toMessageDef ([1, 0, 3, 1, 2, 3] ++ ([] ++ [0x58, 5])) =
      .ok [some (.bits [1]), some (.bits [0, 0]), some (.raw [1, 2, 3]), none, none,
        some (.struct [[5]]), none] := rfl
  have hlost : decode dlNASTransport.toMessageDef
      ([1, 0, 3, 1, 2, 3] ++ ([] ++ (eapMessage.ie.bytes ++ [0x58, 5]))) = .ok transportVals := rfl
  have hkept := h dlNASTransport eapMessage _ _ decodeMandatory_transport [] _ [0x58, 5] _ (.nil _)
    hread
  have hcause := congrArg (fun l => l.getD 5 none) (Except.ok.inj (hlost.symm.trans hkept))
  cases hcause

end MmtCore.Nas
