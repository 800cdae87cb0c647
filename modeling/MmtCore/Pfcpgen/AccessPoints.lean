import MmtCore.Nas.ReadBack
import MmtCore.Pfcpgen.Runtime

/-!
# Access point names and data network names

The APN/DNN element of PFCP and the DNN of NAS were written apart (`runtime/types.go` of each
codec).  Here the PFCP one is its loops, over what was written and read so far; the two agree on
every name and on every byte string.
-/

namespace MmtCore.Pfcpgen

open List

open MmtCore.Nas (encodeDNN decodeDNN dnnLabels labelCode)

namespace APNDNN

/-- A label behind its length; an empty one is left out. -/
def putLabel (out label : Bytes) : Bytes :=
  if 0 < label.length then out ++ UInt8.ofNat label.length :: label else out

/-- The loop of `Encode`; `label` is what stands between `start` and `i`. -/
def encodeLoop (out label : Bytes) : Bytes → Bytes
  | [] => putLabel out label
  | c :: value =>
    if c = 0x2E then encodeLoop (putLabel out label) [] value else encodeLoop out (label ++ [c]) value

/-- The loop of `Decode`; the fuel is the number of bytes. -/
def decodeLoop (parts : List Bytes) : Nat → Bytes → Option (List Bytes)
  | _, [] => some parts
  | 0, _ :: _ => none
  | fuel + 1, ln :: v =>
    if ln = 0 ∨ v.length < ln.toNat then none
    else decodeLoop (parts ++ [v.take ln.toNat]) fuel (v.drop ln.toNat)

/-- The parts with dots between them. -/
def joinParts : List Bytes → Bytes
  | [] => []
  | p :: parts => parts.foldl (fun value p => value ++ 0x2E :: p) p

theorem putLabel_eq (out label : Bytes) : putLabel out label = out ++ labelCode [label] := by
  cases label <;> simp [putLabel, labelCode]

theorem encodeLoop_eq {label : Bytes} (h : (0x2E : UInt8) ∉ label) (out value : Bytes) :
    encodeLoop out label value = out ++ labelCode ((label ++ value).splitOn 0x2E) := by
  induction value generalizing out label with
  | nil => rw [encodeLoop, putLabel_eq, append_nil, splitOn_eq_singleton h]
  | cons c value ih =>
    rw [encodeLoop]
    split
    · case isTrue hc =>
      rw [hc, ih not_mem_nil, putLabel_eq, splitOn_append_cons_self,
        splitOn_eq_singleton h]
      simp [labelCode]
    · simp_all [Ne.symm]

theorem encode_eq_loop (value : Bytes) : (⟨value⟩ : APNDNN).encode = encodeLoop [] [] value :=
  (encodeLoop_eq not_mem_nil [] value).symm

theorem decodeLoop_eq (parts : List Bytes) (fuel : Nat) (v : Bytes) :
    decodeLoop parts fuel v = (dnnLabels fuel v).map (parts ++ ·) := by
  induction fuel generalizing parts v with
  | zero => cases v <;> simp [decodeLoop, dnnLabels]
  | succ fuel ih =>
    cases v with
    | nil => simp [decodeLoop, dnnLabels]
    | cons ln v =>
      rw [decodeLoop, dnnLabels]
      split
      · rfl
      · rw [ih, Option.map_map]
        exact congrArg (Option.map · _) (funext fun ls => by simp)

theorem foldl_parts (value : Bytes) (parts : List Bytes) :
    parts.foldl (fun value p => value ++ 0x2E :: p) value = [0x2E].intercalate (value :: parts) := by
  induction parts generalizing value with
  | nil => simp
  | cons p parts ih =>
    rw [foldl_cons, ih, intercalate_cons_cons]
    cases parts <;> simp

theorem joinParts_eq (parts : List Bytes) : joinParts parts = [0x2E].intercalate parts := by
  cases parts with
  | nil => rfl
  | cons p parts => exact foldl_parts p parts

theorem decode_eq_loop (v : Bytes) :
    decode v = match decodeLoop [] v.length v with
      | none => .error .invalidLength
      | some parts => .ok ⟨joinParts parts⟩ := by
  rw [decode, decodeLoop_eq]
  cases dnnLabels v.length v with
  | none => rfl
  | some parts => simp [joinParts_eq]

end APNDNN

/-! ## The labels of a name -/

/-- The labels that are written. -/
def labelsOf (value : Bytes) : List Bytes := (value.splitOn 0x2E).filter (· ≠ [])

/-- The bytes are these labels, each behind an octet that tells its length. -/
structure LabelSequence (labels : List Bytes) (v : Bytes) : Prop where
  bytes : v = labels.flatMap fun l => UInt8.ofNat l.length :: l
  length : ∀ l ∈ labels, l ≠ [] ∧ (UInt8.ofNat l.length).toNat = l.length

theorem labelCode_filter (ls : List Bytes) : labelCode (ls.filter (· ≠ [])) = labelCode ls := by
  induction ls with
  | nil => rfl
  | cons l ls ih => by_cases hl : l = [] <;> simp_all [labelCode]

theorem labelCode_eq {ls : List Bytes} (h : ∀ l ∈ ls, l ≠ []) :
    labelCode ls = ls.flatMap fun l => UInt8.ofNat l.length :: l :=
  flatMap_congr fun l hl => if_neg (h l hl)

variable {value : Bytes}

theorem encodeDNN_labels (value : Bytes) : encodeDNN value = labelCode (labelsOf value) :=
  (labelCode_filter _).symm

section

variable (h : ∀ l ∈ value.splitOn 0x2E, l.length ≤ 255)
include h

theorem of_mem_labelsOf {l : Bytes} (hl : l ∈ labelsOf value) : l ≠ [] ∧ l.length ≤ 255 := by
  obtain ⟨hmem, hne⟩ := mem_filter.1 hl
  exact ⟨by simpa using hne, h l hmem⟩

theorem labelSequence_labelsOf : LabelSequence (labelsOf value) (encodeDNN value) where
  bytes := by rw [encodeDNN_labels, labelCode_eq fun l hl => (of_mem_labelsOf h hl).1]
  length l hl := by
    obtain ⟨hne, hle⟩ := of_mem_labelsOf h hl
    exact ⟨hne, UInt8.toNat_ofNat_of_lt' (Nat.lt_succ_of_le hle)⟩

theorem dnnLabels_encodeDNN :
    dnnLabels (encodeDNN value).length (encodeDNN value) = some (labelsOf value) := by
  rw [encodeDNN_labels]
  exact Nas.dnnLabels_labelCode (fun l hl => of_mem_labelsOf h hl) (Nat.le_refl _)

end

/-- Both codecs write the same bytes for a name, and read the same from any bytes.  Where no label
is longer than its length octet can tell, the bytes are the labels that are not empty, and they are
read back as those labels with dots between them: the name itself, unless it had an empty label. -/
theorem name_coded (value : Bytes) :
    APNDNN.encodeLoop [] [] value = encodeDNN value ∧
    (∀ v, (APNDNN.decode v).toOption.map APNDNN.value = (decodeDNN v).toOption) ∧
    ((∀ l ∈ value.splitOn 0x2E, l.length ≤ 255) →
      LabelSequence (labelsOf value) (encodeDNN value) ∧
      decodeDNN (encodeDNN value) = .ok ([0x2E].intercalate (labelsOf value)) ∧
      APNDNN.decode (encodeDNN value) = .ok ⟨[0x2E].intercalate (labelsOf value)⟩ ∧
      ([0x2E].intercalate (labelsOf value) = value ↔
        value = [] ∨ [] ∉ value.splitOn 0x2E)) := by
  refine ⟨APNDNN.encode_eq_loop value ▸ rfl, fun v => ?_, fun h => ?_⟩
  · unfold APNDNN.decode decodeDNN
    cases dnnLabels v.length v <;> rfl
  · have hback : decodeDNN (encodeDNN value) = .ok ([0x2E].intercalate (labelsOf value)) := by
      rw [decodeDNN, dnnLabels_encodeDNN h]
    refine ⟨labelSequence_labelsOf h, hback, by rw [APNDNN.decode, dnnLabels_encodeDNN h], ?_⟩
    have hiff := Nas.decodeDNN_encode_iff value
    rw [hback, Except.ok.injEq] at hiff
    refine hiff.trans (or_congr_right ⟨fun hl hmem => (hl _ hmem).1 rfl, fun hnil l hl => ?_⟩)
    exact ⟨fun he => hnil (he ▸ hl), h l hl⟩

/-- `ims` and `apn1`. -/
theorem name_coded_ims :
    decodeDNN (encodeDNN [105, 109, 115, 46, 97, 112, 110, 49]) =
      .ok [105, 109, 115, 46, 97, 112, 110, 49] := by
  obtain ⟨-, hback, -, hname⟩ :=
    (name_coded [105, 109, 115, 46, 97, 112, 110, 49]).2.2 (by decide)
  rw [hback, hname.2 (by decide)]

/-- Two dots in a row come back as one. -/
theorem name_empty_label :
    ¬∀ value : Bytes, decodeDNN (encodeDNN value) = .ok value :=
  fun h => absurd (h [97, 46, 46, 98]) (by decide)

end MmtCore.Pfcpgen
