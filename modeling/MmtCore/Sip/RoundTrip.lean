import MmtCore.Sip.Message

/-!
# The wire round trip

What `Parse` makes of a serialised message.  The header section is taken apart line by line: `Sip`
lines never hold a line break, so the separators that the serialiser writes are the ones that the
parser finds, and each header line is read as the name and the value it was written from when they
meet `FieldOK`.
-/

namespace MmtCore.Sip

open MmtCore.Lib List Option

/-! ## Line breaks -/

/-- A text without a line break in it. -/
def OneLine (s : Bytes) : Prop := ¬ crlf <:+: s
  deriving Decidable

variable {s : Bytes} {ls : List Bytes} {line name : Bytes} {m : SipMessage} {es : Visit}
  {start : StartLine} {values : List Bytes} {h : Headers} {e : Sigma fun _ : Bytes => List Bytes}
  {data v : Bytes}

theorem OneLine.of_isInfix {t : Bytes} (h : OneLine t) (hs : s <:+: t) : OneLine s :=
  fun h' => h (h'.trans hs)

/-- Two texts that are joined by something else than a carriage return or a line feed. -/
theorem OneLine.append_cons {t : Bytes} {c : UInt8} (hs : OneLine s) (ht : OneLine t) (hcr : c ≠ 13)
    (hlf : c ≠ 10) : OneLine (s ++ c :: t) := by
  induction s with
  | nil =>
    intro h
    rcases infix_cons_iff.mp h with h | h
    · exact hcr (cons_prefix_cons.mp h).1.symm
    · exact ht h
  | cons b s ih =>
    have hs' : OneLine s := hs.of_isInfix (suffix_cons b s).isInfix
    intro h
    rcases infix_cons_iff.mp h with h | h
    · cases s with
      | nil =>
        exact hlf (cons_prefix_cons.mp (cons_prefix_cons.mp h).2).1.symm
      | cons b' s =>
        obtain ⟨hb, hb'⟩ := cons_prefix_cons.mp h
        refine hs (List.IsPrefix.isInfix ?_)
        exact cons_prefix_cons.mpr ⟨hb, cons_prefix_cons.mpr
          ⟨(cons_prefix_cons.mp hb').1, nil_prefix⟩⟩
    · exact ih hs' h

theorem oneLine_of_notMem (h : 13 ∉ s) : OneLine s :=
  fun h' => h (h'.subset (mem_cons_self ..))

theorem crlf_ne_nil : crlf ≠ [] := cons_ne_nil _ _

theorem OneLine.clear (h : OneLine s) : Clear crlf s :=
  clear_pair (by decide) h

/-- The lines of the headers, without the line breaks. -/
def headerLines (es : Visit) : List Bytes :=
  es.flatMap fun e => e.2.map fun v => e.1 ++ 58 :: 32 :: v

theorem serializeMsg_eq (startLine : Bytes) (es : Visit) (body : Bytes) :
    serializeMsg startLine es body =
      crlf.intercalate (startLine :: headerLines es) ++ (crlf ++ crlf) ++ body := by
  have hlines : ∀ (ls : List Bytes) (l : Bytes),
      l ++ crlf ++ ls.flatMap (· ++ crlf) = crlf.intercalate (l :: ls) ++ crlf := by
    intro ls
    induction ls with
    | nil => simp
    | cons l' ls ih =>
      intro l
      rw [flatMap_cons, ih, intercalate_cons_cons]
      simp
  have hfields : (es.flatMap fun e => e.2.flatMap fun v => e.1 ++ txt ": " ++ v ++ crlf) =
      (headerLines es).flatMap (· ++ crlf) := by
    unfold headerLines
    rw [flatMap_assoc]
    refine flatMap_congr fun e _ => ?_
    rw [flatMap_map]
    refine flatMap_congr fun v _ => ?_
    have htxt : txt ": " = [58, 32] := by decide
    simp [htxt]
  unfold serializeMsg
  rw [hfields, hlines]
  simp

/-! ## Folding -/

theorem foldl_unfoldLine_of_not_folded {acc : List Bytes} (h : ∀ l ∈ ls, isFolded l = false) :
    ls.foldl unfoldLine acc = acc ++ ls := by
  induction ls generalizing acc with
  | nil => simp
  | cons l ls ih =>
    simp_all [unfoldLine]

/-- The first line continues nothing, whatever it begins with. -/
theorem unfoldLines_of_not_folded {l : Bytes} (h : ∀ l' ∈ ls, isFolded l' = false) :
    unfoldLines (l :: ls) = l :: ls := by
  simp_all [foldl_unfoldLine_of_not_folded, unfoldLine, unfoldLines]

theorem oneLine_unfoldLine {acc : List Bytes} (hacc : ∀ l ∈ acc, OneLine l) (hline : OneLine line) :
    ∀ l ∈ unfoldLine acc line, OneLine l := by
  unfold unfoldLine
  split
  · case h_1 last _ hlast =>
    have hmem : last ∈ acc := mem_of_getLast? hlast
    intro l hl
    rcases mem_append.mp hl with hl | hl
    · exact hacc l (mem_of_mem_dropLast hl)
    · rw [mem_singleton.mp hl, append_assoc]
      exact (hacc last hmem).append_cons (hline.of_isInfix trimSpace_isInfix) (by decide) (by decide)
  · grind

theorem oneLine_unfoldLines {lines : List Bytes} (h : ∀ l ∈ lines, OneLine l) :
    ∀ l ∈ unfoldLines lines, OneLine l := by
  have hfold : ∀ (ls acc : List Bytes), (∀ l ∈ ls, OneLine l) → (∀ l ∈ acc, OneLine l) →
      ∀ l ∈ ls.foldl unfoldLine acc, OneLine l := by
    intro ls
    induction ls with
    | nil => exact fun acc _ hacc => hacc
    | cons l ls ih =>
      grind [oneLine_unfoldLine, mem_cons_self]
  exact hfold lines [] h (by simp)

/-! ## What is found of a serialised message -/

theorem isFolded_append (h : Trimmed name) : isFolded (name ++ 58 :: s) = false := by
  cases name with
  | nil => rfl
  | cons b name =>
    have hb : b ≠ 32 := by
      rintro rfl
      exact h.1 [32] (by decide) ⟨name, rfl⟩
    have hb' : b ≠ 9 := by
      rintro rfl
      exact h.1 [9] (by decide) ⟨name, rfl⟩
    simp [isFolded, hb, hb']

/-- The lines that the serialiser has written are found again, and the body after them. -/
theorem parse_serialize_lines (hstart : OneLine m.start.text)
    (hes : ∀ e ∈ es, ∀ v ∈ e.2, Trimmed e.1 ∧ OneLine e.1 ∧ OneLine v) :
    parse (m.serialize es) =
      parseStart m.start.text ((headerLines es).foldl addField ∅) m.body := by
  have hfield : ∀ l ∈ headerLines es, OneLine l ∧ l ≠ [] ∧ isFolded l = false := by
    intro l hl
    obtain ⟨e, he, hl⟩ := mem_flatMap.mp hl
    obtain ⟨v, hv, rfl⟩ := mem_map.mp hl
    obtain ⟨htrim, hname, hvalue⟩ := hes e he v hv
    have hblank : OneLine ([] ++ 32 :: v) :=
      OneLine.append_cons (s := []) (by decide) hvalue (by decide) (by decide)
    refine ⟨hname.append_cons hblank (by decide) (by decide), ?_, isFolded_append htrim⟩
    simp
  have hlines : ∀ l ∈ m.start.text :: headerLines es, OneLine l := by
    simp_all
  have hcut : sections (m.serialize es) =
      (crlf.intercalate (m.start.text :: headerLines es), m.body) := by
    have hclear : Clear (crlf ++ crlf) (crlf.intercalate (m.start.text :: headerLines es)) :=
      clear_twice (by decide) hlines fun l hl => (hfield l hl).2.1
    unfold sections SipMessage.serialize
    rw [serializeMsg_eq, cut_append hclear]
  unfold parse
  rw [hcut, split_intercalate crlf_ne_nil fun l hl => ⟨(hlines l hl).clear, hlines l hl⟩,
    unfoldLines_of_not_folded fun l hl => (hfield l hl).2.2]

/-! ## Start lines -/

theorem splitN_two {a b c : Bytes} (ha : 32 ∉ a) (hb : 32 ∉ b) :
    splitN [32] 2 (a ++ [32] ++ b ++ [32] ++ c) = [a, b, c] := by
  grind [splitN, cut_append, clear_singleton]

theorem version_prefix_iff {a b : Bytes} :
    txt "SIP/2.0" <+: a ++ [32] ++ b ↔ txt "SIP/2.0" <+: a := by
  have hno : 32 ∉ txt "SIP/2.0" := by decide
  constructor
  · intro h
    rw [append_assoc] at h
    rcases prefix_or_prefix_of_prefix h (prefix_append a _) with hpre | ⟨t, ht⟩
    · exact hpre
    · rw [← ht, prefix_append_right_inj] at h
      cases t with
      | nil =>
        rw [← ht, append_nil]
      | cons c t =>
        grind
  · intro h
    rw [append_assoc]
    exact h.trans (prefix_append _ _)

theorem request_text (method requestURI : Bytes) :
    (StartLine.request method requestURI).text =
      method ++ [32] ++ requestURI ++ [32] ++ txt "SIP/2.0" := by
  have htxt : txt " SIP/2.0" = [32] ++ txt "SIP/2.0" := by decide
  unfold StartLine.text
  rw [htxt]
  simp

theorem response_text (statusCode : Int64) (reason : Bytes) :
    (StartLine.response statusCode reason).text =
      txt "SIP/2.0" ++ [32] ++ itoa statusCode ++ [32] ++ reason := by
  have htxt : txt "SIP/2.0 " = txt "SIP/2.0" ++ [32] := by decide
  unfold StartLine.text
  rw [htxt]

theorem notMem_itoa (n : Int64) : 32 ∉ itoa n ∧ 13 ∉ itoa n := by
  have hdigit : ∀ b ∈ decimal n.toInt.natAbs, b ≠ 32 ∧ b ≠ 13 := by
    intro b hb
    have h := all_eq_true.mp (isDigit_decimal n.toInt.natAbs) b hb
    constructor <;> rintro rfl <;> exact absurd h (by decide)
  grind [itoa]

/-- The start line is read as what it was written from. -/
def StartOK : StartLine → Prop
  | .request method requestURI =>
    32 ∉ method ∧ 32 ∉ requestURI ∧ OneLine method ∧ OneLine requestURI ∧
      ¬ txt "SIP/2.0" <+: method
  | .response _ reason => OneLine reason

theorem StartOK.oneLine (h : StartOK start) : OneLine start.text := by
  cases start with
  | request method requestURI =>
    obtain ⟨-, -, hmethod, huri, -⟩ := h
    rw [request_text]
    simp only [append_assoc, cons_append, nil_append]
    exact hmethod.append_cons (huri.append_cons (by decide) (by decide) (by decide))
      (by decide) (by decide)
  | response statusCode reason =>
    have hcode : OneLine (itoa statusCode) := oneLine_of_notMem (notMem_itoa statusCode).2
    have hversion : OneLine (txt "SIP/2.0") := by decide
    rw [response_text]
    simp only [append_assoc, cons_append, nil_append]
    exact hversion.append_cons (hcode.append_cons h (by decide) (by decide))
      (by decide) (by decide)

theorem parseStart_of_ok (h : StartOK start) (headers : Headers) (body : Bytes) :
    parseStart start.text headers body = .ok ⟨start, headers, body⟩ := by
  cases start with
  | request method requestURI =>
    obtain ⟨hmethod, huri, -, -, hversion⟩ := h
    grind [version_prefix_iff, request_text, splitN_two, parseStart]
  | response statusCode reason =>
    have hno : 32 ∉ txt "SIP/2.0" := by decide
    grind [response_text, splitN_two, notMem_itoa, atoi_itoa, parseStart]

/-- The first two fields of a start line have no blanks. -/
theorem fields_of_splitN {a b : Bytes} {rest : List Bytes}
    (h : splitN [32] 2 line = a :: b :: rest) :
    (∃ t, line = a ++ [32] ++ t) ∧ 32 ∉ a ∧ 32 ∉ b := by
  have hblank : [(32 : UInt8)] ≠ [] := cons_ne_nil _ _
  unfold splitN at h
  split at h
  · cases h
  · case h_2 a' t hcut =>
    obtain ⟨rfl, hrest⟩ := cons.inj h
    refine ⟨⟨t, cut_eq_some hcut⟩, fun hmem => cut_not_infix hblank hcut
      ((singleton_infix_iff _ _).mpr hmem), ?_⟩
    unfold splitN at hrest
    split at hrest
    · grind [cut_eq_none_iff, singleton_infix_iff]
    · case h_2 b' u hcut' =>
      obtain ⟨rfl, -⟩ := cons.inj hrest
      exact fun hmem => cut_not_infix hblank hcut' ((singleton_infix_iff _ _).mpr hmem)

/-- What has been parsed of a line is found again. -/
theorem startOK_of_parseStart {body : Bytes} {headers : Headers} (hline : OneLine line)
    (h : parseStart line headers body = .ok m) :
    StartOK m.start ∧ m.headers = headers ∧ m.body = body := by
  have hfield : ∀ l ∈ splitN [32] 2 line, OneLine l :=
    fun l hl => hline.of_isInfix (infix_of_mem_splitN hl)
  unfold parseStart at h
  dsimp only at h
  split at h
  · split at h
    · case h_1 a field rest hfields =>
      split at h
      · cases h
      · cases h
        refine ⟨?_, rfl, rfl⟩
        cases rest with
        | nil => exact oneLine_of_notMem not_mem_nil
        | cons reason rest =>
          refine hfield reason ?_
          rw [hfields]
          simp
    · cases h
  · case isFalse hversion =>
    split at h
    · case h_1 method requestURI rest hfields =>
      cases h
      obtain ⟨⟨t, ht⟩, hmethod, huri⟩ := fields_of_splitN hfields
      rw [ht, version_prefix_iff] at hversion
      refine ⟨⟨hmethod, huri, ?_, ?_, hversion⟩, rfl, rfl⟩
      · refine hfield method ?_
        rw [hfields]
        simp
      · refine hfield requestURI ?_
        rw [hfields]
        simp
    · cases h

/-! ## Header fields -/

/-- The values under a key. -/
def valuesOf (h : Headers) (name : Bytes) : List Bytes := (h.lookup name).getD []

/-- What a header line adds under a key. -/
def fieldValues (name hl : Bytes) : List Bytes :=
  match headerField hl with
  | none => []
  | some (n, values) => if n = name then values else []

theorem valuesOf_addField (h : Headers) (hl name : Bytes) :
    valuesOf (addField h hl) name = valuesOf h name ++ fieldValues name hl := by
  unfold addField fieldValues valuesOf
  cases headerField hl with
  | none => simp
  | some field =>
    obtain ⟨n, values⟩ := field
    dsimp only
    by_cases hn : n = name
    · subst hn
      rw [AList.lookup_insert, if_pos rfl]
      rfl
    · rw [AList.lookup_insert_ne (Ne.symm hn), if_neg hn, append_nil]

theorem valuesOf_foldl (ls : List Bytes) (h : Headers) (name : Bytes) :
    valuesOf (ls.foldl addField h) name = valuesOf h name ++ ls.flatMap (fieldValues name) := by
  induction ls generalizing h with
  | nil => simp
  | cons l ls ih =>
    rw [foldl_cons, ih, valuesOf_addField, flatMap_cons, append_assoc]

theorem headerField_ne_nil {hl : Bytes} (h : headerField hl = some (name, values)) :
    values ≠ [] := by
  obtain ⟨p, -, hp⟩ := map_eq_some_iff.mp h
  obtain ⟨-, rfl⟩ := Prod.mk.inj hp
  split
  · exact cons_ne_nil _ _
  · exact fun hnil => splitN_ne_nil _ (map_eq_nil_iff.mp hnil)

/-- No header is there without a value. -/
def Filled (h : Headers) : Prop := ∀ name, h.lookup name ≠ some []

theorem filled_foldl (hh : Filled h) : Filled (ls.foldl addField h) := by
  induction ls generalizing h with
  | nil => exact hh
  | cons l ls ih =>
    refine ih ?_
    unfold addField
    cases hfield : headerField l with
    | none => exact hh
    | some field =>
      obtain ⟨n, values⟩ := field
      intro name
      by_cases hn : name = n
      · grind [AList.lookup_insert, headerField_ne_nil, append_eq_nil_iff]
      · rw [AList.lookup_insert_ne hn]
        exact hh name

/-- The line written of a name and a value is read as the two. -/
structure FieldOK (name value : Bytes) : Prop where
  name_trimmed : Trimmed name
  name_line : OneLine name
  name_colon : 58 ∉ name
  value_trimmed : Trimmed value
  value_line : OneLine value
  value_comma : keepsCommas name = false → 44 ∉ value

theorem FieldOK.headerField {value : Bytes} (h : FieldOK name value) :
    headerField (name ++ 58 :: 32 :: value) = some (name, [value]) := by
  have hcut : cut [58] (name ++ 58 :: 32 :: value) = some (name, 32 :: value) := by
    have hcut := cut_append (clear_singleton h.name_colon) (32 :: value)
    rwa [append_assoc] at hcut
  unfold Sip.headerField
  rw [hcut]
  simp only [map_some, h.name_trimmed.trimSpace_eq, trimSpace_blank,
    h.value_trimmed.trimSpace_eq]
  cases hkeeps : keepsCommas name with
  | true => rfl
  | false =>
    have hsplit : split [44] value = [value] := split_of_not_infix fun hin =>
      h.value_comma hkeeps ((singleton_infix_iff _ _).mp hin)
    simp [hsplit, h.value_trimmed.trimSpace_eq]

/-- What has been read of a line would be read again. -/
theorem fieldOK_of_headerField {hl : Bytes} (hline : OneLine hl)
    (h : headerField hl = some (name, values)) : ∀ v ∈ values, FieldOK name v := by
  obtain ⟨⟨a, b⟩, hcut, hp⟩ := map_eq_some_iff.mp h
  obtain ⟨rfl, rfl⟩ := Prod.mk.inj hp
  have hhl := cut_eq_some hcut
  have ha : a <:+: hl := ⟨[], [58] ++ b, by simp [hhl]⟩
  have hb : b <:+: hl := ⟨a ++ [58], [], by simp [hhl]⟩
  have hcolon : 58 ∉ trimSpace a := fun hmem =>
    cut_not_infix (cons_ne_nil _ _) hcut
      ((singleton_infix_iff _ _).mpr (trimSpace_isInfix.subset hmem))
  have hname : OneLine (trimSpace a) := (hline.of_isInfix ha).of_isInfix trimSpace_isInfix
  have hvalue : OneLine (trimSpace b) := (hline.of_isInfix hb).of_isInfix trimSpace_isInfix
  intro v hv
  split at hv
  · case isTrue hkeeps =>
    rw [mem_singleton.mp hv]
    refine ⟨trimSpace_trimmed, hname, hcolon, trimSpace_trimmed, hvalue, ?_⟩
    rw [hkeeps]
    exact fun h => absurd h (by decide)
  · obtain ⟨u, hu, rfl⟩ := mem_map.mp hv
    refine ⟨trimSpace_trimmed, hname, hcolon, trimSpace_trimmed,
      (hvalue.of_isInfix (infix_of_mem_splitN hu)).of_isInfix trimSpace_isInfix, fun _ hmem => ?_⟩
    exact not_infix_of_mem_split (cons_ne_nil _ _) hu
      ((singleton_infix_iff _ _).mpr (trimSpace_isInfix.subset hmem))

theorem fieldOK_of_foldl (hls : ∀ l ∈ ls, OneLine l) (name : Bytes) :
    ∀ v ∈ valuesOf (ls.foldl addField ∅) name, FieldOK name v := by
  intro v hv
  rw [valuesOf_foldl] at hv
  rcases mem_append.mp hv with hv | hv
  · cases hv
  · grind [fieldValues, fieldOK_of_headerField]

/-! ## The headers that come back -/

/-- An iteration comes by the values of each key once. -/
theorem flatMap_visit (hes : es.Perm h.entries) (name : Bytes) :
    (es.flatMap fun e => if e.1 = name then e.2 else []) = valuesOf h name := by
  have hnodup : es.NodupKeys := (perm_nodupKeys hes).mpr h.nodupKeys
  have hlookup : h.lookup name = es.dlookup name := (perm_dlookup name hnodup hes).symm
  unfold valuesOf
  rw [hlookup]
  clear hes hlookup
  induction es with
  | nil => rfl
  | cons e es ih =>
    obtain ⟨k, values⟩ := e
    obtain ⟨hk, hnodup⟩ := nodupKeys_cons.mp hnodup
    rw [flatMap_cons, ih hnodup]
    by_cases hkn : k = name
    · subst hkn
      rw [if_pos rfl, dlookup_cons_eq, dlookup_eq_none.mpr hk]
      simp
    · rw [if_neg hkn, dlookup_cons_ne _ _ (Ne.symm hkn)]
      rfl

theorem flatMap_headerLines (hes : ∀ e ∈ es, ∀ v ∈ e.2, FieldOK e.1 v) (name : Bytes) :
    (headerLines es).flatMap (fieldValues name) =
      es.flatMap fun e => if e.1 = name then e.2 else [] := by
  unfold headerLines
  rw [flatMap_assoc]
  refine flatMap_congr fun e he => ?_
  rw [flatMap_map]
  have hfield : ∀ v ∈ e.2, fieldValues name (e.1 ++ 58 :: 32 :: v) =
      if e.1 = name then [v] else [] := by
    intro v hv
    unfold fieldValues
    rw [(hes e he v hv).headerField]
  rw [flatMap_congr hfield]
  split
  · exact flatMap_singleton' _
  · simp

theorem filled_empty : Filled ∅ := fun _ h => by cases h

/-- The entries that have values. -/
theorem mem_entries_and_ne_nil : e ∈ h.entries ∧ e.2 ≠ [] ↔ e.2 ≠ [] ∧ valuesOf h e.1 = e.2 := by
  obtain ⟨k, values⟩ := e
  rw [AssocMap.mem_entries_iff, and_comm]
  refine and_congr_right fun hne => ?_
  unfold valuesOf
  cases h.lookup k with
  | none => simp [hne.symm]
  | some values' => simp

theorem mem_entries_iff_valuesOf (hfilled : Filled h) :
    e ∈ h.entries ↔ e.2 ≠ [] ∧ valuesOf h e.1 = e.2 := by
  rw [← mem_entries_and_ne_nil]
  refine (and_iff_left_of_imp fun he hnil => ?_).symm
  exact hfilled e.1 (hnil ▸ AssocMap.mem_entries_iff.mp he)

theorem lookup_eq_of_valuesOf {h' : Headers} (hfilled : Filled h) (hfilled' : Filled h')
    (hvalues : valuesOf h name = valuesOf h' name) :
    h.lookup name = h'.lookup name := by
  have hno := hfilled name
  have hno' := hfilled' name
  unfold valuesOf at hvalues
  cases hk : h.lookup name with
  | none =>
    cases hk' : h'.lookup name with
    | none => rfl
    | some values =>
      simp_all
  | some values =>
    cases hk' : h'.lookup name with
    | none =>
      simp_all
    | some values' =>
      rw [hk, hk'] at hvalues
      exact congrArg some hvalues

/-- A message whose start line and fields are read as written comes back whole. -/
theorem parse_serialize (hes : es.Perm m.headers.entries) (hstart : StartOK m.start)
    (hfield : ∀ e ∈ es, ∀ v ∈ e.2, FieldOK e.1 v) :
    ∃ headers, parse (m.serialize es) = .ok ⟨m.start, headers, m.body⟩ ∧ Filled headers ∧
      ∀ name, valuesOf headers name = valuesOf m.headers name := by
  refine ⟨(headerLines es).foldl addField ∅, ?_, filled_foldl filled_empty, ?_⟩
  · rw [parse_serialize_lines hstart.oneLine fun e he v hv =>
      ⟨(hfield e he v hv).name_trimmed, (hfield e he v hv).name_line,
        (hfield e he v hv).value_line⟩]
    exact parseStart_of_ok hstart _ _
  · intro name
    rw [valuesOf_foldl, flatMap_headerLines hfield, flatMap_visit hes]
    rfl

/-- What `parse` accepts is read as written. -/
theorem ok_of_parse (h : parse data = .ok m) : StartOK m.start ∧ Filled m.headers ∧
      ∀ name, ∀ v ∈ valuesOf m.headers name, FieldOK name v := by
  have hlines : ∀ l ∈ unfoldLines (split crlf (sections data).1), OneLine l :=
    oneLine_unfoldLines fun l hl => not_infix_of_mem_split crlf_ne_nil hl
  unfold parse at h
  split at h
  · cases h
  · case h_2 startLine hls hunfold =>
    rw [hunfold] at hlines
    obtain ⟨hstart, hheaders, -⟩ :=
      startOK_of_parseStart (hlines startLine (mem_cons_self ..)) h
    grind [filled_foldl, filled_empty, fieldOK_of_foldl]

/-! ## Exactly when a message survives the wire -/

/-- No white space anywhere. -/
def NoSpace (s : Bytes) : Prop := ∀ p ∈ spaces, ¬ p <:+: s
  deriving Decidable

/-- The messages that the round trip is promised for. -/
structure WellFormed (m : SipMessage) : Prop where
  start : ∀ method requestURI, m.start = .request method requestURI →
    NoSpace method ∧ NoSpace requestURI
  name : ∀ e ∈ m.headers.entries, NoSpace e.1
  value : ∀ e ∈ m.headers.entries, ∀ v ∈ e.2, 13 ∉ v ∧ 10 ∉ v ∧ Trimmed v

/-- All values of a header, whichever way its name is spelled. -/
def Visit.fields (es : Visit) (name : Bytes) : List Bytes :=
  es.flatMap fun e => if toLower e.1 = toLower name then e.2 else []

/-- `Parse` of `Serialize` returns the message: of the same kind, with the same start line, the same
body and, for every header, the values that it was written with. -/
def RoundTrips (m : SipMessage) : Prop :=
  ∀ es : Visit, es.Perm m.headers.entries → ∃ headers,
    parse (m.serialize es) = .ok ⟨m.start, headers, m.body⟩ ∧
      ∀ es' : Visit, es'.Perm headers.entries → ∀ name,
        getHeaderValues es' name = es.fields name

/-- The messages that the code returns. -/
structure Plain (m : SipMessage) : Prop where
  method : ∀ method requestURI, m.start = .request method requestURI →
    ¬ txt "SIP/2.0" <+: method
  reason : ∀ statusCode reason, m.start = .response statusCode reason → ¬ crlf <:+: reason
  colon : ∀ e ∈ m.headers.entries, e.2 ≠ [] → 58 ∉ e.1
  comma : ∀ e ∈ m.headers.entries, keepsCommas e.1 = false → ∀ v ∈ e.2, 44 ∉ v
  /-- A header is spelled in one way. -/
  spelling : ∀ e ∈ m.headers.entries, ∀ e' ∈ m.headers.entries, e.2 ≠ [] → e'.2 ≠ [] →
    toLower e.1 = toLower e'.1 → e.1 = e'.1

theorem NoSpace.trimmed (h : NoSpace s) : Trimmed s :=
  ⟨fun p hp hpre => h p hp hpre.isInfix, fun p hp hsuf => h p hp hsuf.isInfix⟩

theorem NoSpace.notMem (h : NoSpace s) {b : UInt8} (hb : [b] ∈ spaces) : b ∉ s :=
  fun hmem => h [b] hb ((singleton_infix_iff _ _).mpr hmem)

theorem NoSpace.oneLine (h : NoSpace s) : OneLine s :=
  oneLine_of_notMem (h.notMem (by decide))

theorem WellFormed.fieldOK (hwf : WellFormed m) (he : e ∈ m.headers.entries) (hv : v ∈ e.2)
    (hcolon : 58 ∉ e.1) (hcomma : keepsCommas e.1 = false → 44 ∉ v) :
    FieldOK e.1 v :=
  ⟨(hwf.name e he).trimmed, (hwf.name e he).oneLine, hcolon, (hwf.value e he v hv).2.2,
    oneLine_of_notMem (hwf.value e he v hv).1, hcomma⟩

theorem Plain.startOK (hwf : WellFormed m) (hp : Plain m) : StartOK m.start := by
  cases hstart : m.start with
  | request method requestURI =>
    obtain ⟨hmethod, huri⟩ := hwf.start method requestURI hstart
    exact ⟨hmethod.notMem (by decide), huri.notMem (by decide), hmethod.oneLine, huri.oneLine,
      hp.method method requestURI hstart⟩
  | response statusCode reason => exact hp.reason statusCode reason hstart

/-- Where a header is spelled in one way, its values are those under that key. -/
theorem fields_eq_valuesOf (hes : es.Perm h.entries)
    (hspell : ∀ e ∈ h.entries, ∀ e' ∈ h.entries, e.2 ≠ [] → e'.2 ≠ [] →
      toLower e.1 = toLower e'.1 → e.1 = e'.1) (he : e ∈ h.entries) (hne : e.2 ≠ [])
    (hname : toLower e.1 = toLower name) : es.fields name = valuesOf h e.1 := by
  rw [← flatMap_visit hes]
  refine flatMap_congr fun e' he' => ?_
  by_cases hnil : e'.2 = []
  · simp [hnil]
  · grind

theorem fields_eq_nil (h : ∀ e ∈ es, e.2 ≠ [] → toLower e.1 ≠ toLower name) :
    es.fields name = [] := by
  refine flatMap_eq_nil_iff.mpr fun e he => ?_
  grind

theorem roundTrips_of_plain (hwf : WellFormed m) (hp : Plain m) : RoundTrips m := by
  intro es hes
  have hfield : ∀ e ∈ es, ∀ v ∈ e.2, FieldOK e.1 v := by
    intro e he v hv
    have he : e ∈ m.headers.entries := hes.mem_iff.mp he
    exact hwf.fieldOK he hv (hp.colon e he (ne_nil_of_mem hv))
      fun hkeeps => hp.comma e he hkeeps v hv
  obtain ⟨headers, hparse, hfilled, hvalues⟩ := parse_serialize hes (hp.startOK hwf) hfield
  refine ⟨headers, hparse, fun es' hes' name => ?_⟩
  -- the entries that come back are those of the message with values
  have hentry : ∀ e, e ∈ es' ↔ e ∈ m.headers.entries ∧ e.2 ≠ [] := by
    intro e
    rw [hes'.mem_iff, mem_entries_iff_valuesOf hfilled, hvalues, mem_entries_and_ne_nil]
  unfold getHeaderValues
  split
  · case h_1 e hfind =>
    obtain ⟨he, hne⟩ := (hentry e).mp (mem_of_find?_eq_some hfind)
    have hname : toLower e.1 = toLower name := by simpa using find?_some hfind
    rw [fields_eq_valuesOf hes hp.spelling he hne hname]
    grind [valuesOf, AssocMap.mem_entries_iff]
  · grind [fields_eq_nil]

/-- What `Parse` accepts survives `Serialize` and `Parse` again. -/
theorem parse_serialize_of_parse (h : parse data = .ok m) (hes : es.Perm m.headers.entries) :
    ∃ headers,
      parse (m.serialize es) = .ok ⟨m.start, headers, m.body⟩ ∧
        ∀ name, headers.lookup name = m.headers.lookup name := by
  obtain ⟨hstart, hfilled, hfield⟩ := ok_of_parse h
  grind [mem_entries_iff_valuesOf, parse_serialize, lookup_eq_of_valuesOf]

/-- The values that are looked up are those of an entry. -/
theorem mem_of_getHeaderValues (h : getHeaderValues es name ≠ []) :
    ∃ e ∈ es, toLower e.1 = toLower name ∧ getHeaderValues es name = e.2 := by
  grind [getHeaderValues]

theorem mem_fields (he : e ∈ es) (hv : v ∈ e.2) : v ∈ es.fields e.1 := by
  refine mem_flatMap.mpr ⟨e, he, ?_⟩
  rwa [if_pos rfl]

theorem length_fields {e' : Sigma fun _ : Bytes => List Bytes} (he : e ∈ es) (he' : e' ∈ es)
    (hne : e.1 ≠ e'.1) (hlower : toLower e.1 = toLower e'.1) :
    e.2.length + e'.2.length ≤ (es.fields e.1).length := by
  have hmem : e' ∈ es.erase e :=
    (mem_erase_of_ne fun h : e' = e => hne (congrArg Sigma.fst h.symm)).mpr he'
  have hperm : es.Perm (e :: e' :: (es.erase e).erase e') :=
    (perm_cons_erase he).trans ((perm_cons_erase hmem).cons e)
  grind [Visit.fields]

theorem keepsCommas_congr {name' : Bytes} (h : toLower name = toLower name') :
    keepsCommas name = keepsCommas name' := by
  unfold keepsCommas
  rw [h]

theorem plain_of_roundTrips (hwf : WellFormed m) (h : RoundTrips m) : Plain m := by
  obtain ⟨headers, hparse, hreads⟩ := h m.headers.entries (List.Perm.refl _)
  obtain ⟨hstart, hfilled, hfield⟩ := ok_of_parse hparse
  dsimp only at hstart hfilled hfield
  -- what is looked up in the message that comes back has been read of a line
  have hread : ∀ e ∈ m.headers.entries, ∀ v ∈ e.2, ∃ k, toLower k = toLower e.1 ∧ FieldOK k v := by
    intro e he v hv
    have hmem : v ∈ getHeaderValues headers.entries e.1 := by
      rw [hreads headers.entries (List.Perm.refl _)]
      exact mem_fields he hv
    grind [mem_entries_iff_valuesOf, mem_of_getHeaderValues, ne_nil_of_mem]
  have hcolon : ∀ e ∈ m.headers.entries, e.2 ≠ [] → 58 ∉ e.1 := by
    intro e he hne hmem
    obtain ⟨v, hv⟩ := exists_mem_of_ne_nil _ hne
    obtain ⟨k, hlower, hk⟩ := hread e he v hv
    exact hk.name_colon (colon_mem_toLower.mp (hlower ▸ colon_mem_toLower.mpr hmem))
  have hcomma : ∀ e ∈ m.headers.entries, keepsCommas e.1 = false → ∀ v ∈ e.2, 44 ∉ v := by
    intro e he hkeeps v hv
    obtain ⟨k, hlower, hk⟩ := hread e he v hv
    exact hk.value_comma ((keepsCommas_congr hlower).trans hkeeps)
  refine ⟨?_, ?_, hcolon, hcomma, ?_⟩
  · intro method requestURI hm
    rw [hm] at hstart
    exact hstart.2.2.2.2
  · intro statusCode reason hm
    rw [hm] at hstart
    exact hstart
  · intro e he e' he' hne hne' hlower
    by_contra hkey
    obtain ⟨headers', hparse', -, hvalues⟩ := parse_serialize (List.Perm.refl _) hstart
      fun e he v hv => hwf.fieldOK he hv (hcolon e he (ne_nil_of_mem hv))
        fun hkeeps => hcomma e he hkeeps v hv
    obtain rfl : headers = headers' := by
      rw [hparse] at hparse'
      cases hparse'
      rfl
    -- an iteration that comes by the first spelling first misses the values of the second
    have hback : e ∈ headers.entries := by
      rw [mem_entries_iff_valuesOf hfilled, hvalues]
      exact mem_entries_and_ne_nil.mp ⟨he, hne⟩
    have hfirst := hreads (e :: headers.entries.erase e) (perm_cons_erase hback).symm e.1
    have hvalues : getHeaderValues (e :: headers.entries.erase e) e.1 = e.2 := by
      unfold getHeaderValues
      simp
    have hlen := length_fields he he' hkey hlower
    simp_all

/-- A message of the promised kind comes back exactly when it is plain; what `Parse` accepts
survives `Serialize` and `Parse` again unchanged. -/
theorem wire_round_trip (m : SipMessage) :
    (WellFormed m → (RoundTrips m ↔ Plain m)) ∧
      ∀ data, parse data = .ok m → ∀ es : Visit, es.Perm m.headers.entries → ∃ headers,
        parse (m.serialize es) = .ok ⟨m.start, headers, m.body⟩ ∧
          ∀ name, headers.lookup name = m.headers.lookup name :=
  ⟨fun hwf => ⟨plain_of_roundTrips hwf, roundTrips_of_plain hwf⟩,
    fun _ h _ hes => parse_serialize_of_parse h hes⟩

/-- `OPTIONS` to one user. -/
def options (addr : Bytes) : SipMessage :=
  ⟨.request (txt "OPTIONS") (txt "sip:j@ims"), AList.singleton (txt "To") [addr], []⟩

theorem wellFormed_options {addr : Bytes} (haddr : 13 ∉ addr ∧ 10 ∉ addr ∧ Trimmed addr) :
    WellFormed (options addr) := by
  refine ⟨?_, ?_, ?_⟩
  · intro method requestURI h
    cases h
    decide
  · intro e he
    obtain rfl := mem_singleton.mp he
    exact (by decide : NoSpace (txt "To"))
  · intro e he v hv
    obtain rfl := mem_singleton.mp he
    obtain rfl := mem_singleton.mp hv
    exact haddr

theorem wire_round_trip_options :
    (RoundTrips (options (txt "<sip:j@ims>")) ↔ Plain (options (txt "<sip:j@ims>"))) ∧
      ∃ headers, parse ((options (txt "<sip:j@ims>")).serialize
          (options (txt "<sip:j@ims>")).headers.entries) =
            .ok ⟨(options (txt "<sip:j@ims>")).start, headers, []⟩ ∧
        ∀ name, headers.lookup name = (options (txt "<sip:j@ims>")).headers.lookup name :=
  ⟨(wire_round_trip _).1 (wellFormed_options (by decide)),
    (wire_round_trip _).2 (txt "OPTIONS sip:j@ims SIP/2.0\r\nTo: <sip:j@ims>\r\n\r\n")
      (by rfl) _ (List.Perm.refl _)⟩

/-- A comma in a display name splits the address in two. -/
theorem not_wire_round_trip :
    WellFormed (options (txt "\"Doe, J\" <sip:j@ims>")) ∧
      ¬ RoundTrips (options (txt "\"Doe, J\" <sip:j@ims>")) := by
  have hwf : WellFormed (options (txt "\"Doe, J\" <sip:j@ims>")) :=
    wellFormed_options (by decide)
  refine ⟨hwf, fun h => ?_⟩
  have hcomma := (plain_of_roundTrips hwf h).comma _ (mem_singleton.mpr rfl)
    (by decide) _ (mem_singleton.mpr rfl)
  exact hcomma (by decide)

/-! ## Headers that are built -/

end MmtCore.Sip
