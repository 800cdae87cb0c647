import Mathlib
import MmtCore.Upf.ReverseMap
import MmtCore.Upf.SdfFilter

/-!
# Installing a PDR

`upf_dp_add_pdr` walks the lines of the SDF text with `strtok` and parses each with a function that
uses `strtok` itself.  So the walk ends with the first line that is not blank: the next call goes on
in the parser's buffer, where no token is left.  A PDR gets at most one filter, and none when that
line does not parse; and a PDR without filters matches whatever its other checks let through
(`sdf_fails_closed_iff`).
-/

namespace MmtCore.Upf

open List Option Or

/-! ## The walk over the lines -/

/-- The loop over the lines, with the filters so far; `none` when `strtok` is to go on in a buffer
that no longer exists. -/
def sdfLines : Nat → Strtok → List SdfFilter → Option (List SdfFilter)
  | 0, _, sdf => some sdf
  | _ + 1, none, sdf => some sdf
  | fuel + 1, some s, sdf =>
    match strtok isNewline s with
    | (none, _) => some sdf
    | (some line, saved) =>
      if sdf.length < 8 then
        let line := line.dropWhile isBlank
        if line = [] then sdfLines fuel saved sdf
        else
          match upfSdfParse line with
          | (filter, none) => sdfLines fuel none (sdf ++ filter.toList)
          | (_, some _) => none
      else some sdf

/-- The filters of an SDF text, from a copy of its first 1023 bytes. -/
def sdfFilters (sdfRules : Option (List UInt8)) : Option (List SdfFilter) :=
  match sdfRules with
  | none => some []
  | some text =>
    let buf := (cString text).take 1023
    sdfLines (buf.length + 1) (some buf) []

/-! ## The PDRs of a session -/

/-- `UPF_MAX_PDR_PER_SESSION`. -/
abbrev upfMaxPdrPerSession : Nat := 16

/-- `find_or_alloc_pdr_slot`: the index, and whether the slot is reused. -/
def findOrAllocPdrSlot (pdrs : List Pdr) (pdrId : UInt16) : Option (Nat × Bool) :=
  match pdrs.findIdx? fun p => p.pdrId == pdrId with
  | some i => some (i, true)
  | none =>
    if pdrs.length < upfMaxPdrPerSession then some (pdrs.length, false)
    else (pdrs.findIdx? fun p => !p.active).map fun i => (i, true)

/-- The arguments of `upf_dp_add_pdr` and `upf_dp_update_pdr`. -/
structure PdrArgs where
  pdrId : UInt16
  precedence : UInt32
  pdiSource : UInt8
  qfi : UInt8
  farId : UInt32
  qerId : UInt32
  urrId : UInt32
  sdfRules : Option (List UInt8)

/-- What a session keeps of its PDRs: `ue_addr`, and the `n_pdr` slots in use. -/
structure PdrTable where
  ueAddr : UInt32
  pdrs : List Pdr

/-- What comes of a call. -/
inductive PdrResult
  /-- It returns -1. -/
  | rejected
  /-- It reads a buffer that no longer exists. -/
  | undefined
  /-- It returns 0. -/
  | installed (table : PdrTable)

/-- The PDR the arguments describe, with these filters. -/
def PdrArgs.pdr (a : PdrArgs) (ueAddr : UInt32) (sdf : List SdfFilter) : Pdr where
  pdrId := a.pdrId
  precedence := a.precedence
  pdiSource := a.pdiSource
  ueAddr := ueAddr
  qfi := a.qfi
  sdf := sdf
  farId := a.farId
  qerId := a.qerId
  urrId := a.urrId
  active := true

/-- `upf_dp_add_pdr`, on the session it finds. -/
def upfDpAddPdr (t : PdrTable) (a : PdrArgs) : PdrResult :=
  match findOrAllocPdrSlot t.pdrs a.pdrId with
  | none => .rejected
  | some (i, reused) =>
    match sdfFilters a.sdfRules with
    | none => .undefined
    | some sdf =>
      let pdr := a.pdr t.ueAddr sdf
      .installed { t with pdrs := if reused then t.pdrs.set i pdr else t.pdrs ++ [pdr] }

/-- `upf_dp_update_pdr`. -/
def upfDpUpdatePdr (t : PdrTable) (a : PdrArgs) : PdrResult :=
  if t.pdrs.any fun p => p.pdrId == a.pdrId then upfDpAddPdr t a else .rejected

/-- The PDR found under an id. -/
def PdrTable.find (t : PdrTable) (pdrId : UInt16) : Option Pdr :=
  t.pdrs.find? fun p => p.pdrId == pdrId

/-! ## The lines of a text -/

/-- The lines of an SDF text, without the blanks they begin with. -/
def sdfTextLines (text : List UInt8) : List (List UInt8) :=
  ((cString text).splitOnP isNewline).map fun line => line.dropWhile isBlank

/-- The first line of a string that is not blank, without the blanks it begins with. -/
def firstLine (s : List UInt8) : List UInt8 :=
  (s.dropWhile fun b => isNewline b || isBlank b).takeWhile fun b => !isNewline b

/-- Some line of the text is a permit rule that admits the packet. -/
def Permitted (text : List UInt8) (pkt : Packet) : Prop :=
  ∃ line ∈ sdfTextLines text, ∃ f, (upfSdfParse line).1 = some f ∧ f.action = 1 ∧
    sdfMatch f pkt = true

variable {s : List UInt8} {delim : UInt8 → Bool} {saved : Strtok} {pdrId : UInt16} {i : Nat}
  {t : PdrTable} {call : PdrCall} {a : PdrArgs} {f : SdfFilter} {text : List UInt8}

theorem firstLine_cons_space {b : UInt8} (h : (isNewline b || isBlank b) = true) :
    firstLine (b :: s) = firstLine s := by
  simp [firstLine, h]

theorem firstLine_append_space {t : List UInt8} (h : ∀ b ∈ s, (isNewline b || isBlank b) = true) :
    firstLine (s ++ t) = firstLine t := by
  induction s with
  | nil => rfl
  | cons b s ih =>
    simp_all [firstLine_cons_space]

theorem splitOnP_head (s : List UInt8) :
    ∃ rest, s.splitOnP isNewline = s.takeWhile (fun b => !isNewline b) :: rest := by
  induction s with
  | nil => exact ⟨[], rfl⟩
  | cons b s ih =>
    obtain ⟨rest, hrest⟩ := ih
    rw [splitOnP_cons_eq_if_modifyHead]
    by_cases hb : isNewline b = true
    · exact ⟨s.splitOnP isNewline, by simp [hb]⟩
    · exact ⟨rest, by simp [hb, hrest]⟩

/-- The first line that is not blank is one of the lines. -/
theorem firstLine_mem (h : firstLine s ≠ []) :
    ∃ line ∈ s.splitOnP isNewline, line.dropWhile isBlank = firstLine s := by
  induction s with
  | nil => exact absurd rfl h
  | cons b s ih =>
    rw [splitOnP_cons_eq_if_modifyHead]
    by_cases hnl : isNewline b = true
    · have hskip : firstLine (b :: s) = firstLine s := firstLine_cons_space (by simp [hnl])
      simp_all
    · obtain ⟨rest, hrest⟩ := splitOnP_head s
      simp only [hnl, Bool.false_eq_true, if_false, hrest, modifyHead_cons]
      by_cases hblank : isBlank b = true
      · have hskip : firstLine (b :: s) = firstLine s := firstLine_cons_space (by simp [hblank])
        simp_all
      · refine ⟨_, mem_cons_self .., ?_⟩
        simp [firstLine, hnl, hblank]

/-! ## What the walk yields -/

/-- What `strtok` skips, returns and leaves makes up the text. -/
theorem strtok_spec {tok : List UInt8} (h : strtok delim s = (some tok, saved)) :
    ∃ skipped rest, s = skipped ++ (tok ++ rest) ∧ (∀ b ∈ skipped, delim b = true) ∧
      (∀ b ∈ tok, delim b = false) ∧
      ((rest = [] ∧ saved = none) ∨ ∃ d after, delim d = true ∧ rest = d :: after ∧
        saved = some after) := by
  have hsplit : s = s.takeWhile delim ++ s.dropWhile delim := takeWhile_append_dropWhile.symm
  have hskipped : ∀ b ∈ s.takeWhile delim, delim b = true := fun b hb => by
    simpa using mem_takeWhile_imp hb
  unfold strtok at h
  cases hdrop : s.dropWhile delim with
  | nil =>
    rw [hdrop] at h
    cases h
  | cons c cs =>
    rw [hdrop] at h hsplit
    dsimp only at h
    have htok : ∀ b ∈ (c :: cs).takeWhile (fun b => !delim b), delim b = false := fun b hb => by
      simpa using mem_takeWhile_imp hb
    have hcs : (c :: cs) = (c :: cs).takeWhile (fun b => !delim b) ++
        (c :: cs).dropWhile (fun b => !delim b) := takeWhile_append_dropWhile.symm
    cases hrest : (c :: cs).dropWhile (fun b => !delim b) with
    | nil =>
      grind
    | cons d after =>
      have hd : delim d = true := by
        have hhead := head_dropWhile_not (fun b => !delim b) (l := c :: cs)
          (by rw [hrest]; simp)
        simpa [hrest] using hhead
      grind

theorem strtok_none (h : strtok delim s = (none, saved)) : ∀ b ∈ s, delim b = true := by
  grind [strtok, dropWhile_eq_nil_iff]

theorem upfSdfParse_nil : upfSdfParse [] = (none, none) := by
  decide

/-- What the walk makes of the first line that is not blank: no more lines follow it. -/
def firstLineFilters (s : List UInt8) : Option (List SdfFilter) :=
  match upfSdfParse (firstLine s) with
  | (filter, none) => some filter.toList
  | (_, some _) => none

theorem firstLine_of_spaces (h : ∀ b ∈ s, (isNewline b || isBlank b) = true) :
    firstLine s = [] := by
  have happ := firstLine_append_space (t := []) h
  rw [append_nil] at happ
  exact happ

/-- A line that starts with a character that is not blank ends the skipping. -/
theorem firstLine_append_line {line rest : List UInt8}
    (hline : ∀ b ∈ line, isNewline b = false) (hblank : line.dropWhile isBlank ≠ [])
    (hrest : rest = [] ∨ ∃ d after, isNewline d = true ∧ rest = d :: after) :
    firstLine (line ++ rest) = line.dropWhile isBlank := by
  induction line with
  | nil => exact absurd rfl hblank
  | cons b line ih =>
    have hb := hline b (mem_cons_self ..)
    have htail : ∀ c ∈ line, isNewline c = false := fun c hc => hline c (mem_cons_of_mem _ hc)
    by_cases hspace : isBlank b = true
    · rw [cons_append, firstLine_cons_space (by simp [hspace]), dropWhile_cons_of_pos hspace]
      rw [dropWhile_cons_of_pos hspace] at hblank
      exact ih htail hblank
    · rw [dropWhile_cons_of_neg hspace]
      have hdrop : ((b :: line ++ rest).dropWhile fun c => isNewline c || isBlank c) =
          b :: line ++ rest := by
        rw [cons_append, dropWhile_cons_of_neg (by simp [hb, hspace])]
      have htake : (b :: line).takeWhile (fun c => !isNewline c) = b :: line := by
        rw [takeWhile_eq_self_iff]
        intro c hc
        simpa using hline c hc
      unfold firstLine
      rw [hdrop, takeWhile_append, htake]
      rcases hrest with rfl | ⟨d, after, hd, rfl⟩
      · simp
      · simp [hd]

/-- The walk stops at the first line that is not blank. -/
theorem sdfLines_eq (fuel : Nat) :
    ∀ s : List UInt8, s.length < fuel → sdfLines fuel (some s) [] = firstLineFilters s := by
  induction fuel with
  | zero =>
    intro s hs
    omega
  | succ fuel ih =>
    intro s hs
    rcases htok : strtok isNewline s with ⟨tok, saved⟩
    unfold sdfLines
    rw [htok]
    cases tok with
    | none =>
      grind [strtok_none, firstLineFilters, upfSdfParse_nil, firstLine_of_spaces]
    | some line =>
      obtain ⟨skipped, rest, hsplit, hskipped, hline, hrest⟩ := strtok_spec htok
      have hskip : firstLine s = firstLine (line ++ rest) := by
        rw [hsplit]
        exact firstLine_append_space fun b hb => by simp [hskipped b hb]
      simp only [length_nil, Nat.zero_lt_succ, if_true]
      by_cases hblank : line.dropWhile isBlank = []
      · -- a blank line: the walk goes on with the text after it
        rw [if_pos hblank]
        have hspaces : ∀ b ∈ line, (isNewline b || isBlank b) = true := by
          intro b hb
          simp [dropWhile_eq_nil_iff.1 hblank b hb]
        rw [firstLine_append_space hspaces] at hskip
        rcases hrest with ⟨rfl, rfl⟩ | ⟨d, after, hd, rfl, rfl⟩
        · have hempty : firstLine s = [] := hskip
          cases fuel with
          | zero | succ fuel => simp [sdfLines, firstLineFilters, hempty, upfSdfParse_nil]
        · have hlen : after.length < fuel := by
            grind
          rw [firstLine_cons_space (by simp [hd])] at hskip
          rw [ih after hlen, firstLineFilters, firstLineFilters, hskip]
      · rw [if_neg hblank]
        have hfirst : firstLine s = line.dropWhile isBlank := by
          grind [firstLine_append_line]
        rw [firstLineFilters, hfirst]
        rcases hparse : upfSdfParse (line.dropWhile isBlank) with ⟨filter, left⟩
        cases left with
        | some left => rfl
        | none =>
          cases fuel with
          | zero | succ fuel => simp [sdfLines]

/-- The line of the text that decides the filters. -/
def storedLine (text : List UInt8) : List UInt8 := firstLine ((cString text).take 1023)

theorem sdfFilters_eq (text : List UInt8) :
    sdfFilters (some text) =
      match upfSdfParse (storedLine text) with
      | (filter, none) => some filter.toList
      | (_, some _) => none := by
  unfold sdfFilters
  dsimp only
  rw [sdfLines_eq _ _ (Nat.lt_succ_self _)]
  rfl

/-! ## The PDR found afterwards -/

/-- A slot before which no PDR has the id is where it is found once it is written. -/
theorem find_set {pdrs : List Pdr} {pdr : Pdr} (hi : i < pdrs.length)
    (hbefore : ∀ j (hj : j < i), (pdrs[j].pdrId == pdrId) = false) (hid : pdr.pdrId = pdrId) :
    (pdrs.set i pdr).find? (fun p => p.pdrId == pdrId) = some pdr := by
  grind [find?_eq_some_iff_getElem]

theorem findOrAllocPdrSlot_find {reused : Bool}
    (h : findOrAllocPdrSlot t.pdrs pdrId = some (i, reused)) (pdr : Pdr) (hid : pdr.pdrId = pdrId) :
    PdrTable.find { t with pdrs := if reused then t.pdrs.set i pdr else t.pdrs ++ [pdr] } pdrId =
      some pdr := by
  unfold findOrAllocPdrSlot at h
  unfold PdrTable.find
  cases hfind : t.pdrs.findIdx? fun p => p.pdrId == pdrId with
  | some k =>
    rw [hfind] at h
    cases h
    obtain ⟨hlt, -, hbefore⟩ := findIdx?_eq_some_iff_getElem.1 hfind
    exact find_set hlt (fun j hj => by simpa using hbefore j hj) hid
  | none =>
    rw [hfind] at h
    have hnone : ∀ p ∈ t.pdrs, (p.pdrId == pdrId) = false := findIdx?_eq_none_iff.1 hfind
    dsimp only at h
    split at h
    · grind
    · rw [map_eq_some_iff] at h
      obtain ⟨k, hk, heq⟩ := h
      cases heq
      obtain ⟨hlt, -, -⟩ := findIdx?_eq_some_iff_getElem.1 hk
      exact find_set hlt (fun j hj => hnone _ (getElem_mem _)) hid

/-! ## When filters fail closed -/

/-- The permit lines of the text admit every packet of `P`. -/
def Covered (text : List UInt8) (P : Packet → Prop) : Prop :=
  ∀ pkt, P pkt → Permitted text pkt

/-- The line that is stored parses, within the tokens the parser looks at; and it is a deny rule, or
a line of the text, or cut so that nothing more is let in.  Without such a line only a text that
permits everything will do. -/
def FailsClosed (text : List UInt8) (pdiMatch : Packet → Bool) : Prop :=
  match upfSdfParse (storedLine text) with
  | (_, some _) => False
  | (none, none) => Covered text fun pkt => pdiMatch pkt = true
  | (some f, none) =>
    f.action = 2 ∨ storedLine text = firstLine (cString text) ∨
      Covered text fun pkt => pdiMatch pkt = true ∧ sdfMatch f pkt = true

inductive PdrCall
  | add
  | update

def PdrCall.run : PdrCall → PdrTable → PdrArgs → PdrResult
  | .add => upfDpAddPdr
  | .update => upfDpUpdatePdr

theorem PdrCall.run_eq (h : call.run t a ≠ .rejected) : call.run t a = upfDpAddPdr t a := by
  cases call with
  | add => rfl
  | update =>
    simp only [PdrCall.run, upfDpUpdatePdr] at h ⊢
    grind

/-- What a call that is not rejected installs. -/
theorem upfDpAddPdr_result (h : upfDpAddPdr t a ≠ .rejected) :
    (sdfFilters a.sdfRules = none ∧ upfDpAddPdr t a = .undefined) ∨
      ∃ sdf t', sdfFilters a.sdfRules = some sdf ∧ upfDpAddPdr t a = .installed t' ∧
        t'.find a.pdrId = some (a.pdr t.ueAddr sdf) := by
  unfold upfDpAddPdr at h ⊢
  cases hslot : findOrAllocPdrSlot t.pdrs a.pdrId with
  | none =>
    rw [hslot] at h
    exact absurd rfl h
  | some slot =>
    obtain ⟨i, reused⟩ := slot
    cases hsdf : sdfFilters a.sdfRules with
    | none => exact inl ⟨rfl, rfl⟩
    | some sdf =>
      exact inr ⟨sdf, _, rfl, rfl, findOrAllocPdrSlot_find hslot (a.pdr t.ueAddr sdf) rfl⟩

theorem parseTokens_action {tokens : List (List UInt8)} (h : parseTokens tokens = some f) :
    f.action = 1 ∨ f.action = 2 := by
  have hact : ∀ tok action, parseAction tok = some action → action = 1 ∨ action = 2 := by
    grind [parseAction]
  unfold parseTokens at h
  split at h
  · cases h
  split at h
  · simp only [bind_eq_bind, bind_eq_some_iff] at h
    grind [bind_eq_some_iff]
  · cases h

/-- Every packet that the PDR matches is admitted by a permit line of its text. -/
def MatchesPermitted (text : List UInt8) (pdr : Pdr) : Prop :=
  ∀ pkt, pdrMatch pdr pkt = true → Permitted text pkt

/-- A line that is stored as it stands in the text admits what it admits there. -/
theorem permitted_of_stored {pkt : Packet} (hparse : upfSdfParse (storedLine text) = (some f, none))
    (hwhole : storedLine text = firstLine (cString text)) (haction : f.action = 1)
    (hmatch : sdfMatch f pkt = true) : Permitted text pkt := by
  have hne : firstLine (cString text) ≠ [] := by
    intro hnil
    rw [hwhole, hnil, upfSdfParse_nil] at hparse
    cases hparse
  obtain ⟨line, hline, heq⟩ := firstLine_mem hne
  refine ⟨firstLine (cString text), ?_, f, ?_, haction, hmatch⟩
  · exact mem_map.2 ⟨line, hline, heq⟩
  · rw [← hwhole, hparse]

/-- The filters of a text, one at most, let through what is permitted exactly when the line they
come from makes it so. -/
theorem matchesPermitted_iff {ueAddr : UInt32} {filter : Option SdfFilter}
    (hparse : upfSdfParse (storedLine text) = (filter, none)) :
    MatchesPermitted text (a.pdr ueAddr filter.toList) ↔
      FailsClosed text (a.pdr ueAddr []).pdiMatch := by
  have hpdi : ∀ sdf pkt, (a.pdr ueAddr sdf).pdiMatch pkt = (a.pdr ueAddr []).pdiMatch pkt :=
    fun _ _ => rfl
  have hsdf : ∀ sdf, (a.pdr ueAddr sdf).sdf = sdf := fun _ => rfl
  unfold FailsClosed MatchesPermitted Covered
  rw [hparse]
  simp only [pdrMatch, hpdi, hsdf, Bool.and_eq_true]
  cases filter with
  | none => simp [sdfListMatch]
  | some f =>
    have haction : f.action = 1 ∨ f.action = 2 := by
      have htokens := congrArg Prod.fst hparse
      exact parseTokens_action htokens
    have hone : ∀ pkt, sdfListMatch [f] pkt = true ↔ sdfMatch f pkt = true ∧ f.action ≠ 2 := by
      grind [sdfListMatch]
    simp only [toList_some, hone]
    rcases haction with hact | hact
    · have hperm : f.action ≠ 2 := by
        rw [hact]
        decide
      constructor
      · simp_all
      · rintro (hdeny | hwhole | hcov) pkt ⟨hbase, hm, -⟩
        · exact absurd hdeny hperm
        · exact permitted_of_stored hparse hwhole hact hm
        · exact hcov pkt ⟨hbase, hm⟩
    · simp_all

/-- An accepted call installs the PDR with the filter of the line that is stored, if any. -/
theorem PdrCall.installs {text : List UInt8} {filter : Option SdfFilter}
    (hacc : call.run t { a with sdfRules := some text } ≠ .rejected)
    (hparse : upfSdfParse (storedLine text) = (filter, none)) :
    ∃ t', call.run t { a with sdfRules := some text } = .installed t' ∧
      t'.find a.pdrId = some (a.pdr t.ueAddr filter.toList) := by
  have hrun := PdrCall.run_eq hacc
  rw [hrun] at hacc ⊢
  have hfilters := sdfFilters_eq text
  rw [hparse] at hfilters
  rcases upfDpAddPdr_result hacc with ⟨hnone, -⟩ | ⟨sdf, t', hsdf, hinst, hfind⟩
  · rw [hfilters] at hnone
    cases hnone
  · rw [hfilters] at hsdf
    cases hsdf
    exact ⟨t', hinst, hfind⟩

/-- When the line that is stored has too many tokens, the walk goes on in a buffer that is gone. -/
theorem PdrCall.undefined {text : List UInt8} {filter : Option SdfFilter} {left : List UInt8}
    (hacc : call.run t { a with sdfRules := some text } ≠ .rejected)
    (hparse : upfSdfParse (storedLine text) = (filter, some left)) :
    call.run t { a with sdfRules := some text } = .undefined := by
  have hrun := PdrCall.run_eq hacc
  rw [hrun] at hacc ⊢
  have hfilters := sdfFilters_eq text
  rw [hparse] at hfilters
  rcases upfDpAddPdr_result hacc with ⟨-, hundef⟩ | ⟨sdf, t', hsdf, -, -⟩
  · exact hundef
  · rw [hfilters] at hsdf
    cases hsdf

/-- The PDR that an SDF text is installed with matches only what a permit line of the text admits,
exactly when the first line that is not blank makes it so. -/
theorem sdf_fails_closed_iff (call : PdrCall) (t : PdrTable) (a : PdrArgs) (text : List UInt8)
    (hacc : call.run t { a with sdfRules := some text } ≠ .rejected) :
    (∃ t' pdr, call.run t { a with sdfRules := some text } = .installed t' ∧
        t'.find a.pdrId = some pdr ∧ MatchesPermitted text pdr) ↔
      FailsClosed text (a.pdr t.ueAddr []).pdiMatch := by
  rcases hparse : upfSdfParse (storedLine text) with ⟨filter, left⟩
  cases left with
  | some left =>
    grind [PdrCall.undefined, FailsClosed]
  | none =>
    grind [matchesPermitted_iff, PdrCall.installs]

/-- Arguments of an uplink PDR. -/
def labPdrArgs : PdrArgs := ⟨1, 100, 0, 9, 1, 0, 0, none⟩

/-- A session without PDRs takes one more. -/
theorem add_accepted (ueAddr : UInt32) (a : PdrArgs) :
    PdrCall.add.run ⟨ueAddr, []⟩ a ≠ .rejected := by
  have hslot : findOrAllocPdrSlot [] a.pdrId = some (0, false) := rfl
  simp only [PdrCall.run, upfDpAddPdr, hslot]
  split <;> rintro ⟨⟩

/-- A rule that parses is all its PDR matches. -/
theorem sdf_fails_closed_iff_permit :
    ∃ t' pdr, PdrCall.add.run ⟨0x0A2D0002, []⟩
        { labPdrArgs with sdfRules := some (ascii "permit out ip from any to 10.0.0.1") } =
          .installed t' ∧
      t'.find labPdrArgs.pdrId = some pdr ∧
      MatchesPermitted (ascii "permit out ip from any to 10.0.0.1") pdr := by
  refine (sdf_fails_closed_iff .add ⟨0x0A2D0002, []⟩ labPdrArgs
    (ascii "permit out ip from any to 10.0.0.1") (add_accepted _ _)).2 ?_
  have hparse : upfSdfParse (storedLine (ascii "permit out ip from any to 10.0.0.1")) =
      (some ⟨1, 2, 255, 0, 0, 0, 65535, 0x0A000001, 0xFFFFFFFF, 0, 65535⟩, none) := by
    decide
  have hwhole : storedLine (ascii "permit out ip from any to 10.0.0.1") =
      firstLine (cString (ascii "permit out ip from any to 10.0.0.1")) := by
    decide
  unfold FailsClosed
  rw [hparse]
  exact inr (inl hwhole)

/-- A text whose one line does not parse leaves a PDR that matches every packet of the UE. -/
theorem sdf_line_dropped :
    ¬ ∀ (call : PdrCall) (t : PdrTable) (a : PdrArgs) (text : List UInt8),
      (∃ line ∈ sdfTextLines text, line ≠ []) →
        call.run t { a with sdfRules := some text } ≠ .rejected →
          ∃ t' pdr, call.run t { a with sdfRules := some text } = .installed t' ∧
            t'.find a.pdrId = some pdr ∧ MatchesPermitted text pdr := by
  intro h
  have hlines : sdfTextLines (ascii "permit out ip from any to server") =
      [ascii "permit out ip from any to server"] := by
    decide
  have hparse : upfSdfParse (ascii "permit out ip from any to server") = (none, none) := by
    decide
  have hstored : storedLine (ascii "permit out ip from any to server") =
      ascii "permit out ip from any to server" := by
    decide
  have hacc : PdrCall.add.run ⟨0x0A2D0002, []⟩
      { labPdrArgs with sdfRules := some (ascii "permit out ip from any to server") } ≠ .rejected :=
    add_accepted _ _
  obtain ⟨t', pdr, hinst, hfind, hperm⟩ := h .add ⟨0x0A2D0002, []⟩ labPdrArgs
    (ascii "permit out ip from any to server")
    ⟨_, by rw [hlines]; exact mem_singleton_self _, by decide⟩ hacc
  obtain ⟨t'', hinst', hfind'⟩ := PdrCall.installs hacc (by rw [hstored, hparse])
  rw [hinst] at hinst'
  cases hinst'
  rw [hfind] at hfind'
  cases hfind'
  -- a packet of the UE that no line permits
  obtain ⟨line, hline, f, hf, -⟩ := hperm ⟨0, 9, 17, 0x0A2D0002, 0x08080808, 53, 53⟩
    (by decide)
  grind

end MmtCore.Upf
