import MmtCore.Upf.PdrInstall

/-!
# Several SDF rules in one text

A PDR is added with its SDF rules joined by newlines.  The parser of a rule leaves `strtok` at the
end of its own buffer, so the walk over the lines ends with the first rule: a list of rules is
installed as it stands only if it has one rule, and that one only if the 255 bytes the parser copies
denote the same filter (`sdf_rules_installed_iff`).
-/

namespace MmtCore.Upf

open List PdrCall

/-! ## The tokens of a rule -/

/-- The longest pieces of a rule without blanks. -/
def tokensOf (s : List UInt8) : List (List UInt8) :=
  (s.splitOnP isBlank).filter fun tok => decide (tok ≠ [])

theorem tokensOf_nil : tokensOf [] = [] := rfl

variable {s tok : List UInt8} {delim : UInt8 → Bool} {saved : Strtok}

theorem tokensOf_cons_blank {b : UInt8} (h : isBlank b = true) :
    tokensOf (b :: s) = tokensOf s := by
  unfold tokensOf
  rw [splitOnP_cons_eq_if_modifyHead, if_pos h]
  simp

theorem tokensOf_append_blank {skipped : List UInt8} (h : ∀ b ∈ skipped, isBlank b = true) :
    tokensOf (skipped ++ s) = tokensOf s := by
  induction skipped with
  | nil => rfl
  | cons b skipped ih =>
    simp_all [tokensOf_cons_blank]

theorem tokensOf_dropWhile (s : List UInt8) : tokensOf (s.dropWhile isBlank) = tokensOf s := by
  have hsplit : tokensOf (s.takeWhile isBlank ++ s.dropWhile isBlank) =
      tokensOf (s.dropWhile isBlank) :=
    tokensOf_append_blank fun b hb => by simpa using mem_takeWhile_imp hb
  rw [takeWhile_append_dropWhile] at hsplit
  exact hsplit.symm

theorem tokensOf_token (hne : tok ≠ []) (h : ∀ b ∈ tok, isBlank b = false) :
    tokensOf tok = [tok] := by
  unfold tokensOf
  rw [splitOnP_eq_singleton fun b hb => by simp [h b hb]]
  simp [hne]

theorem tokensOf_token_append {after : List UInt8} {d : UInt8} (hne : tok ≠ [])
    (h : ∀ b ∈ tok, isBlank b = false) (hd : isBlank d = true) :
    tokensOf (tok ++ d :: after) = tok :: tokensOf after := by
  unfold tokensOf
  rw [splitOnP_append_cons_of_forall_mem (fun b hb => by simp [h b hb]) d hd]
  simp [hne]

theorem tokensOf_blanks (h : ∀ b ∈ s, isBlank b = true) : tokensOf s = [] := by
  have happ := tokensOf_append_blank (s := []) h
  rwa [append_nil] at happ

/-! ## What the parser makes of the tokens -/

theorem strtok_token_ne_nil (h : strtok delim s = (some tok, saved)) : tok ≠ [] := by
  unfold strtok at h
  cases hdrop : s.dropWhile delim with
  | nil =>
    rw [hdrop] at h
    cases h
  | cons c cs =>
    have hc : delim c = false := by
      have hhead := head_dropWhile_not delim (l := s) (by rw [hdrop]; simp)
      simpa [hdrop] using hhead
    rw [hdrop] at h
    dsimp only at h
    have htok : tok = (c :: cs).takeWhile fun b => !delim b := by
      split at h
      · cases h
        rfl
      · cases h
        rfl
    rw [htok, takeWhile_cons_of_pos (by simp [hc])]
    exact cons_ne_nil _ _

theorem strtok_none_saved (h : strtok delim s = (none, saved)) : saved = none := by
  grind [strtok]

/-- The three ways the next token is taken from a text. -/
inductive NextToken (s : List UInt8) : Option (List UInt8) × Strtok → Prop
  | none (h : tokensOf s = []) : NextToken s (none, none)
  | last (tok : List UInt8) (h : tokensOf s = [tok]) : NextToken s (some tok, none)
  | more (tok rest : List UInt8) (h : tokensOf s = tok :: tokensOf rest) :
    NextToken s (some tok, some rest)

theorem strtok_nextToken (s : List UInt8) : NextToken s (strtok isBlank s) := by
  rcases h : strtok isBlank s with ⟨tok, saved⟩
  cases tok with
  | none =>
    rw [strtok_none_saved h]
    exact .none (tokensOf_blanks (strtok_none h))
  | some tok =>
    have hne := strtok_token_ne_nil h
    obtain ⟨skipped, rest, rfl, hskipped, htok, ⟨rfl, rfl⟩ | ⟨d, after, hd, rfl, rfl⟩⟩ :=
      strtok_spec h
    · refine .last tok ?_
      rw [append_nil, tokensOf_append_blank hskipped, tokensOf_token hne htok]
    · refine .more tok after ?_
      rw [tokensOf_append_blank hskipped, tokensOf_token_append hne htok hd]

/-- A rule of at most `n` tokens is taken apart into them, and `strtok` is at its end. -/
theorem ruleTokens_eq (n : Nat) :
    ∀ s : List UInt8, (tokensOf s).length ≤ n → ruleTokens n s = (tokensOf s, none) := by
  induction n with
  | zero =>
    intro s hs
    have hnext := strtok_nextToken s
    unfold ruleTokens
    rcases h : strtok isBlank s with ⟨tok, saved⟩
    rw [h] at hnext
    cases hnext with
    | none hnil => rw [hnil]
    | last tok hone =>
      rw [hone] at hs
      cases hs
    | more tok rest hmore =>
      rw [hmore] at hs
      cases hs
  | succ n ih =>
    intro s hs
    have hnext := strtok_nextToken s
    unfold ruleTokens
    rcases h : strtok isBlank s with ⟨tok, saved⟩
    rw [h] at hnext
    cases hnext with
    | none hnil => rw [hnil]
    | last tok hone => rw [hone]
    | more tok rest hmore =>
      simp_all

/-! ## A rule that is cut -/

/-- The pieces of a text that is cut are, but for the last, those of the text. -/
theorem splitOnP_append (x y : List UInt8) :
    ∃ h t h' t', x.splitOnP isBlank = h :: t ∧ (x ++ y).splitOnP isBlank = h' :: t' ∧
      (h ≠ [] → h' ≠ []) ∧ (t.filter fun tok => decide (tok ≠ [])).length ≤
        (t'.filter fun tok => decide (tok ≠ [])).length := by
  induction x with
  | nil =>
    obtain ⟨h', t', hsplit⟩ := exists_cons_of_ne_nil (splitOnP_ne_nil isBlank y)
    exact ⟨[], [], h', t', rfl, hsplit, fun h => absurd rfl h, Nat.zero_le _⟩
  | cons b x ih =>
    obtain ⟨h, t, h', t', hx, hxy, hne, hle⟩ := ih
    rw [cons_append, splitOnP_cons_eq_if_modifyHead,
      splitOnP_cons_eq_if_modifyHead, hx, hxy]
    by_cases hb : isBlank b = true
    · grind
    · simp_all

theorem tokensOf_append_length (x y : List UInt8) :
    (tokensOf x).length ≤ (tokensOf (x ++ y)).length := by
  obtain ⟨h, t, h', t', hx, hxy, hne, hle⟩ := splitOnP_append x y
  grind [tokensOf]

/-! ## The rules of a PDR -/

/-- The filter a rule denotes: that of all its tokens. -/
def ruleFilter (rule : List UInt8) : Option SdfFilter := parseTokens (tokensOf rule)

/-- A rule denotes a filter, in the tokens of the grammar `action dir proto from src [ports] to dst
[ports]`. -/
structure WellFormed (rule : List UInt8) : Prop where
  noNewline : ∀ b ∈ rule, isNewline b = false
  noNul : ∀ b ∈ rule, b ≠ 0
  tokens : (tokensOf rule).length ≤ 9
  denotes : (ruleFilter rule).isSome = true

/-- The rules, one a line. -/
def joinLines : List (List UInt8) → List UInt8
  | [] => []
  | [rule] => rule
  | rule :: rule' :: rules => rule ++ 10 :: joinLines (rule' :: rules)

/-- What the parser copies of a rule. -/
def parsedPart (rule : List UInt8) : List UInt8 := (rule.dropWhile isBlank).take 255

/-- The PDR found under the id has the filters of the rules, each in its place. -/
def InstallsAll (t : PdrTable) (a : PdrArgs) (rules : List (List UInt8)) : Prop :=
  ∃ t' pdr, upfDpAddPdr t { a with sdfRules := some (joinLines rules) } = .installed t' ∧
    t'.find a.pdrId = some pdr ∧ pdr.sdf.map some = rules.map ruleFilter

variable {rule : List UInt8} {rules : List (List UInt8)}

theorem joinLines_cons (rule : List UInt8) (rules : List (List UInt8)) :
    ∃ rest, joinLines (rule :: rules) = rule ++ rest ∧
      (rest = [] ∨ ∃ d after, isNewline d = true ∧ rest = d :: after) := by
  cases rules with
  | nil => exact ⟨[], (append_nil _).symm, Or.inl rfl⟩
  | cons rule' rules => exact ⟨_, rfl, Or.inr ⟨10, _, rfl, rfl⟩⟩

theorem joinLines_ne_zero (h : ∀ rule ∈ rules, ∀ b ∈ rule, b ≠ 0) :
    ∀ b ∈ joinLines rules, b ≠ 0 := by
  induction rules with
  | nil =>
    intro b hb
    cases hb
  | cons rule rules ih =>
    cases rules with
    | nil => exact h rule (mem_cons_self ..)
    | cons rule' rules =>
      intro b hb
      rcases mem_append.1 hb with hb | hb
      · exact h rule (mem_cons_self ..) b hb
      · grind

theorem cString_of_ne_zero (h : ∀ b ∈ s, b ≠ 0) : cString s = s := by
  unfold cString
  rw [takeWhile_eq_self_iff]
  exact fun b hb => by simpa using h b hb

theorem WellFormed.dropWhile_ne_nil (h : WellFormed rule) : rule.dropWhile isBlank ≠ [] := by
  intro hnil
  have htokens := tokensOf_dropWhile rule
  rw [hnil, tokensOf_nil] at htokens
  have hsome := h.denotes
  rw [ruleFilter, ← htokens] at hsome
  cases hsome

/-- The line that is stored is the first rule. -/
theorem storedLine_joinLines (h : ∀ r ∈ rule :: rules, WellFormed r)
    (hlen : (joinLines (rule :: rules)).length < 1024) :
    storedLine (joinLines (rule :: rules)) = rule.dropWhile isBlank := by
  have hfirst := h rule (mem_cons_self ..)
  obtain ⟨rest, hjoin, hrest⟩ := joinLines_cons rule rules
  unfold storedLine
  rw [cString_of_ne_zero (joinLines_ne_zero fun r hr => (h r hr).noNul),
    take_of_length_le (Nat.le_of_lt_succ hlen), hjoin]
  exact firstLine_append_line hfirst.noNewline hfirst.dropWhile_ne_nil hrest

/-- The parser is through with a well-formed rule when it has the tokens of the part it copies. -/
theorem WellFormed.parse (h : WellFormed rule) :
    upfSdfParse (rule.dropWhile isBlank) = (ruleFilter (parsedPart rule), none) := by
  have hle : (tokensOf (parsedPart rule)).length ≤ 12 := by
    have happ := tokensOf_append_length (parsedPart rule) ((rule.dropWhile isBlank).drop 255)
    rw [parsedPart, take_append_drop, tokensOf_dropWhile] at happ
    have hnine := h.tokens
    unfold parsedPart
    omega
  have htokens := ruleTokens_eq 12 (parsedPart rule) hle
  unfold upfSdfParse
  rw [show (rule.dropWhile isBlank).take 255 = parsedPart rule from rfl, htokens]
  rfl

/-- Rules are installed as they stand exactly when there is one, and the part the parser copies
denotes its filter. -/
theorem sdf_rules_installed_iff (t : PdrTable) (a : PdrArgs) (rule : List UInt8)
    (rules : List (List UInt8)) (h : ∀ r ∈ rule :: rules, WellFormed r)
    (hlen : (joinLines (rule :: rules)).length < 1024)
    (hacc : upfDpAddPdr t { a with sdfRules := some (joinLines (rule :: rules)) } ≠ .rejected) :
    InstallsAll t a (rule :: rules) ↔
      rules = [] ∧ ruleFilter (parsedPart rule) = ruleFilter rule := by
  have hfirst := h rule (mem_cons_self ..)
  have hparse : upfSdfParse (storedLine (joinLines (rule :: rules))) =
      (ruleFilter (parsedPart rule), none) := by
    rw [storedLine_joinLines h hlen]
    exact hfirst.parse
  have hacc' : add.run t { a with sdfRules := some (joinLines (rule :: rules)) } ≠
      .rejected := hacc
  obtain ⟨t', hinst, hfind⟩ := installs hacc' hparse
  have hinst' : upfDpAddPdr t { a with sdfRules := some (joinLines (rule :: rules)) } =
      .installed t' := hinst
  constructor
  · rintro ⟨t'', pdr, heq, hfind', hmap⟩
    rw [hinst'] at heq
    cases heq
    rw [hfind] at hfind'
    cases hfind'
    -- one filter at most has been installed
    change (ruleFilter (parsedPart rule)).toList.map some = _ at hmap
    cases hpart : ruleFilter (parsedPart rule) with
    | none =>
      rw [hpart] at hmap
      cases hmap
    | some f =>
      simp_all
  · rintro ⟨rfl, hsame⟩
    refine ⟨t', _, hinst', hfind, ?_⟩
    change (ruleFilter (parsedPart rule)).toList.map some = _
    obtain ⟨f, hf⟩ := Option.isSome_iff_exists.1 hfirst.denotes
    rw [hsame, hf]
    simp [hf]

/-- A rule for one server. -/
def labRule : List UInt8 := ascii "permit out 17 from 10.0.0.1 to any"

theorem wellFormed_lab : WellFormed labRule where
  noNewline := by decide +kernel
  noNul := by decide +kernel
  tokens := by decide
  denotes := by decide

/-- One rule is installed. -/
theorem sdf_rules_installed_lab : InstallsAll ⟨0x0A2D0002, []⟩ labPdrArgs [labRule] := by
  have hacc : add.run ⟨0x0A2D0002, []⟩
      { labPdrArgs with sdfRules := some (joinLines [labRule]) } ≠ .rejected :=
    add_accepted _ _
  refine (sdf_rules_installed_iff ⟨0x0A2D0002, []⟩ labPdrArgs labRule [] (fun r hr => ?_)
    (by decide) hacc).2 ⟨rfl, by decide⟩
  rw [mem_singleton] at hr
  rw [hr]
  exact wellFormed_lab

/-- Of two rules the second is not installed. -/
theorem second_rule_lost :
    ¬ ∀ (t : PdrTable) (a : PdrArgs) (rules : List (List UInt8)), 1 ≤ rules.length →
      rules.length ≤ 8 → (∀ r ∈ rules, WellFormed r) → (joinLines rules).length < 1024 →
        upfDpAddPdr t { a with sdfRules := some (joinLines rules) } ≠ .rejected →
          InstallsAll t a rules := by
  intro h
  have hwf : ∀ r ∈ [labRule, labRule], WellFormed r := by
    grind [wellFormed_lab]
  have hlen : (joinLines [labRule, labRule]).length < 1024 := by decide
  have hacc : add.run ⟨0x0A2D0002, []⟩
      { labPdrArgs with sdfRules := some (joinLines [labRule, labRule]) } ≠ .rejected :=
    add_accepted _ _
  obtain ⟨t', pdr, hinst, hfind, hmap⟩ :=
    h ⟨0x0A2D0002, []⟩ labPdrArgs [labRule, labRule] (by decide) (by decide) hwf hlen hacc
  have hparse : upfSdfParse (storedLine (joinLines [labRule, labRule])) =
      (ruleFilter (parsedPart labRule), none) := by
    rw [storedLine_joinLines hwf hlen]
    exact wellFormed_lab.parse
  obtain ⟨t'', hinst', hfind'⟩ := installs hacc hparse
  have heq : PdrResult.installed t' = .installed t'' := hinst.symm.trans hinst'
  cases heq
  rw [hfind'] at hfind
  cases hfind
  have hcount := congrArg length hmap
  cases hpart : ruleFilter (parsedPart labRule) with
  | none | some f =>
    cases hcount

end MmtCore.Upf
