import MmtCore.Pfcp.Handler
import MmtCore.Upf.AbsentUpdates

/-!
# What an update makes of a rule

The Update IEs of a modification are read into the arguments of one call of the dataplane each.
`upf_dp_update_pdr`, `upf_dp_update_qer` and `upf_dp_update_urr` write all the fields of the rule, so
that what an IE does not mention becomes zero or empty: the rule is replaced, as the comments of the
handlers say, and not merged into (`updates_replace`).  The update of a FAR gives it a tunnel, or
takes the tunnel away, and leaves its other fields alone.
-/

namespace MmtCore.Pfcp

open MmtCore.Lib MmtCore.Lib.SlotView MmtCore.Upf Function Option UpdatePDR

/-! ## The calls for the IEs -/

/-- An empty text is passed as NULL. -/
def sdfText (text : List UInt8) : Option (List UInt8) := if text = [] then none else some text

/-- `applyUpdatePDRToHook`. -/
def UpdatePDR.call (up : UpdatePDR) : RuleCall :=
  .updatePdr
    { pdrId := up.pdrID
      precedence := up.rule.precedence
      pdiSource := up.rule.pdiSource
      qfi := up.rule.qfi
      farId := up.rule.farID
      qerId := up.rule.qerID
      urrId := up.rule.urrID
      sdfRules := sdfText up.rule.sdfRules }

/-- `applyUpdateFARToHook`. -/
def UpdateFAR.call (uf : UpdateFAR) : RuleCall :=
  if uf.deactivates then .deactivateDl uf.farID
  else .updateFar uf.farID ⟨uf.tunnel.1, uf.tunnel.2, uf.peerPort⟩

/-- `applyUpdateQERToHook`. -/
def UpdateQER.call (uq : UpdateQER) : RuleCall :=
  .updateQer
    { qerId := uq.qerID
      qfi := uq.rule.qfi
      gateUl := uq.rule.gateUL
      gateDl := uq.rule.gateDL
      mbrUl := uq.rule.mbrUL
      mbrDl := uq.rule.mbrDL
      gbrUl := uq.rule.gbrUL
      gbrDl := uq.rule.gbrDL }

/-- `applyUpdateURRToHook`. -/
def UpdateURR.call (uu : UpdateURR) : RuleCall :=
  .updateUrr
    { urrId := uu.urrID
      measMethod := uu.rule.measMethod
      reportingTrigger := uu.rule.reportTrigger
      volThreshUl := uu.rule.volThreshUL
      volThreshDl := uu.rule.volThreshDL
      timeThresh := uu.rule.timeThresh }

/-! ## Merging -/

/-- The filters of the first SDF filter of a PDI. -/
def PDI.sdf (pdi : PDI) : Option (List SdfFilter) := sdfFilters (sdfText (pdi.sdfFilter.headD []))

/-- The PDR with the fields that the IE carries; a PDI is one of them. -/
def UpdatePDR.merged (up : UpdatePDR) (p : Pdr) : Pdr :=
  { p with
    precedence := up.precedence.getD p.precedence
    pdiSource := (up.pdi.map (·.sourceInterface)).getD p.pdiSource
    qfi := (up.pdi.map (·.qfi.headD 0)).getD p.qfi
    sdf := (up.pdi.map fun pdi => pdi.sdf.getD []).getD p.sdf
    farId := up.farID.getD p.farId
    qerId := up.qerID.headD p.qerId
    urrId := up.urrID.headD p.urrId }

/-- The FAR with the action and the tunnel that the IE carries. -/
def UpdateFAR.merged (uf : UpdateFAR) (far : Far) : Far :=
  { far with
    action := (uf.applyAction.map (·.action)).getD far.action
    ohcTeid := if (uf.updateForwardingParameters.bind id).isSome then uf.tunnel.1 else far.ohcTeid
    ohcPeerAddr :=
      if (uf.updateForwardingParameters.bind id).isSome then uf.tunnel.2 else far.ohcPeerAddr
    ohcPeerPort :=
      if (uf.updateForwardingParameters.bind id).isSome then uf.peerPort else far.ohcPeerPort }

/-- The QER with the fields that the IE carries. -/
def UpdateQER.merged (uq : UpdateQER) (q : Qer) : Qer :=
  { q with
    qfi := uq.qfi.getD q.qfi
    gateStatusUl := (uq.gateStatus.map (·.ul)).getD q.gateStatusUl
    gateStatusDl := (uq.gateStatus.map (·.dl)).getD q.gateStatusDl
    mbrUl := (uq.mbr.map (·.ul)).getD q.mbrUl
    mbrDl := (uq.mbr.map (·.dl)).getD q.mbrDl
    gbrUl := (uq.gbr.map (·.ul)).getD q.gbrUl
    gbrDl := (uq.gbr.map (·.dl)).getD q.gbrDl }

/-- The URR with the fields that the IE carries. -/
def UpdateURR.merged (uu : UpdateURR) (u : Urr) : Urr :=
  { u with
    measurementMethod := (uu.measurementMethod.map (·.bits)).getD u.measurementMethod
    reportingTrigger := (uu.reportingTriggers.map (·.toUInt8)).getD u.reportingTrigger
    volThresholdUl := (uu.volumeThreshold.bind (·.ul)).getD u.volThresholdUl
    volThresholdDl := (uu.volumeThreshold.bind (·.dl)).getD u.volThresholdDl
    timeThreshold := uu.timeThreshold.getD u.timeThreshold }

/-- What is claimed of the updates of a session: they merge into the rules that are there. -/
structure UpdatesMerge (s : RuleSession) : Prop where
  pdr : ∀ (up : UpdatePDR) p s', findPdr s up.pdrID = some p → s.call up.call = .done s' →
    findPdr s' up.pdrID = some (up.merged p)
  far : ∀ (uf : UpdateFAR) far s', findFar s uf.farID = some far → s.call uf.call = .done s' →
    findFar s' uf.farID = some (uf.merged far)
  qer : ∀ (uq : UpdateQER) q s', findQer s uq.qerID = some q → s.call uq.call = .done s' →
    findQer s' uq.qerID = some (uq.merged q)
  urr : ∀ (uu : UpdateURR) u s', findUrr s uu.urrID = some u → s.call uu.call = .done s' →
    findUrr s' uu.urrID = some (uu.merged u)

/-! ## Replacing -/

/-- A PDR with nothing in it, as `memset` leaves it, with the address of the session. -/
def blankPdr (pdrId : UInt16) (ueAddr : UInt32) : Pdr := ⟨pdrId, 0, 0, ueAddr, 0, [], 0, 0, 0, true⟩

def blankQer (qerId : UInt32) : Qer := ⟨qerId, 0, 0, 0, 0, 0, 0, 0, 0, 0, 0, 0, true⟩

def blankUrr (urrId : UInt32) : Urr := ⟨urrId, 0, 0, 0, 0, 0, 0, 0, 0, 0, true⟩

/-- The IE brings a tunnel for GTP-U over IPv4, and no other action than to forward. -/
structure UpdateFAR.Activates (uf : UpdateFAR) : Prop where
  tunnel : uf.tunnel ≠ (0, 0)
  action : ∀ a, uf.applyAction = some a → a.forw = 1

/-- What the updates do to the rules of a session. -/
structure UpdatesReplace (s : RuleSession) : Prop where
  pdr : ∀ (up : UpdatePDR) p, findPdr s up.pdrID = some p →
    (∀ pdi, up.pdi = some pdi → pdi.sdf.isSome) → ∃ s', s.call up.call = .done s' ∧
      findPdr s' up.pdrID = some (up.merged (blankPdr up.pdrID s.ueAddr))
  qer : ∀ (uq : UpdateQER) q, findQer s uq.qerID = some q → ∃ s', s.call uq.call = .done s' ∧
    findQer s' uq.qerID = some (uq.merged (blankQer uq.qerID))
  urr : ∀ (uu : UpdateURR) u, findUrr s uu.urrID = some u → ∃ s', s.call uu.call = .done s' ∧
    findUrr s' uu.urrID = some (uu.merged (blankUrr uu.urrID))
  activated : ∀ (uf : UpdateFAR) far, findFar s uf.farID = some far → uf.Activates →
    far.action = 1 ∨ far.action = 2 → ∃ s', s.call uf.call = .done s' ∧
      findFar s' uf.farID = some
        { far with
          action := 1
          ohcTeid := uf.tunnel.1
          ohcPeerAddr := uf.tunnel.2
          ohcPeerPort := 2152
          ohcType := if far.action = 2 then 1 else far.ohcType }
  deactivated : ∀ (uf : UpdateFAR) far, findFar s uf.farID = some far → uf.deactivates →
    ∃ s', s.call uf.call = .done s' ∧
      findFar s' uf.farID = some
        (if far.action = 2 then far
        else { far with action := 2, ohcTeid := 0, ohcPeerAddr := 0, ohcPeerPort := 0 })
  others : ∀ (c : RuleCall) s', c.verb = .update → s.call c = .done s' →
    (∀ id, .pdr id ≠ c.key → findPdr s' id = findPdr s id) ∧
      (∀ id, .far id ≠ c.key → findFar s' id = findFar s id) ∧
      (∀ id, .qer id ≠ c.key → findQer s' id = findQer s id) ∧
      ∀ id, .urr id ≠ c.key → findUrr s' id = findUrr s id

/-! ## What an update leaves -/

section Calls

variable {s s' : RuleSession} {c : RuleCall}

/-- A call that is neither refused nor undefined. -/
theorem exists_done (hr : s.call c ≠ .rejected) (hu : s.call c ≠ .undefined) :
    ∃ s', s.call c = .done s' := by
  cases h : s.call c with
  | rejected => exact absurd h hr
  | undefined => exact absurd h hu
  | done s' => exact ⟨s', rfl⟩

/-- The update of a rule that is there is carried out. -/
theorem exists_updated (hv : c.verb = .update) (hact : s.Active c.key)
    (hu : s.call c ≠ .undefined) : ∃ s', s.call c = .done s' :=
  exists_done (fun hr => (update_rejected_iff hv).mp hr hact.listed) hu

theorem expected_self {α ι : Type} [DecidableEq ι] {e : ι → Expected α} {i : ι} {x : α}
    {found : Option α} (h : (update e i (.value x) i).Allows found) : found = some x := by
  rw [update_self] at h
  exact h

/-- The ids that a call does not name find what they found. -/
theorem others_kept (hs : s.Sound) (h : s.call c = .done s') :
    (∀ id, .pdr id ≠ c.key → findPdr s' id = findPdr s id) ∧
      (∀ id, .far id ≠ c.key → findFar s' id = findFar s id) ∧
      (∀ id, .qer id ≠ c.key → findQer s' id = findQer s id) ∧
      ∀ id, .urr id ≠ c.key → findUrr s' id = findUrr s id := by
  have hi := inv_done hs h
  have hsame : ∀ {α : Type} {e : Expected α} {o found : Option α},
      e = o.elim .absent .value → e.Allows found → found = o := by
    rintro α e o found rfl ha
    cases o with
    | none | some a => exact ha
  refine ⟨fun id hk => hsame ?_ (hi.pdrFound id), fun id hk => hsame ?_ (hi.farFound id),
    fun id hk => hsame ?_ (hi.qerFound id), fun id hk => hsame ?_ (hi.urrFound id)⟩
  · cases c <;> first
      | rfl
      | exact update_of_ne (fun heq => hk (congrArg RuleKey.pdr heq)) ..
  · cases c <;> first
      | rfl
      | exact update_of_ne (fun heq => hk (congrArg RuleKey.far heq)) ..
  · cases c <;> first
      | rfl
      | exact update_of_ne (fun heq => hk (congrArg RuleKey.qer heq)) ..
  · cases c <;> first
      | rfl
      | exact update_of_ne (fun heq => hk (congrArg RuleKey.urr heq)) ..

end Calls

variable {s : RuleSession}

theorem pdr_replaced (hs : s.Sound) {up : UpdatePDR} {p : Pdr} (hp : findPdr s up.pdrID = some p)
    (hsdf : ∀ pdi, up.pdi = some pdi → pdi.sdf.isSome) :
    ∃ s', s.call up.call = .done s' ∧
      findPdr s' up.pdrID = some (up.merged (blankPdr up.pdrID s.ueAddr)) := by
  have hact : s.Active up.call.key := isSome_iff_exists.mpr ⟨p, hp⟩
  have htext : (sdfFilters (sdfText up.rule.sdfRules)).isSome := by
    cases hpdi : up.pdi with
    | none =>
      unfold rule
      rw [hpdi]
      rfl
    | some pdi =>
      have := hsdf pdi hpdi
      unfold rule
      rw [hpdi]
      exact this
  obtain ⟨s', h⟩ := exists_updated (c := up.call) rfl hact (updatePdr_ne_undefined htext s)
  refine ⟨s', h, (expected_self ((inv_done hs h).pdrFound up.pdrID)).trans (congrArg some ?_)⟩
  unfold merged rule PdrArgs.pdr blankPdr PDI.sdf
  cases up.pdi with
  | none | some pdi => rfl

theorem qer_replaced (hs : s.Sound) {uq : UpdateQER} {q : Qer} (hq : findQer s uq.qerID = some q) :
    ∃ s', s.call uq.call = .done s' ∧
      findQer s' uq.qerID = some (uq.merged (blankQer uq.qerID)) := by
  have hact : s.Active uq.call.key := isSome_iff_exists.mpr ⟨q, hq⟩
  obtain ⟨s', h⟩ := exists_updated (c := uq.call) rfl hact (call_ne_undefined rfl s)
  refine ⟨s', h, (expected_self ((inv_done hs h).qerFound uq.qerID)).trans (congrArg some ?_)⟩
  unfold UpdateQER.merged UpdateQER.rule qerRule QerArgs.qer blankQer
  cases uq.gateStatus <;> cases uq.mbr <;> cases uq.gbr <;> rfl

theorem urr_replaced (hs : s.Sound) {uu : UpdateURR} {u : Urr} (hu : findUrr s uu.urrID = some u) :
    ∃ s', s.call uu.call = .done s' ∧
      findUrr s' uu.urrID = some (uu.merged (blankUrr uu.urrID)) := by
  have hact : s.Active uu.call.key := isSome_iff_exists.mpr ⟨u, hu⟩
  obtain ⟨s', h⟩ := exists_updated (c := uu.call) rfl hact (call_ne_undefined rfl s)
  refine ⟨s', h, (expected_self ((inv_done hs h).urrFound uu.urrID)).trans (congrArg some ?_)⟩
  unfold UpdateURR.merged UpdateURR.rule urrRule UrrArgs.urr blankUrr
  cases uu.reportingTriggers <;> rfl

/-- What a FAR finds after its tunnel is changed. -/
theorem far_changed (hs : s.Sound) {c : RuleCall} {far : Far} {s' : RuleSession}
    {x : Expected Far → Expected Far} (hfar : findFar s far.farId = some far)
    (hx : (s.finds.after s.ueAddr c).far =
      update s.finds.far far.farId (x (s.finds.far far.farId)))
    (h : s.call c = .done s') : (x (.value far)).Allows (findFar s' far.farId) := by
  have hfound := (inv_done hs h).farFound far.farId
  rw [hx, update_self] at hfound
  have hvalue : s.finds.far far.farId = .value far :=
    congrArg (fun o : Option Far => o.elim Expected.absent Expected.value) hfar
  rw [hvalue] at hfound
  exact hfound

theorem UpdateFAR.Activates.call_eq {uf : UpdateFAR} (h : uf.Activates) :
    uf.call = .updateFar uf.farID ⟨uf.tunnel.1, uf.tunnel.2, 2152⟩ := by
  have hport : uf.peerPort = 2152 := by
    refine if_pos ?_
    rw [Bool.or_eq_true, bne_iff_ne, bne_iff_ne]
    by_contra hno
    rw [not_or, not_not, not_not] at hno
    exact h.tunnel (Prod.ext hno.1 hno.2)
  have hnot : uf.deactivates = false := by
    unfold UpdateFAR.deactivates
    cases hufp : uf.updateForwardingParameters with
    | some ufp => exact Bool.and_false _
    | none =>
      refine absurd ?_ h.tunnel
      unfold UpdateFAR.tunnel
      rw [hufp]
      rfl
  unfold UpdateFAR.call
  rw [hnot, hport]
  rfl

section

variable (hs : s.Sound) {uf : UpdateFAR} {far : Far} (hfar : findFar s uf.farID = some far)
include hfar hs

theorem far_activated (huf : uf.Activates) (haction : far.action = 1 ∨ far.action = 2) :
    ∃ s', s.call uf.call = .done s' ∧
      findFar s' uf.farID = some
        { far with
          action := 1
          ohcTeid := uf.tunnel.1
          ohcPeerAddr := uf.tunnel.2
          ohcPeerPort := 2152
          ohcType := if far.action = 2 then 1 else far.ohcType } := by
  have hact : s.Active (.far uf.farID) := isSome_iff_exists.mpr ⟨far, hfar⟩
  have hid : uf.farID = far.farId := (hs.fars.lookup_iff.mp hfar).2.1.symm
  rw [huf.call_eq]
  obtain ⟨s', h⟩ := exists_updated (c := .updateFar uf.farID ⟨uf.tunnel.1, uf.tunnel.2, 2152⟩) rfl
    hact (call_ne_undefined rfl s)
  refine ⟨s', h, ?_⟩
  rw [hid] at h hfar ⊢
  refine (far_changed hs hfar (x := Expected.farUpdated _) rfl h).trans (congrArg some ?_)
  grind [Far.updated]

theorem far_deactivated (huf : uf.deactivates) : ∃ s', s.call uf.call = .done s' ∧
      findFar s' uf.farID = some
        (if far.action = 2 then far
        else { far with action := 2, ohcTeid := 0, ohcPeerAddr := 0, ohcPeerPort := 0 }) := by
  have hact : s.Active (.far uf.farID) := isSome_iff_exists.mpr ⟨far, hfar⟩
  have hid : uf.farID = far.farId := (hs.fars.lookup_iff.mp hfar).2.1.symm
  have hcall : uf.call = .deactivateDl uf.farID := if_pos huf
  rw [hcall]
  obtain ⟨s', h⟩ := exists_updated (c := .deactivateDl uf.farID) rfl hact (call_ne_undefined rfl s)
  refine ⟨s', h, ?_⟩
  rw [hid] at h hfar ⊢
  refine (far_changed hs hfar (x := Expected.farDeactivated) rfl h).trans (congrArg some ?_)
  simp [Far.deactivated]

end

/-- In every session that calls lead to, an update of a PDR, a QER or a URR that is there replaces
it, and that of a FAR gives or takes its tunnel.  The other rules stay. -/
theorem updates_replace {ueAddr : UInt32} {calls : List RuleCall} {t : TrackedRules}
    (hrun : (TrackedRules.start ueAddr).run calls = some t) : UpdatesReplace t.session := by
  have hi := (TrackedRules.inv_start ueAddr).run hrun
  have hs : t.session.Sound := ⟨hi.pdrs, hi.fars, hi.qers, hi.urrs⟩
  exact
    { pdr := fun _ _ hp hsdf => pdr_replaced hs hp hsdf
      qer := fun _ _ hq => qer_replaced hs hq
      urr := fun _ _ hu => urr_replaced hs hu
      activated := fun _ _ hfar huf haction => far_activated hs hfar huf haction
      deactivated := fun _ _ hfar huf => far_deactivated hs hfar huf
      others := fun _ _ _ h => others_kept hs h }

/-- A QER with a rate for each direction. -/
def ratedQer : List RuleCall := [.addQer ⟨1, 9, 0, 0, 1000, 2000, 0, 0⟩]

theorem updates_replace_ratedQer :
    ∃ t, (TrackedRules.start 0).run ratedQer = some t ∧ UpdatesReplace t.session := by
  have h : (TrackedRules.start 0).run ratedQer = some _ := rfl
  exact ⟨_, h, updates_replace h⟩

/-- An update that closes its gates takes the rates away. -/
theorem ratedQer_not_merged :
    ¬∀ (ueAddr : UInt32) (calls : List RuleCall) (t : TrackedRules),
        (TrackedRules.start ueAddr).run calls = some t → UpdatesMerge t.session := by
  intro hall
  have hmerge := hall 0 ratedQer _ rfl
  have hqer := hmerge.qer ⟨1, none, some ⟨1, 1⟩, none, none⟩ _ _ rfl rfl
  exact absurd hqer (by decide)

end MmtCore.Pfcp
