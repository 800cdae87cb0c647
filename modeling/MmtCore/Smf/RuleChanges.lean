import MmtCore.Smf.Manager

/-!
# One change on both sides

The rules of a session as the manager has them, as they wait in the bridge, and as the UPF has them,
and what a batch does to each.  As long as the batch `Fits` the rules it is one change of `Rules`,
`ModifyBatch.change`.
-/

namespace MmtCore.Smf

open MmtCore.Lib MmtCore.Upf MmtCore.Pfcp List RuleTable Forwarding

/-! ## The rules of a session -/

namespace Rules

/-- The rules the manager means. -/
def ofLists (pdrs : List PDR) (fars : List FAR) (qers : List QER) (urrs : List URR) : Rules :=
  ⟨pdrs.map PDR.entry, fars.map FAR.entry, qers.map QER.entry, urrs.map URR.entry⟩

def append (r r' : Rules) : Rules :=
  ⟨r.pdrs ++ r'.pdrs, r.fars ++ r'.fars, r.qers ++ r'.qers, r.urrs ++ r'.urrs⟩

/-- Every rule has an id of its own, and none has that of the Session-AMBR. -/
structure Distinct (r : Rules) : Prop where
  pdrs : r.pdrs.ids.Nodup
  fars : r.fars.ids.Nodup
  qers : r.qers.ids.Nodup
  urrs : r.urrs.ids.Nodup
  ambr : ambrQerID ∉ r.qers.ids

end Rules

def Session.rules (s : Session) : Rules := .ofLists s.pdrs s.fars s.qers s.urrs

def PendingRules.rules (p : PendingRules) : Rules := .ofLists p.pdrs p.fars p.qers p.urrs

/-- The rules of the UPF; the QER of the Session-AMBR is no rule of the manager. -/
def PeerSession.rules (s : PeerSession) : Rules :=
  ⟨s.pdrs, s.fars.each Forwarding.ofRule, s.qers.drop ambrQerID, s.urrs⟩

/-- Rules that fit their IEs. -/
structure FitAll (pdrs : List PDR) (fars : List FAR) (qers : List QER) (urrs : List URR) :
    Prop where
  pdrs : ∀ p ∈ pdrs, p.Fits
  fars : ∀ f ∈ fars, f.Fits
  qers : ∀ q ∈ qers, q.Fits
  urrs : ∀ u ∈ urrs, u.Fits

def PendingRules.Fit (p : PendingRules) : Prop := FitAll p.pdrs p.fars p.qers p.urrs

/-! ## A batch -/

/-- A FAR gets the tunnel of an update. -/
def Forwarding.retarget (u : UpdateFARSpec) (f : Forwarding) : Forwarding :=
  { f with
    teid := u.teid, peerAddr := u.peerAddr, peerPort := u.peerPort
    action := if u.peerAddr != 0 then 1 else f.action }

namespace ModifyBatch

variable (b : ModifyBatch)

def created : Rules := .ofLists b.createPDRs b.createFARs b.createQERs b.createURRs

/-- A batch creates, updates and removes. -/
def change (r : Rules) : Rules where
  pdrs := b.removePDRs.foldl RuleTable.drop (r.pdrs ++ b.created.pdrs)
  fars := b.removeFARs.foldl RuleTable.drop
    (b.updateFARs.foldl (fun t u => RuleTable.alter t u.farID (Forwarding.retarget u))
      (r.fars ++ b.created.fars))
  qers := b.removeQERs.foldl RuleTable.drop (r.qers ++ b.created.qers)
  urrs := b.removeURRs.foldl RuleTable.drop (r.urrs ++ b.created.urrs)

/-- A batch that only creates. -/
structure Creates : Prop where
  updateFARs : b.updateFARs = []
  removePDRs : b.removePDRs = []
  removeFARs : b.removeFARs = []
  removeQERs : b.removeQERs = []
  removeURRs : b.removeURRs = []

/-- The FARs that an update reaches forward or buffer. -/
def Reaches (fars : RuleTable UInt32 Forwarding) (u : UpdateFARSpec) : Prop :=
  ∀ f ∈ fars, f.1 = u.farID → f.2.action = 1 ∨ f.2.action = 2

/-- What a batch creates has ids of its own and fits, and what it updates gets a tunnel. -/
structure Fits (r : Rules) : Prop where
  creates : FitAll b.createPDRs b.createFARs b.createQERs b.createURRs
  distinct : (r.append b.created).Distinct
  tunnels : ∀ u ∈ b.updateFARs, u.peerAddr ≠ 0 ∧ u.peerPort = 2152
  reaches : ∀ u ∈ b.updateFARs, Reaches (r.append b.created).fars u

end ModifyBatch

/-! ## What is created -/

section

variable {pdrs : List PDR} {fars : List FAR} {qers : List QER} {urrs : List URR}

theorem putAll_createdPDR {t : RuleTable UInt16 PeerPDR} (hfit : ∀ p ∈ pdrs, p.Fits)
    (h : (RuleTable.ids (t ++ pdrs.map PDR.entry)).Nodup) :
    t.putAll ((pdrs.map buildCreatePDR).map createdPDR) = t ++ pdrs.map PDR.entry := by
  grind [putAll_nodup, map_congr_left, createdPDR_build]

theorem putAll_createdFAR {t : RuleTable UInt32 FarRule} (hfit : ∀ f ∈ fars, f.Fits)
    (h : (RuleTable.ids (t.each Forwarding.ofRule ++ fars.map FAR.entry)).Nodup) :
    (t.putAll ((fars.map buildCreateFAR).map createdFAR)).each Forwarding.ofRule =
      t.each Forwarding.ofRule ++ fars.map FAR.entry := by
  have heq : each ((fars.map buildCreateFAR).map createdFAR) ofRule =
      fars.map FAR.entry := by
    unfold each
    rw [map_map, map_map]
    exact map_congr_left fun f hf => createdFAR_build (hfit f hf)
  have hids : (ids (t ++ (fars.map buildCreateFAR).map createdFAR)).Nodup := by
    rw [← heq, ← each_append, ids_each] at h
    exact h
  rw [putAll_nodup hids, each_append, heq]

/-- The Session-AMBR comes after the QERs and is not counted. -/
theorem putAll_createdQER {t : RuleTable UInt32 QerRule} {ambr : List CreateQER}
    (hfit : ∀ q ∈ qers, q.Fits) (hambr : ∀ q ∈ ambr, q.qerID = ambrQerID)
    (h : (RuleTable.ids (t.drop ambrQerID ++ qers.map QER.entry)).Nodup)
    (hnot : ambrQerID ∉ RuleTable.ids (t.drop ambrQerID ++ qers.map QER.entry)) :
    (t.putAll ((qers.map buildCreateQER ++ ambr).map createdQER)).drop ambrQerID =
      t.drop ambrQerID ++ qers.map QER.entry := by
  have heq : (qers.map buildCreateQER).map createdQER = qers.map QER.entry := by
    rw [map_map]
    exact map_congr_left fun q hq => createdQER_build (hfit q hq)
  rw [ids_append] at h hnot
  obtain ⟨-, hqers, hdisj⟩ := nodup_append.1 h
  have hnew : ambrQerID ∉ ids (qers.map QER.entry) :=
    fun hm => hnot (mem_append_right _ hm)
  have hfresh : ∀ i ∈ ids (qers.map QER.entry), i ∉ t.ids := by
    grind [mem_ids_drop]
  have hput : t.putAll ((qers.map buildCreateQER ++ ambr).map createdQER) =
      (t ++ qers.map QER.entry : RuleTable UInt32 QerRule).putAll (ambr.map createdQER) := by
    rw [← putAll_fresh _ hqers hfresh, map_append, heq]
    exact foldl_append ..
  have hids : ∀ p ∈ ambr.map createdQER, p.1 = ambrQerID := by
    intro p hp
    obtain ⟨q, hq, rfl⟩ := mem_map.1 hp
    exact hambr q hq
  rw [hput, RuleTable.drop_putAll _ hids, RuleTable.drop_append, RuleTable.drop_eq_self hnew]

theorem putAll_createdURR {t : RuleTable UInt32 UrrRule} (hfit : ∀ u ∈ urrs, u.Fits)
    (h : (RuleTable.ids (t ++ urrs.map URR.entry)).Nodup) :
    t.putAll ((urrs.map buildCreateURR).map createdURR) = t ++ urrs.map URR.entry := by
  grind [putAll_nodup, map_congr_left, createdURR_build]

end

/-- An Establishment Request brings the rules that waited. -/
theorem rules_established (k : ImsiPduKey) {p : PendingRules} (hfit : p.Fit)
    (hdist : p.rules.Distinct) :
    (PeerSession.established (establishmentRequest k p)).rules = p.rules := by
  have hambr : ∀ q ∈ (if p.sessAMBRUL != 0 || p.sessAMBRDL != 0 then
      [buildCreateQER (ambrQER ⟨p.sessAMBRUL, p.sessAMBRDL⟩)] else []),
      q.qerID = ambrQerID := by
    intro q hq
    split at hq
    · rw [mem_singleton.1 hq]
      rfl
    · cases hq
  have hpdrs := putAll_createdPDR (t := []) hfit.pdrs hdist.pdrs
  have hfars := putAll_createdFAR (t := []) hfit.fars hdist.fars
  have hqers := putAll_createdQER (t := []) hfit.qers hambr hdist.qers hdist.ambr
  have hurrs := putAll_createdURR (t := []) hfit.urrs hdist.urrs
  exact congr (congr (congr (congrArg Rules.mk hpdrs) hfars) hqers) hurrs

/-! ## What is updated -/

theorem ofRule_update {r : FarRule} (teid peerAddr : UInt32) (peerPort : UInt16)
    (h : r.action = 1 ∨ r.action = 2) :
    Forwarding.ofRule (FarRule.update teid peerAddr peerPort r) =
      ⟨1, r.dstIface, teid, peerAddr, peerPort⟩ := by
  unfold FarRule.update ofRule
  obtain h | h := h <;> simp [h]

namespace UpdateFARSpec

variable {u : UpdateFARSpec}

theorem tunnel_ie (h : u.peerAddr ≠ 0) : u.ie.tunnel = (u.teid, u.peerAddr) := by
  have hufp : u.ie.updateForwardingParameters = some (some (ohcGTPUv4 u.teid u.peerAddr)) :=
    congrArg some (if_pos (by simpa using h))
  unfold UpdateFAR.tunnel
  rw [hufp]
  exact readOHC_ohcGTPUv4 u.teid u.peerAddr

variable {t : RuleTable UInt32 FarRule}

theorem updateFAR_ie (hpeer : u.peerAddr ≠ 0) (hport : u.peerPort = 2152)
    (h : ModifyBatch.Reaches (t.each Forwarding.ofRule) u) :
    (PeerSession.updateFAR t u.ie).each Forwarding.ofRule =
      (t.each Forwarding.ofRule).alter u.farID (Forwarding.retarget u) := by
  have hport' : u.ie.peerPort = 2152 := by
    unfold UpdateFAR.peerPort
    rw [tunnel_ie hpeer]
    exact if_pos (by simp [hpeer])
  have hdeact : u.ie.deactivates = false := Bool.and_false _
  unfold PeerSession.updateFAR
  rw [hdeact, tunnel_ie hpeer, hport']
  refine RuleTable.each_alter fun p hp hid => ?_
  have hact := h (p.1, Forwarding.ofRule p.2) (List.mem_map_of_mem hp) hid
  rw [if_neg Bool.false_ne_true, ofRule_update _ _ _ hact]
  unfold Forwarding.retarget
  rw [hport, if_pos (by simpa using hpeer)]
  rfl

/-- An update leaves every FAR where another one can reach it. -/
theorem reaches_alter {t : RuleTable UInt32 Forwarding} {v : UpdateFARSpec}
    (hpeer : u.peerAddr ≠ 0) (h : ModifyBatch.Reaches t v) :
    ModifyBatch.Reaches (t.alter u.farID (Forwarding.retarget u)) v := by
  intro f hf hid
  obtain ⟨p, hp, rfl⟩ := mem_map.1 hf
  split
  case isTrue =>
    left
    exact if_pos (by simpa using hpeer)
  case isFalse hne =>
    rw [if_neg hne] at hid
    exact h p hp hid

theorem foldl_updateFAR {us : List UpdateFARSpec}
    (htun : ∀ u ∈ us, u.peerAddr ≠ 0 ∧ u.peerPort = 2152)
    (h : ∀ u ∈ us, ModifyBatch.Reaches (t.each Forwarding.ofRule) u) :
    ((us.map UpdateFARSpec.ie).foldl PeerSession.updateFAR t).each Forwarding.ofRule =
      us.foldl (fun t u => RuleTable.alter t u.farID (Forwarding.retarget u))
        (t.each Forwarding.ofRule) := by
  induction us generalizing t with
  | nil => rfl
  | cons u us ih =>
    obtain ⟨⟨hpeer, hport⟩, htun⟩ := forall_mem_cons.1 htun
    obtain ⟨hu, hus⟩ := forall_mem_cons.1 h
    have hstep := updateFAR_ie hpeer hport hu
    grind [reaches_alter]

end UpdateFARSpec

variable {b : ModifyBatch} {t : RuleTable UInt32 FarRule} {farID : UInt32} {fars : List FAR}

/-- A batch changes the rules of the UPF. -/
theorem rules_modified {s : PeerSession} (h : b.Fits s.rules) :
    (s.modified b.request).rules = b.change s.rules := by
  have hambr : ∀ q ∈ (b.sessionAMBR.map ambrQER).toList.map buildCreateQER,
      q.qerID = ambrQerID := by
    intro q hq
    cases hb : b.sessionAMBR with
    | none => simp [hb] at hq
    | some a =>
      rw [hb] at hq
      rw [mem_singleton.1 hq]
      rfl
  have hpdrs := putAll_createdPDR h.creates.pdrs h.distinct.pdrs
  have hfars := putAll_createdFAR h.creates.fars h.distinct.fars
  have hqers := putAll_createdQER h.creates.qers hambr h.distinct.qers h.distinct.ambr
  have hurrs := putAll_createdURR h.creates.urrs h.distinct.urrs
  have hreach : ∀ u ∈ b.updateFARs, ModifyBatch.Reaches
      ((s.fars.putAll ((b.createFARs.map buildCreateFAR).map createdFAR)).each
        ofRule) u := by
    rw [hfars]
    exact h.reaches
  refine congr (congr (congr (congrArg Rules.mk ?_) ?_) ?_) ?_
  · exact congrArg (b.removePDRs.foldl drop) hpdrs
  · refine (foldl_drop_each _ _).symm.trans (congrArg (b.removeFARs.foldl _) ?_)
    exact (UpdateFARSpec.foldl_updateFAR h.tunnels hreach).trans
      (congrArg (b.updateFARs.foldl _) hfars)
  · refine (foldl_drop_drop _).trans (congrArg (b.removeQERs.foldl _) ?_)
    rw [← map_append] at hqers
    exact hqers
  · exact congrArg (b.removeURRs.foldl drop) hurrs

/-! ## A single FAR -/

/-- A FAR forwards into this tunnel. -/
def Forwarding.forward (teid peerAddr : UInt32) (peerPort : UInt16) (f : Forwarding) : Forwarding :=
  { f with action := 1, teid, peerAddr, peerPort }

def Forwarding.deactivated (f : Forwarding) : Forwarding :=
  { f with action := 2, teid := 0, peerAddr := 0, peerPort := 0 }

theorem each_updateFAR_forward (teid peerAddr : UInt32)
    (h : ∀ f ∈ t.each Forwarding.ofRule, f.1 = farID → f.2.action = 1 ∨ f.2.action = 2) :
    (PeerSession.updateFAR t (forwardIE farID teid peerAddr)).each Forwarding.ofRule =
      (t.each Forwarding.ofRule).alter farID
        (Forwarding.forward teid peerAddr (tunnelPort teid peerAddr)) := by
  have htun : (forwardIE farID teid peerAddr).tunnel = (teid, peerAddr) :=
    readOHC_outerHeader teid peerAddr
  have hport : (forwardIE farID teid peerAddr).peerPort = tunnelPort teid peerAddr := by
    unfold UpdateFAR.peerPort
    rw [htun]
    rfl
  have hdeact : (forwardIE farID teid peerAddr).deactivates = false := rfl
  unfold PeerSession.updateFAR
  rw [hdeact, htun, hport]
  refine RuleTable.each_alter fun p hp hid => ?_
  rw [if_neg Bool.false_ne_true,
    ofRule_update _ _ _ (h (p.1, Forwarding.ofRule p.2) (List.mem_map_of_mem hp) hid)]
  rfl

theorem each_updateFAR_buffer (h : ∀ f ∈ t.each Forwarding.ofRule, f.1 = farID → f.2.action ≠ 2) :
    (PeerSession.updateFAR t (bufferIE farID)).each Forwarding.ofRule =
      (t.each Forwarding.ofRule).alter farID Forwarding.deactivated := by
  have hdeact : (bufferIE farID).deactivates = true := rfl
  unfold PeerSession.updateFAR
  rw [hdeact, if_pos rfl]
  refine each_alter fun p hp hid => ?_
  have hact := h (p.1, ofRule p.2) (mem_map_of_mem hp) hid
  unfold FarRule.deactivate
  rw [if_neg (by simpa using (show p.2.action ≠ 2 from hact))]
  rfl

/-- A request with one Update FAR changes the FARs alone. -/
theorem rules_updateFARRequest (s : PeerSession) (uf : UpdateFAR) :
    (s.modified (updateFARRequest uf)).rules =
      { s.rules with fars := (PeerSession.updateFAR s.fars uf).each Forwarding.ofRule } :=
  rfl

/-! ## The mirror -/

/-- Where ids are distinct the first FAR of an id is the only one. -/
theorem map_updateFirst (farID : UInt32) {change : FAR → FAR} {g : Forwarding → Forwarding}
    (hg : ∀ f, (change f).entry = (f.farID, g f.entry.2))
    (h : (RuleTable.ids (fars.map FAR.entry)).Nodup) :
    (updateFirst farID change fars).map FAR.entry =
      RuleTable.alter (fars.map FAR.entry) farID g := by
  induction fars with
  | nil => rfl
  | cons f fars ih =>
    obtain ⟨hf, hfars⟩ := nodup_cons.1 h
    unfold updateFirst at ih ⊢
    by_cases hid : f.farID = farID
    · have hrest : alter (fars.map FAR.entry) farID g = fars.map FAR.entry := by
        refine (map_congr_left fun p hp => if_neg fun he => hf ?_).trans (map_id _)
        rw [show f.entry.1 = p.1 from hid.trans he.symm]
        exact mem_map_of_mem hp
      simp only [replaceF, hid, beq_self_eq_true, if_true, map_cons, hg]
      change _ = (if f.farID = farID then _ else _) :: alter (fars.map FAR.entry) farID g
      rw [hrest, if_pos hid]
      exact congrArg (fun i => (i, g f.entry.2) :: fars.map FAR.entry) hid.symm
    · have hbeq : (f.farID == farID) = false := by simpa using hid
      simp only [replaceF, hbeq, Bool.false_eq_true, if_false, map_cons, ih hfars]
      exact congrArg (· :: _) (if_neg hid).symm

theorem entry_apply (u : UpdateFARSpec) (f : FAR) :
    (u.apply f).entry = (f.farID, Forwarding.retarget u f.entry.2) :=
  rfl

theorem foldl_updateFirst {us : List UpdateFARSpec}
    (h : (RuleTable.ids (fars.map FAR.entry)).Nodup) :
    (us.foldl (fun fars u => updateFirst u.farID u.apply fars) fars).map FAR.entry =
      us.foldl (fun t u => RuleTable.alter t u.farID (Forwarding.retarget u))
        (fars.map FAR.entry) := by
  induction us generalizing fars with
  | nil => rfl
  | cons u us ih =>
    grind [ids_alter, map_updateFirst, entry_apply]

/-- Rules that go from a list go from the table. -/
theorem map_filter_drop {ι α β : Type} [DecidableEq ι] {entry : α → ι × β} {id : α → ι}
    (h : ∀ a, (entry a).1 = id a) (l : List α) (ids : List ι) :
    (l.filter (id · ∉ ids)).map entry = ids.foldl RuleTable.drop (l.map entry) := by
  rw [foldl_drop, filter_map]
  congr 1
  refine filter_congr fun a _ => ?_
  simp only [Function.comp_apply, h]

/-- And the same batch changes the mirror. -/
theorem Session.rules_applyBatch {s : Session} (h : (s.rules.append b.created).fars.ids.Nodup) :
    (s.applyBatch b).rules = b.change s.rules := by
  have hfars : (s.fars ++ b.createFARs).map FAR.entry = s.rules.fars ++ b.created.fars :=
    map_append
  refine congr (congr (congr (congrArg Rules.mk ?_) ?_) ?_) ?_
  · refine (map_filter_drop (fun _ => rfl) _ _).trans ?_
    rw [map_append]
    rfl
  · refine (map_filter_drop (fun _ => rfl) _ _).trans (congrArg (b.removeFARs.foldl _) ?_)
    rw [foldl_updateFirst (by rw [hfars]; exact h), hfars]
  · refine (map_filter_drop (fun _ => rfl) _ _).trans ?_
    rw [map_append]
    rfl
  · refine (map_filter_drop (fun _ => rfl) _ _).trans ?_
    rw [map_append]
    rfl

/-! ## Rules that wait -/

theorem ModifyBatch.Creates.change_eq (h : b.Creates) (r : Rules) :
    b.change r = r.append b.created := by
  unfold ModifyBatch.change
  rw [h.updateFARs, h.removePDRs, h.removeFARs, h.removeQERs, h.removeURRs]
  rfl

theorem rules_pend (b : ModifyBatch) (p : PendingRules) :
    (b.pend p).rules = p.rules.append b.created := by
  unfold PendingRules.rules ModifyBatch.pend Rules.ofLists
  simp only [map_append]
  rfl

theorem fit_pend {p : PendingRules} (hp : p.Fit)
    (hb : FitAll b.createPDRs b.createFARs b.createQERs b.createURRs) : (b.pend p).Fit where
  pdrs := forall_mem_append.2 ⟨hp.pdrs, hb.pdrs⟩
  fars := forall_mem_append.2 ⟨hp.fars, hb.fars⟩
  qers := forall_mem_append.2 ⟨hp.qers, hb.qers⟩
  urrs := forall_mem_append.2 ⟨hp.urrs, hb.urrs⟩

/-- A batch keeps the ids distinct. -/
theorem ModifyBatch.Fits.distinct_change {r : Rules} (h : b.Fits r) : (b.change r).Distinct := by
  have hfars : ∀ (us : List UpdateFARSpec) (t : RuleTable UInt32 Forwarding),
      (us.foldl (fun t u => alter t u.farID (retarget u)) t).ids = t.ids := by
    intro us
    induction us with
    | nil => intro t; rfl
    | cons u us ih => intro t; rw [foldl_cons, ih, ids_alter]
  constructor
  · exact (ids_foldl_drop_sublist _).nodup h.distinct.pdrs
  · refine (ids_foldl_drop_sublist _).nodup ?_
    rw [hfars]
    exact h.distinct.fars
  · exact (ids_foldl_drop_sublist _).nodup h.distinct.qers
  · exact (ids_foldl_drop_sublist _).nodup h.distinct.urrs
  · exact fun hm => h.distinct.ambr ((ids_foldl_drop_sublist _).subset hm)

end MmtCore.Smf
