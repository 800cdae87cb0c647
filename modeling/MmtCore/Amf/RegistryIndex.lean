import MmtCore.Amf.Moves

/-!
# The indexes of the UE registry

`Indexed` says that the three indexes of the registry and the key fields of the contexts agree.
The handlers assign key fields in place and maintain the indexes elsewhere; each of them is
followed here through the states in between, where one context is entered less than it should be
(`IndexedBut`).
-/

namespace MmtCore.Amf

open MmtCore.Lib Function Option AmfState

variable {V : Env} {X : Ext} {r q : Ref} {s t : AmfState}

/-! ## Agreement -/

/-- The indexes and the contexts agree, except that `r` need not be found by its SUPI. -/
structure IndexedBut (r : Option Ref) (s : AmfState) : Prop where
  id_entry : ∀ {i q}, s.byAmfID i = some q → q < s.nref ∧ (s.ue q).amfUeNgapId = i
  ran_entry : ∀ {g n i}, s.byRanKey (g, n) = some i →
    g ≠ [] ∧ ∃ q, s.byAmfID i = some q ∧ (s.ue q).gnbKey = g ∧ (s.ue q).ranUeNgapId = n
  imsi_entry : ∀ {m i}, s.byIMSI m = some i →
    m ≠ [] ∧ ∃ q, s.byAmfID i = some q ∧ (s.ue q).imsi = m
  ran_found : ∀ {q}, s.Live q → (s.ue q).gnbKey ≠ [] →
    s.byRanKey ((s.ue q).gnbKey, (s.ue q).ranUeNgapId) = some (s.ue q).amfUeNgapId
  imsi_found : ∀ {q}, some q ≠ r → s.Live q → (s.ue q).imsi ≠ [] →
    s.byIMSI (s.ue q).imsi = some (s.ue q).amfUeNgapId

/-- Every entry leads to a live context that carries the key, and every live context is found
under the keys it carries. -/
abbrev Indexed (s : AmfState) : Prop := IndexedBut none s

/-- The key fields of a context. -/
def Ue.keys (u : Ue) : Nat × GnbKey × Nat × Imsi := (u.amfUeNgapId, u.gnbKey, u.ranUeNgapId, u.imsi)

variable {o : Option Ref} {L : List Kind}

theorem IndexedBut.congr (h : IndexedBut o s) (hreg : t.registry = s.registry)
    (hkeys : ∀ q, (t.ue q).keys = (s.ue q).keys) :
    IndexedBut o t ∧ ∀ q, t.Live q ↔ s.Live q := by
  simp only [registry, Prod.mk.injEq] at hreg
  simp only [Ue.keys, Prod.mk.injEq] at hkeys
  obtain ⟨hn, hid, hran, himsi⟩ := hreg
  have hlive : ∀ q, t.Live q ↔ s.Live q := by
    intro q
    simp only [AmfState.Live, hn, hid, (hkeys q).1]
  refine ⟨⟨?_, ?_, ?_, ?_, ?_⟩, hlive⟩
  · intro i q hq
    rw [hid] at hq
    rw [hn, (hkeys q).1]
    exact h.id_entry hq
  · intro g n i hi
    rw [hran] at hi
    obtain ⟨hg, q, hq, hgq, hnq⟩ := h.ran_entry hi
    exact ⟨hg, q, by rw [hid]; exact hq, by rw [(hkeys q).2.1]; exact hgq,
      by rw [(hkeys q).2.2.1]; exact hnq⟩
  · intro m i hi
    rw [himsi] at hi
    obtain ⟨hm, q, hq, hmq⟩ := h.imsi_entry hi
    exact ⟨hm, q, by rw [hid]; exact hq, by rw [(hkeys q).2.2.2]; exact hmq⟩
  · intro q hl hg
    rw [(hkeys q).2.1] at hg
    rw [hran, (hkeys q).1, (hkeys q).2.1, (hkeys q).2.2.1]
    exact h.ran_found ((hlive q).1 hl) hg
  · intro q hne hl hm
    rw [(hkeys q).2.2.2] at hm
    rw [himsi, (hkeys q).1, (hkeys q).2.2.2]
    exact h.imsi_found hne ((hlive q).1 hl) hm

/-- The kinds that touch indexes or keys. -/
abbrev registryKinds : List Kind := [.insert, .unindex, .create, .imsi, .rebind]

section

variable (h : Acts r L s t) (hL : L.all (· ∉ registryKinds) = true)
include h hL

theorem Acts.keys_eq (q : Ref) : (t.ue q).keys = (s.ue q).keys := by
  refine h.frame Ue.keys (fun s' c u hk => ?_) q
  have hc : c.kind ∉ registryKinds := by simpa using List.all_eq_true.1 hL _ hk
  cases c <;>
    first | rfl | (simp [Cmd.effect, Ue.keys]; done) | (simp [Cmd.kind] at hc)

theorem Acts.registry_eq' : t.registry = s.registry := by
  refine h.registry_eq ?_
  simp_all

/-- Everything else keeps the agreement and what is live. -/
theorem Acts.indexedBut (hs : IndexedBut o s) : IndexedBut o t ∧ ∀ q, t.Live q ↔ s.Live q :=
  hs.congr (h.registry_eq' hL) (h.keys_eq hL)

end

/-! ## Removing -/

/-- Live contexts have different ids. -/
theorem AmfState.Live.id_ne (hr : s.Live r) (hq : s.Live q) (hne : q ≠ r) :
    (s.ue q).amfUeNgapId ≠ (s.ue r).amfUeNgapId := by
  intro h
  have := hq.2.symm.trans (h ▸ hr.2)
  exact hne (some.inj this)

theorem unindex_live_iff (hr : s.Live r) : (s.unindex r).Live q ↔ s.Live q ∧ q ≠ r := by
  simp only [AmfState.Live, unindex]
  by_cases hid : (s.ue q).amfUeNgapId = (s.ue r).amfUeNgapId
  · rw [hid, update_self]
    have : s.byAmfID (s.ue r).amfUeNgapId = some q → q = r := fun h =>
      some.inj (h.symm.trans hr.2)
    simp_all
  · grind

/-- Taking a live context out keeps the agreement for the others. -/
theorem IndexedBut.unindex (h : IndexedBut o s) (hr : s.Live r) (ho : some r ≠ o) :
    IndexedBut o (s.unindex r) := by
  have hgone : ∀ {i q}, s.byAmfID i = some q → q ≠ r →
      (s.unindex r).byAmfID i = some q := by
    intro i q hi hne
    have hid : i ≠ (s.ue r).amfUeNgapId := by
      rintro rfl
      exact hne (some.inj (hi.symm.trans hr.2))
    simp only [AmfState.unindex, update_of_ne hid]
    exact hi
  refine ⟨?_, ?_, ?_, ?_, ?_⟩
  · intro i q hi
    simp only [AmfState.unindex, update_apply] at hi
    split at hi
    · cases hi
    · exact h.id_entry hi
  · intro g n i hi
    have hi' : s.byRanKey (g, n) = some i ∧
        ((s.ue r).gnbKey ≠ [] → (g, n) ≠ ((s.ue r).gnbKey, (s.ue r).ranUeNgapId)) := by
      simp only [AmfState.unindex] at hi
      split at hi
      · rename_i hg
        exact ⟨hi, fun h => absurd hg h⟩
      · simp_all [update_apply]
    obtain ⟨hg, q, hq, hgq, hnq⟩ := h.ran_entry hi'.1
    refine ⟨hg, q, hgone hq ?_, hgq, hnq⟩
    grind
  · intro m i hi
    have hi' : s.byIMSI m = some i ∧ ((s.ue r).imsi ≠ [] → m ≠ (s.ue r).imsi) := by
      simp only [AmfState.unindex] at hi
      grind
    obtain ⟨hm, q, hq, hmq⟩ := h.imsi_entry hi'.1
    refine ⟨hm, q, hgone hq ?_, hmq⟩
    rintro rfl
    exact hi'.2 (by rw [hmq]; exact hm) hmq.symm
  · intro q hl hg
    obtain ⟨hl, hne⟩ := (unindex_live_iff hr).1 hl
    have hfound := h.ran_found hl hg
    simp only [AmfState.unindex]
    split
    · exact hfound
    · rename_i hgr
      rw [update_of_ne]
      · exact hfound
      · intro hkey
        rw [hkey, h.ran_found hr hgr] at hfound
        exact hr.id_ne hl hne (some.inj hfound).symm
  · intro q hqo hl hm
    obtain ⟨hl, hne⟩ := (unindex_live_iff hr).1 hl
    have hfound := h.imsi_found hqo hl hm
    simp only [AmfState.unindex]
    split
    · exact hfound
    · rename_i hmr
      rw [update_of_ne]
      · exact hfound
      · intro hkey
        rw [hkey, h.imsi_found ho hr hmr] at hfound
        exact hr.id_ne hl hne (some.inj hfound).symm

theorem IndexedBut.remove (h : IndexedBut o s) (hr : s.Live r) (ho : some r ≠ o) :
    IndexedBut o (remove r s) ∧ ∀ q, (Amf.remove r s).Live q ↔ s.Live q ∧ q ≠ r := by
  have hun := h.unindex hr ho
  obtain ⟨hidx, hlive⟩ := removeHooks_acts.indexedBut rfl hun
  exact ⟨hidx, fun q => (hlive q).trans (unindex_live_iff hr)⟩

/-! ## Inserting -/

/-- A live context is entered under its SUPI, which no other live context carries. -/
theorem IndexedBut.insert (h : IndexedBut (some r) s) (hr : s.Live r)
    (hm : ∀ q, s.Live q → q ≠ r → (s.ue r).imsi ≠ [] → (s.ue q).imsi ≠ (s.ue r).imsi) :
    Indexed (s.insert r) ∧ ∀ q, (s.insert r).Live q ↔ s.Live q := by
  have hid : (s.insert r).byAmfID = s.byAmfID := by
    simp only [AmfState.insert]
    rw [← hr.2]
    exact update_eq_self _ _
  have hran : (s.insert r).byRanKey = s.byRanKey := by
    simp only [AmfState.insert]
    split
    · rfl
    · rename_i hg
      rw [← h.ran_found hr hg]
      exact update_eq_self _ _
  have hlive : ∀ q, (s.insert r).Live q ↔ s.Live q := fun q => by
    simp only [AmfState.Live, hid]
    rfl
  refine ⟨⟨?_, ?_, ?_, ?_, ?_⟩, hlive⟩
  · intro i q hq
    rw [hid] at hq
    exact h.id_entry hq
  · intro g n i hi
    rw [hran] at hi
    rw [hid]
    exact h.ran_entry hi
  · intro m i hi
    rw [hid]
    simp only [AmfState.insert] at hi
    split at hi
    · exact h.imsi_entry hi
    · rename_i hmr
      simp only [update_apply] at hi
      split at hi
      · rename_i hm'
        cases hi
        exact ⟨hm' ▸ hmr, r, hr.2, hm'.symm⟩
      · exact h.imsi_entry hi
  · intro q hl hg
    rw [hran]
    exact h.ran_found ((hlive q).1 hl) hg
  · intro q _ hl hmq
    have hlq := (hlive q).1 hl
    change (s.ue q).imsi ≠ [] at hmq
    simp only [AmfState.insert]
    by_cases hqr : q = r
    · subst hqr
      rw [if_neg hmq, update_self]
    · have hfound := h.imsi_found (fun h' => hqr (some.inj h')) hlq hmq
      grind

/-! ## Storing a SUPI and taking the place of its holder -/

/-- The context is live and the registry agrees. -/
abbrev Entered (r : Ref) (s : AmfState) : Prop := Indexed s ∧ s.Live r

theorem Acts.entered {p : Ref} (h : Acts p L s t) (hL : L.all (· ∉ registryKinds) = true)
    (hs : Entered r s) : Entered r t := by
  obtain ⟨hidx, hlive⟩ := h.indexedBut hL hs.1
  exact ⟨hidx, (hlive r).2 hs.2⟩

/-- A SUPI stored in place leaves the context to be entered under it. -/
theorem setImsi_indexedBut (supi : Imsi) (h : Indexed s)
    (hsupi : (s.ue r).imsi = [] ∨ supi = (s.ue r).imsi) :
    IndexedBut (some r) (s.exec (.setImsi r supi)) ∧
      ∀ q, (s.exec (.setImsi r supi)).Live q ↔ s.Live q := by
  have hother : ∀ q, q ≠ r → (s.exec (.setImsi r supi)).ue q = s.ue q := fun q hq =>
    exec_ue_of_ne rfl hq
  have hself : (s.exec (.setImsi r supi)).ue r = { s.ue r with imsi := supi } :=
    exec_ue_self rfl
  have hid : ∀ q, ((s.exec (.setImsi r supi)).ue q).amfUeNgapId = (s.ue q).amfUeNgapId ∧
      ((s.exec (.setImsi r supi)).ue q).gnbKey = (s.ue q).gnbKey ∧
      ((s.exec (.setImsi r supi)).ue q).ranUeNgapId = (s.ue q).ranUeNgapId := by
    intro q
    by_cases hq : q = r
    · subst hq
      rw [hself]
      exact ⟨rfl, rfl, rfl⟩
    · rw [hother q hq]
      exact ⟨rfl, rfl, rfl⟩
  have hlive : ∀ q, (s.exec (.setImsi r supi)).Live q ↔ s.Live q := by
    intro q
    unfold AmfState.Live
    rw [(hid q).1]
    rfl
  refine ⟨⟨?_, ?_, ?_, ?_, ?_⟩, hlive⟩
  · intro i q hq
    rw [(hid q).1]
    exact h.id_entry hq
  · intro g n i hi
    obtain ⟨hg, q, hq, hgq, hnq⟩ := h.ran_entry hi
    exact ⟨hg, q, hq, by rw [(hid q).2.1, hgq], by rw [(hid q).2.2, hnq]⟩
  · intro m i hi
    obtain ⟨hm, q, hq, hmq⟩ := h.imsi_entry hi
    refine ⟨hm, q, hq, ?_⟩
    grind
  · intro q hl hg
    rw [(hid q).2.1] at hg
    rw [(hid q).1, (hid q).2.1, (hid q).2.2]
    exact h.ran_found ((hlive q).1 hl) hg
  · intro q hqr hl hm
    have hne : q ≠ r := fun h' => hqr (congrArg some h')
    rw [hother q hne] at hm ⊢
    exact h.imsi_found (some_ne_none q) ((hlive q).1 hl) hm

/-- The lookup by SUPI finds live contexts. -/
theorem IndexedBut.live_of_lookup (h : IndexedBut o s) {imsi : Imsi}
    (hl : s.lookupByIMSI imsi = some q) : s.Live q := by
  obtain ⟨i, -, hi⟩ := bind_eq_some_iff.1 hl
  obtain ⟨hlt, hid⟩ := h.id_entry hi
  exact ⟨hlt, hid ▸ hi⟩

/-- A live context that is found by its SUPI is what the lookup answers. -/
theorem IndexedBut.lookup_of_live (h : IndexedBut (some r) s) (hq : s.Live q) (hne : q ≠ r)
    (hm : (s.ue q).imsi ≠ []) : s.lookupByIMSI (s.ue q).imsi = some q := by
  have hne' : some q ≠ some r := fun h' => hne (some.inj h')
  simp only [lookupByIMSI, h.imsi_found hne' hq hm, bind_some, hq.2]

/-- The holder of the SUPI makes way for the context that stores it. -/
theorem takePlace_entered (h : IndexedBut (some r) s) (hr : s.Live r) :
    Entered r (takePlace (existingContext r (s.ue r).imsi s) r s) := by
  unfold existingContext takePlace
  by_cases hown : (s.lookupByIMSI (s.ue r).imsi).getD r = r
  · rw [if_pos hown]
    obtain ⟨hidx, hlive⟩ := h.insert hr (by
      intro q hq hne hm heq
      have hl := h.lookup_of_live hq hne (heq ▸ hm)
      rw [heq] at hl
      rw [hl] at hown
      exact hne hown)
    exact ⟨hidx, (hlive r).2 hr⟩
  · rw [if_neg hown]
    obtain ⟨p, hp⟩ : ∃ p, s.lookupByIMSI (s.ue r).imsi = some p := by
      cases hl : s.lookupByIMSI (s.ue r).imsi with
      | none => rw [hl] at hown; exact absurd rfl hown
      | some p => exact ⟨p, rfl⟩
    rw [hp] at hown ⊢
    change p ≠ r at hown
    have hplive := h.live_of_lookup hp
    obtain ⟨hrem, hlive⟩ := h.remove hplive (fun h' => hown (some.inj h'))
    have hue : ∀ q, ((remove p s).ue q).imsi = (s.ue q).imsi := fun q =>
      remove_acts.imsi_eq rfl q
    have hrlive : (remove p s).Live r := (hlive r).2 ⟨hr, hown.symm⟩
    obtain ⟨hidx, hlive'⟩ := hrem.insert hrlive (by
      intro q hq hne hm heq
      obtain ⟨hq, hqp⟩ := (hlive q).1 hq
      rw [hue, hue] at heq
      rw [hue] at hm
      have hl := h.lookup_of_live hq hne (heq ▸ hm)
      rw [heq, hp] at hl
      exact hqp (some.inj hl).symm)
    exact ⟨hidx, (hlive' r).2 hrlive⟩

end MmtCore.Amf
