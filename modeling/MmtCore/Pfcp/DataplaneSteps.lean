import Mathlib.Data.Finset.Card
import MmtCore.Lib.OwnerIndex
import MmtCore.Pfcp.Dataplane

/-!
# What the dataplane does

A call that the C side takes changes the rules of one session and nothing else; a call for a session
that is not there fails.  A session that was buffered is committed whole when its rules fit.
-/

namespace MmtCore.Pfcp

open MmtCore.Lib MmtCore.Upf Function List Option RuleSlots Finset

/-! ## Rule slots -/

namespace RuleSlots

variable {ι α : Type} [DecidableEq ι] {cap : Nat} {slots : RuleSlots ι α} {id : ι} {rule : α}

/-- The ids in use. -/
def ids (slots : RuleSlots ι α) : List ι := slots.map (·.id)

/-- A rule of this id finds a slot. -/
def HasRoom (cap : Nat) (slots : RuleSlots ι α) (id : ι) : Prop :=
  id ∈ slots.ids ∨ slots.length < cap ∨ ∃ s ∈ slots, s.active = false

theorem findIdx_of_mem (h : id ∈ slots.ids) :
    ∃ i, (slots.findIdx? fun s => s.id == id) = some i ∧ slots.ids[i]? = some id := by
  obtain ⟨s, hs, hid⟩ := mem_map.1 h
  cases hf : slots.findIdx? fun s => s.id == id with
  | none =>
    rw [findIdx?_eq_none_iff] at hf
    exact absurd (hf s hs) (by simp [hid])
  | some i =>
    obtain ⟨hi, hp, -⟩ := findIdx?_eq_some_iff_getElem.1 hf
    refine ⟨i, rfl, ?_⟩
    rw [ids, getElem?_map, getElem?_eq_getElem hi, map_some, beq_iff_eq.1 hp]

theorem findIdx_of_not_mem (h : id ∉ slots.ids) :
    (slots.findIdx? fun s => s.id == id) = none := by
  rw [findIdx?_eq_none_iff]
  intro s hs
  rw [beq_eq_false_iff_ne]
  rintro rfl
  exact h (mem_map_of_mem hs)

theorem add_of_hasRoom (rule : α) (h : HasRoom cap slots id) : ∃ slots', slots.add cap id rule = some slots' := by
  unfold add
  split
  case h_1 => exact ⟨_, rfl⟩
  case h_2 hf =>
    split
    case isTrue => exact ⟨_, rfl⟩
    case isFalse hlen =>
      obtain hmem | hlt | ⟨s, hs, hact⟩ := h
      · grind [findIdx_of_mem]
      · exact absurd hlt hlen
      · cases hfree : slots.findIdx? fun s => !s.active with
        | none =>
          rw [findIdx?_eq_none_iff] at hfree
          exact absurd (hfree s hs) (by simp [hact])
        | some i => exact ⟨_, rfl⟩

/-- A rule that has its slot, or finds the array with room left, takes no other id's slot. -/
theorem add_ids (rule : α) (h : id ∈ slots.ids ∨ slots.length < cap) :
    ∃ slots', slots.add cap id rule = some slots' ∧
      slots'.ids = if id ∈ slots.ids then slots.ids else slots.ids ++ [id] := by
  unfold add
  by_cases hmem : id ∈ slots.ids
  · obtain ⟨i, hi, hget⟩ := findIdx_of_mem hmem
    rw [hi, if_pos hmem]
    refine ⟨_, rfl, ?_⟩
    rw [ids, map_set]
    refine ext_getElem? fun j => ?_
    rw [getElem?_set]
    split
    case isTrue hij =>
      subst hij
      have hlt : i < slots.ids.length := (List.getElem?_eq_some_iff.1 hget).1
      exact (if_pos hlt).trans hget.symm
    case isFalse => rfl
  · grind [findIdx_of_not_mem, ids]

/-- The rules of a list are all installed when their ids and those in use fit the array. -/
theorem addAll_of_fits (rules : List (ι × α)) (hnodup : slots.ids.Nodup)
    (hfits : (slots.ids ++ rules.map Prod.fst).toFinset.card ≤ cap) :
    ∃ slots', rules.foldlM (fun slots r => add cap slots r.1 r.2) slots = some slots' := by
  induction rules generalizing slots with
  | nil => exact ⟨slots, rfl⟩
  | cons r rules ih =>
    have hroom : r.1 ∈ slots.ids ∨ slots.length < cap := by
      by_cases hmem : r.1 ∈ slots.ids
      · exact Or.inl hmem
      · right
        have hsub : (slots.ids ++ [r.1]).toFinset ⊆
            (slots.ids ++ (r :: rules).map Prod.fst).toFinset := by
          intro x hx
          simp only [List.toFinset_append, Finset.mem_union, List.mem_toFinset, List.map_cons,
            List.mem_cons, List.not_mem_nil, or_false] at hx ⊢
          tauto
        have hcard : (slots.ids ++ [r.1]).toFinset.card = slots.length + 1 := by
          have hnd : (slots.ids ++ [r.1]).Nodup := by
            rw [List.nodup_append']
            exact ⟨hnodup, nodup_singleton _, by simpa using hmem⟩
          rw [toFinset_card_of_nodup hnd, length_append, ids, length_map]
          rfl
        have hle := card_le_card hsub
        omega
    obtain ⟨slots', hadd, hids⟩ := add_ids r.2 hroom
    have hnodup' : slots'.ids.Nodup := by
      rw [hids]
      split
      case isTrue => exact hnodup
      case isFalse hmem =>
        rw [nodup_append']
        exact ⟨hnodup, nodup_singleton _, by simpa using hmem⟩
    have hfits' : (slots'.ids ++ rules.map Prod.fst).toFinset.card ≤ cap := by
      refine le_trans (card_le_card ?_) hfits
      intro x hx
      rw [hids] at hx
      split at hx
      case isTrue =>
        simp only [List.toFinset_append, Finset.mem_union, List.mem_toFinset, List.map_cons,
          List.mem_cons] at hx ⊢
        tauto
      case isFalse =>
        simp only [List.toFinset_append, Finset.mem_union, List.mem_toFinset, List.map_cons,
          List.mem_cons, List.not_mem_nil, or_false] at hx ⊢
        tauto
    obtain ⟨slots'', hall⟩ := ih hnodup' hfits'
    exact ⟨slots'', by rw [List.foldlM_cons, hadd]; exact hall⟩

theorem addAll_nil (rules : List (ι × α)) (hfits : (rules.map Prod.fst).toFinset.card ≤ cap) :
    ∃ slots', rules.foldlM (fun slots r => add cap slots r.1 r.2) [] = some slots' :=
  addAll_of_fits rules nodup_nil hfits

end RuleSlots

namespace Dataplane

variable {dp dp' : Dataplane} {env : DpEnv} {k : ImsiPduKey}

/-! ## Calls to the C side -/

/-- The reverse maps and the buffer are as before. -/
structure SameTables (dp dp' : Dataplane) : Prop where
  teids : dp'.teids = dp.teids
  ueips : dp'.ueips = dp.ueips
  pending : dp'.pending = dp.pending

theorem SameTables.refl (dp : Dataplane) : SameTables dp dp := ⟨rfl, rfl, rfl⟩

variable {f : DpSession → Option DpSession} {direct : Option Dataplane} {p : PendingSession}
  {sess : DpSession}

theorem onSession_sameTables (h : dp.onSession k f = some dp') : SameTables dp dp' := by
  unfold onSession at h
  split at h
  case h_1 => cases h
  case h_2 =>
    obtain ⟨sess', -, rfl⟩ := map_eq_some_iff.1 h
    exact ⟨rfl, rfl, rfl⟩

theorem onSession_absent (h : dp.sessions k.dpKey = none) : dp.onSession k f = none := by
  rw [onSession, h]

theorem onSession_getD_sameTables (f : DpSession → Option DpSession) :
    SameTables dp ((dp.onSession k f).getD dp) := by
  cases h : dp.onSession k f with
  | none => exact SameTables.refl dp
  | some dp' => exact onSession_sameTables h

theorem buffered_none {f : PendingSession → PendingSession} (h : dp.pending k = none) :
    dp.buffered k f direct = direct := by
  rw [buffered, h]

theorem buffered_some {f : PendingSession → PendingSession} (h : dp.pending k = some p) :
    dp.buffered k f direct = some { dp with pending := update dp.pending k (some (f p)) } := by
  rw [buffered, h]

/-! ## Commit -/

/-- The rules of a list are installed in the array they are for. -/
theorem addAll_onSession {ι α : Type} [DecidableEq ι] {cap : Nat} (get : DpSession → RuleSlots ι α)
    (set : DpSession → RuleSlots ι α → DpSession) (hget : ∀ s x, get (set s x) = x)
    (hself : ∀ s, set s (get s) = s) (hset : ∀ s x y, set (set s x) y = set s y)
    (rules : List (ι × α)) {slots : RuleSlots ι α} (hs : dp.sessions k.dpKey = some sess)
    (hall : rules.foldlM (fun slots r => RuleSlots.add cap slots r.1 r.2) (get sess) = some slots) :
    rules.foldlM
        (fun dp r => dp.onSession k fun sess => ((get sess).add cap r.1 r.2).map (set sess)) dp =
      some { dp with sessions := update dp.sessions k.dpKey (some (set sess slots)) } := by
  induction rules generalizing dp sess with
  | nil =>
    cases hall
    rw [hself, ← hs, update_eq_self]
    rfl
  | cons r rules ih =>
    obtain ⟨slots₁, hadd, hrest⟩ := bind_eq_some_iff.1 hall
    simp_all [onSession]

/-- The rules that a session was buffered with fit the arrays of the C side. -/
structure Fits (p : PendingSession) : Prop where
  fars : (p.fars.map Prod.fst).toFinset.card ≤ 16
  urrs : (p.urrs.map Prod.fst).toFinset.card ≤ 8
  qers : (p.qers.map Prod.fst).toFinset.card ≤ 8
  pdrs : (p.pdrs.map Prod.fst).toFinset.card ≤ 16

theorem installAll_of_fits (hfits : Fits p) (hs : dp.sessions k.dpKey = some sess)
    (hfars : sess.fars = []) (hurrs : sess.urrs = []) (hqers : sess.qers = [])
    (hpdrs : sess.pdrs = []) :
    ∃ sess', dp.installAll k p =
      some { dp with sessions := update dp.sessions k.dpKey (some sess') } := by
  obtain ⟨fars, hf⟩ := addAll_nil p.fars hfits.fars
  obtain ⟨urrs, hu⟩ := addAll_nil p.urrs hfits.urrs
  obtain ⟨qers, hq⟩ := addAll_nil p.qers hfits.qers
  obtain ⟨pdrs, hp⟩ := addAll_nil p.pdrs hfits.pdrs
  rw [← hfars] at hf
  have h₁ := addAll_onSession (·.fars) (fun s x => { s with fars := x }) (fun _ _ => rfl)
    (fun _ => rfl) (fun _ _ _ => rfl) p.fars hs hf
  let dp₁ : Dataplane :=
    { dp with sessions := update dp.sessions k.dpKey (some { sess with fars }) }
  have hs₁ : dp₁.sessions k.dpKey = some { sess with fars } := update_self ..
  rw [← hurrs] at hu
  have h₂ := addAll_onSession (·.urrs) (fun s x => { s with urrs := x }) (fun _ _ => rfl)
    (fun _ => rfl) (fun _ _ _ => rfl) p.urrs hs₁ hu
  let dp₂ : Dataplane :=
    { dp₁ with sessions := update dp₁.sessions k.dpKey (some { sess with fars, urrs }) }
  have hs₂ : dp₂.sessions k.dpKey = some { sess with fars, urrs } := update_self ..
  rw [← hqers] at hq
  have h₃ := addAll_onSession (·.qers) (fun s x => { s with qers := x }) (fun _ _ => rfl)
    (fun _ => rfl) (fun _ _ _ => rfl) p.qers hs₂ hq
  let dp₃ : Dataplane :=
    { dp₂ with
      sessions := update dp₂.sessions k.dpKey (some { sess with fars, urrs, qers }) }
  have hs₃ : dp₃.sessions k.dpKey = some { sess with fars, urrs, qers } := update_self ..
  rw [← hpdrs] at hp
  have h₄ := addAll_onSession (·.pdrs) (fun s x => { s with pdrs := x }) (fun _ _ => rfl)
    (fun _ => rfl) (fun _ _ _ => rfl) p.pdrs hs₃ hp
  refine ⟨{ sess with fars, urrs, qers, pdrs }, ?_⟩
  have hchain : dp.installAll k p = some { dp₃ with
      sessions := update dp₃.sessions k.dpKey
        (some { sess with fars, urrs, qers, pdrs }) } := by
    unfold installAll
    refine bind_eq_some_iff.2 ⟨dp₁, h₁, bind_eq_some_iff.2 ⟨dp₂, h₂, ?_⟩⟩
    exact bind_eq_some_iff.2 ⟨dp₃, h₃, h₄⟩
  rw [hchain]
  simp only [dp₃, dp₂, dp₁, update_idem]

/-- Registrations, one after the other. -/
def registerKeys (idx : UInt32 → Option SessionKey) (keys : List UInt32) (k : SessionKey) :
    UInt32 → Option SessionKey :=
  keys.foldl (fun idx key => register idx (some key) k) idx

theorem register_isSome {idx : UInt32 → Option SessionKey} {o : Option UInt32} {k : SessionKey}
    {t : UInt32} (h : (idx t).isSome = true) : (register idx o k t).isSome = true := by
  cases o with
  | none => exact h
  | some key =>
    by_cases hkt : t = key
    · subst hkt
      simp [register]
    · simpa [register, update_of_ne hkt] using h

theorem registerTeids_eq (teids : List UInt32)
    (hroom : ∀ t ∈ teids, (dp.teids t).isSome = true ∨ env.teidRoom t = true) :
    teids.foldl (fun dp teid => (dp.upfDpRegisterTeid env k teid).getD dp) dp =
      { dp with teids := registerKeys dp.teids teids k.dpKey } := by
  induction teids generalizing dp with
  | nil => rfl
  | cons t teids ih =>
    have hone : (dp.upfDpRegisterTeid env k t).getD dp =
        { dp with teids := register dp.teids (some t) k.dpKey } := by
      unfold upfDpRegisterTeid
      rw [if_pos (by simpa using hroom t mem_cons_self)]
      rfl
    rw [foldl_cons, hone, ih]
    · rfl
    · grind [register_isSome]

theorem registerUeips_eq (ueips : List UInt32)
    (hroom : ∀ t ∈ ueips, (dp.ueips t).isSome = true ∨ env.ueipRoom t = true) :
    ueips.foldl (fun dp ip => (dp.upfDpRegisterUeip env k ip).getD dp) dp =
      { dp with ueips := registerKeys dp.ueips ueips k.dpKey } := by
  induction ueips generalizing dp with
  | nil => rfl
  | cons t ueips ih =>
    have hone : (dp.upfDpRegisterUeip env k t).getD dp =
        { dp with ueips := register dp.ueips (some t) k.dpKey } := by
      unfold upfDpRegisterUeip
      rw [if_pos (by simpa using hroom t mem_cons_self)]
      rfl
    rw [foldl_cons, hone, ih]
    · rfl
    · grind [register_isSome]

/-- The C side takes a session whole: its key is free, it has room for the session and the keys,
and the rules fit. -/
structure Committable (env : DpEnv) (k : ImsiPduKey) (dp : Dataplane) (p : PendingSession) :
    Prop where
  free : dp.sessions k.dpKey = none
  room : env.sessionRoom = true
  fits : Fits p
  teids : ∀ t ∈ p.teids, (dp.teids t).isSome = true ∨ env.teidRoom t = true
  ueips : ∀ t ∈ p.ueIPs, (dp.ueips t).isSome = true ∨ env.ueipRoom t = true

/-- The buffered session is installed, and its keys are registered. -/
theorem commitSession_of_committable (hp : dp.pending k = some p) (hc : Committable env k dp p) :
    ∃ sess, dp.commitSession env k =
      { pending := update dp.pending k none
        sessions := update dp.sessions k.dpKey (some sess)
        teids := registerKeys dp.teids p.teids k.dpKey
        ueips := registerKeys dp.ueips p.ueIPs k.dpKey } := by
  unfold commitSession
  rw [hp]
  unfold upfDpSessionCreate
  dsimp only
  rw [hc.free]
  rw [if_pos hc.room]
  dsimp only
  let sess : DpSession := ⟨p.dnn, p.sst, p.sd, p.ueAddr, [], [], [], []⟩
  let created : Dataplane :=
    { dp with
      pending := update dp.pending k none
      sessions := update dp.sessions k.dpKey (some sess) }
  have hs : created.sessions k.dpKey = some sess := update_self ..
  obtain ⟨sess', hinst⟩ := installAll_of_fits hc.fits hs rfl rfl rfl rfl
  refine ⟨sess', ?_⟩
  rw [show installAll { dp with
      pending := update dp.pending k none
      sessions := update dp.sessions k.dpKey (some sess) } k p = _ from hinst]
  let installed : Dataplane :=
    { created with sessions := update created.sessions k.dpKey (some sess') }
  have hteids := registerTeids_eq (k := k) p.teids
    (show ∀ t ∈ p.teids, (installed.teids t).isSome = true ∨ _ from hc.teids)
  change (installed.registerAll env k p) = _
  unfold registerAll
  rw [hteids]
  let named : Dataplane := { installed with teids := registerKeys dp.teids p.teids k.dpKey }
  have hueips := registerUeips_eq (k := k) p.ueIPs
    (show ∀ t ∈ p.ueIPs, (named.ueips t).isSome = true ∨ _ from hc.ueips)
  grind [update_idem]

end Dataplane

end MmtCore.Pfcp
