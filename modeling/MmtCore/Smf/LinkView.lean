import MmtCore.Smf.RuleChanges

/-!
# A session at a bridge and its UPF

Of a bridge and its UPF a session sees its `View`: its rules that wait, its SEIDs and the sessions
of the UPF with its key.  Every operation of the bridge on one session leaves the views of the
others as they are, and takes the view of its own from one standing to another: `Vacant`, `Queued`,
`Established`.
-/

namespace MmtCore.Smf

open MmtCore.Lib MmtCore.Upf MmtCore.Pfcp Function List Option

structure View where
  pending : Option PendingRules
  session : Option SessionState
  /-- What the UPF holds for the session, by UP-SEID. -/
  held : UInt64 → Option PeerSession

def Link.view (l : Link) (k : ImsiPduKey) : View where
  pending := l.bridge.pending k
  session := l.bridge.sessions k
  held := fun i => (l.peer.sessions i).filter (·.key = k)

/-- The UPF executes the request. -/
def Fate.executed : Fate → Bool
  | .lost | .refused => false
  | .unanswered | .answered => true

/-! ## Standings -/

namespace View

variable (v : View) (r : Rules)

/-- The UPF has nothing for the session, and the bridge knows that. -/
structure Vacant : Prop where
  session : v.session = none
  held : ∀ i, v.held i = none

/-- The rules wait for the commit. -/
structure Queued : Prop where
  vacant : v.Vacant
  waiting : ∃ p, v.pending = some p ∧ p.hasCreate = true ∧ p.Fit ∧ p.rules = r
  distinct : r.Distinct

/-- The UPF has the rules, in one session whose SEID the bridge knows. -/
structure Established : Prop where
  pending : v.pending = none
  session : ∃ st ps, v.session = some st ∧ ps.rules = r ∧
    ∀ i, v.held i = if i = st.upSEID then some ps else none
  distinct : r.Distinct

/-- The rules are sent and the session is not known to be there. -/
structure Lost : Prop where
  session : v.session = none
  pending : ∀ p, v.pending = some p → p.hasCreate = false

/-- The session the bridge knows is there. -/
def Sound : Prop := ∀ st, v.session = some st → ∃ ps, v.held st.upSEID = some ps

variable {v r}

theorem sound_of_none (h : v.session = none) : v.Sound := by
  intro st hst
  rw [h] at hst
  cases hst

theorem Vacant.sound (h : v.Vacant) : v.Sound := sound_of_none h.session

theorem Established.sound (h : v.Established r) : v.Sound := by
  obtain ⟨st, ps, hst, -, hheld⟩ := h.session
  intro st' hst'
  simp_all

end View

/-! ## Operations of the bridge -/

namespace Link

variable {l : Link} {k k' : ImsiPduKey} {fate : Fate}

theorem fate_peer (fate : Fate) (p p' : Peer) :
    fate.peer p p' = if fate.executed then p' else p := by
  cases fate <;> rfl

theorem view_stash (f : PendingRules → PendingRules) :
    (l.stash k f).view k =
      { l.view k with pending := some (f ((l.view k).pending.getD .empty)) } := by
  unfold stash view
  simp

theorem view_stash_ne (f : PendingRules → PendingRules) (hk : k' ≠ k) :
    (l.stash k f).view k' = l.view k' := by
  unfold stash view
  simp [hk]

theorem view_unstash : (l.unstash k).view k = { l.view k with pending := none } := by
  unfold unstash view
  simp

theorem view_unstash_ne (hk : k' ≠ k) : (l.unstash k).view k' = l.view k' := by
  unfold unstash view
  simp [hk]

variable {i : UInt64} {r : Rules} {fs : List FAR} {fates : List Fate}

/-- What the UPF holds for a session is filed under its key. -/
theorem held_eq_some {ps : PeerSession} :
    (l.view k).held i = some ps ↔ l.peer.sessions i = some ps ∧ ps.key = k := by
  unfold view
  simp

theorem held_ne {ps : PeerSession} (hs : (l.view k).held i = some ps) (hk : k' ≠ k) :
    (l.view k').held i = none := by
  cases h : (l.view k').held i with
  | none => rfl
  | some ps' =>
    grind [held_eq_some]

/-! ### Modifications -/

variable {seid : UInt64} {ps : PeerSession} {req : SessionModificationRequest}

theorem view_modify (hs : (l.view k).held seid = some ps) (hex : fate.executed = true) :
    (l.modify fate seid req).1.view k =
      { l.view k with held := update (l.view k).held seid (some (ps.modified req)) } := by
  obtain ⟨hsess, hkey⟩ := held_eq_some.1 hs
  unfold modify view Peer.modify
  rw [fate_peer, if_pos hex]
  congr 1
  funext i
  dsimp only
  rw [hsess]
  by_cases hi : i = seid
  · subst hi
    rw [update_self, update_self]
    exact filter_some_pos (decide_eq_true hkey)
  · rw [update_of_ne hi, update_of_ne hi]

theorem view_modify_ne (hs : (l.view k).held seid = some ps) (hk : k' ≠ k) :
    (l.modify fate seid req).1.view k' = l.view k' := by
  obtain ⟨hsess, hkey⟩ := held_eq_some.1 hs
  unfold modify
  rw [fate_peer]
  split
  case isFalse => rfl
  unfold view Peer.modify
  congr 1
  funext i
  dsimp only
  rw [hsess]
  by_cases hi : i = seid
  · subst hi
    have hne : ps.key ≠ k' := fun he => hk (he.symm.trans hkey)
    rw [update_self, hsess, map_some]
    have hother : ∀ ps' : PeerSession, ps'.key = ps.key →
        (some ps').filter (·.key = k') = none :=
      fun ps' heq => filter_some_neg (decide_eq_false (heq ▸ hne))
    exact (hother (ps.modified req) rfl).trans (hother ps rfl).symm
  · rw [update_of_ne hi]

/-- A modification brings the UPF to other rules. -/
theorem established_modify {r' : Rules} {st : SessionState} (h : (l.view k).Established r)
    (hst : l.bridge.sessions k = some st) (hex : fate.executed = true)
    (hreq : ∀ ps : PeerSession, ps.rules = r → (ps.modified req).rules = r') (hr : r'.Distinct) :
    ((l.modify fate st.upSEID req).1.view k).Established r' := by
  obtain ⟨st', ps, hst', hps, hheld⟩ := h.session
  cases hst.symm.trans hst'
  rw [view_modify ((hheld _).trans (if_pos rfl)) hex]
  refine ⟨h.pending, ⟨st, ps.modified req, hst, hreq ps hps, fun i => ?_⟩, hr⟩
  grind

/-! ### Rules that are added, or wait -/

variable {batch : PendingRules → PendingRules}

theorem view_addOrModify_ne (h : (l.view k).Sound) (hk : k' ≠ k) :
    (l.addOrModify k fate batch req).1.view k' = l.view k' := by
  unfold addOrModify
  split
  case h_1 => exact view_stash_ne batch hk
  case h_2 st hst =>
    obtain ⟨ps, hps⟩ := h st hst
    exact view_modify_ne hps hk

theorem queued_addOrModify {b : ModifyBatch} (h : (l.view k).Queued r)
    (hbatch : ∀ p, (batch p).rules = p.rules.append b.created ∧
      (p.hasCreate = true → (batch p).hasCreate = true) ∧ (p.Fit → (batch p).Fit))
    (hr : (r.append b.created).Distinct) :
    ((l.addOrModify k fate batch req).1.view k).Queued (r.append b.created) := by
  obtain ⟨p, hp, hcreate, hfit, rfl⟩ := h.waiting
  have hsess : l.bridge.sessions k = none := h.vacant.session
  have hpend : (l.view k).pending.getD .empty = p := by rw [hp, getD_some]
  unfold addOrModify
  rw [hsess]
  rw [view_stash, hpend]
  obtain ⟨hrules, hcr, hf⟩ := hbatch p
  exact ⟨⟨h.vacant.session, h.vacant.held⟩, ⟨batch p, rfl, hcr hcreate, hf hfit, hrules⟩, hr⟩

theorem vacant_addOrModify (h : (l.view k).Vacant) :
    ((l.addOrModify k fate batch req).1.view k).Vacant := by
  have hsess : l.bridge.sessions k = none := h.session
  unfold addOrModify
  rw [hsess]
  rw [view_stash]
  exact ⟨h.session, h.held⟩

theorem established_addOrModify {r' : Rules} (h : (l.view k).Established r)
    (hex : fate.executed = true)
    (hreq : ∀ ps : PeerSession, ps.rules = r → (ps.modified req).rules = r') (hr : r'.Distinct) :
    ((l.addOrModify k fate batch req).1.view k).Established r' := by
  obtain ⟨st, -, hst, -⟩ := h.session
  have hst : l.bridge.sessions k = some st := hst
  unfold addOrModify
  rw [hst]
  exact established_modify h hst hex hreq hr

/-! ### Modifications of an established session -/

theorem view_modifyEstablished_ne (h : (l.view k).Sound) (hk : k' ≠ k) :
    (l.modifyEstablished k fate req).1.view k' = l.view k' := by
  unfold modifyEstablished
  split
  case h_1 => rfl
  case h_2 st hst =>
    obtain ⟨ps, hps⟩ := h st hst
    exact view_modify_ne hps hk

theorem sound_modifyEstablished (h : (l.view k).Sound) :
    ((l.modifyEstablished k fate req).1.view k).Sound := by
  unfold modifyEstablished
  split
  case h_1 => exact h
  case h_2 st hst =>
    obtain ⟨ps, hps⟩ := h st hst
    by_cases hex : fate.executed = true
    · rw [view_modify hps hex]
      intro st' hst'
      cases hst.symm.trans hst'
      exact ⟨ps.modified req, update_self ..⟩
    · unfold modify
      rw [fate_peer, if_neg hex]
      exact h

theorem established_modifyEstablished {r' : Rules} (h : (l.view k).Established r)
    (hex : fate.executed = true)
    (hreq : ∀ ps : PeerSession, ps.rules = r → (ps.modified req).rules = r') (hr : r'.Distinct) :
    ((l.modifyEstablished k fate req).1.view k).Established r' := by
  obtain ⟨st, -, hst, -⟩ := h.session
  have hst : l.bridge.sessions k = some st := hst
  unfold modifyEstablished
  rw [hst]
  exact established_modify h hst hex hreq hr

/-! ### One FAR after another -/

/-- The calls of `RouterBridge.forEach`, on the bridge they all reach. -/
def forEach (call : FAR → Fate → Link → Link × Except BridgeError Unit) :
    List FAR → List Fate → Link → Link
  | [], _, l => l
  | f :: fs, fates, l => forEach call fs fates.tail (call f (fates.headD .lost) l).1

/-- The fates of these calls. -/
def fatesFor : List FAR → List Fate → List Fate
  | [], _ => []
  | _ :: fs, fates => fates.headD .lost :: fatesFor fs fates.tail

variable {call : FAR → Fate → Link → Link × Except BridgeError Unit}

theorem view_forEach_ne (h : (l.view k).Sound) (hcall : ∀ f fate l, (l.view k).Sound →
      ((call f fate l).1.view k).Sound ∧ (call f fate l).1.view k' = l.view k') :
    (forEach call fs fates l).view k' = l.view k' := by
  induction fs generalizing fates l with
  | nil => rfl
  | cons f fs ih =>
    obtain ⟨hsound, heq⟩ := hcall f (fates.headD .lost) l h
    exact (ih hsound).trans heq

/-- Each FAR is updated once, at the UPF as in the mirror. -/
theorem established_forEach {ie : UInt32 → UpdateFAR} {g : Forwarding → Forwarding}
    {P : Forwarding → Prop} (hie : ∀ (t : RuleTable UInt32 FarRule) (i : UInt32),
      (∀ f ∈ t.each Forwarding.ofRule, f.1 = i → P f.2) →
        (PeerSession.updateFAR t (ie i)).each Forwarding.ofRule =
          (t.each Forwarding.ofRule).alter i g) (h : (l.view k).Established r)
    (hex : ∀ fate ∈ fatesFor fs fates, fate.executed = true) (hids : (fs.map (·.farID)).Nodup)
    (hP : ∀ f ∈ fs, ∀ p ∈ r.fars, p.1 = f.farID → P p.2) :
    ((forEach (fun f fate l => l.modifyEstablished k fate (updateFARRequest (ie f.farID)))
      fs fates l).view k).Established
      { r with fars := (fs.map (·.farID)).foldl (fun t i => RuleTable.alter t i g) r.fars } := by
  induction fs generalizing fates l r with
  | nil => exact h
  | cons f fs ih =>
    obtain ⟨hf, hids⟩ := nodup_cons.1 hids
    obtain ⟨hexf, hex⟩ := forall_mem_cons.1 hex
    obtain ⟨hPf, hPfs⟩ := forall_mem_cons.1 hP
    have hreq : ∀ ps : PeerSession, ps.rules = r →
        (ps.modified (updateFARRequest (ie f.farID))).rules =
          { r with fars := r.fars.alter f.farID g } := by
      rintro ps rfl
      rw [rules_updateFARRequest, hie ps.fars f.farID hPf]
      rfl
    have hdist : Rules.Distinct { r with fars := r.fars.alter f.farID g } := by
      refine ⟨h.distinct.pdrs, ?_, h.distinct.qers, h.distinct.urrs, h.distinct.ambr⟩
      rw [RuleTable.ids_alter]
      exact h.distinct.fars
    refine ih (established_modifyEstablished h hexf hreq hdist) hex hids fun f' hf' p hp hid => ?_
    obtain ⟨q, hq, rfl⟩ := mem_map.1 hp
    grind

/-! ### Creation -/

section

variable {dnn : List UInt8} {sst pdnType : UInt8} {sd ueAddr : UInt32}

theorem view_sessionCreate_ne (hk : k' ≠ k) :
    (l.sessionCreate k dnn sst sd ueAddr pdnType).view k' = l.view k' :=
  (view_stash_ne _ hk).trans rfl

/-- With nothing queued a new session waits without rules. -/
theorem queued_sessionCreate (dnn : List UInt8) (sst : UInt8) (sd ueAddr : UInt32)
    (pdnType : UInt8) (h : (l.view k).Vacant)
    (hnone : ∀ p, (l.view k).pending = some p → p.rules = .empty) :
    ((l.sessionCreate k dnn sst sd ueAddr pdnType).view k).Queued .empty := by
  have hempty : ((l.view k).pending.getD .empty).rules = .empty := by
    cases hp : (l.view k).pending with
    | none => rfl
    | some p => exact hnone p hp
  have hdist : Rules.empty.Distinct := by constructor <;> simp [Rules.empty]
  have hfit : ((l.view k).pending.getD .empty).Fit := by
    unfold PendingRules.rules Rules.ofLists Rules.empty at hempty
    simp only [Rules.mk.injEq, map_eq_nil_iff] at hempty
    obtain ⟨hp, hf, hq, hu⟩ := hempty
    constructor <;> simp [hp, hf, hq, hu]
  unfold sessionCreate
  rw [view_stash]
  exact ⟨⟨h.session, h.held⟩, ⟨_, rfl, rfl, ⟨hfit.pdrs, hfit.fars, hfit.qers, hfit.urrs⟩, hempty⟩,
    hdist⟩

end

/-! ### Commit -/

/-- `%d` is read back. -/
theorem parseDecUint8_decimal (n : UInt8) : parseDecUint8 (decimal n) = n := by
  have hall : ∀ i : Fin 256, parseDecUint8 (decimal (UInt8.ofNat i)) = UInt8.ofNat i := by
    decide +kernel
  have hn := hall ⟨n.toNat, n.toNat_lt⟩
  rwa [UInt8.ofNat_toNat] at hn

theorem key_establishmentRequest (k : ImsiPduKey) (p : PendingRules) :
    (establishmentRequest k p).key = k := by
  unfold establishmentRequest SessionEstablishmentRequest.key
  dsimp only
  rw [parseDecUint8_decimal]

theorem view_establish {p : PendingRules} :
    ({ l with peer := l.peer.establish (establishmentRequest k p) } : Link).view k =
      { l.view k with
        held := update (l.view k).held (l.peer.nextSEID + 1)
          (some (.established (establishmentRequest k p))) } := by
  unfold view Peer.establish
  congr 1
  funext i
  dsimp only
  by_cases hi : i = l.peer.nextSEID + 1
  · subst hi
    rw [update_self, update_self]
    exact filter_some_pos (decide_eq_true (key_establishmentRequest k p))
  · rw [update_of_ne hi, update_of_ne hi]

/-- The session gets a SEID that was free. -/
theorem view_establish_ne {p : PendingRules}
    (hfree : l.peer.sessions (l.peer.nextSEID + 1) = none) (hk : k' ≠ k) :
    ({ l with peer := l.peer.establish (establishmentRequest k p) } : Link).view k' =
      l.view k' := by
  unfold view Peer.establish
  congr 1
  funext i
  dsimp only
  by_cases hi : i = l.peer.nextSEID + 1
  · subst hi
    rw [update_self, hfree]
    have hne : (establishmentRequest k p).key ≠ k' := by
      rw [key_establishmentRequest]
      exact hk.symm
    exact filter_some_neg (decide_eq_false hne)
  · rw [update_of_ne hi]

theorem view_remember (st : SessionState) :
    (l.remember k st).view k = { l.view k with session := some st } := by
  unfold remember view
  simp

theorem view_remember_ne (st : SessionState) (hk : k' ≠ k) :
    (l.remember k st).view k' = l.view k' := by
  unfold remember view
  simp [hk]

theorem view_commitSession_ne (hfree : l.peer.sessions (l.peer.nextSEID + 1) = none)
    (hk : k' ≠ k) : (l.commitSession k fate).1.view k' = l.view k' := by
  unfold commitSession
  split
  case h_1 => exact view_unstash_ne hk
  case h_2 p _ =>
    split
    case isFalse => exact view_unstash_ne hk
    have hpeer : ∀ peer : Peer, peer = l.peer ∨ peer = l.peer.establish (establishmentRequest k p) →
        ({ l.unstash k with peer } : Link).view k' = l.view k' := by
      rintro peer (rfl | rfl)
      · exact view_unstash_ne hk
      · exact (view_establish_ne (l := l.unstash k) hfree hk).trans (view_unstash_ne hk)
    cases fate with
    | lost | refused => exact hpeer l.peer (.inl rfl)
    | unanswered => exact hpeer _ (.inr rfl)
    | answered => exact (view_remember_ne _ hk).trans (hpeer _ (.inr rfl))

/-- The commit is answered: the UPF has the rules that waited. -/
theorem established_commitSession {r : Rules} (h : (l.view k).Queued r) :
    ((l.commitSession k .answered).1.view k).Established r ∧
      (l.commitSession k .answered).2 = .ok () := by
  obtain ⟨p, hp, hcreate, hfit, rfl⟩ := h.waiting
  have hpend : l.bridge.pending k = some p := hp
  have hview : ({ l.unstash k with peer := l.peer.establish (establishmentRequest k p) } :
      Link).view k =
        { pending := none
          session := (l.view k).session
          held := update (l.view k).held (l.peer.nextSEID + 1)
            (some (.established (establishmentRequest k p))) } := by
    refine (view_establish (l := l.unstash k)).trans ?_
    rw [view_unstash]
    rfl
  unfold commitSession
  rw [hpend]
  dsimp only
  rw [if_pos hcreate]
  refine ⟨?_, rfl⟩
  dsimp only [Fate.peer]
  rw [view_remember, hview]
  refine ⟨rfl, ⟨_, _, rfl, rules_established k hfit h.distinct, fun i => ?_⟩, h.distinct⟩
  by_cases hi : i = l.peer.nextSEID + 1
  · rw [hi]
    exact (update_self ..).trans (if_pos rfl).symm
  · refine (update_of_ne hi ..).trans ((h.vacant.held i).trans ?_)
    exact (if_neg hi).symm

/-- It is not answered: the rules are gone from the bridge. -/
theorem lost_commitSession (hsess : (l.view k).session = none) (hfate : fate ≠ .answered) :
    ((l.commitSession k fate).1.view k).Lost ∧ ∃ e, (l.commitSession k fate).2 = .error e := by
  have hlost : ∀ peer : Peer, ({ l.unstash k with peer } : Link).view k |>.Lost := by
    intro peer
    refine ⟨hsess, fun p hp => ?_⟩
    rw [show (Link.view { l.unstash k with peer } k).pending = none from
      update_self ..] at hp
    cases hp
  unfold commitSession
  split
  case h_1 => exact ⟨hlost l.peer, _, rfl⟩
  case h_2 p _ =>
    split
    case isFalse => exact ⟨hlost l.peer, _, rfl⟩
    cases fate with
    | lost | refused => exact ⟨hlost l.peer, _, rfl⟩
    | unanswered => exact ⟨hlost _, _, rfl⟩
    | answered => exact absurd rfl hfate

/-- Nothing was created: there is nothing to commit. -/
theorem commitSession_idle (fate : Fate)
    (hidle : ∀ p, (l.view k).pending = some p → p.hasCreate = false) :
    (l.commitSession k fate).1.view k = { l.view k with pending := none } ∧
      ∃ e, (l.commitSession k fate).2 = .error e := by
  unfold commitSession
  split
  case h_1 => exact ⟨view_unstash, _, rfl⟩
  case h_2 p hp =>
    rw [if_neg (by rw [hidle p hp]; exact Bool.false_ne_true)]
    exact ⟨view_unstash, _, rfl⟩

/-! ### Deletion -/

theorem view_sessionDelete_ne (h : (l.view k).Sound) (hk : k' ≠ k) :
    (l.sessionDelete k fate).1.view k' = l.view k' := by
  unfold sessionDelete
  split
  case h_1 => rfl
  case h_2 st hst =>
    obtain ⟨ps, hps⟩ := h st hst
    have hother : (l.view k').held st.upSEID = none := held_ne hps hk
    have hdelete : ∀ i, (update l.peer.sessions st.upSEID none i).filter (·.key = k') =
        (l.view k').held i := by
      intro i
      by_cases hi : i = st.upSEID
      · rw [hi, update_self, hother]
        rfl
      · rw [update_of_ne hi]
        rfl
    have hforget : (l.forget k st).view k' = l.view k' := by
      unfold forget view
      simp [hk]
    rw [fate_peer]
    split
    case isFalse => exact hforget
    case isTrue =>
      unfold view at hforget ⊢
      simp only [View.mk.injEq] at hforget ⊢
      exact ⟨hforget.1, hforget.2.1, funext hdelete⟩

/-- The session is gone on both sides. -/
theorem vacant_sessionDelete {r : Rules} (h : (l.view k).Established r)
    (hex : fate.executed = true) : ((l.sessionDelete k fate).1.view k).Vacant := by
  obtain ⟨st, ps, hst, -, hheld⟩ := h.session
  have hst : l.bridge.sessions k = some st := hst
  unfold sessionDelete
  rw [hst]
  dsimp only
  rw [fate_peer, if_pos hex]
  refine ⟨update_self .., fun i => ?_⟩
  change (update l.peer.sessions st.upSEID none i).filter (·.key = k) = none
  by_cases hi : i = st.upSEID
  · rw [hi, update_self]
    rfl
  · rw [update_of_ne hi]
    exact (hheld i).trans (if_neg hi)

theorem sessionDelete_unknown (h : (l.view k).session = none) :
    (l.sessionDelete k fate).1 = l := by
  have hst : l.bridge.sessions k = none := h
  unfold sessionDelete
  rw [hst]

end Link

end MmtCore.Smf
