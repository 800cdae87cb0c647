import MmtCore.Smf.Standing

/-!
# The mirror and the UPF

What the manager holds of a session is what its UPF holds, as long as every operation meets
`Manager.Admits`: requests reach the UPF, rules have ids of their own and fit their IEs, and no rule
is removed by itself.  The mirror is what the manager intends: it changes first, and most errors of
the bridge are only logged.
-/

namespace MmtCore.Smf

open MmtCore.Lib MmtCore.Upf MmtCore.Pfcp Function List Option ModifyBatch RouterBridge Link

namespace Manager

/-! ## What a session is to the manager and the UPFs -/

/-- A session of this key at a UPF. -/
def Holds (m : Manager) (k : ImsiPduKey) (u : UpfID) (i : UInt64) (ps : PeerSession) : Prop :=
  ∃ l, m.router.bridges u = some l ∧ l.peer.sessions i = some ps ∧ ps.key = k

/-- These rules wait for the commit. -/
def Waiting (m : Manager) (k : ImsiPduKey) (r : Rules) : Prop :=
  ∃ l p, m.link k = some l ∧ l.bridge.pending k = some p ∧ p.hasCreate = true ∧ p.rules = r

/-- The mirror of a session is what the UPFs hold: no session, or one session with its rules.
Before the commit the rules are those that wait for it. -/
def Mirrors (m : Manager) (k : ImsiPduKey) : Prop :=
  match m.sessions k with
  | none => ∀ u i ps, ¬ m.Holds k u i ps
  | some s =>
    (m.Waiting k s.rules ∧ ∀ u i ps, ¬ m.Holds k u i ps) ∨
      ∃ u i ps, m.Holds k u i ps ∧ ps.rules = s.rules ∧
        ∀ u' i' ps', m.Holds k u' i' ps' → u' = u ∧ i' = i

/-- The session is established, as far as its bridge knows. -/
def up (m : Manager) (k : ImsiPduKey) : Bool := ((m.link k).bind (·.bridge.sessions k)).isSome

/-- A commit would send an Establishment Request. -/
def waits (m : Manager) (k : ImsiPduKey) : Bool :=
  ((m.link k).bind (·.bridge.pending k)).any (·.hasCreate)

/-- The fates of the requests that an operation sends. -/
def sent (m : Manager) (k : ImsiPduKey) : ManagerOp → List Fate
  | .createSession .. | .removeFAR _ | .removeQER _ => []
  | .commitSession fate => if m.waits k then [fate] else []
  | .deleteSession fate | .setSessionAMBR fate _ => if m.up k then [fate] else []
  | .addPDR fate _ | .addFAR fate _ | .addQER fate _ | .addURR fate _ =>
    if (m.sessions k).isSome && m.up k then [fate] else []
  | .updateFAR fate farID .. =>
    if (m.sessions k).any (·.fars.any (·.farID == farID)) && m.up k then [fate] else []
  | .deactivateDL fates =>
    match m.sessions k with
    | some s => if m.up k then Link.fatesFor (s.fars.filter (·.active)) fates else []
    | none => []
  | .activateDL _ _ fates =>
    match m.sessions k with
    | some s => if m.up k then Link.fatesFor (s.fars.filter (·.isDL)) fates else []
    | none => []
  | .applyModifyBatch fate b => if !b.isEmpty && m.up k then [fate] else []

/-- What is expected of an operation: with success the mirror is what the UPF holds; when a request
does not arrive or is refused, an error and the mirror as it was. -/
structure Faithful (m : Manager) (k : ImsiPduKey) (op : ManagerOp) : Prop where
  mirrors : (m.perform k op).2 = .ok () → (m.perform k op).1.Mirrors k
  reported : (∃ fate ∈ m.sent k op, fate.executed = false) →
    (m.perform k op).2 ≠ .ok () ∧ (m.perform k op).1.sessions = m.sessions

/-! ## Admissible operations -/

/-- A session takes a batch when it is established, or waits and the batch only creates. -/
def Takes (m : Manager) (k : ImsiPduKey) (b : ModifyBatch) : Prop :=
  ∀ s, m.sessions k = some s →
    b.Fits s.rules ∧ (m.up k = true ∨ m.waits k = true ∧ b.Creates)

/-- What an operation asks of the state. -/
def Permits (m : Manager) (k : ImsiPduKey) : ManagerOp → Prop
  | .createSession s selected => m.sessions k = none →
      s.rules = .empty ∧ ∃ l, m.router.bridges (m.router.pickForCreate selected) = some l ∧
        ∀ p, l.bridge.pending k = some p → p.rules = .empty
  | .commitSession _ => (m.sessions k = none → m.waits k = false) ∧
      ∀ l, m.link k = some l → l.peer.sessions (l.peer.nextSEID + 1) = none
  | .deleteSession _ => m.up k = false → ∀ i ps, ¬ m.Holds k (m.router.upfOf k) i ps
  | .addPDR _ p => m.Takes k { ModifyBatch.empty with createPDRs := [p] }
  | .addFAR _ f => m.Takes k { ModifyBatch.empty with createFARs := [f] }
  | .addQER _ q => m.Takes k { ModifyBatch.empty with createQERs := [q] }
  | .addURR _ u => m.Takes k { ModifyBatch.empty with createURRs := [u] }
  | .removeFAR farID => ∀ s, m.sessions k = some s →
      (m.up k = true ∨ m.waits k = true) ∧ farID ∉ s.rules.fars.ids
  | .removeQER qerID => ∀ s, m.sessions k = some s →
      (m.up k = true ∨ m.waits k = true) ∧ qerID ∉ s.rules.qers.ids
  | .updateFAR _ farID teid peerAddr peerPort => ∀ s, m.sessions k = some s →
      farID ∈ s.rules.fars.ids → m.up k = true ∧ peerPort = tunnelPort teid peerAddr ∧
        ∀ f ∈ s.rules.fars, f.1 = farID → f.2.action = 1 ∨ f.2.action = 2
  | .deactivateDL _ => ∀ s, m.sessions k = some s →
      (m.up k = true ∨ m.waits k = true ∧ s.fars.filter (·.active) = []) ∧
        ∀ f ∈ s.fars, f.active = true → f.action ≠ 2
  | .activateDL gnbTEID peerAddr _ => ∀ s, m.sessions k = some s →
      (m.up k = true ∨ m.waits k = true ∧ s.fars.filter (·.isDL) = []) ∧
        ∀ f ∈ s.fars, f.isDL = true →
          (gnbTEID ≠ 0 ∨ peerAddr ≠ 0) ∧ (f.action = 1 ∨ f.action = 2)
  | .setSessionAMBR .. => ∀ s, m.sessions k = some s → m.up k = true ∨ m.waits k = true
  | .applyModifyBatch _ b => if b.isEmpty then
      ∀ s, m.sessions k = some s → m.up k = true ∨ m.waits k = true
    else m.Takes k b

/-- `CommitSession` is the operation whose failures are reported before anything is changed. -/
def Reports : ManagerOp → Bool
  | .commitSession _ => true
  | _ => false

/-- The operations that keep the mirror: permitted, and executed at the UPF. -/
def Admits (m : Manager) (e : ImsiPduKey × ManagerOp) : Prop :=
  m.Permits e.1 e.2 ∧
    (Reports e.2 = false → ∀ fate ∈ m.sent e.1 e.2, fate.executed = true)

/-! ## Where the session stands -/

variable {m : Manager} {k : ImsiPduKey} {fate : Fate} {s : Session} {l : Link}

theorem up_eq (hl : m.link k = some l) : m.up k = (l.view k).session.isSome := by
  unfold up
  rw [hl]
  rfl

theorem waits_eq (hl : m.link k = some l) : m.waits k = (l.view k).pending.any (·.hasCreate) := by
  unfold waits
  rw [hl]
  rfl

theorem exists_link {v : View} (h : (m.standing k).views (m.standing k).upf = some v) :
    ∃ l, m.link k = some l ∧ v = l.view k := by
  obtain ⟨l, hl, rfl⟩ := map_eq_some_iff.1 h
  exact ⟨l, hl, rfl⟩

section

variable (ht : (m.standing k).Tracked) (hs : m.sessions k = some s)
  (h : m.up k = true ∨ m.waits k = true)
include h hs ht

/-- A session that is established or waits agrees. -/
theorem agrees_of_known : (m.standing k).Elsewhere ∧ ∃ l, m.link k = some l ∧
      ((l.view k).Queued s.rules ∨ (l.view k).Established s.rules) := by
  obtain hagrees | ⟨-, s', v, -, hv, hlost⟩ := ht
  · obtain ⟨helse, v, hv, hqe⟩ := hagrees.of_some hs
    grind [exists_link]
  · obtain ⟨l, hl, rfl⟩ := exists_link hv
    rw [up_eq hl, waits_eq hl, hlost.session] at h
    obtain h | h := h
    · cases h
    · cases hp : (l.view k).pending with
      | none =>
        rw [hp] at h
        cases h
      | some p =>
        rw [hp, any_some, hlost.pending p hp] at h
        cases h

theorem agrees_known : (m.standing k).Agrees := by
  obtain ⟨helse, l, hl, hqe⟩ := agrees_of_known ht hs h
  unfold Standing.Agrees
  rw [show (m.standing k).mirror = some s from hs]
  exact ⟨helse, l.view k, views_link hl, hqe⟩

end

/-- A standing that agrees is what is expected of a success. -/
theorem mirrors_of_agrees (h : (m.standing k).Agrees) : m.Mirrors k := by
  have hvacant : ∀ u, (∀ v, m.router.views k u = some v → v.Vacant) →
      ∀ i ps, ¬ m.Holds k u i ps := by
    rintro u hu i ps ⟨l, hl, hps⟩
    have hheld := (hu (l.view k) (congrArg (Option.map fun l : Link => l.view k) hl)).held i
    cases hheld.symm.trans (held_eq_some.2 hps)
  unfold Mirrors
  cases hs : m.sessions k with
  | none =>
    have hnone := h.of_none hs
    exact fun u => hvacant u fun v hv => hnone u v hv
  | some s =>
    obtain ⟨helse, v, hv, hqe⟩ := h.of_some hs
    obtain ⟨l, hl, rfl⟩ := exists_link hv
    have hother : ∀ u, u ≠ m.router.upfOf k → ∀ i ps, ¬ m.Holds k u i ps :=
      fun u hu => hvacant u fun v hv => helse u v hv hu
    obtain hq | he := hqe
    · left
      obtain ⟨p, hp, hcreate, -, hrules⟩ := hq.waiting
      refine ⟨⟨l, p, hl, hp, hcreate, hrules⟩, fun u i ps => ?_⟩
      by_cases hu : u = m.router.upfOf k
      · rintro ⟨l', hl', hps⟩
        rw [hu] at hl'
        cases some.inj (hl.symm.trans hl')
        cases (hq.vacant.held i).symm.trans (held_eq_some.2 hps)
      · exact hother u hu i ps
    · right
      obtain ⟨st, ps, -, hrules, hheld⟩ := he.session
      have hps := held_eq_some.1 ((hheld st.upSEID).trans (if_pos rfl))
      refine ⟨m.router.upfOf k, st.upSEID, ps, ⟨l, hl, hps⟩, hrules, fun u i ps' hholds => ?_⟩
      have hu : u = m.router.upfOf k := by
        by_contra hu
        exact hother u hu i ps' hholds
      refine ⟨hu, ?_⟩
      obtain ⟨l', hl', hps'⟩ := hholds
      rw [hu] at hl'
      cases some.inj (hl.symm.trans hl')
      by_contra hi
      cases ((hheld i).trans (if_neg hi)).symm.trans (held_eq_some.2 hps')

/-! ## Batches -/

variable {b : ModifyBatch} {touch : FAR → Bool} {change : FAR → FAR} {g : Forwarding → Forwarding}
  {op : ManagerOp}

/-- The bridge takes a batch as the session stands. -/
theorem takes_addOrModify (hl : m.link k = some l)
    (hqe : (l.view k).Queued s.rules ∨ (l.view k).Established s.rules) (hfits : b.Fits s.rules)
    (hknown : m.up k = true ∨ m.waits k = true ∧ b.Creates)
    (hex : m.up k = true → fate.executed = true) :
    ((l.addOrModify k fate b.pend b.request).1.view k).Queued (s.applyBatch b).rules ∨
      ((l.addOrModify k fate b.pend b.request).1.view k).Established (s.applyBatch b).rules := by
  rw [Session.rules_applyBatch hfits.distinct.fars]
  rw [up_eq hl] at hknown hex
  obtain hq | he := hqe
  · left
    rw [hq.vacant.session] at hknown
    obtain hup | ⟨-, hcreates⟩ := hknown
    · cases hup
    rw [hcreates.change_eq]
    exact queued_addOrModify hq
      (fun p => ⟨rules_pend b p, id, fun hp => fit_pend hp hfits.creates⟩) hfits.distinct
  · right
    obtain ⟨st, -, hst, -⟩ := he.session
    rw [hst] at hex
    refine established_addOrModify he (hex rfl) (fun ps hps => ?_) hfits.distinct_change
    rw [← hps] at hfits ⊢
    exact rules_modified hfits

theorem batch_steps (ht : (m.standing k).Tracked) (htakes : m.Takes k b)
    (hex : (m.sessions k).isSome = true → m.up k = true → fate.executed = true) :
    m.Steps k (m.edit k (Session.applyBatch b) (·.addOrModify k fate b.pend b.request)) := by
  refine edit_steps ht (fun l hl k' hk' => view_addOrModify_ne hl hk') fun s hs => ?_
  obtain ⟨hfits, hknown⟩ := htakes s hs
  obtain ⟨helse, l, hl, hqe⟩ := agrees_of_known ht hs (hknown.imp_right And.left)
  exact ⟨helse, l, hl, takes_addOrModify hl hqe hfits hknown (hex (by rw [hs]; rfl))⟩

/-! ### A rule that is added is a batch of its own -/

theorem edit_batch {change : Session → Session} {batch : PendingRules → PendingRules}
    {req : SessionModificationRequest} (hchange : ∀ s, change s = s.applyBatch b)
    (hbatch : ∀ p, batch p = b.pend p) (hreq : req = b.request) :
    m.edit k change (·.addOrModify k fate batch req) =
      m.edit k (Session.applyBatch b) (·.addOrModify k fate b.pend b.request) := by
  rw [funext hchange, hreq, show batch = b.pend from funext hbatch]

theorem addPDR_eq (p : PDR) :
    let b := { empty with createPDRs := [p] }
    m.addPDR k fate p =
      m.edit k (Session.applyBatch b) (·.addOrModify k fate b.pend b.request) :=
  edit_batch (fun s => by simp [Session.applyBatch, empty])
    (fun p => by simp [pend, empty]) rfl

theorem addFAR_eq (f : FAR) :
    let b := { empty with createFARs := [f] }
    m.addFAR k fate f =
      m.edit k (Session.applyBatch b) (·.addOrModify k fate b.pend b.request) :=
  edit_batch (fun s => by simp [Session.applyBatch, empty])
    (fun p => by simp [pend, empty]) rfl

theorem addQER_eq (q : QER) :
    let b := { empty with createQERs := [q] }
    m.addQER k fate q =
      m.edit k (Session.applyBatch b) (·.addOrModify k fate b.pend b.request) :=
  edit_batch (fun s => by simp [Session.applyBatch, empty])
    (fun p => by simp [pend, empty]) rfl

theorem addURR_eq (u : URR) :
    let b := { empty with createURRs := [u] }
    m.addURR k fate u =
      m.edit k (Session.applyBatch b) (·.addOrModify k fate b.pend b.request) :=
  edit_batch (fun s => by simp [Session.applyBatch, empty])
    (fun p => by simp [pend, empty]) rfl

/-! ### Batches as they come -/

theorem applyModifyBatch_eq (hb : b.isEmpty = false) :
    l.applyModifyBatch k fate b = l.addOrModify k fate b.pend b.request := by
  unfold Link.applyModifyBatch
  rw [hb, if_neg Bool.false_ne_true]
  rfl

/-- A session that is not there stays away. -/
theorem vacant_steps {call : Link → Link × Except BridgeError Unit}
    {sessions : ImsiPduKey → Option Session} {res : Except ManagerError Unit}
    (ht : (m.standing k).Tracked) (hs : m.sessions k = none) (hsessions : sessions = m.sessions)
    (hne : ∀ l, (l.view k).Sound → ∀ k', k' ≠ k → (call l).1.view k' = l.view k')
    (hcall : ∀ l, (l.view k).Vacant → ((call l).1.view k).Vacant) :
    m.Steps k (⟨sessions, (m.router.dispatch k call).1⟩, res) := by
  subst hsessions
  have hagrees := ht.of_none hs
  refine .of_agrees (fun k' hk' => ?_) ?_
  · exact standing_dispatch_ne rfl fun l hl => hne l (sound_link ht hl) k' hk'
  · cases hl : m.link k with
    | none =>
      rw [dispatch_of_none hl]
      exact hagrees
    | some l =>
      refine (congrArg Standing.Agrees (standing_dispatch _ _ hl)).mpr ?_
      unfold Standing.Agrees
      dsimp only
      rw [hs]
      intro u v hv
      by_cases hu : u = (m.standing k).upf
      · subst hu
        rw [update_self] at hv
        cases hv
        exact hcall l (hagrees.of_none hs _ _ (views_link hl))
      · rw [update_of_ne hu] at hv
        exact hagrees.of_none hs u v hv

theorem applyModifyBatch_steps (ht : (m.standing k).Tracked)
    (hpermits : if b.isEmpty then ∀ s, m.sessions k = some s → m.up k = true ∨ m.waits k = true
      else m.Takes k b) (hex : b.isEmpty = false → m.up k = true → fate.executed = true) :
    m.Steps k (m.applyModifyBatch k fate b) := by
  unfold applyModifyBatch
  cases hb : b.isEmpty with
  | true =>
    rw [hb, if_pos rfl] at hpermits
    rw [if_pos rfl]
    refine .of_agrees (fun _ _ => rfl) ?_
    cases hs : m.sessions k with
    | none => exact ht.of_none hs
    | some s => exact agrees_known ht hs (hpermits s hs)
  | false =>
    rw [hb, if_neg Bool.false_ne_true] at hpermits
    rw [if_neg Bool.false_ne_true]
    have hcall : (fun l : Link => l.applyModifyBatch k fate b) =
        fun l => l.addOrModify k fate b.pend b.request := funext fun l => applyModifyBatch_eq hb
    have hne : ∀ l : Link, (l.view k).Sound → ∀ k', k' ≠ k →
        (l.addOrModify k fate b.pend b.request).1.view k' = l.view k' :=
      fun l hl k' hk' => view_addOrModify_ne hl hk'
    rw [hcall]
    cases hs : m.sessions k with
    | none =>
      refine vacant_steps ht hs ?_ hne fun l hl => vacant_addOrModify hl
      exact update_eq_self_iff.2 hs.symm
    | some s =>
      obtain ⟨hfits, hknown⟩ := hpermits s hs
      obtain ⟨helse, l, hl, hqe⟩ := agrees_of_known ht hs (hknown.imp_right And.left)
      refine .of_agrees (fun k' hk' => ?_) ?_
      · grind [standing_dispatch_ne, sound_link]
      · refine (congrArg Standing.Agrees (standing_dispatch _ _ hl)).mpr ?_
        rw [show update m.sessions k ((some s).map (Session.applyBatch b)) k =
          some (s.applyBatch b) from update_self ..]
        exact Standing.agrees_update helse
          (takes_addOrModify hl hqe hfits hknown (hex hb))

theorem setSessionAMBR_steps {a : AMBRSpec} (ht : (m.standing k).Tracked)
    (hknown : ∀ s, m.sessions k = some s → m.up k = true ∨ m.waits k = true)
    (hex : m.up k = true → fate.executed = true) :
    m.Steps k (m.setSessionAMBR k fate a, .ok ()) := by
  let b := { empty with sessionAMBR := some a }
  have hcall : (fun l : Link => l.setSessionAMBR k fate a) =
      fun l => l.addOrModify k fate b.pend b.request := by
    funext l
    refine congrArg (fun batch => l.addOrModify k fate batch b.request) (funext fun p => ?_)
    simp [b, pend, empty]
  have hne : ∀ l : Link, (l.view k).Sound → ∀ k', k' ≠ k →
      (l.addOrModify k fate b.pend b.request).1.view k' = l.view k' :=
    fun l hl k' hk' => view_addOrModify_ne hl hk'
  unfold setSessionAMBR
  rw [hcall]
  cases hs : m.sessions k with
  | none => exact vacant_steps ht hs rfl hne fun l hl => vacant_addOrModify hl
  | some s =>
    obtain ⟨helse, l, hl, hqe⟩ := agrees_of_known ht hs (hknown s hs)
    have hsame : s.applyBatch b = s := by simp [b, Session.applyBatch, empty]
    have happend : s.rules.append b.created = s.rules := by
      unfold Rules.append
      rw [show b.created = .empty from rfl]
      simp [Rules.empty]
    have hdist : s.rules.Distinct := hqe.elim (·.distinct) (·.distinct)
    have hfits : b.Fits s.rules := by
      refine ⟨⟨?_, ?_, ?_, ?_⟩, happend.symm ▸ hdist, ?_, ?_⟩ <;> simp [b, empty]
    have hknown' : m.up k = true ∨ m.waits k = true ∧ b.Creates :=
      (hknown s hs).imp_right fun hw => ⟨hw, rfl, rfl, rfl, rfl, rfl⟩
    refine .of_agrees (fun k' hk' => ?_) ?_
    · exact standing_dispatch_ne rfl fun l' hl' => hne l' (sound_link ht hl') k' hk'
    · grind [standing_dispatch, takes_addOrModify, Standing.agrees_update]

/-! ## Single FARs -/

/-- A FAR is updated in the mirror and at the UPF. -/
theorem updateFAR_steps {farID teid peerAddr : UInt32} {peerPort : UInt16}
    (ht : (m.standing k).Tracked)
    (hpermits : ∀ s, m.sessions k = some s → farID ∈ s.rules.fars.ids → m.up k = true ∧
      peerPort = tunnelPort teid peerAddr ∧
        ∀ f ∈ s.rules.fars, f.1 = farID → f.2.action = 1 ∨ f.2.action = 2)
    (hex : (m.sessions k).any (·.fars.any (·.farID == farID)) = true → m.up k = true →
      fate.executed = true) :
    m.Steps k (m.updateFAR k fate farID teid peerAddr peerPort) := by
  unfold updateFAR
  split
  case h_1 => exact .refl ht
  case h_2 s hs =>
    split
    case isFalse => exact .refl ht
    case isTrue hany =>
      have hmem : farID ∈ s.rules.fars.ids := by
        obtain ⟨f, hf, hid⟩ := any_eq_true.1 hany
        exact mem_map.2 ⟨f.entry, mem_map_of_mem hf, by simpa [FAR.entry] using hid⟩
      obtain ⟨hup, rfl, hact⟩ := hpermits s hs hmem
      refine edit_steps ht
        (fun l hl k' hk' => view_modifyEstablished_ne hl hk') fun s' hs' => ?_
      cases hs.symm.trans hs'
      obtain ⟨helse, l, hl, hq | he⟩ := agrees_of_known ht hs (.inl hup)
      · rw [up_eq hl, hq.vacant.session] at hup
        cases hup
      refine ⟨helse, l, hl, .inr ?_⟩
      let change := FAR.forward teid peerAddr (tunnelPort teid peerAddr)
      let g := Forwarding.forward teid peerAddr (tunnelPort teid peerAddr)
      have hrules : ({ s with fars := updateFirst farID change s.fars } : Session).rules =
          { s.rules with fars := s.rules.fars.alter farID g } :=
        congrArg (fun fars => { s.rules with fars })
          (map_updateFirst farID (fun _ => rfl) he.distinct.fars)
      rw [hrules]
      have hexec : fate.executed = true := hex (by rw [hs]; exact hany) hup
      refine established_modifyEstablished he hexec (fun ps hps => ?_) ?_
      · rw [← hps] at hact ⊢
        rw [rules_updateFARRequest, each_updateFAR_forward teid peerAddr hact]
        rfl
      · refine ⟨he.distinct.pdrs, ?_, he.distinct.qers, he.distinct.urrs, he.distinct.ambr⟩
        rw [RuleTable.ids_alter]
        exact he.distinct.fars

/-- FARs that are touched one by one in the mirror are those with one of their ids. -/
theorem map_touched {fars : List FAR}
    (hg : ∀ f ∈ fars, touch f = true → (change f).entry = (f.farID, g f.entry.2))
    (h : (RuleTable.ids (fars.map FAR.entry)).Nodup) :
    (fars.map fun f => if touch f then change f else f).map FAR.entry =
      ((fars.filter touch).map (·.farID)).foldl (fun t i => RuleTable.alter t i g)
        (fars.map FAR.entry) := by
  have hids : (fars.map (·.farID)).Nodup := by
    rw [show RuleTable.ids (fars.map FAR.entry) = fars.map (·.farID) from List.map_map] at h
    exact h
  rw [RuleTable.foldl_alter g ((List.filter_sublist.map _).nodup hids), List.map_map, List.map_map]
  refine map_congr_left fun f hf => ?_
  have hmem : f.entry.1 ∈ (fars.filter touch).map (·.farID) ↔ touch f = true := by
    constructor
    · intro hm
      obtain ⟨f', hf', hid⟩ := mem_map.1 hm
      obtain ⟨hf', ht'⟩ := mem_filter.1 hf'
      rwa [← inj_on_of_nodup_map hids hf' hf hid]
    · exact fun ht => mem_map_of_mem (mem_filter.2 ⟨hf, ht⟩)
  dsimp only [comp_apply]
  split
  case isTrue htouch =>
    rw [hg f hf htouch, if_pos (hmem.2 htouch)]
    rfl
  case isFalse htouch => rw [if_neg fun hm => htouch (hmem.1 hm)]

/-- Every FAR of a kind is updated in the mirror and, one request each, at the UPF. -/
theorem sweep_steps (ie : UInt32 → UpdateFAR) {P : Forwarding → Prop} {fates : List Fate}
    (hie : ∀ (t : RuleTable UInt32 FarRule) (i : UInt32),
      (∀ f ∈ t.each Forwarding.ofRule, f.1 = i → P f.2) →
        (PeerSession.updateFAR t (ie i)).each Forwarding.ofRule =
          (t.each Forwarding.ofRule).alter i g) (ht : (m.standing k).Tracked)
    (hs : m.sessions k = some s)
    (hg : ∀ f ∈ s.fars, touch f = true → (change f).entry = (f.farID, g f.entry.2))
    (hknown : m.up k = true ∨ m.waits k = true ∧ s.fars.filter touch = [])
    (hP : ∀ f ∈ s.fars, touch f = true → P f.entry.2)
    (hex : m.up k = true → ∀ fate ∈ Link.fatesFor (s.fars.filter touch) fates,
      fate.executed = true) :
    m.Steps k
      ({ m.putSession k { s with fars := s.fars.map fun f => if touch f then change f else f } with
          router := m.router.forEach k
            (fun f fate l => l.modifyEstablished k fate (updateFARRequest (ie f.farID)))
            (s.fars.filter touch) fates }, .ok ()) := by
  rw [forEach_eq]
  obtain ⟨helse, l, hl, hqe⟩ := agrees_of_known ht hs (hknown.imp_right And.left)
  have hdist : s.rules.Distinct := hqe.elim (·.distinct) (·.distinct)
  let fars' := ((s.fars.filter touch).map (·.farID)).foldl
    (fun t i => RuleTable.alter t i g) s.rules.fars
  have hrules : ({ s with fars := s.fars.map fun f => if touch f then change f else f } :
      Session).rules = { s.rules with fars := fars' } :=
    congrArg (fun fars => { s.rules with fars }) (map_touched hg hdist.fars)
  refine .of_agrees (fun k' hk' => ?_) ?_
  · refine standing_dispatch_ne (update_of_ne hk' ..) fun l' hl' => ?_
    exact view_forEach_ne (sound_link ht hl') fun f fate l hl =>
      ⟨sound_modifyEstablished hl, view_modifyEstablished_ne hl hk'⟩
  refine (congrArg Standing.Agrees (standing_dispatch _ _ hl)).mpr ?_
  rw [show (m.putSession k _).sessions k = _ from update_self ..]
  refine Standing.agrees_update helse ?_
  rw [hrules]
  obtain hq | he := hqe
  · rw [up_eq hl, hq.vacant.session] at hknown
    obtain hup | ⟨-, hnone⟩ := hknown
    · cases hup
    have hfars : fars' = s.rules.fars := by
      unfold fars'
      rw [hnone]
      rfl
    rw [hnone, hfars]
    exact .inl hq
  · right
    obtain ⟨st, -, hst, -⟩ := he.session
    rw [up_eq hl, hst] at hex
    have hids : ((s.fars.filter touch).map (·.farID)).Nodup := by
      have hnodup := hdist.fars
      rw [show s.rules.fars.ids = s.fars.map (·.farID) from map_map] at hnodup
      exact (filter_sublist.map _).nodup hnodup
    refine established_forEach hie he (hex rfl) hids fun f hf p hp hid => ?_
    obtain ⟨hf, htouch⟩ := mem_filter.1 hf
    obtain ⟨f', hf', rfl⟩ := mem_map.1 hp
    have hsame : f' = f := by
      have hnodup := hdist.fars
      rw [show s.rules.fars.ids = s.fars.map (·.farID) from map_map] at hnodup
      exact inj_on_of_nodup_map hnodup hf' hf hid
    rw [hsame]
    exact hP f hf htouch

/-- A rule that is not there is removed on neither side. -/
theorem removeFAR_steps {farID : UInt32} (ht : (m.standing k).Tracked)
    (hpermits : ∀ s, m.sessions k = some s →
      (m.up k = true ∨ m.waits k = true) ∧ farID ∉ s.rules.fars.ids) :
    m.Steps k (m.removeFAR k farID) := by
  refine edit_steps ht (fun _ _ _ _ => rfl) fun s hs => ?_
  obtain ⟨hknown, hid⟩ := hpermits s hs
  obtain ⟨helse, l, hl, hqe⟩ := agrees_of_known ht hs hknown
  have hsame : s.fars.eraseP (·.farID == farID) = s.fars := by
    refine eraseP_of_forall_not fun f hf heq => hid ?_
    exact mem_map.2 ⟨f.entry, mem_map_of_mem hf, by simpa [FAR.entry] using heq⟩
  rw [hsame]
  exact ⟨helse, l, hl, hqe⟩

theorem removeQER_steps {qerID : UInt32} (ht : (m.standing k).Tracked)
    (hpermits : ∀ s, m.sessions k = some s →
      (m.up k = true ∨ m.waits k = true) ∧ qerID ∉ s.rules.qers.ids) :
    m.Steps k (m.removeQER k qerID) := by
  refine edit_steps ht (fun _ _ _ _ => rfl) fun s hs => ?_
  obtain ⟨hknown, hid⟩ := hpermits s hs
  obtain ⟨helse, l, hl, hqe⟩ := agrees_of_known ht hs hknown
  have hsame : s.qers.eraseP (·.qerID == qerID) = s.qers := by
    refine eraseP_of_forall_not fun q hq heq => hid ?_
    exact mem_map.2 ⟨q.entry, mem_map_of_mem hq, by simpa [QER.entry] using heq⟩
  rw [hsame]
  exact ⟨helse, l, hl, hqe⟩

/-! ## The life of a session -/

theorem createSession_steps {selected : UpfID} (ht : (m.standing k).Tracked)
    (hpermits : m.sessions k = none → s.rules = .empty ∧
      ∃ l, m.router.bridges (m.router.pickForCreate selected) = some l ∧
        ∀ p, l.bridge.pending k = some p → p.rules = .empty) :
    m.Steps k (m.createSession k s selected) := by
  unfold createSession
  split
  case h_1 => exact .refl ht
  case h_2 hs =>
    obtain ⟨hrules, l, hl, hpend⟩ := hpermits hs
    have hvacant := (ht.of_none hs).of_none hs
    unfold RouterBridge.sessionCreate
    dsimp only
    rw [hl]
    refine .of_agrees (fun k' hk' => ?_) ?_
    · unfold standing upfOf
      dsimp only [putSession, RouterBridge.set]
      rw [update_of_ne hk', update_of_ne hk']
      exact congrArg (Standing.mk _ _)
        (views_set_eq hl (view_sessionCreate_ne hk'))
    · have hupf : (m.standing k).views (m.router.pickForCreate selected) = some (l.view k) :=
        congrArg (Option.map fun l : Link => l.view k) hl
      have hq := queued_sessionCreate s.dnn s.sst s.sd s.ueAddr s.pdnType (hvacant _ _ hupf)
        hpend
      rw [← hrules] at hq
      unfold standing upfOf
      dsimp only [putSession]
      rw [update_self, update_self]
      have hviews := views_set (r := m.router) (k := k)
        (u := m.router.pickForCreate selected)
        (l.sessionCreate k s.dnn s.sst s.sd s.ueAddr s.pdnType)
      refine (congrArg (fun v => Standing.Agrees ⟨some s, _, v⟩) hviews).mpr ?_
      refine ⟨fun u v hv hu => ?_, _, update_self .., .inl hq⟩
      have hold : m.router.views k u = some v :=
        (update_of_ne hu ..).symm.trans hv
      exact hvacant u v hold

/-- Where the session of a commit stands: it agrees, or the commit failed and its rules are lost. -/
theorem standing_commitSession (fate : Fate) (ht : (m.standing k).Tracked) (hl : m.link k = some l)
    (hidle : m.sessions k = none → m.waits k = false) :
    let t : Standing := ⟨m.sessions k, (m.standing k).upf,
      update (m.standing k).views (m.standing k).upf
        (some ((l.commitSession k fate).1.view k))⟩
    t.Agrees ∨ t.Lost ∧ ∃ e, (l.commitSession k fate).2 = .error e := by
  have hview := views_link hl
  obtain hagrees | ⟨helse, s, v, hs, hv, hlost⟩ := ht
  · cases hs : m.sessions k with
    | none =>
      have hvacant := hagrees.of_none hs
      have hnot : ∀ p, (l.view k).pending = some p → p.hasCreate = false := by
        grind [waits_eq]
      left
      intro u v hv
      by_cases hu : u = (m.standing k).upf
      · subst hu
        rw [(commitSession_idle fate hnot).1] at hv
        cases (update_self ..).symm.trans hv
        exact ⟨(hvacant _ _ hview).session, (hvacant _ _ hview).held⟩
      · exact hvacant u v ((update_of_ne hu ..).symm.trans hv)
    | some s =>
      obtain ⟨helse, v, hv, hq | he⟩ := hagrees.of_some hs
      · cases hview.symm.trans hv
        by_cases hfate : fate = .answered
        · subst hfate
          exact .inl (Standing.agrees_update helse (.inr (established_commitSession hq).1))
        · obtain ⟨hlost, herr⟩ := lost_commitSession hq.vacant.session hfate
          exact .inr ⟨⟨helse.update _ _, s, _, rfl, update_self .., hlost⟩, herr⟩
      · cases hview.symm.trans hv
        have hnot : ∀ p, (l.view k).pending = some p → p.hasCreate = false := by
          intro p hp
          cases he.pending.symm.trans hp
        rw [(commitSession_idle fate hnot).1]
        exact .inl (Standing.agrees_update helse (.inr ⟨rfl, he.session, he.distinct⟩))
  · cases hview.symm.trans hv
    obtain ⟨hview', herr⟩ := commitSession_idle fate hlost.pending
    rw [hview']
    refine .inr ⟨⟨helse.update _ _, s, _, hs, update_self .., hlost.session, ?_⟩, herr⟩
    intro p hp
    cases hp

/-- A commit that is not answered is reported. -/
theorem commitSession_steps (ht : (m.standing k).Tracked)
    (hidle : m.sessions k = none → m.waits k = false)
    (hfree : ∀ l, m.link k = some l → l.peer.sessions (l.peer.nextSEID + 1) = none) :
    m.Steps k (m.commitSession k fate) := by
  unfold commitSession
  cases hl : m.link k with
  | none =>
    rw [dispatch_of_none hl]
    exact .refl ht
  | some l =>
    have hothers : ∀ k', k' ≠ k →
        standing ⟨m.sessions, (m.router.dispatch k (·.commitSession k fate)).1⟩ k' =
          m.standing k' := by
      intro k' hk'
      refine standing_dispatch_ne rfl fun l' hl' => ?_
      cases hl.symm.trans hl'
      exact view_commitSession_ne (hfree l hl) hk'
    have hstand := standing_dispatch (·.commitSession k fate) m.sessions hl
    have hres : (m.router.dispatch k (·.commitSession k fate)).2 = (l.commitSession k fate).2 :=
      congrArg Prod.snd (dispatch_of_some hl)
    obtain hagrees | ⟨hlost, e, he⟩ := standing_commitSession fate ht hl hidle
    · rw [← hstand] at hagrees
      exact .of_agrees hothers hagrees
    · rw [← hstand] at hlost
      refine ⟨hothers, .inr hlost, fun hok => ?_⟩
      dsimp only at hok
      rw [hres, he] at hok
      cases hok

/-- Before the deletion, and after it, no other UPF has anything for the session. -/
theorem elsewhere_of_tracked (ht : (m.standing k).Tracked) : (m.standing k).Elsewhere := by
  obtain hagrees | ⟨helse, -⟩ := ht
  · cases hs : m.sessions k with
    | none => exact fun u v hv _ => hagrees.of_none hs u v hv
    | some s => exact (hagrees.of_some hs).1
  · exact helse

/-- The link of a session is vacant once it is deleted, when the request is executed. -/
theorem vacant_of_delete (ht : (m.standing k).Tracked) (hl : m.link k = some l)
    (hpermits : m.up k = false → ∀ i ps, ¬ m.Holds k (m.router.upfOf k) i ps)
    (hex : m.up k = true → fate.executed = true) :
    ((l.sessionDelete k fate).1.view k).Vacant := by
  rw [up_eq hl] at hpermits hex
  have hunknown : (l.view k).session = none → ((l.sessionDelete k fate).1.view k).Vacant := by
    intro hsess
    rw [sessionDelete_unknown hsess]
    refine ⟨hsess, fun i => ?_⟩
    cases hheld : (l.view k).held i with
    | none => rfl
    | some ps =>
      rw [hsess] at hpermits
      exact absurd ⟨l, hl, held_eq_some.1 hheld⟩ (hpermits rfl i ps)
  have hview := views_link hl
  obtain hagrees | ⟨-, s, v, -, hv, hlost⟩ := ht
  · cases hs : m.sessions k with
    | none => exact hunknown (hagrees.of_none hs _ _ hview).session
    | some s =>
      obtain ⟨-, v, hv, hq | he⟩ := hagrees.of_some hs
      · cases hview.symm.trans hv
        exact hunknown hq.vacant.session
      · cases hview.symm.trans hv
        obtain ⟨st, -, hst, -⟩ := he.session
        rw [hst] at hex
        exact vacant_sessionDelete he (hex rfl)
  · cases hview.symm.trans hv
    exact hunknown hlost.session

theorem deleteSession_steps (ht : (m.standing k).Tracked)
    (hpermits : m.up k = false → ∀ i ps, ¬ m.Holds k (m.router.upfOf k) i ps)
    (hex : m.up k = true → fate.executed = true) :
    m.Steps k (m.deleteSession k fate) := by
  have helse := elsewhere_of_tracked ht
  unfold deleteSession RouterBridge.sessionDelete
  cases hl : m.router.bridges (m.router.upfOf k) with
  | none =>
    refine .of_agrees (fun k' hk' => ?_) ?_
    · exact congrArg (fun s => Standing.mk s _ _) (update_of_ne hk' ..)
    · unfold standing Standing.Agrees
      dsimp only
      rw [update_self]
      intro u v hv
      refine helse u v hv fun hu => ?_
      have hnone : (m.standing k).views (m.standing k).upf = none :=
        congrArg (Option.map fun l : Link => l.view k) hl
      rw [← hu] at hnone
      cases hnone.symm.trans hv
  | some l =>
    refine .of_agrees (fun k' hk' => ?_) ?_
    · unfold standing upfOf
      dsimp only [RouterBridge.set]
      rw [update_of_ne hk', update_of_ne hk']
      exact congrArg (Standing.mk _ _)
        (views_set_eq hl (view_sessionDelete_ne (sound_link ht hl) hk'))
    · have hviews := views_set (r := m.router) (k := k) (u := m.router.upfOf k)
        (l.sessionDelete k fate).1
      unfold standing Standing.Agrees
      dsimp only
      rw [update_self]
      intro u v hv
      have hv' : update (m.router.views k) (m.router.upfOf k)
          (some ((l.sessionDelete k fate).1.view k)) u = some v := hviews ▸ hv
      by_cases hu : u = m.router.upfOf k
      · subst hu
        cases (update_self ..).symm.trans hv'
        exact vacant_of_delete ht hl hpermits hex
      · exact helse u v ((update_of_ne hu ..).symm.trans hv') hu

/-! ## Runs -/

/-- Every session is tracked. -/
def Inv (m : Manager) : Prop := ∀ k, (m.standing k).Tracked

theorem perform_steps (ht : (m.standing k).Tracked) (h : m.Admits (k, op)) :
    m.Steps k (m.perform k op) := by
  obtain ⟨hpermits, hex⟩ := h
  cases op with
  | createSession s selected => exact createSession_steps ht hpermits
  | commitSession fate => exact commitSession_steps ht hpermits.1 hpermits.2
  | deleteSession fate =>
    exact deleteSession_steps ht hpermits fun hup => hex rfl fate (by simp [sent, hup])
  | addPDR fate p =>
    refine (congrArg (m.Steps k) (addPDR_eq p)).mpr (batch_steps ht hpermits fun hs hup => ?_)
    exact hex rfl fate (by simp [sent, hs, hup])
  | addFAR fate f =>
    refine (congrArg (m.Steps k) (addFAR_eq f)).mpr (batch_steps ht hpermits fun hs hup => ?_)
    exact hex rfl fate (by simp [sent, hs, hup])
  | addQER fate q =>
    refine (congrArg (m.Steps k) (addQER_eq q)).mpr (batch_steps ht hpermits fun hs hup => ?_)
    exact hex rfl fate (by simp [sent, hs, hup])
  | addURR fate u =>
    refine (congrArg (m.Steps k) (addURR_eq u)).mpr (batch_steps ht hpermits fun hs hup => ?_)
    exact hex rfl fate (by simp [sent, hs, hup])
  | removeFAR farID => exact removeFAR_steps ht hpermits
  | removeQER qerID => exact removeQER_steps ht hpermits
  | updateFAR fate farID teid peerAddr peerPort =>
    refine updateFAR_steps ht hpermits fun hany hup => hex rfl fate ?_
    simp only [sent, hany, hup, Bool.and_self, if_true, List.mem_singleton]
  | deactivateDL fates =>
    change m.Steps k ((m.deactivateDL k fates).1, .ok ())
    unfold deactivateDL
    cases hs : m.sessions k with
    | none => exact .of_agrees (fun _ _ => rfl) (ht.of_none hs)
    | some s =>
      obtain ⟨hknown, hact⟩ := hpermits s hs
      refine sweep_steps bufferIE (P := fun f => f.action ≠ 2)
        (fun t i => each_updateFAR_buffer) ht hs (fun _ _ _ => rfl) hknown hact fun hup => ?_
      intro fate hfate
      exact hex rfl fate (by simp only [sent, hs, hup, if_true]; exact hfate)
  | activateDL gnbTEID peerAddr fates =>
    change m.Steps k ((m.activateDL k gnbTEID peerAddr fates).1, .ok ())
    unfold activateDL
    cases hs : m.sessions k with
    | none => exact .of_agrees (fun _ _ => rfl) (ht.of_none hs)
    | some s =>
      obtain ⟨hknown, hact⟩ := hpermits s hs
      refine sweep_steps (fun i => forwardIE i gnbTEID peerAddr)
        (P := fun f => f.action = 1 ∨ f.action = 2)
        (fun t i => each_updateFAR_forward gnbTEID peerAddr) ht hs (fun f hf hdl => ?_) hknown
        (fun f hf hdl => (hact f hf hdl).2) fun hup => ?_
      · have hport : tunnelPort gnbTEID peerAddr = 2152 :=
          if_pos (by simpa using (hact f hf hdl).1)
        rw [hport]
        rfl
      · intro fate hfate
        exact hex rfl fate (by simp only [sent, hs, hup, if_true]; exact hfate)
  | setSessionAMBR fate a =>
    exact setSessionAMBR_steps ht hpermits fun hup => hex rfl fate (by simp [sent, hup])
  | applyModifyBatch fate b =>
    refine applyModifyBatch_steps ht hpermits fun hb hup => hex rfl fate ?_
    simp [sent, hb, hup]

theorem step_inv (hinv : m.Inv) {e : ImsiPduKey × ManagerOp} (h : m.Admits e) :
    (m.step e).Inv := by
  obtain ⟨k, op⟩ := e
  intro k'
  have hsteps := perform_steps (hinv k) h
  by_cases hk : k' = k
  · subst hk
    exact hsteps.tracked
  · exact (congrArg Standing.Tracked (hsteps.others k' hk)).mpr (hinv k')

/-- A commit whose request fails leaves the mirror as it was. -/
theorem reported_commitSession (hfate : fate.executed = false) (hw : m.waits k = true) :
    (m.commitSession k fate).2 ≠ .ok () ∧ (m.commitSession k fate).1.sessions = m.sessions := by
  cases hl : m.link k with
  | none =>
    unfold waits at hw
    rw [hl] at hw
    cases hw
  | some l =>
    have hp : ∃ p, l.bridge.pending k = some p ∧ p.hasCreate = true := by
      unfold waits at hw
      rw [hl] at hw
      exact any_eq_true _ _ |>.mp hw
    obtain ⟨p, hp, hcreate⟩ := hp
    refine ⟨fun hok => ?_, rfl⟩
    unfold commitSession at hok
    rw [dispatch_of_some hl] at hok
    unfold Link.commitSession at hok
    rw [hp] at hok
    dsimp only at hok
    rw [if_pos hcreate] at hok
    cases fate with
    | lost | refused => cases hok
    | unanswered | answered => cases hfate

theorem faithful_of_admits (ht : (m.standing k).Tracked) (h : m.Admits (k, op)) :
    m.Faithful k op where
  mirrors hok := mirrors_of_agrees ((perform_steps ht h).agrees hok)
  reported := by
    rintro ⟨fate, hfate, hnot⟩
    cases hrep : Reports op with
    | false =>
      have hex := h.2 hrep fate hfate
      rw [hnot] at hex
      cases hex
    | true =>
      cases op with
      | commitSession fate' =>
        change fate ∈ (if m.waits k then [fate'] else []) at hfate
        split at hfate
        case isTrue hw =>
          cases mem_singleton.1 hfate
          exact reported_commitSession hnot hw
        case isFalse => cases hfate
      | _ => cases hrep

end Manager

/-! ## The bridges of a manager -/

/-- `NewRouterBridge`. -/
def newRouterBridge : RouterBridge := ⟨fun _ => none, fun _ => none, []⟩

/-- `RegisterBridge` of a bridge that has just been dialled; the first one is the fallback. -/
def RouterBridge.registerBridge (r : RouterBridge) (u : UpfID) : RouterBridge :=
  { r.set u ⟨.empty, .empty⟩ with fallback := if r.fallback == [] then u else r.fallback }

/-- A manager whose router has a bridge to each of these UPFs. -/
def newManager (us : List UpfID) : Manager :=
  ⟨fun _ => none, us.foldl RouterBridge.registerBridge newRouterBridge⟩

namespace Manager

theorem inv_newManager (us : List UpfID) : (newManager us).Inv := by
  intro k
  left
  have hvacant : ∀ (us : List UpfID) (r : RouterBridge),
      (∀ u v, r.views k u = some v → v.Vacant) →
        ∀ u v, (us.foldl registerBridge r).views k u = some v → v.Vacant := by
    intro us
    induction us with
    | nil => exact fun r h => h
    | cons u us ih =>
      refine fun r h => ih _ fun u' v hv => ?_
      have hv' := (congrFun (views_set (r := r) (k := k) (u := u)
        ⟨.empty, .empty⟩) u').symm.trans hv
      by_cases hu : u' = u
      · subst hu
        cases (update_self ..).symm.trans hv'
        exact ⟨rfl, fun _ => rfl⟩
      · exact h u' v ((update_of_ne hu ..).symm.trans hv')
  exact hvacant us newRouterBridge fun u v hv => by cases hv

end Manager

/-! ## A deactivation that is lost -/

namespace Lab

def upfA : UpfID := ascii "upf-a"

def sampleKey : ImsiPduKey := ⟨ascii "001010000000001", 5⟩

def newSession : Session :=
  { dnn := ascii "ims", sst := 1, sd := 0, ueAddr := 0x0A2D0001, pdnType := 1
    pdrs := [], fars := [], qers := [], urrs := [] }

/-- A DL FAR that forwards to a gNB. -/
def dlFAR : FAR := ⟨2, 1, 0, 0x5001, 0x0A000002, 2152⟩

/-- A session with a DL FAR is committed. -/
def establishedWithFAR : List (ImsiPduKey × ManagerOp) :=
  [.createSession newSession upfA, .addFAR .answered dlFAR, .commitSession .answered].map
    (sampleKey, ·)

end Lab

namespace Manager

open Lab

end Manager

end MmtCore.Smf
