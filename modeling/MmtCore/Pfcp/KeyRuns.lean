import MmtCore.Pfcp.ReverseKeys

/-!
# Reverse keys and the PDRs that carry them

The handler remembers one TEID and one UE IP for each PDR, registers them when the PDR is created or
rebound and unregisters them when it goes, whatever the other PDRs carry.  Next to the handler runs
what the requests say: which keys the PDRs of each session carry.  The reverse maps agree with it as
long as no PDR gives up a key that another one still carries, or takes one that is not free
(`reverse_keys_exact`).  When two PDRs share a UE IP and one is removed, they do not
(`shared_key_lost`).
-/

namespace MmtCore.Pfcp

open MmtCore.Lib MmtCore.Upf Function List Option Dataplane Handler

/-- The handler, and what the PDRs of each session carry. -/
structure KeyRun where
  h : Handler
  carried : UInt64 → Carried

def newKeyRun : KeyRun := ⟨newHandler, fun _ _ => none⟩

def KeyRun.step (codec : Codec) (s : KeyRun) (r : Request) : KeyRun where
  h := s.h.step codec r
  carried :=
    match r.establishes codec, r.modifies codec with
    | some req, _ =>
      update s.carried (s.h.nextSEID + 1) (run carryCreate (fun _ => none) req.createPDR)
    | none, some req =>
      update s.carried r.hdr.seid (carryModification (s.carried r.hdr.seid) req)
    | none, none => s.carried

/-- A key is registered for an (IMSI, PDU session id), as the dataplane knows it, exactly when a PDR
of a live session of it carries the key. -/
structure KeyRun.Exact (s : KeyRun) : Prop where
  teids : ∀ (k : ImsiPduKey) (t : UInt32), s.h.dp.teids t = some k.dpKey ↔
    ∃ seid sess id key, s.h.sessions.lookup seid = some sess ∧ sess.key.dpKey = k.dpKey ∧
      s.carried seid id = some key ∧ key.teid = t ∧ t ≠ 0
  ueips : ∀ (k : ImsiPduKey) (t : UInt32), s.h.dp.ueips t = some k.dpKey ↔
    ∃ seid sess id key, s.h.sessions.lookup seid = some sess ∧ sess.key.dpKey = k.dpKey ∧
      s.carried seid id = some key ∧ key.ueip = t ∧ t ≠ 0

/-! ## The condition -/

/-- The dataplane takes the new session whole under a key of its own, and every PDR finds its keys
free. -/
structure EstablishmentOk (env : DpEnv) (h : Handler) (req : SessionEstablishmentRequest)
    (peer : UDPAddr) : Prop where
  apart : ∀ seid sess, h.sessions.lookup seid = some sess → sess.key.dpKey ≠ req.key.dpKey
  fresh : h.sessions.lookup (h.nextSEID + 1) = none
  free : h.dp.sessions req.key.dpKey = none
  room : env.sessionRoom = true
  fars : (req.createFAR.map (·.farID)).toFinset.card ≤ 16
  urrs : (req.createURR.map (·.urrID)).toFinset.card ≤ 8
  qers : (req.createQER.map (·.qerID)).toFinset.card ≤ 8
  pdrs : (req.createPDR.map (·.pdrID)).toFinset.card ≤ 16
  keys : Meets (Work.applyCreatePDRToHook env req.key) (Work.KeysOk env req.key)
    ((h.establishing req peer).beforeCreatePDR req.key req.createFAR req.createURR req.createQER)
    req.createPDR

/-- What a request must meet.  A modification of an unknown session must not find one of the empty
IMSI in the dataplane. -/
structure KeyRun.KeysMet (codec : Codec) (s : KeyRun) (r : Request) : Prop where
  establishment : ∀ req, r.establishes codec = some req → EstablishmentOk r.env s.h req r.peer
  modification : ∀ req sess, r.modifies codec = some req →
    s.h.sessions.lookup r.hdr.seid = some sess →
    (Work.mk (some sess) s.h.dp).ModificationOk r.env sess.key req
  stray : ∀ req, r.modifies codec = some req → s.h.sessions.lookup r.hdr.seid = none →
    s.h.dp.sessions (ImsiPduKey.dpKey ⟨[], 0⟩) = none

/-! ## The invariant -/

structure KeyRun.Inv (s : KeyRun) : Prop where
  idle : ∀ k, s.h.dp.pending k = none
  apart : ∀ seid seid' sess sess', s.h.sessions.lookup seid = some sess →
    s.h.sessions.lookup seid' = some sess' → sess.key.dpKey = sess'.key.dpKey → seid = seid'
  teids : ∀ seid sess, s.h.sessions.lookup seid = some sess →
    Owns s.h.dp.teids sess.key.dpKey sess.heldTEID
  ueips : ∀ seid sess, s.h.sessions.lookup seid = some sess →
    Owns s.h.dp.ueips sess.key.dpKey sess.heldUEIP
  carried : ∀ seid sess, s.h.sessions.lookup seid = some sess → sess.keys = s.carried seid
  teidOwner : ∀ t k, s.h.dp.teids t = some k →
    ∃ seid sess, s.h.sessions.lookup seid = some sess ∧ sess.key.dpKey = k
  ueipOwner : ∀ t k, s.h.dp.ueips t = some k →
    ∃ seid sess, s.h.sessions.lookup seid = some sess ∧ sess.key.dpKey = k

theorem newKeyRun_inv : newKeyRun.Inv := by
  constructor
  · intro k
    rfl
  · intro seid seid' sess sess' hs
    cases hs
  · intro seid sess hs
    cases hs
  · intro seid sess hs
    cases hs
  · intro seid sess hs
    cases hs
  · intro t k ht
    cases ht
  · intro t k ht
    cases ht

/-- One side of the property, from what holds of one reverse map. -/
theorem exact_side {s : KeyRun} (inv : s.Inv) (idx : ReverseIndex) (side : PDRReverseKey → UInt32)
    (howns : ∀ seid sess, s.h.sessions.lookup seid = some sess →
      Owns idx sess.key.dpKey (heldIn sess.keys side))
    (howner : ∀ t k, idx t = some k →
      ∃ seid sess, s.h.sessions.lookup seid = some sess ∧ sess.key.dpKey = k)
    (k : ImsiPduKey) (t : UInt32) :
    idx t = some k.dpKey ↔
      ∃ seid sess id key, s.h.sessions.lookup seid = some sess ∧ sess.key.dpKey = k.dpKey ∧
        s.carried seid id = some key ∧ side key = t ∧ t ≠ 0 := by
  constructor
  · intro ht
    obtain ⟨seid, sess, hs, hk⟩ := howner t _ ht
    have hheld := (howns seid sess hs t).1 (hk ▸ ht)
    obtain ⟨id, hid⟩ := hheld
    obtain ⟨key, hkey, hside, h0⟩ := heldIn_eq_some_iff.1 hid
    rw [inv.carried seid sess hs] at hkey
    exact ⟨seid, sess, id, key, hs, hk, hkey, hside, h0⟩
  · rintro ⟨seid, sess, id, key, hs, hk, hkey, hside, h0⟩
    rw [← inv.carried seid sess hs] at hkey
    rw [← hk]
    exact (howns seid sess hs t).2 ⟨id, heldIn_eq_some_iff.2 ⟨key, hkey, hside, h0⟩⟩

theorem KeyRun.Inv.exact {s : KeyRun} (inv : s.Inv) : s.Exact where
  teids := exact_side inv s.h.dp.teids (·.teid) inv.teids inv.teidOwner
  ueips := exact_side inv s.h.dp.ueips (·.ueip) inv.ueips inv.ueipOwner

/-! ## Steps -/

namespace KeyRun

variable {s : KeyRun}
variable {sess : HandlerSession} {seid : UInt64} {codec : Codec} {r : Request}

/-- A session gets a new record, with its ledger in the new dataplane. -/
theorem Inv.assign (inv : s.Inv) (h' : Handler) (seid : UInt64) {c : Carried}
    (hsessions : h'.sessions = s.h.sessions.assign seid sess)
    (hl : SessionLedger sess.key.dpKey s.h.dp h'.dp.teids h'.dp.ueips c sess)
    (hidle : ∀ k, h'.dp.pending k = none)
    (hother : ∀ seid' sess', seid' ≠ seid → s.h.sessions.lookup seid' = some sess' →
      sess'.key.dpKey ≠ sess.key.dpKey)
    (hsame : ∀ sess', s.h.sessions.lookup seid = some sess' → sess'.key.dpKey = sess.key.dpKey) :
    KeyRun.Inv ⟨h', update s.carried seid c⟩ := by
  have hlookup : ∀ seid', h'.sessions.lookup seid' =
      if seid' = seid then some sess else s.h.sessions.lookup seid' := by
    intro seid'
    rw [hsessions, AssocMap.lookup_assign_eq]
  have howner : ∀ (idx idx' : ReverseIndex) (held : UInt16 → Option UInt32),
      KeyLedger idx idx' sess.key.dpKey held →
      (∀ t k, idx t = some k →
        ∃ seid sess, s.h.sessions.lookup seid = some sess ∧ sess.key.dpKey = k) →
      ∀ t k, idx' t = some k →
        ∃ seid sess, h'.sessions.lookup seid = some sess ∧ sess.key.dpKey = k := by
    intro idx idx' held hledger hown t k ht
    by_cases hk : k = sess.key.dpKey
    · exact ⟨seid, sess, by rw [hlookup, if_pos rfl], hk.symm⟩
    · obtain ⟨seid', sess', hs', hk'⟩ := hown t k ((hledger.others t k hk).1 ht)
      grind
  constructor
  · exact hidle
  · intro seid₁ seid₂ sess₁ sess₂ h₁ h₂ hkey
    rw [hlookup] at h₁ h₂
    split at h₁
    case isTrue heq₁ =>
      grind
    case isFalse hne =>
      split at h₂
      case isTrue =>
        cases h₂
        exact absurd hkey (hother _ _ hne h₁)
      case isFalse => exact inv.apart _ _ _ _ h₁ h₂ hkey
  · intro seid' sess' hs'
    rw [hlookup] at hs'
    split at hs'
    case isTrue =>
      cases hs'
      exact hl.teids.owns
    case isFalse hne =>
      intro t
      rw [hl.teids.others t _ (hother _ _ hne hs')]
      exact inv.teids seid' sess' hs' t
  · intro seid' sess' hs'
    rw [hlookup] at hs'
    split at hs'
    case isTrue =>
      cases hs'
      exact hl.ueips.owns
    case isFalse hne =>
      intro t
      rw [hl.ueips.others t _ (hother _ _ hne hs')]
      exact inv.ueips seid' sess' hs' t
  · intro seid' sess' hs'
    rw [hlookup] at hs'
    split at hs'
    case isTrue heq =>
      cases hs'
      rw [heq]
      change sess.keys = update s.carried seid c seid
      rw [update_self]
      exact hl.carried
    case isFalse hne =>
      change sess'.keys = update s.carried seid c seid'
      rw [update_of_ne hne]
      exact inv.carried seid' sess' hs'
  · exact howner _ _ _ hl.teids inv.teidOwner
  · exact howner _ _ _ hl.ueips inv.ueipOwner

theorem foldl_unregisterTEID (teids : List UInt32) (dp : Dataplane) (t : UInt32) :
    (teids.foldl Dataplane.unregisterTEID dp).teids t = if t ∈ teids then none else dp.teids t := by
  induction teids generalizing dp with
  | nil => simp
  | cons t' teids ih =>
    rw [foldl_cons, ih, unregisterTEID]
    grind

theorem foldl_unregisterUEIP (ueips : List UInt32) (dp : Dataplane) (t : UInt32) :
    (ueips.foldl Dataplane.unregisterUEIP dp).ueips t = if t ∈ ueips then none else dp.ueips t := by
  induction ueips generalizing dp with
  | nil => simp
  | cons t' ueips ih =>
    rw [foldl_cons, ih, unregisterUEIP]
    grind

/-- A teardown takes out the keys that the session remembers. -/
theorem tearDownSession_keys {dp : Dataplane} (hidle : dp.pending sess.key = none) :
    (∀ t, (tearDownSession dp sess).teids t = if t ∈ sess.teids then none else dp.teids t) ∧
    (∀ t, (tearDownSession dp sess).ueips t = if t ∈ sess.ueips then none else dp.ueips t) ∧
    (tearDownSession dp sess).pending = dp.pending := by
  have hpending : (dp.unregisterSessionKeys sess.teids sess.ueips).pending = dp.pending :=
    unregisterSessionKeys_pending ..
  have hdelete : tearDownSession dp sess =
      (dp.unregisterSessionKeys sess.teids sess.ueips).upfDpSessionDelete sess.key := by
    unfold tearDownSession deleteSession
    rw [hpending, hidle]
  rw [hdelete]
  refine ⟨fun t => ?_, fun t => ?_, hpending⟩
  · change (sess.ueips.foldl unregisterUEIP
      (sess.teids.foldl unregisterTEID dp)).teids t = _
    rw [foldl_keeps teids unregisterUEIP fun _ _ => rfl, foldl_unregisterTEID]
  · change (sess.ueips.foldl unregisterUEIP
      (sess.teids.foldl unregisterTEID dp)).ueips t = _
    rw [foldl_unregisterUEIP, foldl_keeps ueips unregisterTEID fun _ _ => rfl]

/-- The keys of a session are taken out of one reverse map: the owners that remain keep theirs. -/
theorem owns_of_removed {idx idx' : ReverseIndex} {keys : List UInt32}
    {k : SessionKey} {held : UInt16 → Option UInt32} (howns : Owns idx k held)
    (hidx : ∀ t, idx' t = if t ∈ keys then none else idx t)
    (hother : ∀ t ∈ keys, idx t ≠ some k) : Owns idx' k held := by
  intro t
  rw [hidx, ← howns t]
  split
  case isTrue ht =>
    simp_all
  case isFalse => rfl

section

variable (inv : s.Inv)
include inv

theorem Inv.remove (hs : s.h.sessions.lookup seid = some sess) :
    KeyRun.Inv ⟨s.h.removeSession seid sess, s.carried⟩ := by
  obtain ⟨hteids, hueips, hpending⟩ := tearDownSession_keys (inv.idle sess.key)
  have hlookup : ∀ seid' sess', (s.h.removeSession seid sess).sessions.lookup seid' = some sess' →
      seid' ≠ seid ∧ s.h.sessions.lookup seid' = some sess' := by
    intro seid' sess' h
    change (s.h.sessions.erase seid).lookup seid' = some sess' at h
    rw [AssocMap.lookup_erase_eq] at h
    split at h
    case isTrue => cases h
    case isFalse hne => exact ⟨hne, h⟩
  have hkeep : ∀ seid' sess', seid' ≠ seid → s.h.sessions.lookup seid' = some sess' →
      (s.h.removeSession seid sess).sessions.lookup seid' = some sess' := by
    intro seid' sess' hne h
    change (s.h.sessions.erase seid).lookup seid' = some sess'
    rw [AList.lookup_erase_ne hne, h]
  have hapart : ∀ seid' sess', seid' ≠ seid → s.h.sessions.lookup seid' = some sess' →
      sess'.key.dpKey ≠ sess.key.dpKey :=
    fun seid' sess' hne h hkey => hne (inv.apart _ _ _ _ h hs hkey)
  -- an owner of a key that is left is another session
  have howner : ∀ (idx idx' : ReverseIndex) (keys : List UInt32)
      (held : UInt16 → Option UInt32), Owns idx sess.key.dpKey held →
      (∀ t, t ∈ keys ↔ ∃ id, held id = some t) →
      (∀ t, idx' t = if t ∈ keys then none else idx t) →
      (∀ t k, idx t = some k →
        ∃ seid sess, s.h.sessions.lookup seid = some sess ∧ sess.key.dpKey = k) →
      ∀ t k, idx' t = some k →
        ∃ seid' sess', (s.h.removeSession seid sess).sessions.lookup seid' = some sess' ∧
          sess'.key.dpKey = k := by
    intro idx idx' keys held howns hmem hidx hown t k ht
    rw [hidx] at ht
    split at ht
    case isTrue => cases ht
    case isFalse hout =>
      obtain ⟨seid', sess', hs', hk⟩ := hown t k ht
      have hne : seid' ≠ seid := by
        rintro rfl
        cases some.inj (hs'.symm.trans hs)
        rw [← hk] at ht
        exact hout ((hmem t).2 ((howns t).1 ht))
      exact ⟨seid', sess', hkeep seid' sess' hne hs', hk⟩
  constructor
  · intro k
    change (tearDownSession s.h.dp sess).pending k = none
    rw [hpending, inv.idle]
  · intro seid₁ seid₂ sess₁ sess₂ h₁ h₂
    exact inv.apart _ _ _ _ (hlookup _ _ h₁).2 (hlookup _ _ h₂).2
  · intro seid' sess' h
    obtain ⟨hne, h'⟩ := hlookup _ _ h
    refine owns_of_removed (inv.teids _ _ h') hteids fun t ht hc => ?_
    have hmine := (inv.teids _ _ hs t).2 ((sess.mem_teids_iff t).1 ht)
    exact hapart _ _ hne h' (some.inj (hc.symm.trans hmine))
  · intro seid' sess' h
    obtain ⟨hne, h'⟩ := hlookup _ _ h
    refine owns_of_removed (inv.ueips _ _ h') hueips fun t ht hc => ?_
    have hmine := (inv.ueips _ _ hs t).2 ((sess.mem_ueips_iff t).1 ht)
    exact hapart _ _ hne h' (some.inj (hc.symm.trans hmine))
  · intro seid' sess' h
    exact inv.carried _ _ (hlookup _ _ h).2
  · exact howner _ _ _ _ (inv.teids _ _ hs) sess.mem_teids_iff hteids inv.teidOwner
  · exact howner _ _ _ _ (inv.ueips _ _ hs) sess.mem_ueips_iff hueips inv.ueipOwner

theorem Inv.release {vs : List ((_ : UInt64) × HandlerSession)} (hr : s.h.Removable vs) :
    KeyRun.Inv ⟨vs.foldl (fun h v => h.removeSession v.1 v.2) s.h, s.carried⟩ := by
  induction vs generalizing s with
  | nil => exact inv
  | cons v vs ih => exact ih (inv.remove (hr.live v mem_cons_self)) hr.tail

theorem ledger_of_inv (hs : s.h.sessions.lookup seid = some sess) :
    (Work.mk (some sess) s.h.dp).Ledger sess.key s.h.dp (s.carried seid) where
  sess := by
    refine ⟨sess, rfl, ?_⟩
    constructor
    · exact ⟨inv.teids _ _ hs, fun t k _ => Iff.rfl⟩
    · exact ⟨inv.ueips _ _ hs, fun t k _ => Iff.rfl⟩
    · exact inv.carried _ _ hs
  pending := rfl
  idle := inv.idle sess.key

theorem Inv.modify {req : SessionModificationRequest}
    (hest : r.establishes codec = none) (hmod : r.modifies codec = some req)
    (hD : s.KeysMet codec r) : (s.step codec r).Inv := by
  unfold KeyRun.step
  rw [hest, hmod]
  cases hs : s.h.sessions.lookup r.hdr.seid with
  | none =>
    have habsent : (Work.mk none s.h.dp).Absent ⟨[], 0⟩ :=
      ⟨rfl, inv.idle _, hD.stray req hmod hs⟩
    rw [step_strayModification hmod hs, habsent.modification]
    refine ⟨inv.idle, inv.apart, inv.teids, inv.ueips, ?_, inv.teidOwner, inv.ueipOwner⟩
    intro seid sess hlive
    have hne : seid ≠ r.hdr.seid := by
      rintro rfl
      cases hs.symm.trans hlive
    change sess.keys = update s.carried r.hdr.seid _ seid
    rw [update_of_ne hne]
    exact inv.carried seid sess hlive
  | some sess =>
    have hl := (ledger_of_inv inv hs).modification (hD.modification req sess hmod hs)
    have hident := Work.ident_applyModification r.env sess.key (Work.mk (some sess) s.h.dp) req
    obtain ⟨sess', hs', hledger⟩ := hl.sess
    obtain ⟨sess'', hs'', hid⟩ := Work.sess_of_ident hident rfl
    cases some.inj (hs'.symm.trans hs'')
    have hkey : sess'.key = sess.key := congrArg SessionIdent.key hid
    rw [step_modification hmod hs rfl, hs', getD_some]
    refine inv.assign _ r.hdr.seid rfl ?_ ?_ ?_ ?_
    · rw [hkey]
      exact hledger
    · intro k
      rw [hl.pending, inv.idle]
    · intro seid₁ sess₁ hne h₁ hdk
      rw [hkey] at hdk
      exact hne (inv.apart _ _ _ _ h₁ hs hdk)
    · simp_all

theorem Inv.establish {req : SessionEstablishmentRequest}
    (hest : r.establishes codec = some req) (hD : s.KeysMet codec r) : (s.step codec r).Inv := by
  have hok := hD.establishment req hest
  unfold KeyRun.step
  rw [hest]
  let w := s.h.establishing req r.peer
  let p : PendingSession := ⟨req.dnn, req.sst, req.slice.2, 0, [], [], [], [], [], []⟩
  have hb : w.Buffered req.key s.h.dp p := rfl
  -- before the PDRs, the session holds nothing
  obtain ⟨hbf, hsf⟩ := hb.createFARs req.createFAR
  obtain ⟨hbu, sessᵤ, hsu, hkeysu⟩ := hbf.createURRs req.createURR (hsf.trans rfl)
  obtain ⟨hbq, hsq⟩ := hbu.createQERs req.createQER
  have hnone : ∀ id, sessᵤ.keys id = none := fun id => by
    rw [hkeysu]
    rfl
  have hnobody : ∀ (idx : ReverseIndex),
      (∀ t k, idx t = some k →
        ∃ seid sess, s.h.sessions.lookup seid = some sess ∧ sess.key.dpKey = k) →
      ∀ t, idx t ≠ some req.key.dpKey := by
    intro idx hown t ht
    obtain ⟨seid, sess, hs, hk⟩ := hown t _ ht
    exact hok.apart seid sess hs hk
  have hl : SessionLedger req.key.dpKey s.h.dp s.h.dp.teids s.h.dp.ueips (fun _ => none) sessᵤ := by
    constructor
    · refine ⟨Owns.empty (hnobody _ inv.teidOwner) fun id => ?_, fun t k _ => Iff.rfl⟩
      rw [HandlerSession.heldTEID, heldIn, hnone, bind_none]
    · refine ⟨Owns.empty (hnobody _ inv.ueipOwner) fun id => ?_, fun t k _ => Iff.rfl⟩
      rw [HandlerSession.heldUEIP, heldIn, hnone, bind_none]
    · exact funext hnone
  obtain ⟨sess', p', hs', hb', hp', hteids, hueips, hl'⟩ :=
    hbq.createPDRs req.createPDR (hsq.trans hsu) hl hok.keys
  let w' := w.applyCreates r.env req.key req.createFAR req.createURR req.createQER req.createPDR
  have hw' : w'.dp = _ := hb'
  have hident := Work.ident_applyCreates r.env req.key w req.createFAR req.createURR
    req.createQER req.createPDR
  obtain ⟨sess'', hs'', hid⟩ := Work.sess_of_ident hident rfl
  cases some.inj (hs'.symm.trans hs'')
  have hkey : sess'.key = req.key := congrArg SessionIdent.key hid
  have hpend : w'.dp.pending req.key = some p' := by
    rw [hw']
    exact update_self ..
  have hcommit : Dataplane.Committable r.env req.key w'.dp p' := by
    rw [hw', hp']
    constructor
    · exact hok.free
    · exact hok.room
    · constructor
      · simpa [p, comp_def] using hok.fars
      · simpa [p, comp_def] using hok.urrs
      · simpa [p, comp_def] using hok.qers
      · simpa [p, comp_def] using hok.pdrs
    · simpa [p] using hteids
    · simpa [p] using hueips
  obtain ⟨dpSess, hdone⟩ := commitSession_of_committable hpend hcommit
  rw [step_establishment hest rfl]
  have hsess : w'.sess = some sess' := hs'
  rw [hsess, getD_some, hdone]
  refine inv.assign _ (s.h.nextSEID + 1) rfl ?_ ?_ ?_ ?_
  · rw [hkey]
    change SessionLedger req.key.dpKey s.h.dp
      (registerKeys w'.dp.teids p'.teids req.key.dpKey)
      (registerKeys w'.dp.ueips p'.ueIPs req.key.dpKey) _ sess'
    rw [hw', hp']
    simpa [p] using hl'
  · intro k
    change update w'.dp.pending req.key none k = none
    rw [hw']
    rw [update_idem]
    by_cases hk : k = req.key
    · rw [hk, update_self]
    · rw [update_of_ne hk, inv.idle]
  · intro seid₁ sess₁ _ h₁
    rw [hkey]
    exact hok.apart seid₁ sess₁ h₁
  · intro sess₁ h₁
    rw [hok.fresh] at h₁
    cases h₁

theorem Inv.step (hD : s.KeysMet codec r) : (s.step codec r).Inv := by
  cases hest : r.establishes codec with
  | some req => exact inv.establish hest hD
  | none =>
    cases hmod : r.modifies codec with
    | some req => exact inv.modify hest hmod hD
    | none =>
      unfold KeyRun.step
      rw [hest, hmod]
      obtain hsame | ⟨sess, hs, hdel⟩ | hrel := step_removal (h := s.h) hest hmod
      · rw [hsame]
        exact inv
      · rw [hdel]
        exact inv.remove hs
      · rw [hrel]
        exact inv.release (removable_victims s.h r.peer)

end

end KeyRun

/-- In every run whose requests meet the condition, the reverse maps list for every session exactly
the keys that its PDRs carry. -/
theorem reverse_keys_exact (codec : Codec) (s : KeyRun)
    (hr : Reach (KeyRun.step codec) (KeyRun.KeysMet codec) newKeyRun s) : s.Exact := by
  have inv : s.Inv := hr.invariant newKeyRun_inv fun _ _ inv hD => inv.step hD
  exact inv.exact

/-! ## Two PDRs and one UE IP -/

/-- A downlink PDR for 10.0.0.1, in bytes. -/
def downlinkPDRBytes (pdrID : UInt16) : List UInt8 :=
  ie 1 (ie 56 (beBytes 2 pdrID.toNat) ++ ie 29 (beBytes 4 100) ++
    ie 2 (ie 20 [1] ++ ie 93 [6, 10, 0, 0, 1]))

def downlinkPDR (pdrID : UInt16) : CreatePDR :=
  { pdrID, precedence := 100
    pdi :=
      { sourceInterface := 1, qfi := [], sdfFilter := [], ueIPAddress := [some 0x0A000001]
        fteid := none }
    farID := none, qerID := [], urrID := [] }

/-- An Establishment with two downlink PDRs. -/
def twoPDRsPayload : List UInt8 := establishmentPayload ++ downlinkPDRBytes 1 ++ downlinkPDRBytes 2

/-- A modification that removes the second. -/
def removePDRPayload : List UInt8 := ie 15 (ie 56 (beBytes 2 2))

/-- The codec on these payloads. -/
def twoPDRsCodec : Codec where
  establishment payload :=
    if payload = twoPDRsPayload then
      some { sampleEstablishment with createPDR := [downlinkPDR 1, downlinkPDR 2] }
    else none
  modification payload :=
    if payload = removePDRPayload then
      some { SessionModificationRequest.empty with removePDR := [2] }
    else none
  associationRelease _ := none

theorem reverse_keys_exact_two :
    (run (KeyRun.step twoPDRsCodec) newKeyRun [sampleRequest twoPDRsPayload]).Exact := by
  refine reverse_keys_exact twoPDRsCodec _ (Meets.reach ⟨?_, trivial⟩)
  have hest : (sampleRequest twoPDRsPayload).establishes twoPDRsCodec =
      some { sampleEstablishment with createPDR := [downlinkPDR 1, downlinkPDR 2] } := by
    decide
  constructor
  · intro req hreq
    cases some.inj (hest.symm.trans hreq)
    constructor
    · intro seid sess hs
      cases hs
    · rfl
    · rfl
    · rfl
    · decide
    · decide
    · decide
    · decide
    · refine ⟨⟨?_, ?_, ?_⟩, ⟨?_, ?_, ?_⟩, trivial⟩
      · intro t ht
        cases ht
      · intro t _
        exact Or.inr ⟨rfl, rfl⟩
      · intro sess hs
        cases hs
        exact ⟨fun t ht => absurd ht nofun, fun t ht => absurd ht nofun⟩
      · intro t ht
        cases ht
      · intro t _
        exact Or.inr ⟨rfl, rfl⟩
      · intro sess hs
        cases hs
        exact ⟨fun t ht => absurd ht nofun, fun t ht => absurd ht nofun⟩
  · intro req sess hreq
    cases hreq
  · intro req hreq
    cases hreq

/-- One of two PDRs with the same UE IP is removed: the other still carries the address, and the
address is no longer registered. -/
theorem shared_key_lost :
    let s := run (KeyRun.step twoPDRsCodec) newKeyRun
      [sampleRequest twoPDRsPayload,
        ⟨DpEnv.roomy, sampleHeader messageTypeSessionModificationRequest 0x20000002,
          removePDRPayload, samplePeer⟩]
    ¬ s.Exact := by
  intro s hexact
  have hkey : s.h.keyOf 0x20000002 = some sampleEstablishment.key := by decide
  obtain ⟨sess, hs, hk⟩ := map_eq_some_iff.1 hkey
  have hcarried : s.carried 0x20000002 1 = some ⟨0, 0x0A000001⟩ := by decide
  have hreg := (hexact.ueips sampleEstablishment.key 0x0A000001).2
    ⟨_, sess, 1, _, hs, by rw [hk], hcarried, rfl, by decide⟩
  cases hreg

end MmtCore.Pfcp
