import MmtCore.Pfcp.HandlerSteps

/-!
# The session table and its index

`sessions` finds a session by its UP-SEID, `byIMSI` by the (IMSI, PDU session id) it was
established for, the dataplane by the first 15 bytes of the IMSI and the id.  An Establishment
writes all three without looking whether the key is taken, so they agree exactly as long as every
Establishment brings a key of its own (`session_table_consistent`).  When one does not, deleting the
stale SEID takes away what belongs to the newer session (`stale_deletion`).
-/

namespace MmtCore.Pfcp

open MmtCore.Lib MmtCore.Upf Function List Option

namespace Handler

/-- The key of a live session. -/
def keyOf (h : Handler) (seid : UInt64) : Option ImsiPduKey :=
  (h.sessions.lookup seid).map (·.key)

/-- The map and the index agree, and no key has two live sessions. -/
structure Consistent (h : Handler) : Prop where
  indexed : ∀ k seid, h.byIMSI k = some seid →
    ∃ sess, h.sessions.lookup seid = some sess ∧ sess.key = k
  live : ∀ seid sess, h.sessions.lookup seid = some sess → h.byIMSI sess.key = some seid
  unique : ∀ seid seid' sess sess', h.sessions.lookup seid = some sess →
    h.sessions.lookup seid' = some sess' → sess.key = sess'.key → seid = seid'

/-- A session has everything it had: its record with the rules' keys, its entry in the index, its
session in the dataplane, and what is buffered for it. -/
structure Intact (h h' : Handler) (seid : UInt64) (sess : HandlerSession) : Prop where
  session : h'.sessions.lookup seid = some sess
  index : h'.byIMSI sess.key = h.byIMSI sess.key
  dataplane : h'.dp.sessions sess.key.dpKey = h.dp.sessions sess.key.dpKey
  pending : h'.dp.pending sess.key = h.dp.pending sess.key

/-- Deleting a session, or tearing down those of a peer, leaves every other session alone. -/
structure TeardownLocal (codec : Codec) (h : Handler) : Prop where
  deletion : ∀ (hdr : Header) (peer : UDPAddr) (seid : UInt64) (sess : HandlerSession),
    h.sessions.lookup seid = some sess → seid ≠ hdr.seid →
    Intact h (h.handleSessionDeletion hdr peer).1 seid sess
  release : ∀ (hdr : Header) (payload : List UInt8) (peer : UDPAddr) (seid : UInt64)
    (sess : HandlerSession), h.sessions.lookup seid = some sess → sess.peer.ip ≠ peer.ip →
    Intact h (h.handleAssociationRelease codec hdr payload peer).1 seid sess

/-- An Establishment names an IMSI, the dataplane knows its key apart from that of every live
session, and the next UP-SEID is not in use. -/
def Establishable (codec : Codec) (h : Handler) (r : Request) : Prop :=
  ∀ req, r.establishes codec = some req →
    req.key.imsi ≠ [] ∧
    (∀ seid sess, h.sessions.lookup seid = some sess → sess.key.dpKey ≠ req.key.dpKey) ∧
    h.sessions.lookup (h.nextSEID + 1) = none

/-! ## The invariant -/

/-- The index is the inverse of the keys, and the dataplane keeps the sessions apart. -/
structure TableInv (h : Handler) : Prop where
  index : ∀ k seid, h.byIMSI k = some seid ↔ h.keyOf seid = some k
  named : ∀ k seid, h.keyOf seid = some k → k.imsi ≠ []
  apart : ∀ k k' seid seid', h.keyOf seid = some k → h.keyOf seid' = some k' →
    k.dpKey = k'.dpKey → seid = seid'

variable {h : Handler}
variable {seid : UInt64} {sess : HandlerSession} {key : ImsiPduKey}
  {vs : List ((_ : UInt64) × HandlerSession)}

theorem keyOf_of_lookup (hs : h.sessions.lookup seid = some sess) :
    h.keyOf seid = some sess.key := by
  rw [keyOf, hs, map_some]

theorem TableInv.consistent (inv : h.TableInv) : h.Consistent where
  indexed := by
    intro k seid hk
    exact map_eq_some_iff.1 ((inv.index k seid).1 hk)
  live := by
    intro seid sess hs
    exact (inv.index _ _).2 (keyOf_of_lookup hs)
  unique := by
    intro seid seid' sess sess' hs hs' hkey
    have hdk : sess.key.dpKey = sess'.key.dpKey := congrArg ImsiPduKey.dpKey hkey
    exact inv.apart _ _ _ _ (keyOf_of_lookup hs) (keyOf_of_lookup hs') hdk

theorem newHandler_tableInv : newHandler.TableInv where
  index := by
    intro k seid
    simp [newHandler, keyOf]
  named := by
    intro k seid hk
    simp [newHandler, keyOf] at hk
  apart := by
    intro k k' seid seid' hk
    simp [newHandler, keyOf] at hk

/-- The invariant is about the keys and the index alone. -/
theorem TableInv.congr (inv : h.TableInv) {h' : Handler} (hidx : h'.byIMSI = h.byIMSI)
    (hkeys : ∀ seid, h'.keyOf seid = h.keyOf seid) : h'.TableInv where
  index := by
    intro k seid
    rw [hidx, hkeys]
    exact inv.index k seid
  named := by
    intro k seid hk
    rw [hkeys] at hk
    exact inv.named k seid hk
  apart := by
    intro k k' seid seid' hk hk'
    rw [hkeys] at hk hk'
    exact inv.apart k k' seid seid' hk hk'

/-! ## Steps -/

theorem keyOf_established {dp : Dataplane} (hkey : sess.key = key) (seid : UInt64) :
    (h.established key sess dp).keyOf seid =
      if seid = h.nextSEID + 1 then some key else h.keyOf seid := by
  grind [AssocMap.lookup_assign_eq, keyOf, established]

theorem TableInv.establish (inv : h.TableInv) (dp : Dataplane) (hkey : sess.key = key)
    (hnamed : key.imsi ≠ [])
    (hapart : ∀ seid sess, h.sessions.lookup seid = some sess → sess.key.dpKey ≠ key.dpKey)
    (hfresh : h.sessions.lookup (h.nextSEID + 1) = none) :
    (h.established key sess dp).TableInv := by
  have hnone : h.keyOf (h.nextSEID + 1) = none := by rw [keyOf, hfresh, map_none]
  have hother : ∀ seid k, h.keyOf seid = some k → k.dpKey ≠ key.dpKey := by
    intro seid k hk
    obtain ⟨s, hs, rfl⟩ := map_eq_some_iff.1 hk
    exact hapart seid s hs
  have hidx : (h.established key sess dp).byIMSI =
      update h.byIMSI key (some (h.nextSEID + 1)) := by
    have himsi : (key.imsi == []) = false := beq_eq_false_iff_ne.2 hnamed
    simp only [established, himsi, Bool.false_eq_true, if_false]
  constructor
  · intro k seid
    rw [hidx, keyOf_established hkey, update_apply]
    by_cases hk : k = key
    · grind
    · rw [if_neg hk, inv.index k seid]
      by_cases hs : seid = h.nextSEID + 1
      · subst hs
        rw [if_pos rfl, hnone]
        simp [Ne.symm hk]
      · rw [if_neg hs]
  · intro k seid hk
    rw [keyOf_established hkey] at hk
    split at hk
    case isTrue =>
      cases hk
      exact hnamed
    case isFalse => exact inv.named k seid hk
  · intro k k' seid seid' hk hk' hdk
    rw [keyOf_established hkey] at hk hk'
    split at hk
    case isTrue hs =>
      grind
    case isFalse =>
      split at hk'
      case isTrue =>
        cases hk'
        exact absurd hdk (hother _ _ hk)
      case isFalse => exact inv.apart _ _ _ _ hk hk' hdk

theorem keyOf_removeSession (seid' : UInt64) :
    (h.removeSession seid sess).keyOf seid' = if seid' = seid then none else h.keyOf seid' := by
  unfold keyOf removeSession dropSession
  rw [AssocMap.lookup_erase_eq]
  split <;> rfl

theorem TableInv.remove (inv : h.TableInv) (hs : h.sessions.lookup seid = some sess) :
    (h.removeSession seid sess).TableInv := by
  have hkey := keyOf_of_lookup hs
  have hidx : (h.removeSession seid sess).byIMSI = update h.byIMSI sess.key none := by
    have himsi : (sess.key.imsi == []) = false := beq_eq_false_iff_ne.2 (inv.named _ _ hkey)
    simp only [removeSession, dropSession, himsi, Bool.false_eq_true, if_false]
  constructor
  · intro k seid'
    rw [hidx, keyOf_removeSession, update_apply]
    by_cases hk : k = sess.key
    · subst hk
      rw [if_pos rfl]
      by_cases hs' : seid' = seid
      · simp [hs']
      · rw [if_neg hs']
        constructor
        · intro heq
          cases heq
        · intro heq
          exact absurd (inv.apart _ _ _ _ heq hkey rfl) hs'
    · rw [if_neg hk, inv.index k seid']
      by_cases hs' : seid' = seid
      · subst hs'
        rw [if_pos rfl, hkey]
        simp [Ne.symm hk]
      · rw [if_neg hs']
  · intro k seid' hk
    rw [keyOf_removeSession] at hk
    split at hk
    case isTrue => cases hk
    case isFalse => exact inv.named k seid' hk
  · intro k k' seid₁ seid₂ hk hk' hdk
    rw [keyOf_removeSession] at hk hk'
    split at hk
    case isTrue => cases hk
    case isFalse =>
      split at hk'
      case isTrue => cases hk'
      case isFalse => exact inv.apart _ _ _ _ hk hk' hdk

/-! ## Other sessions -/

theorem Intact.refl (hs : h.sessions.lookup seid = some sess) : Intact h h seid sess :=
  ⟨hs, rfl, rfl, rfl⟩

theorem Intact.trans {h₁ h₂ h₃ : Handler} (h12 : Intact h₁ h₂ seid sess)
    (h23 : Intact h₂ h₃ seid sess) : Intact h₁ h₃ seid sess :=
  ⟨h23.session, h23.index.trans h12.index, h23.dataplane.trans h12.dataplane,
    h23.pending.trans h12.pending⟩

/-- A teardown reaches the dataplane session and the buffer of its own key only. -/
theorem tearDownSession_other (dp : Dataplane) (sess : HandlerSession) {k : ImsiPduKey}
    (hk : k.dpKey ≠ sess.key.dpKey) :
    (tearDownSession dp sess).sessions k.dpKey = dp.sessions k.dpKey ∧
    (tearDownSession dp sess).pending k = dp.pending k := by
  have hkey : k ≠ sess.key := fun heq => hk (congrArg ImsiPduKey.dpKey heq)
  unfold tearDownSession Dataplane.deleteSession
  split
  case h_1 => simp [update_of_ne hkey]
  case h_2 => simp [Dataplane.upfDpSessionDelete, update_of_ne hk]

theorem TableInv.intact_remove (inv : h.TableInv) {seid' : UInt64} {sess' : HandlerSession}
    (hs : h.sessions.lookup seid = some sess) (hs' : h.sessions.lookup seid' = some sess')
    (hne : seid' ≠ seid) :
    Intact h (h.removeSession seid sess) seid' sess' := by
  have hdk : sess'.key.dpKey ≠ sess.key.dpKey := fun heq =>
    hne (inv.apart _ _ _ _ (keyOf_of_lookup hs') (keyOf_of_lookup hs) heq)
  have hkey : sess'.key ≠ sess.key := fun heq => hdk (congrArg ImsiPduKey.dpKey heq)
  have hdp := tearDownSession_other h.dp sess hdk
  refine ⟨?_, ?_, hdp.1, hdp.2⟩
  · change (h.sessions.erase seid).lookup seid' = some sess'
    rw [AList.lookup_erase_ne hne, hs']
  · unfold removeSession dropSession
    dsimp only
    split
    · rfl
    · rw [update_of_ne hkey]

/-- The sessions still to be removed are there, each under a SEID of its own. -/
structure Removable (h : Handler) (vs : List ((_ : UInt64) × HandlerSession)) : Prop where
  live : ∀ v ∈ vs, h.sessions.lookup v.1 = some v.2
  distinct : (vs.map Sigma.fst).Nodup

theorem removable_victims (h : Handler) (peer : UDPAddr) : h.Removable (h.victims peer) where
  live := by
    intro v hv
    exact AssocMap.mem_entries_iff.1 (mem_of_mem_filter hv)
  distinct := (filter_sublist.map _).nodup h.sessions.nodupKeys

theorem Removable.tail {v : (_ : UInt64) × HandlerSession} (hr : h.Removable (v :: vs)) :
    (h.removeSession v.1 v.2).Removable vs where
  live := by
    intro w hw
    have hnodup := nodup_cons.1 hr.distinct
    have hne : w.1 ≠ v.1 := fun heq => hnodup.1 (heq ▸ mem_map_of_mem hw)
    change (h.sessions.erase v.1).lookup w.1 = some w.2
    rw [AList.lookup_erase_ne hne]
    exact hr.live w (mem_cons_of_mem v hw)
  distinct := (nodup_cons.1 hr.distinct).2

theorem TableInv.release (inv : h.TableInv) (hr : h.Removable vs) :
    (vs.foldl (fun h v => h.removeSession v.1 v.2) h).TableInv := by
  induction vs generalizing h with
  | nil => exact inv
  | cons v vs ih => exact ih (inv.remove (hr.live v mem_cons_self)) hr.tail

theorem TableInv.intact_release (inv : h.TableInv) (hr : h.Removable vs)
    (hs : h.sessions.lookup seid = some sess) (hne : ∀ v ∈ vs, seid ≠ v.1) :
    Intact h (vs.foldl (fun h v => h.removeSession v.1 v.2) h) seid sess := by
  induction vs generalizing h with
  | nil => exact Intact.refl hs
  | cons v vs ih =>
    have hv := hr.live v mem_cons_self
    have hone := inv.intact_remove hv hs (hne v mem_cons_self)
    exact hone.trans
      (ih (inv.remove hv) hr.tail hone.session fun w hw => hne w (mem_cons_of_mem v hw))

theorem TableInv.teardownLocal (codec : Codec) (inv : h.TableInv) : h.TeardownLocal codec where
  deletion := by
    intro hdr peer seid sess hs hne
    unfold handleSessionDeletion
    split
    case h_1 => exact Intact.refl hs
    case h_2 sess' hs' => exact inv.intact_remove hs' hs hne
  release := by
    intro hdr payload peer seid sess hs hip
    unfold handleAssociationRelease
    split
    case h_1 => exact Intact.refl hs
    case h_2 =>
      dsimp only
      rw [release_eq]
      have hr := removable_victims h peer
      refine inv.intact_release hr hs ?_
      rintro v hv rfl
      have hsame : sess = v.2 := some.inj (hs.symm.trans (hr.live v hv))
      have hpeer := (mem_filter.1 hv).2
      rw [hsame] at hip
      exact hip (beq_iff_eq.1 hpeer)

/-! ## Runs -/

theorem TableInv.step (codec : Codec) (inv : h.TableInv) (r : Request)
    (hD : h.Establishable codec r) : (h.step codec r).TableInv := by
  have hout := step_outcome codec h r
  generalize h.step codec r = h' at hout ⊢
  cases hout with
  | nothing => exact inv
  | establishment req sess dp hreq hid =>
    obtain ⟨hnamed, hapart, hfresh⟩ := hD req hreq
    exact inv.establish dp (congrArg SessionIdent.key hid) hnamed hapart hfresh
  | modification sess sess' dp hs hid =>
    refine inv.congr rfl fun seid => ?_
    have hkey : sess'.key = sess.key := congrArg SessionIdent.key hid
    grind [AssocMap.lookup_assign_eq, keyOf]
  | strayModification dp => exact inv.congr rfl fun seid => rfl
  | deletion sess hs => exact inv.remove hs
  | release => exact inv.release (removable_victims h r.peer)

theorem reach_tableInv (codec : Codec) (hr : Reach (step codec) (Establishable codec) newHandler h) :
    h.TableInv :=
  hr.invariant newHandler_tableInv fun _ r inv hD => inv.step codec r hD

/-- In every run whose Establishments bring keys of their own the tables agree, and a deletion or
teardown leaves the other sessions alone. -/
theorem session_table_consistent (codec : Codec) (h : Handler)
    (hr : Reach (step codec) (Establishable codec) newHandler h) :
    h.Consistent ∧ h.TeardownLocal codec := by
  have inv := reach_tableInv codec hr
  exact ⟨inv.consistent, inv.teardownLocal codec⟩

theorem session_table_consistent_one :
    (run (step sampleCodec) newHandler [sampleRequest establishmentPayload]).Consistent ∧
      (run (step sampleCodec) newHandler
        [sampleRequest establishmentPayload]).TeardownLocal sampleCodec := by
  refine session_table_consistent sampleCodec _ (Meets.reach ⟨?_, trivial⟩)
  intro req hreq
  have hsome : (sampleRequest establishmentPayload).establishes sampleCodec =
      some sampleEstablishment := by decide
  cases some.inj (hsome.symm.trans hreq)
  refine ⟨by decide, ?_, rfl⟩
  intro seid sess hs
  cases hs

/-- A key is established a second time and the first SEID is deleted: the second session, which is
live, is in the index and in the dataplane no more. -/
theorem stale_deletion :
    let h := run (step sampleCodec) newHandler
      [sampleRequest establishmentPayload, sampleRequest establishmentPayload]
    ¬ h.Consistent ∧ ¬ h.TeardownLocal sampleCodec := by
  intro h
  have hfirst : h.keyOf 0x20000002 = some sampleEstablishment.key := by decide
  have hsecond : h.keyOf 0x20000003 = some sampleEstablishment.key := by decide
  obtain ⟨sess, hs, hkey⟩ := map_eq_some_iff.1 hfirst
  obtain ⟨sess', hs', hkey'⟩ := map_eq_some_iff.1 hsecond
  constructor
  · intro hc
    exact absurd (hc.unique _ _ _ _ hs hs' (hkey.trans hkey'.symm)) (by decide)
  · intro hlocal
    let hdr := sampleHeader messageTypeSessionDeletionRequest 0x20000002
    have hidx := (hlocal.deletion hdr samplePeer _ _ hs' (by decide)).index
    rw [hkey'] at hidx
    cases hidx

end Handler

end MmtCore.Pfcp
