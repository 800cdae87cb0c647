import MmtCore.Pfcp.KeyRuns
import MmtCore.Pfcp.Nwtt

/-!
# Association Release

The handler of one anchor and its NW-TT.  An Association Release tears down the sessions whose
source address is that of the peer, whatever port they came from, and takes from the handler and the
dataplane exactly what one Session Deletion for each of them takes, in whatever order these come
(`association_release`).  It does not free their DS-TT ports, as a deletion does, and it reaches the
sessions of another peer at the same address (`release_is_not_deletions`).
-/

namespace MmtCore.Pfcp

open MmtCore.Lib MmtCore.Upf Function List Option Dataplane Handler AssocMap Or

/-! ## Teardowns commute -/

namespace Dataplane

variable (dp : Dataplane)

theorem unregisterSessionKeys_teids (teids ueips : List UInt32) (t : UInt32) :
    (dp.unregisterSessionKeys teids ueips).teids t = if t ∈ teids then none else dp.teids t := by
  unfold unregisterSessionKeys
  rw [foldl_keeps Dataplane.teids Dataplane.unregisterUEIP fun _ _ => rfl, KeyRun.foldl_unregisterTEID]

theorem unregisterSessionKeys_ueips (teids ueips : List UInt32) (t : UInt32) :
    (dp.unregisterSessionKeys teids ueips).ueips t = if t ∈ ueips then none else dp.ueips t := by
  unfold unregisterSessionKeys
  rw [KeyRun.foldl_unregisterUEIP, foldl_keeps Dataplane.ueips Dataplane.unregisterTEID fun _ _ => rfl]

@[simp] theorem deleteSession_teids (k : ImsiPduKey) : (dp.deleteSession k).teids = dp.teids := by
  unfold deleteSession
  split <;> rfl

@[simp] theorem deleteSession_ueips (k : ImsiPduKey) : (dp.deleteSession k).ueips = dp.ueips := by
  unfold deleteSession
  split <;> rfl

/-- The buffer of the key is empty afterwards, as it may have been before. -/
theorem deleteSession_pending (k : ImsiPduKey) :
    (dp.deleteSession k).pending = update dp.pending k none := by
  unfold deleteSession
  split
  case h_1 => rfl
  case h_2 hp =>
    rw [← hp, update_eq_self]
    rfl

theorem deleteSession_sessions (k : ImsiPduKey) :
    (dp.deleteSession k).sessions =
      if (dp.pending k).isSome then dp.sessions
      else update dp.sessions k.dpKey none := by
  unfold deleteSession
  split
  case h_1 hp => rw [hp, isSome_some, if_pos rfl]
  case h_2 hp =>
    rw [hp, isSome_none, if_neg (by decide)]
    rfl

end Dataplane

theorem update_none_comm {α β : Type} [DecidableEq α] (f : α → Option β) (a b : α) :
    update (update f a none) b none =
      update (update f b none) a none := by
  grind

section

variable (dp : Dataplane) (sess sess' : HandlerSession)

theorem tearDownSession_teids (t : UInt32) :
    (tearDownSession dp sess).teids t = if t ∈ sess.teids then none else dp.teids t := by
  unfold tearDownSession
  rw [deleteSession_teids, unregisterSessionKeys_teids]

theorem tearDownSession_ueips (t : UInt32) :
    (tearDownSession dp sess).ueips t = if t ∈ sess.ueips then none else dp.ueips t := by
  unfold tearDownSession
  rw [deleteSession_ueips, unregisterSessionKeys_ueips]

theorem tearDownSession_pending :
    (tearDownSession dp sess).pending = update dp.pending sess.key none := by
  unfold tearDownSession
  rw [deleteSession_pending, unregisterSessionKeys_pending]

theorem tearDownSession_sessions :
    (tearDownSession dp sess).sessions =
      if (dp.pending sess.key).isSome then dp.sessions
      else update dp.sessions sess.key.dpKey none := by
  unfold tearDownSession
  rw [deleteSession_sessions, unregisterSessionKeys_pending,
    unregisterSessionKeys_sessions]

/-- The C sessions after two teardowns do not depend on which came first. -/
theorem tearDownSession_sessions_comm :
    (tearDownSession (tearDownSession dp sess) sess').sessions =
      (tearDownSession (tearDownSession dp sess') sess).sessions := by
  rw [tearDownSession_sessions, tearDownSession_sessions, tearDownSession_sessions,
    tearDownSession_sessions, tearDownSession_pending, tearDownSession_pending]
  by_cases hkey : sess.key = sess'.key
  · rw [hkey]
  · rw [update_of_ne (Ne.symm hkey), update_of_ne hkey]
    grind

theorem tearDownSession_comm :
    tearDownSession (tearDownSession dp sess) sess' =
      tearDownSession (tearDownSession dp sess') sess := by
  have hpending : (tearDownSession (tearDownSession dp sess) sess').pending =
      (tearDownSession (tearDownSession dp sess') sess).pending := by
    rw [tearDownSession_pending, tearDownSession_pending, tearDownSession_pending,
      tearDownSession_pending, update_none_comm]
  have hteids : (tearDownSession (tearDownSession dp sess) sess').teids =
      (tearDownSession (tearDownSession dp sess') sess).teids := by
    funext t
    rw [tearDownSession_teids, tearDownSession_teids, tearDownSession_teids,
      tearDownSession_teids]
    split <;> split <;> rfl
  have hueips : (tearDownSession (tearDownSession dp sess) sess').ueips =
      (tearDownSession (tearDownSession dp sess') sess).ueips := by
    funext t
    rw [tearDownSession_ueips, tearDownSession_ueips, tearDownSession_ueips,
      tearDownSession_ueips]
    split <;> split <;> rfl
  have hsessions := tearDownSession_sessions_comm dp sess sess'
  generalize tearDownSession (tearDownSession dp sess) sess' = dp₁ at *
  cases dp₁
  simp_all

end

namespace Handler

theorem removeSession_comm (h : Handler) (v w : (_ : UInt64) × HandlerSession) :
    (h.removeSession v.1 v.2).removeSession w.1 w.2 =
      (h.removeSession w.1 w.2).removeSession v.1 v.2 := by
  have hindex : ∀ (idx : ImsiPduKey → Option UInt64) (k k' : ImsiPduKey),
      (if k'.imsi == [] then (if k.imsi == [] then idx else update idx k none)
        else update (if k.imsi == [] then idx else update idx k none) k' none) =
      if k.imsi == [] then (if k'.imsi == [] then idx else update idx k' none)
        else update (if k'.imsi == [] then idx else update idx k' none) k none := by
    intro idx k k'
    split <;> split
    · rfl
    · rfl
    · rfl
    · exact update_none_comm ..
  simp only [removeSession, dropSession]
  rw [AList.erase_erase, hindex, tearDownSession_comm]

instance : RightCommutative fun (h : Handler) (v : (_ : UInt64) × HandlerSession) =>
    h.removeSession v.1 v.2 :=
  ⟨removeSession_comm⟩

end Handler

/-! ## The anchor -/

/-- The handler and its NW-TT. -/
structure Anchor where
  handler : Handler
  nwtt : NWTT

def newAnchor (nodeID : UInt64) : Anchor := ⟨newHandler, NWTT.new nodeID⟩

/-- The `BII` flag of a Create Bridge Info for TSC IE. -/
def bii (createBridgeInfo : Option (List UInt8)) : Bool :=
  match createBridgeInfo with
  | some (flags :: _) => flags &&& 0x01 != 0
  | _ => false

namespace Anchor

variable (codec : Codec) (env : DpEnv) (a : Anchor) (hdr : Header) (payload : List UInt8)
  (peer : UDPAddr)

/-- An establishment that asks for bridge information is told a DS-TT port, the NW-TT ports and the
node. -/
def handleSessionEstablishment (createBridgeInfo : Option (List UInt8)) :
    Anchor × List Response × Option (UInt16 × List UInt16 × UInt64) :=
  let (h, out) := a.handler.handleSessionEstablishment codec env hdr payload peer
  match codec.establishment payload with
  | none => (⟨h, a.nwtt⟩, out, none)
  | some req =>
    if bii createBridgeInfo && req.key.imsi != [] then
      let (nwtt, created, _) := a.nwtt.allocateDSTTPort req.key
      (⟨h, nwtt⟩, out, some created)
    else (⟨h, a.nwtt⟩, out, none)

/-- A deletion frees the DS-TT port of the session. -/
def handleSessionDeletion : Anchor × List Response :=
  let (h, out) := a.handler.handleSessionDeletion hdr peer
  match a.handler.sessions.lookup hdr.seid with
  | none => (⟨h, a.nwtt⟩, out)
  | some sess =>
    (⟨h, if sess.key.imsi == [] then a.nwtt else a.nwtt.releaseDSTTPort sess.key⟩, out)

def handleAssociationRelease : Anchor × List Response :=
  let (h, out) := a.handler.handleAssociationRelease codec hdr payload peer
  (⟨h, a.nwtt⟩, out)

/-- The anchor after Session Deletion Requests, each with the peer it comes from. -/
def deleteAll (requests : List (Header × UDPAddr)) : Anchor :=
  requests.foldl (fun a r => (a.handleSessionDeletion r.1 r.2).1) a

/-- The requests delete these sessions, one each, in some order. -/
def Delete (requests : List (Header × UDPAddr)) (theirs : HandlerSession → Prop) : Prop :=
  (requests.map (·.1.seid)).Nodup ∧
    ∀ seid, seid ∈ requests.map (·.1.seid) ↔
      ∃ sess, a.handler.sessions.lookup seid = some sess ∧ theirs sess

/-- What an anchor has of a session: its record, its entry in the index, its dataplane session and
buffer, the reverse keys of its PDRs and its DS-TT port. -/
structure Untouched (a' : Anchor) (seid : UInt64) (sess : HandlerSession) : Prop where
  session : a'.handler.sessions.lookup seid = some sess
  index : a'.handler.byIMSI sess.key = a.handler.byIMSI sess.key
  dataplane : a'.handler.dp.sessions sess.key.dpKey = a.handler.dp.sessions sess.key.dpKey
  pending : a'.handler.dp.pending sess.key = a.handler.dp.pending sess.key
  teids : ∀ t ∈ sess.teids, a'.handler.dp.teids t = a.handler.dp.teids t
  ueips : ∀ t ∈ sess.ueips, a'.handler.dp.ueips t = a.handler.dp.ueips t
  port : a'.nwtt.dsttBySession.lookup sess.key = a.nwtt.dsttBySession.lookup sess.key

/-- The sessions of the peer go, those of the others stay, and the anchor is as after a deletion of
each. -/
structure ReleasedAsDeleted : Prop where
  gone : ∀ seid sess, a.handler.sessions.lookup seid = some sess → sess.peer = peer →
    (a.handleAssociationRelease codec hdr payload peer).1.handler.sessions.lookup seid = none
  others : ∀ seid sess, a.handler.sessions.lookup seid = some sess → sess.peer ≠ peer →
    a.Untouched (a.handleAssociationRelease codec hdr payload peer).1 seid sess
  deletions : ∀ requests, a.Delete requests (·.peer = peer) →
    (a.handleAssociationRelease codec hdr payload peer).1 = a.deleteAll requests

/-- Two sessions have a key of the handler, the dataplane or a reverse map in common. -/
def Shares (sess sess' : HandlerSession) : Prop :=
  sess.key.dpKey = sess'.key.dpKey ∨ (∃ t ∈ sess.teids, t ∈ sess'.teids) ∨
    ∃ t ∈ sess.ueips, t ∈ sess'.ueips

/-- The sessions from the address of the peer go, those from another address that share no key with
one of them stay, and the handler and the dataplane are as after a deletion of each. -/
structure ReleasedByAddress : Prop where
  gone : ∀ seid sess, a.handler.sessions.lookup seid = some sess → sess.peer.ip = peer.ip →
    (a.handleAssociationRelease codec hdr payload peer).1.handler.sessions.lookup seid = none
  record : ∀ seid sess, a.handler.sessions.lookup seid = some sess → sess.peer.ip ≠ peer.ip →
    (a.handleAssociationRelease codec hdr payload peer).1.handler.sessions.lookup seid = some sess
  others : ∀ seid sess, a.handler.sessions.lookup seid = some sess → sess.peer.ip ≠ peer.ip →
    (∀ seid' sess', a.handler.sessions.lookup seid' = some sess' → sess'.peer.ip = peer.ip →
      ¬ Shares sess sess') →
    a.Untouched (a.handleAssociationRelease codec hdr payload peer).1 seid sess
  deletions : ∀ requests, a.Delete requests (·.peer.ip = peer.ip) →
    (a.handleAssociationRelease codec hdr payload peer).1.handler = (a.deleteAll requests).handler

/-! ## Deletions one by one -/

variable {codec} {a : Anchor} {payload}

theorem handleSessionDeletion_handler :
    (a.handleSessionDeletion hdr peer).1.handler =
      match a.handler.sessions.lookup hdr.seid with
      | none => a.handler
      | some sess => a.handler.removeSession hdr.seid sess := by
  unfold handleSessionDeletion Handler.handleSessionDeletion
  cases a.handler.sessions.lookup hdr.seid <;> rfl

/-- The session a SEID stands for, as the handler lists it. -/
def listed (h : Handler) (seid : UInt64) : Option ((_ : UInt64) × HandlerSession) :=
  (h.sessions.lookup seid).map fun sess => ⟨seid, sess⟩

variable {h : Handler} {sess : HandlerSession} {requests : List (Header × UDPAddr)}
  {vs : List ((_ : UInt64) × HandlerSession)}

theorem listed_removeSession {seid seid' : UInt64} (hne : seid' ≠ seid) :
    listed (h.removeSession seid sess) seid' = listed h seid' := by
  unfold listed
  change ((h.sessions.erase seid).lookup seid').map _ = _
  rw [AList.lookup_erase_ne hne]

/-- Requests for SEIDs of their own remove the sessions the SEIDs stood for at the start. -/
theorem deleteAll_handler (hnodup : (requests.map (·.1.seid)).Nodup) :
    (a.deleteAll requests).handler =
      ((requests.map (·.1.seid)).filterMap (listed a.handler)).foldl
        (fun h v => h.removeSession v.1 v.2) a.handler := by
  induction requests generalizing a with
  | nil => rfl
  | cons r requests ih =>
    have hcons := nodup_cons.1 hnodup
    have hrest := ih (a := (a.handleSessionDeletion r.1 r.2).1) hcons.2
    have hstep := handleSessionDeletion_handler (a := a) r.1 r.2
    change ((a.handleSessionDeletion r.1 r.2).1.deleteAll requests).handler = _
    rw [hrest, hstep, map_cons]
    cases hs : a.handler.sessions.lookup r.1.seid with
    | none =>
      simp_all [listed]
    | some sess =>
      have hl : listed a.handler r.1.seid = some ⟨r.1.seid, sess⟩ := by
        rw [listed, hs, map_some]
      have hlater : (requests.map (·.1.seid)).filterMap
          (listed (a.handler.removeSession r.1.seid sess)) =
          (requests.map (·.1.seid)).filterMap (listed a.handler) :=
        filterMap_congr fun seid hseid =>
          listed_removeSession fun heq => hcons.1 (show r.1.seid ∈ _ from heq ▸ hseid)
      rw [filterMap_cons_some hl, foldl_cons]
      rw [hlater]

/-! ## The release -/

theorem handleAssociationRelease_handler (hdec : codec.associationRelease payload = some ()) :
    (a.handleAssociationRelease codec hdr payload peer).1.handler =
      (a.handler.victims peer).foldl (fun h v => h.removeSession v.1 v.2) a.handler := by
  unfold handleAssociationRelease Handler.handleAssociationRelease
  rw [hdec]
  exact release_eq ..

theorem mem_victims_seids {seid : UInt64} : seid ∈ (h.victims peer).map (·.1) ↔
      ∃ sess, h.sessions.lookup seid = some sess ∧ sess.peer.ip = peer.ip := by
  constructor
  · intro hmem
    obtain ⟨v, hv, rfl⟩ := mem_map.1 hmem
    obtain ⟨hin, hip⟩ := mem_filter.1 hv
    exact ⟨v.2, mem_entries_iff.1 hin, beq_iff_eq.1 hip⟩
  · rintro ⟨sess, hs, hip⟩
    refine mem_map.2 ⟨⟨seid, sess⟩, mem_filter.2 ⟨?_, beq_iff_eq.2 hip⟩, rfl⟩
    exact mem_entries_iff.2 hs

theorem filterMap_listed_victims (h : Handler) :
    ((h.victims peer).map (·.1)).filterMap (listed h) = h.victims peer := by
  rw [filterMap_map]
  have hsome : ∀ v ∈ h.victims peer, (listed h ∘ Sigma.fst) v = some v := by
    intro v hv
    have hs := (removable_victims h peer).live v hv
    rw [comp_apply, listed, hs, map_some]
  rw [filterMap_congr hsome, filterMap_some]

/-- The deletions remove the same sessions as the release, in another order. -/
theorem release_eq_deleteAll (hdec : codec.associationRelease payload = some ())
    (hreq : a.Delete requests (·.peer.ip = peer.ip)) :
    (a.handleAssociationRelease codec hdr payload peer).1.handler =
      (a.deleteAll requests).handler := by
  obtain ⟨hnodup, hmem⟩ := hreq
  have hvictims := (removable_victims a.handler peer).distinct
  have hperm : (requests.map (·.1.seid)).Perm ((a.handler.victims peer).map (·.1)) :=
    (perm_ext_iff_of_nodup hnodup hvictims).2 fun seid =>
      (hmem seid).trans (mem_victims_seids peer).symm
  have hsessions := hperm.filterMap (listed a.handler)
  rw [filterMap_listed_victims] at hsessions
  rw [handleAssociationRelease_handler hdr peer hdec, deleteAll_handler hnodup]
  exact (hsessions.foldl_eq a.handler).symm

/-- What no removal changes is as it was. -/
theorem foldl_removeSession_keeps {γ : Type} (f : Handler → γ)
    (hf : ∀ v ∈ vs, ∀ h : Handler, f (h.removeSession v.1 v.2) = f h) (h : Handler) :
    f (vs.foldl (fun h v => h.removeSession v.1 v.2) h) = f h := by
  induction vs generalizing h with
  | nil => rfl
  | cons v vs ih =>
    simp_all

theorem lookup_removed (seid : UInt64) :
    (vs.foldl (fun h v => h.removeSession v.1 v.2) h).sessions.lookup seid =
      if seid ∈ vs.map (·.1) then none else h.sessions.lookup seid := by
  induction vs generalizing h with
  | nil => simp
  | cons v vs ih =>
    rw [foldl_cons, ih]
    change (if seid ∈ vs.map (·.1) then none else (h.sessions.erase v.1).lookup seid) = _
    rw [lookup_erase_eq, map_cons]
    by_cases hseid : seid = v.1
    · simp [hseid]
    · simp only [mem_cons, hseid, if_false, false_or]

/-- The removal of a session that shares no key leaves everything else of a session. -/
theorem untouched_fields (v : (_ : UInt64) × HandlerSession) (hv : ¬ Shares sess v.2) :
    (h.removeSession v.1 v.2).byIMSI sess.key = h.byIMSI sess.key ∧
    (h.removeSession v.1 v.2).dp.sessions sess.key.dpKey = h.dp.sessions sess.key.dpKey ∧
    (h.removeSession v.1 v.2).dp.pending sess.key = h.dp.pending sess.key ∧
    (∀ t ∈ sess.teids, (h.removeSession v.1 v.2).dp.teids t = h.dp.teids t) ∧
    ∀ t ∈ sess.ueips, (h.removeSession v.1 v.2).dp.ueips t = h.dp.ueips t := by
  have hdk : sess.key.dpKey ≠ v.2.key.dpKey := fun heq => hv (inl heq)
  have hkey : sess.key ≠ v.2.key := fun heq => hdk (congrArg ImsiPduKey.dpKey heq)
  have hother := tearDownSession_other h.dp v.2 hdk
  refine ⟨?_, hother.1, hother.2, fun t ht => ?_, fun t ht => ?_⟩
  · unfold removeSession dropSession
    dsimp only
    split
    · rfl
    · rw [update_of_ne hkey]
  · have hnot : t ∉ v.2.teids := fun hin => hv (inr (inl ⟨t, ht, hin⟩))
    exact (tearDownSession_teids h.dp v.2 t).trans (if_neg hnot)
  · have hnot : t ∉ v.2.ueips := fun hin => hv (inr (inr ⟨t, ht, hin⟩))
    exact (tearDownSession_ueips h.dp v.2 t).trans (if_neg hnot)

/-- An Association Release tears down the sessions from the address of the peer, like deletions of
each in any order, and leaves the others alone. -/
theorem association_release (codec : Codec) (a : Anchor) (hdr : Header) (payload : List UInt8)
    (peer : UDPAddr) (hdec : codec.associationRelease payload = some ()) :
    a.ReleasedByAddress codec hdr payload peer := by
  have hrel := handleAssociationRelease_handler (a := a) hdr peer hdec
  have hrecord : ∀ seid sess, a.handler.sessions.lookup seid = some sess →
      sess.peer.ip ≠ peer.ip → seid ∉ (a.handler.victims peer).map (·.1) := by
    intro seid sess hs hip hmem
    obtain ⟨sess', hs', hip'⟩ := (mem_victims_seids peer).1 hmem
    rw [hs] at hs'
    cases hs'
    exact hip hip'
  constructor
  · simp_all [lookup_removed, mem_victims_seids]
  · simp_all [lookup_removed]
  · intro seid sess hs hip happart
    have hfields : ∀ v ∈ a.handler.victims peer, ¬ Shares sess v.2 := by
      intro v hv
      have hlive := (removable_victims a.handler peer).live v hv
      exact happart v.1 v.2 hlive (beq_iff_eq.1 (mem_filter.1 hv).2)
    constructor
    · rw [hrel, lookup_removed, if_neg (hrecord seid sess hs hip), hs]
    · rw [hrel]
      exact foldl_removeSession_keeps (fun h => h.byIMSI sess.key)
        (fun v hv h => (untouched_fields v (hfields v hv)).1) a.handler
    · rw [hrel]
      exact foldl_removeSession_keeps (fun h => h.dp.sessions sess.key.dpKey)
        (fun v hv h => (untouched_fields v (hfields v hv)).2.1) a.handler
    · rw [hrel]
      exact foldl_removeSession_keeps (fun h => h.dp.pending sess.key)
        (fun v hv h => (untouched_fields v (hfields v hv)).2.2.1) a.handler
    · intro t ht
      rw [hrel]
      exact foldl_removeSession_keeps (fun h => h.dp.teids t)
        (fun v hv h => (untouched_fields v (hfields v hv)).2.2.2.1 t ht) a.handler
    · intro t ht
      rw [hrel]
      exact foldl_removeSession_keeps (fun h => h.dp.ueips t)
        (fun v hv h => (untouched_fields v (hfields v hv)).2.2.2.2 t ht) a.handler
    · rfl
  · intro requests hreq
    exact release_eq_deleteAll hdr peer hdec hreq

/-! ## One session -/

/-- A Node ID, an IPv4 address. -/
def releasePayload : List UInt8 := ie 60 [0, 127, 0, 0, 1]

def releaseCodec : Codec :=
  { sampleCodec with
    associationRelease := fun payload => if payload = releasePayload then some () else none }

def releaseHeader : Header := sampleHeader messageTypeAssociationReleaseRequest 0

/-- An anchor after one more establishment of the session. -/
def establishedFrom (a : Anchor) (peer : UDPAddr) (createBridgeInfo : Option (List UInt8)) :
    Anchor :=
  (a.handleSessionEstablishment releaseCodec DpEnv.roomy
    (sampleHeader messageTypeSessionEstablishmentRequest 0) establishmentPayload peer
    createBridgeInfo).1

theorem association_release_one :
    (establishedFrom (newAnchor 1) samplePeer (some [1])).ReleasedByAddress releaseCodec
      releaseHeader releasePayload samplePeer :=
  association_release releaseCodec _ releaseHeader releasePayload samplePeer (by decide)

/-- The record that an establishment from the peer leaves, under its SEID. -/
theorem sessions_established (peer : UDPAddr) (createBridgeInfo : Option (List UInt8)) :
    (establishedFrom (newAnchor 1) peer createBridgeInfo).handler.sessions =
      (∅ : AssocMap UInt64 HandlerSession).assign 0x20000002
        (newHandler.newSession sampleEstablishment peer) := by
  have hdec : releaseCodec.establishment establishmentPayload = some sampleEstablishment := by
    decide
  unfold establishedFrom handleSessionEstablishment Handler.handleSessionEstablishment
  simp only [hdec]
  split <;> rfl

/-- A release leaves the DS-TT port that a deletion frees; it takes the session of a peer at the
same address and another port; and it takes the index entry of a session that another address
established for the same key. -/
theorem release_is_not_deletions :
    ¬ (establishedFrom (newAnchor 1) samplePeer (some [1])).ReleasedAsDeleted releaseCodec
        releaseHeader releasePayload samplePeer ∧
    ¬ (establishedFrom (newAnchor 1) samplePeer none).ReleasedAsDeleted releaseCodec
        releaseHeader releasePayload { samplePeer with port := 8806 } ∧
    ¬ (establishedFrom (establishedFrom (newAnchor 1) samplePeer none)
        { samplePeer with ip := [127, 0, 0, 2] } none).ReleasedAsDeleted releaseCodec
        releaseHeader releasePayload samplePeer := by
  refine ⟨fun hrel => ?_, fun hrel => ?_, fun hrel => ?_⟩
  · let requests := [(sampleHeader messageTypeSessionDeletionRequest 0x20000002, samplePeer)]
    have hdel : (establishedFrom (newAnchor 1) samplePeer (some [1])).Delete requests
        (·.peer = samplePeer) := by
      refine ⟨by decide, fun seid => ?_⟩
      rw [sessions_established, lookup_assign_eq]
      constructor
      · intro hmem
        rw [mem_singleton.1 hmem]
        exact ⟨_, if_pos rfl, rfl⟩
      · rintro ⟨sess, hs, -⟩
        split at hs
        case isTrue heq => exact mem_singleton.2 heq
        case isFalse => cases hs
    have hport := congrArg (fun a => a.nwtt.dsttBySession.lookup sampleEstablishment.key)
      (hrel.deletions requests hdel)
    exact absurd hport (by decide)
  · have hs : (establishedFrom (newAnchor 1) samplePeer none).handler.sessions.lookup 0x20000002 =
        some (newHandler.newSession sampleEstablishment samplePeer) := by
      rw [sessions_established, lookup_assign]
    exact absurd (hrel.others _ _ hs (by decide)).session (by decide)
  · have hs : (establishedFrom (establishedFrom (newAnchor 1) samplePeer none)
        { samplePeer with ip := [127, 0, 0, 2] } none).handler.sessions.lookup 0x20000003 =
        some { newHandler.newSession sampleEstablishment { samplePeer with ip := [127, 0, 0, 2] } with
          upSEID := 0x20000003 } := by decide
    exact absurd (hrel.others _ _ hs (by decide)).index (by decide)

end Anchor

end MmtCore.Pfcp
