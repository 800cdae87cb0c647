import MmtCore.Pfcp.KeyLedger
import MmtCore.Pfcp.SessionIndex

/-!
# The keys of the PDRs of a session

`carryCreate`, `carryUpdate` and `carryRemove` are what the IEs of a request say about the keys that
the PDRs of a session carry.  The handler follows them, and its ledger stays right, as long as each
IE meets its condition when its turn comes.
-/

namespace MmtCore.Pfcp

open MmtCore.Lib MmtCore.Upf Function List Option HandlerSession Dataplane RuleSlots

/-! ## What the requests say -/

/-- The PDRs of a session, with the keys they carry. -/
abbrev Carried := UInt16 → Option PDRReverseKey

def PDI.keys (pdi : PDI) : PDRReverseKey := ⟨pdi.teid, pdi.ueIPv4⟩

def carryCreate (c : Carried) (pdr : CreatePDR) : Carried :=
  update c pdr.pdrID (some pdr.pdi.keys)

/-- An update with a PDI replaces the keys of a PDR the session has. -/
def carryUpdate (c : Carried) (up : UpdatePDR) : Carried :=
  match c up.pdrID, up.pdi with
  | some _, some pdi => update c up.pdrID (some pdi.keys)
  | _, _ => c

def carryRemove (c : Carried) (pdrID : UInt16) : Carried := update c pdrID none

def carryModification (c : Carried) (req : SessionModificationRequest) : Carried :=
  run carryRemove (run carryUpdate (run carryCreate c req.createPDR) req.updatePDR) req.removePDR

/-! ## The ledger of a session -/

/-- Both maps list for the session what its PDRs hold, which is what they carry. -/
structure SessionLedger (k : SessionKey) (dp₀ : Dataplane) (teids ueips : ReverseIndex)
    (c : Carried) (sess : HandlerSession) : Prop where
  teids : KeyLedger dp₀.teids teids k sess.heldTEID
  ueips : KeyLedger dp₀.ueips ueips k sess.heldUEIP
  carried : sess.keys = c

namespace SessionLedger

variable {k : SessionKey} {dp₀ : Dataplane} {teids ueips : ReverseIndex} {c : Carried}
  {sess sess' : HandlerSession}

section

variable (h : SessionLedger k dp₀ teids ueips c sess)
include h

theorem congr (hkeys : sess'.keys = sess.keys) : SessionLedger k dp₀ teids ueips c sess' where
  teids := by
    rw [heldTEID, hkeys]
    exact h.teids
  ueips := by
    rw [heldUEIP, hkeys]
    exact h.ueips
  carried := hkeys.trans h.carried

theorem create (id : UInt16) (key : PDRReverseKey)
    (hteid : ∀ t, nonzero key.teid = some t → teids t = some k ∨ teids t = none)
    (hueip : ∀ t, nonzero key.ueip = some t → ueips t = some k ∨ ueips t = none)
    (hrt : KeyReplaceable sess.heldTEID id key.teid)
    (hru : KeyReplaceable sess.heldUEIP id key.ueip) :
    SessionLedger k dp₀ (register teids (nonzero key.teid) k) (register ueips (nonzero key.ueip) k)
      (update c id (some key))
      { sess with pdrKeys := sess.pdrKeys.assign id key } where
  teids := by
    rw [heldTEID, keys_assign, heldIn_update]
    exact h.teids.create hteid hrt
  ueips := by
    rw [heldUEIP, keys_assign, heldIn_update]
    exact h.ueips.create hueip hru
  carried := by rw [keys_assign, h.carried]

theorem remove {id : UInt16} {key : PDRReverseKey}
    (hkey : sess.keys id = some key) (hot : KeyOwn sess.heldTEID id)
    (hou : KeyOwn sess.heldUEIP id) :
    SessionLedger k dp₀ (unregister teids (nonzero key.teid)) (unregister ueips (nonzero key.ueip))
      (update c id none) { sess with pdrKeys := sess.pdrKeys.erase id } where
  teids := by
    have hheld : sess.heldTEID id = nonzero key.teid := by
      rw [heldTEID, heldIn, hkey, bind_some]
    rw [heldTEID, keys_erase, heldIn_update, ← hheld]
    exact h.teids.giveUp hot
  ueips := by
    have hheld : sess.heldUEIP id = nonzero key.ueip := by
      rw [heldUEIP, heldIn, hkey, bind_some]
    rw [heldUEIP, keys_erase, heldIn_update, ← hheld]
    exact h.ueips.giveUp hou
  carried := by rw [keys_erase, h.carried]

end

end SessionLedger

/-- The PDR keeps its key, or gives up one of its own for a free one. -/
def KeyRebindable (idx : ReverseIndex) (room : UInt32 → Bool) (k : SessionKey)
    (held : UInt16 → Option UInt32) (id : UInt16) (key : UInt32) : Prop :=
  held id = nonzero key ∨ (KeyOwn held id ∧ KeyFree idx room k key)

variable {room : UInt32 → Bool} {k : SessionKey} {held : UInt16 → Option UInt32} {id : UInt16}

theorem KeyRebindable.free {idx : ReverseIndex} {old key : UInt32}
    (hr : KeyRebindable idx room k held id key) (hold : held id = nonzero old) (hne : old ≠ key) :
    KeyFree (unregister idx (nonzero old)) room k key := by
  intro t ht
  have hold' : nonzero old ≠ some t := by
    intro ho
    rw [nonzero_eq_some_iff] at ho ht
    exact hne (ho.1.trans ht.1.symm)
  have hsame : unregister idx (nonzero old) t = idx t := by
    cases ho : nonzero old with
    | none => rfl
    | some o =>
      rw [ho] at hold'
      exact update_of_ne (fun hto => hold' (by rw [hto])) _ _
  rw [hsame]
  obtain hkeep | ⟨-, hfree⟩ := hr
  · rw [hold, ht] at hkeep
    exact absurd hkeep hold'
  · exact hfree t ht

/-- A reverse map after the rebinding of a key. -/
def rebound (idx : ReverseIndex) (k : SessionKey) (old key : UInt32) : ReverseIndex :=
  if old = key then idx else register (unregister idx (nonzero old)) (nonzero key) k

theorem KeyLedger.rebound {idx₀ idx : ReverseIndex} {old key : UInt32}
    (h : KeyLedger idx₀ idx k held) (hold : held id = nonzero old)
    (hr : KeyRebindable idx room k held id key) :
    KeyLedger idx₀ (rebound idx k old key) k (update held id (nonzero key)) := by
  unfold Pfcp.rebound
  by_cases heq : old = key
  · rw [if_pos heq, ← heq, ← hold, update_eq_self]
    exact h
  · rw [if_neg heq, ← hold]
    have hne : ∀ t, held id = some t → nonzero key ≠ some t := by
      intro t ht hk
      rw [hold, nonzero_eq_some_iff] at ht
      rw [nonzero_eq_some_iff] at hk
      exact heq (ht.1.trans hk.1.symm)
    obtain hsame | ⟨hown, hfree⟩ := hr
    · rw [hold] at hsame
      have hnone : nonzero old = none := by
        cases ho : nonzero old with
        | none => rfl
        | some t => exact absurd (hsame ▸ ho) (hne t (hold.trans ho))
      have hkeynone : nonzero key = none := hsame ▸ hnone
      rw [hold, hnone, hkeynone]
      have hnop : update held id none = held := by
        rw [← hnone, ← hold, update_eq_self]
      rw [hnop]
      exact h
    · exact h.rebind hown (fun t ht => (hfree t ht).imp_right And.left) hne

theorem SessionLedger.rebind {dp₀ : Dataplane} {teids ueips : ReverseIndex} {c : Carried}
    {sess : HandlerSession} {roomT roomU : UInt32 → Bool}
    (h : SessionLedger k dp₀ teids ueips c sess) (id : UInt16) {old : PDRReverseKey}
    (key : PDRReverseKey) (hkey : sess.keys id = some old)
    (hrt : KeyRebindable teids roomT k sess.heldTEID id key.teid)
    (hru : KeyRebindable ueips roomU k sess.heldUEIP id key.ueip) :
    SessionLedger k dp₀ (rebound teids k old.teid key.teid) (rebound ueips k old.ueip key.ueip)
      (update c id (some key)) { sess with pdrKeys := sess.pdrKeys.assign id key } where
  teids := by
    rw [heldTEID, keys_assign, heldIn_update]
    refine h.teids.rebound ?_ hrt
    rw [heldTEID, heldIn, hkey, bind_some]
  ueips := by
    rw [heldUEIP, keys_assign, heldIn_update]
    refine h.ueips.rebound ?_ hru
    rw [heldUEIP, heldIn, hkey, bind_some]
  carried := by rw [keys_assign, h.carried]

/-! ## The IEs -/

namespace Work

variable {env : DpEnv} {k : ImsiPduKey} {dp₀ : Dataplane} {c : Carried} {w w' : Work}

/-- The session at hand has its ledger in the dataplane, and nothing is buffered. -/
structure Ledger (k : ImsiPduKey) (dp₀ : Dataplane) (c : Carried) (w : Work) : Prop where
  sess : ∃ sess, w.sess = some sess ∧
    SessionLedger k.dpKey dp₀ w.dp.teids w.dp.ueips c sess
  pending : w.dp.pending = dp₀.pending
  idle : dp₀.pending k = none

section

variable (h : w.Ledger k dp₀ c)
include h

theorem Ledger.pending_none : w.dp.pending k = none := by
  rw [h.pending, h.idle]

theorem Ledger.congr (hdp : Dataplane.SameTables w.dp w'.dp)
    (hkeys : ∀ sess, w.sess = some sess → ∃ sess', w'.sess = some sess' ∧ sess'.keys = sess.keys) :
    w'.Ledger k dp₀ c := by
  obtain ⟨sess, hs, hl⟩ := h.sess
  obtain ⟨sess', hs', hkeys'⟩ := hkeys sess hs
  refine ⟨⟨sess', hs', ?_⟩, hdp.pending.trans h.pending, h.idle⟩
  rw [hdp.teids, hdp.ueips]
  exact hl.congr hkeys'

/-- A call that reaches the C session only. -/
theorem Ledger.hook (f : DpSession → Option DpSession) :
    (w.hook (w.dp.onSession k f)).Ledger k dp₀ c :=
  h.congr (onSession_getD_sameTables f) fun sess hs => ⟨sess, hs, rfl⟩

theorem Ledger.createFAR (far : CreateFAR) : (w.applyCreateFARToHook k far).Ledger k dp₀ c := by
  unfold applyCreateFARToHook addFAR
  rw [buffered_none h.pending_none]
  exact h.hook _

theorem Ledger.createQER (qer : CreateQER) : (w.applyCreateQERToHook k qer).Ledger k dp₀ c := by
  unfold applyCreateQERToHook addQER
  rw [buffered_none h.pending_none]
  exact h.hook _

theorem Ledger.createURR (urr : CreateURR) : (w.applyCreateURRToHook k urr).Ledger k dp₀ c := by
  unfold applyCreateURRToHook addURR
  rw [buffered_none h.pending_none]
  split
  case h_1 => exact h
  case h_2 dp hdp =>
    refine h.congr (onSession_sameTables hdp) fun sess hs => ?_
    exact ⟨{ sess with urrIDs := sess.urrIDs ++ [urr.urrID] }, by simp [hs], rfl⟩

theorem Ledger.updateFAR (uf : UpdateFAR) : (w.applyUpdateFARToHook k uf).Ledger k dp₀ c := by
  unfold applyUpdateFARToHook
  split <;> exact h.hook _

theorem Ledger.updateURR (uu : UpdateURR) : (w.applyUpdateURRToHook k uu).Ledger k dp₀ c := h.hook _

theorem Ledger.updateQER (uq : UpdateQER) : (w.applyUpdateQERToHook k uq).Ledger k dp₀ c := h.hook _

theorem Ledger.removeFAR (farID : UInt32) :
    (w.applyRemoveFARToHook k farID).Ledger k dp₀ c := h.hook _

theorem Ledger.removeQER (qerID : UInt32) :
    (w.applyRemoveQERToHook k qerID).Ledger k dp₀ c := h.hook _

theorem Ledger.removeURR (urrID : UInt32) : (w.applyRemoveURRToHook k urrID).Ledger k dp₀ c := by
  refine h.congr (onSession_getD_sameTables _) fun sess hs => ?_
  exact ⟨{ sess with urrIDs := sess.urrIDs.erase urrID }, by simp [applyRemoveURRToHook, hs], rfl⟩

end

/-! ### Registration -/

variable {dp : Dataplane} {key : UInt32} {pdr : CreatePDR} {held : UInt16 → Option UInt32}
  {id : UInt16} {sess : HandlerSession}

theorem registerKey_teid (hp : dp.pending k = none)
    (hfree : KeyFree dp.teids env.teidRoom k.dpKey key) :
    registerKey (dp.registerTEID env k key) dp key =
      ({ dp with teids := register dp.teids (nonzero key) k.dpKey }, key) := by
  unfold registerKey
  by_cases h0 : key = 0
  · subst h0
    rfl
  · have hkey : nonzero key = some key := if_neg h0
    have hroom : ((dp.teids key).isSome || env.teidRoom key) = true := by
      obtain hk | ⟨-, hr⟩ := hfree key hkey
      · rw [hk]
        rfl
      · rw [hr, Bool.or_true]
    rw [if_neg (by simpa using h0), registerTEID, buffered_none hp,
      upfDpRegisterTeid, if_pos (by simpa using hroom), hkey]
    rfl

theorem registerKey_ueip (hp : dp.pending k = none)
    (hfree : KeyFree dp.ueips env.ueipRoom k.dpKey key) :
    registerKey (dp.registerUEIP env k key) dp key =
      ({ dp with ueips := register dp.ueips (nonzero key) k.dpKey }, key) := by
  unfold registerKey
  by_cases h0 : key = 0
  · subst h0
    rfl
  · have hkey : nonzero key = some key := if_neg h0
    have hroom : ((dp.ueips key).isSome || env.ueipRoom key) = true := by
      obtain hk | ⟨-, hr⟩ := hfree key hkey
      · rw [hk]
        rfl
      · rw [hr, Bool.or_true]
    rw [if_neg (by simpa using h0), registerUEIP, buffered_none hp,
      upfDpRegisterUeip, if_pos (by simpa using hroom), hkey]
    rfl

/-! ### PDRs -/

/-- The keys of a created PDR are free, and its id is new or gives up nothing. -/
structure KeysOk (env : DpEnv) (k : ImsiPduKey) (w : Work) (pdr : CreatePDR) : Prop where
  teid : KeyFree w.dp.teids env.teidRoom k.dpKey pdr.pdi.teid
  ueip : KeyFree w.dp.ueips env.ueipRoom k.dpKey pdr.pdi.ueIPv4
  replaced : ∀ sess, w.sess = some sess →
    KeyReplaceable sess.heldTEID pdr.pdrID pdr.pdi.teid ∧
    KeyReplaceable sess.heldUEIP pdr.pdrID pdr.pdi.ueIPv4

/-- A PDR can be created in a session that is there: its array has a slot. -/
structure CreateOk (env : DpEnv) (k : ImsiPduKey) (w : Work) (pdr : CreatePDR) : Prop where
  keys : w.KeysOk env k pdr
  slot : ∃ sess, w.dp.sessions k.dpKey = some sess ∧ sess.pdrs.HasRoom 16 pdr.pdrID

/-- The dataplane has a slot of the id exactly when the session has the PDR, and its keys can be
rebound. -/
structure UpdateOk (env : DpEnv) (k : ImsiPduKey) (w : Work) (up : UpdatePDR) : Prop where
  slot : ∃ dpSess, w.dp.sessions k.dpKey = some dpSess ∧
    ∀ sess, w.sess = some sess → (up.pdrID ∈ dpSess.pdrs.ids ↔ (sess.keys up.pdrID).isSome = true)
  keys : ∀ sess pdi, w.sess = some sess → (sess.keys up.pdrID).isSome = true →
    up.pdi = some pdi →
    KeyRebindable w.dp.teids env.teidRoom k.dpKey sess.heldTEID up.pdrID pdi.teid ∧
    KeyRebindable w.dp.ueips env.ueipRoom k.dpKey sess.heldUEIP up.pdrID pdi.ueIPv4

/-- No other PDR holds the keys of the one that is removed. -/
def RemoveOk (w : Work) (pdrID : UInt16) : Prop :=
  ∀ sess, w.sess = some sess → KeyOwn sess.heldTEID pdrID ∧ KeyOwn sess.heldUEIP pdrID

theorem Ledger.createPDR (h : w.Ledger k dp₀ c) (hok : w.CreateOk env k pdr) :
    (w.applyCreatePDRToHook env k pdr).Ledger k dp₀ (carryCreate c pdr) := by
  obtain ⟨sess, hs, hl⟩ := h.sess
  obtain ⟨dpSess, hds, hroom⟩ := hok.slot
  obtain ⟨slots, hadd⟩ := add_of_hasRoom pdr.rule hroom
  obtain ⟨hrt, hru⟩ := hok.keys.replaced sess hs
  unfold applyCreatePDRToHook addPDR
  rw [buffered_none h.pending_none]
  cases hcall : w.dp.upfDpAddPdr k pdr.pdrID pdr.rule with
  | none =>
    simp_all [Dataplane.upfDpAddPdr, onSession]
  | some dp =>
    have hsame : Dataplane.SameTables w.dp dp := onSession_sameTables hcall
    have hfu : KeyFree dp.ueips env.ueipRoom k.dpKey pdr.pdi.ueIPv4 := by
      rw [hsame.ueips]
      exact hok.keys.ueip
    have hpn : dp.pending k = none := by rw [hsame.pending, h.pending_none]
    dsimp only
    rw [registerKey_ueip hpn hfu]
    have hft : KeyFree dp.teids env.teidRoom k.dpKey pdr.pdi.teid := by
      rw [hsame.teids]
      exact hok.keys.teid
    let named : Dataplane :=
      { dp with ueips := register dp.ueips (nonzero pdr.pdi.ueIPv4) k.dpKey }
    have hreg := registerKey_teid (k := k) (show named.pending k = none from hpn)
      (show KeyFree named.teids env.teidRoom k.dpKey pdr.pdi.teid from hft)
    rw [hreg]
    let sess' : HandlerSession :=
      { sess with pdrKeys := sess.pdrKeys.assign pdr.pdrID pdr.pdi.keys }
    refine ⟨⟨sess', by simp [hs, sess', PDI.keys], ?_⟩, hsame.pending.trans h.pending, h.idle⟩
    dsimp only [named]
    rw [hsame.teids, hsame.ueips]
    exact hl.create pdr.pdrID pdr.pdi.keys (fun t ht => (hok.keys.teid t ht).imp_right And.left)
      (fun t ht => (hok.keys.ueip t ht).imp_right And.left) hrt hru

theorem unregisterTEID_nonzero (dp : Dataplane) (old : UInt32) :
    (if old == 0 then dp else dp.unregisterTEID old) =
      { dp with teids := unregister dp.teids (nonzero old) } := by
  by_cases h0 : old = 0
  · subst h0
    rfl
  · rw [if_neg (by simpa using h0), nonzero, if_neg h0]
    rfl

theorem unregisterUEIP_nonzero (dp : Dataplane) (old : UInt32) :
    (if old == 0 then dp else dp.unregisterUEIP old) =
      { dp with ueips := unregister dp.ueips (nonzero old) } := by
  by_cases h0 : old = 0
  · subst h0
    rfl
  · rw [if_neg (by simpa using h0), nonzero, if_neg h0]
    rfl

section

variable {old : UInt32} (hp : dp.pending k = none) (hold : held id = nonzero old)
include hold hp

theorem rebindTEID_eq (hr : KeyRebindable dp.teids env.teidRoom k.dpKey held id key) :
    rebindTEID env k dp old key = ({ dp with teids := rebound dp.teids k.dpKey old key }, key) := by
  unfold rebindTEID rebound
  by_cases heq : old = key
  · rw [if_pos (by simpa using heq), if_pos heq, heq]
  · rw [if_neg (by simpa using heq), if_neg heq, unregisterTEID_nonzero]
    exact registerKey_teid hp (hr.free hold heq)

theorem rebindUEIP_eq (hr : KeyRebindable dp.ueips env.ueipRoom k.dpKey held id key) :
    rebindUEIP env k dp old key = ({ dp with ueips := rebound dp.ueips k.dpKey old key }, key) := by
  unfold rebindUEIP rebound
  by_cases heq : old = key
  · rw [if_pos (by simpa using heq), if_pos heq, heq]
  · rw [if_neg (by simpa using heq), if_neg heq, unregisterUEIP_nonzero]
    exact registerKey_ueip hp (hr.free hold heq)

end

theorem Ledger.updatePDR (h : w.Ledger k dp₀ c) {up : UpdatePDR} (hok : w.UpdateOk env k up) :
    (w.applyUpdatePDRToHook env k up).Ledger k dp₀ (carryUpdate c up) := by
  obtain ⟨sess, hs, hl⟩ := h.sess
  obtain ⟨dpSess, hds, hslot⟩ := hok.slot
  have hany : (dpSess.pdrs.any fun s => s.id == up.pdrID) = decide (up.pdrID ∈ dpSess.pdrs.ids) := by
    rw [Bool.eq_iff_iff, List.any_eq_true, decide_eq_true_iff, RuleSlots.ids, List.mem_map]
    simp only [beq_iff_eq]
  have hcall : w.dp.upfDpUpdatePdr k up.pdrID up.rule =
      if up.pdrID ∈ dpSess.pdrs.ids then
        (dpSess.pdrs.add 16 up.pdrID up.rule).map fun pdrs =>
          { w.dp with
            sessions := update w.dp.sessions k.dpKey (some { dpSess with pdrs }) }
      else none := by
    unfold Dataplane.upfDpUpdatePdr Dataplane.onSession RuleSlots.update
    rw [hds]
    dsimp only
    rw [hany]
    by_cases hmem : up.pdrID ∈ dpSess.pdrs.ids
    · simp [hmem, comp_def]
    · simp [hmem]
  unfold applyUpdatePDRToHook
  rw [hcall]
  cases hkey : sess.keys up.pdrID with
  | none =>
    -- the session has no such PDR, and the dataplane no slot for it
    have hmem : up.pdrID ∉ dpSess.pdrs.ids := by
      rw [hslot sess hs, hkey]
      simp
    rw [if_neg hmem]
    have hc : carryUpdate c up = c := by
      unfold carryUpdate
      rw [← hl.carried, hkey]
    rw [hc]
    exact h
  | some old =>
    have hsome : (sess.keys up.pdrID).isSome = true := by rw [hkey, isSome_some]
    have hmem : up.pdrID ∈ dpSess.pdrs.ids := (hslot sess hs).2 hsome
    have hroom : dpSess.pdrs.HasRoom 16 up.pdrID := Or.inl hmem
    obtain ⟨slots, hadd⟩ := add_of_hasRoom up.rule hroom
    rw [if_pos hmem, hadd]
    have hlookup : sess.pdrKeys.lookup up.pdrID = some old := hkey
    dsimp only [map_some]
    rw [hs]
    dsimp only
    rw [hlookup]
    dsimp only [getD_some]
    have hc : c up.pdrID = some old := by rw [← hl.carried, hkey]
    cases hpdi : up.pdi with
    | none =>
      have hcarry : carryUpdate c up = c := by
        unfold carryUpdate
        rw [hc, hpdi]
      rw [hcarry]
      refine ⟨⟨_, rfl, hl.congr ?_⟩, h.pending, h.idle⟩
      rw [keys_assign, ← hkey, update_eq_self]
    | some pdi =>
      have hcarry : carryUpdate c up = update c up.pdrID (some pdi.keys) := by
        unfold carryUpdate
        rw [hc, hpdi]
      rw [hcarry]
      obtain ⟨hrt, hru⟩ := hok.keys sess pdi hs hsome hpdi
      let dp : Dataplane :=
        { w.dp with
          sessions := update w.dp.sessions k.dpKey (some { dpSess with pdrs := slots }) }
      have hht : sess.heldTEID up.pdrID = nonzero old.teid := by
        rw [heldTEID, heldIn, hkey, bind_some]
      have hhu : sess.heldUEIP up.pdrID = nonzero old.ueip := by
        rw [heldUEIP, heldIn, hkey, bind_some]
      have ht := rebindTEID_eq (show dp.pending k = none from h.pending_none) hht hrt
      dsimp only
      rw [ht]
      let dp' : Dataplane := { dp with teids := rebound dp.teids k.dpKey old.teid pdi.teid }
      have hu := rebindUEIP_eq (show dp'.pending k = none from h.pending_none) hhu hru
      rw [hu]
      exact ⟨⟨_, rfl, hl.rebind up.pdrID pdi.keys hkey hrt hru⟩, h.pending, h.idle⟩

theorem Ledger.removePDR (h : w.Ledger k dp₀ c) {pdrID : UInt16} (hok : w.RemoveOk pdrID) :
    (w.applyRemovePDRToHook k pdrID).Ledger k dp₀ (carryRemove c pdrID) := by
  obtain ⟨sess, hs, hl⟩ := h.sess
  obtain ⟨hot, hou⟩ := hok sess hs
  unfold applyRemovePDRToHook Dataplane.removePDR
  rw [hs]
  dsimp only
  cases hkey : sess.pdrKeys.lookup pdrID with
  | none =>
    have hc : carryRemove c pdrID = c := by
      rw [← hl.carried]
      exact update_eq_self_iff.2 hkey.symm
    rw [hc]
    exact h.hook _
  | some key =>
    dsimp only
    rw [unregisterTEID_nonzero, unregisterUEIP_nonzero]
    let dp : Dataplane :=
      { w.dp with
        teids := unregister w.dp.teids (nonzero key.teid)
        ueips := unregister w.dp.ueips (nonzero key.ueip) }
    have hsame : dp.SameTables ((dp.onSession k fun dpSess =>
        some { dpSess with pdrs := dpSess.pdrs.remove pdrID fun r => r }).getD dp) :=
      onSession_getD_sameTables _
    refine ⟨⟨_, rfl, ?_⟩, hsame.pending.trans h.pending, h.idle⟩
    rw [hsame.teids, hsame.ueips]
    exact hl.remove hkey hot hou

/-! ### Modifications -/

/-- The work when the PDRs of a request are created. -/
def beforeCreatePDR (k : ImsiPduKey) (w : Work) (fars : List CreateFAR) (urrs : List CreateURR)
    (qers : List CreateQER) : Work :=
  run (applyCreateQERToHook k) (run (applyCreateURRToHook k) (run (applyCreateFARToHook k) w fars)
    urrs) qers

/-- The work when the PDRs of a modification are updated. -/
def beforeUpdatePDR (env : DpEnv) (k : ImsiPduKey) (w : Work) (req : SessionModificationRequest) :
    Work :=
  run (applyUpdateFARToHook k)
    (w.applyCreates env k req.createFAR req.createURR req.createQER req.createPDR) req.updateFAR

/-- The work when the PDRs of a modification are removed. -/
def beforeRemovePDR (env : DpEnv) (k : ImsiPduKey) (w : Work) (req : SessionModificationRequest) :
    Work :=
  run (applyUpdateQERToHook k)
    (run (applyUpdateURRToHook k)
      (run (applyUpdatePDRToHook env k) (w.beforeUpdatePDR env k req) req.updatePDR)
      req.updateURR) req.updateQER

/-- Every IE of a modification that concerns a PDR meets its condition when its turn comes. -/
structure ModificationOk (env : DpEnv) (k : ImsiPduKey) (w : Work)
    (req : SessionModificationRequest) : Prop where
  creates : Meets (applyCreatePDRToHook env k) (CreateOk env k)
    (w.beforeCreatePDR k req.createFAR req.createURR req.createQER) req.createPDR
  updates : Meets (applyUpdatePDRToHook env k) (UpdateOk env k) (w.beforeUpdatePDR env k req)
    req.updatePDR
  removes : Meets (applyRemovePDRToHook k) RemoveOk (w.beforeRemovePDR env k req) req.removePDR

theorem Ledger.modification (h : w.Ledger k dp₀ c) {req : SessionModificationRequest}
    (hok : w.ModificationOk env k req) :
    (w.applyModification env k req).Ledger k dp₀ (carryModification c req) := by
  have hrules : (w.beforeCreatePDR k req.createFAR req.createURR req.createQER).Ledger k dp₀ c :=
    run_invariant (fun _ qer hw => hw.createQER qer) _
      (run_invariant (fun _ urr hw => hw.createURR urr) _
        (run_invariant (fun _ far hw => hw.createFAR far) _ h))
  have hcreated := hok.creates.simulates (fun _ _ _ hw hD => hw.createPDR hD) hrules
  have hbefore : (w.beforeUpdatePDR env k req).Ledger k dp₀ (run carryCreate c req.createPDR) :=
    run_invariant (fun _ uf hw => hw.updateFAR uf) _ hcreated
  have hupdated := hok.updates.simulates (fun _ _ _ hw hD => hw.updatePDR hD) hbefore
  have hlast : (w.beforeRemovePDR env k req).Ledger k dp₀
      (run carryUpdate (run carryCreate c req.createPDR) req.updatePDR) :=
    run_invariant (fun _ uq hw => hw.updateQER uq) _
      (run_invariant (fun _ uu hw => hw.updateURR uu) _ hupdated)
  have hremoved := hok.removes.simulates (fun _ _ _ hw hD => hw.removePDR hD) hlast
  exact run_invariant (fun _ qerID hw => hw.removeQER qerID) req.removeQER
    (run_invariant (fun _ urrID hw => hw.removeURR urrID) req.removeURR
      (run_invariant (fun _ farID hw => hw.removeFAR farID) req.removeFAR hremoved))

/-! ### Establishments -/

/-- The session is buffered: the dataplane is untouched but for the buffer. -/
def Buffered (k : ImsiPduKey) (dp₀ : Dataplane) (p : PendingSession) (w : Work) : Prop :=
  w.dp = { dp₀ with pending := update dp₀.pending k (some p) }

variable {p : PendingSession}

theorem Buffered.call (hb : w.Buffered k dp₀ p) (f : PendingSession → PendingSession)
    (direct : Option Dataplane) :
    w.dp.buffered k f direct =
      some { dp₀ with pending := update dp₀.pending k (some (f p)) } := by
  have hp : w.dp.pending k = some p := by
    rw [hb]
    exact update_self ..
  rw [buffered_some hp, hb]
  rw [update_idem]

theorem Buffered.createFARs (fars : List CreateFAR) (hb : w.Buffered k dp₀ p) :
    (run (applyCreateFARToHook k) w fars).Buffered k dp₀
      { p with fars := p.fars ++ fars.map fun far => (far.farID, far.rule) } ∧
    (run (applyCreateFARToHook k) w fars).sess = w.sess := by
  induction fars generalizing w p with
  | nil => exact ⟨by simpa using hb, rfl⟩
  | cons far fars ih =>
    have hone : (w.applyCreateFARToHook k far).Buffered k dp₀
        { p with fars := p.fars ++ [(far.farID, far.rule)] } := by
      unfold applyCreateFARToHook addFAR
      rw [hb.call]
      rfl
    have hrest := ih hone
    rw [run_cons]
    exact ⟨by simpa using hrest.1, hrest.2⟩

theorem Buffered.createQERs (qers : List CreateQER) (hb : w.Buffered k dp₀ p) :
    (run (applyCreateQERToHook k) w qers).Buffered k dp₀
      { p with qers := p.qers ++ qers.map fun qer => (qer.qerID, qer.rule) } ∧
    (run (applyCreateQERToHook k) w qers).sess = w.sess := by
  induction qers generalizing w p with
  | nil => exact ⟨by simpa using hb, rfl⟩
  | cons qer qers ih =>
    have hone : (w.applyCreateQERToHook k qer).Buffered k dp₀
        { p with qers := p.qers ++ [(qer.qerID, qer.rule)] } := by
      unfold applyCreateQERToHook addQER
      rw [hb.call]
      rfl
    have hrest := ih hone
    rw [run_cons]
    exact ⟨by simpa using hrest.1, hrest.2⟩

theorem Buffered.createURRs (urrs : List CreateURR) (hb : w.Buffered k dp₀ p)
    (hs : w.sess = some sess) :
    (run (applyCreateURRToHook k) w urrs).Buffered k dp₀
      { p with urrs := p.urrs ++ urrs.map fun urr => (urr.urrID, urr.rule) } ∧
    ∃ sess', (run (applyCreateURRToHook k) w urrs).sess = some sess' ∧
      sess'.keys = sess.keys := by
  induction urrs generalizing w p sess with
  | nil => exact ⟨by simpa using hb, sess, hs, rfl⟩
  | cons urr urrs ih =>
    have hstep : w.applyCreateURRToHook k urr =
        ⟨some { sess with urrIDs := sess.urrIDs ++ [urr.urrID] },
          { dp₀ with
            pending := update dp₀.pending k
              (some { p with urrs := p.urrs ++ [(urr.urrID, urr.rule)] }) }⟩ := by
      unfold applyCreateURRToHook addURR
      rw [hb.call, hs]
      rfl
    have hone : (w.applyCreateURRToHook k urr).Buffered k dp₀
        { p with urrs := p.urrs ++ [(urr.urrID, urr.rule)] } := by
      rw [hstep]
      rfl
    obtain ⟨hrest, sess', hs', hkeys⟩ := ih hone (congrArg Work.sess hstep)
    rw [run_cons]
    exact ⟨by simpa using hrest, sess', hs', hkeys⟩

/-- What a PDR adds to the buffer. -/
def bufferPDR (p : PendingSession) (pdr : CreatePDR) : PendingSession :=
  { p with
    pdrs := p.pdrs ++ [(pdr.pdrID, pdr.rule)]
    teids := p.teids ++ (nonzero pdr.pdi.teid).toList
    ueIPs := p.ueIPs ++ (nonzero pdr.pdi.ueIPv4).toList }

variable (env) in
theorem Buffered.createPDR (hb : w.Buffered k dp₀ p) {sess : HandlerSession}
    (hs : w.sess = some sess) (pdr : CreatePDR) :
    w.applyCreatePDRToHook env k pdr =
      ⟨some { sess with pdrKeys := sess.pdrKeys.assign pdr.pdrID pdr.pdi.keys },
        { dp₀ with
          pending := update dp₀.pending k (some (bufferPDR p pdr)) }⟩ := by
  have hreg : ∀ (p : PendingSession) (key : UInt32) (f : PendingSession → PendingSession)
      (direct : Option Dataplane),
      registerKey (buffered
          { dp₀ with pending := update dp₀.pending k (some p) } k f direct)
        { dp₀ with pending := update dp₀.pending k (some p) } key =
      ({ dp₀ with
          pending := update dp₀.pending k (some (if key = 0 then p else f p)) }, key) := by
    intro p key f direct
    rw [Buffered.call (w := ⟨none, _⟩) (p := p) rfl]
    unfold registerKey
    by_cases h0 : key = 0
    · rw [if_pos (by simpa using h0), if_pos h0, h0]
    · rw [if_neg (by simpa using h0), if_neg h0]
  unfold applyCreatePDRToHook addPDR
  rw [hb.call, hs]
  dsimp only
  unfold registerUEIP registerTEID
  rw [hreg]
  rw [hreg]
  refine congrArg (Work.mk _) ?_
  grind [bufferPDR, nonzero]

theorem registerKeys_append (idx : ReverseIndex) (key : UInt32) (keys : List UInt32)
    (k : SessionKey) :
    Dataplane.registerKeys idx ((nonzero key).toList ++ keys) k =
      Dataplane.registerKeys (register idx (nonzero key) k) keys k := by
  cases nonzero key <;> rfl

/-- The keys that PDRs register, in their order. -/
def keysOf (side : PDI → UInt32) (pdrs : List CreatePDR) : List UInt32 :=
  pdrs.flatMap fun pdr => (nonzero (side pdr.pdi)).toList

theorem mem_keysOf {side : PDI → UInt32} {pdrs : List CreatePDR} {t : UInt32} :
    t ∈ keysOf side (pdr :: pdrs) ↔ nonzero (side pdr.pdi) = some t ∨ t ∈ keysOf side pdrs := by
  simp [keysOf]

/-- The PDRs of an Establishment fill the buffer; once their keys are registered, the session has its
ledger. -/
theorem Buffered.createPDRs (pdrs : List CreatePDR) (hb : w.Buffered k dp₀ p)
    (hs : w.sess = some sess) {teids ueips : ReverseIndex}
    (hl : SessionLedger k.dpKey dp₀ teids ueips c sess)
    (hok : Meets (applyCreatePDRToHook env k) (KeysOk env k) w pdrs) :
    ∃ sess' p', (run (applyCreatePDRToHook env k) w pdrs).sess = some sess' ∧
      (run (applyCreatePDRToHook env k) w pdrs).Buffered k dp₀ p' ∧
      p' = { p with
        pdrs := p.pdrs ++ pdrs.map fun pdr => (pdr.pdrID, pdr.rule)
        teids := p.teids ++ keysOf PDI.teid pdrs
        ueIPs := p.ueIPs ++ keysOf PDI.ueIPv4 pdrs } ∧
      (∀ t ∈ keysOf PDI.teid pdrs, (dp₀.teids t).isSome = true ∨ env.teidRoom t = true) ∧
      (∀ t ∈ keysOf PDI.ueIPv4 pdrs, (dp₀.ueips t).isSome = true ∨ env.ueipRoom t = true) ∧
      SessionLedger k.dpKey dp₀
        (Dataplane.registerKeys teids (keysOf PDI.teid pdrs) k.dpKey)
        (Dataplane.registerKeys ueips (keysOf PDI.ueIPv4 pdrs) k.dpKey)
        (run carryCreate c pdrs) sess' := by
  induction pdrs generalizing w p sess teids ueips c with
  | nil =>
    refine ⟨sess, p, hs, hb, by simp [keysOf], ?_, ?_, hl⟩
    · intro t ht
      cases ht
    · intro t ht
      cases ht
  | cons pdr pdrs ih =>
    have hstep := hb.createPDR env hs pdr
    have hw₁ : (w.applyCreatePDRToHook env k pdr).Buffered k dp₀ (bufferPDR p pdr) := by
      rw [hstep]
      rfl
    have hs₁ := congrArg Work.sess hstep
    have hkeys := hok.1
    obtain ⟨hrt, hru⟩ := hkeys.replaced sess hs
    have hteids : w.dp.teids = dp₀.teids := by rw [hb]
    have hueips : w.dp.ueips = dp₀.ueips := by rw [hb]
    have hft : KeyFree dp₀.teids env.teidRoom k.dpKey pdr.pdi.teid := by
      rw [← hteids]
      exact hkeys.teid
    have hfu : KeyFree dp₀.ueips env.ueipRoom k.dpKey pdr.pdi.ueIPv4 := by
      rw [← hueips]
      exact hkeys.ueip
    have hl₁ := hl.create pdr.pdrID pdr.pdi.keys
      (fun t ht => hl.teids.free_of_start ((hft t ht).imp_right And.left))
      (fun t ht => hl.ueips.free_of_start ((hfu t ht).imp_right And.left)) hrt hru
    obtain ⟨sess', p', hs', hb', hp', hrt', hru', hl'⟩ := ih hw₁ hs₁ hl₁ hok.2
    refine ⟨sess', p', hs', hb', ?_, ?_, ?_, ?_⟩
    · rw [hp']
      simp [bufferPDR, keysOf]
    · intro t ht
      obtain hkey | hrest := mem_keysOf.1 ht
      · refine (hft t hkey).imp (fun hk => ?_) And.right
        rw [hk]
        rfl
      · exact hrt' t hrest
    · intro t ht
      obtain hkey | hrest := mem_keysOf.1 ht
      · refine (hfu t hkey).imp (fun hk => ?_) And.right
        rw [hk]
        rfl
      · exact hru' t hrest
    · rw [keysOf, flatMap_cons, registerKeys_append, keysOf, flatMap_cons,
        registerKeys_append]
      exact hl'

end Work

end MmtCore.Pfcp
