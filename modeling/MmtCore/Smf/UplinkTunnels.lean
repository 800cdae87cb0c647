import MmtCore.Smf.Establish
import MmtCore.Smf.Mirror

/-!
# Uplink tunnels

The uplink TEID of a session is put together from its PDU session id and the low half of its IPv4
address, or zero for a session without one.  Two sessions of one UPF have the same tunnel when these
are the same: then the UPF leads the tunnel to the one that came last.  No state is kept that would
tell.
-/

namespace MmtCore.Smf

open MmtCore.Lib MmtCore.Upf MmtCore.Pfcp Function Option Prod Manager SmfState Nat Or

/-! ## The TEID -/

/-- The part of the address that gets into the TEID. -/
def PduSession.addressPart (sess : PduSession) : UInt32 := ipToUint32 sess.ipv4 &&& 0xFFFF

theorem low_lt (a : UInt32) : (a &&& 0xFFFF).toNat < 2 ^ 16 := by
  rw [UInt32.toNat_and]
  exact Nat.lt_of_le_of_lt Nat.and_le_right (by decide)

theorem toNat_ulTEID (id : UInt8) (ipv4 : Option Addr) :
    (ulTEID id ipv4).toNat = id.toNat * 2 ^ 16 + (ipToUint32 ipv4 &&& 0xFFFF).toNat := by
  have hid : id.toNat < 2 ^ 8 := id.toNat_lt
  have hshift : (id.toUInt32 <<< 16).toNat = id.toNat <<< 16 := by
    rw [UInt32.toNat_shiftLeft, UInt8.toNat_toUInt32]
    refine mod_eq_of_lt ?_
    rw [show (16 : UInt32).toNat % 32 = 16 from rfl, shiftLeft_eq]
    omega
  rw [ulTEID, UInt32.toNat_or, hshift, ← Nat.shiftLeft_add_eq_or_of_lt (low_lt _), Nat.shiftLeft_eq]

theorem ulTEID_inj {id id' : UInt8} {ipv4 ipv4' : Option Addr}
    (h : ulTEID id ipv4 = ulTEID id' ipv4') :
    id = id' ∧ ipToUint32 ipv4 &&& 0xFFFF = ipToUint32 ipv4' &&& 0xFFFF := by
  grind [toNat_ulTEID, low_lt, UInt8.toNat_inj, UInt32.toNat_inj]

theorem ulTEID_ne_zero {id : UInt8} (hid : 1 ≤ id) (ipv4 : Option Addr) : ulTEID id ipv4 ≠ 0 := by
  intro h
  have hnat := congrArg UInt32.toNat h
  rw [toNat_ulTEID, show (0 : UInt32).toNat = 0 from rfl] at hnat
  have hid' : 1 ≤ id.toNat := UInt8.le_iff_toNat_le.1 hid
  omega

/-! ## The manager's sessions -/

namespace Manager

variable {m : Manager} {k k' : ImsiPduKey}

theorem sessions_edit_ne (hk : k' ≠ k) (change : Session → Session)
    (call : Link → Link × Except BridgeError Unit) :
    (m.edit k change call).1.sessions k' = m.sessions k' := by
  unfold edit
  cases m.sessions k with
  | none => rfl
  | some s => exact update_of_ne hk ..

theorem sessions_deleteSession (fate : Fate) :
    (m.deleteSession k fate).1.sessions = update m.sessions k none := rfl

theorem createSession_of_none (h : m.sessions k = none) (s : Session) (selected : UpfID) :
    (m.createSession k s selected).2 = .ok () := by
  unfold createSession
  rw [h]

theorem sessions_createSession_ne (hk : k' ≠ k) (s : Session) (selected : UpfID) :
    (m.createSession k s selected).1.sessions k' = m.sessions k' := by
  unfold createSession
  cases m.sessions k with
  | some _ => rfl
  | none => exact update_of_ne hk ..

end Manager

section Install

variable {m : Manager} {k k' : ImsiPduKey} {sess : PduSession} {env : EstablishEnv}

theorem sessions_installUPFRules_ne (hk : k' ≠ k) :
    (installUPFRules m k sess env).1.sessions k' = m.sessions k' := by
  unfold installUPFRules
  have hcreate := sessions_createSession_ne (m := m) hk sess.managed env.registry
  split
  case h_1 m₁ e hm =>
    rw [hm] at hcreate
    exact hcreate
  case h_2 m₁ hm =>
    rw [hm] at hcreate
    refine Eq.trans ?_ hcreate
    refine (sessions_edit_ne hk ..).trans ?_
    refine (sessions_edit_ne hk ..).trans ?_
    refine (sessions_edit_ne hk ..).trans ?_
    refine (sessions_edit_ne hk ..).trans ?_
    refine (sessions_edit_ne hk ..).trans ?_
    exact sessions_edit_ne hk ..

theorem installUPFRules_snd (h : m.sessions k = none) :
    (installUPFRules m k sess env).2 = sess.withTunnel k.pduSessionID := by
  grind [installUPFRules, createSession_of_none]

end Install

/-! ## Runs -/

/-- The SMF, and which session each UPF leads a TEID to. -/
structure Uplinks where
  smf : SmfState
  tunnels : UpfID → UInt32 → Option ImsiPduKey

inductive UplinkOp
  | establish (inp : EstablishInput) (env : EstablishEnv)
  | release (k : ImsiPduKey) (fate : Fate)

namespace Uplinks

def start (us : List UpfID) : Uplinks where
  smf :=
    { alloc := .new
      pcf := .init
      store := fun _ => none
      fsms := fun _ => none
      mgr := newManager us }
  tunnels := fun _ _ => none

variable (db : Pcf.SmPolicy.Provisioning) (s : Uplinks)

def setTunnel (tunnels : UpfID → UInt32 → Option ImsiPduKey) (u : UpfID) (teid : UInt32)
    (k : Option ImsiPduKey) : UpfID → UInt32 → Option ImsiPduKey :=
  update tunnels u (update (tunnels u) teid k)

/-- A UPF that deletes a session unregisters its TEID. -/
def deleted (k : ImsiPduKey) (fate : Fate) : UpfID → UInt32 → Option ImsiPduKey :=
  match s.smf.store k with
  | none => s.tunnels
  | some sess =>
    if fate.executed then setTunnel s.tunnels sess.upfID sess.upfTEID none else s.tunnels

/-- One that establishes a session registers the TEID for it. -/
def registered (tunnels : UpfID → UInt32 → Option ImsiPduKey) (k : ImsiPduKey)
    (sess : PduSession) (fate : Fate) : UpfID → UInt32 → Option ImsiPduKey :=
  if fate.executed then setTunnel tunnels sess.upfID sess.upfTEID (some k) else tunnels

/-- What an establishment leaves, given the tunnels after the release of an earlier session. -/
def established (tunnels : UpfID → UInt32 → Option ImsiPduKey) (k : ImsiPduKey) (fate : Fate)
    (r : SmfState × Except EstablishError Unit) : Uplinks :=
  match r.2, r.1.store k with
  | .ok (), some sess => ⟨r.1, registered tunnels k sess fate⟩
  | _, _ => ⟨r.1, tunnels⟩

def step : UplinkOp → Uplinks
  | .release k fate => ⟨s.smf.release k fate, s.deleted k fate⟩
  | .establish inp env =>
    established (if s.smf.refusal inp = none then s.deleted inp.key env.release else s.tunnels)
      inp.key env.install.commit (s.smf.establish db inp env)

/-- Sessions of one UPF have different tunnels, none of them zero, and no UPF leads the tunnel of a
session to another one. -/
structure Unique : Prop where
  distinct : ∀ k k' sess sess', s.smf.store k = some sess → s.smf.store k' = some sess' →
    k ≠ k' → sess.upfID = sess'.upfID → sess.upfTEID ≠ sess'.upfTEID
  nonzero : ∀ k sess, s.smf.store k = some sess → sess.upfTEID ≠ 0
  routed : ∀ k sess k', s.smf.store k = some sess →
    s.tunnels sess.upfID sess.upfTEID = some k' → k' = k

/-- An establishment meets no other session of the UPF that has its PDU session id and the low half
of its address; and where the UPF does not execute it, nothing was left behind in its tunnel. -/
def Free (inp : EstablishInput) (env : EstablishEnv) : Prop :=
  ∀ apn addrs sel, env.apn = some apn → env.selected = some sel →
    (allocIP (s.smf.release inp.key env.release).alloc inp.dnn apn
      (pickPDNType inp.requestedPDUType apn)).2 = .ok addrs →
        (∀ k sess, (s.smf.release inp.key env.release).store k = some sess →
          sess.upfID = sel.1 → k.pduSessionID = inp.pduSessionID →
            sess.addressPart ≠ ipToUint32 addrs.1 &&& 0xFFFF) ∧
        (env.install.commit.executed = true ∨
          ∀ k, s.deleted inp.key env.release sel.1 (ulTEID inp.pduSessionID addrs.1) = some k →
            k = inp.key)

/-- An establishment that goes ahead does so in a tunnel that is free. -/
def Clear : UplinkOp → Prop
  | .release .. => True
  | .establish inp env => (s.smf.establish db inp env).2 = .ok () → s.Free inp env

/-- The tunnel of a session is the computed one, and the manager has no session that the store does
not have. -/
structure Inv : Prop where
  computed : ∀ k sess, s.smf.store k = some sess →
    sess.upfTEID = ulTEID k.pduSessionID sess.ipv4 ∧ 1 ≤ k.pduSessionID
  known : ∀ k, s.smf.store k = none → s.smf.mgr.sessions k = none

/-! ## Releases -/

variable {db s} {k k' : ImsiPduKey}

theorem setTunnel_self (tunnels : UpfID → UInt32 → Option ImsiPduKey) (u : UpfID) (teid : UInt32)
    (k : Option ImsiPduKey) : setTunnel tunnels u teid k u teid = k := by
  rw [setTunnel, update_self, update_self]

variable {u : UpfID} {teid : UInt32} {fate : Fate} {sess : PduSession}
  {tunnels : UpfID → UInt32 → Option ImsiPduKey}

theorem setTunnel_of_ne (tunnels : UpfID → UInt32 → Option ImsiPduKey) {u' : UpfID} {teid' : UInt32}
    (k : Option ImsiPduKey) (h : u' = u → teid' ≠ teid) :
    setTunnel tunnels u teid k u' teid' = tunnels u' teid' := by
  by_cases hu : u' = u
  · subst hu
    rw [setTunnel, update_self, update_of_ne (h rfl)]
  · rw [setTunnel, update_of_ne hu]

theorem deleted_some (h : s.deleted k fate u teid = some k') : s.tunnels u teid = some k' := by
  unfold deleted at h
  cases hs : s.smf.store k with
  | none =>
    rw [hs] at h
    exact h
  | some sess =>
    rw [hs] at h
    grind [setTunnel_self, setTunnel_of_ne]

/-- What the store has of another session after a release. -/
theorem store_released (h : (s.smf.release k fate).store k' = some sess) :
    k' ≠ k ∧ s.smf.store k' = some sess := by
  rw [store_release] at h
  grind

theorem Unique.released (h : s.Unique) (k : ImsiPduKey) (fate : Fate) :
    Unique ⟨s.smf.release k fate, s.deleted k fate⟩ where
  distinct := fun k₁ k₂ sess₁ sess₂ h₁ h₂ hne =>
    h.distinct k₁ k₂ sess₁ sess₂ (store_released h₁).2 (store_released h₂).2 hne
  nonzero := fun k₁ sess₁ h₁ => h.nonzero k₁ sess₁ (store_released h₁).2
  routed := fun k₁ sess₁ k₂ h₁ hroute =>
    h.routed k₁ sess₁ k₂ (store_released h₁).2 (deleted_some hroute)

theorem Inv.released (h : s.Inv) (k : ImsiPduKey) (fate : Fate)
    (tunnels : UpfID → UInt32 → Option ImsiPduKey) :
    Inv ⟨s.smf.release k fate, tunnels⟩ where
  computed := fun k₁ sess₁ h₁ => h.computed k₁ sess₁ (store_released h₁).2
  known := by
    intro k₁ h₁
    cases hs : s.smf.store k with
    | none =>
      rw [release_of_none hs] at h₁ ⊢
      exact h.known k₁ h₁
    | some sess =>
      rw [store_release] at h₁
      rw [mgr_release hs, sessions_deleteSession]
      by_cases hk : k₁ = k
      · rw [hk, update_self]
      · rw [update_of_ne hk] at h₁ ⊢
        exact h.known k₁ h₁

/-! ## Establishments -/

theorem store_install (smf : SmfState) (k : ImsiPduKey) (sess : PduSession)
    (env : EstablishEnv) (h : smf.mgr.sessions k = none) :
    (smf.install k sess env).store =
      update smf.store k
        (some (sess.withTunnel k.pduSessionID)) := by
  change update (update smf.store k (some sess)) k
    (some (installUPFRules smf.mgr k sess env).2) = _
  rw [installUPFRules_snd h, update_idem]

theorem sessions_install_ne (smf : SmfState) (sess : PduSession) (env : EstablishEnv)
    (hk : k' ≠ k) : (smf.install k sess env).mgr.sessions k' = smf.mgr.sessions k' :=
  sessions_installUPFRules_ne hk

theorem registered_of_ne (h : u = sess.upfID → teid ≠ sess.upfTEID) :
    registered tunnels k sess fate u teid = tunnels u teid := by
  unfold registered
  split
  · exact setTunnel_of_ne _ _ h
  · rfl

theorem registered_self
    (h : fate.executed = true ∨ ∀ k', tunnels sess.upfID sess.upfTEID = some k' → k' = k)
    (hk' : registered tunnels k sess fate sess.upfID sess.upfTEID = some k') : k' = k := by
  unfold registered at hk'
  grind [setTunnel_self]

section Installed

variable {smf : SmfState} {tunnels : UpfID → UInt32 → Option ImsiPduKey} {sess : PduSession}
  {env : EstablishEnv} (hinv : Inv ⟨smf, tunnels⟩) (hfree : smf.store k = none)

include hinv hfree

variable (sess env) in
theorem store_installed (k' : ImsiPduKey) {sess' : PduSession} :
    (smf.install k sess env).store k' = some sess' ↔
      k' = k ∧ sess' = sess.withTunnel k.pduSessionID ∨
        k' ≠ k ∧ smf.store k' = some sess' := by
  rw [store_install smf k sess env (hinv.known k hfree)]
  grind

theorem Inv.installed (hid : 1 ≤ k.pduSessionID)
    (tunnels' : UpfID → UInt32 → Option ImsiPduKey) : Inv ⟨smf.install k sess env, tunnels'⟩ where
  computed := by
    intro k₁ sess₁ h₁
    obtain ⟨rfl, rfl⟩ | ⟨-, hs⟩ := (store_installed sess env hinv hfree k₁).1 h₁
    · exact ⟨rfl, hid⟩
    · exact hinv.computed k₁ sess₁ hs
  known := by
    intro k₁ h₁
    have hk : k₁ ≠ k := by
      rintro rfl
      have hsome := (store_installed sess env hinv hfree k₁).2 (inl ⟨rfl, rfl⟩)
      exact absurd (hsome.symm.trans h₁) (some_ne_none _)
    refine (sessions_install_ne smf sess env hk).trans (hinv.known k₁ ?_)
    cases hs : smf.store k₁ with
    | none => rfl
    | some sess₁ =>
      have hsome := (store_installed sess env hinv hfree k₁).2 (inr ⟨hk, hs⟩)
      exact absurd (hsome.symm.trans h₁) (some_ne_none _)

/-- The tunnels stay unique just when the new session meets no other one in its tunnel. -/
theorem unique_installed_iff (h : Unique ⟨smf, tunnels⟩) (hid : 1 ≤ k.pduSessionID) (fate : Fate) :
    Unique ⟨smf.install k sess env,
        registered tunnels k (sess.withTunnel k.pduSessionID) fate⟩ ↔
      (∀ k' sess', smf.store k' = some sess' → sess'.upfID = sess.upfID →
        k'.pduSessionID = k.pduSessionID → sess'.addressPart ≠ sess.addressPart) ∧
      (fate.executed = true ∨
        ∀ k', tunnels sess.upfID (ulTEID k.pduSessionID sess.ipv4) = some k' → k' = k) := by
  have hother : ∀ k' sess', smf.store k' = some sess' → k' ≠ k := by
    grind
  have hteid : ∀ k' sess', smf.store k' = some sess' →
      (sess'.upfTEID = ulTEID k.pduSessionID sess.ipv4 ↔
        k'.pduSessionID = k.pduSessionID ∧ sess'.addressPart = sess.addressPart) := by
    intro k' sess' hs
    rw [(hinv.computed k' sess' hs).1]
    constructor
    · exact ulTEID_inj
    · rintro ⟨hpsi, hpart⟩
      rw [ulTEID, ulTEID, hpsi]
      exact congrArg _ hpart
  have hnew := (store_installed sess env hinv hfree k).2 (inl ⟨rfl, rfl⟩)
  constructor
  · intro hu
    constructor
    · intro k' sess' hs hupf hpsi hpart
      have hold := (store_installed sess env hinv hfree k').2
        (inr ⟨hother k' sess' hs, hs⟩)
      exact hu.distinct k' k sess' _ hold hnew (hother k' sess' hs) hupf
        ((hteid k' sess' hs).2 ⟨hpsi, hpart⟩)
    · cases hex : fate.executed with
      | true => exact inl rfl
      | false =>
        refine inr fun k' hk' => hu.routed k _ k' hnew ?_
        exact (congrFun (congrFun (if_neg (by rw [hex]; decide)) _) _).trans hk'
  · rintro ⟨hclear, hroute⟩
    -- no tunnel of another session is the new one
    have hapart : ∀ k' sess', smf.store k' = some sess' → sess'.upfID = sess.upfID →
        sess'.upfTEID ≠ ulTEID k.pduSessionID sess.ipv4 := fun k' sess' hs hupf heq =>
      hclear k' sess' hs hupf ((hteid k' sess' hs).1 heq).1 ((hteid k' sess' hs).1 heq).2
    constructor
    · intro k₁ k₂ sess₁ sess₂ h₁ h₂ hne hupf
      obtain ⟨rfl, rfl⟩ | ⟨-, hs₁⟩ := (store_installed sess env hinv hfree k₁).1 h₁
      · obtain ⟨rfl, -⟩ | ⟨-, hs₂⟩ := (store_installed sess env hinv hfree k₂).1 h₂
        · exact absurd rfl hne
        · exact (hapart k₂ sess₂ hs₂ hupf.symm).symm
      · obtain ⟨rfl, rfl⟩ | ⟨-, hs₂⟩ := (store_installed sess env hinv hfree k₂).1 h₂
        · exact hapart k₁ sess₁ hs₁ hupf
        · exact h.distinct k₁ k₂ sess₁ sess₂ hs₁ hs₂ hne hupf
    · intro k₁ sess₁ h₁
      obtain ⟨rfl, rfl⟩ | ⟨-, hs₁⟩ := (store_installed sess env hinv hfree k₁).1 h₁
      · exact ulTEID_ne_zero hid _
      · exact h.nonzero k₁ sess₁ hs₁
    · intro k₁ sess₁ k₂ h₁ hk₂
      obtain ⟨rfl, rfl⟩ | ⟨-, hs₁⟩ := (store_installed sess env hinv hfree k₁).1 h₁
      · exact registered_self hroute hk₂
      · have hsame : registered tunnels k (sess.withTunnel k.pduSessionID) fate sess₁.upfID
            sess₁.upfTEID = tunnels sess₁.upfID sess₁.upfTEID :=
          registered_of_ne (hapart k₁ sess₁ hs₁)
        exact h.routed k₁ sess₁ k₂ hs₁ (hsame.symm.trans hk₂)

end Installed

/-! ## One step -/

theorem start_inv (us : List UpfID) : (start us).Inv where
  computed := fun _ _ h => absurd h.symm (some_ne_none _)
  known := by
    intro k _
    rfl

theorem start_unique (us : List UpfID) : (start us).Unique where
  distinct := fun _ _ _ _ h => absurd h.symm (some_ne_none _)
  nonzero := fun _ _ h => absurd h.symm (some_ne_none _)
  routed := fun _ _ _ h => absurd h.symm (some_ne_none _)

theorem established_iff (hinv : s.Inv) (h : s.Unique) {inp : EstablishInput}
    {env : EstablishEnv} {r : SmfState × Except EstablishError Unit}
    (hout : SmfState.Outcome s.smf inp env r) {s' : Uplinks}
    (hs' : s' = established
      (if s.smf.refusal inp = none then s.deleted inp.key env.release else s.tunnels)
      inp.key env.install.commit r) :
    s'.Inv ∧ (s'.Unique ↔ (r.2 = .ok () → s.Free inp env)) := by
  have hrel := h.released inp.key env.release
  have hrelinv := hinv.released inp.key env.release (s.deleted inp.key env.release)
  cases hout with
  | refused e hrefused =>
    rw [if_neg (by rw [hrefused]; exact some_ne_none e)] at hs'
    subst hs'
    exact ⟨hinv, ⟨fun _ hok => (by cases hok), fun _ => h⟩⟩
  | failed e alloc pcf hrefused =>
    rw [if_pos hrefused] at hs'
    subst hs'
    exact ⟨⟨hrelinv.computed, hrelinv.known⟩, ⟨fun _ hok => (by cases hok),
      fun _ => ⟨hrel.distinct, hrel.nonzero, hrel.routed⟩⟩⟩
  | done apn created alloc pcf addrs sel hapn haddrs hsel hrefused =>
    rw [if_pos hrefused] at hs'
    have hid := (refusal_none hrefused).1
    have hfree : (s.smf.release inp.key env.release).store inp.key = none := by
      rw [store_release, update_self]
    let sess := newSession inp env apn created addrs sel
    have hrelinv : Inv ⟨{ s.smf.release inp.key env.release with alloc, pcf },
        s.deleted inp.key env.release⟩ := ⟨hrelinv.computed, hrelinv.known⟩
    have hrel : Unique ⟨{ s.smf.release inp.key env.release with alloc, pcf },
        s.deleted inp.key env.release⟩ := ⟨hrel.distinct, hrel.nonzero, hrel.routed⟩
    have hstore := (store_installed sess env hrelinv hfree inp.key).2
      (inl ⟨rfl, rfl⟩)
    unfold established at hs'
    rw [hstore] at hs'
    subst hs'
    refine ⟨hrelinv.installed hfree hid _, (unique_installed_iff hrelinv hfree hrel hid _).trans ?_⟩
    constructor
    · rintro hmeets - apn' addrs' sel' hapn' hsel' haddrs'
      cases hapn.symm.trans hapn'
      cases hsel.symm.trans hsel'
      rw [haddrs] at haddrs'
      cases haddrs'
      exact hmeets
    · intro hmeets
      exact hmeets rfl apn addrs sel hapn hsel (congrArg snd haddrs)

/-- A step keeps the invariant, and the tunnels unique just when it meets no session in a tunnel. -/
theorem step_iff (hinv : s.Inv) (h : s.Unique) (op : UplinkOp) :
    (s.step db op).Inv ∧ ((s.step db op).Unique ↔ s.Clear db op) := by
  cases op with
  | release k fate =>
    exact ⟨hinv.released k fate _, fun _ => trivial, fun _ => h.released k fate⟩
  | establish inp env => exact established_iff hinv h (outcome_establish db) rfl

/-! ## Runs -/

theorem reached_unique {us : List UpfID} (h : Reach (step db) (Clear db) (start us) s) :
    s.Inv ∧ s.Unique :=
  h.invariant (I := fun s => s.Inv ∧ s.Unique) ⟨start_inv us, start_unique us⟩
    fun _ op hs hclear => ⟨(step_iff hs.1 hs.2 op).1, (step_iff hs.1 hs.2 op).2.2 hclear⟩

/-- A UE asks for an Ethernet session, the first of its sessions. -/
def ethernetRequest (imsi : List UInt8) (h : imsi ≠ []) : EstablishInput where
  imsi := imsi
  pduSessionID := 1
  pti := 1
  dnn := ascii "lan"
  sst := 1
  sd := 0xFFFFFF
  requestedPDUType := 5
  requestType := .initialRequest
  imsi_ne := h

def answeredAll : InstallFates :=
  ⟨.answered, .answered, .answered, .answered, .answered, .answered, .answered, .answered⟩

/-- Everything that the establishment of an Ethernet session needs is there. -/
def ethernetEnv : EstablishEnv where
  apn := some ⟨ascii "Ethernet", 0, 0, [], []⟩
  authorized := ⟨0, 0, 0⟩
  selected := some (ascii "upf", 0x0A000001)
  default5QI := some 9
  accept := true
  service := none
  registry := ascii "upf"
  release := .answered
  install := answeredAll

def ethernetSession (imsi : List UInt8) (h : imsi ≠ []) : UplinkOp :=
  .establish (ethernetRequest imsi h) ethernetEnv

def firstImsi : List UInt8 := ascii "001010000000001"

def secondImsi : List UInt8 := ascii "001010000000002"

/-- Two UEs with an Ethernet session each. -/
def twoEthernetSessions : Uplinks :=
  run (step ⟨[], []⟩) (start [ascii "upf"])
    [ethernetSession firstImsi (by decide), ethernetSession secondImsi (by decide)]

end Uplinks

end MmtCore.Smf
