import MmtCore.Lib.Reach
import MmtCore.Upf.RteHash
import Mathlib.Data.List.TakeWhile
import Mathlib.Logic.Function.Iterate

/-!
# The TEID and UE-IP reverse maps of the dataplane

Each reverse map is an `rte_hash` from a 32-bit key to a position, an array `entries[]` indexed by
that position, and a ring of 256 positions whose release is deferred.  A deletion hands the
position to `rte_hash_del_key` and then puts it in the ring; the position that it overwrites there
is released by `rte_hash_free_key_with_position`.

The tables are created without `NO_FREE_ON_DEL`, so `rte_hash_del_key` has already recycled the
slot when the ring releases it a second time.  The maps are therefore sound exactly while no
deletion overwrites a ring slot that is still in use (`reverse_maps_faithful`); from the 257th
deletion on, a position can be handed to two live keys (`reverse_maps_alias`).
-/

namespace MmtCore.Upf

open MmtCore.Lib Function List Option RteHash Nat

/-! ## C strings -/

/-- The string at the start of a buffer: the bytes before the first NUL. -/
def cString (buf : List UInt8) : List UInt8 :=
  buf.takeWhile (· ≠ 0)

/-- `strncpy(dst, src, n)` on a buffer `dst`: at most `n` bytes of the string, padded with NULs
up to `n`; the rest of the buffer stays. -/
def strncpy (dst src : List UInt8) (n : Nat) : List UInt8 :=
  let s := (cString src).take n
  s ++ List.replicate (n - s.length) 0 ++ dst.drop n

theorem takeWhile_append_zero {s : List UInt8} (hs : ∀ b ∈ s, b ≠ 0) (t : List UInt8) :
    (s ++ 0 :: t).takeWhile (· ≠ 0) = s := by
  simp_all

theorem cString_ne_zero (buf : List UInt8) : ∀ b ∈ cString buf, b ≠ 0 := by
  intro b hb
  simpa using mem_takeWhile_imp hb

/-- A string of at most 15 bytes copied into a 16-byte buffer whose last byte is NUL reads back
unchanged. -/
theorem cString_strncpy {dst src : List UInt8} (hdst : dst.drop 15 = [0])
    (hsrc : (cString src).length ≤ 15) : cString (strncpy dst src 15) = cString src := by
  have htake : (cString src).take 15 = cString src := take_of_length_le hsrc
  have hz := cString_ne_zero src
  simp only [strncpy, htake, hdst]
  cases hn : 15 - (cString src).length with
  | zero => simpa [cString] using takeWhile_append_zero hz []
  | succ k =>
    simpa [replicate_succ, cString] using takeWhile_append_zero hz (replicate k 0 ++ [0])

theorem strncpy_drop {dst : List UInt8} (src : List UInt8) (hdst : dst.drop 15 = [0]) :
    (strncpy dst src 15).drop 15 = [0] := by
  have hlen : ((cString src).take 15 ++
      replicate (15 - ((cString src).take 15).length) (0 : UInt8)).length = 15 := by
    simp only [length_append, length_take, length_replicate]
    omega
  grind [strncpy]

/-! ## One reverse map -/

/-- `DEFERRED_FREE_DEPTH`. -/
abbrev deferredFreeDepth : Nat := 256

structure DeferredFreeSlot where
  position : Nat
  valid : Bool
deriving DecidableEq

/-- `teid_map_entry_t` and `ueip_map_entry_t`; `imsi` is the 16-byte buffer. -/
structure MapEntry where
  key : UInt32
  imsi : List UInt8
  pduSessionId : UInt8
deriving DecidableEq

/-- An entry after `memset` or `rte_zmalloc`. -/
def MapEntry.zero : MapEntry := ⟨0, List.replicate 16 0, 0⟩

structure RevMap where
  hash : RteHash
  entries : Nat → MapEntry
  deferred : Fin deferredFreeDepth → DeferredFreeSlot
  deferredIdx : Fin deferredFreeDepth

namespace RevMap

def create (capacity : UInt32) (noFreeOnDel : Bool) : Option RevMap :=
  (rteHashCreate capacity noFreeOnDel).map fun hash =>
    { hash, entries := fun _ => .zero, deferred := fun _ => ⟨0, false⟩, deferredIdx := 0 }

/-- `defer_free_position`. -/
def deferFreePosition (m : RevMap) (position : Nat) : RevMap :=
  let slot := m.deferred m.deferredIdx
  { m with
    hash := if slot.valid then m.hash.freeKeyWithPosition slot.position else m.hash
    deferred := update m.deferred m.deferredIdx ⟨position, true⟩
    deferredIdx := m.deferredIdx + 1 }

/-- The body of `upf_pkt_io_add_teid_map` and `upf_pkt_io_add_ueip_map`; the position is the one
`rte_hash_add_key` returned, `none` stands for the return value -1. -/
def addMap (P : Placement) (m : RevMap) (key : UInt32) (imsi : List UInt8) (psid : UInt8) :
    RevMap × Option Nat :=
  match m.hash.addKey P key with
  | (hash, none) => ({ m with hash }, none)
  | (hash, some idx) =>
    let entry := { key, imsi := strncpy (m.entries idx).imsi imsi 15, pduSessionId := psid }
    ({ m with hash, entries := update m.entries idx entry }, some idx)

/-- The body of `upf_pkt_io_del_teid_map` and `upf_pkt_io_del_ueip_map`. -/
def delMap (m : RevMap) (key : UInt32) : RevMap × Option Nat :=
  match m.hash.delKey key with
  | (hash, none) => ({ m with hash }, none)
  | (hash, some pos) =>
    let m' := { m with hash, entries := update m.entries pos .zero }
    (m'.deferFreePosition pos, some pos)

/-- The classification step of the packet path: position by key, then the entry's session. -/
def lookup (m : RevMap) (key : UInt32) : Option (List UInt8 × UInt8) :=
  (m.hash.lookup key).map fun pos => (cString (m.entries pos).imsi, (m.entries pos).pduSessionId)

end RevMap

/-! ## The two maps of the dataplane -/

structure ReverseMaps where
  teid : RevMap
  ueip : RevMap

/-- Capacity of both tables: four entries a session, at least 8192. -/
def teidMapCapacity (gUpfMaxSessions : UInt32) : UInt32 :=
  let want := gUpfMaxSessions * 4
  if want > 8192 then want else 8192

/-- The table part of `upf_pkt_io_init`; the hashes carry no extra flag. -/
def upfPktIoInit (gUpfMaxSessions : UInt32) : Option ReverseMaps := do
  let teid ← RevMap.create (teidMapCapacity gUpfMaxSessions) false
  let ueip ← RevMap.create (teidMapCapacity gUpfMaxSessions) false
  return { teid, ueip }

def upfPktIoAddTeidMap (P : Placement) (io : ReverseMaps) (teid : UInt32) (imsi : List UInt8)
    (psid : UInt8) : ReverseMaps × Option Nat :=
  let r := io.teid.addMap P teid imsi psid
  ({ io with teid := r.1 }, r.2)

def upfPktIoAddUeipMap (P : Placement) (io : ReverseMaps) (ueAddr : UInt32) (imsi : List UInt8)
    (psid : UInt8) : ReverseMaps × Option Nat :=
  let r := io.ueip.addMap P ueAddr imsi psid
  ({ io with ueip := r.1 }, r.2)

def upfPktIoDelTeidMap (io : ReverseMaps) (teid : UInt32) : ReverseMaps × Option Nat :=
  let r := io.teid.delMap teid
  ({ io with teid := r.1 }, r.2)

def upfPktIoDelUeipMap (io : ReverseMaps) (ueAddr : UInt32) : ReverseMaps × Option Nat :=
  let r := io.ueip.delMap ueAddr
  ({ io with ueip := r.1 }, r.2)

/-! ## What the caller registered -/

/-- A successful registration: the position it was given, and the session it named. -/
structure Registration where
  position : Nat
  imsi : List UInt8
  pduSessionId : UInt8
deriving DecidableEq

/-- The live keys, as the callers know them: registered with success and not deleted since. -/
abbrev Live := UInt32 → Option Registration

def Live.register (live : Live) (key : UInt32) (imsi : List UInt8) (psid : UInt8) :
    Option Nat → Live
  | none => live
  | some position => update live key (some ⟨position, cString imsi, psid⟩)

def Live.unregister (live : Live) (key : UInt32) : Live :=
  update live key none

@[simp] theorem Live.register_self (live : Live) (key : UInt32) (imsi : List UInt8) (psid : UInt8)
    (position : Nat) :
    live.register key imsi psid (some position) key = some ⟨position, cString imsi, psid⟩ :=
  update_self ..

theorem Live.register_of_ne (live : Live) {k key : UInt32} (hk : k ≠ key) (imsi : List UInt8)
    (psid : UInt8) (res : Option Nat) : live.register key imsi psid res k = live k := by
  cases res with
  | none => rfl
  | some position => exact update_of_ne hk ..

@[simp] theorem Live.unregister_self (live : Live) (key : UInt32) :
    live.unregister key key = none :=
  update_self ..

theorem Live.unregister_of_ne (live : Live) {k key : UInt32} (hk : k ≠ key) :
    live.unregister key k = live k :=
  update_of_ne hk ..

/-- The map answers for exactly the live keys, with the session last registered, and no two live
keys share a position. -/
structure Faithful (m : RevMap) (live : Live) : Prop where
  distinct : ∀ k₁ k₂ r₁ r₂, live k₁ = some r₁ → live k₂ = some r₂ → k₁ ≠ k₂ →
    r₁.position ≠ r₂.position
  lookup_live : ∀ k r, live k = some r →
    m.hash.lookup k = some r.position ∧ m.lookup k = some (r.imsi, r.pduSessionId)
  lookup_dead : ∀ k, live k = none → m.lookup k = none

inductive MapCall
  | addTeidMap (teid : UInt32) (imsi : List UInt8) (psid : UInt8)
  | delTeidMap (teid : UInt32)
  | addUeipMap (ueAddr : UInt32) (imsi : List UInt8) (psid : UInt8)
  | delUeipMap (ueAddr : UInt32)

structure Tracked where
  io : ReverseMaps
  liveTeid : Live
  liveUeip : Live

def Tracked.start (io : ReverseMaps) : Tracked := ⟨io, fun _ => none, fun _ => none⟩

/-- One call of the control plane, recorded. -/
def Tracked.step (P : Placement) (s : Tracked) : MapCall → Tracked
  | .addTeidMap teid imsi psid =>
    let r := upfPktIoAddTeidMap P s.io teid imsi psid
    { s with io := r.1, liveTeid := s.liveTeid.register teid imsi psid r.2 }
  | .delTeidMap teid =>
    { s with io := (upfPktIoDelTeidMap s.io teid).1, liveTeid := s.liveTeid.unregister teid }
  | .addUeipMap ueAddr imsi psid =>
    let r := upfPktIoAddUeipMap P s.io ueAddr imsi psid
    { s with io := r.1, liveUeip := s.liveUeip.register ueAddr imsi psid r.2 }
  | .delUeipMap ueAddr =>
    { s with io := (upfPktIoDelUeipMap s.io ueAddr).1, liveUeip := s.liveUeip.unregister ueAddr }

def Tracked.Faithful (s : Tracked) : Prop :=
  Upf.Faithful s.io.teid s.liveTeid ∧ Upf.Faithful s.io.ueip s.liveUeip

/-! ## The invariant of one map -/

namespace RevMap

/-- Slots that are out of the table but not yet free: those the ring holds, when deletion does
not recycle them itself. -/
def Held (m : RevMap) (slot : Nat) : Prop :=
  m.hash.noFreeOnDel = true ∧ ∃ i, (m.deferred i).valid = true ∧ (m.deferred i).position + 1 = slot

structure Inv (m : RevMap) (live : Live) : Prop where
  valid : m.hash.Valid m.Held
  ring_inj : m.hash.noFreeOnDel = true → ∀ i j, (m.deferred i).valid = true →
    (m.deferred j).valid = true → (m.deferred i).position = (m.deferred j).position → i = j
  imsi_end : ∀ pos, (m.entries pos).imsi.drop 15 = [0]
  live_entry : ∀ k r, live k = some r → m.hash.slotOf k = some (r.position + 1) ∧
    cString (m.entries r.position).imsi = r.imsi ∧
    (m.entries r.position).pduSessionId = r.pduSessionId
  dead_entry : ∀ k, live k = none → m.hash.slotOf k = none

variable {m : RevMap} {live : Live}

theorem Inv.faithful (h : m.Inv live) : Upf.Faithful m live where
  distinct := by
    intro k₁ k₂ r₁ r₂ h₁ h₂ hne heq
    refine hne (h.valid.slotOf_inj (h.live_entry k₁ r₁ h₁).1 ?_)
    rw [heq]
    exact (h.live_entry k₂ r₂ h₂).1
  lookup_live := by
    intro k r hk
    obtain ⟨hslot, himsi, hpsid⟩ := h.live_entry k r hk
    have hpos : m.hash.lookup k = some r.position := by simp [lookup_eq, hslot]
    exact ⟨hpos, by simp [RevMap.lookup, hpos, himsi, hpsid]⟩
  lookup_dead := by
    intro k hk
    simp [RevMap.lookup, lookup_eq, h.dead_entry k hk]

theorem create_inv {capacity : UInt32} {flag : Bool} (hc : RevMap.create capacity flag = some m) :
    m.Inv (fun _ => none) ∧ m.hash.noFreeOnDel = flag := by
  obtain ⟨hash, hhash, rfl⟩ := map_eq_some_iff.1 hc
  obtain ⟨hvalid, hempty, hflag⟩ := rteHashCreate_valid hhash
  refine ⟨?_, hflag⟩
  exact
    { valid := hvalid.weaken (by rintro s ⟨_, i, hi, _⟩; cases hi)
      ring_inj := fun _ i _ hi => by cases hi
      imsi_end := fun _ => by simp [MapEntry.zero]
      live_entry := fun _ _ hk => by cases hk
      dead_entry := fun k _ => hempty k }

/-- Registering a session keeps the invariant when its IMSI fits the entry. -/
theorem Inv.addMap (h : m.Inv live) (P : Placement) (key : UInt32) {imsi : List UInt8}
    (himsi : (cString imsi).length ≤ 15) (psid : UInt8) :
    (m.addMap P key imsi psid).1.Inv (live.register key imsi psid (m.addMap P key imsi psid).2) ∧
      (m.addMap P key imsi psid).1.hash.noFreeOnDel = m.hash.noFreeOnDel := by
  obtain ⟨hvalid, hother, hkey, hflag⟩ := h.valid.addKey P key
  rcases hadd : m.hash.addKey P key with ⟨hash, res⟩
  rw [hadd] at hvalid hother hkey hflag
  have hheld : ∀ m' : RevMap, m'.hash = hash → m'.deferred = m.deferred →
      ∀ s, m'.Held s → m.Held s := by
    rintro m' rfl hd s ⟨hn, i, hi⟩
    exact ⟨hflag ▸ hn, i, hd ▸ hi⟩
  cases res with
  | none =>
    have hm : m.addMap P key imsi psid = ({ m with hash }, none) := by
      simp [RevMap.addMap, hadd]
    have hslot : ∀ k, hash.slotOf k = m.hash.slotOf k := fun k => by
      grind
    rw [hm]
    refine ⟨?_, hflag⟩
    exact
      { valid := hvalid.weaken (hheld _ rfl rfl)
        ring_inj := fun hn => h.ring_inj (hflag ▸ hn)
        imsi_end := h.imsi_end
        live_entry := fun k r hk => by
          rw [hslot k]; exact h.live_entry k r hk
        dead_entry := fun k hk => (hslot k).trans (h.dead_entry k hk) }
  | some idx =>
    set entry : MapEntry := ⟨key, strncpy (m.entries idx).imsi imsi 15, psid⟩ with hentry
    have hm : m.addMap P key imsi psid =
        ({ m with hash, entries := update m.entries idx entry }, some idx) := by
      simp [RevMap.addMap, hadd, hentry]
    rw [hm]
    refine ⟨?_, hflag⟩
    exact
      { valid := hvalid.weaken (hheld _ rfl rfl)
        ring_inj := fun hn => h.ring_inj (hflag ▸ hn)
        imsi_end := fun pos => by
          by_cases hp : pos = idx
          · subst hp; simpa using strncpy_drop imsi (h.imsi_end pos)
          · simpa [hp] using h.imsi_end pos
        live_entry := fun k r hk => by
          by_cases hkk : k = key
          · subst hkk
            obtain rfl := some.inj ((live.register_self ..).symm.trans hk)
            refine ⟨hkey, ?_, ?_⟩
            · simpa using cString_strncpy (h.imsi_end idx) himsi
            · simp [hentry]
          · have hk' : live k = some r := (live.register_of_ne hkk ..).symm.trans hk
            obtain ⟨hslot, hi, hp⟩ := h.live_entry k r hk'
            have hslot' : hash.slotOf k = some (r.position + 1) := (hother k hkk).trans hslot
            -- the new key's position is not the one of another live key
            have hne : r.position ≠ idx := by
              rintro rfl
              exact hkk (hvalid.slotOf_inj hslot' hkey)
            exact ⟨hslot', by simpa [hne] using hi, by simpa [hne] using hp⟩
        dead_entry := fun k hk => by
          have hkk : k ≠ key := by
            rintro rfl
            exact absurd ((live.register_self ..).symm.trans hk) (by simp)
          have hk' : live k = none := (live.register_of_ne hkk ..).symm.trans hk
          exact (hother k hkk).trans (h.dead_entry k hk') }

/-- The deletion of `key` releases no ring slot twice: the table leaves released slots to the
ring, or the ring slot to be overwritten is unused, or nothing is deleted. -/
def RingSafe (m : RevMap) (key : UInt32) : Prop :=
  m.hash.noFreeOnDel = true ∨ (m.deferred m.deferredIdx).valid = false ∨ m.hash.lookup key = none

/-- Removing a session keeps the invariant when the ring releases nothing twice. -/
theorem Inv.delMap (h : m.Inv live) {key : UInt32} (hsafe : m.RingSafe key) :
    (m.delMap key).1.Inv (live.unregister key) ∧
      (m.delMap key).1.hash.noFreeOnDel = m.hash.noFreeOnDel := by
  obtain ⟨hvalid, hgone, hother, hflag, hres⟩ := h.valid.delKey key
  rcases hdel : m.hash.delKey key with ⟨hash, res⟩
  rw [hdel] at hvalid hgone hother hflag hres
  have hdead : ∀ k, live.unregister key k = none → hash.slotOf k = none := fun k hk => by
    by_cases hkk : k = key
    · rw [hkk]; exact hgone
    · exact (hother k hkk).trans (h.dead_entry k ((live.unregister_of_ne hkk).symm.trans hk))
  have hlive : ∀ k r, live.unregister key k = some r → k ≠ key ∧ live k = some r := by
    intro k r hk
    have hkk : k ≠ key := by
      rintro rfl
      exact absurd ((live.unregister_self k).symm.trans hk) (by simp)
    exact ⟨hkk, (live.unregister_of_ne hkk).symm.trans hk⟩
  cases res with
  | none =>
    have hm : m.delMap key = ({ m with hash }, none) := by simp [RevMap.delMap, hdel]
    rw [hm]
    refine ⟨?_, hflag⟩
    exact
      { valid := hvalid.weaken (by rintro s ⟨hn, i, hi⟩; exact .inl ⟨hflag ▸ hn, i, hi⟩)
        ring_inj := fun hn => h.ring_inj (hflag ▸ hn)
        imsi_end := h.imsi_end
        live_entry := fun k r hk => by
          obtain ⟨hkk, hk'⟩ := hlive k r hk
          rw [hother k hkk]; exact h.live_entry k r hk'
        dead_entry := hdead }
  | some pos =>
    have hslotkey : m.hash.slotOf key = some (pos + 1) := by
      cases hs : m.hash.slotOf key with
      | none => rw [hs] at hres; cases hres
      | some slot =>
        have := h.valid.slotOf_pos hs
        grind
    have hnotheld : ¬ m.Held (pos + 1) := h.valid.slotOf_not_held hslotkey
    set slot := m.deferred m.deferredIdx with hslot
    set m' : RevMap := (m.delMap key).1 with hm'
    have hm : m' = ({ m with hash, entries := update m.entries pos .zero } :
        RevMap).deferFreePosition pos := by
      simp [hm', RevMap.delMap, hdel]
    have hhash : m'.hash = if slot.valid then hash.freeKeyWithPosition slot.position else hash := by
      rw [hm]; rfl
    have hdef : m'.deferred = update m.deferred m.deferredIdx ⟨pos, true⟩ := by
      rw [hm]; rfl
    have hent : m'.entries = update m.entries pos .zero := by rw [hm]; rfl
    have hflag' : m'.hash.noFreeOnDel = m.hash.noFreeOnDel := by
      rw [hhash]; split_ifs <;> simpa using hflag
    have hslotOf : ∀ k, m'.hash.slotOf k = hash.slotOf k := fun k => by
      rw [hhash]; split_ifs <;> simp
    -- in the ring, a position other than the one overwritten was there before
    have hring : ∀ i, (m'.deferred i).valid = true →
        (i = m.deferredIdx ∧ (m'.deferred i).position = pos) ∨
          (i ≠ m.deferredIdx ∧ m'.deferred i = m.deferred i) := fun i _ => by
      by_cases hi : i = m.deferredIdx
      · subst hi; exact .inl ⟨rfl, by simp [hdef]⟩
      · exact .inr ⟨hi, by simp [hdef, hi]⟩
    refine ⟨?_, hflag'⟩
    exact
      { valid := by
          have hsub : ∀ s, m'.Held s → m.Held s ∨
              (m.hash.noFreeOnDel = true ∧ ∃ p, some pos = some p ∧ s = p + 1) := by
            rintro s ⟨hn, i, hi, rfl⟩
            rcases hring i hi with ⟨_, hp⟩ | ⟨_, heq⟩
            · exact .inr ⟨hflag' ▸ hn, pos, rfl, by rw [hp]⟩
            · exact .inl ⟨hflag' ▸ hn, i, heq ▸ hi, by rw [heq]⟩
          rw [hhash]
          split_ifs with hv
          · -- the overwritten slot is in use, so the table does leave slots to the ring
            have hn : m.hash.noFreeOnDel = true := by
              rcases hsafe with hn | hn | hn
              · exact hn
              · rw [← hslot, hv] at hn; cases hn
              · rw [lookup_eq, hslotkey] at hn; cases hn
            have hheld : m.Held (slot.position + 1) := ⟨hn, m.deferredIdx, hv, rfl⟩
            refine (hvalid.freeKeyWithPosition (.inl hheld)).weaken fun s hs => ⟨hsub s hs, ?_⟩
            obtain ⟨_, i, hi, rfl⟩ := hs
            rcases hring i hi with ⟨_, hp⟩ | ⟨hne, heq⟩
            · rw [hp]
              exact fun heq => hnotheld (heq ▸ hheld)
            · rw [heq]
              exact fun hpe => hne (h.ring_inj hn i m.deferredIdx (heq ▸ hi) hv
                (succ.inj hpe))
          · exact hvalid.weaken hsub
        ring_inj := by
          intro hn i j hi hj hp
          have hn' : m.hash.noFreeOnDel = true := hflag' ▸ hn
          rcases hring i hi with ⟨hi', hpi⟩ | ⟨hi', heqi⟩ <;>
            rcases hring j hj with ⟨hj', hpj⟩ | ⟨hj', heqj⟩
          · rw [hi', hj']
          · rw [hpi, heqj] at hp
            exact absurd ⟨hn', j, heqj ▸ hj, by rw [hp]⟩ hnotheld
          · rw [hpj, heqi] at hp
            exact absurd ⟨hn', i, heqi ▸ hi, by rw [hp]⟩ hnotheld
          · rw [heqi, heqj] at hp
            exact h.ring_inj hn' i j (heqi ▸ hi) (heqj ▸ hj) hp
        imsi_end := fun p => by
          rw [hent]
          by_cases hp : p = pos
          · subst hp; simp [MapEntry.zero]
          · simpa [hp] using h.imsi_end p
        live_entry := fun k r hk => by
          obtain ⟨hkk, hk'⟩ := hlive k r hk
          obtain ⟨hs, hi, hp⟩ := h.live_entry k r hk'
          have hne : r.position ≠ pos := by
            rintro rfl
            exact hkk (h.valid.slotOf_inj hs hslotkey)
          exact ⟨by rw [hslotOf, hother k hkk, hs], by simpa [hent, hne] using hi,
            by simpa [hent, hne] using hp⟩
        dead_entry := fun k hk => (hslotOf k).trans (hdead k hk) }

end RevMap

/-! ## Runs of both maps -/

/-- The call neither truncates an IMSI nor lets the ring release a slot still in it. -/
def RingSlotUnused (s : Tracked) : MapCall → Prop
  | .addTeidMap _ imsi _ => (cString imsi).length ≤ 15
  | .addUeipMap _ imsi _ => (cString imsi).length ≤ 15
  | .delTeidMap teid => (s.io.teid.deferred s.io.teid.deferredIdx).valid = false ∨
      s.io.teid.hash.lookup teid = none
  | .delUeipMap ueAddr => (s.io.ueip.deferred s.io.ueip.deferredIdx).valid = false ∨
      s.io.ueip.hash.lookup ueAddr = none

theorem step_inv (P : Placement) {s : Tracked} (ht : s.io.teid.Inv s.liveTeid)
    (hu : s.io.ueip.Inv s.liveUeip) {c : MapCall} (hc : RingSlotUnused s c) :
    (s.step P c).io.teid.Inv (s.step P c).liveTeid ∧
      (s.step P c).io.ueip.Inv (s.step P c).liveUeip := by
  cases c with
  | addTeidMap teid imsi psid => exact ⟨(ht.addMap P teid hc psid).1, hu⟩
  | delTeidMap teid => exact ⟨(ht.delMap (.inr hc)).1, hu⟩
  | addUeipMap ueAddr imsi psid => exact ⟨ht, (hu.addMap P ueAddr hc psid).1⟩
  | delUeipMap ueAddr => exact ⟨ht, (hu.delMap (.inr hc)).1⟩

theorem upfPktIoInit_inv {gUpfMaxSessions : UInt32} {io : ReverseMaps}
    (hinit : upfPktIoInit gUpfMaxSessions = some io) :
    io.teid.Inv (fun _ => none) ∧ io.ueip.Inv (fun _ => none) := by
  simp only [upfPktIoInit, Option.bind_eq_bind, Option.bind_eq_some_iff, Option.pure_def,
    some.injEq] at hinit
  grind [RevMap.create_inv]

/-- **The reverse maps answer faithfully** in every state of every run whose deletions find an
unused ring slot: live keys sit at distinct positions and are looked up to the session last
registered for them, and keys that are not live are not found. -/
theorem reverse_maps_faithful (P : Placement) {gUpfMaxSessions : UInt32} {io : ReverseMaps}
    (hinit : upfPktIoInit gUpfMaxSessions = some io) {s : Tracked}
    (hs : Reach (Tracked.step P) RingSlotUnused (.start io) s) : s.Faithful := by
  have hinv : s.io.teid.Inv s.liveTeid ∧ s.io.ueip.Inv s.liveUeip := by
    induction hs with
    | start => exact upfPktIoInit_inv hinit
    | next e _ hc ih => exact step_inv P ih.1 ih.2 hc
  exact ⟨hinv.1.faithful, hinv.2.faithful⟩

theorem upfPktIoInit_2048 : ∃ io, upfPktIoInit 2048 = some io := ⟨_, rfl⟩

theorem reverse_maps_faithful_session : ∃ io, upfPktIoInit 2048 = some io ∧
    ((Tracked.start io).step .roomy (.addTeidMap 0x1001 [48, 48, 49, 48, 49] 5)).Faithful := by
  obtain ⟨io, hio⟩ := upfPktIoInit_2048
  refine ⟨io, hio, reverse_maps_faithful .roomy hio (.next _ .start ?_)⟩
  simp [RingSlotUnused, cString]

/-! ## Reusing positions past the ring

A temporary key that is added and deleted over and over takes the free slots in turn and returns
each to the tail of the ring of free slots.  From the 257th deletion on, the deferred-free ring
returns an old slot once more after it. -/

namespace Churn

def tempKey : UInt32 := 0x10

def keyA : UInt32 := 0x20

def keyB : UInt32 := 0x30

def imsiOf (digit : UInt8) : List UInt8 := [48, 48, 49, 48, 49, digit]

/-- `n` rounds of adding and deleting the temporary key. -/
def rounds (n : Nat) : List MapCall :=
  (List.replicate n [.addTeidMap tempKey (imsiOf 48) 1, .delTeidMap tempKey]).flatten

/-- `N` rounds, a session under key A, `k` more rounds, a session under key B. -/
def calls (N k : Nat) : List MapCall :=
  rounds N ++ .addTeidMap keyA (imsiOf 49) 1 :: (rounds k ++ [.addTeidMap keyB (imsiOf 50) 1])

def round (m : RevMap) : RevMap :=
  ((m.addMap .roomy tempKey (imsiOf 48) 1).1.delMap tempKey).1

theorem run_rounds (n : Nat) (s : Tracked) :
    (run (Tracked.step .roomy) s (rounds n)).io.teid = round^[n] s.io.teid ∧
      ∀ k, k ≠ tempKey →
        (run (Tracked.step .roomy) s (rounds n)).liveTeid k = s.liveTeid k := by
  induction n generalizing s with
  | zero => exact ⟨rfl, fun _ _ => rfl⟩
  | succ n ih =>
    have hrun : run (Tracked.step .roomy) s (rounds (n + 1)) =
        run (Tracked.step .roomy)
          ((s.step .roomy (.addTeidMap tempKey (imsiOf 48) 1)).step .roomy (.delTeidMap tempKey))
          (rounds n) := by
      simp [rounds, replicate_succ]
    obtain ⟨hmap, hlive⟩ := ih
      ((s.step .roomy (.addTeidMap tempKey (imsiOf 48) 1)).step .roomy (.delTeidMap tempKey))
    rw [hrun]
    refine ⟨hmap, fun k hk => (hlive k hk).trans ?_⟩
    simp only [Tracked.step]
    rw [Live.unregister_of_ne _ hk, Live.register_of_ne _ hk]

variable {m : RevMap} {slot : Nat} {rest : List Nat}

/-- A key that no bucket entry stores is given the head of the free slots. -/
theorem addMap_fresh {key : UInt32} (hfree : m.hash.freeSlots = slot :: rest)
    (hkey : ∀ e ∈ m.hash.buckets, m.hash.keyStore e.keyIdx ≠ key) (imsi : List UInt8)
    (psid : UInt8) :
    (m.addMap .roomy key imsi psid).2 = some (slot - 1) ∧
      (m.addMap .roomy key imsi psid).1.hash =
        { m.hash with
          freeSlots := rest
          keyStore := update m.hash.keyStore slot key
          buckets := m.hash.buckets ++ [⟨rteJhash key, slot⟩] } ∧
      (m.addMap .roomy key imsi psid).1.deferred = m.deferred ∧
      (m.addMap .roomy key imsi psid).1.deferredIdx = m.deferredIdx := by
  have hnone : m.hash.search key = none := by
    rw [search, find?_eq_none]
    intro e he
    simp [hits, hkey e he]
  simp [RevMap.addMap, addKey, hnone, hfree, Placement.roomy]

/-- One round moves the head of the free slots to the tail, followed by what the deferred-free
ring gives up. -/
theorem round_spec (hfree : m.hash.freeSlots = slot :: rest)
    (hslot : ∀ e ∈ m.hash.buckets, e.keyIdx ≠ slot)
    (hkey : ∀ e ∈ m.hash.buckets, m.hash.keyStore e.keyIdx ≠ tempKey)
    (hflag : m.hash.noFreeOnDel = false) :
    let h := ({ m.hash with
      freeSlots := rest
      keyStore := update m.hash.keyStore slot tempKey } : RteHash).freeSlot slot
    (round m).hash =
        (if (m.deferred m.deferredIdx).valid
          then h.freeKeyWithPosition (m.deferred m.deferredIdx).position else h) ∧
      (round m).deferred = update m.deferred m.deferredIdx ⟨slot - 1, true⟩ ∧
      (round m).deferredIdx = m.deferredIdx + 1 := by
  obtain ⟨-, hhash, hdef, hidx⟩ := addMap_fresh hfree hkey (imsiOf 48) 1
  set m₁ := (m.addMap .roomy tempKey (imsiOf 48) 1).1 with hm₁
  have hmiss : ∀ e ∈ m.hash.buckets, m₁.hash.hits tempKey e = false := by
    intro e he
    simp [hits, hhash, update_of_ne (hslot e he), hkey e he]
  have hhit : m₁.hash.hits tempKey ⟨rteJhash tempKey, slot⟩ = true := by
    simp [hits, visits_self, hhash]
  have hsearch : m₁.hash.search tempKey = some ⟨rteJhash tempKey, slot⟩ := by
    grind [search]
  have herase : m₁.hash.buckets.erase ⟨rteJhash tempKey, slot⟩ = m.hash.buckets := by
    grind
  have hround : round m = (m₁.delMap tempKey).1 := rfl
  simp_all [RevMap.delMap, delKey, RevMap.deferFreePosition]

/-- The tail of the free slots after `n` rounds on a fresh table, with a deferred-free ring of
depth `d`. -/
def recycled (d : Nat) : Nat → List Nat
  | 0 => []
  | n + 1 => recycled d n ++ (n + 1) :: if d ≤ n then [n - d + 1] else []

theorem recycled_length (d n : Nat) : (recycled d n).length = n + (n - d) := by
  induction n with
  | zero => simp [recycled]
  | succ n ih =>
    simp only [recycled, length_append, ih, length_cons]
    split_ifs <;> simp <;> omega

theorem recycled_first {d n : Nat} (hn : n ≤ d) : recycled d n = List.range' 1 n := by
  induction n with
  | zero => rfl
  | succ n ih =>
    rw [recycled, ih (by omega), if_neg (by omega), range'_concat]
    simp [add_comm]

/-- After more than `d` rounds slot 1 is free again behind the first `d + 1` slots, whose first
is slot 1 too. -/
theorem recycled_tail (d k : Nat) :
    ∃ rest, recycled d (d + 1 + k) = List.range' 1 (d + 1) ++ 1 :: rest := by
  induction k with
  | zero =>
    refine ⟨[], ?_⟩
    rw [add_zero, recycled, recycled_first le_rfl, if_pos le_rfl, range'_concat]
    simp [add_comm]
  | succ k ih =>
    grind [recycled]

/-- A table of `N` slots after `n` rounds from fresh. -/
structure Rotated (N n : Nat) (m : RevMap) : Prop where
  free : m.hash.freeSlots = List.range' (n + 1) (N - n) ++ recycled 256 n
  buckets : m.hash.buckets = []
  entries : m.hash.entries = N
  freeRoom : 2 * N ≤ m.hash.freeRoom + 256
  noFreeOnDel : m.hash.noFreeOnDel = false
  idx : m.deferredIdx = Fin.ofNat 256 n
  ring_used : ∀ j, j < n → n ≤ j + 256 → m.deferred (Fin.ofNat 256 j) = ⟨j, true⟩
  ring_unused : ∀ j, n ≤ j → j < 256 → (m.deferred (Fin.ofNat 256 j)).valid = false

theorem rotated_zero : ∃ io, upfPktIoInit 2048 = some io ∧ Rotated 8192 0 io.teid := by
  have hcap : (teidMapCapacity 2048).toNat = 8192 := by decide
  refine ⟨_, rfl, ?_⟩
  exact
    { free := by
        simp_all [recycled]
      buckets := rfl
      entries := hcap
      freeRoom := by decide
      noFreeOnDel := rfl
      idx := rfl
      ring_used := fun j hj => absurd hj (not_lt_zero j)
      ring_unused := fun _ _ _ => rfl }

theorem ofNat_ne {j n : Nat} (h₁ : j < n) (h₂ : n < j + 256) :
    Fin.ofNat 256 j ≠ Fin.ofNat 256 n := by
  grind [Fin.val_ofNat]

theorem Rotated.round {N n : Nat} (h : Rotated N n m) (hn : n < N) (hN : 256 < N) :
    Rotated N (n + 1) (Churn.round m) := by
  have hfree : m.hash.freeSlots =
      (n + 1) :: (range' (n + 1 + 1) (N - (n + 1)) ++ recycled 256 n) := by
    rw [h.free, show N - n = N - (n + 1) + 1 by omega, range'_succ]
    rfl
  obtain ⟨hhash, hdef, hidx⟩ := round_spec hfree (by simp [h.buckets]) (by simp [h.buckets])
    h.noFreeOnDel
  set rest := range' (n + 1 + 1) (N - (n + 1)) ++ recycled 256 n with hrest
  have hlen : rest.length + 1 = N + (n - 256) := by
    simp only [hrest, length_append, length_range', recycled_length]
    omega
  have hroom := h.freeRoom
  set h₁ : RteHash := { m.hash with
    freeSlots := rest
    keyStore := update m.hash.keyStore (n + 1) tempKey } with hh₁
  have hfree₁ : h₁.freeSlot (n + 1) = { h₁ with freeSlots := rest ++ [n + 1] } := by
    rw [freeSlot, if_pos]
    show rest.length < m.hash.freeRoom
    omega
  have hhash' : (Churn.round m).hash =
      { h₁ with freeSlots := range' (n + 1 + 1) (N - (n + 1)) ++ recycled 256 (n + 1) } := by
    rw [hhash, hfree₁, h.idx]
    by_cases hlt : n < 256
    · have hv := h.ring_unused n le_rfl hlt
      have hnot : ¬ 256 ≤ n := by omega
      rw [hv, if_neg Bool.false_ne_true]
      simp [recycled, hrest, hnot]
    · have hold : Fin.ofNat 256 n = Fin.ofNat 256 (n - 256) := by
        apply Fin.ext
        simp only [Fin.val_ofNat]
        omega
      have hv : m.deferred (Fin.ofNat 256 n) = ⟨n - 256, true⟩ := by
        rw [hold]; exact h.ring_used (n - 256) (by omega) (by omega)
      have hbound : ¬ n - 256 + 1 ≥ h₁.entries + 1 := by
        rw [h.entries]; omega
      have hroom' : (rest ++ [n + 1]).length < h₁.freeRoom := by
        grind
      rw [hv, if_pos rfl, freeKeyWithPosition, if_neg hbound, freeSlot,
        if_pos hroom', recycled, if_pos (by omega)]
      simp [hrest]
  exact
    { free := by rw [hhash']
      buckets := by rw [hhash']; exact h.buckets
      entries := by rw [hhash']; exact h.entries
      freeRoom := by rw [hhash']; exact h.freeRoom
      noFreeOnDel := by rw [hhash']; exact h.noFreeOnDel
      idx := by
        rw [hidx, h.idx]
        apply Fin.ext
        simp [Fin.val_add]
      ring_used := by
        intro j hj hj'
        rw [hdef, h.idx]
        by_cases hjn : j = n
        · subst hjn; simp
        · rw [update_of_ne (ofNat_ne (by omega) (by omega))]
          exact h.ring_used j (by omega) (by omega)
      ring_unused := by
        intro j hj hj'
        rw [hdef, h.idx, update_of_ne (ofNat_ne (by omega) (by omega)).symm]
        exact h.ring_unused j (by omega) hj' }

theorem Rotated.rounds {N : Nat} (h : Rotated N 0 m) (hN : 256 < N) :
    ∀ n ≤ N, Rotated N n (Churn.round^[n] m) := by
  intro n
  induction n with
  | zero => intro _; exact h
  | succ n ih =>
    intro hn
    rw [iterate_succ_apply']
    exact (ih (by omega)).round (by omega) hN

/-- A table with one live key, at slot 1, which is free as well behind `k` other slots. -/
structure Shadowed (k : Nat) (m : RevMap) : Prop where
  free : ∃ rest, m.hash.freeSlots = List.range' (258 - k) k ++ 1 :: rest
  buckets : m.hash.buckets = [⟨rteJhash keyA, 1⟩]
  keyStore : m.hash.keyStore 1 = keyA
  noFreeOnDel : m.hash.noFreeOnDel = false

theorem freeSlot_prefix (h : RteHash) (s : Nat) :
    ∃ ext, (h.freeSlot s).freeSlots = h.freeSlots ++ ext := by
  unfold freeSlot
  split_ifs
  · exact ⟨_, rfl⟩
  · exact ⟨[], (append_nil _).symm⟩

theorem freeKeyWithPosition_prefix (h : RteHash) (pos : Nat) :
    ∃ ext, (h.freeKeyWithPosition pos).freeSlots = h.freeSlots ++ ext := by
  unfold freeKeyWithPosition
  split_ifs
  · exact ⟨[], (append_nil _).symm⟩
  · exact freeSlot_prefix h _

@[simp] theorem freeKeyWithPosition_buckets (h : RteHash) (pos : Nat) :
    (h.freeKeyWithPosition pos).buckets = h.buckets := by
  unfold freeKeyWithPosition; split_ifs <;> simp

@[simp] theorem freeKeyWithPosition_keyStore (h : RteHash) (pos : Nat) :
    (h.freeKeyWithPosition pos).keyStore = h.keyStore := by
  unfold freeKeyWithPosition; split_ifs <;> simp

theorem Shadowed.round {k : Nat} (h : Shadowed (k + 1) m) (hk : k + 1 ≤ 256) :
    Shadowed k (Churn.round m) := by
  obtain ⟨rest, hrest⟩ := h.free
  have hfree : m.hash.freeSlots = (258 - (k + 1)) :: (range' (258 - k) k ++ 1 :: rest) := by
    rw [hrest, range'_succ, show 258 - (k + 1) + 1 = 258 - k by omega]
    rfl
  have hslot : ∀ e ∈ m.hash.buckets, e.keyIdx ≠ 258 - (k + 1) := by
    intro e he
    rw [h.buckets, mem_singleton] at he
    rw [he]
    show 1 ≠ 258 - (k + 1)
    omega
  have hkey : ∀ e ∈ m.hash.buckets, m.hash.keyStore e.keyIdx ≠ tempKey := by
    intro e he
    rw [h.buckets, mem_singleton] at he
    rw [he, h.keyStore]
    decide
  obtain ⟨hhash, -, -⟩ := round_spec hfree hslot hkey h.noFreeOnDel
  have hne : (1 : Nat) ≠ 258 - (k + 1) := by omega
  set h₁ : RteHash := { m.hash with
    freeSlots := range' (258 - k) k ++ 1 :: rest
    keyStore := update m.hash.keyStore (258 - (k + 1)) tempKey } with hh₁
  obtain ⟨ext, hext⟩ := freeSlot_prefix h₁ (258 - (k + 1))
  have hext' : ∃ ext, (Churn.round m).hash.freeSlots = h₁.freeSlots ++ ext := by
    rw [hhash]
    split_ifs
    · obtain ⟨ext', hext'⟩ := freeKeyWithPosition_prefix (h₁.freeSlot (258 - (k + 1)))
        (m.deferred m.deferredIdx).position
      exact ⟨ext ++ ext', by rw [hext', hext, append_assoc]⟩
    · exact ⟨ext, hext⟩
  obtain ⟨ext', hext'⟩ := hext'
  exact
    { free := ⟨rest ++ ext', by rw [hext']; simp [hh₁]⟩
      buckets := by
        rw [hhash]
        split_ifs <;> simp [hh₁, h.buckets]
      keyStore := by
        have hstore : h₁.keyStore 1 = keyA := (update_of_ne hne _ _).trans h.keyStore
        rw [hhash]
        split_ifs <;> simpa using hstore
      noFreeOnDel := by
        rw [hhash]
        split_ifs <;> simp [hh₁, h.noFreeOnDel] }

theorem Shadowed.rounds (h : Shadowed 256 m) :
    ∀ n ≤ 256, Shadowed (256 - n) (Churn.round^[n] m) := by
  intro n
  induction n with
  | zero => intro _; exact h
  | succ n ih =>
    intro hn
    rw [iterate_succ_apply']
    have hprev := ih (by omega)
    rw [show 256 - n = 256 - (n + 1) + 1 by omega] at hprev
    exact hprev.round (by omega)

/-- Key A, added after the free slots went once round, takes slot 1. -/
theorem shadowed_start {N : Nat} (h : Rotated N N m) (hN : 256 < N) :
    (m.addMap .roomy keyA (imsiOf 49) 1).2 = some 0 ∧
      Shadowed 256 (m.addMap .roomy keyA (imsiOf 49) 1).1 := by
  obtain ⟨rest, hrest⟩ := recycled_tail 256 (N - 257)
  have hfree : m.hash.freeSlots = 1 :: (range' 2 256 ++ 1 :: rest) := by
    rw [h.free, Nat.sub_self, show N = 256 + 1 + (N - 257) by omega, hrest, List.range'_succ]
    rfl
  have hfresh : ∀ e ∈ m.hash.buckets, m.hash.keyStore e.keyIdx ≠ keyA := by simp [h.buckets]
  obtain ⟨hpos, hhash, -, -⟩ := addMap_fresh hfree hfresh (imsiOf 49) 1
  refine ⟨hpos, ?_⟩
  exact
    { free := ⟨rest, by rw [hhash]⟩
      buckets := by rw [hhash, h.buckets]; rfl
      keyStore := by rw [hhash]; exact update_self 1 keyA m.hash.keyStore
      noFreeOnDel := by rw [hhash]; exact h.noFreeOnDel }

/-- Once slot 1 is at the head again, key B takes it too. -/
theorem shadowed_end (h : Shadowed 0 m) : (m.addMap .roomy keyB (imsiOf 50) 1).2 = some 0 := by
  obtain ⟨rest, hrest⟩ := h.free
  have hhead : m.hash.freeSlots = 1 :: rest := hrest
  refine (addMap_fresh hhead ?_ (imsiOf 50) 1).1
  intro e he
  rw [h.buckets, mem_singleton] at he
  rw [he, h.keyStore]
  decide

/-- A table of `N` slots gives key A and key B the same position when all slots went once round
before A is added, and the slots up to the one of A once more before B is. -/
theorem not_faithful_calls {N k : Nat} {io : ReverseMaps} (h : Rotated N 0 io.teid)
    (hN : 256 < N) (hk : k = 256) :
    ¬ (run (Tracked.step .roomy) (.start io) (calls N k)).Faithful := by
  intro hfaithful
  have hrot := h.rounds hN N (Nat.le_refl N)
  rw [calls, run_append, run_cons, run_append, run_cons, run_nil] at hfaithful
  obtain ⟨hmap₁, -⟩ := run_rounds N (.start io)
  generalize run (Tracked.step .roomy) (.start io) (rounds N) = s₁ at hmap₁ hfaithful
  have hrot₁ : Rotated N N s₁.io.teid := hmap₁ ▸ hrot
  obtain ⟨hposA, hshadow⟩ := shadowed_start hrot₁ hN
  set s₂ := s₁.step .roomy (.addTeidMap keyA (imsiOf 49) 1) with hs₂
  have hliveA : s₂.liveTeid keyA = some ⟨0, cString (imsiOf 49), 1⟩ := by
    simp [hs₂, Tracked.step, upfPktIoAddTeidMap, hposA]
  obtain ⟨hmap₃, hlive₃⟩ := run_rounds k s₂
  generalize run (Tracked.step .roomy) s₂ (rounds k) = s₃ at hmap₃ hlive₃ hfaithful
  have hend : Shadowed (256 - k) s₃.io.teid := by
    rw [hmap₃]
    exact hshadow.rounds k hk.le
  rw [hk, Nat.sub_self] at hend
  have hposB := shadowed_end hend
  have hliveA₃ := (hlive₃ keyA (by decide)).trans hliveA
  refine hfaithful.1.distinct keyA keyB ⟨0, cString (imsiOf 49), 1⟩
    ⟨0, cString (imsiOf 50), 1⟩ ?_ ?_ (by decide) rfl
  · simp only [Tracked.step]
    rw [Live.register_of_ne _ (by decide)]
    exact hliveA₃
  · simp [Tracked.step, upfPktIoAddTeidMap, hposB]

end Churn

/-- **Two live TEIDs share a position** in a table of 8192 entries, after 8448 sessions came and
went: the maps are not faithful in every run. -/
theorem reverse_maps_alias : ∃ io, upfPktIoInit 2048 = some io ∧
    ¬ (run (Tracked.step .roomy) (.start io) (Churn.calls 8192 256)).Faithful := by
  obtain ⟨io, hio, hzero⟩ := Churn.rotated_zero
  exact ⟨io, hio, Churn.not_faithful_calls hzero (by decide) rfl⟩

end MmtCore.Upf
