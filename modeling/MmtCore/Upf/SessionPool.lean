import MmtCore.Lib.SlotTable
import MmtCore.Upf.ReverseMap

/-!
# Sessions in a pre-allocated pool

What the session table of the dataplane and those of its slices have in common: a lock-free
`rte_hash` from session keys to positions, a pool of sessions indexed by these positions, and a
count of live sessions.

A table created with `RTE_HASH_EXTRA_FLAGS_RW_CONCURRENCY_LF` does not recycle the slot of a
deleted key.  The slot stays out of the ring of free slots until `rte_hash_free_key_with_position`
is called on it.  Which bucket a key lies in decides nothing here but whether the displacement
search finds room for one more key: that is the parameter `room`, a function of the keys in the
table.
-/

namespace MmtCore.Upf

open MmtCore.Lib Function List SlotTable

/-! ## Keys and sessions -/

/-- `upf_session_key_t`; `imsi` is the 16-byte buffer. -/
structure SessionKey where
  imsi : List UInt8
  pduSessionId : UInt8
deriving DecidableEq

/-- `make_key`. -/
def makeKey (imsi : List UInt8) (psid : UInt8) : SessionKey :=
  ⟨strncpy (List.replicate 16 0) imsi 15, psid⟩

/-- The fields of `upf_session_t` that its creation sets. -/
structure Session where
  imsi : List UInt8
  pduSessionId : UInt8
  sst : UInt8
  sd : Nat
  sessionIdx : Nat
  active : Bool
deriving DecidableEq

/-- A session after `memset` or `rte_zmalloc`. -/
def Session.zero : Session := ⟨List.replicate 16 0, 0, 0, 0, 0, false⟩

/-- A session as it is created at a position. -/
def Session.create (imsi : List UInt8) (psid sst : UInt8) (idx : Nat) : Session :=
  { Session.zero with
    imsi := strncpy Session.zero.imsi imsi 15
    pduSessionId := psid
    sst := sst
    sd := 0xFFFFFF
    sessionIdx := idx
    active := true }

/-- The key a session is stored under. -/
def Session.key (sess : Session) : SessionKey := ⟨sess.imsi, sess.pduSessionId⟩

theorem Session.create_key (imsi : List UInt8) (psid sst : UInt8) (idx : Nat) :
    (Session.create imsi psid sst idx).key = makeKey imsi psid := rfl

/-! ## The lock-free hash -/

/-- The positions of the keys, and the free ones in the order of the ring. -/
abbrev LfHash := SlotTable SessionKey

/-- The displacement search makes room for a key among those in the table. -/
abbrev Room := List (SessionKey × Nat) → SessionKey → Bool

namespace LfHash

/-- `rte_hash_create` with `RTE_HASH_EXTRA_FLAGS_RW_CONCURRENCY_LF`. -/
def create (entries : Nat) : Option LfHash :=
  if entries > rteHashEntriesMax ∨ entries < rteHashBucketEntries then none
  else some (SlotTable.empty entries)

/-- `rte_hash_add_key`: the position of the key, or `none` for `-ENOSPC`. -/
def addKey (room : Room) (h : LfHash) (key : SessionKey) : LfHash × Option Nat :=
  match h.slotOf key with
  | some pos => (h, some pos)
  | none =>
    match h.free with
    | [] => (h, none)
    | pos :: rest =>
      if room h.used key then (⟨rest, (key, pos) :: h.used⟩, some pos)
      else (⟨rest ++ [pos], h.used⟩, none)

/-- `rte_hash_del_key`: the slot is not recycled. -/
def delKey (h : LfHash) (key : SessionKey) : LfHash × Option Nat :=
  match h.slotOf key with
  | some pos => (h.drop key, some pos)
  | none => (h, none)

/-- `rte_hash_free_key_with_position`, on a table of this many entries. -/
def freeKeyWithPosition (entries : Nat) (h : LfHash) (position : Nat) : LfHash :=
  if position + 1 ≥ entries + 1 then h else h.give position

end LfHash

/-! ## The pool -/

structure SessionPool where
  /-- The configured maximum, which is also the number of entries of the hash. -/
  max : Nat
  hash : LfHash
  pool : Nat → Session
  count : Nat

namespace SessionPool

/-- The common part of `upf_session_create` and `upf_slice_session_create`: the position of the
new session. -/
def create (room : Room) (p : SessionPool) (sst : UInt8) (imsi : List UInt8) (psid : UInt8) :
    SessionPool × Option Nat :=
  if p.count ≥ p.max then (p, none)
  else
    let key := makeKey imsi psid
    match p.hash.slotOf key with
    | some _ => (p, none)
    | none =>
      match p.hash.addKey room key with
      | (hash, none) => ({ p with hash }, none)
      | (hash, some idx) =>
        ({ p with
            hash
            pool := update p.pool idx (Session.create imsi psid sst idx)
            count := p.count + 1 }, some idx)

/-- `upf_session_get` and `upf_slice_session_get`. -/
def get (p : SessionPool) (imsi : List UInt8) (psid : UInt8) : Option Session :=
  match p.hash.slotOf (makeKey imsi psid) with
  | none => none
  | some idx => if (p.pool idx).active then some (p.pool idx) else none

/-- The common part of the two deletions, up to `rte_hash_del_key` and the count: the position
that is no longer in use. -/
def delete (p : SessionPool) (imsi : List UInt8) (psid : UInt8) : SessionPool × Option Nat :=
  let key := makeKey imsi psid
  match p.hash.slotOf key with
  | none => (p, none)
  | some idx =>
    ({ p with
        hash := (p.hash.delKey key).1
        pool := update p.pool idx { p.pool idx with active := false }
        count := p.count - 1 }, some idx)

end SessionPool

/-! ## What the callers know -/

/-- The live sessions by key, with the position each was created at. -/
abbrev LiveSessions := List (SessionKey × Nat)

/-- A successful creation adds the session. -/
def LiveSessions.created (live : LiveSessions) (key : SessionKey) : Option Nat → LiveSessions
  | none => live
  | some pos => (key, pos) :: live

/-- A successful deletion takes it out. -/
def LiveSessions.deleted (live : LiveSessions) (key : SessionKey) : Option Nat → LiveSessions
  | none => live
  | some _ => live.filter fun p => decide (p.1 ≠ key)

/-- Live sessions have distinct keys and distinct slots; each is found where it was created, as it
was created; and nothing else is found. -/
structure LiveSessions.Served (live : LiveSessions)
    (get : List UInt8 → UInt8 → Option Session) : Prop where
  keys : (live.map Prod.fst).Nodup
  distinct : ∀ k₁ k₂ pos, (k₁, pos) ∈ live → (k₂, pos) ∈ live → k₁ = k₂
  found : ∀ imsi psid pos, (makeKey imsi psid, pos) ∈ live →
    ∃ sess, get imsi psid = some sess ∧ sess.key = makeKey imsi psid ∧ sess.sessionIdx = pos
  gone : ∀ imsi psid, live.lookup (makeKey imsi psid) = none → get imsi psid = none

/-! ## The invariant -/

namespace SessionPool

/-- The keys of the hash are the live sessions, every other slot is free or held, and the count is
right. -/
structure Inv (p : SessionPool) (live : LiveSessions) (held : List Nat) : Prop where
  owns : p.hash.Owns p.max held
  live_eq : p.hash.used = live
  count_eq : p.count = live.length
  stored : ∀ k pos, (k, pos) ∈ live → (p.pool pos).key = k ∧ (p.pool pos).sessionIdx = pos ∧
    (p.pool pos).active = true

variable {p : SessionPool} {live : LiveSessions} {held : List Nat} {imsi : List UInt8}
  {psid sst : UInt8} {room : Room}

theorem Inv.served (h : p.Inv live held) : live.Served p.get where
  keys := by
    rw [← h.live_eq]
    exact h.owns.keys
  distinct := by
    intro k₁ k₂ pos h₁ h₂
    rw [← h.live_eq] at h₁ h₂
    exact h.owns.slotOf_inj (h.owns.slotOf_iff.2 h₁) (h.owns.slotOf_iff.2 h₂)
  found := by
    intro imsi psid pos hmem
    obtain ⟨hkey, hidx, hactive⟩ := h.stored _ pos hmem
    have hslot : p.hash.slotOf (makeKey imsi psid) = some pos := by
      rw [h.owns.slotOf_iff, h.live_eq]
      exact hmem
    refine ⟨p.pool pos, ?_, hkey, hidx⟩
    simp [get, hslot, hactive]
  gone := by
    intro imsi psid hnone
    have hslot : p.hash.slotOf (makeKey imsi psid) = none := by
      rw [slotOf, h.live_eq]
      exact hnone
    simp [get, hslot]

theorem inv_empty (n : Nat) : Inv ⟨n, SlotTable.empty n, fun _ => Session.zero, 0⟩ [] [] where
  owns := owns_empty n
  live_eq := rfl
  count_eq := rfl
  stored := by
    intro k pos hmem
    cases hmem

/-- A creation succeeds exactly when a slot is free that the key can be placed with. -/
theorem Inv.create_isSome (h : p.Inv live held) (room : Room) (sst : UInt8)
    (hnew : live.lookup (makeKey imsi psid) = none) :
    (p.create room sst imsi psid).2.isSome = true ↔
      live.length + held.length < p.max ∧ room live (makeKey imsi psid) = true := by
  have hcount := h.owns.count
  have hslot : p.hash.slotOf (makeKey imsi psid) = none := by
    rw [slotOf, h.live_eq]
    exact hnew
  rw [h.live_eq] at hcount
  unfold create
  by_cases hfull : p.count ≥ p.max
  · rw [if_pos hfull]
    rw [h.count_eq] at hfull
    simp only [Option.isSome_none, Bool.false_eq_true, false_iff, not_and]
    intro hlt
    omega
  · rw [if_neg hfull]
    simp only [hslot, LfHash.addKey]
    cases hfree : p.hash.free with
    | nil =>
      rw [hfree] at hcount
      simp only [length_nil, Nat.zero_add] at hcount
      simp only [Option.isSome_none, Bool.false_eq_true, false_iff, not_and]
      intro hlt
      omega
    | cons pos rest =>
      rw [hfree] at hcount
      simp only [List.length_cons] at hcount
      have hlt : live.length + held.length < p.max := by omega
      simp only [h.live_eq, hlt, true_and]
      grind

/-- A creation keeps the invariant, and what is held. -/
theorem Inv.create (h : p.Inv live held) (room : Room) (sst : UInt8) (imsi : List UInt8)
    (psid : UInt8) :
    (p.create room sst imsi psid).1.Inv
        (live.created (makeKey imsi psid) (p.create room sst imsi psid).2) held ∧
      (p.create room sst imsi psid).1.max = p.max := by
  unfold SessionPool.create
  by_cases hfull : p.count ≥ p.max
  · rw [if_pos hfull]
    exact ⟨h, rfl⟩
  rw [if_neg hfull]
  dsimp only
  cases hslot : p.hash.slotOf (makeKey imsi psid) with
  | some pos => exact ⟨h, rfl⟩
  | none =>
    simp only [LfHash.addKey, hslot]
    cases hfree : p.hash.free with
    | nil => exact ⟨h, rfl⟩
    | cons pos rest =>
      by_cases hroom : room p.hash.used (makeKey imsi psid) = true
      · simp only [hroom, if_true]
        have howns := h.owns.take hslot hfree
        refine ⟨?_, trivial⟩
        refine ⟨howns, ?_, ?_, ?_⟩
        · simp only [LiveSessions.created, h.live_eq]
        · simp only [LiveSessions.created, h.count_eq, length_cons]
        · intro k q hmem
          simp only [LiveSessions.created, mem_cons, Prod.mk.injEq] at hmem
          rcases hmem with ⟨rfl, rfl⟩ | hmem
          · simp only [update_self]
            exact ⟨Session.create_key .., rfl, rfl⟩
          · -- the new position is not one of a live session
            have hne : q ≠ pos := by
              rintro rfl
              have hused : (k, q) ∈ (makeKey imsi psid, q) :: p.hash.used := by
                rw [h.live_eq]
                exact mem_cons_of_mem _ hmem
              have hkey := howns.slotOf_inj (howns.slotOf_iff.2 hused)
                (howns.slotOf_iff.2 (mem_cons_self ..))
              subst hkey
              rw [← h.live_eq] at hmem
              rw [h.owns.slotOf_iff.2 hmem] at hslot
              cases hslot
            simp only [ne_eq, hne, not_false_eq_true, update_of_ne]
            exact h.stored k q hmem
      · simp only [hroom, Bool.false_eq_true, if_false]
        exact ⟨⟨h.owns.rotate hfree, h.live_eq, h.count_eq, h.stored⟩, trivial⟩

/-- A deletion that finds nothing changes nothing; one that finds a session leaves its slot held. -/
theorem Inv.delete (h : p.Inv live held) (imsi : List UInt8) (psid : UInt8) :
    (p.delete imsi psid).1.Inv (live.deleted (makeKey imsi psid) (p.delete imsi psid).2)
        ((p.delete imsi psid).2.toList ++ held) ∧
      (p.delete imsi psid).1.max = p.max ∧
      (p.delete imsi psid).2 = live.lookup (makeKey imsi psid) := by
  unfold SessionPool.delete
  have hlookup : p.hash.slotOf (makeKey imsi psid) = live.lookup (makeKey imsi psid) := by
    rw [slotOf, h.live_eq]
  dsimp only
  cases hslot : p.hash.slotOf (makeKey imsi psid) with
  | none => exact ⟨h, rfl, hslot.symm.trans hlookup⟩
  | some pos =>
    refine ⟨?_, rfl, hslot.symm.trans hlookup⟩
    have hmem : (makeKey imsi psid, pos) ∈ live := by
      rw [← h.live_eq]
      exact h.owns.slotOf_iff.1 hslot
    have howns := h.owns.drop hslot
    have hperm := used_perm h.owns.keys (h.owns.slotOf_iff.1 hslot)
    simp only [LfHash.delKey, hslot, LiveSessions.deleted, Option.toList_some, singleton_append]
    refine ⟨howns, ?_, ?_, ?_⟩
    · simp only [SlotTable.drop, h.live_eq]
    · have hlen := hperm.length_eq
      simp only [SlotTable.drop, h.live_eq, List.length_cons] at hlen
      rw [h.count_eq, hlen]
      rfl
    · intro k q hk
      simp only [List.mem_filter, decide_eq_true_eq] at hk
      have hne : q ≠ pos := by
        rintro rfl
        exact hk.2 (h.served.distinct _ _ _ hk.1 hmem)
      simp only [ne_eq, hne, not_false_eq_true, update_of_ne]
      exact h.stored k q hk.1

end SessionPool

end MmtCore.Upf
