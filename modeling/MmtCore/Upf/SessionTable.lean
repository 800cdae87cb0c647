import Mathlib.Algebra.GroupWithZero.Nat
import MmtCore.Upf.SessionPool

/-!
# The session table of the dataplane

`upf_session_table.c`: a deletion puts the position it takes out of the table in a ring of 256
positions, and the one it overwrites there is released.  The ring is never emptied otherwise.  So
up to 256 slots of deleted sessions are out of use at any time, and a creation needs one that is
neither live nor in the ring (`session_create_iff`); a table of 256 sessions that has seen 256
deletions creates none any more (`session_table_exhausted`).
-/

namespace MmtCore.Upf

open MmtCore.Lib Function List Option DeferredFreeSlot

/-! ## The table -/

/-- `upf_dp_set_max_sessions`: the new maximum, if it is accepted. -/
def upfDpSetMaxSessions (dpInitialized : Bool) (n : UInt32) : Option UInt32 :=
  if dpInitialized then none
  else if n < 256 then none
  else some n

/-- `SESSION_DEFERRED_DEPTH`. -/
abbrev sessionDeferredDepth : Nat := 256

local instance : NeZero sessionDeferredDepth := ⟨Nat.succ_ne_zero 255⟩

structure SessionTable where
  /-- `session_hash` and `session_pool`, once they are there. -/
  sessions : Option SessionPool
  deferred : Fin sessionDeferredDepth → DeferredFreeSlot
  deferredIdx : Fin sessionDeferredDepth

/-- `upf_session_table_init`. -/
def upfSessionTableInit (gUpfMaxSessions : UInt32) : SessionTable where
  sessions := (LfHash.create gUpfMaxSessions.toNat).map fun hash =>
    { max := gUpfMaxSessions.toNat, hash, pool := fun _ => .zero, count := 0 }
  deferred := fun _ => ⟨0, false⟩
  deferredIdx := 0

/-- `upf_session_create`; `none` is the null pointer. -/
def upfSessionCreate (room : Room) (t : SessionTable) (imsi : List UInt8) (psid : UInt8) :
    SessionTable × Option Nat :=
  match t.sessions with
  | none => (t, none)
  | some p =>
    let r := p.create room 0 imsi psid
    ({ t with sessions := some r.1 }, r.2)

/-- `upf_session_get`. -/
def upfSessionGet (t : SessionTable) (imsi : List UInt8) (psid : UInt8) : Option Session :=
  t.sessions.bind fun p => p.get imsi psid

/-- The position is put in the ring, and the one it overwrites there is released. -/
def SessionTable.defer (t : SessionTable) (p : SessionPool) (pos : Nat) : SessionTable :=
  let slot := t.deferred t.deferredIdx
  { sessions := some (if slot.valid then
      { p with hash := LfHash.freeKeyWithPosition p.max p.hash slot.position } else p)
    deferred := update t.deferred t.deferredIdx ⟨pos, true⟩
    deferredIdx := t.deferredIdx + 1 }

/-- `upf_session_delete`; `none` is the return value -1. -/
def upfSessionDelete (t : SessionTable) (imsi : List UInt8) (psid : UInt8) :
    SessionTable × Option Nat :=
  match t.sessions with
  | none => (t, none)
  | some p =>
    match p.delete imsi psid with
    | (p, none) => ({ t with sessions := some p }, none)
    | (p, some pos) => (t.defer p pos, some pos)

/-! ## Calls -/

inductive SessionCall
  | create (imsi : List UInt8) (psid : UInt8)
  | get (imsi : List UInt8) (psid : UInt8)
  | delete (imsi : List UInt8) (psid : UInt8)

/-- The table, with the live sessions and the number of deletions so far. -/
structure TrackedTable where
  table : SessionTable
  live : LiveSessions
  deletions : Nat

def TrackedTable.start (gUpfMaxSessions : UInt32) : TrackedTable :=
  ⟨upfSessionTableInit gUpfMaxSessions, [], 0⟩

def TrackedTable.step (room : Room) (s : TrackedTable) : SessionCall → TrackedTable
  | .create imsi psid =>
    let r := upfSessionCreate room s.table imsi psid
    { s with table := r.1, live := s.live.created (makeKey imsi psid) r.2 }
  | .get _ _ => s
  | .delete imsi psid =>
    let r := upfSessionDelete s.table imsi psid
    { table := r.1
      live := s.live.deleted (makeKey imsi psid) r.2
      deletions := s.deletions + r.2.toList.length }

/-! ## The positions in the ring -/

/-- The position a ring slot holds. -/
def DeferredFreeSlot.held (slot : DeferredFreeSlot) : Option Nat :=
  if slot.valid then some slot.position else none

/-- The positions the ring holds. -/
def heldPositions {n : Nat} (ring : Fin n → DeferredFreeSlot) : List Nat :=
  (List.finRange n).filterMap fun i => (ring i).held

/-- The positions of all ring slots but one. -/
def heldBut {n : Nat} (ring : Fin n → DeferredFreeSlot) (i : Fin n) : List Nat :=
  ((List.finRange n).erase i).filterMap fun j => (ring j).held

variable {n : Nat} {ring : Fin n → DeferredFreeSlot} {i : Fin n}

theorem heldPositions_perm (ring : Fin n → DeferredFreeSlot) (i : Fin n) :
    (heldPositions ring).Perm ((ring i).held.toList ++ heldBut ring i) := by
  have hperm := (perm_cons_erase (mem_finRange i)).filterMap fun j => (ring j).held
  refine hperm.trans ?_
  rw [filterMap_cons]
  cases (ring i).held with
  | none | some pos => exact List.Perm.refl _

theorem heldBut_update (slot : DeferredFreeSlot) :
    heldBut (update ring i slot) i = heldBut ring i := by
  refine filterMap_congr fun j hj => ?_
  grind [nodup_finRange]

/-! ## The invariant -/

/-- A ring slot is in use once it has been written. -/
def RingFilled (t : SessionTable) (deletions : Nat) : Prop :=
  t.deferredIdx.val = deletions % sessionDeferredDepth ∧
    ∀ i, (t.deferred i).valid = decide (i.val < deletions)

structure TrackedTable.Inv (M : Nat) (s : TrackedTable) : Prop where
  /-- The table is there when its size is one `rte_hash_create` accepts. -/
  created : s.table.sessions.isSome = true ↔
    rteHashBucketEntries ≤ M ∧ M ≤ rteHashEntriesMax
  pool : ∀ p, s.table.sessions = some p → p.max = M ∧
    p.Inv s.live (heldPositions s.table.deferred)
  absent : s.table.sessions = none → s.live = []
  ring : s.table.sessions.isSome = true → RingFilled s.table s.deletions
  held : s.table.sessions.isSome = true →
    (heldPositions s.table.deferred).length = min s.deletions sessionDeferredDepth

variable {M : Nat} {s : TrackedTable}

theorem start_inv (gUpfMaxSessions : UInt32) :
    (TrackedTable.start gUpfMaxSessions).Inv gUpfMaxSessions.toNat := by
  have hnil : heldPositions (fun _ : Fin sessionDeferredDepth => (⟨0, false⟩ : DeferredFreeSlot)) =
      [] := by
    refine filterMap_eq_nil_iff.2 fun i _ => ?_
    rfl
  constructor
  · simp only [TrackedTable.start, upfSessionTableInit, isSome_map, LfHash.create]
    split
    · simp only [Option.isSome_none, Bool.false_eq_true, false_iff, not_and]
      omega
    · simp only [isSome_some, true_iff]
      omega
  · intro p hp
    simp only [TrackedTable.start, upfSessionTableInit, LfHash.create, map_eq_some_iff,
      ite_none_left_eq_some] at hp
    obtain ⟨hash, ⟨-, hhash⟩, rfl⟩ := hp
    cases hhash
    refine ⟨rfl, ?_⟩
    show SessionPool.Inv _ [] (heldPositions fun _ => ⟨0, false⟩)
    rw [hnil]
    exact SessionPool.inv_empty _
  · intro _
    rfl
  · intro _
    refine ⟨rfl, fun i => ?_⟩
    simp [TrackedTable.start, upfSessionTableInit]
  · intro _
    show (heldPositions fun _ => ⟨0, false⟩).length = _
    rw [hnil]
    rfl

theorem TrackedTable.Inv.served (h : s.Inv M) : s.live.Served (upfSessionGet s.table) := by
  cases hp : s.table.sessions with
  | some p =>
    have hserved := (h.pool p hp).2.served
    unfold upfSessionGet
    rw [hp]
    exact hserved
  | none =>
    have hlive := h.absent hp
    rw [hlive]
    constructor
    · exact nodup_nil
    · intro k₁ k₂ pos hmem
      cases hmem
    · intro imsi psid pos hmem
      cases hmem
    · intro imsi psid _
      simp [upfSessionGet, hp]

/-- A creation succeeds exactly when the table is there, a slot is neither live nor in the ring,
and the key can be placed. -/
theorem TrackedTable.Inv.create_isSome (h : s.Inv M) (room : Room) {imsi : List UInt8}
    {psid : UInt8} (hnew : s.live.lookup (makeKey imsi psid) = none) :
    (upfSessionCreate room s.table imsi psid).2.isSome = true ↔
      rteHashBucketEntries ≤ M ∧ M ≤ rteHashEntriesMax ∧
        s.live.length + min s.deletions sessionDeferredDepth < M ∧
        room s.live (makeKey imsi psid) = true := by
  have hcreated := h.created
  unfold upfSessionCreate
  cases hp : s.table.sessions with
  | none =>
    simp_all
  | some p =>
    rw [hp] at hcreated
    simp only [Option.isSome_some, true_iff] at hcreated
    obtain ⟨hmax, hpool⟩ := h.pool p hp
    have hheld := h.held (by rw [hp]; rfl)
    have hiff := hpool.create_isSome room 0 hnew
    rw [hmax, hheld] at hiff
    simp only [hiff, hcreated, true_and]

/-! ## Every call keeps it -/

theorem TrackedTable.Inv.create (h : s.Inv M) (room : Room) (imsi : List UInt8) (psid : UInt8) :
    (s.step room (.create imsi psid)).Inv M := by
  simp only [TrackedTable.step, upfSessionCreate]
  cases hp : s.table.sessions with
  | none =>
    exact h
  | some p =>
    obtain ⟨hmax, hpool⟩ := h.pool p hp
    obtain ⟨hinv, hmax'⟩ := hpool.create room 0 imsi psid
    have hcreated := h.created
    rw [hp] at hcreated
    constructor
    · exact hcreated
    · simp_all
    · intro hnone
      cases hnone
    · intro _
      exact h.ring (by rw [hp]; rfl)
    · intro _
      exact h.held (by rw [hp]; rfl)

/-- A position put in the ring takes the place of the one released. -/
theorem defer_inv {p : SessionPool} {pos : Nat} (h : s.Inv M) (hp : s.table.sessions.isSome = true)
    {live : LiveSessions} (hmax : p.max = M)
    (hinv : p.Inv live (pos :: heldPositions s.table.deferred)) :
    TrackedTable.Inv M ⟨s.table.defer p pos, live, s.deletions + 1⟩ := by
  obtain ⟨hidx, hvalid⟩ := h.ring hp
  have hheld := h.held hp
  have hcreated := h.created
  have hsplit := heldPositions_perm s.table.deferred s.table.deferredIdx
  have hnew : (heldPositions (update s.table.deferred s.table.deferredIdx
      ⟨pos, true⟩)).Perm (pos :: heldBut s.table.deferred s.table.deferredIdx) := by
    have hperm := heldPositions_perm (update s.table.deferred s.table.deferredIdx
      ⟨pos, true⟩) s.table.deferredIdx
    rw [update_self, heldBut_update] at hperm
    exact hperm
  have hlen := hsplit.length_eq
  have hlen' := hnew.length_eq
  rw [length_append] at hlen
  rw [length_cons] at hlen'
  constructor
  · simp only [SessionTable.defer, isSome_some, true_iff]
    exact hcreated.1 hp
  · rintro p' hp'
    simp only [SessionTable.defer, some.injEq] at hp'
    subst hp'
    have hperm := hinv.owns.perm ((List.Perm.cons pos hsplit).symm)
    cases hslot : (s.table.deferred s.table.deferredIdx).valid with
    | false =>
      rw [held, hslot] at hperm
      exact ⟨hmax, hperm.perm hnew, hinv.live_eq, hinv.count_eq, hinv.stored⟩
    | true =>
      rw [held, hslot] at hperm
      -- the released position goes back to the free ones
      have hgive := (hperm.perm (List.Perm.swap pos
        (s.table.deferred s.table.deferredIdx).position _)).give
      have hlt : (s.table.deferred s.table.deferredIdx).position < p.max := by
        have hmem : (s.table.deferred s.table.deferredIdx).position ∈ range p.max := by
          rw [← hperm.slots.mem_iff]
          simp
        exact mem_range.1 hmem
      have hfree : LfHash.freeKeyWithPosition p.max p.hash
          (s.table.deferred s.table.deferredIdx).position =
            p.hash.give (s.table.deferred s.table.deferredIdx).position := by
        unfold LfHash.freeKeyWithPosition
        rw [if_neg (by omega)]
      refine ⟨hmax, ?_, ?_, hinv.count_eq, hinv.stored⟩
      · rw [hfree]
        exact hgive.perm hnew
      · rw [hfree]
        exact hinv.live_eq
  · intro hnone
    cases hnone
  · intro _
    refine ⟨?_, fun i => ?_⟩
    · show (s.table.deferredIdx + 1).val = _
      simp_all [Fin.val_add]
    · show ((update s.table.deferred s.table.deferredIdx ⟨pos, true⟩) i).valid = _
      grind
  · intro _
    show (heldPositions (update s.table.deferred s.table.deferredIdx _)).length = _
    rw [hlen']
    have hslot := hvalid s.table.deferredIdx
    rw [hidx] at hslot
    by_cases hlow : s.deletions < 256
    · rw [Nat.mod_eq_of_lt hlow] at hslot
      simp only [lt_irrefl, decide_false] at hslot
      rw [held, hslot] at hlen
      simp only [Bool.false_eq_true, if_false, toList_none, length_nil,
        Nat.zero_add] at hlen
      rw [← hlen, hheld]
      show min s.deletions 256 + 1 = min (s.deletions + 1) 256
      omega
    · rw [decide_eq_true (by show s.deletions % 256 < s.deletions; omega)] at hslot
      rw [held, hslot] at hlen
      simp only [if_true, toList_some, length_singleton] at hlen
      show _ = min (s.deletions + 1) 256
      have hmin : min s.deletions sessionDeferredDepth = 256 := by
        show min s.deletions 256 = 256
        omega
      omega

theorem TrackedTable.Inv.delete (h : s.Inv M) (imsi : List UInt8) (psid : UInt8) (room : Room) :
    (s.step room (.delete imsi psid)).Inv M := by
  simp only [TrackedTable.step, upfSessionDelete]
  cases hp : s.table.sessions with
  | none =>
    exact h
  | some p =>
    obtain ⟨hmax, hpool⟩ := h.pool p hp
    obtain ⟨hinv, hmax', -⟩ := hpool.delete imsi psid
    have hcreated := h.created
    rw [hp] at hcreated
    have hsome : s.table.sessions.isSome = true := by
      rw [hp]
      rfl
    dsimp only
    rcases hdel : p.delete imsi psid with ⟨p', res⟩
    rw [hdel] at hinv hmax'
    cases res with
    | none =>
      constructor
      · exact hcreated
      · simp_all
      · intro hnone
        cases hnone
      · intro _
        exact h.ring hsome
      · intro _
        exact h.held hsome
    | some pos =>
      exact defer_inv h hsome (hmax'.trans hmax) hinv

theorem TrackedTable.Inv.step (h : s.Inv M) (room : Room) (call : SessionCall) :
    (s.step room call).Inv M := by
  cases call with
  | create imsi psid => exact h.create room imsi psid
  | get imsi psid => exact h
  | delete imsi psid => exact h.delete imsi psid room

theorem run_inv (room : Room) (h : s.Inv M) (calls : List SessionCall) :
    (run (TrackedTable.step room) s calls).Inv M := by
  induction calls generalizing s with
  | nil => exact h
  | cons call calls ih => exact ih (h.step room call)

/-! ## Capacity -/

/-- After any calls, live sessions have distinct slots and are found as they were created; and a
creation for an absent key succeeds exactly when a slot is left between the live sessions and the
ring, the table could be created, and the key can be placed. -/
theorem session_create_iff (room : Room) {n M : UInt32}
    (hM : upfDpSetMaxSessions false n = some M) (calls : List SessionCall) :
    let s := run (TrackedTable.step room) (TrackedTable.start M) calls
    s.live.Served (upfSessionGet s.table) ∧
      ∀ imsi psid, s.live.lookup (makeKey imsi psid) = none →
        ((upfSessionCreate room s.table imsi psid).2.isSome = true ↔
          M.toNat ≤ rteHashEntriesMax ∧
            s.live.length + min s.deletions sessionDeferredDepth < M.toNat ∧
            room s.live (makeKey imsi psid) = true) := by
  intro s
  have hinv : s.Inv M.toNat := run_inv room (start_inv M) calls
  refine ⟨hinv.served, fun imsi psid hnew => ?_⟩
  have hmin : rteHashBucketEntries ≤ M.toNat := by
    unfold upfDpSetMaxSessions at hM
    simp only [Bool.false_eq_true, if_false, Option.ite_none_left_eq_some, Option.some.injEq] at hM
    obtain ⟨hge, rfl⟩ := hM
    have hle : 256 ≤ n.toNat := by
      simpa [UInt32.lt_iff_toNat_lt] using hge
    exact le_trans (by decide) hle
  rw [hinv.create_isSome room hnew]
  simp only [hmin, true_and]

/-- The first creation of the smallest table. -/
theorem session_create_iff_first :
    (upfSessionCreate (fun _ _ => true) (TrackedTable.start 256).table [0x31] 1).2.isSome = true :=
  ((session_create_iff (fun _ _ => true) (n := 256) (M := 256) rfl []).2 [0x31] 1 rfl).2
    ⟨by decide, by decide, rfl⟩

/-- One session comes and goes. -/
def churn (cycles : Nat) : List SessionCall :=
  (List.replicate cycles [.create [0x31] 1, .delete [0x31] 1]).flatten

/-- As long as the table has a slot outside of the ring, a session that comes and goes leaves one
deletion behind. -/
theorem churn_run (room : Room) (hroom : ∀ key, room [] key = true) (cycles : Nat) :
    ∀ s : TrackedTable, s.Inv 256 → s.live = [] → s.deletions + cycles ≤ 256 →
      (run (TrackedTable.step room) s (churn cycles)).live = [] ∧
        (run (TrackedTable.step room) s (churn cycles)).deletions = s.deletions + cycles := by
  induction cycles with
  | zero =>
    intro s _ hlive _
    exact ⟨hlive, rfl⟩
  | succ cycles ih =>
    intro s hinv hlive hle
    have hsome : (upfSessionCreate room s.table [0x31] 1).2.isSome = true := by
      rw [hinv.create_isSome room (by rw [hlive]; rfl), hlive]
      refine ⟨by decide, by decide, ?_, hroom _⟩
      show 0 + min s.deletions 256 < 256
      omega
    obtain ⟨pos, hpos⟩ := isSome_iff_exists.1 hsome
    have hcreate := hinv.step room (.create [0x31] 1)
    have hone : (s.step room (.create [0x31] 1)).live = [(makeKey [0x31] 1, pos)] := by
      simp only [TrackedTable.step, hpos, LiveSessions.created, hlive]
    have hdel : (upfSessionDelete (s.step room (.create [0x31] 1)).table [0x31] 1).2 = some pos := by
      unfold upfSessionDelete
      cases hp : (s.step room (.create [0x31] 1)).table.sessions with
      | none =>
        have hnil := hcreate.absent hp
        rw [hone] at hnil
        cases hnil
      | some p =>
        obtain ⟨-, -, hres⟩ := (hcreate.pool p hp).2.delete [0x31] 1
        grind
    have hgone : ((s.step room (.create [0x31] 1)).step room (.delete [0x31] 1)).live = [] := by
      simp only [TrackedTable.step] at hdel hone ⊢
      rw [hdel, hone]
      simp [LiveSessions.deleted]
    have hcount : ((s.step room (.create [0x31] 1)).step room (.delete [0x31] 1)).deletions =
        s.deletions + 1 := by
      simp only [TrackedTable.step] at hdel ⊢
      rw [hdel]
      rfl
    obtain ⟨hlive', hdel'⟩ := ih _ (hcreate.step room (.delete [0x31] 1)) hgone (by omega)
    refine ⟨hlive', hdel'.trans ?_⟩
    omega

/-- A table of 256 sessions creates none any more after 256 deletions, though none is live. -/
theorem session_table_exhausted :
    ¬ ∀ (room : Room) (n M : UInt32), upfDpSetMaxSessions false n = some M →
      ∀ calls imsi psid,
        let s := run (TrackedTable.step room) (TrackedTable.start M) calls
        s.live.lookup (makeKey imsi psid) = none → s.live.length < M.toNat →
          (upfSessionCreate room s.table imsi psid).2.isSome = true := by
  intro h
  obtain ⟨hlive, hdel⟩ := churn_run (fun _ _ => true) (fun _ => rfl) 256 (TrackedTable.start 256)
    (start_inv 256) rfl (by decide)
  have hinv := run_inv (fun _ _ => true) (start_inv 256) (churn 256)
  have hsome := h (fun _ _ => true) 256 256 rfl (churn 256) [0x31] 1 (by rw [hlive]; rfl)
    (by rw [hlive]; decide)
  rw [hinv.create_isSome _ (by rw [hlive]; rfl), hlive, hdel] at hsome
  exact absurd hsome.2.2.1 (by decide)

end MmtCore.Upf
