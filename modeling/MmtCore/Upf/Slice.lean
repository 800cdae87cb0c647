import MmtCore.Upf.SessionPool

/-!
# The session tables of the slices

`upf_slice.c` gives each slice a session table of its own, of a fixed size.  Its deletion takes the
key out of the lock-free hash and does nothing more: there is no ring here, and nothing releases
the position.  So every deletion costs the slice one slot until the slice is destroyed, and a
creation succeeds exactly when live sessions and deletions together leave a slot
(`slice_session_create_iff`).
-/

namespace MmtCore.Upf

open MmtCore.Lib List

/-! ## A slice -/

/-- `UPF_MAX_SLICES`. -/
abbrev upfMaxSlices : Nat := 3

/-- `UPF_SLICE_MAX_SESSIONS`. -/
abbrev upfSliceMaxSessions : Nat := 1024

/-- `upf_slice_ctx_t`, as far as its sessions go. -/
structure UpfSliceCtx where
  sst : UInt8
  active : Bool
  /-- `session_hash`, `session_pool` and `session_count`, once they are there. -/
  sessions : Option SessionPool

/-- A slice before its first initialisation. -/
def UpfSliceCtx.zero : UpfSliceCtx := ⟨0, false, none⟩

/-- `upf_slice_destroy`. -/
def upfSliceDestroy (s : UpfSliceCtx) : UpfSliceCtx :=
  { s with sessions := none, active := false }

/-- `upf_slice_init`, and whether it returns 0.  `allocated` is whether there is memory for the
pool, the reverse maps and their hashes. -/
def upfSliceInit (allocated : Bool) (sst : UInt8) (s : UpfSliceCtx) : UpfSliceCtx × Bool :=
  if s.active then (s, true)
  else
    match LfHash.create upfSliceMaxSessions with
    | none => ({ UpfSliceCtx.zero with sst }, false)
    | some hash =>
      if allocated then
        ({ sst
           active := true
           sessions := some ⟨upfSliceMaxSessions, hash, fun _ => .zero, 0⟩ }, true)
      else (upfSliceDestroy { UpfSliceCtx.zero with sst }, false)

/-- `upf_slice_session_create`; `none` is the null pointer. -/
def upfSliceSessionCreate (room : Room) (s : UpfSliceCtx) (imsi : List UInt8) (psid : UInt8) :
    UpfSliceCtx × Option Nat :=
  match s.sessions with
  | none => (s, none)
  | some p =>
    let r := p.create room s.sst imsi psid
    ({ s with sessions := some r.1 }, r.2)

/-- `upf_slice_session_get`. -/
def upfSliceSessionGet (s : UpfSliceCtx) (imsi : List UInt8) (psid : UInt8) : Option Session :=
  s.sessions.bind fun p => p.get imsi psid

/-- `upf_slice_session_delete`; `none` is the return value -1. -/
def upfSliceSessionDelete (s : UpfSliceCtx) (imsi : List UInt8) (psid : UInt8) :
    UpfSliceCtx × Option Nat :=
  match s.sessions with
  | none => (s, none)
  | some p =>
    let r := p.delete imsi psid
    ({ s with sessions := some r.1 }, r.2)

/-! ## Calls -/

inductive SliceCall
  | init (sst : UInt8) (allocated : Bool)
  | destroy
  | create (imsi : List UInt8) (psid : UInt8)
  | get (imsi : List UInt8) (psid : UInt8)
  | delete (imsi : List UInt8) (psid : UInt8)

/-- A slice, with its live sessions and the number of deletions since it was set up. -/
structure TrackedSlice where
  slice : UpfSliceCtx
  live : LiveSessions
  deletions : Nat

def TrackedSlice.start : TrackedSlice := ⟨.zero, [], 0⟩

def TrackedSlice.step (room : Room) (s : TrackedSlice) : SliceCall → TrackedSlice
  | .init sst allocated => { s with slice := (upfSliceInit allocated sst s.slice).1 }
  | .destroy => ⟨upfSliceDestroy s.slice, [], 0⟩
  | .create imsi psid =>
    let r := upfSliceSessionCreate room s.slice imsi psid
    { s with slice := r.1, live := s.live.created (makeKey imsi psid) r.2 }
  | .get _ _ => s
  | .delete imsi psid =>
    let r := upfSliceSessionDelete s.slice imsi psid
    { slice := r.1
      live := s.live.deleted (makeKey imsi psid) r.2
      deletions := s.deletions + r.2.toList.length }

/-- `slices`. -/
abbrev Slices := Fin upfMaxSlices → TrackedSlice

/-- A call on one of the slices. -/
def Slices.step (room : Fin upfMaxSlices → Room) (s : Slices)
    (call : Fin upfMaxSlices × SliceCall) : Slices :=
  Function.update s call.1 ((s call.1).step (room call.1) call.2)

/-- The calls on one slice. -/
def callsOn (i : Fin upfMaxSlices) (calls : List (Fin upfMaxSlices × SliceCall)) :
    List SliceCall :=
  calls.filterMap fun call => if call.1 = i then some call.2 else none

/-- Slices do not share anything: each sees the calls made on it. -/
theorem Slices.run_slice (room : Fin upfMaxSlices → Room) (i : Fin upfMaxSlices)
    (calls : List (Fin upfMaxSlices × SliceCall)) (s : Slices) :
    run (Slices.step room) s calls i = run (TrackedSlice.step (room i)) (s i) (callsOn i calls) := by
  induction calls generalizing s with
  | nil => rfl
  | cons call calls ih =>
    rw [run_cons, ih]
    by_cases hi : call.1 = i
    · subst hi
      simp [Slices.step, callsOn]
    · have hne : i ≠ call.1 := fun heq => hi heq.symm
      simp [Slices.step, callsOn, hi, hne]

/-! ## The invariant -/

/-- As many slots are held as there were deletions. -/
structure TrackedSlice.Inv (s : TrackedSlice) : Prop where
  ready : s.slice.active = s.slice.sessions.isSome
  pool : ∀ p, s.slice.sessions = some p → p.max = upfSliceMaxSessions ∧
    ∃ held : List Nat, held.length = s.deletions ∧ p.Inv s.live held
  absent : s.slice.sessions = none → s.live = [] ∧ s.deletions = 0

variable {s : TrackedSlice}

theorem TrackedSlice.start_inv : TrackedSlice.start.Inv where
  ready := rfl
  pool := by
    intro p hp
    cases hp
  absent := fun _ => ⟨rfl, rfl⟩

theorem TrackedSlice.Inv.init (h : s.Inv) (room : Room) (sst : UInt8) (allocated : Bool) :
    (s.step room (.init sst allocated)).Inv := by
  simp only [TrackedSlice.step, upfSliceInit]
  by_cases hactive : s.slice.active = true
  · rw [if_pos hactive]
    exact h
  · have hnone : s.slice.sessions = none := by
      have hready := h.ready
      simp_all
    obtain ⟨hlive, hdel⟩ := h.absent hnone
    rw [if_neg hactive, hlive, hdel]
    have hcreate : LfHash.create upfSliceMaxSessions = some (SlotTable.empty _) := rfl
    rw [hcreate]
    cases allocated with
    | false =>
      refine ⟨rfl, ?_, fun _ => ⟨rfl, rfl⟩⟩
      intro p hp
      cases hp
    | true =>
      refine ⟨rfl, ?_, fun _ => ⟨rfl, rfl⟩⟩
      grind [SessionPool.inv_empty]

theorem TrackedSlice.Inv.destroy (s : TrackedSlice) (room : Room) :
    (s.step room .destroy).Inv where
  ready := rfl
  pool := by
    intro p hp
    cases hp
  absent := fun _ => ⟨rfl, rfl⟩

section

variable (h : s.Inv) (room : Room)
include h

theorem TrackedSlice.Inv.create (imsi : List UInt8) (psid : UInt8) :
    (s.step room (.create imsi psid)).Inv := by
  simp only [TrackedSlice.step, upfSliceSessionCreate]
  have hready := h.ready
  cases hp : s.slice.sessions with
  | none => exact h
  | some p =>
    rw [hp] at hready
    obtain ⟨hmax, held, hlen, hpool⟩ := h.pool p hp
    obtain ⟨hinv, hmax'⟩ := hpool.create room s.slice.sst imsi psid
    refine ⟨hready, ?_, ?_⟩
    · grind
    · intro hnone
      cases hnone

theorem TrackedSlice.Inv.delete (imsi : List UInt8) (psid : UInt8) :
    (s.step room (.delete imsi psid)).Inv := by
  simp only [TrackedSlice.step, upfSliceSessionDelete]
  have hready := h.ready
  cases hp : s.slice.sessions with
  | none => exact h
  | some p =>
    rw [hp] at hready
    obtain ⟨hmax, held, hlen, hpool⟩ := h.pool p hp
    obtain ⟨hinv, hmax', -⟩ := hpool.delete imsi psid
    refine ⟨hready, ?_, ?_⟩
    · grind
    · intro hnone
      cases hnone

theorem TrackedSlice.Inv.step (call : SliceCall) : (s.step room call).Inv := by
  cases call with
  | init sst allocated => exact h.init room sst allocated
  | destroy => exact TrackedSlice.Inv.destroy s room
  | create imsi psid => exact h.create room imsi psid
  | get imsi psid => exact h
  | delete imsi psid => exact h.delete room imsi psid

theorem TrackedSlice.Inv.run (calls : List SliceCall) :
    (run (TrackedSlice.step room) s calls).Inv := by
  induction calls generalizing s with
  | nil => exact h
  | cons call calls ih => exact ih (h.step room call)

end

theorem TrackedSlice.Inv.served (h : s.Inv) : s.live.Served (upfSliceSessionGet s.slice) := by
  cases hp : s.slice.sessions with
  | some p =>
    obtain ⟨-, held, -, hpool⟩ := h.pool p hp
    have hserved := hpool.served
    unfold upfSliceSessionGet
    rw [hp]
    exact hserved
  | none =>
    obtain ⟨hlive, -⟩ := h.absent hp
    rw [hlive]
    constructor
    · exact nodup_nil
    · intro k₁ k₂ pos hmem
      cases hmem
    · intro imsi psid pos hmem
      cases hmem
    · intro imsi psid _
      simp [upfSliceSessionGet, hp]

theorem TrackedSlice.Inv.create_isSome (h : s.Inv) (room : Room) {imsi : List UInt8}
    {psid : UInt8} (hnew : s.live.lookup (makeKey imsi psid) = none) :
    (upfSliceSessionCreate room s.slice imsi psid).2.isSome = true ↔
      s.slice.active = true ∧ s.live.length + s.deletions < upfSliceMaxSessions ∧
        room s.live (makeKey imsi psid) = true := by
  have hready := h.ready
  unfold upfSliceSessionCreate
  cases hp : s.slice.sessions with
  | none =>
    rw [hp] at hready
    simp [hready]
  | some p =>
    rw [hp] at hready
    obtain ⟨hmax, held, hlen, hpool⟩ := h.pool p hp
    have hiff := hpool.create_isSome room s.slice.sst hnew
    rw [hmax, hlen] at hiff
    simp [hiff, hready]

/-! ## Capacity -/

/-- In every slice after any calls, live sessions have distinct slots and are found as they were
created; and a creation for an absent key succeeds exactly when the slice is set up, its live
sessions and its deletions leave a slot, and the key can be placed. -/
theorem slice_session_create_iff (room : Fin upfMaxSlices → Room)
    (calls : List (Fin upfMaxSlices × SliceCall)) (i : Fin upfMaxSlices) :
    let s := run (Slices.step room) (fun _ => TrackedSlice.start) calls i
    s.live.Served (upfSliceSessionGet s.slice) ∧
      ∀ imsi psid, s.live.lookup (makeKey imsi psid) = none →
        ((upfSliceSessionCreate (room i) s.slice imsi psid).2.isSome = true ↔
          s.slice.active = true ∧ s.live.length + s.deletions < upfSliceMaxSessions ∧
            room i s.live (makeKey imsi psid) = true) := by
  intro s
  have hinv : s.Inv := by
    show (run (Slices.step room) (fun _ => TrackedSlice.start) calls i).Inv
    rw [Slices.run_slice]
    exact TrackedSlice.start_inv.run (room i) (callsOn i calls)
  exact ⟨hinv.served, fun imsi psid hnew => hinv.create_isSome (room i) hnew⟩

/-- One session comes and goes. -/
def sliceChurn (cycles : Nat) : List SliceCall :=
  (List.replicate cycles [.create [0x31] 1, .delete [0x31] 1]).flatten

/-- As long as the slice has a slot that was never used, a session that comes and goes leaves one
deletion behind. -/
theorem sliceChurn_run (room : Room) (hroom : ∀ key, room [] key = true) (cycles : Nat) :
    ∀ s : TrackedSlice, s.Inv → s.slice.active = true → s.live = [] →
      s.deletions + cycles ≤ upfSliceMaxSessions →
        (run (TrackedSlice.step room) s (sliceChurn cycles)).slice.active = true ∧
          (run (TrackedSlice.step room) s (sliceChurn cycles)).live = [] ∧
          (run (TrackedSlice.step room) s (sliceChurn cycles)).deletions =
            s.deletions + cycles := by
  induction cycles with
  | zero =>
    intro s _ hactive hlive _
    exact ⟨hactive, hlive, rfl⟩
  | succ cycles ih =>
    intro s hinv hactive hlive hle
    have hsome : (upfSliceSessionCreate room s.slice [0x31] 1).2.isSome = true := by
      rw [hinv.create_isSome room (by rw [hlive]; rfl), hlive]
      refine ⟨hactive, ?_, hroom _⟩
      rw [length_nil]
      omega
    obtain ⟨p, hp⟩ : ∃ p, s.slice.sessions = some p := by
      rw [hinv.ready] at hactive
      exact Option.isSome_iff_exists.1 hactive
    obtain ⟨-, held, -, hpool⟩ := hinv.pool p hp
    obtain ⟨pos, hpos⟩ := Option.isSome_iff_exists.1 hsome
    simp only [upfSliceSessionCreate, hp] at hpos
    obtain ⟨hcreated, -⟩ := hpool.create room s.slice.sst [0x31] 1
    rw [hpos, hlive] at hcreated
    obtain ⟨-, -, hdel⟩ := hcreated.delete [0x31] 1
    have hdel' : ((p.create room s.slice.sst [0x31] 1).1.delete [0x31] 1).2 = some pos := by
      rw [hdel]
      simp [LiveSessions.created]
    have hstep : ((s.step room (.create [0x31] 1)).step room (.delete [0x31] 1)) =
        ⟨{ s.slice with
            sessions := some ((p.create room s.slice.sst [0x31] 1).1.delete [0x31] 1).1 },
          [], s.deletions + 1⟩ := by
      simp [TrackedSlice.step, upfSliceSessionCreate, upfSliceSessionDelete, hp, hpos, hdel', hlive,
        LiveSessions.created, LiveSessions.deleted]
    have hinv' := (hinv.step room (.create [0x31] 1)).step room (.delete [0x31] 1)
    rw [hstep] at hinv'
    have hle' : s.deletions + 1 + cycles ≤ upfSliceMaxSessions := by omega
    have hcycle : run (TrackedSlice.step room) s (sliceChurn (cycles + 1)) =
        run (TrackedSlice.step room) ((s.step room (.create [0x31] 1)).step room
          (.delete [0x31] 1)) (sliceChurn cycles) := rfl
    grind

/-- A slice creates none any more after 1024 deletions, though none is live. -/
theorem slice_session_table_exhausted :
    ¬ ∀ (room : Fin upfMaxSlices → Room) (calls : List (Fin upfMaxSlices × SliceCall))
        (i : Fin upfMaxSlices) (imsi : List UInt8) (psid : UInt8),
        let s := run (Slices.step room) (fun _ => TrackedSlice.start) calls i
        s.slice.active = true → s.live.lookup (makeKey imsi psid) = none →
          s.live.length < upfSliceMaxSessions →
            (upfSliceSessionCreate (room i) s.slice imsi psid).2.isSome = true := by
  intro h
  obtain ⟨cycles, hcycles⟩ : ∃ cycles, cycles = upfSliceMaxSessions := ⟨_, rfl⟩
  have hready := TrackedSlice.start_inv.step (fun _ _ => true) (.init 1 true)
  obtain ⟨hactive, hlive, hdel⟩ := sliceChurn_run (fun _ _ => true) (fun _ => rfl) cycles _ hready
    rfl rfl (by rw [hcycles]; decide)
  have hinv := hready.run (fun _ _ => true) (sliceChurn cycles)
  have hcalls : callsOn 0 ((SliceCall.init 1 true :: sliceChurn cycles).map fun call =>
      (0, call)) = SliceCall.init 1 true :: sliceChurn cycles := by
    rw [callsOn, filterMap_map]
    exact filterMap_some
  have hsome := h (fun _ _ _ => true)
    ((SliceCall.init 1 true :: sliceChurn cycles).map fun call => (0, call)) 0 [0x31] 1
  simp only [Slices.run_slice, hcalls, run_cons] at hsome
  have hsome' := hsome hactive (by rw [hlive]; rfl) (by rw [hlive]; decide)
  rw [hinv.create_isSome _ (by rw [hlive]; rfl), hlive, hdel, hcycles] at hsome'
  exact absurd hsome'.2.1 (by decide)

end MmtCore.Upf
