import MmtCore.Lib.CyclicWindows
import MmtCore.Upf.DlPath

/-!
# The TSC gate

`upf_tsc_gate_is_open` of `upf_classifier.c`, and `upf_dp_set_tsc_gate` and `upf_dp_clear_tsc_gate`
of `upf_dp_api.c`: a session can have a gate control list, up to sixteen pairs of a bitmap of the
traffic classes that are open and a duration, which repeats with the cycle time before the base
time as after it.  A list shorter than the cycle holds its last state.  All sums of durations are
below `2 ^ 36`, so the 64-bit accumulator never wraps and the walk is that of `Lib.Windows`.
-/

namespace MmtCore.Upf

open MmtCore.Lib

/-- `UPF_TSC_GATE_MAX_ENTRIES`. -/
abbrev upfTscGateMaxEntries : Nat := 16

/-- `upf_tsc_gate_t`, without its counters. -/
structure UpfTscGate where
  baseTimeNs : UInt64
  cycleTimeNs : UInt64
  durationNs : Vector UInt32 upfTscGateMaxEntries
  gateStates : Vector UInt8 upfTscGateMaxEntries
  nEntries : UInt8
  /-- 0 applies to every flow of the session. -/
  qfi : UInt8
  trafficClass : UInt8
  active : Bool
deriving DecidableEq

namespace UpfTscGate

/-! ## The gate of the source -/

/-- `(g->gate_states[i] >> (g->traffic_class & 7)) & 1`. -/
def stateBit (g : UpfTscGate) (i : Nat) : Bool :=
  (g.gateStates[i]?.getD 0 >>> (g.trafficClass &&& 7)) &&& 1 != 0

/-- `n_entries`, cut to the size of the arrays. -/
def entryCount (g : UpfTscGate) : Nat :=
  if g.nEntries.toNat > upfTscGateMaxEntries then upfTscGateMaxEntries else g.nEntries.toNat

/-- The time in the cycle. -/
def phaseAt (g : UpfTscGate) (now : UInt64) : UInt64 :=
  if now ≥ g.baseTimeNs then (now - g.baseTimeNs) % g.cycleTimeNs
  else
    let back := (g.baseTimeNs - now) % g.cycleTimeNs
    if back ≠ 0 then g.cycleTimeNs - back else 0

/-- The loop of `upf_tsc_gate_is_open`, for `k` more entries from `i` on; `none` is past it. -/
def walkEntries (g : UpfTscGate) (phase : UInt64) : Nat → Nat → UInt64 → Option Bool
  | 0, _, _ => none
  | k + 1, i, acc =>
    let acc := acc + (g.durationNs[i]?.getD 0).toUInt64
    if phase < acc then some (g.stateBit i) else walkEntries g phase k (i + 1) acc

/-- `upf_tsc_gate_is_open`. -/
def isOpen (g : UpfTscGate) (nowNs : UInt64) : Bool :=
  if !g.active || g.cycleTimeNs == 0 || g.nEntries == 0 then true
  else
    let n := g.entryCount
    (walkEntries g (g.phaseAt nowNs) n 0 0).getD (g.stateBit (n - 1))

/-! ## Its windows -/

/-- The duration of the entry `i`. -/
def duration (g : UpfTscGate) (i : Nat) : Nat := (g.durationNs[i]?.getD 0).toNat

/-- The gate has no schedule to keep to. -/
def Ungated (g : UpfTscGate) : Prop := g.active = false ∨ g.cycleTimeNs = 0 ∨ g.nEntries = 0
  deriving Decidable

theorem entryCount_le (g : UpfTscGate) : g.entryCount ≤ upfTscGateMaxEntries := by
  unfold entryCount
  split
  · exact Nat.le_refl _
  · omega

variable {g : UpfTscGate} {i : Nat}

theorem entryCount_pos (h : ¬g.Ungated) : 0 < g.entryCount := by
  have hne : g.nEntries ≠ 0 := fun h0 => h (Or.inr (Or.inr h0))
  have hpos : g.nEntries.toNat ≠ 0 := fun h0 => hne (UInt8.toNat_inj.mp h0)
  unfold entryCount
  split
  · decide
  · omega

theorem duration_lt (g : UpfTscGate) (i : Nat) : g.duration i < 2 ^ 32 :=
  UInt32.toNat_lt _

/-- The windows end before the accumulator could wrap. -/
theorem start_lt (g : UpfTscGate) (hi : i ≤ upfTscGateMaxEntries) :
    Windows.start g.duration i < 2 ^ 64 := by
  have hb : Windows.start g.duration i ≤ i * (2 ^ 32 - 1) :=
    Windows.start_le_mul g.duration _ (fun j => Nat.le_pred_of_lt (g.duration_lt j)) i
  grind

/-- The accumulator is where the next window starts. -/
theorem acc_step (g : UpfTscGate) {acc : UInt64} (hi : i < upfTscGateMaxEntries)
    (hacc : acc.toNat = Windows.start g.duration i) :
    (acc + (g.durationNs[i]?.getD 0).toUInt64).toNat = Windows.start g.duration (i + 1) := by
  have hlt : Windows.start g.duration (i + 1) < 2 ^ 64 := g.start_lt hi
  rw [UInt64.toNat_add, UInt32.toNat_toUInt64, hacc]
  exact Nat.mod_eq_of_lt hlt

/-- The loop is the walk over the windows. -/
theorem walkEntries_eq (g : UpfTscGate) (phase : UInt64) {k : Nat} (acc : UInt64)
    (hk : i + k ≤ upfTscGateMaxEntries) (hacc : acc.toNat = Windows.start g.duration i) :
    walkEntries g phase k i acc = (Windows.walk g.duration phase.toNat k i).map g.stateBit := by
  induction k generalizing i acc with
  | zero => rfl
  | succ k ih =>
    have hnext := acc_step g (by omega) hacc
    grind [walkEntries, Windows.walk, UInt64.lt_iff_toNat_lt]

/-- The phase of the source, in 64-bit arithmetic, is that of `Lib.phase`. -/
theorem phaseAt_toNat (hc : g.cycleTimeNs ≠ 0) (now : UInt64) :
    (g.phaseAt now).toNat = phase g.cycleTimeNs.toNat g.baseTimeNs.toNat now.toNat := by
  have hpos : 0 < g.cycleTimeNs.toNat :=
    Nat.pos_of_ne_zero fun h => hc (UInt64.toNat_inj.mp h)
  unfold phaseAt phase
  by_cases hle : g.baseTimeNs ≤ now
  · rw [if_pos hle, if_pos (UInt64.le_iff_toNat_le.mp hle), UInt64.toNat_mod,
      UInt64.toNat_sub_of_le _ _ hle]
  · have hle' : ¬g.baseTimeNs.toNat ≤ now.toNat := fun h => hle (UInt64.le_iff_toNat_le.mpr h)
    have hback : ((g.baseTimeNs - now) % g.cycleTimeNs).toNat =
        (g.baseTimeNs.toNat - now.toNat) % g.cycleTimeNs.toNat := by
      rw [UInt64.toNat_mod, UInt64.toNat_sub_of_le _ _ (UInt64.le_iff_toNat_le.mpr (by omega))]
    have hlt : ((g.baseTimeNs - now) % g.cycleTimeNs).toNat < g.cycleTimeNs.toNat := by
      rw [hback]
      exact Nat.mod_lt _ hpos
    rw [if_neg hle, if_neg hle', ← hback]
    by_cases h0 : (g.baseTimeNs - now) % g.cycleTimeNs = 0
    · rw [h0, if_neg (fun h => h rfl), if_pos UInt64.toNat_zero]
      rfl
    · rw [if_pos h0, if_neg (fun h => h0 (UInt64.toNat_inj.mp (h.trans UInt64.toNat_zero.symm)))]
      exact UInt64.toNat_sub_of_le _ _ (UInt64.le_iff_toNat_le.mpr (Nat.le_of_lt hlt))

/-- The phase is the Euclidean remainder of the time since the base, which can be negative. -/
def phaseOf (g : UpfTscGate) (now : UInt64) : Int :=
  ((now.toNat : Int) - g.baseTimeNs.toNat) % g.cycleTimeNs.toNat

theorem phaseAt_eq (hc : g.cycleTimeNs ≠ 0) (now : UInt64) :
    ((g.phaseAt now).toNat : Int) = g.phaseOf now := by
  have hpos : 0 < g.cycleTimeNs.toNat :=
    Nat.pos_of_ne_zero fun h => hc (UInt64.toNat_inj.mp h)
  rw [phaseAt_toNat hc, phase_eq_emod hpos]
  rfl

/-- The entry `i` covers the time `t` of the cycle. -/
def Covers (g : UpfTscGate) (i : Nat) (t : Int) : Prop :=
  0 ≤ t ∧ Windows.Covers g.duration g.entryCount i t.toNat

/-- The gate is as the entry that covers the phase has it. -/
theorem isOpen_of_covers {now : UInt64} (h : ¬g.Ungated) (hi : g.Covers i (g.phaseOf now)) :
    g.isOpen now = g.stateBit i := by
  have hc : g.cycleTimeNs ≠ 0 := fun h0 => h (Or.inr (Or.inl h0))
  have hn : g.nEntries ≠ 0 := fun h0 => h (Or.inr (Or.inr h0))
  have ha : g.active = true := Bool.not_eq_false _ |>.mp fun h0 => h (Or.inl h0)
  have hw := walkEntries_eq g (g.phaseAt now) (k := g.entryCount) (i := 0) 0
    (by have := g.entryCount_le; omega) rfl
  have hfind := Windows.find_covers g.duration (entryCount_pos h) (g.phaseAt now).toNat
  have hcov := hi.2
  rw [← phaseAt_eq hc, Int.toNat_natCast] at hcov
  rw [isOpen, if_neg (by simp [ha, hc, hn])]
  dsimp only
  rw [hw, Windows.Covers.unique hcov hfind, Windows.find]
  simp_all

/-- Some entry covers each time of the cycle. -/
theorem exists_covers (h : ¬g.Ungated) (now : UInt64) : ∃ i, g.Covers i (g.phaseOf now) := by
  have hc : g.cycleTimeNs ≠ 0 := fun h0 => h (Or.inr (Or.inl h0))
  have hfind := Windows.find_covers g.duration (entryCount_pos h) (g.phaseAt now).toNat
  refine ⟨Windows.find g.duration g.entryCount (g.phaseAt now).toNat, ?_, ?_⟩
  · rw [← phaseAt_eq hc]
    exact Int.natCast_nonneg _
  · rw [← phaseAt_eq hc, Int.toNat_natCast]
    exact hfind

theorem isOpen_of_ungated (h : g.Ungated) (now : UInt64) : g.isOpen now = true := by
  rw [isOpen, if_pos]
  rcases h with h | h | h <;> simp [h]

/-! ## The gate of the downlink path -/

/-- An entry of the arrays. -/
def entry (g : UpfTscGate) (i : Nat) : UInt8 × UInt32 :=
  (g.gateStates[i]?.getD 0, g.durationNs[i]?.getD 0)

/-- The gate with the list of its entries in place of the arrays. -/
def toTscGate (g : UpfTscGate) : TscGate where
  baseTimeNs := g.baseTimeNs
  cycleTimeNs := g.cycleTimeNs
  windows := (List.range' 0 g.entryCount).map g.entry
  qfi := g.qfi
  trafficClass := g.trafficClass
  active := g.active

/-- The two walks find the same states; past the end they are those of the last entry. -/
theorem gateStatesAt_eq (g : UpfTscGate) (phase : UInt64) {k : Nat} (acc : UInt64) (last : UInt8) :
    ((gateStatesAt phase acc last ((List.range' i k).map g.entry) >>> (g.trafficClass &&& 7)) &&& 1
        != 0) =
      (walkEntries g phase k i acc).getD
        (if k = 0 then (last >>> (g.trafficClass &&& 7)) &&& 1 != 0
          else g.stateBit (i + k - 1)) := by
  induction k generalizing i acc last with
  | zero => rfl
  | succ k ih =>
    rw [List.range'_succ, List.map_cons, entry, gateStatesAt, walkEntries,
      if_neg (Nat.succ_ne_zero k)]
    by_cases hlt : phase < acc + (g.durationNs[i]?.getD 0).toUInt64
    · rw [if_pos hlt, if_pos hlt]
      rfl
    · rw [if_neg hlt, if_neg hlt, ih]
      by_cases hk : k = 0
      · subst hk
        rfl
      · simp_all

theorem phase_toTscGate (g : UpfTscGate) (now : UInt64) :
    (if g.baseTimeNs ≤ now then (now - g.baseTimeNs) % g.cycleTimeNs
      else if (g.baseTimeNs - now) % g.cycleTimeNs = 0 then 0
      else g.cycleTimeNs - (g.baseTimeNs - now) % g.cycleTimeNs) = g.phaseAt now := by
  simp [phaseAt]

/-- The gate is open for a packet of the downlink path when the source's gate is. -/
theorem isOpen_toTscGate (g : UpfTscGate) (now : UInt64) :
    g.toTscGate.isOpen now = g.isOpen now := by
  have hcount := g.entryCount_le
  have hempty : ((List.range' 0 g.entryCount).map g.entry).isEmpty = (g.nEntries == 0) := by
    rw [Bool.eq_iff_iff, List.isEmpty_iff, List.map_eq_nil_iff, List.range'_eq_nil_iff, beq_iff_eq,
      ← UInt8.toNat_inj]
    grind [entryCount]
  rw [TscGate.isOpen, isOpen, toTscGate]
  dsimp only
  rw [hempty, phase_toTscGate]
  split
  · rfl
  · case isFalse hgated =>
    have hne : g.entryCount ≠ 0 := fun h0 => hgated <| by
      rw [← hempty, h0]
      exact Bool.or_true _
    rw [List.take_of_length_le (by rw [List.length_map, List.length_range']; exact hcount),
      gateStatesAt_eq, if_neg hne, Nat.zero_add]

/-! ## The schedule the control plane sets -/

/-- The gate is open exactly when the one entry that covers the Euclidean remainder of the time
since the base is open for the traffic class; an entry covers the times from its start to its end,
and the last one those after it too.  So the gate is the same a whole number of cycles away, on
either side of the base.  A gate that is inactive or has no cycle or no entries is open. -/
theorem isOpen_periodic (g : UpfTscGate) (now : UInt64) :
    (g.Ungated → g.isOpen now = true) ∧
      (¬g.Ungated → ∃ i, (∀ j, g.Covers j (g.phaseOf now) ↔ j = i) ∧
        (g.isOpen now = true ↔ g.stateBit i = true)) ∧
      ∀ (now' : UInt64) (k : Int),
        (now'.toNat : Int) = now.toNat + k * g.cycleTimeNs.toNat →
          g.isOpen now' = g.isOpen now := by
  refine ⟨fun h => isOpen_of_ungated h now, fun h => ?_, fun now' k hk => ?_⟩
  · obtain ⟨i, hi⟩ := exists_covers h now
    refine ⟨i, fun j => ⟨fun hj => hj.2.unique hi.2, fun hj => hj ▸ hi⟩, ?_⟩
    rw [isOpen_of_covers h hi]
  · by_cases h : g.Ungated
    · rw [isOpen_of_ungated h, isOpen_of_ungated h]
    · obtain ⟨i, hi⟩ := exists_covers h now
      have hphase : g.phaseOf now' = g.phaseOf now := by
        have hshift : (now'.toNat : Int) - g.baseTimeNs.toNat =
            (now.toNat : Int) - g.baseTimeNs.toNat + k * g.cycleTimeNs.toNat := by omega
        rw [phaseOf, hshift, Int.add_mul_emod_self_right]
        rfl
      rw [isOpen_of_covers h hi, isOpen_of_covers h (hphase ▸ hi)]

end UpfTscGate

end MmtCore.Upf
