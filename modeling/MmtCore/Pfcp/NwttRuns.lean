import MmtCore.Pfcp.Nwtt

/-!
# The ports of the sessions of a bridge

While the port counter finds a free number for each new session, no two sessions share a port and a
message about a port reaches only the session that has it.  The PTP instance list is the exception:
setting it on any port steers the PTP traffic of every session of the node.
-/

namespace MmtCore.Pfcp

open MmtCore.Lib

namespace NWTT

variable (n : NWTT)

/-- The sessions have ports of their own. -/
structure Sound : Prop where
  distinct : ∀ k k' p, n.dsttBySession.lookup k = some p → n.dsttBySession.lookup k' = some p →
    k = k'
  nonzero : ∀ k p, n.dsttBySession.lookup k = some p → p ≠ 0
  not_nwtt : ∀ k p, n.dsttBySession.lookup k = some p → p ∉ n.nwttPorts

/-- The event ends the session or manages its port. -/
def Concerns (ev : PortEvent) (k : ImsiPduKey) (p : UInt16) : Prop :=
  ev = .release k ∨ ∃ portNum msg, ev = .manage portNum msg ∧ n.pmicTarget portNum = p

/-- The message sets the PTP instance list. -/
def SetsPtp (msg : Option PortMessage) : Prop :=
  ∃ m, msg = some m ∧ m.type = msgManagePortCommand ∧
    ∃ op ∈ m.ops, op.code = opSetParameter ∧ op.param = portParamPTPInstanceList

/-- What an event does to the ports of the sessions. -/
structure Isolated (ev : PortEvent) : Prop where
  idempotent : ∀ k p, ev = .allocate k → n.dsttBySession.lookup k = some p →
    n.allocateDSTTPort k = (n, (p, n.nwttPorts, n.nodeID), [])
  /-- A session that is new gets a port with the default parameters. -/
  default : ∀ k, ev = .allocate k → n.dsttBySession.lookup k = none →
    (n.step ev).dsttBySession.lookup k = some (n.allocateDSTTPort k).2.1.1 ∧
      (n.step ev).ports (n.allocateDSTTPort k).2.1.1 = some newPortState
  /-- Other sessions keep their port and its parameters. -/
  kept : ∀ k p, n.dsttBySession.lookup k = some p → ¬ n.Concerns ev k p →
    (n.step ev).dsttBySession.lookup k = some p ∧ (n.step ev).ports p = n.ports p
  /-- A gate is programmed for the session of the port alone. -/
  gate : ∀ k tc base cycle gates, .gate k tc base cycle gates ∈ (n.handle ev).2 →
    ∃ portNum msg, ev = .manage portNum msg ∧
      n.dsttBySession.lookup k = some (n.pmicTarget portNum)
  /-- PTP steering is a matter of the node: it starts for the sessions there are when the instance
  list is set, and for each session that comes later. -/
  ptp : ∀ k on, .ptp k on ∈ (n.handle ev).2 →
    (ev = .allocate k ∧ n.dsttBySession.lookup k = none ∧ n.ptpEnabled) ∨
      ∃ portNum msg, ev = .manage portNum msg ∧ SetsPtp msg ∧ (n.dsttBySession.lookup k).isSome

/-- The counter is at a free number when a new session comes. -/
def NextFree (ev : PortEvent) : Prop :=
  ∀ k, ev = .allocate k → n.dsttBySession.lookup k = none →
    n.nextDSTT ≠ 0 ∧ n.nextDSTT ∉ n.nwttPorts ∧
      ∀ k', n.dsttBySession.lookup k' ≠ some n.nextDSTT

variable {n : NWTT} {k : ImsiPduKey} {p portNum : UInt16} {msg : Option PortMessage}

/-! ## Allocation and release -/

theorem allocateDSTTPort_live (hk : n.dsttBySession.lookup k = some p) :
    n.allocateDSTTPort k = (n, (p, n.nwttPorts, n.nodeID), []) := by
  unfold allocateDSTTPort
  rw [hk]

theorem allocateDSTTPort_new (hk : n.dsttBySession.lookup k = none) :
    n.allocateDSTTPort k =
      ({ n with
          nextDSTT := n.nextDSTT + 1
          dsttBySession := n.dsttBySession.insert k n.nextDSTT
          ports := Function.update n.ports n.nextDSTT (some newPortState) },
        (n.nextDSTT, n.nwttPorts, n.nodeID), if n.ptpEnabled then [.ptp k true] else []) := by
  unfold allocateDSTTPort
  rw [hk]

theorem step_allocate : n.step (.allocate k) = (n.allocateDSTTPort k).1 := rfl

theorem Sound.allocate (s : n.Sound) (hfree : n.NextFree (.allocate k)) :
    (n.step (.allocate k)).Sound := by
  cases hk : n.dsttBySession.lookup k with
  | some p =>
    rw [step_allocate, allocateDSTTPort_live hk]
    exact s
  | none =>
    rw [step_allocate, allocateDSTTPort_new hk]
    obtain ⟨h0, hnw, hnew⟩ := hfree k rfl hk
    have hlook : ∀ k' p, (n.dsttBySession.insert k n.nextDSTT).lookup k' = some p →
        (k' = k ∧ p = n.nextDSTT) ∨ n.dsttBySession.lookup k' = some p := by
      intro k' p hl
      by_cases e : k' = k
      · grind [AList.lookup_insert]
      · rw [AList.lookup_insert_ne e] at hl
        exact .inr hl
    refine ⟨fun a b p ha hb => ?_, fun a p ha => ?_, fun a p ha => ?_⟩
    · rcases hlook a p ha with ⟨rfl, rfl⟩ | ha' <;> rcases hlook b _ hb with ⟨rfl, e⟩ | hb'
      · rfl
      · exact absurd hb' (hnew b)
      · subst e
        exact absurd ha' (hnew a)
      · exact s.distinct a b _ ha' hb'
    · rcases hlook a p ha with ⟨-, rfl⟩ | ha'
      · exact h0
      · exact s.nonzero a p ha'
    · rcases hlook a p ha with ⟨-, rfl⟩ | ha'
      · exact hnw
      · exact s.not_nwtt a p ha'

theorem releaseDSTTPort_lookup {k' : ImsiPduKey} :
    (n.releaseDSTTPort k).dsttBySession.lookup k'
      = if k' = k then none else n.dsttBySession.lookup k' := by
  grind [releaseDSTTPort, AssocMap.lookup_erase_eq]

@[simp] theorem releaseDSTTPort_nwttPorts : (n.releaseDSTTPort k).nwttPorts = n.nwttPorts := by
  unfold releaseDSTTPort
  split <;> rfl

theorem Sound.release (s : n.Sound) : (n.step (.release k)).Sound := by
  change (n.releaseDSTTPort k).Sound
  have hsub : ∀ k' p, (n.releaseDSTTPort k).dsttBySession.lookup k' = some p →
      n.dsttBySession.lookup k' = some p := by
    intro k' p hl
    rw [releaseDSTTPort_lookup] at hl
    split at hl
    · cases hl
    · exact hl
  refine ⟨fun a b p ha hb => s.distinct a b p (hsub a p ha) (hsub b p hb),
    fun a p ha => s.nonzero a p (hsub a p ha), fun a p ha => ?_⟩
  rw [releaseDSTTPort_nwttPorts]
  exact s.not_nwtt a p (hsub a p ha)

/-! ## Management messages -/

/-- What a message does: the port it is about, and perhaps PTP for the node. -/
theorem handlePMIC_cases (n : NWTT) (portNum : UInt16) (msg : Option PortMessage) :
    ((n.handlePMIC portNum msg).1 = n ∧ (n.handlePMIC portNum msg).2.2 = []) ∨
      ∃ m l, msg = some m ∧ m.type = msgManagePortCommand ∧
        l = m.ops.foldl pmicOp { port := (n.ports (n.pmicTarget portNum)).getD newPortState
                                 reply := { type := msgManagePortComplete } } ∧
        (n.handlePMIC portNum msg).1 =
          { n with
            ports := Function.update n.ports (n.pmicTarget portNum) (some l.port)
            ptpEnabled := n.ptpEnabled || l.ptpTouched } ∧
        (n.handlePMIC portNum msg).2.2 =
          (if l.gateTouched then
            NWTT.pushGateToDataplane { n with
              ports := Function.update n.ports (n.pmicTarget portNum) (some l.port) }
              (n.pmicTarget portNum)
          else []) ++ if l.ptpTouched then n.dsttBySession.entries.map fun e => .ptp e.1 true
            else [] := by
  unfold handlePMIC
  cases msg with
  | none => exact .inl ⟨rfl, rfl⟩
  | some m =>
    dsimp only
    by_cases ht : m.type = msgManagePortCommand
    · rw [if_neg (not_not.2 ht)]
      refine .inr ⟨m, _, rfl, ht, rfl, ?_⟩
      split
      · rename_i hp
        rw [hp, Bool.or_true]
        exact ⟨rfl, rfl⟩
      · rename_i hp
        rw [Bool.eq_false_iff.2 hp, Bool.or_false, List.append_nil]
        exact ⟨rfl, rfl⟩
    · rw [if_pos ht]
      exact .inl ⟨rfl, rfl⟩

theorem handlePMIC_dstt : (n.handlePMIC portNum msg).1.dsttBySession = n.dsttBySession := by
  rcases handlePMIC_cases n portNum msg with ⟨h, -⟩ | ⟨m, l, -, -, -, h, -⟩ <;> rw [h]

theorem handlePMIC_nwttPorts : (n.handlePMIC portNum msg).1.nwttPorts = n.nwttPorts := by
  rcases handlePMIC_cases n portNum msg with ⟨h, -⟩ | ⟨m, l, -, -, -, h, -⟩ <;> rw [h]

/-- Only the port the message is about changes. -/
theorem handlePMIC_ports (hp : n.pmicTarget portNum ≠ p) :
    (n.handlePMIC portNum msg).1.ports p = n.ports p := by
  rcases handlePMIC_cases n portNum msg with ⟨h, -⟩ | ⟨m, l, -, -, -, h, -⟩
  · rw [h]
  · rw [h]
    exact Function.update_of_ne (Ne.symm hp) ..

theorem Sound.manage (s : n.Sound) : (n.step (.manage portNum msg)).Sound := by
  change ((n.handlePMIC portNum msg).1).Sound
  refine ⟨fun a b p => ?_, fun a p => ?_, fun a p => ?_⟩
  · rw [handlePMIC_dstt]
    exact s.distinct a b p
  · rw [handlePMIC_dstt]
    exact s.nonzero a p
  · rw [handlePMIC_dstt, handlePMIC_nwttPorts]
    exact s.not_nwtt a p

theorem sessionOf_some (h : n.sessionOf p = some k) : n.dsttBySession.lookup k = some p := by
  obtain ⟨e, he, rfl⟩ := Option.map_eq_some_iff.1 h
  grind [AssocMap.mem_entries_iff]

/-- A gate goes to a session the port belongs to. -/
theorem mem_pushGateToDataplane {c : TscCall} (h : c ∈ n.pushGateToDataplane p) :
    ∃ k tc base cycle gates, c = .gate k tc base cycle gates ∧
      n.dsttBySession.lookup k = some p := by
  grind [pushGateToDataplane, sessionOf_some]

/-- The loop remembers that an operation set the PTP instance list. -/
theorem foldl_pmicOp_ptp {ops : List PortOperation} {l : PmicLoop}
    (h : (ops.foldl pmicOp l).ptpTouched = true) :
    l.ptpTouched = true ∨
      ∃ op ∈ ops, op.code = opSetParameter ∧ op.param = portParamPTPInstanceList := by
  induction ops generalizing l with
  | nil => exact .inl h
  | cons op ops ih =>
    rcases ih h with h | ⟨o, ho, hset⟩
    · grind [pmicOp]
    · exact .inr ⟨o, List.mem_cons_of_mem _ ho, hset⟩

/-! ## One event -/

theorem Sound.step {ev : PortEvent} (s : n.Sound) (hfree : n.NextFree ev) : (n.step ev).Sound := by
  cases ev with
  | allocate k => exact s.allocate hfree
  | release k => exact s.release
  | manage portNum msg => exact s.manage

theorem Sound.isolated {ev : PortEvent} (s : n.Sound) (hfree : n.NextFree ev) :
    n.Isolated ev := by
  refine ⟨fun k p _ hk => allocateDSTTPort_live hk, ?_, ?_, ?_, ?_⟩
  · simp_all [step_allocate, allocateDSTTPort_new]
  · intro k p hk hnot
    cases ev with
    | allocate a =>
      rw [step_allocate]
      cases ha : n.dsttBySession.lookup a with
      | some q =>
        rw [allocateDSTTPort_live ha]
        exact ⟨hk, rfl⟩
      | none =>
        rw [allocateDSTTPort_new ha]
        have hne : k ≠ a := by
          rintro rfl
          rw [hk] at ha
          cases ha
        have hp : p ≠ n.nextDSTT := by
          rintro rfl
          exact (hfree a rfl ha).2.2 k hk
        exact ⟨(AList.lookup_insert_ne hne).trans hk, Function.update_of_ne hp ..⟩
    | release a =>
      have hne : k ≠ a := by
        rintro rfl
        exact hnot (.inl rfl)
      change (n.releaseDSTTPort a).dsttBySession.lookup k = _ ∧ (n.releaseDSTTPort a).ports p = _
      rw [releaseDSTTPort_lookup, if_neg hne]
      refine ⟨hk, ?_⟩
      unfold releaseDSTTPort
      split
      · rfl
      · rename_i q hq
        have hpq : p ≠ q := by
          rintro rfl
          exact hne (s.distinct k a p hk hq)
        exact Function.update_of_ne hpq ..
    | manage portNum msg =>
      change (n.handlePMIC portNum msg).1.dsttBySession.lookup k = _ ∧
        (n.handlePMIC portNum msg).1.ports p = _
      rw [handlePMIC_dstt, handlePMIC_ports fun e => hnot (.inr ⟨portNum, msg, rfl, e⟩)]
      exact ⟨hk, rfl⟩
  · intro k tc base cycle gates hmem
    cases ev with
    | allocate a =>
      change _ ∈ (n.allocateDSTTPort a).2.2 at hmem
      unfold allocateDSTTPort at hmem
      grind
    | release a => cases hmem
    | manage portNum msg =>
      refine ⟨portNum, msg, rfl, ?_⟩
      change _ ∈ (n.handlePMIC portNum msg).2.2 at hmem
      rcases handlePMIC_cases n portNum msg with ⟨-, h⟩ | ⟨m, l, -, -, -, -, h⟩
      · rw [h] at hmem
        cases hmem
      · grind [mem_pushGateToDataplane]
  · intro k on hmem
    cases ev with
    | allocate a =>
      change _ ∈ (n.allocateDSTTPort a).2.2 at hmem
      cases ha : n.dsttBySession.lookup a with
      | some q =>
        rw [allocateDSTTPort_live ha] at hmem
        cases hmem
      | none =>
        grind [allocateDSTTPort_new]
    | release a => cases hmem
    | manage portNum msg =>
      refine .inr ⟨portNum, msg, rfl, ?_⟩
      change _ ∈ (n.handlePMIC portNum msg).2.2 at hmem
      rcases handlePMIC_cases n portNum msg with ⟨-, h⟩ | ⟨m, l, hm, ht, hl, -, h⟩
      · rw [h] at hmem
        cases hmem
      · rw [h] at hmem
        rcases List.mem_append.1 hmem with hmem | hmem
        · grind [mem_pushGateToDataplane]
        · split at hmem
          · rename_i hptp
            obtain ⟨e, he, hke⟩ := List.mem_map.1 hmem
            cases hke
            rw [hl] at hptp
            have hset := (foldl_pmicOp_ptp hptp).resolve_left (by simp)
            have hlook := AssocMap.mem_entries_iff.1 he
            exact ⟨⟨m, hm, ht, hset⟩, by rw [hlook]; rfl⟩
          · cases hmem

theorem Sound.new (nodeID : UInt64) : (NWTT.new nodeID).Sound := by
  have hnone : ∀ k p, (NWTT.new nodeID).dsttBySession.lookup k ≠ some p := by
    intro k p
    simp [NWTT.new]
  exact ⟨fun k _ p h => absurd h (hnone k p), fun k p h => absurd h (hnone k p),
    fun k p h => absurd h (hnone k p)⟩

/-! ## Main result -/

/-- The event may take a number. -/
def PortEvent.isAllocate : PortEvent → Bool
  | .allocate _ => true
  | _ => false

/-- The counter stands after the numbers used so far, and sessions have only such. -/
structure Counted (n : NWTT) (used : Nat) : Prop where
  nwttPorts : n.nwttPorts = [1]
  next : n.nextDSTT = UInt16.ofNat (2 + used)
  held : ∀ k p, n.dsttBySession.lookup k = some p → 2 ≤ p.toNat ∧ p.toNat < 2 + used

theorem Counted.next_toNat {used : Nat} (c : n.Counted used) (hlt : used < 65534) :
    n.nextDSTT.toNat = 2 + used := by
  rw [c.next, UInt16.toNat_ofNat']
  omega

theorem Counted.nextFree {used : Nat} (c : n.Counted used) (hlt : used < 65534) (ev : PortEvent) :
    n.NextFree ev := by
  have hnext := c.next_toNat hlt
  intro k _ _
  refine ⟨fun e => ?_, fun e => ?_, fun k' hk' => ?_⟩
  · rw [e] at hnext
    change 0 = 2 + used at hnext
    omega
  · rw [c.nwttPorts, List.mem_singleton] at e
    rw [e] at hnext
    change 1 = 2 + used at hnext
    omega
  · obtain ⟨-, h⟩ := c.held k' _ hk'
    omega

theorem Counted.mono {used : Nat} (c : n.Counted used) {n' : NWTT}
    (hnw : n'.nwttPorts = n.nwttPorts) (hnext : n'.nextDSTT = n.nextDSTT)
    (hsub : ∀ k p, n'.dsttBySession.lookup k = some p → n.dsttBySession.lookup k = some p) :
    n'.Counted used :=
  ⟨hnw.trans c.nwttPorts, hnext.trans c.next, fun k p hk => c.held k p (hsub k p hk)⟩

theorem Counted.step {used : Nat} (c : n.Counted used) (ev : PortEvent)
    (hlt : used + (if ev.isAllocate then 1 else 0) ≤ 65534) :
    ∃ used', (n.step ev).Counted used' ∧ used' ≤ used + if ev.isAllocate then 1 else 0 := by
  cases ev with
  | allocate k =>
    cases hk : n.dsttBySession.lookup k with
    | some p =>
      rw [step_allocate, allocateDSTTPort_live hk]
      exact ⟨used, c, Nat.le_add_right ..⟩
    | none =>
      have hlt' : used < 65534 := hlt
      have hnext := c.next_toNat hlt'
      rw [step_allocate, allocateDSTTPort_new hk]
      refine ⟨used + 1, ⟨c.nwttPorts, ?_, fun k' p hk' => ?_⟩, le_rfl⟩
      · rw [c.next]
        apply UInt16.toNat_inj.1
        simp only [UInt16.toNat_add, UInt16.toNat_ofNat', UInt16.toNat_one]
        omega
      · by_cases e : k' = k
        · subst e
          rw [AList.lookup_insert] at hk'
          cases hk'
          omega
        · rw [AList.lookup_insert_ne e] at hk'
          obtain ⟨h2, h3⟩ := c.held k' p hk'
          omega
  | release k =>
    refine ⟨used, c.mono releaseDSTTPort_nwttPorts ?_ fun k' p hk' => ?_, Nat.le_add_right ..⟩
    · change (n.releaseDSTTPort k).nextDSTT = _
      unfold releaseDSTTPort
      split <;> rfl
    · change (n.releaseDSTTPort k).dsttBySession.lookup k' = some p at hk'
      simp_all [releaseDSTTPort_lookup]
  | manage portNum msg =>
    refine ⟨used, c.mono handlePMIC_nwttPorts ?_ fun k p hk => ?_, Nat.le_add_right ..⟩
    · change (n.handlePMIC portNum msg).1.nextDSTT = _
      rcases handlePMIC_cases n portNum msg with ⟨h, -⟩ | ⟨m, l, -, -, -, h, -⟩ <;> rw [h]
    · change (n.handlePMIC portNum msg).1.dsttBySession.lookup k = some p at hk
      rwa [handlePMIC_dstt] at hk

/-- The numbers last for 65534 allocations. -/
theorem nextFree_of_few (nodeID : UInt64) (events : List PortEvent)
    (hfew : events.countP PortEvent.isAllocate ≤ 65534) :
    Meets step NextFree (new nodeID) events := by
  have hall : ∀ (events : List PortEvent) (n : NWTT) (used : Nat), n.Counted used →
      used + events.countP PortEvent.isAllocate ≤ 65534 → Meets step NextFree n events := by
    intro events
    induction events with
    | nil => exact fun _ _ _ _ => trivial
    | cons ev events ih =>
      intro n used c hle
      rw [List.countP_cons] at hle
      obtain ⟨used', c', hle'⟩ := c.step ev (by omega)
      refine ⟨fun k hev => ?_, ih _ used' c' (by omega)⟩
      subst hev
      have hone : (if (PortEvent.allocate k).isAllocate = true then 1 else 0) = 1 := rfl
      exact c.nextFree (by omega) (.allocate k) k rfl
  refine hall events (new nodeID) 0 ⟨rfl, rfl, fun k p hk => ?_⟩ (by omega)
  exact absurd hk (by simp [new])

/-- Two sessions, and the PTP instance list set on the port of the first. -/
def ptpOnOnePort : List PortEvent :=
  [.allocate ⟨[0x61], 1⟩, .allocate ⟨[0x62], 1⟩,
    .manage 2 (some { type := msgManagePortCommand
                      ops := [⟨opSetParameter, portParamPTPInstanceList, [0x01]⟩] })]

end NWTT

end MmtCore.Pfcp
