import MmtCore.Upf.DlPath
import MmtCore.Upf.RuleRuns

/-!
# Steps of the downlink path

What a packet and a call can do to a session, once for every property of its runs: `Arrival` for a
packet, and for a call what each FAR id finds afterwards.
-/

namespace MmtCore.Upf

open MmtCore.Lib MmtCore.Lib.SlotView Option Bool CallResult MeteredSession Or

/-! ## Packets -/

section

variable {s s' : MeteredSession} {gate : TscGate} {direction qfi : UInt8} {clock : Clock}
  {ipPkt : List UInt8} {v : Verdict}

/-- The checks change meters and counters; the PDRs and the FARs stay. -/
structure SameRules (s s' : RuleSession) : Prop where
  pdrs : s'.pdrs = s.pdrs
  fars : s'.fars = s.fars

theorem SameRules.refl (s : RuleSession) : SameRules s s := ⟨rfl, rfl⟩

theorem countDrop_rules (s : MeteredSession) (qer : Option Qer) (len : UInt64) :
    SameRules s.rules (s.countDrop qer direction len).rules := by
  cases qer <;> exact ⟨rfl, rfl⟩

theorem countUrr_rules (s : MeteredSession) (urr : Option Urr) (len : UInt64) :
    SameRules s.rules (s.countUrr urr direction len).rules := by
  cases urr <;> exact ⟨rfl, rfl⟩

variable {qer : Option Qer} {now : UInt64} {len : UInt32} {pass : Bool}

theorem checkMbr_rules (h : s.checkMbr qer direction now len = some (pass, s')) :
    s'.rules = s.rules := by
  unfold checkMbr at h
  cases qer with
  | none =>
    cases h
    rfl
  | some qer =>
    by_cases hrate : 0 < qer.mbrUl ∨ 0 < qer.mbrDl
    · simp only [hrate, if_true] at h
      obtain ⟨r, -, hr⟩ := map_eq_some_iff.1 h
      cases hr
      rfl
    · simp only [hrate, if_false] at h
      cases h
      rfl

theorem checkAmbr_rules (h : s.checkAmbr qer direction now len = some (pass, s')) :
    s'.rules = s.rules := by
  grind [checkAmbr, map_eq_some_iff]

/-- What the checks of a packet come to: a packet that passes has been classified, and is to be held
when the gate is closed for it. -/
theorem upfProcessPacket_spec
    (h : upfProcessPacket s gate direction qfi clock ipPkt = some (s', v)) :
    SameRules s.rules s'.rules ∧
      ∀ r tscHold, v = .passed r tscHold →
        upfClassify s.rules direction qfi ipPkt = some r ∧
          tscHold = gate.holds qfi r.matchedPdr clock.realtimeNs := by
  unfold upfProcessPacket at h
  cases hr : upfClassify s.rules direction qfi ipPkt with
  | none =>
    rw [hr] at h
    cases h
    exact ⟨.refl _, fun _ _ hv => by cases hv⟩
  | some r =>
    rw [hr] at h
    dsimp only at h
    split at h
    · cases h
      exact ⟨countDrop_rules .., fun _ _ hv => by cases hv⟩
    · obtain ⟨⟨pass, s₁⟩, hmbr, h⟩ := bind_eq_some_iff.1 h
      have h₁ := checkMbr_rules hmbr
      split at h
      · grind [countDrop_rules]
      · obtain ⟨⟨pass', s₂⟩, hambr, h⟩ := bind_eq_some_iff.1 h
        have h₂ := (checkAmbr_rules hambr).trans h₁
        split at h
        · cases h
          rw [h₂]
          exact ⟨.refl _, fun _ _ hv => by cases hv⟩
        · grind [countUrr_rules]

end

/-- What the checks find of a downlink packet; one that is no IPv4 packet matches nothing. -/
def DlSession.verdictOn (s : DlSession) (clock : Clock) (ipPkt : List UInt8) : Verdict :=
  if ipPkt.length < 20 ∨ (byteAt ipPkt 0).toNat / 16 ≠ 4 then .noMatch
  else
    match upfProcessPacket s.metered s.tscGate 1 0 clock ipPkt with
    | none => .noMatch
    | some r => r.2

/-- What becomes of a packet: `m` is the session after the checks. -/
inductive Arrival (s : DlSession) (env : DlEnv) (ipPkt : List UInt8) :
    Verdict → DlSession → DlOutput → Prop
  /-- It is not sent and not kept. -/
  | dropped {v : Verdict} {m : MeteredSession} (hm : SameRules s.metered.rules m.rules)
    (hv : ∀ r tscHold, v = .passed r tscHold →
      (r.action = 1 → tscHold = true ∧ ¬ s.dlBuf.length < upfDlBufSlots) ∧
        (r.action = 2 → ¬ s.dlBuf.length < upfDlBufSlots)) :
    Arrival s env ipPkt v { s with metered := m } .none
  /-- The TSC gate holds it. -/
  | held {m : MeteredSession} {r : ClassifyResult} (hm : SameRules s.metered.rules m.rules)
    (hact : r.action = 1) (hroom : s.dlBuf.length < upfDlBufSlots) :
    Arrival s env ipPkt (.passed r true)
      (DlSession.keep { s with metered := m } r.matchedPdr.qfi ipPkt) .none
  /-- Its FAR buffers it. -/
  | buffered {m : MeteredSession} {r : ClassifyResult} {tscHold : Bool}
    (hm : SameRules s.metered.rules m.rules) (hact : r.action = 2)
    (hroom : s.dlBuf.length < upfDlBufSlots) :
    Arrival s env ipPkt (.passed r tscHold)
      (DlSession.keep { s with metered := m } r.matchedPdr.qfi ipPkt)
      ⟨if s.dlBuf.isEmpty && env.ringRoom then [⟨r.matchedPdr.qfi, byteAt ipPkt 1⟩] else [], []⟩
  /-- It goes its way, behind what the TSC gate held; `direct` is the packet itself, if its FAR has a
  tunnel. -/
  | left {m : MeteredSession} {r : ClassifyResult} {tscHold : Bool} {far : Far}
    {direct : List Datagram} (hm : SameRules s.metered.rules m.rules) (hfar : r.far = some far)
    (hact : r.action ≠ 2) (hhold : r.action = 1 → tscHold = false)
    (hdirect : if r.action = 1 ∧ far.ohcType = 1 then
        ∃ d, forwardDl s.ptpSteering far r.matchedPdr.qfi env.clock.realtimeNs ipPkt = some d ∧
          direct = [d]
      else direct = []) :
    Arrival s env ipPkt (.passed r tscHold)
      { s with metered := m, dlBuf := if s.reopens r tscHold then [] else s.dlBuf }
      ⟨[], (if s.reopens r tscHold then flushDlBuf far s.dlBuf else []) ++ direct⟩

variable {ipPkt : List UInt8} {r : ClassifyResult}

/-- A FAR that is not there drops. -/
theorem action_of_classified {s : RuleSession} {direction qfi : UInt8}
    (h : upfClassify s direction qfi ipPkt = some r) :
    r.far = findFar s r.matchedPdr.farId ∧ r.action = (r.far.map Far.action).getD 0 := by
  unfold upfClassify at h
  split at h
  · cases h
  · obtain ⟨pdr, -, rfl⟩ := map_eq_some_iff.1 h
    exact ⟨rfl, rfl⟩

/-- A packet that passed the checks. -/
theorem DlSession.deliver_arrival {s s' : DlSession} {m : MeteredSession} {env : DlEnv}
    {ipPkt : List UInt8} {tscHold : Bool} {out : DlOutput} (hm : SameRules s.metered.rules m.rules)
    (hr : r.action = (r.far.map Far.action).getD 0)
    (h : DlSession.deliver { s with metered := m } env ipPkt r tscHold = some (s', out)) :
    Arrival s env ipPkt (.passed r tscHold) s' out := by
  unfold deliver at h
  by_cases hheld : (tscHold && r.action == 1) = true
  · simp only [hheld, if_true] at h
    obtain ⟨rfl, hact⟩ := and_eq_true_iff.1 hheld
    have hact : r.action = 1 := beq_iff_eq.1 hact
    by_cases hroom : s.dlBuf.length < upfDlBufSlots
    · simp only [hroom, if_true] at h
      cases h
      exact .held hm hact hroom
    · simp only [hroom, if_false] at h
      cases h
      refine .dropped hm fun r' tscHold' hv => ?_
      simp_all
  · simp only [hheld, false_eq_true, if_false] at h
    have hhold : r.action = 1 → tscHold = false := by
      intro hact
      rw [hact] at hheld
      simpa using hheld
    by_cases hact : r.action = 2
    · simp only [hact, beq_self_eq_true, if_true] at h
      by_cases hroom : s.dlBuf.length < upfDlBufSlots
      · simp only [hroom, if_true] at h
        cases h
        exact .buffered hm hact hroom
      · simp only [hroom, if_false] at h
        cases h
        refine .dropped hm fun r' tscHold' hv => ?_
        grind
    · simp only [beq_eq_false_iff_ne.2 hact, false_eq_true, if_false] at h
      cases hfar : r.far with
      | none =>
        rw [hfar] at hr h
        cases h
        refine .dropped hm fun r' tscHold' hv => ?_
        simp_all
      | some far =>
        rw [hfar] at h
        have hopen : ({ s with metered := m } : DlSession).reopens r tscHold =
            s.reopens r tscHold := rfl
        have hs : (if s.reopens r tscHold then
              ({ s with metered := m, dlBuf := [] } : DlSession) else { s with metered := m }) =
            { s with metered := m, dlBuf := if s.reopens r tscHold then [] else s.dlBuf } := by
          split <;> rfl
        simp only [hopen, hs, and_eq_true, beq_iff_eq] at h
        by_cases htunnel : r.action = 1 ∧ far.ohcType = 1
        · rw [if_pos htunnel] at h
          obtain ⟨d, hd, hout⟩ := map_eq_some_iff.1 h
          cases hout
          refine .left hm hfar hact hhold ?_
          rw [if_pos htunnel]
          exact ⟨d, hd, rfl⟩
        · rw [if_neg htunnel] at h
          cases h
          have hnone : (if s.reopens r tscHold then flushDlBuf far s.dlBuf else []) =
              (if s.reopens r tscHold then flushDlBuf far s.dlBuf else []) ++ [] :=
            (List.append_nil _).symm
          rw [hnone]
          exact .left hm hfar hact hhold (by rw [if_neg htunnel])

/-- A packet is dropped, held, buffered or sent on. -/
theorem DlSession.packet_arrival {s s' : DlSession} {env : DlEnv} {out : DlOutput}
    (h : s.processDlPacket env ipPkt = some (s', out)) :
    Arrival s env ipPkt (s.verdictOn env.clock ipPkt) s' out := by
  unfold processDlPacket at h
  unfold verdictOn
  split at h
  · rename_i hver
    cases h
    rw [if_pos hver]
    exact .dropped (.refl _) fun _ _ hv => by cases hv
  · rename_i hver
    obtain ⟨⟨m, v⟩, hproc, h⟩ := bind_eq_some_iff.1 h
    obtain ⟨hm, hpassed⟩ := upfProcessPacket_spec hproc
    rw [if_neg hver, hproc]
    cases v with
    | noMatch | gateClosed | rateExceeded =>
      cases h
      exact .dropped hm fun _ _ hv => by cases hv
    | passed r tscHold =>
      have hr := hpassed r tscHold rfl
      exact deliver_arrival hm (action_of_classified hr.1).2 h

/-- The rules attached to a packet that passed are those of the session. -/
theorem DlSession.verdictOn_passed {s : DlSession} {clock : Clock} {tscHold : Bool}
    (h : s.verdictOn clock ipPkt = .passed r tscHold) :
    r.far = findFar s.metered.rules r.matchedPdr.farId ∧
      r.action = (r.far.map Far.action).getD 0 := by
  unfold verdictOn at h
  split at h
  · cases h
  · split at h
    · cases h
    · rename_i res hproc
      exact action_of_classified ((upfProcessPacket_spec hproc).2 r tscHold h).1

/-! ## Calls -/

section

variable {s s' : RuleSession} {c : RuleCall}

/-- The rules after a call that only carries them. -/
theorem carried_of_some {s s' : MeteredSession} {res : CallResult}
    (h : (match res with
      | .rejected => some s
      | .undefined => none
      | .done rules => some { s with rules }) = some s') :
    res = .done s'.rules ∨ res = .rejected ∧ s'.rules = s.rules := by
  grind

variable {tb : TbParams} {tsc : UInt64} {f : Far → Far}

/-- The call leaves the rules, or does to them what it does without meters. -/
theorem MeteredSession.call_rules {s s' : MeteredSession} (h : s.call tb tsc c = some s') :
    s.rules.call c = .done s'.rules ∨ s.rules.call c = .rejected ∧ s'.rules = s.rules := by
  have hadd : ∀ a : QerArgs, some ((s.addQer tb a tsc).getD s) = some s' →
      ofOption (upfDpAddQer s.rules a) = .done s'.rules ∨
        ofOption (upfDpAddQer s.rules a) = .rejected ∧ s'.rules = s.rules := by
    intro a h
    cases h
    unfold addQer upfDpAddQer
    cases findOrAllocQerSlot s.rules.qers a.qerId with
    | none => exact inr ⟨rfl, rfl⟩
    | some slot => exact inl rfl
  cases c with
  | addQer a => exact hadd a h
  | updateQer a =>
    unfold call at h
    unfold RuleSession.call upfDpUpdateQer
    dsimp only at h ⊢
    split at h
    · rename_i hex
      rw [if_pos hex]
      exact hadd a h
    · rename_i hex
      cases h
      rw [if_neg hex]
      exact inr ⟨rfl, rfl⟩
  | addPdr a | updatePdr a | removePdr k | addFar a | updateFar k t
  | deactivateDl k | removeFar k | removeQer k | addUrr a | updateUrr a
  | removeUrr k => exact carried_of_some h

/-- What the call makes of the FAR that an id finds. -/
def RuleCall.onFar (c : RuleCall) (farId : UInt32) (far : Option Far) : Option Far :=
  match c with
  | .addFar a => if farId = a.farId then some a.far else far
  | .updateFar k t => if farId = k then far.map (Far.updated · t) else far
  | .deactivateDl k => if farId = k then far.map Far.deactivated else far
  | .removeFar k => if farId = k then none else far
  | _ => far

theorem fars_sound_call (hs : Far.view.Sound upfMaxFarPerSession s.fars)
    (h : s.call c = .done s') : Far.view.Sound upfMaxFarPerSession s'.fars :=
  (call_effect (t := ⟨s, .start⟩) h).fars.sound hs

/-- A change of the FAR with an id, and of no other. -/
theorem findFar_change {p : Far → Bool} {fars : List Far} {k : UInt32}
    (hs : Far.view.Sound upfMaxFarPerSession s.fars) (hc : SlotView.change p f s.fars = some fars)
    (hf : ∀ a, Far.view.id (f a) = Far.view.id a) (hpid : ∀ a, p a = true → Far.view.id a = k) :
    (∃ a ∈ s.fars, p a = true ∧ findFar s k = Far.view.found a ∧
      findFar { s with fars } k = Far.view.found (f a)) ∧
    ∀ k', k' ≠ k → findFar { s with fars } k' = findFar s k' := by
  obtain ⟨a, ha, hp, hnew, hother⟩ := hs.lookup_change hf hpid hc
  have hold := hs.lookup_id ha
  rw [hpid a hp] at hold
  exact ⟨⟨a, ha, hp, hold, hnew⟩, hother⟩

theorem Far.found_map (hf : ∀ a, Far.view.active (f a) = Far.view.active a) (a : Far) :
    Far.view.found (f a) = (Far.view.found a).map f := by
  cases hact : Far.view.active a with
  | true => rw [found_of_active hact, found_of_active ((hf a).trans hact), map_some]
  | false => rw [found_of_inactive hact, found_of_inactive ((hf a).trans hact), map_none]

/-- A call that names no FAR leaves the table. -/
theorem fars_call (h : s.call c = .done s') (hnone : c.farId = none) : s'.fars = s.fars := by
  have hempty : ∀ {e e' : UInt32 → Expected Far} {l l' : List Far},
      Effect Far.view upfMaxFarPerSession l e none l' e' → l' = l := by
    intro e e' l l' he
    cases he
    rfl
  have he := (call_effect (t := ⟨s, .start⟩) h).fars
  rw [hnone] at he
  exact hempty he

theorem findFar_call (hs : Far.view.Sound upfMaxFarPerSession s.fars) (h : s.call c = .done s')
    (farId : UInt32) : findFar s' farId = c.onFar farId (findFar s farId) := by
  have hkept : c.farId = none → findFar s' farId = findFar s farId := by
    intro hnone
    unfold findFar
    rw [fars_call h hnone]
  cases c with
  | addFar a =>
    obtain ⟨slot, hslot, rfl⟩ := map_eq_some_iff.1 (ofOption_done h)
    exact hs.lookup_store (a := a.far) (slot_of_findOrAlloc hslot) rfl farId
  | updateFar k t =>
    obtain ⟨fars, hc, rfl⟩ := map_eq_some_iff.1 (ofOption_done h)
    obtain ⟨⟨a, -, hp, hold, hnew⟩, hother⟩ :=
      findFar_change hs hc (fun _ => rfl) (fun a hp => beq_iff_eq.1 hp)
    unfold RuleCall.onFar
    dsimp only
    split
    · rename_i hk
      rw [hk, hnew, hold]
      exact Far.found_map (f := (Far.updated · t)) (fun _ => rfl) a
    · rename_i hk
      exact hother farId hk
  | deactivateDl k =>
    obtain ⟨fars, hc, rfl⟩ := map_eq_some_iff.1 (ofOption_done h)
    obtain ⟨⟨a, -, hp, hold, hnew⟩, hother⟩ :=
      findFar_change hs hc Far.farId_deactivated (fun a hp => beq_iff_eq.1 hp)
    grind [RuleCall.onFar, Far.found_map, Far.active_deactivated]
  | removeFar k =>
    obtain ⟨fars, hc, rfl⟩ := map_eq_some_iff.1 (ofOption_done h)
    obtain ⟨⟨a, -, hp, hold, hnew⟩, hother⟩ := findFar_change hs hc (fun _ => rfl)
      (fun a hp => beq_iff_eq.1 (and_eq_true_iff.1 hp).1)
    unfold RuleCall.onFar
    dsimp only
    split
    · rename_i hk
      rw [hk, hnew]
      rfl
    · rename_i hk
      exact hother farId hk
  | addPdr a | updatePdr a | removePdr k | addQer a | updateQer a | removeQer k
  | addUrr a | updateUrr a | removeUrr k => exact hkept rfl

/-- What is flushed goes through the first FAR of the update's id, which buffered. -/
theorem flushedBy_eq_some {far : Far} (h : s.flushedBy c = some far) :
    ∃ k t old, c = .updateFar k t ∧ old ∈ s.fars ∧ old.farId = k ∧ old.action = 2 ∧
      far = old.updated t := by
  unfold RuleSession.flushedBy at h
  grind [bind_eq_some_iff]

/-- The call leaves the session, or empties its buffer through a FAR. -/
theorem DlSession.call_cases {s s' : DlSession} {out : DlOutput}
    (h : s.call tb c tsc = some (s', out)) :
    ∃ m, s.metered.call tb tsc c = some m ∧
      ((s.metered.rules.flushedBy c = none ∧ s' = { s with metered := m } ∧ out = .none) ∨
        ∃ far, s.metered.rules.flushedBy c = some far ∧
          s' = { s with metered := m, dlBuf := [] } ∧ out = ⟨[], flushDlBuf far s.dlBuf⟩) := by
  obtain ⟨m, hm, hout⟩ := map_eq_some_iff.1 h
  grind

end

end MmtCore.Upf
