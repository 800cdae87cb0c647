import MmtCore.Upf.GtpuTrips
import MmtCore.Upf.PtpTrips
import MmtCore.Upf.SessionPool

/-!
# What the usage reporting rules count

`process_ul_packet` and `process_dl_packet` of `upf_pkt_io.c` over the sessions of the data plane.
`upf_process_packet` counts a packet in the URR of its PDR as soon as the packet has passed the
gate of its QER and the meters; what the FAR, the TSC gate and the buffer of the session then do to
it is decided later and does not matter.  So in every run each URR counts exactly the packets of its
PDRs that passed gate and meters (`urr_counts_admitted`), also those that are dropped behind them.
-/

namespace MmtCore.Upf

open MmtCore.Lib MmtCore.Lib.SlotView List

/-! ## What the checks admit -/

/-- The PDR of a packet that passes the gate of its QER, the MBR meter and the session AMBR
meter. -/
def MeteredSession.admitted (s : MeteredSession) (direction qfi : UInt8) (clock : Clock)
    (ipPkt : List UInt8) : Option Pdr := do
  let len := (UInt16.ofNat ipPkt.length).toUInt32
  let r ← upfClassify s.rules direction qfi ipPkt
  guard (r.qer.any (Qer.gated direction) = false)
  let mbr ← s.checkMbr r.qer direction clock.tsc len
  guard (mbr.1 = true)
  let ambr ← mbr.2.checkAmbr r.qer direction clock.tsc len
  guard (ambr.1 = true)
  return r.matchedPdr

/-- A packet that `upf_process_packet` was called on: the session, the PDR by which it passed the
checks, and whether it was then sent on or kept. -/
structure Handled where
  key : SessionKey
  direction : UInt8
  ipPkt : List UInt8
  pdr : Option Pdr
  forwarded : Bool
deriving DecidableEq

/-- What a packet brings about. -/
structure IoOutput where
  tun : List (List UInt8)
  dl : DlOutput
  handled : List Handled

def IoOutput.none : IoOutput := ⟨[], .none, []⟩

/-! ## The data plane -/

/-- The sessions, and the reverse maps to them. -/
structure Dataplane where
  sessions : SessionKey → Option DlSession
  teids : UInt32 → Option SessionKey
  ueIps : UInt32 → Option SessionKey

/-- `rte_hash_lookup` in a reverse map and `upf_session_get`. -/
def Dataplane.get (d : Dataplane) (map : UInt32 → Option SessionKey) (k : UInt32) :
    Option (SessionKey × DlSession) :=
  (map k).bind fun key => (d.sessions key).map fun s => (key, s)

def Dataplane.put (d : Dataplane) (key : SessionKey) (s : DlSession) : Dataplane :=
  { d with sessions := Function.update d.sessions key (some s) }

/-- What an uplink packet meets: the clocks of its checks and of its hairpin copy, the time of the
PTP steering, and whether there is a TUN device.  `fuel` bounds the walk over the GTP-U headers. -/
structure UlEnv where
  clock : Clock
  hairpinClock : Clock
  ptpNs : UInt64
  tunOpen : Bool
  fuel : Nat

/-- The G-PDU of a hairpin copy, in a buffer of 2048 bytes; the outer `none` is a write beyond
it. -/
def Far.hairpinDatagram (far : Far) (qfi : UInt8) (payload : List UInt8) :
    Option (List Datagram) :=
  match Gtpu.gtpuEncode 2048 far.ohcTeid qfi (Gtpu.stored (fun _ => 0) payload)
      (UInt16.ofNat payload.length) with
  | none => some []
  | some e =>
    if 2048 < e.written.length then none
    else if e.total = 0 then some []
    else some [⟨far.ohcPeerAddr, far.ohcPeerPort, e.written.take e.total.toNat⟩]

/-- What the hairpin leaves: the payload, with new checksums where it was copied, and the datagrams
of the copy. -/
structure Hairpin where
  plane : Dataplane
  payload : List UInt8
  sent : List Datagram
  handled : List Handled

/-- The hairpin of `process_ul_packet`: the packet is also one to the UE that its destination
address finds. -/
def Dataplane.hairpin (d : Dataplane) (clock : Clock) (payload : List UInt8) : Option Hairpin :=
  match d.get d.ueIps (addr32 payload 16) with
  | none => some ⟨d, payload, [], []⟩
  | some (key, s) =>
    (upfProcessPacket s.metered s.tscGate 1 0 clock payload).bind fun (metered, verdict) =>
      let d := d.put key { s with metered }
      let handled := Handled.mk key 1 payload (s.metered.admitted 1 0 clock payload)
      match verdict with
      | .passed r _ =>
        match r.far with
        | none => some ⟨d, payload, [], [handled false]⟩
        | some far =>
          if r.action = 1 ∧ far.ohcType = 1 then
            (far.hairpinDatagram r.matchedPdr.qfi (fixupChecksums payload)).map fun sent =>
              ⟨d, fixupChecksums payload, sent, [handled !sent.isEmpty]⟩
          else some ⟨d, payload, [], [handled false]⟩
      | _ => some ⟨d, payload, [], [handled false]⟩

/-- The bytes that an uplink packet is written to the TUN device with. -/
def tunBytes (ptpSteering : Bool) (ptpNs : UInt64) (mem : Memory) (g : GtpuDecoded)
    (payload : List UInt8) : List UInt8 :=
  if ptpSteering then
    let run := upfPtpProcess (Gtpu.stored (fun i => mem (g.payload + i)) payload) g.payloadLen
      g.payloadLen.toUInt32 false ptpNs
    Probe.slice run.mem 0 run.ipLen
  else payload

/-- `process_ul_packet`, on the session that the TEID finds. -/
def Dataplane.processInner (d : Dataplane) (env : UlEnv) (mem : Memory) (g : GtpuDecoded)
    (key : SessionKey) (s : DlSession) : Option (Dataplane × IoOutput) :=
  let payload := Probe.slice mem g.payload g.payloadLen.toNat
  (upfProcessPacket s.metered s.tscGate 0 g.qfi env.clock payload).bind fun (metered, verdict) =>
    let d := d.put key { s with metered }
    let handled := Handled.mk key 0 payload (s.metered.admitted 0 g.qfi env.clock payload)
    match verdict with
    | .passed r tscHold =>
      if tscHold || r.action != 1 then some (d, ⟨[], .none, [handled false]⟩)
      else
        (d.hairpin env.hairpinClock payload).map fun h =>
          let tun := if env.tunOpen then [tunBytes s.ptpSteering env.ptpNs mem g h.payload] else []
          (h.plane, ⟨tun, ⟨[], h.sent⟩, handled true :: h.handled⟩)
    | _ => some (d, ⟨[], .none, [handled false]⟩)

/-- `process_ul_packet`; `none` is undefined behaviour, or a walk over the headers without end. -/
def Dataplane.processUlPacket (d : Dataplane) (env : UlEnv) (mem : Memory) (len : UInt16) :
    Option (Dataplane × IoOutput) :=
  ((gtpuDecode len env.fuel).value mem).bind fun decoded =>
    match decoded with
    | none => some (d, .none)
    | some g =>
      match d.get d.teids g.teid with
      | none => some (d, .none)
      | some (key, s) =>
        if g.qfi = 0 then some (d, .none) else d.processInner env mem g key s

/-- The packet is sent or kept by `process_dl_packet`. -/
def DlSession.forwards (s : DlSession) (clock : Clock) (ipPkt : List UInt8) : Bool :=
  match s.verdictOn clock ipPkt with
  | .passed r tscHold =>
    if (tscHold && r.action == 1) || r.action == 2 then decide (s.dlBuf.length < upfDlBufSlots)
    else r.action == 1 && r.far.any fun far => far.ohcType == 1
  | _ => false

/-- `process_dl_packet`. -/
def Dataplane.processDlPacket (d : Dataplane) (env : DlEnv) (ipPkt : List UInt8) :
    Option (Dataplane × IoOutput) :=
  if ipPkt.length < 20 ∨ (byteAt ipPkt 0).toNat / 16 ≠ 4 then some (d, .none)
  else
    match d.get d.ueIps (addr32 ipPkt 16) with
    | none => some (d, .none)
    | some (key, s) =>
      (s.processDlPacket env ipPkt).map fun (s', out) =>
        (d.put key s', ⟨[], out, [⟨key, 1, ipPkt, s.metered.admitted 1 0 env.clock ipPkt,
          s.forwards env.clock ipPkt⟩]⟩)

/-- A packet from the access network, in the memory of its buffer, or from the TUN device. -/
inductive IoPacket
  | uplink (env : UlEnv) (mem : Memory) (len : UInt16)
  | downlink (env : DlEnv) (ipPkt : List UInt8)

def Dataplane.step (d : Dataplane) : IoPacket → Option (Dataplane × IoOutput)
  | .uplink env mem len => d.processUlPacket env mem len
  | .downlink env ipPkt => d.processDlPacket env ipPkt

/-- The data plane after the packets, and what they were handled as, in order. -/
def Dataplane.run : Dataplane → List IoPacket → Option (Dataplane × List Handled)
  | d, [] => some (d, [])
  | d, p :: ps =>
    (d.step p).bind fun (d, out) => (run d ps).map fun (d, handled) => (d, out.handled ++ handled)

/-! ## What is counted -/

/-- The URR that an id finds in a session. -/
def Dataplane.urr (d : Dataplane) (key : SessionKey) (urrId : UInt32) : Option Urr :=
  (d.sessions key).bind fun s => findUrr s.metered.rules urrId

/-- The packet passed the checks by a PDR that names the URR. -/
def Handled.names (h : Handled) (key : SessionKey) (urrId : UInt32) : Bool :=
  h.key == key && h.pdr.any fun pdr => pdr.urrId == urrId && urrId != 0

def Handled.len (h : Handled) : UInt64 := (UInt16.ofNat h.ipPkt.length).toUInt64

def uplinks (l : List Handled) : List Handled := l.filter fun h => h.direction == 0

def downlinks (l : List Handled) : List Handled := l.filter fun h => h.direction != 0

/-- The counters with the packets added. -/
def Urr.plus (u : Urr) (l : List Handled) : Urr :=
  { u with
    volUl := u.volUl + ((uplinks l).map Handled.len).sum
    volDl := u.volDl + ((downlinks l).map Handled.len).sum
    pktUl := u.pktUl + UInt64.ofNat (uplinks l).length
    pktDl := u.pktDl + UInt64.ofNat (downlinks l).length }

/-- Each URR has counted those packets of its PDRs that were sent on or kept. -/
def Dataplane.CountsForwarded (d : Dataplane) (packets : List IoPacket) : Prop :=
  ∀ d' handled, d.run packets = some (d', handled) → ∀ key urrId,
    d'.urr key urrId = (d.urr key urrId).map fun u =>
      u.plus (handled.filter fun h => h.names key urrId && h.forwarded)

namespace Urr

variable (u : Urr) (l l' : List Handled)

@[simp] theorem plus_nil : u.plus [] = u := by
  simp [plus, uplinks, downlinks]

/-- The counters add up, whatever they wrap to. -/
theorem plus_append : u.plus (l ++ l') = (u.plus l).plus l' := by
  have hsum : ∀ a b : List UInt64, (a ++ b).sum = a.sum + b.sum := by
    simp [cons_append, sum_cons, UInt64.add_assoc]
  simp only [plus, uplinks, downlinks, filter_append, map_append, hsum,
    length_append, UInt64.ofNat_add, UInt64.add_assoc]

/-- One packet is added as `upf_process_packet` counts it. -/
theorem plus_singleton (h : Handled) : u.plus [h] = u.count h.direction h.len := by
  unfold plus count uplinks downlinks
  by_cases hd : h.direction = 0 <;> simp [hd]

end Urr

/-! ## One call -/

section

variable {s s' : MeteredSession} {gate : TscGate} {direction qfi : UInt8} {clock : Clock}
  {ipPkt : List UInt8} {v : Verdict}

theorem countDrop_urrs (s : MeteredSession) (qer : Option Qer) (len : UInt64) :
    (s.countDrop qer direction len).rules.urrs = s.rules.urrs := by
  cases qer <;> rfl

/-- The URR that an id finds counts the packet, and no other does. -/
theorem countUrr_findUrr (s : MeteredSession) (k urrId : UInt32) (len : UInt64) :
    findUrr (s.countUrr (findUrr s.rules k) direction len).rules urrId =
      if urrId = k then (findUrr s.rules k).map (Urr.count direction len)
      else findUrr s.rules urrId := by
  cases hu : findUrr s.rules k with
  | none =>
    split
    · rename_i hk
      rw [hk]
      exact hu
    · rfl
  | some u =>
    have hid : u.urrId = k := by
      have hfound := find?_some hu
      simp only [Bool.and_eq_true, beq_iff_eq] at hfound
      exact hfound.1
    have hchange := lookup_changed (v := Urr.view) (f := Urr.count direction len)
      (fun a => by unfold Urr.count; split <;> rfl) (fun a => by unfold Urr.count; split <;> rfl)
      s.rules.urrs k urrId
    unfold findUrr at hu
    rw [hu] at hchange
    subst hid
    exact hchange

/-- The id 0 names no URR. -/
theorem urr_of_classified {s : RuleSession} {r : ClassifyResult}
    (h : upfClassify s direction qfi ipPkt = some r) :
    r.urr = if 0 < r.matchedPdr.urrId then findUrr s r.matchedPdr.urrId else none := by
  unfold upfClassify at h
  split at h
  · cases h
  · obtain ⟨pdr, -, rfl⟩ := Option.map_eq_some_iff.1 h
    rfl

/-- A call counts the packet in the URR of the PDR that admits it. -/
theorem upfProcessPacket_urr
    (h : upfProcessPacket s gate direction qfi clock ipPkt = some (s', v)) (urrId : UInt32) :
    findUrr s'.rules urrId =
      if (s.admitted direction qfi clock ipPkt).any
          (fun pdr => pdr.urrId == urrId && urrId != 0) = true then
        (findUrr s.rules urrId).map (Urr.count direction (UInt16.ofNat ipPkt.length).toUInt64)
      else findUrr s.rules urrId := by
  unfold upfProcessPacket at h
  unfold MeteredSession.admitted
  cases hr : upfClassify s.rules direction qfi ipPkt with
  | none =>
    rw [hr] at h
    cases h
    rfl
  | some r =>
    rw [hr] at h
    dsimp only at h
    by_cases hgate : r.qer.any (Qer.gated direction) = true
    · rw [if_pos hgate] at h
      cases h
      unfold findUrr
      rw [countDrop_urrs]
      simp [hgate, guard]
    · rw [if_neg hgate] at h
      obtain ⟨⟨pass, s₁⟩, hmbr, h⟩ := Option.bind_eq_some_iff.1 h
      have h₁ := checkMbr_rules hmbr
      cases pass with
      | false =>
        cases h
        unfold findUrr
        rw [countDrop_urrs, h₁]
        simp [hgate, hmbr, guard]
      | true =>
        obtain ⟨⟨pass', s₂⟩, hambr, h⟩ := Option.bind_eq_some_iff.1 h
        have h₂ := (checkAmbr_rules hambr).trans h₁
        cases pass' with
        | false =>
          cases h
          rw [h₂]
          simp [hgate, hmbr, hambr, guard]
        | true =>
          cases h
          have hadmitted : (some r.matchedPdr).any
              (fun pdr => pdr.urrId == urrId && urrId != 0) = true ↔
              urrId = r.matchedPdr.urrId ∧ r.matchedPdr.urrId ≠ 0 := by
            simp only [Option.any_some, Bool.and_eq_true, beq_iff_eq, bne_iff_ne]
            constructor <;> rintro ⟨rfl, hne⟩ <;> exact ⟨rfl, hne⟩
          simp only [guard, hgate, hmbr, hambr, if_true, Option.bind_eq_bind, Option.pure_def,
            Option.bind_some, hadmitted]
          rw [urr_of_classified hr]
          by_cases hid : r.matchedPdr.urrId = 0
          · rw [if_neg (fun hpos => uint32_pos_iff.1 hpos hid), if_neg (fun hc => hc.2 hid)]
            exact congrArg (findUrr · urrId) h₂
          · rw [if_pos (uint32_pos_iff.2 hid), ← h₂, countUrr_findUrr]
            by_cases hk : urrId = r.matchedPdr.urrId
            · rw [if_pos hk, if_pos ⟨hk, hid⟩, hk]
            · rw [if_neg hk, if_neg fun hc => hk hc.1]

end

variable {env : DlEnv} {ipPkt : List UInt8} {out : DlOutput}

/-- What becomes of a packet behind the checks leaves the rules and the counters. -/
theorem DlSession.deliver_metered {s s' : DlSession} {r : ClassifyResult} {tscHold : Bool}
    (h : s.deliver env ipPkt r tscHold = some (s', out)) : s'.metered = s.metered := by
  unfold deliver at h
  split at h
  · cases h
    split <;> rfl
  · split at h
    · split at h <;> cases h <;> rfl
    · cases hfar : r.far with
      | none =>
        rw [hfar] at h
        cases h
        rfl
      | some far =>
        grind [Option.map_eq_some_iff]

/-- A downlink packet leaves what the checks left. -/
theorem DlSession.processDlPacket_metered {s s' : DlSession}
    (hver : ¬ (ipPkt.length < 20 ∨ (byteAt ipPkt 0).toNat / 16 ≠ 4))
    (h : s.processDlPacket env ipPkt = some (s', out)) :
    ∃ v, upfProcessPacket s.metered s.tscGate 1 0 env.clock ipPkt = some (s'.metered, v) := by
  unfold processDlPacket at h
  rw [if_neg hver] at h
  obtain ⟨⟨m, v⟩, hproc, h⟩ := Option.bind_eq_some_iff.1 h
  have hm : s'.metered = m := by
    cases v with
    | passed r tscHold => exact deliver_metered h
    | noMatch | gateClosed | rateExceeded =>
      cases h
      rfl
  exact ⟨v, hproc.trans (by rw [hm])⟩

/-! ## One packet -/

namespace Dataplane

variable {d d' : Dataplane} {key : SessionKey} {s : DlSession}

theorem get_eq_some {map : UInt32 → Option SessionKey} {k : UInt32}
    (h : d.get map k = some (key, s)) : d.sessions key = some s := by
  obtain ⟨key', -, h⟩ := Option.bind_eq_some_iff.1 h
  obtain ⟨s', hs, heq⟩ := Option.map_eq_some_iff.1 h
  cases heq
  exact hs

/-- The packets `handled` on the way from `d` to `d'` are what the URRs have counted. -/
def Counted (d d' : Dataplane) (handled : List Handled) : Prop :=
  ∀ key urrId, d'.urr key urrId = (d.urr key urrId).map fun u =>
    u.plus (handled.filter fun h => h.names key urrId)

theorem Counted.refl (d : Dataplane) : Counted d d [] := by
  intro key urrId
  simp

theorem Counted.trans {d'' : Dataplane} {l l' : List Handled} (h : Counted d d' l)
    (h' : Counted d' d'' l') : Counted d d'' (l ++ l') := by
  intro key urrId
  rw [h', h, Option.map_map, List.filter_append]
  exact congrArg (Option.map · (d.urr key urrId)) (funext fun u => (u.plus_append _ _).symm)

variable {clock : Clock} {out : IoOutput}

/-- One call of `upf_process_packet`, on a session of the data plane. -/
theorem counted_call (s' : DlSession) {gate : TscGate} {direction qfi : UInt8} {ipPkt : List UInt8}
    {v : Verdict} (hs : d.sessions key = some s)
    (h : upfProcessPacket s.metered gate direction qfi clock ipPkt = some (s'.metered, v))
    (forwarded : Bool) :
    Counted d (d.put key s')
      [⟨key, direction, ipPkt, s.metered.admitted direction qfi clock ipPkt, forwarded⟩] := by
  intro k urrId
  unfold urr put
  dsimp only
  by_cases hk : k = key
  · subst hk
    rw [Function.update_self, hs, Option.bind_some, Option.bind_some, upfProcessPacket_urr h]
    by_cases hname : (s.metered.admitted direction qfi clock ipPkt).any
        (fun pdr => pdr.urrId == urrId && urrId != 0) = true
    · rw [if_pos hname, filter_cons_of_pos (by simp [Handled.names, hname]), filter_nil]
      refine congrArg (Option.map · _) (funext fun u => ?_)
      rw [u.plus_singleton]
      rfl
    · rw [if_neg hname, filter_cons_of_neg (by simp [Handled.names, hname]), filter_nil]
      simp
  · rw [Function.update_of_ne hk, filter_cons_of_neg (by simp [Handled.names, Ne.symm hk]),
      filter_nil]
    simp

theorem counted_hairpin {payload : List UInt8} {h : Hairpin}
    (hh : d.hairpin clock payload = some h) : Counted d h.plane h.handled := by
  unfold hairpin at hh
  cases hget : d.get d.ueIps (addr32 payload 16) with
  | none =>
    rw [hget] at hh
    cases hh
    exact .refl d
  | some found =>
    obtain ⟨key, s⟩ := found
    rw [hget] at hh
    obtain ⟨⟨m, v⟩, hproc, hh⟩ := Option.bind_eq_some_iff.1 hh
    have hcall := counted_call { s with metered := m } (get_eq_some hget) hproc
    grind [Option.map_eq_some_iff]

theorem counted_inner {env : UlEnv} {mem : Memory} {g : GtpuDecoded} (hs : d.sessions key = some s)
    (h : d.processInner env mem g key s = some (d', out)) :
    Counted d d' out.handled := by
  obtain ⟨⟨m, v⟩, hproc, h⟩ := Option.bind_eq_some_iff.1 h
  have hcall := counted_call { s with metered := m } hs hproc
  cases v with
  | noMatch | gateClosed | rateExceeded =>
    cases h
    exact hcall false
  | passed r tscHold =>
    dsimp only at h
    split at h
    · cases h
      exact hcall false
    · obtain ⟨hp, hhair, heq⟩ := Option.map_eq_some_iff.1 h
      cases heq
      exact (hcall true).trans (counted_hairpin hhair)

/-- A packet of either direction. -/
theorem counted_step {p : IoPacket} (h : d.step p = some (d', out)) : Counted d d' out.handled := by
  cases p with
  | uplink env mem len =>
    obtain ⟨decoded, -, h⟩ := Option.bind_eq_some_iff.1 h
    cases decoded with
    | none =>
      cases h
      exact .refl d
    | some g =>
      dsimp only at h
      cases hget : d.get d.teids g.teid with
      | none =>
        rw [hget] at h
        cases h
        exact .refl d
      | some found =>
        rw [hget] at h
        dsimp only at h
        split at h
        · cases h
          exact .refl d
        · exact counted_inner (get_eq_some hget) h
  | downlink env ipPkt =>
    unfold step processDlPacket at h
    dsimp only at h
    split at h
    · cases h
      exact .refl d
    · cases hget : d.get d.ueIps (addr32 ipPkt 16) with
      | none =>
        rw [hget] at h
        cases h
        exact .refl d
      | some found =>
        grind [Option.map_eq_some_iff, DlSession.processDlPacket_metered, counted_call, get_eq_some]

/-! ## Runs -/

/-- By induction on the packets. -/
theorem counted_run {packets : List IoPacket} {handled : List Handled}
    (h : d.run packets = some (d', handled)) : Counted d d' handled := by
  induction packets generalizing d handled with
  | nil =>
    cases h
    exact .refl _
  | cons p packets ih =>
    obtain ⟨⟨d₁, out⟩, hstep, h⟩ := Option.bind_eq_some_iff.1 h
    obtain ⟨⟨d₂, rest⟩, hrun, heq⟩ := Option.map_eq_some_iff.1 h
    cases heq
    exact (counted_step hstep).trans (ih hrun)

end Dataplane

/-- In every run of packets the counters of each URR grow by the packets that passed the checks by
a PDR that names it, and by their lengths. -/
theorem urr_counts_admitted {d d' : Dataplane} {packets : List IoPacket} {handled : List Handled}
    (h : d.run packets = some (d', handled)) (key : SessionKey) (urrId : UInt32) :
    d'.urr key urrId = (d.urr key urrId).map fun u =>
      u.plus (handled.filter fun h => h.names key urrId) :=
  Dataplane.counted_run h key urrId

/-- A session with one PDR for a direction, the FAR and the URR that it names. -/
def labMetered (pdiSource action : UInt8) : DlSession :=
  let s := DlSession.start 0x0A2D0002
  { s with
    metered := { s.metered with
      rules :=
        { ueAddr := 0x0A2D0002
          pdrs := [⟨2, 100, pdiSource, 0, 9, [], 2, 0, 1, true⟩]
          fars := [⟨2, action, 0, 0x10, 0x0A000001, 2152, 1, true⟩]
          qers := []
          urrs := [⟨1, 2, 0, 0, 0, 0, 0, 0, 0, 0, true⟩] } } }

def labSession : SessionKey := makeKey [0x30, 0x30, 0x31, 0x30, 0x31] 1

/-- A data plane with this session, at TEID 32 and at 10.45.0.2. -/
def labPlane (s : DlSession) : Dataplane where
  sessions key := if key = labSession then some s else none
  teids teid := if teid = 32 then some labSession else none
  ueIps addr := if addr = 0x0A2D0002 then some labSession else none

/-- `labPacket` at the TUN device. -/
def labDownlink : IoPacket := .downlink ⟨⟨500, 0⟩, true⟩ labPacket

/-- A G-PDU from the access network to TEID 32 with a packet of QFI 9 to 8.8.8.8. -/
def labUplink : IoPacket :=
  .uplink ⟨⟨500, 0⟩, ⟨500, 0⟩, 0, true, 2⟩
    (Gtpu.stored (fun _ => 0)
      ([0x34, 0xFF, 0, 36, 0, 0, 0, 32, 0, 0, 0, 0x85, 1, 0, 9, 0,
        0x45, 0, 0, 28, 0, 0, 0, 0, 64, 17, 0, 0, 10, 45, 0, 2, 8, 8, 8, 8,
        0x9C, 0x40, 0, 53, 0, 8, 0, 0])) 44

theorem urr_counts_admitted_downlink :
    ∃ d' handled, (labPlane (labMetered 1 1)).run [labDownlink] = some (d', handled) ∧
      d'.urr labSession 1 = ((labPlane (labMetered 1 1)).urr labSession 1).map fun u =>
        u.plus (handled.filter fun h => h.names labSession 1) := by
  have hrun : ((labPlane (labMetered 1 1)).run [labDownlink]).isSome = true := by decide
  obtain ⟨⟨d', handled⟩, h⟩ := Option.isSome_iff_exists.1 hrun
  exact ⟨d', handled, h, urr_counts_admitted h labSession 1⟩

/-- A packet was counted that was neither sent on nor kept. -/
theorem not_countsForwarded {s : DlSession} {p : IoPacket}
    (h : ((labPlane s).run [p]).map (fun r =>
      ((r.1.urr labSession 1).map fun u => u.pktUl + u.pktDl, r.2.map Handled.forwarded)) =
        some (some 1, [false]))
    (hzero : ((labPlane s).urr labSession 1).map (fun u => u.pktUl + u.pktDl) = some 0) :
    ¬ (labPlane s).CountsForwarded [p] := by
  intro hcounts
  obtain ⟨⟨d', handled⟩, hrun, heq⟩ := Option.map_eq_some_iff.1 h
  cases handled with
  | nil => cases (Prod.mk.inj heq).2
  | cons x rest =>
    obtain ⟨hcount, hlost⟩ := Prod.mk.inj heq
    obtain ⟨hx, hrest⟩ := cons.inj hlost
    have hempty : (x :: rest).filter (fun y => y.names labSession 1 && y.forwarded) = [] := by
      rw [map_eq_nil_iff.1 hrest, filter_cons_of_neg (by simp [hx]), filter_nil]
    have hafter := hcounts d' (x :: rest) hrun labSession 1
    simp_all [Urr.plus_nil, Option.map_id']

/-- Counted all the same are a packet that the FAR drops, an uplink packet at a closed TSC gate, and
a packet for a full buffer. -/
theorem urr_counts_dropped :
    ¬ (labPlane (labMetered 1 0)).CountsForwarded [labDownlink] ∧
      ¬ (labPlane { labMetered 0 1 with
        tscGate := ⟨0, 1000, [(0, 1000)], 0, 0, true⟩ }).CountsForwarded [labUplink] ∧
      ¬ (labPlane { labMetered 1 2 with
        dlBuf := List.replicate 32 ⟨[], 9⟩ }).CountsForwarded [labDownlink] := by
  refine ⟨not_countsForwarded ?_ ?_, not_countsForwarded ?_ ?_, not_countsForwarded ?_ ?_⟩ <;>
    decide

end MmtCore.Upf
