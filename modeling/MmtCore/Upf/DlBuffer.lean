import MmtCore.Upf.DlSteps

/-!
# Buffered delivery

A packet that was kept in the buffer leaves in a flush: its first 1600 bytes, as they came, through
the FAR that is flushed.  On the direct path the whole packet goes through the FAR that its PDR names,
after the PTP steering and with its checksums recomputed.  Followed here are the packets of a session
on their way (`buffered_delivery`): the two are the same exactly when that FAR forwards into the same
tunnel and the packet is short and needs no change, and the packets leave in order as long as none
is sent past the buffer.  A packet whose checksum is still to be filled in does not leave as it would
on the direct path (`flushed_with_wrong_checksum`).
-/

namespace MmtCore.Upf

open MmtCore.Lib MmtCore.Lib.SlotView List Option

/-! ## Packets on their way -/

/-- A packet that passed the checks: its place in the order of arrival, the time, and its PDR. -/
structure Arrived where
  number : Nat
  nowNs : UInt64
  pkt : List UInt8
  pdr : Pdr

/-- What the buffer keeps of it. -/
def Arrived.slot (a : Arrived) : BufferedPacket := ⟨a.pkt.take upfDlBufPktSz, a.pdr.qfi⟩

/-- A packet that left, with the session as it left; through the FAR of a flush, or directly. -/
structure Departure where
  arrived : Arrived
  session : DlSession
  sent : Datagram
  flushed : Option Far

/-- What the direct path would send for the packet, by the FAR that its PDR names. -/
def Departure.direct (d : Departure) : Option Datagram :=
  match findFar d.session.metered.rules d.arrived.pdr.farId with
  | none => none
  | some far =>
    if far.action = 1 ∧ far.ohcType = 1 then
      forwardDl d.session.ptpSteering far d.arrived.pdr.qfi d.arrived.nowNs d.arrived.pkt
    else none

/-- The packet as the direct path sends it. -/
def Departure.processed (d : Departure) : Option (List UInt8) :=
  (if d.session.ptpSteering then upfPtpIngress d.arrived.pkt d.arrived.nowNs
    else some d.arrived.pkt).map fixupChecksums

def Far.tunnel (far : Far) : Tunnel := ⟨far.ohcTeid, far.ohcPeerAddr, far.ohcPeerPort⟩

/-- The FAR that the PDR names forwards into the tunnel of the flush, and the packet is short and
needs no change. -/
def Departure.AsDirect (d : Departure) : Prop :=
  ∀ through, d.flushed = some through →
    (∃ far, findFar d.session.metered.rules d.arrived.pdr.farId = some far ∧ far.action = 1 ∧
      far.ohcType = 1 ∧ far.tunnel = through.tunnel) ∧
    d.arrived.pkt.length ≤ upfDlBufPktSz ∧ d.processed = some d.arrived.pkt

/-- A session with the packets that wait in its buffer, and those that left. -/
structure Delivery where
  session : DlSession
  arrivals : Nat
  waiting : List Arrived
  departures : List Departure

def Delivery.start (ueAddr : UInt32) : Delivery := ⟨.start ueAddr, 0, [], []⟩

/-- The packets leave one by one, each in a datagram. -/
def departed (session : DlSession) (queue : List (Arrived × Option Far)) (sent : List Datagram) :
    List Departure :=
  (queue.zip sent).map fun x => ⟨x.1.1, session, x.2, x.1.2⟩

def Delivery.packet (t : Delivery) (env : DlEnv) (ipPkt : List UInt8) (session : DlSession)
    (out : DlOutput) : Delivery :=
  match t.session.verdictOn env.clock ipPkt with
  | .passed r tscHold =>
    let arrived : Arrived := ⟨t.arrivals, env.clock.realtimeNs, ipPkt, r.matchedPdr⟩
    let opens := t.session.reopens r tscHold
    { session
      arrivals := t.arrivals + 1
      waiting :=
        if t.session.dlBuf.length < session.dlBuf.length then t.waiting ++ [arrived]
        else if opens then [] else t.waiting
      departures := t.departures ++ departed session
        ((if opens then t.waiting.map fun a => (a, r.far) else []) ++ [(arrived, none)]) out.sent }
  | _ => { t with session }

def Delivery.call (t : Delivery) (c : RuleCall) (session : DlSession) (out : DlOutput) : Delivery :=
  match t.session.metered.rules.flushedBy c with
  | none => { t with session }
  | some far =>
    { t with
      session
      waiting := []
      departures := t.departures ++
        departed session (t.waiting.map fun a => (a, some far)) out.sent }

def Delivery.step (tb : TbParams) (t : Delivery) (e : DlEvent) : Option Delivery :=
  (t.session.step tb e).map fun (session, out) =>
    match e with
    | .packet env ipPkt => t.packet env ipPkt session out
    | .call c _ => t.call c session out
    | _ => { t with session }

/-- The packets left in the order in which they came. -/
def Delivery.InOrder (t : Delivery) : Prop :=
  t.departures.Pairwise fun d d' => d.arrived.number < d'.arrived.number

/-- The packet is sent directly while others wait in the buffer. -/
def DlSession.overtakes (s : DlSession) (r : ClassifyResult) (tscHold : Bool) : Bool :=
  r.action == 1 && !tscHold && r.far.any (fun far => far.ohcType == 1) && !s.dlBuf.isEmpty &&
    !s.tscGate.active

/-- The step sends no packet past the buffer. -/
def QueueKept (t : Delivery) (e : DlEvent) : Prop :=
  ∀ env ipPkt r tscHold, e = .packet env ipPkt →
    t.session.verdictOn env.clock ipPkt = .passed r tscHold →
    t.session.overtakes r tscHold = false

/-! ## The bytes of a datagram -/

theorem gtpuHeader_length (teid : UInt32) (qfi : UInt8) (n : Nat) :
    (gtpuHeader teid qfi n).length = if 0 < qfi then 16 else 8 := by
  unfold gtpuHeader
  split <;> rfl

variable {qfi : UInt8} {pkt : List UInt8} {d : Departure}

/-- A packet with room for its header is encoded whole. -/
theorem gtpuEncode_of_length {teid : UInt32} (h : pkt.length ≤ 65519) :
    gtpuEncode teid qfi pkt = some (gtpuHeader teid qfi pkt.length ++ pkt) := by
  have hlen : (gtpuHeader teid qfi pkt.length ++ pkt).length < 65536 := by
    rw [length_append, gtpuHeader_length]
    split <;> omega
  unfold gtpuEncode
  rw [if_neg (by omega), Nat.mod_eq_of_lt hlen, take_length]

theorem beBytes_four_inj {m n : UInt32} (h : Pfcp.beBytes 4 m.toNat = Pfcp.beBytes 4 n.toNat) :
    m = n := by
  have hm := m.toNat_lt
  have hn := n.toNat_lt
  simp only [Pfcp.beBytes, List.nil_append, List.cons_append, List.cons.injEq, and_true] at h
  grind [UInt8.toNat_ofNat', UInt32.toNat_inj]

/-- Two G-PDUs of one QFI are equal only if their tunnels and their packets are. -/
theorem gtpu_inj {teid teid' : UInt32} {pkt' : List UInt8} {n n' : Nat}
    (h : gtpuHeader teid qfi n ++ pkt = gtpuHeader teid' qfi n' ++ pkt') :
    teid = teid' ∧ pkt = pkt' := by
  have hlen : (gtpuHeader teid qfi n).length = (gtpuHeader teid' qfi n').length := by
    rw [gtpuHeader_length, gtpuHeader_length]
  obtain ⟨hhead, hpkt⟩ := append_inj h hlen
  refine ⟨beBytes_four_inj ?_, hpkt⟩
  have hteid : ∀ teid n, ((gtpuHeader teid qfi n).drop 4).take 4 = Pfcp.beBytes 4 teid.toNat := by
    intro teid n
    unfold gtpuHeader
    split <;> rfl
  rw [← hteid teid n, ← hteid teid' n', hhead]

theorem length_le_patch (pkt : List UInt8) (i : Nat) (bytes : List UInt8) :
    pkt.length ≤ (patch pkt i bytes).length := by
  unfold patch
  simp only [length_append, length_take, length_drop]
  omega

theorem length_le_fixupChecksums (pkt : List UInt8) : pkt.length ≤ (fixupChecksums pkt).length := by
  unfold fixupChecksums
  dsimp only
  split
  · exact Nat.le_refl _
  · have hip : pkt.length ≤ (fixupIpChecksum pkt (headerLength pkt)).length := length_le_patch ..
    generalize (if byteAt (fixupIpChecksum pkt (headerLength pkt)) 9 = 6 then 16 else 6) = csumOff
    split
    · exact hip.trans (length_le_patch ..)
    · exact hip

theorem length_le_upfPtpIngress {pkt' : List UInt8} {nowNs : UInt64}
    (h : upfPtpIngress pkt nowNs = some pkt') : pkt.length ≤ pkt'.length := by
  unfold upfPtpIngress at h
  split at h
  · cases h
    exact Nat.le_refl _
  · dsimp only at h
    split at h
    · cases h
      exact Nat.le_refl _
    · split at h
      · cases h
      · cases h
        refine Nat.le_trans ?_ (length_le_patch ..)
        refine Nat.le_trans ?_ (length_le_patch ..)
        refine Nat.le_trans ?_ (length_le_patch ..)
        refine Nat.le_trans ?_ (length_le_patch ..)
        simp only [length_append, length_take, length_drop]
        omega

theorem Departure.length_le_processed (h : d.processed = some pkt) :
    d.arrived.pkt.length ≤ pkt.length := by
  obtain ⟨stamped, hstamped, rfl⟩ := map_eq_some_iff.1 h
  refine Nat.le_trans ?_ (length_le_fixupChecksums stamped)
  split at hstamped
  · exact length_le_upfPtpIngress hstamped
  · cases hstamped
    exact Nat.le_refl _

/-! ## A packet that leaves in a flush -/

/-- The datagram of a slot. -/
def Arrived.flushed (a : Arrived) (far : Far) : Datagram :=
  ⟨far.ohcPeerAddr, far.ohcPeerPort,
    gtpuHeader far.ohcTeid a.pdr.qfi (a.pkt.take upfDlBufPktSz).length ++
      a.pkt.take upfDlBufPktSz⟩

/-- A flush sends one datagram for each slot. -/
theorem flushDlBuf_slots (far : Far) (waiting : List Arrived) :
    flushDlBuf far (waiting.map Arrived.slot) = waiting.map fun a => a.flushed far := by
  unfold flushDlBuf
  rw [filterMap_map]
  have hslot : ∀ a ∈ waiting, ((fun b : BufferedPacket => far.datagram b.qfi b.pkt) ∘
      Arrived.slot) a = some (a.flushed far) := by
    intro a _
    have hlen : (a.pkt.take upfDlBufPktSz).length ≤ 65519 := by
      have hsz : upfDlBufPktSz = 1600 := rfl
      rw [length_take]
      omega
    simp only [Function.comp_apply, Arrived.slot, Far.datagram, gtpuEncode_of_length hlen,
      map_some]
    rfl
  rw [filterMap_congr hslot, filterMap_eq_map']

/-- What a departure is: the datagram of its slot, or what the direct path sends. -/
def Departure.Recorded (d : Departure) : Prop :=
  match d.flushed with
  | none => some d.sent = d.direct
  | some through => d.sent = d.arrived.flushed through

theorem forwardDl_eq (d : Departure) (far : Far) :
    forwardDl d.session.ptpSteering far d.arrived.pdr.qfi d.arrived.nowNs d.arrived.pkt =
      d.processed.bind (far.datagram d.arrived.pdr.qfi) := by
  unfold forwardDl Departure.processed
  rw [bind_map]
  rfl

/-- What a datagram of the direct path tells about its tunnel and its packet. -/
theorem flushed_eq_datagram {a : Arrived} {far through : Far}
    (h : far.datagram a.pdr.qfi pkt = some (a.flushed through)) :
    far.tunnel = through.tunnel ∧ pkt = a.pkt.take upfDlBufPktSz := by
  obtain ⟨bytes, hbytes, hsent⟩ := map_eq_some_iff.1 h
  injection hsent with haddr hport hcontent
  unfold gtpuEncode at hbytes
  dsimp only at hbytes
  split at hbytes
  · cases hbytes
  · have hwhole : (gtpuHeader far.ohcTeid a.pdr.qfi pkt.length ++ pkt).length < 65536 := by
      grind [length_append, gtpuHeader_length]
    rw [Nat.mod_eq_of_lt hwhole, take_length] at hbytes
    have hbytes := some.inj hbytes
    rw [hcontent] at hbytes
    obtain ⟨hteid, hpkt⟩ := gtpu_inj hbytes
    exact ⟨by unfold Far.tunnel; rw [hteid, haddr, hport], hpkt⟩

/-- A packet leaves a flush as it would leave on the direct path exactly when its FAR has the tunnel
of the flush and it is short and needs no change. -/
theorem Departure.Recorded.asDirect_iff (h : d.Recorded) : some d.sent = d.direct ↔ d.AsDirect := by
  unfold Departure.Recorded at h
  unfold Departure.AsDirect
  cases hf : d.flushed with
  | none =>
    simp_all
  | some through =>
    rw [hf] at h
    constructor
    · intro heq through' ht
      cases ht
      unfold Departure.direct at heq
      cases hfar : findFar d.session.metered.rules d.arrived.pdr.farId with
      | none =>
        rw [hfar] at heq
        cases heq
      | some far =>
        rw [hfar] at heq
        dsimp only at heq
        split at heq
        · rw [forwardDl_eq] at heq
          obtain ⟨pkt, hpkt, hdatagram⟩ := bind_eq_some_iff.1 heq.symm
          rw [h] at hdatagram
          obtain ⟨htunnel, rfl⟩ := flushed_eq_datagram hdatagram
          grind [length_take, take_of_length_le, Departure.length_le_processed]
        · cases heq
    · intro hall
      obtain ⟨⟨far, hfar, hact, htype, htunnel⟩, hshort, hprocessed⟩ := hall through rfl
      have hlen : d.arrived.pkt.length ≤ 65519 := by
        have hsz : upfDlBufPktSz = 1600 := rfl
        omega
      unfold Departure.direct
      rw [hfar]
      dsimp only
      rw [if_pos ⟨hact, htype⟩, forwardDl_eq, hprocessed, bind_some, Far.datagram,
        gtpuEncode_of_length hlen, h]
      unfold Arrived.flushed
      injection htunnel with hteid haddr hport
      rw [take_of_length_le hshort, map_some, hteid, haddr, hport]

/-! ## What a step does to the packets -/

theorem departed_append (session : DlSession) {queue queue' : List (Arrived × Option Far)}
    {sent sent' : List Datagram} (h : queue.length = sent.length) :
    departed session (queue ++ queue') (sent ++ sent') =
      departed session queue sent ++ departed session queue' sent' := by
  unfold departed
  rw [zip_append h, map_append]

/-- The waiting packets as they leave in a flush. -/
def flushedFrom (session : DlSession) (far : Far) (waiting : List Arrived) : List Departure :=
  waiting.map fun a => ⟨a, session, a.flushed far, some far⟩

theorem departed_flushed (session : DlSession) (far : Far) (waiting : List Arrived) :
    departed session (waiting.map fun a => (a, some far)) (waiting.map fun a => a.flushed far) =
      flushedFrom session far waiting := by
  unfold departed flushedFrom
  rw [List.zip_map', List.map_map]
  rfl

/-- The moves of the packets at a step. -/
inductive Moves (t : Delivery) (e : DlEvent) : Delivery → Prop
  | quiet (session : DlSession) (arrivals : Nat) (hn : t.arrivals ≤ arrivals)
    (hbuf : session.dlBuf = t.session.dlBuf) :
    Moves t e ⟨session, arrivals, t.waiting, t.departures⟩
  /-- The packet that arrives is kept. -/
  | kept (session : DlSession) (a : Arrived) (hnum : a.number = t.arrivals)
    (hbuf : session.dlBuf = t.session.dlBuf ++ [a.slot]) :
    Moves t e ⟨session, t.arrivals + 1, t.waiting ++ [a], t.departures⟩
  /-- The buffer is flushed, perhaps ahead of the packet that arrives. -/
  | flushed (session : DlSession) (far : Far) (arrivals : Nat) (direct : List Departure)
    (hn : t.arrivals ≤ arrivals) (hbuf : session.dlBuf = [])
    (hdirect : ∀ d ∈ direct, d.Recorded ∧ d.arrived.number = t.arrivals ∧ t.arrivals < arrivals)
    (hone : direct.length ≤ 1) :
    Moves t e ⟨session, arrivals, [],
      t.departures ++ (flushedFrom session far t.waiting ++ direct)⟩
  /-- The packet that arrives is sent, and the buffer stays. -/
  | passed (session : DlSession) (d : Departure) (hd : d.Recorded)
    (hnum : d.arrived.number = t.arrivals) (hbuf : session.dlBuf = t.session.dlBuf)
    (hfirst : QueueKept t e → t.session.dlBuf = []) :
    Moves t e ⟨session, t.arrivals + 1, t.waiting, t.departures ++ [d]⟩

section

variable {tb : TbParams} {t t' : Delivery} {session : DlSession} {out : DlOutput} {e : DlEvent}

theorem Delivery.packet_moves {env : DlEnv} {ipPkt : List UInt8}
    (hslots : t.session.dlBuf = t.waiting.map Arrived.slot)
    (hstep : t.session.processDlPacket env ipPkt = some (session, out)) :
    Moves t (.packet env ipPkt) (t.packet env ipPkt session out) := by
  have harr := DlSession.packet_arrival hstep
  unfold Delivery.packet
  generalize hv : t.session.verdictOn env.clock ipPkt = v at harr
  cases harr with
  | @dropped m _ hm hfull =>
    cases v with
    | passed r tscHold =>
      have hshut : t.session.reopens r tscHold = false := by
        rw [Bool.eq_false_iff]
        intro hopen
        simp only [DlSession.reopens, Bool.and_eq_true, beq_iff_eq, Bool.not_eq_true'] at hopen
        have hheld := ((hfull r tscHold rfl).1 hopen.2).1
        rw [hopen.1.1.1] at hheld
        cases hheld
      dsimp only
      rw [if_neg (Nat.lt_irrefl _), hshut]
      simp only [Bool.false_eq_true, if_false, DlOutput.none, departed, zip_nil_right,
        map_nil, append_nil]
      exact .quiet _ _ (Nat.le_succ _) rfl
    | _ => exact .quiet _ _ (Nat.le_refl _) rfl
  | @held m r hm hact hroom =>
    dsimp only
    have hlonger : t.session.dlBuf.length <
        (DlSession.keep { t.session with metered := m } r.matchedPdr.qfi ipPkt).dlBuf.length := by
      simp [DlSession.keep]
    rw [if_pos hlonger]
    simp only [DlOutput.none, departed, zip_nil_right, map_nil, append_nil]
    exact .kept _ ⟨t.arrivals, env.clock.realtimeNs, ipPkt, r.matchedPdr⟩ rfl rfl
  | @buffered m r tscHold hm hact hroom =>
    dsimp only
    have hlonger : t.session.dlBuf.length <
        (DlSession.keep { t.session with metered := m } r.matchedPdr.qfi ipPkt).dlBuf.length := by
      simp [DlSession.keep]
    rw [if_pos hlonger]
    simp only [departed, zip_nil_right, map_nil, append_nil]
    exact .kept _ ⟨t.arrivals, env.clock.realtimeNs, ipPkt, r.matchedPdr⟩ rfl rfl
  | @left m r tscHold far direct hm hfar hact hhold hdirect =>
    generalize hsession : ({ t.session with metered := m, dlBuf := if t.session.reopens r tscHold
      then [] else t.session.dlBuf } : DlSession) = session at *
    have hbuf : session.dlBuf = if t.session.reopens r tscHold then [] else t.session.dlBuf := by
      rw [← hsession]
    have hshorter : ¬ t.session.dlBuf.length < session.dlBuf.length := by
      rw [hbuf]
      split <;> simp
    dsimp only
    rw [if_neg hshorter, hfar]
    generalize harrived : (⟨t.arrivals, env.clock.realtimeNs, ipPkt, r.matchedPdr⟩ : Arrived) =
      arrived
    -- what the packet itself sends is what the direct path sends for it
    have hown : ∀ d ∈ departed session [(arrived, none)] direct,
        d.Recorded ∧ d.arrived.number = t.arrivals := by
      intro d hd
      split at hdirect
      · rename_i hforwards
        obtain ⟨sent, hsent, rfl⟩ := hdirect
        cases mem_singleton.1 hd
        refine ⟨?_, by rw [← harrived]⟩
        have hfound : findFar session.metered.rules arrived.pdr.farId = some far := by
          rw [← hsession, ← harrived, ← hfar, (DlSession.verdictOn_passed hv).1]
          unfold findFar
          rw [hm.fars]
        have hsame : far.action = 1 := by
          have hr := (DlSession.verdictOn_passed hv).2
          rw [hfar, hforwards.1] at hr
          exact hr.symm
        change some sent = Departure.direct _
        unfold Departure.direct
        rw [hfound]
        dsimp only
        rw [if_pos ⟨hsame, hforwards.2⟩, ← hsent, ← hsession, ← harrived]
      · rw [hdirect] at hd
        cases hd
    have hone : (departed session [(arrived, none)] direct).length ≤ 1 := by
      simp [departed]
    cases hopen : t.session.reopens r tscHold with
    | true =>
      simp only [if_true]
      rw [hslots, flushDlBuf_slots, departed_append _ (by simp), departed_flushed]
      refine .flushed session far (t.arrivals + 1) _ (Nat.le_succ _) ?_ (fun d hd => ?_) hone
      · rw [hbuf, hopen, if_pos rfl]
      · exact ⟨(hown d hd).1, (hown d hd).2, Nat.lt_succ_self _⟩
    | false =>
      rw [hopen, if_neg (by decide)] at hbuf
      simp only [Bool.false_eq_true, if_false, nil_append]
      cases hdeps : departed session [(arrived, none)] direct with
      | nil =>
        rw [append_nil]
        exact .quiet _ _ (Nat.le_succ _) hbuf
      | cons d rest =>
        rw [hdeps] at hown hone
        have hrest : rest = [] := by simpa using hone
        subst hrest
        obtain ⟨hrec, hnum⟩ := hown d mem_cons_self
        refine .passed session d hrec hnum hbuf fun hkept => ?_
        split at hdirect
        · rename_i hforwards
          have hover := hkept env ipPkt r tscHold rfl hv
          simp only [DlSession.overtakes, hforwards.1, hhold, hfar, any_some, hforwards.2,
            beq_self_eq_true, Bool.not_false, Bool.true_and, Bool.and_eq_false_iff,
            Bool.not_eq_false'] at hover
          simp only [DlSession.reopens, hforwards.1, hhold, Bool.not_false, Bool.true_and,
            beq_self_eq_true, Bool.and_true, Bool.and_eq_false_iff, Bool.not_eq_false'] at hopen
          rcases hover with hempty | hactive
          · exact List.isEmpty_iff.1 hempty
          · rcases hopen with hoff | hempty
            · rw [hactive] at hoff
              cases hoff
            · exact List.isEmpty_iff.1 hempty
        · rw [hdirect] at hdeps
          cases hdeps

theorem Delivery.call_moves {c : RuleCall} {tsc : UInt64}
    (hslots : t.session.dlBuf = t.waiting.map Arrived.slot)
    (hstep : t.session.call tb c tsc = some (session, out)) :
    Moves t (.call c tsc) (t.call c session out) := by
  obtain ⟨m, -, hcases⟩ := DlSession.call_cases hstep
  unfold Delivery.call
  rcases hcases with ⟨hflush, rfl, rfl⟩ | ⟨far, hflush, rfl, rfl⟩
  · rw [hflush]
    exact .quiet _ _ (Nat.le_refl _) rfl
  · rw [hflush]
    dsimp only
    rw [hslots, flushDlBuf_slots, departed_flushed]
    have hmoves := Moves.flushed (t := t) (e := .call c tsc)
      { t.session with metered := m, dlBuf := [] } far t.arrivals [] (Nat.le_refl _) rfl
      (fun d hd => by cases hd) (Nat.zero_le _)
    rwa [append_nil] at hmoves

theorem Delivery.step_moves (hslots : t.session.dlBuf = t.waiting.map Arrived.slot)
    (ht : t.step tb e = some t') : Moves t e t' := by
  obtain ⟨⟨session, out⟩, hstep, rfl⟩ := map_eq_some_iff.1 ht
  cases e with
  | packet env ipPkt => exact packet_moves hslots hstep
  | call c tsc => exact call_moves hslots hstep
  | setSessionAmbr ul dl tsc | clearTscGate | setPtpSteering enable =>
    cases hstep
    exact .quiet _ _ (Nat.le_refl _) rfl
  | setTscGate qfi trafficClass baseTimeNs cycleTimeNs windows =>
    cases hstep
    refine .quiet _ _ (Nat.le_refl _) ?_
    unfold DlSession.setTscGate
    split <;> rfl

/-! ## Runs -/

/-- The slots are those of the packets that wait, and the departures are what they are. -/
structure Delivery.Inv (t : Delivery) : Prop where
  slots : t.session.dlBuf = t.waiting.map Arrived.slot
  recorded : ∀ d ∈ t.departures, d.Recorded

theorem Delivery.inv_start (ueAddr : UInt32) : (Delivery.start ueAddr).Inv :=
  ⟨rfl, fun d hd => by cases hd⟩

theorem Delivery.Inv.step (h : t.Inv) (ht : t.step tb e = some t') : t'.Inv := by
  cases step_moves h.slots ht with
  | quiet session arrivals hn hbuf => exact ⟨hbuf.trans h.slots, h.recorded⟩
  | kept session a hnum hbuf =>
    refine ⟨?_, h.recorded⟩
    rw [hbuf, h.slots, map_append]
    rfl
  | flushed session far arrivals direct hn hbuf hdirect hone =>
    refine ⟨hbuf, fun d hd => ?_⟩
    rcases mem_append.1 hd with hd | hd
    · exact h.recorded d hd
    · rcases mem_append.1 hd with hd | hd
      · obtain ⟨a, -, rfl⟩ := mem_map.1 hd
        rfl
      · exact (hdirect d hd).1
  | passed session d hd hnum hbuf hfirst =>
    refine ⟨hbuf.trans h.slots, fun d' hd' => ?_⟩
    rcases mem_append.1 hd' with hd' | hd'
    · exact h.recorded d' hd'
    · rw [mem_singleton.1 hd']
      exact hd

/-- The packets that left and those that wait, by their numbers: in order, and all arrived. -/
structure Delivery.Ordered (t : Delivery) : Prop where
  sorted : (t.departures.map (·.arrived.number) ++ t.waiting.map (·.number)).Pairwise (· < ·)
  arrived : ∀ n ∈ t.departures.map (·.arrived.number) ++ t.waiting.map (·.number), n < t.arrivals

theorem Delivery.Ordered.inOrder (h : t.Ordered) : t.InOrder :=
  pairwise_map.1 (pairwise_append.1 h.sorted).1

/-- One more number, the latest. -/
theorem pairwise_lt_append {l : List Nat} {n : Nat} (h : l.Pairwise (· < ·)) (hl : ∀ m ∈ l, m < n) :
    (l ++ [n]).Pairwise (· < ·) := by
  grind

theorem Delivery.Ordered.step (h : t.Ordered) (hi : t.Inv) (hk : QueueKept t e)
    (ht : t.step tb e = some t') : t'.Ordered := by
  obtain ⟨hsorted, harrived⟩ := h
  cases step_moves hi.slots ht with
  | quiet session arrivals hn hbuf =>
    exact ⟨hsorted, fun n hmem => Nat.lt_of_lt_of_le (harrived n hmem) hn⟩
  | kept session a hnum hbuf =>
    refine ⟨?_, fun n hmem => ?_⟩
    · grind
    · grind
  | flushed session far arrivals direct hn hbuf hdirect hone =>
    have hmap : (t.departures ++ (flushedFrom session far t.waiting ++ direct)).map
          (·.arrived.number) ++ ([] : List Arrived).map (·.number) =
        t.departures.map (·.arrived.number) ++ t.waiting.map (·.number) ++
          direct.map (·.arrived.number) := by
      unfold flushedFrom
      simp only [List.map_append, List.map_map, List.map_nil, List.append_nil, List.append_assoc]
      rfl
    have hnew : (t.departures.map (·.arrived.number) ++ t.waiting.map (·.number) ++
          direct.map (·.arrived.number)).Pairwise (· < ·) ∧
        ∀ n ∈ t.departures.map (·.arrived.number) ++ t.waiting.map (·.number) ++
          direct.map (·.arrived.number), n < arrivals := by
      cases direct with
      | nil =>
        grind
      | cons d rest =>
        have hrest : rest = [] := by simpa using hone
        subst hrest
        obtain ⟨-, hnum, hlt⟩ := hdirect d mem_cons_self
        rw [map_singleton, hnum]
        refine ⟨pairwise_lt_append hsorted harrived, fun n hmem => ?_⟩
        rcases mem_append.1 hmem with hmem | hmem
        · exact Nat.lt_trans (harrived n hmem) hlt
        · rw [mem_singleton.1 hmem]
          exact hlt
    rw [← hmap] at hnew
    exact ⟨hnew.1, hnew.2⟩
  | passed session d hd hnum hbuf hfirst =>
    have hempty : t.waiting = [] := by
      have hnil := hfirst hk
      rw [hi.slots] at hnil
      exact map_eq_nil_iff.1 hnil
    refine ⟨?_, fun n hmem => ?_⟩
    · grind
    · grind

/-- Along a run the invariant holds, and the order as long as nothing is sent past the buffer. -/
theorem Delivery.Inv.run (h : t.Inv) {es : List DlEvent}
    (hrun : runOk (Delivery.step tb) t es = some t') :
    t'.Inv ∧ (t.Ordered → MeetsOk (Delivery.step tb) QueueKept t es → t'.Ordered) := by
  induction es generalizing t with
  | nil =>
    cases hrun
    exact ⟨h, fun ho _ => ho⟩
  | cons e es ih =>
    obtain ⟨t₁, ht₁, hrest⟩ := bind_eq_some_iff.1 hrun
    obtain ⟨hinv, hordered⟩ := ih (h.step ht₁) hrest
    exact ⟨hinv, fun ho hm => hordered (ho.step h hm.1 ht₁) (hm.2 t₁ ht₁)⟩

end

/-- In every run of a session a packet that leaves the buffer is sent as on the direct path exactly
when the FAR of its PDR has the tunnel of the flush and it is short and needs no change; and if no
packet is sent past the buffer, the packets leave in the order in which they came. -/
theorem buffered_delivery (tb : TbParams) (ueAddr : UInt32) (es : List DlEvent) (t : Delivery)
    (hrun : runOk (Delivery.step tb) (.start ueAddr) es = some t) :
    (∀ d ∈ t.departures, some d.sent = d.direct ↔ d.AsDirect) ∧
      (MeetsOk (Delivery.step tb) QueueKept (.start ueAddr) es → t.InOrder) := by
  obtain ⟨hinv, hordered⟩ := (Delivery.inv_start ueAddr).run hrun
  have hstart : (Delivery.start ueAddr).Ordered := ⟨List.Pairwise.nil, fun n hn => by cases hn⟩
  exact ⟨fun d hd => (hinv.recorded d hd).asDirect_iff, fun hm => (hordered hstart hm).inOrder⟩

/-! ## One session -/

/-- A FAR that buffers and the downlink PDR that names it; a packet; then the FAR gets a tunnel. -/
def labFlushed (pkt : List UInt8) : List DlEvent :=
  [.call (.addFar ⟨2, 2, 0, 0, 0, 0, 0⟩) 0, .call (.addPdr ⟨2, 100, 1, 9, 2, 0, 0, none⟩) 0,
   .packet ⟨⟨0, 0⟩, true⟩ pkt, .call (.updateFar 2 ⟨7, 0x0A000001, 2152⟩) 0]

/-- `labPacket` with its checksums. -/
def labSummed : List UInt8 := fixupChecksums labPacket

theorem buffered_delivery_lab :
    ∃ t, runOk (Delivery.step fun _ => (1, 1)) (.start 0x0A2D0002) (labFlushed labSummed) = some t ∧
      t.departures.map (·.sent.peerAddr) = [0x0A000001] ∧
      (∀ d ∈ t.departures, some d.sent = d.direct ↔ d.AsDirect) := by
  have hsent : (runOk (Delivery.step fun _ => (1, 1)) (.start 0x0A2D0002)
      (labFlushed labSummed)).map (fun t => t.departures.map (·.sent.peerAddr)) =
      some [0x0A000001] := by decide
  obtain ⟨t, ht, hdeps⟩ := map_eq_some_iff.1 hsent
  exact ⟨t, ht, hdeps, (buffered_delivery _ _ _ t ht).1⟩

/-- A packet whose checksum is not filled in leaves the buffer as it came. -/
theorem flushed_with_wrong_checksum :
    ¬ ∀ (tb : TbParams) (ueAddr : UInt32) (es : List DlEvent) (t : Delivery),
      runOk (Delivery.step tb) (.start ueAddr) es = some t →
        (∀ d ∈ t.departures, some d.sent = d.direct) ∧ t.InOrder := by
  intro h
  have hsent : (runOk (Delivery.step fun _ => (1, 1)) (.start 0x0A2D0002)
      (labFlushed labPacket)).map (fun t => t.departures.all fun d =>
        decide (some d.sent = d.direct)) = some false := by decide
  grind [map_eq_some_iff]

end MmtCore.Upf
