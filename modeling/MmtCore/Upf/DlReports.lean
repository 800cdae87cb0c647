import MmtCore.Upf.DlSteps

/-!
# Downlink data reports

The first packet that a FAR buffers is reported to the control plane, which pages the UE; the code
takes a packet for the first when the buffer of the session is empty.  Followed here are the periods
in which one FAR buffers: each has one report, if a packet came, as long as nothing else uses the
buffer meanwhile and the report finds room (`one_report`).  A packet that the TSC gate holds when
the FAR begins to buffer takes the report away (`report_lost`).
-/

namespace MmtCore.Upf

open MmtCore.Lib MmtCore.Lib.SlotView Option Bool DlSession RuleCall

/-! ## Buffering periods -/

/-- The id finds a FAR that buffers. -/
def RuleSession.buffers (s : RuleSession) (farId : UInt32) : Bool :=
  (findFar s farId).any fun far => far.action == 2

/-- The packets that were buffered under the FAR, and the reports that they caused. -/
structure BufferingPeriod where
  buffered : Nat
  reports : Nat
deriving DecidableEq

/-- A packet was buffered. -/
def BufferingPeriod.add (p : BufferingPeriod) (out : DlOutput) : BufferingPeriod :=
  ⟨p.buffered + 1, p.reports + out.reports.length⟩

/-- There is one report, if there is a packet. -/
def BufferingPeriod.Reported (p : BufferingPeriod) : Prop :=
  p.reports = if 0 < p.buffered then 1 else 0

/-- A session with the buffering periods of one FAR: the one it is in, and those that ended. -/
structure PagedSession where
  session : DlSession
  current : Option BufferingPeriod
  past : List BufferingPeriod

def PagedSession.start (ueAddr : UInt32) : PagedSession := ⟨.start ueAddr, none, []⟩

/-- The packet takes a slot of the buffer because the FAR buffers. -/
def DlSession.buffersPacket (s : DlSession) (farId : UInt32) : DlEvent → Bool
  | .packet env ipPkt =>
    match s.verdictOn env.clock ipPkt with
    | .passed r _ =>
      r.matchedPdr.farId == farId && r.action == 2 && decide (s.dlBuf.length < upfDlBufSlots)
    | _ => false
  | _ => false

/-- A period begins when the FAR begins to buffer, and ends when it ceases to. -/
def PagedSession.step (tb : TbParams) (farId : UInt32) (t : PagedSession) (e : DlEvent) :
    Option PagedSession :=
  (t.session.step tb e).map fun (session, out) =>
    let current :=
      if t.session.buffersPacket farId e then t.current.map (·.add out) else t.current
    if session.metered.rules.buffers farId then
      ⟨session, some (current.getD ⟨0, 0⟩), t.past⟩
    else ⟨session, none, t.past ++ current.toList⟩

/-- Every buffering period so far has one report, if a packet came. -/
def PagedSession.ReportedOnce (t : PagedSession) : Prop :=
  ∀ p ∈ t.past ++ t.current.toList, p.Reported

/-! ## The condition -/

/-- The call may make the FAR buffer. -/
def RuleCall.startsBuffering (farId : UInt32) : RuleCall → Bool
  | .addFar a => a.farId == farId && a.action == 2
  | .deactivateDl k => k == farId
  | _ => false

/-- The packet is put in the buffer, if there is room, or lets the buffer be flushed. -/
def DlSession.usesBuffer (s : DlSession) (r : ClassifyResult) (tscHold : Bool) : Bool :=
  r.action == 2 || (r.action == 1 && tscHold) || s.reopens r tscHold

/-- The FAR begins to buffer with an empty buffer, and while it buffers no packet of another FAR and
no update of another FAR uses the buffer; its first packet finds room in the report ring. -/
structure Undisturbed (farId : UInt32) (t : PagedSession) (e : DlEvent) : Prop where
  begins : ∀ c tsc, e = .call c tsc → c.startsBuffering farId = true →
    t.session.metered.rules.buffers farId = false → t.session.dlBuf = []
  updates : ∀ c tsc far, e = .call c tsc → t.session.metered.rules.buffers farId = true →
    t.session.metered.rules.flushedBy c = some far → far.farId ≠ farId → t.session.dlBuf = []
  packets : ∀ env ipPkt r tscHold, e = .packet env ipPkt →
    t.session.metered.rules.buffers farId = true →
    t.session.verdictOn env.clock ipPkt = .passed r tscHold → r.matchedPdr.farId ≠ farId →
    t.session.usesBuffer r tscHold = false
  room : ∀ env ipPkt, e = .packet env ipPkt → t.session.dlBuf = [] →
    t.session.buffersPacket farId e = true → env.ringRoom = true

/-! ## The invariant -/

structure PagedSession.Inv (farId : UInt32) (t : PagedSession) : Prop where
  sound : Far.view.Sound upfMaxFarPerSession t.session.metered.rules.fars
  open_iff : t.current.isSome = t.session.metered.rules.buffers farId
  current : ∀ p, t.current = some p →
    p.Reported ∧ (0 < p.buffered ↔ t.session.dlBuf ≠ [])
  past : ∀ p ∈ t.past, p.Reported

theorem PagedSession.Inv.reportedOnce {farId : UInt32} {t : PagedSession} (h : t.Inv farId) :
    t.ReportedOnce := by
  intro p hp
  rcases List.mem_append.1 hp with hp | hp
  · exact h.past p hp
  · exact (h.current p (mem_toList.1 hp)).1

theorem PagedSession.inv_start (farId ueAddr : UInt32) : (PagedSession.start ueAddr).Inv farId where
  sound := sound_nil _
  open_iff := rfl
  current := fun p hp => by cases hp
  past := fun p hp => by cases hp

section

variable {tb : TbParams} {farId : UInt32} {t t' : PagedSession} {session : DlSession}
  {out : DlOutput} {e : DlEvent}

/-- What is to be shown of a step, about the period that was going on when it began: the period is
still well reported, and it ends or still tells whether the buffer is empty. -/
theorem PagedSession.Inv.next (h : t.Inv farId) (hstep : t.session.step tb e = some (session, out))
    (hsound : Far.view.Sound upfMaxFarPerSession session.metered.rules.fars)
    (hcurrent : ∀ p, t.current = some p →
      let p' := if t.session.buffersPacket farId e then p.add out else p
      p'.Reported ∧ (session.metered.rules.buffers farId = true →
        (0 < p'.buffered ↔ session.dlBuf ≠ [])))
    (hbegins : t.session.metered.rules.buffers farId = false →
      session.metered.rules.buffers farId = true → session.dlBuf = [])
    (ht : t.step tb farId e = some t') : t'.Inv farId := by
  unfold PagedSession.step at ht
  rw [hstep, map_some] at ht
  have ht := some.inj ht
  dsimp only at ht
  cases hcur : t.current with
  | none =>
    have hnot : t.session.metered.rules.buffers farId = false := by
      rw [← h.open_iff, hcur]
      rfl
    rw [hcur, map_none, ite_self] at ht
    cases hbuf : session.metered.rules.buffers farId with
    | true =>
      rw [hbuf, if_pos rfl] at ht
      subst ht
      refine ⟨hsound, hbuf.symm, fun p hp => ?_, h.past⟩
      cases hp
      refine ⟨rfl, ?_⟩
      have hempty := hbegins hnot hbuf
      simp [hempty]
    | false =>
      rw [hbuf, if_neg (by decide)] at ht
      subst ht
      refine ⟨hsound, hbuf.symm, fun p hp => (by cases hp), fun p hp => ?_⟩
      exact h.past p (by simpa using hp)
  | some p =>
    have hp := hcurrent p hcur
    have hgoes : (if t.session.buffersPacket farId e then t.current.map (·.add out)
        else t.current) = some (if t.session.buffersPacket farId e then p.add out else p) := by
      rw [hcur]
      split <;> rfl
    rw [hgoes] at ht
    cases hbuf : session.metered.rules.buffers farId with
    | true =>
      rw [hbuf, if_pos rfl] at ht
      subst ht
      refine ⟨hsound, hbuf.symm, fun q hq => ?_, h.past⟩
      cases hq
      exact ⟨hp.1, hp.2 hbuf⟩
    | false =>
      rw [hbuf, if_neg (by decide)] at ht
      subst ht
      refine ⟨hsound, hbuf.symm, fun q hq => (by cases hq), fun q hq => ?_⟩
      rcases List.mem_append.1 hq with hq | hq
      · exact h.past q hq
      · cases mem_toList.1 hq
        exact hp.1

theorem buffers_congr {s s' : RuleSession} (h : s'.fars = s.fars) :
    s'.buffers farId = s.buffers farId := by
  unfold RuleSession.buffers findFar
  rw [h]

variable {env : DlEnv} {ipPkt : List UInt8} {r : ClassifyResult} {tscHold : Bool} {c : RuleCall}
  {far : Far}

section

variable {s : DlSession} (hv : s.verdictOn env.clock ipPkt = .passed r tscHold)
include hv

/-- A packet of the FAR finds that it buffers. -/
theorem action_of_buffers
    (hbuf : s.metered.rules.buffers farId = true) (hid : r.matchedPdr.farId = farId) :
    r.action = 2 := by
  obtain ⟨hfar, hact⟩ := verdictOn_passed hv
  rw [hid] at hfar
  obtain ⟨far, hsome, h2⟩ := (any_eq_true _ _).1 hbuf
  rw [hact, hfar, hsome]
  exact beq_iff_eq.1 h2

theorem buffersPacket_eq : s.buffersPacket farId (.packet env ipPkt) =
      (r.matchedPdr.farId == farId && r.action == 2 &&
        decide (s.dlBuf.length < upfDlBufSlots)) := by
  unfold buffersPacket
  dsimp only
  rw [hv]

end

/-- The first packet of a period is reported, and no other. -/
theorem BufferingPeriod.reported_add {p : BufferingPeriod} {dlBuf : List BufferedPacket}
    {ringRoom : Bool} {report : Dldr} (hp : p.Reported) (hempty : 0 < p.buffered ↔ dlBuf ≠ [])
    (hroom : dlBuf = [] → ringRoom = true) :
    (p.add ⟨if dlBuf.isEmpty && ringRoom then [report] else [], []⟩).Reported := by
  unfold BufferingPeriod.Reported BufferingPeriod.add at *
  cases dlBuf with
  | nil | cons b rest =>
    simp_all

theorem PagedSession.Inv.packet (h : t.Inv farId) (hD : Undisturbed farId t (.packet env ipPkt))
    (ht : t.step tb farId (.packet env ipPkt) = some t') : t'.Inv farId := by
  obtain ⟨⟨session, out⟩, hstep, -⟩ := map_eq_some_iff.1 ht
  have harr := packet_arrival hstep
  have hpackets := hD.packets env ipPkt
  have hroom := hD.room env ipPkt rfl
  have hnamed : ∀ p, t.current = some p → t.session.metered.rules.buffers farId = true := by
    intro p hp
    rw [← h.open_iff, hp]
    rfl
  generalize hv : t.session.verdictOn env.clock ipPkt = v at harr
  cases harr with
  | @dropped m _ hm hfull =>
    have hno : t.session.buffersPacket farId (.packet env ipPkt) = false := by
      cases v with
      | passed r tscHold =>
        rw [buffersPacket_eq hv, eq_false_iff]
        intro hall
        simp only [and_eq_true, beq_iff_eq, decide_eq_true_eq] at hall
        exact (hfull r tscHold rfl).2 hall.1.2 hall.2
      | _ => simp [buffersPacket, hv]
    refine h.next hstep (hm.fars ▸ h.sound) (fun p hp => ?_) (fun hnot hbuf => ?_) ht
    · rw [hno]
      exact ⟨(h.current p hp).1, fun _ => (h.current p hp).2⟩
    · rw [buffers_congr hm.fars, hnot] at hbuf
      cases hbuf
  | @held m r hm hact hslot =>
    refine h.next hstep (hm.fars ▸ h.sound) (fun p hp => ?_) (fun hnot hbuf => ?_) ht
    · exfalso
      have hbuf := hnamed p hp
      have hid : r.matchedPdr.farId ≠ farId := fun heq =>
        absurd (action_of_buffers hv hbuf heq) (by rw [hact]; decide)
      simp_all [usesBuffer]
    · change m.rules.buffers farId = true at hbuf
      rw [buffers_congr hm.fars, hnot] at hbuf
      cases hbuf
  | @buffered m r tscHold hm hact hslot =>
    refine h.next hstep (hm.fars ▸ h.sound) (fun p hp => ?_) (fun hnot hbuf => ?_) ht
    · have hid : r.matchedPdr.farId = farId := by
        simp_all [usesBuffer]
      have hyes : t.session.buffersPacket farId (.packet env ipPkt) = true := by
        rw [buffersPacket_eq hv]
        simp [hid, hact, hslot]
      rw [hyes, if_pos rfl]
      obtain ⟨hrep, hcount⟩ := h.current p hp
      refine ⟨BufferingPeriod.reported_add hrep hcount fun hempty => hroom hempty hyes,
        fun _ => ?_⟩
      simp [BufferingPeriod.add, keep]
    · change m.rules.buffers farId = true at hbuf
      rw [buffers_congr hm.fars, hnot] at hbuf
      cases hbuf
  | @left m r tscHold far direct hm hfar hact hhold hdirect =>
    have hno : t.session.buffersPacket farId (.packet env ipPkt) = false := by
      rw [buffersPacket_eq hv]
      simp [hact]
    refine h.next hstep (hm.fars ▸ h.sound) (fun p hp => ?_) (fun hnot hbuf => ?_) ht
    · have hbuf := hnamed p hp
      have hid : r.matchedPdr.farId ≠ farId := fun heq => hact (action_of_buffers hv hbuf heq)
      have huse := hpackets r tscHold rfl hbuf hv hid
      have hshut : t.session.reopens r tscHold = false :=
        (or_eq_false_iff.1 huse).2
      rw [hno, hshut]
      exact ⟨(h.current p hp).1, fun _ => (h.current p hp).2⟩
    · rw [buffers_congr hm.fars, hnot] at hbuf
      cases hbuf

section

variable {s s' : RuleSession} (hs : Far.view.Sound upfMaxFarPerSession s.fars)
  (hc : s.call c = .done s')
include hc hs

/-- Only such a call makes the FAR buffer. -/
theorem startsBuffering_of_buffers
    (hnot : s.buffers farId = false) (hbuf : s'.buffers farId = true) :
    c.startsBuffering farId = true := by
  have hfound := findFar_call hs hc farId
  unfold RuleSession.buffers at hnot hbuf
  rw [hfound] at hbuf
  cases c with
  | addFar a =>
    grind [startsBuffering, FarArgs.far, onFar]
  | updateFar k tun =>
    grind [Far.updated, onFar, any_eq_true]
  | deactivateDl k =>
    grind [startsBuffering, onFar]
  | removeFar k =>
    grind [onFar]
  | _ =>
    have hsame := hnot.symm.trans hbuf
    cases hsame

/-- The update that flushes the buffer ends the buffering of its FAR. -/
theorem buffers_of_flushedBy (hflush : s.flushedBy c = some far) :
    s'.buffers far.farId = false := by
  obtain ⟨k, tun, old, rfl, hmem, hid, hact, rfl⟩ := flushedBy_eq_some hflush
  have hfound := findFar_call hs hc k
  have hold := hs.lookup_id hmem
  have hk : (old.updated tun).farId = k := hid
  unfold RuleSession.buffers
  rw [hk, hfound]
  unfold onFar
  dsimp only
  rw [if_pos rfl]
  change Far.view.lookup s.fars old.farId = _ at hold
  rw [hid] at hold
  unfold findFar
  rw [hold]
  cases hactive : Far.view.active old with
  | true =>
    rw [found_of_active hactive]
    simp [Far.updated, hact]
  | false =>
    rw [found_of_inactive hactive]
    rfl

end

theorem done_of_flushedBy {s : RuleSession} (hflush : s.flushedBy c = some far) :
    s.call c ≠ .rejected := by
  obtain ⟨k, tun, old, rfl, hmem, hid, -, -⟩ := flushedBy_eq_some hflush
  intro hrej
  change CallResult.ofOption (upfDpUpdateFar s k tun) = .rejected at hrej
  unfold upfDpUpdateFar at hrej
  cases hc : SlotView.change (fun far => far.farId == k) (fun far => far.updated tun) s.fars with
  | none =>
    have hno := change_eq_none hc old hmem
    simp [hid] at hno
  | some fars =>
    rw [hc] at hrej
    cases hrej

theorem PagedSession.Inv.call {tsc : UInt64} (h : t.Inv farId)
    (hD : Undisturbed farId t (.call c tsc)) (ht : t.step tb farId (.call c tsc) = some t') :
    t'.Inv farId := by
  obtain ⟨⟨session, out⟩, hstep, -⟩ := map_eq_some_iff.1 ht
  obtain ⟨m, hm, hcases⟩ := call_cases hstep
  have hrules := MeteredSession.call_rules hm
  have hsound : Far.view.Sound upfMaxFarPerSession m.rules.fars := by
    rcases hrules with hdone | ⟨-, hsame⟩
    · exact fars_sound_call h.sound hdone
    · rw [hsame]
      exact h.sound
  have hstarts : t.session.metered.rules.buffers farId = false → m.rules.buffers farId = true →
      t.session.dlBuf = [] := by
    intro hnot hbuf
    rcases hrules with hdone | ⟨-, hsame⟩
    · exact hD.begins c tsc rfl (startsBuffering_of_buffers h.sound hdone hnot hbuf) hnot
    · rw [hsame, hnot] at hbuf
      cases hbuf
  rcases hcases with ⟨-, rfl, rfl⟩ | ⟨far, hflush, rfl, rfl⟩
  · refine h.next hstep hsound (fun p hp => ?_) hstarts ht
    exact ⟨(h.current p hp).1, fun _ => (h.current p hp).2⟩
  · refine h.next hstep hsound (fun p hp => ?_) (fun _ _ => rfl) ht
    refine ⟨(h.current p hp).1, fun hbuf => ?_⟩
    have hnow : t.session.metered.rules.buffers farId = true := by
      rw [← h.open_iff, hp]
      rfl
    have hid : far.farId ≠ farId := by
      rintro rfl
      rcases hrules with hdone | ⟨hrej, -⟩
      · have hends := buffers_of_flushedBy h.sound hdone hflush
        rw [hends] at hbuf
        cases hbuf
      · exact done_of_flushedBy hflush hrej
    have hempty := hD.updates c tsc far rfl hnow hflush hid
    have hcount := (h.current p hp).2
    rw [hempty] at hcount
    exact hcount

/-- The other steps touch neither the FARs nor the buffer. -/
theorem PagedSession.Inv.unconcerned (h : t.Inv farId)
    (hstep : t.session.step tb e = some (session, .none))
    (hno : t.session.buffersPacket farId e = false)
    (hfars : session.metered.rules.fars = t.session.metered.rules.fars)
    (hdlBuf : session.dlBuf = t.session.dlBuf) (ht : t.step tb farId e = some t') :
    t'.Inv farId := by
  refine h.next hstep (hfars ▸ h.sound) (fun p hp => ?_) (fun hnot hbuf => ?_) ht
  · rw [hno, hdlBuf]
    exact ⟨(h.current p hp).1, fun _ => (h.current p hp).2⟩
  · rw [buffers_congr hfars, hnot] at hbuf
    cases hbuf

theorem PagedSession.Inv.step (h : t.Inv farId) (hD : Undisturbed farId t e)
    (ht : t.step tb farId e = some t') : t'.Inv farId := by
  cases e with
  | packet env ipPkt => exact h.packet hD ht
  | call c tsc => exact h.call hD ht
  | setSessionAmbr ul dl tsc =>
    have hstep : t.session.step tb (.setSessionAmbr ul dl tsc) = some (_, .none) := rfl
    exact h.unconcerned hstep rfl rfl rfl ht
  | setTscGate qfi trafficClass baseTimeNs cycleTimeNs windows =>
    have hstep : t.session.step tb (.setTscGate qfi trafficClass baseTimeNs cycleTimeNs windows) =
        some (_, .none) := rfl
    refine h.unconcerned hstep rfl ?_ ?_ ht
    · unfold setTscGate
      split <;> rfl
    · unfold setTscGate
      split <;> rfl
  | clearTscGate =>
    have hstep : t.session.step tb .clearTscGate = some (_, .none) := rfl
    exact h.unconcerned hstep rfl rfl rfl ht
  | setPtpSteering enable =>
    have hstep : t.session.step tb (.setPtpSteering enable) = some (_, .none) := rfl
    exact h.unconcerned hstep rfl rfl rfl ht

end

/-- In every run of a session in which nothing disturbs the buffering of a FAR, each of its buffering
periods has one report, if a packet came. -/
theorem one_report (tb : TbParams) (ueAddr farId : UInt32) (t : PagedSession)
    (hr : ReachOk (PagedSession.step tb farId) (Undisturbed farId) (.start ueAddr) t) :
    t.ReportedOnce :=
  (hr.invariant (PagedSession.inv_start farId ueAddr)
    fun _ _ _ h hD ht => h.step hD ht).reportedOnce

/-! ## One session -/

/-- A clock that stands still, and room in the report ring. -/
def labEnv : DlEnv := ⟨⟨0, 0⟩, true⟩

/-- A FAR with its tunnel and the downlink PDR that names it. -/
def labRules (action : UInt8) : List DlEvent :=
  [.call (.addFar ⟨2, action, 0, 7, 0x0A000001, 2152, 1⟩) 0,
   .call (.addPdr ⟨2, 100, 1, 9, 2, 0, 0, none⟩) 0]

/-- The FAR buffers from the start, and a packet comes. -/
def labBuffered : List DlEvent := labRules 2 ++ [.packet labEnv labPacket]

/-- The FAR forwards, the TSC gate is closed, and a packet is held; then the FAR is deactivated, and
another packet comes. -/
def labHeld : List DlEvent :=
  labRules 1 ++
    [.setTscGate 0 0 0 1000 [(0, 1000)], .packet labEnv labPacket, .call (.deactivateDl 2) 0,
     .packet labEnv labPacket]

variable {farId : UInt32} {t : PagedSession}

/-- A call that finds the buffer empty disturbs nothing. -/
theorem undisturbed_call (c : RuleCall) (tsc : UInt64) (hempty : t.session.dlBuf = []) :
    Undisturbed farId t (.call c tsc) where
  begins := fun _ _ _ _ _ => hempty
  updates := fun _ _ _ _ _ _ _ => hempty
  packets := fun _ _ _ _ he => (by cases he)
  room := fun _ _ he => (by cases he)

/-- Nor does a packet of the FAR itself, when the report ring has room. -/
theorem undisturbed_packet {env : DlEnv} {ipPkt : List UInt8}
    (hown : ∀ r tscHold, t.session.verdictOn env.clock ipPkt = .passed r tscHold →
      r.matchedPdr.farId = farId) (hroom : env.ringRoom = true) :
    Undisturbed farId t (.packet env ipPkt) where
  begins := fun _ _ he => (by cases he)
  updates := fun _ _ _ he => (by cases he)
  packets := by
    intro env' ipPkt' r tscHold he _ hv hid
    cases he
    exact absurd (hown r tscHold hv) hid
  room := by
    intro env' ipPkt' he _ _
    cases he
    exact hroom

theorem one_report_lab :
    ∃ t, runOk (PagedSession.step (fun _ => (1, 1)) 2) (.start 0x0A2D0002) labBuffered = some t ∧
      t.current = some ⟨1, 1⟩ ∧ t.ReportedOnce := by
  have hrun : (runOk (PagedSession.step (fun _ => (1, 1)) 2) (.start 0x0A2D0002) labBuffered).map
      PagedSession.current = some (some ⟨1, 1⟩) := by decide
  obtain ⟨t, ht, hcur⟩ := map_eq_some_iff.1 hrun
  have hfirst : (runOk (PagedSession.step (fun _ => (1, 1)) 2) (.start 0x0A2D0002)
      ((labRules 2).take 1)).map (·.session.dlBuf) = some [] := by decide
  have hverdict : (runOk (PagedSession.step (fun _ => (1, 1)) 2) (.start 0x0A2D0002)
      (labRules 2)).map (fun t =>
        match t.session.verdictOn labEnv.clock labPacket with
        | .passed r _ => r.matchedPdr.farId
        | _ => 2) = some 2 := by decide
  have hmeets : MeetsOk (PagedSession.step (fun _ => (1, 1)) 2) (Undisturbed 2)
      (.start 0x0A2D0002) labBuffered := by
    refine ⟨undisturbed_call _ _ rfl, fun s₁ h₁ => ⟨undisturbed_call _ _ ?_,
      fun s₂ h₂ => ⟨undisturbed_packet ?_ rfl, fun _ _ => trivial⟩⟩⟩
    · have hs₁ : runOk (PagedSession.step (fun _ => (1, 1)) 2) (.start 0x0A2D0002)
          ((labRules 2).take 1) = some s₁ := bind_eq_some_iff.2 ⟨s₁, h₁, rfl⟩
      rw [hs₁] at hfirst
      exact some.inj hfirst
    · intro r tscHold hv
      have hs₂ : runOk (PagedSession.step (fun _ => (1, 1)) 2) (.start 0x0A2D0002)
          (labRules 2) = some s₂ :=
        bind_eq_some_iff.2 ⟨s₁, h₁, bind_eq_some_iff.2 ⟨s₂, h₂, rfl⟩⟩
      simp_all
  exact ⟨t, ht, hcur, one_report _ _ 2 t (hmeets.reach ht)⟩

/-- The packet that the gate held fills the buffer, and the one that is buffered is not reported. -/
theorem report_lost :
    ¬ ∀ (tb : TbParams) (ueAddr farId : UInt32) (es : List DlEvent) (t : PagedSession),
      runOk (PagedSession.step tb farId) (.start ueAddr) es = some t → t.ReportedOnce := by
  intro h
  have hrun : (runOk (PagedSession.step (fun _ => (1, 1)) 2) (.start 0x0A2D0002) labHeld).map
      PagedSession.current = some (some ⟨1, 0⟩) := by decide
  obtain ⟨t, ht, hcur⟩ := map_eq_some_iff.1 hrun
  have hrep := h _ _ 2 labHeld t ht ⟨1, 0⟩ (by simp [hcur])
  exact absurd (show (0 : Nat) = 1 from hrep) (by decide)

end MmtCore.Upf
