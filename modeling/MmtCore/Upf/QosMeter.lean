import MmtCore.Upf.RuleTables

/-!
# QoS meters

`upf_qos_meter.c` over `rte_meter.c`: a QER and the session have a meter with a token bucket for
each direction, for the MBR and for the session AMBR.  A direction with rate 0 has its bucket left
at zero, and one flag says whether either has been configured.  So the check of a direction without
a rate divides by the period 0 of its bucket when the other direction has one; in all other cases a
packet passes as a bucket with the rate of its direction alone says (`meter_governed`).
-/

namespace MmtCore.Upf

open MmtCore.Lib UInt64 Nat Or

/-! ## The single-rate marker -/

/-- `enum rte_color`. -/
inductive Color
  | green
  | yellow
  | red
deriving DecidableEq

/-- `struct rte_meter_srtcm_params`: bytes per second, and two burst sizes in bytes. -/
structure SrtcmParams where
  cir : UInt64
  cbs : UInt64
  ebs : UInt64

/-- `struct rte_meter_srtcm_profile`. -/
structure SrtcmProfile where
  cbs : UInt64
  ebs : UInt64
  cirPeriod : UInt64
  cirBytesPerPeriod : UInt64
deriving DecidableEq

/-- `struct rte_meter_srtcm`. -/
structure Srtcm where
  time : UInt64
  tc : UInt64
  te : UInt64
deriving DecidableEq

/-- `rte_meter_get_tb_params` at the rate of the clock: the period of a rate and the bytes per
period.  It computes them in floating point. -/
abbrev TbParams := UInt64 → UInt64 × UInt64

variable (tb : TbParams)

/-- `rte_meter_srtcm_profile_config`; `none` is `-EINVAL`. -/
def srtcmProfileConfig (params : SrtcmParams) : Option SrtcmProfile :=
  if params.cir = 0 ∨ (params.cbs = 0 ∧ params.ebs = 0) then none
  else some ⟨params.cbs, params.ebs, (tb params.cir).1, (tb params.cir).2⟩

/-- `rte_meter_srtcm_config`, at a time of the clock. -/
def srtcmConfig (p : SrtcmProfile) (now : UInt64) : Srtcm := ⟨now, p.cbs, p.ebs⟩

/-- A meter of one direction with its profile. -/
structure Bucket where
  profile : SrtcmProfile
  meter : Srtcm
deriving DecidableEq

/-- A bucket after `memset`. -/
def Bucket.zero : Bucket := ⟨⟨0, 0, 0, 0⟩, ⟨0, 0, 0⟩⟩

/-- `rte_meter_srtcm_color_blind_check`, where the period is not 0. -/
def Bucket.color (b : Bucket) (now : UInt64) (pktLen : UInt32) : Color × Bucket :=
  let p := b.profile
  let nPeriods := (now - b.meter.time) / p.cirPeriod
  let time := b.meter.time + nPeriods * p.cirPeriod
  let tokens := b.meter.tc + nPeriods * p.cirBytesPerPeriod
  let overflow := b.meter.te + (tokens - p.cbs)
  let te := if p.cbs < tokens then (if p.ebs < overflow then p.ebs else overflow) else b.meter.te
  let tc := if p.cbs < tokens then p.cbs else tokens
  let len := pktLen.toUInt64
  if len ≤ tc then (.green, { b with meter := ⟨time, tc - len, te⟩ })
  else if len ≤ te then (.yellow, { b with meter := ⟨time, tc, te - len⟩ })
  else (.red, { b with meter := ⟨time, tc, te⟩ })

/-- A packet passes when it is green. -/
def Bucket.take (b : Bucket) (now : UInt64) (pktLen : UInt32) : Bool × Bucket :=
  let r := b.color now pktLen
  (r.1 == .green, r.2)

/-- `_check_srtcm`; `none` is a division by zero. -/
def checkSrtcm (b : Bucket) (now : UInt64) (pktLen : UInt32) : Option (Bool × Bucket) :=
  if b.profile.cirPeriod = 0 then none else some (b.take now pktLen)

/-- The parameters of a rate in kbit/s: a burst of 10 ms, or of 12 packets of 1500 bytes. -/
def srtcmParams (rateKbps : UInt64) : SrtcmParams :=
  let cir := rateKbps * 1000 / 8
  let cbs := cir / 100
  ⟨cir, if cbs < 12 * 1500 then 12 * 1500 else cbs, 0⟩

/-- `_configure_srtcm`: the bucket, and the return value. -/
def configureSrtcm (b : Bucket) (rateKbps now : UInt64) : Bucket × Int :=
  if rateKbps = 0 then (b, 0)
  else
    match srtcmProfileConfig tb (srtcmParams rateKbps) with
    | none => (b, -1)
    | some p => (⟨p, srtcmConfig p now⟩, 1)

/-! ## The meter of two directions -/

/-- `upf_qer_meter_t` and `upf_session_meter_t`. -/
structure QosMeter where
  ul : Bucket
  dl : Bucket
  configured : Bool
deriving DecidableEq

/-- A meter as it is allocated. -/
def QosMeter.zero : QosMeter := ⟨.zero, .zero, false⟩

/-- `upf_qer_meter_configure` and `upf_session_meter_configure`. -/
def QosMeter.configure (ulKbps dlKbps now : UInt64) : QosMeter :=
  let ul := configureSrtcm tb .zero ulKbps now
  let dl := configureSrtcm tb .zero dlKbps now
  ⟨ul.1, dl.1, decide (0 < ul.2) || decide (0 < dl.2)⟩

/-- `upf_qer_meter_check` and `upf_session_meter_check`. -/
def QosMeter.check (m : QosMeter) (direction : UInt8) (now : UInt64) (pktLen : UInt32) :
    Option (Bool × QosMeter) :=
  if !m.configured then some (true, m)
  else if direction = 0 then
    (checkSrtcm m.ul now pktLen).map fun r => (r.1, { m with ul := r.2 })
  else
    (checkSrtcm m.dl now pktLen).map fun r => (r.1, { m with dl := r.2 })

/-! ## What is metered -/

/-- The rates of a QER, or of a session, with its meter. -/
structure Metered where
  ul : UInt64
  dl : UInt64
  meter : QosMeter
deriving DecidableEq

/-- As it is allocated. -/
def Metered.start : Metered := ⟨0, 0, .zero⟩

/-- Whose rates they are: those of a QER are not configured when both are 0. -/
inductive MeterUser
  | qer
  | session

/-- The rates are set. -/
def MeterUser.set (user : MeterUser) (m : Metered) (ul dl now : UInt64) : Metered :=
  match user with
  | .qer => ⟨ul, dl, if 0 < ul ∨ 0 < dl then .configure tb ul dl now else m.meter⟩
  | .session => ⟨ul, dl, .configure tb ul dl now⟩

/-- A packet is checked, if a rate is set; `none` is a division by zero. -/
def Metered.packet (m : Metered) (direction : UInt8) (now : UInt64) (pktLen : UInt32) :
    Option (Bool × Metered) :=
  if 0 < m.ul ∨ 0 < m.dl then
    (m.meter.check direction now pktLen).map fun r => (r.1, { m with meter := r.2 })
  else some (true, m)

/-- The rules of a session with their meters, those of the QERs by slot. -/
structure MeteredSession where
  rules : RuleSession
  sessionAmbrUl : UInt64
  sessionAmbrDl : UInt64
  qerMeters : Nat → QosMeter
  sessionMeter : QosMeter

/-- `upf_dp_add_qer`. -/
def MeteredSession.addQer (s : MeteredSession) (a : QerArgs) (now : UInt64) :
    Option MeteredSession :=
  (findOrAllocQerSlot s.rules.qers a.qerId).map fun slot =>
    { s with
      rules := { s.rules with qers := SlotView.store s.rules.qers slot a.qer }
      qerMeters := if 0 < a.mbrUl ∨ 0 < a.mbrDl then
        Function.update s.qerMeters slot.1 (.configure tb a.mbrUl a.mbrDl now) else s.qerMeters }

/-- `upf_dp_set_session_ambr`. -/
def MeteredSession.setSessionAmbr (s : MeteredSession) (ul dl now : UInt64) : MeteredSession :=
  { s with sessionAmbrUl := ul, sessionAmbrDl := dl, sessionMeter := .configure tb ul dl now }

/-- The slot of a QER: the first with its id, or 0. -/
def qerIdx (s : RuleSession) (qer : Qer) : Nat :=
  (s.qers.findIdx? fun q => q.qerId == qer.qerId).getD 0

/-- The MBR check of `upf_process_packet`. -/
def MeteredSession.checkMbr (s : MeteredSession) (qer : Option Qer) (direction : UInt8)
    (now : UInt64) (pktLen : UInt32) : Option (Bool × MeteredSession) :=
  match qer with
  | none => some (true, s)
  | some qer =>
    if 0 < qer.mbrUl ∨ 0 < qer.mbrDl then
      let idx := qerIdx s.rules qer
      ((s.qerMeters idx).check direction now pktLen).map fun r =>
        (r.1, { s with qerMeters := Function.update s.qerMeters idx r.2 })
    else some (true, s)

/-- The session AMBR check of `upf_process_packet`: GBR flows are exempt. -/
def MeteredSession.checkAmbr (s : MeteredSession) (qer : Option Qer) (direction : UInt8)
    (now : UInt64) (pktLen : UInt32) : Option (Bool × MeteredSession) :=
  let isGbr := qer.any fun q => decide (0 < q.gbrUl ∨ 0 < q.gbrDl)
  if isGbr = false ∧ (0 < s.sessionAmbrUl ∨ 0 < s.sessionAmbrDl) then
    (s.sessionMeter.check direction now pktLen).map fun r => (r.1, { s with sessionMeter := r.2 })
  else some (true, s)

/-! ## Rates and meters of a session -/

variable {tb} {s s' : MeteredSession} {a : QerArgs} {now ul dl : UInt64} {pktLen : UInt32}
  {direction : UInt8} {qer old : Qer} {i : Nat}

/-! ## One bucket for each direction -/

variable (tb)

/-- The bucket of a rate by itself; none for the rate 0, which does not limit. -/
def ownBucket (rateKbps now : UInt64) : Option Bucket :=
  if rateKbps = 0 then none
  else
    let cir := UInt64.ofNat (rateKbps.toNat * 1000 / 8)
    let cbs := UInt64.ofNat (max (rateKbps.toNat * 1000 / 8 / 100) 18000)
    some ⟨⟨cbs, 0, (tb cir).1, (tb cir).2⟩, ⟨now, cbs, 0⟩⟩

/-- What the two directions are to be limited by. -/
structure OwnBuckets where
  ul : Option Bucket
  dl : Option Bucket

def OwnBuckets.start : OwnBuckets := ⟨none, none⟩

def OwnBuckets.set (ul dl now : UInt64) : OwnBuckets := ⟨ownBucket tb ul now, ownBucket tb dl now⟩

/-- A packet takes from the bucket of its direction, if there is one. -/
def takeOwn (o : Option Bucket) (now : UInt64) (pktLen : UInt32) : Bool × Option Bucket :=
  match o with
  | none => (true, none)
  | some b => ((b.take now pktLen).1, some (b.take now pktLen).2)

def OwnBuckets.packet (o : OwnBuckets) (direction : UInt8) (now : UInt64) (pktLen : UInt32) :
    Bool × OwnBuckets :=
  if direction = 0 then
    let r := takeOwn o.ul now pktLen
    (r.1, { o with ul := r.2 })
  else
    let r := takeOwn o.dl now pktLen
    (r.1, { o with dl := r.2 })

/-! ## Runs -/

inductive MeterEvent
  | set (ul dl now : UInt64)
  | packet (direction : UInt8) (now : UInt64) (pktLen : UInt32)

/-- The verdicts on the packets, and the meter; `none` after a division by zero. -/
def Metered.run (user : MeterUser) : Metered → List MeterEvent → Option (List Bool × Metered)
  | m, [] => some ([], m)
  | m, .set ul dl now :: es => Metered.run user (user.set tb m ul dl now) es
  | m, .packet direction now pktLen :: es =>
    (m.packet direction now pktLen).bind fun r =>
      (Metered.run user r.2 es).map fun r' => (r.1 :: r'.1, r'.2)

def OwnBuckets.run : OwnBuckets → List MeterEvent → List Bool × OwnBuckets
  | o, [] => ([], o)
  | _, .set ul dl now :: es => OwnBuckets.run (.set tb ul dl now) es
  | o, .packet direction now pktLen :: es =>
    let r := o.packet direction now pktLen
    let r' := OwnBuckets.run r.2 es
    (r.1 :: r'.1, r'.2)

/-- The rate of a direction. -/
def rateOf (ul dl : UInt64) (direction : UInt8) : UInt64 := if direction = 0 then ul else dl

/-- The direction of a packet has a rate, or neither has. -/
def RatedAlike (ul dl : UInt64) (direction : UInt8) : Prop :=
  rateOf ul dl direction ≠ 0 ∨ (ul = 0 ∧ dl = 0)

/-- A rate that is 0, or whose bytes per second do not overflow and have a period. -/
def Meterable (rateKbps : UInt64) : Prop :=
  rateKbps = 0 ∨ (rateKbps.toNat * 1000 < 18446744073709551616 ∧
    (tb (srtcmParams rateKbps).cir).1 ≠ 0)

/-- The rates that are set can be metered, and the packets come in directions that have a rate when
either has one. -/
def Conforms : UInt64 → UInt64 → List MeterEvent → Prop
  | _, _, [] => True
  | _, _, .set ul dl _ :: es => Meterable tb ul ∧ Meterable tb dl ∧ Conforms ul dl es
  | ul, dl, .packet direction _ _ :: es => RatedAlike ul dl direction ∧ Conforms ul dl es

/-! ## The meter and the buckets side by side -/

variable {tb} {m m' : Metered} {o : OwnBuckets} {b : Bucket} {own : Option Bucket}
  {rate : UInt64} {user : MeterUser}

/-- The bucket of a direction is that of its rate, with a period; without a rate it has none. -/
def SameBucket (rate : UInt64) (b : Bucket) (own : Option Bucket) : Prop :=
  if rate = 0 then own = none ∧ b.profile.cirPeriod = 0
  else own = some b ∧ b.profile.cirPeriod ≠ 0

/-- The meter limits each direction as its own bucket does. -/
structure Agrees (m : Metered) (o : OwnBuckets) : Prop where
  idle : m.ul = 0 ∧ m.dl = 0 → o.ul = none ∧ o.dl = none
  configured : 0 < m.ul ∨ 0 < m.dl → m.meter.configured = true ∧
    SameBucket m.ul m.meter.ul o.ul ∧ SameBucket m.dl m.meter.dl o.dl

theorem uint64_pos {n : UInt64} (h : n ≠ 0) : 0 < n := by
  rw [lt_iff_toNat_lt]
  exact Nat.pos_of_ne_zero fun hz => h (UInt64.toNat_inj.1 hz)

theorem rate_set_or (ul dl : UInt64) : (0 < ul ∨ 0 < dl) ∨ (ul = 0 ∧ dl = 0) := by
  by_cases hul : ul = 0
  · by_cases hdl : dl = 0
    · exact inr ⟨hul, hdl⟩
    · exact inl (inr (uint64_pos hdl))
  · exact inl (inl (uint64_pos hul))

theorem agrees_start : Agrees Metered.start OwnBuckets.start where
  idle := fun _ => ⟨rfl, rfl⟩
  configured := fun h => by
    rcases h with h | h <;> exact absurd h (by decide)

/-- The committed rate in bytes per second. -/
theorem srtcmParams_cir (h : rate.toNat * 1000 < 18446744073709551616) :
    (srtcmParams rate).cir = UInt64.ofNat (rate.toNat * 1000 / 8) := by
  apply UInt64.toNat_inj.1
  simp_all [srtcmParams]

theorem srtcmParams_cbs (h : rate.toNat * 1000 < 18446744073709551616) :
    (srtcmParams rate).cbs = UInt64.ofNat (max (rate.toNat * 1000 / 8 / 100) 18000) := by
  have hcir := srtcmParams_cir h
  have hcbs : (srtcmParams rate).cbs = if (srtcmParams rate).cir / 100 < 12 * 1500 then 12 * 1500
      else (srtcmParams rate).cir / 100 := rfl
  have hdiv : ((srtcmParams rate).cir / 100).toNat = rate.toNat * 1000 / 8 / 100 := by
    rw [UInt64.toNat_div, hcir, UInt64.toNat_ofNat', Nat.mod_eq_of_lt (by omega)]
    rfl
  rw [hcbs]
  apply UInt64.toNat_inj.1
  split
  · rename_i hlt
    rw [UInt64.lt_iff_toNat_lt, hdiv] at hlt
    have hsmall : rate.toNat * 1000 / 8 / 100 < 18000 := hlt
    rw [max_eq_right (by omega)]
    rfl
  · rename_i hlt
    rw [lt_iff_toNat_lt, hdiv] at hlt
    grind [toNat_ofNat']

/-- A direction is configured as its own bucket, if it has a rate, else left at zero. -/
theorem configureSrtcm_zero (now : UInt64) (h : Meterable tb rate) :
    SameBucket rate (configureSrtcm tb .zero rate now).1 (ownBucket tb rate now) ∧
      (0 < (configureSrtcm tb .zero rate now).2 ↔ rate ≠ 0) := by
  unfold SameBucket ownBucket configureSrtcm
  by_cases hzero : rate = 0
  · subst hzero
    simp [Bucket.zero]
  · obtain ⟨hmul, hperiod⟩ := h.resolve_left hzero
    have hcir := srtcmParams_cir hmul
    have hne : (srtcmParams rate).cir ≠ 0 := by
      rw [hcir]
      intro h0
      have hnat := congrArg toNat h0
      grind [UInt64.toNat_ofNat', UInt64.toNat_inj]
    have hcbs : (srtcmParams rate).cbs ≠ 0 := by
      rw [srtcmParams_cbs hmul]
      intro h0
      have hnat := congrArg UInt64.toNat h0
      rw [toNat_ofNat', mod_eq_of_lt (by omega)] at hnat
      simp at hnat
    have hebs : (srtcmParams rate).ebs = 0 := rfl
    have hconf : srtcmProfileConfig tb (srtcmParams rate) = some ⟨(srtcmParams rate).cbs, 0,
        (tb (srtcmParams rate).cir).1, (tb (srtcmParams rate).cir).2⟩ := by
      unfold srtcmProfileConfig
      rw [if_neg (by simp [hne, hcbs]), hebs]
    simp only [hzero, if_false, hconf]
    rw [← hcir, ← srtcmParams_cbs hmul]
    exact ⟨⟨rfl, hperiod⟩, by simp [hzero]⟩

theorem agrees_configure {ul dl now : UInt64} (hul : Meterable tb ul) (hdl : Meterable tb dl)
    (hrate : 0 < ul ∨ 0 < dl) :
    Agrees ⟨ul, dl, .configure tb ul dl now⟩ (.set tb ul dl now) := by
  obtain ⟨hu, hu'⟩ := configureSrtcm_zero now hul
  obtain ⟨hd, hd'⟩ := configureSrtcm_zero now hdl
  refine ⟨fun ⟨hz, hz'⟩ => ?_, fun _ => ⟨?_, hu, hd⟩⟩
  · subst hz hz'
    exact absurd hrate (by decide)
  · simp only [QosMeter.configure, Bool.or_eq_true, decide_eq_true_eq, hu', hd']
    grind

/-- Rates that can be metered are set as they should be. -/
theorem Agrees.set {ul dl now : UInt64} (hul : Meterable tb ul) (hdl : Meterable tb dl) :
    Agrees (user.set tb m ul dl now) (.set tb ul dl now) := by
  rcases rate_set_or ul dl with hrate | ⟨rfl, rfl⟩
  · cases user with
    | qer =>
      simp only [MeterUser.set, hrate, if_true]
      exact agrees_configure hul hdl hrate
    | session => exact agrees_configure hul hdl hrate
  · have hnot : ¬ ((0 : UInt64) < 0 ∨ (0 : UInt64) < 0) := by decide
    refine ⟨fun _ => ⟨rfl, rfl⟩, fun h => ?_⟩
    cases user with
    | qer | session => exact absurd h hnot

theorem checkSrtcm_rated (now : UInt64) (pktLen : UInt32) (h : SameBucket rate b own)
    (hrate : rate ≠ 0) :
    checkSrtcm b now pktLen = some (b.take now pktLen) ∧
      takeOwn own now pktLen = ((b.take now pktLen).1, some (b.take now pktLen).2) := by
  unfold SameBucket at h
  rw [if_neg hrate] at h
  obtain ⟨rfl, hperiod⟩ := h
  exact ⟨if_neg hperiod, rfl⟩

theorem Bucket.take_profile (b : Bucket) (now : UInt64) (pktLen : UInt32) :
    (b.take now pktLen).2.profile = b.profile := by
  unfold Bucket.take Bucket.color
  dsimp only
  split_ifs <;> rfl

theorem SameBucket.take {now : UInt64} {pktLen : UInt32} (h : SameBucket rate b own)
    (hrate : rate ≠ 0) :
    SameBucket rate (b.take now pktLen).2 (some (b.take now pktLen).2) := by
  unfold SameBucket at h ⊢
  rw [if_neg hrate] at h ⊢
  rw [Bucket.take_profile]
  exact ⟨rfl, h.2⟩

/-- A packet in a direction with a rate, or of a meter without, passes as its own bucket says. -/
theorem Agrees.packet (h : Agrees m o) (now : UInt64) (pktLen : UInt32)
    (hrated : RatedAlike m.ul m.dl direction) :
    ∃ m', m.packet direction now pktLen = some ((o.packet direction now pktLen).1, m') ∧
      Agrees m' (o.packet direction now pktLen).2 ∧ m'.ul = m.ul ∧ m'.dl = m.dl := by
  rcases rate_set_or m.ul m.dl with hrate | hidle
  · obtain ⟨hconf, hul, hdl⟩ := h.configured hrate
    have hdir : rateOf m.ul m.dl direction ≠ 0 := by
      rcases hrated with hne | ⟨hz, hz'⟩
      · exact hne
      · rw [hz, hz'] at hrate
        exact absurd hrate (by decide)
    have hnot : ¬ (m.ul = 0 ∧ m.dl = 0) := by
      rintro ⟨hz, hz'⟩
      rw [hz, hz'] at hrate
      exact absurd hrate (by decide)
    by_cases hd : direction = 0
    · rw [rateOf, if_pos hd] at hdir
      obtain ⟨hcheck, htake⟩ := checkSrtcm_rated now pktLen hul hdir
      refine ⟨{ m with meter := { m.meter with ul := (m.meter.ul.take now pktLen).2 } }, ?_, ?_, rfl,
        rfl⟩
      · simp [Metered.packet, QosMeter.check, OwnBuckets.packet, hrate, hconf, hd, hcheck, htake]
      · simp only [OwnBuckets.packet, hd, if_true, htake]
        exact ⟨fun hz => absurd hz hnot, fun _ => ⟨hconf, hul.take hdir, hdl⟩⟩
    · rw [rateOf, if_neg hd] at hdir
      obtain ⟨hcheck, htake⟩ := checkSrtcm_rated now pktLen hdl hdir
      refine ⟨{ m with meter := { m.meter with dl := (m.meter.dl.take now pktLen).2 } }, ?_, ?_, rfl,
        rfl⟩
      · simp [Metered.packet, QosMeter.check, OwnBuckets.packet, hrate, hconf, hd, hcheck, htake]
      · simp only [OwnBuckets.packet, hd, if_false, htake]
        exact ⟨fun hz => absurd hz hnot, fun _ => ⟨hconf, hul, hdl.take hdir⟩⟩
  · -- no rate is set: nothing is checked, and there is no bucket
    obtain ⟨hul, hdl⟩ := h.idle hidle
    have hnot : ¬ (0 < m.ul ∨ 0 < m.dl) := by
      rw [hidle.1, hidle.2]
      decide
    have hown : o.packet direction now pktLen = (true, o) := by
      unfold OwnBuckets.packet
      by_cases hd : direction = 0
      · simp only [hd, if_true, hul, takeOwn]
        rw [← hul]
      · simp only [hd, if_false, hdl, takeOwn]
        rw [← hdl]
    rw [hown]
    exact ⟨m, if_neg hnot, h, rfl, rfl⟩

/-- A packet in a direction without a rate divides by zero when the other direction has one. -/
theorem Agrees.packet_none (h : Agrees m o) (hrated : ¬ RatedAlike m.ul m.dl direction) :
    m.packet direction now pktLen = none := by
  obtain ⟨hzero, hnot⟩ := not_or.1 hrated
  have hrate := (rate_set_or m.ul m.dl).resolve_right hnot
  obtain ⟨hconf, hul, hdl⟩ := h.configured hrate
  grind [rateOf, SameBucket, Metered.packet, QosMeter.check, checkSrtcm]

/-! ## The meter after any run -/

/-- A run that conforms, by induction on its events. -/
theorem Agrees.run (h : Agrees m o) {es : List MeterEvent} (hc : Conforms tb m.ul m.dl es) :
    ∃ m', Metered.run tb user m es = some ((OwnBuckets.run tb o es).1, m') ∧
      Agrees m' (OwnBuckets.run tb o es).2 := by
  induction es generalizing m o with
  | nil => exact ⟨m, rfl, h⟩
  | cons e es ih =>
    cases e with
    | set ul dl now =>
      obtain ⟨hul, hdl, hc⟩ := hc
      have hrates : (user.set tb m ul dl now).ul = ul ∧ (user.set tb m ul dl now).dl = dl := by
        cases user with
        | qer | session => exact ⟨rfl, rfl⟩
      exact ih (Agrees.set hul hdl) (by rwa [hrates.1, hrates.2])
    | packet direction now pktLen =>
      obtain ⟨hrated, hc⟩ := hc
      obtain ⟨m₁, hpacket, h₁, hul, hdl⟩ := h.packet now pktLen hrated
      simp_all [Metered.run, OwnBuckets.run]

/-- A run of rates being set and packets being checked passes each packet as a bucket with the rate
of its direction alone says; and the next packet is checked so exactly when its direction has a
rate, or neither has. -/
theorem meter_governed (tb : TbParams) (user : MeterUser) (es : List MeterEvent)
    (hc : Conforms tb 0 0 es) :
    ∃ m, Metered.run tb user .start es = some ((OwnBuckets.run tb .start es).1, m) ∧
      ∀ direction now pktLen,
        (∃ m', m.packet direction now pktLen =
          some (((OwnBuckets.run tb .start es).2.packet direction now pktLen).1, m')) ↔
        RatedAlike m.ul m.dl direction := by
  obtain ⟨m, hrun, h⟩ := agrees_start.run hc
  refine ⟨m, hrun, fun direction now pktLen => ⟨fun ⟨m', hm'⟩ => ?_, fun hrated => ?_⟩⟩
  · by_contra hrated
    rw [h.packet_none hrated] at hm'
    cases hm'
  · obtain ⟨m', hm', -⟩ := h.packet now pktLen hrated
    exact ⟨m', hm'⟩

/-- A clock with a period of 100 for every rate. -/
def labTbParams : TbParams := fun _ => (100, 1)

/-- A QER of 1 Mbit/s both ways, a packet up and one down, and the uplink unlimited with it. -/
def labMeterEvents : List MeterEvent :=
  [.set 1000 1000 0, .packet 0 50 1500, .packet 1 60 1500, .set 0 0 70]

theorem meter_governed_lab :
    ∃ m, Metered.run labTbParams .qer .start labMeterEvents =
        some ((OwnBuckets.run labTbParams .start labMeterEvents).1, m) ∧
      ∀ direction now pktLen,
        (∃ m', m.packet direction now pktLen =
          some (((OwnBuckets.run labTbParams .start labMeterEvents).2.packet
            direction now pktLen).1, m')) ↔
        RatedAlike m.ul m.dl direction := by
  refine meter_governed labTbParams .qer labMeterEvents ?_
  refine ⟨inr ⟨by decide, by decide⟩, inr ⟨by decide, by decide⟩, inl (by decide),
    inl (by decide), inl rfl, inl rfl, trivial⟩

/-- A rate for the uplink alone, and a downlink packet. -/
theorem uplink_rate_divides :
    ¬ ∀ (tb : TbParams) (user : MeterUser) (ul dl now : UInt64) (direction : UInt8)
      (later : UInt64) (pktLen : UInt32), (∀ rate, rate ≠ 0 → (tb rate).1 ≠ 0) →
        ((user.set tb .start ul dl now).packet direction later pktLen).map Prod.fst =
          some ((OwnBuckets.set tb ul dl now).packet direction later pktLen).1 := by
  intro h
  have hperiod : ∀ rate, rate ≠ 0 → (labTbParams rate).1 ≠ 0 := by
    intro rate _
    change (100 : UInt64) ≠ 0
    decide
  have hlab := h labTbParams .qer 1000 0 0 1 50 100 hperiod
  revert hlab
  decide

end MmtCore.Upf
