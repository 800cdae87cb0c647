import MmtCore.Ims.Calls

/-!
# Media authorisation over runs

Beside the server stands the list of the calls that are up, each with the services that its media
need.  Which call a request belongs to is a parameter of the list: a dialog is a Call-ID with both
tags (`ofDialog`), or a Call-ID alone (`ofCallID`), as the server has it.  With the second, the
active rules are those that the calls need, as long as a call is not ended beside another of the
subscriber that has media, and a new offer keeps the media of the call.
-/

namespace MmtCore.Ims

open MmtCore.Lib Pcf Function List Option CallServer

/-! ## Calls that are up -/

/-- A call: the subscriber that set it up, and the services that its media need. -/
structure Call where
  callID : Text
  fromTag : Text
  toTag : Text
  imsi : Text
  media : List String
deriving DecidableEq

/-- The tag of a From or To header. -/
def tagOf (h : Text) : Text :=
  match cut ";tag=".toList h with
  | some (_, rest) => rest.takeWhile (· ≠ ';')
  | none => []

namespace Call

variable (c : Call) (req : CallRequest)

def ofCallID : Bool := c.callID = req.callID

/-- The Call-ID and both tags, in either direction; before the answer there is one tag only. -/
def ofDialog : Bool :=
  let fromTag := tagOf req.fromHeader
  let toTag := tagOf req.toHeader
  c.callID = req.callID &&
    (fromTag = c.fromTag && (toTag = c.toTag || toTag = []) ||
      fromTag = c.toTag && toTag = c.fromTag)

end Call

/-- The server, and the calls that are up. -/
structure System where
  server : CallServer
  calls : List Call

inductive CallEvent where
  | invite (req : CallRequest) (regs : Registrar) (toTag : Text)
  | bye (req : CallRequest) (regs : Registrar)
  | cancel (req : CallRequest) (regs : Registrar)
  | ack (req : CallRequest)
  | handleNext (branch : Text)
  | fireTimer (branch : Text)
  | byeEnds (branch : Text)
  /-- The SMF establishes, or releases, the IMS session. -/
  | establish (imsi : Text) (dnn : String)
  | release (imsi : Text)
deriving DecidableEq

namespace System

variable (db : PolicyData) (domain : Text) (belongs : Call → CallRequest → Bool) (s : System)

/-- An answered INVITE gives the media of the call that it belongs to, or sets one up. -/
def answered (req : CallRequest) (regs : Registrar) (d : DialogInfo) : List Call :=
  if s.calls.any (belongs · req) then
    s.calls.map fun c =>
      if belongs c req ∧ req.body ≠ [] then { c with media := servicesOf req.body } else c
  else
    { callID := req.callID, fromTag := tagOf req.fromHeader, toTag := d.toTag,
      imsi := callerIMSI regs req.fromHeader, media := servicesOf req.body } :: s.calls

def ended (req : CallRequest) (done : Bool) : List Call :=
  if done then s.calls.filter fun c => !belongs c req else s.calls

def step : CallEvent → System
  | .invite req regs toTag =>
    match s.server.dispatchInvite db domain req regs toTag with
    | (server, some d) => ⟨server, s.answered belongs req regs d⟩
    | (server, none) => { s with server }
  | .bye req regs =>
    let (server, done) := s.server.dispatchBye db req regs
    ⟨server, s.ended belongs req done⟩
  | .cancel req regs =>
    let (server, done) := s.server.dispatchCancel db req regs
    ⟨server, s.ended belongs req done⟩
  | .ack req => { s with server := s.server.dispatchAck req }
  | .handleNext branch => { s with server := s.server.handleNext branch }
  | .fireTimer branch => { s with server := s.server.fireTimer branch }
  | .byeEnds branch =>
    { s with server := { s.server with byes := update s.server.byes branch false } }
  | .establish imsi dnn =>
    { s with server := { s.server with policy := s.server.policy.create db imsi dnn } }
  | .release imsi => { s with server := { s.server with policy := s.server.policy.delete imsi } }

/-- No session, no call. -/
def start : System where
  server :=
    { dialogs := fun _ => none, invites := fun _ => none, byes := fun _ => false, conferences := 0
      policy := { mgr := ⟨fun _ _ => []⟩, assocs := fun _ => none, told := fun _ _ => false } }
  calls := []

/-! ## The property -/

/-- A call of the subscriber needs the service. -/
def Needs (imsi : Text) (svc : String) : Prop :=
  ∃ c ∈ s.calls, c.imsi = imsi ∧ svc ∈ c.media

/-- INVITE, BYE or CANCEL. -/
def CallEvent.request : CallEvent → Option CallRequest
  | .invite req _ _ | .bye req _ | .cancel req _ => some req
  | _ => none

/-- The step takes no dialog entry away, and no active rule. -/
def TakesNothing (before after : CallServer) : Prop :=
  (∀ id d, before.dialogs id = some d → after.dialogs id = some d) ∧
    ∀ imsi svc, before.policy.Active imsi svc → after.policy.Active imsi svc

/-- The rules that the calls need are active and no others, the SMF of a session knows them, and a
request of no call takes nothing away. -/
structure Follows (ev : CallEvent) : Prop where
  rules : ∀ imsi, imsi ≠ [] → ∀ svc, (s.step db domain belongs ev).server.policy.Active imsi svc ↔
    (s.step db domain belongs ev).Needs imsi svc
  told : (s.step db domain belongs ev).server.policy.Informed db
  foreign : ∀ req ∈ CallEvent.request ev, (∀ c ∈ s.calls, belongs c req = false) →
    TakesNothing s.server (s.step db domain belongs ev).server

/-! ## The condition -/

/-- No call of the subscriber other than that of the request has media. -/
def Alone (req : CallRequest) (regs : Registrar) : Prop :=
  s.server.released req regs ≠ [] →
    ∀ c ∈ s.calls, c.imsi = s.server.released req regs → c.callID ≠ req.callID → c.media = []
  deriving Decidable

/-- A new offer has the media that the call has, an offer to the conference focus has none, a call
is ended beside no other with media, and a session after them. -/
def Orderly : CallEvent → Prop
  | .invite req regs toTag => (s.server.dispatchInvite db domain req regs toTag).2.isSome →
    (isConferenceURI (extractURI req.toHeader) → servicesOf req.body = []) ∧
      ∀ c ∈ s.calls, c.callID = req.callID → req.body ≠ [] → c.media ⊆ servicesOf req.body
  | .bye req regs => (s.server.dispatchBye db req regs).2 = true → s.Alone req regs
  | .cancel req regs => (s.server.dispatchCancel db req regs).2 = true → s.Alone req regs
  | .release imsi => s.server.policy.assocs imsi = some "ims" →
    ∀ c ∈ s.calls, c.imsi = imsi → c.media = []
  | _ => True

instance (ev : CallEvent) : Decidable (s.Orderly db domain ev) :=
  match ev with
  | .invite req _ _ => inferInstanceAs (Decidable (_ = true →
      (_ = true → _ = []) ∧ ∀ c ∈ s.calls, _ = req.callID → _ ≠ [] → ∀ x ∈ _, x ∈ _))
  | .bye req regs => inferInstanceAs (Decidable (_ = true → s.Alone req regs))
  | .cancel req regs => inferInstanceAs (Decidable (_ = true → s.Alone req regs))
  | .release _ => inferInstanceAs (Decidable (_ = some _ → ∀ c ∈ s.calls, _ = _ → _ = []))
  | .ack _ | .handleNext _ | .fireTimer _ | .byeEnds _ | .establish _ _ =>
    inferInstanceAs (Decidable True)

/-! ## The invariant -/

variable {db domain s}

/-- What holds of the server and of the calls by Call-ID. -/
structure Inv (db : PolicyData) (s : System) : Prop where
  settled : s.server.policy.mgr.Settled
  informed : s.server.policy.Informed db
  rules : ∀ imsi, imsi ≠ [] → ∀ svc, s.server.policy.Active imsi svc ↔ s.Needs imsi svc
  linked : ∀ c ∈ s.calls, ∃ d, s.server.dialogs c.callID = some d ∧ d.callerIMSI = c.imsi
  covered : ∀ id d, s.server.dialogs id = some d → ∃ c ∈ s.calls, c.callID = id

/-- Nothing that the invariant is about has changed. -/
theorem Inv.of_same {server : CallServer} (h : s.Inv db)
    (hsame : server.policy = s.server.policy ∧ server.dialogs = s.server.dialogs) :
    Inv db ⟨server, s.calls⟩ where
  settled := by rw [hsame.1]; exact h.settled
  informed := by rw [hsame.1]; exact h.informed
  rules := by rw [hsame.1]; exact h.rules
  linked := by rw [hsame.2]; exact h.linked
  covered := by rw [hsame.2]; exact h.covered

theorem takesNothing_of_same {server : CallServer}
    (hsame : server.policy = s.server.policy ∧ server.dialogs = s.server.dialogs) :
    TakesNothing s.server server :=
  ⟨fun _ _ hd => by rw [hsame.2]; exact hd, fun _ _ ha => by rw [hsame.1]; exact ha⟩

/-! ### INVITE -/

section

variable {req : CallRequest} {regs : Registrar} {server : CallServer} {caller : Text}

/-- The first INVITE of a Call-ID sets a call up. -/
theorem answered_new (h : s.Inv db) (hd : s.server.dialogs req.callID = none) (d : DialogInfo) :
    s.answered Call.ofCallID req regs d =
      { callID := req.callID, fromTag := tagOf req.fromHeader, toTag := d.toTag,
        imsi := callerIMSI regs req.fromHeader, media := servicesOf req.body } :: s.calls := by
  unfold answered
  rw [if_neg]
  intro hany
  obtain ⟨c, hc, hb⟩ := any_eq_true.1 hany
  obtain ⟨d', hd', -⟩ := h.linked c hc
  rw [of_decide_eq_true hb, hd] at hd'
  cases hd'

/-- A later one changes the media. -/
theorem answered_existing (h : s.Inv db) {d₀ : DialogInfo}
    (hd : s.server.dialogs req.callID = some d₀) (d : DialogInfo) :
    s.answered Call.ofCallID req regs d = s.calls.map fun c =>
      if c.ofCallID req = true ∧ req.body ≠ [] then { c with media := servicesOf req.body }
      else c := by
  obtain ⟨c, hc, hid⟩ := h.covered _ _ hd
  unfold answered
  rw [if_pos (any_eq_true.2 ⟨c, hc, decide_eq_true hid⟩)]

section

variable (h : s.Inv db) {dialogs : Text → Option DialogInfo}
  (hin : s.server.AnsweredIn req regs caller dialogs) (d : DialogInfo)
include h hin

/-- The calls after an answered INVITE need what they needed before, and what is offered. -/
theorem needs_answered
    (hsub : ∀ c ∈ s.calls, c.callID = req.callID → req.body ≠ [] → c.media ⊆ servicesOf req.body)
    (imsi : Text) (svc : String) :
    Needs ⟨server, s.answered Call.ofCallID req regs d⟩ imsi svc ↔
      s.Needs imsi svc ∨ imsi = caller ∧ svc ∈ servicesOf req.body := by
  unfold Needs
  cases hin with
  | new d₀ hd _ hcaller =>
    rw [answered_new h hd]
    simp only [List.mem_cons, exists_eq_or_imp, ← hcaller]
    rw [or_comm, eq_comm (a := caller)]
  | existing d₀ hd hcaller =>
    rw [answered_existing h hd]
    simp only [List.mem_map]
    constructor
    · rintro ⟨c', ⟨c, hc, rfl⟩, himsi, hsvc⟩
      split at himsi
      · case isTrue hb =>
        obtain ⟨d', hd', hd'c⟩ := h.linked c hc
        rw [of_decide_eq_true hb.1, hd] at hd'
        simp_all
      · grind
    · have hbody : ∀ {x : String}, x ∈ servicesOf req.body → req.body ≠ [] := by
        intro x hx hnil
        rw [hnil] at hx
        cases hx
      rintro (⟨c, hc, himsi, hsvc⟩ | ⟨himsi, hsvc⟩)
      · refine ⟨_, ⟨c, hc, rfl⟩, ?_, ?_⟩
        · split <;> exact himsi
        · split
          · case isTrue hb => exact hsub c hc (of_decide_eq_true hb.1) hb.2 hsvc
          · exact hsvc
      · obtain ⟨c, hc, hid⟩ := h.covered _ _ hd
        obtain ⟨d', hd', hd'c⟩ := h.linked c hc
        rw [hid, hd] at hd'
        cases hd'
        have hb : c.ofCallID req = true ∧ req.body ≠ [] := ⟨decide_eq_true hid, hbody hsvc⟩
        grind

theorem linked_answered : (∀ c ∈ s.answered Call.ofCallID req regs d,
        ∃ d, dialogs c.callID = some d ∧ d.callerIMSI = c.imsi) ∧
      ∀ id d', dialogs id = some d' →
        ∃ c ∈ s.answered Call.ofCallID req regs d, c.callID = id := by
  cases hin with
  | new d₀ hd hd₀ hcaller =>
    rw [answered_new h hd]
    constructor
    · intro c hc
      rcases mem_cons.1 hc with rfl | hc
      · exact ⟨d₀, update_self .., hd₀.trans hcaller⟩
      · obtain ⟨d', hd', hd'c⟩ := h.linked c hc
        grind
    · intro id d' hd'
      by_cases hid : id = req.callID
      · exact ⟨_, mem_cons_self, hid.symm⟩
      · rw [update_of_ne hid] at hd'
        obtain ⟨c, hc, hcid⟩ := h.covered id d' hd'
        exact ⟨c, mem_cons_of_mem _ hc, hcid⟩
  | existing d₀ hd _ =>
    rw [answered_existing h hd]
    constructor
    · intro c' hc'
      obtain ⟨c, hc, rfl⟩ := mem_map.1 hc'
      split <;> exact h.linked c hc
    · intro id d' hd'
      obtain ⟨c, hc, hcid⟩ := h.covered id d' hd'
      refine ⟨_, mem_map.2 ⟨c, hc, rfl⟩, ?_⟩
      split <;> exact hcid

end

theorem Inv.invite (h : s.Inv db) {toTag : Text}
    (ho : s.Orderly db domain (.invite req regs toTag)) :
    (s.step db domain Call.ofCallID (.invite req regs toTag)).Inv db ∧
      ((∀ c ∈ s.calls, c.ofCallID req = false) → TakesNothing s.server
        (s.step db domain Call.ofCallID (.invite req regs toTag)).server) := by
  have hcases := @CallServer.dispatchInvite_cases db domain s.server req regs toTag
  unfold Orderly at ho
  unfold step
  dsimp only at ho ⊢
  generalize s.server.dispatchInvite db domain req regs toTag = r at hcases ho ⊢
  obtain ⟨server, ans⟩ := r
  obtain ⟨rfl, hsame⟩ | ⟨d, caller, rfl, hin, hpol⟩ := hcases
  · exact ⟨h.of_same hsame, fun _ => takesNothing_of_same hsame⟩
  obtain ⟨hconf, hsub⟩ := ho rfl
  have hneeds := @needs_answered _ _ _ _ server _ h _ hin d hsub
  have hlinked := linked_answered h hin d
  -- what is active, however the media are authorised
  have hactive : ∀ imsi, imsi ≠ [] → ∀ svc, server.policy.Active imsi svc ↔
      s.server.policy.Active imsi svc ∨ imsi = caller ∧ svc ∈ servicesOf req.body := by
    intro imsi hi svc
    obtain ⟨hfocus, hpol⟩ | hpol := hpol
    · rw [hpol, hconf hfocus]
      simp
    · rw [hpol]
      by_cases hskip : caller = [] ∨ req.body = []
      · unfold authorizeMediaFromSDP
        rw [if_pos hskip]
        refine (or_iff_left ?_).symm
        rintro ⟨rfl, hsvc⟩
        rcases hskip with hc | hb
        · exact hi hc
        · rw [hb] at hsvc
          cases hsvc
      · rw [not_or] at hskip
        exact active_authorizeMedia h.settled hskip.1 hskip.2
  have hpolicy : server.policy.mgr.Settled ∧ server.policy.Informed db := by
    obtain ⟨-, hpol⟩ | hpol := hpol
    · rw [hpol]
      exact ⟨h.settled, h.informed⟩
    · rw [hpol]
      exact ⟨settled_authorizeMedia h.settled, informed_authorizeMedia h.settled h.informed⟩
  refine ⟨⟨hpolicy.1, hpolicy.2, ?_, hlinked.1, hlinked.2⟩, fun hforeign => ⟨?_, ?_⟩⟩
  · intro imsi hi svc
    exact (hactive imsi hi svc).trans ((or_congr_left (h.rules imsi hi svc)).trans
      (hneeds imsi svc).symm)
  · intro id d' hd'
    obtain ⟨c, hc, hid⟩ := h.covered id d' hd'
    exact hin.keeps (hid ▸ of_decide_eq_false (hforeign c hc)) hd'
  · intro imsi svc ha
    obtain ⟨-, hpol⟩ | hpol := hpol
    · rw [hpol]
      exact ha
    · rw [hpol]
      by_cases hskip : caller = [] ∨ req.body = []
      · unfold authorizeMediaFromSDP
        rw [if_pos hskip]
        exact ha
      · rw [not_or] at hskip
        exact (active_authorizeMedia h.settled hskip.1 hskip.2).2 (.inl ha)

/-! ### BYE and CANCEL -/

theorem Inv.ended (h : s.Inv db) {r : CallServer × Bool}
    (hr : CallServer.Ends db s.server req regs r) (ho : r.2 = true → s.Alone req regs) :
    Inv db ⟨r.1, s.ended Call.ofCallID req r.2⟩ ∧
      ((∀ c ∈ s.calls, c.ofCallID req = false) → TakesNothing s.server r.1) := by
  obtain ⟨server, done⟩ := r
  obtain ⟨hdone, hsame⟩ | ⟨hdone, hpol, hdia⟩ := hr
  · subst hdone hsame
    exact ⟨h, fun _ => takesNothing_of_same ⟨rfl, rfl⟩⟩
  subst hdone
  have ho := ho rfl
  rw [releaseCall_policy] at hpol
  rw [releaseCall_dialogs] at hdia
  have hmem : ∀ c, c ∈ s.ended Call.ofCallID req true ↔ c ∈ s.calls ∧ c.callID ≠ req.callID := by
    intro c
    unfold System.ended Call.ofCallID
    rw [if_pos rfl, mem_filter]
    simp
  have hactive : ∀ imsi svc, server.policy.Active imsi svc ↔
      s.server.policy.Active imsi svc ∧
        (s.server.released req regs ≠ [] → imsi ≠ s.server.released req regs) := by
    intro imsi svc
    rw [hpol]
    by_cases hrel : s.server.released req regs = []
    · unfold releaseMedia
      rw [if_pos hrel]
      simp [hrel]
    · rw [active_releaseMedia hrel]
      simp [hrel]
  -- the calls of the Call-ID are the released subscriber's
  have hown : ∀ c ∈ s.calls, c.callID = req.callID → c.imsi = s.server.released req regs := by
    intro c hc hid
    obtain ⟨d, hd, hdc⟩ := h.linked c hc
    unfold released
    rw [← hid, hd]
    exact hdc.symm
  refine ⟨⟨?_, ?_, ?_, ?_, ?_⟩, fun hforeign => ⟨?_, ?_⟩⟩
  · rw [hpol]
    exact settled_releaseMedia h.settled
  · rw [hpol]
    exact informed_releaseMedia h.informed
  · intro imsi hi svc
    rw [hactive, h.rules imsi hi svc]
    unfold Needs
    constructor
    · grind
    · rintro ⟨c, hc, himsi, hsvc⟩
      obtain ⟨hc, hid⟩ := (hmem c).1 hc
      refine ⟨⟨c, hc, himsi, hsvc⟩, fun hrel heq => ?_⟩
      rw [ho hrel c hc (himsi.trans heq) hid] at hsvc
      exact absurd hsvc not_mem_nil
  · intro c hc
    obtain ⟨hc, hid⟩ := (hmem c).1 hc
    obtain ⟨d, hd, hdc⟩ := h.linked c hc
    exact ⟨d, by rw [hdia, update_of_ne hid]; exact hd, hdc⟩
  · intro id d hd
    by_cases hid : id = req.callID
    · rw [hdia, hid, update_self] at hd
      cases hd
    · rw [hdia, update_of_ne hid] at hd
      obtain ⟨c, hc, hcid⟩ := h.covered id d hd
      exact ⟨c, (hmem c).2 ⟨hc, hcid ▸ hid⟩, hcid⟩
  · intro id d hd
    obtain ⟨c, hc, hcid⟩ := h.covered id d hd
    have hne : id ≠ req.callID := hcid ▸ of_decide_eq_false (hforeign c hc)
    rw [hdia, update_of_ne hne]
    exact hd
  · intro imsi svc ha
    refine (hactive imsi svc).2 ⟨ha, fun hrel heq => ?_⟩
    obtain ⟨c, hc, himsi, hsvc⟩ := (h.rules imsi (heq ▸ hrel) svc).1 ha
    rw [ho hrel c hc (himsi.trans heq) (of_decide_eq_false (hforeign c hc))] at hsvc
    exact absurd hsvc not_mem_nil

end

/-! ### The other steps -/

theorem Inv.create (h : s.Inv db) (imsi : Text) (dnn : String) :
    (s.step db domain Call.ofCallID (.establish imsi dnn)).Inv db where
  settled := by unfold step; dsimp only; rw [Policy.create_mgr]; exact h.settled
  informed := h.informed.create dnn
  rules i hi svc := by
    unfold step Policy.Active
    dsimp only
    rw [Policy.create_mgr]
    exact h.rules i hi svc
  linked := h.linked
  covered := h.covered

theorem Inv.delete (h : s.Inv db) {imsi : Text} (ho : s.Orderly db domain (.release imsi)) :
    (s.step db domain Call.ofCallID (.release imsi)).Inv db where
  settled := Policy.settled_delete h.settled
  informed := h.informed.delete
  rules i hi svc := by
    unfold step
    dsimp only
    rw [Policy.active_delete, h.rules i hi svc]
    refine and_iff_left_of_imp fun hneeds hgone => ?_
    obtain ⟨c, hc, himsi, hsvc⟩ := hneeds
    rw [ho hgone.2 c hc (himsi.trans hgone.1)] at hsvc
    exact absurd hsvc not_mem_nil
  linked := h.linked
  covered := h.covered

theorem inv_start : start.Inv db where
  settled := by intro i d r hr; cases hr
  informed := by intro i svc _ ha; cases ha
  rules := by
    intro imsi _ svc
    refine iff_of_false (fun ha => ?_) (fun hn => ?_)
    · exact absurd ha (by simp [start, Policy.Active, PccRuleManager.getActiveServiceNames])
    · obtain ⟨c, hc, -⟩ := hn
      cases hc
  linked := by intro c hc; cases hc
  covered := by intro id d hd; cases hd

theorem Inv.step (h : s.Inv db) {ev : CallEvent} (ho : s.Orderly db domain ev) :
    s.Follows db domain Call.ofCallID ev ∧ (s.step db domain Call.ofCallID ev).Inv db := by
  suffices hs : (s.step db domain Call.ofCallID ev).Inv db ∧
      ∀ req ∈ CallEvent.request ev, (∀ c ∈ s.calls, c.ofCallID req = false) →
        TakesNothing s.server (s.step db domain Call.ofCallID ev).server from
    ⟨⟨hs.1.rules, hs.1.informed, hs.2⟩, hs.1⟩
  cases ev with
  | invite req regs toTag =>
    obtain ⟨hinv, hforeign⟩ := h.invite ho
    exact ⟨hinv, fun _ hreq => some.inj hreq ▸ hforeign⟩
  | bye req regs =>
    obtain ⟨hinv, hforeign⟩ := h.ended dispatchBye_ends ho
    exact ⟨hinv, fun _ hreq => some.inj hreq ▸ hforeign⟩
  | cancel req regs =>
    obtain ⟨hinv, hforeign⟩ := h.ended dispatchCancel_ends ho
    exact ⟨hinv, fun _ hreq => some.inj hreq ▸ hforeign⟩
  | ack req => exact ⟨h.of_same dispatchAck_same, by simp [CallEvent.request]⟩
  | handleNext branch =>
    exact ⟨h.of_same (handleNext_same branch), by simp [CallEvent.request]⟩
  | fireTimer branch =>
    exact ⟨h.of_same (fireTimer_same branch), by simp [CallEvent.request]⟩
  | byeEnds branch => exact ⟨h.of_same ⟨rfl, rfl⟩, by simp [CallEvent.request]⟩
  | establish imsi dnn => exact ⟨h.create imsi dnn, by simp [CallEvent.request]⟩
  | release imsi => exact ⟨h.delete ho, by simp [CallEvent.request]⟩

/-! ## Main results -/

/-- Both services are bound to every subscriber. -/
def bothServices : PolicyData where
  bindings := fun _ _ => [⟨"conv_voice", false⟩, ⟨"conv_video", false⟩]
  services := ["conv_voice", "conv_video"]

def alice : Text := ['0', '0', '1']

def uri (user : Char) : Text := ['s', 'i', 'p', ':', user]

def inRegister : Registrar := [(uri 'a', alice ++ ['@', 'i']), (uri 'b', ['0', '0', '2', '@', 'i'])]

def offer (type : Text) : Text := ['m', '='] ++ type ++ [' ', '9', ' ', 'R', ' ', '0', '\n']

/-- A request of `a` to `b`, with its tag and that of the answer. -/
def request (branch fromTag : Char) (toTag body : Text) : CallRequest where
  via := ['h', ';'] ++ "branch=".toList ++ [branch]
  callID := ['1']
  fromHeader := ['<'] ++ uri 'a' ++ ['>'] ++ ";tag=".toList ++ [fromTag]
  toHeader := ['<'] ++ uri 'b' ++ ['>'] ++ toTag
  body := body

/-- A call is set up, gets video by a second offer, and ends. -/
def callWithVideo : List CallEvent :=
  [.establish alice "ims",
   .invite (request 'x' 'f' [] (offer "audio".toList)) inRegister ['t'],
   .handleNext ['x'],
   .invite (request 'y' 'f' (";tag=".toList ++ ['t'])
     (offer "audio".toList ++ offer "video".toList)) inRegister ['u'],
   .bye (request 'z' 'f' (";tag=".toList ++ ['t']) []) inRegister]

/-- Somebody else's BYE names the call by its Call-ID only. -/
def foreignBye : List CallEvent :=
  callWithVideo.take 2 ++
    [.bye (request 'z' 'g' (";tag=".toList ++ ['v']) []) inRegister]

end System

end MmtCore.Ims
