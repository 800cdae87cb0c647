import MmtCore.Lib.Reach
import MmtCore.Sip.ServerTxn

/-!
# Server transactions over runs

What the transactions of a server send, what they are handed, who is dropped from the table and how
they end, whatever the order of events.  A response is final or not by its status code, `isFinal`.
-/

namespace MmtCore.Sip

open MmtCore.Lib List Option NonInviteServerTxn Server

variable {ρ : Type} (isFinal : ρ → Bool)

/-- Once a final response is there, every later one is that same response. -/
def FinalOnce (sent : List ρ) : Prop :=
  ∀ a x b, sent = a ++ x :: b → isFinal x = true → ∀ y ∈ b, y = x

/-- The host and port that a Via header says the request was sent by. -/
def sentBy (via : Bytes) : Bytes :=
  match cut [32] (trimBlanks ((split [59] via).headD [])) with
  | none => []
  | some (_, host) => trimBlanks host

/-- The request is a retransmission of the transaction's own, or the ACK that belongs to it. -/
def Matches (own req : Request) : Prop :=
  extractBranch own.via = extractBranch req.via ∧ sentBy own.via = sentBy req.via ∧
    own.method = if req.method = txt "ACK" then txt "INVITE" else req.method

namespace Server

/-- What is promised of a step. -/
structure Sound (s : Server ρ) (e : ServerInput ρ) : Prop where
  final_once : ∀ r t, (s.step e).txn r = some t → FinalOnce isFinal t.sent
  matched : ∀ k req r, e = .dispatch k req → s.matched req = some r →
    ∃ t ∈ s.txn r, Matches t.request req
  /-- Only a transaction itself, by an event of its own, leaves the table. -/
  kept : ∀ key r, s.table.lookup key = some r →
    (s.step e).table.lookup key = some r ∨ ∃ ev, e = .event r ev
  /-- … or is stopped. -/
  running : ∀ r t, (s.step e).txn r = some t → t.done = true →
    (∃ t₀ ∈ s.txn r, t₀.done = true) ∨ ∃ ev, e = .event r ev
  /-- Termination is reported as often as it has completed, which is once or not yet. -/
  completes : ∀ r t, (s.step e).txn r = some t →
    t.waitsFor = none ∧ t.reports = if t.machine.terminated then 1 else 0

/-- A 1xx is sent as such, and once a response is kept for retransmission no other comes after
it. -/
def RespKeeps : TxnMachine ρ → TxnEvent ρ → Prop
  | .invite t, .invite ev => ∀ x ∈ ev.resp,
    (ev.isProvisional = true → isFinal x = false) ∧ (t.state = .completed → t.lastResp = some x)
  | .nonInvite t, .nonInvite ev => ∀ x ∈ ev.resp,
    (ev.isProvisional = true → isFinal x = false) ∧ (t.state = .completed → t.lastResp = some x)
  | _, _ => True

/-- A request that finds a transaction comes from where that one came from; a transaction is added
under a key that is free, and ends when nothing is left under the key that it removes. -/
def Keeps (s : Server ρ) : ServerInput ρ → Prop
  | .dispatch _ req => ∀ r ∈ s.matched req, ∀ t ∈ s.txn r,
    sentBy t.request.via = sentBy req.via ∧
      extractBranch req.via = extractBranchFromVia req.via
  | .openTxn k r reliable => ∀ req ∈ s.opening k, s.txn r = none →
    s.table.lookup (fresh req reliable : ServerTxn ρ).key = none
  | .event r ev => ∀ t ∈ s.txn r, RespKeeps isFinal t.machine ev ∧
    ((t.machine.effects ev).2 = true → s.table.lookup t.callback = none)
  | .exit _ | .resume _ => True

instance [DecidableEq ρ] (m : TxnMachine ρ) (ev : TxnEvent ρ) :
    Decidable (RespKeeps isFinal m ev) :=
  match m, ev with
  | .invite _, .invite ev => inferInstanceAs (Decidable (∀ x ∈ ev.resp, (_ → _) ∧ (_ → _)))
  | .nonInvite _, .nonInvite ev => inferInstanceAs (Decidable (∀ x ∈ ev.resp, (_ → _) ∧ (_ → _)))
  | .invite _, .nonInvite _ | .nonInvite _, .invite _ => inferInstanceAs (Decidable True)

instance [DecidableEq ρ] (s : Server ρ) (e : ServerInput ρ) : Decidable (s.Keeps isFinal e) :=
  match e with
  | .dispatch _ req => inferInstanceAs (Decidable (∀ r ∈ s.matched req, ∀ t ∈ s.txn r, _ ∧ _))
  | .openTxn k r reliable => inferInstanceAs (Decidable (∀ req ∈ s.opening k, s.txn r = none →
      s.table.lookup (fresh req reliable : ServerTxn ρ).key = none))
  | .event r ev => inferInstanceAs (Decidable (∀ t ∈ s.txn r, RespKeeps isFinal t.machine ev ∧
      ((t.machine.effects ev).2 = true → s.table.lookup t.callback = none)))
  | .exit _ | .resume _ => inferInstanceAs (Decidable True)

end Server

/-! ## What is sent -/

/-- Nothing final has been sent. -/
def NoneFinal (sent : List ρ) : Prop := ∀ x ∈ sent, isFinal x = false

/-- What is sent again is the final response, if one has been sent. -/
def KeepsFinal (sent : List ρ) (last : Option ρ) : Prop :=
  ∀ x ∈ sent, isFinal x = true → last = some x

section

variable {isFinal} {sent : List ρ} {last : Option ρ}

theorem mem_sendLast {x : ρ} : x ∈ sendLast last ↔ last = some x := by
  cases last with
  | none => simp [sendLast]
  | some y => simp [sendLast, eq_comm]

theorem NoneFinal.append (h : NoneFinal isFinal sent) (hlast : ∀ x ∈ last, isFinal x = false) :
    NoneFinal isFinal (sent ++ sendLast last) := by
  intro x hx
  rcases mem_append.mp hx with hx | hx
  · exact h x hx
  · exact hlast x (mem_sendLast.mp hx)

theorem NoneFinal.keepsFinal (h : NoneFinal isFinal sent) : KeepsFinal isFinal sent last := by
  intro x hx hfinal
  rw [h x hx] at hfinal
  cases hfinal

theorem KeepsFinal.append (h : KeepsFinal isFinal sent last) :
    KeepsFinal isFinal (sent ++ sendLast last) last := by
  intro x hx hfinal
  rcases mem_append.mp hx with hx | hx
  · exact h x hx hfinal
  · exact mem_sendLast.mp hx

/-- Sending the response that is kept is sending the same one. -/
theorem FinalOnce.append (h : FinalOnce isFinal sent) (hkeeps : KeepsFinal isFinal sent last) :
    FinalOnce isFinal (sent ++ sendLast last) := by
  intro a x b hsplit hfinal y hy
  rcases append_eq_append_iff.mp hsplit with ⟨c, hc, hlast⟩ | ⟨c, hsent, hb⟩
  · -- `x` is the response that is sent now
    cases last with
    | none =>
      have hcons := congrArg length hlast
      simp [sendLast] at hcons
    | some z =>
      grind [sendLast, length_cons]
  · cases c with
    | nil =>
      cases last with
      | none => cases hb
      | some z =>
        obtain ⟨-, rfl⟩ := cons.inj hb
        cases hy
    | cons x' c =>
      obtain ⟨rfl, rfl⟩ := cons.inj hb
      rcases mem_append.mp hy with hy | hy
      · exact h a x c hsent hfinal y hy
      · have hx : last = some x := hkeeps x (hsent ▸ by simp) hfinal
        exact some.inj ((mem_sendLast.mp hy).symm.trans hx)

theorem NoneFinal.finalOnce (h : NoneFinal isFinal sent) : FinalOnce isFinal sent := by
  intro a x b hsplit hfinal
  rw [h x (hsplit ▸ by simp)] at hfinal
  cases hfinal

end

/-- How far a transaction is: before a final response, keeping it, or past it. -/
inductive Phase
  | before
  | keeping
  | past

/-- What has been sent by then, and what is sent again. -/
def Phase.OK (sent : List ρ) (last : Option ρ) : Phase → Prop
  | .before => NoneFinal isFinal sent ∧ ∀ x ∈ last, isFinal x = false
  | .keeping => FinalOnce isFinal sent ∧ KeepsFinal isFinal sent last
  | .past => FinalOnce isFinal sent

/-- Where an event may lead that brings the response `resp`, when `last` is sent again and `out` is
sent: before a final response only with one that is not final, and past it nothing is sent. -/
inductive Phase.Leads (resp last : Option ρ) : List ρ → Phase → Phase → Prop
  | stays {out : List ρ} (hresp : ∀ x ∈ resp, isFinal x = false)
      (hout : out = [] ∨ out = sendLast last) : Leads resp last out .before .before
  | answers : Leads resp last (sendLast last) .before .keeping
  | ends {out : List ρ} (hout : out = [] ∨ out = sendLast last) : Leads resp last out .before .past
  | repeats {out : List ρ} {q : Phase} (hout : out = [] ∨ out = sendLast last)
      (hq : q = .keeping ∨ q = .past) : Leads resp last out .keeping q
  | rests : Leads resp last [] .past .past

def ISState.phase : ISState → Phase
  | .proceeding => .before
  | .completed => .keeping
  | .confirmed | .terminated => .past

def NISState.phase : NISState → Phase
  | .trying | .proceeding => .before
  | .completed => .keeping
  | .terminated => .past

section

variable {isFinal} {sent out : List ρ} {last resp : Option ρ} {p q : Phase}

theorem Phase.OK.finalOnce (h : p.OK isFinal sent last) : FinalOnce isFinal sent := by
  cases p with
  | before => exact h.1.finalOnce
  | keeping => exact h.1
  | past => exact h

/-- While a response is kept no other may come. -/
theorem Phase.OK.leads (h : p.OK isFinal sent last)
    (hkept : p = .keeping → ∀ x ∈ resp, last = some x)
    (hleads : Leads isFinal resp (resp.or last) out p q) :
    q.OK isFinal (sent ++ out) (resp.or last) := by
  cases hleads with
  | stays hresp hout =>
    have hlast : ∀ x ∈ resp.or last, isFinal x = false := by
      cases resp with
      | none => exact h.2
      | some x => exact hresp
    refine ⟨?_, hlast⟩
    rcases hout with rfl | rfl
    · rw [append_nil]
      exact h.1
    · exact h.1.append hlast
  | answers => exact ⟨h.1.finalOnce.append h.1.keepsFinal, h.1.keepsFinal.append⟩
  | ends hout =>
    rcases hout with rfl | rfl
    · rw [append_nil]
      exact h.1.finalOnce
    · exact h.1.finalOnce.append h.1.keepsFinal
  | repeats hout hq =>
    have hsame : resp.or last = last := by
      cases resp with
      | none => rfl
      | some x => exact (hkept rfl x rfl).symm
    have hagain : FinalOnce isFinal (sent ++ out) ∧ KeepsFinal isFinal (sent ++ out) last := by
      rcases hout with rfl | rfl
      · rw [append_nil]
        exact h
      · rw [hsame]
        exact ⟨h.1.append h.2, h.2.append⟩
    rw [hsame]
    rcases hq with rfl | rfl
    · exact hagain
    · exact hagain.1
  | rests =>
    rw [append_nil]
    exact h

end

/-- What a transaction has sent, by the state it is in. -/
def InviteServerTxn.OK (t : InviteServerTxn ρ) (sent : List ρ) : Prop :=
  t.state.phase.OK isFinal sent t.lastResp

def NonInviteServerTxn.OK (t : NonInviteServerTxn ρ) (sent : List ρ) : Prop :=
  t.state.phase.OK isFinal sent t.lastResp

section

variable {isFinal} {sent : List ρ}

namespace InviteServerTxn

variable {t : InviteServerTxn ρ} {ev : ISEvent ρ}

theorem store_state (t : InviteServerTxn ρ) (ev : ISEvent ρ) : (t.store ev).state = t.state := by
  unfold store
  split <;> rfl

theorem store_lastResp (t : InviteServerTxn ρ) (ev : ISEvent ρ) :
    (t.store ev).lastResp = ev.resp.or t.lastResp := by
  unfold store
  cases ev.resp <;> rfl

/-- The machine after the action. -/
def after (t : InviteServerTxn ρ) (ev : ISEvent ρ) : InviteServerTxn ρ :=
  { t.touched ev with state := ((t.store ev).action ev).next.getD t.state }

theorem after_lastResp : (t.after ev).lastResp = ev.resp.or t.lastResp := by
  change (t.touched ev).lastResp = _
  unfold touched
  split <;> exact store_lastResp t _

theorem leads (hk : ∀ x ∈ ev.resp, ev.isProvisional = true → isFinal x = false) :
    Phase.Leads isFinal ev.resp (t.store ev).lastResp ((t.store ev).action ev).sent
      t.state.phase (t.after ev).state.phase := by
  have hstate : (t.after ev).state = ((t.store ev).action ev).next.getD t.state := rfl
  rw [hstate]
  unfold action
  rw [store_state]
  cases hs : t.state with
  | proceeding =>
    cases ev with
    | sendProvisional resp => exact .stays (fun x hx => hk x hx rfl) (.inr rfl)
    | send2xx resp => exact .ends (.inr rfl)
    | sendFinalErr resp => exact .answers
    | retransmitReq => exact .stays nofun (.inr rfl)
    | transportErr => exact .ends (.inl rfl)
    | ack | timerG | timerH | timerI => exact .stays nofun (.inl rfl)
  | completed =>
    cases ev with
    | timerG | retransmitReq => exact .repeats (.inr rfl) (.inl rfl)
    | ack =>
      simp only [onCompleted]
      split <;> exact .repeats (.inl rfl) (.inr rfl)
    | timerH | transportErr => exact .repeats (.inl rfl) (.inr rfl)
    | sendProvisional | send2xx | sendFinalErr | timerI => exact .repeats (.inl rfl) (.inl rfl)
  | confirmed => cases ev <;> exact .rests
  | terminated => exact .rests

theorem OK.step (h : t.OK isFinal sent) (hk : Server.RespKeeps isFinal (.invite t) (.invite ev)) :
    (t.after ev).OK isFinal (sent ++ ((t.store ev).action ev).sent) := by
  have hleads := leads (t := t) fun x hx => (hk x hx).1
  rw [store_lastResp] at hleads
  rw [OK, after_lastResp]
  refine Phase.OK.leads h (fun hp x hx => (hk x hx).2 ?_) hleads
  cases hs : t.state <;> simp_all [ISState.phase]

/-- The handler calls `OnTerminated` exactly when it moves to Terminated. -/
theorem terminates_iff (t : InviteServerTxn ρ) (ev : ISEvent ρ) :
    ((t.store ev).action ev).terminates = true ↔
      t.state ≠ .terminated ∧ (t.after ev).state = .terminated := by
  have hstate : (t.after ev).state = ((t.store ev).action ev).next.getD t.state := rfl
  rw [hstate]
  unfold action
  rw [store_state]
  cases hs : t.state with
  | proceeding => cases ev <;> simp [onProceeding, terminate]
  | completed =>
    cases ev with
    | ack =>
      simp only [onCompleted]
      split <;> simp [terminate]
    | _ => simp [onCompleted, terminate]
  | confirmed => cases ev <;> simp [onConfirmed, terminate]
  | terminated => simp

end InviteServerTxn

namespace NonInviteServerTxn

variable {t : NonInviteServerTxn ρ} {ev : NISEvent ρ}

theorem store_state (t : NonInviteServerTxn ρ) (ev : NISEvent ρ) :
    (t.store ev).state = t.state := by
  unfold store
  split <;> rfl

/-- The machine after the action. -/
def after (t : NonInviteServerTxn ρ) (ev : NISEvent ρ) : NonInviteServerTxn ρ :=
  { t.store ev with state := ((t.store ev).action ev).next.getD t.state }

theorem store_lastResp (t : NonInviteServerTxn ρ) (ev : NISEvent ρ) :
    (t.store ev).lastResp = ev.resp.or t.lastResp := by
  unfold store
  cases ev.resp <;> rfl

theorem leads (hk : ∀ x ∈ ev.resp, ev.isProvisional = true → isFinal x = false) :
    Phase.Leads isFinal ev.resp (t.store ev).lastResp ((t.store ev).action ev).sent
      t.state.phase (t.after ev).state.phase := by
  have hstate : (t.after ev).state = ((t.store ev).action ev).next.getD t.state := rfl
  -- a final response is kept for retransmission, or the transaction is over
  have hfinal (u : NonInviteServerTxn ρ) {resp last : Option ρ} {s} : Phase.Leads isFinal resp last
      (u.goCompleted (sendLast last)).sent .before
        ((u.goCompleted (sendLast last)).next.getD s).phase := by
    unfold goCompleted
    split
    · exact .ends (.inr rfl)
    · exact .answers
  rw [hstate]
  unfold action
  rw [store_state]
  cases hs : t.state with
  | trying =>
    cases ev with
    | sendProvisional resp => exact .stays (fun x hx => hk x hx rfl) (.inr rfl)
    | sendFinal resp => exact hfinal _
    | retransmitReq | timerJ => exact .stays nofun (.inl rfl)
    | transportErr => exact .ends (.inl rfl)
  | proceeding =>
    cases ev with
    | sendProvisional resp => exact .stays (fun x hx => hk x hx rfl) (.inr rfl)
    | sendFinal resp => exact hfinal _
    | retransmitReq => exact .stays nofun (.inr rfl)
    | timerJ => exact .stays nofun (.inl rfl)
    | transportErr => exact .ends (.inl rfl)
  | completed =>
    cases ev with
    | retransmitReq => exact .repeats (.inr rfl) (.inl rfl)
    | timerJ | transportErr => exact .repeats (.inl rfl) (.inr rfl)
    | sendProvisional | sendFinal => exact .repeats (.inl rfl) (.inl rfl)
  | terminated => exact .rests

theorem OK.step (h : t.OK isFinal sent)
    (hk : Server.RespKeeps isFinal (.nonInvite t) (.nonInvite ev)) :
    (t.after ev).OK isFinal (sent ++ ((t.store ev).action ev).sent) := by
  have hleads := leads (t := t) fun x hx => (hk x hx).1
  have hlast : (t.after ev).lastResp = _ := t.store_lastResp ev
  rw [store_lastResp] at hleads
  rw [OK, hlast]
  refine Phase.OK.leads h (fun hp x hx => (hk x hx).2 ?_) hleads
  cases hs : t.state <;> simp_all [NISState.phase]

theorem terminates_iff (t : NonInviteServerTxn ρ) (ev : NISEvent ρ) :
    ((t.store ev).action ev).terminates = true ↔
      t.state ≠ .terminated ∧ (t.after ev).state = .terminated := by
  have hstate : (t.after ev).state = ((t.store ev).action ev).next.getD t.state := rfl
  rw [hstate]
  unfold action
  rw [store_state]
  cases hs : t.state with
  | trying =>
    cases ev with
    | sendFinal resp =>
      simp only [onTrying, goCompleted]
      split <;> simp [terminate]
    | _ => simp [onTrying, terminate]
  | proceeding =>
    cases ev with
    | sendFinal resp =>
      simp only [onProceeding, goCompleted]
      split <;> simp [terminate]
    | _ => simp [onProceeding, terminate]
  | completed => cases ev <;> simp [onCompleted, terminate]
  | terminated => simp

end NonInviteServerTxn

end

/-! ## The invariant -/

/-- What a machine has sent, by the state it is in. -/
def TxnMachine.OK (sent : List ρ) : TxnMachine ρ → Prop
  | .invite t => t.OK isFinal sent
  | .nonInvite t => t.OK isFinal sent

/-- A transaction whose loop runs freely. -/
structure ServerTxn.OK (t : ServerTxn ρ) : Prop where
  machine : t.machine.OK isFinal t.sent
  done : t.done = false
  waitsFor : t.waitsFor = none
  reports : t.reports = if t.machine.terminated then 1 else 0
  /-- The key has the method of the request. -/
  method : t.key.2 = t.request.method

structure Server.Inv (s : Server ρ) : Prop where
  ok : ∀ r t, s.txn r = some t → t.OK isFinal
  table : ∀ key r, s.table.lookup key = some r → ∃ t ∈ s.txn r, t.key = key

section

variable {isFinal} {sent : List ρ}
variable {m : TxnMachine ρ}

theorem TxnMachine.OK.finalOnce (h : m.OK isFinal sent) : FinalOnce isFinal sent := by
  cases m with
  | invite t => exact Phase.OK.finalOnce h
  | nonInvite t => exact Phase.OK.finalOnce h

theorem TxnMachine.OK.handle {ev : TxnEvent ρ} (h : m.OK isFinal sent)
    (hk : Server.RespKeeps isFinal m ev) : (m.handle ev).OK isFinal (sent ++ (m.effects ev).1) := by
  have hother : m.handle ev = m → (m.effects ev).1 = [] →
      (m.handle ev).OK isFinal (sent ++ (m.effects ev).1) := by
    intro hm hsent
    rw [hm, hsent, append_nil]
    exact h
  cases m with
  | invite t =>
    cases ev with
    | invite ev => exact InviteServerTxn.OK.step h hk
    | nonInvite ev => exact hother rfl rfl
  | nonInvite t =>
    cases ev with
    | invite ev => exact hother rfl rfl
    | nonInvite ev => exact NonInviteServerTxn.OK.step h hk

/-- The machine is over once `OnTerminated` has been called, and stays so. -/
theorem TxnMachine.effects_iff (m : TxnMachine ρ) (ev : TxnEvent ρ) :
    (m.effects ev).2 = true ↔ m.terminated = false ∧ (m.handle ev).terminated = true := by
  have hother : ∀ m' : TxnMachine ρ,
      (false = true ↔ m'.terminated = false ∧ m'.terminated = true) := by
    intro m'
    simp
  cases m with
  | invite t =>
    cases ev with
    | invite ev =>
      have h := InviteServerTxn.terminates_iff t ev
      simpa [effects, handle, terminated, InviteServerTxn.after] using h
    | nonInvite ev => exact hother (.invite t)
  | nonInvite t =>
    cases ev with
    | invite ev => exact hother (.nonInvite t)
    | nonInvite ev =>
      have h := terminates_iff t ev
      simpa [effects, handle, terminated, NonInviteServerTxn.after] using h

theorem TxnMachine.terminated_handle (h : m.terminated = true) (ev : TxnEvent ρ) :
    (m.handle ev).terminated = true := by
  cases m with
  | invite t =>
    have hs : t.state = .terminated := by simpa [terminated] using h
    cases ev with
    | invite ev =>
      have hact : (t.store ev).action ev = ⟨[], false, none, []⟩ := by
        unfold InviteServerTxn.action
        rw [InviteServerTxn.store_state, hs]
      simp [handle, terminated, hact, hs]
    | nonInvite ev => exact h
  | nonInvite t =>
    have hs : t.state = .terminated := by simpa [terminated] using h
    cases ev with
    | invite ev => exact h
    | nonInvite ev =>
      have hact : (t.store ev).action ev = ⟨[], false, none, []⟩ := by
        unfold action
        rw [store_state, hs]
      simp [handle, terminated, hact, hs]

end

namespace Server

variable {isFinal} {s : Server ρ} {r : Nat}

theorem put_txn (t : ServerTxn ρ) (r' : Nat) :
    (s.put r t).txn r' = if r' = r then some t else s.txn r' :=
  Function.update_apply ..

theorem Inv.new : Inv isFinal (new : Server ρ) where
  ok _ _ h := by cases h
  table _ _ h := by cases h

/-- A transaction is written over one with the same key. -/
theorem Inv.put (hI : s.Inv isFinal) {t₀ t : ServerTxn ρ} (hr : s.txn r = some t₀)
    (ht : t.OK isFinal) (hkey : t.key = t₀.key) : (s.put r t).Inv isFinal where
  ok r' t' hr' := by
    rw [put_txn] at hr'
    split at hr'
    · obtain rfl := some.inj hr'
      exact ht
    · exact hI.ok r' t' hr'
  table key r' hlookup := by
    obtain ⟨t', ht', hkey'⟩ := hI.table key r' hlookup
    rw [put_txn]
    split
    · case isTrue heq =>
      subst heq
      obtain rfl := some.inj (hr.symm.trans ht')
      exact ⟨t, rfl, hkey.trans hkey'⟩
    · exact ⟨t', ht', hkey'⟩

/-- The kind of the machine, and with it the key, stays. -/
theorem key_handle (t : ServerTxn ρ) (ev : TxnEvent ρ) (sent : List ρ) (reports : Nat) :
    ({ t with machine := t.machine.handle ev, sent, reports } : ServerTxn ρ).key = t.key := by
  obtain ⟨request, machine, callback, done, stopped, waitsFor, sent', reports'⟩ := t
  cases machine <;> cases ev <;> rfl

variable {ev : TxnEvent ρ} {req : Request} {reliable : Bool} {e : ServerInput ρ} {k : Nat}

/-- The loop of a transaction handles an event. -/
theorem handle_eq (hk : s.Keeps isFinal (.event r ev)) :
    s.handle r ev = s ∨ ∃ t, s.txn r = some t ∧ s.handle r ev = s.put r
      { t with
        machine := t.machine.handle ev
        sent := t.sent ++ (t.machine.effects ev).1
        reports := t.reports + if (t.machine.effects ev).2 then 1 else 0 } := by
  unfold handle
  cases hr : s.txn r with
  | none => exact .inl rfl
  | some t =>
    dsimp only
    split
    · exact .inl rfl
    · refine .inr ⟨t, rfl, ?_⟩
      by_cases hends : (t.machine.effects ev).2 = true
      · have hfree : s.table.lookup t.callback = none := (hk t hr).2 hends
        simp_all [removeFor]
      · rw [if_neg hends, if_neg hends]
        rfl

theorem Inv.handle (hI : s.Inv isFinal) (hk : s.Keeps isFinal (.event r ev)) :
    (s.handle r ev).Inv isFinal := by
  rcases handle_eq hk with heq | ⟨t, hr, heq⟩
  · rw [heq]
    exact hI
  · have ht := hI.ok r t hr
    rw [heq]
    refine hI.put hr ⟨ht.machine.handle (hk t hr).1, ht.done, ht.waitsFor, ?_, ?_⟩
      (key_handle t ev _ _)
    · have hreports := ht.reports
      have hiff := t.machine.effects_iff ev
      by_cases hover : t.machine.terminated = true
      · have hstays := TxnMachine.terminated_handle hover ev
        simp_all
      · simp_all
    · rw [key_handle]
      exact ht.method

theorem fresh_ok : (fresh req reliable : ServerTxn ρ).OK isFinal := by
  have hnew : Phase.before.OK isFinal [] none :=
    ⟨fun x hx => absurd hx not_mem_nil, fun x hx => by cases hx⟩
  unfold fresh
  by_cases hm : req.method = txt "INVITE"
  · rw [if_pos hm]
    exact ⟨hnew, rfl, rfl, rfl, hm.symm⟩
  · rw [if_neg hm]
    exact ⟨hnew, rfl, rfl, rfl, rfl⟩

theorem Inv.openTxn (hI : s.Inv isFinal) (k : Nat) (reliable : Bool) :
    (s.openTxn k r reliable).Inv isFinal := by
  unfold Server.openTxn
  split
  · case h_1 req hopening hr =>
    refine ⟨fun r' t ht => ?_, fun key r' hlookup => ?_⟩
    · rw [put_txn] at ht
      split at ht
      · obtain rfl := some.inj ht
        exact fresh_ok
      · exact hI.ok r' t ht
    · rw [put_txn]
      by_cases hkey : key = (fresh req reliable : ServerTxn ρ).key
      · subst hkey
        simp_all
      · rw [AList.lookup_insert_ne hkey] at hlookup
        obtain ⟨t, ht, hkey'⟩ := hI.table key r' hlookup
        grind
  · exact hI

/-- A loop that has not been told to end stays. -/
theorem exit_eq (hI : s.Inv isFinal) : s.exit r = s := by
  unfold exit
  split
  · rfl
  · case h_2 t ht =>
    refine if_neg fun h => ?_
    rw [(hI.ok r t ht).done] at h
    exact absurd h.1 (by decide)

theorem resume_eq (hI : s.Inv isFinal) : s.resume r = s := by
  unfold resume
  split
  · rfl
  · case h_2 t ht =>
    rw [(hI.ok r t ht).waitsFor]
    rfl

theorem Inv.step (hI : s.Inv isFinal) (hk : s.Keeps isFinal e) : (s.step e).Inv isFinal := by
  cases e with
  | dispatch k req =>
    change (s.dispatch k req).Inv isFinal
    unfold dispatch
    split
    · exact ⟨hI.ok, hI.table⟩
    · exact hI
  | openTxn k r reliable => exact hI.openTxn k reliable
  | event r ev => exact hI.handle hk
  | exit r =>
    change (s.exit r).Inv isFinal
    rw [exit_eq hI]
    exact hI
  | resume r =>
    change (s.resume r).Inv isFinal
    rw [resume_eq hI]
    exact hI

/-- A transaction that is matched is under the key that the request is looked up under. -/
theorem lookup_of_matched (h : s.matched req = some r) :
    s.table.lookup (lookupKey req) = some r := by
  unfold matched at h
  split at h
  · cases h
  split at h
  · grind [matchInvite]
  · grind [matchNonInvite]

theorem key_fst (t : ServerTxn ρ) : t.key.1 = extractBranch t.request.via := by
  unfold ServerTxn.key
  split <;> rfl

theorem Inv.matches (hI : s.Inv isFinal) (hk : s.Keeps isFinal (.dispatch k req))
    (hr : s.matched req = some r) :
    ∃ t ∈ s.txn r, Matches t.request req := by
  obtain ⟨t, ht, hkey⟩ := hI.table _ r (lookup_of_matched hr)
  obtain ⟨hsent, hbranch⟩ := hk r hr t ht
  refine ⟨t, ht, ?_, hsent, ?_⟩
  · rw [← key_fst, hkey, hbranch]
    rfl
  · rw [← (hI.ok r t ht).method, hkey]
    rfl

/-- Opening a transaction under a free key leaves the others. -/
theorem kept_openTxn (hk : s.Keeps isFinal (.openTxn k r reliable)) {key : TxnKey} {r' : Nat}
    (hlookup : s.table.lookup key = some r') :
    (s.openTxn k r reliable).table.lookup key = some r' := by
  unfold openTxn
  split
  · case h_1 req hopening hr =>
    have hfree := hk req hopening hr
    grind [AList.lookup_insert_ne]
  · exact hlookup

theorem Inv.sound (hI : s.Inv isFinal) (hk : s.Keeps isFinal e) : s.Sound isFinal e := by
  have hI' := hI.step hk
  refine ⟨fun r t ht => (hI'.ok r t ht).machine.finalOnce, ?_, ?_, ?_, ?_⟩
  · rintro k req r rfl hr
    exact hI.matches hk hr
  · intro key r hlookup
    cases e with
    | dispatch k req =>
      refine .inl ?_
      change (s.dispatch k req).table.lookup key = some r
      unfold dispatch
      split <;> exact hlookup
    | openTxn k r' reliable => exact .inl (kept_openTxn hk hlookup)
    | event r' ev =>
      refine .inl ?_
      change (s.handle r' ev).table.lookup key = some r
      rcases handle_eq hk with heq | ⟨t, -, heq⟩
      · rw [heq]
        exact hlookup
      · rw [heq]
        exact hlookup
    | exit r' =>
      refine .inl ?_
      change (s.exit r').table.lookup key = some r
      rw [exit_eq hI]
      exact hlookup
    | resume r' =>
      refine .inl ?_
      change (s.resume r').table.lookup key = some r
      rw [resume_eq hI]
      exact hlookup
  · intro r t ht hdone
    rw [(hI'.ok r t ht).done] at hdone
    cases hdone
  · intro r t ht
    exact ⟨(hI'.ok r t ht).waitsFor, (hI'.ok r t ht).reports⟩

/-- Every run whose steps meet the condition keeps what is promised of server transactions. -/
theorem transactions_sound (isFinal : ρ → Bool) (es : List (ServerInput ρ))
    (h : Meets step (Keeps isFinal) new es) : Meets step (Sound isFinal) new es :=
  h.imp (fun _ _ hI hk => ⟨hI.sound hk, hI.step hk⟩) Inv.new

/-! ## Two runs -/

section

open InviteServerTxn

/-- A request of one client, and its status codes. -/
def requestOf (method : Bytes) : Request :=
  ⟨txt "SIP/2.0/UDP a:5060;branch=z9hG4bK1", method⟩

def isFinalCode (code : Nat) : Bool := 200 ≤ code

/-- A call that rings and is refused; the INVITE comes again, then the ACK. -/
def refused : List (ServerInput Nat) :=
  [.dispatch 0 (requestOf (txt "INVITE")), .openTxn 0 0 false,
    .event 0 (.invite (.sendProvisional (some 180))),
    .event 0 (.invite (.sendFinalErr (some 486))),
    .dispatch 1 (requestOf (txt "INVITE")), .event 0 (.invite .retransmitReq),
    .event 0 (.invite .timerG), .dispatch 2 (requestOf (txt "ACK")), .event 0 (.invite .ack)]

theorem transactions_sound_refused :
    Meets step (Keeps isFinalCode) new refused ∧
      ((run step new refused).txn 0).map (·.sent) = some [180, 486, 486, 486] ∧
      Meets step (Sound isFinalCode) new refused := by
  have h : Meets step (Keeps isFinalCode) new refused := by decide
  exact ⟨h, by decide, transactions_sound isFinalCode refused h⟩

/-- A CANCEL has the call answered with 487; the 200 of the callee comes late, and is what the timer
sends again. -/
def cancelled : List (ServerInput Nat) :=
  [.dispatch 0 (requestOf (txt "INVITE")), .openTxn 0 0 false,
    .event 0 (.invite (.sendFinalErr (some 487))),
    .event 0 (.invite (.send2xx (some 200)))] ++ [.event 0 (.invite .timerG)]

theorem not_transactions_sound :
    ¬ ∀ es : List (ServerInput Nat), Meets step (Sound isFinalCode) new es := by
  intro h
  obtain ⟨hlast, -⟩ := (h cancelled).of_append
  have hsent : ((run step new cancelled).txn 0).map (·.sent) = some [487, 200] := by decide
  obtain ⟨t, ht, hsent⟩ := map_eq_some_iff.mp hsent
  have honce := hlast.final_once 0 t ht
  rw [hsent] at honce
  exact absurd (honce [] 487 [200] rfl rfl 200 (by simp)) (by decide)

end

end Server

end MmtCore.Sip
