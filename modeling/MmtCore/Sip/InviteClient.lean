import MmtCore.Lib.Reach
import MmtCore.Sip.Dialog
import MmtCore.Sip.ServerTxn

/-!
# The INVITE client transaction

`transaction_invite_client.go`.  The loop handles one event after another.  The event of a timer may
have waited in the queue when the timer was cancelled, so it can come in any state after the timer
was started; what a run keeps is the events it has handled and what was done for each.  Times are
numbers: a duration of 64 bits would hold the first 34 intervals of Timer A.
-/

namespace MmtCore.Sip

open MmtCore.Lib List Nat Int64

inductive ICState
  | calling
  | proceeding
  | completed
  | terminated
  deriving DecidableEq

inductive ICTimer
  | A
  | B
  | D
  deriving DecidableEq

def ICTimer.id : ICTimer → String
  | .A => "A"
  | .B => "B"
  | .D => "D"

/-- A response comes with its status code and its headers as `GetHeader` visits them. -/
inductive ICEvent
  | start
  | timer (t : ICTimer)
  | response (statusCode : Int64) (resp : Visit)
  | transportErr
  deriving DecidableEq

/-- What `SendRequest` is called with. -/
inductive ICSent
  | invite
  | ack (m : SipMessage)

structure InviteClientTxn where
  state : ICState
  req : SipMessage
  last : Option Visit
  retxIntervalMs : Nat
  reliableTransport : Bool

/-- The request of `sendAckForError`. -/
def ackForError (req : SipMessage) (last : Option Visit) : SipMessage where
  start := .request (txt "ACK") <| match req.start with
    | .request _ uri => uri
    | .response _ _ => []
  headers := match last with
    | none => req.headers
    | some resp =>
      if SipDialog.respTag resp ≠ [] then setHeader req.headers (txt "To") (getHeader resp (txt "To"))
      else req.headers
  body := []

namespace InviteClientTxn

def new (req : SipMessage) (reliable : Bool) : InviteClientTxn := ⟨.calling, req, none, 500, reliable⟩

def terminate : TxnAction ICState ICSent :=
  ⟨[], true, some .terminated, [.cancel "A", .cancel "B", .cancel "D"]⟩

/-- A 3xx to 6xx that comes first; on a reliable transport Timer D is zero. -/
def onFinalError (t : InviteClientTxn) (cancels : List TimerOp) : TxnAction ICState ICSent :=
  let sent := [.ack (ackForError t.req t.last)]
  if t.reliableTransport then ⟨sent, true, some .terminated, cancels⟩
  else ⟨sent, false, some .completed, cancels ++ [.start "D" 32000]⟩

def onCalling (t : InviteClientTxn) : ICEvent → TxnAction ICState ICSent
  | .start =>
    ⟨[.invite], false, none,
      (if t.reliableTransport then [] else [.start "A" t.retxIntervalMs]) ++ [.start "B" (64 * 500)]⟩
  | .timer .A => ⟨[.invite], false, none, [.start "A" (t.retxIntervalMs * 2)]⟩
  | .timer .B | .transportErr => terminate
  | .response code _ =>
    if code < 200 then ⟨[], false, some .proceeding, [.cancel "A"]⟩
    else if code < 300 then terminate
    else t.onFinalError [.cancel "A", .cancel "B"]
  | .timer .D => ⟨[], false, none, []⟩

def onProceeding (t : InviteClientTxn) : ICEvent → TxnAction ICState ICSent
  | .response code _ =>
    if code < 200 then ⟨[], false, none, []⟩
    else if code < 300 then terminate
    else t.onFinalError [.cancel "B"]
  | .timer .B | .transportErr => terminate
  | _ => ⟨[], false, none, []⟩

def onCompleted (t : InviteClientTxn) : ICEvent → TxnAction ICState ICSent
  | .response code _ =>
    if code < 300 then ⟨[], false, none, []⟩
    else ⟨[.ack (ackForError t.req t.last)], false, none, []⟩
  | .timer .D | .transportErr => terminate
  | _ => ⟨[], false, none, []⟩

/-- The response is stored before the state is looked at. -/
def store (t : InviteClientTxn) : ICEvent → InviteClientTxn
  | .response _ resp => { t with last := some resp }
  | _ => t

def action (t : InviteClientTxn) (ev : ICEvent) : TxnAction ICState ICSent :=
  match t.state with
  | .calling => (t.store ev).onCalling ev
  | .proceeding => (t.store ev).onProceeding ev
  | .completed => (t.store ev).onCompleted ev
  | .terminated => ⟨[], false, none, []⟩

/-- What the handler and the loop leave behind. -/
def handle (t : InviteClientTxn) (ev : ICEvent) : InviteClientTxn :=
  { t.store ev with
    state := (t.action ev).next.getD t.state
    retxIntervalMs :=
      if t.state = .calling ∧ ev = .timer .A then t.retxIntervalMs * 2 else t.retxIntervalMs }

end InviteClientTxn

/-! ## Runs -/

/-- An event that was handled: the state it found, and what was done. -/
structure ICEntry where
  found : ICState
  event : ICEvent
  action : TxnAction ICState ICSent

structure InviteRun where
  txn : InviteClientTxn
  history : List ICEntry

def ICEntry.invites (e : ICEntry) : Nat :=
  e.action.sent.countP fun | .invite => true | .ack _ => false

/-- The times for which this timer was started. -/
def ICEntry.intervals (id : String) (e : ICEntry) : List Nat :=
  e.action.timers.filterMap fun
    | .start id' ms => if id' = id then some ms else none
    | .cancel _ => none

namespace InviteRun

def init (req : SipMessage) (reliable : Bool) : InviteRun := ⟨.new req reliable, []⟩

def step (r : InviteRun) (ev : ICEvent) : InviteRun :=
  ⟨r.txn.handle ev, r.history ++ [⟨r.txn.state, ev, r.txn.action ev⟩]⟩

def invites (r : InviteRun) : Nat := (r.history.map ICEntry.invites).sum

def intervals (r : InviteRun) (id : String) : List Nat := r.history.flatMap (·.intervals id)

/-- `Fire` is called once, and a timer ends as often as it was started. -/
def Feasible (r : InviteRun) : ICEvent → Prop
  | .start => ∀ e ∈ r.history, e.event ≠ .start
  | .timer t => r.history.countP (·.event = .timer t) < (r.intervals t.id).length
  | _ => True

instance (r : InviteRun) (ev : ICEvent) : Decidable (r.Feasible ev) := by
  cases ev <;> unfold Feasible <;> infer_instance

end InviteRun

/-- What may be done for an event: the INVITE goes out in Calling only, at first and when Timer A
ends on an unreliable transport; a 3xx to 6xx gets one ACK and nothing else does; Timer B ends the
transaction before there is a final response; and nothing is done after the end. -/
structure ICEntry.Lawful (req : SipMessage) (reliable : Bool) (e : ICEntry) : Prop where
  sent : e.action.sent =
    match e.event with
    | .start => if e.found = .calling then [.invite] else []
    | .timer .A => if e.found = .calling ∧ reliable = false then [.invite] else []
    | .response code resp =>
      if 300 ≤ code ∧ e.found ≠ .terminated then [.ack (ackForError req (some resp))] else []
    | _ => []
  timerB : e.event = .timer .B →
    (e.action.terminates ↔ e.found = .calling ∨ e.found = .proceeding)
  ended : e.found = .terminated → e.action.sent = [] ∧ e.action.timers = []
  entered : e.action.terminates = true ↔ e.found ≠ .terminated ∧ e.action.next = some .terminated

/-- The law of each event; the times of Timer A double with each INVITE; and `OnTerminated` is
called once, with the end. -/
structure InviteRun.Lawful (req : SipMessage) (reliable : Bool) (r : InviteRun) : Prop where
  entries : ∀ e ∈ r.history, e.Lawful req reliable
  doubling : r.intervals "A" =
    if reliable then [] else (List.range r.invites).map fun k => 500 * 2 ^ k
  once : r.history.countP (·.action.terminates) = if r.txn.state = .terminated then 1 else 0

namespace InviteClientTxn

variable {t : InviteClientTxn} {ev : ICEvent}

theorem response_lawful (code : Int64) (resp : Visit) :
    ICEntry.Lawful t.req t.reliableTransport
      ⟨t.state, .response code resp, t.action (.response code resp)⟩ := by
  obtain ⟨state, req, last, retx, reliable⟩ := t
  have h200 : (200 : Int64).toInt = 200 := by decide
  have h300 : (300 : Int64).toInt = 300 := by decide
  have hclass : code < 300 ↔ ¬300 ≤ code := by
    rw [lt_iff_toInt_lt, le_iff_toInt_le, Int.not_le]
  by_cases herror : 300 ≤ code
  · have hfinal : ¬code < 200 := by
      rw [le_iff_toInt_le] at herror
      rw [lt_iff_toInt_lt]
      omega
    cases reliable <;> cases state <;> constructor <;>
      simp [action, onCalling, onProceeding, onCompleted, onFinalError, store, hclass, herror, hfinal]
  · by_cases hfinal : code < 200 <;> cases state <;> constructor <;>
      simp [action, onCalling, onProceeding, onCompleted, terminate, hclass, herror, hfinal]

theorem action_lawful (h : t.reliableTransport = true → ev ≠ .timer .A) :
    ICEntry.Lawful t.req t.reliableTransport ⟨t.state, ev, t.action ev⟩ := by
  cases ev with
  | response code resp => exact response_lawful code resp
  | timer id =>
    obtain ⟨state, req, last, retx, reliable⟩ := t
    cases id <;> cases state <;> constructor <;>
      simp_all [action, onCalling, onProceeding, onCompleted, terminate]
  | start =>
    obtain ⟨state, req, last, retx, reliable⟩ := t
    cases state <;> constructor <;>
      simp [action, onCalling, onProceeding, onCompleted]
  | transportErr =>
    obtain ⟨state, req, last, retx, reliable⟩ := t
    cases state <;> constructor <;>
      simp [action, onCalling, onProceeding, onCompleted, terminate]

/-- The event makes the INVITE go out. -/
def Sends (t : InviteClientTxn) (ev : ICEvent) : Prop :=
  t.state = .calling ∧ (ev = .start ∨ ev = .timer .A)
  deriving Decidable

theorem not_sends_response {code : Int64} {resp : Visit} : ¬t.Sends (.response code resp) := by
  simp [Sends]

theorem invites_action (h : t.reliableTransport = true → ev ≠ .timer .A) :
    ICEntry.invites ⟨t.state, ev, t.action ev⟩ = if t.Sends ev then 1 else 0 := by
  rw [ICEntry.invites, (action_lawful h).sent]
  cases ev with
  | response code resp =>
    rw [if_neg not_sends_response]
    dsimp only
    split <;> rfl
  | start => by_cases hc : t.state = .calling <;> simp [Sends, hc]
  | timer id => cases id <;> by_cases hc : t.state = .calling <;> simp_all [Sends]
  | transportErr => simp [Sends]

theorem intervals_action (h : t.reliableTransport = true → ev ≠ .timer .A) :
    ICEntry.intervals "A" ⟨t.state, ev, t.action ev⟩ =
      if t.Sends ev ∧ t.reliableTransport = false then [(t.handle ev).retxIntervalMs] else [] := by
  cases ev with
  | response code resp =>
    rw [if_neg fun hs => not_sends_response hs.1]
    obtain ⟨state, req, last, retx, reliable⟩ := t
    cases state with
    | terminated => rfl
    | _ =>
      simp only [ICEntry.intervals, action, onCalling, onProceeding, onCompleted, onFinalError]
      split_ifs <;> rfl
  | timer id =>
    obtain ⟨state, req, last, retx, reliable⟩ := t
    cases id <;> cases state <;> cases reliable <;> first | rfl | exact absurd rfl (h rfl)
  | _ =>
    obtain ⟨state, req, last, retx, reliable⟩ := t
    cases state <;> cases reliable <;> rfl

theorem handle_frame : (t.handle ev).req = t.req ∧
    (t.handle ev).reliableTransport = t.reliableTransport := by
  cases ev <;> exact ⟨rfl, rfl⟩

theorem ended_iff (h : t.reliableTransport = true → ev ≠ .timer .A) :
    (t.handle ev).state = .terminated ↔
      t.state = .terminated ∨ (t.action ev).terminates = true := by
  have hentered := (action_lawful h).entered
  by_cases hended : t.state = .terminated
  · simp [handle, action, hended]
  · rw [hentered, handle]
    cases hnext : (t.action ev).next <;> simp [hended]

end InviteClientTxn

/-! ## Every run -/

namespace InviteRun

variable {req : SipMessage} {reliable : Bool} {r : InviteRun} {ev : ICEvent}

/-- What a run keeps. -/
structure Inv (req : SipMessage) (reliable : Bool) (r : InviteRun) : Prop where
  law : r.Lawful req reliable
  req : r.txn.req = req
  reliable : r.txn.reliableTransport = reliable
  interval : r.txn.retxIntervalMs = 500 * 2 ^ (r.invites - 1)
  unfired : (∀ e ∈ r.history, e.event ≠ .start) → r.invites = 0

theorem inv_init : Inv req reliable (init req reliable) where
  law := ⟨nofun, by cases reliable <;> rfl, rfl⟩
  req := rfl
  reliable := rfl
  interval := rfl
  unfired _ := rfl

/-- Timer A runs on an unreliable transport only, once the INVITE was sent. -/
theorem Inv.timerA (h : Inv req reliable r) (hf : r.Feasible (.timer .A)) :
    reliable = false ∧ 0 < r.invites := by
  have hlen := lt_of_le_of_lt (zero_le _) hf
  rw [ICTimer.id, h.law.doubling] at hlen
  cases reliable with
  | true => exact absurd hlen (by simp)
  | false => exact ⟨rfl, by simpa using hlen⟩

theorem invites_step (hA : r.txn.reliableTransport = true → ev ≠ .timer .A) :
    (r.step ev).invites = r.invites + if r.txn.Sends ev then 1 else 0 := by
  simp [invites, step, InviteClientTxn.invites_action hA]

theorem Inv.step (h : Inv req reliable r) (hf : r.Feasible ev) : Inv req reliable (r.step ev) := by
  have hA : r.txn.reliableTransport = true → ev ≠ .timer .A := by
    rintro hrel rfl
    exact absurd ((h.timerA hf).1.symm.trans (h.reliable.symm.trans hrel)) (by decide)
  -- what the INVITE that goes out now finds
  have hsent : r.txn.Sends ev → (r.txn.handle ev).retxIntervalMs = 500 * 2 ^ r.invites := by
    rintro ⟨hstate, rfl | rfl⟩
    · have hzero := h.unfired hf
      simpa [InviteClientTxn.handle, hzero] using h.interval
    · obtain ⟨k, hk⟩ := Nat.exists_eq_add_of_lt (h.timerA hf).2
      have hretx := h.interval
      simp [InviteClientTxn.handle, hstate, hretx, hk, pow_succ, mul_assoc]
  have hquiet : ¬r.txn.Sends ev → (r.txn.handle ev).retxIntervalMs = r.txn.retxIntervalMs := by
    intro hno
    simp only [InviteClientTxn.Sends, not_and, not_or] at hno
    exact if_neg fun ⟨hstate, hev⟩ => (hno hstate).2 hev
  have htxn : (r.step ev).txn = r.txn.handle ev := rfl
  have hn := invites_step (r := r) hA
  constructor
  · constructor
    · intro e he
      rcases mem_append.1 he with he | he
      · exact h.law.entries e he
      · rw [mem_singleton.1 he, ← h.req, ← h.reliable]
        exact InviteClientTxn.action_lawful hA
    · have happ : (r.step ev).intervals "A" = r.intervals "A" ++
          ICEntry.intervals "A" ⟨r.txn.state, ev, r.txn.action ev⟩ := by
        simp [intervals, InviteRun.step]
      rw [happ, h.law.doubling, InviteClientTxn.intervals_action hA, h.reliable, hn]
      cases reliable with
      | true => simp
      | false =>
        by_cases hs : r.txn.Sends ev
        · simp [hs, hsent hs, range_succ]
        · simp [hs]
    · have hended := InviteClientTxn.ended_iff (t := r.txn) hA
      simp only [InviteRun.step, countP_append, h.law.once, countP_singleton]
      by_cases hs : r.txn.state = .terminated
      · simp [hs, hended, InviteClientTxn.action]
      · simp [hs, hended]
  · exact InviteClientTxn.handle_frame.1.trans h.req
  · exact InviteClientTxn.handle_frame.2.trans h.reliable
  · rw [hn, htxn]
    by_cases hs : r.txn.Sends ev
    · simpa [hs] using hsent hs
    · simpa [hs] using (hquiet hs).trans h.interval
  · intro hno
    rw [hn, h.unfired fun e he => hno e (mem_append_left _ he), if_neg]
    rintro ⟨-, rfl | rfl⟩
    · exact hno _ (mem_append_right _ (mem_singleton_self _)) rfl
    · exact absurd (h.unfired fun e he => hno e (mem_append_left _ he))
        (ne_of_gt (h.timerA hf).2)

end InviteRun

/-- The ACK has the headers of the INVITE, its To apart where that of the response has a tag. -/
theorem lookup_ackForError (req : SipMessage) (resp : Visit) :
    (SipDialog.respTag resp ≠ [] → (ackForError req (some resp)).headers.lookup (txt "To") =
        some [getHeader resp (txt "To")]) ∧
      ∀ name, SipDialog.respTag resp = [] ∨ toLower name ≠ toLower (txt "To") →
        (ackForError req (some resp)).headers.lookup name = req.headers.lookup name := by
  constructor
  · intro htag
    simp only [ackForError, if_pos htag, lookup_setHeader]
  · intro name hname
    by_cases htag : SipDialog.respTag resp = []
    · simp only [ackForError, if_neg (not_not.2 htag)]
    · simp only [ackForError, if_pos htag]
      exact lookup_setHeader_ne (hname.resolve_left htag)

/-- Every run keeps the law, and every ACK is made of the INVITE and its response. -/
theorem invite_client_runs (req : SipMessage) (reliable : Bool) :
    (∀ r, Reach InviteRun.step InviteRun.Feasible (.init req reliable) r →
      r.Lawful req reliable) ∧
    ∀ resp : Visit,
      (SipDialog.respTag resp ≠ [] → (ackForError req (some resp)).headers.lookup (txt "To") =
        some [getHeader resp (txt "To")]) ∧
      ∀ name, SipDialog.respTag resp = [] ∨ toLower name ≠ toLower (txt "To") →
        (ackForError req (some resp)).headers.lookup name = req.headers.lookup name :=
  ⟨fun _ h => (Reach.invariant InviteRun.inv_init (fun _ _ hi hf => hi.step hf) h).law,
    lookup_ackForError req⟩

def sampleInvite : SipMessage :=
  ⟨.request (txt "INVITE") (txt "sip:b"), setHeader ∅ (txt "CSeq") (txt "1 INVITE"), []⟩

/-- One retransmission, 486, and 486 again. -/
theorem invite_client_runs_busy :
    (run InviteRun.step (.init sampleInvite false)
      [.start, .timer .A, .response 486 [], .response 486 []]).Lawful sampleInvite false :=
  (invite_client_runs sampleInvite false).1 _ (Meets.reach (by decide))

/-- Timer B ends a transaction that rings, and the ACK has the CSeq of the INVITE. -/
theorem timer_b_ends_ringing :
    (∃ r, Reach InviteRun.step InviteRun.Feasible (.init sampleInvite false) r ∧
      ∃ e ∈ r.history, e.found = .proceeding ∧ e.event = .timer .B ∧
        e.action.terminates = true) ∧
    (ackForError sampleInvite (some [])).headers.lookup (txt "CSeq") = some [txt "1 INVITE"] := by
  refine ⟨⟨run InviteRun.step (.init sampleInvite false) [.start, .response 180 [], .timer .B],
    Meets.reach (by decide), ?_⟩, by decide⟩
  decide

end MmtCore.Sip
