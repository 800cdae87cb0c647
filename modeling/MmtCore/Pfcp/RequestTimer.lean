import Mathlib.Data.List.Range
import MmtCore.Lib.Reach

/-!
# The timer of a request

`SendRequest`, `onT1Expiry` and `dispatch` of `transport.go` as one request goes through them, with
the time and with everything that may happen between the check of `onT1Expiry` and its write.  An
event is one section under the mutex, or one step of a goroutine between two of them.  Time is a
number that may pass at any moment; in a prompt run it passes only while nothing is due.

The callback of the timer counts an attempt before it compares with N1, so the last of the N1
retransmissions is never sent (`exchange_law_iff`).  It writes after it has left the mutex, so that
the response may come in between (`late_copy`).  The caller is always completed once.
-/

namespace MmtCore.Pfcp

open MmtCore.Lib List Option Nat Or

/-! ## State -/

/-- T1 in nanoseconds, which `SetT1` keeps at a second at least, and N1. -/
structure T1Config where
  t1 : Nat
  n1 : Nat
  second_le : 1000000000 ≤ t1

/-- When the `select` of `SendRequest` gives up, 100 ms behind the deadline of the request. -/
def T1Config.deadline (cfg : T1Config) : Nat := (cfg.n1 + 1) * cfg.t1 + 100000000

/-- Where `SendRequest` stands. -/
inductive RequestTimer.Sender
  | registered
  | written
  | waiting
  | returned
deriving DecidableEq

/-- Where `onT1Expiry` stands. -/
inductive RequestTimer.Callback
  | idle
  | started
  /-- It has found the request pending, and is going to write. -/
  | checked
  | resent
deriving DecidableEq

/-- Where the `dispatch` stands that found the request pending. -/
inductive RequestTimer.Dispatcher
  | idle
  | taken
  | stopped
  | delivered
deriving DecidableEq

inductive RequestTimer.Result
  | response
  | send
  | t1Exhausted
deriving DecidableEq

/-- One request, from its entry into the map on. -/
structure RequestTimer where
  now : Nat
  sender : RequestTimer.Sender
  pending : Bool
  attempts : Nat
  /-- When the timer goes off. -/
  timer : Option Nat
  callback : RequestTimer.Callback
  dispatcher : RequestTimer.Dispatcher
  /-- The channel holds the response. -/
  ch : Bool
  /-- What `SendRequest` has returned. -/
  results : List RequestTimer.Result
  /-- When copies were written to the socket, the last one first. -/
  sends : List Nat
deriving DecidableEq

namespace RequestTimer

def start : RequestTimer where
  now := 0
  sender := .registered
  pending := true
  attempts := 0
  timer := none
  callback := .idle
  dispatcher := .idle
  ch := false
  results := []
  sends := []

inductive Event
  /-- `SendRequest` writes the request. -/
  | write
  | writeFails
  /-- It arms the timer. -/
  | arm
  | receive
  | deadline
  /-- The timer goes off. -/
  | fire
  /-- The section of `onT1Expiry` under the mutex. -/
  | check
  | resend
  | reset
  /-- The section of `dispatch` under the mutex; a copy must have been sent to be answered. -/
  | response
  | stop
  | deliver
  | tick (d : Nat)
deriving DecidableEq

/-- The events; `none` where an event cannot happen. -/
def step (cfg : T1Config) (x : RequestTimer) : Event → Option RequestTimer
  | .write =>
    if x.sender = .registered then
      some { x with sender := .written, sends := x.now :: x.sends }
    else none
  | .writeFails =>
    if x.sender = .registered then
      some { x with sender := .returned, pending := false, results := .send :: x.results }
    else none
  | .arm =>
    if x.sender = .written then
      some { x with sender := .waiting, timer := some (x.now + cfg.t1) }
    else none
  | .receive =>
    if x.sender = .waiting ∧ x.ch = true then
      some { x with sender := .returned, ch := false, results := .response :: x.results }
    else none
  | .deadline =>
    if x.sender = .waiting ∧ cfg.deadline ≤ x.now then
      some { x with
        sender := .returned
        pending := false
        timer := if x.pending then none else x.timer
        results := .t1Exhausted :: x.results }
    else none
  | .fire =>
    if x.timer.any (· ≤ x.now) ∧ x.callback = .idle then
      some { x with timer := none, callback := .started }
    else none
  | .check =>
    if x.callback = .started then
      if x.pending then
        some { x with
          attempts := x.attempts + 1
          callback := if x.attempts + 1 ≥ cfg.n1 then .idle else .checked }
      else some { x with callback := .idle }
    else none
  | .resend =>
    if x.callback = .checked then some { x with callback := .resent, sends := x.now :: x.sends }
    else none
  | .reset =>
    if x.callback = .resent then
      some { x with callback := .idle, timer := some (x.now + cfg.t1) }
    else none
  | .response =>
    if x.sends = [] then none
    else if x.pending then some { x with pending := false, dispatcher := .taken }
    else some x
  | .stop =>
    if x.dispatcher = .taken then some { x with dispatcher := .stopped, timer := none } else none
  | .deliver =>
    if x.dispatcher = .stopped then some { x with dispatcher := .delivered, ch := true } else none
  | .tick d => some { x with now := x.now + d }

/-- A matching response has arrived. -/
def Answered (x : RequestTimer) : Prop := x.dispatcher ≠ .idle

/-- The events that the program does not bring about. -/
def Event.isEnv : Event → Bool
  | .response | .tick _ => true
  | _ => false

/-- Nothing is left for the program to do. -/
def Finished (cfg : T1Config) (x : RequestTimer) : Prop :=
  ∀ e : Event, e.isEnv = false → x.step cfg e = none

/-- Nothing but a timer or the deadline is going to happen by itself. -/
structure Waits (x : RequestTimer) : Prop where
  sender : x.sender = .waiting ∧ x.ch = false ∨ x.sender = .returned
  callback : x.callback = .idle
  dispatcher : x.dispatcher = .idle ∨ x.dispatcher = .delivered

/-- Time does not pass over anything that is due. -/
def Prompt (cfg : T1Config) (x : RequestTimer) : Event → Prop
  | .tick d => x.Waits ∧ (∀ due, x.timer = some due → x.now + d ≤ due) ∧
      (x.sender = .waiting → x.now + d ≤ cfg.deadline)
  | _ => True

/-- No response arrives, and nothing is late. -/
def Silent (cfg : T1Config) (x : RequestTimer) (e : Event) : Prop :=
  e ≠ .response ∧ x.Prompt cfg e

/-- The times of so many copies, T1 apart, the last one first. -/
def copies (cfg : T1Config) (k : Nat) : List Nat := ((List.range k).map (· * cfg.t1)).reverse

/-- The rule that the source quotes: a request that nobody answers is sent 1 + N1 times before it
fails; no copy is sent after a response; and the caller is completed once. -/
structure Law (cfg : T1Config) : Prop where
  silent : ∀ x, ReachOk (step cfg) (Silent cfg) start x → x.results = [.t1Exhausted] →
    x.sends = copies cfg (cfg.n1 + 1)
  quiet : ∀ es x es' x', runOk (step cfg) start es = some x → x.Answered →
    runOk (step cfg) x es' = some x' → x'.sends = x.sends
  once : ∀ es x, runOk (step cfg) start es = some x →
    x.results.length ≤ 1 ∧ (x.Answered → x.Finished cfg → x.results.length = 1)

/-! ## The caller is completed once -/

variable {cfg : T1Config} {x x' : RequestTimer} {e : Event}
variable {es : List Event} {k : Nat}

theorem run_invariant {I : RequestTimer → Prop}
    (hstep : ∀ x e x', I x → x.step cfg e = some x' → I x') (hx : I x)
    (h : runOk (step cfg) x es = some x') : I x' := by
  induction es generalizing x with
  | nil =>
    cases h
    exact hx
  | cons e es ih =>
    obtain ⟨x₁, hx₁, hrest⟩ := bind_eq_some_iff.1 h
    exact ih (hstep x e x₁ hx hx₁) hrest

/-- One result for a call that has returned, and none before; and a response that was delivered is
there to be received. -/
structure Once (x : RequestTimer) : Prop where
  returned : x.sender = .returned → x.results.length = 1
  running : x.sender ≠ .returned → x.results = []
  delivered : x.dispatcher = .delivered → x.ch = true ∨ x.sender = .returned

theorem start_once : start.Once where
  returned := fun h => Sender.noConfusion h
  running := fun _ => rfl
  delivered := fun h => Dispatcher.noConfusion h

theorem guarded {p : Prop} [Decidable p] {a b : RequestTimer}
    (h : (if p then some a else none) = some b) : p ∧ b = a := by
  simp_all

/-- What the callback does under the mutex. -/
theorem check_cases (h : x.step cfg .check = some x') :
    x.callback = .started ∧
      (x.pending = false ∧ x' = { x with callback := .idle } ∨
        x.pending = true ∧ cfg.n1 ≤ x.attempts + 1 ∧
          x' = { x with attempts := x.attempts + 1, callback := .idle } ∨
        x.pending = true ∧ x.attempts + 1 < cfg.n1 ∧
          x' = { x with attempts := x.attempts + 1, callback := .checked }) := by
  rw [step] at h
  grind

theorem check_more (hc : x.callback = .started) (hp : x.pending = true)
    (hlt : x.attempts + 1 < cfg.n1) :
    x.step cfg .check = some { x with attempts := x.attempts + 1, callback := .checked } := by
  rw [step, if_pos hc, if_pos hp, if_neg (not_le.mpr hlt)]

theorem check_last (hc : x.callback = .started) (hp : x.pending = true)
    (hlast : cfg.n1 ≤ x.attempts + 1) :
    x.step cfg .check = some { x with attempts := x.attempts + 1, callback := .idle } := by
  rw [step, if_pos hc, if_pos hp, if_pos hlast]

theorem response_cases (h : x.step cfg .response = some x') :
    x.sends ≠ [] ∧ (x' = x ∨ x.pending = true ∧
      x' = { x with pending := false, dispatcher := .taken }) := by
  grind [step]

theorem Once.step (hx : x.Once) (h : x.step cfg e = some x') : x'.Once := by
  have hreturn : x.sender ≠ .returned → ∀ r : Result, (r :: x.results).length = 1 := by
    intro hne r
    rw [hx.running hne]
    rfl
  cases e with
  | write | arm =>
    obtain ⟨hs, rfl⟩ := guarded h
    have hne : x.sender ≠ .returned := fun hr => Sender.noConfusion (hs.symm.trans hr)
    exact ⟨Sender.noConfusion, fun _ => hx.running hne,
      fun hd => inl ((hx.delivered hd).resolve_right hne)⟩
  | writeFails =>
    obtain ⟨hs, rfl⟩ := guarded h
    have hne : x.sender ≠ .returned := fun hr => Sender.noConfusion (hs.symm.trans hr)
    exact ⟨fun _ => hreturn hne _, fun hno => absurd rfl hno, fun _ => inr rfl⟩
  | receive | deadline =>
    obtain ⟨⟨hs, -⟩, rfl⟩ := guarded h
    have hne : x.sender ≠ .returned := fun hr => Sender.noConfusion (hs.symm.trans hr)
    exact ⟨fun _ => hreturn hne _, fun hno => absurd rfl hno, fun _ => inr rfl⟩
  | fire | resend | reset =>
    obtain ⟨-, rfl⟩ := guarded h
    exact ⟨hx.returned, hx.running, hx.delivered⟩
  | check =>
    obtain ⟨-, ⟨-, rfl⟩ | ⟨-, -, rfl⟩ | ⟨-, -, rfl⟩⟩ := check_cases h
    · exact ⟨hx.returned, hx.running, hx.delivered⟩
    · exact ⟨hx.returned, hx.running, hx.delivered⟩
    · exact ⟨hx.returned, hx.running, hx.delivered⟩
  | response =>
    obtain ⟨-, rfl | ⟨-, rfl⟩⟩ := response_cases h
    · exact hx
    · exact ⟨hx.returned, hx.running, Dispatcher.noConfusion⟩
  | stop =>
    obtain ⟨-, rfl⟩ := guarded h
    exact ⟨hx.returned, hx.running, Dispatcher.noConfusion⟩
  | deliver =>
    obtain ⟨-, rfl⟩ := guarded h
    exact ⟨hx.returned, hx.running, fun _ => inl rfl⟩
  | tick d =>
    cases h
    exact ⟨hx.returned, hx.running, hx.delivered⟩

theorem Once.length_le (hx : x.Once) : x.results.length ≤ 1 := by
  by_cases hs : x.sender = .returned
  · exact le_of_eq (hx.returned hs)
  · rw [hx.running hs]
    exact zero_le 1

/-- When nothing is left to do after a response, the caller has been completed. -/
theorem Once.completed (hx : x.Once) (ha : x.Answered) (hf : x.Finished cfg) :
    x.results.length = 1 := by
  have hnot : ∀ {p : Prop} [Decidable p] {a : RequestTimer},
      (if p then some a else none) = none → ¬p :=
    fun hnone hp => some_ne_none _ ((if_pos hp).symm.trans hnone)
  have hdel : x.dispatcher = .delivered := by
    cases hd : x.dispatcher with
    | idle => exact absurd hd ha
    | taken => exact absurd hd (hnot (hf .stop rfl))
    | stopped => exact absurd hd (hnot (hf .deliver rfl))
    | delivered => rfl
  cases hs : x.sender with
  | registered => exact absurd hs (hnot (hf .write rfl))
  | written => exact absurd hs (hnot (hf .arm rfl))
  | waiting =>
    refine absurd ⟨hs, (hx.delivered hdel).resolve_right fun hr => ?_⟩ (hnot (hf .receive rfl))
    exact Sender.noConfusion (hs.symm.trans hr)
  | returned => exact hx.returned hs

/-! ## After a response -/

/-- A call that has not written yet has no timer; a request that was answered has left the map, and
was written before. -/
structure Taken (x : RequestTimer) : Prop where
  fresh : x.sender = .registered → x.sends = [] ∧ x.timer = none ∧ x.callback = .idle
  pending : x.Answered → x.pending = false
  written : x.Answered → x.sender ≠ .registered

theorem start_taken : start.Taken where
  fresh := fun _ => ⟨rfl, rfl, rfl⟩
  pending := fun h => absurd rfl h
  written := fun h => absurd rfl h

theorem Taken.step (hx : x.Taken) (h : x.step cfg e = some x') : x'.Taken := by
  have hbusy : x.callback ≠ .idle → x.sender ≠ .registered :=
    fun hc hs => hc (hx.fresh hs).2.2
  cases e with
  | write | arm | receive =>
    obtain ⟨-, rfl⟩ := guarded h
    exact ⟨Sender.noConfusion, hx.pending, fun _ => Sender.noConfusion⟩
  | writeFails | deadline =>
    obtain ⟨-, rfl⟩ := guarded h
    exact ⟨Sender.noConfusion, fun _ => rfl, fun _ => Sender.noConfusion⟩
  | fire =>
    obtain ⟨⟨htimer, -⟩, rfl⟩ := guarded h
    refine ⟨fun hs => ?_, hx.pending, hx.written⟩
    rw [(hx.fresh hs).2.1] at htimer
    cases htimer
  | check =>
    obtain ⟨hc, hcases⟩ := check_cases h
    have hne : x.sender ≠ .registered :=
      hbusy fun hi => Callback.noConfusion (hc.symm.trans hi)
    obtain ⟨-, rfl⟩ | ⟨-, -, rfl⟩ | ⟨-, -, rfl⟩ := hcases
    · exact ⟨fun hs => absurd hs hne, hx.pending, hx.written⟩
    · exact ⟨fun hs => absurd hs hne, hx.pending, hx.written⟩
    · exact ⟨fun hs => absurd hs hne, hx.pending, hx.written⟩
  | resend | reset =>
    obtain ⟨hc, rfl⟩ := guarded h
    have hne : x.sender ≠ .registered :=
      hbusy fun hi => Callback.noConfusion (hc.symm.trans hi)
    exact ⟨fun hs => absurd hs hne, hx.pending, hx.written⟩
  | response =>
    obtain ⟨hne, rfl | ⟨-, rfl⟩⟩ := response_cases h
    · exact hx
    · exact ⟨hx.fresh, fun _ => rfl, fun _ hs => hne (hx.fresh hs).1⟩
  | stop | deliver =>
    obtain ⟨hd, rfl⟩ := guarded h
    have ha : x.Answered := fun hi => Dispatcher.noConfusion (hd.symm.trans hi)
    exact ⟨fun hs => absurd hs (hx.written ha), fun _ => hx.pending ha, fun _ => hx.written ha⟩
  | tick d =>
    cases h
    exact ⟨hx.fresh, hx.pending, hx.written⟩

/-- No copy is going to be written: the request has left the map, and no callback is past its
check. -/
structure Quiet (x : RequestTimer) : Prop where
  sender : x.sender ≠ .registered
  pending : x.pending = false
  callback : x.callback ≠ .checked

theorem Quiet.step (hx : x.Quiet) (h : x.step cfg e = some x') :
    x'.Quiet ∧ x'.sends = x.sends := by
  cases e with
  | write | writeFails =>
    obtain ⟨hs, -⟩ := guarded h
    exact absurd hs hx.sender
  | arm | receive =>
    obtain ⟨-, rfl⟩ := guarded h
    exact ⟨⟨Sender.noConfusion, hx.pending, hx.callback⟩, rfl⟩
  | deadline =>
    obtain ⟨-, rfl⟩ := guarded h
    exact ⟨⟨Sender.noConfusion, rfl, hx.callback⟩, rfl⟩
  | fire | reset =>
    obtain ⟨-, rfl⟩ := guarded h
    exact ⟨⟨hx.sender, hx.pending, Callback.noConfusion⟩, rfl⟩
  | check =>
    obtain ⟨-, ⟨-, rfl⟩ | ⟨hp, -, rfl⟩ | ⟨hp, -, rfl⟩⟩ := check_cases h
    · exact ⟨⟨hx.sender, hx.pending, Callback.noConfusion⟩, rfl⟩
    · exact Bool.noConfusion (hp.symm.trans hx.pending)
    · exact Bool.noConfusion (hp.symm.trans hx.pending)
  | resend =>
    obtain ⟨hc, -⟩ := guarded h
    exact absurd hc hx.callback
  | response =>
    obtain ⟨-, rfl | ⟨hp, -⟩⟩ := response_cases h
    · exact ⟨hx, rfl⟩
    · exact Bool.noConfusion (hp.symm.trans hx.pending)
  | stop | deliver =>
    obtain ⟨-, rfl⟩ := guarded h
    exact ⟨⟨hx.sender, hx.pending, hx.callback⟩, rfl⟩
  | tick d =>
    cases h
    exact ⟨⟨hx.sender, hx.pending, hx.callback⟩, rfl⟩

theorem Quiet.run (hx : x.Quiet) (h : runOk (RequestTimer.step cfg) x es = some x') :
    x'.sends = x.sends := by
  refine (run_invariant (I := fun y => y.Quiet ∧ y.sends = x.sends) ?_ ⟨hx, rfl⟩ h).2
  rintro y e y' ⟨hy, hsends⟩ hstep
  obtain ⟨hy', heq⟩ := hy.step hstep
  exact ⟨hy', heq.trans hsends⟩

theorem Taken.quiet (hx : x.Taken) (ha : x.Answered) (hc : x.callback ≠ .checked) : x.Quiet :=
  ⟨hx.written ha, hx.pending ha, hc⟩

/-- With N1 at 0 or 1 the callback never writes. -/
theorem checked_step (hx : x.callback = .checked → 1 < cfg.n1) (h : x.step cfg e = some x') :
    x'.callback = .checked → 1 < cfg.n1 := by
  cases e with
  | check =>
    grind [check_cases]
  | fire | resend | reset =>
    obtain ⟨-, rfl⟩ := guarded h
    exact Callback.noConfusion
  | response =>
    obtain ⟨-, rfl | ⟨-, rfl⟩⟩ := response_cases h <;> exact hx
  | tick d =>
    cases h
    exact hx
  | _ =>
    obtain ⟨-, rfl⟩ := guarded h
    exact hx

/-! ## A request that nobody answers -/

theorem copies_succ (cfg : T1Config) (k : Nat) :
    copies cfg (k + 1) = k * cfg.t1 :: copies cfg k := by
  rw [copies, range_succ, map_append, reverse_append]
  rfl

/-- The states of a prompt run without a response, by what is to happen next. -/
inductive Phase (cfg : T1Config) : RequestTimer → Prop
  | registered : Phase cfg start
  | written : Phase cfg { start with sender := .written, sends := copies cfg 1 }
  /-- The timer runs, with `k` retransmissions behind it. -/
  | armed (k now : Nat) (hk : k = 0 ∨ k < cfg.n1) (hle : now ≤ (k + 1) * cfg.t1) :
    Phase cfg { start with
      now, sender := .waiting, attempts := k, timer := some ((k + 1) * cfg.t1)
      sends := copies cfg (k + 1) }
  | expired (k : Nat) (hk : k = 0 ∨ k < cfg.n1) :
    Phase cfg { start with
      now := (k + 1) * cfg.t1, sender := .waiting, attempts := k, callback := .started
      sends := copies cfg (k + 1) }
  | checked (k : Nat) (hk : k + 1 < cfg.n1) :
    Phase cfg { start with
      now := (k + 1) * cfg.t1, sender := .waiting, attempts := k + 1, callback := .checked
      sends := copies cfg (k + 1) }
  | resent (k : Nat) (hk : k + 1 < cfg.n1) :
    Phase cfg { start with
      now := (k + 1) * cfg.t1, sender := .waiting, attempts := k + 1, callback := .resent
      sends := copies cfg (k + 2) }
  /-- No timer is left, and the deadline is waited for. -/
  | spent (k now : Nat) (hk : k = 0 ∨ k < cfg.n1) (hlast : cfg.n1 ≤ k + 1) :
    Phase cfg { start with
      now, sender := .waiting, attempts := k + 1, sends := copies cfg (k + 1) }
  | failed (k now : Nat) (hk : k = 0 ∨ k < cfg.n1) (hlast : cfg.n1 ≤ k + 1) :
    Phase cfg { start with
      now, sender := .returned, pending := false, attempts := k + 1
      results := [.t1Exhausted], sends := copies cfg (k + 1) }
  | unsent (now : Nat) :
    Phase cfg { start with
      now, sender := .returned, pending := false, results := [.send] }

/-- No timer goes off as late as the deadline. -/
theorem expiry_lt (cfg : T1Config) (hk : k = 0 ∨ k < cfg.n1) : (k + 1) * cfg.t1 < cfg.deadline := by
  have hle : (k + 1) * cfg.t1 ≤ (cfg.n1 + 1) * cfg.t1 := mul_le_mul_right _ (by omega)
  unfold T1Config.deadline
  omega

theorem copies_one (cfg : T1Config) : copies cfg 1 = [0] := by
  rw [copies_succ, Nat.zero_mul]
  rfl

theorem Phase.step (hx : Phase cfg x) (hs : x.Silent cfg e) (h : x.step cfg e = some x') :
    Phase cfg x' := by
  cases e with
  | write =>
    obtain ⟨hg, rfl⟩ := guarded h
    cases hx with
    | registered =>
      have hphase : Phase cfg _ := .written
      rw [copies_one] at hphase
      exact hphase
    | _ => cases hg
  | writeFails =>
    obtain ⟨hg, rfl⟩ := guarded h
    cases hx with
    | registered => exact .unsent 0
    | _ => cases hg
  | arm =>
    obtain ⟨hg, rfl⟩ := guarded h
    cases hx with
    | written =>
      have hphase : Phase cfg _ := .armed 0 0 (inl rfl) (zero_le _)
      rw [Nat.zero_add, Nat.one_mul] at hphase
      have hzero : start.now + cfg.t1 = cfg.t1 := Nat.zero_add _
      rw [hzero]
      exact hphase
    | _ => cases hg
  | receive =>
    obtain ⟨⟨hg, hch⟩, -⟩ := guarded h
    cases hx with
    | registered | written | failed | unsent => cases hg
    | _ => cases hch
  | deadline =>
    obtain ⟨⟨hg, hle⟩, rfl⟩ := guarded h
    cases hx with
    | registered | written | failed | unsent => cases hg
    | armed k now hk hnow =>
      exact absurd (le_trans hle hnow) (not_le.mpr (expiry_lt cfg hk))
    | expired k hk => exact absurd hle (not_le.mpr (expiry_lt cfg hk))
    | checked k hk
    | resent k hk => exact absurd hle (not_le.mpr (expiry_lt cfg (inr (by omega))))
    | spent k now hk hlast => exact .failed k now hk hlast
  | fire =>
    obtain ⟨⟨htimer, hc⟩, rfl⟩ := guarded h
    cases hx with
    | armed k now hk hnow =>
      have hdue : (k + 1) * cfg.t1 ≤ now := of_decide_eq_true htimer
      obtain rfl : now = (k + 1) * cfg.t1 := le_antisymm hnow hdue
      exact .expired k hk
    | _ => cases htimer
  | check =>
    obtain ⟨hc, hcases⟩ := check_cases h
    cases hx with
    | expired k hk =>
      obtain ⟨hp, -⟩ | ⟨-, hlast, rfl⟩ | ⟨-, hlt, rfl⟩ := hcases
      · cases hp
      · exact .spent k _ hk hlast
      · exact .checked k hlt
    | _ => cases hc
  | resend =>
    obtain ⟨hc, rfl⟩ := guarded h
    cases hx with
    | checked k hk =>
      have hphase : Phase cfg _ := .resent k hk
      rw [copies_succ cfg (k + 1)] at hphase
      exact hphase
    | _ => cases hc
  | reset =>
    obtain ⟨hc, rfl⟩ := guarded h
    cases hx with
    | resent k hk =>
      have hphase : Phase cfg _ := .armed (k + 1) ((k + 1) * cfg.t1) (inr hk)
        (mul_le_mul_right _ (le_succ _))
      rw [succ_mul (k + 1)] at hphase
      exact hphase
    | _ => cases hc
  | response => exact absurd rfl hs.1
  | stop | deliver =>
    obtain ⟨hd, -⟩ := guarded h
    cases hx with
    | _ => cases hd
  | tick d =>
    obtain ⟨hwaits, htimer, hdeadline⟩ := hs.2
    cases h
    cases hx with
    | registered | written =>
      obtain ⟨hsender, -⟩ | hsender := hwaits.sender <;> cases hsender
    | armed k now hk hnow => exact .armed k (now + d) hk (htimer _ rfl)
    | expired | checked | resent => cases hwaits.callback
    | spent k now hk hlast => exact .spent k (now + d) hk hlast
    | failed k now hk hlast => exact .failed k (now + d) hk hlast
    | unsent now => exact .unsent (now + d)

/-- A request that fails unanswered has been sent N1 times, or once if N1 is 0. -/
theorem silent_copies (h : ReachOk (step cfg) (Silent cfg) start x)
    (hr : x.results = [.t1Exhausted]) : x.sends = copies cfg (max 1 cfg.n1) := by
  have hphase : Phase cfg x := h.invariant .registered fun _ _ _ hx hs hstep => hx.step hs hstep
  cases hphase with
  | failed k now hk hlast =>
    have hmax : max 1 cfg.n1 = k + 1 := by omega
    rw [hmax]
  | registered | written | unsent => cases hr
  | _ => cases hr

/-! ## A run without a response -/

/-- The timer has just been armed, with `k` retransmissions behind it. -/
def armedAfter (cfg : T1Config) (k : Nat) : RequestTimer :=
  { start with
    now := k * cfg.t1, sender := .waiting, attempts := k, timer := some ((k + 1) * cfg.t1)
    sends := copies cfg (k + 1) }

/-- It has gone off. -/
def expiredAfter (cfg : T1Config) (k : Nat) : RequestTimer :=
  { start with
    now := (k + 1) * cfg.t1, sender := .waiting, attempts := k, callback := .started
    sends := copies cfg (k + 1) }

theorem silent_of_not_env (h : e.isEnv = false) : x.Silent cfg e := by
  cases e with
  | response | tick d => cases h
  | _ => exact ⟨Event.noConfusion, trivial⟩

theorem silent_tick {d : Nat} (hwaits : x.Waits)
    (htimer : ∀ due, x.timer = some due → x.now + d ≤ due)
    (hdeadline : x.sender = .waiting → x.now + d ≤ cfg.deadline) : x.Silent cfg (.tick d) :=
  ⟨Event.noConfusion, hwaits, htimer, hdeadline⟩

theorem expired_reached (hk : k = 0 ∨ k < cfg.n1)
    (h : ReachOk (step cfg) (Silent cfg) start (armedAfter cfg k)) :
    ReachOk (step cfg) (Silent cfg) start (expiredAfter cfg k) := by
  have hnow : (armedAfter cfg k).now + cfg.t1 = (k + 1) * cfg.t1 := (succ_mul k cfg.t1).symm
  have hsilent : (armedAfter cfg k).Silent cfg (.tick cfg.t1) := by
    refine silent_tick ⟨inl ⟨rfl, rfl⟩, rfl, inl rfl⟩ ?_ fun _ => ?_
    · rintro due ⟨⟩
      exact le_of_eq hnow
    · rw [hnow]
      exact le_of_lt (expiry_lt cfg hk)
  have hticked := h.next (.tick cfg.t1) hsilent rfl
  refine hticked.next .fire (silent_of_not_env rfl) ?_
  rw [step, hnow, if_pos ⟨decide_eq_true (le_refl _), rfl⟩]
  rfl

/-- While a retransmission is left, the timer is armed again. -/
theorem rearmed_reached (hlt : k + 1 < cfg.n1)
    (h : ReachOk (step cfg) (Silent cfg) start (expiredAfter cfg k)) :
    ReachOk (step cfg) (Silent cfg) start (armedAfter cfg (k + 1)) := by
  have hchecked := h.next .check (silent_of_not_env rfl) (check_more rfl rfl hlt)
  have hresent := hchecked.next .resend (silent_of_not_env rfl) rfl
  refine hresent.next .reset (silent_of_not_env rfl) ?_
  rw [armedAfter, copies_succ, succ_mul (k + 1)]
  rfl

theorem armed_reached (cfg : T1Config) (k : Nat) (hk : k = 0 ∨ k < cfg.n1) :
    ReachOk (step cfg) (Silent cfg) start (armedAfter cfg k) := by
  induction k with
  | zero =>
    have hwritten : ReachOk (step cfg) (Silent cfg) start _ :=
      ReachOk.start.next .write (silent_of_not_env rfl) rfl
    refine hwritten.next .arm (silent_of_not_env rfl) ?_
    have hnow : start.now + cfg.t1 = cfg.t1 := Nat.zero_add _
    rw [armedAfter, copies_one, Nat.zero_add, Nat.one_mul, Nat.zero_mul, step, if_pos rfl, hnow]
    rfl
  | succ k ih =>
    have hlt : k + 1 < cfg.n1 := hk.resolve_left (succ_ne_zero k)
    exact rearmed_reached hlt (expired_reached (inr (by omega)) (ih (inr (by omega))))

/-- A request that nobody answers does fail. -/
theorem failure_reached (cfg : T1Config) :
    ∃ x, ReachOk (step cfg) (Silent cfg) start x ∧ x.results = [.t1Exhausted] := by
  obtain ⟨k, hk, hlast⟩ : ∃ k, (k = 0 ∨ k < cfg.n1) ∧ cfg.n1 ≤ k + 1 :=
    ⟨cfg.n1 - 1, by omega, by omega⟩
  have hexpired := expired_reached hk (armed_reached cfg k hk)
  have hspent := hexpired.next .check (silent_of_not_env rfl) (check_last rfl rfl hlast)
  have hnow : (k + 1) * cfg.t1 + (cfg.deadline - (k + 1) * cfg.t1) = cfg.deadline :=
    add_sub_of_le (le_of_lt (expiry_lt cfg hk))
  have hlate := hspent.next (.tick (cfg.deadline - (k + 1) * cfg.t1))
    (silent_tick ⟨inl ⟨rfl, rfl⟩, rfl, inl rfl⟩
      (fun _ hdue => absurd hdue.symm (some_ne_none _)) fun _ => le_of_eq hnow) rfl
  exact ⟨_, hlate.next .deadline (silent_of_not_env rfl)
    (if_pos ⟨rfl, le_of_eq hnow.symm⟩), rfl⟩

theorem length_copies (cfg : T1Config) (k : Nat) : (copies cfg k).length = k := by
  rw [copies, length_reverse, length_map, length_range]

theorem start_quiet (hn : cfg.n1 ≤ 1) {es' : List Event} (h : runOk (step cfg) start es = some x)
    (ha : x.Answered) (h' : runOk (step cfg) x es' = some x') : x'.sends = x.sends := by
  have hinv := run_invariant (I := fun y => y.Taken ∧ (y.callback = .checked → 1 < cfg.n1))
    (fun _ _ _ hy hstep => ⟨hy.1.step hstep, checked_step hy.2 hstep⟩)
    ⟨start_taken, Callback.noConfusion⟩ h
  exact (hinv.1.quiet ha fun hc => not_lt.mpr hn (hinv.2 hc)).run h'

/-- The rule holds of the configurations without retransmissions.  A request that nobody answers is
sent N1 times, or once if N1 is 0; no copy follows a response unless a callback is past its check
then; and the caller is completed once. -/
theorem exchange_law_iff (cfg : T1Config) :
    (Law cfg ↔ cfg.n1 = 0) ∧
      (∀ x, ReachOk (step cfg) (Silent cfg) start x → x.results = [.t1Exhausted] →
        x.sends = copies cfg (max 1 cfg.n1)) ∧
      (∀ es x es' x', runOk (step cfg) start es = some x → x.Answered →
        x.callback ≠ .checked → runOk (step cfg) x es' = some x' → x'.sends = x.sends) ∧
      (∀ es x, runOk (step cfg) start es = some x →
        x.results.length ≤ 1 ∧ (x.Answered → x.Finished cfg → x.results.length = 1)) := by
  have honce : ∀ es x, runOk (step cfg) start es = some x →
      x.results.length ≤ 1 ∧ (x.Answered → x.Finished cfg → x.results.length = 1) := by
    intro es x hrun
    have hx : x.Once := run_invariant (fun _ _ _ hy hstep => hy.step hstep) start_once hrun
    exact ⟨hx.length_le, hx.completed⟩
  refine ⟨⟨fun hlaw => ?_, fun hn => ⟨?_, ?_, honce⟩⟩, ?_, ?_, honce⟩
  · obtain ⟨x, hx, hfailed⟩ := failure_reached cfg
    have hcopies := (silent_copies hx hfailed).symm.trans (hlaw.silent x hx hfailed)
    grind [length_copies]
  · grind [silent_copies]
  · intro es x es' x' hrun ha hrun'
    exact start_quiet (by omega) hrun ha hrun'
  · exact fun x hx hfailed => silent_copies hx hfailed
  · intro es x es' x' hrun ha hc hrun'
    have hx : x.Taken := run_invariant (fun _ _ _ hy hstep => hy.step hstep) start_taken hrun
    exact (hx.quiet ha hc).run hrun'

/-- With the default T1 and N1 a request is sent four times. -/
theorem default_breaks_law : ¬Law ⟨3000000000, 4, by decide⟩ := by
  intro hlaw
  obtain ⟨x, hx, hfailed⟩ := failure_reached ⟨3000000000, 4, by decide⟩
  have hsent : x.sends.length = 4 := by
    rw [silent_copies hx hfailed]
    rfl
  have hpromised : x.sends.length = 5 := by
    rw [hlaw.silent x hx hfailed]
    rfl
  exact absurd (hsent.symm.trans hpromised) (by decide)

end RequestTimer

end MmtCore.Pfcp
