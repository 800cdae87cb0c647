import MmtCore.Sip.Message

/-!
# SIP server transactions

The INVITE and the non-INVITE server transaction, the table they are registered in, and the
dispatcher that matches requests against it.  The callback of a transaction removes it from the
table, and `Remove` waits for the loop of what it has removed to end.
-/

namespace MmtCore.Sip

open MmtCore.Lib Function

inductive TimerOp
  | start (id : String) (afterMs : Nat)
  | cancel (id : String)

/-- What a handler does: the responses it sends, whether it calls `OnTerminated`, and the action it
returns. -/
structure TxnAction (S ρ : Type) where
  sent : List ρ
  terminates : Bool
  next : Option S
  timers : List TimerOp

variable {ρ : Type}

/-- `sendLast`. -/
def sendLast : Option ρ → List ρ
  | none => []
  | some resp => [resp]

/-! ## INVITE -/

inductive ISState
  | proceeding
  | completed
  | confirmed
  | terminated
  deriving DecidableEq

/-- The argument of a `Send…` is a pointer that may be nil. -/
inductive ISEvent (ρ : Type)
  | sendProvisional (resp : Option ρ)
  | send2xx (resp : Option ρ)
  | sendFinalErr (resp : Option ρ)
  | ack
  | retransmitReq
  | timerG
  | timerH
  | timerI
  | transportErr

/-- The response that comes with an event. -/
def ISEvent.resp : ISEvent ρ → Option ρ
  | .sendProvisional resp | .send2xx resp | .sendFinalErr resp => resp
  | _ => none

/-- Whether the TU sends a 1xx. -/
def ISEvent.isProvisional : ISEvent ρ → Bool
  | .sendProvisional _ => true
  | _ => false

structure InviteServerTxn (ρ : Type) where
  state : ISState
  lastResp : Option ρ
  retxIntervalMs : Nat
  reliableTransport : Bool

namespace InviteServerTxn

def new (reliable : Bool) : InviteServerTxn ρ := ⟨.proceeding, none, 500, reliable⟩

def stopTimers : List TimerOp := [.cancel "G", .cancel "H", .cancel "I"]

def terminate (sent : List ρ) (extra : List TimerOp) : TxnAction ISState ρ :=
  ⟨sent, true, some .terminated, extra ++ stopTimers⟩

def onProceeding (t : InviteServerTxn ρ) : ISEvent ρ → TxnAction ISState ρ
  | .sendProvisional _ => ⟨sendLast t.lastResp, false, none, []⟩
  | .send2xx _ => terminate (sendLast t.lastResp) []
  | .sendFinalErr _ =>
    ⟨sendLast t.lastResp, false, some .completed, .start "H" (64 * 500) ::
      if t.reliableTransport then [] else [.start "G" t.retxIntervalMs]⟩
  | .retransmitReq => ⟨sendLast t.lastResp, false, none, []⟩
  | .transportErr => terminate [] []
  | _ => ⟨[], false, none, []⟩

/-- The interval after the next retransmission. -/
def nextInterval (ms : Nat) : Nat := if 4000 < ms * 2 then 4000 else ms * 2

def onCompleted (t : InviteServerTxn ρ) : ISEvent ρ → TxnAction ISState ρ
  | .timerG => ⟨sendLast t.lastResp, false, none, [.start "G" (nextInterval t.retxIntervalMs)]⟩
  | .retransmitReq => ⟨sendLast t.lastResp, false, none, []⟩
  | .ack =>
    let timers := [.cancel "G", .cancel "H"]
    if t.reliableTransport then terminate [] timers
    else ⟨[], false, some .confirmed, timers ++ [.start "I" 5000]⟩
  | .timerH | .transportErr => terminate [] []
  | _ => ⟨[], false, none, []⟩

def onConfirmed : ISEvent ρ → TxnAction ISState ρ
  | .timerI => terminate [] []
  | _ => ⟨[], false, none, []⟩

/-- The last response is stored before the state is looked at. -/
def store (t : InviteServerTxn ρ) (ev : ISEvent ρ) : InviteServerTxn ρ :=
  match ev.resp with
  | some resp => { t with lastResp := some resp }
  | none => t

def action (t : InviteServerTxn ρ) (ev : ISEvent ρ) : TxnAction ISState ρ :=
  match t.state with
  | .proceeding => t.onProceeding ev
  | .completed => t.onCompleted ev
  | .confirmed => onConfirmed ev
  | .terminated => ⟨[], false, none, []⟩

/-- What the handler leaves behind before the loop sets the next state. -/
def touched (t : InviteServerTxn ρ) (ev : ISEvent ρ) : InviteServerTxn ρ :=
  match t.state, ev with
  | .completed, .timerG => { t.store ev with retxIntervalMs := nextInterval t.retxIntervalMs }
  | _, _ => t.store ev

end InviteServerTxn

/-! ## Non-INVITE -/

inductive NISState
  | trying
  | proceeding
  | completed
  | terminated
  deriving DecidableEq

inductive NISEvent (ρ : Type)
  | sendProvisional (resp : Option ρ)
  | sendFinal (resp : Option ρ)
  | retransmitReq
  | timerJ
  | transportErr

def NISEvent.resp : NISEvent ρ → Option ρ
  | .sendProvisional resp | .sendFinal resp => resp
  | _ => none

def NISEvent.isProvisional : NISEvent ρ → Bool
  | .sendProvisional _ => true
  | _ => false

structure NonInviteServerTxn (ρ : Type) where
  state : NISState
  lastResp : Option ρ
  reliableTransport : Bool

namespace NonInviteServerTxn

def new (reliable : Bool) : NonInviteServerTxn ρ := ⟨.trying, none, reliable⟩

def terminate (sent : List ρ) : TxnAction NISState ρ :=
  ⟨sent, true, some .terminated, [.cancel "J"]⟩

def goCompleted (t : NonInviteServerTxn ρ) (sent : List ρ) : TxnAction NISState ρ :=
  if t.reliableTransport then terminate sent
  else ⟨sent, false, some .completed, [.start "J" (64 * 500)]⟩

def onTrying (t : NonInviteServerTxn ρ) : NISEvent ρ → TxnAction NISState ρ
  | .sendProvisional _ => ⟨sendLast t.lastResp, false, some .proceeding, []⟩
  | .sendFinal _ => t.goCompleted (sendLast t.lastResp)
  | .retransmitReq => ⟨[], false, none, []⟩
  | .transportErr => terminate []
  | .timerJ => ⟨[], false, none, []⟩

def onProceeding (t : NonInviteServerTxn ρ) : NISEvent ρ → TxnAction NISState ρ
  | .sendProvisional _ => ⟨sendLast t.lastResp, false, none, []⟩
  | .sendFinal _ => t.goCompleted (sendLast t.lastResp)
  | .retransmitReq => ⟨sendLast t.lastResp, false, none, []⟩
  | .transportErr => terminate []
  | .timerJ => ⟨[], false, none, []⟩

def onCompleted (t : NonInviteServerTxn ρ) : NISEvent ρ → TxnAction NISState ρ
  | .retransmitReq => ⟨sendLast t.lastResp, false, none, []⟩
  | .timerJ | .transportErr => terminate []
  | _ => ⟨[], false, none, []⟩

def store (t : NonInviteServerTxn ρ) (ev : NISEvent ρ) : NonInviteServerTxn ρ :=
  match ev.resp with
  | some resp => { t with lastResp := some resp }
  | none => t

def action (t : NonInviteServerTxn ρ) (ev : NISEvent ρ) : TxnAction NISState ρ :=
  match t.state with
  | .trying => t.onTrying ev
  | .proceeding => t.onProceeding ev
  | .completed => t.onCompleted ev
  | .terminated => ⟨[], false, none, []⟩

end NonInviteServerTxn

/-! ## Transactions -/

/-- What is read of a request to match it: the topmost Via and the method. -/
structure Request where
  via : Bytes
  method : Bytes
  deriving DecidableEq

inductive TxnMachine (ρ : Type)
  | invite (t : InviteServerTxn ρ)
  | nonInvite (t : NonInviteServerTxn ρ)

/-- An event for one of the two machines. -/
inductive TxnEvent (ρ : Type)
  | invite (ev : ISEvent ρ)
  | nonInvite (ev : NISEvent ρ)

namespace TxnMachine

def terminated : TxnMachine ρ → Bool
  | .invite t => t.state = .terminated
  | .nonInvite t => t.state = .terminated

/-- What the handler sends and whether it calls `OnTerminated`; an event of the other machine cannot
be sent. -/
def effects : TxnMachine ρ → TxnEvent ρ → List ρ × Bool
  | .invite t, .invite ev => (((t.store ev).action ev).sent, ((t.store ev).action ev).terminates)
  | .nonInvite t, .nonInvite ev =>
    (((t.store ev).action ev).sent, ((t.store ev).action ev).terminates)
  | _, _ => ([], false)

/-- What the handler has written. -/
def touched : TxnMachine ρ → TxnEvent ρ → TxnMachine ρ
  | .invite t, .invite ev => .invite (t.touched ev)
  | .nonInvite t, .nonInvite ev => .nonInvite (t.store ev)
  | m, _ => m

/-- What the machine is once the handler has returned and the loop has set the next state. -/
def handle : TxnMachine ρ → TxnEvent ρ → TxnMachine ρ
  | .invite t, .invite ev =>
    .invite { t.touched ev with state := ((t.store ev).action ev).next.getD t.state }
  | .nonInvite t, .nonInvite ev =>
    .nonInvite { t.store ev with state := ((t.store ev).action ev).next.getD t.state }
  | m, _ => m

/-- The machine of a handler that returns after all. -/
def finish : TxnMachine ρ → TxnMachine ρ
  | .invite t => .invite { t with state := .terminated }
  | .nonInvite t => .nonInvite { t with state := .terminated }

end TxnMachine

/-- Branch and method. -/
abbrev TxnKey := Bytes × Bytes

structure ServerTxn (ρ : Type) where
  request : Request
  machine : TxnMachine ρ
  /-- What `OnTerminated` removes. -/
  callback : TxnKey
  /-- `Stop` has been called. -/
  done : Bool
  /-- The loop has ended. -/
  stopped : Bool
  /-- The loop is in `OnTerminated`, where it waits for this loop to end. -/
  waitsFor : Option Nat
  /-- What has been sent. -/
  sent : List ρ
  /-- How often `OnTerminated` has been called. -/
  reports : Nat

/-- `extractBranch`. -/
def extractBranch (viaHeader : Bytes) : Bytes := extractParam viaHeader (txt "branch")

/-- The dispatcher looks for the branch after the first semicolon. -/
def extractBranchFromVia (via : Bytes) : Bytes :=
  match cut [59] via with
  | none => []
  | some (_, rest) => extractParam rest (txt "branch")

/-- The key that a transaction is registered under. -/
def ServerTxn.key (t : ServerTxn ρ) : TxnKey :=
  match t.machine with
  | .invite _ => (extractBranch t.request.via, txt "INVITE")
  | .nonInvite _ => (extractBranch t.request.via, t.request.method)

/-! ## The server -/

structure Server (ρ : Type) where
  txn : Nat → Option (ServerTxn ρ)
  table : AssocMap TxnKey Nat
  /-- The goroutines of `dispatch` that have found no transaction and go on to open one. -/
  opening : Nat → Option Request

inductive ServerInput (ρ : Type)
  /-- A goroutine of `dispatch` gets as far as `Get`. -/
  | dispatch (k : Nat) (req : Request)
  /-- It opens a transaction and adds it. -/
  | openTxn (k r : Nat) (reliable : Bool)
  /-- The loop of a transaction takes an event. -/
  | event (r : Nat) (ev : TxnEvent ρ)
  /-- A loop that has been told to ends. -/
  | exit (r : Nat)
  /-- A loop comes back from `OnTerminated`. -/
  | resume (r : Nat)

namespace Server

def new : Server ρ := ⟨fun _ => none, ∅, fun _ => none⟩

variable (s : Server ρ)

/-- The key that a request is looked up under; an ACK is matched against an INVITE. -/
def lookupKey (req : Request) : TxnKey :=
  (extractBranchFromVia req.via, if req.method = txt "ACK" then txt "INVITE" else req.method)

/-- `dispatchInvite` and `dispatchAck`: the INVITE transaction of a retransmission or an ACK. -/
def matchInvite (req : Request) : Option Nat :=
  match s.table.lookup (lookupKey req) with
  | none => none
  | some r =>
    match s.txn r with
    | some ⟨_, .invite _, _, _, _, _, _, _⟩ => some r
    | _ => none

/-- `dispatchNonInvite`: the transaction of a retransmission. -/
def matchNonInvite (req : Request) : Option Nat :=
  match s.table.lookup (lookupKey req) with
  | none => none
  | some r =>
    match s.txn r with
    | some ⟨_, .nonInvite _, _, _, _, _, _, _⟩ => some r
    | _ => none

/-- The transaction that `dispatch` hands the request to. -/
def matched (req : Request) : Option Nat :=
  if extractBranchFromVia req.via = [] ∨ req.method = txt "CANCEL" then none
  else if req.method = txt "INVITE" ∨ req.method = txt "ACK" then s.matchInvite req
  else s.matchNonInvite req

/-- Whether `dispatch` goes on to open a transaction; a CANCEL is not looked up. -/
def opens (req : Request) : Prop :=
  extractBranchFromVia req.via ≠ [] ∧ req.method ≠ txt "ACK" ∧
    (req.method = txt "CANCEL" ∨ s.table.lookup (lookupKey req) = none)
  deriving Decidable

/-- The transaction that is opened for a request. -/
def fresh (req : Request) (reliable : Bool) : ServerTxn ρ :=
  ⟨req, if req.method = txt "INVITE" then .invite (.new reliable) else .nonInvite (.new reliable),
    (extractBranchFromVia req.via, req.method), false, false, none, [], 0⟩

/-- A transaction is written. -/
def put (r : Nat) (t : ServerTxn ρ) : Server ρ :=
  { s with txn := update s.txn r (some t) }

/-- `Remove`, called by the loop of `r`: what is under the key is dropped, and stopped. -/
def removeFor (r : Nat) (t : ServerTxn ρ) (ev : TxnEvent ρ) : Server ρ :=
  match s.table.lookup t.callback with
  | none => s.put r { t with machine := t.machine.handle ev }
  | some r' =>
    let s' := s.put r { t with machine := t.machine.touched ev, waitsFor := some r' }
    { s' with
      table := s.table.erase t.callback
      txn := update s'.txn r' ((s'.txn r').map fun t' => { t' with done := true }) }

/-- The loop of `r` handles an event. -/
def handle (r : Nat) (ev : TxnEvent ρ) : Server ρ :=
  match s.txn r with
  | none => s
  | some t =>
    if t.stopped = true ∨ t.waitsFor ≠ none then s
    else
      let effects := t.machine.effects ev
      let t := { t with sent := t.sent ++ effects.1 }
      if effects.2 then s.removeFor r { t with reports := t.reports + 1 } ev
      else s.put r { t with machine := t.machine.handle ev }

def exit (r : Nat) : Server ρ :=
  match s.txn r with
  | none => s
  | some t => if t.done = true ∧ t.waitsFor = none then s.put r { t with stopped := true } else s

def resume (r : Nat) : Server ρ :=
  match s.txn r with
  | none => s
  | some t =>
    match t.waitsFor.bind s.txn with
    | none => s
    | some t' =>
      if t'.stopped then s.put r { t with machine := t.machine.finish, waitsFor := none } else s

def dispatch (k : Nat) (req : Request) : Server ρ :=
  if s.opens req then { s with opening := update s.opening k (some req) } else s

def openTxn (k r : Nat) (reliable : Bool) : Server ρ :=
  match s.opening k, s.txn r with
  | some req, none =>
    let t := fresh req reliable
    { s.put r t with
      table := s.table.insert t.key r
      opening := update s.opening k none }
  | _, _ => s

def step : ServerInput ρ → Server ρ
  | .dispatch k req => s.dispatch k req
  | .openTxn k r reliable => s.openTxn k r reliable
  | .event r ev => s.handle r ev
  | .exit r => s.exit r
  | .resume r => s.resume r

end Server

end MmtCore.Sip
