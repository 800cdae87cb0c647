import MmtCore.Lib.Reach
import MmtCore.Pfcp.Header

/-!
# The PFCP transport

`transport.go`: any number of goroutines in `SendRequest`, one `dispatch` for each datagram, timers
that may fire at any time, all sharing the map of pending requests.  An event is one section under
the mutex, or one step of a goroutine between two of them.

`dispatch` asks one question of a datagram: is its sequence number pending.  It does not look at the
message type, nor at the peer.  So the transport correlates as it should exactly as long as no
datagram but the expected response arrives with a pending number (`transport_correlates`).
-/

namespace MmtCore.Pfcp

open MmtCore.Lib Function List Option Or

/-! ## State -/

/-- `EncodedMessage`. -/
structure EncodedMessage where
  msgType : UInt8
  seid : UInt64
  ies : List UInt8
deriving DecidableEq

inductive SendError
  | closed
  | collision
  | send
  | t1Exhausted
deriving DecidableEq

/-- The channel of a pending request, which holds one payload at most. -/
inductive Chan
  | empty
  | full (payload : List UInt8)
  | closed
deriving DecidableEq

/-- Where a call of `SendRequest` stands. -/
inductive Stage
  /-- It has a sequence number. -/
  | allocated
  /-- It is in the map. -/
  | registered
  /-- The request is sent, and it waits for the response or the deadline. -/
  | waiting
  | returned (result : Except SendError (List UInt8))

/-- A call of `SendRequest`, with its channel. -/
structure Call (Peer : Type) where
  peer : Peer
  msg : EncodedMessage
  seq : UInt32
  stage : Stage
  ch : Chan

/-- `pendingRequest`; `call` is the call whose channel it holds. -/
structure PendingRequest (Peer : Type) where
  seq : UInt32
  peer : Peer
  pdu : List UInt8
  call : Nat
  attempts : Nat

/-- A datagram, as `dispatch` reads it. -/
structure Inbound (Peer : Type) where
  hdr : Header
  payload : List UInt8
  peer : Peer

structure Transport (Peer : Type) where
  seq : UInt32
  pending : UInt32 → Option (PendingRequest Peer)
  n1 : Nat
  closed : Bool
  /-- The handler is installed. -/
  handler : Bool
  /-- The calls of `SendRequest` so far, by their number. -/
  calls : Nat → Option (Call Peer)
  callCount : Nat
  /-- The datagrams that arrived and have a header, the last one first. -/
  inbound : List (Inbound Peer)
  /-- What the handler was invoked on, the last one first. -/
  handled : List (Inbound Peer)
  /-- What was written to the socket, the last one first. -/
  sent : List (List UInt8 × Peer)

variable {Peer : Type}

/-- `NewTransport`. -/
def newTransport : Transport Peer where
  seq := 0
  pending := fun _ => none
  n1 := 4
  closed := false
  handler := false
  calls := fun _ => none
  callCount := 0
  inbound := []
  handled := []
  sent := []

/-! ## Operations -/

/-- `allocateSeq`: the counter, and the number. -/
def allocateSeq (seq : UInt32) : UInt32 × UInt32 :=
  let v := (seq + 1) &&& 0xFFFFFF
  if v != 0 then (seq + 1, v) else (seq + 2, (seq + 2) &&& 0xFFFFFF)

/-- The datagram `SendRequest` builds. -/
def requestPDU (msg : EncodedMessage) (seq : UInt32) : List UInt8 :=
  let hdr : Header :=
    { version := 1, followOn := false, messagePriority := false, hasSEID := msg.seid != 0,
      messageType := msg.msgType, length := 0, seid := msg.seid, sequenceNumber := seq,
      priority := 0 }
  { hdr with length := UInt16.ofNat (hdr.headerSize - 4 + msg.ies.length) }.encode ++ msg.ies

namespace Transport

/-- A call moves on. -/
def setStage (t : Transport Peer) (i : Nat) (stage : Stage) : Transport Peer :=
  { t with calls := update t.calls i ((t.calls i).map fun c => { c with stage }) }

def setChan (t : Transport Peer) (i : Nat) (ch : Chan) : Transport Peer :=
  { t with calls := update t.calls i ((t.calls i).map fun c => { c with ch }) }

/-- `removePending`. -/
def removePending (t : Transport Peer) (seq : UInt32) : Transport Peer :=
  { t with pending := update t.pending seq none }

/-- `WriteToUDP`. -/
def write (t : Transport Peer) (pdu : List UInt8) (peer : Peer) : Transport Peer :=
  { t with sent := (pdu, peer) :: t.sent }

/-- The beginning of `SendRequest`, up to `allocateSeq`. -/
def sendRequest (t : Transport Peer) (peer : Option Peer) (msg : EncodedMessage) :
    Transport Peer :=
  if t.closed then t
  else
    match peer with
    | none => t
    | some peer =>
      let r := allocateSeq t.seq
      { t with
        seq := r.1
        calls := update t.calls t.callCount
          (some { peer, msg, seq := r.2, stage := .allocated, ch := .empty })
        callCount := t.callCount + 1 }

/-- The section of `SendRequest` that enters the request into the map. -/
def register (t : Transport Peer) (i : Nat) : Transport Peer :=
  match t.calls i with
  | some { peer, msg, seq, stage := .allocated, .. } =>
    match t.pending seq with
    | some _ => t.setStage i (.returned (.error .collision))
    | none =>
      { t with
        pending := update t.pending seq
          (some { seq, peer, pdu := requestPDU msg seq, call := i, attempts := 0 }) }.setStage
        i .registered
  | _ => t

/-- `SendRequest` writes the request; `ok` is whether the socket takes it. -/
def writeRequest (t : Transport Peer) (i : Nat) (ok : Bool) : Transport Peer :=
  match t.calls i with
  | some { peer, msg, seq, stage := .registered, .. } =>
    if ok then (t.write (requestPDU msg seq) peer).setStage i .waiting
    else (t.removePending seq).setStage i (.returned (.error .send))
  | _ => t

/-- The `select` of `SendRequest` takes what is in the channel. -/
def receive (t : Transport Peer) (i : Nat) : Transport Peer :=
  match t.calls i with
  | some { stage := .waiting, ch := .full payload, .. } =>
    t.setStage i (.returned (.ok payload))
  | some { stage := .waiting, ch := .closed, .. } => t.setStage i (.returned (.error .closed))
  | _ => t

/-- The `select` of `SendRequest` hits the deadline. -/
def deadline (t : Transport Peer) (i : Nat) : Transport Peer :=
  match t.calls i with
  | some { seq, stage := .waiting, .. } =>
    (t.removePending seq).setStage i (.returned (.error .t1Exhausted))
  | _ => t

/-- `onT1Expiry`. -/
def onT1Expiry (t : Transport Peer) (seq : UInt32) : Transport Peer :=
  match t.pending seq with
  | none => t
  | some p =>
    let t' := { t with
      pending := update t.pending seq (some { p with attempts := p.attempts + 1 }) }
    if p.attempts + 1 ≥ t.n1 then t' else t'.write p.pdu p.peer

/-- `dispatch`. -/
def dispatch (t : Transport Peer) (pdu : List UInt8) (peer : Peer) : Transport Peer :=
  match parseHeader pdu with
  | none => t
  | some (hdr, payload) =>
    let t := { t with inbound := ⟨hdr, payload, peer⟩ :: t.inbound }
    match t.pending hdr.sequenceNumber with
    | some p => (t.removePending hdr.sequenceNumber).setChan p.call (.full payload)
    | none => if t.handler then { t with handled := ⟨hdr, payload, peer⟩ :: t.handled } else t

/-- `Close`: the channels of all pending requests are closed. -/
def close (t : Transport Peer) : Transport Peer :=
  if t.closed then t
  else
    { t with
      closed := true
      pending := fun _ => none
      calls := fun i => (t.calls i).map fun c =>
        if (t.pending c.seq).any (·.call == i) then { c with ch := .closed } else c }

end Transport

/-! ## Events -/

inductive TransportEvent (Peer : Type)
  | setHandler
  | sendRequest (peer : Option Peer) (msg : EncodedMessage)
  | register (call : Nat)
  | writeRequest (call : Nat) (ok : Bool)
  | receive (call : Nat)
  | deadline (call : Nat)
  | t1Expiry (seq : UInt32)
  | datagram (pdu : List UInt8) (peer : Peer)
  | close

def Transport.step (t : Transport Peer) : TransportEvent Peer → Transport Peer
  | .setHandler => { t with handler := true }
  | .sendRequest peer msg => t.sendRequest peer msg
  | .register i => t.register i
  | .writeRequest i ok => t.writeRequest i ok
  | .receive i => t.receive i
  | .deadline i => t.deadline i
  | .t1Expiry seq => t.onT1Expiry seq
  | .datagram pdu peer => t.dispatch pdu peer
  | .close => t.close

/-! ## Correlation -/

/-- Is the message a request. -/
def Inbound.isRequest (m : Inbound Peer) : Bool := Pfcp.isRequest m.hdr.messageType

/-- The message is the response a call waits for. -/
def Call.AnsweredBy (c : Call Peer) (m : Inbound Peer) : Prop :=
  pairedResponse c.msg.msgType = some m.hdr.messageType ∧ m.hdr.sequenceNumber = c.seq ∧
    m.peer = c.peer

/-- Every request that arrived was handed to the handler, once; and a call of `SendRequest` returns
what a response to it carried that came from its peer. -/
structure Transport.Correlates (t : Transport Peer) : Prop where
  requests : t.handled.filter (·.isRequest) = t.inbound.filter (·.isRequest)
  responses : ∀ i c payload, t.calls i = some c → c.stage = .returned (.ok payload) →
    ∃ m ∈ t.inbound, m.payload = payload ∧ c.AnsweredBy m

/-- A datagram whose number is pending is the response to what is pending; and no request arrives
before the handler is installed. -/
def Transport.Expected (t : Transport Peer) : TransportEvent Peer → Prop
  | .datagram pdu peer => ∀ hdr payload, parseHeader pdu = some (hdr, payload) →
      (∀ p c, t.pending hdr.sequenceNumber = some p → t.calls p.call = some c →
        c.AnsweredBy ⟨hdr, payload, peer⟩) ∧
      (Pfcp.isRequest hdr.messageType = true → t.handler = true)
  | _ => True

/-- What is in the channel of a call came in the response it waits for. -/
def Transport.Delivered (t : Transport Peer) : Prop :=
  ∀ i c payload, t.calls i = some c → c.ch = .full payload →
    ∃ m ∈ t.inbound, m.payload = payload ∧ c.AnsweredBy m

structure Transport.Inv (t : Transport Peer) : Prop where
  correlates : t.Correlates
  delivered : t.Delivered
  known : ∀ seq p, t.pending seq = some p → (t.calls p.call).isSome = true

theorem newTransport_inv : (newTransport : Transport Peer).Inv where
  correlates := ⟨rfl, by intro i c payload hc; cases hc⟩
  delivered := by
    intro i c payload hc
    cases hc
  known := by
    intro seq p hp
    cases hp

/-! ## What the events do to the calls -/

/-- A call moves on: nothing gets into its channel, and it returns only what is there. -/
structure Call.Evolves (c c' : Call Peer) : Prop where
  msg : c'.msg = c.msg
  seq : c'.seq = c.seq
  peer : c'.peer = c.peer
  ch : ∀ payload, c'.ch = .full payload → c.ch = .full payload
  result : ∀ payload, c'.stage = .returned (.ok payload) →
    c.stage = .returned (.ok payload) ∨ c.ch = .full payload

theorem Call.Evolves.refl (c : Call Peer) : c.Evolves c :=
  ⟨rfl, rfl, rfl, fun _ h => h, fun _ h => inl h⟩

theorem Call.Evolves.answeredBy {c c' : Call Peer} (h : c.Evolves c') {m : Inbound Peer}
    (hm : c.AnsweredBy m) : c'.AnsweredBy m := by
  unfold Call.AnsweredBy at hm ⊢
  rw [h.msg, h.seq, h.peer]
  exact hm

/-- The event touches nothing but the calls, and these only as above; a call may be new. -/
structure Transport.Evolves (t t' : Transport Peer) : Prop where
  inbound : t'.inbound = t.inbound
  handled : t'.handled = t.handled
  calls : ∀ i c', t'.calls i = some c' →
    (∃ c, t.calls i = some c ∧ c.Evolves c') ∨ (c'.ch = .empty ∧ c'.stage = .allocated)
  kept : ∀ i, (t.calls i).isSome = true → (t'.calls i).isSome = true
  pending : ∀ seq p', t'.pending seq = some p' →
    (∃ p, t.pending seq = some p ∧ p.call = p'.call) ∨ (t.calls p'.call).isSome = true

theorem Transport.Evolves.refl (t : Transport Peer) : t.Evolves t :=
  ⟨rfl, rfl, fun _ c' hc => inl ⟨c', hc, Call.Evolves.refl c'⟩, fun _ h => h,
    fun _ p hp => inl ⟨p, hp, rfl⟩⟩

theorem Transport.Inv.evolve {t t' : Transport Peer} (h : t.Inv) (hev : t.Evolves t') : t'.Inv := by
  constructor
  · constructor
    · rw [hev.handled, hev.inbound]
      exact h.correlates.requests
    · intro i c' payload hc hstage
      rw [hev.inbound]
      rcases hev.calls i c' hc with ⟨c, hcall, hevolves⟩ | ⟨-, hnew⟩
      · rcases hevolves.result payload hstage with hret | hfull
        · obtain ⟨m, hm, hpay, hans⟩ := h.correlates.responses i c payload hcall hret
          exact ⟨m, hm, hpay, hevolves.answeredBy hans⟩
        · obtain ⟨m, hm, hpay, hans⟩ := h.delivered i c payload hcall hfull
          exact ⟨m, hm, hpay, hevolves.answeredBy hans⟩
      · rw [hnew] at hstage
        cases hstage
  · intro i c' payload hc hch
    rw [hev.inbound]
    rcases hev.calls i c' hc with ⟨c, hcall, hevolves⟩ | ⟨hnew, -⟩
    · obtain ⟨m, hm, hpay, hans⟩ := h.delivered i c payload hcall (hevolves.ch payload hch)
      exact ⟨m, hm, hpay, hevolves.answeredBy hans⟩
    · rw [hnew] at hch
      cases hch
  · intro seq p' hp'
    rcases hev.pending seq p' hp' with ⟨p, hp, hcall⟩ | hsome
    · refine hev.kept _ ?_
      rw [← hcall]
      exact h.known seq p hp
    · exact hev.kept _ hsome

/-- A call moves to a stage in which it has not returned a response, or returns what is in its
channel. -/
theorem Transport.Evolves.setStage (t : Transport Peer) (i : Nat) (stage : Stage)
    (h : ∀ c payload, t.calls i = some c → stage = .returned (.ok payload) →
      c.ch = .full payload) : t.Evolves (t.setStage i stage) := by
  refine ⟨rfl, rfl, fun j c' hc => inl ?_, fun j hj => ?_, fun _ p hp => inl ⟨p, hp, rfl⟩⟩
  · simp only [Transport.setStage] at hc
    by_cases hj : j = i
    · subst hj
      rw [update_self, map_eq_some_iff] at hc
      obtain ⟨c, hcall, rfl⟩ := hc
      exact ⟨c, hcall, rfl, rfl, rfl, fun _ hch => hch, fun payload hst =>
        inr (h c payload hcall hst)⟩
    · rw [update_of_ne hj] at hc
      exact ⟨c', hc, Call.Evolves.refl c'⟩
  · simp only [Transport.setStage]
    grind

/-- The map of pending requests, and what was sent, may change besides. -/
theorem Transport.Evolves.withPending {t t' : Transport Peer} (h : t.Evolves t')
    (pending : UInt32 → Option (PendingRequest Peer)) (sent : List (List UInt8 × Peer))
    (hpending : ∀ seq p', pending seq = some p' →
      (∃ p, t.pending seq = some p ∧ p.call = p'.call) ∨ (t.calls p'.call).isSome = true) :
    t.Evolves { t' with pending := pending, sent := sent } :=
  ⟨h.inbound, h.handled, h.calls, h.kept, hpending⟩

section

variable (t : Transport Peer)

theorem Transport.removePending_pending (seq : UInt32) :
    ∀ s p', (t.removePending seq).pending s = some p' →
      (∃ p, t.pending s = some p ∧ p.call = p'.call) ∨ (t.calls p'.call).isSome = true := by
  intro s p' hp'
  simp only [Transport.removePending] at hp'
  grind

/-! ## Every event but a datagram -/

theorem Transport.sendRequest_evolves (peer : Option Peer)
    (msg : EncodedMessage) : t.Evolves (t.sendRequest peer msg) := by
  unfold Transport.sendRequest
  split
  · exact .refl t
  · cases peer with
    | none => exact .refl t
    | some peer =>
      refine ⟨rfl, rfl, fun i c' hc => ?_, fun i hi => ?_, fun _ p hp => inl ⟨p, hp, rfl⟩⟩
      · dsimp only at hc
        by_cases hi : i = t.callCount
        · grind
        · rw [update_of_ne hi] at hc
          exact inl ⟨c', hc, Call.Evolves.refl c'⟩
      · grind

theorem Transport.register_evolves (i : Nat) : t.Evolves (t.register i) := by
  unfold Transport.register
  split
  · split
    · exact .setStage t i _ (by rintro c payload - ⟨⟩)
    · have hev := Evolves.setStage t i .registered (by rintro c payload - ⟨⟩)
      refine hev.withPending _ t.sent ?_
      grind
  · exact .refl t

theorem Transport.writeRequest_evolves (i : Nat) (ok : Bool) : t.Evolves (t.writeRequest i ok) := by
  unfold Transport.writeRequest
  split
  · rename_i peer msg seq ch hcall
    split
    · have hev := Evolves.setStage t i .waiting (by rintro c payload - ⟨⟩)
      exact hev.withPending t.pending _ fun _ p hp => inl ⟨p, hp, rfl⟩
    · have hev := Evolves.setStage t i (.returned (.error .send)) (by rintro c payload - ⟨⟩)
      exact hev.withPending _ t.sent (t.removePending_pending seq)
  · exact .refl t

theorem Transport.receive_evolves (i : Nat) : t.Evolves (t.receive i) := by
  unfold Transport.receive
  split
  · refine .setStage t i _ ?_
    simp_all
  · exact .setStage t i _ (by rintro c payload - ⟨⟩)
  · exact .refl t

theorem Transport.deadline_evolves (i : Nat) : t.Evolves (t.deadline i) := by
  unfold Transport.deadline
  split
  · rename_i peer msg seq ch hcall
    have hev := Evolves.setStage t i (.returned (.error .t1Exhausted))
      (by rintro c payload - ⟨⟩)
    exact hev.withPending _ t.sent (t.removePending_pending seq)
  · exact .refl t

theorem Transport.onT1Expiry_evolves (seq : UInt32) : t.Evolves (t.onT1Expiry seq) := by
  unfold Transport.onT1Expiry
  cases hp : t.pending seq with
  | none => exact .refl t
  | some p =>
    have hpending : ∀ s p', update t.pending seq
        (some { p with attempts := p.attempts + 1 }) s = some p' →
          (∃ p, t.pending s = some p ∧ p.call = p'.call) ∨ (t.calls p'.call).isSome = true := by
      intro s p' hp'
      by_cases hs : s = seq
      · grind
      · rw [update_of_ne hs] at hp'
        exact inl ⟨p', hp', rfl⟩
    dsimp only
    split
    · exact (Evolves.refl t).withPending _ t.sent hpending
    · exact (Evolves.refl t).withPending _ _ hpending

theorem Transport.close_evolves : t.Evolves t.close := by
  unfold Transport.close
  split
  · exact .refl t
  · refine ⟨rfl, rfl, fun i c' hc => inl ?_, fun i hi => ?_, ?_⟩
    · rw [map_eq_some_iff] at hc
      obtain ⟨c, hcall, rfl⟩ := hc
      refine ⟨c, hcall, ?_⟩
      split
      · exact ⟨rfl, rfl, rfl, by rintro payload ⟨⟩, fun _ h => inl h⟩
      · exact Call.Evolves.refl c
    · rw [isSome_map]
      exact hi
    · intro seq p' hp'
      cases hp'

end

/-! ## Datagrams -/

section

variable {t : Transport Peer} (h : t.Inv)
include h

/-- The bookkeeping of a datagram that has arrived. -/
theorem Transport.Inv.arrived (m : Inbound Peer)
    (hreq : m.isRequest = false) : ({ t with inbound := m :: t.inbound } : Transport Peer).Inv := by
  constructor
  · constructor
    · rw [filter_cons_of_neg (by simp [hreq])]
      exact h.correlates.requests
    · intro i c payload hc hstage
      obtain ⟨m', hm, hpay⟩ := h.correlates.responses i c payload hc hstage
      exact ⟨m', mem_cons_of_mem _ hm, hpay⟩
  · intro i c payload hc hch
    obtain ⟨m', hm, hpay⟩ := h.delivered i c payload hc hch
    exact ⟨m', mem_cons_of_mem _ hm, hpay⟩
  · exact h.known

theorem Transport.Inv.handled (m : Inbound Peer) :
    ({ t with inbound := m :: t.inbound, handled := m :: t.handled } : Transport Peer).Inv := by
  constructor
  · constructor
    · have hreq := h.correlates.requests
      grind
    · intro i c payload hc hstage
      obtain ⟨m', hm, hpay⟩ := h.correlates.responses i c payload hc hstage
      exact ⟨m', mem_cons_of_mem _ hm, hpay⟩
  · intro i c payload hc hch
    obtain ⟨m', hm, hpay⟩ := h.delivered i c payload hc hch
    exact ⟨m', mem_cons_of_mem _ hm, hpay⟩
  · exact h.known

/-- The response a call waits for goes into its channel. -/
theorem Transport.Inv.deliver (seq : UInt32) (i : Nat)
    (m : Inbound Peer) (hm : m ∈ t.inbound) (hans : ∀ c, t.calls i = some c → c.AnsweredBy m) :
    ((t.removePending seq).setChan i (.full m.payload)).Inv := by
  have hcalls : ∀ j c', (t.setChan i (.full m.payload)).calls j = some c' →
      ∃ c, t.calls j = some c ∧ (∀ m', c.AnsweredBy m' → c'.AnsweredBy m') ∧
        c'.stage = c.stage ∧ (c'.ch = c.ch ∨ (j = i ∧ c'.ch = .full m.payload)) := by
    intro j c' hc
    simp only [Transport.setChan] at hc
    by_cases hj : j = i
    · subst hj
      rw [update_self, map_eq_some_iff] at hc
      obtain ⟨c, hcall, rfl⟩ := hc
      exact ⟨c, hcall, fun _ hans => hans, rfl, inr ⟨rfl, rfl⟩⟩
    · simp_all
  constructor
  · refine ⟨h.correlates.requests, ?_⟩
    intro j c' payload hc hstage
    obtain ⟨c, hcall, hsame, hst, -⟩ := hcalls j c' hc
    obtain ⟨m', hm', hpay, hans'⟩ :=
      h.correlates.responses j c payload hcall (hst.symm.trans hstage)
    exact ⟨m', hm', hpay, hsame m' hans'⟩
  · intro j c' payload hc hch
    obtain ⟨c, hcall, hsame, -, hold | ⟨rfl, hnew⟩⟩ := hcalls j c' hc
    · obtain ⟨m', hm', hpay, hans'⟩ := h.delivered j c payload hcall (hold.symm.trans hch)
      exact ⟨m', hm', hpay, hsame m' hans'⟩
    · rw [hnew] at hch
      cases hch
      exact ⟨m, hm, rfl, hsame m (hans c hcall)⟩
  · intro s p' hp'
    have hsome : (t.calls p'.call).isSome = true := by
      rcases t.removePending_pending seq s p' hp' with ⟨p, hp, hcall⟩ | hsome
      · rw [← hcall]
        exact h.known s p hp
      · exact hsome
    simp only [Transport.setChan, Transport.removePending]
    grind

theorem Transport.Inv.dispatch {pdu : List UInt8} {peer : Peer}
    (hexp : t.Expected (.datagram pdu peer)) : (t.dispatch pdu peer).Inv := by
  unfold Transport.dispatch
  cases hparse : parseHeader pdu with
  | none => exact h
  | some r =>
    obtain ⟨hdr, payload⟩ := r
    obtain ⟨hresponse, hrequest⟩ := hexp hdr payload hparse
    dsimp only
    cases hp : t.pending hdr.sequenceNumber with
    | some p =>
      -- what is pending is answered, so the message is no request
      obtain ⟨c, hc⟩ := isSome_iff_exists.1 (h.known _ p hp)
      have hans := hresponse p c hp hc
      have hnot : Inbound.isRequest ⟨hdr, payload, peer⟩ = false :=
        pairedResponse_not_request _ _ hans.1
      refine (h.arrived ⟨hdr, payload, peer⟩ hnot).deliver hdr.sequenceNumber p.call
        ⟨hdr, payload, peer⟩ (mem_cons_self ..) ?_
      intro c' hc'
      exact hresponse p c' hp hc'
    | none =>
      cases hhandler : t.handler with
      | true =>
        have hinv := h.handled ⟨hdr, payload, peer⟩
        rw [hhandler] at hinv
        exact hinv
      | false =>
        rw [hhandler] at hrequest
        have hnot : Inbound.isRequest ⟨hdr, payload, peer⟩ = false := by
          simpa [Inbound.isRequest] using hrequest
        have hinv := h.arrived ⟨hdr, payload, peer⟩ hnot
        rw [hhandler] at hinv
        exact hinv

theorem Transport.Inv.step (e : TransportEvent Peer) (hexp : t.Expected e) : (t.step e).Inv := by
  cases e with
  | setHandler =>
    exact h.evolve ⟨rfl, rfl, (Evolves.refl t).calls, (Evolves.refl t).kept, (Evolves.refl t).pending⟩
  | sendRequest peer msg => exact h.evolve (t.sendRequest_evolves peer msg)
  | register i => exact h.evolve (t.register_evolves i)
  | writeRequest i ok => exact h.evolve (t.writeRequest_evolves i ok)
  | receive i => exact h.evolve (t.receive_evolves i)
  | deadline i => exact h.evolve (t.deadline_evolves i)
  | t1Expiry seq => exact h.evolve (t.onT1Expiry_evolves seq)
  | datagram pdu peer => exact h.dispatch hexp
  | close => exact h.evolve t.close_evolves

end

/-- As long as no datagram arrives with a pending number that is not the response to the pending
request, every request reaches the handler, and `SendRequest` returns responses only. -/
theorem transport_correlates {t : Transport Peer}
    (h : Reach Transport.step Transport.Expected newTransport t) : t.Correlates :=
  (h.invariant newTransport_inv fun _ e ht hexp => ht.step e hexp).correlates

/-! ## A heartbeat, and what comes back -/

namespace Lab

/-- A header with a sequence number and nothing after it. -/
def bareHeader (messageType : UInt8) (seq : UInt32) : Header :=
  { version := 1, followOn := false, messagePriority := false, hasSEID := false,
    messageType := messageType, length := 4, seid := 0, sequenceNumber := seq, priority := 0 }

/-- The first request of a transport is a heartbeat. -/
def heartbeat : List (TransportEvent Nat) :=
  [.sendRequest (some 7) ⟨messageTypeHeartbeatRequest, 0, []⟩, .register 0, .writeRequest 0 true]

/-- The heartbeat is sent, a datagram with its number arrives, and the call returns. -/
def heartbeatThen (messageType : UInt8) (peer : Nat) : Transport Nat :=
  run Transport.step (newTransport.step .setHandler)
    (heartbeat ++ [.datagram (bareHeader messageType 1).encode peer, .receive 0])

end Lab

/-- The heartbeat is answered. -/
theorem transport_correlates_heartbeat :
    (Lab.heartbeatThen messageTypeHeartbeatResponse 7).Correlates := by
  have hready : Reach Transport.step Transport.Expected (newTransport : Transport Nat)
      (newTransport.step .setHandler) := Reach.start.next TransportEvent.setHandler trivial
  refine transport_correlates (hready.trans (Meets.reach
    ⟨trivial, trivial, trivial, ?_, trivial, trivial⟩))
  intro hdr payload hparse
  cases hparse
  refine ⟨?_, fun _ => rfl⟩
  intro p c hp hc
  cases hp
  cases hc
  exact ⟨by decide, rfl, rfl⟩

/-- A Session Establishment Request of the peer whose number is that of the heartbeat never reaches
the handler: the heartbeat returns it as its response. -/
theorem request_taken_for_response :
    ¬ ∀ t : Transport Nat, Reach Transport.step (fun _ _ => True)
        (newTransport.step .setHandler) t → t.Correlates := by
  intro h
  have hcorr := h (Lab.heartbeatThen messageTypeSessionEstablishmentRequest 7)
    (reach_run _ _ _)
  have hlen := congrArg length hcorr.requests
  revert hlen
  decide

end MmtCore.Pfcp
