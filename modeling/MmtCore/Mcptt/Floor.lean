import MmtCore.Lib.AssocMap

/-!
# Floor control of a push-to-talk call

`FloorController`: one loop takes the events of a call one after another.  Participants are objects
that the map, the holder and the queue point to, so a priority that changes in one place changes in
all of them.
-/

namespace MmtCore.Mcptt

open MmtCore.Lib

inductive CallState
  | idle | taken | releasing
deriving DecidableEq

/-- The view a participant has of the call. -/
inductive FloorServerState
  | startStop | floorIdle | floorTaken | permitted | floorReleasing
deriving DecidableEq

abbrev McpttId := String

/-- A pointer to a participant. -/
abbrev Ref := Nat

structure FloorParticipant where
  mcpttID : McpttId
  priority : Int
  state : FloorServerState
  hasFloor : Bool
  requesting : Bool
  /-- When it was queued; the clock counts events. -/
  reqTime : Nat
deriving DecidableEq

def priorityEmergency : Int := 1

def maxFloorQueue : Nat := 10

def canPreempt (req holder : Int) : Bool := req == priorityEmergency || req < holder

structure FloorController where
  state : CallState
  holder : Option Ref
  queue : List Ref
  participants : AssocMap McpttId Ref
  heap : Ref → FloorParticipant
  /-- Where the next object goes. -/
  fresh : Ref
  now : Nat

inductive FloorEvent
  | addParticipant (id : McpttId) (priority : Int)
  | removeParticipant (id : McpttId)
  | requestFloor (id : McpttId) (priority : Option Int)
  | releaseFloor (id : McpttId)
  | queryStatus
  | sessionRelease
deriving DecidableEq

/-- The status of a call as callers see it. -/
structure Snapshot where
  state : CallState
  holder : McpttId
  holderPriority : Int
  queue : List McpttId
  participants : List FloorParticipant
deriving DecidableEq

inductive Reply
  | nothing
  | error (reason : String)
  | granted (mcpttID : McpttId)
  | preempted (mcpttID preempted : McpttId)
  | denied (reason : String)
  | queued (position : Nat)
  | released
  | status (snapshot : Snapshot)
deriving DecidableEq

namespace FloorController

def new : FloorController where
  state := .idle
  holder := none
  queue := []
  participants := ∅
  heap := fun _ => ⟨"", 0, .startStop, false, false, 0⟩
  fresh := 0
  now := 0

variable (fc : FloorController)

/-- An assignment to fields of the participant `r`. -/
def modify (r : Ref) (f : FloorParticipant → FloorParticipant) : FloorController :=
  { fc with heap := Function.update fc.heap r (f (fc.heap r)) }

/-- `fc.Holder != nil && fc.Holder.MCPTTID == id`. -/
def holds (id : McpttId) : Bool :=
  match fc.holder with
  | none => false
  | some r => (fc.heap r).mcpttID == id

def doGrant (p : Ref) : FloorController :=
  { fc.modify p fun o => { o with hasFloor := true, requesting := false } with holder := some p }

/-- The holder, if there is one, loses the floor. -/
def dropHolder : FloorController :=
  match fc.holder with
  | none => fc
  | some old => { fc.modify old fun o => { o with hasFloor := false } with holder := none }

def doRelease : FloorController :=
  let fc := fc.dropHolder
  match fc.queue with
  | [] => { fc with state := .idle }
  | next :: rest => { ({ fc with queue := rest }).doGrant next with state := .taken }

def doPreempt (req : Ref) : FloorController := fc.dropHolder.doGrant req

/-- The loop of `enqueue` on the queue from its end: `p` passes entries of a larger priority. -/
def sift (pri : Ref → Int) (p : Ref) : List Ref → List Ref
  | [] => [p]
  | q :: rest => if pri p < pri q then q :: sift pri p rest else p :: q :: rest

def enqueue (p : Ref) : FloorController :=
  { fc with queue := (sift (fun r => (fc.heap r).priority) p fc.queue.reverse).reverse }

/-- One more than the index of the first entry of this participant, 0 if there is none. -/
def queuePosition (p : Ref) : Nat :=
  match fc.queue.findIdx? fun q => (fc.heap q).mcpttID == (fc.heap p).mcpttID with
  | none => 0
  | some i => i + 1

def viewOf (r : Ref) : FloorServerState :=
  match fc.state with
  | .releasing => .floorReleasing
  | .idle => .floorIdle
  | .taken => if fc.holds (fc.heap r).mcpttID then .permitted else .floorTaken

def refreshParticipantStates : FloorController :=
  fc.participants.entries.foldl
    (fun fc e => fc.modify e.2 fun o => { o with state := fc.viewOf e.2 }) fc

/-- The snapshot, once the views are refreshed. -/
def snapshot : Snapshot where
  state := fc.state
  holder := (fc.holder.map fun r => (fc.heap r).mcpttID).getD ""
  holderPriority := (fc.holder.map fun r => (fc.heap r).priority).getD 0
  queue := fc.queue.map fun r => (fc.heap r).mcpttID
  participants := fc.participants.entries.map fun e => fc.heap e.2

def onAdd (id : McpttId) (priority : Int) : FloorController :=
  match fc.participants.lookup id with
  | some _ => fc
  | none =>
    { fc with
      participants := fc.participants.insert id fc.fresh
      heap := Function.update fc.heap fc.fresh ⟨id, priority, .startStop, false, false, 0⟩
      fresh := fc.fresh + 1 }

def onRemove (id : McpttId) : FloorController :=
  match fc.participants.lookup id with
  | none => fc
  | some _ =>
    let fc := if fc.holds id then fc.doRelease else fc
    { fc with
      queue := fc.queue.filter fun q => (fc.heap q).mcpttID != id
      participants := fc.participants.erase id }

/-- `onRequest` in the state `taken`, with the priority already set. -/
def requestTaken (p : Ref) (id : McpttId) : FloorController × Reply :=
  if fc.holds id then (fc, .granted id)
  else
    match fc.holder with
    | some h =>
      if canPreempt (fc.heap p).priority (fc.heap h).priority then
        (fc.doPreempt p, .preempted id (fc.heap h).mcpttID)
      else queueRequest
    | none => queueRequest
where
  queueRequest : FloorController × Reply :=
    if fc.queue.length ≥ maxFloorQueue then (fc, .denied "queue_full")
    else
      let fc := (fc.modify p fun o => { o with requesting := true, reqTime := fc.now }).enqueue p
      (fc, .queued (fc.queuePosition p))

def onRequest (id : McpttId) (priority : Option Int) : FloorController × Reply :=
  match fc.participants.lookup id with
  | none => (fc, .error "not_participant")
  | some p =>
    let fc := match priority with
      | some pri => fc.modify p fun o => { o with priority := pri }
      | none => fc
    match fc.state with
    | .releasing => (fc, .error "bad_state")
    | .idle => ({ fc.doGrant p with state := .taken }, .granted id)
    | .taken => fc.requestTaken p id

def onRelease (id : McpttId) : FloorController × Reply :=
  if fc.holds id then (fc.doRelease, .released) else (fc, .error "not_holder")

/-- What the handler of the event does, before the views are refreshed. -/
def dispatch : FloorEvent → FloorController × Reply
  | .addParticipant id priority => (fc.onAdd id priority, .nothing)
  | .removeParticipant id => (fc.onRemove id, .nothing)
  | .requestFloor id priority => fc.onRequest id priority
  | .releaseFloor id => fc.onRelease id
  | .queryStatus => (fc, .status fc.refreshParticipantStates.snapshot)
  | .sessionRelease => ({ fc with state := .releasing }, .nothing)

def handle (ev : FloorEvent) : FloorController × Reply :=
  let (fc', reply) := fc.dispatch ev
  ({ fc'.refreshParticipantStates with now := fc.now + 1 }, reply)

/-- The controller after the event. -/
def step (ev : FloorEvent) : FloorController := (fc.handle ev).1

end FloorController

end MmtCore.Mcptt
