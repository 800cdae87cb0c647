import MmtCore.Lib.Reach
import MmtCore.Mcptt.Floor

/-!
# The floor over the events of a call

What makes a state of the controller sound, and which events keep it so.  An event that makes a
sound state unsound asks for the floor on behalf of a member that waits in the queue, or ends the
session while someone holds the floor.
-/

namespace MmtCore.Mcptt

open MmtCore.Lib Function List Option FloorController Nat

/-- `a` is served before `b`: by priority, then by the time of the request. -/
def Before (heap : Ref → FloorParticipant) (a b : Ref) : Prop :=
  (heap a).priority < (heap b).priority ∨
    ((heap a).priority = (heap b).priority ∧ (heap a).reqTime < (heap b).reqTime)
  deriving Decidable

namespace FloorController

variable (fc : FloorController)

/-- `r` is the object of a current participant. -/
def Member (r : Ref) : Prop := fc.participants.lookup (fc.heap r).mcpttID = some r
  deriving Decidable

/-- What holds of the floor at any time. -/
structure Sound : Prop where
  taken_iff : fc.state = .taken ↔ ∃ r, fc.holder = some r
  holder_member : ∀ r, fc.holder = some r → fc.Member r
  queue_member : ∀ r ∈ fc.queue, fc.Member r
  nodup : fc.queue.Nodup
  holder_not_queued : ∀ r, fc.holder = some r → r ∉ fc.queue
  ordered : fc.queue.Pairwise (Before fc.heap)
  hasFloor_iff : ∀ id r, fc.participants.lookup id = some r →
    ((fc.heap r).hasFloor ↔ fc.holder = some r)

/-- What an event does to the floor: given up, it goes to the head of the queue, and a call that is
releasing stays so without a new holder. -/
structure Proper (ev : FloorEvent) : Prop where
  handed : ∀ r, fc.holder = some r →
    (ev = .releaseFloor (fc.heap r).mcpttID ∨ ev = .removeParticipant (fc.heap r).mcpttID) →
    (fc.step ev).holder = fc.queue.head?
  releasing : fc.state = .releasing →
    (fc.step ev).state = .releasing ∧ ∀ r, (fc.step ev).holder = some r → fc.holder = some r

/-- The priority the participant `p` has once the request is in. -/
def prioritized (p : Ref) : Option Int → FloorController
  | some pri => fc.modify p fun o => { o with priority := pri }
  | none => fc

/-- A request of a member in the queue is denied because the queue is full, and its priority leaves
it in its place; the session is not released while someone holds the floor. -/
def Keeps : FloorEvent → Prop
  | .requestFloor id priority => ∀ p, fc.participants.lookup id = some p → p ∈ fc.queue →
      (∀ h, fc.holder = some h →
        canPreempt ((fc.prioritized p priority).heap p).priority (fc.heap h).priority = false) ∧
      maxFloorQueue ≤ fc.queue.length ∧
      fc.queue.Pairwise (Before (fc.prioritized p priority).heap)
  | .sessionRelease => fc.holder = none
  | _ => True

/-! ## Fields after an operation -/

section Fields

variable {fc : FloorController} {r p : Ref} {f : FloorParticipant → FloorParticipant}

@[simp] theorem modify_state : (fc.modify r f).state = fc.state := rfl
@[simp] theorem modify_holder : (fc.modify r f).holder = fc.holder := rfl
@[simp] theorem modify_queue : (fc.modify r f).queue = fc.queue := rfl
@[simp] theorem modify_participants : (fc.modify r f).participants = fc.participants := rfl
@[simp] theorem modify_fresh : (fc.modify r f).fresh = fc.fresh := rfl
@[simp] theorem modify_now : (fc.modify r f).now = fc.now := rfl

theorem modify_heap : (fc.modify r f).heap p = if p = r then f (fc.heap r) else fc.heap p :=
  update_apply ..

/-- The controllers agree on everything that the floor depends on, views and requests apart. -/
structure Agrees (fc fc' : FloorController) : Prop where
  state : fc'.state = fc.state
  holder : fc'.holder = fc.holder
  queue : fc'.queue = fc.queue
  participants : fc'.participants = fc.participants
  fresh : fc'.fresh = fc.fresh
  mcpttID : ∀ r, (fc'.heap r).mcpttID = (fc.heap r).mcpttID
  priority : ∀ r, (fc'.heap r).priority = (fc.heap r).priority
  hasFloor : ∀ r, (fc'.heap r).hasFloor = (fc.heap r).hasFloor
  reqTime : ∀ r, (fc'.heap r).reqTime = (fc.heap r).reqTime

theorem Agrees.refl : Agrees fc fc := by
  constructor <;> intros <;> rfl

theorem Agrees.refresh : Agrees fc fc.refreshParticipantStates := by
  have hall : ∀ (l : List (Sigma fun _ : McpttId => Ref)) (fc' : FloorController),
      Agrees fc fc' → Agrees fc (l.foldl
        (fun fc e => fc.modify e.2 fun o => { o with state := fc.viewOf e.2 }) fc') := by
    intro l
    induction l with
    | nil => exact fun fc' h => h
    | cons e l ih =>
      intro fc' h
      rw [foldl_cons]
      refine ih _ ⟨h.state, h.holder, h.queue, h.participants, h.fresh, ?_, ?_, ?_, ?_⟩
      · intro r
        rw [modify_heap, ← h.mcpttID]
        split
        · subst r
          rfl
        · rfl
      · intro r
        rw [modify_heap, ← h.priority]
        split
        · subst r
          rfl
        · rfl
      · intro r
        rw [modify_heap, ← h.hasFloor]
        split
        · subst r
          rfl
        · rfl
      · intro r
        rw [modify_heap, ← h.reqTime]
        split
        · subst r
          rfl
        · rfl
  exact hall _ _ Agrees.refl

end Fields

/-! ## The invariant -/

/-- The part about participants and queue. -/
structure Base : Prop where
  key : ∀ id r, fc.participants.lookup id = some r → (fc.heap r).mcpttID = id ∧ r < fc.fresh
  queue_member : ∀ r ∈ fc.queue, fc.Member r
  nodup : fc.queue.Nodup
  ordered : fc.queue.Pairwise (Before fc.heap)
  asked : ∀ r ∈ fc.queue, (fc.heap r).reqTime < fc.now

structure Good : Prop extends fc.Base where
  floor : ∀ id r, fc.participants.lookup id = some r →
    ((fc.heap r).hasFloor ↔ fc.holder = some r)
  holder_member : ∀ r, fc.holder = some r → fc.Member r
  holder_not_queued : ∀ r, fc.holder = some r → r ∉ fc.queue
  taken_iff : fc.state = .taken ↔ ∃ r, fc.holder = some r
  waiting : fc.state ≠ .taken → fc.queue = []

variable {fc : FloorController} {r p h : Ref} {id : McpttId}

theorem Good.sound (g : fc.Good) : fc.Sound :=
  ⟨g.taken_iff, g.holder_member, g.queue_member, g.nodup, g.holder_not_queued, g.ordered, g.floor⟩

theorem Good.new : FloorController.new.Good := by
  have hlook : ∀ id r, FloorController.new.participants.lookup id ≠ some r := by
    intro id r e
    exact absurd e (by simp [FloorController.new])
  refine ⟨⟨fun id r h => absurd h (hlook id r), ?_, nodup_nil, List.Pairwise.nil, ?_⟩,
    fun id r h => absurd h (hlook id r), ?_, ?_, ?_, fun _ => rfl⟩
  all_goals simp [FloorController.new]

/-- An object whose key has it is found under no other key. -/
theorem Base.member_iff (b : fc.Base) (hl : fc.participants.lookup id = some r) : fc.Member r := by
  obtain ⟨hid, -⟩ := b.key id r hl
  rw [Member, hid, hl]

variable {fc' : FloorController} {ev : FloorEvent}

theorem Base.congr (b : fc.Base) (hq : fc'.queue = fc.queue)
    (hp : fc'.participants = fc.participants) (hf : fc'.fresh = fc.fresh)
    (hid : ∀ r, (fc'.heap r).mcpttID = (fc.heap r).mcpttID)
    (hpri : ∀ r ∈ fc.queue, (fc'.heap r).priority = (fc.heap r).priority)
    (ht : ∀ r ∈ fc.queue, (fc'.heap r).reqTime = (fc.heap r).reqTime) (hn : fc.now ≤ fc'.now) :
    fc'.Base := by
  refine ⟨?_, ?_, ?_, ?_, ?_⟩
  · intro id r
    rw [hp, hid, hf]
    exact b.key id r
  · intro r hr
    rw [hq] at hr
    rw [Member, hp, hid]
    exact b.queue_member r hr
  · rw [hq]
    exact b.nodup
  · rw [hq]
    refine b.ordered.imp_of_mem fun {x y} hx hy hxy => ?_
    rwa [Before, hpri x hx, hpri y hy, ht x hx, ht y hy]
  · intro r hr
    rw [hq] at hr
    rw [ht r hr]
    exact lt_of_lt_of_le (b.asked r hr) hn

theorem Good.agrees (g : fc.Good) (a : Agrees fc fc') (hn : fc.now ≤ fc'.now) : fc'.Good := by
  refine ⟨g.toBase.congr a.queue a.participants a.fresh a.mcpttID (fun r _ => a.priority r)
    (fun r _ => a.reqTime r) hn, ?_, ?_, ?_, ?_, ?_⟩
  · intro id r
    rw [a.participants, a.hasFloor, a.holder]
    exact g.floor id r
  · intro r hr
    rw [a.holder] at hr
    rw [Member, a.participants, a.mcpttID]
    exact g.holder_member r hr
  · intro r
    rw [a.holder, a.queue]
    exact g.holder_not_queued r
  · rw [a.state, a.holder]
    exact g.taken_iff
  · rw [a.state, a.queue]
    exact g.waiting

/-- After `dispatch` only views and the clock change. -/
theorem Good.of_dispatch (g : (fc.dispatch ev).1.Good) (hn : (fc.dispatch ev).1.now = fc.now) :
    (fc.step ev).Good := by
  have a := @Agrees.refresh (fc.dispatch ev).1
  exact g.agrees ⟨a.state, a.holder, a.queue, a.participants, a.fresh, a.mcpttID, a.priority,
    a.hasFloor, a.reqTime⟩ (hn ▸ le_succ _)

@[simp] theorem step_holder : (fc.step ev).holder = (fc.dispatch ev).1.holder :=
  Agrees.refresh.holder

@[simp] theorem step_state : (fc.step ev).state = (fc.dispatch ev).1.state :=
  Agrees.refresh.state

@[simp] theorem step_queue : (fc.step ev).queue = (fc.dispatch ev).1.queue :=
  Agrees.refresh.queue

theorem Good.tick (g : fc.Good) : Good { fc with now := fc.now + 1 } :=
  g.agrees ⟨rfl, rfl, rfl, rfl, rfl, fun _ => rfl, fun _ => rfl, fun _ => rfl, fun _ => rfl⟩
    (le_succ _)

/-! ## Nobody holds the floor -/

structure Vacant (fc : FloorController) : Prop extends fc.Base where
  holder : fc.holder = none
  hasFloor : ∀ id r, fc.participants.lookup id = some r → (fc.heap r).hasFloor = false

theorem Good.vacant (g : fc.Good) (hh : fc.holder = none) : fc.Vacant := by
  refine ⟨g.toBase, hh, fun id r hl => ?_⟩
  have hiff := g.floor id r hl
  simp_all

@[simp] theorem dropHolder_queue : fc.dropHolder.queue = fc.queue := by
  unfold dropHolder
  split <;> rfl

@[simp] theorem dropHolder_state : fc.dropHolder.state = fc.state := by
  unfold dropHolder
  split <;> rfl

@[simp] theorem dropHolder_now : fc.dropHolder.now = fc.now := by
  unfold dropHolder
  split <;> rfl

@[simp] theorem dropHolder_participants : fc.dropHolder.participants = fc.participants := by
  unfold dropHolder
  split <;> rfl

@[simp] theorem dropHolder_mcpttID : (fc.dropHolder.heap r).mcpttID = (fc.heap r).mcpttID := by
  unfold dropHolder
  split
  · rfl
  · rw [modify_heap]
    split
    · subst r
      rfl
    · rfl

theorem dropHolder_member : fc.dropHolder.Member r ↔ fc.Member r := by
  rw [Member, Member, dropHolder_participants, dropHolder_mcpttID]

/-- The holder loses the floor. -/
theorem Good.dropHolder (g : fc.Good) : fc.dropHolder.Vacant := by
  cases hh : fc.holder with
  | none =>
    rw [FloorController.dropHolder, hh]
    exact g.vacant hh
  | some old =>
    rw [FloorController.dropHolder, hh]
    have hother : ∀ r, r ≠ old → (fc.modify old fun o => { o with hasFloor := false }).heap r
        = fc.heap r := fun r hr => by rw [modify_heap, if_neg hr]
    have hnot := g.holder_not_queued old hh
    refine ⟨g.toBase.congr rfl rfl rfl ?_ ?_ ?_ le_rfl, rfl, ?_⟩
    · grind [modify_heap]
    · grind
    · grind
    · intro id r hl
      by_cases hr : r = old
      · subst hr
        rw [modify_heap, if_pos rfl]
      · have hiff := g.floor id r hl
        grind

theorem Vacant.idle (v : fc.Vacant) (hq : fc.queue = []) (hs : fc.state ≠ .taken) : fc.Good := by
  refine ⟨v.toBase, fun id r hl => ?_, fun r hr => ?_, fun r hr => ?_, ⟨fun e => absurd e hs, ?_⟩,
    fun _ => hq⟩
  · rw [v.hasFloor id r hl, v.holder]
    simp
  · rw [v.holder] at hr
    cases hr
  · rw [v.holder] at hr
    cases hr
  · rintro ⟨r, hr⟩
    rw [v.holder] at hr
    cases hr

/-- A member that does not wait gets the floor. -/
theorem Vacant.doGrant (v : fc.Vacant) (hs : fc.state = .taken) (hm : fc.Member p)
    (hp : p ∉ fc.queue) : (fc.doGrant p).Good := by
  have hother : ∀ r, r ≠ p → (fc.doGrant p).heap r = fc.heap r :=
    fun r hr => update_of_ne hr ..
  have hself : (fc.doGrant p).heap p = { fc.heap p with hasFloor := true, requesting := false } :=
    update_self ..
  have hid : ∀ r, ((fc.doGrant p).heap r).mcpttID = (fc.heap r).mcpttID := by
    grind
  refine ⟨v.toBase.congr rfl rfl rfl hid ?_ ?_ le_rfl, ?_, ?_, ?_, ?_, ?_⟩
  · exact fun r hr => by rw [hother r fun e => hp (e ▸ hr)]
  · exact fun r hr => by rw [hother r fun e => hp (e ▸ hr)]
  · intro id r hl
    change _ ↔ some p = some r
    by_cases hr : r = p
    · subst hr
      rw [hself]
      simp
    · rw [hother r hr, v.hasFloor id r hl]
      simpa using Ne.symm hr
  · intro r hr
    cases hr
    rw [Member, hid]
    exact hm
  · intro r hr
    cases hr
    exact hp
  · exact ⟨fun _ => ⟨p, rfl⟩, fun _ => hs⟩
  · exact fun hne => absurd hs hne

theorem Vacant.withState (v : fc.Vacant) (st : CallState) : Vacant { fc with state := st } :=
  ⟨v.toBase.congr rfl rfl rfl (fun _ => rfl) (fun _ _ => rfl) (fun _ _ => rfl) le_rfl, v.holder,
    v.hasFloor⟩

/-- The head of the queue is taken off. -/
theorem Vacant.pop {next : Ref} {rest : List Ref} (v : fc.Vacant) (hq : fc.queue = next :: rest) :
    Vacant { fc with queue := rest } ∧ fc.Member next ∧ next ∉ rest := by
  have hnodup := v.nodup
  rw [hq] at hnodup
  have hsub : ∀ r ∈ rest, r ∈ fc.queue := fun r hr => hq ▸ mem_cons_of_mem _ hr
  have hordered := v.ordered
  rw [hq] at hordered
  exact ⟨⟨⟨v.key, fun r hr => v.queue_member r (hsub r hr), (nodup_cons.1 hnodup).2,
    (pairwise_cons.1 hordered).2, fun r hr => v.asked r (hsub r hr)⟩, v.holder, v.hasFloor⟩,
    v.queue_member next (hq ▸ mem_cons_self), (nodup_cons.1 hnodup).1⟩

/-- The floor that is given up goes to the head of the queue. -/
theorem doRelease_holder : fc.doRelease.holder = fc.queue.head? := by
  unfold doRelease
  dsimp only
  split
  · grind [dropHolder_queue, dropHolder]
  · rename_i next rest hq
    rw [dropHolder_queue] at hq
    rw [hq]
    rfl

theorem doRelease_now : fc.doRelease.now = fc.now := by
  unfold doRelease
  dsimp only
  split <;> exact dropHolder_now

theorem Good.doRelease (g : fc.Good) : fc.doRelease.Good := by
  have v := g.dropHolder
  unfold FloorController.doRelease
  dsimp only
  split
  · rename_i hq
    exact (v.withState .idle).idle hq (by simp)
  · rename_i next rest hq
    obtain ⟨vr, hm, hnot⟩ := v.pop hq
    exact (vr.withState .taken).doGrant rfl hm hnot

/-! ## Participants come and go -/

theorem onAdd_now {priority : Int} : (fc.onAdd id priority).now = fc.now := by
  unfold onAdd
  split <;> rfl

theorem Good.onAdd (g : fc.Good) (priority : Int) : (fc.onAdd id priority).Good := by
  unfold FloorController.onAdd
  split
  · exact g
  · rename_i hnone
    have hlt : ∀ r, fc.Member r → r ≠ fc.fresh := fun r hr =>
      Nat.ne_of_lt (g.key _ r hr).2
    have hheap : ∀ r, r ≠ fc.fresh → update fc.heap fc.fresh
        ⟨id, priority, .startStop, false, false, 0⟩ r = fc.heap r :=
      fun r hr => update_of_ne hr ..
    have hlook : ∀ id' r, (fc.participants.insert id fc.fresh).lookup id' = some r →
        (id' = id ∧ r = fc.fresh) ∨ (id' ≠ id ∧ fc.participants.lookup id' = some r) := by
      intro id' r hl
      by_cases hid : id' = id
      · grind [AList.lookup_insert]
      · rw [AList.lookup_insert_ne hid] at hl
        exact .inr ⟨hid, hl⟩
    have hmember : ∀ r, fc.Member r → Member { fc with
        participants := fc.participants.insert id fc.fresh
        heap := update fc.heap fc.fresh ⟨id, priority, .startStop, false, false, 0⟩
        fresh := fc.fresh + 1 } r := by
      intro r hr
      unfold Member
      dsimp only
      rw [hheap r (hlt r hr), AList.lookup_insert_ne, hr]
      rintro rfl
      rw [Member, hnone] at hr
      cases hr
    refine ⟨⟨?_, ?_, g.nodup, ?_, ?_⟩, ?_, ?_, g.holder_not_queued, g.taken_iff, g.waiting⟩
    · intro id' r hl
      dsimp only
      rcases hlook id' r hl with ⟨rfl, rfl⟩ | ⟨-, hl⟩
      · rw [update_self]
        exact ⟨rfl, lt_succ_self _⟩
      · obtain ⟨hid, hr⟩ := g.key id' r hl
        grind
    · exact fun r hr => hmember r (g.queue_member r hr)
    · dsimp only
      refine g.ordered.imp_of_mem fun {x y} hx hy hxy => ?_
      rwa [Before, hheap x (hlt x (g.queue_member x hx)), hheap y (hlt y (g.queue_member y hy))]
    · intro r hr
      dsimp only
      rw [hheap r (hlt r (g.queue_member r hr))]
      exact g.asked r hr
    · intro id' r hl
      dsimp only
      rcases hlook id' r hl with ⟨rfl, rfl⟩ | ⟨-, hl⟩
      · rw [update_self]
        refine iff_of_false (by simp) fun hh => ?_
        exact hlt _ (g.holder_member _ hh) rfl
      · rw [hheap r (Nat.ne_of_lt (g.key id' r hl).2)]
        exact g.floor id' r hl
    · exact fun r hr => hmember r (g.holder_member r hr)

/-- The participant, who does not hold the floor, is forgotten. -/
theorem Good.forget (g : fc.Good) (hid : ∀ h, fc.holder = some h → (fc.heap h).mcpttID ≠ id) :
    Good { fc with
      queue := fc.queue.filter fun q => (fc.heap q).mcpttID != id
      participants := fc.participants.erase id } := by
  have hmem : ∀ r ∈ fc.queue.filter (fun q => (fc.heap q).mcpttID != id),
      r ∈ fc.queue ∧ (fc.heap r).mcpttID ≠ id := fun r hr =>
    ⟨(mem_filter.1 hr).1, by simpa using (mem_filter.1 hr).2⟩
  have hlook : ∀ id' r, (fc.participants.erase id).lookup id' = some r →
      fc.participants.lookup id' = some r := by
    intro id' r hl
    rw [AssocMap.lookup_erase_eq] at hl
    split at hl
    · cases hl
    · exact hl
  have hmember : ∀ r, fc.Member r → (fc.heap r).mcpttID ≠ id →
      (fc.participants.erase id).lookup (fc.heap r).mcpttID = some r := by
    intro r hr hne
    rw [AssocMap.lookup_erase_eq, if_neg hne]
    exact hr
  refine ⟨⟨fun id' r hl => g.key id' r (hlook id' r hl), ?_, g.nodup.filter _,
    g.ordered.filter _, ?_⟩, fun id' r hl => g.floor id' r (hlook id' r hl), ?_, ?_, g.taken_iff,
    ?_⟩
  · exact fun r hr => hmember r (g.queue_member r (hmem r hr).1) (hmem r hr).2
  · exact fun r hr => g.asked r (hmem r hr).1
  · exact fun r hr => hmember r (g.holder_member r hr) (hid r hr)
  · exact fun r hr hq => g.holder_not_queued r hr (hmem r hq).1
  · intro hs
    rw [g.waiting hs]
    rfl

theorem holds_eq_true (hh : fc.holder = some h) :
    fc.holds id = true ↔ (fc.heap h).mcpttID = id := by
  rw [holds, hh]
  exact beq_iff_eq

/-- Two current objects with one key are one. -/
theorem Member.unique (hr : fc.Member r) (hp : fc.Member p)
    (e : (fc.heap r).mcpttID = (fc.heap p).mcpttID) : r = p := by
  rw [Member] at hr hp
  rw [e, hp] at hr
  exact (some.inj hr).symm

theorem doRelease_mcpttID : (fc.doRelease.heap r).mcpttID = (fc.heap r).mcpttID := by
  unfold doRelease
  dsimp only
  split
  · exact dropHolder_mcpttID
  · dsimp only [doGrant]
    grind [modify_heap, dropHolder_mcpttID]

theorem onRemove_now : (fc.onRemove id).now = fc.now := by
  grind [onRemove, doRelease_now]

theorem Good.onRemove (g : fc.Good) : (fc.onRemove id).Good := by
  unfold FloorController.onRemove
  split
  · exact g
  · split
    · rename_i hholds
      refine g.doRelease.forget fun h hh => ?_
      -- the new holder waited, so it is not the one that leaves
      rw [doRelease_holder] at hh
      have hq : h ∈ fc.queue := mem_of_mem_head? (by rw [hh]; rfl)
      cases hold : fc.holder with
      | none =>
        rw [holds, hold] at hholds
        cases hholds
      | some old =>
        rw [doRelease_mcpttID]
        rintro e
        have hid := (holds_eq_true hold).1 hholds
        have heq := (g.queue_member h hq).unique (g.holder_member old hold) (e.trans hid.symm)
        exact g.holder_not_queued old hold (heq ▸ hq)
    · rename_i hholds
      refine g.forget fun h hh e => hholds ?_
      exact (holds_eq_true hh).2 e

/-! ## A request that waits -/

theorem sift_perm (pri : Ref → Int) (p : Ref) (l : List Ref) : (sift pri p l).Perm (p :: l) := by
  induction l with
  | nil => rfl
  | cons q l ih =>
    grind [sift]

theorem enqueue_perm : (fc.enqueue p).queue.Perm (p :: fc.queue) := by
  grind [enqueue, sift_perm]

/-- A list from the last served to the first stays one when a later request is sifted in. -/
theorem sift_ordered {heap : Ref → FloorParticipant} {l : List Ref}
    (hl : l.Pairwise fun a b => Before heap b a)
    (hlate : ∀ q ∈ l, (heap q).reqTime < (heap p).reqTime) :
    (sift (fun r => (heap r).priority) p l).Pairwise fun a b => Before heap b a := by
  induction l with
  | nil => exact pairwise_singleton ..
  | cons q l ih =>
    obtain ⟨hq, hrest⟩ := pairwise_cons.1 hl
    unfold sift
    split
    · rename_i hlt
      refine pairwise_cons.2 ⟨fun x hx => ?_,
        ih hrest fun r hr => hlate r (mem_cons_of_mem _ hr)⟩
      rcases mem_cons.1 ((sift_perm _ p l).mem_iff.1 hx) with rfl | hx
      · exact .inl hlt
      · exact hq x hx
    · refine pairwise_cons.2 ⟨fun x hx => ?_, hl⟩
      have hxq : (heap x).priority ≤ (heap q).priority := by
        rcases mem_cons.1 hx with rfl | hx
        · exact Int.le_refl _
        · rcases hq x hx with h | ⟨h, -⟩ <;> omega
      have hlt := hlate x hx
      by_cases he : (heap x).priority = (heap p).priority
      · exact .inr ⟨he, hlt⟩
      · exact .inl (by omega)

/-- The object `p` of the queue gets the time of the request. -/
def asking (fc : FloorController) (p : Ref) : FloorController :=
  fc.modify p fun o => { o with requesting := true, reqTime := fc.now }

theorem asking_heap_ne (hr : r ≠ p) : (fc.asking p).heap r = fc.heap r := by
  rw [asking, modify_heap, if_neg hr]

theorem asking_heap_self :
    (fc.asking p).heap p = { fc.heap p with requesting := true, reqTime := fc.now } := by
  rw [asking, modify_heap, if_pos rfl]

theorem asking_kept : ((fc.asking p).heap r).mcpttID = (fc.heap r).mcpttID ∧
    ((fc.asking p).heap r).hasFloor = (fc.heap r).hasFloor := by
  grind [asking_heap_self, asking_heap_ne]

/-- A member that neither holds the floor nor waits is put in its place. -/
theorem Good.enqueue (g : fc.Good) (hm : fc.Member p) (hp : p ∉ fc.queue) (hh : fc.holder = some h)
    (hne : h ≠ p) : Good { (fc.asking p).enqueue p with now := fc.now + 1 } := by
  have hmem : ∀ r, r ∈ ((fc.asking p).enqueue p).queue ↔ r = p ∨ r ∈ fc.queue := fun r => by
    rw [enqueue_perm.mem_iff, mem_cons]
    rfl
  have hold : ∀ r ∈ fc.queue, (fc.asking p).heap r = fc.heap r := fun r hr =>
    asking_heap_ne fun e => hp (e ▸ hr)
  have hmember : ∀ r, fc.Member r →
      Member { (fc.asking p).enqueue p with now := fc.now + 1 } r := by
    intro r hr
    change (fc.participants.lookup ((fc.asking p).heap r).mcpttID) = some r
    rw [asking_kept.1]
    exact hr
  have hstate : fc.state = .taken := g.taken_iff.2 ⟨h, hh⟩
  refine ⟨⟨?_, ?_, ?_, ?_, ?_⟩, ?_, fun r hr => hmember r (g.holder_member r hr), ?_, g.taken_iff,
    fun hs => absurd hstate hs⟩
  · intro id r hl
    change ((fc.asking p).heap r).mcpttID = id ∧ _
    rw [asking_kept.1]
    exact g.key id r hl
  · intro r hr
    rcases (hmem r).1 hr with rfl | hr
    · exact hmember r hm
    · exact hmember r (g.queue_member r hr)
  · refine (@enqueue_perm (fc.asking p) p).nodup_iff.2 (nodup_cons.2 ⟨hp, g.nodup⟩)
  · change ((sift _ p fc.queue.reverse).reverse).Pairwise (Before (fc.asking p).heap)
    refine pairwise_reverse.2 (sift_ordered ?_ fun q hq => ?_)
    · refine pairwise_reverse.2 (g.ordered.imp_of_mem fun {x y} hx hy hxy => ?_)
      rwa [Before, hold x hx, hold y hy]
    · rw [mem_reverse] at hq
      rw [hold q hq, asking_heap_self]
      exact g.asked q hq
  · intro r hr
    change ((fc.asking p).heap r).reqTime < fc.now + 1
    rcases (hmem r).1 hr with rfl | hr
    · rw [asking_heap_self]
      exact lt_succ_self _
    · rw [hold r hr]
      exact lt_succ_of_lt (g.asked r hr)
  · intro id r hl
    change ((fc.asking p).heap r).hasFloor = true ↔ _
    rw [asking_kept.2]
    exact g.floor id r hl
  · intro r hr hq
    rcases (hmem r).1 hq with rfl | hq
    · exact hne (some.inj (hh.symm.trans hr))
    · exact g.holder_not_queued r hr hq

/-! ## The priority of a request -/

section Prioritized

variable {priority : Option Int}

@[simp] theorem prioritized_state : (fc.prioritized p priority).state = fc.state := by
  cases priority <;> rfl

@[simp] theorem prioritized_holder : (fc.prioritized p priority).holder = fc.holder := by
  cases priority <;> rfl

@[simp] theorem prioritized_queue : (fc.prioritized p priority).queue = fc.queue := by
  cases priority <;> rfl

@[simp] theorem prioritized_participants :
    (fc.prioritized p priority).participants = fc.participants := by
  cases priority <;> rfl

@[simp] theorem prioritized_fresh : (fc.prioritized p priority).fresh = fc.fresh := by
  cases priority <;> rfl

@[simp] theorem prioritized_now : (fc.prioritized p priority).now = fc.now := by
  cases priority <;> rfl

theorem prioritized_heap_ne (hr : r ≠ p) : (fc.prioritized p priority).heap r = fc.heap r := by
  cases priority with
  | none => rfl
  | some pri =>
    rw [prioritized, modify_heap, if_neg hr]

theorem prioritized_kept : ((fc.prioritized p priority).heap r).mcpttID = (fc.heap r).mcpttID ∧
    ((fc.prioritized p priority).heap r).hasFloor = (fc.heap r).hasFloor ∧
    ((fc.prioritized p priority).heap r).reqTime = (fc.heap r).reqTime := by
  by_cases hr : r = p
  · subst hr
    cases priority with
    | none => exact ⟨rfl, rfl, rfl⟩
    | some pri =>
      rw [prioritized, modify_heap, if_pos rfl]
      exact ⟨rfl, rfl, rfl⟩
  · rw [prioritized_heap_ne hr]
    exact ⟨rfl, rfl, rfl⟩

theorem prioritized_member : (fc.prioritized p priority).Member r ↔ fc.Member r := by
  rw [Member, Member, prioritized_participants, prioritized_kept.1]

/-- The change of priority is harmless when the queue is in order under it. -/
theorem Good.prioritized (g : fc.Good)
    (hord : fc.queue.Pairwise (Before (fc.prioritized p priority).heap)) :
    (fc.prioritized p priority).Good := by
  refine ⟨⟨?_, ?_, ?_, ?_, ?_⟩, ?_, ?_, ?_, ?_, ?_⟩
  · intro id r hl
    rw [prioritized_participants] at hl
    rw [prioritized_kept.1, prioritized_fresh]
    exact g.key id r hl
  · intro r hr
    rw [prioritized_queue] at hr
    exact prioritized_member.2 (g.queue_member r hr)
  · rw [prioritized_queue]
    exact g.nodup
  · rwa [prioritized_queue]
  · intro r hr
    rw [prioritized_queue] at hr
    rw [prioritized_kept.2.2, prioritized_now]
    exact g.asked r hr
  · intro id r hl
    rw [prioritized_participants] at hl
    rw [prioritized_kept.2.1, prioritized_holder]
    exact g.floor id r hl
  · intro r hr
    rw [prioritized_holder] at hr
    exact prioritized_member.2 (g.holder_member r hr)
  · rw [prioritized_holder, prioritized_queue]
    exact g.holder_not_queued
  · rw [prioritized_state, prioritized_holder]
    exact g.taken_iff
  · rw [prioritized_state, prioritized_queue]
    exact g.waiting

theorem Good.prioritized_of_not_queued (g : fc.Good) (hp : p ∉ fc.queue) :
    (fc.prioritized p priority).Good := by
  refine g.prioritized (g.ordered.imp_of_mem fun {x y} hx hy hxy => ?_)
  grind [Before, prioritized_heap_ne]

end Prioritized

variable {priority : Option Int} {ev : FloorEvent}

/-- The request of a current participant, once its priority is set. -/
theorem onRequest_eq (hl : fc.participants.lookup id = some p) : fc.onRequest id priority =
      match fc.state with
      | .releasing => (fc.prioritized p priority, .error "bad_state")
      | .idle => ({ (fc.prioritized p priority).doGrant p with state := .taken }, .granted id)
      | .taken => (fc.prioritized p priority).requestTaken p id := by
  unfold onRequest
  rw [hl]
  cases priority <;> rfl

theorem Base.ne_of_not_holds (hl : fc.participants.lookup id = some p) (b : fc.Base)
    (hh : fc.holder = some h) (hholds : ¬ fc.holds id = true) : h ≠ p := by
  rintro rfl
  exact hholds ((holds_eq_true hh).2 (b.key id h hl).1)

/-- A member in the queue that asks again: it takes the floor, or it asks like any other. -/
theorem Good.onRequest_queued (g : fc.Good) (priority : Option Int)
    (hl : fc.participants.lookup id = some p) (hq : p ∈ fc.queue) (hh : fc.holder = some h) :
    fc.onRequest id priority =
      if canPreempt ((fc.prioritized p priority).heap p).priority (fc.heap h).priority then
        ((fc.prioritized p priority).doPreempt p, .preempted id (fc.heap h).mcpttID)
      else requestTaken.queueRequest (fc.prioritized p priority) p := by
  have hne : h ≠ p := fun e => g.holder_not_queued h hh (e ▸ hq)
  have hholds : ¬ (fc.prioritized p priority).holds id = true := by
    rw [holds_eq_true (prioritized_holder.trans hh), prioritized_kept.1]
    intro e
    exact hne ((g.holder_member h hh).unique (g.queue_member p hq)
      (e.trans (g.key id p hl).1.symm))
  rw [onRequest_eq hl, g.taken_iff.2 ⟨h, hh⟩]
  rw [requestTaken, if_neg hholds, prioritized_holder, hh]
  dsimp only
  rw [prioritized_heap_ne hne]

theorem queueRequest_full (hfull : maxFloorQueue ≤ fc.queue.length) :
    requestTaken.queueRequest fc p = (fc, .denied "queue_full") :=
  if_pos hfull

theorem queueRequest_room (hroom : ¬ maxFloorQueue ≤ fc.queue.length) :
    (requestTaken.queueRequest fc p).1 = (fc.asking p).enqueue p := by
  unfold requestTaken.queueRequest
  rw [if_neg hroom]
  rfl

/-- Who waits, waits because the floor is taken. -/
theorem Good.holder_of_queued (g : fc.Good) (hq : p ∈ fc.queue) : ∃ h, fc.holder = some h := by
  by_cases hs : fc.state = .taken
  · exact g.taken_iff.1 hs
  · rw [g.waiting hs] at hq
    exact absurd hq not_mem_nil

theorem Good.onRequest (g : fc.Good) (hk : fc.Keeps (.requestFloor id priority)) :
    Good { (fc.onRequest id priority).1 with now := fc.now + 1 } := by
  cases hl : fc.participants.lookup id with
  | none =>
    unfold FloorController.onRequest
    rw [hl]
    exact g.tick
  | some p =>
    have hm := g.member_iff hl
    by_cases hq : p ∈ fc.queue
    · obtain ⟨h, hh⟩ := g.holder_of_queued hq
      obtain ⟨hpre, hfull, hord⟩ := hk p hl hq
      have gp := (g.prioritized hord).tick
      rw [prioritized_now] at gp
      rw [g.onRequest_queued _ hl hq hh, hpre h hh, if_neg (by simp),
        queueRequest_full (by rwa [prioritized_queue])]
      exact gp
    · have gp := @Good.prioritized_of_not_queued _ _ priority g hq
      have hmp : (fc.prioritized p priority).Member p := prioritized_member.2 hm
      have hqp : p ∉ (fc.prioritized p priority).queue := by rwa [prioritized_queue]
      rw [onRequest_eq hl, ← @prioritized_now fc p priority]
      cases hs : fc.state with
      | releasing => exact gp.tick
      | idle =>
        have hnone : (fc.prioritized p priority).holder = none := by
          rw [prioritized_holder]
          refine eq_none_iff_forall_ne_some.2 fun r hr => ?_
          rw [g.taken_iff.2 ⟨r, hr⟩] at hs
          cases hs
        have gg := ((gp.vacant hnone).withState .taken).doGrant rfl hmp hqp
        exact gg.tick
      | taken =>
        obtain ⟨h, hh⟩ := g.taken_iff.1 hs
        have hhp : (fc.prioritized p priority).holder = some h := prioritized_holder.trans hh
        dsimp only
        unfold requestTaken
        split
        · exact gp.tick
        · rename_i hholds
          rw [hhp]
          dsimp only
          split
          · have gg := gp.dropHolder.doGrant (p := p)
              (by rw [dropHolder_state, prioritized_state, hs])
              (dropHolder_member.2 hmp) (by rwa [dropHolder_queue])
            have hnow : ((fc.prioritized p priority).doPreempt p).now
                = (fc.prioritized p priority).now := dropHolder_now
            rw [← hnow]
            exact gg.tick
          · have hlp : (fc.prioritized p priority).participants.lookup id = some p := by
              rwa [prioritized_participants]
            have hne := Base.ne_of_not_holds hlp gp.toBase hhp hholds
            by_cases hfull : maxFloorQueue ≤ (fc.prioritized p priority).queue.length
            · rw [queueRequest_full hfull]
              exact gp.tick
            · rw [queueRequest_room hfull]
              exact gp.enqueue hmp hqp hhp hne

/-! ## One event -/

theorem onRelease_now : (fc.onRelease id).1.now = fc.now := by
  unfold onRelease
  split
  · exact doRelease_now
  · rfl

theorem Good.step (g : fc.Good) (hk : fc.Keeps ev) : (fc.step ev).Good := by
  have of_now : (fc.dispatch ev).1.now = fc.now → (fc.dispatch ev).1.Good → (fc.step ev).Good :=
    fun hn gd => gd.of_dispatch hn
  cases ev with
  | addParticipant id priority => exact of_now onAdd_now (g.onAdd priority)
  | removeParticipant id => exact of_now onRemove_now g.onRemove
  | requestFloor id priority =>
    have a := @Agrees.refresh (fc.onRequest id priority).1
    exact (g.onRequest hk).agrees ⟨a.state, a.holder, a.queue, a.participants, a.fresh, a.mcpttID,
      a.priority, a.hasFloor, a.reqTime⟩ le_rfl
  | releaseFloor id =>
    refine of_now onRelease_now ?_
    change (fc.onRelease id).1.Good
    unfold onRelease
    split
    · exact g.doRelease
    · exact g
  | queryStatus => exact of_now rfl g
  | sessionRelease =>
    have hk' : fc.holder = none := hk
    have hq : fc.queue = [] := g.waiting fun hs => by
      obtain ⟨r, hr⟩ := g.taken_iff.1 hs
      rw [hk'] at hr
      cases hr
    exact of_now rfl (((g.vacant hk').withState .releasing).idle hq (by simp))

/-- What the event does to the floor is proper in a good state. -/
theorem Good.proper (g : fc.Good) (ev : FloorEvent) : fc.Proper ev := by
  constructor
  · intro r hr hev
    rw [step_holder]
    have hholds : fc.holds (fc.heap r).mcpttID = true := (holds_eq_true hr).2 rfl
    rcases hev with rfl | rfl
    · change (fc.onRelease _).1.holder = _
      rw [onRelease, if_pos hholds]
      exact doRelease_holder
    · change (fc.onRemove _).holder = _
      rw [FloorController.onRemove, g.holder_member r hr]
      rw [if_pos hholds]
      exact doRelease_holder
  · intro hs
    have hnone : ∀ r, fc.holder ≠ some r := fun r hr => by
      rw [g.taken_iff.2 ⟨r, hr⟩] at hs
      cases hs
    have hholds : ∀ id, ¬ fc.holds id = true := by
      intro id
      rw [holds, eq_none_iff_forall_ne_some.2 hnone]
      simp
    rw [step_state, step_holder]
    cases ev with
    | addParticipant id priority =>
      change (fc.onAdd id priority).state = _ ∧ ∀ r, (fc.onAdd id priority).holder = _ → _
      grind [FloorController.onAdd]
    | removeParticipant id =>
      change (fc.onRemove id).state = _ ∧ ∀ r, (fc.onRemove id).holder = _ → _
      grind [FloorController.onRemove]
    | requestFloor id priority =>
      change (fc.onRequest id priority).1.state = _ ∧
        ∀ r, (fc.onRequest id priority).1.holder = _ → _
      grind [FloorController.onRequest, onRequest_eq, prioritized_state, prioritized_holder]
    | releaseFloor id =>
      change (fc.onRelease id).1.state = _ ∧ ∀ r, (fc.onRelease id).1.holder = _ → _
      simp_all [onRelease]
    | queryStatus => exact ⟨hs, fun r hr => hr⟩
    | sessionRelease => exact ⟨rfl, fun r hr => hr⟩

/-- An event that leads to a sound state was one of those that keep it. -/
theorem Good.keeps (g : fc.Good) (hs : (fc.step ev).Sound) : fc.Keeps ev := by
  cases ev with
  | requestFloor id priority =>
    intro p hl hq
    obtain ⟨h, hh⟩ := g.holder_of_queued hq
    have hstep := g.onRequest_queued priority hl hq hh
    have hqp : p ∈ (fc.prioritized p priority).queue := by rwa [prioritized_queue]
    have hpre : canPreempt ((fc.prioritized p priority).heap p).priority (fc.heap h).priority
        = false := by
      refine Bool.eq_false_iff.2 fun e => ?_
      rw [if_pos e] at hstep
      -- the holder would still be in the queue
      refine hs.holder_not_queued p ?_ ?_
      · rw [step_holder]
        change (fc.onRequest id priority).1.holder = _
        rw [hstep]
        rfl
      · rw [step_queue]
        change p ∈ (fc.onRequest id priority).1.queue
        rw [hstep]
        change p ∈ (fc.prioritized p priority).dropHolder.queue
        rwa [dropHolder_queue]
    rw [hpre, if_neg (by simp)] at hstep
    have hfull : maxFloorQueue ≤ (fc.prioritized p priority).queue.length := by
      by_contra hroom
      -- it would be in the queue twice
      have hnodup := hs.nodup
      rw [step_queue] at hnodup
      change (fc.onRequest id priority).1.queue.Nodup at hnodup
      rw [hstep, queueRequest_room hroom] at hnodup
      exact (nodup_cons.1 (enqueue_perm.nodup_iff.1 hnodup)).1 hqp
    refine ⟨fun h' hh' => ?_, by rwa [prioritized_queue] at hfull, ?_⟩
    · rw [hh] at hh'
      cases hh'
      exact hpre
    · rw [queueRequest_full hfull] at hstep
      have hord := hs.ordered
      have a := @Agrees.refresh (fc.onRequest id priority).1
      change ((fc.onRequest id priority).1.refreshParticipantStates.queue).Pairwise
        (Before (fc.onRequest id priority).1.refreshParticipantStates.heap) at hord
      rw [a.queue] at hord
      have hpri := a.priority
      have htime := a.reqTime
      rw [hstep] at hord hpri htime
      rw [prioritized_queue] at hord
      refine hord.imp fun {x y} hxy => ?_
      rwa [Before, hpri, hpri, htime, htime] at hxy
  | sessionRelease =>
    refine eq_none_iff_forall_ne_some.2 fun r hr => ?_
    have htaken := hs.taken_iff.2 ⟨r, by rw [step_holder]; exact hr⟩
    rw [step_state] at htaken
    cases htaken
  | addParticipant | removeParticipant | releaseFloor | queryStatus => trivial

/-! ## Main result -/

/-- Along the events of a call every state is sound and every step proper exactly when every event
keeps the state before it. -/
theorem sound_iff_keeps (events : List FloorEvent) :
    Meets step (fun fc ev => (fc.step ev).Sound ∧ fc.Proper ev) new events
      ↔ Meets step Keeps new events := by
  constructor
  · intro h
    exact h.imp (I := Good) (fun fc ev g hs => ⟨g.keeps hs.1, g.step (g.keeps hs.1)⟩) Good.new
  · intro h
    exact h.imp (I := Good)
      (fun fc ev g hk => ⟨⟨(g.step hk).sound, g.proper ev⟩, g.step hk⟩) Good.new

/-- A member asks twice while another one speaks. -/
def askedTwice : List FloorEvent :=
  [.addParticipant "a" 5, .addParticipant "b" 5, .requestFloor "a" none, .requestFloor "b" none,
    .requestFloor "b" none]

/-- The member is queued twice. -/
theorem queued_twice :
    (run step new askedTwice).queue = [1, 1] ∧ ¬ (run step new askedTwice).Sound := by
  have hq : (run step new askedTwice).queue = [1, 1] := by decide
  refine ⟨hq, fun hs => ?_⟩
  have hnodup := hs.nodup
  exact absurd hnodup (by decide)

end FloorController

end MmtCore.Mcptt
