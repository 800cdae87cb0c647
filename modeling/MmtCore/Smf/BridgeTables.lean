import MmtCore.Smf.PfcpBridge

/-!
# The tables of the PFCP bridge

`sessions`, `pending` and `cpSEIDIndex` under `SessionCreate`, `CommitSession` and `SessionDelete`.
The index and the sessions are inverse to each other.  A deletion forgets the session before the
request leaves, so a session whose deletion fails stays at the UPF alone; no other operation leaves
one there, except an establishment whose answer is lost.
-/

namespace MmtCore.Smf

open MmtCore.Lib MmtCore.Upf MmtCore.Pfcp Function

/-- A call on the bridge, and the fate of its request. -/
inductive BridgeOp
  | sessionCreate (k : ImsiPduKey) (dnn : List UInt8) (sst : UInt8) (sd ueAddr : UInt32)
      (pdnType : UInt8)
  | commitSession (k : ImsiPduKey) (fate : Fate)
  | sessionDelete (k : ImsiPduKey) (fate : Fate)
deriving DecidableEq

namespace Link

def step (l : Link) : BridgeOp → Link
  | .sessionCreate k dnn sst sd ueAddr pdnType => l.sessionCreate k dnn sst sd ueAddr pdnType
  | .commitSession k fate => (l.commitSession k fate).1
  | .sessionDelete k fate => (l.sessionDelete k fate).1

/-! ## The tables -/

/-- Every entry of the index names a live session whose CP-SEID it is, and every live session has
its entry. -/
structure Inverse (l : Link) : Prop where
  indexed : ∀ k st, l.bridge.sessions k = some st → l.bridge.cpSEIDIndex st.cpSEID = some k
  live : ∀ c k, l.bridge.cpSEIDIndex c = some k →
    ∃ st, l.bridge.sessions k = some st ∧ st.cpSEID = c

/-- Two live sessions do not share a CP-SEID. -/
theorem Inverse.cpSEID_inj {l : Link} (h : l.Inverse) {k k' : ImsiPduKey} {st st' : SessionState}
    (hk : l.bridge.sessions k = some st) (hk' : l.bridge.sessions k' = some st')
    (heq : st.cpSEID = st'.cpSEID) : k = k' := by
  have hindex := h.indexed k st hk
  rw [heq] at hindex
  exact Option.some.inj (hindex.symm.trans (h.indexed k' st' hk'))

/-- The sessions of the UPF that the bridge does not know. -/
def Orphan (l : Link) (i : UInt64) : Prop :=
  (∃ ps, l.peer.sessions i = some ps) ∧
    ∀ k st, l.bridge.sessions k = some st → st.upSEID ≠ i

/-- A deletion that the UPF does not execute, or an establishment whose answer is lost. -/
def Strands (l : Link) : BridgeOp → Prop
  | .sessionCreate .. => False
  | .commitSession _ fate => fate = .unanswered
  | .sessionDelete k fate =>
    (l.bridge.sessions k).isSome = true ∧ (fate = .lost ∨ fate = .refused)

/-- SEIDs are drawn that are not in use, and no session is established over a live one. -/
def Draws (l : Link) : BridgeOp → Prop
  | .sessionCreate _ _ _ _ _ _ => l.bridge.cpSEIDIndex (l.bridge.cpSeid + 1) = none ∧
      ∀ k p, l.bridge.pending k = some p → p.cpSEID ≠ l.bridge.cpSeid + 1
  | .commitSession k _ => ((l.bridge.pending k).isSome = true → l.bridge.sessions k = none) ∧
      l.peer.sessions (l.peer.nextSEID + 1) = none
  | .sessionDelete .. => True

/-- The CP-SEIDs of sessions that wait belong to no other session. -/
structure Reserved (l : Link) : Prop where
  index : ∀ k p, l.bridge.pending k = some p → l.bridge.cpSEIDIndex p.cpSEID = none
  inj : ∀ k k' p p', l.bridge.pending k = some p → l.bridge.pending k' = some p' →
    p.cpSEID = p'.cpSEID → k = k'

/-- What a run keeps. -/
structure Tables (l : Link) : Prop where
  inverse : l.Inverse
  reserved : l.Reserved

variable {l : Link} {k : ImsiPduKey} {fate : Fate}

/-! ## Each operation -/

theorem tables_sessionCreate {dnn : List UInt8} {sst pdnType : UInt8} {sd ueAddr : UInt32}
    (h : l.Tables) (hindex : l.bridge.cpSEIDIndex (l.bridge.cpSeid + 1) = none)
    (hfree : ∀ k p, l.bridge.pending k = some p → p.cpSEID ≠ l.bridge.cpSeid + 1) :
    (l.sessionCreate k dnn sst sd ueAddr pdnType).Tables := by
  have hpend : ∀ k' p, (l.sessionCreate k dnn sst sd ueAddr pdnType).bridge.pending k' = some p →
      (k' = k ∧ p.cpSEID = l.bridge.cpSeid + 1) ∨ (k' ≠ k ∧ l.bridge.pending k' = some p) := by
    intro k' p hp
    unfold sessionCreate stash at hp
    dsimp only at hp
    by_cases hk : k' = k
    · grind
    · rw [update_of_ne hk] at hp
      exact .inr ⟨hk, hp⟩
  refine ⟨⟨h.inverse.indexed, h.inverse.live⟩,
    ⟨fun k' p hp => ?_, fun k' k'' p p' hp hp' heq => ?_⟩⟩
  · obtain ⟨-, hseid⟩ | ⟨-, hold⟩ := hpend k' p hp
    · rw [hseid]
      exact hindex
    · exact h.reserved.index k' p hold
  · obtain ⟨hk, hseid⟩ | ⟨hk, hold⟩ := hpend k' p hp
    · grind
    · obtain ⟨-, hseid'⟩ | ⟨-, hold'⟩ := hpend k'' p' hp'
      · exact absurd (heq.trans hseid') (hfree k' p hold)
      · exact h.reserved.inj k' k'' p p' hold hold' heq

/-- The rules of a session no longer wait. -/
theorem reserved_unstash (h : l.Reserved) : (l.unstash k).Reserved := by
  have hpend : ∀ k' p, (l.unstash k).bridge.pending k' = some p → l.bridge.pending k' = some p := by
    intro k' p hp
    unfold unstash at hp
    grind
  exact ⟨fun k' p hp => h.index k' p (hpend k' p hp),
    fun k' k'' p p' hp hp' => h.inj k' k'' p p' (hpend k' p hp) (hpend k'' p' hp')⟩

theorem tables_remember {p : PendingRules} (upSEID : UInt64) (h : l.Tables)
    (hp : l.bridge.pending k = some p) (hnone : l.bridge.sessions k = none) :
    ((l.unstash k).remember k ⟨p.cpSEID, upSEID⟩).Tables := by
  have hother : ∀ k', k' ≠ k → l.bridge.cpSEIDIndex p.cpSEID ≠ some k' := by
    intro k' _
    rw [h.reserved.index k p hp]
    exact fun hn => by cases hn
  refine ⟨⟨fun k' st hst => ?_, fun c k' hc => ?_⟩, ⟨fun k' p' hp' => ?_, ?_⟩⟩
  · unfold remember unstash at hst ⊢
    dsimp only at hst ⊢
    by_cases hk : k' = k
    · grind
    · rw [update_of_ne hk] at hst
      have hindex := h.inverse.indexed k' st hst
      grind
  · unfold remember unstash at hc ⊢
    dsimp only at hc ⊢
    by_cases hcp : c = p.cpSEID
    · simp_all
    · rw [update_of_ne hcp] at hc
      obtain ⟨st, hst, hseid⟩ := h.inverse.live c k' hc
      grind
  · have hk : k' ≠ k := by
      rintro rfl
      simp_all [remember, unstash]
    have hold : l.bridge.pending k' = some p' := (update_of_ne hk ..).symm.trans hp'
    have hne : p'.cpSEID ≠ p.cpSEID := fun heq => hk (h.reserved.inj k' k p' p hold hp heq)
    exact (update_of_ne hne ..).trans (h.reserved.index k' p' hold)
  · exact (reserved_unstash (k := k) h.reserved).inj

theorem tables_commitSession (h : l.Tables)
    (hnone : (l.bridge.pending k).isSome = true → l.bridge.sessions k = none) :
    (l.commitSession k fate).1.Tables := by
  have hunstash : ∀ peer : Peer, ({ l.unstash k with peer } : Link).Tables := fun peer =>
    ⟨⟨h.inverse.indexed, h.inverse.live⟩,
      ⟨(reserved_unstash h.reserved).index, (reserved_unstash h.reserved).inj⟩⟩
  unfold commitSession
  split
  case h_1 => exact hunstash l.peer
  case h_2 p hp =>
    split
    case isFalse => exact hunstash l.peer
    cases fate with
    | lost | refused | unanswered => exact hunstash _
    | answered =>
      have hrem := tables_remember (l.peer.establish (establishmentRequest k p)).nextSEID h hp
        (hnone (by rw [hp]; rfl))
      exact ⟨⟨hrem.inverse.indexed, hrem.inverse.live⟩, ⟨hrem.reserved.index, hrem.reserved.inj⟩⟩

theorem tables_forget {st : SessionState} (h : l.Tables) (hst : l.bridge.sessions k = some st) :
    (l.forget k st).Tables := by
  refine ⟨⟨fun k' st' hst' => ?_, fun c k' hc => ?_⟩, ⟨fun k' p hp => ?_, h.reserved.inj⟩⟩
  · unfold forget at hst' ⊢
    dsimp only at hst' ⊢
    have hk : k' ≠ k := by
      rintro rfl
      rw [update_self] at hst'
      cases hst'
    rw [update_of_ne hk] at hst'
    rw [update_of_ne fun hc => hk (h.inverse.cpSEID_inj hst' hst hc)]
    exact h.inverse.indexed k' st' hst'
  · unfold forget at hc ⊢
    dsimp only at hc ⊢
    have hne : c ≠ st.cpSEID := by
      rintro rfl
      rw [update_self] at hc
      cases hc
    rw [update_of_ne hne] at hc
    obtain ⟨st', hst', hseid⟩ := h.inverse.live c k' hc
    grind
  · unfold forget
    dsimp only
    by_cases hc : p.cpSEID = st.cpSEID
    · rw [hc, update_self]
    · rw [update_of_ne hc]
      exact h.reserved.index k' p hp

theorem tables_sessionDelete (k : ImsiPduKey) (fate : Fate) (h : l.Tables) :
    (l.sessionDelete k fate).1.Tables := by
  unfold sessionDelete
  split
  case h_1 => exact h
  case h_2 st hst =>
    have hforget := tables_forget h hst
    exact ⟨⟨hforget.inverse.indexed, hforget.inverse.live⟩,
      ⟨hforget.reserved.index, hforget.reserved.inj⟩⟩

variable {op : BridgeOp} {i : UInt64}

theorem tables_step (h : l.Tables) (hop : l.Draws op) : (l.step op).Tables := by
  cases op with
  | sessionCreate k dnn sst sd ueAddr pdnType => exact tables_sessionCreate h hop.1 hop.2
  | commitSession k fate => exact tables_commitSession h hop.1
  | sessionDelete k fate => exact tables_sessionDelete k fate h

/-! ## Orphans -/

theorem orphan_commitSession
    (hnone : (l.bridge.pending k).isSome = true → l.bridge.sessions k = none)
    (hfate : fate ≠ .unanswered) (ho : (l.commitSession k fate).1.Orphan i) :
    l.Orphan i := by
  unfold commitSession at ho
  split at ho
  case h_1 => exact ho
  case h_2 p hp =>
    split at ho
    case isFalse => exact ho
    cases fate with
    | lost | refused => exact ho
    | unanswered => exact absurd rfl hfate
    | answered =>
      obtain ⟨⟨ps, hps⟩, hknown⟩ := ho
      have hnew : i ≠ l.peer.nextSEID + 1 := fun hi =>
        hknown k ⟨p.cpSEID, _⟩ (update_self ..) hi.symm
      refine ⟨⟨ps, (update_of_ne hnew ..).symm.trans hps⟩, fun k' st hst => ?_⟩
      have hk : k' ≠ k := by
        rintro rfl
        cases (hnone (by rw [hp]; rfl)).symm.trans hst
      exact hknown k' st ((update_of_ne hk ..).trans hst)

theorem orphan_sessionDelete
    (hfate : (l.bridge.sessions k).isSome = true → fate ≠ .lost ∧ fate ≠ .refused)
    (ho : (l.sessionDelete k fate).1.Orphan i) : l.Orphan i := by
  unfold sessionDelete at ho
  split at ho
  case h_1 => exact ho
  case h_2 st hst =>
    obtain ⟨hlost, hrefused⟩ := hfate (by rw [hst]; rfl)
    obtain ⟨⟨ps, hps⟩, hknown⟩ := ho
    have hpeer : update l.peer.sessions st.upSEID none i = some ps := by
      cases fate with
      | lost => exact absurd rfl hlost
      | refused => exact absurd rfl hrefused
      | unanswered | answered => exact hps
    have hi : i ≠ st.upSEID := by
      rintro rfl
      rw [update_self] at hpeer
      cases hpeer
    rw [update_of_ne hi] at hpeer
    refine ⟨⟨ps, hpeer⟩, fun k' st' hst' => ?_⟩
    by_cases hk : k' = k
    · subst hk
      cases hst.symm.trans hst'
      exact hi.symm
    · exact hknown k' st' ((update_of_ne hk ..).trans hst')

/-- Only a failed deletion, or an establishment without an answer, leaves a session at the UPF that
the bridge does not know. -/
theorem orphan_step (hop : l.Draws op) (hstrands : ¬ l.Strands op) (ho : (l.step op).Orphan i) :
    l.Orphan i := by
  cases op with
  | sessionCreate k dnn sst sd ueAddr pdnType => exact ho
  | commitSession k fate => exact orphan_commitSession hop.1 hstrands ho
  | sessionDelete k fate =>
    refine orphan_sessionDelete (fun hsome => ?_) ho
    exact ⟨fun hl => hstrands ⟨hsome, .inl hl⟩, fun hr => hstrands ⟨hsome, .inr hr⟩⟩

/-- A deletion forgets the session, whatever becomes of the request. -/
theorem sessions_sessionDelete (k : ImsiPduKey) (fate : Fate) :
    (l.sessionDelete k fate).1.bridge.sessions k = none := by
  unfold sessionDelete
  split
  case h_1 h => exact h
  case h_2 => exact update_self ..

/-! ## Runs -/

/-- A bridge that has just been dialled, and its UPF. -/
def dialled : Link := ⟨.empty, .empty⟩

theorem tables_dialled : dialled.Tables := by
  constructor <;> constructor <;> intros <;> contradiction

/-- In every run whose operations draw SEIDs that are free: the index and the sessions are inverse,
a deletion forgets its session, and only a failed deletion or a lost answer leaves one at the UPF
that the bridge does not know. -/
theorem tables_inverse {l : Link} (h : Reach step Draws dialled l) :
    l.Inverse ∧
      (∀ k k' st st', l.bridge.sessions k = some st → l.bridge.sessions k' = some st' →
        st.cpSEID = st'.cpSEID → k = k') ∧
      (∀ k fate, (l.step (.sessionDelete k fate)).bridge.sessions k = none ∧
        ∀ c, (l.step (.sessionDelete k fate)).bridge.cpSEIDIndex c ≠ some k) ∧
      ∀ op, l.Draws op → ¬ l.Strands op → ∀ i, (l.step op).Orphan i → l.Orphan i := by
  have ht : l.Tables := h.invariant tables_dialled fun _ _ hi hD => tables_step hi hD
  refine ⟨ht.inverse, fun k k' st st' => ht.inverse.cpSEID_inj, fun k fate => ?_,
    fun op hop hstrands i => orphan_step hop hstrands⟩
  have hnone := sessions_sessionDelete (l := l) k fate
  refine ⟨hnone, fun c hc => ?_⟩
  obtain ⟨st, hst, -⟩ := (tables_sessionDelete k fate ht).inverse.live c k hc
  cases hnone.symm.trans hst

/-! ### A deletion that is lost -/

def sampleOps (k : ImsiPduKey) (fate : Fate) : List BridgeOp :=
  [.sessionCreate k [] 1 0 0x0A2D0001 1, .commitSession k .answered, .sessionDelete k fate]

theorem tables_inverse_sample :
    (run step dialled (sampleOps ⟨[49], 5⟩ .answered)).Inverse := by
  have hmeets : Meets step Draws dialled (sampleOps ⟨[49], 5⟩ .answered) := by
    refine ⟨⟨rfl, fun k p hp => ?_⟩, ⟨fun _ => rfl, rfl⟩, trivial, trivial⟩
    cases hp
  exact (tables_inverse hmeets.reach).1

/-- The request to delete is lost: the bridge has forgotten the session, and the UPF has not. -/
theorem deletion_lost : ¬ ∀ l, Reach step (fun _ _ => True) dialled l → l.Inverse ∧
    (∀ k k' st st', l.bridge.sessions k = some st → l.bridge.sessions k' = some st' →
      st.cpSEID = st'.cpSEID → k = k') ∧
    (∀ k fate, (l.step (.sessionDelete k fate)).bridge.pending k = none) ∧ ∀ i, ¬ l.Orphan i := by
  intro h
  let k : ImsiPduKey := ⟨[49], 5⟩
  let l := run step dialled (sampleOps k .lost)
  have horphan := (h l (reach_run step _ _)).2.2.2 0x20000002
  refine horphan ⟨⟨.established (establishmentRequest k
    { PendingRules.empty with cpSEID := 0x10000001, sst := 1 }), by decide⟩, ?_⟩
  intro k' st hst
  have hsessions : l.bridge.sessions = update
      (update (fun _ => none) k (some ⟨0x10000001, 0x20000002⟩)) k none := rfl
  simp_all

end Link

end MmtCore.Smf
