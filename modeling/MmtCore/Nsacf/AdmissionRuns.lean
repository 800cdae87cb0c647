import MmtCore.Lib.Reach
import MmtCore.Nsacf.Admission

/-!
# Admissions over runs

The limits of the slice hold along a run as long as an evaluation admits its UE in the slice that it
has seen, a pre-emption finds its victim as the database has it, a request leaves the reserved slots
alone, and the goroutines write what becomes of one UE in order.
-/

namespace MmtCore.Nsacf.Slice

open MmtCore.Lib List Option Prod Finset

section

variable (s : Slice)

/-- The UE that a step admits, and its priority. -/
def admission : Event → Option (Imsi × Int)
  | .advance k _ =>
    match s.evals k with
    | some ⟨imsi, priority, .admitting ..⟩ => some (imsi, priority)
    | _ => none
  | .request imsi priority =>
    if imsi ∉ s.admissions ∧ (s.requestAdmission imsi priority).2.allowed = true then
      some (imsi, priority)
    else none
  | _ => none

/-- What the slice promises of a step. -/
structure Sound (e : Event) : Prop where
  bounded : ∀ m, (s.step e).maxAtLast = some m → ((s.step e).admissions.card : Int) ≤ m
  /-- A UE below the threshold leaves the reserved slots free. -/
  reserved : ∀ imsi priority lim, s.admission e = some (imsi, priority) → s.limit = some lim →
    priority < lim.priorityThreshold →
    ((s.step e).admissions.card : Int) ≤ lim.maxUEs - lim.reservedUEs
  /-- A pre-emption removes one UE of lower priority … -/
  evicts : ∀ k row imsi priority st victim, e = .advance k row →
    s.evals k = some ⟨imsi, priority, .preempting st victim⟩ →
    s.priorityOf victim.imsi < priority ∧ (s.step e).admissions.card + 1 = s.admissions.card
  /-- … for the one it admits. -/
  replaces : ∀ k row imsi priority st reason victim, e = .advance k row →
    s.evals k = some ⟨imsi, priority, .admitting st reason (some victim)⟩ →
    (s.step e).admissions.card = s.admissions.card + 1
  stored : (s.step e).writes = [] →
    ((s.step e).rows.map (·.imsi)).toFinset = (s.step e).admissions

/-- The limit is the one that the evaluation has read, and no UE has been admitted since beyond the
room that it has seen or made. -/
def Fresh (st : SliceStatus) (evicted : Bool) : Option SliceLimit → Prop
  | none => True
  | some lim =>
    lim.maxUEs ≠ 0 ∧ lim.maxUEs = st.maxUEs ∧ lim.reservedUEs = st.reservedUEs ∧
      lim.priorityThreshold = st.priorityThreshold ∧
      if evicted then (s.admissions.card : Int) < st.currentUEs ∧ st.currentUEs ≤ lim.maxUEs
      else (s.admissions.card : Int) ≤ st.currentUEs

instance (st : SliceStatus) (evicted : Bool) (lim : Option SliceLimit) :
    Decidable (s.Fresh st evicted lim) :=
  match lim with
  | none => inferInstanceAs (Decidable True)
  | some _ => inferInstanceAs (Decidable (_ ∧ _ ∧ _ ∧ _ ∧ ite _ _ _))

def StageKeeps (imsi : Imsi) : Stage → Prop
  | .preempting _ victim =>
    victim.imsi ∈ s.admissions ∧ victim.priority = s.priorityOf victim.imsi
  | .admitting st _ preempted =>
    s.Fresh st preempted.isSome s.limit ∧ (preempted.isSome = true → imsi ∉ s.admissions)
  | .begun | .statusRead _ | .checked _ | .finished _ => True

instance (imsi : Imsi) (stage : Stage) : Decidable (s.StageKeeps imsi stage) :=
  match stage with
  | .preempting _ _ => inferInstanceAs (Decidable (_ ∧ _))
  | .admitting .. => inferInstanceAs (Decidable (_ ∧ (_ → _)))
  | .begun | .statusRead _ | .checked _ | .finished _ => inferInstanceAs (Decidable True)

/-- An evaluation that evicts or admits finds the slice as it has seen it; a UE below the threshold
requests admission while more than the reserved slots are free; and a write succeeds and comes after
the earlier ones of its UE. -/
def Keeps : Event → Prop
  | .advance k _ => ∀ e ∈ s.evals k, s.StageKeeps e.imsi e.stage
  | .request imsi priority => ∀ lim ∈ s.limit, imsi ∉ s.admissions →
      lim.priorityThreshold ≤ priority ∨
        (s.admissions.card : Int) < lim.maxUEs - lim.reservedUEs ∨
        lim.maxUEs ≤ (s.admissions.card : Int)
  | .persist i ok => ∀ w ∈ s.writes[i]?, ok = true ∧ ∀ w' ∈ s.writes.take i, w'.imsi ≠ w.imsi
  | .evaluate .. | .release _ | .preempt _ | .setSliceLimit _ => True

instance (e : Event) : Decidable (s.Keeps e) :=
  match e with
  | .advance k _ => inferInstanceAs (Decidable (∀ e ∈ s.evals k, s.StageKeeps e.imsi e.stage))
  | .request imsi _ =>
    inferInstanceAs (Decidable (∀ lim ∈ s.limit, imsi ∉ s.admissions → _ ∨ _ ∨ _))
  | .persist i _ =>
    inferInstanceAs (Decidable (∀ w ∈ s.writes[i]?, _ ∧ ∀ w' ∈ s.writes.take i, w'.imsi ≠ w.imsi))
  | .evaluate .. | .release _ | .preempt _ | .setSliceLimit _ => inferInstanceAs (Decidable True)

end

/-! ## What is stored -/

/-- Whether the UE has a row once the writes are done, in order. -/
def storedAfter (imsi : Imsi) (writes : List Write) (present : Bool) : Bool :=
  writes.foldl (fun present w => if w.imsi = imsi then w.stores else present) present

section

variable {imsi : Imsi} {writes : List Write} {w : Write} {present : Bool}

@[simp] theorem storedAfter_nil : storedAfter imsi [] present = present := rfl

theorem storedAfter_cons : storedAfter imsi (w :: writes) present =
    storedAfter imsi writes (if w.imsi = imsi then w.stores else present) := rfl

theorem storedAfter_append_singleton : storedAfter imsi (writes ++ [w]) present =
    if w.imsi = imsi then w.stores else storedAfter imsi writes present := by
  unfold storedAfter
  rw [foldl_append]
  rfl

/-- A write of another UE can be left out. -/
theorem storedAfter_eraseIdx_other {i : Nat} (hi : writes[i]? = some w) (hne : w.imsi ≠ imsi) :
    storedAfter imsi (writes.eraseIdx i) present = storedAfter imsi writes present := by
  induction writes generalizing i present with
  | nil => rfl
  | cons v writes ih =>
    grind [eraseIdx_cons_zero, storedAfter_cons]

/-- The first write of the UE can be done ahead of the writes before it. -/
theorem storedAfter_eraseIdx_self {i : Nat} (hi : writes[i]? = some w) (hw : w.imsi = imsi)
    (hfirst : ∀ w' ∈ writes.take i, w'.imsi ≠ imsi) :
    storedAfter imsi (writes.eraseIdx i) w.stores = storedAfter imsi writes present := by
  induction writes generalizing i with
  | nil => cases hi
  | cons v writes ih =>
    grind [eraseIdx_cons_zero, storedAfter_cons]

/-- A write settles whether its UE has a row. -/
theorem exec_self (rows : List Admission) :
    (exec rows w).any (·.imsi = w.imsi) = w.stores := by
  cases w with
  | insert imsi priority =>
    unfold exec
    dsimp only
    split
    · case isTrue h => exact h
    · change (rows ++ [(⟨imsi, priority⟩ : Admission)]).any (·.imsi = imsi) = true
      simp
  | delete imsi =>
    change (rows.filter (·.imsi ≠ imsi)).any (·.imsi = imsi) = false
    simp

theorem exec_other (rows : List Admission) (hne : w.imsi ≠ imsi) :
    (exec rows w).any (·.imsi = imsi) = rows.any (·.imsi = imsi) := by
  cases w with
  | insert imsi' priority =>
    have hne' : imsi' ≠ imsi := hne
    grind [exec]
  | delete imsi' =>
    have hne' : imsi' ≠ imsi := hne
    change (rows.filter (·.imsi ≠ imsi')).any (·.imsi = imsi) = _
    rw [List.any_filter]
    congr 1
    funext r
    simp_all [Ne.symm]

end

/-! ## The invariant -/

/-- What an evaluation has found out by the time it evicts or admits. -/
def FoundOut (priority : Int) : Stage → Prop
  | .preempting st victim =>
    st.maxUEs ≤ st.currentUEs ∧ st.priorityThreshold ≤ priority ∧ victim.priority < priority
  | .admitting st _ none =>
    st.maxUEs = 0 ∨ st.currentUEs < st.maxUEs ∧
      (st.currentUEs < st.maxUEs - st.reservedUEs ∨ st.priorityThreshold ≤ priority)
  | .admitting st _ (some _) => st.priorityThreshold ≤ priority
  | .begun | .statusRead _ | .checked _ | .finished _ => True

structure Inv (s : Slice) : Prop where
  bounded : ∀ m, s.maxAtLast = some m → (s.admissions.card : Int) ≤ m
  foundOut : ∀ k e, s.evals k = some e → FoundOut e.priority e.stage
  stored : ∀ imsi, storedAfter imsi s.writes (s.rows.any (·.imsi = imsi)) = true ↔
    imsi ∈ s.admissions

theorem Inv.load (limit : Option SliceLimit) (rows : List Admission) :
    (Slice.load limit rows).Inv where
  bounded _ h := by cases h
  foundOut _ _ h := by cases h
  stored imsi := by simp [Slice.load]

variable {st : SliceStatus} {priority : Int} {stage : Stage} {e : Evaluation} {k : Nat}
  {imsi : Imsi} {lim : SliceLimit}

theorem evaluateStatus_foundOut (h : evaluateStatus st priority = some stage) :
    FoundOut priority stage := by
  unfold evaluateStatus at h
  split at h
  · case isTrue hfree =>
    dsimp only at h
    split at h
    · case isTrue hav =>
      obtain rfl := some.inj h
      exact .inr ⟨hfree, .inl (by omega)⟩
    · split at h
      · case isTrue hth =>
        obtain rfl := some.inj h
        exact .inr ⟨hfree, .inr hth.2⟩
      · split at h
        · obtain rfl := some.inj h
          trivial
        · cases h
  · cases h

/-- Only a slice that is full has its victims looked for. -/
theorem evaluateStatus_none (h : evaluateStatus st priority = none) :
    st.maxUEs ≤ st.currentUEs := by
  grind [evaluateStatus]

variable {s : Slice}

theorem nextStage_foundOut (h : FoundOut e.priority e.stage) (row : Option Nat) :
    FoundOut e.priority (s.nextStage e row) := by
  unfold nextStage
  split
  · dsimp only
    split
    · case isTrue hmax => exact .inl hmax
    · trivial
  · split
    · trivial
    · trivial
  · case h_3 st hst =>
    split
    · case h_1 stage hstage => exact evaluateStatus_foundOut hstage
    · case h_2 hnone =>
      split
      · case isTrue hth =>
        split
        · split
          · case isTrue hlt => exact ⟨evaluateStatus_none hnone, hth.2, hlt⟩
          · trivial
        · trivial
      · trivial
  · case h_4 st victim hst =>
    rw [hst] at h
    exact h.2.1
  · trivial
  · trivial

section

variable
  (h : ∀ imsi, storedAfter imsi s.writes (s.rows.any (·.imsi = imsi)) = true ↔ imsi ∈ s.admissions)
include h

/-- The set as it becomes, with a write for the UE that changes. -/
theorem stored_admitUE (ue : Imsi) (priority recorded : Int) (imsi : Imsi) :
    storedAfter imsi (s.admitUE ue priority recorded).writes
      ((s.admitUE ue priority recorded).rows.any (·.imsi = imsi)) = true ↔
    imsi ∈ (s.admitUE ue priority recorded).admissions := by
  unfold admitUE
  rw [storedAfter_append_singleton, mem_insert]
  by_cases he : ue = imsi
  · rw [if_pos (by exact he)]
    exact iff_of_true rfl (.inl he.symm)
  · rw [if_neg (by exact he), h imsi]
    exact (or_iff_right (Ne.symm he)).symm

theorem stored_removeUE (ue imsi : Imsi) :
    storedAfter imsi (s.removeUE ue).writes ((s.removeUE ue).rows.any (·.imsi = imsi)) = true ↔
    imsi ∈ (s.removeUE ue).admissions := by
  unfold removeUE
  rw [storedAfter_append_singleton, mem_erase]
  by_cases he : ue = imsi
  · rw [if_pos (by exact he)]
    exact iff_of_false (by simp [Write.stores]) fun hmem => hmem.1 he.symm
  · rw [if_neg (by exact he), h imsi]
    exact (and_iff_right (Ne.symm he)).symm

end

/-! ## Steps -/

theorem Inv.setStage (h : s.Inv) (hf : FoundOut e.priority stage) : (s.setStage k e stage).Inv where
  bounded := h.bounded
  foundOut k' e' he' := by
    unfold Slice.setStage at he'
    dsimp only at he'
    by_cases hk : k' = k
    · rw [hk, Function.update_self] at he'
      obtain rfl := some.inj he'
      exact hf
    · rw [Function.update_of_ne hk] at he'
      exact h.foundOut k' e' he'
  stored := h.stored

theorem Inv.removeUE (h : s.Inv) (imsi : Imsi) : (s.removeUE imsi).Inv where
  bounded m hm := by
    have hle : ((s.admissions.erase imsi).card : Int) ≤ s.admissions.card :=
      Int.ofNat_le.2 (card_le_card (erase_subset _ _))
    exact hle.trans (h.bounded m hm)
  foundOut := h.foundOut
  stored := stored_removeUE h.stored imsi

theorem Inv.admitUE (h : s.Inv) (priority recorded : Int) (hroom : ∀ lim, s.limit = some lim →
      ((insert imsi s.admissions).card : Int) ≤ lim.maxUEs) :
    (s.admitUE imsi priority recorded).Inv where
  bounded m hm := by
    obtain ⟨lim, hlim, rfl⟩ := map_eq_some_iff.1 hm
    exact hroom lim hlim
  foundOut := h.foundOut
  stored := stored_admitUE h.stored imsi priority recorded

theorem card_insert_le (imsi : Imsi) :
    ((insert imsi s.admissions).card : Int) ≤ s.admissions.card + 1 :=
  Int.ofNat_le.2 (Finset.card_insert_le imsi s.admissions)

/-- A fresh evaluation that has found out what it needs has room for its UE, and below the threshold
it has more than the reserved slots. -/
theorem room_of_fresh {reason : String} {preempted : Option Imsi}
    (hst : e.stage = .admitting st reason preempted) (hf : FoundOut e.priority e.stage)
    (hfresh : s.Fresh st preempted.isSome (some lim)) :
    ((insert e.imsi s.admissions).card : Int) ≤ lim.maxUEs ∧
      (e.priority < lim.priorityThreshold →
        ((insert e.imsi s.admissions).card : Int) ≤ lim.maxUEs - lim.reservedUEs) := by
  have hcard := s.card_insert_le e.imsi
  rw [hst] at hf
  obtain ⟨hne, hmax, hres, hth, hcount⟩ := hfresh
  cases preempted with
  | none =>
    simp only [isSome_none, Bool.false_eq_true, if_false] at hcount
    rcases hf with hzero | ⟨hlt, hav⟩ <;> omega
  | some victim =>
    simp only [isSome_some, if_true] at hcount
    have hhigh : st.priorityThreshold ≤ e.priority := hf
    omega

theorem Inv.advance (h : s.Inv) (row : Option Nat) (hk : s.Keeps (.advance k row)) :
    (s.advance k row).Inv := by
  unfold Slice.advance
  split
  · exact h
  · case h_2 e he =>
    have hf := h.foundOut k e he
    have hnext := nextStage_foundOut (s := s) hf row
    have hkeeps := hk e he
    split
    · exact (h.removeUE _).setStage hnext
    · case h_2 st reason preempted hst =>
      rw [hst] at hkeeps
      refine (h.admitUE e.priority e.priority fun lim hlim => ?_).setStage hnext
      exact (room_of_fresh hst hf (hlim ▸ hkeeps.1)).1
    · exact h.setStage hnext
    · exact h.setStage hnext
    · exact h.setStage hnext
    · exact h.setStage hnext

theorem Inv.request (h : s.Inv) (imsi : Imsi) (priority : Int) :
    (s.requestAdmission imsi priority).1.Inv := by
  unfold requestAdmission
  split
  · exact h
  · case isFalse hnot =>
    split
    · case h_1 hnone =>
      exact h.admitUE priority 0 fun lim hlim => by rw [hnone] at hlim; cases hlim
    · case h_2 lim hlim =>
      split
      · case isTrue hlt =>
        refine h.admitUE priority 0 fun lim' hlim' => ?_
        grind
      · exact h

theorem Inv.persist (h : s.Inv) {i : Nat} {ok : Bool} (hk : s.Keeps (.persist i ok)) :
    (s.persist i ok).Inv := by
  unfold Slice.persist
  split
  · exact h
  · case h_2 w hw =>
    obtain ⟨hok, hfirst⟩ := hk w hw
    refine ⟨h.bounded, h.foundOut, fun imsi => ?_⟩
    rw [if_pos hok, ← h.stored imsi]
    by_cases hi : w.imsi = imsi
    · subst hi
      rw [exec_self, storedAfter_eraseIdx_self hw rfl hfirst]
    · rw [exec_other _ hi, storedAfter_eraseIdx_other hw hi]

theorem Inv.step (h : s.Inv) {e : Event} (hk : s.Keeps e) : (s.step e).Inv := by
  cases e with
  | evaluate k imsi priority =>
    change (s.evaluate k imsi priority).Inv
    unfold evaluate
    split
    · exact h
    · have hf : FoundOut priority .begun := trivial
      exact h.setStage (k := k) (e := ⟨imsi, priority, .begun⟩) hf
  | advance k row => exact h.advance row hk
  | request imsi priority => exact h.request imsi priority
  | release imsi =>
    change (s.releaseAdmission imsi).1.Inv
    unfold releaseAdmission
    split
    · exact h.removeUE imsi
    · exact h
  | preempt imsi => exact h.removeUE imsi
  | setSliceLimit limit => exact ⟨h.bounded, h.foundOut, h.stored⟩
  | persist i ok => exact h.persist hk

/-! ## What a step promises -/

theorem advance_eq (he : s.evals k = some e) (row : Option Nat) : s.step (.advance k row) =
      match e.stage with
      | .preempting _ victim => (s.removeUE victim.imsi).setStage k e (s.nextStage e row)
      | .admitting .. => (s.admitUE e.imsi e.priority e.priority).setStage k e (s.nextStage e row)
      | .begun | .statusRead _ | .checked _ | .finished _ => s.setStage k e (s.nextStage e row) := by
  change s.advance k row = _
  grind [Slice.advance]

/-- An admission on request is one to a slice with room. -/
theorem request_admits {imsi' : Imsi} {priority' : Int}
    (h : s.admission (.request imsi priority) = some (imsi', priority'))
    (hlim : s.limit = some lim) :
    imsi' = imsi ∧ priority' = priority ∧ imsi ∉ s.admissions ∧
      (s.admissions.card : Int) < lim.maxUEs ∧
      (s.step (.request imsi priority)).admissions = insert imsi s.admissions := by
  unfold admission at h
  dsimp only at h
  split at h
  · case isTrue hgr =>
    obtain ⟨hnot, hallowed⟩ := hgr
    have heq := some.inj h
    refine ⟨(congrArg fst heq).symm, (congrArg snd heq).symm, hnot, ?_⟩
    change _ ∧ (s.requestAdmission imsi priority).1.admissions = _
    unfold requestAdmission at hallowed ⊢
    rw [if_neg hnot, hlim] at hallowed ⊢
    dsimp only at hallowed ⊢
    split at hallowed
    · case isTrue hlt =>
      rw [if_pos hlt]
      exact ⟨hlt, rfl⟩
    · cases hallowed
  · cases h

theorem Inv.reserved (h : s.Inv) {e : Event} (hk : s.Keeps e)
    (hadm : s.admission e = some (imsi, priority)) (hlim : s.limit = some lim)
    (hlow : priority < lim.priorityThreshold) :
    ((s.step e).admissions.card : Int) ≤ lim.maxUEs - lim.reservedUEs := by
  cases e with
  | advance k row =>
    unfold admission at hadm
    dsimp only at hadm
    split at hadm
    · case h_1 ue pri st reason preempted he =>
      have heq := some.inj hadm
      obtain rfl : pri = priority := congrArg snd heq
      have hkeeps := (hk _ he).1
      rw [advance_eq he, hlim] at *
      exact (room_of_fresh rfl (h.foundOut k _ he) hkeeps).2 hlow
    · cases hadm
  | request ue pri =>
    obtain ⟨rfl, rfl, hnot, hlt, hset⟩ := request_admits hadm hlim
    have hcard := s.card_insert_le imsi
    rw [hset]
    rcases hk lim hlim hnot with hth | hav | hfull <;> omega
  | evaluate k ue pri | release ue | preempt ue | setSliceLimit limit | persist i ok => cases hadm

theorem Inv.stored_quiescent (h : s.Inv) (hnil : s.writes = []) :
    (s.rows.map (·.imsi)).toFinset = s.admissions := by
  ext imsi
  have hst := h.stored imsi
  rw [hnil, storedAfter_nil] at hst
  rw [← hst]
  simp

theorem Inv.sound (h : s.Inv) {e : Event} (hk : s.Keeps e) : s.Sound e where
  bounded := (h.step hk).bounded
  reserved _ _ _ hadm hlim hlow := h.reserved hk hadm hlim hlow
  evicts k row imsi priority st victim he hev := by
    subst he
    obtain ⟨hmem, hpri⟩ := hk _ hev
    have hf := h.foundOut k _ hev
    refine ⟨hpri ▸ hf.2.2, ?_⟩
    rw [advance_eq hev]
    exact card_erase_add_one hmem
  replaces k row imsi priority st reason victim he hev := by
    subst he
    obtain ⟨-, hnot⟩ := hk _ hev
    rw [advance_eq hev]
    exact card_insert_of_notMem (hnot rfl)
  stored hnil := (h.step hk).stored_quiescent hnil

/-- Every run whose steps meet the condition respects the limits of the slice. -/
theorem limits_respected (limit : Option SliceLimit) (rows : List Admission) (es : List Event)
    (h : Meets step Keeps (load limit rows) es) : Meets step Sound (load limit rows) es :=
  h.imp (fun _ _ hI hk => ⟨hI.sound hk, hI.step hk⟩) (Inv.load limit rows)

/-! ## Two runs -/

/-- One evaluation, from its call to its decision. -/
def evaluation (k : Nat) (imsi : Imsi) (priority : Int) (steps : Nat) (row : Option Nat) :
    List Event :=
  .evaluate k imsi priority :: List.replicate steps (.advance k row)

/-- The limit of a slice of two UEs, one slot reserved. -/
def twoUEs : SliceLimit := ⟨2, 1, 5, true⟩

/-- Two UEs are admitted, the second from the reserved slots; a third one evicts the first; the
writes follow, a UE is released, and the limit changes. -/
def orderly : List Event :=
  [.request "a" 0] ++ evaluation 0 "b" 7 4 none ++
    [.persist 0 true, .persist 0 true] ++ evaluation 1 "c" 9 5 (some 0) ++
    [.persist 0 true, .persist 0 true, .release "b", .persist 0 true,
     .setSliceLimit ⟨1, 0, 0, false⟩]

theorem limits_respected_orderly :
    Meets step Keeps (load (some twoUEs) []) orderly ∧
      (run step (load (some twoUEs) []) orderly).admissions = {"c"} ∧
      Meets step Sound (load (some twoUEs) []) orderly := by
  have h : Meets step Keeps (load (some twoUEs) []) orderly := by decide
  exact ⟨h, by decide, limits_respected (some twoUEs) [] orderly h⟩

/-- Two evaluations read the status of a slice with one slot, then both admit their UE. -/
def raced : List Event :=
  evaluation 0 "a" 0 3 none ++ evaluation 1 "b" 0 3 none ++ [.advance 0 none, .advance 1 none]

theorem not_limits_respected :
    ¬ ∀ (limit : Option SliceLimit) (rows : List Admission) (es : List Event),
      Meets step Sound (load limit rows) es := by
  intro h
  obtain ⟨-, hlast, -⟩ := (h (some ⟨1, 0, 0, false⟩) [] raced).of_append
  have hle := hlast.bounded 1 (by decide)
  revert hle
  decide

end MmtCore.Nsacf.Slice
