import Mathlib.Data.List.Nodup

/-!
# Tables of entries with an id

A table is a list of at most `cap` entries, each with an id and a mark that says whether it is
active.  An entry is stored where one with its id lies, else behind the last, else, when the table
is full, over the first that is not active.  What makes the tables work is that all their entries,
the inactive ones too, have different ids (`SlotView.Sound`): an active entry is then the one that
its id finds.
-/

namespace MmtCore.Lib

open Function List Option Bool

universe u v

/-- The id of an entry, and whether it is active. -/
structure SlotView (α : Type u) (ι : Type v) where
  id : α → ι
  active : α → Bool

namespace SlotView

variable {α : Type u} {ι : Type v} [DecidableEq ι] (v : SlotView α ι)

/-- The index to store an entry with this id at, and whether the slot there is in use already. -/
def findOrAlloc (cap : Nat) (l : List α) (k : ι) : Option (Nat × Bool) :=
  match l.findIdx? fun a => v.id a == k with
  | some i => some (i, true)
  | none =>
    if l.length < cap then some (l.length, false)
    else (l.findIdx? fun a => !v.active a).map fun i => (i, true)

/-- The entry is stored in the slot. -/
def store (l : List α) (slot : Nat × Bool) (a : α) : List α :=
  if slot.2 then l.set slot.1 a else l ++ [a]

/-- The first entry that satisfies `p` is changed; `none` when there is none. -/
def change (p : α → Bool) (f : α → α) (l : List α) : Option (List α) :=
  (l.findIdx? p).map fun i => l.modify i f

/-- The active entry with this id. -/
def lookup (l : List α) (k : ι) : Option α := l.find? fun a => v.id a == k && v.active a

/-- At most `cap` entries, with different ids. -/
structure Sound (cap : Nat) (l : List α) : Prop where
  count : l.length ≤ cap
  ids : (l.map v.id).Nodup

variable {v} {cap : Nat} {l l' : List α} {a b : α} {k : ι} {i j : Nat}

omit [DecidableEq ι] in
theorem sound_nil (cap : Nat) : v.Sound cap [] := ⟨Nat.zero_le _, nodup_nil⟩

omit [DecidableEq ι] in
theorem Sound.inj (h : v.Sound cap l) (ha : a ∈ l) (hb : b ∈ l) (hid : v.id a = v.id b) : a = b :=
  inj_on_of_nodup_map h.ids ha hb hid

omit [DecidableEq ι] in
/-- Two entries with one id lie in one slot. -/
theorem Sound.index (h : v.Sound cap l) (hi : l[i]? = some a) (hj : l[j]? = some b)
    (hid : v.id a = v.id b) : i = j := by
  obtain ⟨hi', rfl⟩ := List.getElem?_eq_some_iff.1 hi
  obtain ⟨hj', rfl⟩ := List.getElem?_eq_some_iff.1 hj
  have hi'' : i < (l.map v.id).length := by simpa using hi'
  have hj'' : j < (l.map v.id).length := by simpa using hj'
  have heq : (l.map v.id)[i] = (l.map v.id)[j] := by simpa using hid
  exact h.ids.getElem_inj_iff.1 heq

/-! ## Lookups -/

theorem Sound.lookup_iff (h : v.Sound cap l) :
    v.lookup l k = some a ↔ a ∈ l ∧ v.id a = k ∧ v.active a = true := by
  constructor
  · intro hfind
    have hp := find?_some hfind
    simp only [and_eq_true, beq_iff_eq] at hp
    exact ⟨mem_of_find?_eq_some hfind, hp.1, hp.2⟩
  · rintro ⟨hmem, hid, hact⟩
    cases hfind : v.lookup l k with
    | none =>
      have hnone := find?_eq_none.1 hfind a hmem
      simp [hid, hact] at hnone
    | some b =>
      have hp := find?_some hfind
      simp only [and_eq_true, beq_iff_eq] at hp
      have hb := mem_of_find?_eq_some hfind
      rw [h.inj hb hmem (hp.1.trans hid.symm)]

/-- Tables that hold the same active entries with an id find the same under it. -/
theorem Sound.lookup_congr (h : v.Sound cap l) (h' : v.Sound cap l')
    (hsame : ∀ a, v.id a = k → v.active a = true → (a ∈ l' ↔ a ∈ l)) :
    v.lookup l' k = v.lookup l k := by
  ext a
  simp only [h.lookup_iff, h'.lookup_iff]
  constructor
  · grind
  · simp_all

theorem Sound.lookup_none (h : v.Sound cap l)
    (hno : ∀ a ∈ l, v.id a = k → v.active a = false) : v.lookup l k = none := by
  cases hfind : v.lookup l k with
  | none => rfl
  | some a =>
    obtain ⟨hmem, hid, hact⟩ := h.lookup_iff.1 hfind
    rw [hno a hmem hid] at hact
    cases hact

/-! ## The slot for an id -/

/-- The three kinds of slot. -/
inductive Slot (v : SlotView α ι) (cap : Nat) (l : List α) (k : ι) : Nat × Bool → Prop
  /-- The one with the id. -/
  | same (i : Nat) (hi : i < l.length) (hid : v.id l[i] = k) : Slot v cap l k (i, true)
  /-- The next one, in a table with room. -/
  | next (hroom : l.length < cap) (hnew : k ∉ l.map v.id) : Slot v cap l k (l.length, false)
  /-- An inactive one, in a full table. -/
  | reclaimed (i : Nat) (hi : i < l.length) (hact : v.active l[i] = false)
      (hnew : k ∉ l.map v.id) : Slot v cap l k (i, true)

theorem slot_of_findOrAlloc {slot : Nat × Bool} (h : v.findOrAlloc cap l k = some slot) :
    Slot v cap l k slot := by
  unfold findOrAlloc at h
  cases hfind : l.findIdx? fun a => v.id a == k with
  | some i =>
    rw [hfind] at h
    cases h
    obtain ⟨hlt, hid, -⟩ := findIdx?_eq_some_iff_getElem.1 hfind
    exact .same i hlt (by simpa using hid)
  | none =>
    rw [hfind] at h
    have hnew : k ∉ l.map v.id := by
      simp_all
    dsimp only at h
    split at h
    · rename_i hroom
      cases h
      exact .next hroom hnew
    · rw [map_eq_some_iff] at h
      obtain ⟨i, hi, heq⟩ := h
      cases heq
      obtain ⟨hlt, hact, -⟩ := findIdx?_eq_some_iff_getElem.1 hi
      exact .reclaimed i hlt (by simpa using hact) hnew

/-- There is no slot only in a table full of active entries. -/
theorem full_of_findOrAlloc (h : v.findOrAlloc cap l k = none) :
    cap ≤ l.length ∧ ∀ a ∈ l, v.active a = true := by
  grind [findOrAlloc, map_eq_none_iff]

/-! ## Storing -/

omit [DecidableEq ι] in
theorem Sound.set_same (h : v.Sound cap l) (hi : i < l.length) (hid : v.id l[i] = v.id a) :
    v.Sound cap (l.set i a) := by
  have hmap : (l.set i a).map v.id = l.map v.id := by
    refine ext_getElem? fun j => ?_
    grind
  exact ⟨by simpa using h.count, by rw [hmap]; exact h.ids⟩

omit [DecidableEq ι] in
theorem Sound.set_new (h : v.Sound cap l) (hnew : v.id a ∉ l.map v.id) :
    v.Sound cap (l.set i a) := by
  constructor
  · simpa using h.count
  · rw [map_set]
    exact h.ids.set hnew

omit [DecidableEq ι] in
theorem Sound.append (h : v.Sound cap l) (hroom : l.length < cap) (hnew : v.id a ∉ l.map v.id) :
    v.Sound cap (l ++ [a]) := by
  constructor
  · rw [length_append]
    exact hroom
  · rw [map_append, nodup_append]
    refine ⟨h.ids, nodup_singleton _, ?_⟩
    simp_all

omit [DecidableEq ι] in
/-- The table is sound with the entry in its slot. -/
theorem Sound.store (h : v.Sound cap l) {slot : Nat × Bool} (hslot : Slot v cap l (v.id a) slot) :
    v.Sound cap (SlotView.store l slot a) := by
  cases hslot with
  | same i hi hid => exact h.set_same hi hid
  | next hroom hnew => exact h.append hroom hnew
  | reclaimed i hi hact hnew => exact h.set_new hnew

omit [DecidableEq ι] in
theorem mem_store {slot : Nat × Bool} (hslot : Slot v cap l (v.id a) slot) :
    a ∈ SlotView.store l slot a := by
  cases hslot with
  | same i hi hid | reclaimed i hi hact hnew => exact mem_set hi a
  | next hroom hnew => exact mem_append_right _ (mem_singleton_self a)

omit [DecidableEq ι] in
/-- An active entry with another id stays in its slot. -/
theorem getElem?_store {slot : Nat × Bool} (hslot : Slot v cap l (v.id a) slot)
    (hj : l[j]? = some b) (hact : v.active b = true) (hid : v.id b ≠ v.id a) :
    (SlotView.store l slot a)[j]? = some b := by
  obtain ⟨hj', rfl⟩ := List.getElem?_eq_some_iff.1 hj
  cases hslot with
  | same i hi hsame | reclaimed i hi hina hnew =>
    grind [SlotView.store]
  | next hroom hnew =>
    simp [SlotView.store, getElem?_append_left hj']

omit [DecidableEq ι] in
/-- What is in the table afterwards was in it before, or is the entry. -/
theorem mem_of_mem_store {slot : Nat × Bool} (h : b ∈ SlotView.store l slot a) :
    b ∈ l ∨ b = a := by
  grind [SlotView.store]

/-- A stored entry is what its id finds, and the other ids find what they found. -/
theorem Sound.lookup_store (h : v.Sound cap l) {slot : Nat × Bool}
    (hslot : Slot v cap l (v.id a) slot) (hact : v.active a = true) (k : ι) :
    v.lookup (SlotView.store l slot a) k = if k = v.id a then some a else v.lookup l k := by
  split
  · rename_i hk
    exact (h.store hslot).lookup_iff.2 ⟨mem_store hslot, hk.symm, hact⟩
  · rename_i hk
    refine h.lookup_congr (h.store hslot) fun b hb hbact => ⟨fun hmem => ?_, fun hmem => ?_⟩
    · grind [mem_of_mem_store]
    · obtain ⟨j, hj⟩ := mem_iff_getElem?.1 hmem
      exact mem_of_getElem? (getElem?_store hslot hj hbact fun heq => hk (hb.symm.trans heq))

/-! ## Calls that change an entry -/

/-- What is changed is the first entry that satisfies the condition. -/
theorem change_eq_some {p : α → Bool} {f : α → α} (h : change p f l = some l') :
    ∃ i, ∃ hi : i < l.length, p l[i] = true ∧ (∀ j (hj : j < i), p l[j] = false) ∧
      l' = l.set i (f l[i]) := by
  obtain ⟨i, hi, rfl⟩ := map_eq_some_iff.1 h
  grind [modify_eq_set_getElem?, findIdx?_eq_some_iff_getElem]

theorem change_eq_none {p : α → Bool} {f : α → α} (h : change p f l = none) :
    ∀ a ∈ l, p a = false :=
  findIdx?_eq_none_iff.1 (map_eq_none_iff.1 h)

omit [DecidableEq ι] in
/-- A change that keeps the ids keeps the table sound. -/
theorem Sound.change (h : v.Sound cap l) {p : α → Bool} {f : α → α}
    (hf : ∀ a, v.id (f a) = v.id a) (hc : SlotView.change p f l = some l') : v.Sound cap l' := by
  obtain ⟨i, hi, -, -, rfl⟩ := change_eq_some hc
  exact h.set_same hi (hf _).symm

/-- What the id of a changed entry finds, and what the others find. -/
theorem Sound.lookup_change (h : v.Sound cap l) {p : α → Bool} {f : α → α}
    (hf : ∀ a, v.id (f a) = v.id a) (hpid : ∀ a, p a = true → v.id a = k)
    (hc : SlotView.change p f l = some l') :
    ∃ a ∈ l, p a = true ∧ v.lookup l' k = (if v.active (f a) then some (f a) else none) ∧
      ∀ k', k' ≠ k → v.lookup l' k' = v.lookup l k' := by
  have hsound := h.change hf hc
  obtain ⟨i, hi, hp, -, rfl⟩ := change_eq_some hc
  have hid := hpid _ hp
  refine ⟨l[i], getElem_mem hi, hp, ?_, fun k' hk' => ?_⟩
  · split
    · rename_i hact
      exact hsound.lookup_iff.2 ⟨mem_set hi _, (hf _).trans hid, hact⟩
    · rename_i hact
      refine hsound.lookup_none fun b hb hbid => ?_
      have heq := hsound.inj hb (mem_set hi (f l[i])) (hbid.trans ((hf _).trans hid).symm)
      rw [heq]
      simpa using hact
  · refine h.lookup_congr hsound fun b hb _ => ⟨fun hmem => ?_, fun hmem => ?_⟩
    · grind
    · obtain ⟨j, hj⟩ := mem_iff_getElem?.1 hmem
      have hne : i ≠ j := by
        grind
      exact mem_of_getElem? ((getElem?_set_ne hne).trans hj)

omit [DecidableEq ι] in
/-- The entries that do not satisfy the condition stay in their slots. -/
theorem getElem?_change {p : α → Bool} {f : α → α} (hc : SlotView.change p f l = some l')
    (hj : l[j]? = some b) (hp : p b = false) : l'[j]? = some b := by
  grind [change_eq_some]

theorem getD_change_cons {p : α → Bool} {f : α → α} (a : α) (l : List α) :
    (change p f (a :: l)).getD (a :: l) =
      if p a then f a :: l else a :: (change p f l).getD l := by
  unfold change
  rw [findIdx?_cons]
  by_cases ha : p a = true
  · simp [ha]
  · simp only [ha, if_false, false_eq_true]
    cases l.findIdx? p <;> rfl

/-- A change of the active entry that an id finds, in any table: that id finds the changed entry, and
the others find what they found.  By induction on the entries before the one changed. -/
theorem lookup_changed {f : α → α} (hid : ∀ a, v.id (f a) = v.id a)
    (hact : ∀ a, v.active (f a) = v.active a) (l : List α) (k k' : ι) :
    v.lookup ((change (fun a => v.id a == k && v.active a) f l).getD l) k' =
      if k' = k then (v.lookup l k).map f else v.lookup l k' := by
  induction l with
  | nil => simp [lookup, change]
  | cons a l ih =>
    rw [getD_change_cons]
    unfold lookup at ih ⊢
    by_cases ha : (v.id a == k && v.active a) = true
    · grind
    · simp only [ha, false_eq_true, if_false, find?_cons, ih]
      by_cases hkk : k' = k
      · subst hkk
        simp [ha]
      · simp only [hkk, if_false]

/-! ## What an id is to find -/

/-- What the calls so far promise about an id. -/
inductive Expected (α : Type u)
  /-- It finds nothing. -/
  | absent
  | value (a : α)
  /-- No promise is made. -/
  | unsaid

def Expected.Allows : Expected α → Option α → Prop
  | .absent, found => found = none
  | .value a, found => found = some a
  | .unsaid, _ => True

@[simp] theorem Expected.allows_absent {found : Option α} :
    (Expected.absent : Expected α).Allows found ↔ found = none := Iff.rfl

@[simp] theorem Expected.allows_value {found : Option α} :
    (Expected.value a).Allows found ↔ found = some a := Iff.rfl

@[simp] theorem Expected.allows_unsaid {found : Option α} :
    (Expected.unsaid : Expected α).Allows found := trivial

/-- What the id of an entry finds. -/
def found (v : SlotView α ι) (a : α) : Option α := if v.active a then some a else none

omit [DecidableEq ι] in
theorem found_of_active (h : v.active a = true) : v.found a = some a := if_pos h

omit [DecidableEq ι] in
theorem found_of_inactive (h : v.active a = false) : v.found a = none := by
  simp [found, h]

/-- What one call does to a table, the id it names, and what it promises. -/
inductive Effect (v : SlotView α ι) (cap : Nat) (l : List α) (e : ι → Expected α) :
    Option ι → List α → (ι → Expected α) → Prop
  /-- The table is not touched. -/
  | none (named : Option ι) : Effect v cap l e named l e
  | stored {slot : Nat × Bool} {a : α} (hslot : Slot v cap l (v.id a) slot)
      (hact : v.active a = true) :
      Effect v cap l e (some (v.id a)) (store l slot a) (update e (v.id a) (.value a))
  | changed {k : ι} {p : α → Bool} {f : α → α} {l' : List α} {x : Expected α}
      (hc : change p f l = some l') (hf : ∀ a, v.id (f a) = v.id a)
      (hpid : ∀ a, p a = true → v.id a = k)
      (hx : ∀ a, p a = true → (e k).Allows (v.found a) → x.Allows (v.found (f a))) :
      Effect v cap l e (some k) l' (update e k x)

/-- The promises are kept. -/
def Keeps (v : SlotView α ι) (l : List α) (e : ι → Expected α) : Prop :=
  ∀ k, (e k).Allows (v.lookup l k)

variable {e e' : ι → Expected α} {named : Option ι}

theorem Sound.lookup_id (h : v.Sound cap l) (ha : a ∈ l) : v.lookup l (v.id a) = v.found a := by
  cases hact : v.active a with
  | true =>
    rw [found_of_active hact]
    exact h.lookup_iff.2 ⟨ha, rfl, hact⟩
  | false =>
    rw [found_of_inactive hact]
    refine h.lookup_none fun b hb hid => ?_
    rw [h.inj hb ha hid]
    exact hact

theorem Effect.sound (h : v.Sound cap l) (he : Effect v cap l e named l' e') : v.Sound cap l' := by
  cases he with
  | none => exact h
  | stored hslot hact => exact h.store hslot
  | changed hc hf hpid hx => exact h.change hf hc

theorem Effect.keeps (h : v.Sound cap l) (hk : v.Keeps l e) (he : Effect v cap l e named l' e') :
    v.Keeps l' e' := by
  cases he with
  | none => exact hk
  | @stored slot a hslot hact =>
    intro k
    rw [h.lookup_store hslot hact k]
    by_cases hid : k = v.id a
    · subst hid
      simp
    · simpa [hid] using hk k
  | @changed k p f l' x hc hf hpid hx =>
    obtain ⟨a, ha, hp, hsame, hother⟩ := h.lookup_change hf hpid hc
    intro k'
    by_cases hid : k' = k
    · subst hid
      rw [hsame, update_self]
      have hold := hk k'
      rw [← hpid a hp, h.lookup_id ha, hpid a hp] at hold
      exact hx a hp hold
    · rw [hother k' hid, update_of_ne hid]
      exact hk k'

/-- An active entry that the call does not name stays as it is where it is. -/
theorem Effect.frame (he : Effect v cap l e named l' e') (hj : l[j]? = some b)
    (hact : v.active b = true) (hnamed : named ≠ some (v.id b)) : l'[j]? = some b := by
  cases he with
  | none => exact hj
  | stored hslot _ =>
    exact getElem?_store hslot hj hact fun heq => hnamed (congrArg some heq.symm)
  | @changed k p f l' x hc hf hpid hx =>
    refine getElem?_change hc hj ?_
    rw [eq_false_iff]
    exact fun hp => hnamed (congrArg some (hpid b hp).symm)

end SlotView

end MmtCore.Lib
