import Mathlib.Algebra.Group.Nat.Defs
import Mathlib.Data.List.Perm.Basic
import Mathlib.Data.List.Nodup

/-!
# The DPDK cuckoo hash, as the dataplane's reverse maps use it

The reverse maps are `rte_hash` tables with 4-byte keys, created without any of the extra flags:
one writer, no extendable buckets, no local slot cache, no RCU.  The model keeps what decides
which slot a key gets and which key a lookup finds:

* the FIFO ring of free key slots (`freeSlots`), whose slot numbers run from 1 to `entries`;
* the key store, one key per slot, overwritten when a slot is handed out;
* the bucket entries, each a signature and a key slot.

A bucket entry carries the hash its key was stored under in place of its bucket coordinates.
Cuckoo displacement moves an entry only between the primary and the alternative bucket of that
hash, and every search looks into both, so the coordinates decide nothing but the order of the
search; `Placement` leaves that order, and the failures of the displacement search, open.
-/

namespace MmtCore.Upf

open Function List Option

/-! ## The hash function -/

/-- `rot` of the Jenkins hash. -/
def rot (x : UInt32) (k : UInt32) : UInt32 :=
  (x <<< k) ||| (x >>> (32 - k))

/-- `__rte_jhash_final`, returning the last of the three words. -/
def rteJhashFinal (a b c : UInt32) : UInt32 :=
  let c := c ^^^ b
  let c := c - rot b 14
  let a := a ^^^ c
  let a := a - rot c 11
  let b := b ^^^ a
  let b := b - rot a 25
  let c := c ^^^ b
  let c := c - rot b 16
  let a := a ^^^ c
  let a := a - rot c 4
  let b := b ^^^ a
  let b := b - rot a 14
  let c := c ^^^ b
  c - rot b 24

/-- `rte_jhash` on a key of one 32-bit word with initial value 0. -/
def rteJhash (key : UInt32) : UInt32 :=
  let init : UInt32 := 0xdeadbeef + 4
  rteJhashFinal (init + key) init init

def getShortSig (hash : UInt32) : UInt32 :=
  hash >>> 16

def getPrimBucketIndex (bucketBitmask hash : UInt32) : UInt32 :=
  hash &&& bucketBitmask

def getAltBucketIndex (bucketBitmask curBktIdx sig : UInt32) : UInt32 :=
  (curBktIdx ^^^ sig) &&& bucketBitmask

/-- `rte_align32pow2`: the least power of two that is at least `x`. -/
def rteAlign32pow2 (x : UInt32) : UInt32 :=
  let x := x - 1
  let x := x ||| (x >>> 1)
  let x := x ||| (x >>> 2)
  let x := x ||| (x >>> 4)
  let x := x ||| (x >>> 8)
  let x := x ||| (x >>> 16)
  x + 1

/-! ## The table -/

/-- One occupied bucket position: the hash of the key it was inserted for, and its key slot. -/
structure BktEntry where
  hash : UInt32
  keyIdx : Nat
deriving DecidableEq

structure RteHash where
  entries : Nat
  noFreeOnDel : Bool
  bucketBitmask : UInt32
  /-- Slots the ring of free slots can hold. -/
  freeRoom : Nat
  freeSlots : List Nat
  keyStore : Nat → UInt32
  buckets : List BktEntry

/-- The cuckoo insertion: where a new entry lands among the occupied positions, or that the
displacement search found no room. -/
structure Placement where
  insert : List BktEntry → BktEntry → Option (List BktEntry)
  insert_perm : ∀ {es e es'}, insert es e = some es' → es'.Perm (e :: es)

/-- The placement of a table with room in every bucket it is asked for. -/
def Placement.roomy : Placement where
  insert es e := some (es ++ [e])
  insert_perm := by
    intro es e es' h
    obtain rfl := Option.some.inj h
    exact List.perm_append_singleton e es

def rteHashBucketEntries : Nat := 8

def rteHashEntriesMax : Nat := 2 ^ 30

/-- `rte_hash_create` for the parameters the dataplane passes: no extra flag but, possibly,
`NO_FREE_ON_DEL`. -/
def rteHashCreate (entries : UInt32) (noFreeOnDel : Bool) : Option RteHash :=
  if entries.toNat > rteHashEntriesMax ∨ entries.toNat < rteHashBucketEntries then none
  else some
    { entries := entries.toNat
      noFreeOnDel := noFreeOnDel
      bucketBitmask := rteAlign32pow2 entries / 8 - 1
      freeRoom := (rteAlign32pow2 (entries + 1)).toNat - 1
      freeSlots := List.range' 1 entries.toNat
      keyStore := fun _ => 0
      buckets := [] }

namespace RteHash

/-- The bucket entry is one a search for a key of hash `sig` compares: same short signature,
in one of the two buckets the search visits. -/
def visits (h : RteHash) (sig : UInt32) (e : BktEntry) : Bool :=
  let prim := getPrimBucketIndex h.bucketBitmask sig
  let home := getPrimBucketIndex h.bucketBitmask e.hash
  getShortSig e.hash == getShortSig sig &&
    (home == prim || home == getAltBucketIndex h.bucketBitmask prim (getShortSig sig))

/-- The comparison a search makes at one bucket position: signature, then stored key. -/
def hits (h : RteHash) (key : UInt32) (e : BktEntry) : Bool :=
  h.visits (rteJhash key) e && h.keyStore e.keyIdx == key

/-- The first bucket position that matches the key. -/
def search (h : RteHash) (key : UInt32) : Option BktEntry :=
  h.buckets.find? (h.hits key)

/-- `free_slot`: the slot goes to the tail of the ring, unless the ring is full. -/
def freeSlot (h : RteHash) (slot : Nat) : RteHash :=
  if h.freeSlots.length < h.freeRoom then { h with freeSlots := h.freeSlots ++ [slot] } else h

/-- `rte_hash_add_key`: the position of the key, or `none` for `-ENOSPC`. -/
def addKey (P : Placement) (h : RteHash) (key : UInt32) : RteHash × Option Nat :=
  match h.search key with
  | some e => (h, some (e.keyIdx - 1))
  | none =>
    match h.freeSlots with
    | [] => (h, none)
    | slot :: rest =>
      -- the key is stored before the insertion is known to succeed
      let h' := { h with freeSlots := rest, keyStore := update h.keyStore slot key }
      match P.insert h.buckets ⟨rteJhash key, slot⟩ with
      | some bkts => ({ h' with buckets := bkts }, some (slot - 1))
      | none => (h'.freeSlot slot, none)

/-- `rte_hash_del_key`: the slot is recycled at once unless `noFreeOnDel` is set. -/
def delKey (h : RteHash) (key : UInt32) : RteHash × Option Nat :=
  match h.search key with
  | none => (h, none)
  | some e =>
    let h' := { h with buckets := h.buckets.erase e }
    (if h.noFreeOnDel then h' else h'.freeSlot e.keyIdx, some (e.keyIdx - 1))

/-- `rte_hash_lookup`. -/
def lookup (h : RteHash) (key : UInt32) : Option Nat :=
  (h.search key).map fun e => e.keyIdx - 1

/-- `rte_hash_free_key_with_position`: bounds are checked, ownership is not. -/
def freeKeyWithPosition (h : RteHash) (position : Nat) : RteHash :=
  if position + 1 ≥ h.entries + 1 then h else h.freeSlot (position + 1)

/-- The slot a lookup of the key arrives at. -/
def slotOf (h : RteHash) (key : UInt32) : Option Nat :=
  (h.search key).map BktEntry.keyIdx

theorem lookup_eq (h : RteHash) (key : UInt32) :
    h.lookup key = (h.slotOf key).map (· - 1) := by
  simp only [lookup, slotOf, Option.map_map]
  rfl

/-! ## Well-formed tables -/

/-- No slot is in two places: a slot is free at most once, belongs to at most one bucket entry,
and is never both; slots in `held` are neither.  Every entry sits under the hash of the key its
slot stores, and no key is stored twice. -/
structure Valid (h : RteHash) (held : Nat → Prop) : Prop where
  free_nodup : h.freeSlots.Nodup
  free_pos : ∀ s ∈ h.freeSlots, 0 < s
  used_pos : ∀ e ∈ h.buckets, 0 < e.keyIdx
  used_inj : ∀ e ∈ h.buckets, ∀ e' ∈ h.buckets, e.keyIdx = e'.keyIdx → e = e'
  buckets_nodup : h.buckets.Nodup
  free_not_used : ∀ s ∈ h.freeSlots, ∀ e ∈ h.buckets, e.keyIdx ≠ s
  held_not_free : ∀ s, held s → s ∉ h.freeSlots
  held_not_used : ∀ s, held s → ∀ e ∈ h.buckets, e.keyIdx ≠ s
  home : ∀ e ∈ h.buckets, e.hash = rteJhash (h.keyStore e.keyIdx)
  key_inj : ∀ e ∈ h.buckets, ∀ e' ∈ h.buckets,
    h.keyStore e.keyIdx = h.keyStore e'.keyIdx → e = e'

variable {e : BktEntry} {key : UInt32} {slot : Nat} {held' : Nat → Prop}

theorem visits_self (h : RteHash) {sig : UInt32} (he : e.hash = sig) : h.visits sig e = true := by
  simp [visits, he]

theorem search_some {h : RteHash} (hs : h.search key = some e) :
    e ∈ h.buckets ∧ h.keyStore e.keyIdx = key := by
  have hhit := find?_some hs
  simp only [hits, Bool.and_eq_true, beq_iff_eq] at hhit
  exact ⟨mem_of_find?_eq_some hs, hhit.2⟩

variable {h : RteHash} {held : Nat → Prop}

section

variable (hv : h.Valid held)
include hv

theorem Valid.hits_iff (he : e ∈ h.buckets) (key : UInt32) :
    h.hits key e = true ↔ h.keyStore e.keyIdx = key := by
  constructor
  · intro hh
    simp only [hits, Bool.and_eq_true, beq_iff_eq] at hh
    exact hh.2
  · intro hk
    simp [hits, hk, h.visits_self (hk ▸ hv.home e he)]

/-- In a well-formed table a search finds the one entry whose slot stores the key. -/
theorem Valid.search_eq (he : e ∈ h.buckets) : h.search (h.keyStore e.keyIdx) = some e := by
  have hsome : (h.search (h.keyStore e.keyIdx)).isSome := by
    rw [search, find?_isSome]
    exact ⟨e, he, (hv.hits_iff he _).2 rfl⟩
  obtain ⟨e', he'⟩ := isSome_iff_exists.1 hsome
  obtain ⟨hmem, hkey⟩ := search_some he'
  rw [he', hv.key_inj e' hmem e he hkey]

theorem Valid.slotOf_eq_some :
    h.slotOf key = some slot ↔ ∃ e ∈ h.buckets, e.keyIdx = slot ∧ h.keyStore slot = key := by
  constructor
  · intro hs
    obtain ⟨e, he, rfl⟩ := map_eq_some_iff.1 hs
    grind [search_some]
  · rintro ⟨e, he, rfl, rfl⟩
    simp [slotOf, hv.search_eq he]

/-- Two keys found at one slot are the same key. -/
theorem Valid.slotOf_inj {k₁ k₂ : UInt32} (h₁ : h.slotOf k₁ = some slot)
    (h₂ : h.slotOf k₂ = some slot) : k₁ = k₂ := by
  obtain ⟨_, _, _, hk₁⟩ := hv.slotOf_eq_some.1 h₁
  obtain ⟨_, _, _, hk₂⟩ := hv.slotOf_eq_some.1 h₂
  exact hk₁.symm.trans hk₂

theorem Valid.slotOf_pos (hs : h.slotOf key = some slot) : 0 < slot := by
  obtain ⟨e, he, rfl, _⟩ := hv.slotOf_eq_some.1 hs
  exact hv.used_pos e he

theorem Valid.slotOf_not_held (hs : h.slotOf key = some slot) : ¬ held slot := by
  obtain ⟨e, he, rfl, _⟩ := hv.slotOf_eq_some.1 hs
  exact fun hh => hv.held_not_used _ hh e he rfl

end

/-- Two tables with the same occupied slots and the same stored keys there answer every search
for a slot alike. -/
theorem Valid.slotOf_congr {h' : RteHash} (hv : h.Valid held) (hv' : h'.Valid held')
    (hmem : ∀ e, h.keyStore e.keyIdx = key ∨ h'.keyStore e.keyIdx = key →
      ((e ∈ h.buckets ∧ h.keyStore e.keyIdx = key) ↔
        (e ∈ h'.buckets ∧ h'.keyStore e.keyIdx = key))) :
    h'.slotOf key = h.slotOf key := by
  refine ext fun slot => ?_
  rw [hv.slotOf_eq_some, hv'.slotOf_eq_some]
  constructor <;> grind

/-! ## What the operations do -/

/-- Replacing the held slots by fewer of them keeps a table well formed. -/
theorem Valid.weaken (hv : h.Valid held) (hh : ∀ s, held' s → held s) : h.Valid held' :=
  { hv with
    held_not_free := fun s hs => hv.held_not_free s (hh s hs)
    held_not_used := fun s hs => hv.held_not_used s (hh s hs) }

/-- Freeing a slot that is in no other place keeps the table well formed. -/
theorem Valid.freeSlot (hv : h.Valid held) (hpos : 0 < slot) (hfree : slot ∉ h.freeSlots)
    (hused : ∀ e ∈ h.buckets, e.keyIdx ≠ slot) (hheld : ¬ held slot) :
    (h.freeSlot slot).Valid held := by
  unfold RteHash.freeSlot
  split_ifs with hroom
  · exact
      { hv with
        free_nodup := by
          refine List.Nodup.append hv.free_nodup (nodup_singleton slot) ?_
          simpa using hfree
        free_pos := by
          intro s hs
          rcases mem_append.1 hs with hs | hs
          · exact hv.free_pos s hs
          · rw [mem_singleton.1 hs]; exact hpos
        free_not_used := by
          intro s hs e he
          rcases mem_append.1 hs with hs | hs
          · exact hv.free_not_used s hs e he
          · rw [mem_singleton.1 hs]; exact hused e he
        held_not_free := by
          intro s hs hmem
          rcases mem_append.1 hmem with hmem | hmem
          · exact hv.held_not_free s hs hmem
          · exact hheld (mem_singleton.1 hmem ▸ hs) }
  · exact hv

section

variable (h : RteHash) (s : Nat)

@[simp] theorem freeSlot_buckets : (h.freeSlot s).buckets = h.buckets := by
  unfold RteHash.freeSlot; split_ifs <;> rfl

@[simp] theorem freeSlot_keyStore : (h.freeSlot s).keyStore = h.keyStore := by
  unfold RteHash.freeSlot; split_ifs <;> rfl

@[simp] theorem freeSlot_noFreeOnDel : (h.freeSlot s).noFreeOnDel = h.noFreeOnDel := by
  unfold RteHash.freeSlot; split_ifs <;> rfl

@[simp] theorem freeSlot_slotOf (key : UInt32) : (h.freeSlot s).slotOf key = h.slotOf key := by
  unfold RteHash.freeSlot; split_ifs <;> rfl

end

section

variable (hv : h.Valid held)
include hv

/-- Taking the head of the free slots for a key, before any bucket entry points to it. -/
theorem Valid.take {rest : List Nat} (hfree : h.freeSlots = slot :: rest) (key : UInt32) :
    ({ h with freeSlots := rest, keyStore := update h.keyStore slot key } :
      RteHash).Valid held := by
  have hslot : slot ∈ h.freeSlots := by simp [hfree]
  have hrest : ∀ s ∈ rest, s ∈ h.freeSlots := fun s hs => by simp [hfree, hs]
  have hstore : ∀ e ∈ h.buckets,
      update h.keyStore slot key e.keyIdx = h.keyStore e.keyIdx := fun e he =>
    update_of_ne (hv.free_not_used slot hslot e he) _ _
  exact
    { hv with
      free_nodup := (nodup_cons.1 (hfree ▸ hv.free_nodup)).2
      free_pos := fun s hs => hv.free_pos s (hrest s hs)
      free_not_used := fun s hs => hv.free_not_used s (hrest s hs)
      held_not_free := fun s hs hmem => hv.held_not_free s hs (hrest s hmem)
      home := fun e he => (hv.home e he).trans (congrArg rteJhash (hstore e he).symm)
      key_inj := fun e he e' he' hk =>
        hv.key_inj e he e' he' ((hstore e he).symm.trans (hk.trans (hstore e' he'))) }

/-- What adding a key does to a well-formed table: on success the key is found at the returned
position, which no other key has; on failure nothing is found differently. -/
theorem Valid.addKey (P : Placement) (key : UInt32) : (h.addKey P key).1.Valid held ∧
      (∀ k, k ≠ key → (h.addKey P key).1.slotOf k = h.slotOf k) ∧
      (match (h.addKey P key).2 with
        | some pos => (h.addKey P key).1.slotOf key = some (pos + 1)
        | none => (h.addKey P key).1.slotOf key = h.slotOf key) ∧
      (h.addKey P key).1.noFreeOnDel = h.noFreeOnDel := by
  cases hs : h.search key with
  | some e =>
    have hadd : h.addKey P key = (h, some (e.keyIdx - 1)) := by simp [RteHash.addKey, hs]
    have hpos := hv.used_pos e (search_some hs).1
    grind [slotOf]
  | none =>
    cases hf : h.freeSlots with
    | nil =>
      simp_all [RteHash.addKey]
    | cons slot rest =>
      have htake := hv.take hf key
      have hslot : slot ∈ h.freeSlots := by simp [hf]
      have hpos := hv.free_pos slot hslot
      have hnew : ∀ e ∈ h.buckets, e.keyIdx ≠ slot := hv.free_not_used slot hslot
      have hnokey : ∀ e ∈ h.buckets, h.keyStore e.keyIdx ≠ key := by
        intro e he hk
        have := hv.search_eq he
        rw [hk, hs] at this
        cases this
      have hheld : ¬ held slot := fun hh => hv.held_not_free slot hh hslot
      have hnotrest : slot ∉ rest := (nodup_cons.1 (hf ▸ hv.free_nodup)).1
      set h' : RteHash :=
        { h with freeSlots := rest, keyStore := update h.keyStore slot key } with hh'
      have hstore : ∀ e ∈ h.buckets, h'.keyStore e.keyIdx = h.keyStore e.keyIdx := fun e he =>
        update_of_ne (hnew e he) _ _
      have hkeyslot : h'.keyStore slot = key := update_self ..
      have hold : ∀ k, h'.slotOf k = h.slotOf k := by
        intro k
        refine hv.slotOf_congr htake fun e _ => ?_
        simp_all
      cases hp : P.insert h.buckets ⟨rteJhash key, slot⟩ with
      | none =>
        have hadd : h.addKey P key = (h'.freeSlot slot, none) := by
          simp [RteHash.addKey, hs, hf, hp, hh']
        rw [hadd]
        refine ⟨htake.freeSlot hpos hnotrest hnew hheld, fun k _ => ?_, ?_, ?_⟩
        · simp [hold k]
        · simp [hold key]
        · simp [hh']
      | some bkts =>
        have hadd : h.addKey P key = ({ h' with buckets := bkts }, some (slot - 1)) := by
          simp [RteHash.addKey, hs, hf, hp, hh']
        have hperm := P.insert_perm hp
        have hmem : ∀ e, e ∈ bkts ↔ e = ⟨rteJhash key, slot⟩ ∨ e ∈ h.buckets := fun e => by
          rw [hperm.mem_iff, mem_cons]
        have hvalid : ({ h' with buckets := bkts } : RteHash).Valid held :=
          { htake with
            used_pos := by
              intro e he
              rcases (hmem e).1 he with rfl | he
              · exact hpos
              · exact hv.used_pos e he
            used_inj := by
              intro e he e' he' heq
              rcases (hmem e).1 he with rfl | he <;> rcases (hmem e').1 he' with rfl | he'
              · rfl
              · exact absurd heq.symm (hnew e' he')
              · exact absurd heq (hnew e he)
              · exact hv.used_inj e he e' he' heq
            buckets_nodup := by
              rw [hperm.nodup_iff, nodup_cons]
              exact ⟨fun he => hnew _ he rfl, hv.buckets_nodup⟩
            free_not_used := by
              intro s hsr e he
              rcases (hmem e).1 he with rfl | he
              · rintro rfl; exact hnotrest hsr
              · exact htake.free_not_used s hsr e he
            held_not_used := by
              intro s hsh e he
              rcases (hmem e).1 he with rfl | he
              · rintro rfl; exact hheld hsh
              · exact hv.held_not_used s hsh e he
            home := by
              intro e he
              rcases (hmem e).1 he with rfl | he
              · exact (congrArg rteJhash hkeyslot).symm
              · exact htake.home e he
            key_inj := by
              intro e he e' he' heq
              rcases (hmem e).1 he with rfl | he <;> rcases (hmem e').1 he' with rfl | he'
              · rfl
              · grind
              · exact absurd ((hstore e he).symm.trans (heq.trans hkeyslot)) (hnokey e he)
              · exact htake.key_inj e he e' he' heq }
        rw [hadd]
        refine ⟨hvalid, fun k hk => ?_, ?_, rfl⟩
        · rw [← hold k]
          refine htake.slotOf_congr hvalid fun e _ => ?_
          grind
        · show slotOf _ key = some (slot - 1 + 1)
          rw [Nat.sub_add_cancel hpos]
          exact hvalid.slotOf_eq_some.2 ⟨⟨rteJhash key, slot⟩, (hmem _).2 (.inl rfl), rfl, hkeyslot⟩

/-- Removing a bucket entry makes its key unknown and leaves every other key where it was. -/
theorem Valid.erase (he : e ∈ h.buckets) : ({ h with buckets := h.buckets.erase e } : RteHash).Valid
        (fun s => held s ∨ s = e.keyIdx) ∧
      ({ h with buckets := h.buckets.erase e } : RteHash).slotOf (h.keyStore e.keyIdx) = none ∧
      ∀ k, k ≠ h.keyStore e.keyIdx →
        ({ h with buckets := h.buckets.erase e } : RteHash).slotOf k = h.slotOf k := by
  have hmem : ∀ e', e' ∈ h.buckets.erase e ↔ e' ≠ e ∧ e' ∈ h.buckets := fun e' =>
    hv.buckets_nodup.mem_erase_iff
  have hvalid : ({ h with buckets := h.buckets.erase e } : RteHash).Valid
      (fun s => held s ∨ s = e.keyIdx) :=
    { free_nodup := hv.free_nodup
      free_pos := hv.free_pos
      used_pos := fun e' he' => hv.used_pos e' ((hmem e').1 he').2
      used_inj := fun a ha b hb => hv.used_inj a ((hmem a).1 ha).2 b ((hmem b).1 hb).2
      buckets_nodup := hv.buckets_nodup.erase e
      free_not_used := fun s hs e' he' => hv.free_not_used s hs e' ((hmem e').1 he').2
      held_not_free := by
        rintro s (hs | rfl) hf
        · exact hv.held_not_free s hs hf
        · exact hv.free_not_used _ hf e he rfl
      held_not_used := by
        rintro s (hs | rfl) e' he'
        · exact hv.held_not_used s hs e' ((hmem e').1 he').2
        · exact fun heq => ((hmem e').1 he').1
            (hv.used_inj e' ((hmem e').1 he').2 e he heq)
      home := fun e' he' => hv.home e' ((hmem e').1 he').2
      key_inj := fun a ha b hb => hv.key_inj a ((hmem a).1 ha).2 b ((hmem b).1 hb).2 }
  refine ⟨hvalid, ?_, fun k hk => ?_⟩
  · rw [eq_none_iff_forall_ne_some]
    intro slot hs
    obtain ⟨e', he', rfl, hk⟩ := hvalid.slotOf_eq_some.1 hs
    exact ((hmem e').1 he').1 (hv.key_inj e' ((hmem e').1 he').2 e he hk)
  · refine hv.slotOf_congr hvalid fun e' _ => ?_
    grind

/-- What deleting a key does to a well-formed table: the key is found no more and every other
key is found as before; with `noFreeOnDel` its slot is held until it is freed by position. -/
theorem Valid.delKey (key : UInt32) : (h.delKey key).1.Valid (fun s => held s ∨
        (h.noFreeOnDel = true ∧ ∃ pos, (h.delKey key).2 = some pos ∧ s = pos + 1)) ∧
      (h.delKey key).1.slotOf key = none ∧
      (∀ k, k ≠ key → (h.delKey key).1.slotOf k = h.slotOf k) ∧
      (h.delKey key).1.noFreeOnDel = h.noFreeOnDel ∧
      (h.delKey key).2 = (h.slotOf key).map (· - 1) := by
  cases hs : h.search key with
  | none =>
    simp_all [RteHash.delKey, slotOf]
  | some e =>
    obtain ⟨he, hkey⟩ := search_some hs
    subst hkey
    obtain ⟨hvalid, hgone, hkeep⟩ := hv.erase he
    have hpos := hv.used_pos e he
    have hslot : (h.slotOf (h.keyStore e.keyIdx)).map (· - 1) = some (e.keyIdx - 1) := by
      simp [slotOf, hs]
    cases hn : h.noFreeOnDel with
    | true =>
      grind [RteHash.delKey]
    | false =>
      have hdel : h.delKey (h.keyStore e.keyIdx) =
          (({ h with buckets := h.buckets.erase e } : RteHash).freeSlot e.keyIdx,
            some (e.keyIdx - 1)) := by
        simp [RteHash.delKey, hs, hn]
      rw [hdel]
      have hheld : ({ h with buckets := h.buckets.erase e } : RteHash).Valid held :=
        hvalid.weaken fun _ hs' => .inl hs'
      have hfree := hheld.freeSlot hpos
        (hvalid.held_not_free _ (.inr rfl)) (hvalid.held_not_used _ (.inr rfl))
        (fun hh => hv.held_not_used _ hh e he rfl)
      refine ⟨hfree.weaken ?_, by simpa using hgone, fun k hk => by simpa using hkeep k hk,
        by simpa using hn, hslot.symm⟩
      simp_all

/-- Freeing a held position releases it. -/
theorem Valid.freeKeyWithPosition {pos : Nat} (hpos : held (pos + 1)) :
    (h.freeKeyWithPosition pos).Valid (fun s => held s ∧ s ≠ pos + 1) := by
  have hweak : h.Valid (fun s => held s ∧ s ≠ pos + 1) := hv.weaken fun _ hs => hs.1
  unfold RteHash.freeKeyWithPosition
  split_ifs
  · exact hweak
  · exact hweak.freeSlot (Nat.succ_pos pos) (hv.held_not_free _ hpos)
      (hv.held_not_used _ hpos) (fun hh => hh.2 rfl)

end

@[simp] theorem freeKeyWithPosition_slotOf (h : RteHash) (pos : Nat) (key : UInt32) :
    (h.freeKeyWithPosition pos).slotOf key = h.slotOf key := by
  unfold RteHash.freeKeyWithPosition; split_ifs <;> simp

@[simp] theorem freeKeyWithPosition_noFreeOnDel (h : RteHash) (pos : Nat) :
    (h.freeKeyWithPosition pos).noFreeOnDel = h.noFreeOnDel := by
  unfold RteHash.freeKeyWithPosition; split_ifs <;> simp

/-- A fresh table is well formed and knows no key. -/
theorem rteHashCreate_valid {entries : UInt32} {flag : Bool}
    (hc : rteHashCreate entries flag = some h) :
    h.Valid (fun _ => False) ∧ (∀ k, h.slotOf k = none) ∧ h.noFreeOnDel = flag := by
  unfold rteHashCreate at hc
  split_ifs at hc
  obtain rfl := some.inj hc
  refine ⟨?_, fun _ => rfl, rfl⟩
  constructor <;> simp [nodup_range']
  omega

end RteHash

end MmtCore.Upf
