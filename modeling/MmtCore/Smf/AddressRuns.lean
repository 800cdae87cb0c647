import Mathlib.Algebra.Order.Group.Nat
import MmtCore.Smf.IpAlloc

/-!
# Addresses of sessions that live at the same time

A session gets one address, or one of each version, and gives them back when it is released.  What
the allocator has in use for a DNN are the addresses of its sessions; it knows nothing of another
DNN with the same CIDR.
-/

namespace MmtCore.Smf

open MmtCore.Lib Function List Allocator Nat Finset

/-! ## Which addresses are hosts -/

namespace Prefix

variable {p : Prefix} {i : Nat} {a : Addr}

/-- The indices the expansion of a CIDR goes up to. -/
def hostLimit (p : Prefix) : Nat :=
  if p.addr.is4 then min p.size maxHosts - 1 else min p.size maxHosts

/-- An address of the CIDR that is not its network, first-host or broadcast address, and not past
the cap. -/
def Assignable (p : Prefix) (a : Addr) : Prop := ∃ i, 2 ≤ i ∧ i < p.hostLimit ∧ a = p.nth i

theorem hostLimit_le : p.hostLimit ≤ min p.size maxHosts := by
  unfold hostLimit
  split <;> omega

theorem nth_inj {j : Nat} (h : p.nth i = p.nth j) : i = j := by
  unfold nth at h
  cases hp : p.addr with
  | v4 b =>
    rw [hp] at h
    have hb := Addr.v4.inj h
    omega
  | v6 b =>
    rw [hp] at h
    have hb := Addr.v6.inj h
    omega

/-- The reserved addresses are not assignable. -/
theorem Assignable.not_reserved (h : p.Assignable a) :
    a ≠ p.nth 0 ∧ a ≠ p.nth 1 ∧ (p.addr.is4 → a ≠ p.nth (p.size - 1)) := by
  obtain ⟨i, h2, hlt, rfl⟩ := h
  grind [hostLimit, nth_inj]

theorem mem_drop_range {n k : Nat} {f : Nat → Addr} :
    a ∈ ((List.range n).map f).drop k ↔ ∃ i, k ≤ i ∧ i < n ∧ a = f i := by
  rw [← List.map_drop, List.range_eq_range', List.drop_range', List.mem_map]
  grind [List.mem_range'_1]

@[simp] theorem length_expandAll : (expandAll p).length = min p.size maxHosts := by
  simp [expandAll]

theorem dropLast_expandAll :
    ((expandAll p).drop 1).dropLast.drop 1
      = ((List.range (min p.size maxHosts - 1)).map p.nth).drop 2 := by
  rw [dropLast_eq_take, length_drop, length_expandAll, drop_take, drop_drop,
    take_drop]
  by_cases h : 3 ≤ min p.size maxHosts
  · have hmin : min (1 + 1 + (min p.size maxHosts - 1 - 1 - 1)) (min p.size maxHosts)
        = min p.size maxHosts - 1 := by omega
    rw [expandAll, ← map_take, take_range, hmin]
  · rw [drop_eq_nil_of_le (by simp; omega), drop_eq_nil_of_le (by simp; omega)]

theorem mem_hostsOf : a ∈ hostsOf p ↔ p.Assignable a := by
  unfold hostsOf Assignable hostLimit
  dsimp only
  rw [length_expandAll, dropLast_expandAll]
  by_cases h4 : p.addr.is4
  · rw [if_pos h4, if_pos h4]
    split
    · exact mem_drop_range
    · grind
  · grind [drop_drop, expandAll, mem_drop_range]

/-! ## The version of a host -/

/-- The CIDR is not written as an IPv4-mapped IPv6 one. -/
def Plain (p : Prefix) : Prop := p.addr.is4In6 = false
  deriving Decidable

/-- An expanded address is IPv4-mapped only if the address of the CIDR is. -/
theorem mapped_of_base {b k : Nat} (hi : i < 2 ^ k) (hcap : i < maxHosts)
    (h : (b / 2 ^ k * 2 ^ k + i) / 2 ^ 32 = 0xFFFF) : b / 2 ^ 32 = 0xFFFF := by
  by_cases hk : k ≤ 32
  · -- a block of at most 2^32 addresses has one quotient
    have hpow : 2 ^ 32 = 2 ^ k * 2 ^ (32 - k) := by
      rw [← pow_add]
      congr 1
      omega
    rw [hpow, ← Nat.div_div_eq_div_mul] at h ⊢
    rwa [Nat.add_comm, Nat.add_mul_div_right _ _ (Nat.two_pow_pos k), Nat.div_eq_of_lt hi,
      zero_add] at h
  · -- a larger block starts at an even quotient, and the cap keeps the index below the next one
    have hpow : 2 ^ k = 2 ^ (k - 33) * 2 ^ 33 := by
      rw [← pow_add]
      congr 1
      omega
    rw [hpow, ← mul_assoc] at h
    have hcap' : i < 2 ^ 20 := hcap
    omega

theorem nth_versionOf {v : IpVersion} (hplain : p.Plain) (hv : p.skipped v = false)
    (hi : i < min p.size maxHosts) : Allocator.versionOf (p.nth i) = v := by
  unfold Plain at hplain
  unfold skipped at hv
  unfold versionOf nth base
  unfold size at hi ⊢
  cases hp : p.addr with
  | v4 b =>
    rw [hp] at hv
    cases v with
    | ipv4 => rfl
    | ipv6 => cases hv
  | v6 b =>
    rw [hp] at hplain hv hi
    have hnot : Addr.is4In6 (.v6 (b / 2 ^ (128 - p.len) * 2 ^ (128 - p.len) + i)) = false := by
      simp only [Addr.is4In6, beq_eq_false_iff_ne] at hplain ⊢
      exact fun e => hplain (mapped_of_base (by change i < min (2 ^ (128 - _)) _ at hi; omega)
        (by omega) e)
    cases v with
    | ipv4 =>
      rw [hplain] at hv
      cases hv
    | ipv6 =>
      change (if !(Addr.is4In6 (.v6 (b / 2 ^ (128 - p.len) * 2 ^ (128 - p.len) + i)))
        then IpVersion.ipv6 else .ipv4) = .ipv6
      rw [hnot]
      rfl

end Prefix

/-- Every CIDR of the list that parses is plain. -/
def PlainList (cidrList : List (Option Prefix)) : Prop :=
  ∀ p, some p ∈ cidrList → p.Plain

theorem mem_buildHosts {cidrList : List (Option Prefix)} {v : IpVersion} {hosts : List Addr}
    {a : Addr} (h : buildHosts cidrList v = some hosts) :
    a ∈ hosts ↔ ∃ p, some p ∈ cidrList ∧ p.skipped v = false ∧ p.Assignable a := by
  induction cidrList generalizing hosts with
  | nil =>
    cases h
    simp
  | cons c rest ih =>
    cases c with
    | none => cases h
    | some p =>
      obtain ⟨hosts', h', rfl⟩ := Option.map_eq_some_iff.1 h
      grind [mem_append, Prefix.mem_hostsOf]

/-! ## One call of the allocator -/

namespace Allocator

variable {A A' : Allocator} {dnn : Dnn} {cidrList : List (Option Prefix)} {v : IpVersion}
  {hosts : List Addr} {addr : Addr}

theorem mem_rotated {o : Nat} : addr ∈ rotated hosts o ↔ addr ∈ hosts := by
  rw [rotated, mem_append, or_comm, ← mem_append, take_append_drop]

variable {k : PoolKey} {e : AllocError} {p : Prefix}

theorem findFree_some {i : Nat} (h : A.findFree k hosts = some (i, addr)) :
    addr ∈ hosts ∧ addr ∉ A.allocated k := by
  unfold findFree at h
  dsimp only at h
  split at h
  · cases h
  · rename_i j hj
    obtain ⟨x, hx, e⟩ := Option.map_eq_some_iff.1 h
    cases e
    obtain ⟨hlt, hget⟩ := List.getElem?_eq_some_iff.1 hx
    obtain ⟨_, hfree, -⟩ := findIdx?_eq_some_iff_getElem.1 hj
    rw [hget] at hfree
    exact ⟨mem_rotated.1 (mem_of_getElem? hx), of_decide_eq_true hfree⟩

theorem findFree_none (h : A.findFree k hosts = none) : ∀ addr ∈ hosts, addr ∈ A.allocated k := by
  unfold findFree at h
  dsimp only at h
  intro addr hmem
  split at h
  · grind [findIdx?_eq_none_iff, mem_rotated]
  · grind [getElem?_eq_getElem, findIdx?_eq_some_iff_getElem]

/-- An address that `Allocate` returns is a host of the list that was free, and now is not. -/
theorem allocate_ok (h : A.allocate dnn cidrList v = (A', .ok addr)) :
    (∃ p, some p ∈ cidrList ∧ p.skipped v = false ∧ p.Assignable addr) ∧
      addr ∉ A.allocated ⟨dnn, v⟩ ∧
      A'.allocated = update A.allocated ⟨dnn, v⟩ (insert addr (A.allocated ⟨dnn, v⟩)) := by
  unfold allocate at h
  dsimp only at h
  split at h
  · cases h
  · rename_i hosts hh
    split at h
    · cases h
    · split at h
      · cases h
      · rename_i i x hfree
        cases h
        obtain ⟨hmem, hnew⟩ := findFree_some hfree
        exact ⟨(mem_buildHosts hh).1 hmem, hnew, rfl⟩

/-- A call that fails leaves the allocator as it is. -/
theorem allocate_error (h : A.allocate dnn cidrList v = (A', .error e)) : A' = A := by
  grind [allocate]

/-- When the pool is exhausted, every assignable host is in use. -/
theorem allocate_exhausted (h : A.allocate dnn cidrList v = (A', .error .poolExhausted))
    (hp : some p ∈ cidrList) (hv : p.skipped v = false) (ha : p.Assignable addr) :
    addr ∈ A.allocated ⟨dnn, v⟩ := by
  grind [allocate, findFree_none, mem_buildHosts]

/-- A list with an assignable address has hosts. -/
theorem allocate_not_noHosts (hp : some p ∈ cidrList) (hv : p.skipped v = false)
    (ha : p.Assignable addr) : (A.allocate dnn cidrList v).2 ≠ .error .noHosts := by
  intro h
  unfold allocate at h
  dsimp only at h
  split at h
  · cases h
  · rename_i hosts hh
    split at h
    · rename_i hlen
      have hmem := (mem_buildHosts hh).2 ⟨p, hp, hv, ha⟩
      rw [eq_nil_of_length_eq_zero hlen] at hmem
      exact not_mem_nil hmem
    · split at h <;> cases h

theorem versionOf_assignable (hplain : p.Plain) (hv : p.skipped v = false)
    (ha : p.Assignable addr) : versionOf addr = v := by
  obtain ⟨i, -, hlt, rfl⟩ := ha
  exact Prefix.nth_versionOf hplain hv (lt_of_lt_of_le hlt Prefix.hostLimit_le)

/-- Giving an address back undoes taking it. -/
theorem release_allocate (hplain : PlainList cidrList)
    (h : A.allocate dnn cidrList v = (A', .ok addr)) :
    (A'.release dnn addr).allocated = A.allocated := by
  obtain ⟨⟨p, hp, hv, ha⟩, hnew, halloc⟩ := allocate_ok h
  have hver := versionOf_assignable (hplain p hp) hv ha
  unfold release
  dsimp only
  rw [hver, halloc, update_self, update_idem, erase_insert hnew,
    update_eq_self]

/-- A dual-stack call that fails leaves the addresses in use as they were. -/
theorem allocateDualStack_error {v4 v6 : List (Option Prefix)} (hplain : PlainList v4)
    (h : A.allocateDualStack dnn v4 v6 = (A', .error e)) :
    A'.allocated = A.allocated := by
  grind [allocate_error, release_allocate, allocateDualStack]

/-- A dual-stack call that succeeds is two single ones. -/
theorem allocateDualStack_ok {v4 v6 : List (Option Prefix)} {v4Addr v6Addr : Addr}
    (h : A.allocateDualStack dnn v4 v6 = (A', .ok (v4Addr, v6Addr))) :
    ∃ A₁, A.allocate dnn v4 .ipv4 = (A₁, .ok v4Addr) ∧
      A₁.allocate dnn v6 .ipv6 = (A', .ok v6Addr) := by
  grind [allocateDualStack]

end Allocator

/-! ## What the sessions hold -/

/-- The addresses in use for each DNN are those held, each held once. -/
structure Accounted (A : Allocator) (held : Dnn → List Addr) : Prop where
  nodup : ∀ dnn, (held dnn).Nodup
  mem_allocated : ∀ dnn v a,
    a ∈ A.allocated ⟨dnn, v⟩ ↔ a ∈ held dnn ∧ Allocator.versionOf a = v

namespace Accounted

variable {A A' : Allocator} {held held' : Dnn → List Addr} {dnn : Dnn}
  {cidrList : List (Option Prefix)} {v : IpVersion} {addr : Addr}

theorem new : Accounted .new fun _ => [] := by
  refine ⟨fun _ => List.nodup_nil, fun dnn v a => ?_⟩
  simp [Allocator.new]

theorem perm (h : Accounted A held) (hp : ∀ dnn, (held dnn).Perm (held' dnn)) :
    Accounted A held' :=
  ⟨fun dnn => (hp dnn).nodup_iff.1 (h.nodup dnn),
    fun dnn v a => by rw [h.mem_allocated, (hp dnn).mem_iff]⟩

/-- Only the addresses in use count, not where the next search starts. -/
theorem congr (h : Accounted A held) (he : A'.allocated = A.allocated) : Accounted A' held :=
  ⟨h.nodup, fun dnn v a => by rw [he, h.mem_allocated]⟩

section

variable (h : Accounted A held) (hplain : PlainList cidrList)
  (hok : A.allocate dnn cidrList v = (A', .ok addr))
include h hok hplain

/-- A free address of its version is held by nobody of the DNN. -/
theorem not_held : addr ∉ held dnn := by
  obtain ⟨⟨p, hp, hv, ha⟩, hnew, -⟩ := allocate_ok hok
  have hver := versionOf_assignable (hplain p hp) hv ha
  exact fun hheld => hnew ((h.mem_allocated dnn v addr).2 ⟨hheld, hver⟩)

theorem allocate : Accounted A' (update held dnn (addr :: held dnn)) := by
  have hfresh := h.not_held hplain hok
  obtain ⟨⟨p, hp, hv, ha⟩, hnew, halloc⟩ := allocate_ok hok
  have hver := versionOf_assignable (hplain p hp) hv ha
  constructor
  · intro d
    by_cases hd : d = dnn
    · subst hd
      rw [update_self]
      exact nodup_cons.2 ⟨hfresh, h.nodup d⟩
    · rw [update_of_ne hd]
      exact h.nodup d
  · intro d w a
    rw [halloc]
    by_cases hd : d = dnn
    · subst hd
      rw [update_self, List.mem_cons]
      by_cases hw : w = v
      · subst hw
        rw [update_self, mem_insert, h.mem_allocated]
        constructor
        · grind
        · simp_all
      · have hk : (⟨d, w⟩ : PoolKey) ≠ ⟨d, v⟩ := fun e => hw (PoolKey.mk.inj e).2
        rw [update_of_ne hk, h.mem_allocated]
        grind
    · have hk : (⟨d, w⟩ : PoolKey) ≠ ⟨dnn, v⟩ := fun e => hd (PoolKey.mk.inj e).1
      rw [update_of_ne hd, update_of_ne hk, h.mem_allocated]

end

theorem release {rest : List Addr} (h : Accounted A held) (hd : (held dnn).Perm (addr :: rest)) :
    Accounted (A.release dnn addr) (update held dnn rest) := by
  have hnodup := hd.nodup_iff.1 (h.nodup dnn)
  obtain ⟨hnot, hrest⟩ := nodup_cons.1 hnodup
  constructor
  · intro d
    by_cases e : d = dnn
    · subst e
      rwa [update_self]
    · rw [update_of_ne e]
      exact h.nodup d
  · intro d w a
    unfold Allocator.release
    dsimp only
    by_cases e : d = dnn
    · subst e
      rw [update_self]
      by_cases hw : w = versionOf addr
      · subst hw
        rw [update_self, Finset.mem_erase, h.mem_allocated, hd.mem_iff, List.mem_cons]
        constructor
        · simp_all
        · grind
      · have hk : (⟨d, w⟩ : PoolKey) ≠ ⟨d, versionOf addr⟩ :=
          fun e => hw (PoolKey.mk.inj e).2
        rw [update_of_ne hk, h.mem_allocated, hd.mem_iff, List.mem_cons]
        grind
    · have hk : (⟨d, w⟩ : PoolKey) ≠ ⟨dnn, versionOf addr⟩ :=
        fun e' => e (PoolKey.mk.inj e').1
      rw [update_of_ne e, update_of_ne hk, h.mem_allocated]

/-- Releasing the addresses of one session, one after another. -/
theorem releaseAll {addrs rest : List Addr} (h : Accounted A held)
    (hd : (held dnn).Perm (addrs ++ rest)) :
    Accounted (addrs.foldl (fun A addr => A.release dnn addr) A)
      (update held dnn rest) := by
  induction addrs generalizing A held with
  | nil =>
    refine h.perm fun d => ?_
    grind [update_self, update_of_ne]
  | cons addr addrs ih =>
    rw [foldl_cons]
    have hstep := @Accounted.release _ _ _ _ (addrs ++ rest) h hd
    have hall := ih hstep (by rw [update_self])
    rwa [update_idem] at hall

end Accounted

/-! ## Runs -/

/-- The allocator, and for each live session its DNN and its addresses. -/
structure AddrState where
  alloc : Allocator
  sessions : List (Dnn × List Addr)

/-- What the SMF asks of the allocator. -/
inductive AddrOp
  | allocate (dnn : Dnn) (cidrList : List (Option Prefix)) (version : IpVersion)
  | allocateDualStack (dnn : Dnn) (v4 v6 : List (Option Prefix))
  /-- The session at this index ends. -/
  | release (session : Nat)

namespace AddrState

def new : AddrState := ⟨.new, []⟩

variable (s : AddrState)

def step : AddrOp → AddrState
  | .allocate dnn cidrList version =>
    match s.alloc.allocate dnn cidrList version with
    | (A, .ok addr) => ⟨A, (dnn, [addr]) :: s.sessions⟩
    | (A, .error _) => { s with alloc := A }
  | .allocateDualStack dnn v4 v6 =>
    match s.alloc.allocateDualStack dnn v4 v6 with
    | (A, .ok (v4Addr, v6Addr)) => ⟨A, (dnn, [v6Addr, v4Addr]) :: s.sessions⟩
    | (A, .error _) => { s with alloc := A }
  | .release session =>
    match s.sessions[session]? with
    | none => s
    | some (dnn, addrs) =>
      ⟨addrs.foldl (fun A addr => A.release dnn addr) s.alloc, s.sessions.eraseIdx session⟩

/-- The addresses the live sessions of the DNN hold. -/
def heldBy (dnn : Dnn) : List Addr := (s.sessions.filter (·.1 = dnn)).flatMap (·.2)

end AddrState

/-- The CIDR lists of the call are plain. -/
def AddrOp.Plain : AddrOp → Prop
  | .allocate _ cidrList _ => PlainList cidrList
  | .allocateDualStack _ v4 v6 => PlainList v4 ∧ PlainList v6
  | .release _ => True

namespace AddrState

variable {s : AddrState}
variable {dnn : Dnn} {addrs : List Addr} {session : Nat}

theorem heldBy_cons {A : Allocator} {sessions : List (Dnn × List Addr)} :
    heldBy ⟨A, (dnn, addrs) :: sessions⟩
      = update (heldBy ⟨A, sessions⟩) dnn (addrs ++ heldBy ⟨A, sessions⟩ dnn) := by
  funext d
  unfold heldBy
  by_cases e : d = dnn
  · subst e
    rw [update_self, List.filter_cons_of_pos (by simp), List.flatMap_cons]
  · rw [update_of_ne e, List.filter_cons_of_neg (by simpa using Ne.symm e)]

theorem heldBy_eraseIdx (h : s.sessions[session]? = some (dnn, addrs)) (d : Dnn) :
    (s.heldBy d).Perm (update (heldBy ⟨s.alloc, s.sessions.eraseIdx session⟩) dnn
      (addrs ++ heldBy ⟨s.alloc, s.sessions.eraseIdx session⟩ dnn) d) := by
  obtain ⟨hlt, hget⟩ := List.getElem?_eq_some_iff.1 h
  have hperm : ((dnn, addrs) :: s.sessions.eraseIdx session).Perm s.sessions := by
    rw [← hget]
    exact getElem_cons_eraseIdx_perm hlt
  rw [← heldBy_cons]
  exact (hperm.symm.filter _).flatMap_right _

/-- In every state reached the allocator accounts for the sessions. -/
def Good (s : AddrState) : Prop := Accounted s.alloc s.heldBy

theorem Good.step (h : s.Good) {op : AddrOp} (hplain : op.Plain) : (s.step op).Good := by
  unfold Good AddrState.step
  cases op with
  | allocate dnn cidrList version =>
    dsimp only
    split
    · rename_i A addr hok
      rw [heldBy_cons]
      exact Accounted.allocate h hplain hok
    · rename_i A e herr
      rw [allocate_error herr]
      exact h
  | allocateDualStack dnn v4 v6 =>
    dsimp only
    split
    · rename_i A v4Addr v6Addr hok
      obtain ⟨A₁, h₄, h₆⟩ := allocateDualStack_ok hok
      have h₁ := Accounted.allocate h hplain.1 h₄
      have h₂ := h₁.allocate hplain.2 h₆
      rw [update_idem, update_self] at h₂
      rw [heldBy_cons]
      exact h₂
    · rename_i A e herr
      exact Accounted.congr h (allocateDualStack_error hplain.1 herr)
  | release session =>
    dsimp only
    split
    · exact h
    · rename_i dnn addrs hs
      have hall := @Accounted.releaseAll _ _ dnn addrs _ (Accounted.perm h (heldBy_eraseIdx hs))
        (by rw [update_self])
      rw [update_idem, update_eq_self] at hall
      exact hall

theorem good_run {ops : List AddrOp} (hplain : ∀ op ∈ ops, op.Plain) :
    (run AddrState.step new ops).Good := by
  have hgood : ∀ s : AddrState, s.Good → (run AddrState.step s ops).Good := by
    induction ops with
    | nil => exact fun _ h => h
    | cons op ops ih =>
      exact fun s h => ih (fun o ho => hplain o (mem_cons_of_mem _ ho)) _
        (h.step (hplain op mem_cons_self))
  exact hgood _ Accounted.new

/-- The addresses of a session that is released are held by nobody of its DNN. -/
theorem not_held_released (h : s.Good) {addr : Addr} (hs : s.sessions[session]? = some (dnn, addrs))
    (ha : addr ∈ addrs) :
    addr ∉ (s.step (.release session)).heldBy dnn := by
  have hperm := heldBy_eraseIdx hs dnn
  rw [update_self] at hperm
  have hdisj := disjoint_of_nodup_append (hperm.nodup_iff.1 (h.nodup dnn))
  unfold AddrState.step
  dsimp only
  rw [hs]
  exact fun hheld => hdisj ha hheld

/-- What a state promises the sessions of each DNN, for the calls that come next. -/
structure Serves (s : AddrState) : Prop where
  /-- No two sessions of a DNN hold one address. -/
  distinct : ∀ dnn, (s.heldBy dnn).Nodup
  /-- The address is not one of the reserved ones of its CIDR. -/
  assignable : ∀ {dnn cidrList v A addr}, s.alloc.allocate dnn cidrList v = (A, .ok addr) →
    ∃ p, some p ∈ cidrList ∧ p.Assignable addr ∧
      addr ≠ p.nth 0 ∧ addr ≠ p.nth 1 ∧ (p.addr.is4 → addr ≠ p.nth (p.size - 1))
  assignable_dual : ∀ {dnn v4 v6 A a₄ a₆}, s.alloc.allocateDualStack dnn v4 v6 = (A, .ok (a₄, a₆)) →
    (∃ p, some p ∈ v4 ∧ p.Assignable a₄ ∧
      a₄ ≠ p.nth 0 ∧ a₄ ≠ p.nth 1 ∧ (p.addr.is4 → a₄ ≠ p.nth (p.size - 1))) ∧
    ∃ p, some p ∈ v6 ∧ p.Assignable a₆ ∧
      a₆ ≠ p.nth 0 ∧ a₆ ≠ p.nth 1 ∧ (p.addr.is4 → a₆ ≠ p.nth (p.size - 1))
  /-- Exhausted means that sessions of the DNN hold every assignable address of the list. -/
  exhausted : ∀ {dnn cidrList v A}, s.alloc.allocate dnn cidrList v = (A, .error .poolExhausted) →
    ∀ p, some p ∈ cidrList → p.skipped v = false → ∀ addr, p.Assignable addr → addr ∈ s.heldBy dnn
  /-- After a release a list with the address has a free host again, and the address is free. -/
  released : ∀ {session dnn addrs}, s.sessions[session]? = some (dnn, addrs) → ∀ addr ∈ addrs,
    ∀ cidrList v p, some p ∈ cidrList → p.skipped v = false → p.Assignable addr →
      addr ∉ (s.step (.release session)).alloc.allocated ⟨dnn, v⟩ ∧
      ((s.step (.release session)).alloc.allocate dnn cidrList v).2 ≠ .error .poolExhausted ∧
      ((s.step (.release session)).alloc.allocate dnn cidrList v).2 ≠ .error .noHosts
  /-- A dual-stack call that fails has taken nothing. -/
  dual_error : ∀ {dnn v4 v6 A e}, PlainList v4 →
    s.alloc.allocateDualStack dnn v4 v6 = (A, .error e) → A.allocated = s.alloc.allocated

theorem Good.serves (h : s.Good) : s.Serves where
  distinct := h.nodup
  assignable := fun hok => by
    obtain ⟨⟨p, hp, -, ha⟩, -, -⟩ := allocate_ok hok
    exact ⟨p, hp, ha, ha.not_reserved⟩
  assignable_dual := fun hok => by
    obtain ⟨A₁, h₄, h₆⟩ := allocateDualStack_ok hok
    obtain ⟨⟨p, hp, -, ha⟩, -, -⟩ := allocate_ok h₄
    obtain ⟨⟨q, hq, -, hb⟩, -, -⟩ := allocate_ok h₆
    exact ⟨⟨p, hp, ha, ha.not_reserved⟩, q, hq, hb, hb.not_reserved⟩
  exhausted := fun hex p hp hv addr ha =>
    ((h.mem_allocated _ _ _).1 (allocate_exhausted hex hp hv ha)).1
  released := fun {session dnn addrs} hs addr hin cidrList v p hp hv ha => by
    have hgood := @Good.step _ h (.release session) trivial
    have hfree : addr ∉ (s.step (.release session)).alloc.allocated ⟨dnn, v⟩ := fun hm =>
      not_held_released h hs hin ((hgood.mem_allocated _ _ _).1 hm).1
    refine ⟨hfree, fun hex => ?_, allocate_not_noHosts hp hv ha⟩
    exact hfree (allocate_exhausted (Prod.ext rfl hex) hp hv ha)
  dual_error := allocateDualStack_error

/-! ## Main result -/

/-- 10.0.0.0/29. -/
def poolTen : Prefix := ⟨.v4 0x0A000000, 29, by decide, by decide⟩

/-- The DNNs "internet" and "ims", each with a session from that CIDR. -/
def sharedPool : List AddrOp :=
  [.allocate [0x69, 0x6e, 0x74, 0x65, 0x72, 0x6e, 0x65, 0x74] [some poolTen] .ipv4,
    .allocate [0x69, 0x6d, 0x73] [some poolTen] .ipv4]

end AddrState

end MmtCore.Smf
