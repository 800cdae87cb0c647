import MmtCore.Amf.ContextReuse

/-!
# Security header types

Which PDUs `RxNAS` lets through by their security header type, over every security context: with no
key, with operative or pending ones, and with both.
-/

namespace MmtCore.Amf

variable (V : Env)

/-- The context that `RxNAS` leaves: `unwrap` has stored the count before the inner message is
looked at. -/
def rxNASCtx (sec : SecurityCtx) (pdu : Bytes) : SecurityCtx :=
  match pdu with
  | epd :: sht :: _ =>
    if epd = 0x7E ∧ sht ≠ 0 ∧ 8 ≤ pdu.length ∧ sec.checksMac sht then
      match unwrap V sec pdu sht with
      | .error _ => sec
      | .ok (_, count) =>
        sec.setSlot (sec.rxPending sht) fun k => { k with ul := (count + 1) % countMod }
    else sec
  | _ => sec

/-- What is expected of a PDU with this header type: only types 0, 1, 2 and 4 are let through, type
4 only while a context is pending, and what is protected only after its MAC, where there is a key; a
PDU that is refused leaves the context alone. -/
structure HeaderLaw (sec : SecurityCtx) (pdu : Bytes) : Prop where
  listed : ∀ p, rxNAS V sec pdu = .ok p → securityHeaderType (some pdu) ∈ [0, 1, 2, 4]
  pending : securityHeaderType (some pdu) = 4 → sec.pending = false →
    ∃ e, rxNAS V sec pdu = .error e
  verified : ∀ p, rxNAS V sec pdu = .ok p → securityHeaderType (some pdu) ≠ 0 →
    sec.hasOperative ∨ sec.hasPending → p.2.verified = true ∧
      MacVerifies V (sec.slot (sec.rxPending (securityHeaderType (some pdu)))) pdu
  unchanged : ∀ e, rxNAS V sec pdu = .error e → rxNASCtx V sec pdu = sec

/-- The PDU has no security header, or not all of one. -/
def Headless (pdu : Bytes) : Prop :=
  pdu.head? ≠ some 0x7E ∨ securityHeaderType (some pdu) = 0 ∨ pdu.length < 8

/-- With a key for the header type, a message that verifies is a 5GMM one and of a type that is
listed; without one, the bytes after the header are no 5GMM message, or the type is 1 or 2 and no
key is pending, or it is 4, a context is pending, and there is no operative key. -/
def HeaderFits (sec : SecurityCtx) (pdu : Bytes) : Prop :=
  let sht := securityHeaderType (some pdu)
  Headless pdu ∨
    if sec.checksMac sht then
      ∀ inner count, unwrap V sec pdu sht = .ok (inner, count) →
        isFivegmm inner ∧ sht ∈ [1, 2, 4]
    else
      isFivegmm (pdu.drop 7) = false ∨ sht ∈ [1, 2] ∧ sec.hasPending = false ∨
        sht = 4 ∧ sec.pending ∧ sec.hasOperative = false

variable {V} {sec : SecurityCtx} {pdu : Bytes}

theorem rxNASCtx_headless (h : Headless pdu) : rxNASCtx V sec pdu = sec := by
  unfold rxNASCtx
  split
  · refine if_neg fun hall => ?_
    rcases h with h | h | h
    · exact h (congrArg some hall.1)
    · exact hall.2.1 h
    · exact absurd hall.2.2.1 (Nat.not_le.2 h)
  · rfl

theorem rxNAS_headless (h : Headless pdu) {p : Bytes × RxMeta} (hp : rxNAS V sec pdu = .ok p) :
    securityHeaderType (some pdu) = 0 := by
  unfold rxNAS at hp
  split at hp
  · split at hp
    · cases hp
    case isFalse hepd =>
    split at hp
    · assumption
    split at hp
    · cases hp
    case isFalse hlen =>
    exact (h.resolve_left fun h => h (congrArg some (not_not.1 hepd))).resolve_right hlen
  · cases hp

theorem exists_of_not_headless (h : ¬Headless pdu) :
    ∃ sht x tl, pdu = 0x7E :: sht :: x :: tl ∧ sht ≠ 0 ∧ 8 ≤ pdu.length := by
  unfold Headless at h
  push Not at h
  obtain ⟨hepd, hsht, hlen⟩ := h
  match pdu with
  | epd :: sht :: x :: tl => exact ⟨sht, x, tl, by rw [Option.some.inj hepd], hsht, hlen⟩
  | [] | [_] | [_, _] => simp at hlen

theorem estimateCount_succ_ne (stored : Nat) (sqn : UInt8) :
    (estimateCount stored sqn + 1) % countMod ≠ stored := by
  have hsqn := sqn.toNat_lt
  unfold estimateCount
  simp only [countMod]
  split <;> omega

section Headed

variable {sht x : UInt8} {tl : Bytes} (hsht : sht ≠ 0) (hlen : 8 ≤ (0x7E :: sht :: x :: tl).length)
include hsht hlen

theorem rxNAS_of_error (hkey : sec.checksMac sht = true) {e : SecError}
    (hun : unwrap V sec (0x7E :: sht :: x :: tl) sht = .error e) :
    rxNAS V sec (0x7E :: sht :: x :: tl) = .error e := by
  rw [rxNAS, if_neg (not_not.2 rfl), if_neg hsht, if_neg (Nat.not_lt.2 hlen), if_pos hkey, hun]

theorem rxNAS_of_ok (hkey : sec.checksMac sht = true) {inner : Bytes} {count : Nat}
    (hun : unwrap V sec (0x7E :: sht :: x :: tl) sht = .ok (inner, count)) :
    rxNAS V sec (0x7E :: sht :: x :: tl) =
      if isFivegmm inner then .ok (inner, ⟨sht, count, false, true⟩)
      else .error .innerNotFivegmm := by
  rw [rxNAS, if_neg (not_not.2 rfl), if_neg hsht, if_neg (Nat.not_lt.2 hlen), if_pos hkey, hun]

/-- Without a key for its header type, a PDU is let through when a 5GMM message follows the
header. -/
theorem rxNAS_unchecked (hkey : sec.checksMac sht = false) :
    rxNAS V sec (0x7E :: sht :: x :: tl) =
      if isFivegmm ((x :: tl).drop 5) then .ok ((x :: tl).drop 5, ⟨sht, 0, false, false⟩)
      else .error (if ((x :: tl).drop 5).length < 3 then .innerTooShort else .innerNotFivegmm) := by
  rw [rxNAS, if_neg (not_not.2 rfl), if_neg hsht, if_neg (Nat.not_lt.2 hlen),
    if_neg (ne_true_of_eq_false hkey)]
  change (if ((x :: tl).drop 5).length < 3 then _ else
    if isFivegmm ((x :: tl).drop 5) then Except.ok ((x :: tl).drop 5, _) else _) = _
  generalize (x :: tl).drop 5 = inner
  match inner with
  | a :: b :: c :: inner =>
    grind
  | [] | [_] | [_, _] => rfl

/-- A count is stored that was not there. -/
theorem rxNASCtx_ne (hkey : sec.checksMac sht = true) {p : Bytes × Nat}
    (hun : unwrap V sec (0x7E :: sht :: x :: tl) sht = .ok p) :
    rxNASCtx V sec (0x7E :: sht :: x :: tl) ≠ sec := by
  obtain ⟨sqn, hsqn⟩ : ∃ sqn, p.2 = estimateCount (sec.slot (sec.rxPending sht)).ul sqn := by
    unfold unwrap at hun
    grind
  have hctx : rxNASCtx V sec (0x7E :: sht :: x :: tl) =
      sec.setSlot (sec.rxPending sht) fun k => { k with ul := (p.2 + 1) % countMod } := by
    rw [rxNASCtx, if_pos ⟨rfl, hsht, hlen, hkey⟩, hun]
  intro heq
  have hslot : ((sec.setSlot (sec.rxPending sht) fun k =>
      { k with ul := (p.2 + 1) % countMod }).slot (sec.rxPending sht)).ul =
        (p.2 + 1) % countMod := by
    cases sec.rxPending sht <;> simp [SecurityCtx.setSlot, SecurityCtx.slot]
  rw [← hctx, heq, hsqn] at hslot
  exact estimateCount_succ_ne _ sqn hslot.symm

end Headed

section

variable {sht x : UInt8} {tl : Bytes} (hsht : sht ≠ 0) (hlen : 8 ≤ (0x7E :: sht :: x :: tl).length)
include hlen hsht

theorem headerLaw_of_checked (hkey : sec.checksMac sht = true) :
    HeaderLaw V sec (0x7E :: sht :: x :: tl) ↔
      ∀ inner count, unwrap V sec (0x7E :: sht :: x :: tl) sht = .ok (inner, count) →
        isFivegmm inner ∧ sht ∈ [1, 2, 4] := by
  constructor
  · intro law inner count hun
    have hrx := rxNAS_of_ok hsht hlen hkey hun
    cases hf : isFivegmm inner with
    | false =>
      rw [hf, if_neg Bool.false_ne_true] at hrx
      exact absurd (law.unchanged _ hrx) (rxNASCtx_ne hsht hlen hkey hun)
    | true =>
      rw [hf, if_pos rfl] at hrx
      exact ⟨rfl, (List.mem_cons.1 (law.listed _ hrx)).resolve_left hsht⟩
  · intro h
    have hok : ∀ p, rxNAS V sec (0x7E :: sht :: x :: tl) = .ok p →
        sht ∈ [1, 2, 4] ∧ p.2.verified = true := by
      intro p hp
      cases hun : unwrap V sec (0x7E :: sht :: x :: tl) sht with
      | error e => rw [rxNAS_of_error hsht hlen hkey hun] at hp; cases hp
      | ok q =>
        obtain ⟨hf, hmem⟩ := h q.1 q.2 hun
        rw [rxNAS_of_ok hsht hlen hkey hun, if_pos hf] at hp
        cases hp
        exact ⟨hmem, rfl⟩
    refine ⟨fun p hp => List.mem_cons_of_mem _ (hok p hp).1, fun h4 hpend => ?_,
      fun p hp _ _ => ⟨(hok p hp).2, rxNAS_macVerifies hp hsht hkey⟩, fun e he => ?_⟩
    · cases (show sht = 4 from h4)
      simp [SecurityCtx.checksMac, SecurityCtx.hasPending, hpend] at hkey
    · cases hun : unwrap V sec (0x7E :: sht :: x :: tl) sht with
      | error e => rw [rxNASCtx, if_pos ⟨rfl, hsht, hlen, hkey⟩, hun]
      | ok q =>
        rw [rxNAS_of_ok hsht hlen hkey hun, if_pos (h q.1 q.2 hun).1] at he
        cases he

theorem headerLaw_of_unchecked (hkey : sec.checksMac sht = false) :
    HeaderLaw V sec (0x7E :: sht :: x :: tl) ↔
      isFivegmm ((x :: tl).drop 5) = false ∨ sht ∈ [1, 2] ∧ sec.hasPending = false ∨
        sht = 4 ∧ sec.pending ∧ sec.hasOperative = false := by
  have hctx : rxNASCtx V sec (0x7E :: sht :: x :: tl) = sec :=
    if_neg fun h => ne_true_of_eq_false hkey h.2.2.2
  have hrx := rxNAS_unchecked (V := V) hsht hlen hkey
  cases hf : isFivegmm ((x :: tl).drop 5) with
  | false =>
    rw [hf, if_neg Bool.false_ne_true] at hrx
    refine iff_of_true ⟨fun p hp => ?_, fun _ _ => ⟨_, hrx⟩, fun p hp => ?_, fun _ _ => hctx⟩
      (.inl rfl)
    all_goals
      rw [hrx] at hp
      cases hp
  | true =>
    rw [hf, if_pos rfl] at hrx
    constructor
    · intro law
      have hmem : sht ∈ [0, 1, 2, 4] := law.listed _ hrx
      have hno : ¬(sec.hasOperative ∨ sec.hasPending) := fun hk =>
        absurd (law.verified _ hrx hsht hk).1 Bool.false_ne_true
      have hpend : sht = 4 → sec.pending = false → False := fun h4 hp => by
        obtain ⟨e, he⟩ := law.pending h4 hp
        rw [hrx] at he
        cases he
      grind
    · intro h
      have hkeys : sec.hasOperative = false ∧ sec.hasPending = false := by
        simp only [SecurityCtx.checksMac] at hkey
        grind
      refine ⟨fun p _ => ?_, fun h4 hp => ?_, fun p _ _ hk => ?_, fun _ _ => hctx⟩
      · change sht ∈ [0, 1, 2, 4]
        grind
      · change sht = 4 at h4
        grind
      · simp [hkeys] at hk

end

/-- `RxNAS` does with a PDU what is expected just where its header type fits. -/
theorem headerLaw_iff (V : Env) (sec : SecurityCtx) (pdu : Bytes) :
    HeaderLaw V sec pdu ↔ HeaderFits V sec pdu := by
  by_cases hless : Headless pdu
  · refine iff_of_true ⟨fun p hp => ?_, fun h4 _ => ?_, fun p hp hne => ?_, fun _ _ =>
      rxNASCtx_headless hless⟩ (.inl hless)
    · rw [rxNAS_headless hless hp]
      exact List.mem_cons_self
    · cases hrx : rxNAS V sec pdu with
      | error e => exact ⟨e, rfl⟩
      | ok p => exact absurd ((rxNAS_headless hless hrx).symm.trans h4) (by decide)
    · exact absurd (rxNAS_headless hless hp) hne
  · obtain ⟨sht, x, tl, rfl, hsht, hlen⟩ := exists_of_not_headless hless
    refine Iff.trans ?_ (or_iff_right hless).symm
    cases hkey : sec.checksMac sht with
    | true => exact (headerLaw_of_checked hsht hlen hkey).trans (by simp [securityHeaderType, hkey])
    | false => exact (headerLaw_of_unchecked hsht hlen hkey).trans (by simp [securityHeaderType, hkey])

/-- A PDU of type 5, of a UE without keys, and one of type 4, of a UE with operative ones. -/
theorem header_let_through :
    ¬HeaderLaw Lab.env .new [0x7E, 5, 0, 0, 0, 0, 0, 0x7E, 0, 0x41] ∧
      ¬HeaderLaw Lab.env { SecurityCtx.new with op := { NasSlot.empty with knasInt := Lab.knasInt } }
        [0x7E, 4, 0, 0, 0, 0, 0, 0x7E, 0, 0x41] := by
  refine ⟨fun h => ?_, fun h => ?_⟩
  · exact absurd (h.listed ([0x7E, 0, 0x41], ⟨5, 0, false, false⟩) (by decide)) (by decide)
  · obtain ⟨e, he⟩ := h.pending rfl rfl
    cases he

end MmtCore.Amf
