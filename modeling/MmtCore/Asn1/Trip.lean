import MmtCore.Asn1.PerBitData
import MmtCore.Lib.Bits

/-!
# What is written is read

The buffer as a list of bits: what the loops of the writer and the reader do to it, and trips, in
which a reader finds the value that a writer has put there and stops where the writer did.
-/

namespace MmtCore.Asn1

open MmtCore.Lib List UInt8 Nat

/-! ## The writer -/

/-- The buffer holds these bits; those left over in its last byte are zero. -/
def Holds (p : PerBitData) (bits : List Bool) : Prop :=
  ∃ pre k h, k < 8 ∧ h < 2 ^ k ∧ bits = bytesBits pre ++ msb k h ∧
    p.numBits = 8 * pre.length + k ∧
    p.buffer = pre ++ if k = 0 then [] else [UInt8.ofNat (h * 2 ^ (8 - k))]

variable {p p' : PerBitData} {L : List Bool}

theorem holds_newWriter (aligned : Bool) : Holds (newWriter aligned) [] :=
  ⟨[], 0, 0, by decide, by decide, rfl, rfl, rfl⟩

theorem Holds.numBits (h : Holds p L) : p.numBits = L.length := by
  obtain ⟨pre, k, v, -, -, rfl, hbits, -⟩ := h
  rw [hbits, length_append, length_bytesBits, length_msb]

/-- The bits of the bytes. -/
theorem Holds.buffer (h : Holds p L) :
    ∃ m, bytesBits p.buffer = L ++ List.replicate m false := by
  obtain ⟨pre, k, v, hk, hv, rfl, -, hbuffer⟩ := h
  by_cases hzero : k = 0
  · simp_all
  · refine ⟨8 - k, ?_⟩
    have hlt : v * 2 ^ (8 - k) < 256 := by
      calc v * 2 ^ (8 - k) < 2 ^ k * 2 ^ (8 - k) :=
            Nat.mul_lt_mul_of_pos_right hv (Nat.two_pow_pos _)
        _ = 256 := by rw [← Nat.pow_add, Nat.add_sub_cancel' (Nat.le_of_lt hk)]
    have hbyte : (ofNat (v * 2 ^ (8 - k))).toNat = v * 2 ^ (8 - k) := by
      rw [toNat_ofNat']
      exact mod_eq_of_lt hlt
    have hjoin : msb (k + (8 - k)) (v * 2 ^ (8 - k) + 0) = msb k v ++ msb (8 - k) 0 :=
      msb_join (Nat.two_pow_pos _)
    rw [Nat.add_sub_cancel' (Nat.le_of_lt hk), Nat.add_zero, msb_zero_right] at hjoin
    rw [hbuffer, if_neg hzero, bytesBits_append, bytesBits_singleton, hbyte, hjoin,
      append_assoc]

/-- Two parts of a byte that do not meet. -/
theorem or_of_parts {h c k t : Nat} (hc : c < 2 ^ t) (hkt : k + t ≤ 8) :
    UInt8.ofNat (h * 2 ^ (8 - k)) ||| UInt8.ofNat (c <<< (8 - k - t)) =
      UInt8.ofNat ((h * 2 ^ t + c) * 2 ^ (8 - k - t)) := by
  have hsum : h * 2 ^ (8 - k) = (h * 2 ^ t) * 2 ^ (8 - k - t) := by
    rw [Nat.mul_assoc, ← Nat.pow_add]
    congr 2
    omega
  have hlow : c * 2 ^ (8 - k - t) < 2 ^ (8 - k) := by
    calc c * 2 ^ (8 - k - t) < 2 ^ t * 2 ^ (8 - k - t) :=
          Nat.mul_lt_mul_of_pos_right hc (Nat.two_pow_pos _)
      _ = 2 ^ (8 - k) := by rw [← pow_add]; congr 1; omega
  have hor : h * 2 ^ (8 - k) ||| c * 2 ^ (8 - k - t) =
      h * 2 ^ (8 - k) + c * 2 ^ (8 - k - t) := by
    rw [← shiftLeft_eq h]
    exact (shiftLeft_add_eq_or_of_lt hlow h).symm
  rw [Nat.shiftLeft_eq, Nat.add_mul, ← hsum, ← hor]
  exact (ofNat_or _ _).symm

theorem modify_last (l : Bytes) (b : UInt8) (f : UInt8 → UInt8) :
    (l ++ [b]).modify l.length f = l ++ [f b] := by
  induction l with
  | nil => rfl
  | cons a l ih => rw [cons_append, length_cons, modify_succ_cons, ih, cons_append]

/-- The part that one round of the loop writes. -/
theorem Holds.chunk {c t : Nat} (h : Holds p L) (ht : t ≤ 8 - p.numBits % 8) (hpos : 0 < t)
    (hc : c < 2 ^ t) :
    Holds
      { p with
        buffer := (if p.buffer.length ≤ p.numBits / 8 then p.buffer ++ [0] else p.buffer).modify
          (p.numBits / 8) fun b => b ||| UInt8.ofNat (c <<< (8 - p.numBits % 8 - t))
        numBits := p.numBits + t }
      (L ++ msb t c) := by
  obtain ⟨pre, k, v, hk, hv, rfl, hbits, hbuffer⟩ := h
  have hdiv : p.numBits / 8 = pre.length := by omega
  have hmod : p.numBits % 8 = k := by omega
  have hbyte : (if p.buffer.length ≤ pre.length then p.buffer ++ [0] else p.buffer) =
      pre ++ [ofNat (v * 2 ^ (8 - k))] := by
    by_cases hzero : k = 0
    · simp_all
    · rw [hbuffer, if_neg hzero, if_neg (by simp)]
  have hnew : (pre ++ [ofNat (v * 2 ^ (8 - k))]).modify pre.length
      (fun b => b ||| ofNat (c <<< (8 - k - t))) =
        pre ++ [ofNat ((v * 2 ^ t + c) * 2 ^ (8 - k - t))] := by
    rw [← or_of_parts hc (by omega), modify_last]
  have hbig : v * 2 ^ t + c < 2 ^ (k + t) := by
    calc v * 2 ^ t + c < v * 2 ^ t + 2 ^ t := Nat.add_lt_add_left hc _
      _ = (v + 1) * 2 ^ t := (succ_mul v _).symm
      _ ≤ 2 ^ k * 2 ^ t := mul_le_mul_right _ hv
      _ = 2 ^ (k + t) := (pow_add 2 k t).symm
  rw [hdiv, hmod, hbyte, hnew]
  by_cases hfull : k + t < 8
  · refine ⟨pre, k + t, v * 2 ^ t + c, hfull, hbig, ?_, ?_, ?_⟩
    · rw [msb_join hc, append_assoc]
    · dsimp only
      omega
    · rw [if_neg (by omega), Nat.sub_sub]
  · have height : k + t = 8 := by omega
    refine ⟨pre ++ [ofNat (v * 2 ^ t + c)], 0, 0, by decide, by decide, ?_, ?_, ?_⟩
    · have hbyte : (ofNat (v * 2 ^ t + c)).toNat = v * 2 ^ t + c := by
        grind [toNat_ofNat']
      have hjoin := msb_join (k := k) (h := v) hc
      rw [height] at hjoin
      rw [bytesBits_append, bytesBits_singleton, hbyte, hjoin, msb_zero_left, append_nil,
        append_assoc]
    · dsimp only
      rw [length_append, length_singleton]
      omega
    · rw [if_pos rfl, List.append_nil, Nat.sub_sub, height, Nat.sub_self, Nat.pow_zero, Nat.mul_one]

theorem holds_putChunks {fuel value remaining : Nat} (h : Holds p L) (hfuel : remaining ≤ fuel) :
    Holds (putChunks fuel value remaining p) (L ++ msb remaining value) ∧
      (putChunks fuel value remaining p).aligned = p.aligned := by
  induction fuel generalizing remaining p L with
  | zero =>
    cases le_zero.1 hfuel
    rw [msb_zero_left, append_nil]
    exact ⟨h, rfl⟩
  | succ fuel ih =>
    by_cases hzero : remaining = 0
    · subst hzero
      rw [putChunks, if_pos rfl, msb_zero_left, append_nil]
      exact ⟨h, rfl⟩
    · rw [putChunks, if_neg hzero]
      dsimp only
      generalize htake : min remaining (8 - p.numBits % 8) = take
      have hle : take ≤ remaining := by omega
      have hpos : 0 < take := by omega
      have hchunk : (value >>> (remaining - take)) &&& (2 ^ take - 1) < 2 ^ take :=
        Nat.and_lt_two_pow _ (Nat.sub_lt (Nat.two_pow_pos _) Nat.one_pos)
      have hstep := h.chunk (t := take) (by omega) hpos hchunk
      obtain ⟨hholds, haligned⟩ := ih hstep (show remaining - take ≤ fuel by omega)
      have hbits : msb remaining value =
          msb take ((value >>> (remaining - take)) &&& (2 ^ take - 1)) ++
            msb (remaining - take) value := by
        rw [and_two_pow_sub_one_eq_mod, msb_mod, shiftRight_eq_div_pow, ← msb_add,
          Nat.add_sub_cancel' hle]
      rw [hbits, ← append_assoc]
      exact ⟨hholds, haligned⟩

theorem holds_putBits {v n : Nat} (h : Holds p L) (hput : putBits v n p = .ok p') :
    Holds p' (L ++ msb n v) ∧ p'.aligned = p.aligned ∧ n ≤ 64 := by
  unfold putBits at hput
  split at hput
  · simp_all
  · split at hput
    · cases hput
    · case isFalse hle =>
      cases hput
      obtain ⟨hholds, haligned⟩ := @holds_putChunks p L n v n h (Nat.le_refl n)
      exact ⟨hholds, haligned, Nat.le_of_not_lt hle⟩

/-! ## The reader -/

/-- All the bits of the buffer may be read. -/
def Whole (r : PerBitData) : Prop := r.numBits = 8 * r.buffer.length

/-- The bits from here on. -/
def content (r : PerBitData) : List Bool := (bytesBits r.buffer).drop r.pos

variable {r : PerBitData} {M rest : List Bool}

theorem whole_newReader (buf : Bytes) (aligned : Bool) : Whole (newReader buf aligned) :=
  mul_comm _ _

theorem content_newReader (buf : Bytes) (aligned : Bool) :
    content (newReader buf aligned) = bytesBits buf := rfl

theorem pos_le_of_content (hr : Whole r) (h : content r = M ++ rest) (hM : 0 < M.length) :
    r.pos + M.length ≤ r.numBits := by
  grind [length_drop, length_bytesBits, content, Whole]

theorem content_advance (h : content r = M ++ rest) :
    content { r with pos := r.pos + M.length } = rest := by
  unfold content at h ⊢
  rw [← drop_drop, h, drop_left]

/-- The part that one round of the loop reads. -/
theorem read_chunk {t : Nat} (hr : Whole r) (h : content r = M ++ rest) (ht : M.length = t)
    (hpos : 0 < t) (hle : t ≤ 8 - r.pos % 8) :
    ∃ b, r.buffer[r.pos / 8]? = some b ∧
      (b.toNat >>> (8 - r.pos % 8 - t)) &&& (2 ^ t - 1) = ofBits M := by
  have hbound := pos_le_of_content hr h (by omega)
  have hlt : r.pos / 8 < r.buffer.length := by
    unfold Whole at hr
    omega
  refine ⟨r.buffer[r.pos / 8], getElem?_eq_getElem hlt, ?_⟩
  generalize hb : r.buffer[r.pos / 8] = b
  obtain ⟨pre, post, hbuf, hpre⟩ : ∃ pre post, r.buffer = pre ++ b :: post ∧
      pre.length = r.pos / 8 := by
    refine ⟨r.buffer.take (r.pos / 8), r.buffer.drop (r.pos / 8 + 1), ?_,
      List.length_take_of_le (Nat.le_of_lt hlt)⟩
    rw [← hb, ← drop_eq_getElem_cons hlt, take_append_drop]
  generalize hk : r.pos % 8 = k at hle ⊢
  have hwhere : r.pos = (bytesBits pre).length + k := by
    rw [length_bytesBits]
    omega
  -- the byte is what is before, what is read and what is after
  have hparts : msb (k + (t + (8 - k - t))) b.toNat =
      msb k (b.toNat / 2 ^ (t + (8 - k - t))) ++
        (msb t (b.toNat / 2 ^ (8 - k - t)) ++ msb (8 - k - t) b.toNat) := by
    rw [msb_add, msb_add t]
  have height : k + (t + (8 - k - t)) = 8 := by omega
  rw [height] at hparts
  have hdrop : content r =
      msb t (b.toNat / 2 ^ (8 - k - t)) ++ (msb (8 - k - t) b.toNat ++ bytesBits post) := by
    unfold content
    rw [hbuf, hwhere, bytesBits_append, bytesBits_cons, ← drop_drop, drop_left, hparts,
      append_assoc, drop_left' (length_msb _ _), append_assoc]
  rw [hdrop] at h
  have hM := (append_inj h (by rw [length_msb, ht])).1
  rw [and_two_pow_sub_one_eq_mod, shiftRight_eq_div_pow, ← ofBits_msb, hM]

theorem getChunks_eq {fuel out remaining : Nat} (hr : Whole r) (h : content r = M ++ rest)
    (hM : M.length = remaining) (hfuel : remaining ≤ fuel) :
    getChunks fuel out remaining r =
      .ok (out * 2 ^ remaining + ofBits M, { r with pos := r.pos + remaining }) := by
  induction fuel generalizing remaining out r M with
  | zero =>
    cases le_zero.1 hfuel
    cases length_eq_zero_iff.1 hM
    rw [Nat.pow_zero, Nat.mul_one]
    rfl
  | succ fuel ih =>
    by_cases hzero : remaining = 0
    · subst hzero
      cases length_eq_zero_iff.1 hM
      rw [Nat.pow_zero, Nat.mul_one]
      rfl
    · rw [getChunks]
      dsimp only
      rw [if_neg hzero]
      generalize htake : min remaining (8 - r.pos % 8) = take
      have hle : take ≤ M.length := by omega
      have hsplit : M = M.take take ++ M.drop take := (take_append_drop take M).symm
      have hlen : (M.take take).length = take := length_take_of_le hle
      have hcontent : content r = M.take take ++ (M.drop take ++ rest) := by
        rw [h, ← append_assoc, ← hsplit]
      obtain ⟨b, hb, hval⟩ := read_chunk hr hcontent hlen (by omega) (by omega)
      rw [hb]
      dsimp only
      have hnext := content_advance hcontent
      rw [hlen] at hnext
      have hrest : (M.drop take).length = remaining - take := by
        rw [length_drop, hM]
      have hwhole : Whole { r with pos := r.pos + take } := hr
      rw [hval, ih hwhole hnext hrest (by omega)]
      have hor : out <<< take ||| ofBits (M.take take) = out * 2 ^ take + ofBits (M.take take) := by
        grind [shiftLeft_eq, shiftLeft_add_eq_or_of_lt, ofBits_lt]
      have hsum : ofBits M = ofBits (M.take take) * 2 ^ (remaining - take) + ofBits (M.drop take) := by
        conv_lhs => rw [hsplit]
        rw [ofBits_append, hrest]
      have hpow : 2 ^ remaining = 2 ^ take * 2 ^ (remaining - take) := by
        rw [← Nat.pow_add, Nat.add_sub_cancel' (hM ▸ hle)]
      have hwhere : r.pos + take + (remaining - take) = r.pos + remaining := by omega
      rw [hor, hsum, hpow, Nat.add_mul, Nat.mul_assoc, Nat.add_assoc]
      rw [hwhere]

/-- The next bits as a number. -/
theorem getBits_eq {n : Nat} (hr : Whole r) (h : content r = M ++ rest) (hM : M.length = n)
    (hn : n ≤ 64) : getBits n r = .ok (ofBits M, { r with pos := r.pos + n }) := by
  unfold getBits
  by_cases hzero : n = 0
  · subst hzero
    cases length_eq_zero_iff.1 hM
    rw [if_pos rfl]
    rfl
  · have hbound := pos_le_of_content hr h (by omega)
    rw [if_neg hzero, if_neg (by omega), if_neg (by omega),
      getChunks_eq hr h hM (Nat.le_refl _), Nat.zero_mul, Nat.zero_add]

/-! ## Trips -/

/-- Where the writer has put something, the reader finds `x` and stops where the writer did. -/
def Trip {α : Type} (aligned : Bool) (f : Put) (g : Get α) (x : α) : Prop :=
  ∀ p p' L, Holds p L → p.aligned = aligned → f p = .ok p' →
    p'.aligned = aligned ∧ ∃ M, Holds p' (L ++ M) ∧
      ∀ r rest, Whole r → r.aligned = aligned → r.pos = L.length → content r = M ++ rest →
        g r = .ok (x, { r with pos := r.pos + M.length })

theorem bind_ok {α β : Type} {g : Get α} {k : α → Get β} {x : α} {r' : PerBitData}
    (h : g r = .ok (x, r')) : (g >>= k) r = k x r' := by
  change Outcome.bind (g r) _ = _
  rw [h]
  rfl

namespace Trip

variable {α β : Type} {aligned : Bool} {f f' : Put} {g : Get α} {k : α → Get β} {x : α} {y : β}

theorem skip : Trip aligned .skip (pure x) x := by
  intro p p' L hp ha h
  cases h
  refine ⟨ha, [], by rwa [append_nil], fun r rest _ _ _ _ => rfl⟩

theorem fail {err : PerErr} : Trip aligned (.fail err) g x := by
  intro p p' L _ _ h
  cases h

section

variable (hf : Trip aligned f g x)
include hf

/-- One trip after the other. -/
theorem seq (hf' : Trip aligned f' (k x) y) : Trip aligned (.and f f') (g >>= k) y := by
  intro p p' L hp ha h
  unfold Put.and at h
  cases hfp : f p with
  | error err =>
    rw [hfp] at h
    cases h
  | ok q =>
    rw [hfp] at h
    obtain ⟨hqa, M, hq, hread⟩ := hf p q L hp ha hfp
    obtain ⟨hpa, M', hp', hread'⟩ := hf' q p' (L ++ M) hq hqa h
    refine ⟨hpa, M ++ M', by rwa [← append_assoc], fun r rest hr hra hpos hcontent => ?_⟩
    rw [append_assoc] at hcontent
    have hnext := content_advance hcontent
    rw [bind_ok (hread r _ hr hra hpos hcontent)]
    rw [hread' { r with pos := r.pos + M.length } rest hr hra
      (by rw [length_append, ← hpos]) hnext, length_append, add_assoc]

/-- The reader goes on without reading. -/
theorem bind (hk : k x = pure y) : Trip aligned f (g >>= k) y := by
  intro p p' L hp ha h
  obtain ⟨hpa, M, hp', hread⟩ := hf p p' L hp ha h
  refine ⟨hpa, M, hp', fun r rest hr hra hpos hcontent => ?_⟩
  rw [bind_ok (hread r rest hr hra hpos hcontent), hk]
  rfl

theorem skip_and : Trip aligned (.and .skip f) g x := hf

theorem and_skip : Trip aligned (.and f .skip) g x := by
  intro p p' L hp ha h
  unfold Put.and at h
  cases hfp : f p with
  | error err =>
    rw [hfp] at h
    cases h
  | ok q =>
    rw [hfp] at h
    cases h
    exact hf p p' L hp ha hfp

end

theorem putBits {v n : Nat} (hv : v < 2 ^ n) :
    Trip aligned (putBits v n) (getBits n) v := by
  intro p p' L hp ha h
  obtain ⟨hholds, haligned, hn⟩ := holds_putBits hp h
  refine ⟨haligned.trans ha, msb n v, hholds, fun r rest hr _ _ hcontent => ?_⟩
  rw [getBits_eq hr hcontent (length_msb n v) hn, ofBits_msb_of_lt hv, length_msb]

theorem align : Trip aligned alignToByte alignReadToByte () := by
  intro p p' L hp ha h
  have hbits := hp.numBits
  unfold alignToByte at h
  split at h
  · case isTrue hskip =>
    cases h
    refine ⟨ha, [], by rwa [append_nil], fun r rest _ hra hpos _ => ?_⟩
    unfold alignReadToByte
    rw [if_pos (by rwa [hra, hpos, ← hbits, ← ha])]
    rfl
  · case isFalse hskip =>
    obtain ⟨hholds, haligned, -⟩ := holds_putBits hp h
    refine ⟨haligned.trans ha, _, hholds, fun r rest hr hra hpos hcontent => ?_⟩
    have hbound := pos_le_of_content hr hcontent (by rw [length_msb]; omega)
    simp_all [alignReadToByte]

end Trip

/-! ## What a reader returns -/

/-- What the reader returns, if it does, satisfies `P`. -/
def Yields {α : Type} (aligned : Bool) (P : α → Prop) (g : Get α) : Prop :=
  ∀ r x r', Whole r → r.aligned = aligned → g r = .ok (x, r') →
    P x ∧ Whole r' ∧ r'.aligned = aligned

theorem bind_eq_ok {α β : Type} {g : Get α} {k : α → Get β} {y : β} {r' : PerBitData}
    (h : (g >>= k) r = .ok (y, r')) : ∃ x q, g r = .ok (x, q) ∧ k x q = .ok (y, r') := by
  change Outcome.bind (g r) (fun p => k p.1 p.2) = _ at h
  cases hrun : g r with
  | ok p =>
    rw [hrun] at h
    exact ⟨p.1, p.2, rfl, h⟩
  | error err | panic =>
    rw [hrun] at h
    cases h

namespace Yields

variable {α β : Type} {aligned : Bool} {P P' : α → Prop} {Q : β → Prop} {g : Get α}
  {k : α → Get β}

theorem pure {x : α} (h : P x) : Yields aligned P (pure x) := by
  intro r y r' hr ha hrun
  cases hrun
  exact ⟨h, hr, ha⟩

theorem fail {err : PerErr} : Yields aligned P (fail err) := by
  intro r y r' _ _ hrun
  cases hrun

theorem bind (hg : Yields aligned P g) (hk : ∀ x, P x → Yields aligned Q (k x)) :
    Yields aligned Q (g >>= k) := by
  intro r y r' hr ha hrun
  obtain ⟨x, q, hx, hy⟩ := bind_eq_ok hrun
  obtain ⟨hP, hq, hqa⟩ := hg r x q hr ha hx
  exact hk x hP q y r' hq hqa hy

theorem mono (hg : Yields aligned P g) (h : ∀ x, P x → P' x) : Yields aligned P' g := by
  intro r x r' hr ha hrun
  obtain ⟨hP, hrest⟩ := hg r x r' hr ha hrun
  exact ⟨h x hP, hrest⟩

theorem bits (n : Nat) : Yields aligned (· < 2 ^ n) (getBits n) := by
  intro r v r' hr ha hrun
  unfold getBits at hrun
  by_cases hzero : n = 0
  · grind
  by_cases hmany : n > 64
  · rw [if_neg hzero, if_pos hmany] at hrun
    cases hrun
  by_cases hout : r.pos + n > r.numBits
  · rw [if_neg hzero, if_neg hmany, if_pos hout] at hrun
    cases hrun
  rw [if_neg hzero, if_neg hmany, if_neg hout] at hrun
  have hlen : ((content r).take n).length = n := by
    unfold content
    rw [List.length_take, List.length_drop, length_bytesBits]
    unfold Whole at hr
    omega
  have hlt := ofBits_lt ((content r).take n)
  rw [hlen] at hlt
  rw [getChunks_eq hr (List.take_append_drop n (content r)).symm hlen (Nat.le_refl n), Nat.zero_mul,
    Nat.zero_add] at hrun
  cases hrun
  exact ⟨hlt, hr, ha⟩

theorem align : Yields aligned (fun _ => True) alignReadToByte := by
  intro r x r' hr ha hrun
  unfold alignReadToByte at hrun
  split at hrun
  · cases hrun
    exact ⟨trivial, hr, ha⟩
  · dsimp only at hrun
    split at hrun
    · cases hrun
    · cases hrun
      exact ⟨trivial, hr, ha⟩

theorem and (hP : Yields aligned P g) (hP' : Yields aligned P' g) :
    Yields aligned (fun x => P x ∧ P' x) g := by
  intro r x r' hr ha hrun
  exact ⟨⟨(hP r x r' hr ha hrun).1, (hP' r x r' hr ha hrun).1⟩, (hP r x r' hr ha hrun).2⟩

/-- No more than 64 bits are read at once. -/
theorem bits_le (n : Nat) : Yields aligned (fun _ => n ≤ 64) (getBits n) := by
  intro r v r' hr ha hrun
  have hle : n ≤ 64 := by
    grind [getBits]
  exact ⟨hle, (bits n r v r' hr ha hrun).2⟩

/-- The reader knows its alignment. -/
theorem ofAligned {g : Bool → Get α} (h : Yields aligned P (g aligned)) :
    Yields aligned P (fun p => g p.aligned p) := by
  intro r x r' hr ha hrun
  dsimp only at hrun
  rw [ha] at hrun
  exact h r x r' hr ha hrun

end Yields

end MmtCore.Asn1
