import MmtCore.Nas.Elements

/-!
# Sizes of NAS information elements

What is decoded never encodes to more bytes than it was decoded from.
-/

namespace MmtCore.Nas

open MmtCore.Lib List MobileIdentity5GS Nat

theorem length_encodeBCD (p : PlmnId) : p.encodeBCD.length = 3 := rfl

theorem length_digitPairs (l : Bytes) : (digitPairs l).length = (l.length + 1) / 2 := by
  induction l using digitPairs.induct with
  | case1 => rfl
  | case2 a => simp [digitPairs]
  | case3 a b rest ih =>
    rw [digitPairs, length_cons, ih, length_cons, length_cons]
    omega

theorem length_digitsOf (v : Bytes) : (digitsOf v).length ≤ 2 * v.length := by
  unfold digitsOf
  induction v with
  | nil => exact Nat.le_refl _
  | cons b v ih =>
    grind

theorem length_encode_imei (digits : Bytes) :
    (MobileIdentity5GS.imei digits).encode.length = digits.length / 2 + 1 := by
  change (digitPairs digits.tail).length + 1 = _
  rw [length_digitPairs, length_tail]
  omega

theorem length_decodeIMEI (b : UInt8) (rest : Bytes) :
    (MobileIdentity5GS.decodeIMEI b rest).encode.length ≤ rest.length + 1 := by
  have hdigits := length_digitsOf rest
  grind [length_encode_imei, decodeIMEI]

variable {v : Bytes} {ls : List Bytes}

theorem length_decode_identity {id : MobileIdentity5GS} (h : MobileIdentity5GS.decode v = .ok id) :
    id.encode.length ≤ v.length := by
  unfold MobileIdentity5GS.decode at h
  split at h
  · cases h
  case h_2 b rest =>
  dsimp only at h
  split at h
  · cases h
    exact succ_le_succ (zero_le _)
  split at h
  · unfold decodeSUCI at h
    split at h
    · case h_1 heq =>
      cases h
      rw [heq]
      simp only [MobileIdentity5GS.encode, length_append, length_cons, length_nil,
        length_encodeBCD]
      omega
    · cases h
  split at h
  · unfold decodeGUTI5G at h
    split at h
    · case h_1 heq =>
      cases h
      rw [heq]
      simp only [MobileIdentity5GS.encode, length_append, length_cons, length_nil,
        length_encodeBCD, putAmf, putTMSI]
      omega
    · cases h
  split at h
  · cases h
    exact length_decodeIMEI b rest
  split at h
  · unfold decodeSTMSI at h
    split at h
    · case h_1 heq =>
      cases h
      rw [heq]
      simp only [MobileIdentity5GS.encode, length_append, length_cons, length_nil,
        putAmf, putTMSI]
      omega
    · cases h
  · cases h

/-- The bytes of labels with their lengths. -/
def labelBytes (ls : List Bytes) : Nat := total (ls.map fun l => l.length + 1)

theorem length_intercalate (hne : ls ≠ []) :
    ([0x2E].intercalate ls).length + 1 = labelBytes ls := by
  induction ls with
  | nil => exact absurd rfl hne
  | cons l ls ih =>
    cases ls with
    | nil =>
      rw [intercalate_singleton]
      rfl
    | cons l' ls =>
      rw [intercalate_cons_cons, length_append, length_append]
      have hrest := ih (by simp)
      have hsum : labelBytes (l :: l' :: ls) = l.length + 1 + labelBytes (l' :: ls) := rfl
      rw [hsum, ← hrest, length_singleton]
      omega

theorem length_labels (ls : List Bytes) :
    (ls.flatMap fun l => if l = [] then [] else UInt8.ofNat l.length :: l).length ≤
      labelBytes ls := by
  induction ls with
  | nil => exact Nat.le_refl _
  | cons l ls ih =>
    have hsum : labelBytes (l :: ls) = l.length + 1 + labelBytes ls := rfl
    grind

theorem length_encodeDNN (value : Bytes) : (encodeDNN value).length ≤ value.length + 1 := by
  have hsplit := length_intercalate (splitOn_ne_nil 0x2E value)
  rw [intercalate_splitOn] at hsplit
  rw [hsplit]
  exact length_labels _

theorem labelBytes_dnnLabels {fuel : Nat} (h : dnnLabels fuel v = some ls) :
    labelBytes ls = v.length := by
  induction fuel generalizing v ls with
  | zero =>
    cases v with
    | nil =>
      cases h
      rfl
    | cons b v => cases h
  | succ fuel ih =>
    cases v with
    | nil =>
      cases h
      rfl
    | cons ln rest =>
      unfold dnnLabels at h
      split at h
      · cases h
      case isFalse hln =>
      obtain ⟨ls', hls', rfl⟩ := Option.map_eq_some_iff.1 h
      have hrest := ih hls'
      have hle : ln.toNat ≤ rest.length := Nat.le_of_not_lt fun hlt => hln (.inr hlt)
      have hsum : labelBytes (rest.take ln.toNat :: ls') =
          (rest.take ln.toNat).length + 1 + labelBytes ls' := rfl
      rw [hsum, hrest, length_take_of_le hle, length_drop, length_cons]
      omega

theorem length_decodeDNN {value : Bytes} (h : decodeDNN v = .ok value) :
    (encodeDNN value).length ≤ v.length := by
  unfold decodeDNN at h
  split at h
  · cases h
  case h_2 ls hls =>
  cases h
  have hbytes := labelBytes_dnnLabels hls
  by_cases hne : ls = []
  · rw [hne]
    exact zero_le _
  · rw [← hbytes, ← length_intercalate hne]
    exact length_encodeDNN _

theorem decodeFields_spec {sizes : List Nat} {l : List Bytes} (h : decodeFields sizes v = some l) :
    l.flatten.length = total sizes ∧ total sizes ≤ v.length := by
  induction sizes generalizing v l with
  | nil =>
    cases h
    exact ⟨rfl, zero_le _⟩
  | cons n sizes ih =>
    unfold decodeFields at h
    split at h
    · cases h
    case h_2 f rest hf =>
    obtain ⟨l', hl', rfl⟩ := Option.map_eq_some_iff.1 h
    obtain ⟨hlen, rfl⟩ := takeBytes_eq_some hf
    obtain ⟨hflat, hle⟩ := ih hl'
    rw [flatten_cons, length_append, length_append, hlen, hflat]
    exact ⟨rfl, Nat.add_le_add_left hle n⟩

/-- What is decoded does not encode to more. -/
theorem length_encode_le {t : IETypeDef} {x : Value} (h : t.decodeBytes v = .ok x) :
    (x.encode t.shape).length ≤ v.length := by
  unfold IETypeDef.decodeBytes at h
  split at h
  case h_1 fields hshape =>
    split at h
    · cases h
    · cases h
      rw [hshape]
      exact succ_le_succ (zero_le _)
  case h_2 sizes hshape =>
    split at h
    · cases h
    · split at h
      · cases h
      · case h_2 l hl =>
        cases h
        obtain ⟨hflat, hle⟩ := decodeFields_spec hl
        exact hflat ▸ hle
  case h_3 hshape =>
    split at h
    · cases h
    · cases h
      exact Nat.le_refl _
  case h_4 hshape =>
    cases hid : MobileIdentity5GS.decode v with
    | error => rw [hid] at h; cases h
    | ok id =>
      rw [hid] at h
      cases h
      exact length_decode_identity hid
  case h_5 hshape =>
    cases hdnn : decodeDNN v with
    | error => rw [hdnn] at h; cases h
    | ok value =>
      rw [hdnn] at h
      cases h
      exact length_decodeDNN hdnn
  case h_6 hshape =>
    unfold decodePSIs at h
    split at h
    · cases h
      exact le_add_left 2 _
    · cases h

end MmtCore.Nas
