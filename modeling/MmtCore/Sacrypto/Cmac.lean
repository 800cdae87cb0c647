import MmtCore.Pfcp.Header
import Mathlib.Data.Nat.Bitwise
import Mathlib.Data.List.Induction
import Mathlib.Tactic.Ring

/-!
# AES-CMAC

`sacrypto/cmac.go` and `NIA2` of `sacrypto/nas.go`, over any block cipher; and RFC 4493's
definition of the function, over which the two are the same.
-/

namespace MmtCore.Sacrypto

open List Option Nat

open MmtCore.Pfcp (beNat beBytes length_beBytes beNat_beBytes)

abbrev Bytes := List UInt8

/-- A cipher with its key: what it makes of blocks of 16 octets. -/
structure BlockCipher where
  encrypt : Bytes → Bytes
  length_encrypt (b : Bytes) : (encrypt b).length = 16

variable (c : BlockCipher)

def xorSlice (dst src : Bytes) : Bytes := List.zipWith (· ^^^ ·) dst src

def dbl (x : Bytes) : Bytes :=
  let hi := UInt64.ofNat (beNat (x.take 8))
  let lo := UInt64.ofNat (beNat (x.drop 8))
  let out := beBytes 8 ((hi <<< 1) ||| (lo >>> 63)).toNat ++ beBytes 8 (lo <<< 1).toNat
  if hi >>> 63 = 1 then out.modify 15 (· ^^^ 0x87) else out

def cmacSubkeys : Bytes × Bytes :=
  let k1 := dbl (c.encrypt (List.replicate 16 0))
  (k1, dbl k1)

def padBlock (b : Bytes) : Bytes := (b ++ List.replicate (16 - b.length) 0).set b.length 0x80

/-- The slices of the function: the caller's, and those it makes and writes to. -/
structure Slices where
  msg : Bytes
  mLast : Bytes
  x : Bytes

/-- `CMAC`, with the slices as it leaves them. -/
def CMAC (aes : Bytes → BlockCipher) (key msg : Bytes) (tagLen : Int) : Option (Slices × Bytes) :=
  let tagLen := if tagLen ≤ 0 ∨ tagLen > 16 then 16 else tagLen
  if key.length ∉ [16, 24, 32] then none else
  let c := aes key
  let (k1, k2) := cmacSubkeys c
  let n := (msg.length + 15) / 16
  let s : Slices := ⟨msg, [], List.replicate 16 0⟩
  let (n, s) :=
    if n = 0 then (1, { s with mLast := xorSlice (padBlock []) k2 })
    else if msg.length % 16 = 0 then
      (n, { s with mLast := xorSlice (s.msg.drop ((n - 1) * 16)) k1 })
    else (n, { s with mLast := xorSlice (padBlock (s.msg.drop ((n - 1) * 16))) k2 })
  let s := { s with x := (List.range (n - 1)).foldl (fun x i =>
    c.encrypt (xorSlice x ((s.msg.drop (i * 16)).take 16))) s.x }
  let s := { s with x := xorSlice s.x s.mLast }
  some (s, (c.encrypt s.x).take tagLen.toNat)

/-- `NIA2`: the tag of four octets under the integrity key. -/
def NIA2 (aes : Bytes → BlockCipher) (key : Bytes) (count : UInt32) (bearer dir : UInt8)
    (data : Bytes) : Option Bytes :=
  if key.length ≠ 16 ∨ bearer > 0x1F ∨ dir > 1 then none else
  let hdr := beBytes 4 count.toNat ++ [(bearer &&& 0x1F) <<< 3 ||| (dir &&& 0x01) <<< 2, 0, 0, 0]
  (CMAC aes key (hdr ++ data) 4).map Prod.snd

/-! ## The function of RFC 4493 -/

/-- Doubling in the field of `2^128` elements, whose elements are polynomials with the bits of a
number as their coefficients: `x^128` is `x^7 + x^2 + x + 1`. -/
def double (v : Nat) : Nat := if 2 * v < 2 ^ 128 then 2 * v else (2 * v - 2 ^ 128) ^^^ 0x87

/-- The first subkey as a number. -/
def subkey : Nat := double (beNat (c.encrypt (beBytes 16 0)))

/-- The last block: masked with the first subkey when it is whole, otherwise padded with a one bit
and zeros and masked with the second. -/
def lastBlock (m : Bytes) : Bytes :=
  if m.length = 16 then xorSlice m (beBytes 16 (subkey c))
  else xorSlice (m ++ 0x80 :: List.replicate (15 - m.length) 0)
    (beBytes 16 (double (subkey c)))

/-- The encryption of the blocks of a message, each chained to the one before. -/
def chain (x m : Bytes) : Bytes :=
  if 16 < m.length then chain (c.encrypt (xorSlice x (m.take 16))) (m.drop 16)
  else c.encrypt (xorSlice x (lastBlock c m))
termination_by m.length

def rfc4493 (m : Bytes) : Bytes := chain c (beBytes 16 0) m

/-! ## Doubling -/

theorem beBytes_add (m n v : Nat) : beBytes (m + n) v = beBytes m (v / 256 ^ n) ++ beBytes n v := by
  induction n generalizing v with
  | zero => simp [beBytes]
  | succ n ih =>
    rw [← Nat.add_assoc, beBytes, ih, beBytes, List.append_assoc, Nat.div_div_eq_div_mul,
      pow_succ, mul_comm 256]

theorem beBytes_mod (n v : Nat) : beBytes n (v % 256 ^ n) = beBytes n v := by
  induction n generalizing v with
  | zero => rfl
  | succ n ih =>
    rw [beBytes, beBytes, pow_succ, mod_mul_left_div_self, ih]
    congr 2
    simp [← UInt8.toNat_inj]

theorem beBytes_xor (n v w : Nat) :
    beBytes n (v ^^^ w) = List.zipWith (· ^^^ ·) (beBytes n v) (beBytes n w) := by
  induction n generalizing v w with
  | zero => rfl
  | succ n ih =>
    rw [beBytes, beBytes, beBytes, zipWith_append (by simp [length_beBytes]), ← ih]
    simp [xor_div_two_pow (n := 8)]

theorem beNat_append (a b : Bytes) : beNat (a ++ b) = beNat a * 256 ^ b.length + beNat b := by
  induction b using reverseRecOn with
  | nil => simp [beNat]
  | append_singleton b d ih =>
    have hsnoc (l : Bytes) : beNat (l ++ [d]) = beNat l * 256 + d.toNat := by simp [beNat]
    rw [← append_assoc, hsnoc, hsnoc, ih, length_append, length_singleton]
    ring

theorem beNat_lt (b : Bytes) : beNat b < 256 ^ b.length := by
  induction b using reverseRecOn with
  | nil => simp [beNat]
  | append_singleton b d ih =>
    rw [beNat_append, length_append, length_singleton, pow_succ]
    have := d.toNat_lt
    simp only [beNat, foldl_cons, foldl_nil]
    simp only [beNat] at ih
    omega

theorem double_lt {v : Nat} (h : v < 2 ^ 128) : double v < 2 ^ 128 := by
  unfold double
  split
  · assumption
  · exact xor_lt_two_pow (by omega) (by decide)

theorem dbl_eq {x : Bytes} (hx : x.length = 16) : dbl x = beBytes 16 (double (beNat x)) := by
  have hv := beNat_append (x.take 8) (x.drop 8)
  have hh := beNat_lt (x.take 8)
  have hl := beNat_lt (x.drop 8)
  simp only [take_append_drop, length_drop, length_take, hx,
    show min 8 16 = 8 from rfl] at hv hh hl
  unfold dbl double
  dsimp only
  generalize beNat x = v at *
  generalize beNat (x.take 8) = h at *
  generalize beNat (x.drop 8) = l at *
  norm_num at hv hh hl
  -- The halves of twice the number.
  have hhi : ((UInt64.ofNat h <<< 1) ||| (UInt64.ofNat l >>> 63)).toNat =
      2 * v / 256 ^ 8 % 256 ^ 8 := by
    have hor := two_pow_add_eq_or_of_lt (b := l / 2 ^ 63) (i := 1) (by omega) (h % 2 ^ 63)
    simp [shiftLeft_eq, shiftRight_eq_div_pow, mod_eq_of_lt hh, mod_eq_of_lt hl]
    norm_num at hor
    rw [show h * 2 % 18446744073709551616 = 2 * (h % 9223372036854775808) by omega, ← hor]
    omega
  have hlo : (UInt64.ofNat l <<< 1).toNat = 2 * v % 256 ^ 8 := by
    simp [shiftLeft_eq]
    omega
  have hmsb : UInt64.ofNat h >>> 63 = 1 ↔ ¬ 2 * v < 2 ^ 128 := by
    simp [← UInt64.toNat_inj, Nat.shiftRight_eq_div_pow, Nat.mod_eq_of_lt hh]
    omega
  rw [hhi, hlo, beBytes_mod, beBytes_mod, ← beBytes_add 8 8 (2 * v)]
  simp only [hmsb]
  by_cases hc : 2 * v < 2 ^ 128
  · rw [if_neg (not_not.mpr hc), if_pos hc]
  · have hmod : (2 * v - 2 ^ 128) % 256 ^ 16 = 2 * v % 256 ^ 16 := by omega
    rw [if_pos hc, if_neg hc, beBytes_xor, ← beBytes_mod 16 (2 * v - _), hmod, beBytes_mod]
    have hlen := length_beBytes 16 (2 * v)
    match hb : beBytes 16 (2 * v), hlen with
    | [_, _, _, _, _, _, _, _, _, _, _, _, _, _, _, _], _ => simp [List.modify, beBytes]

/-! ## The loop -/

theorem length_xorSlice {a b : Bytes} (ha : a.length = 16) (hb : b.length = 16) :
    (xorSlice a b).length = 16 := by simp [xorSlice, ha, hb]

theorem padBlock_eq {b : Bytes} (hb : b.length < 16) :
    padBlock b = b ++ 0x80 :: List.replicate (15 - b.length) 0 := by
  obtain ⟨k, hk⟩ : ∃ k, 16 - b.length = k + 1 := ⟨15 - b.length, by omega⟩
  rw [padBlock, hk, List.replicate_succ, List.set_append_right _ _ le_rfl, Nat.sub_self,
    show 15 - b.length = k by omega]
  rfl

/-- The blocks before the last, in the loop over the message and in the chain. -/
theorem chain_eq (k : Nat) (x m : Bytes) (hlo : 16 * k < m.length ∨ k = 0)
    (hhi : m.length ≤ 16 * (k + 1)) :
    chain c x m = c.encrypt (xorSlice ((List.range k).foldl
      (fun x i => c.encrypt (xorSlice x ((m.drop (i * 16)).take 16))) x)
      (lastBlock c (m.drop (16 * k)))) := by
  induction k generalizing x m with
  | zero => rw [chain, if_neg (by omega)]; rfl
  | succ k ih =>
    rw [chain, if_pos (by omega), ih _ _ (by simp; omega) (by simp; omega)]
    rw [range_succ_eq_map, foldl_cons, foldl_map, drop_drop]
    simp [add_mul, mul_add, add_comm]

theorem cmacSubkeys_eq : cmacSubkeys c =
    (beBytes 16 (subkey c), beBytes 16 (double (subkey c))) := by
  have hl := beNat_lt (c.encrypt (beBytes 16 0))
  rw [c.length_encrypt] at hl
  have hk1 : dbl (c.encrypt (replicate 16 0)) = beBytes 16 (subkey c) :=
    dbl_eq (c.length_encrypt _)
  rw [cmacSubkeys, hk1, dbl_eq (length_beBytes _ _), beNat_beBytes,
    show subkey c % 256 ^ 16 = subkey c from mod_eq_of_lt (double_lt hl)]

variable {aes : Bytes → BlockCipher}

/-- The message as the function leaves it, and the tag. -/
theorem CMAC_eq {key : Bytes} (hkey : key.length ∈ [16, 24, 32]) (msg : Bytes) {tagLen : Nat}
    (hpos : 1 ≤ tagLen) (hle : tagLen ≤ 16) :
    (CMAC aes key msg tagLen).map (fun r => (r.1.msg, r.2)) =
      some (msg, (rfc4493 (aes key) msg).take tagLen) := by
  have htag : ¬ ((tagLen : Int) ≤ 0 ∨ (tagLen : Int) > 16) := by omega
  have hchain := chain_eq (aes key) ((msg.length + 15) / 16 - 1) (beBytes 16 0) msg (by omega)
    (by omega)
  have hz : beBytes 16 0 = replicate 16 0 := by decide
  rw [rfc4493, hchain, hz, mul_comm 16, lastBlock]
  simp only [CMAC, htag, if_false, hkey, not_true_eq_false, cmacSubkeys_eq, Int.toNat_natCast]
  split
  · obtain rfl : msg = [] := eq_nil_of_length_eq_zero (by omega)
    rw [padBlock_eq (by decide)]
    rfl
  · split
    · have hlen : (msg.drop (((msg.length + 15) / 16 - 1) * 16)).length = 16 := by simp; omega
      rw [if_pos hlen]
      rfl
    · have hlen : (msg.drop (((msg.length + 15) / 16 - 1) * 16)).length < 16 := by simp; omega
      rw [if_neg hlen.ne, padBlock_eq hlen]
      rfl

/-- The header of `NIA2`: the count, five bits of bearer, one of direction and 26 zeros. -/
theorem header_eq (count : UInt32) {bearer dir : UInt8} (hb : bearer ≤ 31) (hd : dir ≤ 1) :
    beBytes 4 count.toNat ++ [(bearer &&& 0x1F) <<< 3 ||| (dir &&& 0x01) <<< 2, 0, 0, 0] =
      beBytes 8 (count.toNat * 2 ^ 32 + bearer.toNat * 2 ^ 27 + dir.toNat * 2 ^ 26) := by
  have hbits : ∀ b : Fin 32, ∀ d : Fin 2,
      (UInt8.ofNat b &&& 0x1F) <<< 3 ||| (UInt8.ofNat d &&& 0x01) <<< 2 =
        UInt8.ofNat (b * 8 + d * 4) := by decide
  have hoct := hbits ⟨bearer.toNat, lt_succ_of_le hb⟩ ⟨dir.toNat, lt_succ_of_le hd⟩
  simp only [UInt8.ofNat_toNat] at hoct
  have hdir : dir.toNat ≤ 1 := hd
  have hbearer : bearer.toNat ≤ 31 := hb
  rw [hoct, beBytes_add 4 4, show (count.toNat * 2 ^ 32 + bearer.toNat * 2 ^ 27 +
    dir.toNat * 2 ^ 26) / 256 ^ 4 = count.toNat by omega]
  congr 1
  simp [beBytes, ← UInt8.toNat_inj]
  omega

/-- For any block cipher, the tag of a message is the leading octets of RFC 4493's, of which the
caller's message is left as it was; and a NAS MAC is the tag of the count, the bearer, the
direction, 26 zero bits and the message. -/
theorem cmac_is_rfc4493 (aes : Bytes → BlockCipher) :
    (∀ key msg : Bytes, key.length ∈ [16, 24, 32] → ∀ tagLen : Nat, 1 ≤ tagLen → tagLen ≤ 16 →
      (CMAC aes key msg tagLen).map (fun r => (r.1.msg, r.2)) =
        some (msg, (rfc4493 (aes key) msg).take tagLen)) ∧
    ∀ (key : Bytes) (count : UInt32) (bearer dir : UInt8) (data : Bytes), key.length = 16 →
      bearer ≤ 31 → dir ≤ 1 → NIA2 aes key count bearer dir data =
        some ((rfc4493 (aes key) (beBytes 8 (count.toNat * 2 ^ 32 + bearer.toNat * 2 ^ 27 +
          dir.toNat * 2 ^ 26) ++ data)).take 4) := by
  refine ⟨fun key msg hkey tagLen hpos hle => CMAC_eq hkey msg hpos hle, ?_⟩
  intro key count bearer dir data hkey hb hd
  have hcmac := @CMAC_eq aes key (by simp [hkey])
    (beBytes 8 (count.toNat * 2 ^ 32 + bearer.toNat * 2 ^ 27 + dir.toNat * 2 ^ 26) ++ data)
    4 (by decide) (by decide)
  have hno : ¬ (key.length ≠ 16 ∨ bearer > 0x1F ∨ dir > 1) := by
    simp only [not_or, not_not]
    exact ⟨hkey, UInt8.not_lt.mpr hb, UInt8.not_lt.mpr hd⟩
  rw [NIA2, if_neg hno]
  dsimp only
  rw [header_eq count hb hd]
  obtain ⟨r, hr, heq⟩ := map_eq_some_iff.mp hcmac
  rw [show (4 : Int) = ((4 : Nat) : Int) from rfl, hr, map_some, (Prod.ext_iff.mp heq).2]

/-- AES under the key of the RFC's examples, on the three blocks that come up below. -/
def exampleAES (_ : Bytes) : BlockCipher where
  encrypt b := beBytes 16 <|
    if beNat b = 0 then 0x7df76b0c1ab899b33e42f047b91b546f
    else if beNat b = 0x902f68fa1b31acf095b89e9e01a5bff4 then 0x070a16b46b4d4144f79bdd9dd04a287c
    else 0x0f9a653b8b30e8946abc5149767c4548
  length_encrypt _ := length_beBytes 16 _

def exampleKey : Bytes := beBytes 16 0x2b7e151628aed2a6abf7158809cf4f3c

def exampleBlock : Bytes := beBytes 16 0x6bc1bee22e409f96e93d7e117393172a

theorem cmac_is_rfc4493_example :
    (rfc4493 (exampleAES exampleKey) exampleBlock).take 16 =
        beBytes 16 0x070a16b46b4d4144f79bdd9dd04a287c ∧
      (rfc4493 (exampleAES exampleKey) (beBytes 8 (2 ^ 27))).take 4 = beBytes 4 0x0f9a653b := by
  obtain ⟨hcmac, hnia⟩ := cmac_is_rfc4493 exampleAES
  have h := hcmac exampleKey exampleBlock (by decide) 16 (by decide) (by decide)
  have hn := hnia exampleKey 0 1 0 [] rfl (by decide) (by decide)
  have hrun : (CMAC exampleAES exampleKey exampleBlock 16).map (fun r => (r.1.msg, r.2)) =
      some (exampleBlock, beBytes 16 0x070a16b46b4d4144f79bdd9dd04a287c) := by decide
  have hrun' : NIA2 exampleAES exampleKey 0 1 0 [] = some (beBytes 4 0x0f9a653b) := by
    decide
  exact ⟨(Prod.mk.inj (some.inj (h.symm.trans hrun))).2,
    some.inj (hn.symm.trans hrun')⟩

end MmtCore.Sacrypto
