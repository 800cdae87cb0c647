import MmtCore.N3iwf.Crypto
import MmtCore.Sacrypto.Cmac
import Mathlib.Data.Nat.Size
import Mathlib.FieldTheory.Finite.Basic
import Mathlib.Tactic.NormNum.Prime

/-!
# ECIES

The concealment of a subscriber's identity and back (`sacrypto/ecies.go`), over the curves of the
`ecdh` package, and the points of P-256 in their compressed form.
-/

namespace MmtCore.Sacrypto

open List Option ZMod Nat Int

open MmtCore.Pfcp (beNat beBytes length_beBytes beNat_beBytes_of_lt)
open MmtCore.N3iwf (expMod)

/-! ## Primes from the orders of elements -/

theorem expMod_eq (b m bits e : Nat) (he : e < 2 ^ bits) : expMod b m bits e = b ^ e % m := by
  induction bits generalizing e with
  | zero =>
    obtain rfl : e = 0 := by simpa using he
    rfl
  | succ bits ih =>
    have hhalf := ih (e / 2) (by rw [pow_succ] at he; omega)
    have hsq : b ^ (e / 2) % m * (b ^ (e / 2) % m) % m = b ^ (2 * (e / 2)) % m := by
      rw [← mul_mod, ← pow_add, two_mul]
    simp only [expMod, hhalf, hsq]
    split
    · rw [mod_mul_mod, ← pow_succ, show 2 * (e / 2) + 1 = e by omega]
    · rw [show 2 * (e / 2) = e by omega]

/-- A prime that divides `n - 1` divides the order of an element whose power does not vanish. -/
theorem dvd_orderOf {G : Type} [Monoid G] {x : G} {n s : Nat} (hs : s.Prime) (hdvd : s ∣ n)
    (hfull : x ^ n = 1) (hpart : x ^ (n / s) ≠ 1) : s ∣ orderOf x := by
  by_contra hnot
  obtain ⟨k, hk⟩ := orderOf_dvd_of_pow_eq_one hfull
  obtain ⟨j, rfl⟩ := (hs.dvd_mul.mp (hk ▸ hdvd)).resolve_left hnot
  refine hpart (orderOf_dvd_iff_pow_eq_one.mp ⟨j, ?_⟩)
  rw [hk, Nat.mul_left_comm, Nat.mul_div_cancel_left _ hs.pos]

/-- A number is prime when the orders of an element have two of the prime factors of the number
before, whose product is above the square root. -/
theorem prime_of_orders {n q r : Nat} (a bits : Nat) (hq : q.Prime) (hr : r.Prime)
    (h : n < 2 ^ bits ∧ 1 < n ∧ Nat.Coprime q r ∧ q * r ∣ n - 1 ∧ n < q * r * (q * r) ∧
      expMod a n bits (n - 1) = 1 ∧ ∀ s ∈ [q, r], (expMod a n bits ((n - 1) / s) - 1).Coprime n) :
    n.Prime := by
  obtain ⟨hbits, hn, hqr, hdvd, hlt, hfull, hpart⟩ := h
  by_contra hnot
  have hp : n.minFac.Prime := minFac_prime hn.ne'
  have := Fact.mk hp
  have hsq := minFac_sq_le_self (by omega) hnot
  have hpow (e : Nat) (he : e ≤ n - 1) :
      ((expMod a n bits e : Nat) : ZMod n.minFac) = (a : ZMod n.minFac) ^ e := by
    rw [expMod_eq _ _ _ _ (by omega), ← Nat.cast_pow]
    exact (natCast_eq_natCast_iff' _ _ _).mpr (mod_mod_of_dvd _ n.minFac_dvd)
  have hone : (a : ZMod n.minFac) ^ (n - 1) = 1 := by
    rw [← hpow _ le_rfl, hfull, Nat.cast_one]
  have horder (s : Nat) (hs : s.Prime) (hmem : s ∈ [q, r]) (hsd : s ∣ n - 1) :
      s ∣ orderOf (a : ZMod n.minFac) := by
    refine dvd_orderOf hs hsd hone fun heq => ?_
    rw [← hpow _ (div_le_self ..)] at heq
    have hcop := hpart s hmem
    generalize expMod a n bits ((n - 1) / s) = x at heq hcop
    have hx : x ≠ 0 := by
      rintro rfl
      simp at heq
    have hdiv : n.minFac ∣ x - 1 := by
      rw [← ZMod.natCast_eq_zero_iff, Nat.cast_sub (by omega), heq, Nat.cast_one, sub_self]
    exact hp.one_lt.ne' (eq_one_of_dvd_coprimes hcop hdiv n.minFac_dvd)
  have hne : (a : ZMod n.minFac) ≠ 0 := by
    intro hz
    rw [hz, zero_pow (by omega)] at hone
    exact zero_ne_one hone
  have hle := le_of_dvd (by have := hp.one_lt; omega) ((hqr.mul_dvd_of_dvd_of_dvd
    (horder q hq (by simp) (dvd_of_mul_right_dvd hdvd))
    (horder r hr (by simp) (dvd_of_mul_left_dvd hdvd))).trans (orderOf_dvd_card_sub_one hne))
  have hlow : q * r < n.minFac := by have := hp.one_lt; omega
  have := Nat.mul_lt_mul'' hlow hlow
  rw [sq] at hsq
  omega

def p256P : Nat := 0xFFFFFFFF00000001000000000000000000000000FFFFFFFFFFFFFFFFFFFFFFFF

theorem p256P_prime : p256P.Prime := by
  have h₁ : Nat.Prime 66417393611 :=
    prime_of_orders 2 37 (q := 3677) (r := 197) (by norm_num) (by norm_num) (by decide)
  have h₂ : Nat.Prime 11290956913871 :=
    prime_of_orders 13 44 h₁ prime_two (by decide +kernel)
  have h₃ : Nat.Prime 46076956964474543 :=
    prime_of_orders 2 56 (q := 704251) (r := 78283) (by norm_num) (by norm_num)
      (by decide +kernel)
  have h₄ : Nat.Prime 774023187263532362759620327192479577272145303 :=
    prime_of_orders 2 150 h₃ h₂ (by decide +kernel)
  have h₅ : Nat.Prime 835945042244614951780389953367877943453916927241 :=
    prime_of_orders 7 160 h₄ prime_two (by decide +kernel)
  exact prime_of_orders 3 256 h₅ prime_two (by decide +kernel)

/-! ## Concealment -/

/-- The functions of the standard library on octets: a hash, HMAC over it, and AES on a block, key
first. -/
structure Ciphers where
  sha256 : Bytes → Bytes
  hmacSHA256 : Bytes → Bytes → Bytes
  aes : Bytes → Bytes → Bytes

/-- A curve of the `ecdh` package, where exchanging keys commutes. -/
structure Ecdh where
  Priv : Type
  Pub : Type
  publicKey : Priv → Pub
  bytes : Pub → Bytes
  newPublicKey : Bytes → Option Pub
  ecdh : Priv → Pub → Option Bytes
  newPublicKey_bytes (k : Pub) : newPublicKey (bytes k) = some k
  ecdh_comm (a b : Priv) : ecdh a (publicKey b) = ecdh b (publicKey a)

/-- A profile: a curve, and how its public keys are read and written. -/
structure Profile where
  curve : Ecdh
  parse : Bytes → Option curve.Pub
  encode : curve.Pub → Bytes

variable (C : Ciphers)

def kdfLoop (sharedInfo sharedKey : Bytes) (length : Nat) : Nat → Nat → Bytes → Bytes
  | 0, _, out => out
  | fuel + 1, counter, out =>
    if out.length < length then
      kdfLoop sharedInfo sharedKey length fuel (counter + 1)
        (out ++ C.sha256 (sharedKey ++ beBytes 4 counter ++ sharedInfo))
    else out

def x963KDF (sharedInfo sharedKey : Bytes) (length : Nat) : Bytes :=
  (kdfLoop C sharedInfo sharedKey length length 1 []).take length

/-- AES in counter mode, from the block `iv` on. -/
def ctr (key iv data : Bytes) : Bytes :=
  data.mapIdx fun i b => b ^^^ (C.aes key (beBytes 16 (beNat iv + i / 16))).getD (i % 16) 0

/-- The nonce and the counter of a key block. -/
def ctrIV (sk : Bytes) : Bytes :=
  (sk.drop 16).take 8 ++ beBytes 8 (beNat ((sk.drop 24).take 8))

def eciesTag (sk ciphertext : Bytes) : Bytes :=
  (C.hmacSHA256 ((sk.drop 32).take 32) ciphertext).take 8

def eciesEncrypt (sk plaintext : Bytes) : Bytes × Bytes :=
  let ct := ctr C (sk.take 16) (ctrIV sk) plaintext
  (ct, eciesTag C sk ct)

def eciesDecrypt (sk ciphertext macTag : Bytes) : Option Bytes :=
  if eciesTag C sk ciphertext ≠ macTag then none
  else some (ctr C (sk.take 16) (ctrIV sk) ciphertext)

/-- `Protect`, with the ephemeral key that is drawn: its public key, the ciphertext and the tag. -/
def Profile.protect (p : Profile) (eph : Option p.curve.Priv) (hnPubKey plaintext : Bytes) :
    Option (Bytes × Bytes × Bytes) := do
  let hnPub ← p.parse hnPubKey
  let ephPriv ← eph
  let shared ← p.curve.ecdh ephPriv hnPub
  let ephPub := p.encode (p.curve.publicKey ephPriv)
  some (ephPub, eciesEncrypt C (x963KDF C ephPub shared 64) plaintext)

/-- `Unprotect`, with the private key of the home network. -/
def Profile.unprotect (p : Profile) (privKey : Option p.curve.Priv)
    (uePubKey ciphertext macTag : Bytes) : Option Bytes := do
  let priv ← privKey
  let uePub ← p.parse uePubKey
  let shared ← p.curve.ecdh priv uePub
  eciesDecrypt C (x963KDF C uePubKey shared 64) ciphertext macTag

theorem ctr_ctr (key iv data : Bytes) : ctr C key iv (ctr C key iv data) = data := by
  refine List.ext_getElem (by simp [ctr]) fun i _ _ => ?_
  simp [ctr, UInt8.xor_assoc]

theorem eciesDecrypt_eciesEncrypt (sk plaintext tag : Bytes) :
    eciesDecrypt C sk (eciesEncrypt C sk plaintext).1 tag =
      if tag = (eciesEncrypt C sk plaintext).2 then some plaintext else none := by
  by_cases h : tag = (eciesEncrypt C sk plaintext).2
  · rw [if_pos h, h]
    exact (if_neg (not_not.mpr rfl)).trans (congrArg some (ctr_ctr C ..))
  · rw [if_neg h]
    exact if_pos (Ne.symm h)

variable {C}

/-- What was protected for a key pair is read with its tag and with no other. -/
theorem Profile.unprotect_protect {p : Profile} (hback : ∀ k, p.parse (p.encode k) = some k)
    {hn eph : p.curve.Priv} {hnPubKey plaintext ephPub ct tag : Bytes}
    (hpub : p.parse hnPubKey = some (p.curve.publicKey hn))
    (h : p.protect C (some eph) hnPubKey plaintext = some (ephPub, ct, tag)) (tag' : Bytes) :
    p.unprotect C (some hn) ephPub ct tag' = if tag' = tag then some plaintext else none := by
  unfold Profile.protect at h
  rw [hpub] at h
  simp only [bind_eq_bind, bind_some, bind_eq_some_iff, some.injEq] at h
  obtain ⟨shared, hshared, heq⟩ := h
  obtain ⟨rfl, hpair⟩ := Prod.mk.inj heq
  have hdec := eciesDecrypt_eciesEncrypt C
    (x963KDF C (p.encode (p.curve.publicKey eph)) shared 64) plaintext tag'
  rw [hpair] at hdec
  simp [Profile.unprotect, hback, ← p.curve.ecdh_comm eph hn, hshared, hdec]

/-! ## The points of P-256 -/

def p256B : Nat := 0x5AC635D8AA3A93E7B3EBBD55769886BC651D06B0CC53B0F63BCE3C3E27D2604B

/-- `y^2` of the curve at an abscissa, as `decompressP256` computes it. -/
def p256Y2 (x : Nat) : Nat :=
  (((x * x * x % p256P : Nat) - (3 * x % p256P : Nat) + p256B : Int) % p256P).toNat

/-- `Bytes` of a big integer: no zeros in front. -/
def bigBytes (n : Nat) : Bytes := beBytes ((Nat.size n + 7) / 8) n

/-- Octets copied to the end of 32 zeros. -/
def copyEnd (b : Bytes) : Bytes := List.replicate (32 - b.length) 0 ++ b

def decompressP256 (compressed : Bytes) : Option Bytes :=
  if compressed.length ≠ 33 ∨ (compressed.getD 0 0 ≠ 0x02 ∧ compressed.getD 0 0 ≠ 0x03) then none
  else
    let x := beNat (compressed.drop 1)
    let y2 := p256Y2 x
    let y := expMod y2 p256P 256 ((p256P + 1) / 4)
    let y := if y % 2 ≠ (compressed.getD 0 0 &&& 1).toNat then p256P - y else y
    if y * y % p256P ≠ y2 then none
    else some (0x04 :: (copyEnd (bigBytes x) ++ copyEnd (bigBytes y)))

/-- P-256 in the `ecdh` package: a public key is a point of the curve with its coordinates below
the prime, read from and written as two coordinates of 32 octets. -/
structure P256 extends Ecdh where
  x : Pub → Nat
  y : Pub → Nat
  x_lt (k : Pub) : x k < p256P
  y_lt (k : Pub) : y k < p256P
  onCurve (k : Pub) : (y k : ZMod p256P) ^ 2 = (x k : ZMod p256P) ^ 3 - 3 * x k + p256B
  bytes_eq (k : Pub) : bytes k = 0x04 :: (beBytes 32 (x k) ++ beBytes 32 (y k))
  bytes_of_new {data : Bytes} {k : Pub} : newPublicKey data = some k → bytes k = data

variable (E : P256)

def parseP256PubKey (data : Bytes) : Option E.Pub :=
  if data.length = 33 then (decompressP256 data).bind E.newPublicKey else E.newPublicKey data

def compressP256 (pub : E.Pub) : Bytes :=
  let raw := E.bytes pub
  let x := (raw.drop 1).take 32
  let y := (raw.drop 33).take 32
  (if y.getD 31 0 &&& 1 ≠ 0 then 0x03 else 0x02) :: x

def profileA (curve : Ecdh) : Profile := ⟨curve, curve.newPublicKey, curve.bytes⟩

def profileB : Profile := ⟨E.toEcdh, parseP256PubKey E, compressP256 E⟩

instance : Fact p256P.Prime := ⟨p256P_prime⟩

theorem p256Y2_spec (x : Nat) : p256Y2 x < p256P ∧
    (p256Y2 x : ZMod p256P) = (x : ZMod p256P) ^ 3 - 3 * x + p256B := by
  have hpos : (0 : Int) < p256P := by decide
  have hnn := emod_nonneg ((x * x * x % p256P : Nat) - (3 * x % p256P : Nat) + p256B : Int)
    hpos.ne'
  have hlt := emod_lt_of_pos ((x * x * x % p256P : Nat) - (3 * x % p256P : Nat) + p256B : Int)
    hpos
  refine ⟨by unfold p256Y2; omega, ?_⟩
  have hcast : ((p256Y2 x : Int) : ZMod p256P) = (x : ZMod p256P) ^ 3 - 3 * x + p256B := by
    rw [p256Y2, toNat_of_nonneg hnn, intCast_mod]
    push_cast
    ring
  exact_mod_cast hcast

/-- Two numbers below the prime with the same square and the same parity. -/
theorem eq_of_sq {a b : Nat} (ha : a < p256P) (hb : b < p256P)
    (hsq : (a : ZMod p256P) ^ 2 = (b : ZMod p256P) ^ 2) (hpar : a % 2 = b % 2) : a = b := by
  have hodd : p256P % 2 = 1 := by decide
  rcases sq_eq_sq_iff_eq_or_eq_neg.mp hsq with heq | heq
  · have hmod := (natCast_eq_natCast_iff' a b p256P).mp heq
    rwa [mod_eq_of_lt ha, mod_eq_of_lt hb] at hmod
  · rw [eq_neg_iff_add_eq_zero, ← Nat.cast_add, ZMod.natCast_eq_zero_iff] at heq
    obtain ⟨k, hk⟩ := heq
    have hk2 : k < 2 := by
      by_contra hle
      have := Nat.mul_le_mul_left p256P (Nat.le_of_not_lt hle)
      omega
    interval_cases k <;> omega

/-- The square root that is computed, where there is one. -/
theorem root_sq {x y : Nat} (h : (y : ZMod p256P) ^ 2 = (x : ZMod p256P) ^ 3 - 3 * x + p256B) :
    ((expMod (p256Y2 x) p256P 256 ((p256P + 1) / 4) : Nat) : ZMod p256P) ^ 2 =
      (y : ZMod p256P) ^ 2 := by
  have hexp : (p256P + 1) / 4 * 4 = p256P + 1 := by decide
  rw [expMod_eq _ _ _ _ (by decide), ZMod.natCast_mod, Nat.cast_pow, (p256Y2_spec x).2, ← h,
    ← pow_mul, ← pow_mul, show 2 * ((p256P + 1) / 4 * 2) = (p256P + 1) / 4 * 4 by ring, hexp,
    pow_succ, pow_card, sq]

theorem beBytes_zero (n : Nat) : beBytes n 0 = List.replicate n 0 := by
  induction n with
  | zero => rfl
  | succ n ih => rw [beBytes, Nat.zero_div, ih, List.replicate_succ']; rfl

theorem copyEnd_bigBytes {n : Nat} (h : n < 256 ^ 32) : copyEnd (bigBytes n) = beBytes 32 n := by
  have hsize : size n ≤ 256 := size_le.mpr h
  have hlow : n < 256 ^ ((size n + 7) / 8) := by
    rw [show 256 = 2 ^ 8 from rfl, ← pow_mul]
    exact Nat.lt_of_lt_of_le (Nat.lt_size_self n) (Nat.pow_le_pow_right (by decide) (by omega))
  obtain ⟨m, hm⟩ : ∃ m, 32 = m + (size n + 7) / 8 := ⟨32 - (size n + 7) / 8, by omega⟩
  rw [copyEnd, bigBytes, length_beBytes, show 32 - (size n + 7) / 8 = m by omega,
    ← beBytes_zero, hm, beBytes_add, div_eq_of_lt hlow]

variable {E}

theorem compressP256_eq (k : E.Pub) :
    compressP256 E k = (if E.y k % 2 = 1 then 0x03 else 0x02) :: beBytes 32 (E.x k) := by
  have hlast : (beBytes 32 (E.y k)).getD 31 0 = UInt8.ofNat (E.y k) := by
    rw [beBytes, List.getD_eq_getElem?_getD, List.getElem?_append_right (by simp)]
    simp
  have hbit : UInt8.ofNat (E.y k) &&& 1 ≠ 0 ↔ E.y k % 2 = 1 := by
    rw [ne_eq, ← UInt8.toNat_inj, UInt8.toNat_and]
    simp [and_one_is_mod]
  have hx : ((E.bytes k).drop 1).take 32 = beBytes 32 (E.x k) := by simp [E.bytes_eq]
  have hy : ((E.bytes k).drop 33).take 32 = beBytes 32 (E.y k) := by
    simp [E.bytes_eq]
  simp only [compressP256, hx, hy, hlast, hbit]

/-- The root of the parity asked for. -/
theorem parity_fixed {r bit : Nat} (hr : r < p256P) (hbit : bit < 2) :
    (if r % 2 ≠ bit then p256P - r else r) % 2 = bit ∧
      (if r % 2 ≠ bit then p256P - r else r) ≤ p256P ∧
      ((if r % 2 ≠ bit then p256P - r else r : Nat) : ZMod p256P) ^ 2 = (r : ZMod p256P) ^ 2 := by
  have hodd : p256P % 2 = 1 := by decide
  split
  · refine ⟨by omega, sub_le .., ?_⟩
    rw [Nat.cast_sub hr.le, ZMod.natCast_self, zero_sub, neg_sq]
  · exact ⟨by omega, hr.le, rfl⟩

/-- What decompression answers: the abscissa with the root of the parity. -/
theorem decompressP256_eq {c out : Bytes} (h : decompressP256 c = some out) :
    ∃ y, y ≤ p256P ∧ out = 0x04 :: (beBytes 32 (beNat (c.drop 1)) ++ beBytes 32 y) ∧
      y % 2 = (c.getD 0 0 &&& 1).toNat := by
  unfold decompressP256 at h
  split at h
  · cases h
  rename_i hguard
  dsimp only at h
  have hr : expMod (p256Y2 (beNat (c.drop 1))) p256P 256 ((p256P + 1) / 4) < p256P := by
    rw [expMod_eq _ _ _ _ (by decide)]
    exact mod_lt _ (by decide)
  have hbit : (c.getD 0 0 &&& 1).toNat < 2 := by
    rw [UInt8.toNat_and]
    exact lt_succ_of_le and_le_right
  obtain ⟨hpar, hle, -⟩ := parity_fixed hr hbit
  generalize (if _ ≠ (c.getD 0 0 &&& 1).toNat then p256P - _ else _) = y at h hpar hle
  split at h
  · cases h
  have hx : beNat (c.drop 1) < 256 ^ 32 := by
    have := beNat_lt (c.drop 1)
    rwa [length_drop, show c.length = 33 by omega] at this
  rw [copyEnd_bigBytes hx, copyEnd_bigBytes (lt_of_le_of_lt hle (by decide))] at h
  exact ⟨y, hle, (some.inj h).symm, hpar⟩

theorem decompressP256_compressP256 (k : E.Pub) :
    decompressP256 (compressP256 E k) = some (E.bytes k) := by
  have hx : E.x k < 256 ^ 32 := lt_trans (E.x_lt k) (by decide)
  have hy : E.y k < 256 ^ 32 := lt_trans (E.y_lt k) (by decide)
  have hroot := root_sq (E.onCurve k)
  have hr : expMod (p256Y2 (E.x k)) p256P 256 ((p256P + 1) / 4) < p256P := by
    rw [expMod_eq _ _ _ _ (by decide)]
    exact mod_lt _ (by decide)
  obtain ⟨c, hc, hc23, hbit⟩ : ∃ c : UInt8, (if E.y k % 2 = 1 then 0x03 else 0x02) = c ∧
      (c = 2 ∨ c = 3) ∧ (c &&& 1).toNat = E.y k % 2 := by
    refine ⟨_, rfl, ?_⟩
    rcases mod_two_eq_zero_or_one (E.y k) with h | h <;> simp [h]
  obtain ⟨hpar, hle, hsq⟩ := parity_fixed hr (mod_lt (E.y k) (by decide : 2 > 0))
  rw [compressP256_eq, hc, decompressP256,
    if_neg (by rcases hc23 with rfl | rfl <;> simp)]
  simp only [getD_cons_zero, drop_one, tail_cons, beNat_beBytes_of_lt hx, hbit]
  generalize (if _ ≠ E.y k % 2 then p256P - _ else _) = y at *
  obtain rfl : y = E.y k := by
    refine eq_of_sq (lt_of_le_of_ne hle ?_) (E.y_lt k) (hsq.trans hroot) hpar
    rintro rfl
    rw [natCast_self, zero_pow two_ne_zero, hroot, eq_comm, sq_eq_zero_iff,
      natCast_eq_zero_iff] at hsq
    rw [eq_zero_of_dvd_of_lt hsq (E.y_lt k)] at hpar
    exact absurd hpar (by decide)
  have hcheck : E.y k * E.y k % p256P = p256Y2 (E.x k) := by
    rw [← Nat.mod_eq_of_lt (p256Y2_spec (E.x k)).1, ← ZMod.natCast_eq_natCast_iff', Nat.cast_mul,
      ← sq, E.onCurve, (p256Y2_spec _).2]
  rw [if_neg (not_not.mpr hcheck), copyEnd_bigBytes hx, copyEnd_bigBytes hy, E.bytes_eq]

/-- For both profiles, what was protected for a key pair of the home network is read again with its
tag and with no other; the compressed form of every point of P-256 is read as that point; and of 33
octets at most one point is read, the one with that abscissa and parity. -/
theorem suci_round_trip (C : Ciphers) (A : Ecdh) (E : P256) :
    (∀ p, p = profileA A ∨ p = profileB E → ∀ (hn eph : p.curve.Priv)
      (hnPubKey plaintext ephPub ct tag : Bytes),
      p.parse hnPubKey = some (p.curve.publicKey hn) →
      p.protect C (some eph) hnPubKey plaintext = some (ephPub, ct, tag) → ∀ tag',
      p.unprotect C (some hn) ephPub ct tag' = if tag' = tag then some plaintext else none) ∧
    (∀ k : E.Pub, parseP256PubKey E (compressP256 E k) = some k) ∧
    ∀ (data : Bytes) (k : E.Pub), data.length = 33 → parseP256PubKey E data = some k →
      (E.x k = beNat (data.drop 1) ∧ E.y k % 2 = (data.getD 0 0 &&& 1).toNat) ∧
      ∀ k', E.x k' = beNat (data.drop 1) → E.y k' % 2 = (data.getD 0 0 &&& 1).toNat → k' = k := by
  have hback (k : E.Pub) : parseP256PubKey E (compressP256 E k) = some k := by
    have hlen : (compressP256 E k).length = 33 := by simp [compressP256_eq]
    rw [parseP256PubKey, if_pos hlen, decompressP256_compressP256, bind_some,
      E.newPublicKey_bytes]
  refine ⟨?_, hback, ?_⟩
  · rintro p (rfl | rfl) hn eph hnPubKey plaintext ephPub ct tag hpub h tag'
    · exact Profile.unprotect_protect A.newPublicKey_bytes hpub h tag'
    · exact Profile.unprotect_protect hback hpub h tag'
  · intro data k hlen h
    rw [parseP256PubKey, if_pos hlen, bind_eq_some_iff] at h
    obtain ⟨out, hout, hnew⟩ := h
    obtain ⟨y, hle, rfl, hpar⟩ := decompressP256_eq hout
    have hbytes := E.bytes_of_new hnew
    rw [E.bytes_eq] at hbytes
    obtain ⟨hbx, hby⟩ := append_inj (cons.inj hbytes).2 (by simp)
    have hdata : beNat (data.drop 1) < 256 ^ 32 := by
      have := beNat_lt (data.drop 1)
      rwa [length_drop, hlen] at this
    have hx : E.x k = beNat (data.drop 1) := by
      rw [← beNat_beBytes_of_lt (n := 32) (lt_trans (E.x_lt k) (by decide)), hbx,
        beNat_beBytes_of_lt hdata]
    have hy : E.y k = y := by
      rw [← beNat_beBytes_of_lt (n := 32) (lt_trans (E.y_lt k) (by decide)), hby,
        beNat_beBytes_of_lt (lt_of_le_of_lt hle (by decide))]
    refine ⟨⟨hx, hy ▸ hpar⟩, fun k' hx' hpar' => ?_⟩
    have hy' : E.y k' = E.y k := by
      refine eq_of_sq (E.y_lt k') (E.y_lt k) ?_ (hpar'.trans (hy ▸ hpar).symm)
      rw [E.onCurve, E.onCurve, hx', hx]
    have hsame : E.bytes k' = E.bytes k := by rw [E.bytes_eq, E.bytes_eq, hy', hx', hx]
    exact some.inj (by rw [← E.newPublicKey_bytes k', hsame, E.newPublicKey_bytes])

/-! ## The base point as the key of both sides -/

/-- The points of P-256. -/
structure P256Point where
  x : Nat
  y : Nat
  x_lt : x < p256P
  y_lt : y < p256P
  onCurve : y * y % p256P = p256Y2 x

namespace P256Point

def bytes (k : P256Point) : Bytes := 0x04 :: (beBytes 32 k.x ++ beBytes 32 k.y)

def read (data : Bytes) : Option P256Point :=
  let x := beNat ((data.drop 1).take 32)
  let y := beNat (data.drop 33)
  if h : x < p256P ∧ y < p256P ∧ y * y % p256P = p256Y2 x then
    let k : P256Point := ⟨x, y, h.1, h.2.1, h.2.2⟩
    if k.bytes = data then some k else none
  else none

theorem read_bytes (k : P256Point) : read k.bytes = some k := by
  have hp : p256P < 256 ^ 32 := by decide
  have hx : beNat ((k.bytes.drop 1).take 32) = k.x := by
    simpa [bytes] using beNat_beBytes_of_lt (n := 32) (lt_trans k.x_lt hp)
  have hy : beNat (k.bytes.drop 33) = k.y := by
    simpa [bytes] using beNat_beBytes_of_lt (n := 32) (lt_trans k.y_lt hp)
  rw [read]
  simp only [hx, hy]
  rw [dif_pos ⟨k.x_lt, k.y_lt, k.onCurve⟩]
  exact if_pos trivial

theorem bytes_of_read {data : Bytes} {k : P256Point} (h : read data = some k) :
    k.bytes = data := by
  unfold read at h
  dsimp only at h
  split at h
  · split at h
    · case isTrue heq => exact some.inj h ▸ heq
    · cases h
  · cases h

def base : P256Point :=
  ⟨0x6B17D1F2E12C4247F8BCE6E563A440F277037D812DEB33A0F4A13945D898C296,
    0x4FE342E2FE1A7F9B8EE7EB4A7C0F9E162BCE33576B315ECECBB6406837BF51F5, by decide, by decide,
    by decide⟩

theorem curve (k : P256Point) :
    (k.y : ZMod p256P) ^ 2 = (k.x : ZMod p256P) ^ 3 - 3 * k.x + p256B := by
  rw [← (p256Y2_spec k.x).2, sq, ← Nat.cast_mul, ZMod.natCast_eq_natCast_iff', k.onCurve,
    Nat.mod_eq_of_lt (p256Y2_spec k.x).1]

end P256Point

/-- P-256 with the private key one. -/
def baseP256 : P256 where
  Priv := Unit
  Pub := P256Point
  publicKey _ := P256Point.base
  bytes := P256Point.bytes
  newPublicKey := P256Point.read
  ecdh _ k := some (beBytes 32 k.x)
  newPublicKey_bytes := P256Point.read_bytes
  ecdh_comm _ _ := rfl
  x := P256Point.x
  y := P256Point.y
  x_lt := P256Point.x_lt
  y_lt := P256Point.y_lt
  onCurve := P256Point.curve
  bytes_eq _ := rfl
  bytes_of_new := P256Point.bytes_of_read

/-- SHA-256, HMAC and AES on what they are called with below. -/
def baseCiphers : Ciphers where
  sha256 data := beBytes 32 <|
    if data.getD 35 0 = 1 then 0xb12cc51e7f2dc19b63f8f74c48f43c602562c9e49c6287bc16aa2b718467235e
    else 0x1574673fbd48e01e3aa1a44b87a8fdb5d4cd8a2df23a29310b1b0b03041f1c00
  hmacSHA256 _ _ := beBytes 32 0x3105b65c67e0c3c20dcc131aabd34f5fa0df13f1e9136e9423b8d95e21f879b6
  aes _ _ := beBytes 16 0x3577f58a0935ee57fa0ab0095975efa2

theorem suci_round_trip_base :
    (profileB baseP256).unprotect baseCiphers (some ()) (compressP256 baseP256 P256Point.base)
        (beBytes 5 0x3577f58a08) (beBytes 8 0x3105b65c67e0c3c2) = some [0, 0, 0, 0, 1] ∧
      (profileB baseP256).unprotect baseCiphers (some ()) (compressP256 baseP256 P256Point.base)
        (beBytes 5 0x3577f58a08) [] = none := by
  have hall := suci_round_trip baseCiphers baseP256.toEcdh baseP256
  have hparse : (profileB baseP256).parse (compressP256 baseP256 P256Point.base) =
      some ((profileB baseP256).curve.publicKey ()) := by
    dsimp only [profileB]
    exact hall.2.1 (baseP256.publicKey ())
  have h := hall.1 (profileB baseP256) (.inr rfl) () () (compressP256 baseP256 P256Point.base)
    [0, 0, 0, 0, 1] (compressP256 baseP256 P256Point.base) (beBytes 5 0x3577f58a08)
    (beBytes 8 0x3105b65c67e0c3c2) hparse (by decide +kernel)
  constructor
  · rw [h, if_pos rfl]
  · rw [h, if_neg (by decide)]

end MmtCore.Sacrypto
