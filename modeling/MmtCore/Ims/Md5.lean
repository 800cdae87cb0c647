import Mathlib.Algebra.Group.Nat.Defs

/-!
# MD5

The digest of `crypto/md5`, on words as numbers below `2 ^ 32`.
-/

namespace MmtCore.Ims

abbrev Bytes := List UInt8

namespace Md5

/-- The constants of the 64 steps. -/
def constants : List Nat :=
  [0xd76aa478, 0xe8c7b756, 0x242070db, 0xc1bdceee, 0xf57c0faf, 0x4787c62a, 0xa8304613, 0xfd469501,
    0x698098d8, 0x8b44f7af, 0xffff5bb1, 0x895cd7be, 0x6b901122, 0xfd987193, 0xa679438e, 0x49b40821,
    0xf61e2562, 0xc040b340, 0x265e5a51, 0xe9b6c7aa, 0xd62f105d, 0x02441453, 0xd8a1e681, 0xe7d3fbc8,
    0x21e1cde6, 0xc33707d6, 0xf4d50d87, 0x455a14ed, 0xa9e3e905, 0xfcefa3f8, 0x676f02d9, 0x8d2a4c8a,
    0xfffa3942, 0x8771f681, 0x6d9d6122, 0xfde5380c, 0xa4beea44, 0x4bdecfa9, 0xf6bb4b60, 0xbebfbc70,
    0x289b7ec6, 0xeaa127fa, 0xd4ef3085, 0x04881d05, 0xd9d4d039, 0xe6db99e5, 0x1fa27cf8, 0xc4ac5665,
    0xf4292244, 0x432aff97, 0xab9423a7, 0xfc93a039, 0x655b59c3, 0x8f0ccc92, 0xffeff47d, 0x85845dd1,
    0x6fa87e4f, 0xfe2ce6e0, 0xa3014314, 0x4e0811a1, 0xf7537e82, 0xbd3af235, 0x2ad7d2bb, 0xeb86d391]

/-- The rotations of the four rounds, each used four times. -/
def shifts : List (List Nat) := [[7, 12, 17, 22], [5, 9, 14, 20], [4, 11, 16, 23], [6, 10, 15, 21]]

def rotateLeft (x n : Nat) : Nat := (x <<< n ||| x >>> (32 - n)) % 2 ^ 32

def complement (x : Nat) : Nat := 2 ^ 32 - 1 - x

structure State where
  a : Nat
  b : Nat
  c : Nat
  d : Nat

/-- The function of the round and the word of the block that step `i` uses. -/
def mix (s : State) (i : Nat) : Nat × Nat :=
  match i / 16 with
  | 0 => (s.b &&& s.c ||| complement s.b &&& s.d, i)
  | 1 => (s.d &&& s.b ||| complement s.d &&& s.c, (5 * i + 1) % 16)
  | 2 => (s.b ^^^ s.c ^^^ s.d, (3 * i + 5) % 16)
  | _ => (s.c ^^^ (s.b ||| complement s.d), 7 * i % 16)

def step (block : List Nat) (s : State) (i : Nat) : State :=
  let (f, g) := mix s i
  let sum := (s.a + f + constants.getD i 0 + block.getD g 0) % 2 ^ 32
  let r := (shifts.getD (i / 16) []).getD (i % 4) 0
  ⟨s.d, (s.b + rotateLeft sum r) % 2 ^ 32, s.b, s.c⟩

def processBlock (s : State) (block : List Nat) : State :=
  let t := (List.range 64).foldl (step block) s
  ⟨(s.a + t.a) % 2 ^ 32, (s.b + t.b) % 2 ^ 32, (s.c + t.c) % 2 ^ 32, (s.d + t.d) % 2 ^ 32⟩

/-- The bytes of a number, the lowest first. -/
def littleEndian : Nat → Nat → Bytes
  | 0, _ => []
  | n + 1, x => UInt8.ofNat (x % 256) :: littleEndian n (x / 256)

def pad (msg : Bytes) : Bytes :=
  msg ++ 0x80 :: (List.replicate ((119 - msg.length % 64) % 64) 0 ++
    littleEndian 8 (8 * msg.length))

/-- The words of a padded message. -/
def words : Bytes → List Nat
  | w :: x :: y :: z :: rest =>
    (w.toNat + 256 * x.toNat + 65536 * y.toNat + 16777216 * z.toNat) :: words rest
  | _ => []

/-- The blocks of 16 words. -/
def blocks : Nat → List Nat → List (List Nat)
  | 0, _ => []
  | n + 1, ws => ws.take 16 :: blocks n (ws.drop 16)

def sum (msg : Bytes) : Bytes :=
  let ws := words (pad msg)
  let s := (blocks (ws.length / 16) ws).foldl processBlock
    ⟨0x67452301, 0xefcdab89, 0x98badcfe, 0x10325476⟩
  littleEndian 4 s.a ++ littleEndian 4 s.b ++ littleEndian 4 s.c ++ littleEndian 4 s.d

end Md5

end MmtCore.Ims
