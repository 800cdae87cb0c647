import Mathlib.Algebra.Group.Nat.Defs
import Mathlib.Data.Finset.Basic
import MmtCore.Lib.Reach

/-!
# The address allocator of the SMF

`ipalloc`: for each DNN and IP version the addresses in use, and where the next search starts.  The
CIDR list of the DNN comes with every call and is expanded into hosts anew.
-/

namespace MmtCore.Smf

/-! ## Addresses and prefixes -/

/-- A `netip.Addr`. -/
inductive Addr
  | v4 (bits : Nat)
  | v6 (bits : Nat)
deriving DecidableEq

namespace Addr

def is4 : Addr → Bool
  | v4 _ => true
  | v6 _ => false

def is6 (a : Addr) : Bool := !a.is4

def is4In6 : Addr → Bool
  | v4 _ => false
  | v6 bits => bits / 2 ^ 32 == 0xFFFF

def bits : Addr → Nat
  | v4 bits | v6 bits => bits

def bitLen : Addr → Nat
  | v4 _ => 32
  | v6 _ => 128

/-- The address of the same kind with these bits. -/
def withBits : Addr → Nat → Addr
  | v4 _, bits => v4 bits
  | v6 _, bits => v6 bits

end Addr

/-- A `netip.Prefix` that `ParsePrefix` returns. -/
structure Prefix where
  addr : Addr
  len : Nat
  addr_lt : addr.bits < 2 ^ addr.bitLen
  len_le : len ≤ addr.bitLen

namespace Prefix

variable (p : Prefix)

/-- The number of addresses. -/
def size : Nat := 2 ^ (p.addr.bitLen - p.len)

/-- The bits of `Masked().Addr()`. -/
def base : Nat := p.addr.bits / p.size * p.size

/-- The address at this index. -/
def nth (i : Nat) : Addr := p.addr.withBits (p.base + i)

end Prefix

/-! ## Hosts -/

/-- The cap of `expandAll`. -/
def maxHosts : Nat := 2 ^ 20

def expandAll (p : Prefix) : List Addr := (List.range (min p.size maxHosts)).map p.nth

/-- `key.v`. -/
inductive IpVersion
  | ipv4 | ipv6
deriving DecidableEq

/-- A CIDR of the other version is passed over. -/
def Prefix.skipped (p : Prefix) (version : IpVersion) : Bool :=
  (p.addr.is4 && version != .ipv4) || (p.addr.is6 && !p.addr.is4In6 && version != .ipv6)

/-- The assignable addresses of one CIDR: without network, gateway and, for IPv4, broadcast. -/
def hostsOf (p : Prefix) : List Addr :=
  let all := expandAll p
  if p.addr.is4 then
    if all.length > 2 then (all.drop 1).dropLast.drop 1 else []
  else if all.length > 1 then (all.drop 1).drop 1 else []

/-- `buildHosts`; a CIDR that does not parse is an error. -/
def buildHosts (cidrList : List (Option Prefix)) (version : IpVersion) : Option (List Addr) :=
  match cidrList with
  | [] => some []
  | none :: _ => none
  | some p :: rest =>
    (buildHosts rest version).map fun hosts =>
      if p.skipped version then hosts else hostsOf p ++ hosts

/-! ## The allocator -/

/-- A DNN. -/
abbrev Dnn := List UInt8

structure PoolKey where
  dnn : Dnn
  v : IpVersion
deriving DecidableEq

structure Allocator where
  allocated : PoolKey → Finset Addr
  nextOffset : PoolKey → Nat

inductive AllocError
  | badCIDR
  | noHosts
  | poolExhausted
deriving DecidableEq

namespace Allocator

def new : Allocator := ⟨fun _ => ∅, fun _ => 0⟩

variable (a : Allocator) (dnn : Dnn)

/-- The addresses `hosts` in the order of the search. -/
def rotated (hosts : List Addr) (offset : Nat) : List Addr :=
  hosts.drop offset ++ hosts.take offset

/-- The search of `Allocate`: how far the first free host is from the start. -/
def findFree (k : PoolKey) (hosts : List Addr) : Option (Nat × Addr) :=
  let order := rotated hosts (a.nextOffset k % hosts.length)
  match order.findIdx? (· ∉ a.allocated k) with
  | none => none
  | some i => order[i]?.map (i, ·)

def allocate (cidrList : List (Option Prefix)) (version : IpVersion) :
    Allocator × Except AllocError Addr :=
  let k : PoolKey := ⟨dnn, version⟩
  match buildHosts cidrList version with
  | none => (a, .error .badCIDR)
  | some hosts =>
    if hosts.length = 0 then (a, .error .noHosts)
    else
      match a.findFree k hosts with
      | none => (a, .error .poolExhausted)
      | some (i, addr) =>
        ({ allocated := Function.update a.allocated k (insert addr (a.allocated k))
           nextOffset := Function.update a.nextOffset k
             ((a.nextOffset k % hosts.length + i + 1) % hosts.length) }, .ok addr)

/-- The version `Release` files an address under. -/
def versionOf (addr : Addr) : IpVersion :=
  if addr.is6 && !addr.is4In6 then .ipv6 else .ipv4

def release (addr : Addr) : Allocator :=
  let k : PoolKey := ⟨dnn, versionOf addr⟩
  { a with allocated := Function.update a.allocated k ((a.allocated k).erase addr) }

def allocateDualStack (v4 v6 : List (Option Prefix)) :
    Allocator × Except AllocError (Addr × Addr) :=
  match a.allocate dnn v4 .ipv4 with
  | (a, .error e) => (a, .error e)
  | (a, .ok v4Addr) =>
    match a.allocate dnn v6 .ipv6 with
    | (a, .error e) => (a.release dnn v4Addr, .error e)
    | (a, .ok v6Addr) => (a, .ok (v4Addr, v6Addr))

end Allocator

end MmtCore.Smf
