import FaultLane.AddressPrefixes
import FaultLane.SortDedup
import Mathlib.Data.Prod.Lex

set_option autoImplicit false

/-!
# Public addresses

Which addresses a customer destination may resolve to, and the blocks that the registries
reserve, with the forms of IPv6 addresses that carry an IPv4 address.
-/
namespace FaultLane

/-- A block of IPv4 addresses, by its first octets. -/
def AddressPrefix.v4 (octets : List (BitVec 8)) (length : Nat) : AddressPrefix 32 where
  bits := (List.range 4).foldl (fun a i => a <<< 8 ||| (octets.getD i 0).setWidth 32) 0
  length := length

/-- A block of IPv6 addresses, by its first segments. -/
def AddressPrefix.v6 (segments : List (BitVec 16)) (length : Nat) : AddressPrefix 128 where
  bits := (List.range 8).foldl (fun a i => a <<< 16 ||| (segments.getD i 0).setWidth 128) 0
  length := length

namespace PublicAddresses
open SortDedup AddressPrefix

/-! ## Addresses -/

abbrev Ipv4Addr := BitVec 32

namespace Ipv4Addr

def octet (address : Ipv4Addr) (i : Nat) : BitVec 8 := address.extractLsb' (24 - 8 * i) 8

end Ipv4Addr

abbrev Ipv6Addr := BitVec 128

namespace Ipv6Addr
variable (address : Ipv6Addr)

def segment (i : Nat) : BitVec 16 := address.extractLsb' (112 - 16 * i) 16

def toIpv4Mapped : Option Ipv4Addr :=
  if address.extractLsb' 32 96 = 0xffff then some (address.extractLsb' 0 32) else none

def isUnspecified : Prop := address = 0

def isLoopback : Prop := address = 1

def isMulticast : Prop := segment address 0 &&& 0xff00 = 0xff00

instance : Decidable (isUnspecified address) := inferInstanceAs (Decidable (_ = _))

instance : Decidable (isLoopback address) := inferInstanceAs (Decidable (_ = _))

instance : Decidable (isMulticast address) := inferInstanceAs (Decidable (_ = _))

end Ipv6Addr

inductive IpAddr where
  | v4 (address : Ipv4Addr)
  | v6 (address : Ipv6Addr)
  deriving DecidableEq

/-! ## The checks -/

def publicIpv4 (address : Ipv4Addr) : Bool :=
  let a := address.octet 0
  let b := address.octet 1
  let c := address.octet 2
  ¬ (a = 0 ∨ a = 10 ∨ a = 127 ∨ (a = 100 ∧ (64 ≤ b ∧ b ≤ 127)) ∨ (a = 169 ∧ b = 254) ∨
    (a = 172 ∧ (16 ≤ b ∧ b ≤ 31)) ∨ (a = 192 ∧ b = 0 ∧ c = 0) ∨ (a = 192 ∧ b = 0 ∧ c = 2) ∨
    (a = 192 ∧ b = 88 ∧ c = 99) ∨ (a = 192 ∧ b = 168) ∨ (a = 198 ∧ (b = 18 ∨ b = 19)) ∨
    (a = 198 ∧ b = 51 ∧ c = 100) ∨ (a = 203 ∧ b = 0 ∧ c = 113) ∨ 224 ≤ a)

def publicIpv6 (address : Ipv6Addr) : Bool :=
  match address.toIpv4Mapped with
  | some mapped => publicIpv4 mapped
  | none =>
    let segments := address.segment
    ¬ (address.isUnspecified ∨ address.isLoopback ∨ address.isMulticast ∨
      segments 0 &&& 0xfe00 = 0xfc00 ∨ segments 0 &&& 0xffc0 = 0xfe80 ∨
      (segments 0 = 0x2001 ∧ segments 1 = 0x0db8)) ∧
    ¬ (segments 0 = 0x2001 ∧ segments 1 = 0x0002) ∧
    ¬ (segments 0 = 0x0064 ∧ segments 1 = 0xff9b) ∧
    segments 0 &&& 0xffc0 ≠ 0xfec0

def publicIp : IpAddr → Bool
  | .v4 address => publicIpv4 address
  | .v6 address => publicIpv6 address

/-! ## Destinations -/

inductive SocketAddr where
  | v4 (address : Ipv4Addr) (port : BitVec 16)
  | v6 (address : Ipv6Addr) (port : BitVec 16) (flowinfo scopeId : BitVec 32)
  deriving DecidableEq

def SocketAddr.ip : SocketAddr → IpAddr
  | .v4 address _ => .v4 address
  | .v6 address .. => .v6 address

/-- The order of the set of addresses. -/
def SocketAddr.key : SocketAddr → Nat ×ₗ Nat ×ₗ Nat ×ₗ Nat ×ₗ Nat
  | .v4 address port => toLex (0, toLex (address.toNat, toLex (port.toNat, toLex (0, 0))))
  | .v6 address port flowinfo scopeId =>
    toLex (1, toLex (address.toNat, toLex (port.toNat, toLex (flowinfo.toNat, scopeId.toNat))))

inductive ResolutionError where
  | unsafeDestination
  | unavailable
  deriving DecidableEq, Repr

/-- `resolve_public_destination` on the host of the URL, with the reading of a host as an address
and what the lookup gives, which is nothing when it fails or takes too long. -/
def resolvePublicDestination (host : Option String) (parse : String → Option IpAddr)
    (lookupHost : String → Option (List SocketAddr)) :
    Except ResolutionError (List SocketAddr) := do
  let host ← host.elim (.error .unsafeDestination) .ok
  if (parse host).any fun address => !publicIp address then .error .unsafeDestination
  else
    let resolved ← (lookupHost host).elim (.error .unavailable) .ok
    let addresses := sortDedup SocketAddr.key resolved
    if addresses.isEmpty then .error .unavailable
    else if 16 < addresses.length ∨ addresses.any fun address => !publicIp address.ip then
      .error .unsafeDestination
    else .ok addresses

/-! ## Reserved blocks -/

/-- Private, loopback, link-local, documentation, benchmarking, multicast and reserved. -/
def reservedIpv4 : List (AddressPrefix 32) :=
  [.v4 [0] 8, .v4 [10] 8, .v4 [127] 8, .v4 [100, 64] 10, .v4 [169, 254] 16, .v4 [172, 16] 12,
    .v4 [192, 0, 0] 24, .v4 [192, 0, 2] 24, .v4 [192, 88, 99] 24, .v4 [192, 168] 16,
    .v4 [198, 18] 15, .v4 [198, 51, 100] 24, .v4 [203, 0, 113] 24, .v4 [224] 4, .v4 [240] 4]

/-- The IPv6 addresses of a block carry an IPv4 address. -/
structure Embedding where
  range : AddressPrefix 128
  address : Ipv6Addr → Ipv4Addr

def lastBits (a : Ipv6Addr) : Ipv4Addr := a.extractLsb' 0 32

def mapped : Embedding := ⟨.v6 [0, 0, 0, 0, 0, 0xffff] 96, lastBits⟩

def compatible : Embedding := ⟨.v6 [0, 0, 0, 0, 0, 0] 96, lastBits⟩

def sixToFour : Embedding := ⟨.v6 [0x2002] 16, fun a => a.extractLsb' 80 32⟩

def nat64 : Embedding := ⟨.v6 [0x64, 0xff9b, 0, 0, 0, 0] 96, lastBits⟩

/-- The local translation prefix, which may be used as one of 48, 56, 64 or 96 bits; the eight
bits after the first 64 are no part of the address. -/
def nat64Local : List Embedding :=
  let range : AddressPrefix 128 := .v6 [0x64, 0xff9b, 1] 48
  [⟨range, fun a => a.extractLsb' 64 16 ++ a.extractLsb' 40 16⟩,
    ⟨range, fun a => a.extractLsb' 64 8 ++ a.extractLsb' 32 24⟩,
    ⟨range, fun a => a.extractLsb' 24 32⟩, ⟨range, lastBits⟩]

def embeddings : List Embedding := mapped :: compatible :: sixToFour :: nat64 :: nat64Local

/-- The blocks of special purpose: loopback, unspecified, discard, protocol assignments without
those that are reachable, benchmarking, documentation, segment routing, unique-local, link-local,
site-local and multicast. -/
def specialIpv6 : List (Block 128) :=
  [⟨.v6 [0, 0, 0, 0, 0, 0, 0, 0] 128, []⟩, ⟨.v6 [0, 0, 0, 0, 0, 0, 0, 1] 128, []⟩,
    ⟨.v6 [0x64, 0xff9b, 1] 48, []⟩, ⟨.v6 [0x100, 0, 0, 0] 64, []⟩, ⟨.v6 [0x100, 0, 0, 1] 64, []⟩,
    ⟨.v6 [0x2001, 0] 23,
      [.v6 [0x2001, 1, 0, 0, 0, 0, 0, 1] 128, .v6 [0x2001, 1, 0, 0, 0, 0, 0, 2] 128,
        .v6 [0x2001, 1, 0, 0, 0, 0, 0, 3] 128, .v6 [0x2001, 3] 32, .v6 [0x2001, 4, 0x112] 48,
        .v6 [0x2001, 0x20] 28, .v6 [0x2001, 0x30] 28]⟩,
    ⟨.v6 [0x2001, 2, 0] 48, []⟩, ⟨.v6 [0x2001, 0xdb8] 32, []⟩, ⟨.v6 [0x3fff, 0] 20, []⟩,
    ⟨.v6 [0x5f00] 16, []⟩, ⟨.v6 [0xfc00] 7, []⟩, ⟨.v6 [0xfe80] 10, []⟩, ⟨.v6 [0xfec0] 10, []⟩,
    ⟨.v6 [0xff00] 8, []⟩]

/-- The space that is not assigned to any use, without the forms that carry an IPv4 address. -/
def unassignedIpv6 : List (Block 128) :=
  [⟨.v6 [0] 8, [compatible.range, mapped.range, nat64.range, .v6 [0x64, 0xff9b, 1] 48]⟩,
    ⟨.v6 [0x100] 8, []⟩, ⟨.v6 [0x200] 7, []⟩, ⟨.v6 [0x400] 6, []⟩, ⟨.v6 [0x800] 5, []⟩,
    ⟨.v6 [0x1000] 4, []⟩, ⟨.v6 [0x4000] 3, []⟩, ⟨.v6 [0x6000] 3, []⟩, ⟨.v6 [0x8000] 3, []⟩,
    ⟨.v6 [0xa000] 3, []⟩, ⟨.v6 [0xc000] 3, []⟩, ⟨.v6 [0xe000] 4, []⟩, ⟨.v6 [0xf000] 5, []⟩,
    ⟨.v6 [0xf800] 6, []⟩, ⟨.v6 [0xfe00] 9, []⟩]

def reservedIpv6 : List (Block 128) := specialIpv6 ++ unassignedIpv6

/-- Outside the reserved blocks, and the same for an IPv4 address that is carried. -/
def IpAddr.External : IpAddr → Prop
  | .v4 a => ∀ b ∈ reservedIpv4, ¬ b.Contains a
  | .v6 a => (∀ form ∈ embeddings, form.range.Contains a → publicIpv4 (form.address a)) ∧
      ∀ b ∈ reservedIpv6, ¬ b.Contains a

end PublicAddresses
end FaultLane
