import Mathlib

/-!
# Socket addresses

The address types of the standard library, as octets: `IpAddr`, `SocketAddr` with the flow label and
the scope of an IPv6 address, and the classes of addresses that the servers test.  Addresses are
ordered by their octets, which makes them keys of finite maps.
-/

open Std (TransOrd LawfulEqOrd TransCmp LawfulEqCmp)

namespace Fluvora

inductive IpAddr
  | v4 (octets : Vector UInt8 4)
  | v6 (octets : Vector UInt8 16)
deriving DecidableEq

namespace IpAddr

def octets : IpAddr → List UInt8
  | .v4 octets => octets.toList
  | .v6 octets => octets.toList

theorem octets_injective : Function.Injective octets := by
  intro a b h
  have hlen := congrArg List.length h
  cases a with
  | v4 a =>
    cases b with
    | v4 b => rw [Vector.toList_inj.mp h]
    | v6 b => simp [octets] at hlen
  | v6 a =>
    cases b with
    | v4 b => simp [octets] at hlen
    | v6 b => rw [Vector.toList_inj.mp h]

instance : Ord IpAddr := ⟨compareOn octets⟩

instance : TransOrd IpAddr := inferInstanceAs (TransCmp (compareOn octets))

instance : LawfulEqOrd IpAddr where
  eq_of_compare h := octets_injective (LawfulEqCmp.eq_of_compare h)

def sameFamily : IpAddr → IpAddr → Bool
  | .v4 _, .v4 _ => true
  | .v6 _, .v6 _ => true
  | _, _ => false

/-- One of the eight 16-bit groups of an IPv6 address. -/
def segment (octets : Vector UInt8 16) (i : Fin 8) : UInt16 :=
  octets[2 * i.val].toUInt16 <<< 8 ||| octets[2 * i.val + 1].toUInt16

def isUnspecified : IpAddr → Bool
  | .v4 octets => octets = Vector.replicate 4 0
  | .v6 octets => octets = Vector.replicate 16 0

/-- One of the four bytes of an IPv4 address. -/
def octet (octets : Vector UInt8 4) (i : ℕ) : UInt8 := octets.toList.getD i 0

/-- `Ipv4Addr::LOCALHOST`, `127.0.0.1`. -/
def localhostV4 : Vector UInt8 4 := #v[127, 0, 0, 1]

/-- `Ipv6Addr::LOCALHOST`, `::1`. -/
def localhostV6 : Vector UInt8 16 := (Vector.replicate 16 0).set 15 1

def isLoopback : IpAddr → Bool
  | .v4 octets => octets[0] = 127
  | .v6 octets => octets = localhostV6

def isMulticast : IpAddr → Bool
  | .v4 octets => (224 : UInt8) ≤ octets[0] && octets[0] ≤ 239
  | .v6 octets => octets[0] = 255

/-- The IPv4 address inside `::ffff:a.b.c.d`. -/
def toIpv4Mapped (octets : Vector UInt8 16) : Option (Vector UInt8 4) :=
  if octets.toList.take 10 = List.replicate 10 0 ∧ octets[10] = 255 ∧ octets[11] = 255 then
    some #v[octets[12], octets[13], octets[14], octets[15]]
  else none

end IpAddr

inductive SocketAddr
  | v4 (octets : Vector UInt8 4) (port : UInt16)
  | v6 (octets : Vector UInt8 16) (port : UInt16) (flowinfo scopeId : UInt32)
deriving DecidableEq

namespace SocketAddr

def ip : SocketAddr → IpAddr
  | .v4 octets _ => .v4 octets
  | .v6 octets _ _ _ => .v6 octets

def port : SocketAddr → UInt16
  | .v4 _ port => port
  | .v6 _ port _ _ => port

/-- `SocketAddr::new`: no flow label and no scope. -/
def new (ip : IpAddr) (port : UInt16) : SocketAddr :=
  match ip with
  | .v4 octets => .v4 octets port
  | .v6 octets => .v6 octets port 0 0

@[simp] theorem ip_new (ip : IpAddr) (port : UInt16) : (new ip port).ip = ip := by
  cases ip <;> rfl

/-- The numbers that identify an address. -/
def code : SocketAddr → List ℕ
  | .v4 octets port => octets.toList.map UInt8.toNat ++ [port.toNat, 0, 0]
  | .v6 octets port flowinfo scopeId =>
      octets.toList.map UInt8.toNat ++ [port.toNat, flowinfo.toNat, scopeId.toNat]

theorem code_injective : Function.Injective code := by
  have htoNat : Function.Injective UInt8.toNat := fun a b => UInt8.toNat_inj.mp
  have hlength : ∀ a, (code a).length = (ip a).octets.length + 3 := by
    intro a
    cases a <;> simp [code, ip, IpAddr.octets]
  intro a b h
  have hlen : (ip a).octets.length = (ip b).octets.length := by
    have := congrArg List.length h
    rw [hlength, hlength] at this
    omega
  cases a with
  | v4 octets port =>
    cases b with
    | v6 => simp [ip, IpAddr.octets] at hlen
    | v4 octets' port' =>
      obtain ⟨hoctets, hrest⟩ := List.append_inj h (by simp)
      simp only [List.cons.injEq, and_true] at hrest
      rw [Vector.toList_inj.mp (List.map_injective_iff.mpr htoNat hoctets), UInt16.toNat_inj.mp hrest]
  | v6 octets port flowinfo scopeId =>
    cases b with
    | v4 => simp [ip, IpAddr.octets] at hlen
    | v6 octets' port' flowinfo' scopeId' =>
      obtain ⟨hoctets, hrest⟩ := List.append_inj h (by simp)
      simp only [List.cons.injEq, and_true] at hrest
      rw [Vector.toList_inj.mp (List.map_injective_iff.mpr htoNat hoctets),
        UInt16.toNat_inj.mp hrest.1, UInt32.toNat_inj.mp hrest.2.1, UInt32.toNat_inj.mp hrest.2.2]

instance : Ord SocketAddr := ⟨compareOn code⟩

instance : TransOrd SocketAddr := inferInstanceAs (TransCmp (compareOn code))

instance : LawfulEqOrd SocketAddr where
  eq_of_compare h := code_injective (LawfulEqCmp.eq_of_compare h)

end SocketAddr

end Fluvora
