import Mathlib.Data.Nat.Bitwise
import Mathlib.Data.Nat.Digits.Defs

/-!
# Internet addresses

IPv4 and IPv6 addresses with their texts, the ranges of either that no host of the public
internet has, and the IPv4 addresses that transition mechanisms carry in IPv6 addresses.
-/

namespace Lib

instance octet_neZero : NeZero 256 := ⟨by decide⟩

instance segment_neZero : NeZero 65536 := ⟨by decide⟩

/-- Four octets. -/
@[ext] structure Ipv4 where
  a : Fin 256
  b : Fin 256
  c : Fin 256
  d : Fin 256
deriving DecidableEq, Repr

/-- Eight segments. -/
@[ext] structure Ipv6 where
  s0 : Fin 65536
  s1 : Fin 65536
  s2 : Fin 65536
  s3 : Fin 65536
  s4 : Fin 65536
  s5 : Fin 65536
  s6 : Fin 65536
  s7 : Fin 65536
deriving DecidableEq, Repr

/-! ## Texts -/

/-- The dotted decimals of an address. -/
def Ipv4.text (address : Ipv4) : List Char :=
  ['.'].intercalate
    ([address.a, address.b, address.c, address.d].map fun octet => Nat.toDigits 10 octet.val)

/-- A decimal octet without zeros before it. -/
def readOctet (digits : List Char) : Option (Fin 256) :=
  if digits ≠ [] ∧ digits.length ≤ 3 ∧ digits.all Char.isDigit ∧
      (digits.head? = some '0' → digits = ['0']) then
    let value := Nat.ofDigitChars 10 digits 0
    if fits : value < 256 then some ⟨value, fits⟩ else none
  else none

/-- Dotted decimals. -/
def readIpv4 (chars : List Char) : Option Ipv4 :=
  match (chars.splitOn '.').mapM readOctet with
  | some [a, b, c, d] => some ⟨a, b, c, d⟩
  | _ => none

/-- The value of a hexadecimal digit. -/
def hexDigit (char : Char) : Option Nat :=
  if '0' ≤ char ∧ char ≤ '9' then some (char.toNat - 48)
  else if 'a' ≤ char ∧ char ≤ 'f' then some (char.toNat - 87)
  else if 'A' ≤ char ∧ char ≤ 'F' then some (char.toNat - 55)
  else none

/-- A segment of one to four hexadecimal digits. -/
def readSegment (chars : List Char) : Option (Fin 65536) :=
  if chars ≠ [] ∧ chars.length ≤ 4 then
    (chars.mapM hexDigit).map fun digits =>
      Fin.ofNat 65536 (digits.foldl (fun value digit => 16 * value + digit) 0)
  else none

/-- The two segments of an IPv4 address. -/
def Ipv4.segments (address : Ipv4) : List (Fin 65536) :=
  [Fin.ofNat 65536 (256 * address.a.val + address.b.val),
    Fin.ofNat 65536 (256 * address.c.val + address.d.val)]

/-- Segments, the last two of which may be an IPv4 address. -/
def readSegments : List (List Char) → Option (List (Fin 65536))
  | [] => some []
  | [last] =>
      if '.' ∈ last then (readIpv4 last).map Ipv4.segments
      else (readSegment last).map fun segment => [segment]
  | chars :: rest =>
      (readSegment chars).bind fun segment => (readSegments rest).map (segment :: ·)

/-- What is before the first two colons in a row and after them. -/
def splitDouble : List Char → Option (List Char × List Char)
  | ':' :: ':' :: rest => some ([], rest)
  | char :: rest => (splitDouble rest).map fun parts => (char :: parts.1, parts.2)
  | [] => none

/-- The parts between colons, none of an empty text. -/
def colonParts (chars : List Char) : List (List Char) :=
  if chars = [] then [] else chars.splitOn ':'

def Ipv6.ofSegments : List (Fin 65536) → Option Ipv6
  | [s0, s1, s2, s3, s4, s5, s6, s7] => some ⟨s0, s1, s2, s3, s4, s5, s6, s7⟩
  | _ => none

/-- The text of an IPv6 address: eight segments, or fewer with two colons in a row for one or
more zeros. -/
def readIpv6 (chars : List Char) : Option Ipv6 :=
  match splitDouble chars with
  | none => (readSegments (colonParts chars)).bind Ipv6.ofSegments
  | some (before, after) =>
      (((colonParts before).mapM readSegment).bind fun first =>
        (readSegments (colonParts after)).bind fun last =>
          if first.length + last.length ≤ 7 then
            Ipv6.ofSegments
              (first ++ List.replicate (8 - (first.length + last.length)) 0 ++ last)
          else none)

/-! ## Ranges -/

/-- Private networks, loopback, link-local, and the first range. -/
def Ipv4.Internal (address : Ipv4) : Prop :=
  address.a.val = 0 ∨ address.a.val = 10 ∨ address.a.val = 127 ∨
    address.a.val = 169 ∧ address.b.val = 254 ∨
    address.a.val = 172 ∧ 16 ≤ address.b.val ∧ address.b.val ≤ 31 ∨
    address.a.val = 192 ∧ address.b.val = 168

/-- Ranges set aside for one purpose: shared networks, protocol assignments, documentation,
relays, benchmarks, multicast. -/
def Ipv4.SetAside (address : Ipv4) : Prop :=
  address.a.val = 100 ∧ 64 ≤ address.b.val ∧ address.b.val ≤ 127 ∨
    address.a.val = 192 ∧ address.b.val = 0 ∧ (address.c.val = 0 ∨ address.c.val = 2) ∨
    address.a.val = 192 ∧ address.b.val = 88 ∧ address.c.val = 99 ∨
    address.a.val = 198 ∧ (address.b.val = 18 ∨ address.b.val = 19) ∨
    address.a.val = 198 ∧ address.b.val = 51 ∧ address.c.val = 100 ∨
    address.a.val = 203 ∧ address.b.val = 0 ∧ address.c.val = 113 ∨
    224 ≤ address.a.val ∧ address.a.val < 240

/-- No host of the public internet has the address. -/
def Ipv4.Special (address : Ipv4) : Prop :=
  address.Internal ∨ address.SetAside ∨ 240 ≤ address.a.val

namespace Ipv6

variable (address : Ipv6)

/-- The IPv4 address of two segments. -/
def v4 (high low : Fin 65536) : Ipv4 :=
  ⟨Fin.ofNat 256 (high.val / 256), Fin.ofNat 256 (high.val % 256),
    Fin.ofNat 256 (low.val / 256), Fin.ofNat 256 (low.val % 256)⟩

/-- The first segments are zero. -/
def FirstFour : Prop :=
  address.s0.val = 0 ∧ address.s1.val = 0 ∧ address.s2.val = 0 ∧ address.s3.val = 0

/-- An IPv4-mapped or IPv4-compatible address. -/
def Mapped : Prop :=
  address.FirstFour ∧ address.s4.val = 0 ∧ (address.s5.val = 0 ∨ address.s5.val = 0xffff)

/-- An IPv4-translated address. -/
def Translated : Prop :=
  address.FirstFour ∧ address.s4.val = 0xffff ∧ address.s5.val = 0

/-- An address of the well-known prefix of NAT64. -/
def Nat64 : Prop :=
  address.s0.val = 0x64 ∧ address.s1.val = 0xff9b ∧ address.s2.val = 0 ∧ address.s3.val = 0 ∧
    address.s4.val = 0 ∧ address.s5.val = 0

def SixToFour : Prop :=
  address.s0.val = 0x2002

def Teredo : Prop :=
  address.s0.val = 0x2001 ∧ address.s1.val = 0

def Isatap : Prop :=
  (address.s4.val = 0 ∨ address.s4.val = 0x200) ∧ address.s5.val = 0x5efe

/-- The IPv4 address that a transition mechanism carries in the address. -/
def Carries (inner : Ipv4) : Prop :=
  (address.Mapped ∨ address.Translated ∨ address.Nat64 ∨
      address.Isatap ∧ ¬address.SixToFour ∧ ¬address.Teredo) ∧
      inner = v4 address.s6 address.s7 ∨
    address.SixToFour ∧ inner = v4 address.s1 address.s2 ∨
    -- the client's address is written with its bits flipped
    address.Teredo ∧ inner = v4 (Fin.rev address.s6) (Fin.rev address.s7)

/-- An address that is assigned to hosts of the public internet. -/
def GlobalUnicast : Prop :=
  0x2000 ≤ address.s0.val ∧ address.s0.val < 0x4000

/-- Documentation and benchmarks. -/
def SetAside : Prop :=
  address.s0.val = 0x2001 ∧ address.s1.val = 0xdb8 ∨
    address.s0.val = 0x3fff ∧ address.s1.val < 0x1000 ∨
    address.s0.val = 0x2001 ∧ address.s1.val = 2 ∧ address.s2.val = 0

/-- No host of the public internet has the address, or has the IPv4 address in it. -/
def Special : Prop :=
  (∃ inner, address.Carries inner ∧ inner.Special) ∨ address.SetAside ∨
    ¬address.GlobalUnicast ∧ ¬address.Mapped ∧ ¬address.Translated ∧ ¬address.Nat64

end Ipv6

end Lib
