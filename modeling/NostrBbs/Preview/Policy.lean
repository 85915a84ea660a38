import NostrBbs.Lib.Addresses
import NostrBbs.Lib.Fallible
import NostrBbs.Relay.Sealed
import NostrBbs.Shared.Texts

/-!
# Where previews are fetched from

The policy that keeps a preview from reaching internal addresses.  It reads the text of a
URL's host: an allowlist, names, dotted decimals, and IPv6 addresses that carry IPv4 ones;
a fetch asks it again at each redirect.
-/

namespace NostrBbs
namespace Preview

open Lib (Ipv4 Ipv6)
open Relay (isAsciiHexdigit parseUnsigned)
open Shared (stripPrefixChars trimChars)

/-! ## Parsed URLs -/

/-- The host of a URL that was parsed.  A name is in lower case and has no character that is
forbidden in a host; an address has its own text. -/
inductive Host
  | domain (name : List Char) (isLower : name.map Char.toLower = name)
      (isPlain : ':' ∉ name ∧ '[' ∉ name)
  | ipv4 (address : Ipv4)
  | ipv6 (address : Ipv6) (text : List Char) (isLower : text.map Char.toLower = text)
      (isPlain : '.' ∉ text) (isText : Lib.readIpv6 text = some address)

def Host.text : Host → List Char
  | .domain name _ _ => name
  | .ipv4 address => address.text
  | .ipv6 _ text _ _ _ => '[' :: text ++ [']']

/-- A parsed URL; the port is none when it is the scheme's own. -/
structure ParsedUrl where
  scheme : String
  username : String
  password : Option String
  port : Option Nat
  host : Option Host

/-! ## The policy -/

/-- The hosts that may be fetched from, when there are any. -/
structure AllowList where
  hosts : List (List Char)

/-- The host without the brackets of an IPv6 address. -/
def stripBrackets (host : List Char) : List Char :=
  match host with
  | '[' :: rest => if rest.getLast? = some ']' then rest.dropLast else host
  | _ => host

namespace AllowList

def isEmpty (list : AllowList) : Bool :=
  list.hosts.isEmpty

def allows (list : AllowList) (host : List Char) : Bool :=
  let host := stripBrackets (host.map Char.toLower)
  list.hosts.any fun entry => host == entry || ('.' :: entry).isSuffixOf host

end AllowList

/-- Four decimal octets between dots. -/
def parseIpv4 (chars : List Char) : Option Ipv4 :=
  match (chars.splitOn '.').mapM fun part => parseUnsigned 8 (String.ofList part) with
  | some [a, b, c, d] =>
      some ⟨Fin.ofNat 256 a, Fin.ofNat 256 b, Fin.ofNat 256 c, Fin.ofNat 256 d⟩
  | _ => none

def isPrivateIpv4 (octets : Ipv4) : Bool :=
  octets.a.val == 10 || octets.a.val == 127 ||
    (octets.a.val == 172 && decide (16 ≤ octets.b.val ∧ octets.b.val ≤ 31)) ||
    (octets.a.val == 192 && octets.b.val == 168) || (octets.a.val == 169 && octets.b.val == 254) ||
    octets.a.val == 0 || decide (240 ≤ octets.a.val)

/-- The branches for an IPv6 address, by its segments. -/
def isPrivateIpv6 (v6 : Ipv6) : Bool :=
  if v6 = ⟨0, 0, 0, 0, 0, 0, 0, 1⟩ ∨ v6 = ⟨0, 0, 0, 0, 0, 0, 0, 0⟩ then true
  else if v6.s0.val &&& 0xfe00 = 0xfc00 ∨ v6.s0.val &&& 0xffc0 = 0xfe80 ∨
      v6.s0.val &&& 0xffc0 = 0xfec0 then true
  else if v6.s0.val = 0x2002 then isPrivateIpv4 (Ipv6.v4 v6.s1 v6.s2)
  else if v6.s0.val = 0x64 ∧ v6.s1.val = 0xff9b then isPrivateIpv4 (Ipv6.v4 v6.s6 v6.s7)
  else if v6.s0.val = 0 ∧ v6.s1.val = 0 ∧ v6.s2.val = 0 ∧ v6.s3.val = 0 ∧ v6.s4.val = 0 ∧
      (v6.s5.val = 0 ∨ v6.s5.val = 0xffff) then isPrivateIpv4 (Ipv6.v4 v6.s6 v6.s7)
  else false

/-- A text is a name or a name under it. -/
def isUnder (name hostname : List Char) : Bool :=
  hostname == name || ('.' :: name).isSuffixOf hostname

/-- The checks of a host's text that come after its names. -/
def isPrivateAddress (hostname : List Char) : Bool :=
  match parseIpv4 hostname with
  | some octets => isPrivateIpv4 octets
  | none =>
      let host := stripBrackets hostname
      match Lib.readIpv6 host with
      | some v6 => isPrivateIpv6 v6
      | none =>
          if host = "::1".toList ∨ "fc".toList <+: host ∨ "fd".toList <+: host ∨
              "fe80".toList <+: host then true
          else
            match stripPrefixChars "::ffff:".toList host with
            | some rest => ((parseIpv4 rest).map isPrivateIpv4).getD true
            | none => false

/-- The checks of a host's text that come after the allowlist. -/
def isPrivateHost (hostname : List Char) : Bool :=
  if isUnder "local".toList hostname then true
  else if hostname ≠ [] ∧ hostname.all Char.isDigit then true
  else if (stripPrefixChars "0x".toList hostname).any fun rest =>
      rest ≠ [] && rest.all isAsciiHexdigit then true
  else if isUnder "localhost".toList hostname then true
  else if hostname = "169.254.169.254".toList ∨ hostname = "metadata.google.internal".toList ∨
      hostname = "metadata.goog".toList then true
  else isPrivateAddress hostname

/-- A URL is refused: it cannot be parsed, or its scheme, credentials, port or host are. -/
def isPrivateUrlWith (parse : String → Option ParsedUrl) (rawUrl : String)
    (allowlist : AllowList) : Bool :=
  match parse rawUrl with
  | none => true
  | some parsed =>
      if parsed.scheme ≠ "http" ∧ parsed.scheme ≠ "https" then true
      else if parsed.username ≠ "" ∨ parsed.password.isSome then true
      else if parsed.port.any fun port => port ≠ 80 && port ≠ 443 then true
      else
        match parsed.host with
        | none => true
        | some host =>
            let hostname := host.text.map Char.toLower
            if !allowlist.isEmpty && !allowlist.allows hostname then true
            else isPrivateHost hostname

/-! ## Fetches -/

def maxRedirects : Nat :=
  3

structure Response where
  status : Nat
  location : Option String
deriving DecidableEq, Repr

inductive FetchError
  | blocked (url : String)
  | tooManyRedirects
  | worker
deriving DecidableEq, Repr

/-- What a fetch meets: the allowlist that is set at each hop, the responses, and the targets of
redirects. -/
structure Network where
  allowlist : Nat → AllowList
  respond : Nat → String → Option Response
  redirect : String → String → Option String

/-- The hops that are left from some hop on: the URLs that are requested at each hop, and what
comes of it. -/
def fetchFrom (parse : String → Option ParsedUrl) (network : Network) :
    Nat → Nat → String → List (Nat × String) × Except FetchError Response
  | 0, _, _ => ([], .error .tooManyRedirects)
  | hops + 1, hop, currentUrl =>
      if isPrivateUrlWith parse currentUrl (network.allowlist hop) then
        ([], .error (.blocked currentUrl))
      else
        match network.respond hop currentUrl with
        | none => ([(hop, currentUrl)], .error .worker)
        | some response =>
            if ¬(300 ≤ response.status ∧ response.status < 400) then
              ([(hop, currentUrl)], .ok response)
            else
              match response.location with
              | none => ([(hop, currentUrl)], .error (.blocked "redirect missing Location"))
              | some location =>
                  match network.redirect currentUrl location with
                  | none => ([(hop, currentUrl)], .error (.blocked location))
                  | some next =>
                      let rest := fetchFrom parse network hops (hop + 1) next
                      ((hop, currentUrl) :: rest.1, rest.2)

def ssrfFetchWithRedirects (parse : String → Option ParsedUrl) (network : Network)
    (initialUrl : String) : List (Nat × String) × Except FetchError Response :=
  fetchFrom parse network (maxRedirects + 1) 0 initialUrl

/-! ## What the policy is for -/

/-- A name in the localhost, local or metadata families. -/
def IsInternalName (name : List Char) : Prop :=
  isUnder "local".toList name = true ∨ isUnder "localhost".toList name = true ∨
    name = "metadata.google.internal".toList ∨ name = "metadata.goog".toList

/-- A name without the dot of the root at its end. -/
def withoutDot (name : List Char) : List Char :=
  if name.getLast? = some '.' then name.dropLast else name

namespace Host

/-- A name of the families, in any letters and with a dot at its end or without. -/
def InternalName : Host → Prop
  | domain name _ _ => IsInternalName (withoutDot (name.map Char.toLower))
  | _ => False

/-- An address that no host of the public internet has. -/
def SpecialAddress : Host → Prop
  | ipv4 address => address.Special
  | ipv6 address _ _ _ _ => address.Special
  | domain _ _ _ => False

/-- The text of a host without brackets. -/
def bare : Host → List Char
  | ipv6 _ text _ _ _ => text
  | host => host.text

end Host

/-- Scheme, credentials, port and allowlist are as they should be. -/
structure Passes (allowlist : AllowList) (url : ParsedUrl) (host : Host) : Prop where
  scheme : url.scheme = "http" ∨ url.scheme = "https"
  credentials : url.username = "" ∧ url.password = none
  port : ∀ port, url.port = some port → port = 80 ∨ port = 443
  listed : allowlist.hosts = [] ∨
    ∃ entry ∈ allowlist.hosts, host.bare = entry ∨ '.' :: entry <:+ host.bare

/-- An URL that is not refused may be fetched from, and a fetch requests no other. -/
structure KeepsOut (parse : String → Option ParsedUrl) (rawUrl : String) (allowlist : AllowList) :
    Prop where
  sound : isPrivateUrlWith parse rawUrl allowlist = false → ∃ url host,
    parse rawUrl = some url ∧ url.host = some host ∧ Passes allowlist url host ∧
      ¬host.InternalName ∧ ¬host.SpecialAddress
  fetches : ∀ network : Network,
    (ssrfFetchWithRedirects parse network rawUrl).1.length ≤ maxRedirects + 1 ∧
      ∀ request ∈ (ssrfFetchWithRedirects parse network rawUrl).1,
        isPrivateUrlWith parse request.2 (network.allowlist request.1) = false

/-- IPv6 addresses that no branch recognises. -/
def Unrecognised (address : Ipv6) : Prop :=
  (address.Mapped ∨ address.Nat64) ∧ (Ipv6.v4 address.s6 address.s7).SetAside ∨
    address.SixToFour ∧ (Ipv6.v4 address.s1 address.s2).SetAside ∨
    address.Translated ∧ (Ipv6.v4 address.s6 address.s7).Special ∨
    address.Teredo ∧ (Ipv6.v4 (Fin.rev address.s6) (Fin.rev address.s7)).Special ∨
    address.Isatap ∧ address.GlobalUnicast ∧ ¬address.SixToFour ∧ ¬address.Teredo ∧
      (Ipv6.v4 address.s6 address.s7).Special ∨
    address.SetAside ∨
    -- unassigned space and multicast
    (¬address.GlobalUnicast ∧ ¬address.Mapped ∧ ¬address.Translated ∧ ¬address.Nat64) ∧
      ¬(0xfc00 ≤ address.s0.val ∧ address.s0.val < 0xfe00) ∧
      ¬(0xfe80 ≤ address.s0.val ∧ address.s0.val < 0xff00) ∧
      ¬((address.s0.val = 0x64 ∧ address.s1.val = 0xff9b) ∧
        ((Ipv6.v4 address.s6 address.s7).Internal ∨ 240 ≤ (Ipv6.v4 address.s6 address.s7).a.val))

/-- The hosts that get past the checks of names and addresses: names of the families with a dot
at their end, and addresses of ranges that are not among those checked. -/
def Host.Slips : Host → Prop
  | .domain name _ _ => name.getLast? = some '.' ∧ IsInternalName name.dropLast ∧
      ¬("fc".toList <+: name ∨ "fd".toList <+: name ∨ "fe80".toList <+: name)
  | .ipv4 address => address.SetAside
  | .ipv6 address _ _ _ _ => Unrecognised address

/-! ## Addresses -/

theorem isPrivateIpv4_iff
    (octets : Ipv4) :
    isPrivateIpv4 octets = true ↔ octets.Internal ∨ 240 ≤ octets.a.val := by
  unfold isPrivateIpv4 Ipv4.Internal
  simp only [Bool.or_eq_true, Bool.and_eq_true, beq_iff_eq, decide_eq_true_eq]
  tauto

theorem special_and_not_private_iff
    (octets : Ipv4) :
    octets.Special ∧ isPrivateIpv4 octets = false ↔ octets.SetAside := by
  rw [← Bool.not_eq_true, isPrivateIpv4_iff]
  unfold Ipv4.Special
  constructor
  · rintro ⟨isInternal | isSetAside | isReserved, notPrivate⟩
    · exact absurd (.inl isInternal) notPrivate
    · exact isSetAside
    · exact absurd (.inr isReserved) notPrivate
  · intro isSetAside
    refine ⟨.inr (.inl isSetAside), ?_⟩
    unfold Ipv4.SetAside at isSetAside
    unfold Ipv4.Internal
    generalize octets.a.val = a at isSetAside ⊢
    generalize octets.b.val = b at isSetAside ⊢
    rcases isSetAside with shared | assigned | relay | benchmark | example_ | example_ | multicast
    all_goals omega

/-- The bits of a segment from one on. -/
theorem land_mask
    (low high : Nat)
    (segment : Nat)
    (fits : segment < 2 ^ (low + high)) :
    segment &&& (2 ^ high - 1) <<< low = segment / 2 ^ low * 2 ^ low := by
  rw [← Nat.shiftRight_eq_div_pow, ← Nat.shiftLeft_eq]
  refine Nat.eq_of_testBit_eq fun bit => ?_
  simp only [Nat.testBit_and, Nat.testBit_shiftLeft, Nat.testBit_shiftRight,
    Nat.testBit_two_pow_sub_one]
  by_cases isLow : low ≤ bit
  · simp only [isLow, decide_true, Bool.true_and, Nat.add_sub_cancel' isLow]
    by_cases isHigh : bit - low < high
    · simp [isHigh]
    · have noBit : segment.testBit bit = false := by
        apply Nat.testBit_lt_two_pow
        exact fits.trans_le (Nat.pow_le_pow_right (by decide) (by omega))
      simp [noBit]
  · simp [isLow]

theorem land_fe00
    (segment : Fin 65536) :
    segment.val &&& 0xfe00 = 0xfc00 ↔ 0xfc00 ≤ segment.val ∧ segment.val < 0xfe00 := by
  have masked := land_mask 9 7 segment.val segment.isLt
  change segment.val &&& 0xfe00 = segment.val / 512 * 512 at masked
  rw [masked]
  omega

theorem land_ffc0
    (segment : Fin 65536) :
    segment.val &&& 0xffc0 = 0xfe80 ∨ segment.val &&& 0xffc0 = 0xfec0 ↔
      0xfe80 ≤ segment.val ∧ segment.val < 0xff00 := by
  have masked := land_mask 6 10 segment.val segment.isLt
  change segment.val &&& 0xffc0 = segment.val / 64 * 64 at masked
  rw [masked]
  omega

/-- The IPv6 branches, with the ranges that the masks stand for. -/
theorem isPrivateIpv6_eq_false_iff
    (v6 : Ipv6) :
    isPrivateIpv6 v6 = false ↔
      ¬(v6.Mapped ∧ isPrivateIpv4 (Ipv6.v4 v6.s6 v6.s7) = true) ∧
      ¬(0xfc00 ≤ v6.s0.val ∧ v6.s0.val < 0xfe00) ∧
      ¬(0xfe80 ≤ v6.s0.val ∧ v6.s0.val < 0xff00) ∧
      ¬(v6.SixToFour ∧ isPrivateIpv4 (Ipv6.v4 v6.s1 v6.s2) = true) ∧
      ¬((v6.s0.val = 0x64 ∧ v6.s1.val = 0xff9b) ∧
        isPrivateIpv4 (Ipv6.v4 v6.s6 v6.s7) = true) := by
  have mapped_iff : v6.Mapped ↔ v6.s0.val = 0 ∧ v6.s1.val = 0 ∧ v6.s2.val = 0 ∧ v6.s3.val = 0 ∧
      v6.s4.val = 0 ∧ (v6.s5.val = 0 ∨ v6.s5.val = 0xffff) := by
    unfold Ipv6.Mapped Ipv6.FirstFour
    tauto
  have zero_or_one : (v6 = ⟨0, 0, 0, 0, 0, 0, 0, 1⟩ ∨ v6 = ⟨0, 0, 0, 0, 0, 0, 0, 0⟩) →
      v6.Mapped ∧ isPrivateIpv4 (Ipv6.v4 v6.s6 v6.s7) = true := by
    rintro (rfl | rfl)
    · exact ⟨mapped_iff.mpr (by decide), by decide⟩
    · exact ⟨mapped_iff.mpr (by decide), by decide⟩
  rw [← land_fe00, ← land_ffc0]
  unfold isPrivateIpv6
  split
  · rename_i isFirst
    exact iff_of_false Bool.true_eq_false.mp fun kept => kept.1 (zero_or_one isFirst)
  · split
    · rename_i isMasked
      refine iff_of_false Bool.true_eq_false.mp fun kept => ?_
      rcases isMasked with isLocal | isLink
      · exact kept.2.1 isLocal
      · exact kept.2.2.1 isLink
    · rename_i notMasked
      rw [not_or] at notMasked
      rw [and_iff_right notMasked.1, and_iff_right notMasked.2]
      split
      · rename_i isSix
        have notMapped : ¬v6.Mapped := fun isMapped => by
          have isZero := (mapped_iff.mp isMapped).1
          omega
        have notNat64 : ¬(v6.s0.val = 0x64 ∧ v6.s1.val = 0xff9b) := by omega
        rw [← Bool.not_eq_true]
        tauto
      · rename_i notSix
        split
        · rename_i isNat64
          have notMapped : ¬v6.Mapped := fun isMapped => by
            have isZero := (mapped_iff.mp isMapped).1
            omega
          rw [← Bool.not_eq_true]
          tauto
        · rename_i notNat64
          split
          · rename_i isMapped
            rw [← mapped_iff] at isMapped
            rw [← Bool.not_eq_true]
            tauto
          · rename_i notMapped
            rw [← mapped_iff] at notMapped
            exact iff_of_true rfl ⟨fun both => notMapped both.1, fun both => notSix both.1,
              fun both => notNat64 both.1⟩

theorem first_of_mapped
    {v6 : Ipv6}
    (isMapped : v6.Mapped) :
    v6.s0.val = 0 ∧ (v6.s5.val = 0 ∨ v6.s5.val = 0xffff) ∧ v6.s4.val = 0 :=
  ⟨isMapped.1.1, isMapped.2.2, isMapped.2.1⟩

theorem first_of_translated
    {v6 : Ipv6}
    (isTranslated : v6.Translated) :
    v6.s0.val = 0 ∧ v6.s5.val = 0 ∧ v6.s4.val = 0xffff :=
  ⟨isTranslated.1.1, isTranslated.2.2, isTranslated.2.1⟩

theorem first_of_nat64
    {v6 : Ipv6}
    (isNat64 : v6.Nat64) :
    v6.s0.val = 0x64 ∧ v6.s1.val = 0xff9b ∧ v6.s5.val = 0 :=
  ⟨isNat64.1, isNat64.2.1, isNat64.2.2.2.2.2⟩

theorem first_of_setAside
    {v6 : Ipv6}
    (isSetAside : v6.SetAside) :
    v6.s0.val = 0x2001 ∨ v6.s0.val = 0x3fff := by
  rcases isSetAside with document | document | benchmark
  · exact .inl document.1
  · exact .inr document.1
  · exact .inl benchmark.1

/-- What no branch recognises passes: none of the tests that refuse an address applies. -/
theorem not_privateIpv6_of_first
    {v6 : Ipv6}
    (notMapped : v6.s0.val ≠ 0 ∨ v6.s4.val ≠ 0)
    (below : v6.s0.val < 0xfc00)
    (notSix : v6.s0.val ≠ 0x2002)
    (notNat64 : v6.s0.val ≠ 0x64) :
    isPrivateIpv6 v6 = false := by
  refine (isPrivateIpv6_eq_false_iff v6).mpr ⟨fun both => ?_, by omega, by omega,
    fun both => notSix both.1, fun both => notNat64 both.1.1⟩
  have first := first_of_mapped both.1
  omega

/-- An address that no host of the public internet has passes exactly when it is one of those
that no branch recognises. -/
theorem special_and_not_privateIpv6_iff
    (v6 : Ipv6) :
    v6.Special ∧ isPrivateIpv6 v6 = false ↔ Unrecognised v6 := by
  constructor
  · rintro ⟨isSpecial, notPrivate⟩
    obtain ⟨notMapped, notLocal, notLink, notSix, notNat64⟩ :=
      (isPrivateIpv6_eq_false_iff v6).mp notPrivate
    have inLast : (¬v6.GlobalUnicast ∧ ¬v6.Mapped ∧ ¬v6.Translated ∧ ¬v6.Nat64) →
        Unrecognised v6 := by
      intro outside
      refine .inr (.inr (.inr (.inr (.inr (.inr ⟨outside, notLocal, notLink, ?_⟩)))))
      rwa [← isPrivateIpv4_iff]
    rcases isSpecial with ⟨inner, carries, innerSpecial⟩ | isSetAside | outside
    · have setAside : isPrivateIpv4 inner ≠ true → inner.SetAside := fun innerPasses =>
        (special_and_not_private_iff inner).mp ⟨innerSpecial, Bool.not_eq_true _ ▸ innerPasses⟩
      rcases carries with ⟨isMapped | isTranslated | isNat64 | isIsatap, rfl⟩ | ⟨isSix, rfl⟩ |
        ⟨isTeredo, rfl⟩
      · exact .inl ⟨.inl isMapped, setAside fun isPrivate => notMapped ⟨isMapped, isPrivate⟩⟩
      · exact .inr (.inr (.inl ⟨isTranslated, innerSpecial⟩))
      · refine .inl ⟨.inr isNat64, setAside fun isPrivate => notNat64 ⟨?_, isPrivate⟩⟩
        exact ⟨isNat64.1, isNat64.2.1⟩
      · by_cases isGlobal : v6.GlobalUnicast
        · exact .inr (.inr (.inr (.inr (.inl ⟨isIsatap.1, isGlobal, isIsatap.2.1, isIsatap.2.2,
            innerSpecial⟩))))
        · have fifth : v6.s5.val = 0x5efe := isIsatap.1.2
          refine inLast ⟨isGlobal, fun isMapped => ?_, fun isTranslated => ?_, fun isNat64 => ?_⟩
          · have first := first_of_mapped isMapped
            omega
          · have first := first_of_translated isTranslated
            omega
          · have first := first_of_nat64 isNat64
            omega
      · exact .inr (.inl ⟨isSix, setAside fun isPrivate => notSix ⟨isSix, isPrivate⟩⟩)
      · exact .inr (.inr (.inr (.inl ⟨isTeredo, innerSpecial⟩)))
    · exact .inr (.inr (.inr (.inr (.inr (.inl isSetAside)))))
    · exact inLast outside
  · have passes : ∀ {inner : Ipv4}, inner.SetAside → inner.Special ∧ ¬isPrivateIpv4 inner = true :=
      fun isSetAside => by
        rw [Bool.not_eq_true]
        exact (special_and_not_private_iff _).mpr isSetAside
    rintro (⟨isMapped | isNat64, isSetAside⟩ | ⟨isSix, isSetAside⟩ | ⟨isTranslated, isSpecial⟩ |
      ⟨isTeredo, isSpecial⟩ | ⟨isIsatap, isGlobal, notSix, notTeredo, isSpecial⟩ | isSetAside |
      ⟨outside, notLocal, notLink, notNat64⟩)
    · refine ⟨.inl ⟨_, .inl ⟨.inl isMapped, rfl⟩, (passes isSetAside).1⟩, ?_⟩
      have first := first_of_mapped isMapped
      refine (isPrivateIpv6_eq_false_iff v6).mpr ⟨fun both => (passes isSetAside).2 both.2,
        by omega, by omega, fun both => ?_, fun both => (passes isSetAside).2 both.2⟩
      have isSix : v6.s0.val = 0x2002 := both.1
      omega
    · refine ⟨.inl ⟨_, .inl ⟨.inr (.inr (.inl isNat64)), rfl⟩, (passes isSetAside).1⟩, ?_⟩
      have first := first_of_nat64 isNat64
      refine (isPrivateIpv6_eq_false_iff v6).mpr ⟨fun both => (passes isSetAside).2 both.2,
        by omega, by omega, fun both => ?_, fun both => (passes isSetAside).2 both.2⟩
      have isSix : v6.s0.val = 0x2002 := both.1
      omega
    · refine ⟨.inl ⟨_, .inr (.inl ⟨isSix, rfl⟩), (passes isSetAside).1⟩, ?_⟩
      have first : v6.s0.val = 0x2002 := isSix
      refine (isPrivateIpv6_eq_false_iff v6).mpr ⟨fun both => ?_, by omega, by omega,
        fun both => (passes isSetAside).2 both.2, by omega⟩
      have isZero := first_of_mapped both.1
      omega
    · have first := first_of_translated isTranslated
      exact ⟨.inl ⟨_, .inl ⟨.inr (.inl isTranslated), rfl⟩, isSpecial⟩,
        not_privateIpv6_of_first (by omega) (by omega) (by omega) (by omega)⟩
    · have first : v6.s0.val = 0x2001 := isTeredo.1
      exact ⟨.inl ⟨_, .inr (.inr ⟨isTeredo, rfl⟩), isSpecial⟩,
        not_privateIpv6_of_first (by omega) (by omega) (by omega) (by omega)⟩
    · have above := isGlobal.1
      have below := isGlobal.2
      have first : v6.s0.val ≠ 0x2002 := notSix
      exact ⟨.inl ⟨_, .inl ⟨.inr (.inr (.inr ⟨isIsatap, notSix, notTeredo⟩)), rfl⟩, isSpecial⟩,
        not_privateIpv6_of_first (by omega) (by omega) (by omega) (by omega)⟩
    · have first := first_of_setAside isSetAside
      exact ⟨.inr (.inl isSetAside),
        not_privateIpv6_of_first (by omega) (by omega) (by omega) (by omega)⟩
    · refine ⟨.inr (.inr outside), (isPrivateIpv6_eq_false_iff v6).mpr
        ⟨fun both => outside.2.1 both.1, notLocal, notLink, fun both => outside.1 ?_, ?_⟩⟩
      · have first : v6.s0.val = 0x2002 := both.1
        unfold Ipv6.GlobalUnicast
        omega
      · rwa [isPrivateIpv4_iff]

/-! ## Texts of hosts -/

section Texts

variable {name hostname base : List Char} {char : Char}

theorem isUnder_iff :
    isUnder name hostname = true ↔ hostname = name ∨ '.' :: name <:+ hostname := by
  unfold isUnder
  rw [Bool.or_eq_true, beq_iff_eq, List.isSuffixOf_iff_suffix]

/-- A host that ends with another character than a name is not under the name. -/
theorem isUnder_eq_false
    (notEnd : hostname.getLast? ≠ name.getLast?)
    (notEmpty : name ≠ []) :
    isUnder name hostname = false := by
  rw [← Bool.not_eq_true, isUnder_iff]
  rintro (rfl | ⟨before, rfl⟩)
  · exact notEnd rfl
  · rw [List.getLast?_append_cons, List.getLast?_cons_of_ne_nil notEmpty] at notEnd
    exact notEnd rfl

/-- A character that is no hexadecimal digit and no `x` keeps a host from being a number. -/
theorem not_number
    (isChar : char ∈ hostname)
    (notDigit : isAsciiHexdigit char = false)
    (notX : char ≠ 'x') :
    ¬(hostname ≠ [] ∧ hostname.all Char.isDigit = true) ∧
      ¬((stripPrefixChars "0x".toList hostname).any fun rest =>
        rest ≠ [] && rest.all isAsciiHexdigit) = true := by
  constructor
  · rintro ⟨-, areDigits⟩
    have isDigit := List.all_eq_true.mp areDigits char isChar
    unfold isAsciiHexdigit at notDigit
    rw [isDigit] at notDigit
    cases notDigit
  · intro isNumber
    obtain ⟨rest, isRest, areDigits⟩ := (Option.any_eq_true _ _).mp isNumber
    rw [Shared.stripPrefixChars_eq_some_iff] at isRest
    rw [Bool.and_eq_true] at areDigits
    rw [isRest] at isChar
    rcases List.mem_append.mp isChar with isStart | isLater
    · fin_cases isStart
      · cases notDigit
      · exact notX rfl
    · rw [List.all_eq_true.mp areDigits.2 char isLater] at notDigit
      cases notDigit

/-- A host that ends with a dot or a bracket is looked at as an address. -/
theorem isPrivateHost_of_end
    (isEnd : hostname.getLast? = some char)
    (isMark : char = '.' ∨ char = ']') :
    isPrivateHost hostname = isPrivateAddress hostname := by
  have isChar : char ∈ hostname := List.mem_of_getLast? isEnd
  have notDigit : isAsciiHexdigit char = false := by rcases isMark with rfl | rfl <;> decide
  have notNumber := not_number isChar notDigit (by rcases isMark with rfl | rfl <;> decide)
  have others : ∀ {name : List Char}, name.getLast? ≠ some '.' → name.getLast? ≠ some ']' →
      hostname.getLast? ≠ name.getLast? := by
    intro name notDot notBracket
    rw [isEnd]
    rcases isMark with rfl | rfl
    · exact notDot.symm
    · exact notBracket.symm
  have notNamed : ∀ {name : List Char}, name.getLast? ≠ some '.' → name.getLast? ≠ some ']' →
      hostname ≠ name := fun notDot notBracket same => others notDot notBracket (by rw [same])
  unfold isPrivateHost
  rw [isUnder_eq_false (others (by decide) (by decide)) (by decide), if_neg Bool.false_ne_true,
    if_neg notNumber.1, if_neg notNumber.2,
    isUnder_eq_false (others (by decide) (by decide)) (by decide), if_neg Bool.false_ne_true,
    if_neg]
  rintro (isName | isName | isName)
  · exact notNamed (by decide) (by decide) isName
  · exact notNamed (by decide) (by decide) isName
  · exact notNamed (by decide) (by decide) isName

theorem parseIpv4_of_notMem
    (noDot : '.' ∉ hostname) :
    parseIpv4 hostname = none := by
  unfold parseIpv4
  rw [List.splitOn_eq_singleton noDot]
  split
  · rename_i isRead
    have counted := (Lib.mapM_eq_some_iff.mp isRead).length_eq
    cases counted
  · rfl

theorem parseIpv4_of_end
    (base : List Char) :
    parseIpv4 (base ++ ['.']) = none := by
  unfold parseIpv4
  have noRead : ((base ++ ['.']).splitOn '.').mapM
      (fun part => parseUnsigned 8 (String.ofList part)) = none := by
    rw [List.splitOn_append_cons_self, List.mapM_append]
    cases (base.splitOn '.').mapM fun part => parseUnsigned 8 (String.ofList part) with
    | none => rfl
    | some octets => rfl
  rw [noRead]

theorem dots_text
    (address : Ipv4) :
    address.text.splitOn '.' =
      [address.a, address.b, address.c, address.d].map fun octet => Nat.toDigits 10 octet.val := by
  refine List.splitOn_intercalate '.' (fun digits areDigits isDot => ?_) (List.cons_ne_nil _ _)
  obtain ⟨octet, -, rfl⟩ := List.mem_map.mp areDigits
  exact absurd (Lib.areDigits_toDigits octet.val '.' isDot) (by decide)

theorem parseIpv4_text
    (address : Ipv4) :
    parseIpv4 address.text = some address := by
  have isRead : (address.text.splitOn '.').mapM
      (fun part => parseUnsigned 8 (String.ofList part)) =
        some [address.a.val, address.b.val, address.c.val, address.d.val] := by
    rw [Lib.mapM_eq_some_iff, dots_text]
    refine .cons ?_ (.cons ?_ (.cons ?_ (.cons ?_ .nil)))
    · exact Relay.parseUnsigned_toDigits address.a.isLt
    · exact Relay.parseUnsigned_toDigits address.b.isLt
    · exact Relay.parseUnsigned_toDigits address.c.isLt
    · exact Relay.parseUnsigned_toDigits address.d.isLt
  unfold parseIpv4
  rw [isRead]
  simp

theorem splitDouble_of_notMem
    (noColon : ':' ∉ hostname) :
    Lib.splitDouble hostname = none := by
  induction hostname with
  | nil => rfl
  | cons char hostname inductionHypothesis =>
      rw [List.mem_cons, not_or] at noColon
      unfold Lib.splitDouble
      split
      · rename_i isSplit
        cases isSplit
        exact absurd rfl noColon.1
      · rename_i isSplit
        cases isSplit
        rw [inductionHypothesis noColon.2, Option.map_none]
      · rfl

theorem readIpv6_of_notMem
    (noColon : ':' ∉ hostname) :
    Lib.readIpv6 hostname = none := by
  unfold Lib.readIpv6
  rw [splitDouble_of_notMem noColon]
  dsimp only
  by_cases isEmpty : hostname = []
  · rw [isEmpty]
    rfl
  · unfold Lib.colonParts
    rw [if_neg isEmpty, List.splitOn_eq_singleton noColon]
    unfold Lib.readSegments
    split
    · cases Lib.readIpv4 hostname <;> rfl
    · cases Lib.readSegment hostname <;> rfl

theorem stripBrackets_of_notMem
    (noBracket : '[' ∉ hostname) :
    stripBrackets hostname = hostname := by
  unfold stripBrackets
  split
  · exact absurd List.mem_cons_self noBracket
  · rfl

theorem stripBrackets_brackets
    (text : List Char) :
    stripBrackets ('[' :: text ++ [']']) = text := by
  change (if (text ++ [']']).getLast? = some ']' then (text ++ [']']).dropLast
    else '[' :: text ++ [']']) = text
  rw [List.getLast?_concat, if_pos rfl, List.dropLast_concat]

/-! ## What each kind of host comes to -/

/-- Dotted decimals have a dot and end with a digit. -/
theorem text_eq
    (address : Ipv4) :
    ∃ before digit, address.text = before ++ '.' :: Nat.toDigits 10 address.d.val ∧
      address.text.getLast? = some digit ∧ digit.isDigit = true := by
  have areDigits := Lib.areDigits_toDigits address.d.val
  have notEmpty : Nat.toDigits 10 address.d.val ≠ [] := Nat.toDigits_ne_nil
  have isText : address.text = (Nat.toDigits 10 address.a.val ++ '.' ::
      (Nat.toDigits 10 address.b.val ++ '.' :: Nat.toDigits 10 address.c.val)) ++ '.' ::
        Nat.toDigits 10 address.d.val := by
    simp [Ipv4.text, List.intercalate]
  refine ⟨_, (Nat.toDigits 10 address.d.val).getLast notEmpty, isText, ?_,
    areDigits _ (List.getLast_mem notEmpty)⟩
  rw [isText, List.getLast?_append_cons, List.getLast?_cons_of_ne_nil notEmpty,
    List.getLast?_eq_some_getLast notEmpty]

theorem mem_text
    {address : Ipv4}
    (isChar : char ∈ address.text) :
    char = '.' ∨ char.isDigit = true := by
  have isText : address.text = Nat.toDigits 10 address.a.val ++ '.' ::
      (Nat.toDigits 10 address.b.val ++ '.' :: (Nat.toDigits 10 address.c.val ++ '.' ::
        Nat.toDigits 10 address.d.val)) := by
    simp [Ipv4.text, List.intercalate]
  have areDigits := Lib.areDigits_toDigits
  unfold Lib.AreDigits at areDigits
  rw [isText] at isChar
  simp only [List.mem_append, List.mem_cons] at isChar
  rcases isChar with isDigit | rfl | isDigit | rfl | isDigit | rfl | isDigit
  · exact .inr (areDigits _ _ isDigit)
  · exact .inl rfl
  · exact .inr (areDigits _ _ isDigit)
  · exact .inl rfl
  · exact .inr (areDigits _ _ isDigit)
  · exact .inl rfl
  · exact .inr (areDigits _ _ isDigit)

theorem isPrivateHost_ipv4
    (address : Ipv4) :
    isPrivateHost address.text = isPrivateIpv4 address := by
  obtain ⟨before, digit, isText, isLast, isDigit⟩ := text_eq address
  have hasDot : '.' ∈ address.text := by
    rw [isText]
    exact List.mem_append_right _ List.mem_cons_self
  have notNumber := not_number hasDot (by decide) (by decide)
  have others : ∀ (last : Char) {name : List Char}, name.getLast? = some last →
      last.isDigit = false → address.text.getLast? ≠ name.getLast? := by
    intro last name isEnd notDigit same
    rw [isLast, isEnd, Option.some.injEq] at same
    rw [same, notDigit] at isDigit
    cases isDigit
  have isAddress : isPrivateAddress address.text = isPrivateIpv4 address := by
    unfold isPrivateAddress
    rw [parseIpv4_text]
  unfold isPrivateHost
  rw [isUnder_eq_false (others 'l' (by decide) (by decide)) (by decide),
    if_neg Bool.false_ne_true, if_neg notNumber.1, if_neg notNumber.2,
    isUnder_eq_false (others 't' (by decide) (by decide)) (by decide),
    if_neg Bool.false_ne_true, isAddress]
  split
  · rename_i isMetadata
    rcases isMetadata with isMetadata | isMetadata | isMetadata
    · have isSame := parseIpv4_text address
      rw [isMetadata] at isSame
      have isKnown : parseIpv4 "169.254.169.254".toList = some ⟨169, 254, 169, 254⟩ := by decide
      rw [isKnown, Option.some.injEq] at isSame
      rw [← isSame]
      decide
    · exact absurd (congrArg List.getLast? isMetadata)
        (others 'l' (by decide) (by decide))
    · exact absurd (congrArg List.getLast? isMetadata)
        (others 'g' (by decide) (by decide))
  · rfl

theorem isPrivateHost_ipv6
    {address : Ipv6}
    {text : List Char}
    (isPlain : '.' ∉ text)
    (isText : Lib.readIpv6 text = some address) :
    isPrivateHost ('[' :: text ++ [']']) = isPrivateIpv6 address := by
  have noDot : '.' ∉ '[' :: text ++ [']'] := by simp [isPlain]
  rw [isPrivateHost_of_end (by rw [List.getLast?_concat]) (.inr rfl)]
  unfold isPrivateAddress
  rw [parseIpv4_of_notMem noDot]
  dsimp only
  rw [stripBrackets_brackets, isText]

/-- A name that ends with a dot passes unless it looks like a local IPv6 address. -/
theorem isPrivateHost_of_dot
    (isPlain : ':' ∉ base ++ ['.'] ∧ '[' ∉ base ++ ['.']) :
    isPrivateHost (base ++ ['.']) = false ↔
      ¬("fc".toList <+: base ++ ['.'] ∨ "fd".toList <+: base ++ ['.'] ∨
        "fe80".toList <+: base ++ ['.']) := by
  have notLoopback : base ++ ['.'] ≠ "::1".toList := fun same =>
    isPlain.1 (same ▸ by decide)
  have noPrefix : stripPrefixChars "::ffff:".toList (base ++ ['.']) = none := by
    rw [Option.eq_none_iff_forall_ne_some]
    intro rest isRest
    rw [Shared.stripPrefixChars_eq_some_iff] at isRest
    exact isPlain.1 (isRest ▸ List.mem_append_left rest (by decide))
  rw [isPrivateHost_of_end (by rw [List.getLast?_concat]) (.inl rfl)]
  unfold isPrivateAddress
  rw [parseIpv4_of_end]
  dsimp only
  rw [stripBrackets_of_notMem isPlain.2, readIpv6_of_notMem isPlain.1]
  dsimp only
  rw [noPrefix]
  split
  · rename_i isLocal
    exact iff_of_false Bool.true_eq_false.mp fun notLocal =>
      notLocal (isLocal.resolve_left notLoopback)
  · rename_i notLocal
    exact iff_of_true rfl fun isLocal => notLocal (.inr isLocal)

/-- A name of the families without a dot at its end is refused. -/
theorem isPrivateHost_of_internal
    (isInternal : IsInternalName name) :
    isPrivateHost name = true := by
  unfold isPrivateHost
  rcases isInternal with isLocal | isLocalhost | isMetadata | isMetadata
  · rw [if_pos isLocal]
  · simp only [isLocalhost, if_true, ite_self]
  · rw [isMetadata]
    decide
  · rw [isMetadata]
    decide

end Texts

/-! ## Hosts that get past the checks -/

theorem slips_iff
    (host : Host) :
    isPrivateHost host.text = false ∧ (host.InternalName ∨ host.SpecialAddress) ↔ host.Slips := by
  cases host with
  | ipv4 address =>
      change _ ↔ address.SetAside
      rw [← special_and_not_private_iff, ← isPrivateHost_ipv4]
      exact ⟨fun both => ⟨both.2.resolve_left id, both.1⟩, fun both => ⟨both.2, .inr both.1⟩⟩
  | ipv6 address text isLower isPlain isText =>
      change _ ↔ Unrecognised address
      rw [← special_and_not_privateIpv6_iff, ← isPrivateHost_ipv6 isPlain isText]
      exact ⟨fun both => ⟨both.2.resolve_left id, both.1⟩, fun both => ⟨both.2, .inr both.1⟩⟩
  | domain name isLower isPlain =>
      change isPrivateHost name = false ∧ (IsInternalName (withoutDot (name.map Char.toLower)) ∨
        False) ↔ name.getLast? = some '.' ∧ IsInternalName name.dropLast ∧ _
      rw [isLower, or_false]
      unfold withoutDot
      by_cases isDot : name.getLast? = some '.'
      · have isName : name.dropLast ++ ['.'] = name := List.dropLast_append_getLast? '.' isDot
        have dotted : isPrivateHost name = false ↔ _ :=
          isName ▸ isPrivateHost_of_dot (isName.symm ▸ isPlain)
        rw [if_pos isDot, dotted]
        tauto
      · rw [if_neg isDot]
        refine iff_of_false ?_ fun slips => isDot slips.1
        rintro ⟨notRefused, isInternal⟩
        rw [isPrivateHost_of_internal isInternal] at notRefused
        cases notRefused

theorem lower_text
    (host : Host) :
    host.text.map Char.toLower = host.text := by
  cases host with
  | domain name isLower isPlain => exact isLower
  | ipv4 address =>
      change address.text.map Char.toLower = address.text
      conv_rhs => rw [← List.map_id address.text]
      refine List.map_congr_left fun char isChar => Char.toLower_eq_of_not_isUpper ?_
      rcases mem_text isChar with rfl | isDigit
      · decide
      · have bounds := Lib.isDigit_bounds isDigit
        unfold Char.isUpper
        rw [decide_eq_true_eq]
        rintro ⟨above, -⟩
        have isAbove : 65 ≤ char.toNat := UInt32.le_iff_toNat_le.mp above
        have isZero : '0'.toNat = 48 := rfl
        omega
  | ipv6 address text isLower isPlain isText =>
      change ('[' :: text ++ [']']).map Char.toLower = _
      rw [List.map_append, List.map_cons, isLower]
      rfl

theorem stripBrackets_text
    (host : Host) :
    stripBrackets host.text = host.bare := by
  cases host with
  | domain name isLower isPlain => exact stripBrackets_of_notMem isPlain.2
  | ipv4 address =>
      refine stripBrackets_of_notMem fun isBracket => ?_
      rcases mem_text isBracket with isDot | isDigit
      · cases isDot
      · cases isDigit
  | ipv6 address text isLower isPlain isText => exact stripBrackets_brackets text

/-- A URL is not refused when all that is checked is as it should be. -/
theorem isPrivateUrlWith_eq_false_iff
    (parse : String → Option ParsedUrl)
    (rawUrl : String)
    (allowlist : AllowList) :
    isPrivateUrlWith parse rawUrl allowlist = false ↔ ∃ url host,
      parse rawUrl = some url ∧ url.host = some host ∧ Passes allowlist url host ∧
        isPrivateHost host.text = false := by
  unfold isPrivateUrlWith
  cases isParsed : parse rawUrl with
  | none => exact iff_of_false Bool.true_eq_false.mp fun ⟨url, _, isUrl, _⟩ => by cases isUrl
  | some url =>
      dsimp only
      cases isHost : url.host with
      | none =>
          refine iff_of_false (by simp) ?_
          rintro ⟨other, host, isUrl, isOther, -⟩
          rw [← Option.some.inj isUrl, isHost] at isOther
          cases isOther
      | some host =>
          have listed_iff : (!allowlist.isEmpty && !allowlist.allows host.text) = false ↔
              allowlist.hosts = [] ∨
                ∃ entry ∈ allowlist.hosts, host.bare = entry ∨ '.' :: entry <:+ host.bare := by
            unfold AllowList.isEmpty AllowList.allows
            rw [lower_text, stripBrackets_text]
            simp [or_iff_not_imp_left]
          have only : (∃ other held, some url = some other ∧ other.host = some held ∧
              Passes allowlist other held ∧ isPrivateHost held.text = false) ↔
              Passes allowlist url host ∧ isPrivateHost host.text = false := by
            constructor
            · rintro ⟨other, held, isUrl, isHeld, passes⟩
              cases isUrl
              rw [isHost] at isHeld
              cases isHeld
              exact passes
            · exact fun passes => ⟨url, host, rfl, isHost, passes⟩
          rw [only]
          dsimp only
          rw [lower_text]
          have scheme_iff : ¬(url.scheme ≠ "http" ∧ url.scheme ≠ "https") ↔
              url.scheme = "http" ∨ url.scheme = "https" := by tauto
          have credentials_iff : ¬(url.username ≠ "" ∨ url.password.isSome = true) ↔
              url.username = "" ∧ url.password = none := by simp
          have port_iff : ¬(url.port.any fun port => port ≠ 80 && port ≠ 443) = true ↔
              ∀ port, url.port = some port → port = 80 ∨ port = 443 := by
            cases url.port with
            | none => simp
            | some port => simp [or_iff_not_imp_left]
          constructor
          · intro notRefused
            split at notRefused
            · cases notRefused
            · rename_i scheme
              split at notRefused
              · cases notRefused
              · rename_i credentials
                split at notRefused
                · cases notRefused
                · rename_i port
                  split at notRefused
                  · cases notRefused
                  · rename_i listed
                    rw [Bool.not_eq_true] at listed
                    exact ⟨⟨scheme_iff.mp scheme, credentials_iff.mp credentials, port_iff.mp port,
                      listed_iff.mp listed⟩, notRefused⟩
          · rintro ⟨passes, notRefused⟩
            rw [if_neg (scheme_iff.mpr passes.scheme), if_neg (credentials_iff.mpr
              passes.credentials), if_neg (port_iff.mpr passes.port),
              listed_iff.mpr passes.listed, if_neg Bool.false_ne_true]
            exact notRefused

/-- The URLs that a fetch requests are those that the policy did not refuse at their hop. -/
theorem fetchFrom_requests
    (parse : String → Option ParsedUrl)
    (network : Network)
    (hops hop : Nat)
    (url : String) :
    (fetchFrom parse network hops hop url).1.length ≤ hops ∧
      ∀ request ∈ (fetchFrom parse network hops hop url).1,
        isPrivateUrlWith parse request.2 (network.allowlist request.1) = false := by
  induction hops generalizing hop url with
  | zero => exact ⟨Nat.le_refl 0, fun request isRequest => by cases isRequest⟩
  | succ hops inductionHypothesis =>
      unfold fetchFrom
      cases isRefused : isPrivateUrlWith parse url (network.allowlist hop) with
      | true => exact ⟨Nat.zero_le _, fun request isRequest => by cases isRequest⟩
      | false =>
          have one : [(hop, url)].length ≤ hops + 1 ∧ ∀ request ∈ [(hop, url)],
              isPrivateUrlWith parse request.2 (network.allowlist request.1) = false := by
            refine ⟨Nat.succ_le_succ (Nat.zero_le hops), fun request isRequest => ?_⟩
            rw [List.mem_singleton.mp isRequest]
            exact isRefused
          rw [if_neg Bool.false_ne_true]
          split
          · exact one
          · split
            · exact one
            · split
              · exact one
              · split
                · exact one
                · rename_i next isNext
                  obtain ⟨short, accepted⟩ := inductionHypothesis (hop + 1) next
                  refine ⟨Nat.succ_le_succ short, fun request isRequest => ?_⟩
                  rcases List.mem_cons.mp isRequest with rfl | isLater
                  · exact isRefused
                  · exact accepted request isLater

/-! ## The internal network is kept out -/

/-- A URL that is not refused may be fetched from, and fetches request no others, exactly when
no URL with a host that gets past the checks is as it should be otherwise. -/
theorem keepsOut_iff
    (parse : String → Option ParsedUrl)
    (rawUrl : String)
    (allowlist : AllowList) :
    KeepsOut parse rawUrl allowlist ↔
      ∀ url host, parse rawUrl = some url → url.host = some host →
        Passes allowlist url host → ¬host.Slips := by
  constructor
  · intro keeps url host isParsed isHost passes slips
    obtain ⟨notRefused, isBad⟩ := (slips_iff host).mpr slips
    obtain ⟨other, held, isOther, isHeld, -, notInternal, notSpecial⟩ := keeps.sound
      ((isPrivateUrlWith_eq_false_iff parse rawUrl allowlist).mpr
        ⟨url, host, isParsed, isHost, passes, notRefused⟩)
    rw [isParsed, Option.some.injEq] at isOther
    rw [← isOther, isHost, Option.some.injEq] at isHeld
    subst isHeld
    rcases isBad with isInternal | isSpecial
    · exact notInternal isInternal
    · exact notSpecial isSpecial
  · intro noSlip
    refine ⟨fun notRefused => ?_, fun network => fetchFrom_requests parse network _ 0 rawUrl⟩
    obtain ⟨url, host, isParsed, isHost, passes, hostPasses⟩ :=
      (isPrivateUrlWith_eq_false_iff parse rawUrl allowlist).mp notRefused
    have notSlips := noSlip url host isParsed isHost passes
    rw [← slips_iff] at notSlips
    exact ⟨url, host, isParsed, isHost, passes,
      fun isInternal => notSlips ⟨hostPasses, .inl isInternal⟩,
      fun isSpecial => notSlips ⟨hostPasses, .inr isSpecial⟩⟩

namespace Sample

/-- The URL "http://localhost./" and no other. -/
def parse (rawUrl : String) : Option ParsedUrl :=
  if rawUrl = "http://localhost./" then
    some ⟨"http", "", none, none,
      some (.domain "localhost.".toList (by decide) (by decide))⟩
  else none

end Sample

/-- A name of the loopback host with the dot of the root at its end is not refused. -/
theorem localhost_accepted :
    isPrivateUrlWith Sample.parse "http://localhost./" ⟨[]⟩ = false ∧
      ¬KeepsOut Sample.parse "http://localhost./" ⟨[]⟩ := by
  have notRefused : isPrivateUrlWith Sample.parse "http://localhost./" ⟨[]⟩ = false := by decide
  refine ⟨notRefused, fun keeps => ?_⟩
  obtain ⟨url, host, isParsed, isHost, -, notInternal, -⟩ := keeps.sound notRefused
  have isUrl : Sample.parse "http://localhost./" = some ⟨"http", "", none, none,
      some (.domain "localhost.".toList (by decide) (by decide))⟩ := if_pos rfl
  rw [isUrl, Option.some.injEq] at isParsed
  rw [← isParsed, Option.some.injEq] at isHost
  rw [← isHost] at notInternal
  exact notInternal (.inr (.inl (by decide)))

end Preview
end NostrBbs
