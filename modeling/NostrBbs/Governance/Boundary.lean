import NostrBbs.Governance.Plans
import NostrBbs.Lib.Calendar
import NostrBbs.Relay.Sanctions
import NostrBbs.Shared.Signing

/-!
# The boundary of a request

What the relay derives from an action request before it projects the case: the tier that
governs it, whether it is sampled, the deadline of its panel and the expiry of its
proposal.  A slice of a text that no character boundary ends is a panic, `none`.
-/

namespace NostrBbs
namespace Governance

open Relay (JsonValue NostrEvent Tag parseSigned parseUnsigned isAsciiHexdigit eqIgnoreAsciiCase)

/-! ## Task properties -/

inductive Verifiability
  | inspectable
  | partly
  | hidden
  deriving DecidableEq, Repr

def Verifiability.parse (text : String) : Verifiability :=
  if text = "partial" then partly
  else if text = "opaque" then hidden
  else inspectable

def Verifiability.rank : Verifiability → Nat
  | inspectable => 0
  | partly => 1
  | hidden => 2

inductive Reversibility
  | reversible
  | compensable
  | irreversible
  deriving DecidableEq, Repr

def Reversibility.parse (text : String) : Reversibility :=
  if text = "compensable" then compensable
  else if text = "irreversible" then irreversible
  else reversible

def Reversibility.rank : Reversibility → Nat
  | reversible => 0
  | compensable => 1
  | irreversible => 2

inductive Stakes
  | bounded
  | significant
  | critical
  deriving DecidableEq, Repr

def Stakes.parse (text : String) : Stakes :=
  if text = "significant" then significant
  else if text = "critical" then critical
  else bounded

def Stakes.rank : Stakes → Nat
  | bounded => 0
  | significant => 1
  | critical => 2

def RiskTier.rank : RiskTier → Nat
  | low => 0
  | medium => 1
  | high => 2
  | critical => 3

/-- The greater of two values by their ranks. -/
def tighter {Leg : Type} (rank : Leg → Nat) (first second : Leg) : Leg :=
  if rank first ≤ rank second then second else first

structure TaskProperties where
  verifiability : Verifiability
  reversibility : Reversibility
  stakes : Stakes
deriving DecidableEq, Repr

namespace TaskProperties

/-- The triple that some tags declare, its missing legs at their loosest. -/
def fromTags (tags : List Tag) : Option TaskProperties :=
  let verifiability := extractTag tags "tp-verifiability"
  let reversibility := extractTag tags "tp-reversibility"
  let stakes := extractTag tags "tp-stakes"
  if verifiability.isNone && reversibility.isNone && stakes.isNone then none
  else
    some
      { verifiability := (verifiability.map Verifiability.parse).getD .inspectable
        reversibility := (reversibility.map Reversibility.parse).getD .reversible
        stakes := (stakes.map Stakes.parse).getD .bounded }

def merge (panel request : TaskProperties) : TaskProperties where
  verifiability := tighter Verifiability.rank panel.verifiability request.verifiability
  reversibility := tighter Reversibility.rank panel.reversibility request.reversibility
  stakes := tighter Stakes.rank panel.stakes request.stakes

def mergeOpt : Option TaskProperties → Option TaskProperties → Option TaskProperties
  | none, none => none
  | some panel, none => some panel
  | none, some request => some request
  | some panel, some request => some (merge panel request)

/-- The lowest tier that a triple permits. -/
def tierFloor (props : TaskProperties) : RiskTier :=
  if props.reversibility = .irreversible ∨ props.stakes = .critical then .high
  else if props.verifiability = .hidden then .medium
  else .low

def forbidsSuppression (props : TaskProperties) : Bool :=
  props.verifiability == .hidden || props.reversibility == .irreversible ||
    props.stakes == .critical

end TaskProperties

/-- The tier that governs a case. -/
def effectiveTier (panelProps requestProps : Option TaskProperties) (declared : Option RiskTier)
    (advertisedDefault : RiskTier) : RiskTier :=
  match declared, TaskProperties.mergeOpt panelProps requestProps with
  | none, none => advertisedDefault
  | some tier, none => tier
  | none, some props => tighter RiskTier.rank advertisedDefault props.tierFloor
  | some tier, some props => tighter RiskTier.rank tier props.tierFloor

def isMemberSuppressedEffective (props : Option TaskProperties) (effective : RiskTier)
    (calibrationSample : Bool) : Bool :=
  if calibrationSample then false
  else if props.any TaskProperties.forbidsSuppression then false
  else effective == .low

/-! ## Proposals -/

inductive ProposalLevel
  | content
  | schema
  | demotion
  deriving DecidableEq, Repr

namespace ProposalLevel

def parse (text : String) : ProposalLevel :=
  if text = "schema" then schema
  else if text = "demotion" then demotion
  else content

def fromTags (tags : List Tag) : Option ProposalLevel :=
  (extractTag tags "level").map parse

def propertyFloor : ProposalLevel → Option TaskProperties
  | content => none
  | schema => some ⟨.inspectable, .reversible, .critical⟩
  | demotion => some ⟨.inspectable, .reversible, .critical⟩

end ProposalLevel

def levelPropertyFloor (requestTags : List Tag) : Option TaskProperties :=
  (ProposalLevel.fromTags requestTags).bind ProposalLevel.propertyFloor

/-! ## Instants -/

/-- The characters between two byte indices, where both are boundaries. -/
def charsBetween (chars : List Char) (start stop : Nat) : Option (List Char) :=
  (Lib.splitBytes chars start).bind fun halves =>
    (Lib.splitBytes halves.2 (stop - start)).map fun inner => inner.1

/-- The number between two byte indices. -/
def numberBetween (chars : List Char) (start stop : Nat) : Option Int :=
  (charsBetween chars start stop).bind fun inner => parseSigned (String.ofList inner)

/-- The bytes of a date and a time that are no digits. -/
def separators : List Nat :=
  [4, 7, 10, 13, 16]

/-- Every byte but the separators is a digit. -/
def digitsElsewhere (bytes : Shared.Bytes) : Bool :=
  bytes.zipIdx.all fun placed =>
    separators.contains placed.2 || (48 ≤ placed.1.toNat && placed.1.toNat ≤ 57)

/-- The separators of a date and a time, which `T`, `t` or a blank parts. -/
def separated (bytes : Shared.Bytes) : Bool :=
  bytes[4]? == some 45 && bytes[7]? == some 45 && bytes[13]? == some 58 && bytes[16]? == some 58 &&
    (bytes[10]? == some 84 || bytes[10]? == some 116 || bytes[10]? == some 32)

/-- The seconds of an offset; `none` where the suffix is none. -/
def offsetSeconds (rest : List Char) : Option Int :=
  match rest with
  | [] | ['Z'] | ['z'] => some 0
  | sign :: _ =>
      if (sign = '+' ∨ sign = '-') ∧ Lib.byteLength rest = 6 then
        (numberBetween rest 1 3).bind fun hours =>
          (numberBetween rest 4 6).bind fun minutes =>
            if (Shared.utf8 rest)[3]? ≠ some 58 ∨ hours > 23 ∨ minutes > 59 then none
            else
              let magnitude := hours * 3600 + minutes * 60
              some (if sign = '-' then -magnitude else magnitude)
      else none

/-- Days since 1970-01-01 of a date. -/
def daysFromCivil (year month day : Int) : Int :=
  let y := if month ≤ 2 then year - 1 else year
  let era := (if y ≥ 0 then y else y - 399).tdiv 400
  let yoe := y - era * 400
  let mp := (month + 9).tmod 12
  let doy := (153 * mp + 2).tdiv 5 + day - 1
  let doe := yoe * 365 + yoe.tdiv 4 - yoe.tdiv 100 + doy
  era * 146097 + doe - 719468

/-- What follows the fraction of a second; a point without digits is refused. -/
def afterFraction (rest : List Char) : Option (Option (List Char)) :=
  match rest with
  | '.' :: stripped =>
      let digits := (stripped.takeWhile Char.isDigit).length
      if digits = 0 then some none
      else (Lib.splitBytes stripped digits).map fun halves => some halves.2
  | _ => some (some rest)

/-- The instant of a date, a time and what follows them. -/
def instantOf (chars rest : List Char) : Option Int :=
  (numberBetween chars 0 4).bind fun year =>
  (numberBetween chars 5 7).bind fun month =>
  (numberBetween chars 8 10).bind fun day =>
  (numberBetween chars 11 13).bind fun hour =>
  (numberBetween chars 14 16).bind fun minute =>
  (numberBetween chars 17 19).bind fun second =>
    if ¬(1 ≤ month ∧ month ≤ 12) ∨ ¬(1 ≤ day ∧ day ≤ 31) then none
    else if day > Lib.daysInMonth year month ∨ hour > 23 ∨ minute > 59 ∨ second > 60 then none
    else
      (offsetSeconds rest).map fun offsetSecs =>
        daysFromCivil year month day * 86400 + hour * 3600 + minute * 60 + second - offsetSecs

/-- The instant of a text in seconds; `none` is a panic, at the slice of the first 19 bytes. -/
def parseRfc3339Utc (text : String) : Option (Option Int) :=
  let chars := text.toList
  if Lib.byteLength chars < 19 then some none
  else
    (Lib.splitBytes chars 19).bind fun halves =>
      if ¬digitsElsewhere (Shared.utf8 halves.1) then some none
      else if ¬separated (Shared.utf8 chars) then some none
      else
        (afterFraction halves.2).map fun rest => rest.bind (instantOf chars)

theorem isSome_afterFraction
    (rest : List Char) :
    (afterFraction rest).isSome := by
  unfold afterFraction
  split
  · rename_i stripped
    dsimp only
    split
    · rfl
    · rw [Option.isSome_map, Lib.isSome_splitBytes_iff]
      have ascii : ∀ char ∈ stripped.takeWhile Char.isDigit, char.utf8Size = 1 := by
        intro char isDigit
        have digit := List.mem_takeWhile_imp isDigit
        exact Lib.utf8Size_of_isDigit digit
      have boundary : Lib.IsCharBoundary
          (stripped.takeWhile Char.isDigit ++ stripped.dropWhile Char.isDigit)
          (stripped.takeWhile Char.isDigit).length :=
        Lib.isCharBoundary_of_ascii ascii
      rwa [List.takeWhile_append_dropWhile] at boundary
  · rfl

/-- Only the first slice of an instant can fall within a character. -/
theorem isSome_parseRfc3339Utc_iff
    (text : String) :
    (parseRfc3339Utc text).isSome ↔
      (19 ≤ text.utf8ByteSize → Lib.IsCharBoundary text.toList 19) := by
  unfold parseRfc3339Utc
  dsimp only
  rw [Lib.byteLength_toList]
  split
  · rename_i short
    exact iff_of_true rfl fun long => absurd short (Nat.not_lt_of_le long)
  · rename_i long
    rw [← Lib.isSome_splitBytes_iff]
    constructor
    · intro parsed _
      cases split : Lib.splitBytes text.toList 19 with
      | none =>
          rw [split] at parsed
          cases parsed
      | some halves => rfl
    · intro boundary
      obtain ⟨halves, split⟩ := Option.isSome_iff_exists.mp (boundary (Nat.le_of_not_lt long))
      rw [split, Option.bind_some]
      split
      · rfl
      · split
        · rfl
        · rw [Option.isSome_map]
          exact isSome_afterFraction halves.2

/-! ## The boundary -/

variable (json : JsonParser)

/-- A field of an object, the last of its name. -/
def fieldOf (value : JsonValue) (name : String) : Option JsonValue :=
  match value with
  | .object fields => fields.reverse.lookup name
  | _ => none

/-- An integral number of 64 bits; `-0` is a fraction to the parser. -/
def asI64 : JsonValue → Option Int
  | .number text => if text = "-0" then none else parseSigned text
  | _ => none

/-- The expiry that a content states, a number or an instant. -/
def staleAfterFromContent (content : String) : Option (Option Int) :=
  match (json.parse content).bind fun value => fieldOf value "stale_after" with
  | none => some none
  | some raw =>
      match asI64 raw, raw.asStr with
      | some seconds, _ => some (some seconds)
      | none, none => some none
      | none, some text => parseRfc3339Utc text

def declaredTier (tags : List Tag) (content : String) : Option RiskTier :=
  match extractTag tags "risk-tier" with
  | some tier => some (RiskTier.parse tier)
  | none =>
      ((json.parse content).bind fun value => textField value "risk_tier").map RiskTier.parse

/-- The deadline and the probe agent of a panel. -/
structure PanelPolicy where
  maxPendingHours : Nat
  probeAgent : Option String
deriving DecidableEq, Repr

namespace PanelPolicy

def default : PanelPolicy :=
  ⟨72, none⟩

def fromTags (tags : List Tag) : PanelPolicy where
  maxPendingHours :=
    (((extractTag tags "max-pending-hours").bind (parseUnsigned 32)).filter (0 < ·)).getD 72
  probeAgent :=
    ((extractTag tags "probe-agent").filter fun agent =>
      Lib.byteLength agent.toList = 64 && agent.toList.all isAsciiHexdigit).map
        Shared.toAsciiLowercase

def isProbeAgent (policy : PanelPolicy) (pubkey : String) : Bool :=
  policy.probeAgent.any fun agent => eqIgnoreAsciiCase agent pubkey

end PanelPolicy

/-- What the relay derives about a request. -/
structure RequestBoundary where
  declared : Option RiskTier
  effective : RiskTier
  props : Option TaskProperties
  calibrationSample : Bool
  probeDigest : Option String
  maxPendingHours : Nat
  staleAfter : Option Int
deriving DecidableEq, Repr

/-- The keyed selection of calibration samples, by the rate of a panel and a case. -/
abbrev Sampling := Option (List Tag) → String → Bool

def planRequestBoundary (isCalibrationSample : Sampling) (caseId requestPubkey : String)
    (requestTags : List Tag) (requestContent : String) (panelTags : Option (List Tag))
    (advertisedDefault : RiskTier) : Option RequestBoundary :=
  let panelProps := panelTags.bind TaskProperties.fromTags
  let requestProps :=
    TaskProperties.mergeOpt (TaskProperties.fromTags requestTags) (levelPropertyFloor requestTags)
  let merged := TaskProperties.mergeOpt panelProps requestProps
  let declared := declaredTier json requestTags requestContent
  let effective := effectiveTier panelProps requestProps declared advertisedDefault
  let policy := (panelTags.map PanelPolicy.fromTags).getD PanelPolicy.default
  let staleAfter :=
    match ProposalLevel.fromTags requestTags with
    | none => some none
    | some _ => staleAfterFromContent json requestContent
  staleAfter.map fun staleAfter =>
    { declared
      effective
      props := merged
      calibrationSample :=
        isMemberSuppressedEffective merged effective false && isCalibrationSample panelTags caseId
      probeDigest :=
        (extractTag requestTags "probe").filter fun _ => policy.isProbeAgent requestPubkey
      maxPendingHours := policy.maxPendingHours
      staleAfter }

/-- The expiry text that the relay slices: of a proposal, a text and no number. -/
def slicedExpiry (event : NostrEvent) : Option String :=
  (ProposalLevel.fromTags event.tags).bind fun _ =>
    ((json.parse event.content).bind fun value => fieldOf value "stale_after").bind JsonValue.asStr

theorem asI64_of_asStr
    {raw : JsonValue}
    {text : String}
    (isText : raw.asStr = some text) :
    asI64 raw = none := by
  cases raw with
  | string other => rfl
  | null | bool | number | array | object => cases isText

theorem isSome_staleAfterFromContent_iff
    (content : String) :
    (staleAfterFromContent json content).isSome ↔
      ∀ text ∈ ((json.parse content).bind fun value =>
          fieldOf value "stale_after").bind JsonValue.asStr,
        19 ≤ text.utf8ByteSize → Lib.IsCharBoundary text.toList 19 := by
  unfold staleAfterFromContent
  cases (json.parse content).bind fun value => fieldOf value "stale_after" with
  | none =>
      refine iff_of_true rfl ?_
      intro text isText
      cases isText
  | some raw =>
      dsimp only
      rw [Option.bind_some]
      cases isText : raw.asStr with
      | none =>
          refine iff_of_true ?_ ?_
          · cases asI64 raw <;> rfl
          · intro text isText
            cases isText
      | some text =>
          rw [asI64_of_asStr isText]
          simp only [Option.mem_def, Option.some.injEq, forall_eq']
          exact isSome_parseRfc3339Utc_iff text

/-- A boundary is derived unless the expiry is sliced within a character. -/
theorem isSome_planRequestBoundary_iff
    (isCalibrationSample : Sampling)
    (caseId : String)
    (event : NostrEvent)
    (panelTags : Option (List Tag))
    (advertisedDefault : RiskTier) :
    (planRequestBoundary json isCalibrationSample caseId event.pubkey event.tags event.content
        panelTags advertisedDefault).isSome ↔
      ∀ text ∈ slicedExpiry json event,
        19 ≤ text.utf8ByteSize → Lib.IsCharBoundary text.toList 19 := by
  unfold planRequestBoundary slicedExpiry
  rw [Option.isSome_map]
  cases ProposalLevel.fromTags event.tags with
  | none =>
      refine iff_of_true rfl ?_
      intro text isText
      cases isText
  | some level => exact isSome_staleAfterFromContent_iff json event.content

end Governance
end NostrBbs
