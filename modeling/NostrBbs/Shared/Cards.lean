import NostrBbs.Lib.Best
import NostrBbs.Relay.Sanctions
import NostrBbs.Relay.Zones

/-!
# Task cards

A card of a board is what its newest version says, whoever wrote it.  Folding versions
keeps of each card the latest, and of those of one second the one with the lowest id.
-/

namespace NostrBbs
namespace Shared

open Relay (NostrEvent tagValue isValued firstValue parseSigned parseUnsigned readZoneTag)

/-! ## Cards -/

/-- One version of a card. -/
structure KanbanCard where
  id : String
  pubkey : String
  dTag : String
  board : String
  title : String
  description : String
  column : String
  rank : Int
  assignees : List String
  due : Option Nat
  zone : Option String
  pendingMove : Option (String × String)
  deleted : Bool
  createdAt : Nat
deriving DecidableEq, Repr

namespace KanbanCard

/-- The board and the name that tell one card from another. -/
def key (card : KanbanCard) : String × String :=
  (card.board, card.dTag)

/-- A version stays when another of its card comes: it is later, or of the same second and
has the lower id. -/
def stays (current card : KanbanCard) : Bool :=
  card.createdAt < current.createdAt ||
    (current.createdAt == card.createdAt && current.id ≤ card.id)

/-- Cards as a board lists them: by column, then by rank. -/
def listedBefore (first second : KanbanCard) : Bool :=
  first.column < second.column || (first.column == second.column && first.rank ≤ second.rank)

/-- What a later version ranks higher by; of one second, the lower id. -/
def precedence (card : KanbanCard) : Nat ×ₗ Stringᵒᵈ :=
  toLex (card.createdAt, OrderDual.toDual card.id)

end KanbanCard

/-- The order in which a map gives its values, which it leaves open. -/
structure ValuesOrder where
  order : List KanbanCard → List KanbanCard
  perm : ∀ cards, (order cards).Perm cards

/-- The versions that a map holds after others came to it. -/
def latestCards (cards : List KanbanCard) : Lib.Table KanbanCard KanbanCard.key :=
  cards.foldl (Lib.keepBest KanbanCard.stays) Lib.Table.empty

/-- The cards of a board's versions. -/
def foldCards (values : ValuesOrder) (cards : List KanbanCard) : List KanbanCard :=
  (values.order (latestCards cards).rows).mergeSort KanbanCard.listedBefore

/-! ## The claim -/

/-- What tells one version from another: its card, its time and its id. -/
def KanbanCard.stamp (card : KanbanCard) : (String × String) × Nat × String :=
  (card.key, card.createdAt, card.id)

/-- Of every card there is one version: the latest, and of those of one second the one with
the lowest id. -/
structure KeepsLatest (cards folded : List KanbanCard) : Prop where
  once : (folded.map KanbanCard.key).Nodup
  drawn : ∀ kept ∈ folded, kept ∈ cards
  latest : ∀ card ∈ cards, ∃ kept ∈ folded, kept.key = card.key ∧
    card.createdAt ≤ kept.createdAt ∧ (card.createdAt = kept.createdAt → kept.id ≤ card.id)

/-- Two folds of some versions are the same: of the same cards, times and ids, and of the
same versions where no two of one card, time and id differ. -/
structure SameCards (cards first second : List KanbanCard) : Prop where
  stamps : (first.map KanbanCard.stamp).Perm (second.map KanbanCard.stamp)
  versions : (∀ one ∈ cards, ∀ other ∈ cards, one.stamp = other.stamp → one = other) →
    first.Perm second

/-! ## Folding -/

theorem ranks_stays : Lib.Ranks KanbanCard.precedence KanbanCard.stays where
  keeps current card stays := by
    unfold KanbanCard.stays at stays
    rw [Bool.or_eq_true, Bool.and_eq_true, decide_eq_true_eq, beq_iff_eq, decide_eq_true_eq] at stays
    exact Prod.Lex.toLex_le_toLex.mpr (stays.imp_right fun same => ⟨same.1.symm, same.2⟩)
  goes current card goes := by
    unfold KanbanCard.stays at goes
    rw [Bool.or_eq_false_iff, Bool.and_eq_false_iff, decide_eq_false_iff_not, decide_eq_false_iff_not,
      beq_eq_false_iff_ne] at goes
    obtain ⟨notLater, notLower⟩ := goes
    rw [not_lt] at notLater
    apply Prod.Lex.toLex_le_toLex.mpr
    rcases Nat.eq_or_lt_of_le notLater with same | earlier
    · right
      refine ⟨same, ?_⟩
      rcases notLower with different | higher
      · exact absurd same different
      · exact le_of_not_ge higher
    · exact .inl earlier

theorem bestOf_latestCards
    (cards : List KanbanCard) :
    Lib.BestOf KanbanCard.precedence {card | card ∈ cards} (latestCards cards) := by
  have noCards : Lib.BestOf KanbanCard.precedence ∅
      (Lib.Table.empty : Lib.Table KanbanCard KanbanCard.key) :=
    Lib.bestOf_empty
  have best := noCards.foldl ranks_stays cards
  rwa [Set.empty_union] at best

theorem foldCards_perm
    (values : ValuesOrder)
    (cards : List KanbanCard) :
    (foldCards values cards).Perm (latestCards cards).rows :=
  (List.mergeSort_perm _ _).trans (values.perm _)

/-- Tables of the best of the same versions fold to the same cards. -/
theorem sameCards_of_best
    {cards : List KanbanCard}
    {first second : Lib.Table KanbanCard KanbanCard.key}
    (firstBest : Lib.BestOf KanbanCard.precedence {card | card ∈ cards} first)
    (secondBest : Lib.BestOf KanbanCard.precedence {card | card ∈ cards} second)
    {folded other : List KanbanCard}
    (isFirst : folded.Perm first.rows)
    (isSecond : other.Perm second.rows) :
    SameCards cards folded other where
  stamps := by
    have stamps := (firstBest.stamps_perm secondBest).map
      fun stamp => (stamp.1, (ofLex stamp.2).1, OrderDual.ofDual (ofLex stamp.2).2)
    rw [List.map_map, List.map_map] at stamps
    exact ((isFirst.map _).trans stamps).trans (isSecond.map _).symm
  versions := by
    intro apart
    refine (isFirst.trans (firstBest.rows_perm secondBest ?_)).trans isSecond.symm
    intro one isOne another isAnother sameKey samePrecedence
    have same : (one.createdAt, one.id) = (another.createdAt, another.id) := samePrecedence
    exact apart one isOne another isAnother (Prod.ext sameKey same)

/-- Folding keeps of every card the best version, whatever the order and the repetition of
the versions, and however much of them was folded before. -/
theorem foldCards_joins
    (values otherValues : ValuesOrder)
    (cards others : List KanbanCard) :
    KeepsLatest cards (foldCards values cards) ∧
      ((∀ card, card ∈ cards ↔ card ∈ others) →
        SameCards cards (foldCards values cards) (foldCards otherValues others)) ∧
      SameCards (cards ++ others)
        (foldCards values (foldCards otherValues cards ++ others))
        (foldCards values (cards ++ others)) := by
  have best := bestOf_latestCards cards
  have perm := foldCards_perm values cards
  refine ⟨⟨?_, ?_, ?_⟩, ?_, ?_⟩
  · exact (perm.map _).nodup_iff.mpr (latestCards cards).distinct
  · exact fun kept isKept => best.drawn kept (perm.mem_iff.mp isKept)
  · intro card isCard
    have came : card ∈ {card | card ∈ cards} := isCard
    obtain ⟨kept, held, sameKey⟩ := best.exists_row came
    refine ⟨kept, perm.mem_iff.mpr held, sameKey, ?_⟩
    rcases Prod.Lex.toLex_le_toLex.mp (best.best held card isCard sameKey.symm) with later | same
    · exact ⟨Nat.le_of_lt later, fun same => absurd same (Nat.ne_of_lt later)⟩
    · exact ⟨Nat.le_of_eq same.1, fun _ => same.2⟩
  · intro sameMembers
    have otherBest := bestOf_latestCards others
    have sameSet : {card | card ∈ others} = {card | card ∈ cards} :=
      Set.ext fun card => (sameMembers card).symm
    rw [sameSet] at otherBest
    exact sameCards_of_best best otherBest perm (foldCards_perm otherValues others)
  · have foldedBest := bestOf_latestCards (foldCards otherValues cards ++ others)
    have allBest := bestOf_latestCards (cards ++ others)
    have folded : {card | card ∈ foldCards otherValues cards ++ others} =
        {card | card ∈ (latestCards cards).rows} ∪ {card | card ∈ others} := by
      ext card
      exact List.mem_append.trans (or_congr_left (foldCards_perm otherValues cards).mem_iff)
    have all : {card | card ∈ cards} ∪ {card | card ∈ others} = {card | card ∈ cards ++ others} := by
      ext card
      exact List.mem_append.symm
    rw [folded] at foldedBest
    have absorbed := best.absorb foldedBest
    rw [all] at absorbed
    exact sameCards_of_best absorbed allBest (foldCards_perm _ _) (foldCards_perm _ _)

end Shared
end NostrBbs
