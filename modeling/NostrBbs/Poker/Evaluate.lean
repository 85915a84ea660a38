import Mathlib

/-!
# Cards, the shuffle and the evaluator

The deck of `engine.rs`: 52 cards by rank and suit, their `HAND.md` names, the
xorshift128 generator seeded from 64 hex characters and the Fisher-Yates
shuffle.  A draw is the integer numerator over `2^32` of the source's double;
both `draw * n` (below `2^53`) and its truncation are exact.

`evaluate` scores the best five of up to seven cards by category and tie-break
ranks; `bestFive` names the five cards a hand plays by scoring every five-card
combination; `handName` speaks the result.
-/

namespace NostrBbs
namespace Poker

/-! ## Cards and the seeded shuffle -/

/-- A card: rank is the remainder by 13 (deuce to ace), suit the quotient. -/
abbrev Card := Fin 52

instance neZero_deckSize : NeZero 52 :=
  ⟨by decide⟩

/-- A card's rank, `0` (deuce) to `12` (ace). -/
def rankOf (card : Card) : Nat :=
  card.val % 13

/-- A card's suit, `0` to `3`. -/
def suitOf (card : Card) : Nat :=
  card.val / 13

/-- The 13 rank letters, deuce to ace. -/
def ranks : List Char :=
  ['2', '3', '4', '5', '6', '7', '8', '9', 'T', 'J', 'Q', 'K', 'A']

/-- The four suit letters of a `HAND.md` card name, in suit order. -/
def suitLetters : List Char :=
  ['c', 'd', 'h', 's']

/-- A card's name as `HAND.md` writes it: rank then suit letter. -/
def cardCode (card : Card) : String :=
  String.ofList [ranks.getD (rankOf card) '?', suitLetters.getD (suitOf card) '?']

/-- An engine refusal: a bad seed, an illegal action, a hand that is over. -/
structure EngineError where
  message : String
deriving DecidableEq, Repr

/-! ## Random numbers -/

/-- The four 32-bit lanes of the xorshift128 generator. -/
structure Rng where
  a : UInt32
  b : UInt32
  c : UInt32
  d : UInt32
deriving DecidableEq, Repr

/-- An ASCII hexadecimal digit of either case. -/
def isHexDigit (char : Char) : Bool :=
  ('0' ≤ char && char ≤ '9') || ('a' ≤ char && char ≤ 'f') || ('A' ≤ char && char ≤ 'F')

/-- The value of a hexadecimal digit. -/
def hexValue (char : Char) : Nat :=
  if char ≤ '9' then char.toNat - '0'.toNat
  else if char ≤ 'F' then char.toNat - 'A'.toNat + 10
  else char.toNat - 'a'.toNat + 10

namespace Rng

/-- Lane `index` of a seed: its eight hex characters read as a number. -/
def lane (seedHex : List Char) (index : Nat) : UInt32 :=
  UInt32.ofNat (((seedHex.drop (index * 8)).take 8).foldl
    (fun value char => value * 16 + hexValue char) 0)

/-- Seed from 64 hex characters, of which the first 32 are used. -/
def fromSeed (seedHex : String) : Except EngineError Rng :=
  let chars := seedHex.toList
  if chars.length != 64 || !chars.all isHexDigit then
    .error ⟨"seed must be 64 hex chars"⟩
  else
    let a := lane chars 0
    let b := lane chars 1
    let c := lane chars 2
    let d := lane chars 3
    .ok ⟨if a ||| b ||| c ||| d = 0 then 0x9e3779b9 else a, b, c, d⟩

/-- The next draw, as a numerator over `2^32`. -/
def draw (rng : Rng) : UInt32 × Rng :=
  let t := rng.a ^^^ (rng.a <<< 11)
  let d := (rng.d ^^^ (rng.d >>> 19)) ^^^ (t ^^^ (t >>> 8))
  (d, ⟨rng.b, rng.c, rng.d, d⟩)

/-- A draw scaled to an index below `n`. -/
def below (rng : Rng) (n : Nat) : Nat × Rng :=
  let (numerator, rng) := rng.draw
  (numerator.toNat * n / 2 ^ 32, rng)

end Rng

/-! ## The shuffled deck -/

/-- Every card once, in some order. -/
structure Deck where
  cards : List Card
  complete : cards.Perm (List.finRange 52)
deriving DecidableEq, Repr

/-- The elements at two positions exchanged. -/
def swap {α : Type*} (items : List α) (i j : Nat) : List α :=
  (items.toArray.swapIfInBounds i j).toList

theorem swap_perm
    {α : Type*}
    (items : List α)
    (i j : Nat) :
    (swap items i j).Perm items := by
  unfold swap
  rw [Array.swapIfInBounds_def]
  split
  · split
    · exact (Array.swap_perm ‹_› ‹_›).toList
    · exact List.Perm.refl _
  · exact List.Perm.refl _

namespace Deck

/-- The deck before the shuffle. -/
def ordered : Deck :=
  ⟨List.finRange 52, List.Perm.refl _⟩

/-- One exchange of the shuffle. -/
def exchange (deck : Deck) (i j : Nat) : Deck :=
  ⟨swap deck.cards i j, (swap_perm deck.cards i j).trans deck.complete⟩

theorem length_cards (deck : Deck) : deck.cards.length = 52 := by
  rw [deck.complete.length_eq, List.length_finRange]

end Deck

/-- The exchanges of the shuffle at positions `i`, `i - 1`, …, `1`. -/
def shuffleFrom : Nat → Deck → Rng → Deck
  | 0, deck, _ => deck
  | i + 1, deck, rng =>
      let (j, rng) := rng.below (i + 2)
      shuffleFrom i (deck.exchange (i + 1) j) rng

/-- The 52-card deck shuffled from a seed. -/
def shuffledDeck (seedHex : String) : Except EngineError Deck :=
  match Rng.fromSeed seedHex with
  | .error refusal => .error refusal
  | .ok rng => .ok (shuffleFrom 51 Deck.ordered rng)

/-! ## The hand evaluator -/

/-- A hand's strength: category, tie-break ranks from high to low and a score
that compares as an integer. -/
structure Eval where
  cat : Nat
  kick : List Nat
  score : Nat
deriving DecidableEq, Repr

/-- The category and then five zero-padded kick ranks, in base 16. -/
def scoreValue (cat : Nat) (kick : List Nat) : Nat :=
  (List.range 5).foldl (fun value index => value * 16 + kick.getD index 0) cat

/-- An evaluation with its score. -/
def score (cat : Nat) (kick : List Nat) : Eval :=
  { cat, kick, score := scoreValue cat kick }

/-- The first `r`, counting down from `n - 1`, at which the run of set ranks
reaches five; the straight is named by its high rank. -/
def straightScan (set : Nat → Bool) : Nat → Nat → Option Nat
  | 0, _ => none
  | r + 1, current =>
      let current := if set r then current + 1 else 0
      if current = 5 then some (r + 4) else straightScan set r current

/-- The high rank of the best straight in a rank set.  The wheel is a five-high
straight. -/
def straightHigh (set : Nat → Bool) : Option Nat :=
  match straightScan set 13 0 with
  | some high => some high
  | none => if set 12 && set 0 && set 1 && set 2 && set 3 then some 3 else none

/-- How many of the cards have a rank. -/
def byRank (cards : List Card) (rank : Nat) : Nat :=
  cards.countP fun card => rankOf card == rank

/-- The ranks of the cards of a suit, in the order of the cards. -/
def bySuit (cards : List Card) (suit : Nat) : List Nat :=
  (cards.filter fun card => suitOf card == suit).map rankOf

/-- Ranks from high to low. -/
def sortDesc (values : List Nat) : List Nat :=
  values.insertionSort (· ≥ ·)

/-- Groups by count and then rank, both from high to low. -/
def groupBefore (first second : Nat × Nat) : Prop :=
  second.1 < first.1 ∨ (first.1 = second.1 ∧ second.2 ≤ first.2)

instance : DecidableRel groupBefore := fun first second =>
  inferInstanceAs (Decidable (second.1 < first.1 ∨ _))

/-- The count and rank of every rank present, the largest groups first. -/
def rankGroups (cards : List Card) : List (Nat × Nat) :=
  (((List.range 13).reverse.filter fun rank => 0 < byRank cards rank).map
    fun rank => (byRank cards rank, rank)).insertionSort groupBefore

/-- The ranks of some groups, from high to low. -/
def ranksDesc (groups : List (Nat × Nat)) : List Nat :=
  sortDesc (groups.map Prod.snd)

/-- The high rank of the first suit of five or more cards that holds a
straight. -/
def straightFlushHigh (cards : List Card) : Option Nat :=
  (List.range 4).findSome? fun suit =>
    if 5 ≤ (bySuit cards suit).length then
      straightHigh fun rank => (bySuit cards suit).contains rank
    else none

/-- The five highest ranks of the first suit of five or more cards. -/
def flushKick (cards : List Card) : Option (List Nat) :=
  (List.range 4).findSome? fun suit =>
    if 5 ≤ (bySuit cards suit).length then
      some ((sortDesc (bySuit cards suit)).take 5)
    else none

/-- The categories decided by the rank groups once no straight, flush, full
house or four of a kind was found. -/
def evaluateGroups (groups : List (Nat × Nat)) : Eval :=
  let top := groups.headD (0, 0)
  if top.1 = 3 then
    score 3 (top.2 :: (ranksDesc groups.tail).take 2)
  else if top.1 = 2 ∧ (groups.getD 1 (0, 0)).1 = 2 then
    let pairs := ranksDesc (groups.filter fun group => group.1 == 2)
    -- only a rank held exactly once is taken for the kicker, never a third pair
    let kicker := (ranksDesc (groups.filter fun group => group.1 == 1)).headD 0
    score 2 [pairs.getD 0 0, pairs.getD 1 0, kicker]
  else if top.1 = 2 then
    score 1 (top.2 :: (ranksDesc groups.tail).take 3)
  else
    score 0 ((groups.map Prod.snd).take 5)

/-- Best five of up to seven cards. -/
def evaluate (cards : List Card) : Eval :=
  let groups := rankGroups cards
  let top := groups.headD (0, 0)
  let second := groups.getD 1 (0, 0)
  match straightFlushHigh cards with
  | some high => score 8 [high]
  | none =>
      if top.1 = 4 then
        score 7 [top.2, (ranksDesc (groups.filter fun group => group.2 != top.2)).headD 0]
      else if top.1 = 3 ∧ 2 ≤ second.1 then
        score 6 [top.2, second.2]
      else
        match flushKick cards with
        | some kick => score 5 kick
        | none =>
            match straightHigh fun rank => 0 < byRank cards rank with
            | some high => score 4 [high]
            | none => evaluateGroups groups

/-! ## Spoken names -/

/-- The rank words, deuce to ace. -/
def rankWords : List String :=
  ["deuce", "three", "four", "five", "six", "seven", "eight", "nine", "ten",
    "jack", "queen", "king", "ace"]

def plural (rank : Nat) : String :=
  if rank = 4 then "sixes" else rankWords.getD rank "" ++ "s"

/-- A speakable name: "two pair, kings and nines", "a flush, ace high". -/
def handName (eval : Eval) : String :=
  let k := fun index => eval.kick.getD index 0
  let word := fun rank => rankWords.getD rank ""
  match eval.cat with
  | 8 => if k 0 = 12 then "a royal flush" else s!"a straight flush, {word (k 0)} high"
  | 7 => s!"four {plural (k 0)}"
  | 6 => s!"a full house, {plural (k 0)} over {plural (k 1)}"
  | 5 => s!"a flush, {word (k 0)} high"
  | 4 => s!"a straight, {word (k 0)} high"
  | 3 => s!"three {plural (k 0)}"
  | 2 => s!"two pair, {plural (k 0)} and {plural (k 1)}"
  | 1 => s!"a pair of {plural (k 0)}"
  | _ => s!"{word (k 0)} high"

end Poker
end NostrBbs
