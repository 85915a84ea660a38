import Mathlib.Data.List.Infix

/-!
# LIKE patterns

A pattern is a text in which one sign stands for any piece of text, another for
any letter, and an escape makes the letter after it stand for itself.  Letters
are compared after folding, so that a fold to lower case ignores case.  A text
that is escaped and put between two many-signs matches what contains it.
-/

namespace Lib

variable {Letter : Type*}

/-- A piece of a pattern. -/
inductive LikeToken (Letter : Type*)
  | any
  | one
  | exact (letter : Letter)

open LikeToken

/-- A text matches the pieces of a pattern from its start to its end. -/
def tokensMatch [DecidableEq Letter] (fold : Letter → Letter) :
    List (LikeToken Letter) → List Letter → Bool
  | [], text => text.isEmpty
  | any :: tokens, text => text.tails.any (tokensMatch fold tokens)
  | one :: tokens, text =>
      match text with
      | [] => false
      | _ :: rest => tokensMatch fold tokens rest
  | exact letter :: tokens, text =>
      match text with
      | [] => false
      | found :: rest => fold letter == fold found && tokensMatch fold tokens rest

/-- The signs of a pattern language. -/
structure LikeSigns (Letter : Type*) where
  many : Letter
  single : Letter
  escape : Letter

namespace LikeSigns

variable [DecidableEq Letter]

/-- A letter that does not stand for itself. -/
def special (signs : LikeSigns Letter) (letter : Letter) : Bool :=
  letter == signs.escape || letter == signs.many || letter == signs.single

/-- The pieces of a pattern, read after an escape or not; a pattern that ends in
an escape has none. -/
def readFrom (signs : LikeSigns Letter) :
    Bool → List Letter → Option (List (LikeToken Letter))
  | false, [] => some []
  | true, [] => none
  | true, letter :: rest => (signs.readFrom false rest).map (exact letter :: ·)
  | false, letter :: rest =>
      if letter = signs.escape then signs.readFrom true rest
      else if letter = signs.many then (signs.readFrom false rest).map (any :: ·)
      else if letter = signs.single then (signs.readFrom false rest).map (one :: ·)
      else (signs.readFrom false rest).map (exact letter :: ·)

/-- A text matches a pattern. -/
def like (signs : LikeSigns Letter) (fold : Letter → Letter) (pattern text : List Letter) :
    Bool :=
  (signs.readFrom false pattern).any fun tokens => tokensMatch fold tokens text

/-- A text with an escape before each special letter. -/
def escaped (signs : LikeSigns Letter) (text : List Letter) : List Letter :=
  text.flatMap fun letter => if signs.special letter then [signs.escape, letter] else [letter]

/-- An escaped text reads as its letters. -/
theorem readFrom_escaped_append
    (signs : LikeSigns Letter)
    (text rest : List Letter) :
    signs.readFrom false (signs.escaped text ++ rest) =
      (signs.readFrom false rest).map (text.map exact ++ ·) := by
  induction text with
  | nil =>
      simp [escaped]
  | cons letter text inductionHypothesis =>
      have later : signs.readFrom false
          (text.flatMap (fun letter =>
            if signs.special letter then [signs.escape, letter] else [letter]) ++ rest) =
          (signs.readFrom false rest).map (text.map exact ++ ·) := inductionHypothesis
      unfold escaped
      rw [List.flatMap_cons]
      by_cases isSpecial : signs.special letter
      · rw [if_pos isSpecial]
        simp [readFrom, later, Function.comp_def]
      · rw [if_neg isSpecial]
        simp only [special, Bool.or_eq_true, beq_iff_eq, not_or] at isSpecial
        obtain ⟨⟨notEscape, notMany⟩, notSingle⟩ := isSpecial
        simp [readFrom, notEscape, notMany, notSingle, later, Function.comp_def]

end LikeSigns

section Matching

variable [DecidableEq Letter] {fold : Letter → Letter}

/-- The last many-sign matches whatever is left. -/
theorem tokensMatch_any (text : List Letter) :
    tokensMatch fold [any] text := by
  unfold tokensMatch
  apply List.any_eq_true.mpr
  exact ⟨[], (List.mem_tails _ _).mpr (List.nil_suffix), rfl⟩

/-- Letters match a piece of the same folded letters. -/
theorem tokensMatch_exact_append
    (word : List Letter)
    (tokens : List (LikeToken Letter))
    (text : List Letter) :
    tokensMatch fold (word.map exact ++ tokens) text ↔
      ∃ first rest, text = first ++ rest ∧ first.map fold = word.map fold ∧
        tokensMatch fold tokens rest := by
  induction word generalizing text with
  | nil =>
      simp
  | cons letter word inductionHypothesis =>
      cases text with
      | nil =>
          simp [tokensMatch]
      | cons found text =>
          simp only [List.map_cons, List.cons_append, tokensMatch, Bool.and_eq_true,
            beq_iff_eq, inductionHypothesis]
          constructor
          · rintro ⟨sameLetter, first, rest, split, sameWord, later⟩
            exact ⟨found :: first, rest, by rw [split, List.cons_append],
              by rw [List.map_cons, sameLetter, sameWord], later⟩
          · rintro ⟨first, rest, split, sameWord, later⟩
            cases first with
            | nil => simp at sameWord
            | cons head first =>
                rw [List.cons_append, List.cons.injEq] at split
                rw [List.map_cons, List.cons.injEq] at sameWord
                exact ⟨by rw [split.1, sameWord.1], first, rest, split.2, sameWord.2, later⟩

/-- Between two many-signs, letters match what contains them. -/
theorem tokensMatch_contains
    (word text : List Letter) :
    tokensMatch fold (any :: (word.map exact ++ [any])) text ↔
      word.map fold <:+: text.map fold := by
  unfold tokensMatch
  simp only [List.any_eq_true, List.mem_tails, tokensMatch_exact_append]
  constructor
  · rintro ⟨suffix, ⟨before, rfl⟩, first, rest, rfl, sameWord, -⟩
    exact ⟨before.map fold, rest.map fold, by simp [sameWord]⟩
  · rintro ⟨before, after, split⟩
    obtain ⟨beforeFirst, rest, rfl, sameFront, rfl⟩ := List.map_eq_append_iff.mp split.symm
    obtain ⟨front, first, rfl, rfl, sameWord⟩ := List.map_eq_append_iff.mp sameFront
    exact ⟨first ++ rest, ⟨front, by simp⟩, first, rest, rfl, sameWord, tokensMatch_any rest⟩

/-- The pattern of an escaped text between many-signs matches what contains the
text. -/
theorem LikeSigns.like_contains
    (signs : LikeSigns Letter)
    (notEscape : signs.many ≠ signs.escape)
    (word text : List Letter) :
    signs.like fold (signs.many :: (signs.escaped word ++ [signs.many])) text ↔
      word.map fold <:+: text.map fold := by
  have tokens : signs.readFrom false (signs.many :: (signs.escaped word ++ [signs.many])) =
      some (any :: (word.map exact ++ [any])) := by
    simp [readFrom, notEscape, readFrom_escaped_append]
  unfold like
  rw [tokens, Option.any_some]
  exact tokensMatch_contains word text

end Matching

end Lib
