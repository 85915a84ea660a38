import NostrBbs.Governance.Broker
import NostrBbs.Relay.Sealed

/-!
# Texts

The operations on texts that the workers share.
-/

namespace NostrBbs
namespace Shared

open Relay (asciiLower)

def toAsciiLowercase (text : String) : String :=
  String.ofList (asciiLower text)

/-- Characters without the white space around them. -/
def trimChars (chars : List Char) : List Char :=
  ((chars.dropWhile Governance.isWhitespace).reverse.dropWhile Governance.isWhitespace).reverse

/-- What follows a start, when there is that start. -/
def stripPrefixChars (start chars : List Char) : Option (List Char) :=
  if start.isPrefixOf chars then some (chars.drop start.length) else none

def stripPrefix (start text : String) : Option String :=
  (stripPrefixChars start.toList text.toList).map String.ofList

theorem stripPrefixChars_eq_some_iff
    {start chars rest : List Char} :
    stripPrefixChars start chars = some rest ↔ chars = start ++ rest := by
  unfold stripPrefixChars
  constructor
  · intro stripped
    split at stripped
    · rename_i isStart
      obtain ⟨others, rfl⟩ := List.isPrefixOf_iff_prefix.mp isStart
      rw [List.drop_left] at stripped
      rw [Option.some.inj stripped]
    · cases stripped
  · rintro rfl
    rw [if_pos (List.isPrefixOf_iff_prefix.mpr (List.prefix_append start rest)), List.drop_left]

theorem stripPrefix_eq_some_iff
    {start text rest : String} :
    stripPrefix start text = some rest ↔ text = start ++ rest := by
  unfold stripPrefix
  rw [Option.map_eq_some_iff]
  constructor
  · rintro ⟨chars, stripped, rfl⟩
    rw [← String.toList_inj, stripPrefixChars_eq_some_iff.mp stripped, String.toList_append,
      String.toList_ofList]
  · rintro rfl
    refine ⟨rest.toList, ?_, String.ofList_toList⟩
    rw [stripPrefixChars_eq_some_iff, String.toList_append]

@[simp] theorem toAsciiLowercase_idem
    (text : String) :
    toAsciiLowercase (toAsciiLowercase text) = toAsciiLowercase text := by
  unfold toAsciiLowercase asciiLower
  rw [String.toList_ofList, List.map_map]
  congr 2
  funext char
  exact Char.toLower_toLower_eq_toLower char

end Shared
end NostrBbs
