import Mathlib.Data.Prod.Lex
import Mathlib.Data.String.Basic
import NostrBbs.Lib.Revisions
import NostrBbs.Relay.Event

/-!
# Edits of posts

The text that a post shows.  An edit names the post that it replaces, or an edit of it; the
text is found by following the newest edit of each post by its author, and the edits that are
no replies by going through all of them.
-/

namespace NostrBbs
namespace Client
namespace Edits

open Lib (Revisions)
open Relay (NostrEvent)

/-- The marker of a tag that names what an event replaces. -/
def editMarker : String :=
  "edit"

/-- Rounds in which edits are followed. -/
def maxEdits : Nat :=
  64

/-- The post that an edit replaces. -/
def editTarget (lower : String → String) (event : NostrEvent) : Option String :=
  if event.kind ≠ 42 then none
  else
    (event.tags.find? fun tag =>
      decide (4 ≤ tag.length) && tag.head? == some "e" && tag[3]? == some editMarker).map
        fun tag => lower (Relay.firstValue tag)

/-- The events of the author of a post, with what each replaces. -/
def revisionsOf (lower : String → String) (original : NostrEvent) (events : List NostrEvent) :
    Revisions NostrEvent String (Nat ×ₗ String) where
  key event := lower event.id
  target := editTarget lower
  rank event := toLex (event.createdAt, event.id)
  nodes := events.filter fun event => Relay.eqIgnoreAsciiCase event.pubkey original.pubkey

/-- The text of a post, its time and whether it is edited: the newest edit of the post is
followed, the newest edit of that, and so on. -/
def latestVersion (lower : String → String) (original : NostrEvent) (events : List NostrEvent) :
    String × Nat × Bool :=
  match (revisionsOf lower original events).follow maxEdits (lower original.id) none with
  | some edit => (edit.content, original.createdAt, true)
  | none => (original.content, original.createdAt, false)

/-- The ids of a post and its edits, which are no replies. -/
def editChainIds (lower : String → String) (original : NostrEvent) (events : List NostrEvent) :
    List String :=
  (revisionsOf lower original events).spread maxEdits [lower original.id] [lower original.id]

/-! ## What a post should show -/

section Statement

variable (lower : String → String) (original : NostrEvent) (events : List NostrEvent)

/-- An edit of a post by its author, over other edits or over none. -/
def IsEdit (event : NostrEvent) : Prop :=
  (revisionsOf lower original events).Revises (lower original.id) event

def IsNewestEdit (event : NostrEvent) : Prop :=
  (revisionsOf lower original events).NewestOfAll (lower original.id) event

/-- The text of the newest edit is shown, just the edits are taken out of the replies, and
events of others count for nothing. -/
structure ShowsNewest : Prop where
  text : (∃ newest, IsNewestEdit lower original events newest ∧
      (latestVersion lower original events).1 = newest.content) ∨
    (∀ event, ¬IsEdit lower original events event) ∧
      (latestVersion lower original events).1 = original.content
  hidden : ∀ id, id ∈ editChainIds lower original events ↔
    id = lower original.id ∨ ∃ event, IsEdit lower original events event ∧ lower event.id = id
  ownOnly : latestVersion lower original (events.filter fun event =>
      Relay.eqIgnoreAsciiCase event.pubkey original.pubkey) = latestVersion lower original events

/-- No edit is further than the rounds go, and an edit with the text of the newest one is not
edited again, each on the way to it being the newest edit of what it edits. -/
structure NewestLeads : Prop where
  near : ∀ event, IsEdit lower original events event → lower event.id = lower original.id ∨
    ∃ hops ≤ maxEdits, ∃ other,
      (revisionsOf lower original events).Reached (lower original.id) hops other ∧
        lower other.id = lower event.id
  straight : ∀ newest, IsNewestEdit lower original events newest →
    ∃ hops ≤ maxEdits, ∃ last,
      (revisionsOf lower original events).Foremost (lower original.id) hops last ∧
        (hops = maxEdits ∨
          ∀ event, ¬(revisionsOf lower original events).Edits (lower last.id) event) ∧
        last.content = newest.content

end Statement

section Rules

variable {lower : String → String} {original : NostrEvent} {events : List NostrEvent}

theorem ranked_revisionsOf
    (lower : String → String)
    (original : NostrEvent)
    (identified : ∀ event ∈ events, ∀ other ∈ events, event.id = other.id → event = other) :
    (revisionsOf lower original events).Ranked := by
  intro event isEvent other isOther sameRank
  have sameId : event.id = other.id := congrArg Prod.snd (toLex.injective sameRank)
  exact identified event (List.mem_filter.mp isEvent).1 other (List.mem_filter.mp isOther).1 sameId

theorem mem_editChainIds_iff
    (lower : String → String)
    (original : NostrEvent)
    (events : List NostrEvent)
    (id : String) :
    id ∈ editChainIds lower original events ↔
      id = lower original.id ∨ ∃ hops ≤ maxEdits, ∃ event,
        (revisionsOf lower original events).Reached (lower original.id) hops event ∧
          lower event.id = id := by
  have found := (Revisions.Spread.alone (revisionsOf lower original events)
    (lower original.id)).mem_spread_iff maxEdits id
  rw [Nat.zero_add] at found
  exact found

theorem revisionsOf_filter
    (lower : String → String)
    (original : NostrEvent)
    (events : List NostrEvent) :
    revisionsOf lower original (events.filter fun event =>
        Relay.eqIgnoreAsciiCase event.pubkey original.pubkey) =
      revisionsOf lower original events := by
  unfold revisionsOf
  rw [List.filter_filter]
  simp only [Bool.and_self]

end Rules

/-- A post shows its newest edit, and just its edits are no replies, exactly when no edit is
further than 64 edits from the post and the newest edits of each post lead to the newest of
all. -/
theorem showsNewest_iff
    (lower : String → String)
    (original : NostrEvent)
    (events : List NostrEvent)
    (identified : ∀ event ∈ events, ∀ other ∈ events, event.id = other.id → event = other) :
    ShowsNewest lower original events ↔ NewestLeads lower original events := by
  have ranked := ranked_revisionsOf lower original identified
  constructor
  · intro shows_
    constructor
    case near =>
      intro event isEdit
      have isHidden := (shows_.hidden (lower event.id)).mpr (.inr ⟨event, isEdit, rfl⟩)
      exact (mem_editChainIds_iff lower original events _).mp isHidden
    case straight =>
      intro newest isNewest
      rcases shows_.text with ⟨other, isOther, isText⟩ | ⟨noEdit, -⟩
      · rw [isOther.unique ranked isNewest] at isText
        unfold latestVersion at isText
        cases found : (revisionsOf lower original events).follow maxEdits (lower original.id)
            none with
        | none =>
            obtain ⟨first, isFirst⟩ := Revisions.exists_edits_of_revises isNewest.1
            exact absurd isFirst ((Revisions.follow_eq_none_iff 63 _).mp found first)
        | some last =>
            rw [found] at isText
            rcases (Revisions.follow_eq_some_iff ranked _ _ _).mp found with ⟨-, isNone⟩ | ⟨hops,
              within, foremost, ends⟩
            · cases isNone
            · exact ⟨hops, within, last, foremost, ends, isText⟩
      · exact absurd isNewest.1 (noEdit newest)
  · intro leads
    constructor
    case text =>
      by_cases noEdit : ∀ event, ¬IsEdit lower original events event
      · refine .inr ⟨noEdit, ?_⟩
        have found := (Revisions.follow_eq_none_iff 63 (lower original.id)).mpr
          fun event isEdit => noEdit event ⟨1, .edit isEdit⟩
        unfold latestVersion
        change (revisionsOf lower original events).follow maxEdits _ none = none at found
        rw [found]
      · push Not at noEdit
        obtain ⟨event, isEdit⟩ := noEdit
        obtain ⟨newest, isNewest⟩ := Revisions.exists_newestOfAll isEdit
        obtain ⟨hops, within, last, foremost, ends, isText⟩ := leads.straight newest isNewest
        have found := (Revisions.follow_eq_some_iff ranked maxEdits _ none).mpr
          (.inr ⟨hops, within, foremost, ends⟩)
        refine .inl ⟨newest, isNewest, ?_⟩
        unfold latestVersion
        rw [found]
        exact isText
    case hidden =>
      intro id
      rw [mem_editChainIds_iff]
      constructor
      · rintro (isOriginal | ⟨hops, -, event, reached, isId⟩)
        · exact .inl isOriginal
        · exact .inr ⟨event, ⟨hops, reached⟩, isId⟩
      · rintro (isOriginal | ⟨event, isEdit, rfl⟩)
        · exact .inl isOriginal
        · exact leads.near event isEdit
    case ownOnly =>
      unfold latestVersion
      rw [revisionsOf_filter]

namespace Sample

/-- A post of one author, or an edit of another post. -/
def post (id content : String) (createdAt : Nat) (target : Option String) : NostrEvent where
  id := id
  pubkey := "alice"
  createdAt := createdAt
  kind := 42
  tags := (target.map fun target => ["e", target, "", "edit"]).toList
  content := content
  sig := ""

def original : NostrEvent :=
  post "p" "first" 100 none

def fromPhone : NostrEvent :=
  post "a" "phone" 300 (some "p")

def fromLaptop : NostrEvent :=
  post "b" "laptop" 200 (some "p")

def again : NostrEvent :=
  post "c" "last" 400 (some "b")

end Sample

/-- A post with one edit shows the text of it. -/
theorem showsNewest_edited :
    ShowsNewest id Sample.original [Sample.original, Sample.fromPhone] := by
  refine (showsNewest_iff id Sample.original [Sample.original, Sample.fromPhone]
    (by decide)).mpr ?_
  have isPhone : ∀ {start event},
      (revisionsOf id Sample.original [Sample.original, Sample.fromPhone]).Edits start event →
        event = Sample.fromPhone ∧ start = "p" := by
    rintro start event ⟨isPost, isTarget⟩
    rcases List.mem_pair.mp (List.mem_filter.mp isPost).1 with rfl | rfl
    · cases isTarget
    · exact ⟨rfl, (Option.some.inj isTarget).symm⟩
  have isEdit : (revisionsOf id Sample.original [Sample.original, Sample.fromPhone]).Edits "p"
      Sample.fromPhone := ⟨by decide, by decide⟩
  constructor
  case near =>
    rintro event ⟨hops, reached⟩
    refine .inr ⟨1, by decide, Sample.fromPhone, .edit isEdit, ?_⟩
    cases reached with
    | edit isOther => rw [(isPhone isOther).1]
    | again reached isOther => rw [(isPhone isOther).1]
  case straight =>
    rintro newest ⟨⟨hops, reached⟩, -⟩
    refine ⟨1, by decide, Sample.fromPhone, .edit ⟨isEdit, fun other isOther => ?_⟩, .inr ?_, ?_⟩
    · rw [(isPhone isOther).1]
    · intro event isOther
      exact absurd (isPhone isOther).2 (by decide)
    · cases reached with
      | edit isOther => rw [(isPhone isOther).1]
      | again reached isOther => rw [(isPhone isOther).1]

/-- An edit of the older of two edits is the newest of all, and is not shown. -/
theorem lastEdit_ignored :
    (latestVersion id Sample.original
        [Sample.original, Sample.fromPhone, Sample.fromLaptop, Sample.again]).1 = "phone" ∧
      "c" ∈ editChainIds id Sample.original
        [Sample.original, Sample.fromPhone, Sample.fromLaptop, Sample.again] ∧
      ¬ShowsNewest id Sample.original
        [Sample.original, Sample.fromPhone, Sample.fromLaptop, Sample.again] := by
  have isShown : (latestVersion id Sample.original
      [Sample.original, Sample.fromPhone, Sample.fromLaptop, Sample.again]).1 = "phone" := by
    decide
  refine ⟨isShown, by decide, fun shows_ => ?_⟩
  have isLast : IsEdit id Sample.original
      [Sample.original, Sample.fromPhone, Sample.fromLaptop, Sample.again] Sample.again :=
    ⟨2, .again (.edit ⟨by decide, by decide⟩ : Lib.Revisions.Reached _ _ 1 Sample.fromLaptop)
      ⟨by decide, by decide⟩⟩
  rcases shows_.text with ⟨newest, isNewest, isText⟩ | ⟨noEdit, -⟩
  · rw [isShown] at isText
    have isPost := (List.mem_filter.mp isNewest.1.mem).1
    have notOlder : Sample.again.createdAt ≤ newest.createdAt :=
      (Prod.Lex.monotone_fst _ _ (isNewest.2 Sample.again isLast))
    fin_cases isPost
    · exact absurd isText (by decide)
    · exact absurd notOlder (by decide)
    · exact absurd isText (by decide)
    · exact absurd isText (by decide)
  · exact noEdit _ isLast

end Edits
end Client
end NostrBbs
