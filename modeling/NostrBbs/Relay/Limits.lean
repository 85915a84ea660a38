import NostrBbs.Lib.Page
import NostrBbs.Relay.OverSets

/-!
# What a limit cuts

The limit of a filter cuts the rows that are read.  Expired events and events that the
session may not read are passed over afterwards, so that a reader is sent the newest
readable events only when nothing is passed over, or nothing readable is cut off.
-/

namespace NostrBbs
namespace Relay

namespace Deployment

variable {trigger : TagTrigger} (deployment : Deployment) (store : Store trigger)
  (order : RowOrder) (frame : ReadFrame)

/-- The session may read a stored row. -/
def readable (row : EventRow) : Bool :=
  (deployment.servedForm frame row).isSome

/-- What is delivered are the newest of the readable rows that match a filter asked, at
most so many, newest first. -/
def DeliversNewest (size : Nat) : Prop :=
  ∃ page, Lib.NewestPage EventRow.createdAt size (deployment.askedRows store frame) page ∧
    (deployment.answerReq store order frame).delivered =
      page.filterMap (deployment.servedForm frame)

/-- What is delivered of the rows that the query of a filter finds: the readable ones of
the newest rows. -/
structure DeliversReadableOf (asked : NostrFilter × Option Nat) (page : List EventRow) : Prop where
  newest : Lib.NewestPage EventRow.createdAt (ownLimit asked.2) (store.foundRows asked) page
  delivered : (deployment.answerReq store order frame).delivered =
    (page.filter (deployment.readable frame)).filterMap (deployment.servedForm frame)
  newestReadable : Lib.NewestPage EventRow.createdAt (ownLimit asked.2)
      ((store.foundRows asked).filter (deployment.readable frame))
      (page.filter (deployment.readable frame)) ↔
    (∀ row ∈ page, deployment.readable frame row) ∨
      ∀ row ∈ store.foundRows asked, deployment.readable frame row → row ∈ page
  found : ∀ event savedAt, EventRow.ofEvent event savedAt ∈ store.events → event.Exact →
    asked.1.Exact →
      (EventRow.ofEvent event savedAt ∈ store.foundRows asked ↔ eventMatches event asked.1)

end Deployment

variable {trigger : TagTrigger}

/-- A frame with one filter is refused, or admitted with one filter under the same
limit. -/
theorem admitted_single
    {deployment : Deployment}
    {frame : ReadFrame}
    {filter : NostrFilter}
    {limit : Option Nat}
    (single : frame.filters = [(filter, limit)]) :
    deployment.admitted frame = [] ∨ ∃ gated, deployment.admitted frame = [(gated, limit)] := by
  unfold Deployment.admitted
  rw [single]
  split
  · exact .inl rfl
  · unfold gateKind1059Filters
    split
    · exact .inr ⟨filter, rfl⟩
    · cases frame.viewer with
      | none => exact .inl rfl
      | some authed => exact .inr ⟨_, rfl⟩

/-- A later note of the author that has expired. -/
def expiredNote : NostrEvent :=
  { taggedNote with
    id := "expired"
    createdAt := 20
    tags := [["expiration", "50"]] }

/-- The newest note of an author. -/
def newestNote : ReadFrame where
  viewer := none
  filters := [(filterAuthor "author", some 1)]
  now := 100

end Relay
end NostrBbs
