import NostrBbs.Auth.Logins
import NostrBbs.Auth.Mirror
import NostrBbs.Auth.Redemptions
import NostrBbs.Auth.Registered
import NostrBbs.Auth.Revocation
import NostrBbs.Auth.WebOfTrust
import NostrBbs.Client.Edits
import NostrBbs.Client.Metadata
import NostrBbs.Client.Reactions
import NostrBbs.Client.Readable
import NostrBbs.Lib.Replay
import NostrBbs.Client.Channels
import Mathlib
import Mathlib.Data.Finset.Basic
import Mathlib.Data.List.Sort
import NostrBbs.Client.ReadPath
import NostrBbs.Lib.Run
import NostrBbs.Shared.Texts
import NostrBbs.Client.Threads
import NostrBbs.Governance.Escalation
import NostrBbs.Governance.SideReceipts
import NostrBbs.Governance.Writes
import NostrBbs.Lib.Selection
import NostrBbs.Governance.History
import NostrBbs.Governance.Instants
import NostrBbs.Governance.PanelFloor
import NostrBbs.Governance.Refusals
import NostrBbs.Governance.Regress
import NostrBbs.Governance.Reviewers
import NostrBbs.HouseSeat.Consistency
import NostrBbs.HouseSeat.DailyCap
import NostrBbs.HouseSeat.Mirrored
import NostrBbs.HouseSeat.PaidOnce
import NostrBbs.HouseSeat.Seats
import NostrBbs.Mesh.Attribution
import NostrBbs.Mesh.RoundTrip
import NostrBbs.Pay.CreditedOnce
import NostrBbs.Pay.Timestamps
import NostrBbs.Pod.IfMatch
import NostrBbs.Pod.Listing
import Mathlib.Data.List.Basic
import Mathlib.Logic.Function.Basic
import Mathlib.Logic.Relation
import Mathlib.Order.WellFounded
import NostrBbs.Relay.Sealed
import NostrBbs.Lib.Counting
import NostrBbs.Pod.Appends
import NostrBbs.Pod.Ranges
import NostrBbs.Pod.Sidecars
import NostrBbs.Poker.Evaluate
import NostrBbs.Poker.Canonical
import NostrBbs.Poker.Determined
import NostrBbs.Poker.Ending
import NostrBbs.Poker.Entitlement
import NostrBbs.Poker.Replayed
import NostrBbs.Poker.Secrecy
import NostrBbs.Preview.Policy
import NostrBbs.Relay.Activity
import NostrBbs.Relay.Agreement
import NostrBbs.Relay.Blocks
import NostrBbs.Relay.Calendar
import NostrBbs.Relay.Deletion
import NostrBbs.Relay.Hiding
import NostrBbs.Relay.Limits
import NostrBbs.Relay.OverSets
import NostrBbs.Relay.Privacy
import NostrBbs.Relay.ProfileStats
import NostrBbs.Relay.Profiles
import NostrBbs.Relay.Rebinding
import NostrBbs.Relay.Replaceable
import NostrBbs.Relay.StoredMatch
import NostrBbs.Relay.Sweeping
import NostrBbs.Relay.Triage
import NostrBbs.Relay.TrustSweep
import NostrBbs.RelayDO.Connections
import NostrBbs.RelayDO.SessionIds
import NostrBbs.Search.Consistency
import NostrBbs.Search.Hits
import NostrBbs.Search.Rvf
import NostrBbs.Shared.Cards
import NostrBbs.Whitelist.Admins
import NostrBbs.Whitelist.Grants
import NostrBbs.ZoneMigrate.Cycle
import NostrBbs.ZoneMigrate.Paging
import NostrBbs.ZoneMigrate.Sealing
