import NostrBbs.Client.ReadPath
import Mathlib.Data.List.Sort

/-!
# Channel messages

The messages that the client holds for each channel.  Messages come through the
broad subscription, deletions are folded into tombstones and out of the lists,
and a key that arrives decrypts again what is on screen.
-/

namespace NostrBbs
namespace Client

open Relay (NostrEvent)
open ZoneMigrate (Crypto)

/-! ## The stores -/

/-- What the client knows of a channel, as far as messages are resolved by it. -/
structure ChannelMeta where
  id : String
  name : String
  section_ : String
deriving DecidableEq, Repr

/-- The cryptography, lower-casing and channels of a client. -/
structure Reader where
  crypto : Crypto
  lower : String → String
  channels : List ChannelMeta

/-- The ids that a deletion names, in lower case. -/
def deletionTargets (lower : String → String) (event : NostrEvent) : List String :=
  if event.kind ≠ 5 then []
  else (event.tags.filter (Relay.isValued "e")).map fun tag => lower (Relay.firstValue tag)

namespace Reader

variable (reader : Reader)

/-- The channel of the list that an event's channel tag names: by id, name or
section. -/
def resolveChannel (event : NostrEvent) : Option String :=
  match Relay.channelTag event with
  | none => none
  | some tagVal =>
      let tagLower := reader.lower tagVal
      (reader.channels.find? fun channel =>
        channel.id == tagVal || reader.lower channel.name == tagLower ||
          reader.lower channel.section_ == tagLower).map ChannelMeta.id

end Reader

/-! ## Deletions and insertions -/

section

variable {lower : String → String} {stores : Stores} {deleted : List String}
  {channel id : String} {event other : NostrEvent} {events : List NostrEvent}

end

namespace ReadCache

variable {restoredNow seen : List String} {admits : String → Bool} {event : NostrEvent}
  {events : List NostrEvent}

section

variable {crypto : Crypto} {keys : Keys} {cache : ReadCache} {shown message : NostrEvent}

end

end ReadCache

end Client
end NostrBbs
