import NostrBbs.Lib.Run
import NostrBbs.Lib.Table
import NostrBbs.Relay.ReadGate

/-!
# The sessions of the relay object

The relay object keeps its sessions in memory and loses them when it hibernates.  The
runtime keeps the sockets with the tags they were accepted with, and the storage keeps
the subscriptions, the authentication and the challenge of each session under its id,
beside the mark of the next id.  The runtime delivers no event while a storage operation
is under way, so that each event is one step.
-/

namespace NostrBbs
namespace RelayDO

open Relay (AuthMode NostrFilter protectedReadBlocked gateKind1059Filters)

/-- The bound of the ids, which are 64 bits wide. -/
def idBound : Nat :=
  2 ^ 64

/-- Maximum WebSocket connections per IP address. -/
def maxConnectionsPerIp : Nat :=
  20

def maxSubscriptions : Nat :=
  20

/-- The filters of each subscription. -/
abbrev Subscriptions := Lib.Table (String × List NostrFilter) Prod.fst

/-- What a socket is tagged with. -/
inductive SocketTag where
  | sid (id : Nat)
  | ip (address : String)
deriving DecidableEq

/-- The session id and the address that a socket was tagged with. -/
def sessionTags (tags : List SocketTag) : Option Nat × String :=
  tags.foldl (fun found tag =>
    match tag with
    | .sid id => (some id, found.2)
    | .ip address => (found.1, address)) (none, "unknown")

/-- A socket that the runtime holds. -/
structure Socket where
  handle : Nat
  tags : List SocketTag
deriving DecidableEq

def Socket.sid (socket : Socket) : Option Nat :=
  (sessionTags socket.tags).1

structure SessionInfo where
  id : Nat
  ws : Nat
  ip : String
  subscriptions : Subscriptions
  authedPubkey : Option String
  challenge : String

/-- What the storage keeps of the sessions. -/
structure Storage where
  sessionIdMark : Option Nat
  wsSub : Nat → Option Subscriptions
  wsAuth : Nat → Option String
  wsChal : Nat → Option String

namespace Storage

def empty : Storage :=
  ⟨none, fun _ => none, fun _ => none, fun _ => none⟩

def loadSubscriptions (storage : Storage) (sessionId : Nat) : Subscriptions :=
  (storage.wsSub sessionId).getD Lib.Table.empty

def persistChallenge (storage : Storage) (sessionId : Nat) (challenge : String) : Storage :=
  { storage with wsChal := Function.update storage.wsChal sessionId (some challenge) }

def saveSubscriptions (storage : Storage) (sessionId : Nat) (subscriptions : Subscriptions) :
    Storage :=
  { storage with wsSub := Function.update storage.wsSub sessionId (some subscriptions) }

def saveAuth (storage : Storage) (sessionId : Nat) (pubkey : String) : Storage :=
  { storage with wsAuth := Function.update storage.wsAuth sessionId (some pubkey) }

def clearSessionStorage (storage : Storage) (sessionId : Nat) : Storage :=
  { storage with
    wsSub := Function.update storage.wsSub sessionId none
    wsAuth := Function.update storage.wsAuth sessionId none
    wsChal := Function.update storage.wsChal sessionId none }

/-- Whether authentication or subscriptions are kept of a session. -/
def holds (storage : Storage) (sessionId : Nat) : Bool :=
  (storage.wsAuth sessionId).isSome || (storage.wsSub sessionId).isSome

end Storage

/-- The next session id once another is known to be in use. -/
def nextSessionIdAfter (next seen : Nat) : Nat :=
  max next (min (seen + 1) (idBound - 1))

def nextSessionIdFromMark (mark : Nat) : Nat :=
  max mark 1

/-- The challenge of a recovered session, and whether it is to be sent anew. -/
def recoveredChallenge (persisted : Option String) (generated : String) : String × Bool :=
  match persisted with
  | some challenge => if challenge ≠ "" then (challenge, false) else (generated, true)
  | none => (generated, true)

/-- The relay object, with the sockets that the runtime holds for it and its storage. -/
structure NostrRelayDO where
  sessions : Lib.Table SessionInfo SessionInfo.id
  nextSessionId : Nat
  connectionCounts : Lib.Table (String × Nat) Prod.fst
  websockets : List Socket
  accepted : Nat
  storage : Storage

namespace NostrRelayDO

/-- A relay object that was never used. -/
def new : NostrRelayDO :=
  ⟨Lib.Table.empty, 1, Lib.Table.empty, [], 0, Storage.empty⟩

/-- The memory is lost; the sockets and the storage are kept. -/
def hibernate (relay : NostrRelayDO) : NostrRelayDO :=
  { relay with
    sessions := Lib.Table.empty
    nextSessionId := 1
    connectionCounts := Lib.Table.empty }

/-! ## Connection slots -/

def connectionCount (relay : NostrRelayDO) (ip : String) : Nat :=
  ((relay.connectionCounts.find? ip).map Prod.snd).getD 0

/-- A slot of an address reserved, unless it holds as many as it may. -/
def reserveConnectionSlot (relay : NostrRelayDO) (ip : String) : Option NostrRelayDO :=
  let count := relay.connectionCount ip
  if maxConnectionsPerIp ≤ count then none
  else some { relay with connectionCounts := relay.connectionCounts.put (ip, count + 1) }

def releaseConnectionSlot (relay : NostrRelayDO) (ip : String) : NostrRelayDO :=
  let count := ((relay.connectionCounts.find? ip).map Prod.snd).getD 1
  if count ≤ 1 then { relay with connectionCounts := relay.connectionCounts.erase ip }
  else { relay with connectionCounts := relay.connectionCounts.put (ip, count - 1) }

/-! ## Recovery -/

def findSessionId (relay : NostrRelayDO) (ws : Socket) : Option Nat :=
  (relay.sessions.rows.find? fun session => session.ws = ws.handle).map SessionInfo.id

/-- The challenge of a recovered session, which is stored when it is a new one. -/
def restoreChallenge (relay : NostrRelayDO) (generated : Nat → String) (sessionId : Nat) :
    NostrRelayDO × String :=
  let restored := recoveredChallenge (relay.storage.wsChal sessionId) (generated sessionId)
  if restored.2 then
    ({ relay with storage := relay.storage.persistChallenge sessionId restored.1 }, restored.1)
  else (relay, restored.1)

/-- The session of an id with what the storage keeps of it. -/
def restoreSession (relay : NostrRelayDO) (ws : Socket) (sessionId : Nat) (challenge : String) :
    NostrRelayDO :=
  { relay with
    sessions := relay.sessions.put
      { id := sessionId
        ws := ws.handle
        ip := (sessionTags ws.tags).2
        subscriptions := relay.storage.loadSubscriptions sessionId
        authedPubkey := relay.storage.wsAuth sessionId
        challenge := challenge } }

/-- The counter moved past an id that is known to be in use. -/
def countPast (relay : NostrRelayDO) (seen : Nat) : NostrRelayDO :=
  { relay with nextSessionId := nextSessionIdAfter relay.nextSessionId seen }

/-- One socket brought back, when its session is not in memory. -/
def recoverSocket (generated : Nat → String) (relay : NostrRelayDO) (other : Socket) :
    NostrRelayDO :=
  match other.sid with
  | none => relay
  | some sid =>
      if (relay.sessions.find? sid).isSome then relay
      else
        let (relay, challenge) := relay.restoreChallenge generated sid
        (relay.restoreSession other sid challenge).countPast sid

def recoverUntrackedSessions (relay : NostrRelayDO) (generated : Nat → String) : NostrRelayDO :=
  relay.websockets.foldl (recoverSocket generated) relay

/-- The session of a socket that is not in memory. -/
def recoverSession (relay : NostrRelayDO) (generated : Nat → String) (ws : Socket) :
    NostrRelayDO × Nat :=
  let (relay, sessionId) :=
    match ws.sid with
    | some sid => (relay, sid)
    | none =>
        ({ relay with nextSessionId := (relay.nextSessionId + 1) % idBound }, relay.nextSessionId)
  let (relay, challenge) := (relay.countPast sessionId).restoreChallenge generated sessionId
  let relay := relay.recoverUntrackedSessions generated
  if (relay.sessions.find? sessionId).isSome then (relay, sessionId)
  else (relay.restoreSession ws sessionId challenge, sessionId)

/-! ## Connecting -/

/-- The counter from which the next id is handed out: that of the mark in an isolate
that has handed out none. -/
def resumedCounter (relay : NostrRelayDO) : Nat :=
  if relay.nextSessionId = 1 then
    (relay.storage.sessionIdMark.map nextSessionIdFromMark).getD 1
  else relay.nextSessionId

def allocateSessionId (relay : NostrRelayDO) : NostrRelayDO × Nat :=
  let current := relay.resumedCounter
  ({ relay with
      nextSessionId := (current + 1) % idBound
      storage := { relay.storage with sessionIdMark := some ((current + 1) % idBound) } },
    current)

/-- A socket taken over with its session, and with the challenge it is sent. -/
def acceptWebsocket (relay : NostrRelayDO) (ip : String) (sessionId : Nat) (challenge : String) :
    NostrRelayDO :=
  { relay with
    websockets := relay.websockets ++ [⟨relay.accepted, [.sid sessionId, .ip ip]⟩]
    accepted := relay.accepted + 1
    sessions := relay.sessions.put
      { id := sessionId
        ws := relay.accepted
        ip := ip
        subscriptions := Lib.Table.empty
        authedPubkey := none
        challenge := challenge }
    storage := relay.storage.persistChallenge sessionId challenge }

/-- How the upgrade of a connection goes: to its end, without a pair of sockets, or until
the isolate is lost before the socket is accepted. -/
inductive Upgrade where
  | completes
  | noPair
  | isLost
deriving DecidableEq

/-- A request to connect, and the id that it is handed. -/
def fetch (relay : NostrRelayDO) (ip : String) (generated : Nat → String) (upgrade : Upgrade) :
    NostrRelayDO × Option Nat :=
  match relay.reserveConnectionSlot ip with
  | none => (relay, none)
  | some relay =>
      let relay := relay.recoverUntrackedSessions generated
      match upgrade with
      | .noPair => (relay.releaseConnectionSlot ip, none)
      | .isLost =>
          let (relay, sessionId) := relay.allocateSessionId
          (relay.hibernate, some sessionId)
      | .completes =>
          let (relay, sessionId) := relay.allocateSessionId
          (relay.acceptWebsocket ip sessionId (generated sessionId), some sessionId)

/-! ## Frames -/

/-- A frame of a client, with whether it is within the rate limit.  The verdict on an
authentication event depends on the challenge that is expected. -/
inductive Frame where
  | req (subId : String) (filters : List NostrFilter) (withinBudget : Bool)
  | close (subId : String) (withinBudget : Bool)
  | auth (verdict : Option String → Option String) (withinBudget : Bool)
  | other

/-- A change of the session of an id. -/
def modifySession (relay : NostrRelayDO) (sessionId : Nat) (change : SessionInfo → SessionInfo)
    (keeps : ∀ session, (change session).id = session.id) : NostrRelayDO :=
  { relay with
    sessions := relay.sessions.updateWhere (fun session => session.id = sessionId) change keeps }

def saveSubscriptions (relay : NostrRelayDO) (sessionId : Nat) : NostrRelayDO :=
  match relay.sessions.find? sessionId with
  | none => relay
  | some session =>
      { relay with storage := relay.storage.saveSubscriptions sessionId session.subscriptions }

def handleReq (mode : AuthMode) (relay : NostrRelayDO) (sessionId : Nat) (subId : String)
    (filters : List NostrFilter) (withinBudget : Bool) : NostrRelayDO :=
  match relay.sessions.find? sessionId with
  | none => relay
  | some session =>
      if !withinBudget then relay
      else if maxSubscriptions ≤ session.subscriptions.rows.length then relay
      else if protectedReadBlocked filters session.authedPubkey.isSome mode then relay
      else
        match gateKind1059Filters filters session.authedPubkey with
        | none => relay
        | some gated =>
            (relay.modifySession sessionId
              (fun session =>
                { session with subscriptions := session.subscriptions.put (subId, gated) })
              (fun _ => rfl)).saveSubscriptions sessionId

def handleClose (relay : NostrRelayDO) (sessionId : Nat) (subId : String) : NostrRelayDO :=
  (relay.modifySession sessionId
    (fun session => { session with subscriptions := session.subscriptions.erase subId })
    (fun _ => rfl)).saveSubscriptions sessionId

def handleAuth (relay : NostrRelayDO) (sessionId : Nat)
    (verdict : Option String → Option String) : NostrRelayDO :=
  match verdict ((relay.sessions.find? sessionId).map SessionInfo.challenge) with
  | none => relay
  | some pubkey =>
      let relay := relay.modifySession sessionId
        (fun session => { session with authedPubkey := some pubkey }) (fun _ => rfl)
      { relay with storage := relay.storage.saveAuth sessionId pubkey }

/-- A held subscription is closed without a look at the rate limit. -/
def closeAdmitted (relay : NostrRelayDO) (sessionId : Nat) (subId : String)
    (withinBudget : Bool) : Bool :=
  (relay.sessions.find? sessionId).any (fun session => (session.subscriptions.find? subId).isSome)
    || withinBudget

def handleFrame (mode : AuthMode) (relay : NostrRelayDO) (sessionId : Nat) : Frame → NostrRelayDO
  | .req subId filters withinBudget => relay.handleReq mode sessionId subId filters withinBudget
  | .close subId withinBudget =>
      if relay.closeAdmitted sessionId subId withinBudget then relay.handleClose sessionId subId
      else relay
  | .auth verdict withinBudget =>
      if withinBudget then relay.handleAuth sessionId verdict else relay
  | .other => relay

def websocketMessage (mode : AuthMode) (relay : NostrRelayDO) (generated : Nat → String)
    (ws : Socket) (frame : Frame) : NostrRelayDO :=
  match relay.findSessionId ws with
  | some sessionId => relay.handleFrame mode sessionId frame
  | none =>
      let (relay, sessionId) := relay.recoverSession generated ws
      relay.handleFrame mode sessionId frame

/-! ## Disconnecting -/

def removeSession (relay : NostrRelayDO) (ws : Socket) : NostrRelayDO :=
  match (relay.findSessionId ws).or ws.sid with
  | none => relay
  | some sessionId =>
      let ip := (relay.sessions.find? sessionId).map SessionInfo.ip
      let relay :=
        { relay with
          sessions := relay.sessions.erase sessionId
          storage := relay.storage.clearSessionStorage sessionId }
      match ip with
      | none => relay
      | some ip => relay.releaseConnectionSlot ip

/-- A socket is gone from the runtime. -/
def dropSocket (relay : NostrRelayDO) (ws : Socket) : NostrRelayDO :=
  { relay with websockets := relay.websockets.filter fun other => other.handle ≠ ws.handle }

def alarm (relay : NostrRelayDO) : NostrRelayDO :=
  if relay.sessions.rows.isEmpty then { relay with connectionCounts := Lib.Table.empty } else relay

/-! ## Events -/

/-- What the runtime delivers to the object, or does to it.  A socket may be closed, or
fail, with notice, and it may be gone without one. -/
inductive Event where
  | connect (ip : String) (generated : Nat → String) (upgrade : Upgrade)
  | message (handle : Nat) (frame : Frame) (generated : Nat → String)
  | close (handle : Nat)
  | vanish (handle : Nat)
  | hibernate
  | alarm

def socket? (relay : NostrRelayDO) (handle : Nat) : Option Socket :=
  relay.websockets.find? fun socket => socket.handle = handle

/-- One event; an event on a socket that is gone is none. -/
def step (mode : AuthMode) (relay : NostrRelayDO) : Event → NostrRelayDO
  | .connect ip generated upgrade => (relay.fetch ip generated upgrade).1
  | .message handle frame generated =>
      match relay.socket? handle with
      | none => relay
      | some ws => relay.websocketMessage mode generated ws frame
  | .close handle =>
      match relay.socket? handle with
      | none => relay
      | some ws => (relay.removeSession ws).dropSocket ws
  | .vanish handle =>
      match relay.socket? handle with
      | none => relay
      | some ws => relay.dropSocket ws
  | .hibernate => relay.hibernate
  | .alarm => relay.alarm

/-- The id that an event allocates. -/
def allocated (relay : NostrRelayDO) : Event → Option Nat
  | .connect ip generated upgrade => (relay.fetch ip generated upgrade).2
  | _ => none

/-- A connected socket carries an id. -/
def carried (relay : NostrRelayDO) (sessionId : Nat) : Bool :=
  relay.websockets.any fun socket => socket.sid = some sessionId

end NostrRelayDO

end RelayDO
end NostrBbs
