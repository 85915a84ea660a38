import NostrBbs.RelayDO.Sessions

/-!
# The cap on connections

The slots of the addresses are counted in memory alone.  They match the sockets as long
as the memory is kept: sockets that outlive it are brought back as sessions when the
object wakes, and their slots are not.
-/

namespace NostrBbs
namespace RelayDO

open Relay (AuthMode)

/-- The address that a socket was tagged with. -/
def Socket.ip (socket : Socket) : String :=
  (sessionTags socket.tags).2

namespace NostrRelayDO

/-! ## What is claimed, and when it holds -/

/-- The open sockets of an address. -/
def openSockets (relay : NostrRelayDO) (ip : String) : Nat :=
  relay.websockets.countP fun socket => socket.ip = ip

/-- A socket that closes frees one slot of its address and none of another. -/
def FreesSlot (mode : AuthMode) (relay : NostrRelayDO) : Event → Prop
  | .close handle => ∀ ws ∈ relay.socket? handle,
      (relay.step mode (.close handle)).connectionCount ws.ip + 1 = relay.connectionCount ws.ip ∧
        ∀ ip, ip ≠ ws.ip →
          (relay.step mode (.close handle)).connectionCount ip = relay.connectionCount ip
  | _ => True

/-- No address has more open sockets than it may, and in whatever order sockets close,
each frees its slot. -/
def SlotsKept (mode : AuthMode) (relay : NostrRelayDO) : Prop :=
  (∀ ip, relay.openSockets ip ≤ maxConnectionsPerIp) ∧
    ∀ handles : List Nat, Lib.Along (step mode) (FreesSlot mode) relay (handles.map Event.close)

/-- The memory is not lost while a socket is open, and no connection is handed the id of
an open socket. -/
def KeepsSlots (relay : NostrRelayDO) : Event → Prop
  | .hibernate => relay.websockets = []
  | .connect ip _ upgrade => (relay.reserveConnectionSlot ip).isSome →
      (upgrade = .isLost → relay.websockets = []) ∧
        (upgrade = .completes → relay.carried relay.resumedCounter = false)
  | _ => True

/-! ## Counting slots -/

section Counts

variable {relay : NostrRelayDO}

theorem connectionCount_put
    (ip other : String)
    (count : Nat) :
    connectionCount
        { relay with connectionCounts := relay.connectionCounts.put (ip, count) } other =
      if other = ip then count else relay.connectionCount other := by
  unfold connectionCount
  dsimp only
  rw [Lib.Table.find?_put]
  split <;> rfl

/-- A reserved slot is counted, and was free. -/
theorem reserveConnectionSlot_spec
    {reserved : NostrRelayDO}
    {ip : String}
    (isReserved : relay.reserveConnectionSlot ip = some reserved) :
    relay.connectionCount ip < maxConnectionsPerIp ∧
      (∃ counts, reserved = { relay with connectionCounts := counts }) ∧
        ∀ other, reserved.connectionCount other =
          if other = ip then relay.connectionCount ip + 1 else relay.connectionCount other := by
  unfold reserveConnectionSlot at isReserved
  dsimp only at isReserved
  split at isReserved
  · cases isReserved
  · rename_i isFree
    cases isReserved
    exact ⟨Nat.lt_of_not_le isFree, ⟨_, rfl⟩, fun other => connectionCount_put ip other _⟩

/-- A released slot is no longer counted. -/
theorem connectionCount_release
    (ip other : String) :
    (relay.releaseConnectionSlot ip).connectionCount other =
      if other = ip then relay.connectionCount ip - 1 else relay.connectionCount other := by
  have erased : connectionCount
      { relay with connectionCounts := relay.connectionCounts.erase ip } other =
        if other = ip then 0 else relay.connectionCount other := by
    unfold connectionCount
    dsimp only
    rw [Lib.Table.find?_erase]
    split <;> rfl
  unfold releaseConnectionSlot
  dsimp only
  split
  · rename_i last
    rw [erased]
    split
    · unfold connectionCount
      cases found : relay.connectionCounts.find? ip with
      | none => rfl
      | some row =>
          rw [found] at last
          have atMostOne : row.2 ≤ 1 := last
          change 0 = row.2 - 1
          omega
    · rfl
  · rename_i several
    rw [connectionCount_put]
    split
    · unfold connectionCount
      cases found : relay.connectionCounts.find? ip with
      | none =>
          rw [found] at several
          exact absurd (le_refl 1) several
      | some row => rfl
    · rfl

/-- Nothing but the counts is changed. -/
theorem releaseConnectionSlot_spec
    (relay : NostrRelayDO)
    (ip : String) :
    ∃ counts, relay.releaseConnectionSlot ip = { relay with connectionCounts := counts } := by
  unfold releaseConnectionSlot
  dsimp only
  split
  · exact ⟨_, rfl⟩
  · exact ⟨_, rfl⟩

end Counts

/-! ## Sockets and their sessions -/

/-- The id of a session, its socket and its address. -/
def place (session : SessionInfo) : Nat × Nat × String :=
  (session.id, session.ws, session.ip)

def places (relay : NostrRelayDO) : List (Nat × Nat × String) :=
  relay.sessions.rows.map place

/-- Every open socket has its session in memory, and its slot is counted. -/
structure Counted (relay : NostrRelayDO) : Prop where
  accepted : ∀ ws ∈ relay.websockets, ws.handle < relay.accepted
  distinct : (relay.websockets.map Socket.handle).Nodup
  tracked : ∀ ws ∈ relay.websockets, ∃ sid, ws.sid = some sid ∧
    (sid, ws.handle, ws.ip) ∈ relay.places
  owned : ∀ held ∈ relay.places, held.2.1 < relay.accepted ∧
    ∀ ws ∈ relay.websockets, held.2.1 = ws.handle → ws.sid = some held.1
  counted : ∀ ip, relay.openSockets ip ≤ relay.connectionCount ip
  bounded : ∀ ip, relay.connectionCount ip ≤ maxConnectionsPerIp

theorem counted_new : Counted new where
  accepted := by simp [new]
  distinct := List.nodup_nil
  tracked := by simp [new]
  owned := by simp [new, places, Lib.Table.empty]
  counted := fun _ => Nat.zero_le _
  bounded := fun _ => Nat.zero_le _

namespace Counted

variable {relay : NostrRelayDO} {ws : Socket}

/-- The open sockets by their handles. -/
def sockets
    (counted : Counted relay) : Lib.Table Socket Socket.handle :=
  ⟨relay.websockets, counted.distinct⟩

theorem socket?_of_mem
    (counted : Counted relay)
    (isOpen : ws ∈ relay.websockets) :
    relay.socket? ws.handle = some ws :=
  (counted.sockets.find?_of_mem isOpen :)

/-- The session of an open socket. -/
theorem session_of_mem
    (counted : Counted relay)
    (isOpen : ws ∈ relay.websockets) :
    ∃ session, ws.sid = some session.id ∧ relay.sessions.find? session.id = some session ∧
      session.ws = ws.handle ∧ session.ip = ws.ip := by
  obtain ⟨sid, isSid, member⟩ := counted.tracked ws isOpen
  obtain ⟨session, held, isPlace⟩ := List.mem_map.mp member
  rw [place, Prod.mk.injEq, Prod.mk.injEq] at isPlace
  obtain ⟨rfl, isWs, isIp⟩ := isPlace
  exact ⟨session, isSid, Lib.Table.find?_of_mem held, isWs, isIp⟩

/-- An open socket is found among the sessions. -/
theorem findSessionId_of_mem
    (counted : Counted relay)
    (isOpen : ws ∈ relay.websockets) :
    relay.findSessionId ws = ws.sid := by
  obtain ⟨session, isSid, found, isWs, -⟩ := counted.session_of_mem isOpen
  have held := (Lib.Table.find?_eq_some_iff.mp found).1
  unfold findSessionId
  cases isFirst : relay.sessions.rows.find? fun session => session.ws = ws.handle with
  | none =>
      have other := List.find?_eq_none.mp isFirst session held
      simp [isWs] at other
  | some first =>
      have firstHeld := List.mem_of_find?_eq_some isFirst
      have firstWs : first.ws = ws.handle := by simpa using List.find?_some isFirst
      have isOwner := (counted.owned (place first) (List.mem_map_of_mem firstHeld)).2 ws isOpen
      exact (isOwner firstWs).symm

/-- What bears on sockets and slots is unchanged. -/
theorem congr
    {after : NostrRelayDO}
    (counted : Counted relay)
    (sameSockets : after.websockets = relay.websockets)
    (sameAccepted : after.accepted = relay.accepted)
    (samePlaces : after.places = relay.places)
    (sameCounts : after.connectionCounts = relay.connectionCounts) :
    Counted after := by
  have sameOpen : after.openSockets = relay.openSockets := by
    funext ip
    unfold openSockets
    rw [sameSockets]
  have sameCount : after.connectionCount = relay.connectionCount := by
    funext ip
    unfold connectionCount
    rw [sameCounts]
  constructor
  · rw [sameSockets, sameAccepted]
    exact counted.accepted
  · rw [sameSockets]
    exact counted.distinct
  · rw [sameSockets, samePlaces]
    exact counted.tracked
  · rw [sameSockets, sameAccepted, samePlaces]
    exact counted.owned
  · rw [sameOpen, sameCount]
    exact counted.counted
  · rw [sameCount]
    exact counted.bounded

/-- Other counts that are bounded and count the open sockets. -/
theorem withCounts
    (counted : Counted relay)
    (counts : Lib.Table (String × Nat) Prod.fst)
    (counts_open : ∀ ip, relay.openSockets ip ≤
      connectionCount { relay with connectionCounts := counts } ip)
    (counts_bounded : ∀ ip,
      connectionCount { relay with connectionCounts := counts } ip ≤ maxConnectionsPerIp) :
    Counted { relay with connectionCounts := counts } :=
  ⟨counted.accepted, counted.distinct, counted.tracked, counted.owned, counts_open,
    counts_bounded⟩

/-! ### Recovery -/

/-- Nothing is recovered where every socket has its session. -/
theorem recoverUntrackedSessions
    (counted : Counted relay)
    (generated : Nat → String) :
    relay.recoverUntrackedSessions generated = relay := by
  have unmoved : ∀ others : List Socket, (∀ other ∈ others, other ∈ relay.websockets) →
      others.foldl (recoverSocket generated) relay = relay := by
    intro others areOpen
    induction others with
    | nil => rfl
    | cons other others inductionHypothesis =>
        obtain ⟨session, isSid, found, -⟩ :=
          counted.session_of_mem (areOpen other List.mem_cons_self)
        have first : recoverSocket generated relay other = relay := by
          unfold recoverSocket
          rw [isSid]
          dsimp only
          rw [found, Option.isSome_some, if_pos rfl]
        rw [List.foldl_cons, first]
        exact inductionHypothesis fun rest member => areOpen rest (List.mem_cons_of_mem other member)
  exact unmoved relay.websockets fun other isOpen => isOpen

end Counted

/-! ### Frames -/

section Frames

variable {relay : NostrRelayDO} {mode : AuthMode}

theorem places_modifySession
    (sessionId : Nat)
    (change : SessionInfo → SessionInfo)
    (keeps : ∀ session, (change session).id = session.id)
    (stays : ∀ session, place (change session) = place session) :
    (relay.modifySession sessionId change keeps).places = relay.places := by
  unfold places modifySession Lib.Table.updateWhere
  dsimp only
  rw [List.map_map]
  apply List.map_congr_left
  intro session _
  rw [Function.comp_apply]
  split
  · exact stays session
  · rfl

/-- The storage bears on neither sockets nor slots. -/
theorem Counted.saveSubscriptions
    (counted : Counted relay)
    (sessionId : Nat) :
    Counted (relay.saveSubscriptions sessionId) := by
  unfold NostrRelayDO.saveSubscriptions
  split
  · exact counted
  · exact counted.congr rfl rfl rfl rfl

theorem Counted.modifySession
    (counted : Counted relay)
    (sessionId : Nat)
    (change : SessionInfo → SessionInfo)
    (keeps : ∀ session, (change session).id = session.id)
    (stays : ∀ session, place (change session) = place session) :
    Counted (relay.modifySession sessionId change keeps) :=
  counted.congr rfl rfl (places_modifySession sessionId change keeps stays) rfl

theorem Counted.handleFrame
    (counted : Counted relay)
    (sessionId : Nat)
    (frame : Frame) :
    Counted (relay.handleFrame mode sessionId frame) := by
  cases frame with
  | req subId filters withinBudget =>
      unfold NostrRelayDO.handleFrame handleReq
      dsimp only
      split
      · exact counted
      · split
        · exact counted
        · split
          · exact counted
          · split
            · exact counted
            · split
              · exact counted
              · apply Counted.saveSubscriptions
                exact counted.modifySession sessionId _ _ fun _ => rfl
  | close subId withinBudget =>
      unfold NostrRelayDO.handleFrame handleClose
      dsimp only
      split
      · apply Counted.saveSubscriptions
        exact counted.modifySession sessionId _ _ fun _ => rfl
      · exact counted
  | auth verdict withinBudget =>
      unfold NostrRelayDO.handleFrame handleAuth
      dsimp only
      split
      · split
        · exact counted
        · rename_i pubkey _
          have modified := counted.modifySession sessionId
            (fun session => { session with authedPubkey := some pubkey }) (fun _ => rfl)
            fun _ => rfl
          exact modified.congr rfl rfl rfl rfl
      · exact counted
  | other => exact counted

end Frames

/-! ### Sockets that go -/

section Departures

variable {relay : NostrRelayDO} {ws : Socket}

theorem openSockets_dropSocket
    (counted : Counted relay)
    (isOpen : ws ∈ relay.websockets)
    (ip : String) :
    (relay.dropSocket ws).openSockets ip + (if ip = ws.ip then 1 else 0) =
      relay.openSockets ip := by
  have alone : (relay.websockets.filter fun other => other.handle = ws.handle) = [ws] := by
    have found : relay.socket? ws.handle = some ws := counted.socket?_of_mem isOpen
    have keyed : (relay.websockets.filter fun other => other.handle = ws.handle) =
        (relay.socket? ws.handle).toList := counted.sockets.filter_key ws.handle
    rw [keyed, found]
    rfl
  unfold openSockets dropSocket
  dsimp only
  rw [List.countP_eq_countP_filter_add relay.websockets (fun socket => socket.ip = ip)
    (fun other => other.handle = ws.handle), alone, List.countP_singleton, Nat.add_comm]
  congr 1
  · simp [eq_comm]
  · congr 1
    apply List.filter_congr
    intro other _
    simp

/-- The sockets that stay keep their sessions, when the sessions of their ids stay. -/
theorem Counted.dropSocket
    (counted : Counted relay)
    (isOpen : ws ∈ relay.websockets) :
    Counted (relay.dropSocket ws) := by
  have stays : ∀ other ∈ (relay.dropSocket ws).websockets, other ∈ relay.websockets :=
    fun other held => (List.mem_filter.mp held).1
  refine ⟨?_, ?_, ?_, ?_, ?_, counted.bounded⟩
  · exact fun other held => counted.accepted other (stays other held)
  · exact counted.distinct.sublist ((List.filter_sublist).map Socket.handle)
  · exact fun other held => counted.tracked other (stays other held)
  · intro held isHeld
    obtain ⟨below, owner⟩ := counted.owned held isHeld
    exact ⟨below, fun other isOther => owner other (stays other isOther)⟩
  · intro ip
    have fewer := openSockets_dropSocket counted isOpen ip
    have enough := counted.counted ip
    change (relay.dropSocket ws).openSockets ip ≤ relay.connectionCount ip
    omega

/-- What the close of an open socket does: its session goes, and one slot of its
address. -/
theorem removeSession_of_mem
    (counted : Counted relay)
    (isOpen : ws ∈ relay.websockets) :
    ∃ sid counts storage, ws.sid = some sid ∧
      relay.removeSession ws =
        { relay with
          sessions := relay.sessions.erase sid
          storage := storage
          connectionCounts := counts } ∧
      ∀ ip, (relay.removeSession ws).connectionCount ip =
        if ip = ws.ip then relay.connectionCount ws.ip - 1 else relay.connectionCount ip := by
  obtain ⟨session, isSid, found, -, isIp⟩ := counted.session_of_mem isOpen
  have identified : (relay.findSessionId ws).or ws.sid = some session.id := by
    rw [counted.findSessionId_of_mem isOpen, isSid, Option.or_some]
    rfl
  unfold NostrRelayDO.removeSession
  rw [identified]
  dsimp only
  rw [found, Option.map_some, isIp]
  dsimp only
  obtain ⟨counts, released⟩ := releaseConnectionSlot_spec
    { relay with
      sessions := relay.sessions.erase session.id
      storage := relay.storage.clearSessionStorage session.id } ws.ip
  refine ⟨session.id, counts, relay.storage.clearSessionStorage session.id, isSid, released, ?_⟩
  intro ip
  rw [connectionCount_release]
  rfl

/-- An open socket that closes leaves the others counted. -/
theorem Counted.close
    (counted : Counted relay)
    (isOpen : ws ∈ relay.websockets) :
    Counted ((relay.removeSession ws).dropSocket ws) := by
  have dropped := counted.dropSocket isOpen
  obtain ⟨sid, counts, storage, isSid, isRemoved, freed⟩ := removeSession_of_mem counted isOpen
  have stays : ∀ held ∈ ((relay.removeSession ws).dropSocket ws).places, held ∈ relay.places := by
    rw [isRemoved]
    intro held isHeld
    obtain ⟨session, isKept, rfl⟩ := List.mem_map.mp isHeld
    exact List.mem_map_of_mem (Lib.Table.mem_retain.mp isKept).1
  have sameOpen : ((relay.removeSession ws).dropSocket ws).websockets =
      (relay.dropSocket ws).websockets := by
    rw [isRemoved]
    rfl
  have sameAccepted : ((relay.removeSession ws).dropSocket ws).accepted = relay.accepted := by
    rw [isRemoved]
    rfl
  constructor
  · rw [sameOpen, sameAccepted]
    exact dropped.accepted
  · rw [sameOpen]
    exact dropped.distinct
  · rw [sameOpen]
    intro other isOther
    obtain ⟨isOtherOpen, isDifferent⟩ := List.mem_filter.mp isOther
    obtain ⟨session, isOtherSid, found, isWs, isIp⟩ := counted.session_of_mem isOtherOpen
    refine ⟨session.id, isOtherSid, ?_⟩
    rw [isRemoved]
    have held := (Lib.Table.find?_eq_some_iff.mp found).1
    have survives : session ∈ (relay.sessions.erase sid).rows := by
      refine Lib.Table.mem_retain.mpr ⟨held, ?_⟩
      rw [decide_eq_true_eq]
      rintro rfl
      -- two open sockets of one session are one socket
      obtain ⟨mine, isMine, foundMine, isMyWs, -⟩ := counted.session_of_mem isOpen
      rw [isSid] at isMine
      rw [← Option.some.inj isMine, found] at foundMine
      rw [Option.some.inj foundMine, isMyWs] at isWs
      simp [isWs] at isDifferent
    refine List.mem_map.mpr ⟨session, survives, ?_⟩
    rw [place, isWs, isIp]
  · rw [sameOpen, sameAccepted]
    exact fun held isHeld => dropped.owned held (stays held isHeld)
  · intro ip
    have fewer := openSockets_dropSocket counted isOpen ip
    have enough := counted.counted ip
    have freedHere := freed ip
    have sameCount : ((relay.removeSession ws).dropSocket ws).openSockets ip =
        (relay.dropSocket ws).openSockets ip := by
      unfold openSockets
      rw [sameOpen]
    change ((relay.removeSession ws).dropSocket ws).openSockets ip ≤
      (relay.removeSession ws).connectionCount ip
    rw [sameCount, freedHere]
    split at fewer
    · rename_i isIp
      rw [if_pos isIp, ← isIp]
      omega
    · rename_i otherIp
      rw [if_neg otherIp]
      omega
  · intro ip
    have bounded := counted.bounded ip
    have boundedWs := counted.bounded ws.ip
    change (relay.removeSession ws).connectionCount ip ≤ maxConnectionsPerIp
    rw [freed]
    split
    · omega
    · exact bounded

/-- A close frees one slot where the sockets are counted. -/
theorem Counted.freesSlot
    (counted : Counted relay)
    (mode : AuthMode)
    (event : Event) :
    FreesSlot mode relay event := by
  cases event with
  | close handle =>
      intro ws isHeld
      have isOpen : ws ∈ relay.websockets := List.mem_of_find?_eq_some isHeld
      have isStep : relay.step mode (.close handle) =
          (relay.removeSession ws).dropSocket ws := by
        unfold step
        dsimp only
        rw [isHeld]
      obtain ⟨-, -, -, -, -, freed⟩ := removeSession_of_mem counted isOpen
      have fewer := openSockets_dropSocket counted isOpen ws.ip
      have enough := counted.counted ws.ip
      rw [if_pos rfl] at fewer
      rw [isStep]
      constructor
      · change (relay.removeSession ws).connectionCount ws.ip + 1 = relay.connectionCount ws.ip
        rw [freed, if_pos rfl]
        omega
      · intro ip otherIp
        change (relay.removeSession ws).connectionCount ip = relay.connectionCount ip
        rw [freed, if_neg otherIp]
  | connect ip generated upgrade => trivial
  | message handle frame generated => trivial
  | vanish handle => trivial
  | hibernate => trivial
  | alarm => trivial

end Departures

/-! ### Sockets that come -/

section Arrivals

variable {relay : NostrRelayDO} {ip : String}

theorem counted_of_no_sockets
    (noSockets : relay.websockets = []) :
    Counted relay.hibernate where
  accepted := by simp [hibernate, noSockets]
  distinct := by simp [hibernate, noSockets]
  tracked := by simp [hibernate, noSockets]
  owned := by simp [hibernate, places, Lib.Table.empty]
  counted := by simp [hibernate, openSockets, noSockets]
  bounded := fun _ => Nat.zero_le _

/-- A socket for which a slot is reserved is accepted under an id that no open socket
carries. -/
theorem Counted.acceptWebsocket
    (counted : Counted relay)
    {sessionId : Nat}
    (fresh : ∀ ws ∈ relay.websockets, ws.sid ≠ some sessionId)
    (reserved : relay.openSockets ip < relay.connectionCount ip)
    (challenge : String) :
    Counted (relay.acceptWebsocket ip sessionId challenge) := by
  let newSocket : Socket := ⟨relay.accepted, [.sid sessionId, .ip ip]⟩
  let newSession : SessionInfo := ⟨sessionId, relay.accepted, ip, .empty, none, challenge⟩
  have mem_open : ∀ ws, ws ∈ (relay.acceptWebsocket ip sessionId challenge).websockets ↔
      ws ∈ relay.websockets ∨ ws = newSocket := by
    intro ws
    unfold NostrRelayDO.acceptWebsocket
    rw [List.mem_append, List.mem_singleton]
  have mem_places : ∀ held, held ∈ (relay.acceptWebsocket ip sessionId challenge).places ↔
      held = (sessionId, relay.accepted, ip) ∨ held ∈ relay.places ∧ held.1 ≠ sessionId := by
    intro held
    constructor
    · intro isHeld
      obtain ⟨session, isSession, rfl⟩ := List.mem_map.mp isHeld
      rcases Lib.Table.mem_put.mp isSession with rfl | ⟨old, different⟩
      · exact .inl rfl
      · exact .inr ⟨List.mem_map_of_mem old, different⟩
    · rintro (rfl | ⟨isHeld, different⟩)
      · exact List.mem_map.mpr ⟨newSession, Lib.Table.mem_put.mpr (.inl rfl), rfl⟩
      · obtain ⟨session, isSession, rfl⟩ := List.mem_map.mp isHeld
        exact List.mem_map_of_mem (Lib.Table.mem_put.mpr (.inr ⟨isSession, different⟩))
  constructor
  · intro ws isOpen
    change ws.handle < relay.accepted + 1
    rcases (mem_open ws).mp isOpen with old | rfl
    · exact Nat.lt_succ_of_lt (counted.accepted ws old)
    · exact Nat.lt_succ_self relay.accepted
  · change ((relay.websockets ++ [newSocket]).map Socket.handle).Nodup
    rw [List.map_append, List.map_singleton, List.nodup_append]
    refine ⟨counted.distinct, List.nodup_singleton _, ?_⟩
    intro first isFirst second isSecond same
    obtain ⟨ws, isOpen, rfl⟩ := List.mem_map.mp isFirst
    rw [List.mem_singleton] at isSecond
    rw [same, isSecond] at isFirst
    have below := counted.accepted ws isOpen
    rw [same, isSecond] at below
    exact Nat.lt_irrefl _ below
  · intro ws isOpen
    rcases (mem_open ws).mp isOpen with old | rfl
    · obtain ⟨sid, isSid, isHeld⟩ := counted.tracked ws old
      refine ⟨sid, isSid, (mem_places _).mpr (.inr ⟨isHeld, ?_⟩)⟩
      rintro rfl
      exact fresh ws old isSid
    · exact ⟨sessionId, rfl, (mem_places _).mpr (.inl rfl)⟩
  · intro held isHeld
    change held.2.1 < relay.accepted + 1 ∧ _
    rcases (mem_places held).mp isHeld with rfl | ⟨old, -⟩
    · refine ⟨Nat.lt_succ_self relay.accepted, ?_⟩
      intro ws isOpen isWs
      rcases (mem_open ws).mp isOpen with older | rfl
      · have below := counted.accepted ws older
        rw [← isWs] at below
        exact absurd below (Nat.lt_irrefl _)
      · rfl
    · obtain ⟨below, owner⟩ := counted.owned held old
      refine ⟨Nat.lt_succ_of_lt below, ?_⟩
      intro ws isOpen isWs
      rcases (mem_open ws).mp isOpen with older | rfl
      · exact owner ws older isWs
      · rw [isWs] at below
        exact absurd below (Nat.lt_irrefl _)
  · intro other
    have enough := counted.counted other
    have oneMore : (relay.acceptWebsocket ip sessionId challenge).openSockets other =
        relay.openSockets other + (if ip = other then 1 else 0) := by
      change (relay.websockets ++ [newSocket]).countP (fun socket => socket.ip = other) = _
      rw [List.countP_append, List.countP_singleton]
      have isIp : newSocket.ip = ip := rfl
      rw [isIp]
      by_cases same : ip = other
      · simp [same]
        rfl
      · simp [same]
        rfl
    change (relay.acceptWebsocket ip sessionId challenge).openSockets other ≤
      relay.connectionCount other
    rw [oneMore]
    split
    · rename_i same
      rw [← same]
      exact reserved
    · exact enough
  · exact counted.bounded

/-- A reserved slot is counted beside the open sockets. -/
theorem Counted.reserve
    (counted : Counted relay)
    {reserved : NostrRelayDO}
    (isReserved : relay.reserveConnectionSlot ip = some reserved) :
    Counted reserved := by
  obtain ⟨isFree, ⟨counts, rfl⟩, oneMore⟩ := reserveConnectionSlot_spec isReserved
  refine counted.withCounts counts ?_ ?_
  · intro other
    have enough := counted.counted other
    rw [oneMore]
    split
    · rename_i same
      rw [same] at enough ⊢
      omega
    · exact enough
  · intro other
    rw [oneMore]
    split
    · exact isFree
    · exact counted.bounded other

/-- A request to connect keeps the sockets counted, if it loses no memory that counts
and takes an id that is not carried. -/
theorem Counted.fetch
    (counted : Counted relay)
    {generated : Nat → String}
    {upgrade : Upgrade}
    (keeps : relay.KeepsSlots (.connect ip generated upgrade)) :
    Counted (relay.fetch ip generated upgrade).1 := by
  unfold NostrRelayDO.fetch
  cases isReserved : relay.reserveConnectionSlot ip with
  | none => exact counted
  | some reserved =>
      obtain ⟨unlessLost, freshId⟩ := keeps (by rw [isReserved]; rfl)
      obtain ⟨isFree, ⟨counts, isSame⟩, counted_reserved⟩ := reserveConnectionSlot_spec isReserved
      have reservedCounted := counted.reserve isReserved
      dsimp only
      rw [reservedCounted.recoverUntrackedSessions]
      cases upgrade with
      | noPair =>
          dsimp only
          have sameCount : ∀ other, (reserved.releaseConnectionSlot ip).connectionCount other =
              relay.connectionCount other := by
            intro other
            rw [connectionCount_release, counted_reserved, counted_reserved]
            split
            · rename_i same
              rw [if_pos rfl, same, Nat.add_sub_cancel]
            · rfl
          obtain ⟨released, isReleased⟩ := releaseConnectionSlot_spec reserved ip
          rw [isReleased] at sameCount ⊢
          refine reservedCounted.withCounts released ?_ ?_
          · intro other
            rw [sameCount]
            subst isSame
            exact counted.counted other
          · intro other
            rw [sameCount]
            exact counted.bounded other
      | isLost =>
          apply counted_of_no_sockets
          subst isSame
          exact unlessLost rfl
      | completes =>
          have notCarried := freshId rfl
          subst isSame
          dsimp only
          have allocated : Counted
              (allocateSessionId { relay with connectionCounts := counts }).1 :=
            reservedCounted.congr rfl rfl rfl rfl
          apply allocated.acceptWebsocket
          · intro ws isOpen isSid
            have carried : relay.carried relay.resumedCounter := by
              apply List.any_eq_true.mpr
              exact ⟨ws, isOpen, decide_eq_true isSid⟩
            rw [notCarried] at carried
            cases carried
          · have enough := counted.counted ip
            have oneMore := counted_reserved ip
            rw [if_pos rfl] at oneMore
            change relay.openSockets ip <
              connectionCount { relay with connectionCounts := counts } ip
            rw [oneMore]
            omega

end Arrivals

/-! ## Steps -/

section Steps

variable {mode : AuthMode} {relay : NostrRelayDO}

theorem counted_step
    (mode : AuthMode)
    (relay : NostrRelayDO)
    (event : Event)
    (counted : Counted relay)
    (keeps : relay.KeepsSlots event) :
    Counted (relay.step mode event) := by
  cases event with
  | connect ip generated upgrade => exact counted.fetch keeps
  | message handle frame generated =>
      unfold step
      dsimp only
      split
      · exact counted
      · rename_i ws isHeld
        have isOpen : ws ∈ relay.websockets := List.mem_of_find?_eq_some isHeld
        obtain ⟨session, isSid, -⟩ := counted.session_of_mem isOpen
        unfold websocketMessage
        rw [counted.findSessionId_of_mem isOpen, isSid]
        exact counted.handleFrame session.id frame
  | close handle =>
      unfold step
      dsimp only
      split
      · exact counted
      · exact counted.close (List.mem_of_find?_eq_some ‹_›)
  | vanish handle =>
      unfold step
      dsimp only
      split
      · exact counted
      · exact counted.dropSocket (List.mem_of_find?_eq_some ‹_›)
  | hibernate => exact counted_of_no_sockets keeps
  | alarm =>
      unfold step alarm
      dsimp only
      split
      · rename_i noSessions
        -- without sessions there are no sockets
        have noSockets : ∀ ws, ws ∉ relay.websockets := by
          intro ws isOpen
          obtain ⟨session, -, found, -⟩ := counted.session_of_mem isOpen
          have held := (Lib.Table.find?_eq_some_iff.mp found).1
          rw [List.isEmpty_iff.mp noSessions] at held
          cases held
        refine counted.withCounts _ ?_ ?_
        · intro ip
          unfold openSockets
          rw [List.eq_nil_iff_forall_not_mem.mpr noSockets]
          exact Nat.zero_le _
        · exact fun ip => Nat.zero_le _
      · exact counted

/-- Where the sockets are counted the slots are kept. -/
theorem Counted.slotsKept
    (counted : Counted relay) :
    SlotsKept mode relay := by
  constructor
  · exact fun ip => (counted.counted ip).trans (counted.bounded ip)
  · intro handles
    have closes : Lib.Along (step mode) KeepsSlots relay (handles.map Event.close) := by
      rw [Lib.along_iff_prefixes]
      intro taken event isInitial
      have isClose : event ∈ handles.map Event.close :=
        isInitial.subset (List.mem_append_right taken (List.mem_singleton_self event))
      obtain ⟨handle, -, rfl⟩ := List.mem_map.mp isClose
      trivial
    exact Lib.along_of_along (counted_step mode)
      (fun state event stateCounted _ => stateCounted.freesSlot mode event) counted closes

/-- Once the memory is lost, a socket that is open frees no slot. -/
theorem not_slotsKept_hibernate
    {ws : Socket}
    (isOpen : ws ∈ relay.websockets) :
    ¬SlotsKept mode relay.hibernate := by
  rintro ⟨-, frees⟩
  obtain ⟨freed, -⟩ := frees [ws.handle]
  have isSome : (relay.hibernate.socket? ws.handle).isSome := by
    apply List.find?_isSome.mpr
    exact ⟨ws, isOpen, decide_eq_true rfl⟩
  obtain ⟨first, isFirst⟩ := Option.isSome_iff_exists.mp isSome
  have one := (freed first isFirst).1
  change _ = 0 at one
  exact Nat.succ_ne_zero _ one

/-- A socket that takes over the id of an open one: when both close, a slot is left
over. -/
theorem not_slotsKept_acceptWebsocket
    (counted : Counted relay)
    {old : Socket}
    {ip : String}
    {sessionId : Nat}
    (isOpen : old ∈ relay.websockets)
    (carried : old.sid = some sessionId)
    (challenge : String) :
    ¬SlotsKept mode (relay.acceptWebsocket ip sessionId challenge) := by
  let after := relay.acceptWebsocket ip sessionId challenge
  let newSocket : Socket := ⟨relay.accepted, [.sid sessionId, .ip ip]⟩
  rintro ⟨-, frees⟩
  obtain ⟨freedOld, freedNew, -⟩ := frees [old.handle, relay.accepted]
  have below : old.handle < relay.accepted := counted.accepted old isOpen
  have foundOld : after.socket? old.handle = some old := by
    have before : relay.socket? old.handle = some old := counted.socket?_of_mem isOpen
    change (relay.websockets ++ [newSocket]).find? (fun socket => socket.handle = old.handle) = _
    rw [List.find?_append]
    change (relay.socket? old.handle).or _ = _
    rw [before, Option.some_or]
  -- the session of the old socket was displaced
  have displaced : after.findSessionId old = none := by
    unfold findSessionId
    rw [Option.map_eq_none_iff, List.find?_eq_none]
    intro session isSession isWs
    rw [decide_eq_true_eq] at isWs
    rcases Lib.Table.mem_put.mp isSession with rfl | ⟨isOld, different⟩
    · change relay.accepted = old.handle at isWs
      omega
    · have isOwner := (counted.owned (place session) (List.mem_map_of_mem isOld)).2 old isOpen isWs
      rw [carried] at isOwner
      exact different (Option.some.inj isOwner).symm
  have foundSession : (after.sessions.find? sessionId).map SessionInfo.ip = some ip := by
    change ((relay.sessions.put ⟨sessionId, relay.accepted, ip, .empty, none, challenge⟩).find?
      sessionId).map SessionInfo.ip = some ip
    rw [Lib.Table.find?_put, if_pos rfl]
    rfl
  have removed : after.removeSession old =
      releaseConnectionSlot
        { after with
          sessions := after.sessions.erase sessionId
          storage := after.storage.clearSessionStorage sessionId } ip := by
    unfold removeSession
    rw [displaced, carried]
    dsimp only [Option.none_or]
    rw [foundSession]
  obtain ⟨counts, isReleased⟩ := releaseConnectionSlot_spec
    { after with
      sessions := after.sessions.erase sessionId
      storage := after.storage.clearSessionStorage sessionId } ip
  have stepOld : after.step mode (.close old.handle) = (after.removeSession old).dropSocket old := by
    unfold step
    dsimp only
    rw [foundOld]
  -- the new socket has no session left, and frees nothing
  let closed := (after.removeSession old).dropSocket old
  have foundNew : closed.socket? relay.accepted = some newSocket := by
    have isSockets : closed.websockets =
        (relay.websockets ++ [newSocket]).filter fun other => other.handle ≠ old.handle := by
      dsimp only [closed]
      rw [removed, isReleased]
      rfl
    unfold socket?
    rw [isSockets, List.filter_append, List.find?_append]
    have noneOld : (relay.websockets.filter fun other => other.handle ≠ old.handle).find?
        (fun socket => socket.handle = relay.accepted) = none := by
      rw [List.find?_eq_none]
      intro ws isKept isNew
      have smaller := counted.accepted ws (List.mem_filter.mp isKept).1
      rw [decide_eq_true_eq] at isNew
      omega
    have keepsNew : [newSocket].filter (fun other => other.handle ≠ old.handle) = [newSocket] := by
      rw [List.filter_eq_self]
      intro other isOther
      rw [List.mem_singleton.mp isOther, decide_eq_true_eq]
      exact Nat.ne_of_gt below
    rw [noneOld, keepsNew, Option.none_or]
    simp [newSocket]
  have freed := freedNew newSocket (by
    rw [stepOld]
    exact foundNew)
  have unchanged : (closed.step mode (.close relay.accepted)).connectionCounts =
      closed.connectionCounts := by
    have sessions : closed.sessions = after.sessions.erase sessionId := by
      dsimp only [closed]
      rw [removed, isReleased]
      rfl
    have noSession : closed.sessions.find? sessionId = none := by
      rw [sessions, Lib.Table.find?_erase, if_pos rfl]
    have untracked : closed.findSessionId newSocket = none := by
      unfold findSessionId
      rw [Option.map_eq_none_iff, List.find?_eq_none, sessions]
      intro session isSession isWs
      rw [decide_eq_true_eq] at isWs
      obtain ⟨isAfter, different⟩ := Lib.Table.mem_retain.mp isSession
      rw [decide_eq_true_eq] at different
      rcases Lib.Table.mem_put.mp isAfter with rfl | ⟨isOld, -⟩
      · exact different rfl
      · have smaller := (counted.owned (place session) (List.mem_map_of_mem isOld)).1
        change session.ws < relay.accepted at smaller
        change session.ws = relay.accepted at isWs
        omega
    unfold step
    dsimp only
    rw [foundNew]
    dsimp only
    unfold removeSession
    rw [untracked, show newSocket.sid = some sessionId from rfl]
    dsimp only [Option.none_or]
    rw [noSession]
    rfl
  have sameCount : (closed.step mode (.close relay.accepted)).connectionCount =
      closed.connectionCount := by
    funext address
    unfold connectionCount
    rw [unchanged]
  have one := freed.1
  rw [stepOld] at one
  change (closed.step mode (.close relay.accepted)).connectionCount _ + 1 =
    closed.connectionCount _ at one
  rw [sameCount] at one
  exact absurd one (Nat.succ_ne_self _)

/-- An event after which slots are kept lost no counted memory and no id. -/
theorem keepsSlots_of_slotsKept
    (counted : Counted relay)
    (event : Event)
    (kept : SlotsKept mode (relay.step mode event)) :
    relay.KeepsSlots event := by
  cases event with
  | hibernate =>
      apply List.eq_nil_iff_forall_not_mem.mpr
      exact fun ws isOpen => not_slotsKept_hibernate isOpen kept
  | connect ip generated upgrade =>
      intro hasSlot
      obtain ⟨reserved, isReserved⟩ := Option.isSome_iff_exists.mp hasSlot
      obtain ⟨-, ⟨counts, isSame⟩, -⟩ := reserveConnectionSlot_spec isReserved
      have reservedCounted := counted.reserve isReserved
      change SlotsKept mode (relay.fetch ip generated upgrade).1 at kept
      unfold fetch at kept
      rw [isReserved] at kept
      dsimp only at kept
      rw [reservedCounted.recoverUntrackedSessions] at kept
      subst isSame
      let allocated := allocateSessionId { relay with connectionCounts := counts }
      constructor
      · rintro rfl
        apply List.eq_nil_iff_forall_not_mem.mpr
        intro ws isOpen
        have forgotten : ¬SlotsKept mode allocated.1.hibernate := not_slotsKept_hibernate isOpen
        exact forgotten kept
      · rintro rfl
        by_contra isCarried
        rw [Bool.not_eq_false] at isCarried
        obtain ⟨old, isOpen, isSid⟩ := List.any_eq_true.mp isCarried
        have allocatedCounted : Counted allocated.1 := reservedCounted.congr rfl rfl rfl rfl
        have displaced : ¬SlotsKept mode
            (allocated.1.acceptWebsocket ip allocated.2 (generated allocated.2)) :=
          not_slotsKept_acceptWebsocket allocatedCounted isOpen (of_decide_eq_true isSid) _
        exact displaced kept
  | message handle frame generated => trivial
  | close handle => trivial
  | vanish handle => trivial
  | alarm => trivial

end Steps

/-- Along every run of a relay object, from its first use on, no address has more open
sockets than it may and every socket that closes frees its slot, exactly when the memory
is never lost while a socket is open and no connection is handed the id of an open
socket. -/
theorem slotsKept_iff
    (mode : AuthMode)
    (events : List Event) :
    Lib.Visits (step mode) (SlotsKept mode) new events ↔
      Lib.Along (step mode) KeepsSlots new events := by
  have always : Lib.Along (step mode) (fun _ _ => True) new events :=
    (Lib.along_iff_prefixes new events).mpr fun _ _ _ => trivial
  have preserved : ∀ relay event, Counted relay → True → KeepsSlots relay event →
      Counted (step mode relay event) :=
    fun relay event counted _ keeps => counted_step mode relay event counted keeps
  exact Lib.visits_iff_along preserved (fun relay counted => counted.slotsKept)
    (fun relay event counted _ kept => keepsSlots_of_slotsKept counted event kept)
    counted_new always

end NostrRelayDO

/-! ## An address with more sockets than it may have -/

namespace Sample

open NostrRelayDO (Event)

/-- An address connects as often as it may, the object sleeps, and the address connects
once more. -/
def sleeps : List Event :=
  List.replicate maxConnectionsPerIp (.connect "10.0.0.1" (fun _ => "challenge") .completes) ++
    [.hibernate, .connect "10.0.0.1" (fun _ => "challenge") .completes]

end Sample

/-- The slots are given anew after the sleep, while the sockets are still open. -/
theorem address_above_cap :
    ¬Lib.Visits (NostrRelayDO.step .nip42) (NostrRelayDO.SlotsKept .nip42) NostrRelayDO.new
      Sample.sleeps := by
  intro visits
  have kept := (Lib.visits_iff_prefixes NostrRelayDO.new Sample.sleeps).mp visits Sample.sleeps
    List.prefix_rfl
  have above : maxConnectionsPerIp <
      (Lib.run (NostrRelayDO.step .nip42) NostrRelayDO.new Sample.sleeps).openSockets
        "10.0.0.1" := by
    decide +kernel
  exact absurd (kept.1 "10.0.0.1") (Nat.not_le_of_lt above)

end RelayDO
end NostrBbs
