import NostrBbs.RelayDO.Sessions

/-!
# Session ids

The mark of the next id outlives the memory, but it is read only by an isolate whose
counter stands at one.  An isolate that wakes with a socket counts on from the ids of the
sockets, and so falls behind the mark when the last sockets vanished: their ids are
handed out again, with what the storage keeps of them.
-/

namespace NostrBbs
namespace RelayDO
namespace NostrRelayDO

open Relay (AuthMode)

/-! ## What is claimed, and when it holds -/

/-- An id that is allocated belongs to no connected socket and to nothing that is stored,
and the mark does not fall. -/
def IdsFresh (mode : AuthMode) (relay : NostrRelayDO) (event : Event) : Prop :=
  (∀ id ∈ relay.allocated event,
      relay.carried id = false ∧ relay.storage.holds id = false) ∧
    ∀ mark ∈ relay.storage.sessionIdMark,
      ∃ later ∈ (relay.step mode event).storage.sessionIdMark, mark ≤ later

/-- The counter once every connected socket is recovered. -/
def counter (relay : NostrRelayDO) : Nat :=
  (relay.websockets.filterMap Socket.sid).foldl nextSessionIdAfter relay.nextSessionId

/-- The counter has not fallen behind the mark, or only by the one id of which nothing is
left, and the ids are not used up. -/
def CounterCurrent (relay : NostrRelayDO) : Prop :=
  if relay.counter = 1 then
    ∀ mark ∈ relay.storage.sessionIdMark, mark < idBound - 1
  else
    relay.counter < idBound - 1 ∧
      ∀ mark ∈ relay.storage.sessionIdMark,
        mark ≤ relay.counter ∨
          mark = relay.counter + 1 ∧ relay.storage.holds relay.counter = false

/-- A request to connect that comes to an allocation. -/
def allocates (relay : NostrRelayDO) : Event → Bool
  | .connect ip _ upgrade => (relay.reserveConnectionSlot ip).isSome && upgrade ≠ .noPair
  | _ => false

def AllocatesCurrent (relay : NostrRelayDO) (event : Event) : Prop :=
  relay.allocates event → relay.CounterCurrent

/-! ## What is kept -/

/-- The mark, or where an object starts that has none. -/
def highWater (relay : NostrRelayDO) : Nat :=
  relay.storage.sessionIdMark.getD 1

/-- Every id in use is below the mark, and the counter is above every session. -/
structure Sound (relay : NostrRelayDO) : Prop where
  positive : 1 ≤ relay.nextSessionId
  counted : relay.nextSessionId ≤ relay.highWater
  bounded : relay.highWater < idBound
  sockets : ∀ ws ∈ relay.websockets, ∃ id, ws.sid = some id ∧ id < relay.highWater
  tracked : ∀ session ∈ relay.sessions.rows, session.id < relay.nextSessionId
  stored : ∀ id, relay.storage.holds id → id < relay.highWater

theorem sound_new : Sound new where
  positive := by decide
  counted := by decide
  bounded := by decide
  sockets := by simp [new]
  tracked := by simp [new, Lib.Table.empty]
  stored := by simp [new, Storage.empty, Storage.holds]

namespace Sound

variable {relay : NostrRelayDO}

theorem hibernate (sound : Sound relay) : Sound relay.hibernate where
  positive := le_refl 1
  counted := le_trans sound.positive sound.counted
  bounded := sound.bounded
  sockets := sound.sockets
  tracked := by simp [NostrRelayDO.hibernate, Lib.Table.empty]
  stored := sound.stored

/-- The slots of the addresses play no part. -/
theorem withCounts
    (sound : Sound relay)
    (counts : Lib.Table (String × Nat) Prod.fst) :
    Sound { relay with connectionCounts := counts } :=
  ⟨sound.positive, sound.counted, sound.bounded, sound.sockets, sound.tracked, sound.stored⟩

theorem reserveConnectionSlot
    (sound : Sound relay)
    {ip : String}
    {reserved : NostrRelayDO}
    (isReserved : relay.reserveConnectionSlot ip = some reserved) :
    Sound reserved := by
  unfold NostrRelayDO.reserveConnectionSlot at isReserved
  dsimp only at isReserved
  split at isReserved
  · cases isReserved
  · cases isReserved
    exact sound.withCounts _

theorem releaseConnectionSlot
    (sound : Sound relay)
    (ip : String) :
    Sound (relay.releaseConnectionSlot ip) := by
  unfold NostrRelayDO.releaseConnectionSlot
  dsimp only
  split
  · exact sound.withCounts _
  · exact sound.withCounts _

/-- Sockets may go. -/
theorem dropSocket
    (sound : Sound relay)
    (ws : Socket) :
    Sound (relay.dropSocket ws) where
  positive := sound.positive
  counted := sound.counted
  bounded := sound.bounded
  sockets := fun other held => sound.sockets other (List.mem_filter.mp held).1
  tracked := sound.tracked
  stored := sound.stored

/-! ### Recovery -/

theorem restoreChallenge
    (sound : Sound relay)
    (generated : Nat → String)
    (sessionId : Nat) :
    Sound (relay.restoreChallenge generated sessionId).1 := by
  unfold NostrRelayDO.restoreChallenge
  dsimp only
  split
  · exact ⟨sound.positive, sound.counted, sound.bounded, sound.sockets, sound.tracked,
      sound.stored⟩
  · exact sound

/-- A session below the counter may be restored. -/
theorem restoreSession
    (sound : Sound relay)
    (ws : Socket)
    {sessionId : Nat}
    (challenge : String)
    (counted : sessionId < relay.nextSessionId) :
    Sound (relay.restoreSession ws sessionId challenge) where
  positive := sound.positive
  counted := sound.counted
  bounded := sound.bounded
  sockets := sound.sockets
  tracked := by
    intro session held
    rcases Lib.Table.mem_put.mp held with rfl | ⟨old, -⟩
    · exact counted
    · exact sound.tracked session old
  stored := sound.stored

/-- The counter may go past any id below the mark. -/
theorem countPast
    (sound : Sound relay)
    {sessionId : Nat}
    (isBelow : sessionId < relay.highWater) :
    Sound (relay.countPast sessionId) where
  positive := le_trans sound.positive (le_max_left _ _)
  counted := by
    apply max_le sound.counted
    exact le_trans (min_le_left _ _) isBelow
  bounded := sound.bounded
  sockets := sound.sockets
  tracked := fun session held => lt_of_lt_of_le (sound.tracked session held) (le_max_left _ _)
  stored := sound.stored

end Sound

/-- An id below the mark is below the counter once it was seen. -/
theorem lt_nextSessionIdAfter
    {next seen : Nat}
    (small : seen + 1 < idBound) :
    seen < nextSessionIdAfter next seen := by
  unfold nextSessionIdAfter
  omega

/-- An id below the counter does not move it. -/
theorem nextSessionIdAfter_of_lt
    {next seen : Nat}
    (seenBefore : seen < next) :
    nextSessionIdAfter next seen = next := by
  unfold nextSessionIdAfter
  omega

/-! ## Recovery -/

/-- Sockets, mark and what is held of each session are as before. -/
structure Unmoved (relay after : NostrRelayDO) : Prop where
  websockets : after.websockets = relay.websockets
  mark : after.storage.sessionIdMark = relay.storage.sessionIdMark
  holds : after.storage.holds = relay.storage.holds

namespace Unmoved

variable {relay between after : NostrRelayDO}

theorem refl (relay : NostrRelayDO) : Unmoved relay relay :=
  ⟨rfl, rfl, rfl⟩

theorem trans
    (first : Unmoved relay between)
    (second : Unmoved between after) :
    Unmoved relay after :=
  ⟨second.websockets.trans first.websockets, second.mark.trans first.mark,
    second.holds.trans first.holds⟩

theorem highWater
    (unmoved : Unmoved relay after) :
    after.highWater = relay.highWater := by
  unfold NostrRelayDO.highWater
  rw [unmoved.mark]

end Unmoved

section Recovery

variable {relay : NostrRelayDO} (generated : Nat → String)

theorem restoreChallenge_unmoved (sessionId : Nat) :
    Unmoved relay (relay.restoreChallenge generated sessionId).1 := by
  unfold restoreChallenge
  dsimp only
  split
  · exact ⟨rfl, rfl, rfl⟩
  · exact Unmoved.refl relay

theorem restoreChallenge_nextSessionId (sessionId : Nat) :
    (relay.restoreChallenge generated sessionId).1.nextSessionId = relay.nextSessionId := by
  unfold restoreChallenge
  dsimp only
  split <;> rfl

theorem recoverSocket_unmoved (other : Socket) :
    Unmoved relay (recoverSocket generated relay other) := by
  unfold recoverSocket
  cases other.sid with
  | none => exact Unmoved.refl relay
  | some sid =>
      dsimp only
      split
      · exact Unmoved.refl relay
      · exact (restoreChallenge_unmoved generated sid).trans ⟨rfl, rfl, rfl⟩

/-- A socket that is brought back moves the counter past its id. -/
theorem recoverSocket_sound
    (sound : Sound relay)
    {other : Socket}
    {sid : Nat}
    (isSid : other.sid = some sid)
    (isBelow : sid < relay.highWater) :
    Sound (recoverSocket generated relay other) ∧
      (recoverSocket generated relay other).nextSessionId =
        nextSessionIdAfter relay.nextSessionId sid := by
  unfold recoverSocket
  rw [isSid]
  dsimp only
  split
  · rename_i tracked
    obtain ⟨session, found⟩ := Option.isSome_iff_exists.mp tracked
    obtain ⟨held, isId⟩ := Lib.Table.find?_eq_some_iff.mp found
    have seenBefore := sound.tracked session held
    rw [isId] at seenBefore
    exact ⟨sound, (nextSessionIdAfter_of_lt seenBefore).symm⟩
  · have restored := sound.restoreChallenge generated sid
    have unmoved : Unmoved relay _ := restoreChallenge_unmoved generated sid
    have sameCounter : _ = relay.nextSessionId := restoreChallenge_nextSessionId generated sid
    rw [← unmoved.highWater] at isBelow
    have past := restored.countPast isBelow
    have small : sid + 1 < idBound := lt_of_le_of_lt isBelow restored.bounded
    refine ⟨past.restoreSession other _ (lt_nextSessionIdAfter small), ?_⟩
    change nextSessionIdAfter (relay.restoreChallenge generated sid).1.nextSessionId sid = _
    rw [sameCounter]

theorem recoverSockets
    (others : List Socket)
    (sound : Sound relay)
    (below : ∀ ws ∈ others, ∃ id, ws.sid = some id ∧ id < relay.highWater) :
    Sound (others.foldl (recoverSocket generated) relay) ∧
      Unmoved relay (others.foldl (recoverSocket generated) relay) ∧
      (others.foldl (recoverSocket generated) relay).nextSessionId =
        (others.filterMap Socket.sid).foldl nextSessionIdAfter relay.nextSessionId := by
  induction others generalizing relay with
  | nil => exact ⟨sound, Unmoved.refl relay, rfl⟩
  | cons ws others inductionHypothesis =>
      obtain ⟨sid, isSid, isBelow⟩ := below ws List.mem_cons_self
      obtain ⟨kept, counts⟩ := recoverSocket_sound generated sound isSid isBelow
      have unmoved : Unmoved relay _ := recoverSocket_unmoved generated ws
      have restBelow : ∀ other ∈ others, ∃ id, other.sid = some id ∧
          id < (recoverSocket generated relay ws).highWater := by
        intro other member
        rw [unmoved.highWater]
        exact below other (List.mem_cons_of_mem ws member)
      obtain ⟨allSound, allUnmoved, allCounts⟩ := inductionHypothesis kept restBelow
      refine ⟨allSound, unmoved.trans allUnmoved, ?_⟩
      rw [List.foldl_cons, allCounts, counts, List.filterMap_cons_some isSid, List.foldl_cons]

/-- Recovery leaves everything but the sessions and the counter. -/
theorem recoverUntrackedSessions_spec
    (sound : Sound relay) :
    Sound (relay.recoverUntrackedSessions generated) ∧
      Unmoved relay (relay.recoverUntrackedSessions generated) ∧
      (relay.recoverUntrackedSessions generated).nextSessionId = relay.counter :=
  recoverSockets generated relay.websockets sound sound.sockets

/-- The counter is above what it started from, and above each id that it saw. -/
theorem le_countPast
    (seen : List Nat)
    (next : Nat) :
    next ≤ seen.foldl nextSessionIdAfter next := by
  induction seen generalizing next with
  | nil => exact le_refl next
  | cons id seen inductionHypothesis =>
      exact le_trans (le_max_left _ _) (inductionHypothesis (nextSessionIdAfter next id))

theorem lt_countPast
    {seen : List Nat}
    {next id : Nat}
    (isSeen : id ∈ seen)
    (small : id + 1 < idBound) :
    id < seen.foldl nextSessionIdAfter next := by
  induction seen generalizing next with
  | nil => cases isSeen
  | cons first seen inductionHypothesis =>
      rcases List.mem_cons.mp isSeen with rfl | later
      · exact lt_of_lt_of_le (lt_nextSessionIdAfter small) (le_countPast seen _)
      · exact inductionHypothesis later

/-- The counter is above the id of every connected socket. -/
theorem lt_counter
    (sound : Sound relay)
    {id : Nat}
    (carried : relay.carried id) :
    id < relay.counter := by
  unfold NostrRelayDO.carried at carried
  rw [List.any_eq_true] at carried
  obtain ⟨ws, held, isId⟩ := carried
  obtain ⟨sid, isSid, isBelow⟩ := sound.sockets ws held
  have same : ws.sid = some id := of_decide_eq_true isId
  rw [same] at isSid
  cases isSid
  have small : id + 1 < idBound := lt_of_le_of_lt isBelow sound.bounded
  exact lt_countPast (List.mem_filterMap.mpr ⟨ws, held, same⟩) small

theorem counter_le_highWater
    (sound : Sound relay) :
    relay.counter ≤ relay.highWater := by
  obtain ⟨recovered, unmoved, counts⟩ := recoverUntrackedSessions_spec (fun _ => "") sound
  rw [← counts, ← unmoved.highWater]
  exact recovered.counted

theorem one_le_counter
    (sound : Sound relay) :
    1 ≤ relay.counter :=
  le_trans sound.positive (le_countPast _ _)

/-- A socket whose session was lost has it again, below the counter. -/
theorem recoverSession_spec
    (sound : Sound relay)
    {ws : Socket}
    (held : ws ∈ relay.websockets) :
    Sound (relay.recoverSession generated ws).1 ∧
      Unmoved relay (relay.recoverSession generated ws).1 ∧
      (relay.recoverSession generated ws).2 <
        (relay.recoverSession generated ws).1.nextSessionId := by
  obtain ⟨sid, isSid, isBelow⟩ := sound.sockets ws held
  have small : sid + 1 < idBound := lt_of_le_of_lt isBelow sound.bounded
  have past := sound.countPast isBelow
  have restored := past.restoreChallenge generated sid
  have sameCounter : ((relay.countPast sid).restoreChallenge generated sid).1.nextSessionId =
      nextSessionIdAfter relay.nextSessionId sid :=
    restoreChallenge_nextSessionId generated sid
  obtain ⟨recovered, unmoved, counts⟩ := recoverUntrackedSessions_spec generated restored
  have pastUnmoved : Unmoved relay (relay.countPast sid) := ⟨rfl, rfl, rfl⟩
  have allUnmoved := pastUnmoved.trans ((restoreChallenge_unmoved generated sid).trans unmoved)
  have counted : sid < (((relay.countPast sid).restoreChallenge generated
      sid).1.recoverUntrackedSessions generated).nextSessionId := by
    rw [counts]
    refine lt_of_lt_of_le (lt_nextSessionIdAfter small :
      sid < nextSessionIdAfter relay.nextSessionId sid) ?_
    rw [← sameCounter]
    exact le_countPast _ _
  unfold recoverSession
  rw [isSid]
  dsimp only
  split
  · exact ⟨recovered, allUnmoved, counted⟩
  · exact ⟨recovered.restoreSession ws _ counted, allUnmoved.trans ⟨rfl, rfl, rfl⟩, counted⟩

end Recovery

/-! ## Frames and departures -/

section Frames

variable {relay : NostrRelayDO} {sessionId : Nat}

namespace Sound

theorem modifySession
    (sound : Sound relay)
    (sessionId : Nat)
    (change : SessionInfo → SessionInfo)
    (keeps : ∀ session, (change session).id = session.id) :
    Sound (relay.modifySession sessionId change keeps) where
  positive := sound.positive
  counted := sound.counted
  bounded := sound.bounded
  sockets := sound.sockets
  tracked := by
    intro session held
    unfold NostrRelayDO.modifySession at held
    rw [Lib.Table.mem_updateWhere] at held
    obtain ⟨old, oldHeld, rfl⟩ := held
    split
    · rw [keeps old]
      exact sound.tracked old oldHeld
    · exact sound.tracked old oldHeld
  stored := sound.stored

/-- Something may be stored of an id below the counter. -/
theorem withStorage
    (sound : Sound relay)
    {storage : Storage}
    (sameMark : storage.sessionIdMark = relay.storage.sessionIdMark)
    (counted : sessionId < relay.nextSessionId)
    (elsewhere : ∀ id, id ≠ sessionId → storage.holds id = relay.storage.holds id) :
    Sound { relay with storage := storage } := by
  have sameWater : highWater { relay with storage := storage } = relay.highWater := by
    unfold highWater
    rw [sameMark]
  refine ⟨sound.positive, ?_, ?_, ?_, sound.tracked, ?_⟩
  · rw [sameWater]
    exact sound.counted
  · rw [sameWater]
    exact sound.bounded
  · rw [sameWater]
    exact sound.sockets
  · intro id isHeld
    rw [sameWater]
    by_cases isSession : id = sessionId
    · rw [isSession]
      exact lt_of_lt_of_le counted sound.counted
    · rw [elsewhere id isSession] at isHeld
      exact sound.stored id isHeld

theorem saveSubscriptions
    (sound : Sound relay)
    (counted : sessionId < relay.nextSessionId) :
    Sound (relay.saveSubscriptions sessionId) := by
  unfold NostrRelayDO.saveSubscriptions
  split
  · exact sound
  · refine sound.withStorage rfl counted ?_
    intro id isOther
    simp [Storage.holds, Storage.saveSubscriptions, Function.update_of_ne isOther]

end Sound

theorem saveSubscriptions_mark :
    (relay.saveSubscriptions sessionId).storage.sessionIdMark = relay.storage.sessionIdMark := by
  unfold saveSubscriptions
  split <;> rfl

/-- A frame of a session below the counter keeps the ids in order, and the mark. -/
theorem handleFrame_spec
    (mode : AuthMode)
    (sound : Sound relay)
    (counted : sessionId < relay.nextSessionId)
    (frame : Frame) :
    Sound (relay.handleFrame mode sessionId frame) ∧
      (relay.handleFrame mode sessionId frame).storage.sessionIdMark =
        relay.storage.sessionIdMark := by
  have saved : ∀ change keeps,
      Sound ((relay.modifySession sessionId change keeps).saveSubscriptions sessionId) ∧
        ((relay.modifySession sessionId change keeps).saveSubscriptions
          sessionId).storage.sessionIdMark = relay.storage.sessionIdMark := by
    intro change keeps
    refine ⟨(sound.modifySession sessionId change keeps).saveSubscriptions counted, ?_⟩
    rw [saveSubscriptions_mark]
    rfl
  cases frame with
  | req subId filters withinBudget =>
      unfold handleFrame handleReq
      dsimp only
      split
      · exact ⟨sound, rfl⟩
      · split
        · exact ⟨sound, rfl⟩
        · split
          · exact ⟨sound, rfl⟩
          · split
            · exact ⟨sound, rfl⟩
            · split
              · exact ⟨sound, rfl⟩
              · exact saved _ _
  | close subId withinBudget =>
      unfold handleFrame
      dsimp only
      split
      · exact saved _ _
      · exact ⟨sound, rfl⟩
  | auth verdict withinBudget =>
      unfold handleFrame handleAuth
      dsimp only
      split
      · split
        · exact ⟨sound, rfl⟩
        · have modified := sound.modifySession sessionId
          refine ⟨(modified _ _).withStorage rfl counted ?_, rfl⟩
          intro id isOther
          simp [Storage.holds, Storage.saveAuth, Function.update_of_ne isOther, modifySession]
      · exact ⟨sound, rfl⟩
  | other => exact ⟨sound, rfl⟩

theorem releaseConnectionSlot_mark (ip : String) :
    (relay.releaseConnectionSlot ip).storage.sessionIdMark = relay.storage.sessionIdMark := by
  unfold releaseConnectionSlot
  dsimp only
  split <;> rfl

/-- A session that ends leaves nothing of its id. -/
theorem removeSession_spec
    (sound : Sound relay)
    (ws : Socket) :
    Sound (relay.removeSession ws) ∧
      (relay.removeSession ws).storage.sessionIdMark = relay.storage.sessionIdMark := by
  unfold removeSession
  split
  · exact ⟨sound, rfl⟩
  · rename_i sessionId _
    have removed : Sound
        { relay with
          sessions := relay.sessions.erase sessionId
          storage := relay.storage.clearSessionStorage sessionId } := by
      refine ⟨sound.positive, sound.counted, sound.bounded, sound.sockets, ?_, ?_⟩
      · intro session held
        exact sound.tracked session (Lib.Table.mem_retain.mp held).1
      · intro id isHeld
        apply sound.stored id
        by_cases isSession : id = sessionId
        · simp [Storage.holds, Storage.clearSessionStorage, isSession] at isHeld
        · simpa [Storage.holds, Storage.clearSessionStorage,
            Function.update_of_ne isSession] using isHeld
    dsimp only
    split
    · exact ⟨removed, rfl⟩
    · refine ⟨removed.releaseConnectionSlot _, ?_⟩
      rw [releaseConnectionSlot_mark]
      rfl

end Frames

/-! ## Allocation -/

section Allocation

variable {relay : NostrRelayDO}

/-- The id that the next connection is handed. -/
def nextId (relay : NostrRelayDO) : Nat :=
  if relay.counter = 1 then relay.highWater else relay.counter

theorem nextId_le_highWater
    (sound : Sound relay) :
    relay.nextId ≤ relay.highWater := by
  unfold nextId
  split
  · exact le_refl _
  · exact counter_le_highWater sound

theorem counter_le_nextId
    (sound : Sound relay) :
    relay.counter ≤ relay.nextId := by
  unfold nextId
  split
  · exact counter_le_highWater sound
  · exact le_refl _

theorem mark_eq_highWater
    {mark : Nat}
    (isMark : mark ∈ relay.storage.sessionIdMark) :
    mark = relay.highWater := by
  unfold highWater
  rw [Option.mem_def.mp isMark, Option.getD_some]

/-- The mark is at least one, so that resuming from it starts at it. -/
theorem resumedCounter_eq
    (sound : Sound relay) :
    relay.resumedCounter =
      if relay.nextSessionId = 1 then relay.highWater else relay.nextSessionId := by
  have positive : 1 ≤ relay.highWater := le_trans sound.positive sound.counted
  unfold resumedCounter
  split
  · unfold highWater at positive ⊢
    cases mark : relay.storage.sessionIdMark with
    | none => rfl
    | some value =>
        rw [mark, Option.getD_some] at positive
        rw [Option.map_some, Option.getD_some, Option.getD_some]
        exact max_eq_left positive
  · rfl

/-- The next id is free, and the mark does not fall, exactly when the counter is
current. -/
theorem counterCurrent_iff
    (sound : Sound relay) :
    relay.CounterCurrent ↔
      (relay.carried relay.nextId = false ∧ relay.storage.holds relay.nextId = false) ∧
        ∀ mark ∈ relay.storage.sessionIdMark, mark ≤ (relay.nextId + 1) % idBound := by
  have isFree : relay.carried relay.nextId = false := by
    rw [Bool.eq_false_iff]
    intro carried
    have isBelow := lt_counter sound carried
    have above := counter_le_nextId sound
    omega
  have atMost := nextId_le_highWater sound
  have bounded := sound.bounded
  have positive := one_le_counter sound
  have belowMark := counter_le_highWater sound
  unfold CounterCurrent nextId at *
  split
  · rename_i isOne
    rw [if_pos isOne] at atMost isFree
    have nothingHeld : relay.storage.holds relay.highWater = false := by
      rw [Bool.eq_false_iff]
      intro isHeld
      exact absurd (sound.stored _ isHeld) (lt_irrefl _)
    constructor
    · intro room
      refine ⟨⟨isFree, nothingHeld⟩, ?_⟩
      intro mark isMark
      have small := room mark isMark
      rw [mark_eq_highWater isMark] at small ⊢
      rw [Nat.mod_eq_of_lt (by omega)]
      omega
    · rintro ⟨-, climbs⟩ mark isMark
      have climbs := climbs mark isMark
      rw [mark_eq_highWater isMark] at climbs ⊢
      by_contra noRoom
      have last : relay.highWater + 1 = idBound := by omega
      rw [last, Nat.mod_self] at climbs
      omega
  · rename_i notOne
    rw [if_neg notOne] at atMost isFree
    -- a counter past one has a mark to keep up with
    have hasMark : relay.highWater ∈ relay.storage.sessionIdMark := by
      unfold highWater at belowMark ⊢
      cases mark : relay.storage.sessionIdMark with
      | none =>
          rw [mark, Option.getD_none] at belowMark
          omega
      | some value => rfl
    constructor
    · rintro ⟨room, current⟩
      have mod : (relay.counter + 1) % idBound = relay.counter + 1 := Nat.mod_eq_of_lt (by omega)
      rcases current _ hasMark with caughtUp | ⟨oneBehind, nothingHeld⟩
      · have nothingHeld : relay.storage.holds relay.counter = false := by
          rw [Bool.eq_false_iff]
          intro isHeld
          have isBelow := sound.stored _ isHeld
          omega
        refine ⟨⟨isFree, nothingHeld⟩, ?_⟩
        intro mark isMark
        rw [mark_eq_highWater isMark, mod]
        omega
      · refine ⟨⟨isFree, nothingHeld⟩, ?_⟩
        intro mark isMark
        rw [mark_eq_highWater isMark, mod]
        omega
    · rintro ⟨⟨-, nothingHeld⟩, climbs⟩
      have climbs := climbs _ hasMark
      have room : relay.counter < idBound - 1 := by
        by_contra noRoom
        have last : relay.counter + 1 = idBound := by omega
        rw [last, Nat.mod_self] at climbs
        omega
      rw [Nat.mod_eq_of_lt (by omega)] at climbs
      refine ⟨room, ?_⟩
      intro mark isMark
      rw [mark_eq_highWater isMark]
      by_cases caughtUp : relay.highWater ≤ relay.counter
      · exact Or.inl caughtUp
      · exact Or.inr ⟨by omega, nothingHeld⟩

/-- From a current counter the mark climbs, within the ids' width. -/
theorem CounterCurrent.climbs
    (current : relay.CounterCurrent)
    (sound : Sound relay) :
    relay.highWater ≤ relay.nextId + 1 ∧ relay.nextId + 1 < idBound := by
  have positive := one_le_counter sound
  have belowMark := counter_le_highWater sound
  unfold CounterCurrent at current
  unfold nextId
  unfold highWater at belowMark ⊢
  cases mark : relay.storage.sessionIdMark with
  | none =>
      rw [mark, Option.getD_none] at belowMark
      have isOne : relay.counter = 1 := le_antisymm belowMark positive
      rw [if_pos isOne, Option.getD_none]
      decide
  | some value =>
      split at current
      · rename_i isOne
        have small := current value mark
        rw [if_pos isOne, Option.getD_some]
        omega
      · rename_i notOne
        have near := current.2 value mark
        rw [if_neg notOne, Option.getD_some]
        omega

/-- An allocation that climbs keeps the ids in order. -/
theorem allocateSessionId_sound
    (sound : Sound relay)
    (climbs : relay.highWater ≤ relay.resumedCounter + 1)
    (room : relay.resumedCounter + 1 < idBound) :
    Sound relay.allocateSessionId.1 ∧
      relay.allocateSessionId.2 < relay.allocateSessionId.1.nextSessionId := by
  have mod : (relay.resumedCounter + 1) % idBound = relay.resumedCounter + 1 :=
    Nat.mod_eq_of_lt room
  have counted : relay.nextSessionId ≤ relay.resumedCounter := by
    rw [resumedCounter_eq sound]
    split
    · exact sound.counted
    · exact le_refl _
  have newWater : relay.allocateSessionId.1.highWater = relay.resumedCounter + 1 := mod
  have newCounter : relay.allocateSessionId.1.nextSessionId = relay.resumedCounter + 1 := mod
  refine ⟨⟨?_, ?_, ?_, ?_, ?_, ?_⟩, ?_⟩
  · rw [newCounter]
    omega
  · rw [newCounter, newWater]
  · rw [newWater]
    exact room
  · intro ws held
    obtain ⟨id, isId, isBelow⟩ := sound.sockets ws held
    refine ⟨id, isId, ?_⟩
    rw [newWater]
    exact lt_of_lt_of_le isBelow climbs
  · intro session held
    have isBelow := sound.tracked session held
    rw [newCounter]
    omega
  · intro id isHeld
    rw [newWater]
    exact lt_of_lt_of_le (sound.stored id isHeld) climbs
  · rw [newCounter]
    exact Nat.lt_succ_self _

theorem Sound.acceptWebsocket
    (sound : Sound relay)
    (ip : String)
    {sessionId : Nat}
    (challenge : String)
    (counted : sessionId < relay.nextSessionId) :
    Sound (relay.acceptWebsocket ip sessionId challenge) where
  positive := sound.positive
  counted := sound.counted
  bounded := sound.bounded
  sockets := by
    intro ws held
    rcases List.mem_append.mp held with old | isNew
    · exact sound.sockets ws old
    · rw [List.mem_singleton] at isNew
      refine ⟨sessionId, ?_, lt_of_lt_of_le counted sound.counted⟩
      rw [isNew]
      rfl
  tracked := by
    intro session held
    rcases Lib.Table.mem_put.mp held with rfl | ⟨old, -⟩
    · exact counted
    · exact sound.tracked session old
  stored := sound.stored

/-- What a request to connect does when it comes to an allocation. -/
structure Connected (relay after : NostrRelayDO) (id : Nat) : Prop where
  isNext : id = relay.nextId
  mark : after.storage.sessionIdMark = some ((id + 1) % idBound)
  sound : relay.highWater ≤ id + 1 → id + 1 < idBound → Sound after

theorem fetch_connected
    (sound : Sound relay)
    {ip : String}
    {generated : Nat → String}
    {upgrade : Upgrade}
    (allocates : relay.allocates (.connect ip generated upgrade)) :
    ∃ id, (relay.fetch ip generated upgrade).2 = some id ∧
      Connected relay (relay.fetch ip generated upgrade).1 id := by
  unfold NostrRelayDO.allocates at allocates
  rw [Bool.and_eq_true, decide_eq_true_iff] at allocates
  obtain ⟨hasSlot, hasPair⟩ := allocates
  unfold fetch
  cases isReserved : relay.reserveConnectionSlot ip with
  | none =>
      rw [isReserved] at hasSlot
      cases hasSlot
  | some reserved =>
      have isSame : ∃ counts, reserved = { relay with connectionCounts := counts } := by
        unfold reserveConnectionSlot at isReserved
        dsimp only at isReserved
        split at isReserved
        · cases isReserved
        · exact ⟨_, (Option.some.inj isReserved).symm⟩
      obtain ⟨counts, rfl⟩ := isSame
      obtain ⟨recovered, unmoved, counted⟩ :=
        recoverUntrackedSessions_spec generated (sound.withCounts counts)
      have sameWater : _ = relay.highWater := unmoved.highWater
      have isNext := resumedCounter_eq recovered
      rw [counted, sameWater] at isNext
      have climbing := allocateSessionId_sound recovered
      cases upgrade with
      | noPair => exact absurd rfl hasPair
      | isLost =>
          refine ⟨_, rfl, isNext, rfl, ?_⟩
          intro climbs room
          rw [← sameWater] at climbs
          exact (climbing climbs room).1.hibernate
      | completes =>
          refine ⟨_, rfl, isNext, rfl, ?_⟩
          intro climbs room
          rw [← sameWater] at climbs
          obtain ⟨allocated, below⟩ := climbing climbs room
          exact allocated.acceptWebsocket ip _ below

/-- A request to connect that is turned away before an allocation. -/
theorem fetch_turnedAway
    (sound : Sound relay)
    {ip : String}
    {generated : Nat → String}
    {upgrade : Upgrade}
    (allocates : ¬relay.allocates (.connect ip generated upgrade)) :
    (relay.fetch ip generated upgrade).2 = none ∧
      (relay.fetch ip generated upgrade).1.storage.sessionIdMark = relay.storage.sessionIdMark ∧
      Sound (relay.fetch ip generated upgrade).1 := by
  unfold NostrRelayDO.allocates at allocates
  unfold fetch
  cases isReserved : relay.reserveConnectionSlot ip with
  | none => exact ⟨rfl, rfl, sound⟩
  | some reserved =>
      have isNoPair : upgrade = .noPair := by
        by_contra hasPair
        apply allocates
        simpa [isReserved] using hasPair
      have isSame : reserved.storage = relay.storage := by
        unfold reserveConnectionSlot at isReserved
        dsimp only at isReserved
        split at isReserved
        · cases isReserved
        · rw [← Option.some.inj isReserved]
      obtain ⟨recovered, unmoved, -⟩ :=
        recoverUntrackedSessions_spec generated (sound.reserveConnectionSlot isReserved)
      rw [isNoPair]
      refine ⟨rfl, ?_, recovered.releaseConnectionSlot ip⟩
      rw [releaseConnectionSlot_mark, unmoved.mark, isSame]

end Allocation

/-! ## Runs -/

/-- Events other than connections keep the mark and the order of the ids. -/
theorem step_spec
    (mode : AuthMode)
    {relay : NostrRelayDO}
    (sound : Sound relay)
    (event : Event)
    (allocates : ¬relay.allocates event) :
    relay.allocated event = none ∧
      (relay.step mode event).storage.sessionIdMark = relay.storage.sessionIdMark ∧
      Sound (relay.step mode event) := by
  cases event with
  | connect ip generated upgrade => exact fetch_turnedAway sound allocates
  | message handle frame generated =>
      refine ⟨rfl, ?_⟩
      unfold step socket?
      dsimp only
      split
      · exact ⟨rfl, sound⟩
      · rename_i ws isHeld
        have held := List.mem_of_find?_eq_some isHeld
        unfold websocketMessage
        split
        · rename_i sessionId isTracked
          unfold findSessionId at isTracked
          obtain ⟨session, found, rfl⟩ := Option.map_eq_some_iff.mp isTracked
          have counted := sound.tracked session (List.mem_of_find?_eq_some found)
          exact (handleFrame_spec mode sound counted frame).symm
        · obtain ⟨recovered, unmoved, counted⟩ := recoverSession_spec generated sound held
          obtain ⟨handled, sameMark⟩ := handleFrame_spec mode recovered counted frame
          exact ⟨sameMark.trans unmoved.mark, handled⟩
  | close handle =>
      refine ⟨rfl, ?_⟩
      unfold step
      dsimp only
      split
      · exact ⟨rfl, sound⟩
      · obtain ⟨removed, sameMark⟩ := removeSession_spec sound ‹_›
        exact ⟨sameMark, removed.dropSocket _⟩
  | vanish handle =>
      refine ⟨rfl, ?_⟩
      unfold step
      dsimp only
      split
      · exact ⟨rfl, sound⟩
      · exact ⟨rfl, sound.dropSocket _⟩
  | hibernate => exact ⟨rfl, rfl, sound.hibernate⟩
  | alarm =>
      refine ⟨rfl, ?_⟩
      unfold step alarm
      dsimp only
      split
      · exact ⟨rfl, sound.withCounts _⟩
      · exact ⟨rfl, sound⟩

/-- An event keeps the ids fresh exactly when it allocates from a current counter. -/
theorem idsFresh_iff_allocatesCurrent
    (mode : AuthMode)
    {relay : NostrRelayDO}
    (sound : Sound relay)
    (event : Event) :
    relay.IdsFresh mode event ↔ relay.AllocatesCurrent event := by
  unfold IdsFresh AllocatesCurrent
  by_cases allocates : relay.allocates event
  · cases event with
    | connect ip generated upgrade =>
        obtain ⟨id, isAllocated, connected⟩ := fetch_connected sound allocates
        have allocatedId : relay.allocated (.connect ip generated upgrade) = some id := isAllocated
        have newMark : (relay.step mode (.connect ip generated upgrade)).storage.sessionIdMark =
            some ((id + 1) % idBound) := connected.mark
        rw [allocatedId, newMark, connected.isNext]
        simp only [Option.mem_def, Option.some.injEq, forall_eq', exists_eq_left', allocates,
          forall_const]
        exact (counterCurrent_iff sound).symm
    | message handle frame generated => cases allocates
    | close handle => cases allocates
    | vanish handle => cases allocates
    | hibernate => cases allocates
    | alarm => cases allocates
  · obtain ⟨noId, sameMark, -⟩ := step_spec mode sound event allocates
    rw [noId, sameMark]
    refine iff_of_true ⟨?_, ?_⟩ (fun isAllocation => absurd isAllocation allocates)
    · rintro id ⟨⟩
    · intro mark isMark
      exact ⟨mark, isMark, le_refl mark⟩

/-- An event that allocates from a current counter keeps the ids in order. -/
theorem step_sound
    (mode : AuthMode)
    (relay : NostrRelayDO)
    (event : Event)
    (sound : Sound relay)
    (current : relay.AllocatesCurrent event) :
    Sound (relay.step mode event) := by
  by_cases allocates : relay.allocates event
  · obtain ⟨climbs, room⟩ := (current allocates).climbs sound
    cases event with
    | connect ip generated upgrade =>
        obtain ⟨id, -, connected⟩ := fetch_connected sound allocates
        rw [← connected.isNext] at climbs room
        exact connected.sound climbs room
    | message handle frame generated => cases allocates
    | close handle => cases allocates
    | vanish handle => cases allocates
    | hibernate => cases allocates
    | alarm => cases allocates
  · exact (step_spec mode sound event allocates).2.2

/-- Along every run of a relay object, from its first use on, no session id is handed out
that a connected socket carries or of which something is stored, and the mark never
falls, exactly when every allocation is made from a current counter. -/
theorem idsFresh_iff
    (mode : AuthMode)
    (events : List Event) :
    Lib.Along (step mode) (IdsFresh mode) new events ↔
      Lib.Along (step mode) AllocatesCurrent new events := by
  constructor
  · refine Lib.along_of_along ?_ ?_ sound_new
    · intro relay event sound fresh
      exact step_sound mode relay event sound ((idsFresh_iff_allocatesCurrent mode sound event).mp fresh)
    · intro relay event sound fresh
      exact (idsFresh_iff_allocatesCurrent mode sound event).mp fresh
  · refine Lib.along_of_along (step_sound mode) ?_ sound_new
    intro relay event sound current
    exact (idsFresh_iff_allocatesCurrent mode sound event).mpr current

instance (mode : AuthMode) (relay : NostrRelayDO) (event : Event) :
    Decidable (relay.IdsFresh mode event) :=
  inferInstanceAs (Decidable ((∀ id ∈ relay.allocated event, _) ∧
    ∀ mark ∈ relay.storage.sessionIdMark, ∃ later ∈ _, mark ≤ later))

end NostrRelayDO

/-! ## A member's id handed out again -/

namespace Sample

open NostrRelayDO (Event)

def generated (_ : Nat) : String :=
  "challenge"

def connects (ip : String) : Event :=
  .connect ip generated .completes

/-- Two connect; the second authenticates and vanishes; the object sleeps, and a third
connects. -/
def wakes : List Event :=
  [connects "10.0.0.1", connects "10.0.0.2",
    .message 1 (.auth (fun _ => some "member") true) generated,
    .vanish 1, .hibernate, connects "10.0.0.3"]

end Sample

/-- The third is handed the id under which the second's authentication is stored. -/
theorem id_handed_out_again :
    ¬Lib.Along (NostrRelayDO.step .nip42) (NostrRelayDO.IdsFresh .nip42) NostrRelayDO.new
      Sample.wakes := by
  decide +kernel

/-- After another sleep the third is recovered as the second. -/
example :
    let woken := Lib.run (NostrRelayDO.step .nip42) NostrRelayDO.new
      (Sample.wakes ++ [.hibernate, .message 2 .other Sample.generated])
    (woken.sessions.find? 2).map SessionInfo.authedPubkey = some (some "member") := by
  decide +kernel

end RelayDO
end NostrBbs
