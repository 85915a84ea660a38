import NostrBbs.Relay.Store

/-!
# Replaceable events

Events of a replaceable kind share a slot with the other events of their author
and kind, and of their `d` tag where the kind is parameterised.  A save removes
what is strictly older in its slot and then inserts, so a slot holds its newest
event as long as events arrive in the order of their times; an event that
arrives late is held beside the one that should stand.
-/

namespace NostrBbs
namespace Relay

/-! ## Slots -/

/-- The slot of an event, `none` when its kind is not replaceable. -/
def replacedSlot (pubkey : String) (kind : Nat) (dTag : String) :
    Option (String × Nat × String) :=
  match eventTreatment kind with
  | .replaceable => some (pubkey, kind, "")
  | .parameterizedReplaceable => some (pubkey, kind, dTag)
  | .regular => none
  | .ephemeral => none

def NostrEvent.slot (event : NostrEvent) : Option (String × Nat × String) :=
  replacedSlot event.pubkey event.kind (dTagValue event)

def EventRow.slot (row : EventRow) : Option (String × Nat × String) :=
  replacedSlot row.pubkey row.kind row.dTag

/-- Kinds from 40000 on are regular. -/
theorem eventTreatment_of_large
    {kind : Nat}
    (large : 40000 ≤ kind) :
    eventTreatment kind = .regular := by
  unfold eventTreatment
  rw [if_neg (by omega), if_neg (by omega), if_neg (by omega)]

theorem lt_of_replaced
    {kind : Nat}
    (replaced : eventTreatment kind ≠ .regular) :
    kind < 40000 := by
  by_contra large
  exact replaced (eventTreatment_of_large (Nat.not_lt.mp large))

/-- A replaceable kind is exact as a double. -/
theorem asF64_of_replaced
    {kind : Nat}
    (replaced : eventTreatment kind ≠ .regular) :
    asF64 kind = kind := by
  apply asF64_of_lt
  have := lt_of_replaced replaced
  omega

theorem asF64_lt_iff
    {number : Nat} :
    asF64 number < 40000 ↔ number < 40000 :=
  Lib.roundTo_lt_iff (by decide) (by decide)

/-- Binding a kind as a double leaves what its slot is. -/
theorem slot_ofEvent
    (event : NostrEvent)
    (now : Nat) :
    (EventRow.ofEvent event now).slot = event.slot := by
  unfold EventRow.slot NostrEvent.slot
  by_cases small : event.kind < 40000
  · have exact : asF64 event.kind = event.kind := asF64_of_lt (by omega)
    simp only [EventRow.ofEvent, exact]
  · have large : 40000 ≤ asF64 event.kind :=
      Nat.not_lt.mp fun below => small (asF64_lt_iff.mp below)
    simp only [EventRow.ofEvent, replacedSlot, eventTreatment_of_large large,
      eventTreatment_of_large (Nat.not_lt.mp small)]

/-- The kind is part of a slot. -/
theorem kind_of_replacedSlot
    {pubkey dTag : String}
    {kind : Nat}
    {slot : String × Nat × String}
    (isSlot : replacedSlot pubkey kind dTag = some slot) :
    slot.1 = pubkey ∧ slot.2.1 = kind := by
  unfold replacedSlot at isSlot
  split at isSlot <;> cases isSlot <;> exact ⟨rfl, rfl⟩

/-- A row has the slot of a replaceable event when it is of its author and
kind. -/
theorem slot_eq_replaceable
    {row : EventRow}
    {event : NostrEvent}
    (treatment : eventTreatment event.kind = .replaceable) :
    row.slot = event.slot ↔ row.pubkey = event.pubkey ∧ row.kind = asF64 event.kind := by
  rw [asF64_of_replaced (by simp [treatment])]
  have isSlot : event.slot = some (event.pubkey, event.kind, "") := by
    simp [NostrEvent.slot, replacedSlot, treatment]
  rw [isSlot]
  constructor
  · intro same
    obtain ⟨samePubkey, sameKind⟩ := kind_of_replacedSlot same
    exact ⟨samePubkey.symm, sameKind.symm⟩
  · rintro ⟨samePubkey, sameKind⟩
    simp [EventRow.slot, replacedSlot, sameKind, treatment, samePubkey]

/-- For a parameterised kind it is of the same `d` tag too. -/
theorem slot_eq_parameterized
    {row : EventRow}
    {event : NostrEvent}
    (treatment : eventTreatment event.kind = .parameterizedReplaceable) :
    row.slot = event.slot ↔
      row.pubkey = event.pubkey ∧ row.kind = asF64 event.kind ∧ row.dTag = dTagValue event := by
  rw [asF64_of_replaced (by simp [treatment])]
  have isSlot : event.slot = some (event.pubkey, event.kind, dTagValue event) := by
    simp [NostrEvent.slot, replacedSlot, treatment]
  rw [isSlot]
  constructor
  · intro same
    obtain ⟨samePubkey, sameKind⟩ := kind_of_replacedSlot same
    dsimp only at samePubkey sameKind
    have sameParts : row.pubkey = event.pubkey ∧ row.dTag = dTagValue event := by
      simpa [EventRow.slot, replacedSlot, ← sameKind, treatment] using same
    exact ⟨samePubkey.symm, sameKind.symm, sameParts.2⟩
  · rintro ⟨samePubkey, sameKind, sameTag⟩
    simp [EventRow.slot, replacedSlot, sameKind, treatment, samePubkey, sameTag]

/-! ## What a save does to the slots -/

section

variable {trigger : TagTrigger} {store : Store trigger} {event : NostrEvent} {now : Nat}
  {row : EventRow}

/-- A row that a save of an event removes. -/
def EventRow.OlderIn (row : EventRow) (event : NostrEvent) : Prop :=
  row.slot = event.slot ∧ row.createdAt < asF64 event.createdAt

/-- A save of a replaceable event removes the older rows of its slot, and inserts
its row unless its id is held by another. -/
theorem mem_saveEvent
    (replaceable : event.slot.isSome) :
    row ∈ (store.saveEvent event (eventTreatment event.kind) now).events ↔
      row ∈ store.events ∧ ¬row.OlderIn event ∨
        row = EventRow.ofEvent event now ∧
          ∀ held ∈ store.events, held.id = event.id → held.OlderIn event := by
  have removes : ∃ doomed : EventRow → Bool,
      store.saveEvent event (eventTreatment event.kind) now =
        (store.deleteWhere doomed).insert (EventRow.ofEvent event now) ∧
      ∀ held, doomed held = true ↔ held.OlderIn event := by
    cases treatment : eventTreatment event.kind with
    | replaceable =>
        refine ⟨Store.supersededBy event, rfl, fun held => ?_⟩
        rw [EventRow.OlderIn, slot_eq_replaceable treatment]
        simp [Store.supersededBy]
    | parameterizedReplaceable =>
        refine ⟨Store.supersededByVersion event, rfl, fun held => ?_⟩
        rw [EventRow.OlderIn, slot_eq_parameterized treatment]
        simp [Store.supersededByVersion, and_assoc]
    | regular => simp [NostrEvent.slot, replacedSlot, treatment] at replaceable
    | ephemeral => simp [NostrEvent.slot, replacedSlot, treatment] at replaceable
  obtain ⟨doomed, saved, isDoomed⟩ := removes
  have spared : ∀ held, doomed held = false ↔ ¬held.OlderIn event := fun held => by
    rw [← isDoomed held, Bool.not_eq_true]
  have sameId : (EventRow.ofEvent event now).id = event.id := rfl
  rw [saved, Store.mem_insert, Store.mem_deleteWhere, spared, sameId, List.mem_map]
  simp only [Store.mem_deleteWhere, spared, not_exists, not_and, and_imp]
  apply or_congr_right
  apply and_congr_right
  intro _
  apply forall_congr'
  intro held
  constructor
  · intro kept isHeld heldId
    by_contra notOlder
    exact kept isHeld notOlder heldId
  · intro older isHeld notOlder heldId
    exact notOlder (older isHeld heldId)

/-- A save of any other event leaves the rows with slots as they were. -/
theorem mem_saveEvent_other
    (other : event.slot = none) :
    (row ∈ store.events →
        row ∈ (store.saveEvent event (eventTreatment event.kind) now).events) ∧
      (row ∈ (store.saveEvent event (eventTreatment event.kind) now).events →
        row ∈ store.events ∨ row = EventRow.ofEvent event now) := by
  cases treatment : eventTreatment event.kind with
  | replaceable => simp [NostrEvent.slot, replacedSlot, treatment] at other
  | parameterizedReplaceable => simp [NostrEvent.slot, replacedSlot, treatment] at other
  | regular =>
      unfold Store.saveEvent
      dsimp only
      rw [Store.mem_insert]
      exact ⟨.inl, fun held => held.imp_right And.left⟩
  | ephemeral =>
      exact ⟨id, .inl⟩

end

/-! ## Arrivals -/

/-- A store and the events that it has accepted, each with the time of its
arrival. -/
structure Arrivals (trigger : TagTrigger) where
  store : Store trigger
  accepted : List (NostrEvent × Nat)

namespace Arrivals

variable {trigger : TagTrigger}

/-- An empty store. -/
def start (trigger : TagTrigger) : Arrivals trigger :=
  ⟨Store.empty, []⟩

/-- Saving an event that arrives at a time. -/
def save (arrivals : Arrivals trigger) (saved : NostrEvent × Nat) : Arrivals trigger where
  store := arrivals.store.saveEvent saved.1 (eventTreatment saved.1.kind) saved.2
  accepted := arrivals.accepted ++ [saved]

/-- Each slot holds one event at most, and the newest of those accepted for
it. -/
structure HoldsNewest (arrivals : Arrivals trigger) : Prop where
  unique : ∀ first ∈ arrivals.store.events, ∀ second ∈ arrivals.store.events,
    first.slot.isSome → first.slot = second.slot → first = second
  newest : ∀ saved ∈ arrivals.accepted, saved.1.slot.isSome →
    ∃ kept ∈ arrivals.accepted,
      EventRow.ofEvent kept.1 kept.2 ∈ arrivals.store.events ∧
      kept.1.slot = saved.1.slot ∧ saved.1.createdAt ≤ kept.1.createdAt

/-- Every held row is that of an accepted event. -/
def FromAccepted (arrivals : Arrivals trigger) : Prop :=
  ∀ row ∈ arrivals.store.events,
    ∃ saved ∈ arrivals.accepted, row = EventRow.ofEvent saved.1 saved.2

/-- An id that has been accepted belongs to the same version of the same slot. -/
def IdIdentifies (arrivals : Arrivals trigger) (saved : NostrEvent × Nat) : Prop :=
  ∀ earlier ∈ arrivals.accepted, earlier.1.id = saved.1.id →
    earlier.1.slot = saved.1.slot ∧ earlier.1.createdAt = saved.1.createdAt

/-- An event arrives as the newest of its slot, or is the held one delivered
again. -/
def ArrivesNewest (arrivals : Arrivals trigger) (saved : NostrEvent × Nat) : Prop :=
  saved.1.slot.isSome → ∀ row ∈ arrivals.store.events, row.slot = saved.1.slot →
    row.createdAt < asF64 saved.1.createdAt ∨ row.id = saved.1.id

/-! ## One arrival -/

section

variable {arrivals : Arrivals trigger} {saved : NostrEvent × Nat}

theorem mem_accepted_save
    {other : NostrEvent × Nat} :
    other ∈ (arrivals.save saved).accepted ↔ other ∈ arrivals.accepted ∨ other = saved := by
  simp [save]

theorem FromAccepted.save
    (fromAccepted : arrivals.FromAccepted)
    (saved : NostrEvent × Nat) :
    (arrivals.save saved).FromAccepted := by
  intro row held
  have origin : row ∈ arrivals.store.events ∨ row = EventRow.ofEvent saved.1 saved.2 := by
    cases isSlot : saved.1.slot with
    | none =>
        exact (mem_saveEvent_other isSlot).2 held
    | some slot =>
        have cases := (mem_saveEvent (by rw [isSlot]; rfl)).mp held
        exact cases.imp And.left And.left
  rcases origin with old | rfl
  · obtain ⟨earlier, accepted, rfl⟩ := fromAccepted row old
    exact ⟨earlier, mem_accepted_save.mpr (.inl accepted), rfl⟩
  · exact ⟨saved, mem_accepted_save.mpr (.inr rfl), rfl⟩

/-- A held row with the id of an arriving event is in its slot and of its
time. -/
theorem IdIdentifies.row
    (identifies : arrivals.IdIdentifies saved)
    (fromAccepted : arrivals.FromAccepted)
    {row : EventRow}
    (held : row ∈ arrivals.store.events)
    (sameId : row.id = saved.1.id) :
    row.slot = saved.1.slot ∧ row.createdAt = asF64 saved.1.createdAt ∧
      ∃ earlier ∈ arrivals.accepted, row = EventRow.ofEvent earlier.1 earlier.2 ∧
        earlier.1.slot = saved.1.slot ∧ earlier.1.createdAt = saved.1.createdAt := by
  obtain ⟨earlier, accepted, rfl⟩ := fromAccepted row held
  obtain ⟨sameSlot, sameTime⟩ := identifies earlier accepted sameId
  refine ⟨(slot_ofEvent earlier.1 earlier.2).trans sameSlot, ?_, earlier, accepted, rfl,
    sameSlot, sameTime⟩
  rw [← sameTime]
  rfl

/-- An event without a slot changes no slot. -/
theorem HoldsNewest.save_other
    (holds : arrivals.HoldsNewest)
    (other : saved.1.slot = none) :
    (arrivals.save saved).HoldsNewest where
  unique := by
    have old : ∀ row ∈ (arrivals.save saved).store.events, row.slot.isSome →
        row ∈ arrivals.store.events := by
      intro row held isSlot
      rcases (mem_saveEvent_other other).2 held with old | rfl
      · exact old
      · rw [slot_ofEvent, other] at isSlot
        cases isSlot
    intro first firstHeld second secondHeld isSlot sameSlot
    exact holds.unique first (old first firstHeld isSlot)
      second (old second secondHeld (sameSlot ▸ isSlot)) isSlot sameSlot
  newest := by
    intro earlier accepted isSlot
    rcases mem_accepted_save.mp accepted with old | rfl
    · obtain ⟨kept, keptAccepted, held, sameSlot, newer⟩ := holds.newest earlier old isSlot
      exact ⟨kept, mem_accepted_save.mpr (.inl keptAccepted),
        (mem_saveEvent_other other).1 held, sameSlot, newer⟩
    · rw [other] at isSlot
      cases isSlot

/-- The held event delivered again changes nothing. -/
theorem HoldsNewest.save_again
    (holds : arrivals.HoldsNewest)
    (fromAccepted : arrivals.FromAccepted)
    (identifies : arrivals.IdIdentifies saved)
    (replaceable : saved.1.slot.isSome)
    {row : EventRow}
    (held : row ∈ arrivals.store.events)
    (sameId : row.id = saved.1.id) :
    (arrivals.save saved).HoldsNewest := by
  obtain ⟨rowSlot, rowTime, earlier, earlierAccepted, rowIs, earlierSlot, earlierTime⟩ :=
    identifies.row fromAccepted held sameId
  have notOlder : ¬row.OlderIn saved.1 := fun older => by
    have := older.2
    omega
  have unchanged : ∀ other, other ∈ (arrivals.save saved).store.events ↔
      other ∈ arrivals.store.events := by
    intro other
    refine (mem_saveEvent replaceable).trans ⟨?_, ?_⟩
    · rintro (⟨old, -⟩ | ⟨-, allOlder⟩)
      · exact old
      · exact absurd (allOlder row held sameId) notOlder
    · intro old
      refine .inl ⟨old, fun older => ?_⟩
      have same : other = row :=
        holds.unique other old row held (older.1 ▸ replaceable) (older.1.trans rowSlot.symm)
      exact notOlder (same ▸ older)
  constructor
  · intro first firstHeld second secondHeld
    exact holds.unique first ((unchanged first).mp firstHeld) second
      ((unchanged second).mp secondHeld)
  · intro other accepted isSlot
    rcases mem_accepted_save.mp accepted with old | rfl
    · obtain ⟨kept, keptAccepted, keptHeld, sameSlot, newer⟩ := holds.newest other old isSlot
      exact ⟨kept, mem_accepted_save.mpr (.inl keptAccepted), (unchanged _).mpr keptHeld,
        sameSlot, newer⟩
    · exact ⟨earlier, mem_accepted_save.mpr (.inl earlierAccepted),
        (unchanged _).mpr (rowIs ▸ held), earlierSlot, earlierTime.ge⟩

/-- An event newer than all that its slot holds takes the slot. -/
theorem HoldsNewest.save_newer
    (holds : arrivals.HoldsNewest)
    (fromAccepted : arrivals.FromAccepted)
    (identifies : arrivals.IdIdentifies saved)
    (replaceable : saved.1.slot.isSome)
    (newer : ∀ row ∈ arrivals.store.events, row.slot = saved.1.slot →
      row.createdAt < asF64 saved.1.createdAt) :
    (arrivals.save saved).HoldsNewest := by
  have inserted : EventRow.ofEvent saved.1 saved.2 ∈ (arrivals.save saved).store.events := by
    refine (mem_saveEvent replaceable).mpr (.inr ⟨rfl, fun held isHeld sameId => ?_⟩)
    have heldSlot := (identifies.row fromAccepted isHeld sameId).1
    exact ⟨heldSlot, newer held isHeld heldSlot⟩
  have others : ∀ row, row ∈ (arrivals.save saved).store.events →
      row = EventRow.ofEvent saved.1 saved.2 ∨
        row ∈ arrivals.store.events ∧ row.slot ≠ saved.1.slot := by
    intro row held
    rcases (mem_saveEvent replaceable).mp held with ⟨old, notOlder⟩ | ⟨isNew, -⟩
    · exact .inr ⟨old, fun sameSlot => notOlder ⟨sameSlot, newer row old sameSlot⟩⟩
    · exact .inl isNew
  have newSlot := slot_ofEvent saved.1 saved.2
  constructor
  · intro first firstHeld second secondHeld isSlot sameSlot
    rcases others first firstHeld with rfl | ⟨firstOld, firstOther⟩ <;>
    rcases others second secondHeld with rfl | ⟨secondOld, secondOther⟩
    · rfl
    · exact absurd (sameSlot.symm.trans newSlot) secondOther
    · exact absurd (sameSlot.trans newSlot) firstOther
    · exact holds.unique first firstOld second secondOld isSlot sameSlot
  · intro earlier accepted isSlot
    by_cases sameSlot : earlier.1.slot = saved.1.slot
    · refine ⟨saved, mem_accepted_save.mpr (.inr rfl), inserted, sameSlot.symm, ?_⟩
      rcases mem_accepted_save.mp accepted with old | rfl
      · obtain ⟨kept, -, keptHeld, keptSlot, keptNewer⟩ := holds.newest earlier old isSlot
        have below : asF64 kept.1.createdAt < asF64 saved.1.createdAt :=
          newer _ keptHeld ((slot_ofEvent kept.1 kept.2).trans (keptSlot.trans sameSlot))
        exact keptNewer.trans (lt_of_asF64_lt below).le
      · exact Nat.le_refl _
    · rcases mem_accepted_save.mp accepted with old | rfl
      · obtain ⟨kept, keptAccepted, keptHeld, keptSlot, keptNewer⟩ :=
          holds.newest earlier old isSlot
        refine ⟨kept, mem_accepted_save.mpr (.inl keptAccepted), ?_, keptSlot, keptNewer⟩
        refine (mem_saveEvent replaceable).mpr (.inl ⟨keptHeld, fun older => sameSlot ?_⟩)
        exact keptSlot.symm.trans ((slot_ofEvent kept.1 kept.2).symm.trans older.1)
      · exact absurd rfl sameSlot

/-- An arrival that is the newest of its slot keeps the slots. -/
theorem HoldsNewest.save
    (holds : arrivals.HoldsNewest)
    (fromAccepted : arrivals.FromAccepted)
    (identifies : arrivals.IdIdentifies saved)
    (arrives : arrivals.ArrivesNewest saved) :
    (arrivals.save saved).HoldsNewest := by
  cases isSlot : saved.1.slot with
  | none =>
      exact holds.save_other isSlot
  | some slot =>
      have replaceable : saved.1.slot.isSome := by rw [isSlot]; rfl
      by_cases again : ∃ row ∈ arrivals.store.events, row.id = saved.1.id
      · obtain ⟨row, held, sameId⟩ := again
        exact holds.save_again fromAccepted identifies replaceable held sameId
      · apply holds.save_newer fromAccepted identifies replaceable
        intro row held sameSlot
        exact (arrives replaceable row held sameSlot).resolve_right
          fun sameId => again ⟨row, held, sameId⟩

/-- Any other arrival is held beside a row that is not older. -/
theorem arrivesNewest_of_save
    (fromAccepted : arrivals.FromAccepted)
    (identifies : arrivals.IdIdentifies saved)
    (after : (arrivals.save saved).HoldsNewest) :
    arrivals.ArrivesNewest saved := by
  intro replaceable row held sameSlot
  by_contra late
  rw [not_or] at late
  have notOlder : ¬row.OlderIn saved.1 := fun older => late.1 older.2
  have stays : row ∈ (arrivals.save saved).store.events :=
    (mem_saveEvent replaceable).mpr (.inl ⟨held, notOlder⟩)
  by_cases again : ∃ other ∈ arrivals.store.events, other.id = saved.1.id
  · obtain ⟨other, otherHeld, sameId⟩ := again
    obtain ⟨otherSlot, otherTime, -⟩ := identifies.row fromAccepted otherHeld sameId
    have otherStays : other ∈ (arrivals.save saved).store.events := by
      refine (mem_saveEvent replaceable).mpr (.inl ⟨otherHeld, fun older => ?_⟩)
      have := older.2
      omega
    have same := after.unique row stays other otherStays (sameSlot ▸ replaceable)
      (sameSlot.trans otherSlot.symm)
    exact late.2 (same ▸ sameId)
  · have inserted : EventRow.ofEvent saved.1 saved.2 ∈ (arrivals.save saved).store.events :=
      (mem_saveEvent replaceable).mpr (.inr ⟨rfl, fun other otherHeld sameId =>
        absurd ⟨other, otherHeld, sameId⟩ again⟩)
    have same := after.unique row stays _ inserted (sameSlot ▸ replaceable)
      (sameSlot.trans (slot_ofEvent saved.1 saved.2).symm)
    exact late.2 (same ▸ rfl)

end

/-! ## Runs of arrivals -/

/-- No two events of a run share an id without being the same version. -/
def IdsIdentify (saves : List (NostrEvent × Nat)) : Prop :=
  ∀ first ∈ saves, ∀ second ∈ saves, first.1.id = second.1.id →
    first.1.slot = second.1.slot ∧ first.1.createdAt = second.1.createdAt

theorem along_idIdentifies
    {arrivals : Arrivals trigger}
    {saves : List (NostrEvent × Nat)}
    (identify : IdsIdentify (arrivals.accepted ++ saves)) :
    Lib.Along save IdIdentifies arrivals saves := by
  induction saves generalizing arrivals with
  | nil =>
      trivial
  | cons saved saves inductionHypothesis =>
      refine ⟨?_, inductionHypothesis ?_⟩
      · intro earlier accepted
        exact identify earlier (List.mem_append_left _ accepted) saved (by simp)
      · simpa [save] using identify

/-- After every save of a run the slots hold their newest events, exactly when
every save of the run is the newest of its slot or the held event again. -/
theorem holdsNewest_iff_arrivesNewest
    (trigger : TagTrigger)
    (saves : List (NostrEvent × Nat))
    (identify : IdsIdentify saves) :
    Lib.Visits save HoldsNewest (start trigger) saves ↔
      Lib.Along save ArrivesNewest (start trigger) saves := by
  have preserved : ∀ (arrivals : Arrivals trigger) (saved : NostrEvent × Nat),
      arrivals.HoldsNewest ∧ arrivals.FromAccepted → arrivals.IdIdentifies saved →
      arrivals.ArrivesNewest saved →
      (arrivals.save saved).HoldsNewest ∧ (arrivals.save saved).FromAccepted := by
    rintro arrivals saved ⟨holds, fromAccepted⟩ identifies arrives
    exact ⟨holds.save fromAccepted identifies arrives, fromAccepted.save saved⟩
  have initially : (start trigger).HoldsNewest ∧ (start trigger).FromAccepted := by
    refine ⟨⟨?_, ?_⟩, ?_⟩ <;> simp [start, Store.empty, FromAccepted]
  exact Lib.visits_iff_along preserved (fun _ both => both.1)
    (fun _ _ both identifies after => arrivesNewest_of_save both.2 identifies after)
    initially (along_idIdentifies (by simpa [start] using identify))

/-- A profile of an author, of a time. -/
def profileOf (id : String) (createdAt : Nat) : NostrEvent where
  id := id
  pubkey := "author"
  createdAt := createdAt
  kind := 0
  tags := []
  content := "{}"
  sig := ""

/-- A profile that arrives after a newer one is held beside it. -/
theorem late_profile_held :
    ¬∀ saves : List (NostrEvent × Nat), IdsIdentify saves →
      Lib.Visits save HoldsNewest (start .probeBlind) saves := by
  intro always
  have visits := always [(profileOf "new" 2, 5), (profileOf "old" 1, 6)]
    (by unfold IdsIdentify; decide)
  have held : (profileOf "new" 2).slot.isSome := by decide
  have same := visits.2.2.unique (EventRow.ofEvent (profileOf "new" 2) 5) (by decide)
    (EventRow.ofEvent (profileOf "old" 1) 6) (by decide) held rfl
  revert same
  decide

theorem holdsNewest_iff_arrivesNewest_profiles :
    Lib.Visits save HoldsNewest (start .probeBlind)
      [(profileOf "old" 1, 5), (profileOf "old" 1, 6), (profileOf "new" 2, 7)] := by
  refine (holdsNewest_iff_arrivesNewest .probeBlind _ ?_).mpr ⟨?_, ?_, ?_, trivial⟩
  · unfold IdsIdentify
    decide
  all_goals
    unfold ArrivesNewest
    decide

end Arrivals

end Relay
end NostrBbs
