import NostrBbs.Relay.FilterSql

/-!
# Stored reads against the live matcher

The query of a filter selects the row of a saved event exactly when the filter
matches the event in memory.  Each part of the builder adds one conjunct to what
the builder selects, for all parameters that later parts bind.
-/

namespace NostrBbs
namespace Relay

/-! ## Bound parameters -/

section

variable {params values later : List SqlValue} {value : SqlValue}

/-- The first parameter bound after some others. -/
theorem boundTo_next :
    boundTo (params ++ (value :: later)) (params.length + 1) = some value := by
  simp [boundTo]

/-- The values bound after some others. -/
theorem boundAmong_next :
    boundAmong (params ++ (values ++ later))
        (List.range' (params.length + 1) values.length) value ↔
      value ∈ values := by
  unfold boundAmong boundTo
  rw [List.any_eq_true, List.mem_iff_getElem?]
  constructor
  · rintro ⟨placeholder, numbered, bound⟩
    obtain ⟨index, inside, rfl⟩ := List.mem_range'.mp numbered
    have position : params.length + 1 + 1 * index - 1 = params.length + index := by omega
    rw [beq_iff_eq, position, List.getElem?_append_right (by omega), Nat.add_sub_cancel_left,
      List.getElem?_append_left inside] at bound
    exact ⟨index, bound⟩
  · rintro ⟨index, found⟩
    have inside : index < values.length := (List.getElem?_eq_some_iff.mp found).1
    refine ⟨params.length + 1 + index, List.mem_range'.mpr ⟨index, inside, by omega⟩, ?_⟩
    have position : params.length + 1 + index - 1 = params.length + index := by omega
    rw [beq_iff_eq, position, List.getElem?_append_right (by omega), Nat.add_sub_cancel_left,
      List.getElem?_append_left inside]
    exact found

end

/-- An index row of a name with one of some values. -/
theorem entrySelected_next
    {params later : List SqlValue}
    {name : String}
    {values : List String}
    {entry : TagRow} :
    entrySelected (params ++ (.text name :: values.map .text ++ later))
        (params.length + 1) (List.range' (params.length + 2) values.length) entry ↔
      entry.name = name ∧ entry.value ∈ values := by
  have nameBound : boundTo (params ++ (.text name :: values.map .text ++ later))
      (params.length + 1) = some (.text name) := boundTo_next
  have valuesBound : boundAmong (params ++ (.text name :: values.map .text ++ later))
        (List.range' (params.length + 2) values.length) (.text entry.value) ↔
      SqlValue.text entry.value ∈ values.map .text := by
    have shifted := @boundAmong_next (params ++ [.text name]) (values.map .text) later
      (.text entry.value)
    simpa using shifted
  unfold entrySelected
  rw [Bool.and_eq_true, nameBound, valuesBound, beq_iff_eq, Option.some.injEq,
    SqlValue.text.injEq, List.mem_map_of_injective fun _ _ => SqlValue.text.inj, eq_comm]

/-! ## What a builder selects -/

namespace Builder

/-- A row satisfies the driver and the conditions of a builder under some
parameters. -/
def Selects (builder : Builder) (params : List SqlValue) (tags : List TagRow)
    (row : EventRow) : Prop :=
  (∀ driver, builder.tagDriver = some driver →
    ∃ entry ∈ tags, entry.eventId = row.id ∧
      entrySelected params driver.name driver.values entry) ∧
  ∀ condition ∈ builder.conditions, condition.holds params tags row

/-- A builder numbers its parameters in order, and whatever is bound later it
selects a row exactly when a proposition holds. -/
structure Means (builder : Builder) (tags : List TagRow) (row : EventRow)
    (meaning : Prop) : Prop where
  numbered : builder.paramIdx = builder.params.length + 1
  selects : ∀ later, builder.Selects (builder.params ++ later) tags row ↔ meaning

variable {builder : Builder} {tags : List TagRow} {row : EventRow} {meaning : Prop}

theorem means_start : start.Means tags row True where
  numbered := rfl
  selects later := by simp [Selects, start]

/-- The same proposition, said otherwise. -/
theorem Means.congr
    {said : Prop}
    (means : builder.Means tags row meaning)
    (same : meaning ↔ said) :
    builder.Means tags row said where
  numbered := means.numbered
  selects later := (means.selects later).trans same

/-- A condition over newly bound parameters adds what it says of the row. -/
theorem Means.addCondition
    {condition : Condition}
    {added : Prop}
    (means : builder.Means tags row meaning)
    (values : List SqlValue)
    (reads : ∀ later,
      condition.holds (builder.params ++ (values ++ later)) tags row = true ↔ added) :
    ((builder.addCondition condition).bind values).Means tags row (meaning ∧ added) where
  numbered := by
    simp only [bind, Builder.addCondition, List.length_append, means.numbered]
    omega
  selects later := by
    have before := means.selects (values ++ later)
    unfold Selects at before ⊢
    simp only [bind, Builder.addCondition, List.append_assoc]
    rw [List.forall_mem_append, List.forall_mem_singleton, reads later, ← and_assoc, before]

/-- A condition that no row satisfies. -/
theorem Means.never
    (means : builder.Means tags row meaning) :
    (builder.addCondition .never).Means tags row (meaning ∧ False) := by
  have unbound : (builder.addCondition .never).bind [] = builder.addCondition .never := by
    simp [bind]
  rw [← unbound]
  apply means.addCondition
  intro later
  simp [Condition.holds]

theorem Means.addAmong
    (means : builder.Means tags row meaning)
    (column : Column)
    (listed : Option (List SqlValue)) :
    (builder.addAmong column listed).Means tags row
      (meaning ∧ listed.all (fun values => values.contains (row.column column))) := by
  cases listed with
  | none =>
      exact means.congr (by simp)
  | some values =>
      unfold Builder.addAmong
      dsimp only
      split
      · rename_i isEmpty
        exact means.never.congr (by simp [isEmpty])
      · apply means.addCondition
        intro later
        simp only [Condition.holds, placeholders, means.numbered]
        rw [boundAmong_next]
        simp

theorem Means.addBound
    {passes : SqlValue → Bool}
    (means : builder.Means tags row meaning)
    (condition : Nat → Condition)
    (given : Option SqlValue)
    (reads : ∀ params placeholder,
      (condition placeholder).holds params tags row =
        (boundTo params placeholder).any passes) :
    (builder.addBound condition given).Means tags row (meaning ∧ given.all passes) := by
  cases given with
  | none =>
      exact means.congr (by simp)
  | some value =>
      apply means.addCondition
      intro later
      rw [reads, means.numbered, List.singleton_append, boundTo_next]
      simp

/-- A tag name and its values select the rows with such an index row, whether
they drive the query or restrict it. -/
theorem Means.addTag
    (means : builder.Means tags row meaning)
    (name : String)
    (values : List String) :
    (builder.addTag name values).Means tags row
      (meaning ∧ ∃ entry ∈ tags, entry.eventId = row.id ∧
        entry.name = name ∧ entry.value ∈ values) := by
  unfold Builder.addTag
  cases driven : builder.tagDriver with
  | none =>
      refine ⟨?_, ?_⟩
      · simp only [bind, List.length_append, means.numbered]
        omega
      · intro later
        have before := means.selects ((.text name :: values.map .text) ++ later)
        unfold Selects at before ⊢
        simp only [driven, reduceCtorEq, false_implies, implies_true, true_and] at before
        simp only [bind, List.append_assoc, Option.some.injEq, forall_eq', means.numbered,
          entrySelected_next, before, and_comm]
  | some driver =>
      apply means.addCondition
      intro later
      simp only [Condition.holds, means.numbered, List.any_eq_true, Bool.and_eq_true, beq_iff_eq,
        entrySelected_next]

end Builder

/-! ## The index against the tags of an event -/

section Saved

variable {trigger : TagTrigger} {store : Store trigger} {event : NostrEvent} {now : Nat}

/-- The values that a filter asks for are not empty, and it never asks for
probes. -/
theorem values_of_tagFilterPlan
    {key name : String}
    {value : JsonValue}
    {required : List String}
    (planned : tagFilterPlan key value = .values name required) :
    name ≠ "probe" ∧ "" ∉ required := by
  unfold tagFilterPlan at planned
  split at planned
  · split at planned
    · cases planned
    · split at planned
      · cases planned
      · rename_i notProbe
        split at planned
        · cases planned
        · dsimp only at planned
          split at planned
          · cases planned
          · cases planned
            exact ⟨notProbe, by simp⟩
  · cases planned

/-- The index rows of a held event are those that its trigger wrote for it. -/
theorem indexed_of_held
    (held : EventRow.ofEvent event now ∈ store.events)
    (entry : TagRow) :
    entry ∈ store.tags ∧ entry.eventId = event.id ↔
      entry ∈ trigger.tagRows (EventRow.ofEvent event now) := by
  rw [store.indexed]
  constructor
  · rintro ⟨⟨row, rowHeld, written⟩, sameId⟩
    have rowId := TagTrigger.eventId_of_mem_tagRows written
    have same : row = EventRow.ofEvent event now :=
      store.eq_of_id rowHeld held (rowId.symm.trans sameId)
    rwa [same] at written
  · intro written
    exact ⟨⟨_, held, written⟩, TagTrigger.eventId_of_mem_tagRows written⟩

/-- The index answers for a tag filter as the tags of the event do. -/
theorem indexed_iff_hasTag
    {name : String}
    {required : List String}
    (held : EventRow.ofEvent event now ∈ store.events)
    (notProbe : name ≠ "probe")
    (nonempty : "" ∉ required) :
    (∃ entry ∈ store.tags, entry.eventId = event.id ∧
        entry.name = name ∧ entry.value ∈ required) ↔
      hasTag event name required := by
  have isIndexed : trigger.indexes name := by
    cases trigger <;> simp [TagTrigger.indexes, notProbe]
  unfold hasTag
  rw [List.any_eq_true]
  constructor
  · rintro ⟨entry, member, sameId, rfl, wanted⟩
    obtain ⟨name, values, tagged, -, rfl⟩ :=
      TagTrigger.mem_tagRows.mp ((indexed_of_held held entry).mp ⟨member, sameId⟩)
    refine ⟨name :: values, tagged, ?_⟩
    cases values with
    | nil => exact absurd wanted nonempty
    | cons value values => simpa using wanted
  · rintro ⟨tag, tagged, named⟩
    rw [Bool.and_eq_true, beq_iff_eq] at named
    obtain ⟨first, wanted⟩ := named
    match tag, first, wanted with
    | first :: value :: values, sameName, wanted =>
        have sameName : first = name := by simpa using sameName
        have written : (⟨event.id, name, value⟩ : TagRow) ∈
            trigger.tagRows (EventRow.ofEvent event now) :=
          TagTrigger.mem_tagRows.mpr
            ⟨name, value :: values, sameName ▸ tagged, isIndexed, rfl⟩
        obtain ⟨member, sameId⟩ := (indexed_of_held held _).mpr written
        exact ⟨_, member, sameId, rfl, by simpa using wanted⟩

/-- An unnamed entry adds what it says of the event. -/
theorem means_addEntry
    {builder : Builder}
    {meaning : Prop}
    (held : EventRow.ofEvent event now ∈ store.events)
    (means : builder.Means store.tags (EventRow.ofEvent event now) meaning)
    (entry : String × JsonValue) :
    (builder.addEntry entry).Means store.tags (EventRow.ofEvent event now)
      (meaning ∧ entryMatches event entry) := by
  unfold Builder.addEntry entryMatches
  cases planned : tagFilterPlan entry.1 entry.2 with
  | ignore =>
      exact means.congr (by simp)
  | matchNothing =>
      exact means.never.congr (by simp)
  | values name required =>
      obtain ⟨notProbe, nonempty⟩ := values_of_tagFilterPlan planned
      exact (means.addTag name required).congr
        (and_congr_right fun _ => indexed_iff_hasTag held notProbe nonempty)

theorem means_addEntries
    {builder : Builder}
    {meaning : Prop}
    (held : EventRow.ofEvent event now ∈ store.events)
    (means : builder.Means store.tags (EventRow.ofEvent event now) meaning)
    (entries : List (String × JsonValue)) :
    (entries.foldl Builder.addEntry builder).Means store.tags (EventRow.ofEvent event now)
      (meaning ∧ entries.all (entryMatches event)) := by
  induction entries generalizing builder meaning with
  | nil =>
      exact means.congr (by simp)
  | cons entry entries inductionHypothesis =>
      have later := inductionHypothesis (means_addEntry held means entry)
      exact later.congr (by simp [and_assoc])

end Saved

/-! ## The search term -/

/-- The pattern of a term is the escaped term between many-signs. -/
theorem toList_likePattern (term : String) :
    (likePattern term).toList = '%' :: (likeSigns.escaped term.toList ++ ['%']) := by
  have escaped : replaceChar '_' ['\\', '_'] (replaceChar '%' ['\\', '%']
      (replaceChar '\\' ['\\', '\\'] term.toList)) = likeSigns.escaped term.toList := by
    unfold replaceChar Lib.LikeSigns.escaped
    rw [List.flatMap_assoc, List.flatMap_assoc]
    apply List.flatMap_congr
    intro char _
    by_cases isEscape : char = '\\'
    · simp [isEscape, Lib.LikeSigns.special, likeSigns]
    · by_cases isMany : char = '%'
      · simp [isMany, Lib.LikeSigns.special, likeSigns]
      · by_cases isSingle : char = '_' <;>
          simp [isEscape, isMany, isSingle, Lib.LikeSigns.special, likeSigns]
  rw [likePattern, escaped, String.toList_ofList]

/-- SQL finds a term in a content exactly when the live matcher does. -/
theorem like_likePattern
    (term content : String) :
    (SqlValue.text (likePattern term)).like content = contentMatchesSearch content term := by
  rw [Bool.eq_iff_iff, contentMatchesSearch, containsText_iff]
  unfold SqlValue.like SqlValue.asText asciiLower
  rw [toList_likePattern]
  exact likeSigns.like_contains (by decide) term.toList content.toList

/-! ## The query -/

/-- A query selects the held rows that its builder selects, driven or not. -/
theorem mem_selectedRows
    {trigger : TagTrigger}
    {store : Store trigger}
    {filter : NostrFilter}
    {limit : Nat}
    {row : EventRow}
    (held : row ∈ store.events) :
    row ∈ selectedRows store filter limit ↔
      let builder := buildFilterConditions filter Builder.start
      builder.Selects (builder.params ++ [.number limit]) store.tags row := by
  unfold selectedRows Builder.Selects Builder.rowsWhere
  dsimp only
  cases (buildFilterConditions filter Builder.start).tagDriver with
  | none =>
      simp [held]
  | some driver =>
      simp only [TagDriver.eventIds, List.mem_flatMap, List.mem_dedup, List.mem_map,
        List.mem_filter, held, true_and, beq_iff_eq, List.all_eq_true, Option.some.injEq,
        forall_eq']
      constructor
      · rintro ⟨_, ⟨entry, ⟨member, selected⟩, rfl⟩, allHold, sameId⟩
        exact ⟨⟨entry, member, sameId.symm, selected⟩, allHold⟩
      · rintro ⟨⟨entry, member, sameId, selected⟩, allHold⟩
        exact ⟨_, ⟨entry, ⟨member, selected⟩, rfl⟩, allHold, sameId.symm⟩

/-- The numbers of an event are exact as doubles. -/
def NostrEvent.Exact (event : NostrEvent) : Prop :=
  event.createdAt < 2 ^ 53 ∧ event.kind < 2 ^ 53

/-- The numbers of a filter are exact as doubles. -/
structure NostrFilter.Exact (filter : NostrFilter) : Prop where
  kinds : ∀ kinds, filter.kinds = some kinds → ∀ kind ∈ kinds, kind < 2 ^ 53
  since : ∀ since, filter.since = some since → since < 2 ^ 53
  «until» : ∀ last, filter.until = some last → last < 2 ^ 53

/-- A list of texts is asked for as it is compared in memory. -/
theorem contains_texts
    (given : Option (List String))
    (text : String) :
    (given.map (List.map SqlValue.text)).all (fun values => values.contains (.text text)) =
      given.all fun texts => texts.contains text := by
  cases given with
  | none =>
      rfl
  | some texts =>
      rw [Option.map_some, Option.all_some, Option.all_some, Bool.eq_iff_iff,
        List.contains_iff_mem, List.contains_iff_mem,
        List.mem_map_of_injective fun _ _ => SqlValue.text.inj]

/-- The same of kinds, when no number changes as a double. -/
theorem contains_kinds
    {given : Option (List Nat)}
    {kind : Nat}
    (exact : kind < 2 ^ 53)
    (allExact : ∀ kinds, given = some kinds → ∀ kind ∈ kinds, kind < 2 ^ 53) :
    (given.map (List.map fun kind => SqlValue.number (asF64 kind))).all
        (fun values => values.contains (.number (asF64 kind))) =
      given.all fun kinds => kinds.contains kind := by
  cases given with
  | none =>
      rfl
  | some kinds =>
      have bound : kinds.map (fun kind => SqlValue.number (asF64 kind)) =
          kinds.map SqlValue.number := by
        apply List.map_congr_left
        intro other listed
        rw [asF64_of_lt (allExact kinds rfl other listed)]
      rw [Option.map_some, Option.all_some, Option.all_some, bound, asF64_of_lt exact,
        Bool.eq_iff_iff, List.contains_iff_mem, List.contains_iff_mem,
        List.mem_map_of_injective fun _ _ => SqlValue.number.inj]

/-- A lower bound on the time, and an upper one. -/
theorem atMost_since
    {given : Option Nat}
    {time : Nat}
    (exact : time < 2 ^ 53)
    (allExact : ∀ since, given = some since → since < 2 ^ 53) :
    (given.map fun since => SqlValue.number (asF64 since)).all
        (fun bound => bound.atMost (.number (asF64 time))) =
      given.all fun since => decide (since ≤ time) := by
  cases given with
  | none =>
      rfl
  | some since =>
      simp [SqlValue.atMost, asF64_of_lt exact, asF64_of_lt (allExact since rfl)]

theorem atMost_until
    {given : Option Nat}
    {time : Nat}
    (exact : time < 2 ^ 53)
    (allExact : ∀ last, given = some last → last < 2 ^ 53) :
    (given.map fun last => SqlValue.number (asF64 last)).all
        (fun bound => (SqlValue.number (asF64 time)).atMost bound) =
      given.all fun last => decide (time ≤ last) := by
  cases given with
  | none =>
      rfl
  | some last =>
      simp [SqlValue.atMost, asF64_of_lt exact, asF64_of_lt (allExact last rfl)]

theorem like_search
    (given : Option String)
    (content : String) :
    (given.map fun term => SqlValue.text (likePattern term)).all
        (fun pattern => pattern.like content) =
      given.all fun term => contentMatchesSearch content term := by
  cases given with
  | none =>
      rfl
  | some term =>
      rw [Option.map_some, Option.all_some, Option.all_some, like_likePattern]

/-- The conditions of a filter say of a held event what the live matcher
checks. -/
theorem means_buildFilterConditions
    {trigger : TagTrigger}
    {store : Store trigger}
    {event : NostrEvent}
    {now : Nat}
    {filter : NostrFilter}
    (held : EventRow.ofEvent event now ∈ store.events)
    (eventExact : event.Exact)
    (filterExact : filter.Exact) :
    (buildFilterConditions filter Builder.start).Means store.tags
      (EventRow.ofEvent event now) (eventMatches event filter) := by
  have started : Builder.start.Means store.tags (EventRow.ofEvent event now) True :=
    Builder.means_start
  have listed := ((started.addAmong .id (filter.ids.map (List.map .text))).addAmong
    .pubkey (filter.authors.map (List.map .text))).addAmong
    .kind (filter.kinds.map (List.map fun kind => .number (asF64 kind)))
  have since := listed.addBound .createdFrom
    (filter.since.map fun since => .number (asF64 since)) fun _ _ => rfl
  have bounded := since.addBound .createdUntil
    (filter.until.map fun last => .number (asF64 last)) fun _ _ => rfl
  have tagged := means_addEntries held bounded filter.extra.entries
  have searched := tagged.addBound .contentLike
    ((searchTerm filter).map fun term => .text (likePattern term)) fun _ _ => rfl
  apply searched.congr
  have idsSame := contains_texts filter.ids event.id
  have authorsSame := contains_texts filter.authors event.pubkey
  have kindsSame := contains_kinds eventExact.2 filterExact.kinds
  have sinceSame := atMost_since eventExact.1 filterExact.since
  have untilSame := atMost_until eventExact.1 filterExact.until
  have searchSame := like_search (searchTerm filter) event.content
  unfold eventMatches
  rw [← idsSame, ← authorsSame, ← kindsSame, ← sinceSame, ← untilSame, ← searchSame]
  simp only [Bool.and_eq_true, true_and, and_assoc]
  exact and_congr_right fun _ => and_congr_right fun _ => and_congr_right fun _ =>
    and_congr_right fun _ => and_congr_right fun _ => and_comm

/-- A note with a topic and a probe, and a filter that searches its topic for a
term with a sign of the pattern language. -/
def taggedNote : NostrEvent where
  id := "note"
  pubkey := "author"
  createdAt := 10
  kind := 1
  tags := [["t", "rust"], ["probe", "x"]]
  content := "Hello 100% World"
  sig := ""

def topicFilter : NostrFilter where
  ids := none
  authors := none
  kinds := some [1]
  since := some 10
  «until» := none
  search := some "100% w"
  extra := Extra.empty.insert "#t" (.array [.string "go", .string "rust"])

end Relay
end NostrBbs
