import NostrBbs.Relay.Sanctions

/-!
# The block that rows come to

A single pass keeps the newest time of each action and the mute that ends last.  What it
comes to is the last end of the sanctions that count: a ban or a mute counts while some
row of its action is not lifted.
-/

namespace NostrBbs
namespace Relay

/-! ## What the rows come to -/

/-- The times of the rows of an action. -/
def actionTimes (action : ModerationAction) (rows : List ActionRow) : Set Nat :=
  {time | ∃ row ∈ rows, row.action = action ∧ row.createdAt = time}

/-- The ends of the mutes that have not expired. -/
def muteEnds (now : Nat) (rows : List ActionRow) : Set Int :=
  {last | (now : Int) < last ∧ ∃ row ∈ rows, row.action = .mute ∧ row.expiresAt = some last}

/-- What a summary is of the rows. -/
structure ActionSummary.Summarizes (summary : ActionSummary) (now : Nat)
    (rows : List ActionRow) : Prop where
  lastBan : Lib.GreatestOf (actionTimes .ban rows) summary.lastBan
  lastUnban : Lib.GreatestOf (actionTimes .unban rows) summary.lastUnban
  lastMute : Lib.GreatestOf (actionTimes .mute rows) summary.lastMute
  lastUnmute : Lib.GreatestOf (actionTimes .unmute rows) summary.lastUnmute
  mutePerm : summary.mutePerm ↔ ∃ row ∈ rows, row.action = .mute ∧ row.expiresAt = none
  muteBestUntil : Lib.GreatestOf (muteEnds now rows) summary.muteBestUntil

section Summaries

variable {now : Nat} {rows : List ActionRow} {summary : ActionSummary}

theorem actionTimes_append
    (action : ModerationAction)
    (rows : List ActionRow)
    (row : ActionRow) :
    actionTimes action (rows ++ [row]) =
      if row.action = action then insert row.createdAt (actionTimes action rows)
      else actionTimes action rows := by
  ext time
  split
  · rename_i same
    simp only [actionTimes, List.mem_append, List.mem_singleton, Set.mem_ofPred_eq, Set.mem_insert_iff]
    constructor
    · rintro ⟨other, isOld | rfl, isAction, rfl⟩
      · exact .inr ⟨other, isOld, isAction, rfl⟩
      · exact .inl rfl
    · rintro (rfl | ⟨other, isOld, isAction, rfl⟩)
      · exact ⟨row, .inr rfl, same, rfl⟩
      · exact ⟨other, .inl isOld, isAction, rfl⟩
  · rename_i different
    simp only [actionTimes, List.mem_append, List.mem_singleton, Set.mem_ofPred_eq]
    constructor
    · rintro ⟨other, isOld | rfl, isAction, rfl⟩
      · exact ⟨other, isOld, isAction, rfl⟩
      · exact absurd isAction different
    · rintro ⟨other, isOld, isAction, rfl⟩
      exact ⟨other, .inl isOld, isAction, rfl⟩

theorem muteEnds_append
    (now : Nat)
    (rows : List ActionRow)
    (row : ActionRow) :
    muteEnds now (rows ++ [row]) =
      muteEnds now rows ∪ {last | (now : Int) < last ∧ row.action = .mute ∧ row.expiresAt = some last} := by
  ext last
  simp only [muteEnds, List.mem_append, List.mem_singleton, Set.mem_ofPred_eq, Set.mem_union]
  constructor
  · rintro ⟨isLater, other, isOld | rfl, isMute, ends⟩
    · exact .inl ⟨isLater, other, isOld, isMute, ends⟩
    · exact .inr ⟨isLater, isMute, ends⟩
  · rintro (⟨isLater, other, isOld, isMute, ends⟩ | ⟨isLater, isMute, ends⟩)
    · exact ⟨isLater, other, .inl isOld, isMute, ends⟩
    · exact ⟨isLater, row, .inr rfl, isMute, ends⟩

theorem muteEnds_append_of_not
    {row : ActionRow}
    (notLater : ∀ last, row.action = .mute → row.expiresAt = some last → ¬(now : Int) < last) :
    muteEnds now (rows ++ [row]) = muteEnds now rows := by
  rw [muteEnds_append, Set.union_eq_left]
  rintro last ⟨isLater, isMute, ends⟩
  exact absurd isLater (notLater last isMute ends)

theorem summarizes_empty :
    ActionSummary.empty.Summarizes now [] := by
  constructor
  case mutePerm => simp [ActionSummary.empty]
  all_goals
    simp [ActionSummary.empty, Lib.GreatestOf, actionTimes, muteEnds]

/-- The next row, put among those that were summarized. -/
theorem ActionSummary.Summarizes.add
    (summarizes : summary.Summarizes now rows)
    (row : ActionRow) :
    (summary.add now row).Summarizes now (rows ++ [row]) := by
  unfold ActionSummary.add
  cases isAction : row.action with
  | ban =>
      constructor <;> simp only [actionTimes_append, isAction, reduceCtorEq, if_true, if_false]
      case lastBan => exact summarizes.lastBan.insert _
      case lastUnban => exact summarizes.lastUnban
      case lastMute => exact summarizes.lastMute
      case lastUnmute => exact summarizes.lastUnmute
      case mutePerm => simp [summarizes.mutePerm, isAction]
      case muteBestUntil =>
        rw [muteEnds_append_of_not (by simp [isAction])]
        exact summarizes.muteBestUntil
  | unban =>
      constructor <;> simp only [actionTimes_append, isAction, reduceCtorEq, if_true, if_false]
      case lastBan => exact summarizes.lastBan
      case lastUnban => exact summarizes.lastUnban.insert _
      case lastMute => exact summarizes.lastMute
      case lastUnmute => exact summarizes.lastUnmute
      case mutePerm => simp [summarizes.mutePerm, isAction]
      case muteBestUntil =>
        rw [muteEnds_append_of_not (by simp [isAction])]
        exact summarizes.muteBestUntil
  | unmute =>
      constructor <;> simp only [actionTimes_append, isAction, reduceCtorEq, if_true, if_false]
      case lastBan => exact summarizes.lastBan
      case lastUnban => exact summarizes.lastUnban
      case lastMute => exact summarizes.lastMute
      case lastUnmute => exact summarizes.lastUnmute.insert _
      case mutePerm => simp [summarizes.mutePerm, isAction]
      case muteBestUntil =>
        rw [muteEnds_append_of_not (by simp [isAction])]
        exact summarizes.muteBestUntil
  | mute =>
      dsimp only
      cases ends : row.expiresAt with
      | none =>
          constructor <;> simp only [actionTimes_append, isAction, reduceCtorEq, if_true, if_false]
          case lastBan => exact summarizes.lastBan
          case lastUnban => exact summarizes.lastUnban
          case lastMute => exact summarizes.lastMute.insert _
          case lastUnmute => exact summarizes.lastUnmute
          case mutePerm => exact iff_of_true trivial ⟨row, by simp, isAction, ends⟩
          case muteBestUntil =>
            rw [muteEnds_append_of_not (by simp [ends])]
            exact summarizes.muteBestUntil
      | some last =>
          dsimp only
          split
          · rename_i isLater
            constructor <;> simp only [actionTimes_append, isAction, reduceCtorEq, if_true, if_false]
            case lastBan => exact summarizes.lastBan
            case lastUnban => exact summarizes.lastUnban
            case lastMute => exact summarizes.lastMute.insert _
            case lastUnmute => exact summarizes.lastUnmute
            case mutePerm => simp [summarizes.mutePerm, ends]
            case muteBestUntil =>
              have single : {other | (now : Int) < other ∧ row.action = .mute ∧
                  row.expiresAt = some other} = {last} := by
                ext other
                simp only [isAction, ends, Option.some.injEq, true_and, Set.mem_ofPred_eq,
                  Set.mem_singleton_iff]
                exact ⟨fun isEnd => isEnd.2.symm, fun isEnd => ⟨isEnd ▸ isLater, isEnd.symm⟩⟩
              rw [muteEnds_append, single, Set.union_singleton]
              exact summarizes.muteBestUntil.insert _
          · rename_i notLater
            constructor <;> simp only [actionTimes_append, isAction, reduceCtorEq, if_true, if_false]
            case lastBan => exact summarizes.lastBan
            case lastUnban => exact summarizes.lastUnban
            case lastMute => exact summarizes.lastMute.insert _
            case lastUnmute => exact summarizes.lastUnmute
            case mutePerm => simp [summarizes.mutePerm, ends]
            case muteBestUntil =>
              rw [muteEnds_append_of_not (by
                intro other _ isEnd
                rw [← Option.some.inj (ends.symm.trans isEnd)]
                exact notLater)]
              exact summarizes.muteBestUntil

theorem summarizes_ofRows
    (now : Nat)
    (rows : List ActionRow) :
    (ActionSummary.ofRows now rows).Summarizes now rows := by
  induction rows using List.reverseRecOn with
  | nil => exact summarizes_empty
  | append_singleton rows row inductionHypothesis =>
      unfold ActionSummary.ofRows at inductionHypothesis ⊢
      rw [List.foldl_append]
      exact inductionHypothesis.add row

end Summaries

/-! ## Sanctions that count -/

/-- The end of a sanction. -/
def ActionRow.lastsUntil (row : ActionRow) : WithTop Int :=
  if row.action = .mute then row.expiresAt.elim ⊤ fun last => (last : WithTop Int) else ⊤

/-- A sanction counts while some row of its action is not lifted. -/
def CountsIn (rows : List ActionRow) (now : Nat) (row : ActionRow) : Prop :=
  row ∈ rows ∧ row.Sanctions now ∧
    ∃ other ∈ rows, other.action = row.action ∧ ∀ lift ∈ rows, ¬lift.Lifts other

/-- A sanction stands while it is not lifted itself. -/
def StandsIn (rows : List ActionRow) (now : Nat) (row : ActionRow) : Prop :=
  row ∈ rows ∧ row.Sanctions now ∧ ∀ lift ∈ rows, ¬lift.Lifts row

/-- The ends of the sanctions that count. -/
def countedEnds (rows : List ActionRow) (now : Nat) : Set (WithTop Int) :=
  {last | ∃ row, CountsIn rows now row ∧ row.lastsUntil = last}

/-- The ends of the sanctions that stand. -/
def standingEnds (rows : List ActionRow) (now : Nat) : Set (WithTop Int) :=
  {last | ∃ row, StandsIn rows now row ∧ row.lastsUntil = last}

/-- The block of the last end. -/
def blockOfEnd : Option (WithTop Int) → Block
  | none => .none
  | some ⊤ => .banned
  | some (last : Int) => .mutedUntil last

theorem blockOfEnd_injective :
    Function.Injective blockOfEnd := by
  intro first second same
  rcases first with _ | _ | first <;> rcases second with _ | _ | second <;>
    simp_all [blockOfEnd]

section Ends

variable {now : Nat} {rows : List ActionRow} {row : ActionRow}

theorem lastsUntil_of_ban
    (isBan : row.action = .ban) :
    row.lastsUntil = ⊤ := by
  simp [ActionRow.lastsUntil, isBan]

theorem lastsUntil_of_mute
    (isMute : row.action = .mute) :
    row.lastsUntil = row.expiresAt.elim ⊤ fun last => (last : WithTop Int) := by
  simp [ActionRow.lastsUntil, isMute]

theorem lifts_ban_iff
    {lift : ActionRow}
    (isBan : row.action = .ban) :
    lift.Lifts row ↔ lift.action = .unban ∧ row.createdAt ≤ lift.createdAt := by
  simp [ActionRow.Lifts, isBan]

theorem lifts_mute_iff
    {lift : ActionRow}
    (isMute : row.action = .mute) :
    lift.Lifts row ↔ lift.action = .unmute ∧ row.createdAt ≤ lift.createdAt := by
  simp [ActionRow.Lifts, isMute]

/-- A ban is active when one is not lifted. -/
theorem banActive_iff :
    (ActionSummary.ofRows now rows).banActive ↔
      ∃ ban ∈ rows, ban.action = .ban ∧ ∀ lift ∈ rows, ¬lift.Lifts ban := by
  have summarizes := summarizes_ofRows now rows
  have exceeds := summarizes.lastBan.exceeds_iff summarizes.lastUnban
  have asTimes : (∃ ban ∈ rows, ban.action = .ban ∧ ∀ lift ∈ rows, ¬lift.Lifts ban) ↔
      ∃ time ∈ actionTimes .ban rows, ∀ rival ∈ actionTimes .unban rows, rival < time := by
    constructor
    · rintro ⟨ban, held, isBan, notLifted⟩
      refine ⟨ban.createdAt, ⟨ban, held, isBan, rfl⟩, ?_⟩
      rintro _ ⟨lift, liftHeld, isUnban, rfl⟩
      have unlifted := notLifted lift liftHeld
      rw [lifts_ban_iff isBan] at unlifted
      exact Nat.lt_of_not_le fun later => unlifted ⟨isUnban, later⟩
    · rintro ⟨_, ⟨ban, held, isBan, rfl⟩, newer⟩
      refine ⟨ban, held, isBan, ?_⟩
      intro lift liftHeld lifts
      obtain ⟨isUnban, later⟩ := (lifts_ban_iff isBan).mp lifts
      exact Nat.not_lt_of_le later (newer _ ⟨lift, liftHeld, isUnban, rfl⟩)
  rw [asTimes, exceeds]
  unfold ActionSummary.banActive
  cases (ActionSummary.ofRows now rows).lastBan <;>
    cases (ActionSummary.ofRows now rows).lastUnban <;> simp

/-- Mutes are cancelled when there are some and all of them are lifted. -/
theorem muteCancelled_iff :
    (ActionSummary.ofRows now rows).muteCancelled ↔
      (∃ mute ∈ rows, mute.action = .mute) ∧
        ¬∃ mute ∈ rows, mute.action = .mute ∧ ∀ lift ∈ rows, ¬lift.Lifts mute := by
  have summarizes := summarizes_ofRows now rows
  have exceeds := summarizes.lastMute.exceeds_iff summarizes.lastUnmute
  have asTimes : (∃ mute ∈ rows, mute.action = .mute ∧ ∀ lift ∈ rows, ¬lift.Lifts mute) ↔
      ∃ time ∈ actionTimes .mute rows, ∀ rival ∈ actionTimes .unmute rows, rival < time := by
    constructor
    · rintro ⟨mute, held, isMute, notLifted⟩
      refine ⟨mute.createdAt, ⟨mute, held, isMute, rfl⟩, ?_⟩
      rintro _ ⟨lift, liftHeld, isUnmute, rfl⟩
      have unlifted := notLifted lift liftHeld
      rw [lifts_mute_iff isMute] at unlifted
      exact Nat.lt_of_not_le fun later => unlifted ⟨isUnmute, later⟩
    · rintro ⟨_, ⟨mute, held, isMute, rfl⟩, newer⟩
      refine ⟨mute, held, isMute, ?_⟩
      intro lift liftHeld lifts
      obtain ⟨isUnmute, later⟩ := (lifts_mute_iff isMute).mp lifts
      exact Nat.not_lt_of_le later (newer _ ⟨lift, liftHeld, isUnmute, rfl⟩)
  have someMute : (∃ mute ∈ rows, mute.action = .mute) ↔
      (ActionSummary.ofRows now rows).lastMute.isSome := by
    rw [summarizes.lastMute.isSome_iff]
    exact ⟨fun ⟨mute, held, isMute⟩ => ⟨mute.createdAt, mute, held, isMute, rfl⟩,
      fun ⟨_, mute, held, isMute, _⟩ => ⟨mute, held, isMute⟩⟩
  rw [someMute, asTimes, exceeds]
  unfold ActionSummary.muteCancelled
  cases (ActionSummary.ofRows now rows).lastMute <;>
    cases (ActionSummary.ofRows now rows).lastUnmute <;> simp

/-- The rows of a key come to the last end of the sanctions that count. -/
theorem resolveBlock_eq
    (rows : List ActionRow)
    (now : Nat) :
    ∃ last, Lib.GreatestOf (countedEnds rows now) last ∧
      resolveBlock rows now = blockOfEnd last := by
  have summarizes := summarizes_ofRows now rows
  unfold resolveBlock
  dsimp only
  by_cases banStands : ∃ ban ∈ rows, ban.action = .ban ∧ ∀ lift ∈ rows, ¬lift.Lifts ban
  · rw [if_pos (banActive_iff.mpr banStands)]
    obtain ⟨ban, held, isBan, notLifted⟩ := banStands
    exact ⟨some ⊤, ⟨⟨ban, ⟨held, .inl isBan, ban, held, rfl, notLifted⟩,
      lastsUntil_of_ban isBan⟩, fun _ _ => le_top⟩, rfl⟩
  · rw [if_neg (fun active => banStands (banActive_iff.mp active))]
    -- only mutes count now
    have onlyMutes : ∀ row, CountsIn rows now row → row.action = .mute ∧
        ∃ mute ∈ rows, mute.action = .mute ∧ ∀ lift ∈ rows, ¬lift.Lifts mute := by
      rintro row ⟨held, isBan | ⟨isMute, -⟩, other, otherHeld, sameAction, notLifted⟩
      · exact absurd ⟨other, otherHeld, sameAction.trans isBan, notLifted⟩ banStands
      · exact ⟨isMute, other, otherHeld, sameAction.trans isMute, notLifted⟩
    by_cases muteStands : ∃ mute ∈ rows, mute.action = .mute ∧ ∀ lift ∈ rows, ¬lift.Lifts mute
    · rw [if_neg (fun cancelled => (muteCancelled_iff.mp cancelled).2 muteStands)]
      obtain ⟨standing, standingHeld, standingMute, notLifted⟩ := muteStands
      split
      · rename_i isPermanent
        obtain ⟨mute, held, isMute, neverEnds⟩ := summarizes.mutePerm.mp isPermanent
        refine ⟨some ⊤, ⟨⟨mute, ⟨held, .inr ⟨isMute, by simp [neverEnds]⟩, standing, standingHeld,
          standingMute.trans isMute.symm, notLifted⟩, ?_⟩, fun _ _ => le_top⟩, rfl⟩
        rw [lastsUntil_of_mute isMute, neverEnds]
        rfl
      · rename_i notPermanent
        have ends : countedEnds rows now = (fun last : Int => (last : WithTop Int)) '' muteEnds now rows := by
          ext last
          constructor
          · rintro ⟨row, counts, rfl⟩
            obtain ⟨isMute, -⟩ := onlyMutes row counts
            obtain ⟨held, sanctions, -⟩ := counts
            cases isEnd : row.expiresAt with
            | none => exact absurd (summarizes.mutePerm.mpr ⟨row, held, isMute, isEnd⟩) notPermanent
            | some last =>
                have isLater : (now : Int) < last := by
                  rcases sanctions with isBan | ⟨-, later⟩
                  · rw [isMute] at isBan
                    cases isBan
                  · exact later last isEnd
                refine ⟨last, ⟨isLater, row, held, isMute, isEnd⟩, ?_⟩
                rw [lastsUntil_of_mute isMute, isEnd]
                rfl
          · rintro ⟨last, ⟨isLater, row, held, isMute, isEnd⟩, rfl⟩
            refine ⟨row, ⟨held, .inr ⟨isMute, ?_⟩, standing, standingHeld,
              standingMute.trans isMute.symm, notLifted⟩, ?_⟩
            · intro other isOther
              rw [isEnd, Option.mem_some_iff] at isOther
              exact isOther ▸ isLater
            · rw [lastsUntil_of_mute isMute, isEnd]
              rfl
        refine ⟨(ActionSummary.ofRows now rows).muteBestUntil.map
          fun last : Int => (last : WithTop Int),
          ?_, ?_⟩
        · rw [ends]
          exact summarizes.muteBestUntil.image WithTop.coe_mono
        · cases (ActionSummary.ofRows now rows).muteBestUntil <;> rfl
    · refine ⟨none, ?_, ?_⟩
      · apply Set.eq_empty_of_forall_notMem
        rintro _ ⟨row, counts, -⟩
        exact muteStands (onlyMutes row counts).2
      · by_cases someMute : ∃ mute ∈ rows, mute.action = .mute
        · rw [if_pos (muteCancelled_iff.mpr ⟨someMute, muteStands⟩)]
          rfl
        · have notPermanent : (ActionSummary.ofRows now rows).mutePerm = false := by
            rw [Bool.eq_false_iff]
            intro isPermanent
            obtain ⟨mute, held, isMute, -⟩ := summarizes.mutePerm.mp isPermanent
            exact someMute ⟨mute, held, isMute⟩
          have noEnd : (ActionSummary.ofRows now rows).muteBestUntil = none := by
            rw [← Option.not_isSome_iff_eq_none, summarizes.muteBestUntil.isSome_iff]
            rintro ⟨last, -, mute, held, isMute, -⟩
            exact someMute ⟨mute, held, isMute⟩
          split
          · rfl
          · rw [if_neg (by simp [notPermanent]), noEnd]
            rfl

theorem newestIsBan_iff :
    newestIsBan rows ↔ ∃ ban ∈ rows, ban.action = .ban ∧ ∀ lift ∈ rows, ¬lift.Lifts ban := by
  simp only [newestIsBan, List.any_eq_true, Bool.and_eq_true, beq_iff_eq, List.all_eq_true,
    Bool.or_eq_true, bne_iff_ne, decide_eq_true_eq]
  apply exists_congr
  intro ban
  refine and_congr_right fun _ => and_congr_right fun isBan => forall_congr' fun lift =>
    forall_congr' fun _ => ?_
  rw [lifts_ban_iff isBan, not_and, Nat.not_le, imp_iff_not_or]

theorem mem_standingMutes :
    row ∈ standingMutes rows ↔
      row ∈ rows ∧ row.action = .mute ∧ ∀ lift ∈ rows, ¬lift.Lifts row := by
  simp only [standingMutes, List.mem_filter, Bool.and_eq_true, beq_iff_eq, List.all_eq_true,
    Bool.or_eq_true, bne_iff_ne, decide_eq_true_eq]
  refine and_congr_right fun _ => and_congr_right fun isMute => forall_congr' fun lift =>
    forall_congr' fun _ => ?_
  rw [lifts_mute_iff isMute, not_and, Nat.not_le, imp_iff_not_or]

/-- By the rule, the rows come to the last end of the sanctions that stand. -/
theorem referenceBlock_eq
    (rows : List ActionRow)
    (now : Nat) :
    ∃ last, Lib.GreatestOf (standingEnds rows now) last ∧
      referenceBlock rows now = blockOfEnd last := by
  unfold referenceBlock
  by_cases banStands : newestIsBan rows
  · rw [if_pos banStands]
    obtain ⟨ban, held, isBan, notLifted⟩ := newestIsBan_iff.mp banStands
    exact ⟨some ⊤, ⟨⟨ban, ⟨held, .inl isBan, notLifted⟩, lastsUntil_of_ban isBan⟩,
      fun _ _ => le_top⟩, rfl⟩
  · rw [if_neg banStands]
    dsimp only
    have onlyMutes : ∀ row, StandsIn rows now row → row ∈ standingMutes rows := by
      rintro row ⟨held, isBan | ⟨isMute, -⟩, notLifted⟩
      · exact absurd (newestIsBan_iff.mpr ⟨row, held, isBan, notLifted⟩) banStands
      · exact mem_standingMutes.mpr ⟨held, isMute, notLifted⟩
    split
    · rename_i isPermanent
      obtain ⟨mute, isStanding, neverEnds⟩ := List.any_eq_true.mp isPermanent
      obtain ⟨held, isMute, notLifted⟩ := mem_standingMutes.mp isStanding
      rw [Option.isNone_iff_eq_none] at neverEnds
      refine ⟨some ⊤, ⟨⟨mute, ⟨held, .inr ⟨isMute, by simp [neverEnds]⟩, notLifted⟩, ?_⟩,
        fun _ _ => le_top⟩, rfl⟩
      rw [lastsUntil_of_mute isMute, neverEnds]
      rfl
    · rename_i notPermanent
      have isGreatest := Lib.greatestOf_max (((standingMutes rows).filterMap
        ActionRow.expiresAt).filter fun last => (now : Int) < last)
      have ends : standingEnds rows now = (fun last : Int => (last : WithTop Int)) ''
          {last | last ∈ ((standingMutes rows).filterMap ActionRow.expiresAt).filter
            fun last => (now : Int) < last} := by
        ext last
        simp only [List.mem_filter, List.mem_filterMap, decide_eq_true_eq, Set.mem_image,
          Set.mem_ofPred_eq]
        constructor
        · rintro ⟨row, stands, rfl⟩
          have isStanding := onlyMutes row stands
          have isMute := (mem_standingMutes.mp isStanding).2.1
          cases isEnd : row.expiresAt with
          | none =>
              exact absurd (List.any_eq_true.mpr ⟨row, isStanding, by simp [isEnd]⟩) notPermanent
          | some last =>
              have isLater : (now : Int) < last := by
                rcases stands.2.1 with isBan | ⟨-, later⟩
                · rw [isMute] at isBan
                  cases isBan
                · exact later last isEnd
              refine ⟨last, ⟨⟨row, isStanding, isEnd⟩, isLater⟩, ?_⟩
              rw [lastsUntil_of_mute isMute, isEnd]
              rfl
        · rintro ⟨last, ⟨⟨row, isStanding, isEnd⟩, isLater⟩, rfl⟩
          obtain ⟨held, isMute, notLifted⟩ := mem_standingMutes.mp isStanding
          refine ⟨row, ⟨held, .inr ⟨isMute, ?_⟩, notLifted⟩, ?_⟩
          · intro other isOther
            rw [isEnd, Option.mem_some_iff] at isOther
            exact isOther ▸ isLater
          · rw [lastsUntil_of_mute isMute, isEnd]
            rfl
      refine ⟨(((standingMutes rows).filterMap ActionRow.expiresAt).filter
        fun last => (now : Int) < last).max?.map fun last : Int => (last : WithTop Int), ?_, ?_⟩
      · rw [ends]
        exact isGreatest.image WithTop.coe_mono
      · cases (((standingMutes rows).filterMap ActionRow.expiresAt).filter
          fun last => (now : Int) < last).max? <;> rfl

theorem countsIn_of_standsIn
    (stands : StandsIn rows now row) :
    CountsIn rows now row :=
  ⟨stands.1, stands.2.1, row, stands.1, rfl, stands.2.2⟩

end Ends

/-! ## The rule and the code -/

/-- No lifted mute outlasts what stands: while some mute is not lifted, each that is lifted
ends no later than a sanction that is not. -/
def NoneOutlasts (rows : List ActionRow) (now : Nat) : Prop :=
  ∀ mute ∈ rows, mute.action = .mute → mute.Sanctions now → (∃ lift ∈ rows, lift.Lifts mute) →
    (∃ other ∈ rows, other.action = .mute ∧ ∀ lift ∈ rows, ¬lift.Lifts other) →
      ∃ other ∈ rows, other.Sanctions now ∧ (∀ lift ∈ rows, ¬lift.Lifts other) ∧
        mute.lastsUntil ≤ other.lastsUntil

/-- While no lifted mute outlasts what stands, what counts ends no later than what
stands. -/
theorem noneOutlasts_iff
    (rows : List ActionRow)
    (now : Nat) :
    NoneOutlasts rows now ↔ ∀ row, CountsIn rows now row →
      ∃ other, StandsIn rows now other ∧ row.lastsUntil ≤ other.lastsUntil := by
  constructor
  · rintro noneOutlasts row ⟨held, sanctions, other, otherHeld, sameAction, notLifted⟩
    by_cases lifted : ∃ lift ∈ rows, lift.Lifts row
    · rcases sanctions with isBan | ⟨isMute, unexpired⟩
      · have otherBan := sameAction.trans isBan
        refine ⟨other, ⟨otherHeld, .inl otherBan, notLifted⟩, ?_⟩
        rw [lastsUntil_of_ban otherBan]
        exact le_top
      · obtain ⟨standing, standingHeld, standingSanctions, standingNotLifted, outlasts⟩ :=
          noneOutlasts row held isMute (.inr ⟨isMute, unexpired⟩) lifted
            ⟨other, otherHeld, sameAction.trans isMute, notLifted⟩
        exact ⟨standing, ⟨standingHeld, standingSanctions, standingNotLifted⟩, outlasts⟩
    · exact ⟨row, ⟨held, sanctions, fun lift liftHeld lifts => lifted ⟨lift, liftHeld, lifts⟩⟩,
        le_refl _⟩
  · rintro outlasted mute held isMute sanctions - ⟨other, otherHeld, otherMute, notLifted⟩
    obtain ⟨standing, ⟨standingHeld, standingSanctions, standingNotLifted⟩, outlasts⟩ :=
      outlasted mute ⟨held, sanctions, other, otherHeld, otherMute.trans isMute.symm, notLifted⟩
    exact ⟨standing, standingHeld, standingSanctions, standingNotLifted, outlasts⟩

/-- The rows come to what the rule says exactly when no lifted mute outlasts what stands. -/
theorem resolves_by_rule_iff
    (rows : List ActionRow)
    (now : Nat) :
    resolveBlock rows now = referenceBlock rows now ↔ NoneOutlasts rows now := by
  obtain ⟨resolved, isResolved, resolvedEq⟩ := resolveBlock_eq rows now
  obtain ⟨reference, isReference, referenceEq⟩ := referenceBlock_eq rows now
  rw [resolvedEq, referenceEq, blockOfEnd_injective.eq_iff, isResolved.eq_iff isReference,
    noneOutlasts_iff]
  constructor
  · rintro ⟨reached, -⟩ row counts
    obtain ⟨_, ⟨other, stands, rfl⟩, outlasts⟩ := reached row.lastsUntil ⟨row, counts, rfl⟩
    exact ⟨other, stands, outlasts⟩
  · intro outlasted
    constructor
    · rintro _ ⟨row, counts, rfl⟩
      obtain ⟨other, stands, outlasts⟩ := outlasted row counts
      exact ⟨other.lastsUntil, ⟨other, stands, rfl⟩, outlasts⟩
    · rintro _ ⟨row, stands, rfl⟩
      exact ⟨row.lastsUntil, ⟨row, countsIn_of_standsIn stands, rfl⟩, le_refl _⟩

/-- A row of an action on a key. -/
def actionAt (number : Nat) (action : ModerationAction) (expiresAt : Option Int) : ActionRow where
  id := "mirror:" ++ toString number
  action := action
  targetPubkey := "member"
  performedBy := "admin"
  reason := none
  expiresAt := expiresAt
  eventId := toString number
  createdAt := number

/-- A permanent mute that was lifted comes back with a mute of an hour. -/
theorem lifted_mute_returns :
    resolveBlock [actionAt 10 .mute none, actionAt 20 .unmute none, actionAt 30 .mute (some 3630)]
        40 = .banned ∧
      referenceBlock
        [actionAt 10 .mute none, actionAt 20 .unmute none, actionAt 30 .mute (some 3630)] 40 =
        .mutedUntil 3630 := by
  decide +kernel

/-! ## The window -/

/-- The window keeps what blocks: each sanction that counts among all rows ends no later
than one that counts among the newest, and each that counts among the newest than one that
counts among all. -/
def WindowKeeps (order : ActionOrder) (rows : List ActionRow) (target : String) (now : Nat) :
    Prop :=
  (∀ row, CountsIn (actionsOn rows target) now row →
      ∃ other, CountsIn (newestActions order rows target) now other ∧
        row.lastsUntil ≤ other.lastsUntil) ∧
    ∀ row, CountsIn (newestActions order rows target) now row →
      ∃ other, CountsIn (actionsOn rows target) now other ∧ row.lastsUntil ≤ other.lastsUntil

/-- Newest first, as the rows come within a second. -/
def newestActionsFirst : ActionOrder where
  order := List.insertionSort fun first second => second.createdAt ≤ first.createdAt
  perm := List.perm_insertionSort _
  newestFirst rows := by
    have total : Std.Total fun first second : ActionRow => second.createdAt ≤ first.createdAt :=
      ⟨fun first second => Nat.le_total second.createdAt first.createdAt⟩
    have trans : IsTrans ActionRow fun first second => second.createdAt ≤ first.createdAt :=
      ⟨fun _ _ _ older oldest => oldest.trans older⟩
    exact List.pairwise_insertionSort _ rows

/-- A ban, and forty times that a mute was lifted. -/
def banBehindUnmutes : List ActionRow :=
  actionAt 0 .ban none :: (List.range 40).map fun number => actionAt (number + 1) .unmute none

end Relay
end NostrBbs
