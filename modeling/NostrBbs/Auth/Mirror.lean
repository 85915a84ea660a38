import NostrBbs.Auth.Usernames

/-!
# The mirror of usernames

Usernames against their entries in the key-value store.  At most one public key holds a
username, and each at most one.  The entry of a username that no request in progress is
about to write names exactly its holder, in the runs in which the last of the requests to
write an entry writes what then holds, and no reservation is taken away that nobody is
about to write.
-/

namespace NostrBbs
namespace Auth

open Lib.Program (call)
open Whitelist (ZoneMeta)

/-! ## What is claimed -/

/-- A public key actively holds a username. -/
def Holds (db : UsernameDb) (username pubkey : String) : Prop :=
  ∃ row ∈ db.reservations.table.rows, row.username = username ∧ row.pubkey = pubkey ∧
    row.isActive

instance (db : UsernameDb) (username pubkey : String) : Decidable (Holds db username pubkey) :=
  inferInstanceAs (Decidable (∃ row ∈ db.reservations.table.rows, row.username = username ∧
    row.pubkey = pubkey ∧ row.isActive))

/-- The entry of a username. -/
def entry (db : UsernameDb) (username : String) : Option String :=
  (db.podMeta.find? (nip05Key username)).map PodMetaEntry.value

/-- Every username has one holder at most, and so has every holder one username. -/
structure OneEach (db : UsernameDb) : Prop where
  holder : ∀ username first second, Holds db username first → Holds db username second →
    first = second
  username : ∀ pubkey first second, Holds db first pubkey → Holds db second pubkey →
    first = second

/-- The entry of a username names exactly its holder. -/
def NamesHolder (db : UsernameDb) (username : String) : Prop :=
  ∀ pubkey, entry db username = some pubkey ↔ Holds db username pubkey

/-- No request is in progress. -/
def Quiescent (pool : UsernamePool) : Prop :=
  ∀ task ∈ pool.tasks, task.rest.isDone

instance (pool : UsernamePool) : Decidable (Quiescent pool) :=
  inferInstanceAs (Decidable (∀ task ∈ pool.tasks, task.rest.isDone))

/-- The entry that a request is about to write, right away or after its deletion. -/
def dueOf : UsernameProgram UsernameReply → Option String
  | .perform (.putMeta key _) _ => some key
  | .perform (.deleteMeta key) _ => some key
  | .perform (.deleteReservation _) next => dueOf (next (.ok ()))
  | _ => none

/-- Some request is about to write the entry of a username. -/
def Due (pool : UsernamePool) (username : String) : Prop :=
  ∃ task ∈ pool.tasks, dueOf task.rest = some (nip05Key username)

/-- Some request other than the one of an index is about to write the entry. -/
def DueElsewhere (pool : UsernamePool) (index : Nat) (username : String) : Prop :=
  ∃ (other : Nat) (task : UsernameTask), other ≠ index ∧ pool.tasks[other]? = some task ∧
    dueOf task.rest = some (nip05Key username)

/-- The entries that no request is about to write name the holders. -/
def Mirrored (pool : UsernamePool) : Prop :=
  ∀ username, ¬Due pool username → NamesHolder pool.state username

/-! ## When it holds -/

/-- Whoever writes an entry last writes what holds, and takes no reservation away whose entry
nobody is about to write. -/
def statementKeepsMirror (pool : UsernamePool) (index : Nat) (choice : UsernameChoice) :
    UsernameOp → Prop
  | .putMeta key value =>
      ∀ username, nip05Key username = key → ¬DueElsewhere pool index username →
        (choice.failure = none → Holds pool.state username value) ∧
          (choice.failure ≠ none → NamesHolder pool.state username)
  | .deleteMeta key =>
      ∀ username, nip05Key username = key → ¬DueElsewhere pool index username →
        (choice.failure = none → ∀ pubkey, ¬Holds pool.state username pubkey) ∧
          (choice.failure ≠ none → NamesHolder pool.state username)
  | .deleteReservation pubkey =>
      choice.failure = none → ∀ username, Holds pool.state username pubkey → Due pool username
  | .dismissReservation pubkey =>
      choice.failure = none → ∀ username, Holds pool.state username pubkey → Due pool username
  | _ => True

def KeepsMirror (pool : UsernamePool) : UsernameMove → Prop
  | .start _ => True
  | .advance index choice =>
      ∀ task ∈ pool.tasks[index]?, ∀ op next, task.rest = .perform op next →
        statementKeepsMirror pool index choice op

/-! ## Holders -/

section Holders

variable {db : UsernameDb} {username pubkey : String}

theorem oneEach (db : UsernameDb) : OneEach db where
  holder := by
    rintro username first second ⟨row, held, isName, isKey, -⟩ ⟨other, otherHeld, otherName,
      otherKey, -⟩
    have same : row = other :=
      db.reservations.table.eq_of_key held otherHeld (isName.trans otherName.symm)
    rw [← isKey, ← otherKey, same]
  username := by
    rintro pubkey first second ⟨row, held, isName, isKey, -⟩ ⟨other, otherHeld, otherName,
      otherKey, -⟩
    have same : row = other := List.inj_on_of_nodup_map db.reservations.distinctPubkeys held
      otherHeld (isKey.trans otherKey.symm)
    rw [← isName, ← otherName, same]

theorem holds_insert
    {row : ReservationRow}
    {reservations : Reservations}
    (inserted : db.reservations.insert row = some reservations)
    (other : username ≠ row.username) :
    Holds { db with reservations := reservations } username pubkey ↔ Holds db username pubkey := by
  have rows : reservations.table.rows = row :: db.reservations.table.rows := by
    unfold Reservations.insert at inserted
    split at inserted
    · split at inserted
      · cases inserted
        rfl
      · cases inserted
    · cases inserted
  unfold Holds
  dsimp only
  rw [rows, List.exists_mem_cons_iff]
  exact or_iff_right fun isRow => other isRow.1.symm

theorem holds_delete
    (gone : String) :
    Holds { db with reservations := db.reservations.delete gone } username pubkey ↔
      Holds db username pubkey ∧ pubkey ≠ gone := by
  unfold Holds Reservations.delete
  simp only [Lib.Table.mem_retain, decide_eq_true_eq, ne_eq]
  constructor
  · rintro ⟨row, ⟨held, kept⟩, isName, isKey, isActive⟩
    exact ⟨⟨row, held, isName, isKey, isActive⟩, isKey ▸ kept⟩
  · rintro ⟨⟨row, held, isName, isKey, isActive⟩, kept⟩
    exact ⟨row, ⟨held, isKey ▸ kept⟩, isName, isKey, isActive⟩

theorem holds_dismiss
    (gone : String) :
    Holds { db with reservations := db.reservations.dismiss gone } username pubkey ↔
      Holds db username pubkey ∧ pubkey ≠ gone := by
  have rows : ∀ row, row ∈ (db.reservations.dismiss gone).table.rows ↔
      ∃ old ∈ db.reservations.table.rows,
        (if old.pubkey = gone ∧ old.isActive then { old with status := .dismissed } else old) =
          row := by
    intro row
    simp [Reservations.dismiss, Reservations.update, Lib.Table.updateWhere]
  constructor
  · rintro ⟨row, held, isName, isKey, isActive⟩
    obtain ⟨old, oldHeld, rfl⟩ := (rows row).mp held
    split at isName
    · rename_i isGone
      rw [if_pos isGone] at isActive
      cases isActive
    · rename_i kept
      rw [if_neg kept] at isKey isActive
      exact ⟨⟨old, oldHeld, isName, isKey, isActive⟩, fun isGone =>
        kept ⟨isKey.trans isGone, isActive⟩⟩
  · rintro ⟨⟨row, held, isName, isKey, isActive⟩, kept⟩
    refine ⟨row, (rows row).mpr ⟨row, held, ?_⟩, isName, isKey, isActive⟩
    rw [if_neg fun isGone => kept (isKey.symm.trans isGone.1)]

theorem holds_setRealName
    (realName : Option String)
    (who : String) :
    Holds { db with reservations := db.reservations.setRealName realName who } username pubkey ↔
      Holds db username pubkey := by
  have rows : ∀ row, row ∈ (db.reservations.setRealName realName who).table.rows ↔
      ∃ old ∈ db.reservations.table.rows,
        (if old.pubkey = who then { old with realName := realName } else old) = row := by
    intro row
    simp [Reservations.setRealName, Reservations.update, Lib.Table.updateWhere]
  constructor
  · rintro ⟨row, held, isName, isKey, isActive⟩
    obtain ⟨old, oldHeld, rfl⟩ := (rows row).mp held
    split at isName
    · rename_i isWho
      rw [if_pos isWho] at isKey isActive
      exact ⟨old, oldHeld, isName, isKey, isActive⟩
    · rename_i isOther
      rw [if_neg isOther] at isKey isActive
      exact ⟨old, oldHeld, isName, isKey, isActive⟩
  · rintro ⟨row, held, isName, isKey, isActive⟩
    refine ⟨_, (rows _).mpr ⟨row, held, rfl⟩, ?_⟩
    split <;> exact ⟨isName, isKey, isActive⟩

end Holders

/-! ## The shape of the programs -/

/-- A reservation is followed by the write of its entry, and a deletion by one that does not
depend on how it went; after the write of an entry and a dismissal none is due. -/
def ShapedStep : (op : UsernameOp) → (op.Answer → UsernameProgram UsernameReply) → Prop
  | .insertReservation row, next => dueOf (next (.ok ())) = some (nip05Key row.username)
  | .deleteReservation _, next => ∀ answer, dueOf (next answer) = dueOf (next (.ok ()))
  | .dismissReservation _, next => ∀ answer, dueOf (next answer) = none
  | .putMeta _ _, next => ∀ answer, dueOf (next answer) = none
  | .deleteMeta _, next => ∀ answer, dueOf (next answer) = none
  | _, _ => True

/-- Each operation of a program is followed by what it should be. -/
def Shaped : UsernameProgram UsernameReply → Prop
  | .done _ => True
  | .perform op next => ShapedStep op next ∧ ∀ answer, Shaped (next answer)

/-- An operation that leaves reservations and entries as they are. -/
def Calm : UsernameOp → Prop
  | .insertReservation _ => False
  | .deleteReservation _ => False
  | .dismissReservation _ => False
  | .putMeta _ _ => False
  | .deleteMeta _ => False
  | _ => True

theorem shaped_of_calm
    {program : UsernameProgram UsernameReply}
    (calm : program.Always Calm) :
    Shaped program ∧ dueOf program = none := by
  induction program with
  | done reply => exact ⟨trivial, rfl⟩
  | perform op next inductionHypothesis =>
      have later : ∀ answer, Shaped (next answer) :=
        fun answer => (inductionHypothesis answer (calm.2 answer)).1
      have isCalm := calm.1
      cases op with
      | insertReservation row => cases isCalm
      | deleteReservation pubkey => cases isCalm
      | dismissReservation pubkey => cases isCalm
      | putMeta key value => cases isCalm
      | deleteMeta key => cases isCalm
      | _ => exact ⟨⟨trivial, later⟩, rfl⟩

section Shapes

variable (isStaticAdmin : String → Bool) (toLowercase : String → String)
  (zones : List ZoneMeta)

theorem calm_onConflict
    (claim : UsernameClaim)
    (realName : Option String) :
    (onConflict claim realName).Always Calm := by
  apply Lib.Program.always_call trivial
  intro existing
  cases existing with
  | error reason =>
      apply Lib.Program.always_call trivial
      intro held
      split <;> trivial
  | ok holder =>
      cases holder with
      | none =>
          apply Lib.Program.always_call trivial
          intro held
          split <;> trivial
      | some holder =>
          dsimp only
          split
          · cases realName with
            | none => trivial
            | some name => exact Lib.Program.always_call trivial fun _ => trivial
          · trivial

theorem shaped_handleClaim
    (pubkey : String)
    (body : Option ClaimBody) :
    Shaped (handleClaim toLowercase zones pubkey body) := by
  have replied : ∀ {program : UsernameProgram (Except UsernameError UsernameClaim)}
      {reply : Except UsernameError UsernameClaim → UsernameProgram UsernameReply},
      program.Always Calm → (∀ claimed, (reply claimed).Always Calm) →
        Shaped (program >>= reply) ∧ dueOf (program >>= reply) = none :=
    fun calm replies => shaped_of_calm (Lib.Program.always_bind calm replies)
  cases body with
  | none => trivial
  | some body =>
      unfold handleClaim claim
      dsimp only
      cases validateUsername (toLowercase body.username) with
      | error failure => trivial
      | ok valid =>
          dsimp only
          cases (body.realName.elim (.ok none) normaliseRealName :
              Except UsernameError (Option String)) with
          | error failure => trivial
          | ok realName =>
              refine ⟨trivial, fun now => ⟨rfl, ?_⟩⟩
              intro inserted
              cases inserted with
              | error reason =>
                  refine (replied (calm_onConflict _ realName) ?_).1
                  intro claimed
                  cases claimed <;> trivial
              | ok done =>
                  have calmRest : ((Whitelist.whitelistJoiner zones pubkey now).embed
                      UsernameOp.relay (fun _ answer => answer) >>= fun _ =>
                        (pure (.ok ⟨toLowercase body.username, pubkey, now⟩) :
                          UsernameProgram (Except UsernameError UsernameClaim))).Always Calm :=
                    Lib.Program.always_bind
                      (Lib.Program.always_embed (Lib.Program.always_true _) fun _ _ => trivial)
                      fun _ => trivial
                  constructor
                  · intro _
                    refine (replied calmRest ?_).2
                    intro claimed
                    cases claimed <;> trivial
                  · intro _
                    refine (replied calmRest ?_).1
                    intro claimed
                    cases claimed <;> trivial

theorem shaped_handleRelease
    (pubkey : String) :
    Shaped (handleRelease pubkey) := by
  refine ⟨trivial, ?_⟩
  intro existing
  cases existing with
  | error reason => trivial
  | ok held =>
      cases held with
      | none => trivial
      | some username => exact ⟨fun _ => rfl, fun _ => ⟨fun _ => rfl, fun _ => trivial⟩⟩

theorem shaped_handleUsername
    (request : UsernameRequest) :
    Shaped (handleUsername isStaticAdmin toLowercase zones request) := by
  cases request with
  | claim pubkey body => exact shaped_handleClaim toLowercase zones pubkey body
  | release pubkey => exact shaped_handleRelease pubkey
  | setOwnRealName pubkey body =>
      apply And.left
      apply shaped_of_calm
      cases body with
      | none => trivial
      | some realName =>
          apply Lib.Program.always_bind
          · unfold setRealName
            split
            · trivial
            · apply Lib.Program.always_call trivial
              intro updated
              split <;> trivial
          · intro stored
            cases stored <;> trivial
  | dismiss caller body =>
      have shapedDismissal : Shaped (dismissRegistration toLowercase body) := by
        cases body with
        | none => trivial
        | some pubkey =>
            unfold dismissRegistration
            dsimp only
            split
            · trivial
            · refine ⟨?_, ?_⟩
              · rintro (reason | changed) <;> rfl
              · rintro (reason | changed) <;> trivial
      have afterGate : ∀ callerIsAdmin : Bool,
          Shaped (if !callerIsAdmin then pure (.error "Admin required" 403)
            else dismissRegistration toLowercase body) := by
        intro callerIsAdmin
        cases callerIsAdmin
        · trivial
        · exact shapedDismissal
      change Shaped (handleAdminDismissRegistration isStaticAdmin toLowercase caller body)
      unfold handleAdminDismissRegistration Whitelist.queryIsAdmin
      split
      · exact afterGate true
      · exact ⟨trivial, fun row => afterGate _⟩

end Shapes

/-! ## One operation -/

section Performing

variable {pool : UsernamePool} {index : Nat} {task : UsernameTask} {op : UsernameOp}
  {username : String}

/-- An entry is about to be written by the task of an index or by another. -/
theorem due_iff
    (found : pool.tasks[index]? = some task) :
    Due pool username ↔
      DueElsewhere pool index username ∨ dueOf task.rest = some (nip05Key username) := by
  constructor
  · rintro ⟨other, member, isDue⟩
    obtain ⟨place, isOther⟩ := List.mem_iff_getElem?.mp member
    by_cases same : place = index
    · right
      rw [same, found] at isOther
      rw [Option.some.inj isOther]
      exact isDue
    · exact .inl ⟨place, other, same, isOther, isDue⟩
  · rintro (⟨place, other, -, isOther, isDue⟩ | isDue)
    · exact ⟨other, List.mem_of_getElem? isOther, isDue⟩
    · exact ⟨task, List.mem_of_getElem? found, isDue⟩

/-- After an operation of a task, an entry is about to be written by the same others, or by
what is left of the task. -/
theorem due_performed_iff
    (found : pool.tasks[index]? = some task)
    (state : UsernameDb)
    (event : UsernameEvent)
    (rest : UsernameProgram UsernameReply) :
    Due ⟨state, pool.tasks.set index ⟨task.request, task.past ++ [event], rest⟩⟩ username ↔
      DueElsewhere pool index username ∨ dueOf rest = some (nip05Key username) := by
  obtain ⟨inBounds, -⟩ := List.getElem?_eq_some_iff.mp found
  rw [due_iff (List.getElem?_set_self inBounds)]
  apply or_congr_left
  constructor
  · rintro ⟨place, other, different, isOther, isDue⟩
    exact ⟨place, other, different,
      (List.getElem?_set_ne (Ne.symm different)).symm.trans isOther, isDue⟩
  · rintro ⟨place, other, different, isOther, isDue⟩
    exact ⟨place, other, different,
      (List.getElem?_set_ne (Ne.symm different)).trans isOther, isDue⟩

theorem namesHolder_congr
    {before after : UsernameDb}
    (sameEntry : entry after username = entry before username)
    (sameHolders : ∀ pubkey, Holds after username pubkey ↔ Holds before username pubkey) :
    NamesHolder after username ↔ NamesHolder before username := by
  unfold NamesHolder
  simp only [sameEntry, sameHolders]

/-- Calm operations leave holders and entries as they are. -/
theorem namesHolder_of_calm
    (db : UsernameDb)
    (choice : UsernameChoice)
    (calm : Calm op) :
    NamesHolder (answerUsername db choice op).1 username ↔ NamesHolder db username := by
  cases op with
  | insertReservation row => cases calm
  | deleteReservation pubkey => cases calm
  | dismissReservation pubkey => cases calm
  | putMeta key value => cases calm
  | deleteMeta key => cases calm
  | setRealName realName pubkey =>
      cases failed : choice.failure with
      | some reason => simp only [answerUsername, failed]
      | none =>
          simp only [answerUsername, failed]
          exact namesHolder_congr rfl fun who => holds_setRealName realName pubkey
  | _ => exact Iff.rfl

variable {choice : UsernameChoice} {next : op.Answer → UsernameProgram UsernameReply}

/-- The pool after an operation of a task. -/
def afterStatement (pool : UsernamePool) (index : Nat) (choice : UsernameChoice)
    (task : UsernameTask) (op : UsernameOp)
    (next : op.Answer → UsernameProgram UsernameReply) : UsernamePool :=
  ⟨(answerUsername pool.state choice op).1,
    pool.tasks.set index ⟨task.request,
      task.past ++ [⟨op, choice, (answerUsername pool.state choice op).2⟩],
      next (answerUsername pool.state choice op).2⟩⟩

/-- A reservation that is taken away, by whichever statement: the entry was about to be
written. -/
theorem mirrored_withdrawn
    {pubkey : String}
    (mirrored : Mirrored pool)
    (sameDue : ∀ username, Due (afterStatement pool index choice task op next) username ↔
      Due pool username)
    (sameEntry : ∀ username, entry (answerUsername pool.state choice op).1 username =
      entry pool.state username)
    (failing : choice.failure ≠ none → (answerUsername pool.state choice op).1 = pool.state)
    (withdrawn : choice.failure = none → ∀ username who,
      Holds (answerUsername pool.state choice op).1 username who ↔
        Holds pool.state username who ∧ who ≠ pubkey) :
    Mirrored (afterStatement pool index choice task op next) ↔
      (choice.failure = none →
        ∀ username, Holds pool.state username pubkey → Due pool username) := by
  constructor
  · intro mirroredAfter succeeds username holds
    by_contra notDue
    have named := mirrored username notDue pubkey
    have namedAfter := mirroredAfter username (fun due => notDue ((sameDue username).mp due)) pubkey
    have isEntry : entry (answerUsername pool.state choice op).1 username = some pubkey := by
      rw [sameEntry]
      exact named.mpr holds
    exact ((withdrawn succeeds username pubkey).mp (namedAfter.mp isEntry)).2 rfl
  · intro meets username notDueAfter
    have notDue : ¬Due pool username := fun due => notDueAfter ((sameDue username).mpr due)
    by_cases succeeds : choice.failure = none
    · refine (namesHolder_congr (sameEntry username) ?_).mpr (mirrored username notDue)
      intro who
      refine (withdrawn succeeds username who).trans (and_iff_left_of_imp ?_)
      rintro holds rfl
      exact notDue (meets succeeds username holds)
    · change NamesHolder (answerUsername pool.state choice op).1 username
      rw [failing succeeds]
      exact mirrored username notDue

/-- An entry that is written: the last one to write it writes what holds. -/
theorem mirrored_written
    {key : String}
    {value : Option String}
    (mirrored : Mirrored pool)
    (dueBefore : ∀ username, Due pool username ↔
      DueElsewhere pool index username ∨ key = nip05Key username)
    (dueAfter : ∀ username, Due (afterStatement pool index choice task op next) username ↔
      DueElsewhere pool index username)
    (sameHolders : ∀ username who, Holds (answerUsername pool.state choice op).1 username who ↔
      Holds pool.state username who)
    (failing : choice.failure ≠ none → (answerUsername pool.state choice op).1 = pool.state)
    (written : choice.failure = none → ∀ username,
      entry (answerUsername pool.state choice op).1 username =
        if nip05Key username = key then value else entry pool.state username) :
    Mirrored (afterStatement pool index choice task op next) ↔
      ∀ username, nip05Key username = key → ¬DueElsewhere pool index username →
        (choice.failure = none → ∀ pubkey, value = some pubkey ↔ Holds pool.state username pubkey) ∧
          (choice.failure ≠ none → NamesHolder pool.state username) := by
  constructor
  · intro mirroredAfter username isKey notElsewhere
    have named := mirroredAfter username fun due => notElsewhere ((dueAfter username).mp due)
    refine ⟨?_, ?_⟩
    · intro succeeds pubkey
      have namedOne := named pubkey
      change entry (answerUsername pool.state choice op).1 username = some pubkey ↔
        Holds (answerUsername pool.state choice op).1 username pubkey at namedOne
      rw [written succeeds, if_pos isKey, sameHolders] at namedOne
      exact namedOne
    · intro fails
      rw [← failing fails]
      exact named
  · intro meets username notDueAfter
    have notElsewhere : ¬DueElsewhere pool index username :=
      fun elsewhere => notDueAfter ((dueAfter username).mpr elsewhere)
    by_cases succeeds : choice.failure = none
    · by_cases isKey : nip05Key username = key
      · intro pubkey
        change entry (answerUsername pool.state choice op).1 username = some pubkey ↔
          Holds (answerUsername pool.state choice op).1 username pubkey
        rw [written succeeds, if_pos isKey, sameHolders]
        exact (meets username isKey notElsewhere).1 succeeds pubkey
      · have notDue : ¬Due pool username := by
          rw [dueBefore]
          rintro (elsewhere | isDue)
          · exact notElsewhere elsewhere
          · exact isKey isDue.symm
        refine (namesHolder_congr ?_ (sameHolders username)).mpr (mirrored username notDue)
        rw [written succeeds, if_neg isKey]
    · change NamesHolder (answerUsername pool.state choice op).1 username
      rw [failing succeeds]
      by_cases isKey : nip05Key username = key
      · exact (meets username isKey notElsewhere).2 succeeds
      · apply mirrored username
        rw [dueBefore]
        rintro (elsewhere | isDue)
        · exact notElsewhere elsewhere
        · exact isKey isDue.symm

/-- Calm operations and insertions keep the entries that nobody is about to write. -/
theorem mirrored_calm
    (mirrored : Mirrored pool)
    (found : pool.tasks[index]? = some task)
    (nothingDue : dueOf task.rest = none)
    (kept : ∀ username, dueOf (next (answerUsername pool.state choice op).2) ≠
      some (nip05Key username) →
        (NamesHolder (answerUsername pool.state choice op).1 username ↔
          NamesHolder pool.state username)) :
    Mirrored (afterStatement pool index choice task op next) := by
  intro username notDueAfter
  rw [afterStatement, due_performed_iff found, not_or] at notDueAfter
  have notDue : ¬Due pool username := by
    rw [due_iff found, nothingDue]
    rintro (elsewhere | isDue)
    · exact notDueAfter.1 elsewhere
    · cases isDue
  exact (kept username notDueAfter.2).mpr (mirrored username notDue)

theorem namesHolder_insert
    {db : UsernameDb}
    {row : ReservationRow}
    (other : (answerUsername db choice (.insertReservation row)).2 = .ok () →
      username ≠ row.username) :
    NamesHolder (answerUsername db choice (.insertReservation row)).1 username ↔
      NamesHolder db username := by
  cases failed : choice.failure with
  | some reason => simp only [answerUsername, failed]
  | none =>
      cases inserted : db.reservations.insert row with
      | none => simp only [answerUsername, failed, inserted]
      | some reservations =>
          simp only [answerUsername, failed, inserted] at other ⊢
          exact namesHolder_congr rfl fun pubkey => holds_insert inserted (other trivial)

/-- Only one public key holds a username. -/
theorem only_holder_iff
    {db : UsernameDb}
    {value : String} :
    (∀ pubkey, some value = some pubkey ↔ Holds db username pubkey) ↔ Holds db username value := by
  constructor
  · intro named
    exact (named value).mp rfl
  · intro holds pubkey
    constructor
    · rintro ⟨⟩
      exact holds
    · intro isHolder
      rw [(oneEach db).holder username value pubkey holds isHolder]

/-- An operation leaves the entries that nobody is about to write right exactly when it meets
its condition. -/
theorem mirrored_iff
    (mirrored : Mirrored pool)
    (found : pool.tasks[index]? = some task)
    (isRest : task.rest = .perform op next)
    (shaped : ShapedStep op next) :
    Mirrored (afterStatement pool index choice task op next) ↔
      statementKeepsMirror pool index choice op := by
  have ofCalm : Calm op → dueOf task.rest = none →
      Mirrored (afterStatement pool index choice task op next) :=
    fun calm nothingDue => mirrored_calm mirrored found nothingDue fun username _ =>
      namesHolder_of_calm pool.state choice calm
  cases op with
  | insertReservation row =>
      refine iff_of_true (mirrored_calm mirrored found (by rw [isRest]; rfl) ?_) trivial
      intro username notDue
      apply namesHolder_insert
      rintro succeeds rfl
      rw [succeeds] at notDue
      exact notDue shaped
  | deleteReservation pubkey =>
      apply mirrored_withdrawn mirrored
      case sameDue =>
        intro username
        rw [afterStatement, due_performed_iff found, due_iff found, isRest,
          shaped (answerUsername pool.state choice (.deleteReservation pubkey)).2]
        rfl
      case sameEntry =>
        intro username
        cases failed : choice.failure with
        | none =>
            simp only [answerUsername, failed]
            rfl
        | some reason => simp only [answerUsername, failed]
      case failing =>
        intro fails
        obtain ⟨reason, failed⟩ := Option.ne_none_iff_exists'.mp fails
        simp only [answerUsername, failed]
      case withdrawn =>
        intro succeeds username who
        simp only [answerUsername, succeeds]
        exact holds_delete pubkey
  | dismissReservation pubkey =>
      apply mirrored_withdrawn mirrored
      case sameDue =>
        intro username
        rw [afterStatement, due_performed_iff found, due_iff found, isRest,
          shaped (answerUsername pool.state choice (.dismissReservation pubkey)).2]
        rfl
      case sameEntry =>
        intro username
        cases failed : choice.failure with
        | none =>
            simp only [answerUsername, failed]
            rfl
        | some reason => simp only [answerUsername, failed]
      case failing =>
        intro fails
        obtain ⟨reason, failed⟩ := Option.ne_none_iff_exists'.mp fails
        simp only [answerUsername, failed]
      case withdrawn =>
        intro succeeds username who
        simp only [answerUsername, succeeds]
        exact holds_dismiss pubkey
  | putMeta key value =>
      have written : Mirrored (afterStatement pool index choice task (.putMeta key value) next) ↔
          ∀ username, nip05Key username = key → ¬DueElsewhere pool index username →
            (choice.failure = none →
              ∀ pubkey, some value = some pubkey ↔ Holds pool.state username pubkey) ∧
              (choice.failure ≠ none → NamesHolder pool.state username) := by
        apply mirrored_written mirrored
        case dueBefore =>
          intro username
          rw [due_iff found, isRest, dueOf, Option.some_inj]
        case dueAfter =>
          intro username
          rw [afterStatement, due_performed_iff found, shaped]
          exact or_iff_left (by rintro ⟨⟩)
        case sameHolders =>
          intro username who
          cases failed : choice.failure with
          | none =>
              simp only [answerUsername, failed]
              rfl
          | some reason => simp only [answerUsername, failed]
        case failing =>
          intro fails
          obtain ⟨reason, failed⟩ := Option.ne_none_iff_exists'.mp fails
          simp only [answerUsername, failed]
        case written =>
          intro succeeds username
          simp only [answerUsername, succeeds, entry, Lib.Table.find?_put]
          split <;> rfl
      refine written.trans (forall_congr' fun username => imp_congr_right fun _ =>
        imp_congr_right fun _ => and_congr_left fun _ => imp_congr_right fun _ => ?_)
      exact only_holder_iff
  | deleteMeta key =>
      have written : Mirrored (afterStatement pool index choice task (.deleteMeta key) next) ↔
          ∀ username, nip05Key username = key → ¬DueElsewhere pool index username →
            (choice.failure = none →
              ∀ pubkey, none = some pubkey ↔ Holds pool.state username pubkey) ∧
              (choice.failure ≠ none → NamesHolder pool.state username) := by
        apply mirrored_written mirrored
        case dueBefore =>
          intro username
          rw [due_iff found, isRest, dueOf, Option.some_inj]
        case dueAfter =>
          intro username
          rw [afterStatement, due_performed_iff found, shaped]
          exact or_iff_left (by rintro ⟨⟩)
        case sameHolders =>
          intro username who
          cases failed : choice.failure with
          | none =>
              simp only [answerUsername, failed]
              rfl
          | some reason => simp only [answerUsername, failed]
        case failing =>
          intro fails
          obtain ⟨reason, failed⟩ := Option.ne_none_iff_exists'.mp fails
          simp only [answerUsername, failed]
        case written =>
          intro succeeds username
          simp only [answerUsername, succeeds, entry, Lib.Table.find?_erase]
          split <;> rfl
      refine written.trans (forall_congr' fun username => imp_congr_right fun _ =>
        imp_congr_right fun _ => and_congr_left fun _ => imp_congr_right fun _ =>
          forall_congr' fun pubkey => ?_)
      constructor
      · intro holds isHeld
        exact Option.some_ne_none pubkey (holds.mpr isHeld).symm
      · intro noneHolds
        constructor
        · rintro ⟨⟩
        · intro isHeld
          exact absurd isHeld noneHolds
  | _ => exact iff_of_true (ofCalm trivial (by rw [isRest]; rfl)) trivial

end Performing

/-! ## Runs -/

section Runs

variable (isStaticAdmin : String → Bool) (toLowercase : String → String)
  (zones : List ZoneMeta)

/-- Tables and a store without anything, besides the whitelist. -/
def newUsernames (whitelist : Whitelist) : UsernameDb :=
  ⟨Reservations.empty, Lib.Table.empty, whitelist⟩

/-- What every pool keeps, besides the mirror itself. -/
def MirrorKept (pool : UsernamePool) : Prop :=
  pool.Staged (fun _ _ rest => Shaped rest) ∧ Mirrored pool

theorem mirrorKept_step
    (pool : UsernamePool)
    (move : UsernameMove)
    (kept : MirrorKept pool) :
    Mirrored (stepUsernames isStaticAdmin toLowercase zones pool move) ↔
      KeepsMirror pool move := by
  cases move with
  | start request =>
      refine iff_of_true ?_ trivial
      intro username notDue
      apply kept.2 username
      rintro ⟨task, member, isDue⟩
      exact notDue ⟨task, List.mem_append_left _ member, isDue⟩
  | advance index choice =>
      rcases Lib.Pool.advance_cases (handleUsername isStaticAdmin toLowercase zones)
          answerUsername pool index choice with
        ⟨unchanged, idle⟩ | ⟨task, op, next, found, isRest, after⟩
      · rw [stepUsernames, unchanged]
        refine iff_of_true kept.2 ?_
        intro task found op next isRest
        exact absurd isRest (idle task found op next)
      · rw [stepUsernames, after]
        have shaped : Shaped task.rest := kept.1 task (List.mem_of_getElem? found)
        rw [isRest] at shaped
        refine (mirrored_iff kept.2 found isRest shaped.1).trans ?_
        constructor
        · intro meets other isOther otherOp otherNext isOtherRest
          obtain rfl : task = other := Option.some.inj (found.symm.trans isOther)
          rw [isRest] at isOtherRest
          cases isOtherRest
          exact meets
        · intro meets
          exact meets task found op next isRest

theorem staged_shaped_step
    (pool : UsernamePool)
    (move : UsernameMove)
    (staged : pool.Staged fun _ _ rest => Shaped rest) :
    (stepUsernames isStaticAdmin toLowercase zones pool move).Staged fun _ _ rest =>
      Shaped rest :=
  Lib.Pool.staged_step (shaped_handleUsername isStaticAdmin toLowercase zones)
    (fun _ _ _ _ shaped _ answer => shaped.2 answer) staged move

/-- When no request is in progress, no entry is about to be written. -/
theorem not_due_of_quiescent
    {pool : UsernamePool}
    (quiescent : Quiescent pool)
    (username : String) :
    ¬Due pool username := by
  rintro ⟨task, member, isDue⟩
  have ended := quiescent task member
  cases isRest : task.rest with
  | done reply =>
      rw [isRest] at isDue
      cases isDue
  | perform op next =>
      rw [isRest] at ended
      cases ended

/-- In a run of claims, releases, real names and dismissals from new tables, at most one
public key holds a username and each at most one.  The entries that no request is about to
write name the holders exactly if every statement meets its condition; and then so do all
entries whenever no request is in progress. -/
theorem names_one_member_iff
    (whitelist : Whitelist)
    (moves : List UsernameMove) :
    Lib.Visits (stepUsernames isStaticAdmin toLowercase zones) (fun pool => OneEach pool.state)
        (Lib.Pool.idle (newUsernames whitelist)) moves ∧
      (Lib.Visits (stepUsernames isStaticAdmin toLowercase zones) Mirrored
          (Lib.Pool.idle (newUsernames whitelist)) moves ↔
        Lib.Along (stepUsernames isStaticAdmin toLowercase zones) KeepsMirror
          (Lib.Pool.idle (newUsernames whitelist)) moves) ∧
      (Lib.Along (stepUsernames isStaticAdmin toLowercase zones) KeepsMirror
          (Lib.Pool.idle (newUsernames whitelist)) moves →
        Lib.Visits (stepUsernames isStaticAdmin toLowercase zones)
          (fun pool => Quiescent pool → ∀ username, NamesHolder pool.state username)
          (Lib.Pool.idle (newUsernames whitelist)) moves) := by
  have initially : MirrorKept (Lib.Pool.idle (newUsernames whitelist)) := by
    refine ⟨by rintro task ⟨⟩, ?_⟩
    intro username _ pubkey
    refine iff_of_false nofun ?_
    rintro ⟨row, ⟨⟩, -⟩
  have preserved : ∀ pool move, MirrorKept pool → True → KeepsMirror pool move →
      MirrorKept (stepUsernames isStaticAdmin toLowercase zones pool move) :=
    fun pool move kept _ meets =>
      ⟨staged_shaped_step isStaticAdmin toLowercase zones pool move kept.1,
        (mirrorKept_step isStaticAdmin toLowercase zones pool move kept).mpr meets⟩
  have assumed : Lib.Along (stepUsernames isStaticAdmin toLowercase zones) (fun _ _ => True)
      (Lib.Pool.idle (newUsernames whitelist)) moves :=
    (Lib.along_iff_prefixes _ _).mpr fun _ _ _ => trivial
  have exactly := Lib.visits_iff_along preserved (fun _ kept => kept.2)
    (fun pool move kept _ => (mirrorKept_step isStaticAdmin toLowercase zones pool move kept).mp)
    initially assumed
  refine ⟨?_, exactly, ?_⟩
  · exact (Lib.visits_iff_prefixes _ _).mpr fun _ _ => oneEach _
  · intro meets
    refine (exactly.mpr meets).mono ?_
    intro pool mirrored quiescent username
    exact mirrored username (not_due_of_quiescent quiescent username)

end Runs

/-- A statement that succeeds. -/
def promptly : UsernameChoice :=
  ⟨none, 0⟩

/-- A member releases a username, and another claims it before the release is through. -/
def releaseOverlapped : List UsernameMove :=
  [.start (.claim "aa" (some ⟨"alice", none⟩)),
    .advance 0 promptly, .advance 0 promptly, .advance 0 promptly, .advance 0 promptly,
    .start (.release "aa"), .advance 1 promptly, .advance 1 promptly,
    .start (.claim "bb" (some ⟨"alice", none⟩)),
    .advance 2 promptly, .advance 2 promptly, .advance 2 promptly, .advance 2 promptly,
    .advance 1 promptly]

/-- All three are answered, the second member holds the username, and it has no entry. -/
theorem release_takes_entry_of_next :
    let final := Lib.run (stepUsernames (fun _ => false) Shared.toAsciiLowercase [])
      (Lib.Pool.idle (newUsernames Lib.Table.empty)) releaseOverlapped
    Quiescent final ∧ Holds final.state "alice" "bb" ∧ entry final.state "alice" = none := by
  decide +kernel

end Auth
end NostrBbs
