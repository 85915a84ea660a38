import NostrBbs.Auth.Passkeys

/-!
# Logins with passkeys

A challenge is accepted once, in time and for whom it was issued, and counters only go up,
on every run whose logins find the tables in their batch as they were when they were checked.
-/

namespace NostrBbs
namespace Auth

open Lib (Pool Program)

/-! ## Runs -/

inductive LoginRequest where
  | options (request : LoginOptionsRequest)
  | verify (request : LoginVerifyRequest)
deriving DecidableEq, Repr

def handleLogin (env : PasskeyEnv) : LoginRequest → PasskeyProgram PasskeyReply
  | .options request => loginOptions env request
  | .verify request => loginVerify env request

abbrev LoginPool :=
  Pool PasskeyState LoginRequest PasskeyOp PasskeyChoice PasskeyOp.Answer PasskeyReply

abbrev LoginMove := Lib.Move LoginRequest PasskeyChoice

abbrev PasskeyEvent := Lib.Event PasskeyOp PasskeyChoice PasskeyOp.Answer

/-- Requests come in, and the statements for them run, one after the other. -/
def stepLogins (env : PasskeyEnv) : LoginPool → LoginMove → LoginPool :=
  Pool.step (handleLogin env) answerPasskey

/-! ## Fresh logins -/

/-- A login whose challenge no login used before, is not older than five minutes, and was
issued for its pubkey or for any; and whose counter is above that of its credential, unless
that one is zero. -/
structure FreshLogin (state : PasskeyState) (login : Login) : Prop where
  once : login.challenge ∉ state.consumed
  issued : ∃ row ∈ state.issued, row.challenge = login.challenge ∧
    state.clock ≤ row.createdAt + fiveMinutes ∧
      (row.pubkey = login.pubkey ∨ row.pubkey = discoverable)
  forward : ∀ row ∈ state.credentials, row.pubkey = login.pubkey →
    row.credentialId = login.credentialId → row.counter ≠ 0 → row.counter < login.counter

/-- Every login that is accepted is fresh. -/
def AcceptsFresh (state : PasskeyState) (_ : List PasskeyEvent) (choice : PasskeyChoice) :
    PasskeyOp → Prop
  | .acceptLogin login =>
      choice.fails = false → FreshLogin (state.later choice.elapsed) login
  | _ => True

/-- Credentials stay, and their counters do not go down. -/
def CountersBelow (first second : PasskeyState) : Prop :=
  ∀ index : Nat, ∀ row : CredentialRow, first.credentials[index]? = some row →
    ∃ later : CredentialRow, second.credentials[index]? = some later ∧
      later.credentialId = row.credentialId ∧ row.counter ≤ later.counter

/-- Challenges are drawn that were not drawn before. -/
def DrawsNew (state : PasskeyState) (_ : List PasskeyEvent) (_ : PasskeyChoice) :
    PasskeyOp → Prop
  | .storeChallenge row _ => row.challenge ∉ state.issued.map ChallengeRow.challenge
  | _ => True

/-- What a login has read of its credential: no credential of the pubkey has since gone above
it and reached the counter of the assertion. -/
def NotOvertaken (state : PasskeyState) (login : Login) : PasskeyEvent → Prop
  | ⟨.selectCredential _, _, found⟩ =>
      ∀ read ∈ found.join, ∀ row ∈ state.credentials, row.pubkey = login.pubkey →
        row.counter ≤ read.counter ∨ row.counter < login.counter
  | _ => True

/-- Where a login is accepted, its challenge is still there and not older than five minutes,
its credential has not been overtaken, and a counter of zero goes over zero only. -/
def Undisturbed (state : PasskeyState) (past : List PasskeyEvent) (choice : PasskeyChoice) :
    PasskeyOp → Prop
  | .acceptLogin login =>
      choice.fails = false →
        (∃ row ∈ state.challenges, row.challenge = login.challenge ∧
          state.clock + choice.elapsed ≤ row.createdAt + fiveMinutes) ∧
        (∀ event ∈ past, NotOvertaken state login event) ∧
        (login.counter = 0 →
          ∀ row ∈ state.credentials, row.pubkey = login.pubkey → row.counter = 0)
  | _ => True

section Decidable

instance FreshLogin.decidable (state : PasskeyState) (login : Login) :
    Decidable (FreshLogin state login) :=
  decidable_of_iff
    (login.challenge ∉ state.consumed ∧
      (∃ row ∈ state.issued, row.challenge = login.challenge ∧
        state.clock ≤ row.createdAt + fiveMinutes ∧
          (row.pubkey = login.pubkey ∨ row.pubkey = discoverable)) ∧
      ∀ row ∈ state.credentials, row.pubkey = login.pubkey →
        row.credentialId = login.credentialId → row.counter ≠ 0 → row.counter < login.counter)
    ⟨fun ⟨once, issued, forward⟩ => ⟨once, issued, forward⟩,
      fun ⟨once, issued, forward⟩ => ⟨once, issued, forward⟩⟩

variable (state : PasskeyState) (past : List PasskeyEvent) (choice : PasskeyChoice)

instance AcceptsFresh.decidable (op : PasskeyOp) :
    Decidable (AcceptsFresh state past choice op) := by
  cases op
  case acceptLogin login =>
    exact inferInstanceAs
      (Decidable (choice.fails = false → FreshLogin (state.later choice.elapsed) login))
  all_goals exact isTrue trivial

instance DrawsNew.decidable (op : PasskeyOp) : Decidable (DrawsNew state past choice op) := by
  cases op
  case storeChallenge row cutoff =>
    exact inferInstanceAs (Decidable (row.challenge ∉ state.issued.map ChallengeRow.challenge))
  all_goals exact isTrue trivial

instance NotOvertaken.decidable (login : Login) (event : PasskeyEvent) :
    Decidable (NotOvertaken state login event) := by
  obtain ⟨op, eventChoice, answer⟩ := event
  cases op
  case selectCredential pubkey =>
    exact inferInstanceAs (Decidable (∀ read ∈ (answer : Option (Option CredentialRow)).join,
      ∀ row ∈ state.credentials, row.pubkey = login.pubkey →
        row.counter ≤ read.counter ∨ row.counter < login.counter))
  all_goals exact isTrue trivial

instance Undisturbed.decidable (op : PasskeyOp) :
    Decidable (Undisturbed state past choice op) := by
  cases op
  case acceptLogin login =>
    exact inferInstanceAs (Decidable (choice.fails = false →
      (∃ row ∈ state.challenges, row.challenge = login.challenge ∧
        state.clock + choice.elapsed ≤ row.createdAt + fiveMinutes) ∧
      (∀ event ∈ past, NotOvertaken state login event) ∧
      (login.counter = 0 →
        ∀ row ∈ state.credentials, row.pubkey = login.pubkey → row.counter = 0)))
  all_goals exact isTrue trivial

end Decidable

/-! ## What a request does -/

/-- A login is accepted after the credential of its pubkey was read, with a counter below the
assertion's, and its challenge was found. -/
def AcceptsChecked (past : List PasskeyEvent) : PasskeyOp → Prop
  | .acceptLogin login =>
      (∃ choice read, ⟨.selectCredential login.pubkey, choice, some (some read)⟩ ∈ past ∧
        read.credentialId = login.credentialId ∧
          (login.counter ≠ 0 → read.counter < login.counter)) ∧
      ∃ choice cutoff,
        ⟨.checkChallenge login.challenge cutoff login.pubkey, choice, some true⟩ ∈ past
  | .storeRegistration _ _ _ => False
  | .storeCredential _ _ => False
  | _ => True

section Programs

variable {env : PasskeyEnv} {past : List PasskeyEvent}

theorem loginOptions_acceptsChecked
    (request : LoginOptionsRequest) :
    (loginOptions env request).Follows AcceptsChecked past := by
  have salt : (loginSalt env request.pubkey).Follows AcceptsChecked past := by
    unfold loginSalt
    split
    · exact Program.follows_done _
    · refine Program.follows_call trivial ?_
      rintro choice (_ | _ | row) <;> exact Program.follows_done _
  refine salt.bind ?_
  rintro (_ | prfSalt) more
  · exact Program.follows_done _
  · refine Program.follows_call trivial ?_
    intro clockChoice now
    refine Program.follows_call trivial ?_
    rintro choice (_ | _)
    · exact Program.follows_done _
    · dsimp only
      split <;> exact Program.follows_done _

theorem below_of_checkAssertion
    {credential : CredentialRow}
    {response : InnerAssertionResponse}
    {bytes : List UInt8}
    {counter : UInt32}
    (checked : checkAssertion env credential response bytes = .ok counter)
    (isCounted : counter ≠ 0) :
    credential.counter < counter := by
  unfold checkAssertion at checked
  split at checked
  · cases checked
  · split at checked
    · cases checked
    · split at checked
      · cases checked
      · split at checked
        · cases checked
        · rename_i signed _ notReplayed
          have isCounter : signed = counter := by
            split at checked
            · cases checked
            · split at checked
              · cases checked
              · split at checked
                · cases checked
                · split at checked
                  · cases checked
                  · cases checked
                  · cases checked
                  · exact Except.ok.inj checked
          subst isCounter
          exact UInt32.not_le.mp fun isBelow => notReplayed ⟨isCounted, isBelow⟩

theorem loginVerify_acceptsChecked
    (request : LoginVerifyRequest) :
    (loginVerify env request).Follows AcceptsChecked [] := by
  unfold loginVerify
  split
  · exact Program.follows_done _
  · split
    · exact Program.follows_done _
    · rename_i pubkey _
      split
      · exact Program.follows_done _
      · exact Program.follows_done _
      · split
        · exact Program.follows_done _
        · refine Program.follows_call trivial ?_
          rintro readChoice (_ | _ | credential)
          · exact Program.follows_done _
          · exact Program.follows_done _
          · dsimp only
            unfold loginWith
            split
            · exact Program.follows_done _
            · refine Program.follows_call trivial ?_
              intro clockChoice now
              refine Program.follows_call trivial ?_
              rintro checkChoice (_ | _ | _)
              · exact Program.follows_done _
              · exact Program.follows_done _
              · dsimp only
                unfold finishLogin
                cases checked : checkAssertion env credential _ _ with
                | error reply => exact Program.follows_done _
                | ok counter =>
                    refine Program.follows_call ⟨?_, ?_⟩ ?_
                    · exact ⟨readChoice, credential, by simp, rfl,
                        below_of_checkAssertion checked⟩
                    · exact ⟨checkChoice, now - fiveMinutes, by simp⟩
                    · rintro choice (_ | _) <;> exact Program.follows_done _

theorem handleLogin_acceptsChecked
    (request : LoginRequest) :
    (handleLogin env request).Follows AcceptsChecked [] := by
  cases request with
  | options request => exact loginOptions_acceptsChecked request
  | verify request => exact loginVerify_acceptsChecked request

end Programs

/-! ## What holds of the tables -/

/-- Challenges are distinct, those that are stored were issued and not yet used, and those
that were used were issued. -/
structure ChallengesKept (state : PasskeyState) : Prop where
  distinct : (state.issued.map ChallengeRow.challenge).Nodup
  listed : ∀ row ∈ state.challenges, row ∈ state.issued
  unused : ∀ row ∈ state.challenges, row.challenge ∉ state.consumed
  used : ∀ challenge ∈ state.consumed, challenge ∈ state.issued.map ChallengeRow.challenge

/-- A challenge was issued for a pubkey or for any. -/
def IssuedFor (state : PasskeyState) (challenge pubkey : String) : Prop :=
  ∃ row ∈ state.issued, row.challenge = challenge ∧
    (row.pubkey = pubkey ∨ row.pubkey = discoverable)

/-- The challenges that requests have found were issued for them. -/
def FoundIssued (state : PasskeyState) : PasskeyEvent → Prop
  | ⟨.checkChallenge challenge _ pubkey, _, found⟩ =>
      found = some true → IssuedFor state challenge pubkey
  | _ => True

/-- What holds of the tables and of what the requests have read. -/
structure LoginsKept (pool : LoginPool) : Prop where
  tables : ChallengesKept pool.state
  found : ∀ task ∈ pool.tasks, ∀ event ∈ task.past, FoundIssued pool.state event

section Kept

variable {state : PasskeyState} {past : List PasskeyEvent} {choice : PasskeyChoice}
  {op : PasskeyOp}

theorem issuedFor_of_hasChallenge
    (kept : ChallengesKept state)
    {challenge pubkey : String}
    {cutoff : Nat}
    (isThere : state.hasChallenge challenge cutoff pubkey) :
    IssuedFor state challenge pubkey := by
  unfold PasskeyState.hasChallenge at isThere
  obtain ⟨row, held, named⟩ := List.any_eq_true.mp isThere
  simp only [Bool.and_eq_true, Bool.or_eq_true, decide_eq_true_eq] at named
  exact ⟨row, kept.listed row held, named.1.1, named.2⟩

/-- A statement that logins run keeps the tables, and forgets no issue. -/
theorem ChallengesKept.answer
    (kept : ChallengesKept state)
    (allowed : AcceptsChecked past op)
    (isNew : DrawsNew state past choice op)
    (undisturbed : Undisturbed state past choice op) :
    ChallengesKept (answerPasskey state choice op).1 ∧
      ∀ row ∈ state.issued, row ∈ (answerPasskey state choice op).1.issued := by
  have unchanged : ChallengesKept (state.later choice.elapsed) ∧
      ∀ row ∈ state.issued, row ∈ (state.later choice.elapsed).issued :=
    ⟨⟨kept.distinct, kept.listed, kept.unused, kept.used⟩, fun _ isIssued => isIssued⟩
  cases op with
  | now => exact unchanged
  | selectSalt pubkey => exact unchanged
  | selectCredential pubkey => exact unchanged
  | checkChallenge challenge cutoff pubkey => exact unchanged
  | selectRegistrationSalt challenge cutoff => exact unchanged
  | credentialExists pubkey => exact unchanged
  | storeRegistration row salt cutoff => exact allowed.elim
  | storeCredential row challenge => exact allowed.elim
  | storeChallenge row cutoff =>
      unfold answerPasskey answerPasskeyAt
      split
      · exact unchanged
      · refine ⟨⟨?_, ?_, ?_, ?_⟩, fun _ isIssued => List.mem_append_left _ isIssued⟩
        · change ((state.issued ++ [row]).map _).Nodup
          rw [List.map_append, List.map_singleton]
          exact List.nodup_append.mpr ⟨kept.distinct, List.nodup_singleton _, by
            rintro first isFirst second isSecond rfl
            rw [List.mem_singleton] at isSecond
            exact isNew (isSecond ▸ isFirst)⟩
        · intro other held
          rcases List.mem_append.mp held with isOld | isRow
          · exact List.mem_append_left _ (kept.listed other (List.mem_of_mem_filter isOld))
          · exact List.mem_append_right _ isRow
        · intro other held isUsed
          rcases List.mem_append.mp held with isOld | isRow
          · exact kept.unused other (List.mem_of_mem_filter isOld) isUsed
          · rw [List.mem_singleton.mp isRow] at isUsed
            exact isNew (kept.used _ isUsed)
        · intro challenge isUsed
          change challenge ∈ (state.issued ++ [row]).map _
          rw [List.map_append]
          exact List.mem_append_left _ (kept.used challenge isUsed)
  | acceptLogin login =>
      unfold answerPasskey answerPasskeyAt
      split
      · exact unchanged
      · rename_i succeeds
        obtain ⟨⟨row, held, isRow, -⟩, -⟩ := undisturbed (Bool.not_eq_true _ ▸ succeeds)
        refine ⟨⟨kept.distinct, ?_, ?_, ?_⟩, fun _ isIssued => isIssued⟩
        · intro other isHeld
          exact kept.listed other (List.mem_of_mem_filter isHeld)
        · intro other isHeld isUsed
          obtain ⟨before, isOther⟩ := List.mem_filter.mp isHeld
          rcases List.mem_append.mp isUsed with isOld | isNow
          · exact kept.unused other before isOld
          · exact of_decide_eq_true isOther (List.mem_singleton.mp isNow)
        · intro challenge isUsed
          rcases List.mem_append.mp isUsed with isOld | isNow
          · exact kept.used challenge isOld
          · rw [List.mem_singleton.mp isNow, ← isRow]
            exact List.mem_map_of_mem (kept.listed row held)

/-- What was issued stays issued, so what was found stays issued. -/
theorem FoundIssued.mono
    {later : PasskeyState}
    {event : PasskeyEvent}
    (found : FoundIssued state event)
    (remains : ∀ row ∈ state.issued, row ∈ later.issued) :
    FoundIssued later event := by
  obtain ⟨op, choice, answer⟩ := event
  cases op
  case checkChallenge challenge cutoff pubkey =>
    intro isFound
    obtain ⟨row, isIssued, named⟩ := found isFound
    exact ⟨row, remains row isIssued, named⟩
  all_goals trivial

/-- What a request reads of a challenge was issued. -/
theorem foundIssued_answer
    (kept : ChallengesKept state)
    (op : PasskeyOp) :
    FoundIssued (answerPasskey state choice op).1 ⟨op, choice, (answerPasskey state choice op).2⟩ := by
  cases op
  case checkChallenge challenge cutoff pubkey =>
    intro isFound
    unfold answerPasskey answerPasskeyAt at isFound
    dsimp only at isFound
    split at isFound
    · cases isFound
    · exact issuedFor_of_hasChallenge kept (Option.some.inj isFound)
  all_goals trivial

/-- A login that is accepted has a counter above those of its pubkey, or they are zero. -/
theorem counters_of_undisturbed
    {login : Login}
    (allowed : AcceptsChecked past (.acceptLogin login))
    (undisturbed : Undisturbed state past choice (.acceptLogin login))
    (succeeds : choice.fails = false)
    {row : CredentialRow}
    (held : row ∈ state.credentials)
    (isOwn : row.pubkey = login.pubkey) :
    row.counter = 0 ∨ row.counter < login.counter := by
  obtain ⟨-, notOvertaken, zeroOverZero⟩ := undisturbed succeeds
  by_cases isZero : login.counter = 0
  · exact .inl (zeroOverZero isZero row held isOwn)
  · right
    obtain ⟨⟨readChoice, read, isRead, -, isBelow⟩, -⟩ := allowed
    rcases notOvertaken _ isRead read rfl row held isOwn with notAbove | below
    · exact UInt32.lt_of_le_of_lt notAbove (isBelow isZero)
    · exact below

end Kept

section Claim

variable {env : PasskeyEnv}

/-- New challenges, and logins that nothing has disturbed. -/
def DrawsAndAccepts (state : PasskeyState) (past : List PasskeyEvent) (choice : PasskeyChoice)
    (op : PasskeyOp) : Prop :=
  DrawsNew state past choice op ∧ Undisturbed state past choice op

theorem logins_kept
    (env : PasskeyEnv) :
    Pool.KeptBy (handleLogin env) answerPasskey (fun _ => AcceptsChecked) DrawsAndAccepts
      LoginsKept where
  started := by
    intro pool request kept
    refine ⟨kept.tables, ?_⟩
    intro task member event isPast
    rcases List.mem_append.mp member with isOld | isNew
    · exact kept.found task isOld event isPast
    · rw [List.mem_singleton.mp isNew] at isPast
      cases isPast
  performed := by
    intro pool index choice task op next kept found isRest allowed meets
    obtain ⟨tables, remains⟩ := kept.tables.answer allowed meets.1 meets.2
    refine ⟨tables, ?_⟩
    intro other member event isPast
    rcases List.mem_or_eq_of_mem_set member with isOld | isNew
    · exact (kept.found other isOld event isPast).mono remains
    · rw [isNew] at isPast
      rcases List.mem_append.mp isPast with isEarlier | isNow
      · exact (kept.found task (List.mem_of_getElem? found) event isEarlier).mono remains
      · rw [List.mem_singleton.mp isNow]
        exact foundIssued_answer kept.tables op

/-- An undisturbed login is fresh. -/
theorem LoginsKept.acceptsFresh
    {pool : LoginPool}
    (kept : LoginsKept pool)
    {past : List PasskeyEvent}
    {choice : PasskeyChoice}
    {op : PasskeyOp}
    (found : ∀ event ∈ past, FoundIssued pool.state event)
    (allowed : AcceptsChecked past op)
    (undisturbed : Undisturbed pool.state past choice op) :
    AcceptsFresh pool.state past choice op := by
  cases op
  case acceptLogin login =>
    intro succeeds
    obtain ⟨⟨row, held, isRow, inTime⟩, -⟩ := undisturbed succeeds
    constructor
    case once =>
      rw [← isRow]
      exact kept.tables.unused row held
    case issued =>
      obtain ⟨-, checkChoice, cutoff, isChecked⟩ := allowed
      obtain ⟨issue, isIssued, isIssue, isFor⟩ := found _ isChecked rfl
      have same : issue = row :=
        List.inj_on_of_nodup_map kept.tables.distinct isIssued (kept.tables.listed row held)
          (isIssue.trans isRow.symm)
      rw [same] at isIssued isFor
      exact ⟨row, isIssued, isRow, inTime, isFor⟩
    case forward =>
      intro credential isHeld isOwn _ notZero
      rcases counters_of_undisturbed allowed undisturbed succeeds isHeld isOwn with isZero | below
      · exact absurd isZero notZero
      · exact below
  all_goals trivial

theorem countersBelow_refl (state : PasskeyState) : CountersBelow state state :=
  fun _ row found => ⟨row, found, rfl, UInt32.le_refl _⟩

theorem countersBelow_trans
    (first second third : PasskeyState)
    (below : CountersBelow first second)
    (above : CountersBelow second third) :
    CountersBelow first third := by
  intro index row found
  obtain ⟨later, isLater, sameId, upTo⟩ := below index row found
  obtain ⟨last, isLast, lastId, further⟩ := above index later isLater
  exact ⟨last, isLast, lastId.trans sameId, UInt32.le_trans upTo further⟩

/-- Statements of logins leave the credentials as they are, but for one that is accepted. -/
theorem countersBelow_answer
    {state : PasskeyState}
    {past : List PasskeyEvent}
    {choice : PasskeyChoice}
    {op : PasskeyOp}
    (allowed : AcceptsChecked past op)
    (undisturbed : Undisturbed state past choice op) :
    CountersBelow state (answerPasskey state choice op).1 := by
  cases op
  case storeRegistration row salt cutoff => exact allowed.elim
  case storeCredential row challenge => exact allowed.elim
  case storeChallenge row cutoff =>
    unfold answerPasskey answerPasskeyAt
    split <;> exact countersBelow_refl state
  case acceptLogin login =>
    unfold answerPasskey answerPasskeyAt
    split
    · exact countersBelow_refl state
    · rename_i succeeds
      intro index row found
      refine ⟨if row.pubkey = login.pubkey then { row with counter := login.counter } else row,
        ?_, ?_, ?_⟩
      · change (state.credentials.map _)[index]? = _
        rw [List.getElem?_map, found]
        rfl
      · split <;> rfl
      · split
        · rename_i isOwn
          rcases counters_of_undisturbed allowed undisturbed (Bool.not_eq_true _ ▸ succeeds)
            (List.mem_of_getElem? found) isOwn with isZero | below
          · rw [isZero]
            exact UInt32.zero_le
          · exact UInt32.le_of_lt below
        · exact UInt32.le_refl _
  all_goals exact countersBelow_refl state

/-- On every run from tables with distinct challenges, if new challenges are distinct and
nothing disturbs a login, every accepted login is fresh and no counter ever goes down. -/
theorem logins_fresh
    (env : PasskeyEnv)
    (clock : Nat)
    (challenges : List ChallengeRow)
    (salts : Lib.Table SaltRow SaltRow.challenge)
    (credentials : List CredentialRow)
    (moves : List LoginMove)
    (distinct : (challenges.map ChallengeRow.challenge).Nodup)
    (draws : Lib.Along (stepLogins env) (Pool.PerformsAfter DrawsNew)
      (Pool.idle (.start clock challenges salts credentials)) moves)
    (undisturbed : Lib.Along (stepLogins env) (Pool.PerformsAfter Undisturbed)
      (Pool.idle (.start clock challenges salts credentials)) moves) :
    Lib.Along (stepLogins env) (Pool.PerformsAfter AcceptsFresh)
        (Pool.idle (.start clock challenges salts credentials)) moves ∧
      ∀ earlier later, earlier <+: later → later <+: moves →
        CountersBelow
          (Lib.run (stepLogins env) (Pool.idle (.start clock challenges salts credentials))
            earlier).state
          (Lib.run (stepLogins env) (Pool.idle (.start clock challenges salts credentials))
            later).state := by
  have initially : LoginsKept (Pool.idle (.start clock challenges salts credentials)) :=
    ⟨⟨distinct, fun _ held => held, fun _ _ => List.not_mem_nil, nofun⟩, nofun⟩
  have both : Lib.Along (stepLogins env) (Pool.PerformsAfter DrawsAndAccepts)
      (Pool.idle (.start clock challenges salts credentials)) moves :=
    (draws.and undisturbed).mono fun _ _ meets => meets.1.and meets.2
  constructor
  · refine (logins_kept env).along handleLogin_acceptsChecked ?_ initially both
    intro pool task choice op kept member allowed meets
    exact kept.acceptsFresh (kept.found task member) allowed meets.2
  · intro earlier later isEarlier isLater
    refine Pool.ordered_of_performsAfter countersBelow_refl countersBelow_trans ?_ isEarlier isLater
    refine (logins_kept env).along handleLogin_acceptsChecked ?_ initially both
    intro pool task choice op _ _ allowed meets
    exact countersBelow_answer allowed meets.2

end Claim

/-! ## A login, and two with one challenge -/

namespace SampleLogin

def pubkey : String := String.ofList (List.replicate 64 'a')

def credential : CredentialRow := ⟨pubkey, "passkey", "cose", some "salt", 5, 0⟩

/-- An assertion by the passkey with a counter of seven. -/
def env : PasskeyEnv where
  rpId := some "forum"
  expectedOrigin := some "https://forum"
  base64urlDecode text :=
    if text = "authenticator" then some (List.replicate 32 0 ++ [5, 0, 0, 0, 7]) else some []
  parseClientData _ := some ⟨some "webauthn.get", some "challenge", some "https://forum", none⟩
  sha256 _ := List.replicate 32 0
  verifyAssertion _ _ _ := .verified
  deterministicSaltFor _ := "salt"

def verify : LoginRequest :=
  .verify ⟨.signedBy pubkey, some ⟨some pubkey, some ⟨some "passkey",
    some ⟨some "client", some "authenticator", some "signature"⟩⟩⟩⟩

def advance (index : Nat) : LoginMove := .advance index ⟨1, false⟩

/-- A challenge is issued, and a login checks it. -/
def checked : List LoginMove :=
  .start (.options ⟨some pubkey, "challenge"⟩) :: List.replicate 3 (advance 0) ++
    .start verify :: List.replicate 3 (advance 1)

/-- Another login checks it too, and both are accepted. -/
def acceptedTwice : List LoginMove :=
  checked ++ .start verify :: List.replicate 3 (advance 2) ++ [advance 1, advance 2]

end SampleLogin

open SampleLogin in
theorem logins_fresh_once :
    Lib.Along (stepLogins env) (Pool.PerformsAfter AcceptsFresh)
        (Pool.idle (.start 0 [] Lib.Table.empty [credential])) (checked ++ [advance 1]) ∧
      ∀ earlier later, earlier <+: later → later <+: checked ++ [advance 1] →
        CountersBelow
          (Lib.run (stepLogins env) (Pool.idle (.start 0 [] Lib.Table.empty [credential]))
            earlier).state
          (Lib.run (stepLogins env) (Pool.idle (.start 0 [] Lib.Table.empty [credential]))
            later).state :=
  logins_fresh env 0 [] Lib.Table.empty [credential] (checked ++ [advance 1]) (by decide)
    (by unfold stepLogins; decide +kernel) (by unfold stepLogins; decide +kernel)

open SampleLogin in
/-- Two logins that check one challenge at once are both accepted. -/
theorem logins_share_challenge :
    ¬ ∀ (env : PasskeyEnv) (clock : Nat) (challenges : List ChallengeRow)
        (salts : Lib.Table SaltRow SaltRow.challenge) (credentials : List CredentialRow)
        (moves : List LoginMove),
      (challenges.map ChallengeRow.challenge).Nodup →
        Lib.Along (stepLogins env) (Pool.PerformsAfter DrawsNew)
            (Pool.idle (.start clock challenges salts credentials)) moves →
          Lib.Along (stepLogins env) (Pool.PerformsAfter AcceptsFresh)
            (Pool.idle (.start clock challenges salts credentials)) moves := by
  intro always
  have twice := always env 0 [] Lib.Table.empty [credential] acceptedTwice (by decide)
    (by unfold stepLogins; decide +kernel)
  revert twice
  unfold stepLogins
  decide +kernel

end Auth
end NostrBbs
