import NostrBbs.Auth.Registration

/-!
# One passkey for one key

A registration challenge stores one credential, with its own salt, and a login challenge none,
on every run.  That each pubkey has one credential, stored in time, and that a refused
registration leaves the books as they were, holds on the runs whose batches still find what
was checked before them.
-/

namespace NostrBbs
namespace Auth

open Lib (Pool Program)

/-! ## The books -/

/-- Credentials, and the uses and redeemers of all invites, are as they were. -/
def SameBooks (first second : RegistrationState) : Prop :=
  second.passkeys.credentials = first.passkeys.credentials ∧
    (second.invites.invitations.table.rows.map fun row => (row.id, row.uses)) =
      (first.invites.invitations.table.rows.map fun row => (row.id, row.uses)) ∧
    second.invites.redemptions = first.invites.redemptions

/-- A statement with such an answer leaves the books as they were, in whatever state. -/
def Leaves (event : RegistrationEvent) : Prop :=
  ∀ state, (answerRegistration state event.choice event.op).2 = event.answer →
    SameBooks state (answerRegistration state event.choice event.op).1

/-- What an invite's statement answers when it takes a use or enters a redeemer. -/
def takesUse : (op : InviteOp) → op.Answer → Bool
  | .incrementUses _ _, changed =>
      match (changed : Except String Nat) with
      | .ok count => count = 1
      | .error _ => false
  | .insertRedemption _, inserted => inserted
  | .insertInvite _, _ => true
  | _, _ => false

/-- What a statement answers when it touches the books. -/
def touches : (op : RegistrationOp) → op.Answer → Bool
  | .passkey (.storeCredential _ _), stored => (stored : Option Bool) = some true
  | .passkey (.acceptLogin _), _ => true
  | .passkey _, _ => false
  | .invite op, answer => takesUse op answer
  | .selectWotSettings, _ => false
  | .selectWotEntry _, _ => false

/-- A statement did not touch the books. -/
def Spares (event : RegistrationEvent) : Prop :=
  touches event.op event.answer = false

instance (event : RegistrationEvent) : Decidable (Spares event) :=
  inferInstanceAs (Decidable (_ = _))

/-- An increment that changes no row leaves all invites as they are. -/
theorem incrementUses_of_not_one
    {invitations : Invitations}
    {inviteId : String}
    {now : Int}
    (notOne : invitations.incremented inviteId now ≠ 1) :
    ((invitations.incrementUses inviteId now).table.rows.map fun row => (row.id, row.uses)) =
      invitations.table.rows.map fun row => (row.id, row.uses) := by
  have none : ∀ row ∈ invitations.table.rows, Invitations.takesUse inviteId now row = false := by
    intro row held
    rw [Bool.eq_false_iff]
    intro taken
    have isId : ∀ other, Invitations.takesUse inviteId now other → other.key = row.key := by
      intro other otherTaken
      simp only [Invitations.takesUse, Bool.and_eq_true, decide_eq_true_eq] at taken otherTaken
      exact otherTaken.1.1.1.trans taken.1.1.1.symm
    exact notOne (invitations.table.countWhere_eq_one (Lib.Table.find?_of_mem held) taken isId)
  have same := Lib.Table.updateWhere_of_none
    (fun row : InviteRow => { row with uses := row.uses + 1 }) (fun _ => rfl) none
  unfold Invitations.incrementUses Invitations.update
  dsimp only
  rw [same]

/-- A statement of the invites that neither takes a use nor enters a redeemer leaves both. -/
theorem books_of_not_takesUse
    {db : InviteDb}
    {choice : InviteChoice}
    {op : InviteOp}
    (notTaken : takesUse op (answerInvite db choice op).2 = false) :
    ((answerInvite db choice op).1.invitations.table.rows.map fun row => (row.id, row.uses)) =
        (db.invitations.table.rows.map fun row => (row.id, row.uses)) ∧
      (answerInvite db choice op).1.redemptions = db.redemptions := by
  cases op
  case insertInvite row => cases notTaken
  case incrementUses inviteId now =>
    cases failed : choice.failure with
    | some reason =>
        simp only [answerInvite, failed]
        exact ⟨trivial, trivial⟩
    | none =>
        simp only [takesUse, answerInvite, failed, decide_eq_false_iff_not] at notTaken ⊢
        exact ⟨incrementUses_of_not_one notTaken, trivial⟩
  case insertRedemption row =>
    cases failed : choice.failure with
    | some reason =>
        simp only [answerInvite, failed]
        exact ⟨trivial, trivial⟩
    | none =>
        simp only [takesUse, answerInvite, failed] at notTaken ⊢
        cases inserted : db.redemptions.insert row with
        | none => exact ⟨rfl, rfl⟩
        | some redemptions =>
            rw [inserted] at notTaken
            cases notTaken
  case upsertMember pubkey inviteId now =>
    cases failed : choice.failure <;> simp only [answerInvite, failed, and_self]
  case revokeInvite now caller inviteId =>
    cases failed : choice.failure with
    | some reason =>
        simp only [answerInvite, failed]
        exact ⟨trivial, trivial⟩
    | none =>
        simp only [answerInvite, failed, Invitations.revoke, Invitations.update, and_true]
        apply Lib.Table.map_updateWhere
        exact fun _ => rfl
  all_goals exact ⟨rfl, rfl⟩

/-- The batch of a registration that stores nothing leaves the credentials. -/
theorem credentials_of_not_stored
    {state : PasskeyState}
    {fails : Bool}
    {row : CredentialRow}
    {challenge : String}
    (notStored : (answerPasskeyAt state fails (.storeCredential row challenge)).2 ≠ some true) :
    (answerPasskeyAt state fails (.storeCredential row challenge)).1.credentials =
      state.credentials := by
  unfold answerPasskeyAt at notStored ⊢
  dsimp only at notStored ⊢
  split
  · rfl
  · rename_i succeeds
    rw [if_neg succeeds] at notStored
    exact if_neg fun holds => notStored (congrArg some holds)

/-- A statement that did not touch the books leaves them as they were. -/
theorem Spares.leaves
    {event : RegistrationEvent}
    (spares : Spares event) :
    Leaves event := by
  obtain ⟨op, choice, answer⟩ := event
  intro state isAnswer
  dsimp only at isAnswer
  unfold Spares at spares
  dsimp only at spares
  rw [← isAnswer] at spares
  have untouched : ∀ later, later.passkeys.credentials = state.passkeys.credentials →
      later.invites = state.invites → SameBooks state later := by
    intro later sameCredentials sameInvites
    unfold SameBooks
    rw [sameCredentials, sameInvites]
    exact ⟨rfl, rfl, rfl⟩
  cases op with
  | selectWotSettings => exact untouched _ rfl rfl
  | selectWotEntry pubkey => exact untouched _ rfl rfl
  | passkey op =>
      refine untouched _ ?_ rfl
      change (answerPasskey state.passkeys choice.passkey op).1.credentials = _
      cases op
      case acceptLogin login => cases spares
      case storeChallenge row cutoff =>
        unfold answerPasskey answerPasskeyAt
        split <;> rfl
      case storeRegistration row salt cutoff =>
        unfold answerPasskey answerPasskeyAt
        split
        · rfl
        · dsimp only
          split
          · rename_i stored isStored
            obtain ⟨salts, -, rfl⟩ := Option.map_eq_some_iff.mp isStored
            rfl
          · rfl
      case storeCredential row challenge =>
        exact credentials_of_not_stored (of_decide_eq_false spares)
      all_goals rfl
  | invite op =>
      obtain ⟨sameUses, sameRedeemers⟩ := books_of_not_takesUse spares
      exact ⟨rfl, sameUses, sameRedeemers⟩

/-! ## What a request does -/

/-- The batch of a registration. -/
def RegistrationOp.isStore : RegistrationOp → Bool
  | passkey (.storeCredential _ _) => true
  | _ => false

/-- The batch of a login. -/
def RegistrationOp.isAcceptLogin : RegistrationOp → Bool
  | passkey (.acceptLogin _) => true
  | _ => false

/-- A statement is none of the two batches that write credentials. -/
def Plain (op : RegistrationOp) : Prop :=
  op.isStore = false ∧ op.isAcceptLogin = false

/-- The batch of a registration is the last statement of its request, and there are no
logins. -/
def StoresLast (past : List RegistrationEvent) (op : RegistrationOp) : Prop :=
  (∀ event ∈ past, Plain event.op) ∧ op.isAcceptLogin = false

/-- A refused registration spared the books, or tried to store a credential and did not. -/
def SparesOrTries (past : List RegistrationEvent) (reply : RegistrationReply) : Prop :=
  (∃ pubkey credentialId, reply = .passkey (.registered pubkey credentialId)) ∨
    (∀ event ∈ past, Spares event) ∨ ∃ event ∈ past, event.op.isStore ∧ Spares event

section Programs

variable {env : RegistrationEnv} {past : List RegistrationEvent}

theorem follows_of_plain
    {Result : Type}
    {program : RegistrationProgram Result}
    (plain : program.Always Plain)
    (before : ∀ event ∈ past, Plain event.op) :
    program.Follows (fun past op => StoresLast past op) past :=
  (plain.follows_events before).mono fun _ _ allowed => ⟨allowed.1, allowed.2.2⟩

theorem plain_nil : ∀ event ∈ ([] : List RegistrationEvent), Plain event.op := by
  rintro event ⟨⟩

theorem spares_nil : ∀ event ∈ ([] : List RegistrationEvent), Spares event := by
  rintro event ⟨⟩

theorem plain_append
    (before : ∀ event ∈ past, Plain event.op)
    {event : RegistrationEvent}
    (plain : Plain event.op) :
    ∀ other ∈ past ++ [event], Plain other.op := by
  intro other member
  rcases List.mem_append.mp member with isOld | isNew
  · exact before other isOld
  · rw [List.mem_singleton.mp isNew]
    exact plain

theorem spares_append
    (before : ∀ event ∈ past, Spares event)
    {event : RegistrationEvent}
    (spares : Spares event) :
    ∀ other ∈ past ++ [event], Spares other := by
  intro other member
  rcases List.mem_append.mp member with isOld | isNew
  · exact before other isOld
  · rw [List.mem_singleton.mp isNew]
    exact spares

theorem plain_invite
    {Result : Type}
    (program : InviteProgram Result) :
    (program.embed RegistrationOp.invite fun _ answer => answer :
      RegistrationProgram Result).Always Plain :=
  Program.always_embed (Program.always_true program) fun _ _ => ⟨rfl, rfl⟩

theorem plain_isAllowedByWot
    (pubkey : String) :
    (isAllowedByWot pubkey).Always Plain := by
  unfold isAllowedByWot
  refine Program.always_call ⟨rfl, rfl⟩ ?_
  rintro (_ | wotEnabled)
  · trivial
  · dsimp only
    split
    · trivial
    · exact Program.always_call ⟨rfl, rfl⟩ fun _ => trivial

theorem plain_registrationGate
    (zones : List Whitelist.ZoneMeta)
    (pubkey : String)
    (inviteCode : Option String) :
    (registrationGate zones pubkey inviteCode).Always Plain := by
  unfold registrationGate
  refine Program.always_bind (plain_isAllowedByWot pubkey) ?_
  rintro (_ | _ | _)
  · trivial
  · cases inviteCode with
    | none => trivial
    | some code =>
        refine Program.always_bind (plain_invite _) ?_
        intro outcome
        split <;> trivial
  · trivial

/-- An invite that a registration does not get spares the books. -/
theorem consume_yields
    (zones : List Whitelist.ZoneMeta)
    (code redeemer : String) :
    (consumeForRegistration zones code redeemer).Yields
      (fun (past : List InviteEvent) reply => reply ≠ .consumed →
        ∀ event ∈ past, takesUse event.op event.answer = false) [] := by
  unfold consumeForRegistration consume
  split
  · exact Program.yields_done fun _ _ isEvent => absurd isEvent List.not_mem_nil
  · refine Program.yields_call ?_
    rintro choice ⟨selected, now⟩
    dsimp only [onInvite]
    cases selected with
    | none => exact Program.yields_done fun _ => by simp [takesUse]
    | some row =>
        dsimp only
        split
        · exact Program.yields_done fun _ => by simp [takesUse]
        · exact Program.yields_done fun _ => by simp [takesUse]
        · exact Program.yields_done fun _ => by simp [takesUse]
        · split
          · exact Program.yields_done fun _ => by simp [takesUse]
          · unfold takeUse
            refine Program.yields_call ?_
            intro countChoice already
            split
            · exact Program.yields_done fun refused => absurd rfl refused
            · refine Program.yields_call ?_
              rintro useChoice (reason | changed)
              · exact Program.yields_done fun _ => by simp [takesUse]
              · dsimp only
                split
                · rename_i notOne
                  exact Program.yields_done fun _ => by simp [takesUse, notOne]
                · unfold admitRedeemer
                  refine Program.yields_call ?_
                  intro redemptionChoice inserted
                  refine Program.yields_call ?_
                  intro memberChoice upserted
                  refine (Program.yields_past _).bind ?_
                  intro more granted _
                  exact Program.yields_done fun refused => absurd rfl refused

/-- The same, as a part of a registration. -/
theorem consume_embed_yields
    (zones : List Whitelist.ZoneMeta)
    (code redeemer : String)
    (before : ∀ event ∈ past, Spares event) :
    ((consumeForRegistration zones code redeemer).embed RegistrationOp.invite
      fun _ answer => answer : RegistrationProgram InviteReply).Yields
        (fun past reply => reply ≠ .consumed → ∀ event ∈ past, Spares event) past := by
  have goesOn : ∀ (narrow : List InviteEvent) (wide : List RegistrationEvent) (op : InviteOp)
      (choice : RegistrationChoice) (answer : op.Answer),
      ((∀ event ∈ narrow, takesUse event.op event.answer = false) →
        ∀ event ∈ wide, Spares event) →
      (∀ event ∈ narrow ++ [⟨op, ⟨choice.failure, 0⟩, answer⟩],
        takesUse event.op event.answer = false) →
      ∀ event ∈ wide ++ [(⟨.invite op, choice, answer⟩ : RegistrationEvent)], Spares event := by
    intro narrow wide op choice answer related notTaken
    refine spares_append (related fun event isNarrow =>
      notTaken event (List.mem_append_left _ isNarrow)) ?_
    exact notTaken _ (List.mem_append_right _ (List.mem_singleton_self _))
  exact (consume_yields zones code redeemer).embed
    (fun choice : RegistrationChoice => ⟨choice.failure, 0⟩) goesOn
    (fun _ _ _ related notTaken refused => related (notTaken refused)) fun _ => before

theorem isAllowedByWot_yields
    (pubkey : String)
    (before : ∀ event ∈ past, Spares event) :
    (isAllowedByWot pubkey).Yields (fun past _ => ∀ event ∈ past, Spares event) past := by
  unfold isAllowedByWot
  refine Program.yields_call ?_
  intro choice settings
  have first : ∀ event ∈ past ++
      [(⟨.selectWotSettings, choice, settings⟩ : RegistrationEvent)], Spares event :=
    spares_append before rfl
  cases settings with
  | none => exact Program.yields_done first
  | some wotEnabled =>
      dsimp only
      split
      · exact Program.yields_done first
      · refine Program.yields_call ?_
        intro entryChoice entry
        exact Program.yields_done (spares_append first rfl)

/-- A gate that refuses spares the books. -/
theorem registrationGate_yields
    (zones : List Whitelist.ZoneMeta)
    (pubkey : String)
    (inviteCode : Option String)
    (before : ∀ event ∈ past, Spares event) :
    (registrationGate zones pubkey inviteCode).Yields
      (fun past refused => refused ≠ none → ∀ event ∈ past, Spares event) past := by
  unfold registrationGate
  refine (isAllowedByWot_yields pubkey before).bind ?_
  rintro more (_ | _ | _) spares
  · exact Program.yields_done fun _ => spares
  · cases inviteCode with
    | none => exact Program.yields_done fun _ => spares
    | some code =>
        refine (consume_embed_yields zones code pubkey spares).bind ?_
        intro moreEvents outcome spares
        split
        · exact Program.yields_done fun refused => absurd rfl refused
        · rename_i notConsumed
          exact Program.yields_done fun _ => spares notConsumed
  · exact Program.yields_done fun refused => absurd rfl refused

theorem storeCredential_follows
    (before : ∀ event ∈ past, Plain event.op)
    (row : CredentialRow)
    (challenge : String) :
    (storeCredential row challenge).Follows StoresLast past := by
  refine Program.follows_call ⟨before, rfl⟩ ?_
  rintro choice (_ | _ | _) <;> exact Program.follows_done _

theorem storeCredential_yields
    (row : CredentialRow)
    (challenge : String) :
    (storeCredential row challenge).Yields SparesOrTries past := by
  refine Program.yields_call ?_
  have tried : ∀ (choice : RegistrationChoice) (stored : Option Bool), stored ≠ some true →
      ∃ event ∈ past ++ [(⟨.passkey (.storeCredential row challenge), choice, stored⟩ :
        RegistrationEvent)], event.op.isStore ∧ Spares event := by
    intro choice stored notStored
    exact ⟨_, List.mem_append_right _ (List.mem_singleton_self _), rfl,
      decide_eq_false notStored⟩
  rintro choice (_ | _ | _)
  · exact Program.yields_done (.inr (.inr (tried choice none nofun)))
  · exact Program.yields_done (.inr (.inr (tried choice (some false) nofun)))
  · exact Program.yields_done (.inl ⟨row.pubkey, row.credentialId, rfl⟩)

variable {zones : List Whitelist.ZoneMeta}

theorem admitRegistration_follows
    (before : ∀ event ∈ past, Plain event.op)
    (row : CredentialRow)
    (challenge : String)
    (inviteCode : Option String) :
    (admitRegistration zones row challenge inviteCode).Follows StoresLast past := by
  refine Program.follows_call ⟨before, rfl⟩ ?_
  intro choice existing
  have asked : ∀ event ∈ past ++ [(⟨.passkey (.credentialExists row.pubkey), choice, existing⟩ :
      RegistrationEvent)], Plain event.op :=
    plain_append before ⟨rfl, rfl⟩
  rcases existing with _ | _ | _
  · exact Program.follows_done _
  · have gate := plain_registrationGate zones row.pubkey inviteCode
    refine (follows_of_plain gate asked).bind_of_always gate ?_
    rintro (_ | reply) more morePlain
    · refine storeCredential_follows ?_ row challenge
      intro event member
      rcases List.mem_append.mp member with isOld | isNew
      · exact asked event isOld
      · exact morePlain event isNew
    · exact Program.follows_done _
  · exact Program.follows_done _

theorem admitRegistration_yields
    (before : ∀ event ∈ past, Spares event)
    (row : CredentialRow)
    (challenge : String)
    (inviteCode : Option String) :
    (admitRegistration zones row challenge inviteCode).Yields SparesOrTries past := by
  refine Program.yields_call ?_
  intro choice existing
  have asked : ∀ event ∈ past ++ [(⟨.passkey (.credentialExists row.pubkey), choice, existing⟩ :
      RegistrationEvent)], Spares event :=
    spares_append before rfl
  rcases existing with _ | _ | _
  · exact Program.yields_done (.inr (.inl asked))
  · refine (registrationGate_yields zones row.pubkey inviteCode asked).bind ?_
    rintro more (_ | reply) spares
    · exact storeCredential_yields row challenge
    · exact Program.yields_done (.inr (.inl (spares nofun)))
  · exact Program.yields_done (.inr (.inl asked))

/-- The reads before an attestation is looked at. -/
theorem spares_reads
    (clockChoice choice : RegistrationChoice)
    (now : Nat)
    (challenge : String)
    (cutoff : Nat)
    (salt : Option (Option String)) :
    ∀ event ∈ [] ++ [(⟨.passkey .now, clockChoice, now⟩ : RegistrationEvent)] ++
      [(⟨.passkey (.selectRegistrationSalt challenge cutoff), choice, salt⟩ : RegistrationEvent)],
        Spares event := by
  have first : ∀ event ∈ [] ++ [(⟨.passkey .now, clockChoice, now⟩ : RegistrationEvent)],
      Spares event :=
    spares_append spares_nil rfl
  exact spares_append first rfl

/-- A verification reads the clock and the salt, and then goes on or refuses. -/
theorem registerVerify_follows
    (request : RegisterVerifyRequest) :
    (registerVerify env.passkeys env.attestations zones request).Follows StoresLast [] := by
  unfold registerVerify
  split
  · exact Program.follows_done _
  · split
    · exact Program.follows_done _
    · split
      · exact Program.follows_done _
      · exact Program.follows_done _
      · split
        · exact Program.follows_done _
        · unfold registerWith
          split
          · exact Program.follows_done _
          · refine Program.follows_call ⟨plain_nil, rfl⟩ ?_
            intro clockChoice now
            refine Program.follows_call ⟨plain_append plain_nil ⟨rfl, rfl⟩, rfl⟩ ?_
            rintro choice (_ | _ | prfSalt)
            · exact Program.follows_done _
            · exact Program.follows_done _
            · dsimp only
              split
              · exact Program.follows_done _
              · exact admitRegistration_follows
                  (plain_append (plain_append plain_nil ⟨rfl, rfl⟩) ⟨rfl, rfl⟩) _ _ _

theorem registerVerify_yields
    (request : RegisterVerifyRequest) :
    (registerVerify env.passkeys env.attestations zones request).Yields SparesOrTries [] := by
  unfold registerVerify
  split
  · exact Program.yields_done (.inr (.inl spares_nil))
  · split
    · exact Program.yields_done (.inr (.inl spares_nil))
    · split
      · exact Program.yields_done (.inr (.inl spares_nil))
      · exact Program.yields_done (.inr (.inl spares_nil))
      · split
        · exact Program.yields_done (.inr (.inl spares_nil))
        · unfold registerWith
          split
          · exact Program.yields_done (.inr (.inl spares_nil))
          · refine Program.yields_call ?_
            intro clockChoice now
            refine Program.yields_call ?_
            intro choice salt
            rcases salt with _ | _ | prfSalt
            · exact Program.yields_done
                (.inr (.inl (spares_reads _ _ _ _ _ _)))
            · exact Program.yields_done
                (.inr (.inl (spares_reads _ _ _ _ _ _)))
            · dsimp only
              split
              · exact Program.yields_done
                  (.inr (.inl (spares_reads _ _ _ _ _ _)))
              · exact admitRegistration_yields (spares_reads _ _ _ _ _ _) _ _ _

/-- Options of either ceremony perform no batch that writes credentials. -/
theorem plain_ceremony
    {program : PasskeyProgram PasskeyReply}
    (plain : program.Always fun op => Plain (.passkey op)) :
    (ceremony program).Always Plain :=
  Program.always_bind (Program.always_embed plain fun _ isPlain => isPlain) fun _ => trivial

theorem plain_registerOptions
    (request : RegisterOptionsRequest) :
    (registerOptions env.passkeys request).Always fun op => Plain (.passkey op) := by
  refine Program.always_call ⟨rfl, rfl⟩ ?_
  intro now
  refine Program.always_call ⟨rfl, rfl⟩ ?_
  rintro (_ | _)
  · trivial
  · dsimp only
    split <;> trivial

theorem plain_loginOptions
    (request : LoginOptionsRequest) :
    (loginOptions env.passkeys request).Always fun op => Plain (.passkey op) := by
  have salt : (loginSalt env.passkeys request.pubkey).Always fun op => Plain (.passkey op) := by
    unfold loginSalt
    split
    · trivial
    · refine Program.always_call ⟨rfl, rfl⟩ ?_
      rintro (_ | _ | row) <;> trivial
  refine Program.always_bind salt ?_
  rintro (_ | prfSalt)
  · trivial
  · refine Program.always_call ⟨rfl, rfl⟩ ?_
    intro now
    refine Program.always_call ⟨rfl, rfl⟩ ?_
    rintro (_ | _)
    · trivial
    · dsimp only
      split <;> trivial

theorem handleRegistration_storesLast
    (env : RegistrationEnv)
    (request : RegistrationRequest) :
    (handleRegistration env request).Follows StoresLast [] := by
  cases request with
  | registerOptions request =>
      exact follows_of_plain (plain_ceremony (plain_registerOptions request)) plain_nil
  | loginOptions request =>
      exact follows_of_plain (plain_ceremony (plain_loginOptions request)) plain_nil
  | registerVerify request => exact registerVerify_follows request
  | invite request =>
      exact follows_of_plain (Program.always_bind (plain_invite _) fun _ => trivial) plain_nil

end Programs

/-! ## The claim and its condition -/

/-- A pool of registrations is sound: each challenge stored one credential at most, within five
minutes, with the salt that was issued with it, and was not issued for logins; each pubkey has
one credential; and what is refused has left the books as they were. -/
structure RegistrationsSound (pool : RegistrationPool) : Prop where
  once : (pool.state.passkeys.registered.map Registration.challenge).Nodup
  salted : ∀ stored ∈ pool.state.passkeys.registered, ∃ salt ∈ pool.state.passkeys.saltsIssued,
    salt.challenge = stored.challenge ∧ stored.credential.prfSalt = some salt.prfSalt ∧
      stored.storedAt ≤ salt.createdAt + fiveMinutes
  notForLogin : ∀ stored ∈ pool.state.passkeys.registered,
    stored.challenge ∉ pool.state.passkeys.issued.map ChallengeRow.challenge
  unique : (pool.state.passkeys.credentials.map CredentialRow.pubkey).Nodup
  refused : ∀ task ∈ pool.tasks, ∀ request, task.request = .registerVerify request →
    ∀ reply, task.rest = .done reply →
      (∀ pubkey credentialId, reply ≠ .passkey (.registered pubkey credentialId)) →
        ∀ event ∈ task.past, Leaves event

/-- Challenges are drawn that were not drawn before, for either ceremony. -/
def DrawsApart (state : RegistrationState) (_ : List RegistrationEvent)
    (_ : RegistrationChoice) : RegistrationOp → Prop
  | .passkey (.storeChallenge row _) =>
      row.challenge ∉ state.passkeys.saltsIssued.map SaltRow.challenge
  | .passkey (.storeRegistration _ salt _) =>
      salt.challenge ∉ state.passkeys.saltsIssued.map SaltRow.challenge ∧
        salt.challenge ∉ state.passkeys.issued.map ChallengeRow.challenge
  | _ => True

/-- The batch of a registration runs and finds its salt. -/
def Stores (state : RegistrationState) (choice : RegistrationChoice) (row : CredentialRow)
    (challenge : String) : Prop :=
  choice.failure = none ∧ state.passkeys.holdsSalt row challenge

/-- A batch that stores a credential comes while the pubkey still has none and the salt is not
older than five minutes; one that does not comes where no invite was consumed before. -/
def StillHolds (state : RegistrationState) (past : List RegistrationEvent)
    (choice : RegistrationChoice) : RegistrationOp → Prop
  | .passkey (.storeCredential row challenge) =>
      (Stores state choice row challenge →
        state.passkeys.credentialOf row.pubkey = none ∧
          ∀ salt ∈ state.passkeys.salts.find? challenge,
            state.passkeys.clock + choice.elapsed ≤ salt.createdAt + fiveMinutes) ∧
      (¬ Stores state choice row challenge → ∀ event ∈ past, Spares event)
  | _ => True

section Decidable

variable (state : RegistrationState) (past : List RegistrationEvent)
  (choice : RegistrationChoice)

instance DrawsApart.decidable (op : RegistrationOp) :
    Decidable (DrawsApart state past choice op) :=
  match op with
  | .passkey (.storeChallenge row _) =>
      inferInstanceAs
        (Decidable (row.challenge ∉ state.passkeys.saltsIssued.map SaltRow.challenge))
  | .passkey (.storeRegistration _ salt _) =>
      inferInstanceAs
        (Decidable (salt.challenge ∉ state.passkeys.saltsIssued.map SaltRow.challenge ∧
          salt.challenge ∉ state.passkeys.issued.map ChallengeRow.challenge))
  | .passkey .now | .passkey (.selectSalt ..) | .passkey (.selectCredential ..)
  | .passkey (.checkChallenge ..) | .passkey (.acceptLogin ..)
  | .passkey (.selectRegistrationSalt ..) | .passkey (.credentialExists ..)
  | .passkey (.storeCredential ..) | .invite _ | .selectWotSettings | .selectWotEntry _ =>
      isTrue trivial

instance Stores.decidable (row : CredentialRow) (challenge : String) :
    Decidable (Stores state choice row challenge) :=
  inferInstanceAs
    (Decidable (choice.failure = none ∧ state.passkeys.holdsSalt row challenge = true))

instance StillHolds.decidable (op : RegistrationOp) :
    Decidable (StillHolds state past choice op) :=
  match op with
  | .passkey (.storeCredential row challenge) =>
      inferInstanceAs (Decidable
        ((Stores state choice row challenge →
          state.passkeys.credentialOf row.pubkey = none ∧
            ∀ salt ∈ state.passkeys.salts.find? challenge,
              state.passkeys.clock + choice.elapsed ≤ salt.createdAt + fiveMinutes) ∧
        (¬ Stores state choice row challenge → ∀ event ∈ past, Spares event)))
  | .passkey .now | .passkey (.selectSalt ..) | .passkey (.selectCredential ..)
  | .passkey (.checkChallenge ..) | .passkey (.acceptLogin ..)
  | .passkey (.selectRegistrationSalt ..) | .passkey (.credentialExists ..)
  | .passkey (.storeChallenge ..) | .passkey (.storeRegistration ..) | .invite _
  | .selectWotSettings | .selectWotEntry _ =>
      isTrue trivial

end Decidable

/-! ## What holds of the tables -/

/-- Salts that are stored were issued, under challenges of their own, and those by which
credentials were stored are gone. -/
structure SaltsKept (state : PasskeyState) : Prop where
  distinct : (state.saltsIssued.map SaltRow.challenge).Nodup
  apart : ∀ salt ∈ state.saltsIssued,
    salt.challenge ∉ state.issued.map ChallengeRow.challenge
  listed : ∀ salt ∈ state.salts.rows, salt ∈ state.saltsIssued
  once : (state.registered.map Registration.challenge).Nodup
  spent : ∀ stored ∈ state.registered, ∀ salt ∈ state.salts.rows,
    salt.challenge ≠ stored.challenge
  salted : ∀ stored ∈ state.registered, ∃ salt ∈ state.saltsIssued,
    salt.challenge = stored.challenge ∧ stored.credential.prfSalt = some salt.prfSalt ∧
      stored.storedAt ≤ salt.createdAt + fiveMinutes
  unique : (state.credentials.map CredentialRow.pubkey).Nodup

section Tables

variable {state : PasskeyState}

theorem SaltsKept.storeChallenge
    (kept : SaltsKept state)
    {row : ChallengeRow}
    (apart : row.challenge ∉ state.saltsIssued.map SaltRow.challenge)
    (cutoff : Nat) :
    SaltsKept (state.storeChallenge row cutoff) where
  distinct := kept.distinct
  apart := by
    intro salt isIssued isLogin
    change _ ∈ (state.issued ++ [row]).map _ at isLogin
    rw [List.map_append, List.map_singleton] at isLogin
    rcases List.mem_append.mp isLogin with isOld | isRow
    · exact kept.apart salt isIssued isOld
    · exact apart (List.mem_singleton.mp isRow ▸ List.mem_map_of_mem isIssued)
  listed := kept.listed
  once := kept.once
  spent := kept.spent
  salted := kept.salted
  unique := kept.unique

theorem SaltsKept.storeRegistration
    (kept : SaltsKept state)
    {row : ChallengeRow}
    {salt : SaltRow}
    {cutoff : Nat}
    {stored : PasskeyState}
    (isNew : salt.challenge ∉ state.saltsIssued.map SaltRow.challenge)
    (apart : salt.challenge ∉ state.issued.map ChallengeRow.challenge)
    (isStored : state.storeRegistration row salt cutoff = some stored) :
    SaltsKept stored := by
  obtain ⟨salts, inserted, rfl⟩ := Option.map_eq_some_iff.mp isStored
  have isSalt : ∀ other ∈ salts.rows, other ∈ state.salts.rows ∨ other = salt := by
    intro other held
    rcases (Lib.Table.mem_of_insert inserted).mp held with isOld | isRow
    · exact .inl (Lib.Table.mem_retain.mp isOld).1
    · exact .inr isRow
  constructor
  case distinct =>
    change ((state.saltsIssued ++ [salt]).map _).Nodup
    rw [List.map_append, List.map_singleton]
    refine List.nodup_append.mpr ⟨kept.distinct, List.nodup_singleton _, ?_⟩
    rintro first isFirst second isSecond rfl
    rw [List.mem_singleton] at isSecond
    exact isNew (isSecond ▸ isFirst)
  case apart =>
    intro other isIssued
    rcases List.mem_append.mp isIssued with isOld | isRow
    · exact kept.apart other isOld
    · rw [List.mem_singleton.mp isRow]
      exact apart
  case listed =>
    intro other held
    rcases isSalt other held with isOld | isRow
    · exact List.mem_append_left _ (kept.listed other isOld)
    · exact List.mem_append_right _ (List.mem_singleton.mpr isRow)
  case once => exact kept.once
  case spent =>
    intro registered isRegistered other held
    rcases isSalt other held with isOld | isRow
    · exact kept.spent registered isRegistered other isOld
    · rw [isRow]
      obtain ⟨issued, isIssued, sameChallenge, -⟩ := kept.salted registered isRegistered
      rw [← sameChallenge]
      intro same
      exact isNew (same ▸ List.mem_map_of_mem isIssued)
  case salted =>
    intro registered isRegistered
    obtain ⟨issued, isIssued, named⟩ := kept.salted registered isRegistered
    exact ⟨issued, List.mem_append_left _ isIssued, named⟩
  case unique => exact kept.unique

/-- The batch of a registration, where it stores a credential. -/
theorem SaltsKept.storeCredential
    (kept : SaltsKept state)
    {row : CredentialRow}
    {challenge : String}
    (inTime : state.holdsSalt row challenge → state.credentialOf row.pubkey = none ∧
      ∀ salt ∈ state.salts.find? challenge, state.clock ≤ salt.createdAt + fiveMinutes) :
    SaltsKept (state.storeCredential row challenge) := by
  have isSalt : ∀ other ∈ (state.salts.erase challenge).rows,
      other ∈ state.salts.rows ∧ other.challenge ≠ challenge := by
    intro other held
    obtain ⟨isOld, isOther⟩ := Lib.Table.mem_retain.mp held
    exact ⟨isOld, of_decide_eq_true isOther⟩
  cases holds : state.holdsSalt row challenge with
  | false =>
      unfold PasskeyState.storeCredential
      rw [holds]
      exact ⟨kept.distinct, kept.apart, fun other held => kept.listed other (isSalt other held).1,
        kept.once, fun stored isStored other held =>
          kept.spent stored isStored other (isSalt other held).1,
        kept.salted, kept.unique⟩
  | true =>
      obtain ⟨noCredential, notOld⟩ := inTime holds
      obtain ⟨salt, found, sameSalt⟩ := (Option.any_eq_true _ _).mp holds
      obtain ⟨held, isChallenge⟩ := Lib.Table.find?_eq_some_iff.mp found
      unfold PasskeyState.storeCredential
      rw [holds]
      constructor
      case distinct => exact kept.distinct
      case apart => exact kept.apart
      case listed => exact fun other isHeld => kept.listed other (isSalt other isHeld).1
      case once =>
        change ((state.registered ++ [_]).map _).Nodup
        rw [List.map_append, List.map_singleton]
        refine List.nodup_append.mpr ⟨kept.once, List.nodup_singleton _, ?_⟩
        rintro first isFirst second isSecond rfl
        obtain ⟨stored, isStored, isFirst⟩ := List.mem_map.mp isFirst
        rw [List.mem_singleton] at isSecond
        exact kept.spent stored isStored salt held
          (isChallenge.trans (isFirst.trans isSecond).symm)
      case spent =>
        intro stored isStored other isHeld
        rcases List.mem_append.mp isStored with isOld | isNow
        · exact kept.spent stored isOld other (isSalt other isHeld).1
        · rw [List.mem_singleton.mp isNow]
          exact (isSalt other isHeld).2
      case salted =>
        intro stored isStored
        rcases List.mem_append.mp isStored with isOld | isNow
        · exact kept.salted stored isOld
        · rw [List.mem_singleton.mp isNow]
          exact ⟨salt, kept.listed salt held, isChallenge, (beq_iff_eq.mp sameSalt).symm,
            notOld salt found⟩
      case unique =>
        change ((state.credentials ++ [row]).map _).Nodup
        rw [List.map_append, List.map_singleton]
        refine List.nodup_append.mpr ⟨kept.unique, List.nodup_singleton _, ?_⟩
        rintro first isFirst second isSecond rfl
        obtain ⟨credential, isCredential, isFirst⟩ := List.mem_map.mp isFirst
        rw [List.mem_singleton] at isSecond
        exact List.find?_eq_none.mp noCredential credential isCredential
          (decide_eq_true (isFirst.trans isSecond))

end Tables

/-! ## Runs -/

/-- A deployment before its first ceremony. -/
def RegistrationState.start (clock : Nat) (credentials : List CredentialRow)
    (invites : InviteDb) (wot : WotTables) : RegistrationState :=
  ⟨.start clock [] Lib.Table.empty credentials, invites, wot⟩

/-- What holds of the tables, of what is left to verify, and of what was performed for a
request whose batch stored nothing. -/
structure RegistrationsKept (pool : RegistrationPool) : Prop where
  tables : SaltsKept pool.state.passkeys
  yields : ∀ task ∈ pool.tasks, ∀ request, task.request = .registerVerify request →
    task.rest.Yields SparesOrTries task.past
  settled : ∀ task ∈ pool.tasks, (∃ event ∈ task.past, event.op.isStore ∧ Spares event) →
    ∀ event ∈ task.past, Spares event

theorem RegistrationsKept.sound
    {pool : RegistrationPool}
    (kept : RegistrationsKept pool) :
    RegistrationsSound pool where
  once := kept.tables.once
  salted := kept.tables.salted
  notForLogin := by
    intro stored isStored
    obtain ⟨salt, isIssued, sameChallenge, -⟩ := kept.tables.salted stored isStored
    rw [← sameChallenge]
    exact kept.tables.apart salt isIssued
  unique := kept.tables.unique
  refused := by
    intro task member request isRequest reply isDone notRegistered event isPast
    have yields := kept.yields task member request isRequest
    rw [isDone] at yields
    rcases yields with ⟨pubkey, credentialId, isRegistered⟩ | spares | tried
    · exact absurd isRegistered (notRegistered pubkey credentialId)
    · exact (spares event isPast).leaves
    · exact (kept.settled task member tried event isPast).leaves

/-- Distinct draws, and batches that still find what was checked before them. -/
def DrawsAndHolds (state : RegistrationState) (past : List RegistrationEvent)
    (choice : RegistrationChoice) (op : RegistrationOp) : Prop :=
  DrawsApart state past choice op ∧ StillHolds state past choice op

theorem SaltsKept.later
    {state : PasskeyState}
    (kept : SaltsKept state)
    (elapsed : Nat) :
    SaltsKept (state.later elapsed) :=
  ⟨kept.distinct, kept.apart, kept.listed, kept.once, kept.spent, kept.salted, kept.unique⟩

/-- A statement of a registration keeps the tables. -/
theorem SaltsKept.answer
    {state : RegistrationState}
    {past : List RegistrationEvent}
    {choice : RegistrationChoice}
    {op : RegistrationOp}
    (kept : SaltsKept state.passkeys)
    (allowed : StoresLast past op)
    (meets : DrawsAndHolds state past choice op) :
    SaltsKept (answerRegistration state choice op).1.passkeys := by
  have later := kept.later choice.elapsed
  obtain ⟨draws, holds⟩ := meets
  cases op with
  | invite op => exact later
  | selectWotSettings => exact later
  | selectWotEntry pubkey => exact later
  | passkey op =>
      change SaltsKept (answerPasskeyAt (state.passkeys.later choice.elapsed)
        choice.failure.isSome op).1
      cases op
      case acceptLogin login => cases allowed.2
      case storeChallenge row cutoff =>
        unfold answerPasskeyAt
        split
        · exact later
        · exact later.storeChallenge draws cutoff
      case storeRegistration row salt cutoff =>
        unfold answerPasskeyAt
        split
        · exact later
        · dsimp only
          split
          · rename_i stored isStored
            exact later.storeRegistration draws.1 draws.2 isStored
          · exact later
      case storeCredential row challenge =>
        unfold answerPasskeyAt
        split
        · exact later
        · rename_i succeeds
          refine later.storeCredential fun isHeld => holds.1 ⟨?_, isHeld⟩
          exact Option.not_isSome_iff_eq_none.mp succeeds
      all_goals exact later

/-- A batch that was tried and stored nothing comes where nothing was touched before. -/
theorem spares_of_tried
    {state : RegistrationState}
    {past : List RegistrationEvent}
    {choice : RegistrationChoice}
    {op : RegistrationOp}
    (holds : StillHolds state past choice op)
    (isStore : op.isStore)
    (spares : Spares ⟨op, choice, (answerRegistration state choice op).2⟩) :
    ∀ event ∈ past, Spares event := by
  cases op with
  | invite op => cases isStore
  | selectWotSettings => cases isStore
  | selectWotEntry pubkey => cases isStore
  | passkey op =>
      cases op
      case storeCredential row challenge =>
        refine holds.2 ?_
        rintro ⟨noFailure, isHeld⟩
        have notStored : (answerPasskeyAt (state.passkeys.later choice.elapsed)
            choice.failure.isSome (.storeCredential row challenge)).2 ≠ some true :=
          of_decide_eq_false spares
        apply notStored
        rw [noFailure]
        exact congrArg some isHeld
      all_goals cases isStore

theorem registrations_kept
    (env : RegistrationEnv) :
    Pool.KeptBy (handleRegistration env) answerRegistration (fun _ => StoresLast) DrawsAndHolds
      RegistrationsKept where
  started := by
    intro pool request kept
    refine ⟨kept.tables, ?_, ?_⟩
    · intro task member verification isRequest
      rcases List.mem_append.mp member with isOld | isNew
      · exact kept.yields task isOld verification isRequest
      · rw [List.mem_singleton.mp isNew] at isRequest ⊢
        change request = _ at isRequest
        rw [isRequest]
        exact registerVerify_yields verification
    · intro task member tried
      rcases List.mem_append.mp member with isOld | isNew
      · exact kept.settled task isOld tried
      · rw [List.mem_singleton.mp isNew] at tried
        obtain ⟨event, isPast, -⟩ := tried
        cases isPast
  performed := by
    intro pool index choice task op next kept found isRest allowed meets
    have member := List.mem_of_getElem? found
    refine ⟨kept.tables.answer allowed meets, ?_, ?_⟩
    · intro other otherMember verification isRequest
      rcases List.mem_or_eq_of_mem_set otherMember with isOld | isNew
      · exact kept.yields other isOld verification isRequest
      · rw [isNew] at isRequest ⊢
        have before := kept.yields task member verification isRequest
        rw [isRest] at before
        exact before choice _
    · intro other otherMember tried
      rcases List.mem_or_eq_of_mem_set otherMember with isOld | isNew
      · exact kept.settled other isOld tried
      · rw [isNew] at tried ⊢
        obtain ⟨event, isPast, isStore, spares⟩ := tried
        rcases List.mem_append.mp isPast with isEarlier | isNow
        · have notStore := (allowed.1 event isEarlier).1
          rw [isStore] at notStore
          cases notStore
        · rw [List.mem_singleton.mp isNow] at isStore spares
          exact spares_append (spares_of_tried meets.2 isStore spares) spares

/-- On every run from tables with one credential for each pubkey, if new challenges are distinct
and every batch of a registration still finds what was checked before it, registrations are
sound throughout. -/
theorem registrations_sound
    (env : RegistrationEnv)
    (clock : Nat)
    (credentials : List CredentialRow)
    (invites : InviteDb)
    (wot : WotTables)
    (moves : List RegistrationMove)
    (unique : (credentials.map CredentialRow.pubkey).Nodup)
    (draws : Lib.Along (stepRegistrations env) (Pool.PerformsAfter DrawsApart)
      (Pool.idle (.start clock credentials invites wot)) moves)
    (holds : Lib.Along (stepRegistrations env) (Pool.PerformsAfter StillHolds)
      (Pool.idle (.start clock credentials invites wot)) moves) :
    Lib.Visits (stepRegistrations env) RegistrationsSound
      (Pool.idle (.start clock credentials invites wot)) moves := by
  have initially : RegistrationsKept (Pool.idle (.start clock credentials invites wot)) :=
    ⟨⟨List.nodup_nil, nofun, nofun, List.nodup_nil, nofun, nofun, unique⟩, nofun, nofun⟩
  have both : Lib.Along (stepRegistrations env) (Pool.PerformsAfter DrawsAndHolds)
      (Pool.idle (.start clock credentials invites wot)) moves :=
    (draws.and holds).mono fun _ _ meets => meets.1.and meets.2
  exact ((registrations_kept env).visits (handleRegistration_storesLast env) initially both).mono
    fun _ kept => kept.sound

/-! ## A registration, and two for one key -/

namespace SampleRegistration

def pubkey : String := String.ofList (List.replicate 64 'a')

/-- An attestation whose client data name a challenge. -/
def env : RegistrationEnv where
  passkeys :=
    { rpId := some "forum"
      expectedOrigin := some "https://forum"
      base64urlDecode := fun text => some text.toUTF8.toList
      parseClientData := fun bytes =>
        some ⟨some "webauthn.create",
          some (if bytes = "one".toUTF8.toList then "first" else "second"),
          some "https://forum", none⟩
      sha256 := fun _ => List.replicate 32 0
      verifyAssertion := fun _ _ _ => .verified
      deterministicSaltFor := fun _ => "salt" }
  attestations :=
    { parseAttestationObject := fun _ =>
        .ok ⟨"none", List.replicate 32 0 ++ [0x45, 0, 0, 0, 0] ++ List.replicate 16 0 ++
          [0, 1, 9, 7]⟩
      base64urlEncode := fun _ => "text"
      parseCoseP256Key := fun _ => .ok () }
  isStaticAdmin _ := false
  zones := []

def verify (clientData : String) : RegistrationRequest :=
  .registerVerify ⟨.signedBy pubkey,
    some ⟨some pubkey, some (some ⟨some clientData, some "attestation"⟩), none⟩⟩

def advance (index : Nat) : RegistrationMove := .advance index ⟨1, none⟩

/-- Two challenges are issued. -/
def issued : List RegistrationMove :=
  [.start (.registerOptions ⟨none, "first", "salt of first"⟩), advance 0, advance 0,
    .start (.registerOptions ⟨none, "second", "salt of second"⟩), advance 1, advance 1]

/-- A credential is registered by the first of them. -/
def registeredOnce : List RegistrationMove :=
  issued ++ .start (verify "one") :: List.replicate 5 (advance 2)

/-- Both are verified for one key, one statement of each in turn. -/
def registeredTwice : List RegistrationMove :=
  issued ++ [.start (verify "one"), .start (verify "two")] ++
    (List.replicate 5 [advance 2, advance 3]).flatten

/-- No invite, no member, and no Web of Trust. -/
def start : RegistrationState :=
  .start 0 [] ⟨Invitations.empty, Lib.Table.empty, Lib.Table.empty, none, Lib.Table.empty⟩
    ⟨none, []⟩

end SampleRegistration

open SampleRegistration in
theorem registrations_sound_once :
    Lib.Visits (stepRegistrations env) RegistrationsSound (Pool.idle start) registeredOnce :=
  registrations_sound env 0 []
    ⟨Invitations.empty, Lib.Table.empty, Lib.Table.empty, none, Lib.Table.empty⟩ ⟨none, []⟩
    registeredOnce List.nodup_nil (by unfold stepRegistrations; decide +kernel)
    (by unfold stepRegistrations; decide +kernel)

open SampleRegistration in
/-- Two challenges that are verified at once store two credentials for one key. -/
theorem two_credentials_for_one_key :
    ¬ ∀ (env : RegistrationEnv) (clock : Nat) (credentials : List CredentialRow)
        (invites : InviteDb) (wot : WotTables) (moves : List RegistrationMove),
      (credentials.map CredentialRow.pubkey).Nodup →
        Lib.Along (stepRegistrations env) (Pool.PerformsAfter DrawsApart)
            (Pool.idle (.start clock credentials invites wot)) moves →
          Lib.Visits (stepRegistrations env) RegistrationsSound
            (Pool.idle (.start clock credentials invites wot)) moves := by
  intro always
  have visits := always env 0 []
    ⟨Invitations.empty, Lib.Table.empty, Lib.Table.empty, none, Lib.Table.empty⟩ ⟨none, []⟩
    registeredTwice List.nodup_nil (by unfold stepRegistrations; decide +kernel)
  have last := (Lib.visits_iff_prefixes _ _).mp visits registeredTwice (List.prefix_refl _)
  have unique := last.unique
  revert unique
  unfold stepRegistrations
  decide +kernel

end Auth
end NostrBbs
