import NostrBbs.Client.KeyStore

/-!
# Readable stays readable

What a client has opened it opens again, in the same page and, when the key was stored,
in later ones, as long as no key brings a second secret to a place.
-/

namespace NostrBbs
namespace Client

open Relay (NostrEvent)
open ZoneMigrate (Crypto)

namespace KeyStore

/-! ## What a place keeps -/

section Keeping

variable {reader : GrantReader} {store : KeyStore} {key : ZoneKey} {move : KeyMove}

/-- A place of memory or of storage keeps its secret when it keeps a key at all. -/
theorem HoldsSame.of_isSome
    {before after : Keys}
    (coherent : store.Coherent reader)
    (meets : store.Meets reader move)
    (wasHad : ∀ held, before key.id = some held → store.Has held)
    (isHad : ∀ held, after key.id = some held → (store.step reader move).Has held)
    (wasPlaced : Placed before)
    (isPlaced : Placed after)
    (holds : HoldsSame before key)
    (isSome : (after key.id).isSome) :
    HoldsSame after key := by
  obtain ⟨held, isHeld, sameSecret, samePubkey⟩ := holds
  obtain ⟨later, isLater⟩ := Option.isSome_iff_exists.mp isSome
  have samePlace : held.id = later.id :=
    (wasPlaced key.id held isHeld).trans (isPlaced key.id later isLater).symm
  have secret := coherent.secret_eq meets (wasHad held isHeld) (isHad later isLater) samePlace
  have derived := coherent.pubkeys held (wasHad held isHeld)
  have laterDerived := (coherent.step meets).pubkeys later (isHad later isLater)
  rw [← secret, derived] at laterDerived
  exact ⟨later, isLater, secret.symm.trans sameSecret,
    (Option.some.inj laterDerived).symm.trans samePubkey⟩

theorem holdsSame_keys_step
    (coherent : store.Coherent reader)
    (meets : store.Meets reader move)
    (stays : move ≠ .reload)
    (holds : HoldsSame store.keys key) :
    HoldsSame (store.step reader move).keys key := by
  have held := holds
  obtain ⟨found, isFound, -⟩ := held
  exact holds.of_isSome coherent meets (fun held isHeld => .inl ⟨key.id, isHeld⟩)
    (fun held isHeld => .inl ⟨key.id, isHeld⟩) coherent.memory coherent.toWellPlaced.step.memory
    (isSome_keys_step (by rw [isFound]; rfl) stays)

theorem holdsSame_stored_step
    (coherent : store.Coherent reader)
    (meets : store.Meets reader move)
    (holds : HoldsSame store.stored key) :
    HoldsSame (store.step reader move).stored key := by
  have held := holds
  obtain ⟨found, isFound, -⟩ := held
  exact holds.of_isSome coherent meets (fun held isHeld => .inr (.inl ⟨key.id, isHeld⟩))
    (fun held isHeld => .inr (.inl ⟨key.id, isHeld⟩)) coherent.storage
    coherent.toWellPlaced.step.storage (isSome_stored_step (by rw [isFound]; rfl))

/-- A page that has not loaded its keys will load the one of a place. -/
def WillLoad (store : KeyStore) (key : ZoneKey) : Prop :=
  store.isHydrated = false ∧ ∀ snapshot, .loading snapshot ∈ store.tasks → HoldsSame snapshot key

/-- A place of storage whose key memory holds, or will load. -/
def Keeps (store : KeyStore) (key : ZoneKey) : Prop :=
  HoldsSame store.stored key ∧ (HoldsSame store.keys key ∨ store.WillLoad key)

theorem WillLoad.await
    {task : KeyTask}
    (willLoad : store.WillLoad key)
    (holds : ∀ snapshot, task = .loading snapshot → HoldsSame snapshot key) :
    (store.await task).WillLoad key := by
  refine ⟨willLoad.1, ?_⟩
  intro snapshot isTask
  rcases List.mem_append.mp isTask with isOld | isNew
  · exact willLoad.2 snapshot isOld
  · exact holds snapshot (List.mem_singleton.mp isNew).symm

theorem WillLoad.erased
    (willLoad : store.WillLoad key)
    (index : Nat) :
    ({ store with tasks := store.tasks.eraseIdx index } : KeyStore).WillLoad key :=
  ⟨willLoad.1, fun snapshot isTask => willLoad.2 snapshot (List.mem_of_mem_eraseIdx isTask)⟩

/-- An answer leaves a page waiting for the key, or with it in memory. -/
theorem WillLoad.answer
    {task : KeyTask}
    {succeeds : Bool}
    (willLoad : store.WillLoad key)
    (stored : HoldsSame store.stored key)
    (holds : ∀ snapshot, task = .loading snapshot → HoldsSame snapshot key) :
    HoldsSame (store.answer task succeeds).keys key ∨
      (store.answer task succeeds).WillLoad key := by
  cases task with
  | hydrating =>
      cases succeeds with
      | false => exact .inr willLoad
      | true =>
          refine .inr (willLoad.await ?_)
          rintro snapshot ⟨⟩
          exact stored
  | loading snapshot =>
      obtain ⟨held, isHeld, same⟩ := holds snapshot rfl
      refine .inl ⟨held, ?_, same⟩
      change (snapshot key.id).or (store.keys key.id) = some held
      rw [isHeld, Option.some_or]
  | persisting carried => cases succeeds <;> exact .inr willLoad
  | granting carried =>
      have waits : ((if succeeds then store.write carried else store) : KeyStore).WillLoad key := by
        cases succeeds <;> exact willLoad
      refine .inr (waits.await ?_)
      rintro snapshot ⟨⟩
  | granted carried => exact .inr willLoad

theorem Keeps.step
    (coherent : store.Coherent reader)
    (meets : store.Meets reader move)
    (keeps : store.Keeps key) :
    (store.step reader move).Keeps key := by
  refine ⟨holdsSame_stored_step coherent meets keeps.1, ?_⟩
  by_cases isReload : move = .reload
  · subst isReload
    refine .inr ⟨rfl, ?_⟩
    intro snapshot isTask
    cases List.mem_singleton.mp isTask
  · rcases keeps.2 with inMemory | willLoad
    · exact .inl (holdsSame_keys_step coherent meets isReload inMemory)
    · cases move with
      | reload => exact absurd rfl isReload
      | generate zone epoch secret creator now =>
          unfold KeyStore.step
          dsimp only
          split
          · unfold insert
            split
            · exact .inr willLoad
            · refine .inr (WillLoad.await willLoad ?_)
              rintro snapshot ⟨⟩
          · exact .inr willLoad
      | grant rumor sealer isAdmin now =>
          unfold KeyStore.step
          dsimp only
          split
          · refine .inr (willLoad.await ?_)
            rintro snapshot ⟨⟩
          · exact .inr willLoad
      | advance index succeeds =>
          unfold KeyStore.step
          dsimp only
          split
          · exact .inr willLoad
          · rename_i task isTask
            refine (willLoad.erased index).answer keeps.1 ?_
            rintro snapshot rfl
            exact willLoad.2 snapshot (List.mem_of_getElem? isTask)

end Keeping

end KeyStore

/-! ## Reading -/

/-- A message that its reader sees opened. -/
def ReadOutcome.Opens : ReadOutcome → Prop
  | decrypted _ => True
  | sealed _ => True
  | _ => False

/-- A message that opens names a key that is held. -/
theorem exists_key_of_opens
    {crypto : Crypto}
    {keys : Keys}
    {event : NostrEvent}
    (opens : (readOutcome crypto keys event).Opens) :
    ∃ zk key, parseZk event.tags = some zk ∧ keys (zk.zone, zk.epoch) = some key := by
  unfold readOutcome at opens
  dsimp only at opens
  split at opens
  · exact opens.elim
  · split at opens
    · exact opens.elim
    · rename_i zk isZk
      split at opens
      · exact opens.elim
      · rename_i key isKey
        exact ⟨zk, key, isZk, isKey⟩

/-- What is read depends on the secret and the public key of one place. -/
theorem readOutcome_of_same
    {crypto : Crypto}
    {keys later : Keys}
    {event : NostrEvent}
    {zk : ZkRef}
    {key held : ZoneKey}
    (isZk : parseZk event.tags = some zk)
    (isKey : keys (zk.zone, zk.epoch) = some key)
    (isHeld : later (zk.zone, zk.epoch) = some held)
    (sameSecret : held.secret = key.secret)
    (samePubkey : held.pubkey = key.pubkey) :
    readOutcome crypto later event = readOutcome crypto keys event := by
  unfold readOutcome decryptWith ZoneKey.secretBytes
  rw [isZk]
  dsimp only
  rw [isKey, isHeld]
  dsimp only
  rw [sameSecret, samePubkey]

/-! ## Runs -/

/-- What a run leaves readable. -/
structure StaysReadable (reader : GrantReader) (crypto : Crypto) (moves : List KeyMove) :
    Prop where
  /-- What has been opened opens until the page is loaded again. -/
  session : ∀ earlier later, moves = earlier ++ later → .reload ∉ later → ∀ event,
    (readOutcome crypto (KeyStore.after reader earlier).keys event).Opens →
      readOutcome crypto (KeyStore.after reader moves).keys event =
        readOutcome crypto (KeyStore.after reader earlier).keys event
  /-- What has been opened with a stored key opens in every page that has loaded its keys. -/
  reloads : ∀ earlier later, moves = earlier ++ later →
    (KeyStore.after reader moves).isHydrated = true → ∀ event,
      (readOutcome crypto (KeyStore.after reader earlier).keys event).Opens →
        (∀ zk, parseZk event.tags = some zk →
          ((KeyStore.after reader earlier).stored (zk.zone, zk.epoch)).isSome) →
          readOutcome crypto (KeyStore.after reader moves).keys event =
            readOutcome crypto (KeyStore.after reader earlier).keys event
  /-- Memory and storage hold one secret for a zone and epoch. -/
  agree : ∀ id inMemory inStorage, (KeyStore.after reader moves).keys id = some inMemory →
    (KeyStore.after reader moves).stored id = some inStorage →
      inMemory.secret = inStorage.secret

section Runs

variable {reader : GrantReader} {crypto : Crypto} {store : KeyStore} {moves later : List KeyMove}

theorem readOutcome_of_holdsSame
    {keys after : Keys}
    {event : NostrEvent}
    {zk : ZkRef}
    {key : ZoneKey}
    (isZk : parseZk event.tags = some zk)
    (isKey : keys (zk.zone, zk.epoch) = some key)
    (isPlace : key.id = (zk.zone, zk.epoch))
    (holds : KeyStore.HoldsSame after key) :
    readOutcome crypto after event = readOutcome crypto keys event := by
  obtain ⟨held, isHeld, sameSecret, samePubkey⟩ := holds
  rw [isPlace] at isHeld
  exact readOutcome_of_same isZk isKey isHeld sameSecret samePubkey

theorem coherent_after
    (meets : Lib.Along (KeyStore.step reader) (KeyStore.Meets reader) KeyStore.start moves) :
    (KeyStore.after reader moves).Coherent reader :=
  Lib.invariant_run_along (fun _ _ coherent meetsMove => KeyStore.Coherent.step coherent meetsMove)
    KeyStore.coherent_start meets

theorem session_readable
    {event : NostrEvent}
    (coherent : store.Coherent reader)
    (meets : Lib.Along (KeyStore.step reader) (KeyStore.Meets reader) store later)
    (stays : .reload ∉ later)
    (opens : (readOutcome crypto store.keys event).Opens) :
    readOutcome crypto (Lib.run (KeyStore.step reader) store later).keys event =
      readOutcome crypto store.keys event := by
  obtain ⟨zk, key, isZk, isKey⟩ := exists_key_of_opens opens
  have isPlace := coherent.memory (zk.zone, zk.epoch) key isKey
  have holds : KeyStore.HoldsSame store.keys key := ⟨key, isPlace ▸ isKey, rfl, rfl⟩
  refine readOutcome_of_holdsSame isZk isKey isPlace ?_
  have kept : (Lib.run (KeyStore.step reader) store later).Coherent reader ∧
      KeyStore.HoldsSame (Lib.run (KeyStore.step reader) store later).keys key := by
    clear opens isKey isPlace
    induction later generalizing store with
    | nil => exact ⟨coherent, holds⟩
    | cons move later inductionHypothesis =>
        rw [List.mem_cons, not_or] at stays
        exact inductionHypothesis (coherent.step meets.1) meets.2 stays.2
          (KeyStore.holdsSame_keys_step coherent meets.1 (Ne.symm stays.1) holds)
  exact kept.2

theorem reloads_readable
    {event : NostrEvent}
    (coherent : store.Coherent reader)
    (meets : Lib.Along (KeyStore.step reader) (KeyStore.Meets reader) store later)
    (hydrated : (Lib.run (KeyStore.step reader) store later).isHydrated = true)
    (opens : (readOutcome crypto store.keys event).Opens)
    (stored : ∀ zk, parseZk event.tags = some zk → (store.stored (zk.zone, zk.epoch)).isSome) :
    readOutcome crypto (Lib.run (KeyStore.step reader) store later).keys event =
      readOutcome crypto store.keys event := by
  obtain ⟨zk, key, isZk, isKey⟩ := exists_key_of_opens opens
  have isPlace := coherent.memory (zk.zone, zk.epoch) key isKey
  obtain ⟨held, isHeld⟩ := Option.isSome_iff_exists.mp (stored zk isZk)
  have samePlace := coherent.storage (zk.zone, zk.epoch) held isHeld
  have hasKey : store.Has key := .inl ⟨_, isKey⟩
  have hasHeld : store.Has held := .inr (.inl ⟨_, isHeld⟩)
  have sameSecret := coherent.secrets held key hasHeld hasKey (samePlace.trans isPlace.symm)
  have samePubkey : held.pubkey = key.pubkey := by
    have derived := coherent.pubkeys held hasHeld
    rw [sameSecret, coherent.pubkeys key hasKey] at derived
    exact (Option.some.inj derived).symm
  have keeps : store.Keeps key :=
    ⟨⟨held, isPlace ▸ isHeld, sameSecret, samePubkey⟩, .inl ⟨key, isPlace ▸ isKey, rfl, rfl⟩⟩
  refine readOutcome_of_holdsSame isZk isKey isPlace ?_
  have preserved : ∀ (state : KeyStore) (move : KeyMove),
      state.Coherent reader ∧ state.Keeps key → state.Meets reader move →
        (state.step reader move).Coherent reader ∧ (state.step reader move).Keeps key :=
    fun state move invariant meetsMove =>
      ⟨invariant.1.step meetsMove, invariant.2.step invariant.1 meetsMove⟩
  have kept := Lib.invariant_run_along preserved ⟨coherent, keeps⟩ meets
  rcases kept.2.2 with inMemory | willLoad
  · exact inMemory
  · rw [willLoad.1] at hydrated
    cases hydrated

end Runs

/-- A run in which no key brings a second secret to its place leaves readable what was. -/
theorem staysReadable_of_meets
    (reader : GrantReader)
    (crypto : Crypto)
    (moves : List KeyMove)
    (meets : Lib.Along (KeyStore.step reader) (KeyStore.Meets reader) KeyStore.start moves) :
    StaysReadable reader crypto moves where
  session := by
    rintro earlier later rfl stays event opens
    obtain ⟨before, after⟩ := (Lib.along_append _ _ _).mp meets
    unfold KeyStore.after at opens ⊢
    rw [Lib.run_append]
    exact session_readable (coherent_after before) after stays opens
  reloads := by
    rintro earlier later rfl hydrated event opens stored
    obtain ⟨before, after⟩ := (Lib.along_append _ _ _).mp meets
    unfold KeyStore.after at hydrated opens stored ⊢
    rw [Lib.run_append] at hydrated ⊢
    exact reloads_readable (coherent_after before) after hydrated opens stored
  agree := by
    intro id inMemory inStorage isHeld isStored
    have coherent := coherent_after meets
    exact coherent.secrets inMemory inStorage (.inl ⟨id, isHeld⟩) (.inr (.inl ⟨id, isStored⟩))
      ((coherent.memory id inMemory isHeld).trans (coherent.storage id inStorage isStored).symm)

/-! ## Two secrets for one epoch -/

namespace Family

def hex (digit : Char) : String :=
  String.ofList (List.replicate 64 digit)

/-- Two grants of the first epoch of a zone, with a secret each. -/
def reader : GrantReader where
  payload content :=
    if content = "first" then some ⟨"family", 1, hex '4', hex '3', 0⟩
    else if content = "second" then some ⟨"family", 1, hex '5', hex '6', 0⟩
    else none
  pubkeyHex secret :=
    if secret = hex '4' then some (hex '3')
    else if secret = hex '5' then some (hex '6')
    else none

def crypto : Crypto where
  verifyEvent _ := true
  toJson _ := ""
  fromJson _ := none
  encrypt _ _ _ _ := .ok "ciphertext"
  decrypt secret _ payload :=
    if secret = hex '4' ∧ payload = "ciphertext" then some "hello" else none
  publicKey _ := hex '3'
  onCurve _ := true
  signEvent event _ := .ok event
  sha256Hex := id

/-- A message that is encrypted to the first secret. -/
def message : NostrEvent where
  id := hex 'a'
  pubkey := hex '1'
  createdAt := 7
  kind := 42
  tags := [["e", "kitchen", "", "root"], ["zk", "family", "1", hex '3']]
  content := "ciphertext"
  sig := ""

/-- A grant of an administrator, written and taken into memory. -/
def granted (content : String) : List KeyMove :=
  [.grant ⟨hex '2', 5, kindZoneKeyGrant, [], content⟩ (hex '2') true 9, .advance 1 true,
    .advance 1 true]

end Family

/-- One grant leaves its message readable. -/
theorem staysReadable_of_meets_one_grant :
    StaysReadable Family.reader Family.crypto (Family.granted "first") := by
  refine staysReadable_of_meets Family.reader Family.crypto (Family.granted "first")
    ⟨?_, fun key brings => brings.elim, fun key brings => brings.elim, trivial⟩
  rintro key - held (⟨id, ⟨⟩⟩ | ⟨id, ⟨⟩⟩ | ⟨task, isTask, carries⟩)
  rw [List.mem_singleton.mp isTask] at carries
  exact carries.elim

/-- A second administrator's secret for the epoch makes the message unreadable. -/
theorem second_secret_hides_message :
    readOutcome Family.crypto (KeyStore.after Family.reader (Family.granted "first")).keys
        Family.message = .decrypted "hello" ∧
      readOutcome Family.crypto (KeyStore.after Family.reader
        (Family.granted "first" ++ Family.granted "second")).keys Family.message = .failed := by
  decide +kernel

end Client
end NostrBbs
