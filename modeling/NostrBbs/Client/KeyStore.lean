import NostrBbs.Client.ReadPath
import NostrBbs.Lib.Run
import NostrBbs.Shared.Signing

/-!
# The zone-key store

The keys that a client holds in memory and in storage.  Keys come from grants, from the
administrator's own device and from storage; writes are answered in any order, or fail,
and a page that is loaded again starts with nothing in memory.
-/

namespace NostrBbs
namespace Client

open Relay (NostrEvent Tag isHex64 eqIgnoreAsciiCase asciiLower)
open Shared (UnsignedEvent)
open ZoneMigrate (Crypto)

/-! ## Grants -/

def kindZoneKeyGrant : Nat := 21453

/-- The content of a grant. -/
structure GrantPayload where
  zone : String
  epoch : Nat
  secret : String
  pubkey : String
  createdAt : Nat
deriving DecidableEq, Repr

inductive GrantError where
  | wrongKind (kind : Nat)
  | malformed
  | secretMismatch
  | notAdmin (sealer : String)
deriving DecidableEq, Repr

/-- How the client reads payloads and derives public keys. -/
structure GrantReader where
  payload : String → Option GrantPayload
  pubkeyHex : String → Option String

variable (reader : GrantReader)

/-- A rumor that was sealed by someone, read as a grant. -/
def validateGrant (rumor : UnsignedEvent) (sealer : String) (isAdmin : Bool) (now : Nat) :
    Except GrantError ZoneKey :=
  if rumor.kind ≠ kindZoneKeyGrant then .error (.wrongKind rumor.kind)
  else
    match reader.payload rumor.content with
    | none => .error .malformed
    | some payload =>
        if payload.zone = "" ∨ payload.epoch = 0 ∨ !isHex64 payload.pubkey ∨
            !isHex64 payload.secret then
          .error .malformed
        else
          let secret := String.ofList (asciiLower payload.secret)
          match reader.pubkeyHex secret with
          | none => .error .malformed
          | some derived =>
              if !eqIgnoreAsciiCase derived payload.pubkey then .error .secretMismatch
              else if !isAdmin then .error (.notAdmin sealer)
              else
                .ok
                  { zone := payload.zone
                    epoch := payload.epoch
                    secret
                    pubkey := derived
                    grantedBy := sealer
                    receivedAt := now }

/-- A key that the client makes itself. -/
def generateZoneKey (zone : String) (epoch : Nat) (secret creator : String) (now : Nat) :
    Option ZoneKey :=
  (reader.pubkeyHex secret).map fun pubkey =>
    { zone, epoch, secret, pubkey, grantedBy := creator, receivedAt := now }

/-- The place of a key, in memory and in storage. -/
def ZoneKey.id (key : ZoneKey) : String × Nat :=
  (key.zone, key.epoch)

theorem pubkey_of_validateGrant
    {rumor : UnsignedEvent}
    {sealer : String}
    {isAdmin : Bool}
    {now : Nat}
    {key : ZoneKey}
    (valid : validateGrant reader rumor sealer isAdmin now = .ok key) :
    reader.pubkeyHex key.secret = some key.pubkey := by
  unfold validateGrant at valid
  split at valid
  · cases valid
  · split at valid
    · cases valid
    · split at valid
      · cases valid
      · dsimp only at valid
        split at valid
        · cases valid
        · rename_i derived isDerived
          split at valid
          · cases valid
          · split at valid
            · cases valid
            · cases valid
              exact isDerived

theorem pubkey_of_generateZoneKey
    {zone secret creator : String}
    {epoch now : Nat}
    {key : ZoneKey}
    (generated : generateZoneKey reader zone epoch secret creator now = some key) :
    reader.pubkeyHex key.secret = some key.pubkey := by
  obtain ⟨pubkey, isDerived, rfl⟩ := Option.map_eq_some_iff.mp generated
  exact isDerived

/-! ## The store -/

/-- What the client waits for. -/
inductive KeyTask where
  /-- A read of every stored key. -/
  | hydrating
  /-- The stored keys were read, and go into memory. -/
  | loading (snapshot : Keys)
  /-- A key that memory holds goes into storage. -/
  | persisting (key : ZoneKey)
  /-- A granted key goes into storage. -/
  | granting (key : ZoneKey)
  /-- A granted key was written, or not, and goes into memory. -/
  | granted (key : ZoneKey)

structure KeyStore where
  keys : Keys
  stored : Keys
  isHydrated : Bool
  tasks : List KeyTask

/-- What happens next. -/
inductive KeyMove where
  /-- The page is loaded again. -/
  | reload
  | generate (zone : String) (epoch : Nat) (secret creator : String) (now : Nat)
  | grant (rumor : UnsignedEvent) (sealer : String) (isAdmin : Bool) (now : Nat)
  /-- What a task waits for is answered, or fails. -/
  | advance (index : Nat) (succeeds : Bool)

namespace KeyStore

/-- A first page on a device without keys. -/
def start : KeyStore :=
  ⟨fun _ => none, fun _ => none, false, [.hydrating]⟩

/-- Memory with a key at its place. -/
def hold (store : KeyStore) (key : ZoneKey) : KeyStore :=
  { store with keys := Function.update store.keys key.id (some key) }

def write (store : KeyStore) (key : ZoneKey) : KeyStore :=
  { store with stored := Function.update store.stored key.id (some key) }

def await (store : KeyStore) (task : KeyTask) : KeyStore :=
  { store with tasks := store.tasks ++ [task] }

/-- A key goes into memory at once, and into storage later. -/
def insert (store : KeyStore) (key : ZoneKey) : KeyStore :=
  if store.keys key.id = some key then store
  else (store.hold key).await (.persisting key)

/-- What a task does when it is answered. -/
def answer (store : KeyStore) (task : KeyTask) (succeeds : Bool) : KeyStore :=
  match task with
  | .hydrating => if succeeds then store.await (.loading store.stored) else store
  | .loading snapshot =>
      { store with
        keys := fun id => (snapshot id).or (store.keys id)
        isHydrated := true }
  | .persisting key => if succeeds then store.write key else store
  | .granting key => (if succeeds then store.write key else store).await (.granted key)
  | .granted key => store.hold key

def step (store : KeyStore) : KeyMove → KeyStore
  | .reload => { start with stored := store.stored }
  | .generate zone epoch secret creator now =>
      match generateZoneKey reader zone epoch secret creator now with
      | some key => store.insert key
      | none => store
  | .grant rumor sealer isAdmin now =>
      match validateGrant reader rumor sealer isAdmin now with
      | .ok key => store.await (.granting key)
      | .error _ => store
  | .advance index succeeds =>
      match store.tasks[index]? with
      | none => store
      | some task => { store with tasks := store.tasks.eraseIdx index }.answer task succeeds

/-- The store after some moves on a new device. -/
def after (moves : List KeyMove) : KeyStore :=
  Lib.run (step reader) start moves

end KeyStore

/-! ## One secret for each place -/

/-- The keys that a task carries. -/
def KeyTask.Carries : KeyTask → ZoneKey → Prop
  | hydrating, _ => False
  | loading snapshot, key => ∃ id, snapshot id = some key
  | persisting carried, key => key = carried
  | granting carried, key => key = carried
  | granted carried, key => key = carried

namespace KeyStore

/-- A key is in memory, in storage or on its way. -/
def Has (store : KeyStore) (key : ZoneKey) : Prop :=
  (∃ id, store.keys id = some key) ∨ (∃ id, store.stored id = some key) ∨
    ∃ task ∈ store.tasks, task.Carries key

end KeyStore

/-- The key that a move brings to the client. -/
def KeyMove.Brings : KeyMove → ZoneKey → Prop
  | generate zone epoch secret creator now, key =>
      generateZoneKey reader zone epoch secret creator now = some key
  | grant rumor sealer isAdmin now, key =>
      validateGrant reader rumor sealer isAdmin now = .ok key
  | reload, _ => False
  | advance _ _, _ => False

namespace KeyStore

/-- A key brings no second secret to its place. -/
def Agrees (store : KeyStore) (key : ZoneKey) : Prop :=
  ∀ held, store.Has held → held.id = key.id → held.secret = key.secret

/-- The key that a move brings agrees with those at its place. -/
def Meets (store : KeyStore) (move : KeyMove) : Prop :=
  ∀ key, move.Brings reader key → store.Agrees key

/-- Every key lies at its own place. -/
def Placed (keys : Keys) : Prop :=
  ∀ id key, keys id = some key → key.id = id

/-- The keys of memory, of storage and of what was read of it are placed. -/
structure WellPlaced (store : KeyStore) : Prop where
  memory : Placed store.keys
  storage : Placed store.stored
  snapshots : ∀ snapshot, .loading snapshot ∈ store.tasks → Placed snapshot

/-- One secret for each place, and one public key for each secret. -/
structure Coherent (store : KeyStore) : Prop extends WellPlaced store where
  secrets : ∀ first second, store.Has first → store.Has second → first.id = second.id →
    first.secret = second.secret
  pubkeys : ∀ key, store.Has key → reader.pubkeyHex key.secret = some key.pubkey

/-! ## What a move leaves -/

section Moves

variable {store : KeyStore} {task : KeyTask} {key held : ZoneKey} {succeeds : Bool}

theorem update_cases
    {keys : Keys}
    {id : String × Nat}
    (found : Function.update keys key.id (some key) id = some held) :
    held = key ∧ id = key.id ∨ keys id = some held := by
  by_cases isPlace : id = key.id
  · rw [isPlace, Function.update_self] at found
    exact .inl ⟨(Option.some.inj found).symm, isPlace⟩
  · rw [Function.update_of_ne isPlace] at found
    exact .inr found

theorem has_hold
    (has : (store.hold key).Has held) :
    held = key ∨ store.Has held := by
  rcases has with ⟨id, found⟩ | stored | waiting
  · rcases update_cases found with ⟨isKey, -⟩ | old
    · exact .inl isKey
    · exact .inr (.inl ⟨id, old⟩)
  · exact .inr (.inr (.inl stored))
  · exact .inr (.inr (.inr waiting))

theorem has_write
    (has : (store.write key).Has held) :
    held = key ∨ store.Has held := by
  rcases has with inMemory | ⟨id, found⟩ | waiting
  · exact .inr (.inl inMemory)
  · rcases update_cases found with ⟨isKey, -⟩ | old
    · exact .inl isKey
    · exact .inr (.inr (.inl ⟨id, old⟩))
  · exact .inr (.inr (.inr waiting))

theorem has_await
    (has : (store.await task).Has held) :
    task.Carries held ∨ store.Has held := by
  rcases has with inMemory | stored | ⟨other, isTask, carries⟩
  · exact .inr (.inl inMemory)
  · exact .inr (.inr (.inl stored))
  · rcases List.mem_append.mp isTask with isOld | isNew
    · exact .inr (.inr (.inr ⟨other, isOld, carries⟩))
    · rw [List.mem_singleton.mp isNew] at carries
      exact .inl carries

/-- A task brings nothing that it, or the store, did not have. -/
theorem has_answer
    (has : (store.answer task succeeds).Has held) :
    task.Carries held ∨ store.Has held := by
  cases task with
  | hydrating =>
      cases succeeds with
      | false => exact .inr has
      | true =>
          rcases has_await has with ⟨id, found⟩ | old
          · exact .inr (.inr (.inl ⟨id, found⟩))
          · exact .inr old
  | loading snapshot =>
      rcases has with ⟨id, found⟩ | elsewhere
      · rcases Option.or_eq_some_iff.mp found with isStored | ⟨-, isHeld⟩
        · exact .inl ⟨id, isStored⟩
        · exact .inr (.inl ⟨id, isHeld⟩)
      · exact .inr (.inr elsewhere)
  | persisting carried =>
      cases succeeds with
      | false => exact .inr has
      | true => exact has_write has
  | granting carried =>
      rcases has_await has with isCarried | has
      · exact .inl isCarried
      · cases succeeds with
        | false => exact .inr has
        | true => exact has_write has
  | granted carried => exact has_hold has

theorem has_erased
    {index : Nat}
    (has : ({ store with tasks := store.tasks.eraseIdx index } : KeyStore).Has held) :
    store.Has held := by
  rcases has with inMemory | stored | ⟨task, isTask, carries⟩
  · exact .inl inMemory
  · exact .inr (.inl stored)
  · exact .inr (.inr ⟨task, List.mem_of_mem_eraseIdx isTask, carries⟩)

/-- A key that the store has after a move was there, or was brought. -/
theorem has_step
    {move : KeyMove}
    (has : (store.step reader move).Has held) :
    move.Brings reader held ∨ store.Has held := by
  cases move with
  | reload =>
      rcases has with ⟨id, found⟩ | stored | ⟨task, isTask, carries⟩
      · cases found
      · exact .inr (.inr (.inl stored))
      · rw [List.mem_singleton.mp isTask] at carries
        exact carries.elim
  | generate zone epoch secret creator now =>
      unfold step at has
      dsimp only at has
      split at has
      · rename_i key isKey
        unfold insert at has
        split at has
        · exact .inr has
        · rcases has_await has with isCarried | has
          · exact .inl (isCarried ▸ isKey)
          · rcases has_hold has with rfl | old
            · exact .inl isKey
            · exact .inr old
      · exact .inr has
  | grant rumor sealer isAdmin now =>
      unfold step at has
      dsimp only at has
      split at has
      · rename_i key isKey
        rcases has_await has with isCarried | has
        · exact .inl (isCarried ▸ isKey)
        · exact .inr has
      · exact .inr has
  | advance index succeeds =>
      unfold step at has
      dsimp only at has
      split at has
      · exact .inr has
      · rename_i task isTask
        rcases has_answer has with carries | has
        · exact .inr (.inr (.inr ⟨task, List.mem_of_getElem? isTask, carries⟩))
        · exact .inr (has_erased has)

end Moves

/-! ## Coherence -/

section Coherence

variable {reader} {store : KeyStore} {key : ZoneKey} {move : KeyMove}

theorem Placed.update
    {keys : Keys}
    (placed : Placed keys) :
    Placed (Function.update keys key.id (some key)) := by
  intro id held found
  rcases update_cases found with ⟨rfl, isPlace⟩ | old
  · exact isPlace.symm
  · exact placed id held old

theorem Placed.or
    {first second : Keys}
    (firstPlaced : Placed first)
    (secondPlaced : Placed second) :
    Placed fun id => (first id).or (second id) := by
  intro id held found
  rcases Option.or_eq_some_iff.mp found with isFirst | ⟨-, isSecond⟩
  · exact firstPlaced id held isFirst
  · exact secondPlaced id held isSecond

theorem WellPlaced.hold
    (placed : store.WellPlaced) :
    (store.hold key).WellPlaced where
  memory := placed.memory.update
  storage := placed.storage
  snapshots := placed.snapshots

theorem WellPlaced.write
    (placed : store.WellPlaced) :
    (store.write key).WellPlaced where
  memory := placed.memory
  storage := placed.storage.update
  snapshots := placed.snapshots

theorem WellPlaced.await
    {task : KeyTask}
    (placed : store.WellPlaced)
    (isPlaced : ∀ snapshot, task = .loading snapshot → Placed snapshot) :
    (store.await task).WellPlaced where
  memory := placed.memory
  storage := placed.storage
  snapshots := by
    intro snapshot isTask
    rcases List.mem_append.mp isTask with isOld | isNew
    · exact placed.snapshots snapshot isOld
    · exact isPlaced snapshot (List.mem_singleton.mp isNew).symm

theorem WellPlaced.erased
    (placed : store.WellPlaced)
    (index : Nat) :
    ({ store with tasks := store.tasks.eraseIdx index } : KeyStore).WellPlaced where
  memory := placed.memory
  storage := placed.storage
  snapshots snapshot isTask := placed.snapshots snapshot (List.mem_of_mem_eraseIdx isTask)

theorem WellPlaced.answer
    {task : KeyTask}
    {succeeds : Bool}
    (placed : store.WellPlaced)
    (isPlaced : ∀ snapshot, task = .loading snapshot → Placed snapshot) :
    (store.answer task succeeds).WellPlaced := by
  cases task with
  | hydrating =>
      cases succeeds with
      | false => exact placed
      | true =>
          refine placed.await ?_
          rintro snapshot ⟨⟩
          exact placed.storage
  | loading snapshot =>
      exact
        { memory := (isPlaced snapshot rfl).or placed.memory
          storage := placed.storage
          snapshots := placed.snapshots }
  | persisting carried =>
      cases succeeds with
      | false => exact placed
      | true => exact placed.write
  | granting carried =>
      have written : ((if succeeds then store.write carried else store) : KeyStore).WellPlaced := by
        cases succeeds with
        | false => exact placed
        | true => exact placed.write
      refine written.await ?_
      rintro snapshot ⟨⟩
  | granted carried => exact placed.hold

theorem WellPlaced.step
    (placed : store.WellPlaced) :
    (store.step reader move).WellPlaced := by
  cases move with
  | reload =>
      exact
        { memory := by
            rintro id held ⟨⟩
          storage := placed.storage
          snapshots := by
            intro snapshot isTask
            cases List.mem_singleton.mp isTask }
  | generate zone epoch secret creator now =>
      unfold KeyStore.step
      dsimp only
      split
      · unfold insert
        split
        · exact placed
        · refine placed.hold.await ?_
          rintro snapshot ⟨⟩
      · exact placed
  | grant rumor sealer isAdmin now =>
      unfold KeyStore.step
      dsimp only
      split
      · refine placed.await ?_
        rintro snapshot ⟨⟩
      · exact placed
  | advance index succeeds =>
      unfold KeyStore.step
      dsimp only
      split
      · exact placed
      · rename_i task isTask
        refine (placed.erased index).answer ?_
        rintro snapshot rfl
        exact placed.snapshots snapshot (List.mem_of_getElem? isTask)

theorem pubkey_of_brings
    (brings : move.Brings reader key) :
    reader.pubkeyHex key.secret = some key.pubkey := by
  cases move with
  | generate zone epoch secret creator now => exact pubkey_of_generateZoneKey reader brings
  | grant rumor sealer isAdmin now => exact pubkey_of_validateGrant reader brings
  | reload | advance index succeeds => exact brings.elim

/-- A key that the store has and a key that it has after a move share their secret, when
they share their place. -/
theorem Coherent.secret_eq
    {later : ZoneKey}
    (coherent : store.Coherent reader)
    (meets : store.Meets reader move)
    (has : store.Has key)
    (hasLater : (store.step reader move).Has later)
    (samePlace : key.id = later.id) :
    key.secret = later.secret := by
  rcases has_step reader hasLater with brings | hasBefore
  · exact meets later brings key has samePlace
  · exact coherent.secrets key later has hasBefore samePlace

theorem Coherent.step
    (coherent : store.Coherent reader)
    (meets : store.Meets reader move) :
    (store.step reader move).Coherent reader where
  toWellPlaced := coherent.toWellPlaced.step
  secrets := by
    intro first second hasFirst hasSecond samePlace
    rcases has_step reader hasFirst with brings | hasBefore
    · rcases has_step reader hasSecond with alsoBrings | secondBefore
      · have isSame : first = second := by
          cases move with
          | generate zone epoch secret creator now =>
              exact Option.some.inj (brings.symm.trans alsoBrings)
          | grant rumor sealer isAdmin now =>
              exact Except.ok.inj (brings.symm.trans alsoBrings)
          | reload | advance index succeeds => exact brings.elim
        rw [isSame]
      · exact (meets first brings second secondBefore samePlace.symm).symm
    · exact coherent.secret_eq meets hasBefore hasSecond samePlace
  pubkeys := by
    intro held has
    rcases has_step reader has with brings | hasBefore
    · exact pubkey_of_brings brings
    · exact coherent.pubkeys held hasBefore

theorem coherent_start :
    start.Coherent reader where
  memory := by
    rintro id held ⟨⟩
  storage := by
    rintro id held ⟨⟩
  snapshots := by
    intro snapshot isTask
    cases List.mem_singleton.mp isTask
  secrets := by
    rintro first second (⟨id, ⟨⟩⟩ | ⟨id, ⟨⟩⟩ | ⟨task, isTask, carries⟩)
    rw [List.mem_singleton.mp isTask] at carries
    exact carries.elim
  pubkeys := by
    rintro held (⟨id, ⟨⟩⟩ | ⟨id, ⟨⟩⟩ | ⟨task, isTask, carries⟩)
    rw [List.mem_singleton.mp isTask] at carries
    exact carries.elim

end Coherence

/-! ## Keys that stay -/

/-- A place holds a key of a secret and a public key. -/
def HoldsSame (keys : Keys) (key : ZoneKey) : Prop :=
  ∃ held, keys key.id = some held ∧ held.secret = key.secret ∧ held.pubkey = key.pubkey

section Staying

variable {reader} {store : KeyStore} {key : ZoneKey} {move : KeyMove}

theorem isSome_update
    {keys : Keys}
    {id : String × Nat}
    (isSome : (keys id).isSome) :
    (Function.update keys key.id (some key) id).isSome := by
  by_cases isPlace : id = key.id
  · rw [isPlace, Function.update_self]
    rfl
  · rwa [Function.update_of_ne isPlace]

/-- Memory forgets nothing before the page is loaded again. -/
theorem isSome_keys_step
    {id : String × Nat}
    (isSome : (store.keys id).isSome)
    (stays : move ≠ .reload) :
    ((store.step reader move).keys id).isSome := by
  cases move with
  | reload => exact absurd rfl stays
  | generate zone epoch secret creator now =>
      unfold step
      dsimp only
      split
      · unfold insert
        split
        · exact isSome
        · exact isSome_update isSome
      · exact isSome
  | grant rumor sealer isAdmin now =>
      unfold step
      dsimp only
      split
      · exact isSome
      · exact isSome
  | advance index succeeds =>
      unfold step
      dsimp only
      split
      · exact isSome
      · rename_i task isTask
        cases task with
        | hydrating | persisting | granting => cases succeeds <;> exact isSome
        | loading snapshot =>
            change ((snapshot id).or (store.keys id)).isSome
            rw [Option.isSome_or, isSome, Bool.or_true]
        | granted carried => exact isSome_update isSome

theorem isSome_stored_step
    {id : String × Nat}
    (isSome : (store.stored id).isSome) :
    ((store.step reader move).stored id).isSome := by
  cases move with
  | reload => exact isSome
  | generate zone epoch secret creator now =>
      unfold step
      dsimp only
      split
      · unfold insert
        split
        · exact isSome
        · exact isSome
      · exact isSome
  | grant rumor sealer isAdmin now =>
      unfold step
      dsimp only
      split
      · exact isSome
      · exact isSome
  | advance index succeeds =>
      unfold step
      dsimp only
      split
      · exact isSome
      · rename_i task isTask
        cases task with
        | hydrating => cases succeeds <;> exact isSome
        | loading | granted => exact isSome
        | persisting carried | granting carried =>
            cases succeeds with
            | false => exact isSome
            | true => exact isSome_update isSome

end Staying

end KeyStore

end Client
end NostrBbs
