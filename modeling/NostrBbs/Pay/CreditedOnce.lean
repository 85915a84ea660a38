import NostrBbs.Pay.Conservation

/-!
# A deposit is credited once

However deposits are requested and spelled, and however their steps interleave, an
outpoint is credited to one account at most and once at most: to that of the caller whose
script a confirmed output pays, for what the output is worth.  An outpoint with an older
receipt is never credited.
-/

namespace NostrBbs
namespace Pay

open Relay (JsonValue eqIgnoreAsciiCase)
open Pod (Bytes)
open Lib.Program (call)

/-! ## What a credited output is -/

/-- An explorer's transaction is confirmed, and pays a script at an outpoint. -/
structure Pays (tx : JsonValue) (outpoint : Outpoint) (script : Bytes) (value : Nat) : Prop where
  named : ∀ txid, (getField "txid" tx).bind JsonValue.asStr = some txid →
    eqIgnoreAsciiCase txid outpoint.txid = true
  output : ∃ outputs output paid, (getField "vout" tx).bind JsonValue.asArray = some outputs ∧
    outputs[outpoint.vout]? = some output ∧
    (getField "scriptpubkey" output).bind JsonValue.asStr = some paid ∧
    eqIgnoreAsciiCase paid (hexEncode script) = true ∧
    (getField "value" output).bind asU64 = some value
  confirmed : ((getField "status" tx).bind (getField "confirmed")).bind asBool = some true

theorem pays_of_qualifyingOutput
    {tx : JsonValue}
    {outpoint : Outpoint}
    {script : Bytes}
    {value : Nat}
    (qualifies : qualifyingOutput tx outpoint script = .ok value) :
    Pays tx outpoint script value := by
  unfold qualifyingOutput at qualifies
  split at qualifies
  · cases qualifies
  · rename_i isNamed
    split at qualifies
    · cases qualifies
    · rename_i outputs isOutputs
      split at qualifies
      · cases qualifies
      · rename_i output isOutput
        split at qualifies
        · cases qualifies
        · rename_i paid isPaid
          split at qualifies
          · cases qualifies
          · rename_i pays
            split at qualifies
            · cases qualifies
            · rename_i isConfirmed
              split at qualifies
              · cases qualifies
              · rename_i worth isWorth
                cases qualifies
                refine ⟨?_, ⟨outputs, output, paid, isOutputs, isOutput, isPaid, ?_, isWorth⟩, ?_⟩
                · intro txid isTxid
                  rw [isTxid, Option.any_some] at isNamed
                  simpa using isNamed
                · simpa using pays
                · simpa using isConfirmed

/-- The most satoshi that there are. -/
def maxMoney : Nat :=
  2100000000000000

/-- No output is worth more than there is. -/
def WithinSupply (tx : JsonValue) : Prop :=
  ∀ outputs, (getField "vout" tx).bind JsonValue.asArray = some outputs →
    ∀ output ∈ outputs, ∀ value, (getField "value" output).bind asU64 = some value →
      value ≤ maxMoney

/-- The explorer reports transactions of a chain. -/
def ReportsWithinSupply : Move → Prop
  | .advance _ (.explorer (.ok tx)) => WithinSupply tx
  | _ => True

theorem sats_of_pays
    {tx : JsonValue}
    {outpoint : Outpoint}
    {script : Bytes}
    {value : Nat}
    (within : WithinSupply tx)
    (pays : Pays tx outpoint script value) :
    sats value = value := by
  obtain ⟨outputs, output, paid, isOutputs, isOutput, -, -, isWorth⟩ := pays.output
  have bounded := within outputs isOutputs output (List.mem_of_getElem? isOutput) value isWorth
  unfold maxMoney at bounded
  unfold sats
  omega

/-! ## What is claimed -/

/-- The journal names an outpoint. -/
def Credit.names (chain txid : String) (vout : Int) (credit : Credit) : Bool :=
  credit.kind == .deposit && credit.chain == some chain && credit.txid == some txid &&
    credit.vout == some vout

/-- The accounts and amounts that an outpoint was credited to, in order. -/
def Ledger.creditedFor (ledger : Ledger) (chain txid : String) (vout : Int) :
    List (String × Int) :=
  ((ledger.movements.filterMap Movement.applied).filter fun entry =>
    (ledger.database.credits.find? entry.1).any (Credit.names chain txid vout)).map Prod.snd

section

variable (upstream : Upstream)

/-- A request deposits an output: its caller's script is paid by what the explorer
answered. -/
structure Deposits (request : PayRequest) (event : Lib.Event Op Choice Op.Answer)
    (outpoint : Outpoint) (did : String) (value : Nat) : Prop where
  account : ∃ caller, request.caller = some caller ∧ did = upstream.pubkeyToDid caller.pubkey ∧
    ∃ secret script config choice tx, request.context.masterSecret = some secret ∧
      upstream.deriveDepositScript secret caller.pubkey = .ok script ∧
      resolveChain upstream request.context.config outpoint.chain = .ok config ∧
      config.unit = ledgerUnit ∧
      event = ⟨.transaction config.explorerApi outpoint.txid, choice, .ok tx⟩ ∧
      Pays tx outpoint script value

/-- What is claimed of the pay routes. -/
structure CreditedOnce (txoDeposits : Lib.Table TxoDeposit TxoDeposit.key) (routes : Routes) :
    Prop where
  once : ∀ chain txid vout, (routes.state.creditedFor chain txid vout).length ≤ 1
  evidenced : ∀ chain txid vout did amount,
    (did, amount) ∈ routes.state.creditedFor chain txid vout →
      ∃ request event outpoint, ∃ value : Nat, outpoint.chain = chain ∧ outpoint.txid = txid ∧
        (outpoint.vout : Int) = vout ∧ amount = value ∧ routes.Happened request event ∧
          Deposits upstream request event outpoint did value
  legacy : ∀ deposit ∈ txoDeposits.rows, ∀ chain,
    routes.state.creditedFor chain (lowercase deposit.txid) deposit.vout = []

end

/-! ## The journal -/

/-- The credits of an outpoint are its rows in the journal. -/
theorem creditedFor_eq
    {ledger : Ledger}
    (accounted : Accounted ledger)
    (chain txid : String)
    (vout : Int) :
    ledger.creditedFor chain txid vout =
      (ledger.database.credits.rows.filter (Credit.names chain txid vout)).map fun credit =>
        (credit.did, credit.amountSats) := by
  unfold Ledger.creditedFor
  rw [accounted.applications, List.filter_map, List.map_map]
  congr 1
  apply List.filter_congr
  intro credit held
  rw [Function.comp_apply, Lib.Table.find?_of_mem held, Option.any_some]

theorem execute_txoDeposits
    {ledger after : Ledger}
    {stmt : Stmt}
    {rows : Nat}
    (executed : ledger.execute stmt = some (after, rows)) :
    after.database.txoDeposits = ledger.database.txoDeposits := by
  have journalled : ∀ credit, ledger.journal credit = some (after, rows) →
      after.database.txoDeposits = ledger.database.txoDeposits := by
    intro credit journalled
    unfold Ledger.journal Ledger.unchanged at journalled
    split at journalled
    · cases journalled
      rfl
    · split at journalled
      · cases journalled
        rfl
      · cases journalled
        rfl
  cases stmt with
  | journalDeposit creditRef did value chain txid vout requestId now =>
      unfold Ledger.execute Ledger.unchanged at executed
      dsimp only at executed
      split at executed
      · cases executed
        rfl
      · exact journalled _ executed
  | journalRelease jobId ref requestId now =>
      rw [execute_journalRelease] at executed
      unfold Ledger.unchanged at executed
      split at executed
      · cases executed
        rfl
      · split at executed
        · exact journalled _ executed
        · cases executed
          rfl
  | applyCredit creditRef now =>
      rw [execute_applyCredit] at executed
      unfold Ledger.unchanged at executed
      split at executed
      · cases executed
        rfl
      · cases executed
        rfl
  | jobInsertIfFunded jobId requesterDid agentDid endpoint paramsJson estimated held now expiresAt =>
      unfold Ledger.execute Ledger.unchanged at executed
      dsimp only at executed
      split at executed
      · obtain ⟨jobs, -, isAfter⟩ := Option.map_eq_some_iff.mp executed
        cases isAfter
        rfl
      · cases executed
        rfl
  | _ =>
      cases executed
      rfl

/-- Older receipts are never written. -/
theorem batch_txoDeposits
    {ledger after : Ledger}
    {stmts : List Stmt}
    {rows : List Nat}
    (batched : ledger.batch stmts = some (after, rows)) :
    after.database.txoDeposits = ledger.database.txoDeposits := by
  induction stmts generalizing ledger rows with
  | nil =>
      cases batched
      rfl
  | cons stmt stmts inductionHypothesis =>
      rw [Ledger.batch] at batched
      split at batched
      · cases batched
      · rename_i mid count executed
        obtain ⟨rest, ended, isAfter⟩ := Option.map_eq_some_iff.mp batched
        cases isAfter
        exact (inductionHypothesis ended).trans (execute_txoDeposits executed)

/-- A transaction that deposits nothing journals no deposit. -/
theorem deposits_of_other
    {before after : Ledger}
    (kept : Kept before)
    {stmts : List Stmt}
    {rows : List Nat}
    (routine : Routine False stmts)
    (batched : before.batch stmts = some (after, rows)) :
    ∀ credit ∈ after.database.credits.rows, credit.kind = .deposit →
      credit ∈ before.database.credits.rows := by
  have unchanged : after.database.credits = before.database.credits →
      ∀ credit ∈ after.database.credits.rows, credit.kind = .deposit →
        credit ∈ before.database.credits.rows := by
    intro same credit held _
    rw [← same]
    exact held
  have released : ∀ {condition : Job → Bool} {change : Job → Job} {transition : Stmt}
      {jobId requestId : String} {now : Int} (closes : Closes jobId condition change),
      before.execute transition = before.changeJobs condition change closes.keeps →
      before.batch (releaseBatch transition jobId requestId now) = some (after, rows) →
      ∀ credit ∈ after.database.credits.rows, credit.kind = .deposit →
        credit ∈ before.database.credits.rows := by
    intro condition change transition jobId requestId now closes executes batched
    obtain ⟨closed, count, executed, changed⟩ :=
      changeJobs_changed before condition change closes.keeps
    unfold releaseBatch at batched
    rw [batch_cons (executes.trans executed)] at batched
    obtain ⟨⟨ended, counts⟩, rest, isEnd⟩ := Option.map_eq_some_iff.mp batched
    cases isEnd
    have accounted := kept.toAccounted.changed changed closes.requester closes.hold
    intro credit held isDeposit
    rcases release_cases accounted.allApplied rest with ⟨rfl, -⟩ | ⟨job, -, -, credited⟩
    · rw [← changed.credits]
      exact held
    · rw [credited.rows] at held
      rcases List.mem_append.mp held with isOld | isNew
      · rw [← changed.credits]
        exact isOld
      · rw [List.mem_singleton.mp isNew] at isDeposit
        cases isDeposit
  cases routine with
  | debit cost now did =>
      rcases debit_cases batched with rfl | taken
      · exact unchanged rfl
      · exact unchanged taken.credits
  | deposit did outpoint value requestId now may => exact may.elim
  | create jobId requesterDid agentDid endpoint paramsJson estimated held now expiresAt =>
      rcases create_cases batched with rfl | created
      · exact unchanged rfl
      · exact unchanged created.credits
  | start now jobId agentDid =>
      rw [batch_single] at batched
      cases batched
      exact unchanged rfl
  | settle actual now jobId agentDid requestId =>
      exact released (closes_settle actual now jobId agentDid) rfl batched
  | cancel now jobId callerDid requestId =>
      exact released (closes_cancel now jobId callerDid) rfl batched
  | expire now jobId requestId => exact released (closes_expire now jobId) rfl batched

/-! ## What the routes perform -/

section

variable (upstream : Upstream)

/-- A deposit is carried out on the evidence that the explorer gave. -/
def Evident (request : PayRequest) (past : List (Lib.Event Op Choice Op.Answer)) : Op → Prop
  | .batch stmts => Routine False stmts ∨
      ∃ did outpoint value requestId now, stmts = creditBatch did outpoint value requestId now ∧
        ∃ event ∈ past, Deposits upstream request event outpoint did value
  | _ => True

theorem evident_of_routine
    {request : PayRequest}
    {past : List (Lib.Event Op Choice Op.Answer)}
    {op : Op}
    (routine : op.Routine False) :
    Evident upstream request past op := by
  cases op with
  | batch stmts => exact Or.inl routine
  | _ => trivial

variable {upstream}
variable {request : PayRequest} {past : List (Lib.Event Op Choice Op.Answer)}

/-- A program that deposits nothing needs no evidence. -/
theorem Performs.evident
    {Result : Type}
    {program : PayProgram Result}
    (performs : Performs False program) :
    program.Follows (Evident upstream request) past :=
  Lib.Program.Always.follows performs fun _ _ routine => evident_of_routine upstream routine

theorem creditOutput_evident
    {config : ChainConfig}
    {depositor : Depositor}
    {outpoint : Outpoint}
    {now : Int}
    (deposits : ∀ choice tx value,
      qualifyingOutput tx outpoint depositor.script = .ok value →
        Deposits upstream request ⟨.transaction config.explorerApi outpoint.txid, choice, .ok tx⟩
          outpoint depositor.did value) :
    (creditOutput config depositor outpoint now).Follows (Evident upstream request) past := by
  unfold creditOutput
  apply Lib.Program.follows_call trivial
  intro choice answer
  split
  · exact Lib.Program.follows_done _
  · rename_i tx
    split
    · exact Lib.Program.follows_done _
    · rename_i value qualifies
      unfold creditDeposit
      refine Lib.Program.Follows.bind (Lib.Program.follows_call ?_ ?_) ?_
      · refine Or.inr ⟨_, _, _, _, _, rfl, _, List.mem_append_right _ (List.mem_singleton.mpr rfl), ?_⟩
        exact deposits choice tx value qualifies
      · intro _ changed
        split
        · exact Lib.Program.follows_done _
        · exact Lib.Program.follows_done _
      · intro credited more
        split
        · exact Lib.Program.follows_done _
        · exact Lib.Program.follows_done _
        · apply Performs.evident
          apply Performs.bind (readBalance_performs _)
          intro balance
          split
          · exact performs_done _
          · exact performs_done _

theorem deposit_evident
    {caller : Caller}
    {secret script : Bytes}
    (isCaller : request.caller = some caller)
    (isSecret : request.context.masterSecret = some secret)
    (isScript : upstream.deriveDepositScript secret caller.pubkey = .ok script) :
    (deposit upstream request.context.config
      ⟨upstream.pubkeyToDid caller.pubkey, script, some caller.requestId⟩ request.body
        request.context.now).Follows (Evident upstream request) past := by
  unfold deposit
  split
  · exact Lib.Program.follows_done _
  · split
    · exact Lib.Program.follows_done _
    · rename_i outpoint _
      split
      · exact Lib.Program.follows_done _
      · rename_i chain isChain
        split
        · exact Lib.Program.follows_done _
        · rename_i isLedgerUnit
          apply Lib.Program.follows_call trivial
          intro _ credited
          split
          · exact Lib.Program.follows_done _
          · exact Lib.Program.follows_done _
          · apply creditOutput_evident
            intro choice tx value qualifies
            exact ⟨caller, isCaller, rfl, secret, script, chain, choice, tx, isSecret, isScript,
              isChain, not_not.mp isLedgerUnit, rfl, pays_of_qualifyingOutput qualifies⟩

/-- Whatever is requested, a deposit is carried out on evidence only. -/
theorem dispatch_evident
    (request : PayRequest) :
    (dispatch upstream request).Follows (Evident upstream request) [] := by
  by_cases isDeposit : request.payPath = ".deposit"
  · unfold dispatch
    split
    · exact Lib.Program.follows_done _
    · split
      · exact Lib.Program.follows_done _
      · rename_i caller isCaller
        split
        · have isRoute : dispatchPost upstream request caller =
              depositRoute upstream request.context caller (upstream.pubkeyToDid caller.pubkey)
                request.body := by
            simp only [dispatchPost, isDeposit]
          rw [isRoute]
          unfold depositRoute
          split
          · exact Lib.Program.follows_done _
          · rename_i secret isSecret
            split
            · exact Lib.Program.follows_done _
            · rename_i script isScript
              exact deposit_evident isCaller isSecret isScript
        · exact (dispatchGet_performs upstream request caller).evident
        · exact Lib.Program.follows_done _
  · exact (dispatch_performs upstream request fun isRoute => absurd isRoute isDeposit).evident

/-! ## Runs -/

variable (upstream) in
/-- A row of the journal that deposits an output: the explorer's answer for its request
shows the output, which no older receipt holds. -/
def Shown (routes : Routes) (credit : Credit) : Prop :=
  ∃ request event outpoint value,
    credit.creditRef = outpoint.replayKey ∧ credit.chain = some outpoint.chain ∧
    credit.txid = some outpoint.txid ∧ credit.vout = some (outpoint.vout : Int) ∧
    credit.amountSats = sats value ∧ routes.Happened request event ∧
    Deposits upstream request event outpoint credit.did value ∧
    routes.state.database.holdsTxo outpoint.txid outpoint.vout = false

variable (upstream) in
/-- What every move keeps, beside older receipts. -/
structure DepositsShown (txoDeposits : Lib.Table TxoDeposit TxoDeposit.key) (routes : Routes) :
    Prop where
  kept : Kept routes.state
  older : routes.state.database.txoDeposits = txoDeposits
  shown : ∀ credit ∈ routes.state.database.credits.rows, credit.kind = .deposit →
    Shown upstream routes credit

theorem holdsTxo_congr
    {before after : Ledger}
    (same : after.database.txoDeposits = before.database.txoDeposits)
    (txid : String)
    (vout : Int) :
    after.database.holdsTxo txid vout = before.database.holdsTxo txid vout := by
  unfold Database.holdsTxo
  rw [same]

theorem after_txoDeposits
    (ledger : Ledger)
    (op : Op) :
    (ledger.after op).database.txoDeposits = ledger.database.txoDeposits := by
  cases op with
  | batch stmts =>
      unfold Ledger.after
      dsimp only
      cases batched : ledger.batch stmts with
      | none => rfl
      | some result => exact batch_txoDeposits batched
  | _ => rfl

theorem Routine.mono
    {deposits more : Prop}
    (implies : deposits → more)
    {stmts : List Stmt}
    (routine : Routine deposits stmts) :
    Routine more stmts := by
  cases routine with
  | debit cost now did => exact Routine.debit cost now did
  | deposit did outpoint value requestId now may =>
      exact Routine.deposit did outpoint value requestId now (implies may)
  | create => exact Routine.create _ _ _ _ _ _ _ _ _
  | start => exact Routine.start _ _ _
  | settle => exact Routine.settle _ _ _ _ _
  | cancel => exact Routine.cancel _ _ _ _
  | expire => exact Routine.expire _ _ _

theorem Evident.routine
    {op : Op}
    (evident : Evident upstream request past op) :
    op.Routine True := by
  cases op with
  | batch stmts =>
      rcases evident with routine | ⟨did, outpoint, value, requestId, now, rfl, -⟩
      · exact routine.mono False.elim
      · exact Routine.deposit _ _ _ _ _ trivial
  | _ => trivial

theorem Shown.of_state
    {routes : Routes}
    {credit : Credit}
    (shown : Shown upstream routes credit)
    {later : Routes}
    (happened : ∀ request event, routes.Happened request event → later.Happened request event)
    (older : later.state.database.txoDeposits = routes.state.database.txoDeposits) :
    Shown upstream later credit := by
  obtain ⟨request, event, outpoint, value, isRef, isChain, isTxid, isVout, isAmount, occurred,
    deposits, notHeld⟩ := shown
  refine ⟨request, event, outpoint, value, isRef, isChain, isTxid, isVout, isAmount,
    happened request event occurred, deposits, ?_⟩
  rw [holdsTxo_congr older]
  exact notHeld

/-- What one move keeps: a deposit that is journalled is shown by what happened before. -/
theorem depositsShown_performed
    {txoDeposits : Lib.Table TxoDeposit TxoDeposit.key}
    {routes : Routes}
    {index : Nat}
    {choice : Choice}
    {task : Lib.Task PayRequest Op Choice Op.Answer PayReply}
    {op : Op}
    {next : op.Answer → PayProgram PayReply}
    (holds : DepositsShown upstream txoDeposits routes)
    (found : routes.tasks[index]? = some task)
    (evident : Evident upstream task.request task.past op) :
    DepositsShown upstream txoDeposits
      ⟨(routes.state.answer choice op).1,
        routes.tasks.set index ⟨task.request,
          task.past ++ [⟨op, choice, (routes.state.answer choice op).2⟩],
          next (routes.state.answer choice op).2⟩⟩ := by
  have happened : ∀ request event, routes.Happened request event →
      (⟨(routes.state.answer choice op).1,
        routes.tasks.set index ⟨task.request,
          task.past ++ [⟨op, choice, (routes.state.answer choice op).2⟩],
          next (routes.state.answer choice op).2⟩⟩ : Routes).Happened request event :=
    fun request event occurred => occurred.performed found _ _ _
  have older : (routes.state.answer choice op).1.database.txoDeposits =
      routes.state.database.txoDeposits := by
    rcases routes.state.answer_ledger choice op with carriedOut | unchanged
    · rw [carriedOut]
      exact after_txoDeposits _ op
    · rw [unchanged]
  refine ⟨holds.kept.answer evident.routine choice, older.trans holds.older, ?_⟩
  have kept : ∀ credit ∈ routes.state.database.credits.rows, credit.kind = .deposit →
      Shown upstream _ credit :=
    fun credit held isDeposit => (holds.shown credit held isDeposit).of_state happened older
  intro credit held isDeposit
  dsimp only at held
  rcases routes.state.answer_ledger choice op with carriedOut | unchanged
  · rw [carriedOut] at held
    cases op with
    | batch stmts =>
        unfold Ledger.after at held
        dsimp only at held
        cases batched : routes.state.batch stmts with
        | none =>
            rw [batched] at held
            exact kept credit held isDeposit
        | some result =>
            rw [batched] at held
            rcases evident with routine |
              ⟨did, outpoint, value, requestId, now, rfl, event, isPast, deposits⟩
            · have isOld := deposits_of_other holds.kept routine batched credit held isDeposit
              exact kept credit isOld isDeposit
            · rcases deposit_cases holds.kept.allApplied batched with same | ⟨notHeld, credited⟩
              · refine kept credit ?_ isDeposit
                rw [← same]
                exact held
              · rcases List.mem_append.mp (credited.rows ▸ held) with isOld | isNew
                · exact kept credit isOld isDeposit
                · rw [List.mem_singleton.mp isNew]
                  refine ⟨task.request, event, outpoint, value, rfl, rfl, rfl, rfl, rfl,
                    happened _ _ ⟨task, List.mem_of_getElem? found, rfl, isPast⟩, deposits, ?_⟩
                  rw [holdsTxo_congr older]
                  exact notHeld
    | _ => exact kept credit held isDeposit
  · rw [unchanged] at held
    exact kept credit held isDeposit

theorem depositsShown_run
    (txoDeposits : Lib.Table TxoDeposit TxoDeposit.key)
    (admins : List String)
    (moves : List Move) :
    DepositsShown upstream txoDeposits (Lib.run (Routes.step upstream)
      (Lib.Pool.idle (Ledger.opened txoDeposits admins)) moves) := by
  have initially : DepositsShown upstream txoDeposits
      (Lib.Pool.idle (Ledger.opened txoDeposits admins)) :=
    ⟨kept_opened txoDeposits admins, rfl, by rintro credit ⟨⟩⟩
  apply Lib.Pool.invariant_run dispatch_evident ?_ ?_ initially
  · intro routes request holds
    refine ⟨holds.kept, holds.older, ?_⟩
    intro credit held isDeposit
    exact (holds.shown credit held isDeposit).of_state
      (fun _ _ occurred => occurred.started _) rfl
  · intro routes index choice task op next holds found _ evident
    exact depositsShown_performed holds found evident

/-- What the explorer answered is within the supply. -/
def AnsweredWithinSupply (event : Lib.Event Op Choice Op.Answer) : Prop :=
  ∀ api txid choice tx, event = ⟨.transaction api txid, choice, .ok tx⟩ → WithinSupply tx

theorem answeredWithinSupply_run
    (ledger : Ledger)
    (moves : List Move)
    (reports : ∀ move ∈ moves, ReportsWithinSupply move) :
    ∀ task ∈ (Lib.run (Routes.step upstream) (Lib.Pool.idle ledger) moves).tasks,
      ∀ event ∈ task.past, AnsweredWithinSupply event := by
  have kept : ∀ (routes : Routes) (move : Move),
      (∀ task ∈ routes.tasks, ∀ event ∈ task.past, AnsweredWithinSupply event) →
      ReportsWithinSupply move →
      ∀ task ∈ (Routes.step upstream routes move).tasks, ∀ event ∈ task.past,
        AnsweredWithinSupply event := by
    intro routes move within reported
    rcases Lib.Pool.step_cases (dispatch upstream) Ledger.answer routes move with
      unchanged | ⟨request, -, started⟩ |
        ⟨index, choice, task, op, next, isMove, found, -, performed⟩
    · unfold Routes.step
      rw [unchanged]
      exact within
    · unfold Routes.step
      rw [started]
      intro task member
      rcases List.mem_append.mp member with isOld | isNew
      · exact within task isOld
      · rw [List.mem_singleton.mp isNew]
        rintro event ⟨⟩
    · unfold Routes.step
      rw [performed]
      intro other member
      rcases List.mem_or_eq_of_mem_set member with isOld | isNew
      · exact within other isOld
      · rw [isNew]
        intro event isPast
        rcases List.mem_append.mp isPast with isBefore | isLatest
        · exact within task (List.mem_of_getElem? found) event isBefore
        · rw [List.mem_singleton.mp isLatest]
          intro api txid given tx isEvent
          cases op with
          | transaction explorerApi sought =>
              cases choice with
              | explorer reply =>
                  change (⟨.transaction explorerApi sought, .explorer reply, reply⟩ :
                    Lib.Event Op Choice Op.Answer) = _ at isEvent
                  cases isEvent
                  rw [isMove] at reported
                  exact reported
              | _ => simp [Ledger.answer, Ledger.reply] at isEvent
          | _ => simp at isEvent
  have along : Lib.Along (Routes.step upstream) (fun _ => ReportsWithinSupply)
      (Lib.Pool.idle ledger) moves := by
    rw [Lib.along_iff_prefixes]
    rintro taken move ⟨rest, rfl⟩
    exact reports move (by simp)
  have initially : ∀ task ∈ (Lib.Pool.idle ledger : Routes).tasks, ∀ event ∈ task.past,
      AnsweredWithinSupply event := by rintro task ⟨⟩
  exact Lib.invariant_run_along kept initially along

/-- Rows that deposit one output are one row. -/
theorem names_creditRef
    {routes : Routes}
    {chain txid : String}
    {vout : Int}
    {credit : Credit}
    (shown : Shown upstream routes credit)
    (named : credit.names chain txid vout = true) :
    ∃ outpoint : Outpoint, outpoint.chain = chain ∧ outpoint.txid = txid ∧
      (outpoint.vout : Int) = vout ∧ credit.creditRef = outpoint.replayKey := by
  obtain ⟨-, -, outpoint, -, isRef, isChain, isTxid, isVout, -⟩ := shown
  unfold Credit.names at named
  simp only [Bool.and_eq_true, beq_iff_eq] at named
  obtain ⟨⟨⟨-, namesChain⟩, namesTxid⟩, namesVout⟩ := named
  refine ⟨outpoint, ?_, ?_, ?_, isRef⟩
  · exact Option.some.inj (isChain.symm.trans namesChain)
  · exact Option.some.inj (isTxid.symm.trans namesTxid)
  · exact Option.some.inj (isVout.symm.trans namesVout)

/-- The receipt key is read from the chain, the transaction and the index. -/
theorem replayKey_congr
    {first second : Outpoint}
    (sameChain : first.chain = second.chain)
    (sameTxid : first.txid = second.txid)
    (sameVout : first.vout = second.vout) :
    first.replayKey = second.replayKey := by
  unfold Outpoint.replayKey
  rw [sameChain, sameTxid, sameVout]

theorem DepositsShown.once
    {txoDeposits : Lib.Table TxoDeposit TxoDeposit.key}
    {routes : Routes}
    (holds : DepositsShown upstream txoDeposits routes)
    (chain txid : String)
    (vout : Int) :
    (routes.state.creditedFor chain txid vout).length ≤ 1 := by
  rw [creditedFor_eq holds.kept.toAccounted, List.length_map]
  have isShown : ∀ credit ∈ routes.state.database.credits.rows,
      credit.names chain txid vout = true → Shown upstream routes credit := by
    intro credit held named
    apply holds.shown credit held
    unfold Credit.names at named
    simp only [Bool.and_eq_true, beq_iff_eq] at named
    exact named.1.1.1
  cases named : routes.state.database.credits.rows.filter (Credit.names chain txid vout) with
  | nil => exact Nat.zero_le 1
  | cons credit others =>
      rw [← named]
      have member : credit ∈ routes.state.database.credits.rows.filter
          (Credit.names chain txid vout) := by
        rw [named]
        exact List.mem_cons_self
      obtain ⟨held, isNamed⟩ := List.mem_filter.mp member
      obtain ⟨outpoint, isChain, isTxid, isVout, isRef⟩ :=
        names_creditRef (isShown credit held isNamed) isNamed
      have sameRef : ∀ other ∈ routes.state.database.credits.rows,
          other.names chain txid vout = true →
            decide (other.creditRef = credit.creditRef) = true := by
        intro other otherHeld otherNamed
        obtain ⟨another, otherChain, otherTxid, otherVout, otherRef⟩ :=
          names_creditRef (isShown other otherHeld otherNamed) otherNamed
        rw [decide_eq_true_eq, otherRef, isRef]
        apply replayKey_congr (otherChain.trans isChain.symm) (otherTxid.trans isTxid.symm)
        exact Int.ofNat.inj (otherVout.trans isVout.symm)
      calc (routes.state.database.credits.rows.filter (Credit.names chain txid vout)).length
          ≤ (routes.state.database.credits.rows.filter
              fun other => decide (other.creditRef = credit.creditRef)).length := by
            rw [← List.countP_eq_length_filter, ← List.countP_eq_length_filter]
            exact List.countP_mono_left sameRef
        _ = (routes.state.database.credits.find? credit.creditRef).toList.length := by
            rw [routes.state.database.credits.filter_key]
        _ ≤ 1 := by
            cases routes.state.database.credits.find? credit.creditRef with
            | none => exact Nat.zero_le 1
            | some found => exact le_refl 1

/-- However deposits are requested and spelled, and however their operations go and
interleave, an outpoint is credited once at most, on evidence, and never when an older
receipt holds it. -/
theorem creditedOnce_run
    (upstream : Upstream)
    (txoDeposits : Lib.Table TxoDeposit TxoDeposit.key)
    (admins : List String)
    (moves : List Move)
    (reports : ∀ move ∈ moves, ReportsWithinSupply move) :
    CreditedOnce upstream txoDeposits (Lib.run (Routes.step upstream)
      (Lib.Pool.idle (Ledger.opened txoDeposits admins)) moves) := by
  have holds := @depositsShown_run upstream txoDeposits admins moves
  have within := @answeredWithinSupply_run upstream (Ledger.opened txoDeposits admins) moves
    reports
  generalize Lib.run (Routes.step upstream) (Lib.Pool.idle (Ledger.opened txoDeposits admins))
    moves = routes at holds within ⊢
  have shows : ∀ chain txid vout entry, entry ∈ routes.state.creditedFor chain txid vout →
      ∃ credit, credit.names chain txid vout = true ∧ Shown upstream routes credit ∧
        entry = (credit.did, credit.amountSats) := by
    intro chain txid vout entry credited
    rw [creditedFor_eq holds.kept.toAccounted] at credited
    obtain ⟨credit, member, isEntry⟩ := List.mem_map.mp credited
    obtain ⟨held, isNamed⟩ := List.mem_filter.mp member
    have isDeposit : credit.kind = .deposit := by
      unfold Credit.names at isNamed
      simp only [Bool.and_eq_true, beq_iff_eq] at isNamed
      exact isNamed.1.1.1
    exact ⟨credit, isNamed, holds.shown credit held isDeposit, isEntry.symm⟩
  refine ⟨holds.once, ?_, ?_⟩
  · intro chain txid vout did amount credited
    obtain ⟨credit, named, shown, isEntry⟩ := shows chain txid vout _ credited
    cases isEntry
    unfold Credit.names at named
    simp only [Bool.and_eq_true, beq_iff_eq] at named
    obtain ⟨request, event, outpoint, value, -, isChain, isTxid, isVout, isAmount, happened,
      deposits, -⟩ := shown
    refine ⟨request, event, outpoint, value, Option.some.inj (isChain.symm.trans named.1.1.2),
      Option.some.inj (isTxid.symm.trans named.1.2), Option.some.inj (isVout.symm.trans named.2), ?_,
      happened, deposits⟩
    obtain ⟨task, held, -, isPast⟩ := happened
    obtain ⟨_, -, -, _, _, _, _, _, -, -, -, -, isEvent, pays⟩ := deposits
    rw [isAmount]
    exact sats_of_pays (within task held event isPast _ _ _ _ isEvent) pays
  · intro deposit isOlder chain
    apply List.eq_nil_iff_forall_not_mem.mpr
    intro entry credited
    obtain ⟨credit, named, shown, -⟩ := shows _ _ _ entry credited
    unfold Credit.names at named
    simp only [Bool.and_eq_true, beq_iff_eq] at named
    obtain ⟨-, -, outpoint, -, -, -, isTxid, isVout, -, -, -, notHeld⟩ := shown
    have sameTxid : outpoint.txid = lowercase deposit.txid :=
      Option.some.inj (isTxid.symm.trans named.1.2)
    have sameVout : (outpoint.vout : Int) = deposit.vout :=
      Option.some.inj (isVout.symm.trans named.2)
    have isHeld : routes.state.database.holdsTxo outpoint.txid outpoint.vout = true := by
      unfold Database.holdsTxo
      rw [holds.older, List.any_eq_true]
      refine ⟨deposit, isOlder, ?_⟩
      rw [sameTxid, sameVout]
      unfold lowercase
      simp
    rw [isHeld] at notHeld
    cases notHeld

/-! ## A run -/

/-- Libraries that read the first output of a transaction, and derive scripts from the
letters of public keys. -/
def firstOutputs : Upstream where
  parseTxoUri uri := .ok ⟨String.ofList (uri.toList.take 64), 0, none⟩
  pubkeyToDid pubkey := "did:nostr:" ++ pubkey
  payInfo _ := .null
  balanceResponse did balance _ := .object [("did", .string did), ("balance", num balance)]
  paymentRequiredBody _ _ := .null
  bitcoinMainnet := ⟨"btc", "sat", "https://mempool.space/api"⟩
  deriveDepositAddress _ pubkey := .ok pubkey
  deriveDepositScript _ pubkey := .ok (pubkey.toList.map fun char => UInt8.ofNat char.toNat)
  fromUtf8 bytes := some (String.ofList (bytes.map fun byte => Char.ofNat byte.toNat))
  parseObject _ := .error "no object"
  parseEndpoint _ := .error "no endpoint"
  parseJobCreate _ := .error "no job"
  parseJobAction _ := .error "no job"
  parseJobSettle _ := .error "no job"
  toText _ := ""
  holdFor estimated := estimated

/-- The request of a caller to deposit an output, by its URI. -/
def depositOf (pubkey uri : String) : PayRequest where
  context := ⟨⟨1, []⟩, 1000, some [7], 3600⟩
  method := .post
  payPath := ".deposit"
  caller := some ⟨pubkey, "request"⟩
  body := uri.toList.map fun char => UInt8.ofNat char.toNat
  random := .ok []

/-- What the explorer answers: the first output pays the script of `a`. -/
def paysA : JsonValue :=
  .object [("vout", .array [.object [("scriptpubkey", .string "61"), ("value", .number "700")]]),
    ("status", .object [("confirmed", .bool true)])]

/-- Two requests for one output, spelled differently, that both look it up before either
is credited. -/
def twoDeposits : List Move :=
  let txid := String.ofList (List.replicate 64 'b')
  let spelled := String.ofList (List.replicate 64 'B')
  [.start (depositOf "a" (txid ++ ":0")), .start (depositOf "a" (spelled ++ ":0")),
    .advance 0 .answered, .advance 1 .answered, .advance 0 (.explorer (.ok paysA)),
    .advance 1 (.explorer (.ok paysA)), .advance 0 .answered, .advance 1 .answered]

theorem creditedOnce_run_twoDeposits :
    CreditedOnce firstOutputs Lib.Table.empty (Lib.run (Routes.step firstOutputs)
        (Lib.Pool.idle (Ledger.opened Lib.Table.empty [])) twoDeposits) ∧
      (Lib.run (Routes.step firstOutputs) (Lib.Pool.idle (Ledger.opened Lib.Table.empty []))
        twoDeposits).state.creditedFor "btc" (String.ofList (List.replicate 64 'b')) 0 =
          [("did:nostr:a", 700)] := by
  have within : WithinSupply paysA := by
    intro outputs isOutputs output member value isValue
    have oneOutput : [JsonValue.object [("scriptpubkey", .string "61"), ("value", .number "700")]] =
        outputs := Option.some.inj isOutputs
    rw [← oneOutput, List.mem_singleton] at member
    rw [member] at isValue
    have is700 : some 700 = some value := isValue
    rw [← Option.some.inj is700]
    decide
  refine ⟨creditedOnce_run firstOutputs Lib.Table.empty [] twoDeposits ?_, by decide +kernel⟩
  intro move member
  simp only [twoDeposits, List.mem_cons, List.not_mem_nil, or_false] at member
  rcases member with rfl | rfl | rfl | rfl | rfl | rfl | rfl | rfl
  · trivial
  · trivial
  · trivial
  · trivial
  · exact within
  · exact within
  · trivial
  · trivial

end

end Pay
end NostrBbs
