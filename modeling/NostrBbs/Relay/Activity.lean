import Mathlib
import NostrBbs.Lib.Run

/-!
# Read activity

The reads that are delivered to each principal are counted in memory and flushed with its
activity stamp, at most once a window unless enough of them are pending.  Counts are 32-bit
integers, and the clock may go backwards.
-/

namespace NostrBbs
namespace Relay

/-- The least interval between the flushes of one principal. -/
def activityFlushSecs : Nat := 300

/-- The pending count that forces an early flush. -/
def pendingReadsFlushAt : Int32 := 50

/-- What is to be written after some activity. -/
structure Flush where
  reads : Int32
deriving DecidableEq, Repr

structure ActivityLedger where
  lastFlush : String → Option Nat
  pendingReads : String → Option Int32

namespace ActivityLedger

def new : ActivityLedger :=
  ⟨fun _ => none, fun _ => none⟩

/-- The reads of a principal that no flush has taken. -/
def pending (ledger : ActivityLedger) (pubkey : String) : Int32 :=
  (ledger.pendingReads pubkey).getD 0

def windowElapsed (ledger : ActivityLedger) (pubkey : String) (now : Nat) : Bool :=
  (ledger.lastFlush pubkey).all fun last => activityFlushSecs ≤ now - last

def take (ledger : ActivityLedger) (pubkey : String) (now : Nat) : ActivityLedger × Flush :=
  (⟨Function.update ledger.lastFlush pubkey (some now),
    Function.update ledger.pendingReads pubkey none⟩, ⟨ledger.pending pubkey⟩)

/-- Some reads added to those pending. -/
def addReads (ledger : ActivityLedger) (pubkey : String) (delivered : Int32) : ActivityLedger :=
  if 0 < delivered then
    { ledger with
      pendingReads :=
        Function.update ledger.pendingReads pubkey (some (ledger.pending pubkey + delivered)) }
  else ledger

def recordRead (ledger : ActivityLedger) (pubkey : String) (delivered : Int32) (now : Nat) :
    ActivityLedger × Option Flush :=
  let ledger := ledger.addReads pubkey delivered
  if ledger.windowElapsed pubkey now || pendingReadsFlushAt ≤ ledger.pending pubkey then
    ((ledger.take pubkey now).1, some (ledger.take pubkey now).2)
  else (ledger, none)

def recordWrite (ledger : ActivityLedger) (pubkey : String) (now : Nat) :
    ActivityLedger × Option Flush :=
  if ledger.windowElapsed pubkey now then
    ((ledger.take pubkey now).1, some (ledger.take pubkey now).2)
  else (ledger, none)

end ActivityLedger

/-! ## Calls -/

inductive ActivityCall where
  | read (pubkey : String) (delivered : Int32) (now : Nat)
  | write (pubkey : String) (now : Nat)
deriving DecidableEq, Repr

namespace ActivityCall

def pubkey : ActivityCall → String
  | read pubkey _ _ => pubkey
  | write pubkey _ => pubkey

def now : ActivityCall → Nat
  | read _ _ now => now
  | write _ now => now

/-- The reads that a call records for a principal. -/
def recorded (call : ActivityCall) (pubkey : String) : Int :=
  match call with
  | read reader delivered _ => if reader = pubkey ∧ 0 < delivered then delivered.toInt else 0
  | write _ _ => 0

def apply (ledger : ActivityLedger) : ActivityCall → ActivityLedger × Option Flush
  | read pubkey delivered now => ledger.recordRead pubkey delivered now
  | write pubkey now => ledger.recordWrite pubkey now

end ActivityCall

/-- A flush that was returned, with its principal and its time. -/
structure FlushedAt where
  pubkey : String
  now : Nat
  reads : Int32
deriving DecidableEq, Repr

/-- A ledger and the flushes that it has returned. -/
structure Metered where
  ledger : ActivityLedger
  flushed : List FlushedAt

namespace Metered

def start : Metered :=
  ⟨ActivityLedger.new, []⟩

def step (metered : Metered) (call : ActivityCall) : Metered where
  ledger := (call.apply metered.ledger).1
  flushed := metered.flushed ++
    (call.apply metered.ledger).2.toList.map fun flush => ⟨call.pubkey, call.now, flush.reads⟩

/-- A ledger after some calls. -/
def after (calls : List ActivityCall) : Metered :=
  Lib.run step start calls

/-- The flushes of a principal, in order. -/
def flushesOf (metered : Metered) (pubkey : String) : List FlushedAt :=
  metered.flushed.filter fun flush => flush.pubkey = pubkey

/-- The reads that the flushes of a principal have taken. -/
def taken (metered : Metered) (pubkey : String) : Int :=
  ((metered.flushesOf pubkey).map fun flush => flush.reads.toInt).sum

end Metered

/-- A flush that comes a window after an earlier one, or that the threshold forced. -/
def SpacedFrom (earlier later : FlushedAt) : Prop :=
  earlier.now + activityFlushSecs ≤ later.now ∨ pendingReadsFlushAt ≤ later.reads

/-- The reads of a call fit on top of those that are pending. -/
def Fits (metered : Metered) (call : ActivityCall) : Prop :=
  (metered.ledger.pending call.pubkey).toInt + call.recorded call.pubkey < 2 ^ 31

instance (metered : Metered) (call : ActivityCall) : Decidable (Fits metered call) :=
  inferInstanceAs (Decidable (_ < _))

/-! ## One call -/

namespace ActivityLedger

variable {ledger : ActivityLedger} {pubkey other : String} {now : Nat} {delivered : Int32}

@[simp] theorem pending_new : new.pending pubkey = 0 :=
  rfl

theorem pending_take :
    (ledger.take pubkey now).1.pending other =
      if other = pubkey then 0 else ledger.pending other := by
  unfold pending take
  dsimp only
  rw [Function.update_apply]
  split
  · rfl
  · rfl

theorem pending_addReads :
    (ledger.addReads pubkey delivered).pending other =
      if other = pubkey ∧ 0 < delivered then ledger.pending other + delivered
      else ledger.pending other := by
  unfold addReads
  by_cases positive : 0 < delivered
  · rw [if_pos positive]
    unfold pending
    dsimp only
    rw [Function.update_apply]
    by_cases same : other = pubkey
    · rw [if_pos same, if_pos ⟨same, positive⟩, same]
      rfl
    · rw [if_neg same, if_neg fun both => same both.1]
  · rw [if_neg positive, if_neg fun both => positive both.2]

@[simp] theorem lastFlush_addReads :
    (ledger.addReads pubkey delivered).lastFlush = ledger.lastFlush := by
  unfold addReads
  split
  · rfl
  · rfl

end ActivityLedger

/-- The ledger that a call finds once its reads are added. -/
def ActivityCall.counted (ledger : ActivityLedger) : ActivityCall → ActivityLedger
  | read pubkey delivered _ => ledger.addReads pubkey delivered
  | write _ _ => ledger

@[simp] theorem ActivityCall.lastFlush_counted
    (ledger : ActivityLedger)
    (call : ActivityCall) :
    (call.counted ledger).lastFlush = ledger.lastFlush := by
  cases call with
  | read pubkey delivered now => exact ActivityLedger.lastFlush_addReads
  | write pubkey now => rfl

/-- A call flushes what is pending, when a window has passed since the last flush or the
threshold is reached; otherwise the pending count stays below the threshold, unless the call
is a write. -/
theorem ActivityCall.apply_cases
    (ledger : ActivityLedger)
    (call : ActivityCall) :
    (call.apply ledger = (((call.counted ledger).take call.pubkey call.now).1,
        some ⟨(call.counted ledger).pending call.pubkey⟩) ∧
      (ledger.windowElapsed call.pubkey call.now = true ∨
        pendingReadsFlushAt ≤ (call.counted ledger).pending call.pubkey)) ∨
    (call.apply ledger = (call.counted ledger, none) ∧
      (call.counted ledger = ledger ∨
        (call.counted ledger).pending call.pubkey < pendingReadsFlushAt)) := by
  have sameWindow : (call.counted ledger).windowElapsed call.pubkey call.now =
      ledger.windowElapsed call.pubkey call.now := by
    unfold ActivityLedger.windowElapsed
    rw [lastFlush_counted]
  cases call with
  | read pubkey delivered now =>
      by_cases due : ((ledger.addReads pubkey delivered).windowElapsed pubkey now ||
          decide (pendingReadsFlushAt ≤ (ledger.addReads pubkey delivered).pending pubkey)) = true
      · refine .inl ⟨if_pos due, ?_⟩
        rcases Bool.or_eq_true_iff.mp due with elapsed | reached
        · exact .inl (sameWindow ▸ elapsed)
        · exact .inr (of_decide_eq_true reached)
      · refine .inr ⟨if_neg due, .inr ?_⟩
        rw [Bool.or_eq_true_iff, not_or, decide_eq_true_eq] at due
        exact Int32.not_le.mp due.2
  | write pubkey now =>
      by_cases due : ledger.windowElapsed pubkey now = true
      · exact .inl ⟨if_pos due, .inl due⟩
      · exact .inr ⟨if_neg due, .inl rfl⟩

/-- The reads of a call that fits are added to those that are pending. -/
theorem ActivityCall.pending_counted
    {metered : Metered}
    {call : ActivityCall}
    (fits : Fits metered call)
    (pubkey : String) :
    ((call.counted metered.ledger).pending pubkey).toInt =
      (metered.ledger.pending pubkey).toInt + call.recorded pubkey := by
  cases call with
  | write writer now => exact (Int.add_zero _).symm
  | read reader delivered now =>
      unfold counted recorded
      dsimp only
      rw [ActivityLedger.pending_addReads]
      by_cases counts : pubkey = reader ∧ 0 < delivered
      · rw [if_pos counts, if_pos ⟨counts.1.symm, counts.2⟩]
        have low := (metered.ledger.pending pubkey).le_toInt
        have positive : 0 < delivered.toInt := Int32.lt_iff_toInt_lt.mp counts.2
        have recordsAll : (read reader delivered now).recorded reader = delivered.toInt :=
          if_pos ⟨rfl, counts.2⟩
        have fitting : (metered.ledger.pending reader).toInt +
            (read reader delivered now).recorded reader < 2 ^ 31 := fits
        rw [recordsAll, ← counts.1] at fitting
        rw [Int32.toInt_add]
        exact Int.bmod_eq_of_le (by omega) (by omega)
      · rw [if_neg counts, if_neg fun both => counts ⟨both.1.symm, both.2⟩, Int.add_zero]

/-- A call counts reads for its own principal only. -/
theorem ActivityCall.pending_counted_of_ne
    (ledger : ActivityLedger)
    {call : ActivityCall}
    {pubkey : String}
    (other : pubkey ≠ call.pubkey) :
    (call.counted ledger).pending pubkey = ledger.pending pubkey := by
  cases call with
  | write writer now => rfl
  | read reader delivered now =>
      unfold counted
      dsimp only
      rw [ActivityLedger.pending_addReads, if_neg fun both => other both.1]

/-! ## One step -/

namespace Metered

variable {metered : Metered} {call : ActivityCall}

/-- A step flushes for its principal and starts its window, or only counts. -/
theorem step_cases
    (metered : Metered)
    (call : ActivityCall) :
    (metered.step call =
        ⟨((call.counted metered.ledger).take call.pubkey call.now).1,
          metered.flushed ++
            [⟨call.pubkey, call.now, (call.counted metered.ledger).pending call.pubkey⟩]⟩ ∧
      (metered.ledger.windowElapsed call.pubkey call.now = true ∨
        pendingReadsFlushAt ≤ (call.counted metered.ledger).pending call.pubkey)) ∨
    (metered.step call = ⟨call.counted metered.ledger, metered.flushed⟩ ∧
      (call.counted metered.ledger = metered.ledger ∨
        (call.counted metered.ledger).pending call.pubkey < pendingReadsFlushAt)) := by
  unfold step
  rcases call.apply_cases metered.ledger with ⟨applied, due⟩ | ⟨applied, quiet⟩
  · rw [applied]
    exact .inl ⟨rfl, due⟩
  · rw [applied]
    exact .inr ⟨congrArg (Metered.mk _) (List.append_nil _), quiet⟩

theorem flushesOf_append
    (ledger : ActivityLedger)
    (flushed : List FlushedAt)
    (flush : FlushedAt)
    (pubkey : String) :
    flushesOf ⟨ledger, flushed ++ [flush]⟩ pubkey =
      flushesOf ⟨ledger, flushed⟩ pubkey ++ if flush.pubkey = pubkey then [flush] else [] := by
  unfold flushesOf
  rw [List.filter_append, List.filter_singleton]
  by_cases same : flush.pubkey = pubkey
  · rw [if_pos same, decide_eq_true same]
    rfl
  · rw [if_neg same, decide_eq_false same]
    rfl

/-- The reads of a principal that were taken or are pending. -/
def balance (metered : Metered) (pubkey : String) : Int :=
  metered.taken pubkey + (metered.ledger.pending pubkey).toInt

/-- A call that fits adds the reads that it records. -/
theorem balance_step
    (fits : Fits metered call)
    (pubkey : String) :
    (metered.step call).balance pubkey = metered.balance pubkey + call.recorded pubkey := by
  have counted := ActivityCall.pending_counted fits pubkey
  rcases metered.step_cases call with ⟨stepped, -⟩ | ⟨stepped, -⟩
  · rw [stepped]
    unfold balance taken
    rw [flushesOf_append, ActivityLedger.pending_take]
    by_cases same : pubkey = call.pubkey
    · rw [if_pos same.symm, if_pos same, List.map_append, List.sum_append, List.map_singleton,
        List.sum_singleton, ← same, counted, Int32.toInt_zero]
      unfold flushesOf
      dsimp only
      omega
    · rw [if_neg (Ne.symm same), if_neg same, List.append_nil, counted]
      unfold flushesOf
      dsimp only
      omega
  · rw [stepped]
    unfold balance taken flushesOf
    dsimp only
    rw [counted]
    omega

/-- No principal has as many reads pending as force a flush. -/
def BelowThreshold (metered : Metered) : Prop :=
  ∀ pubkey, metered.ledger.pending pubkey < pendingReadsFlushAt

theorem belowThreshold_start : start.BelowThreshold := by
  intro pubkey
  rw [show start.ledger.pending pubkey = 0 from rfl]
  decide

theorem belowThreshold_step
    (below : metered.BelowThreshold) :
    (metered.step call).BelowThreshold := by
  intro pubkey
  by_cases same : pubkey = call.pubkey
  · rcases metered.step_cases call with ⟨stepped, -⟩ | ⟨stepped, quiet⟩
    · rw [stepped, ActivityLedger.pending_take, if_pos same]
      decide
    · rw [stepped]
      rcases quiet with unchanged | low
      · dsimp only
        rw [unchanged]
        exact below pubkey
      · rw [same]
        exact low
  · have kept := ActivityCall.pending_counted_of_ne metered.ledger same
    rcases metered.step_cases call with ⟨stepped, -⟩ | ⟨stepped, -⟩
    · rw [stepped, ActivityLedger.pending_take, if_neg same, kept]
      exact below pubkey
    · rw [stepped]
      dsimp only
      rw [kept]
      exact below pubkey

theorem belowThreshold_after
    (calls : List ActivityCall) :
    (after calls).BelowThreshold := by
  have preserved : ∀ metered call, BelowThreshold metered → BelowThreshold (metered.step call) :=
    fun _ _ => belowThreshold_step
  unfold after
  exact Lib.invariant_run preserved belowThreshold_start calls

/-- The successive flushes of each principal are spaced, and its window began with the last
of them. -/
structure Spaced (metered : Metered) : Prop where
  chain : ∀ pubkey, (metered.flushesOf pubkey).IsChain SpacedFrom
  last : ∀ pubkey,
    metered.ledger.lastFlush pubkey = (metered.flushesOf pubkey).getLast?.map FlushedAt.now

theorem spaced_start : start.Spaced := by
  have noFlush : ∀ pubkey, start.flushesOf pubkey = [] := fun _ => List.filter_nil
  constructor
  · intro pubkey
    rw [noFlush]
    exact List.isChain_nil
  · intro pubkey
    rw [noFlush]
    rfl

theorem spaced_step
    (spaced : metered.Spaced) :
    (metered.step call).Spaced := by
  rcases metered.step_cases call with ⟨stepped, due⟩ | ⟨stepped, -⟩
  · rw [stepped]
    constructor
    · intro pubkey
      rw [flushesOf_append]
      by_cases same : call.pubkey = pubkey
      · rw [if_pos same]
        refine List.isChain_append.mpr ⟨spaced.chain pubkey, List.isChain_singleton _, ?_⟩
        intro earlier isLast later isNew
        cases isNew
        rcases due with elapsed | reached
        · have began := spaced.last pubkey
          unfold flushesOf at isLast began
          rw [Option.mem_def.mp isLast] at began
          unfold ActivityLedger.windowElapsed at elapsed
          rw [same, began] at elapsed
          have waited := of_decide_eq_true elapsed
          unfold activityFlushSecs at waited
          refine .inl ?_
          unfold activityFlushSecs
          dsimp only
          omega
        · exact .inr reached
      · rw [if_neg same, List.append_nil]
        exact spaced.chain pubkey
    · intro pubkey
      rw [flushesOf_append]
      unfold ActivityLedger.take
      dsimp only
      rw [Function.update_apply]
      by_cases same : call.pubkey = pubkey
      · rw [if_pos same.symm, if_pos same, List.getLast?_append]
        rfl
      · rw [if_neg (Ne.symm same), if_neg same, List.append_nil, ActivityCall.lastFlush_counted]
        exact spaced.last pubkey
  · rw [stepped]
    refine ⟨spaced.chain, fun pubkey => ?_⟩
    dsimp only
    rw [ActivityCall.lastFlush_counted]
    exact spaced.last pubkey

theorem spaced_after
    (calls : List ActivityCall) :
    (after calls).Spaced := by
  have preserved : ∀ metered call, Spaced metered → Spaced (metered.step call) :=
    fun _ _ => spaced_step
  unfold after
  exact Lib.invariant_run preserved spaced_start calls

/-- The times of the flushes are times of calls, in their order. -/
theorem times_sublist
    (calls : List ActivityCall) :
    ((after calls).flushed.map FlushedAt.now).Sublist (calls.map ActivityCall.now) := by
  let history : List ActivityCall → Metered → Prop := fun calls metered =>
    (metered.flushed.map FlushedAt.now).Sublist (calls.map ActivityCall.now)
  have initially : history [] start := List.Sublist.slnil
  refine Lib.invariant_history initially ?_ calls
  intro past call sublist
  change ((step _ call).flushed.map _).Sublist ((past ++ [call]).map _)
  rw [List.map_append]
  rcases (Lib.run step start past).step_cases call with ⟨stepped, -⟩ | ⟨stepped, -⟩
  · rw [stepped, List.map_append]
    exact sublist.append (List.Sublist.refl _)
  · rw [stepped]
    exact sublist.trans (List.sublist_append_left _ _)

end Metered

/-! ## Runs -/

/-- Spaced flushes whose times go up are spaced from every earlier one. -/
theorem pairwise_of_isChain
    {flushes : List FlushedAt}
    (chain : flushes.IsChain SpacedFrom)
    (ordered : flushes.Pairwise fun earlier later => earlier.now ≤ later.now) :
    flushes.Pairwise SpacedFrom := by
  induction flushes with
  | nil => exact List.Pairwise.nil
  | cons first rest inductionHypothesis =>
      obtain ⟨beforeAll, restOrdered⟩ := List.pairwise_cons.mp ordered
      obtain ⟨toNext, restChain⟩ := List.isChain_cons.mp chain
      have later := inductionHypothesis restChain restOrdered
      refine List.pairwise_cons.mpr ⟨?_, later⟩
      intro flush isLater
      cases rest with
      | nil => cases isLater
      | cons next others =>
          rcases List.mem_cons.mp isLater with rfl | isOther
          · exact toNext flush rfl
          · rcases (List.pairwise_cons.mp later).1 flush isOther with waited | forced
            · refine .inl (Nat.le_trans ?_ waited)
              exact Nat.add_le_add_right (beforeAll next List.mem_cons_self) _
            · exact .inr forced

theorem balance_start
    (pubkey : String) :
    Metered.start.balance pubkey = 0 := by
  unfold Metered.balance
  rw [show Metered.start.ledger.pending pubkey = 0 from rfl, Int32.toInt_zero]
  rfl

/-- Calls that fit add the reads that they record. -/
theorem balance_run
    (pubkey : String)
    {metered : Metered}
    {calls : List ActivityCall}
    (fits : Lib.Along Metered.step Fits metered calls) :
    (Lib.run Metered.step metered calls).balance pubkey =
      metered.balance pubkey + (calls.map fun call => call.recorded pubkey).sum := by
  induction calls generalizing metered with
  | nil => exact (Int.add_zero _).symm
  | cons call rest inductionHypothesis =>
      rw [Lib.run_cons, inductionHypothesis fits.2, Metered.balance_step fits.1,
        List.map_cons, List.sum_cons, Int.add_assoc]

/-- Reads are conserved by the calls that fit; the pending count of every principal stays
below the threshold; and its successive flushes are a window apart unless the threshold forced
the later one, as any two of them are while the clock does not go backwards. -/
theorem activity_accounted
    (calls : List ActivityCall)
    (fits : Lib.Along Metered.step Fits Metered.start calls)
    (pubkey : String) :
    (Metered.after calls).taken pubkey + ((Metered.after calls).ledger.pending pubkey).toInt =
        (calls.map fun call => call.recorded pubkey).sum ∧
      (Metered.after calls).ledger.pending pubkey < pendingReadsFlushAt ∧
      ((Metered.after calls).flushesOf pubkey).IsChain SpacedFrom ∧
      ((calls.map ActivityCall.now).Pairwise (· ≤ ·) →
        ((Metered.after calls).flushesOf pubkey).Pairwise SpacedFrom) := by
  have conserved := balance_run pubkey fits
  rw [balance_start, Int.zero_add] at conserved
  have below := Metered.belowThreshold_after calls
  have spaced := Metered.spaced_after calls
  refine ⟨conserved, below pubkey, spaced.chain pubkey, fun monotone => ?_⟩
  refine pairwise_of_isChain (spaced.chain pubkey) ?_
  have inOrder := monotone.sublist (Metered.times_sublist calls)
  exact (List.pairwise_map.mp inOrder).filter _

/-- A reader whose delivered counts fit, with a clock that goes backwards. -/
theorem activity_accounted_backwards :
    (Metered.after [.read "reader" 3 1000, .read "reader" 49 900, .read "reader" 2 500]).taken
        "reader" +
      ((Metered.after [.read "reader" 3 1000, .read "reader" 49 900,
        .read "reader" 2 500]).ledger.pending "reader").toInt = 54 :=
  (activity_accounted [.read "reader" 3 1000, .read "reader" 49 900, .read "reader" 2 500]
    ⟨by decide, by decide, by decide, trivial⟩ "reader").1

/-- A count past the 32-bit range loses reads, and a flush that is forced after the clock went
back lets the next one come close to an earlier one. -/
theorem activity_lost_and_close :
    (∃ calls : List ActivityCall,
      (Metered.after calls).taken "reader" +
          ((Metered.after calls).ledger.pending "reader").toInt ≠
        (calls.map fun call => call.recorded "reader").sum) ∧
    ∃ calls : List ActivityCall,
      ¬((Metered.after calls).flushesOf "reader").Pairwise fun earlier later =>
        activityFlushSecs ≤ (later.now - earlier.now) + (earlier.now - later.now) ∨
          pendingReadsFlushAt ≤ later.reads :=
  ⟨⟨[.write "reader" 0, .read "reader" 1 1, .read "reader" 2147483647 2], by decide⟩,
    ⟨[.write "reader" 1000, .read "reader" 50 500, .write "reader" 800], by decide⟩⟩

end Relay
end NostrBbs
