import Mathlib.Data.List.Basic
import Mathlib.Order.Lattice

/-!
# Revisions

Items that each revise another one, named by its key.  One way to the last revision follows
the newest one of each item for some hops; another spreads over all revisions in rounds.
The first finds the newest revision of all only when the newest of each item leads there,
the second finds all that are reached within its rounds.
-/

namespace Lib

variable {Node Key Rank : Type*} [DecidableEq Key] [LinearOrder Rank]

/-- Items with the key of each, the key of what it revises and how new it is. -/
structure Revisions (Node Key Rank : Type*) where
  key : Node → Key
  target : Node → Option Key
  rank : Node → Rank
  nodes : List Node

namespace Revisions

variable (revisions : Revisions Node Key Rank)

/-- The revisions of a key. -/
def edits (start : Key) : List Node :=
  revisions.nodes.filter fun node => revisions.target node = some start

/-- The newer of two items, the later one of equals. -/
def newer (best : Option Node) (node : Node) : Option Node :=
  match best with
  | none => some node
  | some held => if revisions.rank held ≤ revisions.rank node then some node else some held

/-- The newest item of a list. -/
def newest (nodes : List Node) : Option Node :=
  nodes.foldl revisions.newer none

/-- The newest revision is followed for some hops. -/
def follow : Nat → Key → Option Node → Option Node
  | 0, _, last => last
  | hops + 1, start, last =>
      match revisions.newest (revisions.edits start) with
      | some node => follow hops (revisions.key node) (some node)
      | none => last

/-- An item that is reached is listed, unless its key is. -/
def visit (found : List Key × List Key) (node : Node) : List Key × List Key :=
  if revisions.key node ∈ found.1 then found
  else (found.1 ++ [revisions.key node], found.2 ++ [revisions.key node])

/-- One round from the keys of the round before: all keys, and those that are new. -/
def round (keys frontier : List Key) : List Key × List Key :=
  (frontier.flatMap revisions.edits).foldl revisions.visit (keys, [])

/-- The keys that some rounds reach. -/
def spread : Nat → List Key → List Key → List Key
  | 0, keys, _ => keys
  | rounds + 1, keys, frontier =>
      let found := revisions.round keys frontier
      if found.2 = [] then found.1 else spread rounds found.1 found.2

/-- An item revises a key. -/
def Edits (start : Key) (node : Node) : Prop :=
  node ∈ revisions.nodes ∧ revisions.target node = some start

/-- An item is the newest revision of a key. -/
def Newest (start : Key) (node : Node) : Prop :=
  revisions.Edits start node ∧
    ∀ other, revisions.Edits start other → revisions.rank other ≤ revisions.rank node

/-- An item revises a key over some items. -/
inductive Reached (start : Key) : Nat → Node → Prop
  | edit {node : Node} : revisions.Edits start node → Reached start 1 node
  | again {hops : Nat} {node last : Node} : Reached start hops node →
      revisions.Edits (revisions.key node) last → Reached start (hops + 1) last

/-- An item revises a key over some items, each the newest revision of the one before. -/
inductive Foremost : Key → Nat → Node → Prop
  | edit {start : Key} {node : Node} : revisions.Newest start node → Foremost start 1 node
  | again {start : Key} {hops : Nat} {node last : Node} : revisions.Newest start node →
      Foremost (revisions.key node) hops last → Foremost start (hops + 1) last

/-- An item revises a key, over some others or over none. -/
def Revises (start : Key) (node : Node) : Prop :=
  ∃ hops, revisions.Reached start hops node

section Rules

variable {revisions : Revisions Node Key Rank} {start : Key} {node last : Node} {hops : Nat}

omit [LinearOrder Rank] in
theorem mem_edits_iff :
    node ∈ revisions.edits start ↔ revisions.Edits start node := by
  unfold edits Edits
  rw [List.mem_filter, decide_eq_true_eq]

omit [LinearOrder Rank] in
theorem edits_eq_nil_iff :
    revisions.edits start = [] ↔ ∀ node, ¬revisions.Edits start node := by
  rw [List.eq_nil_iff_forall_not_mem]
  simp only [mem_edits_iff]

/-! ## The newest revision -/

omit [DecidableEq Key] in
/-- The newest item is among the items and none of them is newer. -/
theorem foldl_newer
    (nodes : List Node)
    (best : Option Node) :
    (nodes.foldl revisions.newer best = none ↔ nodes = [] ∧ best = none) ∧
      ∀ node, nodes.foldl revisions.newer best = some node →
        (node ∈ nodes ∨ best = some node) ∧
          ∀ other, other ∈ nodes ∨ best = some other →
            revisions.rank other ≤ revisions.rank node := by
  induction nodes generalizing best with
  | nil =>
      refine ⟨⟨fun isNone => ⟨rfl, isNone⟩, And.right⟩, fun node isBest => ⟨.inr isBest, ?_⟩⟩
      rintro other (isOther | isOther)
      · cases isOther
      · rw [List.foldl_nil, isOther, Option.some.injEq] at isBest
        rw [isBest]
  | cons first nodes inductionHypothesis =>
      obtain ⟨held, isHeld, drawn, isNewer⟩ : ∃ held, revisions.newer best first = some held ∧
          (held = first ∨ best = some held) ∧
          ∀ other, other = first ∨ best = some other →
            revisions.rank other ≤ revisions.rank held := by
        unfold newer
        cases best with
        | none =>
            refine ⟨first, rfl, .inl rfl, ?_⟩
            rintro other (rfl | isOther)
            · exact le_rfl
            · cases isOther
        | some before =>
            dsimp only
            split
            · rename_i notOlder
              refine ⟨first, rfl, .inl rfl, ?_⟩
              rintro other (rfl | isOther)
              · exact le_rfl
              · cases isOther
                exact notOlder
            · rename_i older
              refine ⟨before, rfl, .inr rfl, ?_⟩
              rintro other (rfl | isOther)
              · exact (lt_of_not_ge older).le
              · cases isOther
                exact le_rfl
      obtain ⟨none_iff, some_spec⟩ := inductionHypothesis (revisions.newer best first)
      rw [List.foldl_cons]
      constructor
      · rw [none_iff, isHeld]
        exact iff_of_false (fun isNone => by cases isNone.2) fun isNil => by cases isNil.1
      · intro node isNewest
        obtain ⟨isDrawn, isGreatest⟩ := some_spec node isNewest
        constructor
        · rcases isDrawn with isLater | isFirst
          · exact .inl (List.mem_cons_of_mem _ isLater)
          · rw [isHeld, Option.some.injEq] at isFirst
            subst isFirst
            rcases drawn with rfl | isBest
            · exact .inl (List.mem_cons_self ..)
            · exact .inr isBest
        · have heldBelow := isGreatest held (.inr isHeld)
          rintro other (isOther | isBest)
          · rcases List.mem_cons.mp isOther with isFirst | isLater
            · exact (isNewer other (.inl isFirst)).trans heldBelow
            · exact isGreatest other (.inl isLater)
          · exact (isNewer other (.inr isBest)).trans heldBelow

theorem newest_eq_none_iff :
    revisions.newest (revisions.edits start) = none ↔ ∀ node, ¬revisions.Edits start node := by
  rw [← edits_eq_nil_iff]
  exact (foldl_newer _ none).1.trans (and_iff_left rfl)

theorem newest_of_eq_some
    (isNewest : revisions.newest (revisions.edits start) = some node) :
    revisions.Newest start node := by
  obtain ⟨isDrawn, isGreatest⟩ := (foldl_newer _ none).2 node isNewest
  refine ⟨mem_edits_iff.mp (isDrawn.resolve_right (Option.some_ne_none node).symm), ?_⟩
  exact fun other isEdit => isGreatest other (.inl (mem_edits_iff.mpr isEdit))

/-- Items of one rank are one item. -/
def Ranked (revisions : Revisions Node Key Rank) : Prop :=
  ∀ node ∈ revisions.nodes, ∀ other ∈ revisions.nodes,
    revisions.rank node = revisions.rank other → node = other

/-- An item that revises a key is not older than any other that does. -/
def NewestOfAll (revisions : Revisions Node Key Rank) (start : Key) (node : Node) : Prop :=
  revisions.Revises start node ∧
    ∀ other, revisions.Revises start other → revisions.rank other ≤ revisions.rank node

omit [DecidableEq Key] [LinearOrder Rank] in
theorem Revises.mem
    (revises : revisions.Revises start node) :
    node ∈ revisions.nodes := by
  obtain ⟨hops, reached⟩ := revises
  cases reached with
  | edit isEdit => exact isEdit.1
  | again reached isEdit => exact isEdit.1

omit [DecidableEq Key] in
theorem NewestOfAll.unique
    (ranked : revisions.Ranked)
    (isNewest : revisions.NewestOfAll start node)
    (isOther : revisions.NewestOfAll start last) :
    node = last :=
  ranked node isNewest.1.mem last isOther.1.mem
    (le_antisymm (isOther.2 node isNewest.1) (isNewest.2 last isOther.1))

omit [DecidableEq Key] in
theorem exists_newestOfAll
    (revises : revisions.Revises start node) :
    ∃ newest, revisions.NewestOfAll start newest := by
  classical
  have mem_iff : ∀ other,
      other ∈ revisions.nodes.filter (fun other => revisions.Revises start other) ↔
        revisions.Revises start other := by
    intro other
    rw [List.mem_filter, decide_eq_true_eq]
    exact and_iff_right_of_imp Revises.mem
  obtain ⟨none_iff, some_spec⟩ := @foldl_newer _ _ _ _ revisions
    (revisions.nodes.filter fun other => revisions.Revises start other) none
  cases found : (revisions.nodes.filter fun other => revisions.Revises start other).foldl
      revisions.newer none with
  | none =>
      have isMember := (mem_iff node).mpr revises
      rw [(none_iff.mp found).1] at isMember
      cases isMember
  | some newest =>
      obtain ⟨isDrawn, isGreatest⟩ := some_spec newest found
      refine ⟨newest, (mem_iff newest).mp (isDrawn.resolve_right (Option.some_ne_none newest).symm),
        fun other isOther => isGreatest other (.inl ((mem_iff other).mpr isOther))⟩

omit [DecidableEq Key] [LinearOrder Rank] in
/-- Something revises a key when something does so directly. -/
theorem exists_edits_of_revises
    (revises : revisions.Revises start node) :
    ∃ first, revisions.Edits start first := by
  obtain ⟨hops, reached⟩ := revises
  induction reached with
  | edit isEdit => exact ⟨_, isEdit⟩
  | again reached isEdit inductionHypothesis => exact inductionHypothesis

/-! ## Following the newest revision -/

omit [DecidableEq Key] in
theorem Newest.unique
    (ranked : revisions.Ranked)
    (isNewest : revisions.Newest start node)
    (isOther : revisions.Newest start last) :
    node = last :=
  ranked node isNewest.1.1 last isOther.1.1
    (le_antisymm (isOther.2 node isNewest.1) (isNewest.2 last isOther.1))

omit [DecidableEq Key] in
theorem Foremost.pos
    (foremost : revisions.Foremost start hops last) :
    0 < hops := by
  cases foremost with
  | edit isNewest => exact Nat.one_pos
  | again isNewest foremost => exact Nat.succ_pos _

/-- The last item that is followed is a foremost one that is not revised again, or that the hops
end at. -/
theorem follow_eq_some_iff
    (ranked : revisions.Ranked)
    (hops : Nat)
    (start : Key)
    (before : Option Node) :
    revisions.follow hops start before = some last ↔
      (hops = 0 ∨ ∀ node, ¬revisions.Edits start node) ∧ before = some last ∨
        ∃ taken ≤ hops, revisions.Foremost start taken last ∧
          (taken = hops ∨ ∀ node, ¬revisions.Edits (revisions.key last) node) := by
  induction hops generalizing start before with
  | zero =>
      unfold follow
      refine ⟨fun isLast => .inl ⟨.inl rfl, isLast⟩, ?_⟩
      rintro (⟨-, isLast⟩ | ⟨taken, within, foremost, -⟩)
      · exact isLast
      · exact absurd foremost.pos (Nat.not_lt.mpr within)
  | succ hops inductionHypothesis =>
      unfold follow
      cases found : revisions.newest (revisions.edits start) with
      | none =>
          have noEdit := newest_eq_none_iff.mp found
          refine ⟨fun isLast => .inl ⟨.inr noEdit, isLast⟩, ?_⟩
          rintro (⟨-, isLast⟩ | ⟨taken, -, foremost, -⟩)
          · exact isLast
          · cases foremost with
            | edit isNewest => exact absurd isNewest.1 (noEdit last)
            | again isNewest => exact absurd isNewest.1 (noEdit _)
      | some node =>
          have isNewest := newest_of_eq_some found
          dsimp only
          rw [inductionHypothesis]
          constructor
          · rintro (⟨ends, isLast⟩ | ⟨taken, within, foremost, ends⟩)
            · cases isLast
              refine .inr ⟨1, by omega, .edit isNewest, ends.imp_left ?_⟩
              rintro rfl
              rfl
            · exact .inr ⟨taken + 1, by omega, .again isNewest foremost,
                ends.imp_left (congrArg (· + 1))⟩
          · rintro (⟨noHop | noEdit, -⟩ | ⟨taken, within, foremost, ends⟩)
            · cases noHop
            · exact absurd isNewest.1 (noEdit node)
            · cases foremost with
              | edit isLast =>
                  rw [isNewest.unique ranked isLast]
                  exact .inl ⟨ends.imp_left fun isEnd => by omega, rfl⟩
              | again isFirst foremost =>
                  rw [isNewest.unique ranked isFirst]
                  exact .inr ⟨_, by omega, foremost, ends.imp_left fun isEnd => by omega⟩

/-- Nothing is followed when nothing revises the start. -/
theorem follow_eq_none_iff
    (hops : Nat)
    (start : Key) :
    revisions.follow (hops + 1) start none = none ↔ ∀ node, ¬revisions.Edits start node := by
  have keeps : ∀ (hops : Nat) (start : Key) (node : Node),
      revisions.follow hops start (some node) ≠ none := by
    intro hops
    induction hops with
    | zero => exact fun start node => Option.some_ne_none node
    | succ hops inductionHypothesis =>
        intro start node
        unfold follow
        split
        · exact inductionHypothesis _ _
        · exact Option.some_ne_none node
  rw [← newest_eq_none_iff]
  unfold follow
  cases revisions.newest (revisions.edits start) with
  | none => exact iff_of_true rfl rfl
  | some node => exact iff_of_false (keeps hops _ node) (Option.some_ne_none node)

/-! ## Spreading over the revisions -/

omit [LinearOrder Rank] in
theorem foldl_visit
    (nodes : List Node)
    (found : List Key × List Key)
    (wanted : Key) :
    (wanted ∈ (nodes.foldl revisions.visit found).1 ↔
        wanted ∈ found.1 ∨ ∃ node ∈ nodes, revisions.key node = wanted) ∧
      (wanted ∈ (nodes.foldl revisions.visit found).2 ↔
        wanted ∈ found.2 ∨ wanted ∉ found.1 ∧ ∃ node ∈ nodes, revisions.key node = wanted) := by
  induction nodes generalizing found with
  | nil => simp
  | cons node nodes inductionHypothesis =>
      rw [List.foldl_cons, (inductionHypothesis _).1, (inductionHypothesis _).2]
      unfold visit
      by_cases isListed : revisions.key node ∈ found.1
      · rw [if_pos isListed]
        have isOld : revisions.key node = wanted → wanted ∈ found.1 := fun same => same ▸ isListed
        simp only [List.exists_mem_cons_iff]
        tauto
      · rw [if_neg isListed]
        simp only [List.mem_append, List.mem_singleton, List.exists_mem_cons_iff]
        have isNew : wanted = revisions.key node → wanted ∉ found.1 := fun same => same ▸ isListed
        have same_iff : wanted = revisions.key node ↔ revisions.key node = wanted := eq_comm
        tauto

omit [LinearOrder Rank] in
theorem mem_round_iff
    (keys frontier : List Key)
    (wanted : Key) :
    (wanted ∈ (revisions.round keys frontier).1 ↔
        wanted ∈ keys ∨ ∃ start ∈ frontier, ∃ node,
          revisions.Edits start node ∧ revisions.key node = wanted) ∧
      (wanted ∈ (revisions.round keys frontier).2 ↔
        wanted ∉ keys ∧ ∃ start ∈ frontier, ∃ node,
          revisions.Edits start node ∧ revisions.key node = wanted) := by
  have reached_iff : (∃ node ∈ frontier.flatMap revisions.edits, revisions.key node = wanted) ↔
      ∃ start ∈ frontier, ∃ node, revisions.Edits start node ∧ revisions.key node = wanted := by
    simp only [List.mem_flatMap, mem_edits_iff]
    constructor
    · rintro ⟨node, ⟨start, isStart, isEdit⟩, isKey⟩
      exact ⟨start, isStart, node, isEdit, isKey⟩
    · rintro ⟨start, isStart, node, isEdit, isKey⟩
      exact ⟨node, ⟨start, isStart, isEdit⟩, isKey⟩
  rw [← reached_iff]
  unfold round
  rw [(foldl_visit _ _ wanted).1, (foldl_visit _ _ wanted).2]
  simp

/-- What some rounds found: the keys that they reach, of which those outside the frontier were
followed. -/
structure Spread (revisions : Revisions Node Key Rank) (start : Key) (rounds : Nat)
    (keys frontier : List Key) : Prop where
  sound : ∀ wanted ∈ keys, wanted = start ∨
    ∃ hops ≤ rounds, ∃ node, revisions.Reached start hops node ∧ revisions.key node = wanted
  complete : start ∈ keys ∧ ∀ hops ≤ rounds, ∀ node, revisions.Reached start hops node →
    revisions.key node ∈ keys
  drawn : ∀ wanted ∈ frontier, wanted ∈ keys
  closed : ∀ wanted ∈ keys, wanted ∉ frontier → ∀ node, revisions.Edits wanted node →
    revisions.key node ∈ keys

namespace Spread

variable {rounds : Nat} {keys frontier : List Key}

omit [LinearOrder Rank] [DecidableEq Key] in
theorem alone
    (revisions : Revisions Node Key Rank)
    (start : Key) :
    Spread revisions start 0 [start] [start] where
  sound := fun wanted isStart => .inl (List.mem_singleton.mp isStart)
  complete := by
    refine ⟨List.mem_singleton_self start, fun hops within node reached => ?_⟩
    cases reached with
    | edit isEdit => cases within
    | again reached isEdit => cases within
  drawn := fun wanted isStart => isStart
  closed := fun wanted isStart notStart => absurd isStart notStart

omit [LinearOrder Rank] in
/-- One round more reaches the revisions of what the round before found. -/
theorem next
    (spread : Spread revisions start rounds keys frontier) :
    Spread revisions start (rounds + 1) (revisions.round keys frontier).1
      (revisions.round keys frontier).2 where
  sound := by
    intro wanted isKey
    rcases (mem_round_iff keys frontier wanted).1.mp isKey with isOld | ⟨last, isLast, node, isEdit,
      isWanted⟩
    · rcases spread.sound wanted isOld with isStart | ⟨hops, within, node, reached, isWanted⟩
      · exact .inl isStart
      · exact .inr ⟨hops, by omega, node, reached, isWanted⟩
    · rcases spread.sound last (spread.drawn last isLast) with rfl | ⟨hops, within, before, reached,
        rfl⟩
      · exact .inr ⟨1, by omega, node, .edit isEdit, isWanted⟩
      · exact .inr ⟨hops + 1, by omega, node, .again reached isEdit, isWanted⟩
  complete := by
    have onward : ∀ {last : Key} {node : Node}, last ∈ keys → revisions.Edits last node →
        revisions.key node ∈ (revisions.round keys frontier).1 := by
      intro last node isKey isEdit
      rw [(mem_round_iff keys frontier _).1]
      by_cases isLast : last ∈ frontier
      · exact .inr ⟨last, isLast, node, isEdit, rfl⟩
      · exact .inl (spread.closed last isKey isLast node isEdit)
    refine ⟨(mem_round_iff keys frontier start).1.mpr (.inl spread.complete.1), ?_⟩
    intro hops within node reached
    cases reached with
    | edit isEdit => exact onward spread.complete.1 isEdit
    | again reached isEdit => exact onward (spread.complete.2 _ (by omega) _ reached) isEdit
  drawn := by
    intro wanted isNew
    exact (mem_round_iff keys frontier wanted).1.mpr
      (.inr ((mem_round_iff keys frontier wanted).2.mp isNew).2)
  closed := by
    intro wanted isKey notNew node isEdit
    have isOld : wanted ∈ keys := by
      by_contra notOld
      exact notNew ((mem_round_iff keys frontier wanted).2.mpr ⟨notOld,
        ((mem_round_iff keys frontier wanted).1.mp isKey).resolve_left notOld⟩)
    rw [(mem_round_iff keys frontier _).1]
    by_cases isLast : wanted ∈ frontier
    · exact .inr ⟨wanted, isLast, node, isEdit, rfl⟩
    · exact .inl (spread.closed wanted isOld isLast node isEdit)

omit [LinearOrder Rank] [DecidableEq Key] in
/-- When a round finds nothing new, nothing is left to be found. -/
theorem whole
    (spread : Spread revisions start rounds keys [])
    (reached : revisions.Reached start hops node) :
    revisions.key node ∈ keys := by
  induction reached with
  | edit isEdit => exact spread.closed start spread.complete.1 List.not_mem_nil _ isEdit
  | again reached isEdit inductionHypothesis =>
      exact spread.closed _ inductionHypothesis List.not_mem_nil _ isEdit

omit [LinearOrder Rank] in
theorem mem_spread_iff
    (spread : Spread revisions start rounds keys frontier)
    (more : Nat)
    (wanted : Key) :
    wanted ∈ revisions.spread more keys frontier ↔
      wanted = start ∨ ∃ hops ≤ rounds + more, ∃ node,
        revisions.Reached start hops node ∧ revisions.key node = wanted := by
  induction more generalizing rounds keys frontier with
  | zero =>
      refine ⟨spread.sound wanted, ?_⟩
      rintro (rfl | ⟨hops, within, node, reached, rfl⟩)
      · exact spread.complete.1
      · exact spread.complete.2 hops within node reached
  | succ more inductionHypothesis =>
      unfold Revisions.spread
      dsimp only
      split
      · rename_i nothingNew
        have last := spread.next
        rw [nothingNew] at last
        constructor
        · intro isKey
          rcases last.sound wanted isKey with isStart | ⟨hops, within, reached⟩
          · exact .inl isStart
          · exact .inr ⟨hops, by omega, reached⟩
        · rintro (rfl | ⟨hops, -, node, reached, rfl⟩)
          · exact last.complete.1
          · exact last.whole reached
      · rw [inductionHypothesis spread.next, Nat.add_assoc, Nat.add_comm 1 more]

end Spread

end Rules

end Revisions
end Lib
