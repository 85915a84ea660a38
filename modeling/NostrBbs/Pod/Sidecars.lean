import NostrBbs.Pod.PolicyIntegrity

/-!
# The order of sidecars

A resource's policy is to be the first sidecar that is present: its own, then those of the
containers that enclose it, from the innermost to the root.  The walk that looks for it takes
several slashes for one, and so passes over the containers between them.
-/

namespace NostrBbs
namespace Pod

/-! ## The order -/

/-- The containers that enclose a path, from the innermost to the root: its parts up to a
slash. -/
def enclosingContainers (path : List Char) : List (List Char) :=
  (path.inits.filter fun start => start != path && start.getLast? == some '/').reverse

/-- The sidecar of a container or of a resource. -/
def sidecarOf (path : List Char) : String :=
  String.ofList (path ++ ".acl".toList)

/-- The sidecars of an enclosing container: the one in it, and but for the root the one beside
it. -/
def containerProbes (container : List Char) : List (String × Bool) :=
  (sidecarOf container, true) ::
    if container = ['/'] then [] else [(sidecarOf container.dropLast, true)]

/-- The sidecars that apply to a resource, the most specific first, with whether they are
inherited. -/
def policyOrder (resourcePath : String) : List (String × Bool) :=
  let resource := if resourcePath = "" then "/" else resourcePath
  (resource ++ ".acl", false) :: (enclosingContainers resource.toList).flatMap containerProbes

/-- What reading each sidecar answers: nothing when it fails. -/
abbrev Sidecars := String → Option (Option Bytes)

/-- The first sidecar that is not known to be absent. -/
def firstPresent (sidecars : Sidecars) (probes : List (String × Bool)) : Option (String × Bool) :=
  probes.find? fun probe => sidecars probe.1 != some none

/-! ## Reading -/

/-- Where a policy is looked for. -/
inductive PolicySource where
  | sidecar (path : String)
  | wholePod
deriving DecidableEq

/-- Operations answered from sidecars that stay as they are, with what was read on the way. -/
def answerReads (sidecars : Sidecars) (fallback : Option (Option Bytes))
    (trail : List PolicySource) : (op : Op) → List PolicySource × op.Answer
  | .get key =>
      (trail ++ [.sidecar key.path],
        (sidecars key.path).map (Option.map fun bytes => ⟨key, bytes, "application/ld+json"⟩))
  | .kvGet _ => (trail ++ [.wholePod], fallback)
  | op => (trail, op.failure)

namespace Upstream

variable (upstream : Upstream)

/-- The policy that a reading settles for: none when it failed or the policy is invalid. -/
def settledPolicy (read : Option (Option Bytes)) (inherited : Bool) : Option AclDocument :=
  (read.join).bind fun body => upstream.classifyKitPolicy body inherited

/-- The lookup ends at the first sidecar that is present and settles for its policy, marked as
inherited unless it is the resource's own; it reads the policy of the whole pod when none is. -/
def FindsFirst (ownerPubkey resourcePath : String) (sidecars : Sidecars)
    (fallback : Option (Option Bytes)) : Prop :=
  let found := (upstream.findEffectiveAcl ownerPubkey resourcePath).run
    (answerReads sidecars fallback) []
  match firstPresent sidecars (policyOrder resourcePath) with
  | some probe =>
      found.1.getLast? = some (.sidecar probe.1) ∧ .wholePod ∉ found.1 ∧
        found.2 = upstream.settledPolicy (sidecars probe.1) probe.2 ∧
        ∀ document, found.2 = some document → document.inherited = probe.2
  | none =>
      found.1.getLast? = some .wholePod ∧ found.2 = upstream.settledPolicy fallback false

/-- A settled policy carries the mark it is read with. -/
def StampsInherited : Prop :=
  ∀ bytes inherited document, upstream.classifyPolicy bytes inherited = some document →
    document.inherited = inherited

end Upstream

/-- A sidecar that the walk passes over: the one in a container whose path goes on with another
slash, but for the root, or the one beside a container that several slashes end. -/
def PassedOver (path : List Char) (probePath : String) : Prop :=
  (∃ container, container ≠ ['/'] ∧ container.getLast? = some '/' ∧
    (container ++ ['/']) <+: path ∧ probePath = sidecarOf container) ∨
  ∃ stem more, stem ≠ [] ∧ stem.getLast? ≠ some '/' ∧
    path = stem ++ '/' :: '/' :: List.replicate more '/' ∧ probePath = sidecarOf stem

/-! ## Lists of probes -/

/-- A list of probes is another one without those that are passed over, and with a probe that
is repeated taken once. -/
inductive Follows (passed : String → Prop) :
    List (String × Bool) → List (String × Bool) → Prop
  | nil : Follows passed [] []
  | same {walked order} (probe : String × Bool) (kept : ¬passed probe.1)
      (rest : Follows passed walked order) : Follows passed (probe :: walked) (probe :: order)
  | skip {walked order} (probe : String × Bool) (isPassed : passed probe.1)
      (rest : Follows passed walked order) : Follows passed walked (probe :: order)
  | twice {walked order} (probe : String × Bool)
      (rest : Follows passed walked (probe :: order)) :
      Follows passed walked (probe :: probe :: order)

section Follows

variable {passed : String → Prop} {walked order : List (String × Bool)}

theorem Follows.not_passed
    (follows : Follows passed walked order) :
    ∀ probe ∈ walked, ¬passed probe.1 := by
  induction follows with
  | nil => simp
  | same probe kept rest inductionHypothesis =>
      rw [List.forall_mem_cons]
      exact ⟨kept, inductionHypothesis⟩
  | skip probe isPassed rest inductionHypothesis => exact inductionHypothesis
  | twice probe rest inductionHypothesis => exact inductionHypothesis

/-- A walk finds the first sidecar of the order that is present, unless it passes over it. -/
theorem Follows.firstPresent_iff
    (follows : Follows passed walked order)
    (sidecars : Sidecars) :
    (∀ probe, firstPresent sidecars order = some probe →
      (firstPresent sidecars walked = some probe ↔ ¬passed probe.1)) ∧
      (firstPresent sidecars order = none → firstPresent sidecars walked = none) := by
  unfold firstPresent
  induction follows with
  | nil => simp
  | same probe kept rest inductionHypothesis =>
      rw [List.find?_cons, List.find?_cons]
      split
      · simp [kept]
      · exact inductionHypothesis
  | skip probe isPassed rest inductionHypothesis =>
      rw [List.find?_cons]
      split
      · refine ⟨?_, by simp⟩
        intro first isFirst
        obtain rfl := Option.some.inj isFirst
        refine iff_of_false ?_ (not_not_intro isPassed)
        exact fun found => rest.not_passed _ (List.mem_of_find?_eq_some found) isPassed
      · exact inductionHypothesis
  | twice probe rest inductionHypothesis =>
      rw [List.find?_cons] at inductionHypothesis ⊢
      split
      · rename_i present
        rw [present] at inductionHypothesis
        exact inductionHypothesis
      · rename_i absent
        rw [absent] at inductionHypothesis
        rw [List.find?_cons, absent]
        exact inductionHypothesis

end Follows

/-! ## The lookup over a list of probes -/

section Lookup

variable (upstream : Upstream) {sidecars : Sidecars} {fallback : Option (Option Bytes)}
  {ownerPubkey : String}

/-- The sidecars that a walk reads. -/
def visited (sidecars : Sidecars) : List (String × Bool) → List PolicySource
  | [] => []
  | probe :: probes =>
      .sidecar probe.1 :: if sidecars probe.1 = some none then visited sidecars probes else []

theorem wholePod_not_mem_visited
    (probes : List (String × Bool)) :
    .wholePod ∉ visited sidecars probes := by
  induction probes with
  | nil => exact List.not_mem_nil
  | cons probe probes inductionHypothesis =>
      rw [visited, List.mem_cons, not_or]
      refine ⟨by simp, ?_⟩
      split
      · exact inductionHypothesis
      · exact List.not_mem_nil

theorem getLast?_visited
    {probes : List (String × Bool)}
    {probe : String × Bool}
    (isFirst : firstPresent sidecars probes = some probe) :
    (visited sidecars probes).getLast? = some (.sidecar probe.1) := by
  unfold firstPresent at isFirst
  induction probes with
  | nil => cases isFirst
  | cons head probes inductionHypothesis =>
      rw [List.find?_cons] at isFirst
      rw [visited]
      split at isFirst
      · rename_i present
        rw [if_neg (by simpa using present)]
        obtain rfl := Option.some.inj isFirst
        rfl
      · rename_i absent
        rw [if_pos (by simpa using absent), List.getLast?_cons, inductionHypothesis isFirst]
        rfl

/-- The walk ends at the first sidecar that is present. -/
theorem walkSidecars_visits
    (probes : List (String × Bool))
    (trail : List PolicySource) :
    (upstream.walkSidecars ownerPubkey probes).run (answerReads sidecars fallback) trail =
      (trail ++ visited sidecars probes,
        (firstPresent sidecars probes).map fun probe =>
          upstream.settledPolicy (sidecars probe.1) probe.2) := by
  unfold firstPresent
  induction probes generalizing trail with
  | nil => simp [Upstream.walkSidecars, visited]
  | cons probe probes inductionHypothesis =>
      obtain ⟨probePath, inherited⟩ := probe
      rw [Upstream.walkSidecars, Lib.Program.call_bind, Lib.Program.run_perform, List.find?_cons,
        visited]
      rcases read : sidecars probePath with - | - | bytes
      · have isPresent : ((none : Option (Option Bytes)) != some none) = true := rfl
        rw [isPresent]
        simp [answerReads, read, Upstream.settledPolicy]
      · simp [answerReads, read, inductionHypothesis]
      · have isPresent : (some (some bytes) != some none) = true := by simp
        rw [isPresent]
        simp [answerReads, read, Upstream.settledPolicy]

/-- The lookup settles at the first sidecar that is present, and else at the policy of the
whole pod. -/
theorem findEffectiveAcl_settles
    (resourcePath : String) :
    (upstream.findEffectiveAcl ownerPubkey resourcePath).run (answerReads sidecars fallback) [] =
      (firstPresent sidecars (aclProbeSequence resourcePath)).elim
        (visited sidecars (aclProbeSequence resourcePath) ++ [.wholePod],
          upstream.settledPolicy fallback false)
        (fun probe =>
          (visited sidecars (aclProbeSequence resourcePath),
            upstream.settledPolicy (sidecars probe.1) probe.2)) := by
  unfold Upstream.findEffectiveAcl
  rw [Lib.Program.run_bind, walkSidecars_visits]
  cases firstPresent sidecars (aclProbeSequence resourcePath) with
  | some probe => rfl
  | none =>
      rcases fallback with - | - | text
      · rfl
      · rfl
      · rfl

end Lookup

/-! ## Sidecars from the last slash back -/

/-- The sidecars of the containers among the beginnings of a path, which is given from its end
back. -/
def higherProbes : List Char → List (String × Bool)
  | [] => []
  | char :: rest =>
      if char = '/' then containerProbes (char :: rest).reverse ++ higherProbes rest
      else higherProbes rest

theorem inits_reverse_cons
    (char : Char)
    (back : List Char) :
    (char :: back).reverse.inits = back.reverse.inits ++ [(char :: back).reverse] := by
  rw [List.reverse_cons, List.inits_append]
  simp

theorem higherProbes_eq
    (back : List Char) :
    higherProbes back =
      ((back.reverse.inits.filter fun start => start.getLast? == some '/').reverse).flatMap
        containerProbes := by
  induction back with
  | nil => rfl
  | cons char rest inductionHypothesis =>
      rw [higherProbes, inits_reverse_cons, List.filter_append, List.reverse_append,
        List.flatMap_append, ← inductionHypothesis]
      split
      · rename_i isSlash
        have ends : ((char :: rest).reverse.getLast? == some '/') = true := by simp [isSlash]
        rw [List.filter_singleton, ends, cond_true]
        simp
      · rename_i notSlash
        have ends : ((char :: rest).reverse.getLast? == some '/') = false := by simp [notSlash]
        rw [List.filter_singleton, ends, cond_false]
        rfl

/-- The containers that enclose a path are the beginnings of what is before its last
character. -/
theorem enclosingContainers_probes
    (char : Char)
    (back : List Char) :
    (enclosingContainers (char :: back).reverse).flatMap containerProbes = higherProbes back := by
  have shorter : ∀ start ∈ back.reverse.inits, (start != (char :: back).reverse) = true := by
    intro start isStart
    rw [bne_iff_ne]
    rintro rfl
    have length := ((List.mem_inits _ _).mp isStart).length_le
    simp at length
  rw [higherProbes_eq]
  unfold enclosingContainers
  have itself : ((char :: back).reverse != (char :: back).reverse) = false := bne_self_eq_false _
  rw [inits_reverse_cons, List.filter_append, List.filter_singleton, itself, Bool.false_and,
    cond_false, List.append_nil]
  congr 2
  apply List.filter_congr
  intro start isStart
  rw [shorter start isStart, Bool.true_and]

theorem sidecarOf_inj
    {first second : List Char} :
    sidecarOf first = sidecarOf second ↔ first = second := by
  constructor
  · intro same
    exact List.append_cancel_right (String.ofList_injective same)
  · rintro rfl
    rfl

/-! ## What is passed over -/

section Passing

variable {path : List Char}

/-- The root is never passed over. -/
theorem not_passedOver_root :
    ¬PassedOver path (sidecarOf ['/']) := by
  rintro (⟨container, notRoot, -, -, same⟩ | ⟨stem, more, -, noSlash, -, same⟩)
  · exact notRoot (sidecarOf_inj.mp same).symm
  · rw [← sidecarOf_inj.mp same] at noSlash
    exact noSlash rfl

/-- A container is not passed over when its path goes on with a name. -/
theorem not_passedOver_container
    {container rest : List Char}
    (isPath : path = container ++ rest)
    (isContainer : container.getLast? = some '/')
    (goesOn : rest.head? ≠ some '/') :
    ¬PassedOver path (sidecarOf container) := by
  rintro (⟨other, -, -, ⟨after, further⟩, same⟩ | ⟨stem, more, -, noSlash, -, same⟩)
  · obtain rfl := sidecarOf_inj.mp same
    rw [isPath, List.append_assoc, List.append_cancel_left_eq] at further
    rw [← further] at goesOn
    exact goesOn rfl
  · rw [← sidecarOf_inj.mp same] at noSlash
    exact noSlash isContainer

/-- What is beside a container is not passed over when a name follows its slashes. -/
theorem not_passedOver_beside
    {stem rest : List Char}
    {slashes : Nat}
    (isPath : path = stem ++ (List.replicate slashes '/' ++ rest))
    (noSlash : stem.getLast? ≠ some '/')
    (someRest : rest ≠ [])
    (goesOn : rest.head? ≠ some '/') :
    ¬PassedOver path (sidecarOf stem) := by
  rintro (⟨container, -, isContainer, -, same⟩ | ⟨other, more, -, -, ends, same⟩)
  · rw [sidecarOf_inj.mp same] at noSlash
    exact noSlash isContainer
  · obtain rfl := sidecarOf_inj.mp same
    rw [isPath, List.append_cancel_left_eq] at ends
    obtain ⟨head, tail, rfl⟩ := List.exists_cons_of_ne_nil someRest
    have isSlash : head ∈ List.replicate (more + 2) '/' := by
      rw [show List.replicate (more + 2) '/' = '/' :: '/' :: List.replicate more '/' from rfl,
        ← ends]
      exact List.mem_append_right _ List.mem_cons_self
    rw [List.eq_of_mem_replicate isSlash] at goesOn
    exact goesOn rfl

theorem passedOver_container
    {container rest : List Char}
    (isPath : path = container ++ '/' :: rest)
    (isContainer : container.getLast? = some '/')
    (notRoot : container ≠ ['/']) :
    PassedOver path (sidecarOf container) := by
  refine .inl ⟨container, notRoot, isContainer, ⟨rest, ?_⟩, rfl⟩
  rw [isPath, List.append_assoc]
  rfl

theorem not_passedOver_own
    (path : List Char) :
    ¬PassedOver path (sidecarOf path) := by
  rintro (⟨container, -, -, further, same⟩ | ⟨stem, more, -, -, ends, same⟩)
  · obtain rfl := sidecarOf_inj.mp same
    have length := further.length_le
    simp at length
  · obtain rfl := sidecarOf_inj.mp same
    have length := congrArg List.length ends
    simp at length

end Passing

/-! ## The walk over the containers -/

section Walk

variable {path : List Char}

theorem trimEndSlashes_reverse
    (back : List Char) :
    trimEndSlashes back.reverse = (back.dropWhile (· == '/')).reverse := by
  unfold trimEndSlashes
  rw [List.reverse_reverse]

/-- The container above a path ends at the slash before its last name. -/
theorem parentDir_reverse
    {back tail : List Char}
    (isAbove : (back.dropWhile (· == '/')).dropWhile (· != '/') = '/' :: tail) :
    parentDir back.reverse = ('/' :: tail).reverse := by
  have notRoot : ¬(back.reverse == ['/'] || back.reverse.isEmpty) = true := by
    intro isRoot
    rw [Bool.or_eq_true, beq_iff_eq, List.isEmpty_iff, List.reverse_eq_nil_iff,
      List.reverse_eq_iff] at isRoot
    obtain rfl | rfl := isRoot
    · cases isAbove
    · cases isAbove
  unfold parentDir beforeLastSlash
  rw [if_neg notRoot, trimEndSlashes_reverse, List.reverse_reverse, isAbove]
  cases tail with
  | nil => rfl
  | cons char tail =>
      dsimp only
      split
      · rename_i isNone
        cases isNone
      · rename_i isEmpty
        simp at isEmpty
      · rename_i start isStart
        rw [← Option.some.inj isStart]
        simp

theorem parentDir_of_slashes
    {back : List Char}
    (isEmpty : back.dropWhile (· == '/') = []) :
    parentDir back.reverse = ['/'] := by
  unfold parentDir beforeLastSlash
  rw [trimEndSlashes_reverse, isEmpty]
  split <;> rfl

theorem higherProbes_dropWhile
    (back : List Char) :
    higherProbes (back.dropWhile (· != '/')) = higherProbes back := by
  induction back with
  | nil => rfl
  | cons char rest inductionHypothesis =>
      by_cases isSlash : char = '/'
      · rw [List.dropWhile_cons_of_neg (by simp [isSlash])]
      · rw [List.dropWhile_cons_of_pos (by simp [isSlash]), inductionHypothesis, higherProbes,
          if_neg isSlash]

theorem enclosingProbes_root
    {levels : Nat}
    (positive : 0 < levels) :
    enclosingProbes levels ['/'] = [(sidecarOf ['/'], true)] := by
  obtain ⟨fewer, rfl⟩ := Nat.exists_eq_succ_of_ne_zero (Nat.ne_of_gt positive)
  rfl

theorem higherProbes_slash
    {rest : List Char}
    (notRoot : rest ≠ []) :
    higherProbes ('/' :: rest) =
      (sidecarOf ('/' :: rest).reverse, true) :: (sidecarOf rest.reverse, true) ::
        higherProbes rest := by
  have notEmpty : ('/' :: rest).reverse ≠ ['/'] := by
    intro isRoot
    rw [List.reverse_eq_iff] at isRoot
    exact notRoot (List.cons.inj isRoot).2
  rw [higherProbes, if_pos rfl, containerProbes, if_neg notEmpty, List.reverse_cons,
    List.dropLast_concat]
  rfl

/-- The probes above a run of slashes: that beside the container, and those above it. -/
def probesBeside (back : List Char) : List (String × Bool) :=
  if back = [] then [(sidecarOf ['/'], true)]
  else (sidecarOf back.reverse, true) :: higherProbes back

/-- A run of slashes is passed over up to the first. -/
theorem follows_run
    {walked : List (String × Bool)}
    {back rest : List Char}
    (slashes : Nat)
    (isPath : path = (List.replicate (slashes + 1) '/' ++ back).reverse ++ '/' :: rest)
    (beside : Follows (PassedOver path) walked (probesBeside back)) :
    Follows (PassedOver path) walked (higherProbes (List.replicate (slashes + 1) '/' ++ back)) := by
  have ends : ∀ rest : List Char, ('/' :: rest).reverse.getLast? = some '/' := by
    intro rest
    simp
  have isRoot : ∀ {rest : List Char}, ('/' :: rest).reverse = ['/'] → rest = [] := by
    intro rest same
    rw [List.reverse_eq_iff] at same
    exact (List.cons.inj same).2
  induction slashes generalizing rest with
  | zero =>
      rw [List.replicate_one, List.singleton_append] at isPath ⊢
      unfold probesBeside at beside
      by_cases isEmpty : back = []
      · rw [if_pos isEmpty] at beside
        rw [isEmpty]
        exact beside
      · rw [if_neg isEmpty] at beside
        rw [higherProbes_slash isEmpty]
        refine .skip _ ?_ beside
        exact passedOver_container isPath (ends back) fun same => isEmpty (isRoot same)
  | succ slashes inductionHypothesis =>
      rw [List.replicate_succ, List.cons_append] at isPath ⊢
      obtain ⟨inner, isInner⟩ : ∃ inner, inner = List.replicate (slashes + 1) '/' ++ back :=
        ⟨_, rfl⟩
      rw [← isInner] at isPath inductionHypothesis ⊢
      have someInner : inner ≠ [] := by
        rw [isInner, List.replicate_succ]
        exact List.cons_ne_nil _ _
      have innerPath : path = inner.reverse ++ '/' :: '/' :: rest := by
        rw [isPath, List.reverse_cons, List.append_assoc]
        rfl
      have higher := inductionHypothesis innerPath
      rw [higherProbes_slash someInner]
      have notRoot : ('/' :: inner).reverse ≠ ['/'] := fun same => someInner (isRoot same)
      refine .skip _ (passedOver_container isPath (ends inner) notRoot) ?_
      by_cases innerRoot : inner = ['/']
      · rw [innerRoot] at higher ⊢
        exact .twice _ higher
      · refine .skip _ (passedOver_container innerPath ?_ ?_) higher
        · rw [isInner, List.replicate_succ]
          exact ends _
        · rwa [Ne, List.reverse_eq_iff]

/-- A container in the walk: it is the root, or its path goes on with a name. -/
structure Reached (path above rest : List Char) : Prop where
  isPath : path = ('/' :: above).reverse ++ rest
  rooted : above = [] ∨ above.getLast? = some '/'
  goesOn : above = [] ∨ rest ≠ [] ∧ rest.head? ≠ some '/'

/-- The walk follows the order from a container upwards. -/
def FollowsFrom (path : List Char) (levels : Nat) : Prop :=
  ∀ above rest, Reached path above rest → above.length < levels →
    Follows (PassedOver path) (enclosingProbes levels ('/' :: above).reverse)
      (higherProbes ('/' :: above))

/-- From the container of a name on the walk follows the order. -/
theorem follows_parent
    {levels : Nat}
    (higher : FollowsFrom path levels)
    {back slashed more : List Char}
    (noSlashes : slashed.dropWhile (· == '/') = back)
    (isPath : path = back.reverse ++ more)
    (noSlash : back.head? ≠ some '/')
    (rooted : back.getLast? = some '/')
    (enough : back.length ≤ levels + 1) :
    Follows (PassedOver path) (enclosingProbes levels (parentDir slashed.reverse))
      (higherProbes back) := by
  obtain ⟨above, isAbove⟩ : ∃ above, back.dropWhile (· != '/') = '/' :: above := by
    cases dropped : back.dropWhile (· != '/') with
    | nil =>
        rw [List.dropWhile_eq_nil_iff] at dropped
        have isName := dropped '/' (List.mem_of_getLast? rooted)
        simp at isName
    | cons char above =>
        have stops := List.head?_dropWhile_not (· != '/') back
        rw [dropped] at stops
        exact ⟨above, by simpa using stops⟩
  have split : back.takeWhile (· != '/') ++ back.dropWhile (· != '/') = back :=
    List.takeWhile_append_dropWhile
  rw [isAbove] at split
  have named : back.takeWhile (· != '/') ≠ [] := by
    intro isEmpty
    rw [isEmpty, List.nil_append] at split
    rw [← split] at noSlash
    exact noSlash rfl
  rw [parentDir_reverse (by rw [noSlashes, isAbove]), ← higherProbes_dropWhile, isAbove]
  apply higher above ((back.takeWhile (· != '/')).reverse ++ more)
  · constructor
    case isPath => rw [isPath, ← List.append_assoc, ← List.reverse_append, split]
    case rooted =>
      cases above with
      | nil => exact .inl rfl
      | cons char above =>
          rw [← split, List.getLast?_append, List.getLast?_cons_cons] at rooted
          exact .inr (by simpa using rooted)
    case goesOn =>
      refine .inr ⟨by simp [named], ?_⟩
      obtain ⟨last, isLast⟩ := Option.ne_none_iff_exists'.mp (mt List.getLast?_eq_none_iff.mp named)
      rw [List.head?_append, List.head?_reverse, isLast, Option.some_or]
      have isName := List.mem_takeWhile_imp (List.mem_of_getLast? isLast)
      simpa using isName
  · have length := congrArg List.length split
    rw [List.length_append, List.length_cons] at length
    have positive := List.length_pos_of_ne_nil named
    omega

/-- A list begins with a run of a character, which what follows does not begin with. -/
theorem exists_run
    (back : List Char) :
    ∃ slashes, back = List.replicate slashes '/' ++ back.dropWhile (· == '/') := by
  have run : back.takeWhile (· == '/') =
      List.replicate (back.takeWhile (· == '/')).length '/' := by
    rw [List.eq_replicate_iff]
    refine ⟨rfl, fun char inRun => ?_⟩
    simpa using List.mem_takeWhile_imp inRun
  refine ⟨(back.takeWhile (· == '/')).length, ?_⟩
  rw [← run, List.takeWhile_append_dropWhile]

theorem head?_dropSlashes
    (back : List Char) :
    (back.dropWhile (· == '/')).head? ≠ some '/' := by
  intro isSlash
  have stops := List.head?_dropWhile_not (· == '/') back
  rw [isSlash] at stops
  simp at stops

theorem getLast?_dropSlashes
    {back : List Char}
    (rooted : back.getLast? = some '/')
    (someName : back.dropWhile (· == '/') ≠ []) :
    (back.dropWhile (· == '/')).getLast? = some '/' := by
  obtain ⟨slashes, isRun⟩ := exists_run back
  obtain ⟨last, isLast⟩ := Option.ne_none_iff_exists'.mp (mt List.getLast?_eq_none_iff.mp someName)
  rw [isRun, List.getLast?_append, isLast, Option.some_or] at rooted
  rw [isLast, rooted]

/-- Above a container the walk has the sidecar beside it, without its slashes, and then the
order of the container above. -/
theorem follows_beside
    {levels : Nat}
    (higher : FollowsFrom path levels)
    {above rest : List Char}
    (isPath : path = ('/' :: above).reverse ++ rest)
    (rooted : above.getLast? = some '/')
    (named : rest ≠ [] ∧ rest.head? ≠ some '/')
    (enough : above.length ≤ levels) :
    Follows (PassedOver path)
      ((if (above.dropWhile (· == '/')).reverse.isEmpty then []
        else [(sidecarOf (above.dropWhile (· == '/')).reverse, true)]) ++
        enclosingProbes levels (parentDir (above.dropWhile (· == '/')).reverse))
      (probesBeside (above.dropWhile (· == '/'))) := by
  obtain ⟨slashes, isRun⟩ := exists_run above
  have noSlash := head?_dropSlashes above
  have last := getLast?_dropSlashes rooted
  have length := congrArg List.length isRun
  rw [List.length_append] at length
  obtain ⟨back, isBack⟩ : ∃ back, back = above.dropWhile (· == '/') := ⟨_, rfl⟩
  rw [← isBack] at isRun noSlash last length ⊢
  unfold probesBeside
  by_cases isEmpty : back = []
  · have positive : 0 < levels := by
      have someSlash := List.length_pos_of_mem (List.mem_of_getLast? rooted)
      omega
    rw [if_pos isEmpty, isEmpty]
    have root : enclosingProbes levels (parentDir [].reverse) = [(sidecarOf ['/'], true)] :=
      enclosingProbes_root positive
    rw [root]
    exact .same _ not_passedOver_root .nil
  · have backPath : path = back.reverse ++ (List.replicate (slashes + 1) '/' ++ rest) := by
      rw [isPath, isRun, List.reverse_cons, List.reverse_append, List.reverse_replicate,
        List.append_assoc, List.append_assoc, List.replicate_succ', List.append_assoc]
    have noName : ¬back.reverse.isEmpty = true := by simp [isEmpty]
    rw [if_neg isEmpty, if_neg noName, List.singleton_append]
    refine .same _ (not_passedOver_beside backPath ?_ named.1 named.2) ?_
    · rwa [List.getLast?_reverse]
    · apply follows_parent higher ?_ backPath noSlash (last isEmpty) (by omega)
      rw [isBack, List.dropWhile_idempotent]

theorem followsFrom
    (path : List Char)
    (levels : Nat) :
    FollowsFrom path levels := by
  induction levels with
  | zero => exact fun above rest reached short => absurd short (Nat.not_lt_zero _)
  | succ levels inductionHypothesis =>
      rintro above rest ⟨isPath, rooted, goesOn⟩ short
      rw [enclosingProbes]
      by_cases isRoot : above = []
      · rw [isRoot]
        exact .same _ not_passedOver_root .nil
      have named := goesOn.resolve_left isRoot
      have isDir : ('/' :: above).reverse ≠ ['/'] := by
        intro same
        rw [List.reverse_eq_iff] at same
        exact isRoot (List.cons.inj same).2
      have beside := follows_beside inductionHypothesis isPath (rooted.resolve_left isRoot) named
        (Nat.lt_succ_iff.mp short)
      rw [higherProbes_slash isRoot, beq_eq_false_iff_ne.mpr isDir, trimEndSlashes_reverse,
        List.dropWhile_cons_of_pos (by rfl)]
      refine .same _ (not_passedOver_container isPath (by simp) named.2) ?_
      obtain ⟨slashes, isRun⟩ := exists_run above
      cases slashes with
      | zero =>
          rw [List.replicate_zero, List.nil_append] at isRun
          rw [← isRun, probesBeside, if_neg isRoot] at beside
          rw [← isRun]
          exact beside
      | succ slashes =>
          have slashPath : path =
              (List.replicate (slashes + 1) '/' ++ above.dropWhile (· == '/')).reverse ++
                '/' :: rest := by
            rw [← isRun, isPath, List.reverse_cons, List.append_assoc]
            rfl
          have run := follows_run slashes slashPath beside
          rw [← isRun] at run slashPath
          by_cases isSlash : above = ['/']
          · rw [isSlash] at run ⊢
            exact .twice _ run
          · refine .skip _ (passedOver_container slashPath ?_ ?_) run
            · rw [List.getLast?_reverse, isRun, List.replicate_succ]
              rfl
            · rwa [Ne, List.reverse_eq_iff]

end Walk

/-! ## The whole order -/

/-- The walk over the sidecars of a resource follows their order. -/
theorem aclProbeSequence_follows
    {path : List Char}
    (isPath : path.head? = some '/')
    (notRoot : path ≠ ['/'])
    {levels : Nat}
    (enough : path.length < levels) :
    Follows (PassedOver path) ((sidecarOf path, false) :: enclosingProbes levels (parentDir path))
      ((sidecarOf path, false) :: (enclosingContainers path).flatMap containerProbes) := by
  obtain ⟨back, isBack⟩ : ∃ back, back = path.reverse := ⟨_, rfl⟩
  have pathBack : path = back.reverse := by rw [isBack, List.reverse_reverse]
  have rooted : back.getLast? = some '/' := by rw [isBack, List.getLast?_reverse, isPath]
  refine .same _ (not_passedOver_own path) ?_
  have higher := followsFrom path levels
  have length : back.length = path.length := by rw [isBack, List.length_reverse]
  obtain ⟨slashes, isRun⟩ := exists_run back
  have noSlash := head?_dropSlashes back
  have last := getLast?_dropSlashes rooted
  obtain ⟨name, isName⟩ : ∃ name, name = back.dropWhile (· == '/') := ⟨_, rfl⟩
  rw [← isName] at isRun noSlash last
  have nameLength := congrArg List.length isRun
  rw [List.length_append, List.length_replicate] at nameLength
  rcases slashes with - | - | slashes
  · rw [List.replicate_zero, List.nil_append] at isRun
    cases back with
    | nil => cases rooted
    | cons char rest =>
        have notSlash : char ≠ '/' := by
          rintro rfl
          rw [← isRun] at noSlash
          exact noSlash rfl
        have someName : name ≠ [] := by
          rw [← isRun]
          exact List.cons_ne_nil char rest
        have parent := follows_parent higher isName.symm (show path = name.reverse ++ [] by
          rw [← isRun, ← pathBack, List.append_nil]) noSlash (last someName) (by omega)
        rw [← isRun, higherProbes, if_neg notSlash] at parent
        rw [pathBack, enclosingContainers_probes, ← pathBack]
        rw [← pathBack] at parent
        exact parent
  · rw [List.replicate_one, List.singleton_append] at isRun
    have someName : name ≠ [] := by
      rintro rfl
      rw [pathBack, isRun] at notRoot
      exact notRoot rfl
    have parent := follows_parent higher isName.symm (show path = name.reverse ++ ['/'] by
      rw [pathBack, isRun, List.reverse_cons]) noSlash (last someName) (by omega)
    rw [← pathBack] at parent
    have containers := enclosingContainers_probes '/' name
    rw [← isRun, ← pathBack] at containers
    rw [containers]
    exact parent
  · have inner : back = '/' :: (List.replicate (slashes + 1) '/' ++ name) := by
      rw [isRun, List.replicate_succ, List.cons_append]
    have containers := enclosingContainers_probes '/' (List.replicate (slashes + 1) '/' ++ name)
    rw [← inner, ← pathBack] at containers
    rw [containers]
    have innerPath : path = (List.replicate (slashes + 1) '/' ++ name).reverse ++ '/' :: [] := by
      rw [pathBack, inner, List.reverse_cons]
    apply follows_run slashes innerPath
    unfold probesBeside
    by_cases someName : name = []
    · have root : parentDir path = ['/'] := by
        rw [pathBack, parentDir_of_slashes (by rw [← isName, someName])]
      rw [if_pos someName, root, enclosingProbes_root (by omega)]
      exact .same _ not_passedOver_root .nil
    · have beside : path = name.reverse ++ '/' :: '/' :: List.replicate slashes '/' := by
        rw [pathBack, isRun, List.reverse_append, List.reverse_replicate]
        rfl
      have parent := follows_parent higher isName.symm beside noSlash (last someName) (by omega)
      rw [← pathBack] at parent
      rw [if_neg someName]
      refine .skip _ (.inr ⟨name.reverse, slashes, ?_, ?_, beside, rfl⟩) parent
      · rwa [Ne, List.reverse_eq_nil_iff]
      · rwa [List.getLast?_reverse]

/-! ## The end of the walk -/

theorem length_beforeLastSlash
    {path start : List Char}
    (isStart : beforeLastSlash path = some start) :
    start.length < path.length := by
  unfold beforeLastSlash at isStart
  have shorter := (List.dropWhile_suffix (l := path.reverse) (· != '/')).length_le
  rw [List.length_reverse] at shorter
  split at isStart
  · cases isStart
  · rename_i char rest isRest
    obtain rfl := Option.some.inj isStart
    rw [isRest, List.length_cons] at shorter
    rw [List.length_reverse]
    omega

theorem getLast?_parentDir
    (path : List Char) :
    (parentDir path).getLast? = some '/' := by
  unfold parentDir
  split
  · rfl
  · split
    · rfl
    · rfl
    · rw [List.getLast?_concat]

theorem length_trimEndSlashes
    (path : List Char) :
    (trimEndSlashes path).length ≤ path.length := by
  unfold trimEndSlashes
  rw [List.length_reverse]
  exact (List.dropWhile_suffix _).length_le.trans (List.length_reverse ..).le

/-- Above a container other than the root the walk goes on to a shorter one. -/
theorem length_parentDir
    {dir : List Char}
    (isContainer : dir.getLast? = some '/')
    (notRoot : dir ≠ ['/']) :
    (parentDir (trimEndSlashes dir)).length < dir.length := by
  have trimmed : (trimEndSlashes dir).length < dir.length := by
    obtain ⟨start, rfl⟩ := List.getLast?_eq_some_iff.mp isContainer
    unfold trimEndSlashes
    rw [List.reverse_append, List.reverse_singleton, List.singleton_append,
      List.dropWhile_cons_of_pos (by rfl), List.length_reverse, List.length_append,
      List.length_singleton]
    have shorter := (List.dropWhile_suffix (l := start.reverse) (· == '/')).length_le
    rw [List.length_reverse] at shorter
    omega
  have long : 1 < dir.length := by
    obtain ⟨start, rfl⟩ := List.getLast?_eq_some_iff.mp isContainer
    rw [List.length_append, List.length_singleton]
    have someStart : start ≠ [] := by
      rintro rfl
      exact notRoot rfl
    have positive := List.length_pos_of_ne_nil someStart
    omega
  unfold parentDir
  split
  · exact long
  · split
    · exact long
    · exact long
    · rename_i start isStart
      have shorter := length_beforeLastSlash isStart
      have again := length_trimEndSlashes (trimEndSlashes dir)
      rw [List.length_append, List.length_singleton]
      omega

/-- As many levels as a container's path has characters are enough for the walk. -/
theorem enclosingProbes_enough
    {levels more : Nat}
    {dir : List Char}
    (isContainer : dir.getLast? = some '/')
    (enough : dir.length ≤ levels)
    (further : levels ≤ more) :
    enclosingProbes more dir = enclosingProbes levels dir := by
  induction levels generalizing more dir with
  | zero =>
      have positive := List.length_pos_of_mem (List.mem_of_getLast? isContainer)
      omega
  | succ levels inductionHypothesis =>
      obtain ⟨others, rfl⟩ := Nat.exists_eq_add_of_le' (Nat.one_le_of_lt further)
      rw [enclosingProbes, enclosingProbes]
      by_cases isRoot : dir = ['/']
      · rw [isRoot]
        rfl
      · have shorter := length_parentDir isContainer isRoot
        dsimp only
        rw [inductionHypothesis (getLast?_parentDir (trimEndSlashes dir)) (by omega)
          (show levels ≤ others by omega)]

theorem length_parentDir_le
    {path : List Char}
    (somePath : path ≠ []) :
    (parentDir path).length ≤ path.length := by
  have positive := List.length_pos_of_ne_nil somePath
  unfold parentDir
  split
  · exact positive
  · split
    · exact positive
    · exact positive
    · rename_i start isStart
      have shorter := length_beforeLastSlash isStart
      have trimmed := length_trimEndSlashes path
      rw [List.length_append, List.length_singleton]
      omega

/-! ## The first sidecar -/

/-- The path that is looked up, the root for an empty one. -/
def resourceOf (resourcePath : String) : List Char :=
  if resourcePath = "" then ['/'] else resourcePath.toList

theorem policyOrder_eq
    (resourcePath : String) :
    policyOrder resourcePath = (sidecarOf (resourceOf resourcePath), false) ::
      (enclosingContainers (resourceOf resourcePath)).flatMap containerProbes := by
  unfold policyOrder resourceOf sidecarOf
  split
  · rfl
  · dsimp only
    rw [String.ofList_append, String.ofList_toList, String.ofList_toList]

theorem aclProbeSequence_eq
    (resourcePath : String) :
    aclProbeSequence resourcePath = (sidecarOf (resourceOf resourcePath), false) ::
      enclosingProbes ((resourceOf resourcePath).length + 1)
        (parentDir (resourceOf resourcePath)) := by
  unfold aclProbeSequence resourceOf sidecarOf
  by_cases isEmpty : resourcePath = ""
  · rw [isEmpty]
    rfl
  · rw [if_neg isEmpty, beq_eq_false_iff_ne.mpr isEmpty]
    simp

/-- What the walk finds first, against the order. -/
theorem firstPresent_walked
    {resourcePath : String}
    (isPath : resourcePath = "" ∨ resourcePath.toList.head? = some '/')
    (sidecars : Sidecars) :
    (∀ probe, firstPresent sidecars (policyOrder resourcePath) = some probe →
      (firstPresent sidecars (aclProbeSequence resourcePath) = some probe ↔
        ¬PassedOver (resourceOf resourcePath) probe.1)) ∧
      (firstPresent sidecars (policyOrder resourcePath) = none →
        firstPresent sidecars (aclProbeSequence resourcePath) = none) ∧
      ∀ probe ∈ aclProbeSequence resourcePath,
        ¬PassedOver (resourceOf resourcePath) probe.1 := by
  have isRooted : (resourceOf resourcePath).head? = some '/' := by
    unfold resourceOf
    split
    · rfl
    · rename_i notEmpty
      exact isPath.resolve_left notEmpty
  rw [policyOrder_eq, aclProbeSequence_eq]
  by_cases isRoot : resourceOf resourcePath = ['/']
  · -- the root's own sidecar is probed twice
    rw [isRoot]
    have noContainer : enclosingContainers ['/'] = [] := rfl
    have twice : enclosingProbes (['/'].length + 1) (parentDir ['/']) =
        [(sidecarOf ['/'], true)] := rfl
    rw [noContainer, twice]
    unfold firstPresent
    refine ⟨?_, ?_, ?_⟩
    · intro probe isFirst
      have isOwn : probe = (sidecarOf ['/'], false) :=
        List.mem_singleton.mp (List.mem_of_find?_eq_some isFirst)
      rw [List.flatMap_nil, List.find?_singleton] at isFirst
      split at isFirst
      · rename_i present
        rw [isOwn]
        refine iff_of_true ?_ not_passedOver_root
        rw [List.find?_cons, present]
      · cases isFirst
    · intro absent
      rw [List.flatMap_nil, List.find?_singleton] at absent
      split at absent
      · cases absent
      · rename_i notPresent
        simp [notPresent]
    · intro probe member
      have isOwn : probe.1 = sidecarOf ['/'] := by
        rcases List.mem_cons.mp member with rfl | another
        · rfl
        · rw [List.mem_singleton.mp another]
      rw [isOwn]
      exact not_passedOver_root
  · have follows := aclProbeSequence_follows isRooted isRoot (Nat.lt_succ_self _)
    have first := follows.firstPresent_iff sidecars
    exact ⟨first.1, first.2, follows.not_passed⟩

theorem inherited_of_settled
    {upstream : Upstream}
    (stamps : upstream.StampsInherited)
    {read : Option (Option Bytes)}
    {inherited : Bool}
    {document : AclDocument}
    (settled : upstream.settledPolicy read inherited = some document) :
    document.inherited = inherited := by
  unfold Upstream.settledPolicy Upstream.classifyKitPolicy at settled
  obtain ⟨body, -, classified⟩ := Option.bind_eq_some_iff.mp settled
  split at classified
  · cases classified
  · exact stamps body inherited document classified

/-- The lookup of a resource's policy ends, however many levels it is given, and it finds the
first sidecar that is present exactly when the walk does not pass over that one. -/
theorem findEffectiveAcl_first_iff
    (upstream : Upstream)
    (stamps : upstream.StampsInherited)
    (ownerPubkey resourcePath : String)
    (isPath : resourcePath = "" ∨ resourcePath.toList.head? = some '/')
    (sidecars : Sidecars)
    (fallback : Option (Option Bytes)) :
    (∀ levels, (resourceOf resourcePath).length < levels →
      aclProbeSequence resourcePath = (sidecarOf (resourceOf resourcePath), false) ::
        enclosingProbes levels (parentDir (resourceOf resourcePath))) ∧
      (upstream.FindsFirst ownerPubkey resourcePath sidecars fallback ↔
        ∀ probe, firstPresent sidecars (policyOrder resourcePath) = some probe →
          ¬PassedOver (resourceOf resourcePath) probe.1) := by
  constructor
  · intro levels enough
    have somePath : resourceOf resourcePath ≠ [] := by
      unfold resourceOf
      split
      · exact List.cons_ne_nil _ _
      · rename_i notEmpty
        rwa [Ne, String.toList_eq_nil_iff]
    have short := length_parentDir_le somePath
    rw [aclProbeSequence_eq, enclosingProbes_enough (getLast?_parentDir _)
      (short.trans (Nat.le_succ _)) enough]
  · obtain ⟨found, absent, walked⟩ := firstPresent_walked isPath sidecars
    unfold Upstream.FindsFirst
    rw [findEffectiveAcl_settles]
    cases isFirst : firstPresent sidecars (policyOrder resourcePath) with
    | none =>
        rw [absent isFirst]
        refine iff_of_true ⟨List.getLast?_concat, rfl⟩ ?_
        intro probe same
        cases same
    | some probe =>
        dsimp only
        constructor
        · rintro ⟨lastRead, fromSidecars, -, -⟩ other same
          obtain rfl := Option.some.inj same
          cases isWalked : firstPresent sidecars (aclProbeSequence resourcePath) with
          | none =>
              rw [isWalked] at fromSidecars
              exact absurd (List.mem_append_right _ (List.mem_singleton_self _)) fromSidecars
          | some settled =>
              rw [isWalked] at lastRead
              rw [Option.elim_some] at lastRead
              rw [getLast?_visited isWalked] at lastRead
              have samePath := PolicySource.sidecar.inj (Option.some.inj lastRead)
              rw [← samePath]
              exact walked settled (List.mem_of_find?_eq_some isWalked)
        · intro notPassed
          have isWalked := (found probe isFirst).mpr (notPassed probe rfl)
          rw [isWalked]
          refine ⟨getLast?_visited isWalked, wholePod_not_mem_visited _, rfl, ?_⟩
          intro document settled
          exact inherited_of_settled stamps settled

/-! ## A drawer with a policy of its own -/

/-- A reader of policies that marks them. -/
def marking : Upstream where
  __ := Sample.upstream
  classifyPolicy body inherited := if body = [1] then some ⟨[], inherited⟩ else none

/-- A pod whose root and one of whose containers have policies. -/
def drawerAndRoot : Sidecars := fun probePath =>
  if probePath = "/drawer/.acl" ∨ probePath = "/.acl" then some (some [1]) else some none

theorem findEffectiveAcl_first_iff_note :
    firstPresent drawerAndRoot (policyOrder "/drawer/note") = some ("/drawer/.acl", true) ∧
      (marking.FindsFirst "owner" "/drawer/note" drawerAndRoot (some none) ↔
        ∀ probe, firstPresent drawerAndRoot (policyOrder "/drawer/note") = some probe →
          ¬PassedOver (resourceOf "/drawer/note") probe.1) := by
  have stamps : marking.StampsInherited := by
    intro bytes inherited document classified
    change (if bytes = [1] then some ⟨[], inherited⟩ else none) = some document at classified
    split at classified
    · rw [← Option.some.inj classified]
    · cases classified
  exact ⟨by decide +kernel, (findEffectiveAcl_first_iff marking stamps "owner" "/drawer/note"
    (.inr rfl) drawerAndRoot (some none)).2⟩

/-- With another slash before the note the drawer's policy is passed over. -/
theorem doubled_slash_passes_drawer :
    firstPresent drawerAndRoot (policyOrder "/drawer//note") = some ("/drawer/.acl", true) ∧
      ((marking.findEffectiveAcl "owner" "/drawer//note").run
        (answerReads drawerAndRoot (some none)) []).1.getLast? = some (.sidecar "/.acl") ∧
      ¬marking.FindsFirst "owner" "/drawer//note" drawerAndRoot (some none) := by
  have first : firstPresent drawerAndRoot (policyOrder "/drawer//note") =
      some ("/drawer/.acl", true) := by decide +kernel
  have settles : ((marking.findEffectiveAcl "owner" "/drawer//note").run
      (answerReads drawerAndRoot (some none)) []).1.getLast? = some (.sidecar "/.acl") := by
    decide +kernel
  refine ⟨first, settles, ?_⟩
  unfold Upstream.FindsFirst
  rw [first]
  rintro ⟨lastRead, -⟩
  rw [settles] at lastRead
  revert lastRead
  decide

end Pod
end NostrBbs
