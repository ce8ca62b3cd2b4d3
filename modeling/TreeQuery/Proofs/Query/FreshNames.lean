import Mathlib.Data.List.Nodup
import TreeQuery.Query.Renaming

/-!
# Names of one renamer

A renamer gives the variables that a query binds the names with the next numbers, one number for
every binding and in the order in which it reaches them (`Query.renameIn_handsOut`).  Its counter
never goes back, whether it succeeds or fails.  So, whatever queries it is given one after the
other and whichever of them it refuses, all names that it has given are distinct, and those of one
query are numbered consecutively from behind every number that was handed out before
(`Renaming.Turn.inOrder_distinct`).
-/

set_option autoImplicit false

namespace TreeQuery

open Renaming

/-! ## Names in the order of their bindings -/

mutual
/-- The names that a query binds, each listed behind those in the source of its binding. -/
def Query.boundNames : Query → List String
  | .reference _ | .constant _ | .document _ => []
  | .parenthesized inner => inner.boundNames
  | .pair left right => left.boundNames ++ right.boundNames
  | .step base _ _ => base.boundNames
  | .element _ body => body.boundNames
  | .join left right _ _ => left.boundNames ++ right.boundNames
  | .letIn bindings body => Binding.boundNamesAll bindings ++ body.boundNames
  | .flwr bindings lets condition result =>
      Binding.boundNamesAll bindings ++ Binding.boundNamesAll lets ++
        Condition.boundNamesIfPresent condition ++ result.boundNames

/-- The names that a condition binds. -/
def Condition.boundNames : Condition → List String
  | .valueEq left right | .identityEq left right => left.boundNames ++ right.boundNames
  | .empty query => query.boundNames
  | .someSatisfies bindings body => Binding.boundNamesAll bindings ++ body.boundNames
  | .parenthesized inner | .not inner => inner.boundNames
  | .and left right | .or left right => left.boundNames ++ right.boundNames

/-- The names that a condition binds, if there is one. -/
def Condition.boundNamesIfPresent : Option Condition → List String
  | none => []
  | some condition => condition.boundNames

/-- The names that the bindings of a clause and their sources bind. -/
def Binding.boundNamesAll : List Binding → List String
  | [] => []
  | ⟨name, source⟩ :: rest => source.boundNames ++ name :: Binding.boundNamesAll rest
end

namespace Renaming

/-! ## Handing out numbers -/

/-- The names with the numbers that follow a counter. -/
def namesBehind (counter count : Nat) : List String :=
  (List.range' (counter + 1) count).map numbered

@[simp] theorem namesBehind_zero (counter : Nat) : namesBehind counter 0 = [] := rfl

theorem namesBehind_add (counter count further : Nat) :
    namesBehind counter (count + further) =
      namesBehind counter count ++ namesBehind (counter + count) further := by
  rw [namesBehind, namesBehind, namesBehind, ← List.map_append, Nat.add_right_comm,
    List.range'_append_1]

variable {α β : Type}

/-- A computation that succeeds hands out as many numbers, and the names in its value are some
names given before and, behind them, the names with these numbers.  One that fails takes no number
back. -/
def HandsOut (before : List String) (count : Nat) (computation : Renaming α)
    (names : α → List String) : Prop :=
  ∀ counter, match computation counter with
    | .ok value later =>
        later = counter + count ∧ names value = before ++ namesBehind counter count
    | .error _ later => counter ≤ later

namespace HandsOut

variable {before : List String} {count further : Nat} {computation : Renaming α}
variable {names : α → List String} {others : β → List String}

theorem pure {value : α} (same : names value = before) :
    HandsOut before 0 (Pure.pure value) names :=
  fun counter => ⟨rfl, by rw [same, namesBehind_zero, List.append_nil]⟩

theorem fresh (before : List String) :
    HandsOut before 1 fresh fun newName => before ++ [newName] :=
  fun _ => ⟨rfl, rfl⟩

/-- A reference is resolved without handing out anything. -/
theorem resolve (strict : Bool) (newNames : NewNames) (name : String) :
    HandsOut [] 0 (resolve strict newNames name) fun _ => [] := by
  rw [Renaming.resolve]
  cases newNames.lookup name with
  | some newName => exact .pure rfl
  | none =>
      cases strict with
      | true => exact fun counter => Nat.le_refl counter
      | false => exact .pure rfl

theorem bind {next : α → Renaming β} (first : HandsOut before count computation names)
    (second : ∀ value, HandsOut (names value) further (next value) others) :
    HandsOut before (count + further) (computation >>= next) others := by
  intro counter
  have handed := first counter
  simp only [Bind.bind, EStateM.bind]
  cases run : computation counter with
  | error failure later =>
      rw [run] at handed
      exact handed
  | ok value middle =>
      rw [run] at handed
      obtain ⟨rfl, found⟩ := handed
      have handedBehind := second value (counter + count)
      dsimp only
      cases runBehind : next value (counter + count) with
      | error failure later =>
          rw [runBehind] at handedBehind
          exact Nat.le_trans (Nat.le_add_right counter count) handedBehind
      | ok result later =>
          rw [runBehind] at handedBehind
          obtain ⟨rfl, foundBehind⟩ := handedBehind
          refine ⟨Nat.add_assoc counter count further, ?_⟩
          rw [foundBehind, found, namesBehind_add, List.append_assoc]

/-- What is made of the value of a computation has the names of the value. -/
theorem map {result : α → β} (handsOut : HandsOut before count computation names)
    (same : ∀ value, others (result value) = names value) :
    HandsOut before count (do return result (← computation)) others :=
  handsOut.bind fun value => .pure (same value)

/-- A computation with names behind others. -/
theorem behind (handsOut : HandsOut [] count computation names) (before : List String) :
    HandsOut before count computation fun value => before ++ names value := by
  intro counter
  have handed := handsOut counter
  cases run : computation counter with
  | error failure later =>
      rw [run] at handed
      exact handed
  | ok value later =>
      rw [run] at handed
      exact ⟨handed.1, congrArg (before ++ ·) handed.2⟩

end HandsOut

end Renaming

variable {strict : Bool}

mutual
/-- **Renaming a query hands out one number for every binding in it**, in the order of the
bindings. -/
theorem Query.renameIn_handsOut : (query : Query) → ∀ {names : NewNames},
    HandsOut [] query.boundNames.length (query.renameIn strict names) Query.boundNames
  | .reference name, names => by
      rw [Query.renameIn, Query.boundNames]
      exact (HandsOut.resolve strict names name).map fun _ => by rw [Query.boundNames]
  | .constant _, _ | .document _, _ => by
      rw [Query.renameIn, Query.boundNames]
      exact .pure (by rw [Query.boundNames])
  | .parenthesized inner, _ => by
      rw [Query.renameIn, Query.boundNames]
      exact inner.renameIn_handsOut.map fun _ => by rw [Query.boundNames]
  | .pair left right, _ => by
      rw [Query.renameIn, Query.boundNames, List.length_append]
      refine left.renameIn_handsOut.bind fun newLeft => ?_
      exact (right.renameIn_handsOut.behind _).map fun _ => by rw [Query.boundNames]
  | .step base _ _, _ => by
      rw [Query.renameIn, Query.boundNames]
      exact base.renameIn_handsOut.map fun _ => by rw [Query.boundNames]
  | .element _ body, _ => by
      rw [Query.renameIn, Query.boundNames]
      exact body.renameIn_handsOut.map fun _ => by rw [Query.boundNames]
  | .join left right _ _, _ => by
      rw [Query.renameIn, Query.boundNames, List.length_append]
      refine left.renameIn_handsOut.bind fun newLeft => ?_
      exact (right.renameIn_handsOut.behind _).map fun _ => by rw [Query.boundNames]
  | .letIn bindings body, _ => by
      rw [Query.renameIn, Query.boundNames, List.length_append]
      refine (Binding.renameApart_handsOut bindings).bind fun ⟨newBindings, inner⟩ => ?_
      exact (body.renameIn_handsOut.behind _).map fun _ => by rw [Query.boundNames]
  | .flwr bindings lets condition result, _ => by
      simp only [Query.renameIn, Query.boundNames, List.length_append, Nat.add_assoc]
      refine (Binding.renameInOrder_handsOut bindings).bind fun ⟨newBindings, inner⟩ => ?_
      refine ((Binding.renameInOrder_handsOut lets).behind _).bind fun ⟨newLets, innermost⟩ => ?_
      refine ((Condition.renameIfPresent_handsOut condition).behind _).bind fun newCondition => ?_
      exact (result.renameIn_handsOut.behind _).map fun _ => by rw [Query.boundNames]

theorem Condition.renameIn_handsOut : (condition : Condition) → ∀ {names : NewNames},
    HandsOut [] condition.boundNames.length (condition.renameIn strict names) Condition.boundNames
  | .valueEq left right, _ | .identityEq left right, _ => by
      rw [Condition.renameIn, Condition.boundNames, List.length_append]
      refine left.renameIn_handsOut.bind fun newLeft => ?_
      exact (right.renameIn_handsOut.behind _).map fun _ => by rw [Condition.boundNames]
  | .empty query, _ => by
      rw [Condition.renameIn, Condition.boundNames]
      exact query.renameIn_handsOut.map fun _ => by rw [Condition.boundNames]
  | .someSatisfies bindings body, _ => by
      rw [Condition.renameIn, Condition.boundNames, List.length_append]
      refine (Binding.renameInOrder_handsOut bindings).bind fun ⟨newBindings, inner⟩ => ?_
      exact (body.renameIn_handsOut.behind _).map fun _ => by rw [Condition.boundNames]
  | .parenthesized inner, _ | .not inner, _ => by
      rw [Condition.renameIn, Condition.boundNames]
      exact inner.renameIn_handsOut.map fun _ => by rw [Condition.boundNames]
  | .and left right, _ | .or left right, _ => by
      rw [Condition.renameIn, Condition.boundNames, List.length_append]
      refine left.renameIn_handsOut.bind fun newLeft => ?_
      exact (right.renameIn_handsOut.behind _).map fun _ => by rw [Condition.boundNames]

theorem Condition.renameIfPresent_handsOut : (condition : Option Condition) →
    ∀ {names : NewNames}, HandsOut [] (Condition.boundNamesIfPresent condition).length
      (Condition.renameIfPresent strict condition names) Condition.boundNamesIfPresent
  | none, _ => by
      rw [Condition.renameIfPresent, Condition.boundNamesIfPresent]
      exact .pure (by rw [Condition.boundNamesIfPresent])
  | some condition, _ => by
      rw [Condition.renameIfPresent, Condition.boundNamesIfPresent]
      exact condition.renameIn_handsOut.map fun _ => by rw [Condition.boundNamesIfPresent]

theorem Binding.renameInOrder_handsOut : (bindings : List Binding) → ∀ {names : NewNames},
    HandsOut [] (Binding.boundNamesAll bindings).length
      (Binding.renameInOrder strict bindings names) fun result => Binding.boundNamesAll result.1
  | [], _ => by
      rw [Binding.renameInOrder, Binding.boundNamesAll]
      exact .pure (by rw [Binding.boundNamesAll])
  | ⟨_, source⟩ :: rest, _ => by
      rw [Binding.renameInOrder, Binding.boundNamesAll, List.length_append, List.length_cons,
        Nat.add_comm _ 1]
      refine source.renameIn_handsOut.bind fun newSource => ?_
      refine (HandsOut.fresh _).bind fun newName => ?_
      refine ((Binding.renameInOrder_handsOut rest).behind _).map fun ⟨newRest, inner⟩ => ?_
      rw [Binding.boundNamesAll, List.append_assoc, List.singleton_append]

theorem Binding.renameApart_handsOut : (bindings : List Binding) → ∀ {outer inner : NewNames},
    HandsOut [] (Binding.boundNamesAll bindings).length
      (Binding.renameApart strict bindings outer inner)
        fun result => Binding.boundNamesAll result.1
  | [], _, _ => by
      rw [Binding.renameApart, Binding.boundNamesAll]
      exact .pure (by rw [Binding.boundNamesAll])
  | ⟨_, source⟩ :: rest, _, _ => by
      rw [Binding.renameApart, Binding.boundNamesAll, List.length_append, List.length_cons,
        Nat.add_comm _ 1]
      refine source.renameIn_handsOut.bind fun newSource => ?_
      refine (HandsOut.fresh _).bind fun newName => ?_
      refine ((Binding.renameApart_handsOut rest).behind _).map fun ⟨newRest, inner⟩ => ?_
      rw [Binding.boundNamesAll, List.append_assoc, List.singleton_append]
end

/-! ## Queries one after the other -/

namespace Renaming

/-- A query that a renamer is given, with its counter before, and what comes of it. -/
structure Turn where
  query : Query
  before : Nat
  result : EStateM.Result Failure Nat Query

namespace Turn

/-- The counter of the renamer behind a query, whether it has been renamed or not. -/
def after (turn : Turn) : Nat :=
  match turn.result with
  | .ok _ later | .error _ later => later

/-- The numbers that are handed out for a query, also if it is not renamed in the end. -/
def numbers (turn : Turn) : List Nat :=
  List.range' (turn.before + 1) (turn.after - turn.before)

/-- The names that the renamed query binds, if the query has been renamed. -/
def boundNames (turn : Turn) : List String :=
  match turn.result with
  | .ok renamed _ => renamed.boundNames
  | .error _ _ => []

/-- What a renamer makes of a query. -/
def of (strict : Bool) (query : Query) (counter : Nat) : Turn :=
  ⟨query, counter, query.renaming strict counter⟩

theorem before_le_after_of (query : Query) (counter : Nat) :
    (of strict query counter).before ≤ (of strict query counter).after := by
  have handed : HandsOut [] _ (query.renameIn strict []) _ := query.renameIn_handsOut
  have handed := handed counter
  rw [after, of, Query.renaming]
  cases run : query.renameIn strict [] counter with
  | error failure later =>
      rw [run] at handed
      exact handed
  | ok renamed later =>
      rw [run] at handed
      exact handed.1 ▸ Nat.le_add_right counter _

/-- A renamed query binds the names with the numbers that were handed out for it, and there are as
many as names bound in the query. -/
theorem boundNames_of {query renamed : Query} {counter later : Nat}
    (run : (of strict query counter).result = .ok renamed later) :
    renamed.boundNames = (of strict query counter).numbers.map numbered ∧
      (of strict query counter).numbers =
        List.range' (counter + 1) query.boundNames.length := by
  have handed : HandsOut [] _ (query.renameIn strict []) _ := query.renameIn_handsOut
  have handed := handed counter
  have ends : (of strict query counter).after = later := by rw [after, run]
  replace run : query.renameIn strict [] counter = .ok renamed later := run
  rw [run, List.nil_append] at handed
  have count : (of strict query counter).numbers =
      List.range' (counter + 1) query.boundNames.length := by
    rw [numbers, ends, handed.1, of, Nat.add_sub_cancel_left]
  exact ⟨by rw [count, handed.2, namesBehind], count⟩

end Turn

/-- What a renamer with a counter makes of queries that it is given one after the other. -/
def Turn.inOrder (strict : Bool) : Nat → List Query → List Turn
  | _, [] => []
  | counter, query :: rest =>
      Turn.of strict query counter :: inOrder strict (Turn.of strict query counter).after rest

/-- Each query is renamed from where the counter is then. -/
theorem Turn.of_mem_inOrder (queries : List Query) : ∀ {counter : Nat} {turn : Turn},
    turn ∈ Turn.inOrder strict counter queries →
      turn = Turn.of strict turn.query turn.before ∧ counter ≤ turn.before := by
  induction queries with
  | nil => exact fun listed => nomatch listed
  | cons query rest ih =>
      intro counter turn listed
      rcases List.mem_cons.mp listed with rfl | listed
      · exact ⟨rfl, Nat.le_refl counter⟩
      · obtain ⟨same, le⟩ := ih listed
        exact ⟨same, Nat.le_trans (Turn.before_le_after_of query counter) le⟩

/-- The counter never goes back from one query to a later one. -/
theorem Turn.pairwise_inOrder (counter : Nat) (queries : List Query) :
    (Turn.inOrder strict counter queries).Pairwise fun earlier later =>
      earlier.after ≤ later.before := by
  induction queries generalizing counter with
  | nil => exact .nil
  | cons query rest ih =>
      exact .cons (fun turn listed => (Turn.of_mem_inOrder rest listed).2) (ih _)

theorem Turn.le_after_of_mem_numbers {turn : Turn} {number : Nat}
    (listed : number ∈ turn.numbers) : turn.before < number ∧ number ≤ turn.after := by
  rw [Turn.numbers, List.mem_range'_1] at listed
  omega

/-- Every bound name has a number that was handed out for its query. -/
theorem Turn.exists_number {counter : Nat} {queries : List Query} {turn : Turn}
    (listed : turn ∈ Turn.inOrder strict counter queries) {name : String}
    (bound : name ∈ turn.boundNames) : ∃ number ∈ turn.numbers, numbered number = name := by
  obtain ⟨same, _⟩ := Turn.of_mem_inOrder queries listed
  rw [Turn.boundNames] at bound
  cases run : turn.result with
  | error failure later =>
      rw [run] at bound
      cases bound
  | ok renamed later =>
      rw [run] at bound
      replace bound : name ∈ renamed.boundNames := bound
      rw [same] at run ⊢
      rw [(Turn.boundNames_of run).1] at bound
      exact List.mem_map.mp bound

theorem Turn.nodup_boundNames {counter : Nat} {queries : List Query} {turn : Turn}
    (listed : turn ∈ Turn.inOrder strict counter queries) : turn.boundNames.Nodup := by
  obtain ⟨same, _⟩ := Turn.of_mem_inOrder queries listed
  rw [Turn.boundNames]
  cases run : turn.result with
  | error failure later => exact .nil
  | ok renamed later =>
      rw [same] at run
      show renamed.boundNames.Nodup
      rw [(Turn.boundNames_of run).1]
      exact List.Nodup.map (fun _ _ => numbered_inj.mp) List.nodup_range'

/-- **One renamer never gives a name twice.**  Whatever queries it is given one after the other,
strict or not and whichever of them it refuses: all names bound in what it returns are distinct, and
those bound in one query have consecutive numbers in the order of the bindings, from a first number
on that is above all that were handed out for earlier queries. -/
theorem Turn.inOrder_distinct (strict : Bool) (counter : Nat) (queries : List Query) :
    let turns := Turn.inOrder strict counter queries
    (turns.flatMap (·.boundNames)).Nodup ∧
    ∀ earlier turn later, turns = earlier ++ turn :: later →
      ∀ renamed after, turn.result = .ok renamed after →
        ∃ first, turn.numbers = List.range' first turn.query.boundNames.length ∧
          renamed.boundNames = turn.numbers.map numbered ∧
          ∀ previous ∈ earlier, ∀ number ∈ previous.numbers, number < first := by
  intro turns
  have ordered : turns.Pairwise fun earlier later => earlier.after ≤ later.before :=
    Turn.pairwise_inOrder counter queries
  constructor
  · refine List.nodup_flatMap.mpr ⟨fun turn listed => Turn.nodup_boundNames listed, ?_⟩
    refine ordered.imp_of_mem fun {earlier later} listed listedToo le => ?_
    intro name bound boundToo
    obtain ⟨number, handed, rfl⟩ := Turn.exists_number listed bound
    obtain ⟨other, handedToo, same⟩ := Turn.exists_number listedToo boundToo
    obtain rfl := numbered_inj.mp same
    have below := Turn.le_after_of_mem_numbers handed
    have above := Turn.le_after_of_mem_numbers handedToo
    omega
  · intro earlier turn later split renamed after run
    have listed : turn ∈ turns := split ▸ List.mem_append_right _ List.mem_cons_self
    obtain ⟨same, _⟩ := Turn.of_mem_inOrder queries listed
    rw [same] at run
    obtain ⟨names, consecutive⟩ := Turn.boundNames_of run
    refine ⟨turn.before + 1, same ▸ consecutive, same ▸ names, ?_⟩
    intro previous member number handed
    rw [split, List.pairwise_append] at ordered
    have le := ordered.2.2 previous member turn List.mem_cons_self
    have below := Turn.le_after_of_mem_numbers handed
    omega

/-- Behind a query that is refused once a number has been handed out for it. -/
theorem Turn.inOrder_distinct_behindRefusal :
    let queries : List Query := [.letIn [⟨"x", .constant "a"⟩] (.reference "x"),
      .letIn [⟨"y", .constant "b"⟩] (.reference "z"),
      .flwr [⟨"x", .constant "c"⟩, ⟨"x", .reference "x"⟩] [] none (.reference "x")]
    ∃ earlier turn renamed after, Turn.inOrder true 0 queries = earlier ++ [turn] ∧
      turn.result = .ok renamed after ∧ renamed.boundNames = ["v3", "v4"] ∧
        ∃ first, turn.numbers = List.range' first turn.query.boundNames.length ∧
          renamed.boundNames = turn.numbers.map numbered ∧
          ∀ previous ∈ earlier, ∀ number ∈ previous.numbers, number < first := by
  intro queries
  exact ⟨_, _, _, _, rfl, rfl, by decide,
    (Turn.inOrder_distinct true 0 queries).2 (Turn.inOrder true 0 (queries.take 2)) _ [] rfl
      _ _ rfl⟩

end Renaming

end TreeQuery
