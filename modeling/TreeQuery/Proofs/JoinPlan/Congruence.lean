import TreeQuery.Proofs.JoinPlan.Levels
import TreeQuery.Proofs.JoinPlan.Replacement
import TreeQuery.Proofs.JoinPlan.Soundness
import TreeQuery.Proofs.Query.Composition
import TreeQuery.Query.Documents

/-!
# Replacing inside queries

A query that tolerates copies ends like the query in which `for` expressions have been
replaced by joins, in related scopes and with values related at the level of the query
(`Query.replace_simulates`).  The proof follows the query.  At an expression that is
replaced, the expression itself is first compared over the two scopes, with nothing
replaced; what the second scope makes of it is then compared with what the joins make of
it, in the world in which every node is matched to itself; and the two comparisons are put
together.
-/

set_option autoImplicit false

namespace TreeQuery

open Evaluation JoinPlan

variable {library : Library}

/-- Every name is the name of a document that can be read. -/
def Library.Resolves (library : Library) (names : List String) : Prop :=
  ∀ name ∈ names, (library name).isOk = true

instance (names : List String) : Decidable (library.Resolves names) :=
  inferInstanceAs (Decidable (∀ name ∈ names, (library name).isOk = true))

theorem Library.resolves_append {names others : List String} :
    library.Resolves (names ++ others) ↔ library.Resolves names ∧ library.Resolves others :=
  List.forall_mem_append

/-! ## Constants -/

/-- Neither what is replaced nor what replaces it is a constant. -/
theorem Query.constant?_replace {replacements : Replacements} (planned : replacements.Planned) :
    (query : Query) → (query.replace replacements).constant? = query.constant?
  | .parenthesized inner => by
      rw [Query.replace, Query.constant?, Query.constant?, Query.unparenthesized,
        Query.unparenthesized]
      exact inner.constant?_replace planned
  | .flwr bindings lets condition result => by
      rw [Query.replace]
      cases found : replacements ⟨bindings, lets, condition, result⟩ with
      | none => rfl
      | some query =>
          obtain ⟨plan, rewrites⟩ := toJoins_ok (planned _ _ found)
          obtain ⟨_, _, _, _, _, _, _, rfl⟩ := rewrites.chain
          rfl
  | .reference _ | .constant _ | .document _ | .pair _ _ | .step _ _ _ | .element _ _
  | .join _ _ _ _ | .letIn _ _ => by rw [Query.replace] <;> rfl

/-! ## Replaced expressions -/

namespace JoinPlan

variable {world : World library} {levels : Levels} {scope other : Scope}

/-- The documents of a source are among those of the bindings. -/
theorem documents_of_mem {binding : Binding} : {bindings : List Binding} → binding ∈ bindings →
    ∀ name ∈ binding.source.documents, name ∈ Binding.documentsOfAll bindings
  | ⟨_, source⟩ :: rest, member, name, listed => by
      rw [Binding.documentsOfAll]
      rcases List.mem_cons.mp member with rfl | member
      · exact List.mem_append_left _ listed
      · exact List.mem_append_right _ (documents_of_mem member name listed)

/-- A source can be evaluated if its document can be read or its variable is bound. -/
theorem IsSource.isWalk_right {source : Query} (isSource : IsSource source)
    (related : Scope.Related world levels scope other)
    (resolves : library.Resolves source.documents) (bound : levels.bindRoot source = true) :
    source.IsWalk library other.Binds := by
  cases isSource with
  | @document path _ =>
      have readable := resolves path.document List.mem_cons_self
      cases found : library path.document with
      | ok document => exact ⟨document, found⟩
      | error _ =>
          rw [found] at readable
          exact nomatch readable
  | reference _ => exact related.binds_right bound

/-- A replaced expression keeps its promises in the second of two related scopes. -/
theorem Plan.Rewrites.prepared_right {plan : Plan} {flwr : Flwr} {query : Query}
    (rewrites : plan.Rewrites flwr query) (related : Scope.Related world levels scope other)
    (resolves : library.Resolves (Binding.documentsOfAll flwr.bindings))
    (bound : (Binding.rootSources [] flwr.bindings).all levels.bindRoot = true)
    (content : flwr.sidesReachContent = true) :
    plan.Prepared library other world.right := by
  refine rewrites.prepared world.documents world.formedRight related.exist_right ?_
    (Flwr.comparesContent_of_sidesReachContent world.documents world.formedRight content)
  intro source member
  obtain ⟨_, areParents⟩ := checkSources_ok rewrites.sources
  obtain ⟨binding, listed, rfl⟩ := exists_of_mem_rootSources _ member
  obtain ⟨i, inside, rfl⟩ := List.mem_iff_getElem.mp listed
  have isSource := areParents.source (List.getElem?_eq_getElem inside)
  have walk := isSource.isWalk_right related
    (fun name named => resolves name (documents_of_mem listed name named))
    (List.all_eq_true.mp bound _ member)
  exact ⟨_, _, Query.evaluate_walk _ walk⟩

/-- **An expression and what replaces it end alike** in related scopes, if the expression by
itself does. -/
theorem replaced_simulates {flwr : Flwr} {query : Query} {kept level : Level}
    (rewritten : flwr.toJoins = .ok query) (levelled : flwr.level? levels kept = some level)
    (resolves : library.Resolves (Binding.documentsOfAll flwr.bindings))
    (related : Scope.Related world levels scope other)
    (simulates : Simulates world (flwr.toQuery.evaluate library scope)
      (flwr.toQuery.evaluate library other) kept.Holds) :
    Simulates world (flwr.toQuery.evaluate library scope) (query.evaluate library other)
      level.Holds := by
  obtain ⟨plan, rewrites⟩ := toJoins_ok rewritten
  rw [Flwr.level?, rewritten] at levelled
  simp only [Option.ite_none_right_eq_some, Option.some.injEq, Bool.and_eq_true] at levelled
  obtain ⟨⟨bound, content⟩, rfl⟩ := levelled
  have prepared := rewrites.prepared_right related resolves bound content
  exact simulates.trans (rewrites.simulates prepared)

/-- The level of an expression is at most its level when it is kept. -/
theorem holds_level {flwr : Flwr} {kept level : Level} {items others : List Item}
    (levelled : flwr.level? levels kept = some level) (holds : kept.Holds world items others) :
    level.Holds world items others := by
  rw [Flwr.level?] at levelled
  split at levelled
  · obtain rfl := Option.some.inj levelled
    exact holds
  · simp only [Option.ite_none_right_eq_some, Option.some.injEq] at levelled
    obtain ⟨_, rfl⟩ := levelled
    exact holds.weaken _

end JoinPlan

/-! ## Queries -/

mutual
/-- **Replacing keeps the meaning of a query that tolerates copies.** -/
theorem Query.replace_simulates : (query : Query) → library.Resolves query.documents →
    ∀ {replacements : Replacements}, replacements.Planned →
    ∀ {levels : Levels} {level : Level}, query.level? levels = some level →
    ∀ {world : World library} {scope other : Scope}, Scope.Related world levels scope other →
      Simulates world (query.evaluate library scope)
        ((query.replace replacements).evaluate library other) level.Holds
  | .reference name, _, replacements, _, levels, level, levelled, world, scope, other, related => by
      rw [Query.level?, Option.some.injEq] at levelled
      subst levelled
      rw [Query.replace, Query.evaluate, Query.evaluate]
      have values := related.lookup name
      generalize levels.lookup name = level at values
      generalize scope.lookup name = items at values
      generalize other.lookup name = others at values
      cases values with
      | unbound => exact .throw _
      | bound holds => exact .pure holds
  | .constant value, _, replacements, _, levels, level, levelled, world, scope, other, _ => by
      rw [Query.level?, Option.some.injEq] at levelled
      subst levelled
      rw [Query.replace, Query.evaluate, Query.evaluate]
      exact (Simulates.constructText value).bind fun _ same => .pure (.cons same .nil)
  | .document path, _, replacements, _, levels, level, levelled, world, scope, other, _ => by
      rw [Query.level?, Option.some.injEq] at levelled
      subst levelled
      rw [Query.replace, Query.evaluate, Query.evaluate]
      exact .documentPath path
  | .parenthesized inner, resolves, replacements, planned, levels, level, levelled, world, scope,
      other, related => by
      rw [Query.replace, Query.evaluate, Query.evaluate]
      exact inner.replace_simulates resolves planned levelled related
  | .pair left right, resolves, replacements, planned, levels, level, levelled, world, scope,
      other, related => by
      rw [Query.documents, Library.resolves_append] at resolves
      simp only [Query.level?, Option.bind_eq_bind, Option.bind_eq_some_iff,
        Option.pure_def, Option.some.injEq] at levelled
      obtain ⟨first, leftLevel, second, rightLevel, rfl⟩ := levelled
      rw [Query.replace, Query.evaluate, Query.evaluate]
      refine (left.replace_simulates resolves.1 planned leftLevel related).bind
        fun grows before => ?_
      refine (right.replace_simulates resolves.2 planned rightLevel (related.grow grows)).bind
        fun further after => ?_
      exact .pure ((before.grow further).append after)
  | .step base axis path, resolves, replacements, planned, levels, level, levelled, world, scope,
      other, related => by
      simp only [Query.level?, Option.bind_eq_bind, Option.bind_eq_some_iff] at levelled
      obtain ⟨context, baseLevel, steps⟩ := levelled
      rw [Query.replace, Query.evaluate, Query.evaluate]
      refine (base.replace_simulates resolves planned baseLevel related).bind fun _ holds => ?_
      exact .observe (holds.step steps axis)
  | .element name body, resolves, replacements, planned, levels, level, levelled, world, scope,
      other, related => by
      simp only [Query.level?, Option.bind_eq_bind, Option.bind_eq_some_iff,
        Option.ite_none_left_eq_some, Option.some.injEq] at levelled
      obtain ⟨content, bodyLevel, ordered, rfl⟩ := levelled
      rw [Query.replace, Query.evaluate, Query.evaluate]
      refine (body.replace_simulates resolves planned bodyLevel related).bind fun _ holds => ?_
      refine (Simulates.constructElement name (holds.copied ordered)).bind fun _ same => ?_
      exact .pure (.cons same .nil)
  | .join left right leftTags rightTags, resolves, replacements, planned, levels, level, levelled,
      world, scope, other, related => by
      rw [Query.documents, Library.resolves_append] at resolves
      simp only [Query.level?, Option.bind_eq_bind, Option.bind_eq_some_iff,
        Option.ite_none_left_eq_some, Option.some.injEq, not_or] at levelled
      obtain ⟨first, leftLevel, second, rightLevel, ⟨ordered, alsoOrdered⟩, rfl⟩ := levelled
      rw [Query.replace, Query.evaluate, Query.evaluate, Evaluation.join, Evaluation.join]
      split
      · refine (left.replace_simulates resolves.1 planned leftLevel related).bind
          fun grows before => ?_
        refine (right.replace_simulates resolves.2 planned rightLevel (related.grow grows)).bind
          fun further after => ?_
        exact .joinTuples .asMet ((before.grow further).copied ordered) (after.copied alsoOrdered)
          leftTags rightTags
      · exact .throw _
  | .letIn bindings body, resolves, replacements, planned, levels, level, levelled, world, scope,
      other, related => by
      rw [Query.documents, Library.resolves_append] at resolves
      simp only [Query.level?, Option.bind_eq_bind, Option.bind_eq_some_iff] at levelled
      obtain ⟨inner, bindingLevels, bodyLevel⟩ := levelled
      rw [Query.replace, Query.evaluate, Query.evaluate]
      refine (Binding.bindApart_simulates bindings resolves.1 planned bindingLevels related
        related).bind fun _ bound => ?_
      exact body.replace_simulates resolves.2 planned bodyLevel bound
  | .flwr bindings lets condition result, resolves, replacements, planned, levels, level, levelled,
      world, scope, other, related => by
      simp only [Query.documents, Library.resolves_append] at resolves
      obtain ⟨⟨⟨resolvesBindings, resolvesLets⟩, resolvesCondition⟩, resolvesResult⟩ := resolves
      simp only [Query.level?, Option.bind_eq_bind, Option.bind_eq_some_iff,
        Option.ite_none_right_eq_some] at levelled
      obtain ⟨members, memberLevels, inner, letLevels, tolerates, each, eachLevel, levelled⟩ :=
        levelled
      have kept : ∀ {replacements : Replacements}, replacements.Planned →
          Simulates world ((Query.flwr bindings lets condition result).evaluate library scope)
            ((Query.flwr (Binding.replaceAll replacements bindings)
              (Binding.replaceAll replacements lets)
              (Condition.replaceIfPresent replacements condition)
              (result.replace replacements)).evaluate library other) each.collected.Holds := by
        intro replacements planned
        rw [Query.evaluate, Query.evaluate]
        refine Binding.collectTuples_simulates bindings resolvesBindings planned memberLevels
          related fun _ related => ?_
        refine Binding.bindInOrder_simulates lets resolvesLets planned letLevels related
          fun _ related => ?_
        refine (Condition.replaceIfPresent_simulates condition resolvesCondition planned tolerates
          related).bind fun {_ yes _} grows same => ?_
        subst same
        cases yes with
        | true =>
            exact result.replace_simulates resolvesResult planned eachLevel (related.grow grows)
        | false => exact .pure .nil
      rw [Query.replace]
      cases found : replacements ⟨bindings, lets, condition, result⟩ with
      | none => exact (kept planned).mono fun _ holds => holds_level levelled holds
      | some query =>
          have asIs := kept Replacements.planned_none
          rw [Binding.replaceAll_none, Binding.replaceAll_none, Condition.replaceIfPresent_none,
            Query.replace_none] at asIs
          exact replaced_simulates (planned _ _ found) levelled resolvesBindings related asIs

/-- A condition that tolerates copies holds or fails as before. -/
theorem Condition.replace_simulates : (condition : Condition) →
    library.Resolves condition.documents →
    ∀ {replacements : Replacements}, replacements.Planned →
    ∀ {levels : Levels}, condition.tolerates levels = true →
    ∀ {world : World library} {scope other : Scope}, Scope.Related world levels scope other →
      Simulates world (condition.holds library scope)
        ((condition.replace replacements).holds library other) fun _ yes answer => yes = answer
  | .valueEq left right, resolves, replacements, planned, levels, tolerates, world, scope, other,
      related => by
      rw [Condition.documents, Library.resolves_append] at resolves
      rw [Condition.tolerates, Bool.and_eq_true, Option.isSome_iff_exists,
        Option.isSome_iff_exists] at tolerates
      obtain ⟨⟨first, leftLevel⟩, second, rightLevel⟩ := tolerates
      have leftSimulates := left.replace_simulates resolves.1 planned leftLevel related
      rw [Condition.replace, Condition.holds, Condition.holds, left.constant?_replace planned,
        right.constant?_replace planned]
      cases left.constant? with
      | some value =>
          cases right.constant? with
          | some _ => exact .pure rfl
          | none =>
              refine (right.replace_simulates resolves.2 planned rightLevel related).bind
                fun _ holds => .observe ?_
              exact (anyStringValue_gathered holds.gathered value).symm
      | none =>
          cases right.constant? with
          | some value =>
              refine leftSimulates.bind fun _ holds => .observe ?_
              exact (anyStringValue_gathered holds.gathered value).symm
          | none =>
              refine leftSimulates.bind fun grows before => ?_
              refine (right.replace_simulates resolves.2 planned rightLevel
                (related.grow grows)).bind fun {later _ _} further after => .observe ?_
              exact (anyValueEq_gathered later.viewLeft_wellFormed later.viewRight_wellFormed
                (before.grow further).gathered after.gathered).symm
  | .identityEq left right, resolves, replacements, planned, levels, tolerates, world, scope,
      other, related => by
      rw [Condition.documents, Library.resolves_append] at resolves
      rw [Condition.tolerates, Bool.and_eq_true, decide_eq_true_eq, decide_eq_true_eq] at tolerates
      rw [Condition.replace, Condition.holds, Condition.holds]
      refine (left.replace_simulates resolves.1 planned tolerates.1 related).bind
        fun grows before => ?_
      refine (right.replace_simulates resolves.2 planned tolerates.2 (related.grow grows)).bind
        fun {later _ _} further after => .pure ?_
      exact (anyIdentical_matching later.matching (before.grow further) after).symm
  | .empty query, resolves, replacements, planned, levels, tolerates, world, scope, other,
      related => by
      rw [Condition.tolerates, Option.isSome_iff_exists] at tolerates
      obtain ⟨level, levelled⟩ := tolerates
      rw [Condition.replace, Condition.holds, Condition.holds]
      refine (query.replace_simulates resolves planned levelled related).bind
        fun _ holds => .pure ?_
      exact holds.gathered.isEmpty_eq.symm
  | .someSatisfies bindings body, resolves, replacements, planned, levels, tolerates, world, scope,
      other, related => by
      rw [Condition.documents, Library.resolves_append] at resolves
      rw [Condition.tolerates] at tolerates
      split at tolerates
      · rename_i inner bindingLevels
        rw [Condition.replace, Condition.holds, Condition.holds]
        exact Binding.anyTuple_simulates bindings resolves.1 planned bindingLevels related
          fun _ related => body.replace_simulates resolves.2 planned tolerates related
      · exact nomatch tolerates
  | .parenthesized inner, resolves, replacements, planned, levels, tolerates, world, scope, other,
      related => by
      rw [Condition.replace, Condition.holds, Condition.holds]
      exact inner.replace_simulates resolves planned tolerates related
  | .and left right, resolves, replacements, planned, levels, tolerates, world, scope, other,
      related => by
      rw [Condition.documents, Library.resolves_append] at resolves
      rw [Condition.tolerates, Bool.and_eq_true] at tolerates
      rw [Condition.replace, Condition.holds, Condition.holds]
      refine (left.replace_simulates resolves.1 planned tolerates.1 related).bind
        fun {_ yes _} grows same => ?_
      subst same
      cases yes with
      | true => exact right.replace_simulates resolves.2 planned tolerates.2 (related.grow grows)
      | false => exact .pure rfl
  | .or left right, resolves, replacements, planned, levels, tolerates, world, scope, other,
      related => by
      rw [Condition.documents, Library.resolves_append] at resolves
      rw [Condition.tolerates, Bool.and_eq_true] at tolerates
      rw [Condition.replace, Condition.holds, Condition.holds]
      refine (left.replace_simulates resolves.1 planned tolerates.1 related).bind
        fun {_ yes _} grows same => ?_
      subst same
      cases yes with
      | true => exact .pure rfl
      | false => exact right.replace_simulates resolves.2 planned tolerates.2 (related.grow grows)
  | .not inner, resolves, replacements, planned, levels, tolerates, world, scope, other,
      related => by
      rw [Condition.replace, Condition.holds, Condition.holds]
      exact (inner.replace_simulates resolves planned tolerates related).bind
        fun _ same => .pure (congrArg (!·) same)

theorem Condition.replaceIfPresent_simulates : (condition : Option Condition) →
    library.Resolves (Condition.documentsIfPresent condition) →
    ∀ {replacements : Replacements}, replacements.Planned →
    ∀ {levels : Levels}, Condition.toleratesIfPresent levels condition = true →
    ∀ {world : World library} {scope other : Scope}, Scope.Related world levels scope other →
      Simulates world (Condition.holdsIfPresent library condition scope)
        (Condition.holdsIfPresent library (Condition.replaceIfPresent replacements condition) other)
        fun _ yes answer => yes = answer
  | none, _, _, _, _, _, world, scope, other, _ => by
      rw [Condition.replaceIfPresent, Condition.holdsIfPresent, Condition.holdsIfPresent]
      exact .pure rfl
  | some condition, resolves, _, planned, _, tolerates, world, scope, other, related => by
      rw [Condition.replaceIfPresent, Condition.holdsIfPresent, Condition.holdsIfPresent]
      exact condition.replace_simulates resolves planned tolerates related

/-- The tuples of a clause go together. -/
theorem Binding.collectTuples_simulates : (bindings : List Binding) →
    library.Resolves (Binding.documentsOfAll bindings) →
    ∀ {replacements : Replacements}, replacements.Planned →
    ∀ {levels inner : Levels}, Binding.levelsOfItems? levels bindings = some inner →
    ∀ {world : World library} {scope other : Scope}, Scope.Related world levels scope other →
    ∀ {level : Level} {visit otherVisit : Scope → Evaluation (List Item)},
      (∀ {later : World library} {scope other : Scope}, world.Grows later →
        Scope.Related later inner scope other →
          Simulates later (visit scope) (otherVisit other) level.Holds) →
      Simulates world (Binding.collectTuples library bindings scope visit)
        (Binding.collectTuples library (Binding.replaceAll replacements bindings) other otherVisit)
        level.collected.Holds
  | [], _, replacements, _, levels, inner, levelled, world, scope, other, related, level, visit,
      otherVisit, visits => by
      obtain rfl : levels = inner := by simpa [Binding.levelsOfItems?] using levelled
      rw [Binding.replaceAll, Binding.collectTuples, Binding.collectTuples]
      exact (visits (.refl world) related).mono fun _ holds => holds.collected
  | ⟨name, source⟩ :: rest, resolves, replacements, planned, levels, inner, levelled, world, scope,
      other, related, level, visit, otherVisit, visits => by
      rw [Binding.documentsOfAll, Library.resolves_append] at resolves
      simp only [Binding.levelsOfItems?, Option.bind_eq_bind, Option.bind_eq_some_iff] at levelled
      obtain ⟨items, sourceLevel, item, single, restLevels⟩ := levelled
      rw [Binding.replaceAll, Binding.collectTuples, Binding.collectTuples]
      refine (source.replace_simulates resolves.1 planned sourceLevel related).bind
        fun grows holds => ?_
      rw [← Level.collected_collected]
      refine Simulates.collect (fun further both => ?_)
        ((holds.single single).imp fun _ _ both => both)
      exact Binding.collectTuples_simulates rest resolves.2 planned restLevels
        (.cons name (both.grow further) (related.grow (grows.trans further)))
        fun later => visits ((grows.trans further).trans later)

theorem Binding.anyTuple_simulates : (bindings : List Binding) →
    library.Resolves (Binding.documentsOfAll bindings) →
    ∀ {replacements : Replacements}, replacements.Planned →
    ∀ {levels inner : Levels}, Binding.levelsOfItems? levels bindings = some inner →
    ∀ {world : World library} {scope other : Scope}, Scope.Related world levels scope other →
    ∀ {visit otherVisit : Scope → Evaluation Bool},
      (∀ {later : World library} {scope other : Scope}, world.Grows later →
        Scope.Related later inner scope other →
          Simulates later (visit scope) (otherVisit other) fun _ yes answer => yes = answer) →
      Simulates world (Binding.anyTuple library bindings scope visit)
        (Binding.anyTuple library (Binding.replaceAll replacements bindings) other otherVisit)
        fun _ yes answer => yes = answer
  | [], _, replacements, _, levels, inner, levelled, world, scope, other, related, visit,
      otherVisit, visits => by
      obtain rfl : levels = inner := by simpa [Binding.levelsOfItems?] using levelled
      rw [Binding.replaceAll, Binding.anyTuple, Binding.anyTuple]
      exact visits (.refl world) related
  | ⟨name, source⟩ :: rest, resolves, replacements, planned, levels, inner, levelled, world, scope,
      other, related, visit, otherVisit, visits => by
      rw [Binding.documentsOfAll, Library.resolves_append] at resolves
      simp only [Binding.levelsOfItems?, Option.bind_eq_bind, Option.bind_eq_some_iff] at levelled
      obtain ⟨items, sourceLevel, item, single, restLevels⟩ := levelled
      rw [Binding.replaceAll, Binding.anyTuple, Binding.anyTuple]
      refine (source.replace_simulates resolves.1 planned sourceLevel related).bind
        fun grows holds => ?_
      refine Simulates.any (fun further both => ?_) ((holds.single single).imp fun _ _ both => both)
      exact Binding.anyTuple_simulates rest resolves.2 planned restLevels
        (.cons name (both.grow further) (related.grow (grows.trans further)))
        fun later => visits ((grows.trans further).trans later)

theorem Binding.bindInOrder_simulates : (bindings : List Binding) →
    library.Resolves (Binding.documentsOfAll bindings) →
    ∀ {replacements : Replacements}, replacements.Planned →
    ∀ {levels inner : Levels}, Binding.levelsInOrder? levels bindings = some inner →
    ∀ {world : World library} {scope other : Scope}, Scope.Related world levels scope other →
    ∀ {level : Level} {visit otherVisit : Scope → Evaluation (List Item)},
      (∀ {later : World library} {scope other : Scope}, world.Grows later →
        Scope.Related later inner scope other →
          Simulates later (visit scope) (otherVisit other) level.Holds) →
      Simulates world (Binding.bindInOrder library bindings scope visit)
        (Binding.bindInOrder library (Binding.replaceAll replacements bindings) other otherVisit)
        level.Holds
  | [], _, replacements, _, levels, inner, levelled, world, scope, other, related, level, visit,
      otherVisit, visits => by
      obtain rfl : levels = inner := by simpa [Binding.levelsInOrder?] using levelled
      rw [Binding.replaceAll, Binding.bindInOrder, Binding.bindInOrder]
      exact visits (.refl world) related
  | ⟨name, source⟩ :: rest, resolves, replacements, planned, levels, inner, levelled, world, scope,
      other, related, level, visit, otherVisit, visits => by
      rw [Binding.documentsOfAll, Library.resolves_append] at resolves
      simp only [Binding.levelsInOrder?, Option.bind_eq_bind, Option.bind_eq_some_iff] at levelled
      obtain ⟨items, sourceLevel, restLevels⟩ := levelled
      rw [Binding.replaceAll, Binding.bindInOrder, Binding.bindInOrder]
      refine (source.replace_simulates resolves.1 planned sourceLevel related).bind
        fun grows holds => ?_
      exact Binding.bindInOrder_simulates rest resolves.2 planned restLevels
        (.cons name holds (related.grow grows)) fun later => visits (grows.trans later)

/-- The scopes behind a stand-alone `let` are related. -/
theorem Binding.bindApart_simulates : (bindings : List Binding) →
    library.Resolves (Binding.documentsOfAll bindings) →
    ∀ {replacements : Replacements}, replacements.Planned →
    ∀ {outer inner innermost : Levels},
      Binding.levelsApart? outer inner bindings = some innermost →
    ∀ {world : World library} {scope other innerScope innerOther : Scope},
      Scope.Related world outer scope other → Scope.Related world inner innerScope innerOther →
        Simulates world (Binding.bindApart library bindings scope innerScope)
          (Binding.bindApart library (Binding.replaceAll replacements bindings) other innerOther)
          fun later => Scope.Related later innermost
  | [], _, replacements, _, outer, inner, innermost, levelled, world, scope, other, innerScope,
      innerOther, _, innerRelated => by
      obtain rfl : inner = innermost := by simpa [Binding.levelsApart?] using levelled
      rw [Binding.replaceAll, Binding.bindApart, Binding.bindApart]
      exact .pure innerRelated
  | ⟨name, source⟩ :: rest, resolves, replacements, planned, outer, inner, innermost, levelled,
      world, scope, other, innerScope, innerOther, related, innerRelated => by
      rw [Binding.documentsOfAll, Library.resolves_append] at resolves
      simp only [Binding.levelsApart?, Option.bind_eq_bind, Option.bind_eq_some_iff] at levelled
      obtain ⟨items, sourceLevel, restLevels⟩ := levelled
      rw [Binding.replaceAll, Binding.bindApart, Binding.bindApart]
      refine (source.replace_simulates resolves.1 planned sourceLevel related).bind
        fun grows holds => ?_
      exact Binding.bindApart_simulates rest resolves.2 planned restLevels (related.grow grows)
        (.cons name holds (innerRelated.grow grows))
end

end TreeQuery
