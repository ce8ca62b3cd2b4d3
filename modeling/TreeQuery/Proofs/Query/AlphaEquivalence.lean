import TreeQuery.Query.Basic

/-!
# Alpha-equivalence

Two queries are alpha-equivalent if they differ in the names of the variables they bind only.
The variables bound around two places of the queries are linked in pairs, innermost binding
first, and two references correspond if the innermost pair that has one of the names has both
(`Links.Connect`).  A name that nothing binds is free; free names correspond as a given
relation says, so the same definition covers queries whose free names have been changed too.

Clauses bind as they are evaluated.  In `for`, in `some` and in the `let` of an expression a
source sees the variables before it; in a stand-alone `let` it does not.  A clause can bind a
name twice; the later pair then hides the earlier one.

Alpha-equivalence is an equivalence (`Query.alphaEquivalent_equivalence`).
-/

set_option autoImplicit false

namespace TreeQuery

/-- The variables bound around two places, innermost binding first. -/
abbrev Links : Type := List (String × String)

/-- Whether two names refer to the same binding, or are free and correspond. -/
def Links.Connect (free : String → String → Prop) : Links → String → String → Prop
  | [], first, second => free first second
  | (left, right) :: outer, first, second =>
      (first = left ∧ second = right) ∨
        (first ≠ left ∧ second ≠ right ∧ Links.Connect free outer first second)

mutual
/-- Two queries that differ in the names of bound variables, and in free names. -/
inductive Query.Corresponds (free : String → String → Prop) : Links → Query → Query → Prop where
  | reference {links : Links} {first second : String} : links.Connect free first second →
      Query.Corresponds free links (.reference first) (.reference second)
  | constant {links : Links} (value : String) :
      Query.Corresponds free links (.constant value) (.constant value)
  | document {links : Links} (path : DocumentPath) :
      Query.Corresponds free links (.document path) (.document path)
  | parenthesized {links : Links} {inner other : Query} :
      Query.Corresponds free links inner other →
        Query.Corresponds free links (.parenthesized inner) (.parenthesized other)
  | pair {links : Links} {left right otherLeft otherRight : Query} :
      Query.Corresponds free links left otherLeft →
      Query.Corresponds free links right otherRight →
        Query.Corresponds free links (.pair left right) (.pair otherLeft otherRight)
  | step {links : Links} {base other : Query} {axis : Axis} {path : Path} :
      Query.Corresponds free links base other →
        Query.Corresponds free links (.step base axis path) (.step other axis path)
  | element {links : Links} {name : String} {body other : Query} :
      Query.Corresponds free links body other →
        Query.Corresponds free links (.element name body) (.element name other)
  | join {links : Links} {left right otherLeft otherRight : Query}
      {leftTags rightTags : List String} :
      Query.Corresponds free links left otherLeft →
      Query.Corresponds free links right otherRight →
        Query.Corresponds free links (.join left right leftTags rightTags)
          (.join otherLeft otherRight leftTags rightTags)
  | letIn {links inner : Links} {bindings others : List Binding} {body other : Query} :
      Binding.CorrespondApart free links links bindings others inner →
      Query.Corresponds free inner body other →
        Query.Corresponds free links (.letIn bindings body) (.letIn others other)
  | flwr {links inner innermost : Links} {bindings lets others otherLets : List Binding}
      {condition otherCondition : Option Condition} {result otherResult : Query} :
      Binding.CorrespondInOrder free links bindings others inner →
      Binding.CorrespondInOrder free inner lets otherLets innermost →
      Condition.CorrespondIfPresent free innermost condition otherCondition →
      Query.Corresponds free innermost result otherResult →
        Query.Corresponds free links (.flwr bindings lets condition result)
          (.flwr others otherLets otherCondition otherResult)

/-- Two conditions that differ in the names of bound variables, and in free names. -/
inductive Condition.Corresponds (free : String → String → Prop) :
    Links → Condition → Condition → Prop where
  | valueEq {links : Links} {left right otherLeft otherRight : Query} :
      Query.Corresponds free links left otherLeft →
      Query.Corresponds free links right otherRight →
        Condition.Corresponds free links (.valueEq left right) (.valueEq otherLeft otherRight)
  | identityEq {links : Links} {left right otherLeft otherRight : Query} :
      Query.Corresponds free links left otherLeft →
      Query.Corresponds free links right otherRight →
        Condition.Corresponds free links (.identityEq left right)
          (.identityEq otherLeft otherRight)
  | empty {links : Links} {query other : Query} : Query.Corresponds free links query other →
      Condition.Corresponds free links (.empty query) (.empty other)
  | someSatisfies {links inner : Links} {bindings others : List Binding}
      {body other : Condition} :
      Binding.CorrespondInOrder free links bindings others inner →
      Condition.Corresponds free inner body other →
        Condition.Corresponds free links (.someSatisfies bindings body)
          (.someSatisfies others other)
  | parenthesized {links : Links} {inner other : Condition} :
      Condition.Corresponds free links inner other →
        Condition.Corresponds free links (.parenthesized inner) (.parenthesized other)
  | and {links : Links} {left right otherLeft otherRight : Condition} :
      Condition.Corresponds free links left otherLeft →
      Condition.Corresponds free links right otherRight →
        Condition.Corresponds free links (.and left right) (.and otherLeft otherRight)
  | or {links : Links} {left right otherLeft otherRight : Condition} :
      Condition.Corresponds free links left otherLeft →
      Condition.Corresponds free links right otherRight →
        Condition.Corresponds free links (.or left right) (.or otherLeft otherRight)
  | not {links : Links} {inner other : Condition} :
      Condition.Corresponds free links inner other →
        Condition.Corresponds free links (.not inner) (.not other)

/-- Two conditions that correspond, or none. -/
inductive Condition.CorrespondIfPresent (free : String → String → Prop) :
    Links → Option Condition → Option Condition → Prop where
  | none {links : Links} : Condition.CorrespondIfPresent free links none none
  | some {links : Links} {condition other : Condition} :
      Condition.Corresponds free links condition other →
        Condition.CorrespondIfPresent free links (some condition) (some other)

/-- Two clauses whose sources see the variables before them, and the links behind them. -/
inductive Binding.CorrespondInOrder (free : String → String → Prop) :
    Links → List Binding → List Binding → Links → Prop where
  | nil {links : Links} : Binding.CorrespondInOrder free links [] [] links
  | cons {links inner : Links} {name otherName : String} {source otherSource : Query}
      {rest others : List Binding} :
      Query.Corresponds free links source otherSource →
      Binding.CorrespondInOrder free ((name, otherName) :: links) rest others inner →
        Binding.CorrespondInOrder free links (⟨name, source⟩ :: rest)
          (⟨otherName, otherSource⟩ :: others) inner

/-- Two clauses whose sources do not see each other's variables, and the links behind them. -/
inductive Binding.CorrespondApart (free : String → String → Prop) :
    Links → Links → List Binding → List Binding → Links → Prop where
  | nil {outer links : Links} : Binding.CorrespondApart free outer links [] [] links
  | cons {outer links inner : Links} {name otherName : String} {source otherSource : Query}
      {rest others : List Binding} :
      Query.Corresponds free outer source otherSource →
      Binding.CorrespondApart free outer ((name, otherName) :: links) rest others inner →
        Binding.CorrespondApart free outer links (⟨name, source⟩ :: rest)
          (⟨otherName, otherSource⟩ :: others) inner
end

/-- Two queries that are the same up to the names of the variables they bind. -/
def Query.AlphaEquivalent (first second : Query) : Prop :=
  first.Corresponds (· = ·) [] second

variable {free : String → String → Prop}

/-! ## Reflexivity -/

/-- Links of every name with itself. -/
def Links.Diagonal (free : String → String → Prop) (links : Links) : Prop :=
  ∀ name, links.Connect free name name

theorem Links.Diagonal.cons {links : Links} (diagonal : links.Diagonal free) (name : String) :
    Links.Diagonal free ((name, name) :: links) := by
  intro other
  by_cases same : other = name
  · exact .inl ⟨same, same⟩
  · exact .inr ⟨same, same, diagonal other⟩

mutual
theorem Query.corresponds_refl : (query : Query) → ∀ {links : Links}, links.Diagonal free →
    query.Corresponds free links query
  | .reference name, _, diagonal => .reference (diagonal name)
  | .constant value, _, _ => .constant value
  | .document path, _, _ => .document path
  | .parenthesized inner, _, diagonal => .parenthesized (inner.corresponds_refl diagonal)
  | .pair left right, _, diagonal =>
      .pair (left.corresponds_refl diagonal) (right.corresponds_refl diagonal)
  | .step base _ _, _, diagonal => .step (base.corresponds_refl diagonal)
  | .element _ body, _, diagonal => .element (body.corresponds_refl diagonal)
  | .join left right _ _, _, diagonal =>
      .join (left.corresponds_refl diagonal) (right.corresponds_refl diagonal)
  | .letIn bindings body, _, diagonal => by
      obtain ⟨inner, correspond, diagonalInner⟩ :=
        Binding.correspondApart_refl bindings diagonal diagonal
      exact .letIn correspond (body.corresponds_refl diagonalInner)
  | .flwr bindings lets condition result, _, diagonal => by
      obtain ⟨inner, correspond, diagonal⟩ := Binding.correspondInOrder_refl bindings diagonal
      obtain ⟨innermost, correspondLets, diagonal⟩ := Binding.correspondInOrder_refl lets diagonal
      exact .flwr correspond correspondLets (Condition.correspondIfPresent_refl condition diagonal)
        (result.corresponds_refl diagonal)

theorem Condition.corresponds_refl : (condition : Condition) → ∀ {links : Links},
    links.Diagonal free → condition.Corresponds free links condition
  | .valueEq left right, _, diagonal =>
      .valueEq (left.corresponds_refl diagonal) (right.corresponds_refl diagonal)
  | .identityEq left right, _, diagonal =>
      .identityEq (left.corresponds_refl diagonal) (right.corresponds_refl diagonal)
  | .empty query, _, diagonal => .empty (query.corresponds_refl diagonal)
  | .someSatisfies bindings body, _, diagonal => by
      obtain ⟨inner, correspond, diagonal⟩ := Binding.correspondInOrder_refl bindings diagonal
      exact .someSatisfies correspond (body.corresponds_refl diagonal)
  | .parenthesized inner, _, diagonal => .parenthesized (inner.corresponds_refl diagonal)
  | .and left right, _, diagonal =>
      .and (left.corresponds_refl diagonal) (right.corresponds_refl diagonal)
  | .or left right, _, diagonal =>
      .or (left.corresponds_refl diagonal) (right.corresponds_refl diagonal)
  | .not inner, _, diagonal => .not (inner.corresponds_refl diagonal)

theorem Condition.correspondIfPresent_refl : (condition : Option Condition) → ∀ {links : Links},
    links.Diagonal free → Condition.CorrespondIfPresent free links condition condition
  | none, _, _ => .none
  | some condition, _, diagonal => .some (condition.corresponds_refl diagonal)

theorem Binding.correspondInOrder_refl : (bindings : List Binding) → ∀ {links : Links},
    links.Diagonal free → ∃ inner, Binding.CorrespondInOrder free links bindings bindings inner ∧
      inner.Diagonal free
  | [], links, diagonal => ⟨links, .nil, diagonal⟩
  | ⟨name, source⟩ :: rest, _, diagonal => by
      obtain ⟨inner, correspond, diagonalInner⟩ :=
        Binding.correspondInOrder_refl rest (diagonal.cons name)
      exact ⟨inner, .cons (source.corresponds_refl diagonal) correspond, diagonalInner⟩

theorem Binding.correspondApart_refl : (bindings : List Binding) → ∀ {outer links : Links},
    outer.Diagonal free → links.Diagonal free →
      ∃ inner, Binding.CorrespondApart free outer links bindings bindings inner ∧
        inner.Diagonal free
  | [], _, links, _, diagonal => ⟨links, .nil, diagonal⟩
  | ⟨name, source⟩ :: rest, _, _, outer, diagonal => by
      obtain ⟨inner, correspond, diagonalInner⟩ :=
        Binding.correspondApart_refl rest outer (diagonal.cons name)
      exact ⟨inner, .cons (source.corresponds_refl outer) correspond, diagonalInner⟩
end

/-! ## Symmetry -/

/-- Links the other way round. -/
def Links.flip (links : Links) : Links := links.map Prod.swap

theorem Links.Connect.flip {first second : String} : {links : Links} →
    links.Connect free first second →
      links.flip.Connect (fun second first => free first second) second first
  | [], connect => connect
  | (_, _) :: _, .inl ⟨left, right⟩ => .inl ⟨right, left⟩
  | (_, _) :: _, .inr ⟨left, right, outer⟩ => .inr ⟨right, left, outer.flip⟩

mutual
theorem Query.Corresponds.flip : {first : Query} → ∀ {second : Query} {links : Links},
    first.Corresponds free links second →
      second.Corresponds (fun second first => free first second) links.flip first
  | .reference _, _, _, .reference connect => .reference connect.flip
  | .constant _, _, _, .constant value => .constant value
  | .document _, _, _, .document path => .document path
  | .parenthesized _, _, _, .parenthesized inner => .parenthesized inner.flip
  | .pair _ _, _, _, .pair left right => .pair left.flip right.flip
  | .step _ _ _, _, _, .step base => .step base.flip
  | .element _ _, _, _, .element body => .element body.flip
  | .join _ _ _ _, _, _, .join left right => .join left.flip right.flip
  | .letIn _ _, _, _, .letIn bindings body => .letIn bindings.flip body.flip
  | .flwr _ _ _ _, _, _, .flwr bindings lets condition result =>
      .flwr bindings.flip lets.flip condition.flip result.flip

theorem Condition.Corresponds.flip : {first : Condition} → ∀ {second : Condition} {links : Links},
    first.Corresponds free links second →
      second.Corresponds (fun second first => free first second) links.flip first
  | .valueEq _ _, _, _, .valueEq left right => .valueEq left.flip right.flip
  | .identityEq _ _, _, _, .identityEq left right => .identityEq left.flip right.flip
  | .empty _, _, _, .empty query => .empty query.flip
  | .someSatisfies _ _, _, _, .someSatisfies bindings body =>
      .someSatisfies bindings.flip body.flip
  | .parenthesized _, _, _, .parenthesized inner => .parenthesized inner.flip
  | .and _ _, _, _, .and left right => .and left.flip right.flip
  | .or _ _, _, _, .or left right => .or left.flip right.flip
  | .not _, _, _, .not inner => .not inner.flip

theorem Condition.CorrespondIfPresent.flip : {first : Option Condition} →
    ∀ {second : Option Condition} {links : Links},
      Condition.CorrespondIfPresent free links first second →
        Condition.CorrespondIfPresent (fun second first => free first second) links.flip second
          first
  | none, _, _, .none => .none
  | some _, _, _, .some condition => .some condition.flip

theorem Binding.CorrespondInOrder.flip : {first : List Binding} → ∀ {second : List Binding}
    {links inner : Links}, Binding.CorrespondInOrder free links first second inner →
      Binding.CorrespondInOrder (fun second first => free first second) links.flip second first
        inner.flip
  | [], _, _, _, .nil => .nil
  | ⟨_, _⟩ :: _, _, _, _, .cons source rest => .cons source.flip rest.flip

theorem Binding.CorrespondApart.flip : {first : List Binding} → ∀ {second : List Binding}
    {outer links inner : Links}, Binding.CorrespondApart free outer links first second inner →
      Binding.CorrespondApart (fun second first => free first second) outer.flip links.flip second
        first inner.flip
  | [], _, _, _, _, .nil => .nil
  | ⟨_, _⟩ :: _, _, _, _, _, .cons source rest => .cons source.flip rest.flip
end

/-! ## Transitivity -/

/-- Links that lead over the second names of some to the second names of others. -/
inductive Links.Composed : Links → Links → Links → Prop where
  | nil : Links.Composed [] [] []
  | cons {first second whole : Links} (left middle right : String) :
      Links.Composed first second whole →
        Links.Composed ((left, middle) :: first) ((middle, right) :: second)
          ((left, right) :: whole)

theorem Links.Composed.connect {before after whole : Links} (composed : before.Composed after whole)
    {first second third : String} (connect : before.Connect (· = ·) first second)
    (connectNext : after.Connect (· = ·) second third) : whole.Connect (· = ·) first third := by
  induction composed with
  | nil => exact connect.trans connectNext
  | cons left middle right composed ih =>
      rcases connect with ⟨here, there⟩ | ⟨apart, apartMiddle, connect⟩
      · rcases connectNext with ⟨_, next⟩ | ⟨apartMiddle, _, _⟩
        · exact .inl ⟨here, next⟩
        · exact absurd there apartMiddle
      · rcases connectNext with ⟨there, _⟩ | ⟨_, apartNext, connectNext⟩
        · exact absurd there apartMiddle
        · exact .inr ⟨apart, apartNext, ih connect connectNext⟩

mutual
theorem Query.Corresponds.comp : {first : Query} → ∀ {second third : Query}
    {before after whole : Links}, first.Corresponds (· = ·) before second →
      second.Corresponds (· = ·) after third → before.Composed after whole →
        first.Corresponds (· = ·) whole third
  | .reference _, _, _, _, _, _, .reference connect, .reference connectNext, composed =>
      .reference (composed.connect connect connectNext)
  | .constant _, _, _, _, _, _, .constant value, .constant _, _ => .constant value
  | .document _, _, _, _, _, _, .document path, .document _, _ => .document path
  | .parenthesized _, _, _, _, _, _, .parenthesized inner, .parenthesized next, composed =>
      .parenthesized (inner.comp next composed)
  | .pair _ _, _, _, _, _, _, .pair left right, .pair nextLeft nextRight, composed =>
      .pair (left.comp nextLeft composed) (right.comp nextRight composed)
  | .step _ _ _, _, _, _, _, _, .step base, .step next, composed =>
      .step (base.comp next composed)
  | .element _ _, _, _, _, _, _, .element body, .element next, composed =>
      .element (body.comp next composed)
  | .join _ _ _ _, _, _, _, _, _, .join left right, .join nextLeft nextRight, composed =>
      .join (left.comp nextLeft composed) (right.comp nextRight composed)
  | .letIn _ _, _, _, _, _, _, .letIn bindings body, .letIn next nextBody, composed => by
      obtain ⟨inner, both, composedInner⟩ := bindings.comp next composed composed
      exact .letIn both (body.comp nextBody composedInner)
  | .flwr _ _ _ _, _, _, _, _, _, .flwr bindings lets condition result,
      .flwr next nextLets nextCondition nextResult, composed => by
      obtain ⟨inner, both, composed⟩ := bindings.comp next composed
      obtain ⟨innermost, bothLets, composed⟩ := lets.comp nextLets composed
      exact .flwr both bothLets (condition.comp nextCondition composed)
        (result.comp nextResult composed)

theorem Condition.Corresponds.comp : {first : Condition} → ∀ {second third : Condition}
    {before after whole : Links}, first.Corresponds (· = ·) before second →
      second.Corresponds (· = ·) after third → before.Composed after whole →
        first.Corresponds (· = ·) whole third
  | .valueEq _ _, _, _, _, _, _, .valueEq left right, .valueEq nextLeft nextRight, composed =>
      .valueEq (left.comp nextLeft composed) (right.comp nextRight composed)
  | .identityEq _ _, _, _, _, _, _, .identityEq left right, .identityEq nextLeft nextRight,
      composed =>
      .identityEq (left.comp nextLeft composed) (right.comp nextRight composed)
  | .empty _, _, _, _, _, _, .empty query, .empty next, composed =>
      .empty (query.comp next composed)
  | .someSatisfies _ _, _, _, _, _, _, .someSatisfies bindings body,
      .someSatisfies next nextBody, composed => by
      obtain ⟨inner, both, composed⟩ := bindings.comp next composed
      exact .someSatisfies both (body.comp nextBody composed)
  | .parenthesized _, _, _, _, _, _, .parenthesized inner, .parenthesized next, composed =>
      .parenthesized (inner.comp next composed)
  | .and _ _, _, _, _, _, _, .and left right, .and nextLeft nextRight, composed =>
      .and (left.comp nextLeft composed) (right.comp nextRight composed)
  | .or _ _, _, _, _, _, _, .or left right, .or nextLeft nextRight, composed =>
      .or (left.comp nextLeft composed) (right.comp nextRight composed)
  | .not _, _, _, _, _, _, .not inner, .not next, composed => .not (inner.comp next composed)

theorem Condition.CorrespondIfPresent.comp : {first : Option Condition} →
    ∀ {second third : Option Condition} {before after whole : Links},
      Condition.CorrespondIfPresent (· = ·) before first second →
        Condition.CorrespondIfPresent (· = ·) after second third → before.Composed after whole →
          Condition.CorrespondIfPresent (· = ·) whole first third
  | none, _, _, _, _, _, .none, .none, _ => .none
  | some _, _, _, _, _, _, .some condition, .some next, composed =>
      .some (condition.comp next composed)

theorem Binding.CorrespondInOrder.comp : {first : List Binding} →
    ∀ {second third : List Binding} {before after whole innerBefore innerAfter : Links},
      Binding.CorrespondInOrder (· = ·) before first second innerBefore →
        Binding.CorrespondInOrder (· = ·) after second third innerAfter →
          before.Composed after whole →
            ∃ inner, Binding.CorrespondInOrder (· = ·) whole first third inner ∧
              innerBefore.Composed innerAfter inner
  | [], _, _, _, _, whole, _, _, .nil, .nil, composed => ⟨whole, .nil, composed⟩
  | ⟨_, _⟩ :: _, _, _, _, _, _, _, _, .cons source rest, .cons nextSource nextRest, composed => by
      obtain ⟨inner, both, composedInner⟩ := rest.comp nextRest (composed.cons _ _ _)
      exact ⟨inner, .cons (source.comp nextSource composed) both, composedInner⟩

theorem Binding.CorrespondApart.comp : {first : List Binding} →
    ∀ {second third : List Binding}
      {outerBefore outerAfter outer before after whole innerBefore innerAfter : Links},
      Binding.CorrespondApart (· = ·) outerBefore before first second innerBefore →
        Binding.CorrespondApart (· = ·) outerAfter after second third innerAfter →
          outerBefore.Composed outerAfter outer → before.Composed after whole →
            ∃ inner, Binding.CorrespondApart (· = ·) outer whole first third inner ∧
              innerBefore.Composed innerAfter inner
  | [], _, _, _, _, _, _, _, whole, _, _, .nil, .nil, _, composed => ⟨whole, .nil, composed⟩
  | ⟨_, _⟩ :: _, _, _, _, _, _, _, _, _, _, _, .cons source rest, .cons nextSource nextRest,
      outer, composed => by
      obtain ⟨inner, both, composedInner⟩ := rest.comp nextRest outer (composed.cons _ _ _)
      exact ⟨inner, .cons (source.comp nextSource outer) both, composedInner⟩
end

/-- **Alpha-equivalence is an equivalence.** -/
theorem Query.alphaEquivalent_equivalence : Equivalence Query.AlphaEquivalent where
  refl query := query.corresponds_refl fun _ => rfl
  symm := by
    intro first second corresponds
    have eqSymm : (fun second first : String => first = second) = (· = ·) := by
      funext second first
      exact propext eq_comm
    have flipped := corresponds.flip
    rwa [eqSymm] at flipped
  trans corresponds next := Query.Corresponds.comp corresponds next .nil

end TreeQuery
