import Mathlib.Data.List.Nodup
import RobotScript.Proofs.Reading.ExpressionSound

/-! # What is read as a statement is one

Every function of the statement grammar, given a reader of nested expressions and
statements that reads well-typed ones, reads a well-typed statement and adds to
the declarations in view just what the statement declares. -/
set_option autoImplicit false

namespace RobotScript

namespace Context

/-- Leaving a scope gives back the scopes around it, if they are still the same. -/
theorem pop_eq {context inner : Context} (natives : inner.natives = context.natives)
    (enclosing : inner.enclosing = context.scopes) : inner.pop = context := by
  rw [pop, enclosing, scopes, natives]

theorem after_natives (context : Context) (node : Node) :
    (context.after node).natives = context.natives := by
  unfold after
  split <;> rfl

theorem after_enclosing (context : Context) (node : Node) :
    (context.after node).enclosing = context.enclosing := by
  unfold after
  split <;> rfl

theorem afterAll_natives (context : Context) (statements : List Node) :
    (context.afterAll statements).natives = context.natives := by
  induction statements generalizing context with
  | nil => rfl
  | cons first rest ih => rw [afterAll_cons, ih, after_natives]

theorem afterAll_enclosing (context : Context) (statements : List Node) :
    (context.afterAll statements).enclosing = context.enclosing := by
  induction statements generalizing context with
  | nil => rfl
  | cons first rest ih => rw [afterAll_cons, ih, after_enclosing]

theorem foldl_withVariable_natives (context : Context) (parameters : List Parameter) :
    (parameters.foldl (fun inner parameter => inner.withVariable parameter.name parameter.ty)
      context).natives = context.natives := by
  induction parameters generalizing context with
  | nil => rfl
  | cons first rest ih => rw [List.foldl_cons, ih, withVariable]

theorem entering_natives (context : Context) (parameters : List Parameter) :
    (context.entering parameters).natives = context.natives :=
  foldl_withVariable_natives context.push parameters

theorem foldl_withVariable_enclosing (context : Context) (parameters : List Parameter) :
    (parameters.foldl (fun inner parameter => inner.withVariable parameter.name parameter.ty)
      context).enclosing = context.enclosing := by
  induction parameters generalizing context with
  | nil => rfl
  | cons first rest ih => rw [List.foldl_cons, ih, withVariable]

theorem after_expression {context view : Context} {node : Node}
    (typed : Typing.Expression context node) : view.after node = view := by
  cases typed <;> rfl

theorem binds_eq_false {α : Type} {bindings : Bindings α} {name : String} :
    ¬ bindings.binds name = true ↔ bindings.find? name = none := by
  rw [Bindings.binds, Bool.not_eq_true, Option.isSome_eq_false_iff, Option.isNone_iff_eq_none]

theorem declareVariable_ok {context after : Context} {name : String} {ty : Ty} :
    context.declareVariable name ty = .ok after ↔
      context.innermost.vars.find? name = none ∧ after = context.withVariable name ty := by
  unfold declareVariable
  simp only
  split
  · rename_i bound
    constructor
    · intro run
      cases run
    · rintro ⟨fresh, -⟩
      exact absurd bound (binds_eq_false.mpr fresh)
  · rename_i free
    constructor
    · intro run
      cases run
      exact ⟨binds_eq_false.mp free, rfl⟩
    · rintro ⟨-, rfl⟩
      rfl

theorem declareFunction_ok {context after : Context} {name : String} {signature : Signature} :
    context.declareFunction name signature = .ok after ↔
      context.natives.find? name = none ∧ context.innermost.functions.find? name = none ∧
        after = context.withFunction name signature := by
  unfold declareFunction
  simp only
  split
  · rename_i bound
    constructor
    · intro run
      cases run
    · rintro ⟨fresh, -⟩
      exact absurd bound (binds_eq_false.mpr fresh)
  · rename_i notNative
    split
    · rename_i bound
      constructor
      · intro run
        cases run
      · rintro ⟨-, fresh, -⟩
        exact absurd bound (binds_eq_false.mpr fresh)
    · rename_i free
      constructor
      · intro run
        cases run
        exact ⟨binds_eq_false.mp notNative, binds_eq_false.mp free, rfl⟩
      · rintro ⟨-, -, rfl⟩
        rfl

/-- Parameters of different names that are new to the scope are all declared. -/
theorem withParameters_eq {parameters : List Parameter}
    (distinct : (parameters.map (·.name)).Nodup) (context : Context)
    (fresh : ∀ parameter ∈ parameters, context.innermost.vars.find? parameter.name = none) :
    Grammar.withParameters parameters context =
      parameters.foldl (fun inner parameter => inner.withVariable parameter.name parameter.ty)
        context := by
  induction parameters generalizing context with
  | nil => rfl
  | cons first rest ih =>
    have declared : context.declareVariable first.name first.ty =
        .ok (context.withVariable first.name first.ty) :=
      declareVariable_ok.mpr ⟨fresh first List.mem_cons_self, rfl⟩
    obtain ⟨notAgain, distinctRest⟩ := List.nodup_cons.mp distinct
    rw [List.foldl_cons, ← ih distinctRest, Grammar.withParameters, List.foldl_cons, declared]
    · rfl
    · intro parameter member
      have differs : first.name ≠ parameter.name := by
        intro same
        exact notAgain (List.mem_map.mpr ⟨parameter, member, same.symm⟩)
      show (context.innermost.vars.insert first.name first.ty).find? parameter.name = none
      rw [Bindings.find?_insert, if_neg differs]
      exact fresh parameter (List.mem_cons_of_mem _ member)

end Context

namespace Grammar

open Typing

/-- Whatever this reads is a statement, and adds to the context what it declares. -/
def ReadsStatements (place : Place) (parse : Parse Node) : Prop :=
  ∀ ⦃context : Context⦄ ⦃reader after : Reader⦄ ⦃node : Node⦄, At context reader →
    parse reader = .ok (node, after) → At (context.after node) after ∧ Statement place context node

structure Reads (inner : Goal → Parse Node) : Prop where
  expressions : ReadsExpressions (inner .expression)
  statements : ∀ place, ReadsStatements place (inner (.statement place))

section

variable {context : Context} {reader after : Reader} {node : Node}

/-! ## Ends and types -/

theorem At.into {changed : Context} (here : At context reader) :
    At changed { reader with context := changed } := ⟨rfl, here.finish⟩

theorem endStatement_ok {result : Unit} (here : At context reader)
    (run : endStatement reader = .ok (result, after)) : At context after := by
  rw [endStatement, bind_expect] at run
  split at run
  · cases run
    exact here.next
  · cases run

theorem endBlockStatement_ok {result : Unit} (here : At context reader)
    (run : endBlockStatement reader = .ok (result, after)) : At context after := by
  rw [endBlockStatement, bind_accept] at run
  split at run
  · cases run
    exact here.next
  · cases run
    exact here

theorem primitiveOf?_ne_void {kind : TokenKind} {primitive : Primitive}
    (known : primitiveOf? kind = some primitive) : primitive ≠ .void := by
  intro isVoid
  subst isVoid
  cases kind <;> cases known

theorem typeBehind_ok {primitive : Primitive} {span : Span} {ty : Ty} (here : At context reader)
    (run : typeBehind primitive span reader = .ok (ty, after)) :
    At context after ∧ Returnable ty ∧ (primitive ≠ .void → Declarable ty) := by
  simp only [typeBehind, bind_advance, bind_check, bind_checkNext] at run
  split at run
  · split at run
    · cases run
    · rename_i notVoid
      cases run
      exact ⟨here.next.next.next, .inr notVoid, id⟩
  · cases run
    refine ⟨here.next, ?_, id⟩
    by_cases isVoid : primitive = .void
    · left
      rw [isVoid]
      rfl
    · exact .inr isVoid

theorem typeName_ok {allowVoid : Bool} {ty : Ty} (here : At context reader)
    (run : typeName allowVoid reader = .ok (ty, after)) :
    At context after ∧ Returnable ty ∧ (allowVoid = false → Declarable ty) := by
  rw [typeName_eq, bind_peek] at run
  cases known : primitiveOf? reader.peek.kind with
  | some primitive =>
    simp only [known] at run
    obtain ⟨after_at, returnable, declarable⟩ := typeBehind_ok here run
    exact ⟨after_at, returnable, fun _ => declarable (primitiveOf?_ne_void known)⟩
  | none =>
    simp only [known] at run
    split at run
    · cases run
    · split at run
      · rename_i allowed
        obtain ⟨after_at, returnable, -⟩ := typeBehind_ok here run
        refine ⟨after_at, returnable, ?_⟩
        intro forbidden
        rw [allowed] at forbidden
        cases forbidden
      · cases run

/-! ## Scopes and blocks -/

theorem inScope_ok {α : Type} {body : Parse α} {result : α}
    (run : inScope body reader = .ok (result, after)) :
    ∃ inside, body { reader with context := reader.context.push } = .ok (result, inside) ∧
      after = { inside with context := inside.context.pop } := by
  rw [inScope, bind_changeContext] at run
  obtain ⟨value, inside, bodyRun, rest⟩ := bind_ok run
  cases rest
  exact ⟨inside, bodyRun, rfl⟩

theorem leave {inside : Reader} {statements : List Node}
    (there : At (context.push.afterAll statements) inside) :
    At context { inside with context := inside.context.pop } := by
  refine ⟨?_, there.finish⟩
  show inside.context.pop = context
  rw [there.context]
  exact Context.pop_eq (Context.afterAll_natives _ _) (Context.afterAll_enclosing _ _)

theorem statements_sound {inner : Goal → Parse Node} (reads : Reads inner) (place : Place)
    (rounds : List Token) {context : Context} {reader after : Reader} {list : List Node}
    (here : At context reader) (run : statements inner place rounds reader = .ok (list, after)) :
    At (context.afterAll list) after ∧ Sequence (Statement place) context list := by
  induction rounds generalizing context reader after list with
  | nil =>
    cases run
    exact ⟨here, .nil⟩
  | cons token rounds ih =>
    simp only [statements, bind_check] at run
    split at run
    · cases run
      exact ⟨here, .nil⟩
    · obtain ⟨first, between, firstRun, rest⟩ := bind_ok run
      obtain ⟨between_at, firstTyped⟩ := reads.statements place here firstRun
      obtain ⟨others, behind, othersRun, made⟩ := bind_ok rest
      obtain ⟨behind_at, othersTyped⟩ := ih between_at othersRun
      cases made
      exact ⟨behind_at, .cons firstTyped othersTyped⟩

def OpensBlock (place : Place) (context : Context) (node : Node) : Prop :=
  IsBlock node ∧ Sequence (Statement place) context.push node.statements

theorem block_sound {inner : Goal → Parse Node} (reads : Reads inner) (place : Place)
    (here : At context reader) (run : block inner place reader = .ok (node, after)) :
    At context after ∧ OpensBlock place context node := by
  rw [block, bind_expect] at run
  split at run
  · obtain ⟨inside, insideRun, rfl⟩ := inScope_ok run
    rw [bind_remaining] at insideRun
    obtain ⟨list, between, listRun, rest⟩ := bind_ok insideRun
    rw [here.next.context] at listRun
    obtain ⟨between_at, typed⟩ := statements_sound reads place _ here.next.into listRun
    rw [bind_expect] at rest
    split at rest
    · cases rest
      exact ⟨leave between_at.next, ⟨list, rfl, rfl⟩, typed⟩
    · cases rest
  · cases run

theorem loopBody_sound {inner : Goal → Parse Node} (reads : Reads inner) (place : Place)
    (here : At context reader) (run : loopBody inner place reader = .ok (node, after)) :
    At context after ∧ OpensBlock { place with inLoop := true } context node :=
  block_sound reads _ here run

/-! ## Loops -/

theorem repeatStatement_sound {inner : Goal → Parse Node} (reads : Reads inner) (place : Place) :
    ReadsStatements place (repeatStatement inner place) := by
  intro context reader after node here run
  rw [repeatStatement, bind_advance] at run
  obtain ⟨count, between, countRun, checked⟩ := bind_ok run
  obtain ⟨between_at, typed⟩ := reads.expressions here.next countRun
  split at checked
  · rename_i isInt
    obtain ⟨body, behind, bodyRun, ending⟩ := bind_ok checked
    obtain ⟨behind_at, isBlock, rounds⟩ := loopBody_sound reads place between_at bodyRun
    obtain ⟨_, stop, endRun, made⟩ := bind_ok ending
    have stop_at := endBlockStatement_ok behind_at endRun
    cases made
    exact ⟨stop_at, .repeating typed isInt isBlock rounds⟩
  · cases checked

theorem whileStatement_sound {inner : Goal → Parse Node} (reads : Reads inner) (place : Place) :
    ReadsStatements place (whileStatement inner place) := by
  intro context reader after node here run
  rw [whileStatement, bind_advance] at run
  obtain ⟨condition, between, conditionRun, rest⟩ := bind_ok run
  obtain ⟨between_at, typed⟩ := reads.expressions here.next conditionRun
  obtain ⟨_, _, boolRun, others⟩ := bind_ok rest
  obtain ⟨rfl, isBool⟩ := requireBool_ok boolRun
  obtain ⟨body, behind, bodyRun, ending⟩ := bind_ok others
  obtain ⟨behind_at, isBlock, rounds⟩ := loopBody_sound reads place between_at bodyRun
  obtain ⟨_, stop, endRun, made⟩ := bind_ok ending
  have stop_at := endBlockStatement_ok behind_at endRun
  cases made
  exact ⟨stop_at, .whileTrue typed isBool isBlock rounds⟩

/-! ## Declarations -/

theorem initialValue_ok {inner : Goal → Parse Node} (reads : Reads inner) {name : Token} {ty : Ty}
    {value : Option Node} (here : At context reader)
    (run : initialValue inner name ty reader = .ok (value, after)) :
    At context after ∧ ∀ node, value = some node →
      Expression context node ∧ ty.accepts node.ty = true := by
  rw [initialValue, bind_accept] at run
  split at run
  · obtain ⟨first, between, firstRun, checked⟩ := bind_ok run
    obtain ⟨between_at, typed⟩ := reads.expressions here.next firstRun
    split at checked
    · rename_i accepted
      cases checked
      refine ⟨between_at, ?_⟩
      intro node isFirst
      cases isFirst
      exact ⟨typed, accepted⟩
    · cases checked
  · cases run
    refine ⟨here, ?_⟩
    intro node absent
    cases absent

theorem declareVariable_run {name : Token} {ty : Ty} {result : Unit} (here : At context reader)
    (run : declareVariable name ty reader = .ok (result, after)) :
    At (context.withVariable name.lexeme ty) after ∧
      context.innermost.vars.find? name.lexeme = none := by
  rw [declareVariable, bind_get, here.context] at run
  cases declared : context.declareVariable name.lexeme ty with
  | ok changed =>
    obtain ⟨fresh, rfl⟩ := Context.declareVariable_ok.mp declared
    simp only [declared] at run
    cases run
    exact ⟨here.into, fresh⟩
  | error refusal =>
    simp only [declared] at run
    cases run

theorem declareFunction_run {name : Token} {signature : Signature} {result : Unit}
    (here : At context reader)
    (run : declareFunction name signature reader = .ok (result, after)) :
    At (context.withFunction name.lexeme signature) after ∧
      context.natives.find? name.lexeme = none ∧
      context.innermost.functions.find? name.lexeme = none := by
  rw [declareFunction, bind_get, here.context] at run
  cases declared : context.declareFunction name.lexeme signature with
  | ok changed =>
    obtain ⟨notNative, fresh, rfl⟩ := Context.declareFunction_ok.mp declared
    simp only [declared] at run
    cases run
    exact ⟨here.into, notNative, fresh⟩
  | error refusal =>
    cases refusal <;> simp only [declared] at run <;> cases run

theorem variableDeclaration_sound {inner : Goal → Parse Node} (reads : Reads inner)
    (here : At context reader) (run : variableDeclaration inner reader = .ok (node, after)) :
    At (context.after node) after ∧ Declaration context node := by
  rw [variableDeclaration, bind_peek] at run
  obtain ⟨declared, between, typeRun, naming⟩ := bind_ok run
  obtain ⟨between_at, -, declarable⟩ := typeName_ok here typeRun
  rw [bind_expect] at naming
  split at naming
  · obtain ⟨value, behind, valueRun, declaring⟩ := bind_ok naming
    obtain ⟨behind_at, fits⟩ := initialValue_ok reads between_at.next valueRun
    obtain ⟨_, stop, declareRun, made⟩ := bind_ok declaring
    obtain ⟨stop_at, fresh⟩ := declareVariable_run behind_at declareRun
    cases made
    exact ⟨stop_at, .declare (declarable rfl) fresh (fun node is => (fits node is).1)
      fun node is => (fits node is).2⟩
  · cases naming

theorem loopInitializer_sound {inner : Goal → Parse Node} (reads : Reads inner)
    (here : At context reader) (run : loopInitializer inner reader = .ok (node, after)) :
    At (context.after node) after ∧ (Expression context node ∨ Declaration context node) := by
  rw [loopInitializer, bind_peek] at run
  split at run
  · obtain ⟨after_at, typed⟩ := variableDeclaration_sound reads here run
    exact ⟨after_at, .inr typed⟩
  · obtain ⟨after_at, typed⟩ := reads.expressions here run
    rw [Context.after_expression typed]
    exact ⟨after_at, .inl typed⟩

theorem loopStatement_sound {inner : Goal → Parse Node} (reads : Reads inner) (place : Place) :
    ReadsStatements place (loopStatement inner place) := by
  intro context reader after node here run
  rw [loopStatement, bind_advance, bind_expect] at run
  split at run
  · obtain ⟨made, behind, scopeRun, ending⟩ := bind_ok run
    obtain ⟨inside, insideRun, rfl⟩ := inScope_ok scopeRun
    rw [here.next.next.context] at insideRun
    obtain ⟨initializer, first, firstRun, rest⟩ := bind_ok insideRun
    obtain ⟨first_at, firstTyped⟩ := loopInitializer_sound reads here.next.next.into firstRun
    rw [bind_expect] at rest
    split at rest
    · obtain ⟨condition, second, conditionRun, checked⟩ := bind_ok rest
      obtain ⟨second_at, conditionTyped⟩ := reads.expressions first_at.next conditionRun
      obtain ⟨_, _, boolRun, others⟩ := bind_ok checked
      obtain ⟨rfl, isBool⟩ := requireBool_ok boolRun
      rw [bind_expect] at others
      split at others
      · obtain ⟨step, third, stepRun, closing⟩ := bind_ok others
        obtain ⟨third_at, stepTyped⟩ := reads.expressions second_at.next stepRun
        rw [bind_expect] at closing
        split at closing
        · obtain ⟨body, last, bodyRun, whole⟩ := bind_ok closing
          obtain ⟨last_at, isBlock, rounds⟩ := loopBody_sound reads place third_at.next bodyRun
          cases whole
          obtain ⟨_, stop, endRun, result⟩ := bind_ok ending
          have header_at : At (context.push.afterAll [initializer]) _ := last_at
          have stop_at := endBlockStatement_ok (leave header_at) endRun
          cases result
          exact ⟨stop_at, .loop firstTyped conditionTyped isBool stepTyped isBlock rounds⟩
        · cases closing
      · cases others
    · cases rest
  · cases run

/-! ## Functions -/

/-- Parameters read so far: no two share a name, and each type can be that of a variable. -/
def Parametric (parameters : List Parameter) : Prop :=
  (parameters.map (·.name)).Nodup ∧ ∀ parameter ∈ parameters, Declarable parameter.ty

theorem parameter_sound {sofar result : List Parameter} (here : At context reader)
    (earlier : Parametric sofar) (run : parameter sofar reader = .ok (result, after)) :
    At context after ∧ Parametric result := by
  rw [parameter] at run
  obtain ⟨ty, between, typeRun, naming⟩ := bind_ok run
  obtain ⟨between_at, -, declarable⟩ := typeName_ok here typeRun
  rw [bind_expect] at naming
  split at naming
  · split at naming
    · cases naming
    · rename_i unused
      cases naming
      refine ⟨between_at.next, ?_, ?_⟩
      · rw [List.map_append]
        refine List.nodup_append.mpr ⟨earlier.1, List.nodup_singleton _, ?_⟩
        intro name before other isNew same
        obtain ⟨known, member, rfl⟩ := List.mem_map.mp before
        apply unused
        rw [List.any_eq_true]
        exact ⟨known, member, decide_eq_true (same.trans (List.mem_singleton.mp isNew))⟩
      · exact List.forall_mem_append.mpr
          ⟨earlier.2, List.forall_mem_singleton.mpr (declarable rfl)⟩
  · cases naming

theorem parameters_sound {result : List Parameter} (here : At context reader)
    (run : parameters reader = .ok (result, after)) : At context after ∧ Parametric result := by
  have none : Parametric [] :=
    ⟨List.nodup_nil, fun parameter member => absurd member List.not_mem_nil⟩
  rw [parameters, bind_check] at run
  split at run
  · cases run
    exact ⟨here, none⟩
  · rw [commaSeparated, bind_remaining] at run
    exact separated_sound Parametric Parametric parameter_sound id _ here none run

theorem functionBody_sound {inner : Goal → Parse Node} (reads : Reads inner) {returns : Ty}
    {parameters : List Parameter} (parametric : Parametric parameters) (here : At context reader)
    (run : functionBody inner returns parameters reader = .ok (node, after)) :
    At context after ∧ IsBlock node ∧
      Sequence (Statement ⟨false, some returns⟩) (context.entering parameters) node.statements := by
  rw [functionBody, bind_expect] at run
  split at run
  · obtain ⟨inside, insideRun, rfl⟩ := inScope_ok run
    rw [bind_changeContext, bind_remaining] at insideRun
    obtain ⟨list, between, listRun, rest⟩ := bind_ok insideRun
    simp only [here.next.context] at listRun
    rw [Context.withParameters_eq parametric.1 _ fun _ _ => Bindings.find?_empty _] at listRun
    obtain ⟨between_at, typed⟩ := statements_sound reads _ _ here.next.into listRun
    rw [bind_expect] at rest
    split at rest
    · cases rest
      refine ⟨⟨?_, between_at.next.finish⟩, ⟨list, rfl, rfl⟩, typed⟩
      show between.next.context.pop = context
      rw [between_at.next.context]
      apply Context.pop_eq
      · rw [Context.afterAll_natives, Context.foldl_withVariable_natives, Context.push]
      · rw [Context.afterAll_enclosing, Context.foldl_withVariable_enclosing, Context.push]
    · cases rest
  · cases run

theorem functionDefinition_sound {inner : Goal → Parse Node} (reads : Reads inner)
    (place : Place) : ReadsStatements place (functionDefinition inner) := by
  intro context reader after node here run
  rw [functionDefinition, bind_advance] at run
  obtain ⟨returns, between, typeRun, naming⟩ := bind_ok run
  obtain ⟨between_at, returnable, -⟩ := typeName_ok here.next typeRun
  rw [bind_expect] at naming
  split at naming
  · rw [bind_expect] at naming
    split at naming
    · obtain ⟨list, behind, parametersRun, closing⟩ := bind_ok naming
      obtain ⟨behind_at, parametric⟩ := parameters_sound between_at.next.next parametersRun
      rw [bind_expect] at closing
      split at closing
      · obtain ⟨_, declared, declareRun, rest⟩ := bind_ok closing
        obtain ⟨declared_at, notNative, fresh⟩ := declareFunction_run behind_at.next declareRun
        obtain ⟨body, last, bodyRun, ending⟩ := bind_ok rest
        obtain ⟨last_at, isBlock, typed⟩ :=
          functionBody_sound reads parametric declared_at bodyRun
        obtain ⟨_, stop, endRun, made⟩ := bind_ok ending
        have stop_at := endBlockStatement_ok last_at endRun
        cases made
        exact ⟨stop_at,
          .define returnable parametric.2 parametric.1 notNative fresh isBlock typed⟩
      · cases closing
    · cases naming
  · cases naming

/-! ## Jumps -/

theorem returnStatement_sound {inner : Goal → Parse Node} (reads : Reads inner) (place : Place) :
    ReadsStatements place (returnStatement inner place) := by
  intro context reader after node here run
  rw [returnStatement, bind_advance] at run
  obtain ⟨value, between, valueRun, ending⟩ := bind_ok run
  obtain ⟨_, stop, endRun, made⟩ := bind_ok ending
  cases made
  rw [returnedValue, bind_check] at valueRun
  split at valueRun
  · cases expected : place.returns with
    | none =>
      simp only [expected] at valueRun
      cases valueRun
      refine ⟨endStatement_ok here.next endRun, .returnNothing ?_⟩
      intro ty known
      rw [expected] at known
      cases known
    | some ty =>
      simp only [expected] at valueRun
      split at valueRun
      · rename_i isVoid
        cases valueRun
        refine ⟨endStatement_ok here.next endRun, .returnNothing ?_⟩
        intro other known
        rw [expected] at known
        cases known
        exact of_decide_eq_true isVoid
      · cases valueRun
  · obtain ⟨node, behind, nodeRun, checked⟩ := bind_ok valueRun
    obtain ⟨behind_at, typed⟩ := reads.expressions here.next nodeRun
    cases expected : place.returns with
    | none =>
      simp only [expected] at checked
      cases checked
      refine ⟨endStatement_ok behind_at endRun, .returnValue typed ?_⟩
      intro ty known
      rw [expected] at known
      cases known
    | some ty =>
      simp only [expected] at checked
      split at checked
      · cases checked
      · split at checked
        · rename_i accepted
          cases checked
          refine ⟨endStatement_ok behind_at endRun, .returnValue typed ?_⟩
          intro other known
          rw [expected] at known
          cases known
          exact accepted
        · cases checked

theorem jumpStatement_sound {place : Place} {form : Form}
    (fits : ∀ {context : Context} {span : Span}, place.inLoop = true →
      Statement place context ⟨form, .void, span⟩)
    (declaresNothing : ∀ (context : Context) (span : Span),
      context.after ⟨form, .void, span⟩ = context) :
    ReadsStatements place (jumpStatement place form) := by
  intro context reader after node here run
  rw [jumpStatement, bind_advance] at run
  split at run
  · rename_i inLoop
    obtain ⟨_, stop, endRun, made⟩ := bind_ok run
    have stop_at := endStatement_ok here.next endRun
    cases made
    refine ⟨?_, fits inLoop⟩
    rw [Typed.statement, declaresNothing]
    exact stop_at
  · cases run

theorem expressionStatement_sound {inner : Goal → Parse Node} (reads : Reads inner)
    (place : Place) : ReadsStatements place (expressionStatement inner) := by
  intro context reader after node here run
  obtain ⟨value, between, valueRun, ending⟩ := bind_ok run
  obtain ⟨between_at, typed⟩ := reads.expressions here valueRun
  obtain ⟨_, stop, endRun, made⟩ := bind_ok ending
  have stop_at := endStatement_ok between_at endRun
  cases made
  rw [Context.after_expression typed]
  exact ⟨stop_at, .expression typed⟩

/-! ## Chains -/

theorem startsChain_ok {inner : Goal → Parse Node} {result : Bool}
    (run : startsChain inner reader = .ok (result, after)) : after = reader := by
  rw [startsChain, bind_check] at run
  split at run
  · cases run
    rfl
  · rw [bind_get, bind_advance] at run
    obtain ⟨_, between, -, rest⟩ := bind_ok run
    cases rest
    rfl

def BlockBranches (place : Place) (context : Context) (branches : List (Branch Form)) : Prop :=
  ∀ branch ∈ branches, Guarded context branch ∧ OpensBlock place context branch.body

theorem blockBranches_sound {inner : Goal → Parse Node} (reads : Reads inner) (place : Place)
    (rounds : List Token) {branches result : List (Branch Form)} {reader after : Reader}
    (here : At context reader) (earlier : BlockBranches place context branches)
    (run : blockBranches inner place rounds branches reader = .ok (result, after)) :
    At context after ∧ BlockBranches place context result ∧
      (branches ≠ [] → result ≠ []) ∧
      (rounds ≠ [] → (GuardKind.ofToken? reader.peek.kind branches.isEmpty).isSome = true →
        result ≠ []) := by
  induction rounds generalizing branches reader with
  | nil =>
    cases run
    exact ⟨here, earlier, id, fun nonempty => absurd rfl nonempty⟩
  | cons token rounds ih =>
    simp only [blockBranches, bind_peek] at run
    cases opens : GuardKind.ofToken? reader.peek.kind branches.isEmpty with
    | none =>
      rw [opens] at run
      cases run
      exact ⟨here, earlier, id, fun _ isSome => by cases isSome⟩
    | some guard =>
      simp only [opens] at run
      obtain ⟨next, between, branchRun, rest⟩ := bind_ok run
      obtain ⟨between_at, fits⟩ :=
        branch_sound reads.expressions (block_sound reads place · ·) here branchRun
      have all : BlockBranches place context (branches ++ [next]) :=
        List.forall_mem_append.mpr ⟨earlier, List.forall_mem_singleton.mpr fits⟩
      obtain ⟨after_at, resultAll, grown, -⟩ := ih between_at all rest
      have nonempty : result ≠ [] := grown (List.append_ne_nil_of_right_ne_nil _ (by simp))
      exact ⟨after_at, resultAll, fun _ => nonempty, fun _ _ => nonempty⟩

theorem chainStatement_sound {inner : Goal → Parse Node} (reads : Reads inner) (place : Place)
    (here : At context reader) (opens : reader.peek.kind = .if ∨ reader.peek.kind = .try)
    (run : chainStatement inner place reader = .ok (node, after)) :
    At (context.after node) after ∧ Statement place context node := by
  rw [chainStatement, bind_peek, bind_remaining] at run
  obtain ⟨branches, between, branchesRun, rest⟩ := bind_ok run
  obtain ⟨ahead, isGuard⟩ := here.starts_chain opens
  obtain ⟨between_at, all, -, some⟩ := blockBranches_sound reads place _ here
    (fun branch member => absurd member List.not_mem_nil) branchesRun
  have typed {otherwise : Option Node} {span : Span}
      (last : ∀ node, otherwise = Option.some node → OpensBlock place context node) :
      Statement place context ⟨.chain branches otherwise, .void, span⟩ := by
    refine .chain (some ahead isGuard) ?_ ?_ ?_ ?_ ?_ ?_
    · intro branch member guard isGuard
      exact ((all branch member).1 guard isGuard).1
    · intro branch member guard isGuard
      exact ((all branch member).1 guard isGuard).2
    · intro branch member
      exact (all branch member).2.1
    · intro branch member
      exact (all branch member).2.2
    · intro node isLast
      exact (last node isLast).1
    · intro node isLast
      exact (last node isLast).2
  simp only [bind_accept] at rest
  split at rest
  · simp only [if_true] at rest
    obtain ⟨otherwise, behind, otherwiseRun, ending⟩ := bind_ok rest
    obtain ⟨node, nodeRun, rfl⟩ := map_ok otherwiseRun
    obtain ⟨stop_at, opensBlock⟩ := block_sound reads place between_at.next nodeRun
    obtain ⟨_, last, endRun, made⟩ := bind_ok ending
    cases made
    refine ⟨endBlockStatement_ok stop_at endRun, typed ?_⟩
    intro other isNode
    cases isNode
    exact opensBlock
  · simp only [Bool.false_eq_true, if_false, bind_pure_run] at rest
    obtain ⟨_, last, endRun, made⟩ := bind_ok rest
    cases made
    refine ⟨endBlockStatement_ok between_at endRun, typed ?_⟩
    intro other absent
    cases absent

/-! ## Statements -/

theorem statement_sound {inner : Goal → Parse Node} (reads : Reads inner) (place : Place) :
    ReadsStatements place (statement inner place) := by
  intro context reader after node here run
  have declared (run : declarationStatement inner reader = .ok (node, after)) :
      At (context.after node) after ∧ Statement place context node := by
    obtain ⟨made, between, madeRun, ending⟩ := bind_ok run
    obtain ⟨between_at, typed⟩ := variableDeclaration_sound reads here madeRun
    obtain ⟨_, stop, endRun, result⟩ := bind_ok ending
    cases result
    exact ⟨endStatement_ok between_at endRun, .declaration typed⟩
  have chained (opens : reader.peek.kind = .if ∨ reader.peek.kind = .try)
      (run : chainOrExpression inner place reader = .ok (node, after)) :
      At (context.after node) after ∧ Statement place context node := by
    obtain ⟨braced, between, startsRun, rest⟩ := bind_ok run
    rw [startsChain_ok startsRun] at rest
    split at rest
    · exact chainStatement_sound reads place here opens rest
    · exact expressionStatement_sound reads place here rest
  rw [statement, bind_peek] at run
  cases kind : reader.peek.kind with
  | «repeat» =>
    simp only [kind] at run
    exact repeatStatement_sound reads place here run
  | loop =>
    simp only [kind] at run
    exact loopStatement_sound reads place here run
  | «while» =>
    simp only [kind] at run
    exact whileStatement_sound reads place here run
  | func =>
    simp only [kind] at run
    exact functionDefinition_sound reads place here run
  | intType | doubleType | boolType | stringType =>
    simp only [kind] at run
    exact declared run
  | voidType =>
    simp only [kind] at run
    cases run
  | «return» =>
    simp only [kind] at run
    exact returnStatement_sound reads place here run
  | «break» =>
    simp only [kind] at run
    exact jumpStatement_sound .breaking (fun _ _ => rfl) here run
  | «continue» =>
    simp only [kind] at run
    exact jumpStatement_sound .continuing (fun _ _ => rfl) here run
  | «if» =>
    simp only [kind] at run
    exact chained (.inl kind) run
  | «try» =>
    simp only [kind] at run
    exact chained (.inr kind) run
  | _ =>
    simp only [kind] at run
    exact expressionStatement_sound reads place here run

end

end Grammar

end RobotScript
