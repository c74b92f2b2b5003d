import RobotScript.Proofs.Reading.Steps
import RobotScript.Proofs.Typing.Judgement

/-! # What is read as an expression is one

Every function of the expression grammar, given a reader of nested expressions
that reads well-typed ones, reads well-typed ones itself and leaves the
declarations in view as they are. -/
set_option autoImplicit false

namespace RobotScript.Grammar

open Typing

structure At (context : Context) (reader : Reader) : Prop where
  context : reader.context = context
  finish : reader.finish.kind = .eof

theorem At.next {context : Context} {reader : Reader} (here : At context reader) :
    At context reader.next := by
  obtain ⟨ahead, finish, last, view⟩ := reader
  cases ahead with
  | nil => exact here
  | cons token rest => exact ⟨here.context, here.finish⟩

theorem At.ahead_ne_nil {context : Context} {reader : Reader} (here : At context reader)
    (notEnd : reader.peek.kind ≠ .eof) : reader.ahead ≠ [] := by
  intro empty
  apply notEnd
  rw [Reader.peek, empty, List.headD_nil]
  exact here.finish

/-- Whatever this reads is an expression, and it changes no declaration. -/
def ReadsExpressions (parse : Parse Node) : Prop :=
  ∀ ⦃context : Context⦄ ⦃reader after : Reader⦄ ⦃node : Node⦄, At context reader →
    parse reader = .ok (node, after) → At context after ∧ Expression context node

/-! ## Operators -/

section

variable {context : Context} {reader after : Reader} {node : Node}

theorem binaryNode_sound {left right : Node} {operator : BinaryOp} {span : Span}
    (leftTyped : Expression context left) (rightTyped : Expression context right)
    (run : binaryNode left operator span right reader = .ok (node, after)) :
    after = reader ∧ Expression context node := by
  rw [binaryNode] at run
  cases applies : operator.result? left.ty right.ty with
  | none =>
    rw [applies] at run
    cases run
  | some ty =>
    rw [applies] at run
    cases run
    exact ⟨rfl, .binary leftTyped rightTyped applies⟩

theorem unaryNode_sound {operand : Node} {operator : UnaryOp} {span : Span}
    (typed : Expression context operand)
    (run : unaryNode operator span operand reader = .ok (node, after)) :
    after = reader ∧ Expression context node := by
  rw [unaryNode] at run
  cases applies : operator.result? operand.ty with
  | none =>
    rw [applies] at run
    cases run
  | some ty =>
    rw [applies] at run
    cases run
    exact ⟨rfl, .unary typed applies⟩

theorem binaryOperator_at {operators : List (TokenKind × BinaryOp)}
    {found : Option (BinaryOp × Span)} (here : At context reader)
    (run : binaryOperator operators reader = .ok (found, after)) : At context after := by
  rw [binaryOperator, bind_peek] at run
  cases known : operators.lookup reader.peek.kind with
  | none =>
    rw [known] at run
    cases run
    exact here
  | some operator =>
    rw [known] at run
    cases run
    exact here.next

theorem operatorChain_sound {operators : List (TokenKind × BinaryOp)} {operand : Parse Node}
    (sound : ReadsExpressions operand) (rounds : List Token) {left : Node} {reader : Reader}
    (here : At context reader) (leftTyped : Expression context left)
    (run : operatorChain operators operand rounds left reader = .ok (node, after)) :
    At context after ∧ Expression context node := by
  induction rounds generalizing left reader with
  | nil =>
    cases run
    exact ⟨here, leftTyped⟩
  | cons token rounds ih =>
    rw [operatorChain] at run
    obtain ⟨found, between, operatorRun, rest⟩ := bind_ok run
    have between_at := binaryOperator_at here operatorRun
    cases found with
    | none =>
      cases rest
      exact ⟨between_at, leftTyped⟩
    | some found =>
      obtain ⟨right, behind, rightRun, joining⟩ := bind_ok rest
      obtain ⟨behind_at, rightTyped⟩ := sound between_at rightRun
      obtain ⟨joined, joinedAt, joinRun, others⟩ := bind_ok joining
      obtain ⟨rfl, joinedTyped⟩ := binaryNode_sound leftTyped rightTyped joinRun
      exact ih behind_at joinedTyped others

theorem leftAssociative_sound (operators : List (TokenKind × BinaryOp)) {operand : Parse Node}
    (sound : ReadsExpressions operand) :
    ReadsExpressions (leftAssociative operators operand) := by
  intro context reader after node here run
  obtain ⟨first, between, firstRun, rest⟩ := bind_ok run
  obtain ⟨between_at, firstTyped⟩ := sound here firstRun
  exact operatorChain_sound sound _ between_at firstTyped rest

theorem prefixed_sound (kind : TokenKind) (operator : UnaryOp) {operand : Parse Node}
    (sound : ReadsExpressions operand) (rounds : List Token) :
    ReadsExpressions (prefixed kind operator operand rounds) := by
  induction rounds with
  | nil => exact sound
  | cons token rounds ih =>
    intro context reader after node here run
    rw [prefixed, bind_check] at run
    split at run
    · rw [bind_advance] at run
      obtain ⟨inner, between, innerRun, rest⟩ := bind_ok run
      obtain ⟨between_at, innerTyped⟩ := ih here.next innerRun
      obtain ⟨rfl, typed⟩ := unaryNode_sound innerTyped rest
      exact ⟨between_at, typed⟩
    · exact sound here run

/-! ## Names in view -/

theorem variableType_ok {name : Token} {ty : Ty} (here : At context reader)
    (run : variableType name reader = .ok (ty, after)) :
    after = reader ∧ context.variableType? name.lexeme = some ty := by
  rw [variableType, bind_get, here.context] at run
  cases found : context.variableType? name.lexeme with
  | none =>
    rw [found] at run
    cases run
  | some known =>
    rw [found] at run
    cases run
    exact ⟨rfl, rfl⟩

theorem functionSignature_ok {name : Token} {signature : Signature} (here : At context reader)
    (run : functionSignature name reader = .ok (signature, after)) :
    after = reader ∧ context.signature? name.lexeme = some signature := by
  rw [functionSignature, bind_get, here.context] at run
  cases found : context.signature? name.lexeme with
  | none =>
    rw [found] at run
    cases run
  | some known =>
    rw [found] at run
    cases run
    exact ⟨rfl, rfl⟩

/-! ## Items between commas -/

/-- What one item makes of the state before it holds behind any number of them. -/
theorem separated_sound {α : Type} {item : α → Parse α} (before behind : α → Prop)
    (step : ∀ {reader after : Reader} {sofar result : α}, At context reader → before sofar →
      item sofar reader = .ok (result, after) → At context after ∧ behind result)
    (again : ∀ {sofar : α}, behind sofar → before sofar)
    (rounds : List Token) {reader after : Reader} {sofar result : α} (here : At context reader)
    (start : before sofar) (run : separated item rounds sofar reader = .ok (result, after)) :
    At context after ∧ behind result := by
  induction rounds generalizing reader sofar with
  | nil => exact step here start run
  | cons token rounds ih =>
    rw [separated] at run
    obtain ⟨next, between, itemRun, rest⟩ := bind_ok run
    obtain ⟨between_at, nextBehind⟩ := step here start itemRun
    rw [bind_accept] at rest
    split at rest
    · exact ih between_at.next (again nextBehind) rest
    · cases rest
      exact ⟨between_at, nextBehind⟩

theorem argument_sound {inner : Parse Node} (sound : ReadsExpressions inner)
    {sofar result : List Node} (here : At context reader)
    (earlier : ∀ argument ∈ sofar, Expression context argument)
    (run : argument inner sofar reader = .ok (result, after)) :
    At context after ∧ ∀ argument ∈ result, Expression context argument := by
  obtain ⟨node, between, nodeRun, rest⟩ := bind_ok run
  obtain ⟨between_at, typed⟩ := sound here nodeRun
  cases rest
  exact ⟨between_at, List.forall_mem_append.mpr ⟨earlier, List.forall_mem_singleton.mpr typed⟩⟩

theorem arguments_sound {inner : Parse Node} (sound : ReadsExpressions inner)
    {result : List Node} (here : At context reader)
    (run : arguments inner reader = .ok (result, after)) :
    At context after ∧ ∀ argument ∈ result, Expression context argument := by
  rw [arguments, bind_check] at run
  split at run
  · cases run
    exact ⟨here, fun argument member => absurd member List.not_mem_nil⟩
  · rw [commaSeparated, bind_remaining] at run
    exact separated_sound (fun sofar => ∀ argument ∈ sofar, Expression context argument)
      (fun sofar => ∀ argument ∈ sofar, Expression context argument) (argument_sound sound) id _
      here (fun argument member => absurd member List.not_mem_nil) run

theorem misfit?_eq_none {function : String} {position : Nat} {arguments : List Node}
    {types : List Ty} (sameLength : arguments.length = types.length)
    (fits : misfit? function position arguments types = none) :
    List.Forall₂ (fun ty (argument : Node) => ty.accepts argument.ty = true) types arguments := by
  induction types generalizing position arguments with
  | nil =>
    rw [List.length_eq_zero_iff.mp sameLength]
    exact .nil
  | cons ty types ih =>
    cases arguments with
    | nil => cases sameLength
    | cons argument arguments =>
      rw [misfit?] at fits
      split at fits
      · rename_i accepted
        exact .cons accepted (ih (Nat.succ.inj sameLength) fits)
      · cases fits

theorem argumentFault?_eq_none {function : String} {parameters : Parameters}
    {arguments : List Node} {span : Span}
    (fits : argumentFault? function parameters arguments span = none) :
    Takes parameters arguments := by
  cases parameters with
  | anyNumber =>
    rw [argumentFault?, Option.map_eq_none_iff, List.find?_eq_none] at fits
    intro argument member isVoid
    apply fits argument member
    simp [Ty.isVoid, isVoid]
  | exactly types =>
    rw [argumentFault?] at fits
    split at fits
    · cases fits
    · rename_i sameLength
      exact misfit?_eq_none (Decidable.not_not.mp sameLength) fits

/-! ## Names -/

def MayReadExpressions (parse : Parse (Option Node)) : Prop :=
  ∀ ⦃context : Context⦄ ⦃reader after : Reader⦄ ⦃node : Node⦄, At context reader →
    parse reader = .ok (some node, after) → At context after ∧ Expression context node

theorem call_sound {inner : Parse Node} (sound : ReadsExpressions inner) :
    MayReadExpressions (call inner) := by
  intro context reader after node here run
  rw [call, bind_advance, bind_accept] at run
  split at run
  · obtain ⟨signature, _, signatureRun, rest⟩ := bind_ok run
    obtain ⟨rfl, found⟩ := functionSignature_ok here.next.next signatureRun
    obtain ⟨nodes, between, argumentsRun, closing⟩ := bind_ok rest
    obtain ⟨between_at, typed⟩ := arguments_sound sound here.next.next argumentsRun
    rw [bind_expect] at closing
    split at closing
    · cases fits : argumentFault? reader.peek.lexeme signature.parameters nodes
        (reader.peek.span.through between.peek.span) with
      | some fault =>
        simp only [fits] at closing
        cases closing
      | none =>
        simp only [fits] at closing
        cases closing
        exact ⟨between_at.next, .call found typed (argumentFault?_eq_none fits)⟩
    · cases closing
  · cases run

theorem index_sound {inner : Parse Node} (sound : ReadsExpressions inner) :
    MayReadExpressions (index inner) := by
  intro context reader after node here run
  rw [index, bind_advance, bind_accept] at run
  split at run
  · obtain ⟨ty, _, typeRun, rest⟩ := bind_ok run
    obtain ⟨rfl, found⟩ := variableType_ok here.next.next typeRun
    split at rest
    · rename_i isList
      obtain ⟨position, between, positionRun, checked⟩ := bind_ok rest
      obtain ⟨between_at, typed⟩ := sound here.next.next positionRun
      split at checked
      · rename_i isInt
        rw [bind_expect] at checked
        split at checked
        · cases checked
          exact ⟨between_at.next, .index found isList typed isInt⟩
        · cases checked
      · cases checked
    · cases rest
  · cases run

theorem combines_iff {operator : BinaryOp} {target source : Ty} :
    combines operator target source = true ↔
      ∃ result, operator.result? target source = some result ∧ target.accepts result = true := by
  rw [combines]
  cases operator.result? target source with
  | none => simp
  | some result => simp

theorem assignOp?_combining {kind : TokenKind} {operator : BinaryOp}
    (sign : assignOp? kind = some (.compound operator)) : Combining operator := by
  cases kind <;> cases sign <;> decide

theorem assignment_sound {inner : Parse Node} (sound : ReadsExpressions inner) :
    MayReadExpressions (assignment inner) := by
  intro context reader after node here run
  rw [assignment, bind_advance, bind_peek] at run
  cases sign : assignOp? reader.next.peek.kind with
  | none =>
    rw [sign] at run
    cases run
  | some operator =>
    rw [sign] at run
    simp only [bind_advance] at run
    obtain ⟨target, _, targetRun, rest⟩ := bind_ok run
    obtain ⟨rfl, found⟩ := variableType_ok here.next.next targetRun
    obtain ⟨value, between, valueRun, made⟩ := bind_ok rest
    cases made
    cases operator with
    | set =>
      obtain ⟨right, behind, rightRun, checked⟩ := bind_ok valueRun
      obtain ⟨behind_at, typed⟩ := sound here.next.next rightRun
      split at checked
      · rename_i accepted
        cases checked
        exact ⟨behind_at, .set found typed accepted⟩
      · cases checked
    | compound operator =>
      obtain ⟨right, behind, rightRun, checked⟩ := bind_ok valueRun
      obtain ⟨behind_at, typed⟩ := sound here.next.next rightRun
      split at checked
      · rename_i fits
        obtain ⟨result, applies, accepted⟩ := combines_iff.mp fits
        cases checked
        exact ⟨behind_at, .combine found (assignOp?_combining sign) typed applies accepted⟩
      · cases checked
    | increment =>
      rw [assignedValue] at valueRun
      split at valueRun
      · rename_i numeric
        cases valueRun
        exact ⟨here.next.next, .count found (.inl rfl) numeric⟩
      · cases valueRun
    | decrement =>
      rw [assignedValue] at valueRun
      split at valueRun
      · rename_i numeric
        cases valueRun
        exact ⟨here.next.next, .count found (.inr rfl) numeric⟩
      · cases valueRun

theorem variableUse_sound : ReadsExpressions variableUse := by
  intro context reader after node here run
  rw [variableUse, bind_advance] at run
  obtain ⟨ty, _, typeRun, rest⟩ := bind_ok run
  obtain ⟨rfl, found⟩ := variableType_ok here.next typeRun
  cases rest
  exact ⟨here.next, .name found⟩

/-- A form whose shape fits is read; otherwise the reading goes on from the same
place. -/
theorem attempt_sound {form : Parse (Option Node)} {others : Parse Node}
    (formSound : MayReadExpressions form) (othersSound : ReadsExpressions others) :
    ReadsExpressions (do
      match ← attempt form with
      | some node => return node
      | none => others) := by
  intro context reader after node here run
  obtain ⟨found, between, formRun, rest⟩ := bind_ok run
  cases found with
  | some fitting =>
    cases rest
    exact formSound here ((attempt_some _ _ _ _).mp formRun)
  | none =>
    obtain ⟨rfl, -⟩ := (attempt_none _ _ _).mp formRun
    exact othersSound here rest

theorem nameForm_sound {inner : Parse Node} (sound : ReadsExpressions inner) :
    ReadsExpressions (nameForm inner) :=
  attempt_sound (call_sound sound)
    (attempt_sound (index_sound sound) (attempt_sound (assignment_sound sound) variableUse_sound))

/-! ## Lists -/

structure Elements (context : Context) (elements : List Node) (ty : Ty) : Prop where
  nonempty : elements ≠ []
  typed : ∀ element ∈ elements, Expression context element
  plain : ∀ element ∈ elements, Plain element.ty
  common : Common elements ty

theorem elementType_sound {current : Option Ty} {earlier : List Node} {element : Node} {ty : Ty}
    (start : (earlier = [] ∧ current = none) ∨ ∃ ty, current = some ty ∧ Elements context earlier ty)
    (typed : Expression context element)
    (run : elementType current element reader = .ok (ty, after)) :
    after = reader ∧ Elements context (earlier ++ [element]) ty := by
  unfold elementType at run
  split at run
  · cases run
  · rename_i notListOrVoid
    have plain : Plain element.ty := by
      simp only [Bool.or_eq_true, Ty.isVoid, decide_eq_true_eq, not_or] at notListOrVoid
      exact ⟨eq_false_of_ne_true notListOrVoid.1, notListOrVoid.2⟩
    rcases start with ⟨rfl, rfl⟩ | ⟨first, rfl, elements⟩
    · cases run
      refine ⟨rfl, List.cons_ne_nil _ _, ?_, ?_, .inl ?_⟩
      all_goals
        intro other member
        rw [List.mem_singleton.mp member]
      · exact typed
      · exact plain
    · have nonempty : earlier ++ [element] ≠ [] := List.append_ne_nil_of_right_ne_nil _ (by simp)
      have typed' := List.forall_mem_append.mpr
        ⟨elements.typed, List.forall_mem_singleton.mpr typed⟩
      have plain' := List.forall_mem_append.mpr
        ⟨elements.plain, List.forall_mem_singleton.mpr plain⟩
      simp only at run
      split at run
      · rename_i same
        cases run
        subst same
        exact ⟨rfl, nonempty, typed', plain', elements.common.append_same⟩
      · rename_i differs
        split at run
        · rename_i numeric
          obtain ⟨firstNumeric, elementNumeric⟩ := Bool.and_eq_true_iff.mp numeric
          cases run
          exact ⟨rfl, nonempty, typed', plain', elements.common.append_numeric elements.nonempty
            differs firstNumeric elementNumeric⟩
        · cases run

theorem element_sound {inner : Parse Node} (sound : ReadsExpressions inner)
    {sofar result : List Node × Option Ty} (here : At context reader)
    (start : (sofar.1 = [] ∧ sofar.2 = none) ∨
      ∃ ty, sofar.2 = some ty ∧ Elements context sofar.1 ty)
    (run : element inner sofar reader = .ok (result, after)) :
    At context after ∧ ∃ ty, result.2 = some ty ∧ Elements context result.1 ty := by
  obtain ⟨node, between, nodeRun, rest⟩ := bind_ok run
  obtain ⟨between_at, typed⟩ := sound here nodeRun
  obtain ⟨ty, _, typeRun, made⟩ := bind_ok rest
  obtain ⟨rfl, elements⟩ := elementType_sound start typed typeRun
  cases made
  exact ⟨between_at, ty, rfl, elements⟩

theorem listLiteral_sound {inner : Parse Node} (sound : ReadsExpressions inner) :
    ReadsExpressions (listLiteral inner) := by
  intro context reader after node here run
  rw [listLiteral, bind_advance, bind_check] at run
  split at run
  · cases run
  · rw [commaSeparated] at run
    obtain ⟨⟨elements, ty⟩, between, elementsRun, rest⟩ := bind_ok run
    rw [bind_remaining] at elementsRun
    obtain ⟨between_at, elementTy, isTy, all⟩ := separated_sound
      (fun sofar => (sofar.1 = [] ∧ sofar.2 = none) ∨
        ∃ ty, sofar.2 = some ty ∧ Elements context sofar.1 ty)
      (fun sofar => ∃ ty, sofar.2 = some ty ∧ Elements context sofar.1 ty)
      (element_sound sound) .inr _ here.next (.inl ⟨rfl, rfl⟩) elementsRun
    simp only [bind_expect] at rest
    split at rest
    · cases rest
      cases isTy
      exact ⟨between_at.next, .list all.nonempty all.typed all.plain all.common⟩
    · cases rest

/-! ## Chains -/

theorem requireBool_ok {condition : Node} {keyword : String} {result : Unit}
    (run : requireBool condition keyword reader = .ok (result, after)) :
    after = reader ∧ condition.ty = .bool := by
  rw [requireBool] at run
  split at run
  · rename_i isBool
    cases run
    exact ⟨rfl, isBool⟩
  · cases run

def Guarded (context : Context) (branch : Branch Form) : Prop :=
  ∀ guard, branch.guard? = some guard → Expression context guard ∧ guard.ty = .bool

theorem branch_sound {condition body : Parse Node} {fits : Node → Prop} {guard : GuardKind}
    {result : Branch Form} (conditionSound : ReadsExpressions condition)
    (bodySound : ∀ {reader after : Reader} {node : Node}, At context reader →
      body reader = .ok (node, after) → At context after ∧ fits node)
    (here : At context reader) (run : branch condition body guard reader = .ok (result, after)) :
    At context after ∧ Guarded context result ∧ fits result.body := by
  rw [branch, bind_advance] at run
  cases guard with
  | test =>
    obtain ⟨test, between, testRun, rest⟩ := bind_ok run
    obtain ⟨between_at, typed⟩ := conditionSound here.next testRun
    obtain ⟨_, _, boolRun, others⟩ := bind_ok rest
    obtain ⟨rfl, isBool⟩ := requireBool_ok boolRun
    obtain ⟨node, behind, bodyRun, made⟩ := bind_ok others
    obtain ⟨behind_at, fitting⟩ := bodySound between_at bodyRun
    cases made
    refine ⟨behind_at, ?_, fitting⟩
    intro guard isGuard
    cases isGuard
    exact ⟨typed, isBool⟩
  | attempt =>
    obtain ⟨node, behind, bodyRun, made⟩ := bind_ok run
    obtain ⟨behind_at, fitting⟩ := bodySound here.next bodyRun
    cases made
    refine ⟨behind_at, ?_, fitting⟩
    intro guard isGuard
    cases isGuard

theorem unifyBranch_ok {current : Option Ty} {body : Node} {ty : Ty}
    (run : unifyBranch current body reader = .ok (ty, after)) :
    after = reader ∧ body.ty = ty ∧ ty ≠ .void ∧ ∀ earlier, current = some earlier → earlier = ty := by
  unfold unifyBranch at run
  split at run
  · cases run
  · rename_i hasValue
    have notVoid : body.ty ≠ .void := by simpa [Ty.isVoid] using hasValue
    cases current with
    | none =>
      cases run
      refine ⟨rfl, rfl, notVoid, ?_⟩
      intro earlier known
      cases known
    | some earlier =>
      simp only at run
      split at run
      · rename_i same
        cases run
        refine ⟨rfl, rfl, notVoid, ?_⟩
        intro other known
        cases known
        exact same
      · cases run

/-- Branches read so far that have a value, and the type they share, if there are any. -/
def ValueBranches (context : Context) (branches : List (Branch Form)) (ty : Option Ty) : Prop :=
  ∀ branch ∈ branches, Guarded context branch ∧ Expression context branch.body ∧
    ty = some branch.body.ty

theorem valueBranches_sound {inner : Parse Node} (sound : ReadsExpressions inner)
    (rounds : List Token) {branches result : List (Branch Form)} {ty resultTy : Option Ty}
    {reader : Reader} (here : At context reader) (earlier : ValueBranches context branches ty)
    (run : valueBranches inner rounds branches ty reader = .ok ((result, resultTy), after)) :
    At context after ∧ ValueBranches context result resultTy ∧
      (branches ≠ [] → result ≠ []) ∧
      (rounds ≠ [] → (GuardKind.ofToken? reader.peek.kind branches.isEmpty).isSome = true →
        result ≠ []) := by
  induction rounds generalizing branches ty reader with
  | nil =>
    cases run
    exact ⟨here, earlier, id, fun nonempty => absurd rfl nonempty⟩
  | cons token rounds ih =>
    simp only [valueBranches, bind_peek] at run
    cases opens : GuardKind.ofToken? reader.peek.kind branches.isEmpty with
    | none =>
      rw [opens] at run
      cases run
      exact ⟨here, earlier, id, fun _ isSome => by cases isSome⟩
    | some guard =>
      simp only [opens] at run
      obtain ⟨next, between, branchRun, rest⟩ := bind_ok run
      obtain ⟨between_at, guarded, typed⟩ := branch_sound sound (sound · ·) here branchRun
      obtain ⟨unified, _, unifyRun, others⟩ := bind_ok rest
      obtain ⟨rfl, bodyTy, -, same⟩ := unifyBranch_ok unifyRun
      have all : ValueBranches context (branches ++ [next]) (some unified) := by
        refine List.forall_mem_append.mpr ⟨fun branch member => ?_, List.forall_mem_singleton.mpr ?_⟩
        · obtain ⟨guardedBefore, typedBefore, isTy⟩ := earlier branch member
          exact ⟨guardedBefore, typedBefore, by rw [same _ isTy]⟩
        · exact ⟨guarded, typed, by rw [bodyTy]⟩
      obtain ⟨after_at, resultAll, grown, -⟩ := ih between_at all others
      have nonempty : result ≠ [] := grown (List.append_ne_nil_of_right_ne_nil _ (by simp))
      exact ⟨after_at, resultAll, fun _ => nonempty, fun _ _ => nonempty⟩

theorem At.starts_chain (here : At context reader)
    (opens : reader.peek.kind = .if ∨ reader.peek.kind = .try) :
    reader.ahead ≠ [] ∧
      (GuardKind.ofToken? reader.peek.kind ([] : List (Branch Form)).isEmpty).isSome = true := by
  refine ⟨here.ahead_ne_nil ?_, ?_⟩
  · rcases opens with is | is <;> rw [is] <;> decide
  · rcases opens with is | is <;> rw [is] <;> rfl

theorem valueChain_sound {inner : Parse Node} (sound : ReadsExpressions inner)
    (here : At context reader) (opens : reader.peek.kind = .if ∨ reader.peek.kind = .try)
    (run : valueChain inner reader = .ok (node, after)) :
    At context after ∧ Expression context node := by
  simp only [valueChain, bind_peek, bind_remaining] at run
  obtain ⟨⟨branches, ty⟩, between, branchesRun, rest⟩ := bind_ok run
  obtain ⟨ahead, isGuard⟩ := here.starts_chain opens
  obtain ⟨between_at, all, -, some⟩ := valueBranches_sound sound _ here
    (fun branch member => absurd member List.not_mem_nil) branchesRun
  simp only [bind_accept] at rest
  split at rest
  · obtain ⟨otherwise, behind, otherwiseRun, unifying⟩ := bind_ok rest
    obtain ⟨behind_at, typed⟩ := sound between_at.next otherwiseRun
    obtain ⟨unified, _, unifyRun, made⟩ := bind_ok unifying
    obtain ⟨rfl, isTy, hasValue, same⟩ := unifyBranch_ok unifyRun
    cases made
    refine ⟨behind_at, .chain (some ahead isGuard) hasValue ?_ ?_ ?_ ?_ typed isTy⟩
    · intro branch member guard isGuard
      exact ((all branch member).1 guard isGuard).1
    · intro branch member guard isGuard
      exact ((all branch member).1 guard isGuard).2
    · intro branch member
      exact (all branch member).2.1
    · intro branch member
      exact same _ (all branch member).2.2
  · cases rest

/-! ## Atoms and levels -/

theorem grouped_sound {inner : Parse Node} (sound : ReadsExpressions inner) :
    ReadsExpressions (grouped inner) := by
  intro context reader after node here run
  rw [grouped, bind_advance] at run
  obtain ⟨grouped, between, groupedRun, rest⟩ := bind_ok run
  obtain ⟨between_at, typed⟩ := sound here.next groupedRun
  rw [bind_expect] at rest
  split at rest
  · cases rest
    exact ⟨between_at.next, typed.widened _⟩
  · cases rest

theorem literal_sound {value : Value} (plain : Plain value.ty) :
    ReadsExpressions (literal value) := by
  intro context reader after node here run
  cases run
  exact ⟨here.next, .literal plain⟩

theorem atom_sound {inner : Parse Node} (sound : ReadsExpressions inner) :
    ReadsExpressions (atom inner) := by
  intro context reader after node here run
  rw [atom, bind_peek] at run
  cases kind : reader.peek.kind with
  | int =>
    cases numeral : Decimal.int? reader.peek.lexeme with
    | none =>
      simp only [kind, numeral] at run
      cases run
    | some number =>
      simp only [kind, numeral] at run
      refine literal_sound ?_ here run
      exact plain_scalar Primitive.noConfusion
  | double =>
    cases numeral : Decimal.double? reader.peek.lexeme with
    | none =>
      simp only [kind, numeral] at run
      cases run
    | some number =>
      simp only [kind, numeral] at run
      refine literal_sound ?_ here run
      exact plain_scalar Primitive.noConfusion
  | bool =>
    simp only [kind] at run
    refine literal_sound ?_ here run
    exact plain_scalar Primitive.noConfusion
  | string =>
    simp only [kind] at run
    refine literal_sound ?_ here run
    exact plain_scalar Primitive.noConfusion
  | leftParen =>
    simp only [kind] at run
    exact grouped_sound sound here run
  | leftBracket =>
    simp only [kind] at run
    exact listLiteral_sound sound here run
  | «if» =>
    simp only [kind] at run
    exact valueChain_sound sound here (.inl kind) run
  | «try» =>
    simp only [kind] at run
    exact valueChain_sound sound here (.inr kind) run
  | identifier =>
    simp only [kind] at run
    exact nameForm_sound sound here run
  | _ =>
    simp only [kind] at run
    cases run

theorem expression_sound {inner : Parse Node} (sound : ReadsExpressions inner) :
    ReadsExpressions (expression inner) := by
  have negationSound : ReadsExpressions (negation inner) := by
    intro context reader after node here run
    rw [negation, bind_remaining] at run
    exact prefixed_sound _ _ (atom_sound sound) _ here run
  have comparisonSound : ReadsExpressions (comparison inner) :=
    leftAssociative_sound _ (leftAssociative_sound _ (leftAssociative_sound _
      (leftAssociative_sound _ negationSound)))
  apply leftAssociative_sound
  intro context reader after node here run
  rw [denial, bind_remaining] at run
  exact prefixed_sound _ _ comparisonSound _ here run

end

end RobotScript.Grammar
