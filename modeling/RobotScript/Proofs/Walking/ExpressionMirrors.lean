import RobotScript.Proofs.Walking.Mirroring
import RobotScript.Proofs.Walking.Names

/-! # Expressions walked and read

Every function of the expression grammar is walked as it is read if nested expressions are.
A loop that counts its rounds by the tokens ahead goes round as often as one that counts
nothing, as each round takes a token. -/
set_option autoImplicit false

namespace RobotScript.Grammar

/-! ## Steps that look at no token -/

theorem binaryNode_blind (left : Node) (operator : BinaryOp) (span : Span) (right : Node) :
    Blind (binaryNode left operator span right) := by
  rw [binaryNode]
  cases operator.result? left.ty right.ty with
  | some ty => exact .pure _
  | none => exact .refuse _ _

theorem unaryNode_blind (operator : UnaryOp) (span : Span) (operand : Node) :
    Blind (unaryNode operator span operand) := by
  rw [unaryNode]
  cases operator.result? operand.ty with
  | some ty => exact .pure _
  | none => exact .refuse _ _

theorem variableType_blind (name : Token) : Blind (variableType name) := by
  refine .get (fun reader => ?_) fun _ => rfl
  cases reader.context.variableType? name.lexeme with
  | some ty => exact .pure _
  | none => exact .refuse _ _

theorem functionSignature_blind (name : Token) : Blind (functionSignature name) := by
  refine .get (fun reader => ?_) fun _ => rfl
  cases reader.context.signature? name.lexeme with
  | some signature => exact .pure _
  | none => exact .refuse _ _

theorem requireBool_blind (condition : Node) (keyword : String) :
    Blind (requireBool condition keyword) :=
  .ite (.pure _) (.refuse _ _)

theorem unifyBranch_blind (current : Option Ty) (body : Node) :
    Blind (unifyBranch current body) := by
  refine .ite (.refuse _ _) ?_
  cases current with
  | none => exact .pure _
  | some ty => exact .ite (.pure _) (.refuse _ _)

theorem elementType_blind (current : Option Ty) (element : Node) :
    Blind (elementType current element) := by
  refine .ite (.refuse _ _) ?_
  cases current with
  | none => exact .pure _
  | some ty => exact .ite (.pure _) (.ite (.pure _) (.refuse _ _))

open Walk (Level Phrase)

section

variable {most : Nat} {cursor : Cursor}

/-! ## Operators -/

theorem Walk.Level.none_atEnd (here : Level) : here.operators.lookup .eof = none := by
  cases here <;> rfl

theorem binaryOperator_mirrors {takes : Bool} (here : Level)
    {next : Option (BinaryOp × Span) → Walk Node} {goOn : Option (BinaryOp × Span) → Parse Node}
    (ended : cursor.Ended) (without : Mirrors takes (next none) (goOn none) cursor)
    (taken : ∀ operator, cursor.reader.peek.kind ≠ .eof →
      Mirrors false (next (some (operator, cursor.reader.peek.span)))
        (goOn (some (operator, cursor.reader.peek.span))) cursor.passed) :
    Mirrors takes (Walk.binaryOperator here.operators >>= next)
      (binaryOperator here.operators >>= goOn) cursor := by
  cases known : here.operators.lookup cursor.reader.peek.kind with
  | none =>
    have walked : Walk.binaryOperator here.operators cursor = some (.ok none, cursor) := by
      rw [Walk.binaryOperator, Walk.bind_of_ok (Walk.peek_run ended.peek)]
      simp only [known]
      rfl
    have read : binaryOperator here.operators cursor.reader = .ok (none, cursor.reader) := by
      rw [binaryOperator, bind_peek]
      simp only [known, pure_run]
    exact .step (Walk.bind_of_ok walked) (bind_of_ok read _) without
  | some operator =>
    have goesOn : cursor.reader.peek.kind ≠ .eof := by
      intro isEnd
      rw [isEnd, here.none_atEnd] at known
      cases known
    have walked : Walk.binaryOperator here.operators cursor =
        some (.ok (some (operator, cursor.reader.peek.span)), cursor.passed) := by
      rw [Walk.binaryOperator, Walk.bind_of_ok (Walk.peek_run ended.peek)]
      simp only [known]
      rw [Walk.bind_of_ok (Walk.advance_run ended.peek goesOn)]
      rfl
    have read : binaryOperator here.operators cursor.reader =
        .ok (some (operator, cursor.reader.peek.span), cursor.reader.next) := by
      rw [binaryOperator, bind_peek]
      simp only [known, bind_advance, pure_run]
    exact .passing ended goesOn (Walk.bind_of_ok walked) (bind_of_ok read _) (taken operator goesOn)

theorem further_mirrors (here : Level) {operand : Parse Node}
    (operands : ∀ cursor : Cursor, cursor.Within most →
      Mirrors true here.operand.walk operand cursor)
    (rounds : List Token) (left : Node) (within : cursor.Within most)
    (counted : cursor.Within (rounds.length + 1)) :
    Mirrors false (Phrase.further here left).walk (operatorChain here.operators operand rounds left)
      cursor := by
  induction rounds generalizing cursor left with
  | nil =>
    rw [Phrase.walk, Walk.binaryOperator, bind_assoc, operatorChain]
    refine .step (Walk.bind_of_ok (Walk.peek_run within.ended.peek)) rfl ?_
    rw [counted.atEnd, here.none_atEnd]
    exact .pure left within.ended
  | cons round rounds ih =>
    rw [Phrase.walk, operatorChain]
    refine binaryOperator_mirrors here within.ended (.pure left within.ended)
      fun operator goesOn => ?_
    have passed := Cursor.Reaches.passed goesOn within.ended
    refine .behind (operands _ (within.onward passed)) fun right after reaches => ?_
    refine .bind (.ofContext (binaryNode_blind _ _ _ _) reaches.ended) fun node behind still => ?_
    exact ih node (((within.onward passed).onward reaches).onward still)
      (((counted.inside passed).onward reaches).onward still)

theorem level_mirrors (here : Level) {operand : Parse Node}
    (operands : ∀ cursor : Cursor, cursor.Within most →
      Mirrors true here.operand.walk operand cursor) (within : cursor.Within most) :
    Mirrors true (Phrase.level here).walk (leftAssociative here.operators operand) cursor := by
  rw [Phrase.walk, leftAssociative]
  refine .behind (operands cursor within) fun first after reaches => .remaining ?_
  exact further_mirrors here operands _ first (within.onward reaches) (.self reaches.ended)

/-- Prefix operators before an operand, of whatever walk goes by this rule. -/
theorem prefixed_mirrors {kind : TokenKind} {operator : UnaryOp} {signed unsigned : Walk Node}
    {operand : Parse Node} (token : kind ≠ .eof)
    (rule : signed = do
      if ← Walk.check kind then
        let sign ← Walk.advance
        let inside ← signed
        Walk.ofContext (unaryNode operator sign.span inside)
      else unsigned)
    (operands : ∀ cursor : Cursor, cursor.Within most → Mirrors true unsigned operand cursor)
    (rounds : List Token) (within : cursor.Within most)
    (counted : cursor.Within (rounds.length + 1)) :
    Mirrors true signed (prefixed kind operator operand rounds) cursor := by
  induction rounds generalizing cursor with
  | nil =>
    rw [rule, prefixed]
    refine .step (Walk.bind_of_ok (Walk.check_run within.ended.peek)) rfl ?_
    rw [counted.atEnd, decide_eq_false token.symm]
    exact operands cursor within
  | cons round rounds ih =>
    rw [rule, prefixed]
    refine .check within.ended (.ite (fun here => ?_) fun _ => operands cursor within)
    have goesOn : cursor.reader.peek.kind ≠ .eof := of_decide_eq_true here ▸ token
    have passed := Cursor.Reaches.passed goesOn within.ended
    refine .advance within.ended goesOn ?_
    refine .behind (ih (within.onward passed) (counted.inside passed))
      fun inside after reaches => ?_
    exact .ofContext (unaryNode_blind _ _ _) reaches.ended

/-! ## Items separated by commas -/

theorem separated_mirrors {α : Type} {loop one : α → Walk α} {item : α → Parse α}
    (rule : ∀ sofar, loop sofar = do
      let next ← one sofar
      if ← Walk.accept .comma then loop next else return next)
    (items : ∀ (sofar : α) (cursor : Cursor), cursor.Within most →
      Mirrors true (one sofar) (item sofar) cursor)
    (rounds : List Token) (sofar : α) (within : cursor.Within most)
    (counted : cursor.Within (rounds.length + 1)) :
    Mirrors true (loop sofar) (separated item rounds sofar) cursor := by
  induction rounds generalizing cursor sofar with
  | nil =>
    rw [rule, separated, ← bind_pure (item sofar)]
    refine .behind (items sofar cursor within) fun next after reaches => ?_
    have nothing := Nat.lt_of_lt_of_le reaches.left_lt (Nat.le_of_lt_succ counted.fewer)
    exact absurd nothing (Nat.not_lt_zero _)
  | cons round rounds ih =>
    rw [rule, separated]
    refine .behind (items sofar cursor within) fun next after reaches => ?_
    refine .accept (by decide) reaches.ended (fun here => .loose ?_) fun _ =>
      .pure next reaches.ended
    have passed := Cursor.Reaches.passed (here ▸ by decide) reaches.ended
    exact ih next ((within.onward reaches).onward passed) ((counted.inside reaches).onward passed)

theorem commaSeparated_mirrors {α : Type} {loop one : α → Walk α} {item : α → Parse α}
    (rule : ∀ sofar, loop sofar = do
      let next ← one sofar
      if ← Walk.accept .comma then loop next else return next)
    (items : ∀ (sofar : α) (cursor : Cursor), cursor.Within most →
      Mirrors true (one sofar) (item sofar) cursor)
    (start : α) (within : cursor.Within most) :
    Mirrors true (loop start) (commaSeparated item start) cursor :=
  .remaining (separated_mirrors rule items _ start within (.self within.ended))

def Nested (most : Nat) (inner : Parse Node) : Prop :=
  ∀ cursor : Cursor, cursor.Within most → Mirrors true Phrase.expression.walk inner cursor

variable {inner : Parse Node} (nested : Nested most inner)

include nested

theorem arguments_mirrors (within : cursor.Within most) :
    Mirrors false Phrase.arguments.walk (arguments inner) cursor := by
  have rule (sofar : List Node) : (Phrase.furtherArguments sofar).walk = (do
      let next ← (do return sofar ++ [← Phrase.expression.walk])
      if ← Walk.accept .comma then (Phrase.furtherArguments next).walk else return next) := by
    conv => lhs; rw [Phrase.walk]
    simp only [bind_assoc, pure_bind]
  rw [Phrase.walk, arguments]
  refine .check within.ended (.ite (fun _ => .pure [] within.ended) fun _ => .loose ?_)
  refine commaSeparated_mirrors rule (fun sofar cursor within => ?_) [] within
  exact .behind (nested cursor within) fun argument after reaches => .pure _ reaches.ended

theorem elements_mirrors (within : cursor.Within most) :
    Mirrors true (Phrase.elements [] none).walk (commaSeparated (element inner) ([], none))
      cursor := by
  have rule (sofar : List Node × Option Ty) : (Phrase.elements sofar.1 sofar.2).walk = (do
      let next ← (do
        let element ← Phrase.expression.walk
        let ty ← Walk.ofContext (elementType sofar.2 element)
        return (sofar.1 ++ [element], some ty))
      if ← Walk.accept .comma then (Phrase.elements next.1 next.2).walk else return next) := by
    conv => lhs; rw [Phrase.walk]
    simp only [bind_assoc, pure_bind]
  refine commaSeparated_mirrors rule (fun sofar cursor within => ?_) ([], none) within
  refine .behind (nested cursor within) fun element after reaches => ?_
  refine .bind (.ofContext (elementType_blind _ _) reaches.ended) fun ty behind still => ?_
  exact .pure _ still.ended

/-! ## Names -/

theorem callBehind_mirrors (name : Token) (within : cursor.Within most) :
    Mirrors false (Phrase.callBehind name).walk (callBehind inner name) cursor := by
  rw [Phrase.walk, callBehind]
  refine .bind (.ofContext (functionSignature_blind name) within.ended)
    fun signature after reaches => ?_
  refine .bind (arguments_mirrors nested (within.onward reaches)) fun made behind further => ?_
  refine .expect .argumentsClose (by decide) further.ended fun here => ?_
  have passed := Cursor.Reaches.passed (here ▸ by decide) further.ended
  dsimp only
  cases argumentFault? name.lexeme signature.parameters made
      (name.span.through behind.reader.peek.span) with
  | some fault => exact .throw fault passed.ended
  | none => exact .pure _ passed.ended

theorem indexBehind_mirrors (name : Token) (within : cursor.Within most) :
    Mirrors false (Phrase.indexBehind name).walk (indexBehind inner name) cursor := by
  rw [Phrase.walk, indexBehind]
  refine .bind (.ofContext (variableType_blind name) within.ended) fun ty after reaches => ?_
  refine .ite (fun _ => ?_) fun _ => .refuse _ _ reaches.ended
  refine .behind (nested after (within.onward reaches)) fun position behind further => ?_
  refine .ite (fun _ => ?_) fun _ => .refuse _ _ further.ended
  refine .expect .indexClose (by decide) further.ended fun here => ?_
  exact .pure _ (Cursor.passed_ended (here ▸ by decide) further.ended)

theorem assignedValue_mirrors (name : Token) (target : Ty) (operator : AssignOp) (span : Span)
    (within : cursor.Within most) :
    Mirrors false (Phrase.assignedValue name target operator span).walk
      (assignedValue inner name target operator span) cursor := by
  cases operator with
  | increment | decrement =>
    rw [Phrase.walk, assignedValue]
    exact .ite (fun _ => .pure none within.ended) fun _ => .refuse _ _ within.ended
  | set =>
    rw [Phrase.walk, assignedValue]
    refine .behind (nested cursor within) fun value after reaches => ?_
    exact .ite (fun _ => .pure _ reaches.ended) fun _ => .refuse _ _ reaches.ended
  | compound binary =>
    rw [Phrase.walk, assignedValue]
    refine .behind (nested cursor within) fun value after reaches => ?_
    exact .ite (fun _ => .pure _ reaches.ended) fun _ => .refuse _ _ reaches.ended

theorem assignmentBehind_mirrors (name sign : Token) (operator : AssignOp)
    (within : cursor.Within most) :
    Mirrors false (Phrase.assignmentBehind name sign operator).walk
      (assignmentBehind inner name sign operator) cursor := by
  rw [Phrase.walk, assignmentBehind]
  refine .bind (.ofContext (variableType_blind name) within.ended) fun target after reaches => ?_
  refine .bind (assignedValue_mirrors nested name target operator sign.span
    (within.onward reaches)) fun value behind further => ?_
  exact .pure _ further.ended

omit nested in
theorem variableBehind_mirrors (name : Token) (ended : cursor.Ended) :
    Mirrors false (Walk.variableBehind name) (variableBehind name) cursor := by
  refine .bind (.ofContext (variableType_blind name) ended) fun ty after reaches => ?_
  exact .pure _ reaches.ended

theorem nameForm_mirrors (isName : cursor.reader.peek.kind = .identifier)
    (within : cursor.Within (most + 1)) :
    Mirrors true Phrase.nameForm.walk (nameForm inner) cursor := by
  have goesOn : cursor.reader.peek.kind ≠ .eof := isName ▸ by decide
  rw [Walk.nameForm_predicted, nameForm_predicted]
  refine .advance within.ended goesOn ?_
  have inside := within.passed goesOn
  refine .accept (by decide) inside.ended (fun here => ?_) fun _ => ?_
  · have passed := Cursor.Reaches.passed (here ▸ by decide) inside.ended
    exact callBehind_mirrors nested _ (inside.onward passed)
  refine .accept (by decide) inside.ended (fun here => ?_) fun _ => ?_
  · have passed := Cursor.Reaches.passed (here ▸ by decide) inside.ended
    exact indexBehind_mirrors nested _ (inside.onward passed)
  refine .peek inside.ended ?_
  cases known : assignOp? cursor.passed.reader.peek.kind with
  | none => exact variableBehind_mirrors _ inside.ended
  | some operator =>
    have behindName := goesOn_of_assignOp? known
    refine .advance inside.ended behindName ?_
    exact assignmentBehind_mirrors nested _ _ operator
      (inside.onward (.passed behindName inside.ended))

/-! ## Lists and chains -/

theorem listLiteral_mirrors (goesOn : cursor.reader.peek.kind ≠ .eof)
    (within : cursor.Within (most + 1)) :
    Mirrors true Phrase.listLiteral.walk (listLiteral inner) cursor := by
  rw [Phrase.walk, listLiteral]
  refine .advance within.ended goesOn ?_
  have inside := within.passed goesOn
  refine .check inside.ended (.ite (fun _ => ?_) fun _ => ?_)
  · exact .peek inside.ended (.refuse _ _ inside.ended)
  refine .behind (elements_mirrors nested inside) fun made after reaches => ?_
  refine .expect .elementsClose (by decide) reaches.ended fun here => ?_
  exact .pure _ (Cursor.passed_ended (here ▸ by decide) reaches.ended)

omit nested in
theorem goesOn_of_guard {kind : TokenKind} {first : Bool} {guard : GuardKind}
    (opens : GuardKind.ofToken? kind first = some guard) : kind ≠ .eof := by
  rintro rfl
  cases opens

theorem valueBranches_mirrors (rounds : List Token) (branches : List (Branch Form))
    (ty : Option Ty) (within : cursor.Within (most + 1))
    (counted : cursor.Within (rounds.length + 1)) :
    Mirrors false (Phrase.valueBranches branches ty).walk (valueBranches inner rounds branches ty)
      cursor := by
  induction rounds generalizing cursor branches ty with
  | nil =>
    rw [Phrase.walk, valueBranches]
    refine .step (Walk.bind_of_ok (Walk.peek_run within.ended.peek)) rfl ?_
    rw [counted.atEnd]
    exact .pure _ within.ended
  | cons round rounds ih =>
    rw [Phrase.walk, valueBranches]
    refine .peek within.ended ?_
    cases opens : GuardKind.ofToken? cursor.reader.peek.kind branches.isEmpty with
    | none => exact .pure _ within.ended
    | some guard =>
      have goesOn := goesOn_of_guard opens
      have inside := within.passed goesOn
      have countedInside := counted.passed goesOn
      cases guard with
      | test =>
        simp only [branch, bind_assoc, pure_bind]
        refine .advance within.ended goesOn ?_
        refine .behind (nested _ inside) fun test after reaches => ?_
        rw [Phrase.walk]
        refine .bind (.ofContext (requireBool_blind _ _) reaches.ended) fun _ told still => ?_
        have toldInside := (inside.onward reaches).onward still
        refine .behind (nested told toldInside) fun body behind further => ?_
        refine .bind (.ofContext (unifyBranch_blind _ _) further.ended) fun unified last same => ?_
        exact ih _ _ ((toldInside.onward further).onward same).loose
          ((((countedInside.onward reaches).onward still).onward further).onward same)
      | attempt =>
        simp only [branch, bind_assoc, pure_bind]
        refine .advance within.ended goesOn ?_
        refine .behind (nested _ inside) fun body behind further => ?_
        refine .bind (.ofContext (unifyBranch_blind _ _) further.ended) fun unified last same => ?_
        exact ih _ _ ((inside.onward further).onward same).loose
          ((countedInside.onward further).onward same)

theorem valueChain_mirrors (within : cursor.Within (most + 1)) :
    Mirrors true Phrase.valueChain.walk (valueChain inner) cursor := by
  rw [Phrase.walk, valueChain]
  refine .peek within.ended (.remaining ?_)
  refine .bind (valueBranches_mirrors nested _ [] none within (.self within.ended)) ?_
  rintro ⟨branches, ty⟩ after reaches
  dsimp only
  rw [Phrase.walk]
  have inside := within.onward reaches
  refine .accept (by decide) reaches.ended (fun here => ?_) fun _ =>
    .peek reaches.ended (.refuse _ _ reaches.ended)
  refine .behind (nested _ (inside.passed (here ▸ by decide))) fun otherwise behind further => ?_
  refine .bind (.ofContext (unifyBranch_blind _ _) further.ended) fun ty last same => ?_
  exact .pure _ same.ended

/-! ## Atoms and levels -/

omit nested in
theorem literal_mirrors (value : Value) (goesOn : cursor.reader.peek.kind ≠ .eof)
    (ended : cursor.Ended) : Mirrors true (Walk.literal value) (literal value) cursor :=
  .advance ended goesOn (.pure _ (Cursor.passed_ended goesOn ended))

omit nested in
theorem refused_mirrors (cause : Cause) (span : Span) (goesOn : cursor.reader.peek.kind ≠ .eof)
    (ended : cursor.Ended) :
    Mirrors true (do
      let _ ← Walk.advance
      Walk.refuse cause span : Walk Node)
      (refuse cause span) cursor :=
  .fails (Walk.bind_of_ok (Walk.advance_run ended.peek goesOn)) rfl
    (Cursor.Reaches.passed goesOn ended).toOnward

theorem atom_mirrors (within : cursor.Within (most + 1)) :
    Mirrors true Phrase.atom.walk (atom inner) cursor := by
  have ended := within.ended
  rw [Phrase.walk, atom]
  refine .peek ended ?_
  cases kind : cursor.reader.peek.kind with
  | int =>
    have goesOn : cursor.reader.peek.kind ≠ .eof := kind ▸ by decide
    cases Decimal.int? cursor.reader.peek.lexeme with
    | none => exact refused_mirrors _ _ goesOn ended
    | some number => exact .advance ended goesOn (.pure _ (Cursor.passed_ended goesOn ended))
  | double =>
    have goesOn : cursor.reader.peek.kind ≠ .eof := kind ▸ by decide
    cases Decimal.double? cursor.reader.peek.lexeme with
    | none => exact refused_mirrors _ _ goesOn ended
    | some number => exact .advance ended goesOn (.pure _ (Cursor.passed_ended goesOn ended))
  | bool => exact literal_mirrors _ (kind ▸ by decide) ended
  | string => exact literal_mirrors _ (kind ▸ by decide) ended
  | leftParen =>
    have goesOn : cursor.reader.peek.kind ≠ .eof := kind ▸ by decide
    refine .advance ended goesOn ?_
    refine .behind (nested _ (within.passed goesOn)) fun node after reaches => ?_
    refine .expect .groupClose (by decide) reaches.ended fun here => ?_
    exact .pure _ (Cursor.passed_ended (here ▸ by decide) reaches.ended)
  | leftBracket => exact listLiteral_mirrors nested (kind ▸ by decide) within
  | «if» | «try» => exact valueChain_mirrors nested within
  | identifier => exact nameForm_mirrors nested kind within
  | _ => exact .refuse _ _ ended

/-- An expression is walked as it is read if the expressions in it are. -/
theorem expression_mirrors (within : cursor.Within (most + 1)) :
    Mirrors true Phrase.expression.walk (expression inner) cursor := by
  have negations (cursor : Cursor) (within : cursor.Within (most + 1)) :
      Mirrors true Phrase.negation.walk (negation inner) cursor :=
    .remaining (prefixed_mirrors (by decide) (by conv => lhs; rw [Phrase.walk])
      (fun _ within => atom_mirrors nested within) _ within (.self within.ended))
  have powers (cursor : Cursor) (within : cursor.Within (most + 1)) :
      Mirrors true (Phrase.level .power).walk (power inner) cursor :=
    level_mirrors .power negations within
  have products (cursor : Cursor) (within : cursor.Within (most + 1)) :
      Mirrors true (Phrase.level .product).walk (product inner) cursor :=
    level_mirrors .product powers within
  have sums (cursor : Cursor) (within : cursor.Within (most + 1)) :
      Mirrors true (Phrase.level .sum).walk (sum inner) cursor :=
    level_mirrors .sum products within
  have comparisons (cursor : Cursor) (within : cursor.Within (most + 1)) :
      Mirrors true (Phrase.level .comparison).walk (comparison inner) cursor :=
    level_mirrors .comparison sums within
  have denials (cursor : Cursor) (within : cursor.Within (most + 1)) :
      Mirrors true Phrase.denial.walk (denial inner) cursor :=
    .remaining (prefixed_mirrors (by decide) (by conv => lhs; rw [Phrase.walk]) comparisons _ within
      (.self within.ended))
  rw [Phrase.walk]
  exact level_mirrors .logic denials within

end

end RobotScript.Grammar
