import RobotScript.Proofs.Reading.StatementSound
import RobotScript.Proofs.Walking.ExpressionMirrors
import RobotScript.Proofs.Walking.Statements

/-! # Statements walked and read

Every function of the statement grammar is walked as it is read if what is nested in it is.
What a walk keeps of the loops and functions around it is the place that a statement is read
at. -/
set_option autoImplicit false

namespace RobotScript.Grammar

open Walk (Phrase Clause)

/-! ## Steps that look at no token -/

theorem declareVariable_blind (name : Token) (ty : Ty) : Blind (declareVariable name ty) := by
  refine .get (fun reader => ?_) fun _ => rfl
  cases reader.context.declareVariable name.lexeme ty with
  | ok context => exact .changeContext _
  | error refusal => exact .refuse _ _

theorem declareFunction_blind (name : Token) (signature : Signature) :
    Blind (declareFunction name signature) := by
  refine .get (fun reader => ?_) fun _ => rfl
  cases reader.context.declareFunction name.lexeme signature with
  | ok context => exact .changeContext _
  | error refusal => cases refusal <;> exact .refuse _ _

section

variable {most : Nat} {cursor : Cursor}

/-! ## Types and ends -/

theorem brackets_run (ended : cursor.Ended) :
    Walk.brackets cursor = some (.ok (decide (cursor.reader.peek.kind = .leftBracket) &&
      decide (cursor.reader.next.peek.kind = .rightBracket)), cursor) := by
  rw [Walk.brackets, Walk.bind_of_ok (Walk.check_run ended.peek)]
  by_cases opens : cursor.reader.peek.kind = .leftBracket
  · rw [decide_eq_true opens]
    exact Walk.checkNext_run .rightBracket (opens ▸ by decide) ended
  · rw [decide_eq_false opens]
    rfl

theorem typeBehind_mirrors (primitive : Primitive) (span : Span)
    (goesOn : cursor.reader.peek.kind ≠ .eof) (ended : cursor.Ended) :
    Mirrors true (Walk.typeBehind primitive span) (typeBehind primitive span) cursor := by
  rw [Walk.typeBehind, typeBehind]
  refine .advance ended goesOn ?_
  have inside := Cursor.passed_ended goesOn ended
  refine .step (Walk.bind_of_ok (brackets_run inside)) (bind_check _ _ _) ?_
  refine .step rfl (bind_checkNext _ _ _) ?_
  refine .ite (fun bracketed => ?_) fun _ => .pure _ inside
  refine .ite (fun _ => .refuse _ _ inside) fun _ => ?_
  obtain ⟨opens, closes⟩ := Bool.and_eq_true_iff.mp bracketed
  have opened : cursor.passed.reader.peek.kind ≠ .eof := of_decide_eq_true opens ▸ by decide
  refine .advance inside opened ?_
  have further := Cursor.passed_ended opened inside
  have closed : cursor.passed.passed.reader.peek.kind ≠ .eof := by
    rw [Cursor.passed_reader opened inside, of_decide_eq_true closes]
    decide
  exact .advance further closed (.pure _ (Cursor.passed_ended closed further))

theorem typeName_mirrors (allowVoid : Bool) (ended : cursor.Ended) :
    Mirrors true (Walk.typeName allowVoid) (typeName allowVoid) cursor := by
  rw [Walk.typeName, typeName_eq]
  refine .peek ended ?_
  cases known : primitiveOf? cursor.reader.peek.kind with
  | some primitive =>
    refine typeBehind_mirrors primitive _ (fun isEnd => ?_) ended
    rw [isEnd] at known
    cases known
  | none =>
    by_cases isVoid : cursor.reader.peek.kind = .voidType
    · cases allowVoid with
      | true =>
        simp only [isVoid, ne_eq, not_true_eq_false, if_false, if_true]
        exact typeBehind_mirrors .void _ (isVoid ▸ by decide) ended
      | false =>
        simp only [isVoid, ne_eq, not_true_eq_false, if_false, Bool.false_eq_true]
        exact .refuse _ _ ended
    · simp only [isVoid, ne_eq, not_false_eq_true, if_true]
      exact .refuse _ _ ended

theorem endStatement_mirrors (ended : cursor.Ended) :
    Mirrors true Walk.endStatement endStatement cursor :=
  .expect .semicolon (by decide) ended fun here =>
    .pure () (Cursor.passed_ended (here ▸ by decide) ended)

theorem endBlockStatement_mirrors (ended : cursor.Ended) :
    Mirrors false Walk.endBlockStatement endBlockStatement cursor :=
  .accept (by decide) ended
    (fun here => .pure () (Cursor.passed_ended (here ▸ by decide) ended)) fun _ => .pure () ended

theorem parameters_mirrors (ended : cursor.Ended) :
    Mirrors false Clause.parameters.walk parameters cursor := by
  have rule (sofar : List Parameter) : (Clause.furtherParameters sofar).walk = (do
      let next ← (do
        let ty ← Walk.typeName false
        let name ← Walk.expect .identifier .parameterName
        if sofar.any fun earlier => earlier.name = name.lexeme then
          Walk.refuse (.typing (.duplicateParameter name.lexeme)) name.span
        else return sofar ++ [⟨name.lexeme, ty⟩])
      if ← Walk.accept .comma then (Clause.furtherParameters next).walk else return next) := by
    rw [Clause.walk]
    simp only [bind_assoc]
    refine bind_congr fun ty => bind_congr fun name => ?_
    split
    · rfl
    · rw [pure_bind]
  rw [Clause.walk, parameters]
  refine .check ended (.ite (fun _ => .pure [] ended) fun _ => .loose ?_)
  refine commaSeparated_mirrors rule (fun sofar cursor within => ?_) [] (.self ended)
  refine .behind (typeName_mirrors false within.ended) fun ty after reaches => ?_
  refine .expect .parameterName (by decide) reaches.ended fun here => ?_
  have inside := Cursor.passed_ended (here ▸ by decide) reaches.ended
  exact .ite (fun _ => .refuse _ _ inside) fun _ => .pure _ inside

/-! ## What is nested -/

/-- What is nested and has fewer tokens ahead is walked as it is read, and what is read is
well formed. -/
structure Walkable (most : Nat) (inner : Goal → Parse Node) : Prop where
  expressions : Nested (most + 1) (inner .expression)
  statements : ∀ cursor : Cursor, cursor.Within most →
    Mirrors true Clause.statement.walk (inner (.statement cursor.place)) cursor
  sound : Reads inner

variable {inner : Goal → Parse Node} (walkable : Walkable most inner)

include walkable

/-! ## Declarations, `return` and jumps -/

theorem expressionStatement_mirrors (within : cursor.Within (most + 1)) :
    Mirrors true Walk.expressionStatement (expressionStatement inner) cursor := by
  refine .behind (walkable.expressions cursor within) fun node after reaches => ?_
  exact .bind (endStatement_mirrors reaches.ended).loose fun _ behind further =>
    .pure _ further.ended

theorem initialValue_mirrors (name : Token) (declared : Ty) (within : cursor.Within (most + 1)) :
    Mirrors false (Walk.initialValue name declared) (initialValue inner name declared) cursor := by
  rw [Walk.initialValue, initialValue]
  refine .accept (by decide) within.ended (fun here => ?_) fun _ => .pure none within.ended
  have inside := within.onward (.passed (here ▸ by decide) within.ended)
  refine .behind (walkable.expressions _ inside) fun value after reaches => ?_
  exact .ite (fun _ => .pure _ reaches.ended) fun _ => .refuse _ _ reaches.ended

theorem variableDeclaration_mirrors (within : cursor.Within (most + 1)) :
    Mirrors true Walk.variableDeclaration (variableDeclaration inner) cursor := by
  rw [Walk.variableDeclaration, variableDeclaration]
  refine .peek within.ended ?_
  refine .behind (typeName_mirrors false within.ended) fun declared after reaches => ?_
  refine .expect .variableName (by decide) reaches.ended fun here => ?_
  have inside := (within.onward reaches).onward (.passed (here ▸ by decide) reaches.ended)
  refine .bind (initialValue_mirrors walkable _ declared inside) fun value behind further => ?_
  refine .bind (.ofContext (declareVariable_blind _ declared) further.ended) fun _ last same => ?_
  exact .pure _ same.ended

theorem loopInitializer_mirrors (within : cursor.Within (most + 1)) :
    Mirrors true Walk.loopInitializer (loopInitializer inner) cursor :=
  .peek within.ended (.ite (fun _ => variableDeclaration_mirrors walkable within)
    fun _ => walkable.expressions cursor within)

theorem returnedValue_mirrors (keyword : Token) (within : cursor.Within (most + 1)) :
    Mirrors false (Walk.returnedValue keyword) (returnedValue inner cursor.place keyword)
      cursor := by
  have returns : cursor.place.returns = cursor.results.head? := rfl
  rw [Walk.returnedValue, returnedValue, returns]
  refine .step (Walk.bind_get _ _) rfl (.check within.ended ?_)
  cases cursor.results.head? with
  | none =>
    refine .ite (fun _ => .pure none within.ended) fun _ => ?_
    exact .behind (walkable.expressions cursor within) fun value after reaches =>
      .pure _ reaches.ended
  | some ty =>
    refine .ite (fun _ => ?_) fun _ => ?_
    · exact .ite (fun _ => .pure none within.ended) fun _ => .refuse _ _ within.ended
    refine .behind (walkable.expressions cursor within) fun value after reaches => ?_
    refine .ite (fun _ => .refuse _ _ reaches.ended) fun _ => ?_
    exact .ite (fun _ => .pure _ reaches.ended) fun _ => .refuse _ _ reaches.ended

theorem returnStatement_mirrors (goesOn : cursor.reader.peek.kind ≠ .eof)
    (within : cursor.Within (most + 1)) :
    Mirrors true Walk.returnStatement (returnStatement inner cursor.place) cursor := by
  rw [Walk.returnStatement, returnStatement]
  refine .advance within.ended goesOn ?_
  have inside := within.onward (.passed goesOn within.ended)
  refine .bind (returnedValue_mirrors walkable _ inside) fun value after reaches => ?_
  exact .bind (endStatement_mirrors reaches.ended).loose fun _ behind further =>
    .pure _ further.ended

omit walkable in
theorem jumpStatement_mirrors (form : Form) (goesOn : cursor.reader.peek.kind ≠ .eof)
    (ended : cursor.Ended) :
    Mirrors true (Walk.jumpStatement form) (jumpStatement cursor.place form) cursor := by
  rw [Walk.jumpStatement, jumpStatement]
  refine .advance ended goesOn ?_
  have inside := Cursor.passed_ended goesOn ended
  refine .step (Walk.bind_get _ _) rfl ?_
  change Mirrors _ (if 0 < cursor.loops then _ else _)
    (if decide (0 < cursor.loops) = true then _ else _) _
  by_cases around : 0 < cursor.loops
  · rw [if_pos around, if_pos (decide_eq_true around)]
    exact .bind (endStatement_mirrors inside).loose fun _ behind further => .pure _ further.ended
  · rw [if_neg around, if_neg (by rwa [decide_eq_true_iff])]
    exact .refuse _ _ inside

/-! ## Chains told from values -/

theorem Walkable.context_kept {between : Cursor} {test : Node} {after : Reader}
    (run : inner .expression between.reader = .ok (test, after)) :
    after.context = between.context :=
  (walkable.sound.expressions ⟨rfl, between.finish_kind⟩ run).1.context

omit walkable in
theorem Walk.startsChain_try (isTry : cursor.reader.peek.kind = .try) (ended : cursor.Ended) :
    Walk.startsChain cursor =
      some (.ok (decide (cursor.reader.next.peek.kind = .leftBrace)), cursor) := by
  rw [Walk.startsChain, Walk.bind_of_ok (Walk.check_run ended.peek), decide_eq_true isTry]
  exact Walk.checkNext_run .leftBrace (isTry ▸ by decide) ended

omit walkable in
/-- A condition that is read is taken back, and all is as it was if it has changed no
declaration. -/
theorem Walk.startsChain_read {test : Node} {after : Cursor}
    (isIf : cursor.reader.peek.kind = .if) (ended : cursor.Ended)
    (read : Phrase.expression.walk cursor.passed = some (.ok test, after))
    (reaches : cursor.passed.Reaches true after) (kept : after.context = cursor.context) :
    Walk.startsChain cursor =
      some (.ok (decide (after.reader.peek.kind = .leftBrace)), cursor) := by
  have settled : Walk.settle Phrase.expression.walk cursor.passed =
      some (.ok (.ok test), after) := by
    rw [Walk.settle, read]
    rfl
  have back : after.context.truncate cursor.context.depth = cursor.context := by
    rw [kept, Context.truncate, Nat.sub_self]
    rfl
  have notTry : cursor.reader.peek.kind ≠ .try := isIf ▸ by decide
  rw [Walk.startsChain, Walk.bind_of_ok (Walk.check_run ended.peek), decide_eq_false notTry]
  change (Walk.advance >>= _) cursor = _
  rw [Walk.bind_of_ok (Walk.advance_run ended.peek (isIf ▸ by decide)), Walk.bind_of_ok settled,
    Walk.bind_of_ok (Walk.check_run reaches.ended.peek)]
  change some (_, { after with
    current := cursor.current, context := after.context.truncate cursor.context.depth }) = _
  have tokens : after.tokens = cursor.tokens := reaches.tokens
  have loops : after.loops = cursor.loops := reaches.loops
  have results : after.results = cursor.results := reaches.results
  rw [back, tokens, loops, results]

omit walkable in
theorem Walk.startsChain_refused {fault : Fault} {after : Cursor}
    (isIf : cursor.reader.peek.kind = .if) (ended : cursor.Ended)
    (read : Phrase.expression.walk cursor.passed = some (.error fault, after))
    (onward : cursor.passed.Onward after) :
    Walk.startsChain cursor = some (.error fault, { after with
      current := cursor.current
      context := after.context.truncate cursor.context.depth }) := by
  have settled : Walk.settle Phrase.expression.walk cursor.passed =
      some (.ok (.error fault), after) := by
    rw [Walk.settle, read]
    rfl
  have notTry : cursor.reader.peek.kind ≠ .try := isIf ▸ by decide
  rw [Walk.startsChain, Walk.bind_of_ok (Walk.check_run ended.peek), decide_eq_false notTry]
  change (Walk.advance >>= _) cursor = _
  rw [Walk.bind_of_ok (Walk.advance_run ended.peek (isIf ▸ by decide)), Walk.bind_of_ok settled,
    Walk.bind_of_ok (Walk.check_run onward.ended.peek)]
  rfl

/-- Whether an `if` or `try` begins a statement is told as it is read, and what comes then
goes on from the same place. -/
theorem startsChain_mirrors {takes : Bool} {next : Bool → Walk Node} {goOn : Bool → Parse Node}
    (opens : cursor.reader.peek.kind = .if ∨ cursor.reader.peek.kind = .try)
    (within : cursor.Within (most + 1))
    (second : ∀ braced, Mirrors takes (next braced) (goOn braced) cursor) :
    Mirrors takes (Walk.startsChain >>= next) (startsChain inner >>= goOn)
      cursor := by
  have ended := within.ended
  rcases opens with isIf | isTry
  · have goesOn : cursor.reader.peek.kind ≠ .eof := isIf ▸ by decide
    have notTry : cursor.reader.peek.kind ≠ .try := isIf ▸ by decide
    have inside := within.onward (.passed goesOn ended)
    have told : startsChain inner cursor.reader = (do
        let _ ← inner .expression
        let braced ← check .leftBrace
        set cursor.reader
        return braced) cursor.passed.reader := by
      rw [startsChain, bind_check, decide_eq_false notTry, Cursor.passed_reader goesOn ended]
      rfl
    cases walkable.expressions cursor.passed inside with
    | ends walked read reaches =>
      have kept := walkable.context_kept read
      have walkedBack := Walk.startsChain_read isIf ended walked reaches kept
      rw [bind_of_ok read, bind_check] at told
      exact .step (Walk.bind_of_ok walkedBack) (bind_of_ok told _) (second _)
    | fails walked read onward =>
      have walkedBack := Walk.startsChain_refused isIf ended walked onward
      rw [bind_of_error read] at told
      exact .fails (Walk.bind_of_error walkedBack) (bind_of_error told _)
        (.back ended onward.tokens rfl)
  · have told : startsChain inner cursor.reader =
        .ok (decide (cursor.reader.next.peek.kind = .leftBrace), cursor.reader) := by
      rw [startsChain, bind_check, decide_eq_true isTry]
      rfl
    exact .step (Walk.bind_of_ok (Walk.startsChain_try isTry ended)) (bind_of_ok told _) (second _)

/-! ## Blocks and bodies -/

theorem statements_mirrors (rounds : List Token) (within : cursor.Within most)
    (counted : cursor.Within (rounds.length + 1)) :
    Mirrors false Clause.statements.walk (statements inner cursor.place rounds) cursor := by
  induction rounds generalizing cursor with
  | nil =>
    rw [Clause.walk, statements]
    refine .step (Walk.bind_of_ok (Walk.check_run within.ended.peek)) rfl ?_
    refine .step (Walk.bind_of_ok (Walk.check_run within.ended.peek)) rfl ?_
    rw [counted.atEnd]
    exact .pure [] within.ended
  | cons round rounds ih =>
    rw [Clause.walk, statements]
    refine .check within.ended (.check within.ended ?_)
    refine .ite (fun _ => .pure [] within.ended) fun _ => ?_
    refine .behind (walkable.statements cursor within) fun first after reaches => ?_
    rw [← reaches.place]
    refine .bind (ih (within.onward reaches) (counted.inside reaches)) fun rest behind further => ?_
    exact .pure _ further.ended

theorem block_mirrors (within : cursor.Within (most + 1)) :
    Mirrors true Clause.block.walk (block inner cursor.place) cursor := by
  rw [Clause.walk, block]
  refine .expect .blockOpen (by decide) within.ended fun here => ?_
  have inside := within.passed (here ▸ by decide)
  simp only [inScope, bind_assoc, pure_bind]
  refine .bind (.changeContext _ inside.ended) fun _ entered same => .remaining ?_
  have place : entered.place = cursor.place := same.place
  rw [← place]
  refine .bind (statements_mirrors walkable _ (inside.onward same) (.self same.ended))
    fun nodes after reaches => ?_
  refine .expect .blockClose (by decide) reaches.ended fun here => ?_
  have closed := Cursor.passed_ended (here ▸ by decide) reaches.ended
  exact .bind (.changeContext _ closed) fun _ left same => .pure _ same.ended

theorem loopBody_mirrors (within : cursor.Within (most + 1)) :
    Mirrors true Clause.loopBody.walk (loopBody inner cursor.place) cursor := by
  have rule : Clause.loopBody.walk cursor =
      (Clause.block.walk { cursor with loops := cursor.loops + 1 }).bind fun ended =>
        some (ended.1, { ended.2 with loops := ended.2.loops - 1 }) := by
    conv => lhs; rw [Clause.walk]
    rfl
  have raised : Cursor.Within { cursor with loops := cursor.loops + 1 } (most + 1) :=
    ⟨within.ended, within.fewer⟩
  have body := block_mirrors walkable raised
  have place : ({ cursor with loops := cursor.loops + 1 } : Cursor).place =
      { cursor.place with inLoop := true } := by
    rw [Cursor.place, decide_eq_true (Nat.succ_pos _)]
    rfl
  rw [place] at body
  refine .around (fun after => after.loops - 1) (fun after => after.results) rule
    (fun after loops results => ⟨?_, results⟩) body
  rw [loops, Nat.add_sub_cancel]

/-- The statements of a function stand in no loop and return what it returns. -/
theorem bodyStatements_mirrors (returns : Ty) (within : cursor.Within most) :
    Mirrors false (Clause.bodyStatements returns).walk
      (do statements inner ⟨false, some returns⟩ (← remaining)) cursor := by
  have rule : (Clause.bodyStatements returns).walk cursor =
      (Clause.statements.walk
        { cursor with loops := 0, results := returns :: cursor.results }).bind fun ended =>
          some (ended.1, { ended.2 with
            loops := cursor.loops
            results := ended.2.results.tail }) := by
    conv => lhs; rw [Clause.walk]
    rfl
  have entered : Cursor.Within
      { cursor with loops := 0, results := returns :: cursor.results } most :=
    ⟨within.ended, within.fewer⟩
  have body := statements_mirrors walkable _ entered (.self entered.ended)
  refine .remaining (.around (fun _ => cursor.loops) (fun after => after.results.tail) rule
    (fun after loops results => ⟨rfl, ?_⟩) body)
  rw [results, List.tail_cons]

theorem functionBody_mirrors (returns : Ty) (parameters : List Parameter)
    (within : cursor.Within (most + 1)) :
    Mirrors true (Clause.functionBody returns parameters).walk
      (functionBody inner returns parameters) cursor := by
  rw [Clause.walk, functionBody]
  refine .expect .bodyOpen (by decide) within.ended fun here => ?_
  have inside := within.passed (here ▸ by decide)
  simp only [inScope, bind_assoc, pure_bind]
  refine .bind (.changeContext _ inside.ended) fun _ entered same => ?_
  refine .bind (.changeContext _ same.ended) fun _ bound still => ?_
  rw [← bind_assoc]
  refine .bind (bodyStatements_mirrors walkable returns ((inside.onward same).onward still))
    fun nodes after reaches => ?_
  refine .expect .bodyClose (by decide) reaches.ended fun here => ?_
  have closed := Cursor.passed_ended (here ▸ by decide) reaches.ended
  exact .bind (.changeContext _ closed) fun _ left same => .pure _ same.ended

/-! ## Loops and functions -/

section

variable (goesOn : cursor.reader.peek.kind ≠ .eof) (within : cursor.Within (most + 1))

include goesOn within

theorem repeatStatement_mirrors :
    Mirrors true Clause.repeatStatement.walk (repeatStatement inner cursor.place) cursor := by
  rw [Clause.walk, repeatStatement]
  refine .advance within.ended goesOn ?_
  have passed := Cursor.Reaches.passed goesOn within.ended
  refine .behind (walkable.expressions _ (within.onward passed)) fun count after reaches => ?_
  refine .ite (fun _ => ?_) fun _ => .refuse _ _ reaches.ended
  rw [← passed.place, ← reaches.place]
  refine .behind (loopBody_mirrors walkable ((within.onward passed).onward reaches))
    fun body behind further => ?_
  exact .bind (endBlockStatement_mirrors further.ended) fun _ last same => .pure _ same.ended

theorem whileStatement_mirrors :
    Mirrors true Clause.whileStatement.walk (whileStatement inner cursor.place) cursor := by
  rw [Clause.walk, whileStatement]
  refine .advance within.ended goesOn ?_
  have passed := Cursor.Reaches.passed goesOn within.ended
  refine .behind (walkable.expressions _ (within.onward passed)) fun condition after reaches => ?_
  refine .bind (.ofContext (requireBool_blind _ _) reaches.ended) fun _ told same => ?_
  rw [← passed.place, ← reaches.place, ← same.place]
  refine .behind (loopBody_mirrors walkable (((within.onward passed).onward reaches).onward same))
    fun body behind further => ?_
  exact .bind (endBlockStatement_mirrors further.ended) fun _ last same => .pure _ same.ended

theorem loopStatement_mirrors :
    Mirrors true Clause.loopStatement.walk (loopStatement inner cursor.place) cursor := by
  rw [Clause.walk, loopStatement]
  refine .advance within.ended goesOn ?_
  have passed := Cursor.Reaches.passed goesOn within.ended
  have inside := within.onward passed
  refine .expect .loopOpen (by decide) inside.ended fun here => ?_
  have opened := inside.onward (.passed (here ▸ by decide) inside.ended)
  simp only [inScope, bind_assoc, pure_bind]
  refine .bind (.changeContext _ opened.ended) fun _ entered same => ?_
  have enteredPlace : entered.place = cursor.place := same.place
  refine .behind (loopInitializer_mirrors walkable (opened.onward same))
    fun initializer begun started => ?_
  have begunWithin := (opened.onward same).onward started
  refine .expect .loopInitializerEnd (by decide) begunWithin.ended fun here => ?_
  have firstEnd := Cursor.Reaches.passed (here ▸ by decide) begunWithin.ended
  refine .behind (walkable.expressions _ (begunWithin.onward firstEnd))
    fun condition after reaches => ?_
  refine .bind (.ofContext (requireBool_blind _ _) reaches.ended) fun _ told still => ?_
  have toldWithin := ((begunWithin.onward firstEnd).onward reaches).onward still
  refine .expect .loopConditionEnd (by decide) toldWithin.ended fun here => ?_
  have secondEnd := Cursor.Reaches.passed (here ▸ by decide) toldWithin.ended
  refine .behind (walkable.expressions _ (toldWithin.onward secondEnd)) fun step stepped took => ?_
  have steppedWithin := (toldWithin.onward secondEnd).onward took
  refine .expect .loopStepEnd (by decide) steppedWithin.ended fun here => ?_
  have thirdEnd := Cursor.Reaches.passed (here ▸ by decide) steppedWithin.ended
  rw [← enteredPlace, ← started.place, ← firstEnd.place, ← reaches.place, ← still.place,
    ← secondEnd.place, ← took.place, ← thirdEnd.place]
  refine .behind (loopBody_mirrors walkable (steppedWithin.onward thirdEnd))
    fun body behind further => ?_
  refine .bind (.changeContext _ further.ended) fun _ left same => ?_
  exact .bind (endBlockStatement_mirrors same.ended) fun _ last same => .pure _ same.ended

theorem functionDefinition_mirrors :
    Mirrors true Clause.functionDefinition.walk (functionDefinition inner) cursor := by
  rw [Clause.walk, functionDefinition]
  refine .advance within.ended goesOn ?_
  have inside := within.onward (.passed goesOn within.ended)
  refine .behind (typeName_mirrors true inside.ended) fun returns after reaches => ?_
  have typed := inside.onward reaches
  refine .expect .functionName (by decide) typed.ended fun here => ?_
  have named := typed.onward (.passed (here ▸ by decide) typed.ended)
  refine .expect .parametersOpen (by decide) named.ended fun here => ?_
  have opened := named.onward (.passed (here ▸ by decide) named.ended)
  refine .bind (parameters_mirrors opened.ended) fun parameters listed took => ?_
  have listedWithin := opened.onward took
  refine .expect .parametersClose (by decide) listedWithin.ended fun here => ?_
  have closed := listedWithin.onward (.passed (here ▸ by decide) listedWithin.ended)
  refine .bind (.ofContext (declareFunction_blind _ _) closed.ended) fun _ declared same => ?_
  refine .behind (functionBody_mirrors walkable returns parameters (closed.onward same))
    fun body behind further => ?_
  exact .bind (endBlockStatement_mirrors further.ended) fun _ last same => .pure _ same.ended

end

/-! ## Chains -/

/-- If a branch opens here, a token is taken. -/
theorem blockBranches_mirrors {takes : Bool} (rounds : List Token) (branches : List (Branch Form))
    (opens : takes = true →
      GuardKind.ofToken? cursor.reader.peek.kind branches.isEmpty ≠ none)
    (within : cursor.Within (most + 1)) (counted : cursor.Within (rounds.length + 1)) :
    Mirrors takes (Clause.blockBranches branches).walk
      (blockBranches inner cursor.place rounds branches) cursor := by
  have without (absent : GuardKind.ofToken? cursor.reader.peek.kind branches.isEmpty = none) :
      Mirrors takes (pure branches) (pure branches) cursor := by
    cases takes with
    | false => exact .pure branches within.ended
    | true => exact absurd absent (opens rfl)
  induction rounds generalizing cursor branches takes with
  | nil =>
    rw [Clause.walk, blockBranches]
    refine .step (Walk.bind_of_ok (Walk.peek_run within.ended.peek)) rfl ?_
    rw [counted.atEnd] at without ⊢
    exact without rfl
  | cons round rounds ih =>
    rw [Clause.walk, blockBranches]
    refine .peek within.ended ?_
    cases opened : GuardKind.ofToken? cursor.reader.peek.kind branches.isEmpty with
    | none => exact without opened
    | some guard =>
      have goesOn := goesOn_of_guard opened
      have passed := Cursor.Reaches.passed goesOn within.ended
      have inside := within.onward passed
      have countedInside := counted.passed goesOn
      -- A branch has taken its token, so the branches behind it need not take one.
      have last {after : Cursor} (branches : List (Branch Form))
          (place : after.place = cursor.place) (within : after.Within (most + 1))
          (counted : after.Within (rounds.length + 1)) :
          Mirrors false (Clause.blockBranches branches).walk
            (blockBranches inner cursor.place rounds branches) after := by
        rw [← place]
        exact ih branches (by rintro ⟨⟩) within counted fun _ => .pure branches within.ended
      cases guard with
      | test =>
        simp only [branch, bind_assoc, pure_bind]
        refine .advance within.ended goesOn ?_
        refine .behind (walkable.expressions _ inside) fun test after reaches => ?_
        rw [Clause.walk]
        refine .bind (.ofContext (requireBool_blind _ _) reaches.ended) fun _ told still => ?_
        have place : told.place = cursor.place := still.place.trans reaches.place
        rw [← place]
        refine .behind (block_mirrors walkable ((inside.onward reaches).onward still))
          fun body behind further => ?_
        rw [place]
        exact last _ (further.place.trans place)
          (((inside.onward reaches).onward still).onward further)
          (((countedInside.onward reaches).onward still).onward further)
      | attempt =>
        simp only [branch, bind_assoc, pure_bind]
        refine .advance within.ended goesOn ?_
        rw [← passed.place]
        refine .behind (block_mirrors walkable inside) fun body behind further => ?_
        exact last _ further.place (inside.onward further) (countedInside.onward further)

omit walkable in
theorem chainMade_mirrors (start : Span) (branches : List (Branch Form)) (otherwise : Option Node)
    (ended : cursor.Ended) :
    Mirrors false (Walk.chainMade start branches otherwise) (chainMade start branches otherwise)
      cursor :=
  .bind (endBlockStatement_mirrors ended) fun _ _ same => .pure _ same.ended

theorem chainStatement_mirrors
    (opens : GuardKind.ofToken? cursor.reader.peek.kind true ≠ none)
    (within : cursor.Within (most + 1)) :
    Mirrors true Clause.chainStatement.walk (chainStatement inner cursor.place) cursor := by
  rw [Clause.walk, chainStatement]
  refine .peek within.ended (.remaining ?_)
  refine .behind (blockBranches_mirrors walkable _ [] (fun _ => opens) within (.self within.ended))
    fun branches after reaches => ?_
  rw [Clause.walk]
  dsimp only
  have inside := within.onward reaches
  refine .accept (by decide) reaches.ended (fun here => ?_) fun _ => ?_
  · have passed := Cursor.Reaches.passed (here ▸ by decide) reaches.ended
    rw [← reaches.place, ← passed.place]
    simp only [if_true, bind_map_left]
    refine .behind (block_mirrors walkable (inside.onward passed))
      fun otherwise behind further => ?_
    exact chainMade_mirrors _ _ _ further.ended
  · exact chainMade_mirrors _ _ _ reaches.ended

theorem statement_mirrors (within : cursor.Within (most + 1)) :
    Mirrors true Clause.statement.walk (statement inner cursor.place) cursor := by
  have ended := within.ended
  have declared : Mirrors true
      (do
        let node ← Walk.variableDeclaration
        Walk.endStatement
        return node)
      (declarationStatement inner) cursor :=
    .behind (variableDeclaration_mirrors walkable within) fun node after reaches =>
      .bind (endStatement_mirrors reaches.ended).loose fun _ behind further =>
        .pure _ further.ended
  have chained (opens : cursor.reader.peek.kind = .if ∨ cursor.reader.peek.kind = .try) :
      Mirrors true
        (do if ← Walk.startsChain then Clause.chainStatement.walk else Walk.expressionStatement)
        (chainOrExpression inner cursor.place) cursor := by
    refine startsChain_mirrors walkable opens within fun braced => .ite (fun _ => ?_) fun _ => ?_
    · refine chainStatement_mirrors walkable ?_ within
      rcases opens with kind | kind <;> rw [kind] <;> decide
    · exact expressionStatement_mirrors walkable within
  rw [Clause.walk, statement]
  refine .peek ended ?_
  cases kind : cursor.reader.peek.kind with
  | «repeat» => exact repeatStatement_mirrors walkable (kind ▸ by decide) within
  | loop => exact loopStatement_mirrors walkable (kind ▸ by decide) within
  | «while» => exact whileStatement_mirrors walkable (kind ▸ by decide) within
  | func => exact functionDefinition_mirrors walkable (kind ▸ by decide) within
  | intType | doubleType | boolType | stringType => exact declared
  | voidType => exact .refuse _ _ ended
  | «return» => exact returnStatement_mirrors walkable (kind ▸ by decide) within
  | «break» | «continue» => exact jumpStatement_mirrors _ (kind ▸ by decide) ended
  | «if» => exact chained (.inl kind)
  | «try» => exact chained (.inr kind)
  | _ => exact expressionStatement_mirrors walkable within

end

end RobotScript.Grammar
