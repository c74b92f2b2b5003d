import RobotScript.Proofs.Walking.Expressions
import RobotScript.Proofs.Walking.Steps

/-! # Names and what stands behind them

Which form a name begins is told by the token behind it. Taking the forms in turn, and taking
back what does not fit, comes to the same as looking at this token first: no form that does
not fit has had any effect, and none is tried behind one that fits. -/
set_option autoImplicit false

namespace RobotScript.Grammar

section

variable (inner : Parse Node)

def callBehind (name : Token) : Parse Node := do
  let signature ← functionSignature name
  let arguments ← arguments inner
  let close ← expect .rightParen .argumentsClose
  let span := name.span.through close.span
  match argumentFault? name.lexeme signature.parameters arguments span with
  | some fault => throw fault
  | none => return ⟨.call name.lexeme arguments, signature.returns, span⟩

def indexBehind (name : Token) : Parse Node := do
  let ty ← variableType name
  if ty.isList then
    let position ← inner
    if position.ty = .int then
      let close ← expect .rightBracket .indexClose
      return ⟨.index name.lexeme position, ty.element, name.span.through close.span⟩
    else refuse (.typing (.indexNotInt position.ty)) position.span
  else refuse (.typing (.notList name.lexeme ty)) name.span

def assignmentBehind (name sign : Token) (operator : AssignOp) : Parse Node := do
  let target ← variableType name
  let value ← assignedValue inner name target operator sign.span
  let stop := (value.map (·.span)).getD sign.span
  return ⟨.assign name.lexeme operator value, target, name.span.through stop⟩

def variableBehind (name : Token) : Parse Node := do
  let ty ← variableType name
  return ⟨.variable name.lexeme, ty, name.span⟩

/-- What a name begins, by the token behind it. -/
def predictedForm : Parse Node := do
  let name ← advance
  if ← accept .leftParen then callBehind inner name
  else if ← accept .leftBracket then indexBehind inner name
  else
    let sign ← peek
    match assignOp? sign.kind with
    | some operator =>
      let _ ← advance
      assignmentBehind inner name sign operator
    | none => variableBehind name

end

def either (alternative : Parse (Option Node)) (other : Parse Node) : Parse Node := do
  match ← attempt alternative with
  | some node => return node
  | none => other

section

variable {alternative : Parse (Option Node)} {other rest : Parse Node} {reader between : Reader}

theorem either_fits (fits : alternative reader = (some <$> rest) between) :
    either alternative other reader = rest between := by
  rw [map_eq_pure_bind] at fits
  cases run : rest between with
  | error fault =>
    have refused : alternative reader = .error fault := by
      rw [fits]
      change (rest between >>= fun pair => _) = _
      rw [run]
      rfl
    have tried : attempt alternative reader = .error fault := by
      rw [attempt, bind_get]
      change (alternative reader >>= fun pair => _) = _
      rw [refused]
      rfl
    change (attempt alternative reader >>= fun pair => _) = _
    rw [tried]
    rfl
  | ok result =>
    rw [bind_of_ok run] at fits
    rw [either, bind_of_ok ((attempt_some _ _ _ _).mpr fits)]
    rfl

theorem either_misfits (misfits : alternative reader = .ok (none, between)) :
    either alternative other reader = other reader := by
  rw [either, bind_of_ok ((attempt_none _ _ _).mpr ⟨rfl, between, misfits⟩)]

end

theorem goesOn_of_assignOp? {kind : TokenKind} {operator : AssignOp}
    (known : assignOp? kind = some operator) : kind ≠ .eof := by
  rintro rfl
  cases known

variable {inner : Parse Node} {reader : Reader}

theorem call_fits (here : reader.next.peek.kind = .leftParen) :
    call inner reader = (some <$> callBehind inner reader.peek) reader.next.next := by
  rw [call, bind_advance, bind_accept, if_pos here, if_pos rfl, callBehind]
  simp only [map_bind]
  refine congrFun (bind_congr fun signature => bind_congr fun made => bind_congr fun close => ?_) _
  cases argumentFault? reader.peek.lexeme signature.parameters made
    (reader.peek.span.through close.span) <;> rfl

theorem call_misfits (absent : reader.next.peek.kind ≠ .leftParen) :
    call inner reader = .ok (none, reader.next) := by
  rw [call, bind_advance, bind_accept, if_neg absent]
  rfl

theorem index_fits (here : reader.next.peek.kind = .leftBracket) :
    index inner reader = (some <$> indexBehind inner reader.peek) reader.next.next := by
  rw [index, bind_advance, bind_accept, if_pos here, if_pos rfl, indexBehind]
  simp only [map_bind]
  refine congrFun (bind_congr fun ty => ?_) _
  by_cases isList : ty.isList
  · rw [if_pos isList, if_pos isList, map_bind]
    refine bind_congr fun position => ?_
    by_cases isInt : position.ty = .int
    · rw [if_pos isInt, if_pos isInt, map_bind]
      rfl
    · rw [if_neg isInt, if_neg isInt]
      rfl
  · rw [if_neg isList, if_neg isList]
    rfl

theorem index_misfits (absent : reader.next.peek.kind ≠ .leftBracket) :
    index inner reader = .ok (none, reader.next) := by
  rw [index, bind_advance, bind_accept, if_neg absent]
  rfl

theorem assignment_fits {operator : AssignOp}
    (known : assignOp? reader.next.peek.kind = some operator) :
    assignment inner reader =
      (some <$> assignmentBehind inner reader.peek reader.next.peek operator)
        reader.next.next := by
  rw [assignment, bind_advance, bind_peek]
  simp only [known]
  rw [bind_advance, assignmentBehind]
  simp only [map_bind]
  rfl

theorem assignment_misfits (unknown : assignOp? reader.next.peek.kind = none) :
    assignment inner reader = .ok (none, reader.next) := by
  rw [assignment, bind_advance, bind_peek]
  simp only [unknown]
  rfl

theorem nameForm_eq (inner : Parse Node) :
    nameForm inner =
      either (call inner) (either (index inner) (either (assignment inner) variableUse)) := rfl

/-- To take the forms of a name in turn is to look at the token behind it. -/
theorem nameForm_predicted (inner : Parse Node) : nameForm inner = predictedForm inner := by
  funext reader
  rw [nameForm_eq, predictedForm, bind_advance, bind_accept]
  by_cases isCall : reader.next.peek.kind = .leftParen
  · rw [if_pos isCall, if_pos rfl, either_fits (call_fits isCall)]
  rw [if_neg isCall, if_neg Bool.false_ne_true, either_misfits (call_misfits isCall), bind_accept]
  by_cases isIndex : reader.next.peek.kind = .leftBracket
  · rw [if_pos isIndex, if_pos rfl, either_fits (index_fits isIndex)]
  rw [if_neg isIndex, if_neg Bool.false_ne_true, either_misfits (index_misfits isIndex), bind_peek]
  cases known : assignOp? reader.next.peek.kind with
  | some operator => exact either_fits (assignment_fits known)
  | none => exact either_misfits (assignment_misfits known)

/-! ## The same on a walk -/

namespace Walk

def variableBehind (name : Token) : Walk Node := do
  let ty ← ofContext (variableType name)
  return ⟨.variable name.lexeme, ty, name.span⟩

def predictedForm : Walk Node := do
  let name ← advance
  if ← accept .leftParen then (Phrase.callBehind name).walk
  else if ← accept .leftBracket then (Phrase.indexBehind name).walk
  else
    let sign ← peek
    match assignOp? sign.kind with
    | some operator =>
      let _ ← advance
      (Phrase.assignmentBehind name sign operator).walk
    | none => variableBehind name

variable {cursor : Cursor} {alternative : Walk (Option Node)} {other rest : Walk Node}

/-- As long as only the number of the token has changed, all is restored. -/
theorem either_misfits {current : Nat}
    (misfits : alternative cursor = some (.ok none, { cursor with current := current })) :
    either alternative other cursor = other cursor := by
  change (alternative >>= _) cursor = _
  rw [bind_of_ok misfits]
  have back : cursor.context.truncate cursor.context.depth = cursor.context := by
    rw [Context.truncate, Nat.sub_self]
    rfl
  change other { cursor with context := cursor.context.truncate cursor.context.depth } = _
  rw [back]

theorem either_missing (missing : alternative cursor = none) :
    either alternative other cursor = none := by
  change (alternative >>= _) cursor = _
  rw [bind_of_none missing]

theorem either_fits {between : Cursor}
    (fits : alternative cursor = (rest >>= fun node => return some node) between) :
    either alternative other cursor = rest between := by
  change (alternative >>= _) cursor = _
  cases run : rest between with
  | none =>
    rw [bind_of_none run] at fits
    rw [bind_of_none fits]
  | some result =>
    obtain ⟨outcome, after⟩ := result
    cases outcome with
    | ok node =>
      rw [bind_of_ok run] at fits
      rw [bind_of_ok fits]
      rfl
    | error fault =>
      rw [bind_of_error run] at fits
      rw [bind_of_error fits]

section

variable {name token : Token} {current : Nat}
  (taken : advance cursor = some (.ok name, { cursor with current }))
  (found : cursor.tokens[current]? = some token)

include taken found

theorem call_fits (here : token.kind = .leftParen) :
    Phrase.call.walk cursor = ((Phrase.callBehind name).walk >>= fun node => return some node)
      { cursor with current := current + 1 } := by
  rw [Phrase.walk, bind_of_ok taken, bind_of_ok (accept_here found here (by decide))]
  rfl

theorem call_misfits (absent : token.kind ≠ .leftParen) :
    Phrase.call.walk cursor = some (.ok none, { cursor with current }) := by
  rw [Phrase.walk, bind_of_ok taken, bind_of_ok (accept_absent found absent)]
  rfl

theorem index_fits (here : token.kind = .leftBracket) :
    Phrase.index.walk cursor = ((Phrase.indexBehind name).walk >>= fun node => return some node)
      { cursor with current := current + 1 } := by
  rw [Phrase.walk, bind_of_ok taken, bind_of_ok (accept_here found here (by decide))]
  rfl

theorem index_misfits (absent : token.kind ≠ .leftBracket) :
    Phrase.index.walk cursor = some (.ok none, { cursor with current }) := by
  rw [Phrase.walk, bind_of_ok taken, bind_of_ok (accept_absent found absent)]
  rfl

theorem assignment_fits {operator : AssignOp} (known : assignOp? token.kind = some operator) :
    Phrase.assignment.walk cursor =
      ((Phrase.assignmentBehind name token operator).walk >>= fun node => return some node)
        { cursor with current := current + 1 } := by
  have goesOn := goesOn_of_assignOp? known
  rw [Phrase.walk, bind_of_ok taken, bind_of_ok (peek_run found)]
  simp only [known]
  rw [bind_of_ok (advance_run found goesOn)]
  rfl

theorem assignment_misfits (unknown : assignOp? token.kind = none) :
    Phrase.assignment.walk cursor = some (.ok none, { cursor with current }) := by
  rw [Phrase.walk, bind_of_ok taken, bind_of_ok (peek_run found)]
  simp only [unknown]
  rfl

end

/-- To take the forms of a name in turn, each from where the one before began, is to look at
the token behind it, also where no token is. -/
theorem nameForm_predicted : Phrase.nameForm.walk = predictedForm := by
  funext cursor
  rw [nameForm_eq, predictedForm]
  cases named : cursor.tokens[cursor.current]? with
  | none =>
    have missing := advance_missing named
    rw [bind_of_none missing, either_missing]
    rw [Phrase.walk, bind_of_none missing]
  | some name =>
    obtain ⟨current, taken⟩ := advance_cases named
    rw [bind_of_ok taken]
    cases found : cursor.tokens[current]? with
    | none =>
      have missing : accept .leftParen { cursor with current } = none := accept_missing found
      rw [bind_of_none missing, either_missing]
      rw [Phrase.walk, bind_of_ok taken, bind_of_none missing]
    | some token =>
      -- What does not fit is given up behind one token, so the next form meets the same one.
      by_cases isCall : token.kind = .leftParen
      · rw [either_fits (call_fits taken found isCall),
          bind_of_ok (accept_here found isCall (by decide))]
        rfl
      rw [either_misfits (call_misfits taken found isCall), bind_of_ok (accept_absent found isCall)]
      by_cases isIndex : token.kind = .leftBracket
      · have opened : accept .leftBracket { cursor with current } =
            some (.ok true, { cursor with current := current + 1 }) :=
          accept_here found isIndex (by decide)
        rw [either_fits (index_fits taken found isIndex), if_neg Bool.false_ne_true,
          bind_of_ok opened, if_pos rfl]
      have unopened : accept .leftBracket { cursor with current } =
          some (.ok false, { cursor with current }) := accept_absent found isIndex
      have seen : peek { cursor with current } = some (.ok token, { cursor with current }) :=
        peek_run found
      rw [either_misfits (index_misfits taken found isIndex), if_neg Bool.false_ne_true,
        bind_of_ok unopened, if_neg Bool.false_ne_true, bind_of_ok seen]
      cases known : assignOp? token.kind with
      | some operator =>
        have goesOn := goesOn_of_assignOp? known
        have signed : advance { cursor with current } =
            some (.ok token, { cursor with current := current + 1 }) := advance_run found goesOn
        rw [either_fits (assignment_fits taken found known)]
        change _ = (advance >>= _) _
        rw [bind_of_ok signed]
      | none =>
        rw [either_misfits (assignment_misfits taken found known), variableUse, bind_of_ok taken]
        rfl

end Walk

end RobotScript.Grammar
