import RobotScript.Grammar.Statement

/-! # Taking a reader apart

What the steps of the grammar do to a reader: each primitive step is an equation,
so a successful reading is followed forwards as well as backwards, and `bind_ok`
splits what lies between two steps. -/
set_option autoImplicit false

namespace RobotScript.Grammar

variable {α β : Type}

theorem bind_ok {first : Parse α} {next : α → Parse β} {reader after : Reader} {result : β}
    (run : (first >>= next) reader = .ok (result, after)) :
    ∃ value between, first reader = .ok (value, between) ∧
      next value between = .ok (result, after) := by
  change (first reader >>= fun pair => next pair.1 pair.2) = _ at run
  cases firstRun : first reader with
  | error fault =>
    rw [firstRun] at run
    cases run
  | ok pair =>
    rw [firstRun] at run
    exact ⟨pair.1, pair.2, rfl, run⟩

theorem bind_error {first : Parse α} {next : α → Parse β} {reader : Reader} {fault : Fault}
    (run : (first >>= next) reader = .error fault) :
    first reader = .error fault ∨
      ∃ value between, first reader = .ok (value, between) ∧
        next value between = .error fault := by
  change (first reader >>= fun pair => next pair.1 pair.2) = _ at run
  cases firstRun : first reader with
  | error reason =>
    rw [firstRun] at run
    cases run
    exact .inl rfl
  | ok pair =>
    rw [firstRun] at run
    exact .inr ⟨pair.1, pair.2, rfl, run⟩

theorem bind_of_ok {first : Parse α} {reader between : Reader} {value : α}
    (run : first reader = .ok (value, between)) (next : α → Parse β) :
    (first >>= next) reader = next value between := by
  show (first reader >>= fun pair => next pair.1 pair.2) = _
  rw [run]
  rfl

theorem map_ok {parse : Parse α} {change : α → β} {reader after : Reader} {result : β}
    (run : (change <$> parse) reader = .ok (result, after)) :
    ∃ value, parse reader = .ok (value, after) ∧ change value = result := by
  rw [map_eq_pure_bind] at run
  obtain ⟨value, between, first, rest⟩ := bind_ok run
  cases rest
  exact ⟨value, first, rfl⟩

@[simp] theorem pure_run (value : α) (reader : Reader) :
    (pure value : Parse α) reader = .ok (value, reader) := rfl

@[simp] theorem bind_pure_run (value : α) (next : α → Parse β) (reader : Reader) :
    ((pure value : Parse α) >>= next) reader = next value reader := rfl

@[simp] theorem bind_get (next : Reader → Parse β) (reader : Reader) :
    ((get : Parse Reader) >>= next) reader = next reader reader := rfl

@[simp] theorem bind_set (changed : Reader) (next : Unit → Parse β) (reader : Reader) :
    ((set changed : Parse PUnit) >>= next) reader = next () changed := rfl

@[simp] theorem bind_peek (next : Token → Parse β) (reader : Reader) :
    (peek >>= next) reader = next reader.peek reader := rfl

@[simp] theorem bind_remaining (next : List Token → Parse β) (reader : Reader) :
    (remaining >>= next) reader = next reader.ahead reader := rfl

@[simp] theorem advance_run (reader : Reader) :
    advance reader = .ok (reader.peek, reader.next) := rfl

@[simp] theorem bind_advance (next : Token → Parse β) (reader : Reader) :
    (advance >>= next) reader = next reader.peek reader.next := rfl

@[simp] theorem bind_check (kind : TokenKind) (next : Bool → Parse β) (reader : Reader) :
    (check kind >>= next) reader = next (reader.peek.kind = kind) reader := rfl

@[simp] theorem checkNext_run (kind : TokenKind) (reader : Reader) :
    checkNext kind reader = .ok (decide (reader.next.peek.kind = kind), reader) := rfl

@[simp] theorem bind_checkNext (kind : TokenKind) (next : Bool → Parse β) (reader : Reader) :
    (checkNext kind >>= next) reader = next (reader.next.peek.kind = kind) reader := rfl

@[simp] theorem bind_changeContext (change : Context → Context) (next : Unit → Parse β)
    (reader : Reader) :
    (changeContext change >>= next) reader =
      next () { reader with context := change reader.context } := rfl

theorem accept_here {kind : TokenKind} {reader : Reader} (here : reader.peek.kind = kind) :
    accept kind reader = .ok (true, reader.next) := by
  rw [accept, bind_check, decide_eq_true here]
  rfl

theorem accept_absent {kind : TokenKind} {reader : Reader} (absent : reader.peek.kind ≠ kind) :
    accept kind reader = .ok (false, reader) := by
  rw [accept, bind_check, decide_eq_false absent]
  rfl

@[simp] theorem bind_accept (kind : TokenKind) (next : Bool → Parse β) (reader : Reader) :
    (accept kind >>= next) reader =
      if reader.peek.kind = kind then next true reader.next else next false reader := by
  by_cases here : reader.peek.kind = kind
  · rw [if_pos here, bind_of_ok (accept_here here)]
  · rw [if_neg here, bind_of_ok (accept_absent here)]

theorem expect_here {kind : TokenKind} {reader : Reader} (what : Expected)
    (here : reader.peek.kind = kind) :
    expect kind what reader = .ok (reader.peek, reader.next) := by
  rw [expect, bind_check, decide_eq_true here]
  rfl

theorem expect_absent {kind : TokenKind} {reader : Reader} (what : Expected)
    (absent : reader.peek.kind ≠ kind) :
    expect kind what reader = .error ⟨.grammar (.expected what), reader.missingSpan⟩ := by
  rw [expect, bind_check, decide_eq_false absent]
  rfl

@[simp] theorem bind_expect (kind : TokenKind) (what : Expected) (next : Token → Parse β)
    (reader : Reader) :
    (expect kind what >>= next) reader =
      if reader.peek.kind = kind then next reader.peek reader.next
      else .error ⟨.grammar (.expected what), reader.missingSpan⟩ := by
  by_cases here : reader.peek.kind = kind
  · rw [if_pos here, bind_of_ok (expect_here what here)]
  · rw [if_neg here]
    show (expect kind what reader >>= fun pair => next pair.1 pair.2) = _
    rw [expect_absent what here]
    rfl

theorem attempt_some (alternative : Parse (Option α)) (reader after : Reader) (result : α) :
    attempt alternative reader = .ok (some result, after) ↔
      alternative reader = .ok (some result, after) := by
  rw [attempt, bind_get]
  constructor
  · intro run
    obtain ⟨value, between, fits, rest⟩ := bind_ok run
    cases value with
    | none => cases rest
    | some value =>
      cases rest
      exact fits
  · intro run
    rw [bind_of_ok run]
    rfl

theorem attempt_none (alternative : Parse (Option α)) (reader after : Reader) :
    attempt alternative reader = .ok (none, after) ↔
      after = reader ∧ ∃ between, alternative reader = .ok (none, between) := by
  rw [attempt, bind_get]
  constructor
  · intro run
    obtain ⟨value, between, fits, rest⟩ := bind_ok run
    cases value with
    | none =>
      cases rest
      exact ⟨rfl, between, fits⟩
    | some value => cases rest
  · rintro ⟨rfl, between, run⟩
    rw [bind_of_ok run]
    rfl

/-- What is tried is refused only for what the alternative is refused for. -/
theorem attempt_refused {alternative : Parse (Option α)} {reader : Reader} {fault : Fault}
    (run : attempt alternative reader = .error fault) : alternative reader = .error fault := by
  rw [attempt, bind_get] at run
  rcases bind_error run with failed | ⟨found, between, -, rest⟩
  · exact failed
  · cases found <;> cases rest

/-! ## Types -/

/-- The first word of a type, whose primitive is known, and what makes it a list type. -/
def typeBehind (primitive : Primitive) (span : Span) : Parse Ty := do
  let _ ← advance
  if (← check .leftBracket) && (← checkNext .rightBracket) then
    if primitive = .void then refuse (.grammar .voidList) span
    else
      let _ ← advance
      let _ ← advance
      return .listOf primitive
  else return .scalar primitive

theorem typeName_eq (allowVoid : Bool) : typeName allowVoid = (do
    let token ← peek
    match primitiveOf? token.kind with
    | some primitive => typeBehind primitive token.span
    | none =>
      if token.kind ≠ .voidType then refuse (.grammar (.expectedType token.lexeme)) token.span
      else if allowVoid then typeBehind .void token.span
      else refuse (.grammar .misplacedVoid) token.span) := by
  funext reader
  rw [typeName, bind_peek, bind_peek]
  cases primitiveOf? reader.peek.kind with
  | some primitive => rfl
  | none =>
    dsimp only
    split
    · rfl
    · split <;> rfl

/-! ## Statements -/

/-- Statements between braces, from behind the opening one on. -/
def enclosed (inner : Goal → Parse Node) (place : Place) (what : Expected) (opening : Token) :
    Parse Node := do
  let statements ← statements inner place (← remaining)
  let close ← expect .rightBrace what
  return .statement (.block statements) (opening.span.through close.span)

def declarationStatement (inner : Goal → Parse Node) : Parse Node := do
  let node ← variableDeclaration inner
  endStatement
  return node

/-- What an `if` or a `try` begins where a statement stands. -/
def chainOrExpression (inner : Goal → Parse Node) (place : Place) : Parse Node := do
  if ← startsChain inner then chainStatement inner place else expressionStatement inner

def chainMade (start : Span) (branches : List (Branch Form)) (otherwise : Option Node) :
    Parse Node := do
  endBlockStatement
  return .statement (.chain branches otherwise) (start.through (chainEnd start branches otherwise))

end RobotScript.Grammar
