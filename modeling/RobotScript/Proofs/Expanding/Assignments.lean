import RobotScript.Proofs.Expanding.Operands

/-! # A statement that is an assignment

Written as a statement, an assignment is accepted exactly if its variable is declared and
what stands at its right can be assigned so. The script then is this assignment, and it
declares nothing. -/
set_option autoImplicit false

namespace RobotScript

/-- An assignment that counts, and the operator with which it does. -/
inductive Counting : AssignOp → BinaryOp → Prop where
  | up : Counting .increment .add
  | down : Counting .decrement .subtract

namespace Rendering

def assignmentTokens (name : String) (operator : AssignOp) (right : List Token) : List Token :=
  identifier name :: token (assignKind operator) operator.symbol :: (right ++ [mark .semicolon])

def expansionTokens (name : String) (operator : BinaryOp) (operand : List Token) : List Token :=
  identifier name :: token (infixKind operator) operator.symbol :: operand

end Rendering

namespace Grammar

open Rendering

/-- What can be assigned to a variable of a type, how, and the tokens it is written with. -/
inductive Assignable (context : Context) (target : Ty) :
    AssignOp → List Token → Option Node → Prop where
  | set {right : List Token} {value : Node} (denotes : Denotes context right value)
      (accepted : target.accepts value.ty = true) :
      Assignable context target .set right (some value)
  | compound {operator : BinaryOp} {right : List Token} {value : Node}
      (denotes : Denotes context right value)
      (combined : combines operator target value.ty = true) :
      Assignable context target (.compound operator) right (some value)
  | counting {operator : AssignOp} {binary : BinaryOp} (counting : Counting operator binary)
      (numeric : target.isNumeric = true) : Assignable context target operator [] none

section

variable {context : Context} {target : Ty} {name : String} {operator : AssignOp}
variable {right : List Token} {value : Option Node} {depth : Nat}

/-! ## What stands at the right -/

theorem assignedValue_counting {inner : Parse Node} {binary : BinaryOp}
    (counting : Counting operator binary) (named : Token) (span : Span) :
    assignedValue inner named target operator span =
      if target.isNumeric then Pure.pure none
      else refuse (.typing (.notCountable operator target)) span := by
  cases counting <;> rfl

theorem Assignable.runs (assignable : Assignable context target operator right value)
    {reader : Reader} {rest : List Token} (here : Before context (right ++ rest) reader)
    (enough : (right ++ rest).length ≤ depth) (shut : Shut (kindAhead rest)) (named : Token)
    (span : Span) :
    ∃ stop, assignedValue (read depth .expression) named target operator span reader =
      .ok (value, stop) ∧ Before context rest stop := by
  cases assignable with
  | set denotes accepted =>
    obtain ⟨stop, run, there⟩ := denotes here enough shut
    refine ⟨stop, ?_, there⟩
    rw [assignedValue, bind_of_ok run, if_pos accepted]
    rfl
  | compound denotes combined =>
    obtain ⟨stop, run, there⟩ := denotes here enough shut
    refine ⟨stop, ?_, there⟩
    rw [assignedValue, bind_of_ok run, if_pos combined]
    rfl
  | counting counting numeric =>
    refine ⟨reader, ?_, here⟩
    rw [assignedValue_counting counting, if_pos numeric]
    rfl

/-- The first semicolon is the one that ends the statement. -/
theorem taken_of_unended {tokens rest : List Token} {finish : Token}
    (unended : ∀ token ∈ right, token.kind ≠ .semicolon) (notEnd : finish.kind ≠ .semicolon)
    (split : right ++ [mark .semicolon] = tokens ++ rest)
    (ends : (rest.headD finish).kind = .semicolon) : tokens = right := by
  rcases List.append_eq_append_iff.mp split with ⟨more, rfl, within⟩ | ⟨more, rfl, rfl⟩
  · cases more with
    | nil => rw [List.append_nil]
    | cons token more =>
      obtain ⟨-, nothing⟩ := List.cons.inj within
      obtain ⟨-, rfl⟩ := List.append_eq_nil_iff.mp nothing.symm
      exact absurd ends notEnd
  · cases more with
    | nil => rw [List.append_nil]
    | cons token more => exact absurd ends (unended token (by simp))

/-- Behind what is read of an assignment stands no operator, and if the statement ends there,
what was read stands at its right. -/
theorem assignable_of_run {reader after : Reader} {named : Token} {span : Span}
    (unended : ∀ token ∈ right, token.kind ≠ .semicolon)
    (counted : ∀ binary, Counting operator binary → right = [])
    (here : Before context (right ++ [mark .semicolon]) reader)
    (run : assignedValue (read depth .expression) named target operator span reader =
      .ok (value, after)) :
    Unjoined 0 after.peek.kind ∧
      (after.peek.kind = .semicolon → Assignable context target operator right value) := by
  have counts {binary : BinaryOp} (counting : Counting operator binary) :
      Unjoined 0 after.peek.kind ∧
        (after.peek.kind = .semicolon → Assignable context target operator right value) := by
    obtain rfl := counted binary counting
    rw [assignedValue_counting counting] at run
    split at run
    next numeric =>
      cases run
      rw [here.kind]
      have ends : Shut .semicolon := .inl rfl
      exact ⟨ends.unjoined, fun _ => .counting counting numeric⟩
    next => cases run
  have read {node : Node} {between : Reader}
      (ran : read depth .expression reader = .ok (node, between)) :
      Unjoined 0 between.peek.kind ∧
        (between.peek.kind = .semicolon → Denotes context right node) := by
    obtain ⟨tokens, ahead, there, -, denotes, unjoined⟩ := denotes_of_read here.toAt ran
    refine ⟨unjoined, fun ends => ?_⟩
    rw [here.ahead] at ahead
    -- The semicolon is the one behind these tokens, and no other is among them.
    have notEnd : between.finish.kind ≠ .semicolon := by
      rw [there.finish]
      decide
    obtain rfl := taken_of_unended unended notEnd ahead ends
    exact denotes
  cases operator with
  | set =>
    obtain ⟨node, between, ran, rest⟩ := bind_ok run
    obtain ⟨unjoined, denotes⟩ := read ran
    split at rest
    next accepted =>
      cases rest
      exact ⟨unjoined, fun ends => .set (denotes ends) accepted⟩
    next => cases rest
  | compound binary =>
    obtain ⟨node, between, ran, rest⟩ := bind_ok run
    obtain ⟨unjoined, denotes⟩ := read ran
    split at rest
    next combined =>
      cases rest
      exact ⟨unjoined, fun ends => .compound (denotes ends) combined⟩
    next => cases rest
  | increment => exact counts .up
  | decrement => exact counts .down

/-! ## Assignments as expressions -/

section

variable {inner : Parse Node} {reader after : Reader} {sign : Token} {more : List Token}
variable {node : Node}

theorem assignment_run (here : Before context (identifier name :: sign :: more) reader)
    (known : assignOp? sign.kind = some operator) :
    assignment inner reader =
      (variableType (identifier name) >>= fun target =>
        assignedValue inner (identifier name) target operator sign.span >>= fun value =>
          Pure.pure (some ⟨.assign name operator value, target,
            (identifier name).span.through ((value.map (·.span)).getD sign.span)⟩))
        reader.next.next := by
  rw [assignment, bind_advance, bind_peek, here.peek, here.next.peek, known]
  rfl

theorem assignment_of_atom (here : Before context (identifier name :: sign :: more) reader)
    (known : assignOp? sign.kind = some operator)
    (run : atom inner reader = .ok (node, after)) :
    assignment inner reader = .ok (some node, after) := by
  have notCall : kindAhead (sign :: more) ≠ .leftParen := by
    intro is
    rw [show sign.kind = .leftParen from is] at known
    cases known
  have notIndex : kindAhead (sign :: more) ≠ .leftBracket := by
    intro is
    rw [show sign.kind = .leftBracket from is] at known
    cases known
  rw [atom_identifier here, nameForm, bind_of_ok (attempt_call_absent here notCall)] at run
  simp only at run
  rw [bind_of_ok (attempt_index_absent here notIndex)] at run
  simp only at run
  obtain ⟨made, between, attempted, rest⟩ := bind_ok run
  cases made with
  | some made =>
    cases rest
    exact (attempt_some _ _ _ _).mp attempted
  | none =>
    obtain ⟨-, _, misfits⟩ := (attempt_none _ _ _).mp attempted
    have absent := assignment_none misfits
    rw [here.next.peek, known] at absent
    cases absent

end

/-! ## The statement -/

theorem peek_eof {reader : Reader} (here : Before context [] reader) : reader.peek.kind = .eof :=
  here.kind

theorem topStatements_one {inner : Goal → Parse Node} {reader stop : Reader} {node : Node}
    {token : Token} {rounds tokens : List Token} (here : Before context (token :: tokens) reader)
    (goesOn : token.kind ≠ .eof)
    (run : inner (.statement topLevel) reader = .ok (node, stop))
    (behind : Before context [] stop) :
    topStatements inner (token :: rounds) reader = .ok ([node], stop) := by
  have ended : topStatements inner rounds stop = .ok ([], stop) := by
    cases rounds with
    | nil => rfl
    | cons round rounds =>
      rw [topStatements, bind_check, peek_eof behind]
      rfl
  rw [topStatements, bind_check, here.peek, decide_eq_false goesOn, if_neg Bool.false_ne_true,
    bind_of_ok run, bind_of_ok ended]
  rfl

theorem topStatements_first {inner : Goal → Parse Node} {reader after : Reader} {list : List Node}
    {token : Token} {rounds tokens : List Token} (here : Before context (token :: tokens) reader)
    (goesOn : token.kind ≠ .eof)
    (run : topStatements inner (token :: rounds) reader = .ok (list, after)) :
    ∃ node between, inner (.statement topLevel) reader = .ok (node, between) := by
  rw [topStatements, bind_check, here.peek, decide_eq_false goesOn] at run
  obtain ⟨node, between, first, -⟩ := bind_ok run
  exact ⟨node, between, first⟩

theorem statement_of_name {inner : Goal → Parse Node} {reader : Reader} {more : List Token}
    (here : Before context (identifier name :: more) reader) (place : Place) :
    statement inner place reader = expressionStatement inner reader := by
  rw [statement, bind_peek, here.peek]
  rfl

theorem Assignable.atom_reads (assignable : Assignable context target operator right value)
    (sign : assignOp? (assignKind operator) = some operator)
    (declared : context.variableType? name = some target) {reader : Reader}
    (here : Before context (assignmentTokens name operator right) reader)
    (enough : right.length + 1 ≤ depth) :
    ∃ span stop, atom (read depth .expression) reader =
        .ok (⟨.assign name operator value, target, span⟩, stop) ∧
      Before context [mark .semicolon] stop := by
  have signed : assignOp? (token (assignKind operator) operator.symbol).kind = some operator := sign
  have there := here.next.next
  have short : (right ++ [mark .semicolon]).length ≤ depth := by
    rw [List.length_append]
    exact enough
  obtain ⟨stop, valueRun, behind⟩ := assignable.runs there short (.inl rfl) (identifier name)
    (token (assignKind operator) operator.symbol).span
  have typed := variableType_run (identifier name) there.toAt declared
  have assigned : assignment (read depth .expression) reader = _ := assignment_run here signed
  rw [bind_of_ok typed, bind_of_ok valueRun] at assigned
  exact ⟨_, stop, (atom_identifier here).trans (nameForm_assignment here signed assigned), behind⟩

/-- With one unit of depth for each of its tokens, the statement is read. -/
theorem Assignable.reads (assignable : Assignable context target operator right value)
    (sign : assignOp? (assignKind operator) = some operator)
    (declared : context.variableType? name = some target) {reader : Reader}
    (here : Before context (assignmentTokens name operator right) reader) (place : Place) :
    ∃ span stop, read (right.length + 4) (.statement place) reader =
        .ok (⟨.assign name operator value, target, span⟩, stop) ∧ Before context [] stop := by
  obtain ⟨span, stop, atomRun, behind⟩ :=
    assignable.atom_reads sign declared here (Nat.le_succ (right.length + 1))
  have unsigned := unsigned_name here
  have closes : stop.peek.kind = .semicolon := behind.kind
  have ends : Unjoined 0 stop.peek.kind := Shut.unjoined (.inl closes)
  have run : read (right.length + 3) .expression reader =
      .ok (⟨.assign name operator value, target, span⟩, stop) :=
    unsigned.climbs (Nat.zero_le 8) (Nat.le_refl 8) ends atomRun
  refine ⟨span, stop.next, ?_, behind.next⟩
  rw [read, statement_of_name here, expressionStatement, bind_of_ok run, endStatement, bind_assoc,
    bind_expect, if_pos closes]
  rfl

theorem assignable_of_read (sign : assignOp? (assignKind operator) = some operator)
    (unended : ∀ token ∈ right, token.kind ≠ .semicolon)
    (counted : ∀ binary, Counting operator binary → right = []) {reader after : Reader}
    (here : Before context (assignmentTokens name operator right) reader) {place : Place}
    {node : Node} (run : read (depth + 2) (.statement place) reader = .ok (node, after)) :
    ∃ target value, context.variableType? name = some target ∧
      Assignable context target operator right value := by
  have signed : assignOp? (token (assignKind operator) operator.symbol).kind = some operator := sign
  have unsigned := unsigned_name here
  rw [read, statement_of_name here, expressionStatement] at run
  obtain ⟨made, between, madeRun, rest⟩ := bind_ok run
  obtain ⟨first, stop, atomRun⟩ := ladder_begins (Nat.zero_le 8) (Nat.le_refl 8) unsigned madeRun
  have assigned := assignment_of_atom here signed atomRun
  rw [assignment_run here signed] at assigned
  obtain ⟨target, start, typed, assigned⟩ := bind_ok assigned
  obtain ⟨rfl, declared⟩ := variableType_ok here.next.next.toAt typed
  obtain ⟨value, last, valueRun, built⟩ := bind_ok assigned
  cases built
  obtain ⟨unjoined, assignable⟩ := assignable_of_run unended counted here.next.next valueRun
  have whole := unsigned.climbs (Nat.zero_le 8) (Nat.le_refl 8) unjoined atomRun
  obtain ⟨rfl, rfl⟩ := Prod.mk.inj (Except.ok.inj (madeRun.symm.trans whole))
  refine ⟨target, value, declared, assignable ?_⟩
  by_contra goesOn
  rw [endStatement, bind_assoc, bind_expect, if_neg goesOn] at rest
  cases rest

/-! ## The script -/

theorem assignmentTokens_length (name : String) (operator : AssignOp) (right : List Token) :
    (assignmentTokens name operator right).length = right.length + 3 := by
  simp [assignmentTokens]

theorem parse_assignment {tokens : List Token}
    (ended : Ended tokens (assignmentTokens name operator right))
    (sign : assignOp? (assignKind operator) = some operator)
    (declared : context.variableType? name = some target)
    (assignable : Assignable context target operator right value) :
    ∃ root span, parse tokens context = .ok (root, context) ∧
      root.statements = [⟨.assign name operator value, target, span⟩] := by
  obtain ⟨finish, isEnd, starts⟩ := ended.starts context
  have here : Before context (assignmentTokens name operator right)
      ⟨assignmentTokens name operator right, finish, none, context⟩ :=
    ⟨⟨rfl, congrArg Prod.fst isEnd⟩, rfl⟩
  obtain ⟨span, stop, run, behind⟩ := assignable.reads sign declared here topLevel
  obtain ⟨root, parsed, statements⟩ := parse_of_statements starts <| by
    rw [assignmentTokens_length]
    exact topStatements_one here TokenKind.noConfusion run behind
  exact ⟨root, span, behind.context ▸ parsed, statements⟩

theorem assignable_of_parse {tokens : List Token} {after : Context} {root : Node}
    (ended : Ended tokens (assignmentTokens name operator right))
    (sign : assignOp? (assignKind operator) = some operator)
    (unended : ∀ token ∈ right, token.kind ≠ .semicolon)
    (counted : ∀ binary, Counting operator binary → right = [])
    (run : parse tokens context = .ok (root, after)) :
    ∃ target value, context.variableType? name = some target ∧
      Assignable context target operator right value := by
  obtain ⟨finish, isEnd, starts⟩ := ended.starts context
  obtain ⟨behind, statements, -⟩ := parse_statements starts run
  have here : Before context (assignmentTokens name operator right)
      ⟨assignmentTokens name operator right, finish, none, context⟩ :=
    ⟨⟨rfl, congrArg Prod.fst isEnd⟩, rfl⟩
  rw [assignmentTokens_length] at statements
  obtain ⟨node, between, first⟩ := topStatements_first here TokenKind.noConfusion statements
  exact assignable_of_read sign unended counted here first

end

end Grammar

end RobotScript
