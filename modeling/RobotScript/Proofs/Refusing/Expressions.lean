import RobotScript.Proofs.Reading.Steps
import RobotScript.Proofs.Refusing.Rules

/-! # What reading expressions keeps

Every function of the expression grammar has what every reading has, if the reader of
nested expressions has it. -/
set_option autoImplicit false

namespace RobotScript.Grammar

variable {Apt : Reader → Prop} {Holds : ∀ {α : Type}, Parse α → Prop}
  (upheld : Upheld Apt @Holds)

include upheld

/-! ## Operators -/

theorem binaryNode_upheld (left : Node) (operator : BinaryOp) (span : Span) (right : Node) :
    Holds (binaryNode left operator span right) := by
  unfold binaryNode
  split
  · exact upheld.pure _
  · exact upheld.refuse (by trivial) _

theorem unaryNode_upheld (operator : UnaryOp) (span : Span) (operand : Node) :
    Holds (unaryNode operator span operand) := by
  unfold unaryNode
  split
  · exact upheld.pure _
  · exact upheld.refuse (by trivial) _

theorem binaryOperator_upheld (operators : List (TokenKind × BinaryOp)) :
    Holds (binaryOperator operators) := by
  refine upheld.peek fun token => ?_
  split
  · exact upheld.pure _
  · exact upheld.bind upheld.advance fun _ => upheld.pure _

theorem operatorChain_upheld (operators : List (TokenKind × BinaryOp)) {operand : Parse Node}
    (holds : Holds operand) (rounds : List Token) (left : Node) :
    Holds (operatorChain operators operand rounds left) := by
  induction rounds generalizing left with
  | nil => exact upheld.pure left
  | cons token rounds ih =>
    refine upheld.bind (binaryOperator_upheld upheld operators) fun found => ?_
    rcases found with _ | ⟨operator, span⟩
    · exact upheld.pure left
    · exact upheld.bind holds fun right =>
        upheld.bind (binaryNode_upheld upheld left operator span right) ih

theorem leftAssociative_upheld (operators : List (TokenKind × BinaryOp)) {operand : Parse Node}
    (holds : Holds operand) : Holds (leftAssociative operators operand) :=
  upheld.bind holds fun first => upheld.remaining fun tokens =>
    operatorChain_upheld upheld operators holds tokens first

theorem prefixed_upheld (kind : TokenKind) (operator : UnaryOp) {operand : Parse Node}
    (holds : Holds operand) (rounds : List Token) :
    Holds (prefixed kind operator operand rounds) := by
  induction rounds with
  | nil => exact holds
  | cons token rounds ih =>
    refine upheld.check kind fun found => ?_
    split
    · exact upheld.bind upheld.advance fun sign => upheld.bind ih fun inner =>
        unaryNode_upheld upheld operator sign.span inner
    · exact holds

/-! ## Names and types -/

theorem variableType_upheld (name : Token) : Holds (variableType name) := by
  refine upheld.view fun reader _ => ?_
  split
  · exact upheld.pure _
  · exact upheld.refuse (by trivial) _

theorem functionSignature_upheld (name : Token) : Holds (functionSignature name) := by
  refine upheld.view fun reader _ => ?_
  split
  · exact upheld.pure _
  · exact upheld.refuse (by trivial) _

theorem typeBehind_upheld (primitive : Primitive) (span : Span) :
    Holds (typeBehind primitive span) := by
  refine upheld.bind upheld.advance fun _ => upheld.check _ fun found => ?_
  refine upheld.bind (upheld.checkNext _) fun foundNext => ?_
  split
  · split
    · exact upheld.refuse (by trivial) _
    · exact upheld.bind upheld.advance fun _ => upheld.bind upheld.advance fun _ => upheld.pure _
  · exact upheld.pure _

theorem typeName_upheld (allowVoid : Bool) : Holds (typeName allowVoid) := by
  rw [typeName_eq]
  refine upheld.peek fun token => ?_
  split
  · exact typeBehind_upheld upheld _ _
  · split
    · exact upheld.refuse (by trivial) _
    · split
      · exact typeBehind_upheld upheld _ _
      · exact upheld.refuse (by trivial) _

/-! ## Conditions and branches -/

theorem requireBool_upheld (condition : Node) (keyword : String) :
    Holds (requireBool condition keyword) := by
  unfold requireBool
  split
  · exact upheld.pure ()
  · exact upheld.refuse (by trivial) _

theorem unifyBranch_upheld (current : Option Ty) (body : Node) :
    Holds (unifyBranch current body) := by
  unfold unifyBranch
  split
  · exact upheld.refuse (by trivial) _
  · split
    · exact upheld.pure _
    · split
      · exact upheld.pure _
      · exact upheld.refuse (by trivial) _

theorem branch_upheld {condition body : Parse Node} (conditions : Holds condition)
    (bodies : Holds body) (guard : GuardKind) : Holds (branch condition body guard) := by
  refine upheld.bind upheld.advance fun keyword => ?_
  cases guard with
  | test =>
    exact upheld.bind conditions fun test =>
      upheld.bind (requireBool_upheld upheld test _) fun _ =>
        upheld.bind bodies fun body => upheld.pure _
  | attempt => exact upheld.bind bodies fun body => upheld.pure _

/-! ## Calls, indices and assignments -/

section

omit upheld in
theorem misfit?_ordinary {function : String} {position : Nat} {nodes : List Node} {types : List Ty}
    {fault : Fault} (found : misfit? function position nodes types = some fault) :
    Ordinary fault.cause := by
  induction nodes generalizing position types with
  | nil => cases found
  | cons argument arguments ih =>
    cases types with
    | nil => cases found
    | cons ty types =>
      rw [misfit?] at found
      split at found
      · exact ih found
      · cases found
        trivial

omit upheld in
theorem argumentFault?_ordinary {function : String} {parameters : Parameters} {nodes : List Node}
    {span : Span} {fault : Fault} (found : argumentFault? function parameters nodes span = some fault) :
    Ordinary fault.cause := by
  cases parameters with
  | anyNumber =>
    obtain ⟨argument, -, rfl⟩ := Option.map_eq_some_iff.mp found
    trivial
  | exactly types =>
    rw [argumentFault?] at found
    split at found
    · cases found
      trivial
    · exact misfit?_ordinary found

variable {inner : Parse Node} (holds : Holds inner)

include holds

theorem arguments_upheld : Holds (arguments inner) := by
  refine upheld.check _ fun found => ?_
  split
  · exact upheld.pure _
  · exact upheld.commaSeparated (fun sofar => upheld.bind holds fun node => upheld.pure _) _

theorem call_upheld : Holds (call inner) := by
  refine upheld.bind upheld.advance fun name => upheld.bind (upheld.accept _) fun opened => ?_
  split
  · refine upheld.bind (functionSignature_upheld upheld name) fun signature => ?_
    refine upheld.bind (arguments_upheld upheld holds) fun nodes => ?_
    refine upheld.bind (upheld.expect _ _) fun close => ?_
    dsimp only
    split
    next fault found => exact upheld.throw (argumentFault?_ordinary found)
    next => exact upheld.pure _
  · exact upheld.pure _

theorem index_upheld : Holds (index inner) := by
  refine upheld.bind upheld.advance fun name => upheld.bind (upheld.accept _) fun opened => ?_
  split
  · refine upheld.bind (variableType_upheld upheld name) fun ty => ?_
    split
    · refine upheld.bind holds fun position => ?_
      split
      · exact upheld.bind (upheld.expect _ _) fun close => upheld.pure _
      · exact upheld.refuse (by trivial) _
    · exact upheld.refuse (by trivial) _
  · exact upheld.pure _

theorem assignedValue_upheld (name : Token) (target : Ty) (operator : AssignOp) (span : Span) :
    Holds (assignedValue inner name target operator span) := by
  have counted : Holds (if target.isNumeric then return none
      else refuse (.typing (.notCountable operator target)) span : Parse (Option Node)) := by
    split
    · exact upheld.pure _
    · exact upheld.refuse (by trivial) _
  cases operator with
  | increment => exact counted
  | decrement => exact counted
  | set =>
    refine upheld.bind holds fun value => ?_
    split
    · exact upheld.pure _
    · exact upheld.refuse (by trivial) _
  | compound binary =>
    refine upheld.bind holds fun value => ?_
    split
    · exact upheld.pure _
    · exact upheld.refuse (by trivial) _

theorem assignment_upheld : Holds (assignment inner) := by
  refine upheld.bind upheld.advance fun name => upheld.peek fun sign => ?_
  split
  · exact upheld.pure _
  · exact upheld.bind upheld.advance fun _ =>
      upheld.bind (variableType_upheld upheld name) fun target =>
        upheld.bind (assignedValue_upheld upheld holds name target _ _) fun value => upheld.pure _

omit holds in
theorem variableUse_upheld : Holds variableUse :=
  upheld.bind upheld.advance fun name =>
    upheld.bind (variableType_upheld upheld name) fun _ => upheld.pure _

theorem nameForm_upheld : Holds (nameForm inner) := by
  refine upheld.bind (upheld.attempt (call_upheld upheld holds)) fun called => ?_
  cases called with
  | some node => exact upheld.pure node
  | none =>
    refine upheld.bind (upheld.attempt (index_upheld upheld holds)) fun indexed => ?_
    cases indexed with
    | some node => exact upheld.pure node
    | none =>
      refine upheld.bind (upheld.attempt (assignment_upheld upheld holds)) fun assigned => ?_
      cases assigned with
      | some node => exact upheld.pure node
      | none => exact variableUse_upheld upheld

/-! ## Lists and chains -/

omit holds in
theorem elementType_upheld (current : Option Ty) (element : Node) :
    Holds (elementType current element) := by
  unfold elementType
  split
  · exact upheld.refuse (by trivial) _
  · split
    · exact upheld.pure _
    · split
      · exact upheld.pure _
      · split
        · exact upheld.pure _
        · exact upheld.refuse (by trivial) _

theorem listLiteral_upheld : Holds (listLiteral inner) := by
  refine upheld.bind upheld.advance fun opening => upheld.check _ fun found => ?_
  split
  · exact upheld.peek fun token => upheld.refuse (by trivial) _
  · refine upheld.bind (upheld.commaSeparated (fun sofar => ?_) _) fun elements =>
      upheld.bind (upheld.expect _ _) fun close => upheld.pure _
    exact upheld.bind holds fun node =>
      upheld.bind (elementType_upheld upheld sofar.2 node) fun ty => upheld.pure _

theorem valueBranches_upheld (rounds : List Token) (branches : List (Branch Form))
    (ty : Option Ty) : Holds (valueBranches inner rounds branches ty) := by
  induction rounds generalizing branches ty with
  | nil => exact upheld.pure _
  | cons token rounds ih =>
    refine upheld.peek fun next => ?_
    split
    · exact upheld.pure _
    · exact upheld.bind (branch_upheld upheld holds holds _) fun branch =>
        upheld.bind (unifyBranch_upheld upheld ty branch.body) fun unified => ih _ _

theorem valueChain_upheld : Holds (valueChain inner) := by
  refine upheld.peek fun token => upheld.remaining fun tokens => ?_
  refine upheld.bind (valueBranches_upheld upheld holds tokens _ _) fun found => ?_
  refine upheld.bind (upheld.accept _) fun closing => ?_
  split
  · exact upheld.bind holds fun otherwise =>
      upheld.bind (unifyBranch_upheld upheld _ otherwise) fun ty => upheld.pure _
  · exact upheld.peek fun token => upheld.refuse (by trivial) _

/-! ## Atoms and levels -/

theorem grouped_upheld : Holds (grouped inner) :=
  upheld.bind upheld.advance fun _ => upheld.bind holds fun _ =>
    upheld.bind (upheld.expect _ _) fun _ => upheld.pure _

omit holds in
theorem literal_upheld (value : Value) : Holds (literal value) :=
  upheld.bind upheld.advance fun _ => upheld.pure _

/-- Only here it matters which reader is met. -/
theorem atom_upheld : Holds (atom inner) := by
  refine upheld.met fun reader apt => ?_
  split
  next isInt =>
    split
    · exact literal_upheld upheld _
    next unread => exact upheld.invalidInt apt isInt unread
  next isDouble =>
    split
    · exact literal_upheld upheld _
    next unread => exact upheld.invalidDouble apt isDouble unread
  · exact literal_upheld upheld _
  · exact literal_upheld upheld _
  · exact grouped_upheld upheld holds
  · exact listLiteral_upheld upheld holds
  · exact valueChain_upheld upheld holds
  · exact valueChain_upheld upheld holds
  · exact nameForm_upheld upheld holds
  · exact upheld.refuse (by trivial) _
  · exact upheld.refuse (by trivial) _

theorem expression_upheld : Holds (expression inner) := by
  have negations : Holds (negation inner) := upheld.remaining fun tokens =>
    prefixed_upheld upheld .minus .negate (atom_upheld upheld holds) tokens
  have comparisons : Holds (comparison inner) :=
    leftAssociative_upheld upheld _ <| leftAssociative_upheld upheld _ <|
      leftAssociative_upheld upheld _ <| leftAssociative_upheld upheld _ negations
  have denials : Holds (denial inner) := upheld.remaining fun tokens =>
    prefixed_upheld upheld .not .not comparisons tokens
  exact leftAssociative_upheld upheld _ denials

end

end RobotScript.Grammar
