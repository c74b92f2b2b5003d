import RobotScript.Grammar.Script
import RobotScript.Proofs.Refusing.Expressions

/-! # What reading statements keeps

Every function of the statement grammar has what every reading has, and with `read`, which
closes the grammar, so has the reading of a script. -/
set_option autoImplicit false

namespace RobotScript.Grammar

variable {Apt : Reader → Prop} {Holds : ∀ {α : Type}, Parse α → Prop}
  (upheld : Upheld Apt @Holds)

include upheld

theorem endStatement_upheld : Holds endStatement :=
  upheld.bind (upheld.expect _ _) fun _ => upheld.pure ()

theorem endBlockStatement_upheld : Holds endBlockStatement :=
  upheld.bind (upheld.accept _) fun _ => upheld.pure ()

/-! ## Declarations -/

theorem declareVariable_upheld (name : Token) (ty : Ty) : Holds (declareVariable name ty) := by
  refine upheld.view fun reader _ => ?_
  split
  · exact upheld.changeContext _
  · exact upheld.refuse (by trivial) _

theorem declareFunction_upheld (name : Token) (signature : Signature) :
    Holds (declareFunction name signature) := by
  refine upheld.view fun reader _ => ?_
  split
  · exact upheld.changeContext _
  · exact upheld.refuse (by trivial) _
  · exact upheld.refuse (by trivial) _

theorem parameters_upheld : Holds parameters := by
  refine upheld.check _ fun found => ?_
  split
  · exact upheld.pure _
  · refine upheld.commaSeparated (fun sofar => ?_) _
    refine upheld.bind (typeName_upheld upheld _) fun ty => ?_
    refine upheld.bind (upheld.expect _ _) fun name => ?_
    split
    · exact upheld.refuse (by trivial) _
    · exact upheld.pure _

/-! ## Blocks and loops -/

section

variable {inner : Goal → Parse Node} (holds : ∀ goal, Holds (inner goal))

include holds

theorem statements_upheld (place : Place) (rounds : List Token) :
    Holds (statements inner place rounds) := by
  induction rounds with
  | nil => exact upheld.pure []
  | cons token rounds ih =>
    refine upheld.check _ fun closes => upheld.check _ fun ends => ?_
    split
    · exact upheld.pure []
    · exact upheld.bind (holds _) fun first => upheld.bind ih fun rest => upheld.pure _

theorem enclosed_upheld (place : Place) (what : Expected) (opening : Token) :
    Holds (enclosed inner place what opening) :=
  upheld.remaining fun tokens => upheld.bind (statements_upheld upheld holds place tokens) fun _ =>
    upheld.bind (upheld.expect _ _) fun _ => upheld.pure _

theorem block_upheld (place : Place) : Holds (block inner place) :=
  upheld.bind (upheld.expect _ _) fun opening =>
    upheld.inScope (enclosed_upheld upheld holds place _ opening)

theorem functionBody_upheld (returns : Ty) (parameters : List Parameter) :
    Holds (functionBody inner returns parameters) :=
  upheld.bind (upheld.expect _ _) fun opening =>
    upheld.inScope <| upheld.bind (upheld.changeContext _) fun _ =>
      enclosed_upheld upheld holds _ _ opening

theorem repeatStatement_upheld (place : Place) : Holds (repeatStatement inner place) := by
  refine upheld.bind upheld.advance fun keyword => upheld.bind (holds _) fun count => ?_
  split
  · exact upheld.bind (block_upheld upheld holds _) fun body =>
      upheld.bind (endBlockStatement_upheld upheld) fun _ => upheld.pure _
  · exact upheld.refuse (by trivial) _

theorem whileStatement_upheld (place : Place) : Holds (whileStatement inner place) :=
  upheld.bind upheld.advance fun _ => upheld.bind (holds _) fun condition =>
    upheld.bind (requireBool_upheld upheld condition _) fun _ =>
      upheld.bind (block_upheld upheld holds _) fun _ =>
        upheld.bind (endBlockStatement_upheld upheld) fun _ => upheld.pure _

theorem initialValue_upheld (name : Token) (declared : Ty) :
    Holds (initialValue inner name declared) := by
  refine upheld.bind (upheld.accept _) fun found => ?_
  split
  · refine upheld.bind (holds _) fun value => ?_
    split
    · exact upheld.pure _
    · exact upheld.refuse (by trivial) _
  · exact upheld.pure _

theorem variableDeclaration_upheld : Holds (variableDeclaration inner) :=
  upheld.peek fun _ => upheld.bind (typeName_upheld upheld _) fun declared =>
    upheld.bind (upheld.expect _ _) fun name =>
      upheld.bind (initialValue_upheld upheld holds name declared) fun _ =>
        upheld.bind (declareVariable_upheld upheld name declared) fun _ => upheld.pure _

theorem loopInitializer_upheld : Holds (loopInitializer inner) := by
  refine upheld.peek fun token => ?_
  split
  · exact variableDeclaration_upheld upheld holds
  · exact holds _

theorem loopStatement_upheld (place : Place) : Holds (loopStatement inner place) := by
  refine upheld.bind upheld.advance fun keyword => upheld.bind (upheld.expect _ _) fun _ => ?_
  refine upheld.bind (upheld.inScope ?_) fun node =>
    upheld.bind (endBlockStatement_upheld upheld) fun _ => upheld.pure _
  exact upheld.bind (loopInitializer_upheld upheld holds) fun initializer =>
    upheld.bind (upheld.expect _ _) fun _ => upheld.bind (holds _) fun condition =>
      upheld.bind (requireBool_upheld upheld condition _) fun _ =>
        upheld.bind (upheld.expect _ _) fun _ => upheld.bind (holds _) fun step =>
          upheld.bind (upheld.expect _ _) fun _ =>
            upheld.bind (block_upheld upheld holds _) fun body => upheld.pure _

/-! ## Functions and jumps -/

theorem functionDefinition_upheld : Holds (functionDefinition inner) := by
  refine upheld.bind upheld.advance fun keyword => ?_
  refine upheld.bind (typeName_upheld upheld _) fun returns => ?_
  refine upheld.bind (upheld.expect _ _) fun name => upheld.bind (upheld.expect _ _) fun _ => ?_
  refine upheld.bind (parameters_upheld upheld) fun parameters => ?_
  refine upheld.bind (upheld.expect _ _) fun _ => ?_
  refine upheld.bind (declareFunction_upheld upheld name _) fun _ => ?_
  exact upheld.bind (functionBody_upheld upheld holds returns parameters) fun body =>
    upheld.bind (endBlockStatement_upheld upheld) fun _ => upheld.pure _

theorem returnedValue_upheld (place : Place) (keyword : Token) :
    Holds (returnedValue inner place keyword) := by
  refine upheld.check _ fun found => ?_
  split
  · split
    · exact upheld.pure _
    · split
      · exact upheld.pure _
      · exact upheld.refuse (by trivial) _
  · refine upheld.bind (holds _) fun value => ?_
    split
    · exact upheld.pure _
    · split
      · exact upheld.refuse (by trivial) _
      · split
        · exact upheld.pure _
        · exact upheld.refuse (by trivial) _

theorem returnStatement_upheld (place : Place) : Holds (returnStatement inner place) :=
  upheld.bind upheld.advance fun keyword =>
    upheld.bind (returnedValue_upheld upheld holds place keyword) fun _ =>
      upheld.bind (endStatement_upheld upheld) fun _ => upheld.pure _

omit holds in
theorem jumpStatement_upheld (place : Place) (form : Form) : Holds (jumpStatement place form) := by
  refine upheld.bind upheld.advance fun keyword => ?_
  split
  · exact upheld.bind (endStatement_upheld upheld) fun _ => upheld.pure _
  · exact upheld.refuse (by trivial) _

theorem expressionStatement_upheld : Holds (expressionStatement inner) :=
  upheld.bind (holds _) fun _ => upheld.bind (endStatement_upheld upheld) fun _ => upheld.pure _

/-! ## Chains -/

theorem startsChain_upheld : Holds (startsChain inner) := by
  refine upheld.check _ fun found => ?_
  split
  · exact upheld.checkNext _
  · have ahead : Holds (do
        let _ ← advance
        let _ ← inner .expression
        let braced ← check .leftBrace
        return braced) :=
      upheld.bind upheld.advance fun _ => upheld.bind (holds _) fun _ =>
        upheld.check _ fun _ => upheld.pure _
    simpa only [bind_assoc, pure_bind] using upheld.lookAhead ahead

theorem blockBranches_upheld (place : Place) (rounds : List Token)
    (branches : List (Branch Form)) : Holds (blockBranches inner place rounds branches) := by
  induction rounds generalizing branches with
  | nil => exact upheld.pure branches
  | cons token rounds ih =>
    refine upheld.peek fun next => ?_
    split
    · exact upheld.pure branches
    · exact upheld.bind (branch_upheld upheld (holds _) (block_upheld upheld holds place) _)
        fun branch => ih _

omit holds in
theorem chainMade_upheld (start : Span) (branches : List (Branch Form)) (otherwise : Option Node) :
    Holds (chainMade start branches otherwise) :=
  upheld.bind (endBlockStatement_upheld upheld) fun _ => upheld.pure _

theorem chainStatement_upheld (place : Place) : Holds (chainStatement inner place) := by
  refine upheld.peek fun token => upheld.remaining fun tokens => ?_
  refine upheld.bind (blockBranches_upheld upheld holds place tokens []) fun branches => ?_
  have ending (otherwise : Option Node) := chainMade_upheld upheld token.span branches otherwise
  refine upheld.bind (upheld.accept _) fun closing => ?_
  cases closing with
  | false => exact ending none
  | true =>
    rw [if_pos rfl, map_eq_pure_bind, bind_assoc]
    exact upheld.bind (block_upheld upheld holds place) fun node => ending (some node)

theorem declarationStatement_upheld : Holds (declarationStatement inner) :=
  upheld.bind (variableDeclaration_upheld upheld holds) fun node =>
    upheld.bind (endStatement_upheld upheld) fun _ => upheld.pure node

theorem chainOrExpression_upheld (place : Place) : Holds (chainOrExpression inner place) := by
  refine upheld.bind (startsChain_upheld upheld holds) fun starts => ?_
  split
  · exact chainStatement_upheld upheld holds place
  · exact expressionStatement_upheld upheld holds

theorem statement_upheld (place : Place) : Holds (statement inner place) := by
  have declaration := declarationStatement_upheld upheld holds
  have chain := chainOrExpression_upheld upheld holds place
  refine upheld.peek fun token => ?_
  split
  · exact repeatStatement_upheld upheld holds place
  · exact loopStatement_upheld upheld holds place
  · exact whileStatement_upheld upheld holds place
  · exact functionDefinition_upheld upheld holds
  · exact declaration
  · exact declaration
  · exact declaration
  · exact declaration
  · exact upheld.refuse (by trivial) _
  · exact returnStatement_upheld upheld holds place
  · exact jumpStatement_upheld upheld place _
  · exact jumpStatement_upheld upheld place _
  · exact chain
  · exact chain
  · exact expressionStatement_upheld upheld holds

end

/-! ## Scripts -/

theorem read_upheld (depth : Nat) (goal : Goal) : Holds (read depth goal) := by
  induction depth generalizing goal with
  | zero => exact upheld.peek fun token => upheld.refuse (by trivial) _
  | succ depth ih =>
    cases goal with
    | expression => exact expression_upheld upheld (ih .expression)
    | statement place => exact statement_upheld upheld ih place

theorem topStatements_upheld {inner : Goal → Parse Node} (holds : ∀ goal, Holds (inner goal))
    (rounds : List Token) : Holds (topStatements inner rounds) := by
  induction rounds with
  | nil => exact upheld.pure []
  | cons token rounds ih =>
    refine upheld.check _ fun ends => ?_
    split
    · exact upheld.pure []
    · exact upheld.bind (holds _) fun first => upheld.bind ih fun rest => upheld.pure _

theorem script_upheld : Holds script :=
  upheld.peek fun _ => upheld.remaining fun tokens =>
    upheld.bind (topStatements_upheld upheld (read_upheld upheld _) tokens) fun _ =>
      upheld.peek fun _ => upheld.pure _

end RobotScript.Grammar
