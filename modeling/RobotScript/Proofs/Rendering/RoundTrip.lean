import RobotScript.Proofs.Reading.Soundness
import RobotScript.Proofs.Rendering.StatementReads

/-! # Parsing what was written

A well-typed script, written as tokens, parses to itself: the grammar accepts every
script that its typing allows, and groups operators as their levels say. -/
set_option autoImplicit false

namespace RobotScript

namespace Rendering

/-! ## The end stands last -/

/-- No token of these marks the end of a script. -/
def Endless (tokens : List Token) : Prop := ∀ token ∈ tokens, token.kind ≠ .eof

@[simp] theorem endless_nil : Endless [] := fun _ member => absurd member List.not_mem_nil

@[simp] theorem endless_cons (token : Token) (tokens : List Token) :
    Endless (token :: tokens) ↔ token.kind ≠ .eof ∧ Endless tokens := List.forall_mem_cons

@[simp] theorem endless_append (first second : List Token) :
    Endless (first ++ second) ↔ Endless first ∧ Endless second := List.forall_mem_append

@[simp] theorem mark_kind (kind : TokenKind) : (mark kind).kind = kind := by
  unfold mark
  split <;> rfl

@[simp] theorem token_kind (kind : TokenKind) (lexeme : String) : (token kind lexeme).kind = kind :=
  rfl

@[simp] theorem identifier_kind (name : String) : (identifier name).kind = .identifier := rfl

@[simp] theorem prefixKind_ne_eof (operator : UnaryOp) : prefixKind operator ≠ .eof := by
  cases operator <;> exact TokenKind.noConfusion

@[simp] theorem infixKind_ne_eof (operator : BinaryOp) : infixKind operator ≠ .eof := by
  cases operator <;> exact TokenKind.noConfusion

@[simp] theorem assignKind_ne_eof (operator : AssignOp) : assignKind operator ≠ .eof := by
  unfold assignKind
  split <;> exact TokenKind.noConfusion

@[simp] theorem primitiveKind_ne_eof (primitive : Primitive) : primitiveKind primitive ≠ .eof := by
  cases primitive <;> exact TokenKind.noConfusion

@[simp] theorem endless_literal (style : Style) (value : Value) : Endless (literal style value) := by
  cases value <;> simp [literal]

@[simp] theorem endless_typeTokens (ty : Ty) : Endless (typeTokens ty) := by
  rw [typeTokens]
  split <;> simp

@[simp] theorem endless_grouped (tokens : List Token) : Endless (grouped tokens) ↔ Endless tokens := by
  simp [grouped]

theorem endless_commaSeparated {lists : List (List Token)} (each : ∀ tokens ∈ lists, Endless tokens) :
    Endless (commaSeparated lists) := by
  induction lists with
  | nil => exact endless_nil
  | cons first rest ih =>
    have others := ih fun tokens member => each tokens (List.mem_cons_of_mem _ member)
    have head := each first List.mem_cons_self
    cases rest with
    | nil => exact head
    | cons next rest => simp [commaSeparated, head, others]

@[simp] theorem endless_ending (style : Style) (node : Node) : Endless (ending style node) := by
  unfold ending
  split <;> simp

mutual

theorem endless_written (style : Style) : ∀ form : Form, Endless (written style form)
  | .literal value => by simp [written]
  | .variable name => by simp [written]
  | .unary operator operand => by simp [written, endless_atPosition style _ operand]
  | .binary left operator right => by
    simp [written, endless_atPosition style _ left, endless_atPosition style _ right]
  | .block statements => by simp [written, endless_listed style statements]
  | .returning value => by simp [written, endless_optional style value]
  | .breaking => by simp [written]
  | .continuing => by simp [written]
  | .declare name declared initializer => by simp [written, endless_initial style initializer]
  | .assign name operator value => by simp [written, endless_optional style value]
  | .define definition => by simp [written, endless_defined style definition]
  | .call name arguments => by
    simp [written, endless_commaSeparated (endless_each style arguments)]
  | .index name position => by simp [written, endless_atPosition style 0 position]
  | .list elements => by simp [written, endless_commaSeparated (endless_each style elements)]
  | .loop initializer condition step body => by
    simp [written, endless_atPosition style 0 initializer, endless_atPosition style 0 condition,
      endless_atPosition style 0 step, endless_atPosition style 0 body]
  | .repeating count body => by
    simp [written, endless_atPosition style 0 count, endless_atPosition style 0 body]
  | .whileTrue condition body => by
    simp [written, endless_atPosition style 0 condition, endless_atPosition style 0 body]
  | .chain branches otherwise => by
    simp [written, endless_branched style true branches, endless_last style otherwise]

theorem endless_atPosition (style : Style) (position : Nat) :
    ∀ node : Typed Form, Endless (atPosition style position node)
  | ⟨form, _, _⟩ => by
    rw [atPosition]
    split <;> simp [endless_written style form]

theorem endless_optional (style : Style) : ∀ value : Option (Typed Form),
    Endless (Rendering.optional style value)
  | none => by simp [Rendering.optional]
  | some node => by simp [Rendering.optional, endless_atPosition style 0 node]

theorem endless_initial (style : Style) : ∀ value : Option (Typed Form),
    Endless (initial style value)
  | none => by simp [initial]
  | some node => by simp [initial, endless_atPosition style 0 node]

theorem endless_each (style : Style) : ∀ nodes : List (Typed Form),
    ∀ tokens ∈ each style nodes, Endless tokens
  | [] => by simp [each]
  | node :: rest => by
    simp [each, endless_atPosition style 0 node]
    exact endless_each style rest

theorem endless_statement (style : Style) : ∀ node : Typed Form, Endless (statement style node)
  | ⟨form, _, _⟩ => by simp [statement, endless_written style form]

theorem endless_listed (style : Style) : ∀ nodes : List (Typed Form), Endless (listed style nodes)
  | [] => by simp [listed]
  | node :: rest => by simp [listed, endless_statement style node, endless_listed style rest]

theorem endless_result (style : Style) : ∀ node : Typed Form, Endless (result style node)
  | ⟨form, _, _⟩ => by
    rw [result]
    split <;> simp [endless_written style form]

theorem endless_branch (style : Style) (first : Bool) :
    ∀ branch : Branch Form, Endless (Rendering.branch style first branch)
  | .test ⟨guard, _, _⟩ body _ => by
    by_cases block : isBlock body.form = true <;> cases first <;>
      simp [Rendering.branch, block, endless_written style guard, endless_result style body]
  | .attempt body _ => by
    cases first <;> simp [Rendering.branch, endless_result style body]

theorem endless_branched (style : Style) (first : Bool) :
    ∀ branches : List (Branch Form), Endless (branched style first branches)
  | [] => by simp [branched]
  | next :: rest => by
    simp [branched, endless_branch style first next, endless_branched style false rest]

theorem endless_last (style : Style) : ∀ value : Option (Typed Form), Endless (last style value)
  | none => by simp [last]
  | some node => by simp [last, endless_result style node]

theorem endless_defined (style : Style) : ∀ definition : Definition Form,
    Endless (defined style definition)
  | ⟨name, returns, parameters, body⟩ => by
    have each : ∀ tokens ∈ parameters.map parameter, Endless tokens := by
      intro tokens member
      obtain ⟨named, -, rfl⟩ := List.mem_map.mp member
      simp [parameter]
    simp [defined, endless_commaSeparated each, endless_atPosition style 0 body]

end

/-- Of the tokens of a script the parser reads all but the one that marks the end. -/
theorem ofTokens_script (style : Style) (root : Node) (context : Context) :
    Grammar.Before context (listed style root.statements)
      (Grammar.Reader.ofTokens (script style root) context) := by
  refine ⟨Grammar.Reader.ofTokens_at _ _, ?_⟩
  have endless := endless_listed style root.statements
  show (script style root).takeWhile _ = _
  rw [script, List.takeWhile_append_of_pos]
  · rw [List.takeWhile_cons_of_neg (by simp), List.append_nil]
  · intro token member
    simpa using endless token member

end Rendering

namespace Grammar

open Rendering Typing

theorem topStatements_reads {style : Style} {context : Context} {depth : Nat} {nodes : List Node}
    (readable : Readables style topLevel context nodes)
    (short : (listed style nodes).length < depth) {rounds : List Token} {reader : Reader}
    (here : Before context (listed style nodes) reader)
    (enough : reader.ahead.length ≤ rounds.length) :
    ∃ made stop, topStatements (read depth) rounds reader = .ok (made, stop) ∧
      At (context.afterAll nodes) stop ∧ Sames made nodes := by
  induction nodes generalizing context rounds reader with
  | nil =>
    refine ⟨[], reader, ?_, here.toAt, .nil⟩
    have past : reader.peek.kind = .eof := here.kind
    cases rounds with
    | nil => rfl
    | cons token rounds =>
      rw [topStatements, bind_check, decide_eq_true past]
      rfl
  | cons node others ih =>
    rw [← List.append_nil (listed style (node :: others))] at here
    obtain ⟨begins, made, between, round, rounds, run, between_at, same, rfl, fewer⟩ :=
      readable.first short here (by decide) enough
    have goesOn : reader.peek.kind ≠ .eof := by
      intro is
      rw [is] at begins
      exact absurd begins (by decide)
    rw [List.append_nil] at between_at
    rw [listed, List.length_append] at short
    obtain ⟨madeOthers, stop, othersRun, stop_at, sameOthers⟩ :=
      ih readable.tail (by omega) between_at fewer
    refine ⟨made :: madeOthers, stop, ?_, stop_at, .cons same sameOthers⟩
    rw [topStatements, bind_check, decide_eq_false goesOn]
    simp only [Bool.false_eq_true, if_false]
    rw [bind_of_ok run, bind_of_ok othersRun]
    rfl

end Grammar

open Grammar Rendering in
/-- A well-typed script whose literals can be written parses from its tokens to the
same tree, and leaves behind the declarations of its top level. -/
theorem parse_script {style : Style} {context : Context} {root : Node}
    (typed : Typing.Program context root)
    (writable : ∀ value ∈ nodeLiterals root, style.Denotes value) :
    ∃ made, parse (script style root) context =
        .ok (made, context.afterAll root.statements) ∧ made.Same root := by
  have readable : Readables style topLevel context root.statements := by
    intro before node after split
    apply statement_readable (typed.statements before node after split)
    apply writable_statement typed.isBlock writable
    rw [split]
    exact List.mem_append_right _ List.mem_cons_self
  let start := Reader.ofTokens (Rendering.script style root) context
  have here : Before context (listed style root.statements) start := ofTokens_script ..
  have short : (listed style root.statements).length < enoughDepth start.ahead.length := by
    rw [here.ahead]
    exact Nat.lt_succ_self _
  obtain ⟨made, stop, run, stop_at, same⟩ :=
    topStatements_reads readable short here (Nat.le_refl _)
  let whole : Node := ⟨.block made, .void, start.peek.span.through stop.peek.span⟩
  have scriptRun : Grammar.script.run start = .ok (whole, stop) := by
    show Grammar.script start = _
    rw [Grammar.script, bind_peek, bind_remaining, bind_of_ok run]
    rfl
  refine ⟨whole, ?_, statements_same typed.isBlock same⟩
  rw [parse, scriptRun, ← stop_at.context]

/-- `double x = 2; x = -(x + 1) ^ 3;` as a tree. -/
def grouping : Node :=
  let node (form : Form) (ty : Ty) : Node := ⟨form, ty, default⟩
  let two := node (.literal (.int 2)) .int
  let sum := node (.binary (node (.variable "x") .double) .add (node (.literal (.int 1)) .int)) .double
  let power := node (.binary (node (.unary .negate sum) .double) .power
    (node (.literal (.int 3)) .int)) .double
  node (.block [node (.declare "x" .double (some two)) .void,
    node (.assign "x" .set (some power)) .double]) .void

theorem grouping_parses :
    ∃ made, parse (Rendering.script ⟨Decimal.doubleText, fun _ => true⟩ grouping)
        (.withNatives .empty) =
        .ok (made, (Context.withNatives .empty).afterAll grouping.statements) ∧
      made.Same grouping := by
  apply parse_script
  · have number {value : Int64} : Typing.Plain (Value.int value).ty :=
      Typing.plain_scalar Primitive.noConfusion
    refine ⟨⟨_, rfl, rfl⟩, .cons ?_ (.cons ?_ .nil)⟩
    · refine .declaration (.declare Primitive.noConfusion rfl ?_ ?_)
      · rintro value ⟨⟩
        exact .literal number
      · rintro value ⟨⟩
        decide
    · refine .expression (.set rfl (.binary (.unary ?_ rfl) (.literal number) rfl) (by decide))
      exact .binary (.name rfl) (.literal number) rfl
  · intro value literal
    have known : value = .int 2 ∨ value = .int 1 ∨ value = .int 3 := by
      simpa [grouping, nodeLiterals, Form.literals, nodesLiterals, optionLiterals] using literal
    rcases known with rfl | rfl | rfl
    · show (0 : Int64) ≤ 2
      decide
    · show (0 : Int64) ≤ 1
      decide
    · show (0 : Int64) ≤ 3
      decide

end RobotScript
