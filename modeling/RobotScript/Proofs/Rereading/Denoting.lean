import RobotScript.Proofs.Rereading.Expressions

/-! # Tokens that denote an expression

Some tokens denote an expression in a context if they are read as it wherever they stand
at the end of a statement or of a pair of parentheses. Whatever is read as an expression
was denoted by the tokens that were taken, behind which no operator stands. -/
set_option autoImplicit false

namespace RobotScript.Grammar

open Rendering

/-! ## What stands behind an expression -/

section

variable {most : Nat} {context : Context} {reader after : Reader} {inner : Parse Node}
variable {node : Node} {follow : TokenKind → Prop}

def EndsBefore (follow : TokenKind → Prop) (context : Context) (parse : Parse Node) : Prop :=
  ∀ ⦃reader node after⦄, At context reader → parse reader = .ok (node, after) →
    follow after.peek.kind

theorem operatorChain_ends {operators : List (TokenKind × BinaryOp)}
    (neutral : ∀ entry ∈ operators, Neutral entry.1) (operands : Rereads most inner inner)
    (ends : EndsBefore follow context inner) {rounds : List Token}
    (left : reader.ahead.length ≤ rounds.length) (here : At context reader)
    (starts : follow reader.peek.kind) {first : Node}
    (run : operatorChain operators inner rounds first reader = .ok (node, after)) :
    follow after.peek.kind ∧ operators.lookup after.peek.kind = none := by
  induction rounds generalizing reader first with
  | nil =>
    cases run
    refine ⟨starts, lookup_eq_none neutral ?_⟩
    rw [here.before.kind, List.length_eq_zero_iff.mp (Nat.le_zero.mp left)]
    decide
  | cons round rounds ih =>
    cases known : operators.lookup reader.peek.kind with
    | none =>
      rw [operatorChain_stops known] at run
      cases run
      exact ⟨starts, known⟩
    | some operator =>
      rw [operatorChain, bind_of_ok (binaryOperator_run known)] at run
      obtain ⟨right, between, rightRun, run⟩ := bind_ok run
      obtain ⟨joined, last, joins, run⟩ := bind_ok run
      have there := here.next
      have shorter := (operands context _ there).length_lt rightRun
      obtain ⟨-, ⟨stands, -⟩, -⟩ := operands context _ there right between rightRun
      cases applies : operator.result? first.ty right.ty with
      | none =>
        rw [binaryNode, applies] at joins
        cases joins
      | some ty =>
        rw [binaryNode_run applies] at joins
        cases joins
        rw [reader.next_ahead, List.length_tail] at shorter
        rw [List.length_cons] at left
        exact ih (by omega) stands (ends there rightRun) run

theorem prefixed_ends {kind : TokenKind} {operator : UnaryOp}
    (ends : EndsBefore follow context inner) {rounds : List Token} (here : At context reader)
    (run : prefixed kind operator inner rounds reader = .ok (node, after)) :
    follow after.peek.kind := by
  induction rounds generalizing reader node after with
  | nil => exact ends here run
  | cons round rounds ih =>
    by_cases signed : reader.peek.kind = kind
    · rw [prefixed_here signed, bind_advance] at run
      obtain ⟨operand, between, operandRun, run⟩ := bind_ok run
      cases applies : operator.result? operand.ty with
      | none =>
        rw [unaryNode, applies] at run
        cases run
      | some ty =>
        rw [unaryNode_run applies] at run
        cases run
        exact ih here.next operandRun
    · rw [prefixed_absent signed] at run
      exact ends here run

theorem operators_eq_nil {level : Nat} (above : 7 ≤ level) : operators level = [] := by
  unfold operators
  split <;> first | rfl | omega

/-- No operator of the level of an expression, or of a tighter one, stands behind it. -/
theorem ladder_ends (inners : Rereads (most - 1) inner inner) {level : Nat} (below : level ≤ 8) :
    EndsBefore (Unjoined level) context (ladder inner level) := by
  induction below using Nat.decreasingInduction with
  | self =>
    intro reader node after _ _ level above
    rw [operators_eq_nil (Nat.le_trans (by decide) above)]
    rfl
  | of_succ level less ih =>
    have unjoined {kind : TokenKind} (tighter : Unjoined (level + 1) kind)
        (none : (operators level).lookup kind = none) : Unjoined level kind := by
      intro other above
      rcases Nat.eq_or_lt_of_le above with rfl | above
      · exact none
      · exact tighter other above
    have operands : Rereads most (ladder inner (level + 1)) (ladder inner (level + 1)) :=
      ladder_rereads inners less
    intro reader node after here run
    by_cases isInfix : Infix level
    · rw [ladder_joins inner isInfix] at run
      obtain ⟨first, between, firstRun, run⟩ := bind_ok run
      obtain ⟨-, ⟨there, -⟩, -⟩ := operands context _ here first between firstRun
      obtain ⟨tighter, none⟩ := operatorChain_ends (operators_neutral level) operands ih
        (Nat.le_refl _) there (ih here firstRun) run
      exact unjoined tighter none
    · rcases level_cases less isInfix with rfl | ⟨operator, rfl⟩
      · exact unjoined (ih here run) rfl
      · rw [ladder_signs] at run
        refine unjoined (prefixed_ends ih here run) ?_
        cases operator <;> rfl

end

/-! ## What tokens denote -/

/-- The tokens are read as the node wherever they end a statement or parentheses. -/
def Denotes (context : Context) (tokens : List Token) (node : Node) : Prop :=
  ∀ ⦃depth : Nat⦄ ⦃reader : Reader⦄ ⦃rest : List Token⦄, Before context (tokens ++ rest) reader →
    (tokens ++ rest).length ≤ depth → Shut (kindAhead rest) →
    ∃ stop, read depth .expression reader = .ok (node, stop) ∧ Before context rest stop

section

variable {context : Context} {reader after : Reader} {depth : Nat} {node other : Node}
variable {tokens : List Token}

theorem denotes_of_read (here : At context reader)
    (run : read depth .expression reader = .ok (node, after)) :
    ∃ tokens, reader.ahead = tokens ++ after.ahead ∧ At context after ∧ Stretch 0 tokens ∧
      Denotes context tokens node ∧ Unjoined 0 after.peek.kind := by
  have reads (limit : Nat) := readExpression_rereads (Nat.le_refl limit) context reader here node
    after run
  obtain ⟨tokens, ⟨stands, ahead, stretch, -⟩, -⟩ := reads 0
  refine ⟨tokens, ahead, stands, stretch, ?_, ?_⟩
  · intro limit twin rest there bound shut
    obtain ⟨same, ⟨-, aheadToo, -, repeats⟩, -⟩ := reads limit
    obtain rfl := List.append_cancel_right (ahead.symm.trans aheadToo)
    exact repeats there bound (.inr shut)
  · cases depth with
    | zero => cases run
    | succ depth =>
      have inners : Rereads (0 - 1) (read depth .expression) (read depth .expression) :=
        readExpression_rereads (Nat.zero_le depth)
      exact ladder_ends inners (Nat.zero_le 8) here run

theorem exists_before (context : Context) (tokens : List Token) :
    ∃ reader, Before context tokens reader :=
  ⟨⟨tokens, ⟨.eof, "", default⟩, none, context⟩, ⟨rfl, rfl⟩, rfl⟩

theorem Denotes.run (denotes : Denotes context tokens node) :
    ∃ reader limit stop, Before context (tokens ++ [mark .semicolon]) reader ∧
      read (limit + 1) .expression reader = .ok (node, stop) ∧
      Before context [mark .semicolon] stop := by
  obtain ⟨reader, here⟩ := exists_before context (tokens ++ [mark .semicolon])
  obtain ⟨stop, run, there⟩ := denotes here (Nat.le_succ _) (.inl rfl)
  exact ⟨reader, _, stop, here, run, there⟩

theorem Denotes.unique (one : Denotes context tokens node) (two : Denotes context tokens other) :
    node = other := by
  obtain ⟨reader, here⟩ := exists_before context (tokens ++ [mark .semicolon])
  obtain ⟨_, run, -⟩ := one here (Nat.le_refl _) (.inl rfl)
  obtain ⟨_, runToo, -⟩ := two here (Nat.le_refl _) (.inl rfl)
  exact (Prod.mk.inj (Except.ok.inj (run.symm.trans runToo))).1

/-- Whatever denotes an expression holds no semicolon and closes only parentheses of its own. -/
theorem Denotes.contained (denotes : Denotes context tokens node) : Contained tokens := by
  obtain ⟨reader, limit, stop, here, run, there⟩ := denotes.run
  obtain ⟨taken, ahead, -, stretch, -⟩ := denotes_of_read here.toAt run
  rw [here.ahead, there.ahead] at ahead
  obtain rfl := List.append_cancel_right ahead
  exact stretch.contained

end

end RobotScript.Grammar
