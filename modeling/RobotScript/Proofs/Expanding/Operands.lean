import RobotScript.Proofs.Rendering.AtomReads
import RobotScript.Proofs.Rereading.Denoting

/-! # Two operands and the operator between them

An expression that begins with a name, an operator and an operand is read as these three
if nothing joins behind them: each operand is read at the tightest level, and the levels
on the way leave it as it is. The other way round, whatever is read there was read so. -/
set_option autoImplicit false

namespace RobotScript.Grammar

open Rendering

/-! ## Operands -/

theorem Shut.unjoined {kind : TokenKind} (shut : Shut kind) : Unjoined 0 kind := by
  refine (Closing.ends ?_).1
  rcases shut with rfl | rfl <;> simp [Closing]

section

variable {inner : Parse Node} {reader between stop after : Reader} {left right node : Node}
variable {operator : BinaryOp}

theorem ladder_joined {context : Context} (here : At context between)
    (unsigned : Unsigned reader.peek.kind) (signed : between.peek.kind = infixKind operator)
    (first : ladder inner 8 reader = .ok (left, between)) :
    ∃ rounds, ladder inner (infixLevel operator) reader =
      (ladder inner (infixLevel operator + 1) >>= fun right =>
        binaryNode left operator between.peek.span right >>=
          operatorChain (operators (infixLevel operator)) (ladder inner (infixLevel operator + 1))
            rounds) between.next := by
  have ends := (infixKind_ends operator).1
  rw [← signed] at ends
  have firstRun := unsigned.climbs (infixLevel_lt operator) (Nat.le_refl 8) ends first
  have joins := ladder_joins inner <| infixLevel_infix operator
  have known : (operators (infixLevel operator)).lookup between.peek.kind = some operator := by
    rw [signed, lookup_infixKind]
  cases ahead : between.ahead with
  | nil =>
    refine absurd ahead (here.ahead_ne_nil ?_)
    rw [signed]
    exact infixKind_ne_eof operator
  | cons token rounds =>
    refine ⟨rounds, ?_⟩
    rw [joins, leftAssociative, bind_of_ok firstRun, bind_remaining, ahead, operatorChain,
      bind_of_ok (binaryOperator_run known)]

theorem ladder_binary {context : Context} {ty : Ty} (here : At context between)
    (unsigned : Unsigned reader.peek.kind) (signed : between.peek.kind = infixKind operator)
    (unsignedBehind : Unsigned between.next.peek.kind)
    (first : ladder inner 8 reader = .ok (left, between))
    (second : ladder inner 8 between.next = .ok (right, stop))
    (applies : operator.result? left.ty right.ty = some ty)
    (ends : Unjoined 0 stop.peek.kind) :
    ladder inner 0 reader =
      .ok (⟨.binary left operator right, ty, left.span.through right.span⟩, stop) := by
  have secondRun := unsignedBehind.climbs (infixLevel_lt operator) (Nat.le_refl 8)
    (ends.tighter (Nat.zero_le _)) second
  obtain ⟨rounds, joined⟩ := ladder_joined here unsigned signed first
  rw [bind_of_ok secondRun, bind_of_ok (binaryNode_run applies _),
    operatorChain_stops (ends _ (Nat.zero_le _))] at joined
  exact unsigned.climbs (Nat.zero_le _) (Nat.le_of_lt (infixLevel_lt operator)) ends joined

/-- An expression that begins with an operand and an operator goes on with another operand,
to which the operator applies. -/
theorem ladder_operands {context : Context} (here : At context between)
    (unsigned : Unsigned reader.peek.kind) (signed : between.peek.kind = infixKind operator)
    (first : ladder inner 8 reader = .ok (left, between))
    (run : ladder inner 0 reader = .ok (node, after)) :
    ∃ right stop ty, ladder inner (infixLevel operator + 1) between.next = .ok (right, stop) ∧
      operator.result? left.ty right.ty = some ty := by
  have below := Nat.le_of_lt (infixLevel_lt operator)
  obtain ⟨_, _, begins⟩ := ladder_begins (Nat.zero_le _) below unsigned run
  obtain ⟨rounds, joined⟩ := ladder_joined here unsigned signed first
  rw [joined] at begins
  obtain ⟨right, stop, rightRun, rest⟩ := bind_ok begins
  obtain ⟨_, _, joins, -⟩ := bind_ok rest
  cases applies : operator.result? left.ty right.ty with
  | none =>
    rw [binaryNode, applies] at joins
    cases joins
  | some ty => exact ⟨right, stop, ty, rightRun, applies⟩

end

/-! ## A name and an operand in parentheses -/

section

variable {inner : Parse Node} {context : Context} {name : String} {more : List Token}
variable {reader stop after : Reader} {node : Node}

theorem unsigned_name (here : Before context (identifier name :: more) reader) :
    Unsigned reader.peek.kind := by
  rw [here.peek]
  intro operator
  cases operator <;> exact TokenKind.noConfusion

theorem unsigned_paren (opens : reader.peek.kind = .leftParen) : Unsigned reader.peek.kind := by
  rw [opens]
  intro operator
  cases operator <;> decide

theorem atom_name {ty : Ty} (here : Before context (identifier name :: more) reader)
    (unapplied : Unapplied (kindAhead more)) (known : context.variableType? name = some ty) :
    atom inner reader = .ok (⟨.variable name, ty, reader.peek.span⟩, reader.next) := by
  have isName : reader.peek.lexeme = name := by
    rw [here.peek]
    rfl
  rw [← isName] at known
  rw [atom_identifier here, nameForm_variable here unapplied, variableUse, bind_advance,
    bind_of_ok (variableType_run reader.peek here.next.toAt known), isName]
  rfl

theorem known_of_atom (here : Before context (identifier name :: more) reader)
    (unapplied : Unapplied (kindAhead more)) (run : atom inner reader = .ok (node, after)) :
    ∃ ty, context.variableType? name = some ty := by
  rw [atom_identifier here, nameForm_variable here unapplied, variableUse, bind_advance,
    here.peek] at run
  obtain ⟨ty, between, typed, -⟩ := bind_ok run
  exact ⟨ty, (variableType_ok here.next.toAt typed).2⟩

theorem atom_grouped (opens : reader.peek.kind = .leftParen)
    (run : inner reader.next = .ok (node, stop)) (closes : stop.peek.kind = .rightParen) :
    atom inner reader =
      .ok ({ node with span := reader.peek.span.through stop.peek.span }, stop.next) := by
  rw [atom, bind_peek, opens]
  simp only [Grammar.grouped]
  rw [bind_advance, bind_of_ok run, bind_expect, if_pos closes]
  rfl

theorem within_grouped (opens : reader.peek.kind = .leftParen)
    (run : atom inner reader = .ok (node, after)) :
    ∃ made between, inner reader.next = .ok (made, between) ∧
      between.peek.kind = .rightParen := by
  rw [atom, bind_peek, opens] at run
  simp only [Grammar.grouped] at run
  rw [bind_advance] at run
  obtain ⟨made, between, innerRun, rest⟩ := bind_ok run
  by_cases closes : between.peek.kind = .rightParen
  · exact ⟨made, between, innerRun, closes⟩
  · rw [bind_expect, if_neg closes] at rest
    cases rest

end

end RobotScript.Grammar
