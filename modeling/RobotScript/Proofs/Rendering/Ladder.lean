import Mathlib.Tactic.IntervalCases
import RobotScript.Proofs.Reading.ExpressionSound
import RobotScript.Proofs.Rendering.Tokens

/-! # Reading known tokens level by level

A reader before tokens that are written out gives back the tree they stand for,
provided that the token behind them does not go on with it. The levels of the
expression grammar form a ladder: what a tighter level reads, the looser ones
read too, if no operator of theirs follows. -/
set_option autoImplicit false

namespace RobotScript.Grammar

open Rendering

/-! ## Readers and the tokens ahead -/

/-- The kind of the first token; with none left, that of the end. -/
def kindAhead : List Token → TokenKind
  | [] => .eof
  | token :: _ => token.kind

/-- A reader that sees these declarations, with these tokens ahead. -/
structure Before (context : Context) (tokens : List Token) (reader : Reader) : Prop
    extends At context reader where
  ahead : reader.ahead = tokens

namespace Before

variable {context : Context} {reader : Reader} {tokens : List Token}

theorem kind (here : Before context tokens reader) : reader.peek.kind = kindAhead tokens := by
  rw [Reader.peek, here.ahead]
  cases tokens with
  | nil => exact here.finish
  | cons token rest => rfl

theorem peek {token : Token} (here : Before context (token :: tokens) reader) :
    reader.peek = token := by
  rw [Reader.peek, here.ahead, List.headD_cons]

theorem next {token : Token} (here : Before context (token :: tokens) reader) :
    Before context tokens reader.next := by
  refine ⟨here.toAt.next, ?_⟩
  rw [Reader.next, here.ahead]

theorem exists_round {after : Context} {stop : Reader} {rest rounds : List Token}
    (here : Before context (tokens ++ rest) reader) (nonempty : tokens ≠ [])
    (there : Before after rest stop) (enough : reader.ahead.length ≤ rounds.length) :
    ∃ round more, rounds = round :: more ∧ stop.ahead.length ≤ more.length := by
  have taken := List.length_pos_of_ne_nil nonempty
  rw [here.ahead, List.length_append] at enough
  rw [there.ahead]
  cases rounds with
  | nil =>
    rw [List.length_nil] at enough
    omega
  | cons round more =>
    rw [List.length_cons] at enough
    exact ⟨round, more, rfl, by omega⟩

end Before

def Consumes {α : Type} (parse : Parse α) (context after : Context) (tokens : List Token)
    (follow : TokenKind → Prop) (good : α → Prop) : Prop :=
  ∀ ⦃reader : Reader⦄ ⦃rest : List Token⦄, Before context (tokens ++ rest) reader →
    follow (kindAhead rest) →
    ∃ result stop, parse reader = .ok (result, stop) ∧ Before after rest stop ∧ good result

/-- The parser reads these tokens as the node. -/
def ReadsBack (parse : Parse Node) (context : Context) (tokens : List Token)
    (follow : TokenKind → Prop) (node : Node) : Prop :=
  Consumes parse context context tokens follow fun made => made.Same node

theorem ReadsBack.weaken {parse : Parse Node} {context : Context} {tokens : List Token}
    {follow stronger : TokenKind → Prop} {node : Node}
    (reads : ReadsBack parse context tokens follow node)
    (implies : ∀ kind, stronger kind → follow kind) :
    ReadsBack parse context tokens stronger node :=
  fun _ _ here ends => reads here (implies _ ends)

/-! ## The ladder -/

def operators : Nat → List (TokenKind × BinaryOp)
  | 1 => [(.and, .and), (.or, .or)]
  | 3 =>
    [(.equalEqual, .equal), (.bangEqual, .notEqual), (.less, .less), (.lessEqual, .lessEqual),
      (.greater, .greater), (.greaterEqual, .greaterEqual)]
  | 4 => [(.plus, .add), (.minus, .subtract)]
  | 5 => [(.star, .multiply), (.slash, .divide)]
  | 6 => [(.caret, .power)]
  | _ => []

def ladder (inner : Parse Node) : Nat → Parse Node
  | 0 | 1 => expression inner
  | 2 => denial inner
  | 3 => comparison inner
  | 4 => sum inner
  | 5 => product inner
  | 6 => power inner
  | 7 => negation inner
  | _ => atom inner

def Infix (level : Nat) : Prop := level ∈ [1, 3, 4, 5, 6]

instance (level : Nat) : Decidable (Infix level) := inferInstanceAs (Decidable (level ∈ _))

theorem level_cases {level : Nat} (below : level < 8) (joinsNothing : ¬ Infix level) :
    level = 0 ∨ ∃ operator, prefixLevel operator = level := by
  interval_cases level
  · exact .inl rfl
  all_goals first
    | exact absurd (by decide) joinsNothing
    | exact .inr ⟨.not, rfl⟩
    | exact .inr ⟨.negate, rfl⟩

theorem ladder_joins (inner : Parse Node) {level : Nat} (isInfix : Infix level) :
    ladder inner level = leftAssociative (operators level) (ladder inner (level + 1)) := by
  simp only [Infix, List.mem_cons, List.not_mem_nil, or_false] at isInfix
  rcases isInfix with rfl | rfl | rfl | rfl | rfl <;> rfl

theorem ladder_signs (inner : Parse Node) (operator : UnaryOp) (reader : Reader) :
    ladder inner (prefixLevel operator) reader =
      prefixed (prefixKind operator) operator (ladder inner (prefixLevel operator + 1))
        reader.ahead reader := by
  cases operator <;> rfl

theorem infixLevel_infix (operator : BinaryOp) : Infix (infixLevel operator) := by
  cases operator <;> decide

theorem infixLevel_lt (operator : BinaryOp) : infixLevel operator < 8 := by
  cases operator <;> decide

theorem level_le (form : Form) : level form ≤ 8 := by
  unfold level
  split
  · exact Nat.zero_le 8
  · exact Nat.zero_le 8
  · rename_i left operator right
    cases operator <;> decide
  · rename_i operator operand
    cases operator <;> decide
  · exact Nat.le_refl 8

theorem lookup_infixKind (operator : BinaryOp) :
    (operators (infixLevel operator)).lookup (infixKind operator) = some operator := by
  cases operator <;> rfl

def Unjoined (position : Nat) (kind : TokenKind) : Prop :=
  ∀ level, position ≤ level → (operators level).lookup kind = none

def Unsigned (kind : TokenKind) : Prop := ∀ operator, kind ≠ prefixKind operator

/-- Nothing that makes a call, an index or an assignment of a name before it. -/
def Unapplied (kind : TokenKind) : Prop :=
  kind ≠ .leftParen ∧ kind ≠ .leftBracket ∧ assignOp? kind = none

def Ends (position : Nat) (kind : TokenKind) : Prop := Unjoined position kind ∧ Unapplied kind

theorem Unjoined.tighter {position tighter : Nat} {kind : TokenKind}
    (unjoined : Unjoined position kind) (above : position ≤ tighter) : Unjoined tighter kind :=
  fun level reached => unjoined level (Nat.le_trans above reached)

theorem Ends.tighter {position tighter : Nat} {kind : TokenKind} (ends : Ends position kind)
    (above : position ≤ tighter) : Ends tighter kind := ⟨ends.1.tighter above, ends.2⟩

theorem infixKind_ends (operator : BinaryOp) :
    Ends (infixLevel operator + 1) (infixKind operator) := by
  constructor
  · intro level above
    have bounded : level ≤ 6 ∨ operators level = [] := by
      by_cases small : level ≤ 6
      · exact .inl small
      · right
        unfold operators
        split <;> first | rfl | omega
    rcases bounded with small | none
    · interval_cases level <;> cases operator <;> revert above <;> decide
    · rw [none]
      rfl
  · cases operator <;> exact ⟨by decide, by decide, rfl⟩

def Closing (kind : TokenKind) : Prop :=
  kind ∈ [TokenKind.rightParen, .rightBracket, .comma, .semicolon, .leftBrace]

theorem Closing.ends {kind : TokenKind} (closing : Closing kind) : Ends 0 kind := by
  simp only [Closing, List.mem_cons, List.not_mem_nil, or_false] at closing
  have unjoined : Unjoined 0 kind := by
    intro level _
    unfold operators
    rcases closing with rfl | rfl | rfl | rfl | rfl <;> split <;> rfl
  rcases closing with rfl | rfl | rfl | rfl | rfl <;>
    exact ⟨unjoined, TokenKind.noConfusion, TokenKind.noConfusion, rfl⟩

/-! ## Climbing -/

section

variable {inner : Parse Node} {context : Context} {tokens : List Token} {node : Node}
  {follow : TokenKind → Prop} {reader stop : Reader}

theorem operatorChain_stops {operators : List (TokenKind × BinaryOp)} {operand : Parse Node}
    (none : operators.lookup reader.peek.kind = none) (rounds : List Token) (left : Node) :
    operatorChain operators operand rounds left reader = .ok (left, reader) := by
  cases rounds with
  | nil => rfl
  | cons token rounds =>
    have found : binaryOperator operators reader = .ok (Option.none, reader) := by
      rw [binaryOperator, bind_peek, none]
      rfl
    rw [operatorChain, bind_of_ok found]
    rfl

theorem prefixed_absent {kind : TokenKind} (absent : reader.peek.kind ≠ kind) (operator : UnaryOp)
    (operand : Parse Node) (rounds : List Token) :
    prefixed kind operator operand rounds reader = operand reader := by
  cases rounds with
  | nil => rfl
  | cons round rounds =>
    rw [prefixed, bind_check, decide_eq_false absent]
    rfl

theorem ladder_climbs_one {level : Nat} (below : level < 8)
    (unsigned : ∀ operator, prefixLevel operator = level → reader.peek.kind ≠ prefixKind operator)
    (ends : (operators level).lookup stop.peek.kind = none)
    (run : ladder inner (level + 1) reader = .ok (node, stop)) :
    ladder inner level reader = .ok (node, stop) := by
  by_cases isInfix : Infix level
  · rw [ladder_joins inner isInfix, leftAssociative, bind_of_ok run, bind_remaining]
    exact operatorChain_stops ends _ _
  · rcases level_cases below isInfix with rfl | ⟨operator, rfl⟩
    · exact run
    · rw [ladder_signs, prefixed_absent (unsigned operator rfl)]
      exact run

/-- What is read at a level is read at every looser one, if no operator in between
stands before or behind. -/
theorem ladder_climbs {position level : Nat} (below : position ≤ level) (top : level ≤ 8)
    (unsigned : ∀ operator, position ≤ prefixLevel operator → prefixLevel operator < level →
      reader.peek.kind ≠ prefixKind operator)
    (ends : Unjoined position stop.peek.kind)
    (run : ladder inner level reader = .ok (node, stop)) :
    ladder inner position reader = .ok (node, stop) := by
  induction below using Nat.decreasingInduction with
  | self => exact run
  | of_succ position less ih =>
    have above := ih (fun operator reached => unsigned operator (Nat.le_of_succ_le reached))
      (ends.tighter (Nat.le_succ position))
    refine ladder_climbs_one (Nat.lt_of_lt_of_le less top) ?_ (ends position (Nat.le_refl _)) above
    intro operator same
    exact unsigned operator (Nat.le_of_eq same.symm) (same ▸ less)

theorem Unsigned.climbs {position level : Nat} (unsigned : Unsigned reader.peek.kind)
    (looser : position ≤ level) (below : level ≤ 8) (ends : Unjoined position stop.peek.kind)
    (run : ladder inner level reader = .ok (node, stop)) :
    ladder inner position reader = .ok (node, stop) :=
  ladder_climbs looser below (fun operator _ _ => unsigned operator) ends run

/-- What is read at a level began with something of every tighter one. -/
theorem ladder_begins {position level : Nat} (looser : position ≤ level) (below : level ≤ 8)
    (unsigned : Unsigned reader.peek.kind)
    (run : ladder inner position reader = .ok (node, stop)) :
    ∃ first between, ladder inner level reader = .ok (first, between) := by
  induction level, looser using Nat.le_induction with
  | base => exact ⟨node, stop, run⟩
  | succ level _ ih =>
    obtain ⟨first, between, firstRun⟩ := ih (Nat.le_of_succ_le below)
    by_cases isInfix : Infix level
    · rw [ladder_joins inner isInfix] at firstRun
      obtain ⟨tighter, after, tighterRun, -⟩ := bind_ok firstRun
      exact ⟨tighter, after, tighterRun⟩
    · rcases level_cases below isInfix with rfl | ⟨operator, rfl⟩
      · exact ⟨first, between, firstRun⟩
      · rw [ladder_signs, prefixed_absent (unsigned operator)] at firstRun
        exact ⟨first, between, firstRun⟩

theorem ladder_reads {level : Nat} (position : Nat) (below : position ≤ level) (top : level ≤ 8)
    (unsigned : ∀ operator, position ≤ prefixLevel operator → prefixLevel operator < level →
      ∀ rest, kindAhead (tokens ++ rest) ≠ prefixKind operator)
    (reads : ReadsBack (ladder inner level) context tokens follow node) :
    ReadsBack (ladder inner position) context tokens
      (fun kind => follow kind ∧ Unjoined position kind) node := by
  intro reader rest here ends
  obtain ⟨made, stop, run, there, same⟩ := reads here ends.1
  refine ⟨made, stop, ladder_climbs below top ?_ ?_ run, there, same⟩
  · intro operator reached less
    rw [here.kind]
    exact unsigned operator reached less rest
  · rw [there.kind]
    exact ends.2

/-! ## Operators -/

theorem binaryNode_run {left right : Node} {operator : BinaryOp} {ty : Ty} {reader : Reader}
    (applies : operator.result? left.ty right.ty = some ty) (span : Span) :
    binaryNode left operator span right reader =
      .ok (⟨.binary left operator right, ty, left.span.through right.span⟩, reader) := by
  rw [binaryNode, applies]
  rfl

theorem unaryNode_run {operand : Node} {operator : UnaryOp} {ty : Ty} {reader : Reader}
    (applies : operator.result? operand.ty = some ty) (span : Span) :
    unaryNode operator span operand reader =
      .ok (⟨.unary operator operand, ty, span.through operand.span⟩, reader) := by
  rw [unaryNode, applies]
  rfl

/-- Once these tokens are read as an operand of a level, the operators of that level
are still to come, with rounds enough for them. -/
def Spine (inner : Parse Node) (context : Context) (level : Nat) (tokens : List Token)
    (node : Node) : Prop :=
  ∀ ⦃reader : Reader⦄ ⦃rest : List Token⦄, Before context (tokens ++ rest) reader →
    Ends (level + 1) (kindAhead rest) →
    ∃ made rounds stop, ladder inner level reader =
        operatorChain (operators level) (ladder inner (level + 1)) rounds made stop ∧
      rest.length ≤ rounds.length ∧ Before context rest stop ∧ made.Same node

theorem ReadsBack.spine {level : Nat} (isInfix : Infix level)
    (reads : ReadsBack (ladder inner (level + 1)) context tokens (Ends (level + 1)) node) :
    Spine inner context level tokens node := by
  intro reader rest here ends
  obtain ⟨made, stop, run, there, same⟩ := reads here ends
  refine ⟨made, rest, stop, ?_, Nat.le_refl _, there, same⟩
  rw [ladder_joins inner isInfix, leftAssociative, bind_of_ok run, bind_remaining, there.ahead]

theorem Spine.reads {level : Nat} (spine : Spine inner context level tokens node) :
    ReadsBack (ladder inner level) context tokens (Ends level) node := by
  intro reader rest here ends
  obtain ⟨made, rounds, stop, run, -, there, same⟩ := spine here (ends.tighter (Nat.le_succ _))
  refine ⟨made, stop, ?_, there, same⟩
  rw [run]
  apply operatorChain_stops
  rw [there.kind]
  exact ends.1 level (Nat.le_refl _)

theorem Spine.join {left right : Node} {operator : BinaryOp} {ty : Ty} {span : Span}
    {lefts rights : List Token} {sign : Token} (signed : sign.kind = infixKind operator)
    (applies : operator.result? left.ty right.ty = some ty)
    (spine : Spine inner context (infixLevel operator) lefts left)
    (reads : ReadsBack (ladder inner (infixLevel operator + 1)) context rights
      (Ends (infixLevel operator + 1)) right) :
    Spine inner context (infixLevel operator) (lefts ++ sign :: rights)
      ⟨.binary left operator right, ty, span⟩ := by
  intro reader rest here ends
  rw [List.append_assoc] at here
  have signEnds : Ends (infixLevel operator + 1) (kindAhead (sign :: rights ++ rest)) := by
    show Ends _ sign.kind
    rw [signed]
    exact infixKind_ends operator
  obtain ⟨first, rounds, between, run, enough, between_at, sameLeft⟩ := spine here signEnds
  cases rounds with
  | nil => simp at enough
  | cons token rounds =>
    have found : binaryOperator (operators (infixLevel operator)) between =
        .ok (some (operator, sign.span), between.next) := by
      rw [binaryOperator, bind_peek, between_at.peek, signed, lookup_infixKind]
      rfl
    obtain ⟨second, stop, secondRun, stop_at, sameRight⟩ := reads between_at.next ends
    rw [← sameLeft.ty, ← sameRight.ty] at applies
    refine ⟨⟨.binary first operator second, ty, first.span.through second.span⟩, rounds, stop,
      ?_, ?_, stop_at, ?_⟩
    · rw [run, operatorChain, bind_of_ok found]
      simp only
      rw [bind_of_ok secondRun, bind_of_ok (binaryNode_run applies _)]
    · simp only [List.cons_append, List.length_cons, List.length_append] at enough
      omega
    · unfold Typed.Same at sameLeft sameRight ⊢
      simp only [nodeWithoutSpans, Form.withoutSpans, sameLeft, sameRight]

theorem prefixed_sign_reads {operand : Node} {operator : UnaryOp} {ty : Ty} {span : Span}
    {sign : Token} (signed : sign.kind = prefixKind operator)
    (applies : operator.result? operand.ty = some ty)
    (reads : ReadsBack (ladder inner (prefixLevel operator)) context tokens follow operand) :
    ReadsBack (ladder inner (prefixLevel operator)) context (sign :: tokens) follow
      ⟨.unary operator operand, ty, span⟩ := by
  intro reader rest here ends
  have there : Before context (tokens ++ rest) reader.next := here.next
  obtain ⟨made, stop, run, stop_at, same⟩ := reads there ends
  rw [← same.ty] at applies
  refine ⟨⟨.unary operator made, ty, reader.peek.span.through made.span⟩, stop, ?_, stop_at, ?_⟩
  · rw [ladder_signs, there.ahead] at run
    have signHere : reader.peek.kind = prefixKind operator := here.kind.trans signed
    rw [ladder_signs, here.ahead, List.cons_append, prefixed, bind_check,
      decide_eq_true signHere, if_pos rfl, bind_advance, bind_of_ok run]
    exact unaryNode_run applies _
  · unfold Typed.Same at same ⊢
    simp only [nodeWithoutSpans, Form.withoutSpans, same]

theorem grouped_reads (reads : ReadsBack inner context tokens (Ends 0) node) :
    ReadsBack (atom inner) context (Rendering.grouped tokens) (fun _ => True) node := by
  intro reader rest here _
  simp only [Rendering.grouped, List.cons_append, List.append_assoc] at here
  have opens : reader.peek.kind = .leftParen := here.kind
  have closing : Closing (kindAhead ([mark .rightParen] ++ rest)) := List.mem_cons_self
  obtain ⟨made, stop, run, there, same⟩ := reads here.next closing.ends
  have closes : stop.peek.kind = .rightParen := there.kind
  refine ⟨{ made with span := reader.peek.span.through stop.peek.span }, stop.next, ?_,
    there.next, same.widened _⟩
  rw [atom, bind_peek, opens]
  simp only [Grammar.grouped]
  rw [bind_advance, bind_of_ok run, bind_expect, if_pos closes]
  rfl

end

end RobotScript.Grammar
