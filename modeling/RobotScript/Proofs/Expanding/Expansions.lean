import RobotScript.Proofs.Expanding.Assignments

/-! # The expansion of an assignment

A compound assignment can be written with its variable on both sides. The right side then
denotes the variable joined with what stood there in parentheses, and the one statement is
accepted exactly if the other is. -/
set_option autoImplicit false

namespace RobotScript.Grammar

open Rendering

section

variable {context : Context} {target ty : Ty} {name : String} {operator : BinaryOp}
variable {tokens : List Token} {right node : Node}

/-! ## What the expansion denotes -/

/-- The tokens are read as the node by an atom, and no sign stands first. -/
def Operand (context : Context) (tokens : List Token) (node : Node) : Prop :=
  ∀ ⦃depth : Nat⦄ ⦃reader : Reader⦄ ⦃rest : List Token⦄, Before context (tokens ++ rest) reader →
    (tokens ++ rest).length ≤ depth → Unsigned reader.peek.kind ∧
    ∃ stop, atom (read depth .expression) reader = .ok (node, stop) ∧ Before context rest stop

theorem Denotes.grouped (denotes : Denotes context tokens node) :
    ∃ span, Operand context (Rendering.grouped tokens) { node with span := span } := by
  refine ⟨(mark .leftParen).span.through (mark .rightParen).span, ?_⟩
  intro depth reader rest here enough
  have lays : Rendering.grouped tokens ++ rest =
      mark .leftParen :: (tokens ++ mark .rightParen :: rest) := by
    simp [Rendering.grouped]
  rw [lays] at here enough
  have opens : reader.peek = mark .leftParen := here.peek
  obtain ⟨stop, run, there⟩ := denotes here.next (Nat.le_of_succ_le enough) (.inr rfl)
  have closes : stop.peek = mark .rightParen := there.peek
  constructor
  · exact unsigned_paren (opens ▸ rfl)
  · refine ⟨stop.next, ?_, there.next⟩
    rw [atom_grouped (opens ▸ rfl) run (closes ▸ rfl), opens, closes]

def one : Token := token .int "1"

theorem operand_one (context : Context) :
    Operand context [one] ⟨.literal (.int 1), .int, default⟩ := by
  intro depth reader rest here _
  have isOne : reader.peek = one := here.peek
  rw [isOne]
  refine ⟨?_, reader.next, ?_, here.next⟩
  · intro operator
    cases operator <;> decide
  · have number : Decimal.int? "1" = some 1 := by decide +kernel
    rw [atom, bind_peek, isOne]
    simp only [one, token, number]
    rw [literal_run, isOne]
    rfl

theorem infixKind_unapplied (operator : BinaryOp) : Unapplied (infixKind operator) :=
  (infixKind_ends operator).2

theorem denotes_expansion (operand : Operand context tokens right)
    (declared : context.variableType? name = some target)
    (applies : operator.result? target right.ty = some ty) :
    ∃ place span, Denotes context (expansionTokens name operator tokens)
      ⟨.binary ⟨.variable name, target, place⟩ operator right, ty, span⟩ := by
  let place := (identifier name).span
  refine ⟨place, place.through right.span, ?_⟩
  intro depth reader rest here enough shut
  have first := here
  rw [expansionTokens, List.cons_append] at first
  have name_at : reader.peek = identifier name := first.peek
  have sign_at : reader.next.peek = token (infixKind operator) operator.symbol := first.next.peek
  cases depth with
  | zero => cases enough
  | succ depth =>
    have firstRun : atom (read depth .expression) reader = _ :=
      atom_name first (infixKind_unapplied operator) declared
    rw [name_at] at firstRun
    have short : (tokens ++ rest).length ≤ depth := by
      simp only [expansionTokens, List.cons_append, List.length_cons] at enough
      omega
    obtain ⟨unsignedBehind, stop, secondRun, behind⟩ := operand first.next.next short
    have ends : Unjoined 0 stop.peek.kind := by
      rw [behind.kind]
      exact shut.unjoined
    exact ⟨stop, ladder_binary first.next.toAt (unsigned_name first) (sign_at ▸ rfl)
      unsignedBehind firstRun secondRun applies ends, behind⟩

/-! ## What is read of an expansion -/

/-- The first parenthesis that closes none of these tokens is the one behind them. -/
theorem taken_of_contained {taken rest : List Token} {finish : Token}
    (contained : Contained tokens) (stretch : Stretch 0 taken) (ends : finish.kind = .eof)
    (split : tokens ++ [mark .rightParen, mark .semicolon] = taken ++ rest)
    (closes : (rest.headD finish).kind = .rightParen) : taken = tokens := by
  rcases List.append_eq_append_iff.mp split with ⟨more, rfl, within⟩ | ⟨more, rfl, rfl⟩
  · cases more with
    | nil => rw [List.append_nil]
    | cons token more =>
      obtain ⟨-, within⟩ := List.cons.inj within
      cases more with
      | nil =>
        have isRest : rest = [mark .semicolon] := within.symm
        rw [isRest] at closes
        cases closes
      | cons token more =>
        obtain ⟨-, nothing⟩ := List.cons.inj within
        obtain ⟨-, rfl⟩ := List.append_eq_nil_iff.mp nothing.symm
        rw [List.headD_nil, ends] at closes
        cases closes
  · cases more with
    | nil => rw [List.append_nil]
    | cons token more =>
      -- the parenthesis would close one that was opened before the tokens
      have above := contained.shut (taken ++ [token]) more (by simp)
      rw [excess_append, stretch.leads, excess_cons, show token.kind = .rightParen from closes]
        at above
      exact absurd above (by decide)

theorem operand_of_denotes (contained : Contained tokens)
    (denotes : Denotes context (expansionTokens name operator (Rendering.grouped tokens)) node) :
    ∃ target right ty, context.variableType? name = some target ∧
      Denotes context tokens right ∧ operator.result? target right.ty = some ty := by
  obtain ⟨reader, limit, stop, here, run, -⟩ := denotes.run
  have lays : expansionTokens name operator (Rendering.grouped tokens) ++ [mark .semicolon] =
      identifier name :: token (infixKind operator) operator.symbol :: mark .leftParen ::
        (tokens ++ [mark .rightParen, mark .semicolon]) := by
    simp [expansionTokens, Rendering.grouped]
  rw [lays] at here
  have unsigned := unsigned_name here
  have signed : reader.next.peek.kind = infixKind operator := by rw [here.next.peek]; rfl
  have opens : reader.next.next.peek.kind = .leftParen := here.next.next.kind
  have unsignedBehind := unsigned_paren opens
  have tighter := infixLevel_lt operator
  obtain ⟨_, _, nameRun⟩ := ladder_begins (Nat.zero_le 8) (Nat.le_refl 8) unsigned run
  obtain ⟨target, declared⟩ := known_of_atom here (infixKind_unapplied operator) nameRun
  have first : atom (read limit .expression) reader = _ :=
    atom_name here (infixKind_unapplied operator) declared
  obtain ⟨right, last, ty, rightRun, applies⟩ :=
    ladder_operands here.next.toAt unsigned signed first run
  obtain ⟨_, _, atomRun⟩ := ladder_begins tighter (Nat.le_refl 8) unsignedBehind rightRun
  obtain ⟨value, between, valueRun, closes⟩ := within_grouped opens atomRun
  obtain ⟨taken, ahead, there, stretch, valueDenotes, -⟩ :=
    denotes_of_read here.next.next.next.toAt valueRun
  rw [here.next.next.next.ahead] at ahead
  obtain rfl := taken_of_contained contained stretch there.finish ahead closes
  -- so the parentheses are the whole operand, and the operator applies to the value in them
  have semicolon_at : between.next.peek.kind = .semicolon := by
    have closing : Before context [mark .rightParen, mark .semicolon] between :=
      ⟨there, (List.append_cancel_left ahead).symm⟩
    exact closing.next.kind
  have ends : Unjoined 0 between.next.peek.kind := Shut.unjoined (.inl semicolon_at)
  have whole := unsignedBehind.climbs tighter (Nat.le_refl 8)
    (ends.tighter (Nat.zero_le _)) (atom_grouped opens valueRun closes)
  obtain ⟨rfl, rfl⟩ := Prod.mk.inj (Except.ok.inj (rightRun.symm.trans whole))
  exact ⟨target, value, ty, declared, valueDenotes, applies⟩

/-! ## The two statements -/

theorem Assignable.isSome {given : Option Node}
    (assignable : Assignable context target (.compound operator) tokens given) :
    ∃ right, given = some right := by
  cases assignable with
  | compound => exact ⟨_, rfl⟩
  | counting counting => cases counting

/-- What a compound assignment gives its variable, its expansion can give it too. -/
theorem Assignable.expanded (declared : context.variableType? name = some target)
    (assignable : Assignable context target (.compound operator) tokens (some right)) :
    ∃ place inside ty span,
      Assignable context target .set (expansionTokens name operator (Rendering.grouped tokens))
        (some ⟨.binary ⟨.variable name, target, place⟩ operator { right with span := inside }, ty,
          span⟩) := by
  cases assignable with
  | compound denotes combined =>
    obtain ⟨inside, operand⟩ := denotes.grouped
    rw [combines] at combined
    cases applies : operator.result? target right.ty with
    | none =>
      rw [applies] at combined
      cases combined
    | some ty =>
      rw [applies] at combined
      obtain ⟨place, span, whole⟩ := denotes_expansion operand declared applies
      exact ⟨place, inside, ty, span, .set whole combined⟩

theorem Assignable.contracted {given : Option Node} (contained : Contained tokens)
    (declared : context.variableType? name = some target)
    (assignable : Assignable context target .set
      (expansionTokens name operator (Rendering.grouped tokens)) given) :
    ∃ right, Assignable context target (.compound operator) tokens (some right) := by
  cases assignable with
  | set whole accepted =>
    obtain ⟨known, right, ty, knows, denotes, applies⟩ := operand_of_denotes contained whole
    obtain rfl := Option.some.inj (declared.symm.trans knows)
    obtain ⟨inside, operand⟩ := denotes.grouped
    obtain ⟨place, span, again⟩ := denotes_expansion operand declared applies
    obtain rfl := whole.unique again
    refine ⟨right, .compound denotes ?_⟩
    rw [combines, applies]
    exact accepted

theorem assignable_counting {counts : AssignOp} {value : Option Node}
    (counting : Counting counts operator) :
    Assignable context target counts [] value ↔ value = none ∧ target.isNumeric = true := by
  constructor
  · intro assignable
    cases assignable with
    | counting _ numeric => exact ⟨rfl, numeric⟩
    | set => cases counting
    | compound => cases counting
  · rintro ⟨rfl, numeric⟩
    exact .counting counting numeric

theorem assignable_counted {counts : AssignOp} (counting : Counting counts operator)
    (declared : context.variableType? name = some target) (numeric : target.isNumeric = true) :
    ∃ place ty span,
      Assignable context target .set (expansionTokens name operator [one])
        (some ⟨.binary ⟨.variable name, target, place⟩ operator ⟨.literal (.int 1), .int, default⟩,
          ty, span⟩) := by
  have stays : operator.result? target .int = some target ∧ target.accepts target = true := by
    simp only [Ty.isNumeric, Bool.or_eq_true, decide_eq_true_eq] at numeric
    rcases numeric with rfl | rfl <;> cases counting <;> decide
  obtain ⟨place, span, whole⟩ := denotes_expansion (operand_one context) declared stays.1
  exact ⟨place, target, span, .set whole stays.2⟩

end

end RobotScript.Grammar
