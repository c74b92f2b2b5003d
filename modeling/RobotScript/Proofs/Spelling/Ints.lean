import RobotScript.Proofs.Computing.Ints
import RobotScript.Proofs.Expanding.Statements
import RobotScript.Proofs.Joining.Entries
import RobotScript.Proofs.Spelling.Scanning

/-! # Ints are spelled by their texts

What an int is printed as is a script, once a semicolon stands behind it, and so is what a
list of ints is printed as: it is read as the tree that spells the value, and running it gives
the value back. The one exception is the least int. -/
set_option autoImplicit false

namespace RobotScript

open Rendering Typing
open Grammar (Readables topLevel expression_statementReadable)

variable {Host : Type}

/-! ## Reading -/

namespace Grammar

theorem parse_listed {style : Style} {context : Context} {nodes : List Node}
    (readable : Readables style topLevel context nodes) :
    ∃ root, parse (listed style nodes ++ [token .eof ""]) context =
        .ok (root, context.afterAll nodes) ∧ Sames root.statements nodes := by
  let whole : Node := ⟨.block nodes, .void, default⟩
  let start := Reader.ofTokens (Rendering.script style whole) context
  have here : Before context (listed style nodes) start := ofTokens_script style whole context
  have short : (listed style nodes).length < enoughDepth start.ahead.length := by
    rw [here.ahead]
    exact Nat.lt_succ_self _
  obtain ⟨made, stop, run, stopAt, same⟩ :=
    topStatements_reads readable short here (Nat.le_refl _)
  have starts : Reader.ofTokens (Rendering.script style whole) context = start := rfl
  obtain ⟨root, parsed, statements⟩ := parse_of_statements starts run
  exact ⟨root, stopAt.context ▸ parsed, statements ▸ same⟩

end Grammar

theorem HasTokens.parseText_listed {style : Style} {context : Context} {nodes : List Node}
    {source : String} (has : HasTokens source (listed style nodes))
    (readable : Readables style topLevel context nodes) :
    ∃ root, parseText source context = .ok (root, context.afterAll nodes) ∧
      Sames root.statements nodes := by
  obtain ⟨written, parsed, sames⟩ := Grammar.parse_listed readable
  obtain ⟨root, read, same⟩ := has.text_of_parse parsed
  exact ⟨root, read, .of_withoutSpans (same.withoutSpans.trans sames.withoutSpans)⟩

/-! ## Trees -/

theorem spelledInt_ty (number : Int64) : (spelledInt number).ty = .int := by
  rw [spelledInt]
  split <;> rfl

theorem spelledInt_typed (context : Context) (number : Int64) :
    Expression context (spelledInt number) := by
  have literal (number : Int64) : Expression context ⟨.literal (.int number), .int, default⟩ :=
    .literal (plain_scalar Primitive.noConfusion)
  rw [spelledInt]
  split
  · exact .unary (literal (-number)) rfl
  · exact literal number

theorem spelledList_typed (context : Context) {numbers : List Int64} (nonempty : numbers ≠ []) :
    Expression context (spelledList numbers) := by
  have isInt : ∀ element ∈ numbers.map spelledInt, element.ty = Ty.int := by
    intro element member
    obtain ⟨number, -, rfl⟩ := List.mem_map.mp member
    exact spelledInt_ty number
  have common : Common (numbers.map spelledInt) .int := .inl isInt
  refine .list (mt List.map_eq_nil_iff.mp nonempty) ?_ ?_ common
  · intro element member
    obtain ⟨number, -, rfl⟩ := List.mem_map.mp member
    exact spelledInt_typed context number
  · intro element member
    rw [isInt element member]
    exact plain_scalar Primitive.noConfusion

theorem spelledInt_writable (style : Style) {number : Int64} (bounded : number ≠ Int64.minValue) :
    Grammar.Writable style (spelledInt number) := by
  intro value literal
  rw [spelledInt] at literal
  split at literal
  next negative =>
    obtain rfl := List.mem_singleton.mp literal
    exact opposite_natural negative bounded
  next natural =>
    obtain rfl := List.mem_singleton.mp literal
    exact Int64.not_lt.mp natural

theorem spelledList_writable (style : Style) {numbers : List Int64}
    (bounded : Int64.minValue ∉ numbers) : Grammar.Writable style (spelledList numbers) := by
  intro value literal
  change value ∈ nodesLiterals (numbers.map spelledInt) at literal
  induction numbers with
  | nil => cases literal
  | cons first others ih =>
    obtain ⟨differs, absent⟩ := not_or.mp (mt List.mem_cons.mpr bounded)
    rcases List.mem_append.mp literal with here | behind
    · exact spelledInt_writable style (Ne.symm differs) value here
    · exact ih absent behind

/-! ## Running -/

namespace Evaluation

variable {setup : Setup Host} {scope : ScopeId} {fuel : Nat} {machine : Machine Host}

theorem evaluate_spelledInt (setup : Setup Host) (fuel : Nat) {number : Int64}
    (bounded : number ≠ Int64.minValue) (scope : ScopeId) (machine : Machine Host) :
    evaluate setup (fuel + 2) (spelledInt number) scope machine =
      some (.ok (.int number), machine) := by
  rw [spelledInt]
  split
  next negative =>
    have opposite : -(-number).toInt = number.toInt := by
      rw [toInt_opposite bounded, Int.neg_neg]
    have isLiteral : evaluate setup (fuel + 1) ⟨.literal (.int (-number)), .int, default⟩ scope
        machine = some (.ok (.int (-number)), machine) := rfl
    have negated : UnaryOp.negate.apply (.int (-number)) = .ok (.int number) := by
      rw [UnaryOp.apply, opposite, Decimal.exactInt?_toInt]
    rw [evaluate, form]
    simp only
    rw [Run.bind_of_ok isLiteral, negated]
    rfl
  next => rfl

theorem values_spelled {numbers : List Int64} (bounded : Int64.minValue ∉ numbers) :
    values (evaluate setup (fuel + 2)) scope (numbers.map spelledInt) machine =
      some (.ok (numbers.map .int), machine) := by
  induction numbers with
  | nil => rfl
  | cons first others ih =>
    obtain ⟨differs, absent⟩ := not_or.mp (mt List.mem_cons.mpr bounded)
    rw [List.map_cons, values,
      Run.bind_of_ok (evaluate_spelledInt setup fuel (Ne.symm differs) scope machine),
      Run.bind_of_ok (ih absent)]
    rfl

theorem evaluate_spelledList (setup : Setup Host) (fuel : Nat) {numbers : List Int64}
    (bounded : Int64.minValue ∉ numbers) (scope : ScopeId) (machine : Machine Host) :
    evaluate setup (fuel + 3) (spelledList numbers) scope machine =
      some (.ok (.list .int (numbers.map .int)), machine) := by
  have kept : (numbers.map Value.int).map (Value.widenTo Ty.int) = numbers.map Value.int := by
    rw [List.map_map]
    rfl
  rw [evaluate, form, spelledList]
  simp only
  rw [Run.bind_of_ok (values_spelled bounded)]
  show some (Except.ok (Value.list .int ((numbers.map Value.int).map (Value.widenTo Ty.int))), machine)
    = _
  rw [kept]

end Evaluation

def Setup.Starts (setup : Setup Host) (host : Host) : Prop :=
  setup.limits.maxSteps ≠ some 0 ∧
    ∀ watch, setup.watch = some watch → (watch 1 host).1 = true

namespace Evaluation

variable {setup : Setup Host} {host : Host}

theorem tick_first (starts : setup.Starts host) (span : Span) (store : Store) :
    ∃ after, tick setup span (.ready store host) = some (.ok (), after) := by
  obtain ⟨limited, watched⟩ := starts
  have consulted : ∃ after, tick.consult setup span 1 (Machine.ready store host).counted =
      some (.ok (), after) := by
    rw [tick.consult]
    cases isWatch : setup.watch with
    | none => exact ⟨_, rfl⟩
    | some watch =>
      have asked : Run.onHost (watch 1) (Machine.ready store host).counted =
          some (.ok true, { (Machine.ready store host).counted with host := (watch 1 host).2 }) := by
        rw [← watched watch isWatch]
        rfl
      exact ⟨_, Run.bind_of_ok asked⟩
  have counted : Run.countStep (Machine.ready store host) =
      some (.ok 1, (Machine.ready store host).counted) := rfl
  rw [tick, Run.bind_of_ok counted]
  cases isLimit : setup.limits.maxSteps with
  | none => exact consulted
  | some limit =>
    have within : ¬ limit < 1 := by
      intro below
      obtain rfl : limit = 0 := by omega
      exact limited isLimit
    simp only [if_neg within]
    exact consulted

theorem runFresh_single {fuel : Nat} {root node : Node} {value : Value}
    (starts : setup.Starts host) (same : Sames root.statements [node])
    (gives : ∀ machine, evaluate setup fuel node 0 machine = some (.ok value, machine)) :
    ∃ machine, runFresh setup fuel root host = some (.ok value, machine) := by
  obtain ⟨after, ticked⟩ := tick_first starts node.span Store.withRoot
  have ran : topStatements setup (evaluate setup fuel) 0 .void [node] (.ready Store.withRoot host) =
      some (.ok value, after) := by
    rw [topStatements, topStatement, Run.bind_of_ok ticked, gives after]
    rfl
  obtain ⟨machine, run, -⟩ := topStatements_sames same ran
  exact ⟨machine, run⟩

end Evaluation

/-! ## Spelling values -/

def Yields (setup : Setup Host) (host : Host) (source : String) (value : Value) : Prop :=
  ∃ root, compile setup.natives source = .ok root ∧
    ∀ fuel, 3 ≤ fuel → ∃ machine, runFresh setup fuel root host = some (.ok value, machine)

/-- Doubles are written as they are printed. -/
def asPrinted : Style := ⟨Decimal.doubleText, fun _ => true⟩

section

variable {setup : Setup Host} {host : Host} {source : String} {node : Node} {value : Value}

theorem yields_of_tokens (starts : setup.Starts host)
    (has : HasTokens source (written asPrinted node.form ++ [mark .semicolon]))
    (typed : Expression setup.natives.context node) (writable : Grammar.Writable asPrinted node)
    (gives : ∀ fuel machine,
      Evaluation.evaluate setup (fuel + 3) node 0 machine = some (.ok value, machine)) :
    Yields setup host source value := by
  have tokens : listed asPrinted [node] = written asPrinted node.form ++ [mark .semicolon] := by
    rw [listed, listed, List.append_nil, Grammar.statement_eq,
      Grammar.ending_plain asPrinted (Grammar.endsInBlock_expression typed)]
  have readable : Readables asPrinted topLevel setup.natives.context [node] :=
    .cons (expression_statementReadable typed writable) .nil
  obtain ⟨root, parsed, same⟩ := HasTokens.parseText_listed (tokens ▸ has) readable
  refine ⟨root, ?_, fun fuel enough => ?_⟩
  · rw [compile, parsed]
  · obtain ⟨more, rfl⟩ := Nat.exists_eq_add_of_le' enough
    exact Evaluation.runFresh_single starts same (gives more)

theorem compile_stuck (natives : NativeTable Host) {cause : LexicalCause}
    (stuck : Stuck cause source.toList) :
    ∃ span, compile natives source = .error ⟨.lexical cause, span⟩ := by
  obtain ⟨span, refused⟩ := stuck Position.start
  exact ⟨span, by rw [compile, parseText, scan, refused]⟩

end

/-- For every int but the least, and for every list of such ints with at least one, what it is
printed as, with a semicolon behind it, is a script that gives it back; the least int, and a
list with it, is refused for its digits. -/
theorem ints_spelled (setup : Setup Host) (host : Host) (starts : setup.Starts host) :
    (∀ number : Int64, number ≠ Int64.minValue →
      Yields setup host ((Value.int number).text ++ ";") (.int number)) ∧
    (∀ numbers : List Int64, numbers ≠ [] → Int64.minValue ∉ numbers →
      Yields setup host ((Value.list .int (numbers.map .int)).text ++ ";")
        (.list .int (numbers.map .int))) ∧
    (∃ span, compile setup.natives ((Value.int Int64.minValue).text ++ ";") =
      .error ⟨.lexical beyond, span⟩) ∧
    ∀ numbers : List Int64, Int64.minValue ∈ numbers →
      ∃ span, compile setup.natives ((Value.list .int (numbers.map .int)).text ++ ";") =
        .error ⟨.lexical beyond, span⟩ := by
  refine ⟨fun number bounded => ?_, fun numbers nonempty bounded => ?_,
    compile_stuck _ least_stuck, fun numbers member => compile_stuck _ (list_stuck member)⟩
  · exact yields_of_tokens starts (int_scans asPrinted bounded) (spelledInt_typed _ number)
      (spelledInt_writable asPrinted bounded)
      fun fuel => Evaluation.evaluate_spelledInt setup (fuel + 1) bounded 0
  · exact yields_of_tokens starts (list_scans asPrinted nonempty bounded)
      (spelledList_typed _ nonempty) (spelledList_writable asPrinted bounded)
      fun fuel => Evaluation.evaluate_spelledList setup fuel bounded 0

def unaided : Setup Unit := ⟨.empty, .standard, none⟩

theorem edges_spelled :
    unaided.Starts () ∧ Yields unaided () "-9223372036854775807;" (.int (-9223372036854775807)) ∧
      Yields unaided () "[-1, 0, 9223372036854775807];"
        (.list .int [.int (-1), .int 0, .int 9223372036854775807]) := by
  have starts : unaided.Starts () := ⟨by decide, by rintro _ ⟨⟩⟩
  obtain ⟨ints, lists, -⟩ := ints_spelled unaided () starts
  have single : (Value.int (-9223372036854775807)).text ++ ";" = "-9223372036854775807;" := by
    decide +kernel
  have several : (Value.list .int (([-1, 0, 9223372036854775807] : List Int64).map .int)).text ++ ";" =
      "[-1, 0, 9223372036854775807];" := by
    decide +kernel
  refine ⟨starts, ?_, ?_⟩
  · rw [← single]
    exact ints _ (by decide)
  · rw [← several]
    exact lists _ (by decide) (by decide)

/-- The least int is printed like the others, but what is printed is no script. -/
theorem least_unspelled :
    (Value.int Int64.minValue).text ++ ";" = "-9223372036854775808;" ∧
      ¬ Yields unaided () ((Value.int Int64.minValue).text ++ ";") (.int Int64.minValue) := by
  refine ⟨by decide +kernel, ?_⟩
  rintro ⟨root, compiled, -⟩
  obtain ⟨span, refused⟩ := compile_stuck unaided.natives least_stuck
  rw [compiled] at refused
  cases refused

end RobotScript
