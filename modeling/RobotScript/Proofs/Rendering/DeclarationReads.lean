import RobotScript.Proofs.Rendering.BlockReads

/-! # Written declarations and loops read back

Statements that open scopes of their own or add to the one they stand in. -/
set_option autoImplicit false

namespace RobotScript.Grammar

open Rendering Typing

section

variable {style : Style} {place : Place} {context : Context} {depth : Nat}

/-! ## Loops -/

theorem brace_ends {node : Node} (block : IsBlock node) (rest : List Token) :
    Closing (kindAhead (written style node.form ++ rest)) := by
  rw [written_block block]
  exact .tail _ (.tail _ (.tail _ (.tail _ List.mem_cons_self)))

theorem lastBlock_reads {body node : Node} (block : IsBlock body)
    (readable : Readables style place context.push body.statements)
    (short : (written style body.form).length ≤ depth) {reader : Reader} {rest : List Token}
    (here : Before context (written style body.form ++
      ((if style.closes node then [mark .semicolon] else []) ++ rest)) reader)
    (separate : Separate (kindAhead rest)) :
    ∃ made behind stop, Grammar.block (read depth) place reader = .ok (made, behind) ∧
      endBlockStatement behind = .ok ((), stop) ∧ Before context rest stop ∧ made.Same body := by
  obtain ⟨made, behind, run, behind_at, same⟩ := block_reads block readable short here trivial
  obtain ⟨stop, endRun, stop_at⟩ := endBlockStatement_reads behind_at separate
  exact ⟨made, behind, stop, run, endRun, stop_at, same⟩

theorem repeating_readable {count body : Node} {span : Span}
    (readable : Readable style context count) (isInt : count.ty = .int) (block : IsBlock body)
    (rounds : Readables style { place with inLoop := true } context.push body.statements) :
    StatementReadable style place context ⟨.repeating count body, .void, span⟩ := by
  have tokens : Rendering.statement style ⟨.repeating count body, .void, span⟩ =
      mark .repeat :: (written style count.form ++ (written style body.form ++
        if style.closes ⟨.repeating count body, .void, span⟩ then [mark .semicolon] else [])) := by
    rw [statement_eq, ending_block style rfl, written, atPosition_zero, atPosition_zero]
    simp
  refine ⟨⟨_, _, tokens, by decide⟩, ?_⟩
  intro depth enough reader rest here separate
  simp only [tokens, List.length_cons, List.length_append, List.cons_append, List.append_assoc]
    at enough here
  have shortCount : (written style count.form).length < depth := by omega
  have shortBody : (written style body.form).length ≤ depth := by omega
  have opens : reader.peek.kind = .repeat := here.kind
  obtain ⟨madeCount, between, countRun, between_at, sameCount⟩ :=
    readable.nested shortCount here.next (brace_ends block _).ends
  obtain ⟨madeBody, behind, stop, bodyRun, endRun, stop_at, sameBody⟩ :=
    lastBlock_reads block rounds shortBody between_at separate
  refine ⟨⟨.repeating madeCount madeBody, .void, reader.peek.span.through madeBody.span⟩, stop, ?_,
    stop_at, ?_⟩
  · rw [Grammar.statement, bind_peek, opens]
    simp only [repeatStatement]
    rw [bind_advance, bind_of_ok countRun, if_pos (sameCount.ty.trans isInt), loopBody,
      bind_of_ok bodyRun, bind_of_ok endRun]
    rfl
  · unfold Typed.Same at sameCount sameBody ⊢
    simp only [nodeWithoutSpans, Form.withoutSpans, sameCount, sameBody]

theorem whileTrue_readable {condition body : Node} {span : Span}
    (readable : Readable style context condition) (isBool : condition.ty = .bool)
    (block : IsBlock body)
    (rounds : Readables style { place with inLoop := true } context.push body.statements) :
    StatementReadable style place context ⟨.whileTrue condition body, .void, span⟩ := by
  have tokens : Rendering.statement style ⟨.whileTrue condition body, .void, span⟩ =
      mark .while :: (written style condition.form ++ (written style body.form ++
        if style.closes ⟨.whileTrue condition body, .void, span⟩ then [mark .semicolon]
        else [])) := by
    rw [statement_eq, ending_block style rfl, written, atPosition_zero, atPosition_zero]
    simp
  refine ⟨⟨_, _, tokens, by decide⟩, ?_⟩
  intro depth enough reader rest here separate
  simp only [tokens, List.length_cons, List.length_append, List.cons_append, List.append_assoc]
    at enough here
  have shortCondition : (written style condition.form).length < depth := by omega
  have shortBody : (written style body.form).length ≤ depth := by omega
  have opens : reader.peek.kind = .while := here.kind
  obtain ⟨madeCondition, between, conditionRun, between_at, sameCondition⟩ :=
    readable.nested shortCondition here.next (brace_ends block _).ends
  obtain ⟨madeBody, behind, stop, bodyRun, endRun, stop_at, sameBody⟩ :=
    lastBlock_reads block rounds shortBody between_at separate
  refine ⟨⟨.whileTrue madeCondition madeBody, .void, reader.peek.span.through madeBody.span⟩, stop,
    ?_, stop_at, ?_⟩
  · rw [Grammar.statement, bind_peek, opens]
    simp only [whileStatement]
    rw [bind_advance, bind_of_ok conditionRun,
      bind_of_ok (requireBool_run (sameCondition.ty.trans isBool)), loopBody, bind_of_ok bodyRun,
      bind_of_ok endRun]
    rfl
  · unfold Typed.Same at sameCondition sameBody ⊢
    simp only [nodeWithoutSpans, Form.withoutSpans, sameCondition, sameBody]

/-! ## Declarations -/

theorem typeBehind_reads {primitive : Primitive} {isList : Bool} {span : Span}
    (named : isList = true → primitive ≠ .void) {reader : Reader} {rest : List Token}
    (here : Before context (typeTokens ⟨primitive, isList⟩ ++ rest) reader)
    (past : kindAhead rest = .identifier) :
    ∃ stop, typeBehind primitive span reader = .ok (⟨primitive, isList⟩, stop) ∧
      Before context rest stop := by
  simp only [typeBehind, bind_advance, bind_check, bind_checkNext]
  cases isList with
  | true =>
    have there : Before context (mark (primitiveKind primitive) :: mark .leftBracket ::
        mark .rightBracket :: rest) reader := here
    have opens : reader.next.peek.kind = .leftBracket := there.next.kind
    have closes : reader.next.next.peek.kind = .rightBracket := there.next.next.kind
    refine ⟨reader.next.next.next, ?_, there.next.next.next⟩
    rw [decide_eq_true opens, decide_eq_true closes]
    simp only [Bool.and_self, if_true, if_neg (named rfl)]
    rfl
  | false =>
    have there : Before context (mark (primitiveKind primitive) :: rest) reader := here
    have absent : reader.next.peek.kind ≠ .leftBracket := by
      rw [there.next.kind, past]
      exact TokenKind.noConfusion
    refine ⟨reader.next, ?_, there.next⟩
    rw [decide_eq_false absent]
    simp only [Bool.false_and, Bool.false_eq_true, if_false]
    rfl

theorem typeName_reads {allowVoid : Bool} {ty : Ty}
    (named : Declarable ty ∨ (allowVoid = true ∧ ty = .void)) {reader : Reader}
    {rest : List Token} (here : Before context (typeTokens ty ++ rest) reader)
    (past : kindAhead rest = .identifier) :
    ∃ stop, typeName allowVoid reader = .ok (ty, stop) ∧ Before context rest stop := by
  obtain ⟨primitive, isList⟩ := ty
  have first : reader.peek.kind = primitiveKind primitive := by
    rw [here.kind]
    cases primitive <;> rfl
  have notVoid (list : isList = true) : primitive ≠ .void := by
    rcases named with declarable | ⟨-, isVoid⟩
    · exact declarable
    · cases isVoid
      cases list
  rw [typeName_eq, bind_peek, first]
  cases primitive with
  | void =>
    rcases named with declarable | ⟨rfl, -⟩
    · exact absurd rfl declarable
    · exact typeBehind_reads notVoid here past
  | int | double | bool | string => exact typeBehind_reads notVoid here past

theorem declareVariable_written (name : Token) (ty : Ty) {reader : Reader} {rest : List Token}
    (here : Before context rest reader) (fresh : context.innermost.vars.find? name.lexeme = none) :
    ∃ stop, Grammar.declareVariable name ty reader = .ok ((), stop) ∧
      Before (context.withVariable name.lexeme ty) rest stop := by
  refine ⟨{ reader with context := context.withVariable name.lexeme ty }, ?_, here.into⟩
  rw [Grammar.declareVariable, bind_get, here.context,
    Context.declareVariable_ok.mpr ⟨fresh, rfl⟩]
  rfl

theorem initialValue_reads {name : Token} {ty : Ty} {initializer : Option Node}
    (readable : ∀ value, initializer = some value → Readable style context value)
    (accepted : ∀ value, initializer = some value → ty.accepts value.ty = true)
    (short : (initial style initializer).length < depth) :
    Consumes (initialValue (read depth) name ty) context context (initial style initializer)
      (Ends 0) fun made => optionWithoutSpans made = optionWithoutSpans initializer := by
  intro reader rest here ends
  cases initializer with
  | none =>
    have there : Before context rest reader := here
    have absent : reader.peek.kind ≠ .equal := by
      rw [there.kind]
      intro is
      have none := ends.2.2.2
      rw [is] at none
      cases none
    refine ⟨none, reader, ?_, there, rfl⟩
    rw [initialValue, bind_accept, if_neg absent]
    rfl
  | some value =>
    rw [initial, atPosition_zero] at short here
    rw [List.length_cons] at short
    have opens : reader.peek.kind = .equal := here.kind
    have shortValue : (written style value.form).length < depth := by omega
    obtain ⟨made, stop, run, stop_at, same⟩ :=
      (readable value rfl).nested shortValue here.next ends
    refine ⟨some made, stop, ?_, stop_at, congrArg some same⟩
    rw [initialValue, bind_accept, if_pos opens]
    simp only [if_true]
    rw [bind_of_ok run, same.ty, if_pos (accepted value rfl)]
    rfl

theorem primitiveKind_begins (primitive : Primitive) : Begins (primitiveKind primitive) := by
  cases primitive <;> decide

theorem declaration_reads {node : Node} (typed : Declaration context node)
    (writable : Writable style node) (short : (written style node.form).length < depth) :
    Consumes (variableDeclaration (read depth)) context (context.after node)
      (written style node.form) (Ends 0) fun made => made.Same node := by
  cases typed with
  | @declare name ty initializer span declarable fresh typed accepted =>
    intro reader rest here ends
    have tokens : written style (.declare name ty initializer) =
        typeTokens ty ++ identifier name :: initial style initializer := by
      rw [written]
    simp only [tokens, List.append_assoc, List.cons_append] at here
    simp only [tokens, List.length_append, List.length_cons] at short
    have shortValue : (initial style initializer).length < depth := by omega
    obtain ⟨between, typeRun, between_at⟩ := typeName_reads (.inl declarable) here rfl
    have isName : between.peek = identifier name := between_at.peek
    have nameHere : between.peek.kind = .identifier := between_at.kind
    have readable (value : Node) (isValue : initializer = some value) :
        Readable style context value := by
      subst isValue
      exact expression_readable (typed value rfl) writable
    obtain ⟨made, behind, valueRun, behind_at, same⟩ :=
      initialValue_reads readable accepted shortValue between_at.next ends
    obtain ⟨stop, declareRun, stop_at⟩ :=
      declareVariable_written (identifier name) ty behind_at fresh
    refine ⟨⟨.declare name ty made, .void, reader.peek.span.through
      ((made.map (·.span)).getD between.peek.span)⟩, stop, ?_, stop_at, ?_⟩
    · rw [variableDeclaration, bind_peek, bind_of_ok typeRun, bind_expect, if_pos nameHere, isName,
        bind_of_ok valueRun, bind_of_ok declareRun]
      rfl
    · unfold Typed.Same
      simp only [nodeWithoutSpans, Form.withoutSpans, same]

theorem declaration_first (style : Style) {node : Node} (typed : Declaration context node) :
    ∃ primitive more, primitive ≠ .void ∧
      written style node.form = mark (primitiveKind primitive) :: more := by
  cases typed with
  | @declare name ty initializer span declarable fresh typed accepted =>
    have split : written style (.declare name ty initializer) = mark (primitiveKind ty.primitive) ::
        ((if ty.isList then [mark .leftBracket, mark .rightBracket] else []) ++
          identifier name :: initial style initializer) := by
      rw [written, typeTokens, List.cons_append]
    exact ⟨ty.primitive, _, declarable, split⟩

theorem mark_primitiveKind (primitive : Primitive) :
    (mark (primitiveKind primitive)).kind = primitiveKind primitive := by
  cases primitive <;> rfl

theorem declaration_readable {node : Node} (typed : Declaration context node)
    (writable : Writable style node) : StatementReadable style place context node := by
  have tokens : Rendering.statement style node = written style node.form ++ [mark .semicolon] := by
    cases typed with
    | declare declarable fresh typed accepted => rw [statement_eq, ending_plain style rfl]
  obtain ⟨primitive, more, notVoid, split⟩ := declaration_first style typed
  refine ⟨⟨_, _, by rw [tokens, split]; rfl, ?_⟩, ?_⟩
  · rw [mark_primitiveKind]
    exact primitiveKind_begins primitive
  · intro depth enough reader rest here separate
    rw [tokens, List.length_append, List.length_singleton] at enough
    rw [tokens, List.append_assoc, List.singleton_append] at here
    have kind : reader.peek.kind = primitiveKind primitive := by
      rw [here.kind, split]
      exact mark_primitiveKind primitive
    have closing : Closing (kindAhead (mark .semicolon :: rest)) :=
      .tail _ (.tail _ (.tail _ List.mem_cons_self))
    have short : (written style node.form).length < depth := by omega
    obtain ⟨made, behind, run, behind_at, same⟩ :=
      declaration_reads typed writable short here closing.ends
    have read : declarationStatement (read depth) reader = .ok (made, behind.next) := by
      rw [declarationStatement, bind_of_ok run, bind_of_ok (endStatement_reads behind_at)]
      rfl
    refine ⟨made, behind.next, ?_, behind_at.next, same⟩
    rw [Grammar.statement, bind_peek, kind]
    cases primitive with
    | void => exact absurd rfl notVoid
    | int => exact read
    | double => exact read
    | bool => exact read
    | string => exact read

/-! ## Loops with a header -/

theorem opensUpTo_primitive {kind : TokenKind} {highest : Nat}
    (opens : opensUpTo kind = some highest) : primitiveOf? kind = none := by
  cases kind <;> first | rfl | cases opens

theorem primitiveOf?_kind {primitive : Primitive} (notVoid : primitive ≠ .void) :
    primitiveOf? (primitiveKind primitive) = some primitive := by
  cases primitive <;> first | rfl | exact absurd rfl notVoid

theorem loopInitializer_reads {node : Node}
    (typed : Expression context node ∨ Declaration context node) (writable : Writable style node)
    (short : (written style node.form).length < depth) :
    Consumes (loopInitializer (read depth)) context (context.after node)
      (written style node.form) (Ends 0) fun made => made.Same node := by
  intro reader rest here ends
  rcases typed with typed | typed
  · have readable := expression_readable typed writable
    obtain ⟨token, more, highest, first, opens, -⟩ := readable.starts 0 (Nat.zero_le 8)
    rw [atPosition_zero] at first
    have kind : reader.peek.kind = token.kind := by
      rw [here.kind, first]
      rfl
    rw [Context.after_expression typed]
    obtain ⟨made, stop, run, stop_at, same⟩ := readable.nested short here ends
    refine ⟨made, stop, ?_, stop_at, same⟩
    rw [loopInitializer, bind_peek, kind, opensUpTo_primitive opens]
    exact run
  · obtain ⟨primitive, more, notVoid, first⟩ := declaration_first style typed
    have kind : reader.peek.kind = primitiveKind primitive := by
      rw [here.kind, first]
      exact mark_primitiveKind primitive
    obtain ⟨made, stop, run, stop_at, same⟩ := declaration_reads typed writable short here ends
    refine ⟨made, stop, ?_, stop_at, same⟩
    rw [loopInitializer, bind_peek, kind, primitiveOf?_kind notVoid]
    exact run

theorem loop_readable {initializer condition step body : Node} {span : Span}
    (first : Expression context.push initializer ∨ Declaration context.push initializer)
    (writable : Writable style initializer)
    (readable : Readable style (context.push.after initializer) condition)
    (isBool : condition.ty = .bool)
    (stepReadable : Readable style (context.push.after initializer) step) (block : IsBlock body)
    (rounds : Readables style { place with inLoop := true }
      (context.push.after initializer).push body.statements) :
    StatementReadable style place context ⟨.loop initializer condition step body, .void, span⟩ := by
  have tokens : Rendering.statement style ⟨.loop initializer condition step body, .void, span⟩ =
      mark .loop :: mark .leftParen :: (written style initializer.form ++
        mark .comma :: (written style condition.form ++
          mark .comma :: (written style step.form ++
            mark .rightParen :: (written style body.form ++
              if style.closes ⟨.loop initializer condition step body, .void, span⟩ then
                [mark .semicolon]
              else [])))) := by
    rw [statement_eq, ending_block style rfl, written]
    simp [atPosition_zero]
  refine ⟨⟨_, _, tokens, by decide⟩, ?_⟩
  intro depth enough reader rest here separate
  simp only [tokens, List.length_cons, List.length_append, List.cons_append, List.append_assoc]
    at enough here
  have shortFirst : (written style initializer.form).length < depth := by omega
  have shortCondition : (written style condition.form).length < depth := by omega
  have shortStep : (written style step.form).length < depth := by omega
  have shortBody : (written style body.form).length ≤ depth := by omega
  have comma (more : List Token) : Ends 0 (kindAhead (mark .comma :: more)) :=
    Closing.ends (.tail _ (.tail _ List.mem_cons_self))
  have parenthesis (more : List Token) : Ends 0 (kindAhead (mark .rightParen :: more)) :=
    Closing.ends List.mem_cons_self
  have loopHere : reader.peek.kind = .loop := here.kind
  have opens : reader.next.peek.kind = .leftParen := here.next.kind
  obtain ⟨madeFirst, first_stop, firstRun, first_at, sameFirst⟩ :=
    loopInitializer_reads first writable shortFirst here.next.next.push (comma _)
  have firstComma : first_stop.peek.kind = .comma := first_at.kind
  obtain ⟨madeCondition, second_stop, conditionRun, second_at, sameCondition⟩ :=
    readable.nested shortCondition first_at.next (comma _)
  have secondComma : second_stop.peek.kind = .comma := second_at.kind
  obtain ⟨madeStep, third_stop, stepRun, third_at, sameStep⟩ :=
    stepReadable.nested shortStep second_at.next (parenthesis _)
  have closes : third_stop.peek.kind = .rightParen := third_at.kind
  obtain ⟨madeBody, behind, bodyRun, behind_at, sameBody⟩ :=
    block_reads block rounds shortBody third_at.next trivial
  -- The scope of the header ends behind the body, and with it what the initializer declared.
  have header_at : At (context.push.afterAll [initializer]) behind := behind_at.toAt
  have outside : Before context _ { behind with context := behind.context.pop } :=
    ⟨leave header_at, behind_at.ahead⟩
  obtain ⟨stop, endRun, stop_at⟩ := endBlockStatement_reads outside separate
  refine ⟨⟨.loop madeFirst madeCondition madeStep madeBody, .void,
    reader.peek.span.through madeBody.span⟩, stop, ?_, stop_at, ?_⟩
  · rw [Grammar.statement, bind_peek, loopHere]
    simp only [loopStatement]
    rw [bind_advance, bind_expect, if_pos opens]
    let made := Typed.statement (.loop madeFirst madeCondition madeStep madeBody)
      (reader.peek.span.through madeBody.span)
    refine (bind_of_ok (inScope_run made behind ?_) _).trans ?_
    · rw [bind_of_ok firstRun, bind_expect, if_pos firstComma, bind_of_ok conditionRun,
        bind_of_ok (requireBool_run (sameCondition.ty.trans isBool)), bind_expect,
        if_pos secondComma, bind_of_ok stepRun, bind_expect, if_pos closes, loopBody,
        bind_of_ok bodyRun]
      rfl
    · rw [bind_of_ok endRun]
      rfl
  · unfold Typed.Same at sameFirst sameCondition sameStep sameBody ⊢
    simp only [nodeWithoutSpans, Form.withoutSpans, sameFirst, sameCondition, sameStep, sameBody]

/-! ## Functions -/

theorem parameter_reads {all before behind : List Parameter} {current : Parameter}
    {sofar : List Parameter} (distinct : (all.map (·.name)).Nodup)
    (declarable : ∀ parameter ∈ all, Declarable parameter.ty)
    (split : all = before ++ current :: behind) (same : sofar = before) :
    Consumes (Grammar.parameter sofar) context context (Rendering.parameter current) Closing
      fun result => result = before ++ [current] := by
  intro reader rest here _
  subst same
  rw [Rendering.parameter, List.append_assoc, List.singleton_append] at here
  have member : current ∈ all := by
    rw [split]
    exact List.mem_append_right _ List.mem_cons_self
  obtain ⟨between, typeRun, between_at⟩ :=
    typeName_reads (.inl (declarable current member)) here rfl
  have isName : between.peek = identifier current.name := between_at.peek
  have nameHere : between.peek.kind = .identifier := between_at.kind
  have unused : ¬ (sofar.any fun earlier =>
      earlier.name = (identifier current.name).lexeme) = true := by
    intro used
    obtain ⟨other, otherMember, isSame⟩ := List.any_eq_true.mp used
    rw [split, List.map_append, List.map_cons, List.nodup_append] at distinct
    exact distinct.2.2 other.name (List.mem_map_of_mem otherMember) current.name
      List.mem_cons_self (of_decide_eq_true isSame)
  refine ⟨sofar ++ [current], between.next, ?_, between_at.next, rfl⟩
  rw [Grammar.parameter, bind_of_ok typeRun, bind_expect, if_pos nameHere, isName]
  rw [if_neg unused]
  rfl

theorem typeTokens_begins (ty : Ty) (rest : List Token) :
    kindAhead (typeTokens ty ++ rest) = primitiveKind ty.primitive :=
  mark_primitiveKind ty.primitive

theorem parameters_reads {all : List Parameter} (distinct : (all.map (·.name)).Nodup)
    (declarable : ∀ parameter ∈ all, Declarable parameter.ty) {reader : Reader}
    {rest : List Token} (here : Before context
      (Rendering.commaSeparated (all.map Rendering.parameter) ++ mark .rightParen :: rest) reader) :
    ∃ stop, parameters reader = .ok (all, stop) ∧
      Before context (mark .rightParen :: rest) stop := by
  cases all with
  | nil =>
    refine ⟨reader, ?_, here⟩
    have closes : reader.peek.kind = .rightParen := here.kind
    rw [parameters, bind_check, decide_eq_true closes]
    rfl
  | cons first others =>
    have notClosed : reader.peek.kind ≠ .rightParen := by
      have opening : kindAhead (Rendering.commaSeparated
          ((first :: others).map Rendering.parameter) ++ mark .rightParen :: rest) =
          primitiveKind first.ty.primitive := by
        cases others with
        | nil =>
          simp only [List.map_cons, List.map_nil, Rendering.commaSeparated, Rendering.parameter,
            List.append_assoc]
          exact typeTokens_begins _ _
        | cons second others =>
          simp only [List.map_cons, Rendering.commaSeparated, Rendering.parameter,
            List.append_assoc]
          exact typeTokens_begins _ _
      rw [here.kind, opening]
      cases first.ty.primitive <;> exact TokenKind.noConfusion
    obtain ⟨result, stop, run, stop_at, rfl⟩ :=
      separated_reads (fun before sofar => sofar = before)
        (fun before current behind sofar split same =>
          parameter_reads distinct declarable split same)
        (List.nil_append _).symm rfl here List.mem_cons_self TokenKind.noConfusion (Nat.le_refl _)
    refine ⟨stop, ?_, stop_at⟩
    rw [parameters, bind_check, decide_eq_false notClosed]
    simp only [Bool.false_eq_true, if_false, Grammar.commaSeparated, bind_remaining]
    exact run

theorem declareFunction_written (name : Token) (signature : Signature) {reader : Reader}
    {rest : List Token} (here : Before context rest reader)
    (notNative : context.natives.find? name.lexeme = none)
    (fresh : context.innermost.functions.find? name.lexeme = none) :
    ∃ stop, Grammar.declareFunction name signature reader = .ok ((), stop) ∧
      Before (context.withFunction name.lexeme signature) rest stop := by
  refine ⟨{ reader with context := context.withFunction name.lexeme signature }, ?_, here.into⟩
  rw [Grammar.declareFunction, bind_get, here.context,
    Context.declareFunction_ok.mpr ⟨notNative, fresh, rfl⟩]
  rfl

theorem functionBody_reads {parameters : List Parameter} {returns : Ty} {body : Node}
    (distinct : (parameters.map (·.name)).Nodup) (block : IsBlock body)
    (readable : Readables style ⟨false, some returns⟩ (context.entering parameters)
      body.statements)
    (short : (written style body.form).length ≤ depth) :
    ReadsBack (functionBody (read depth) returns parameters) context (written style body.form)
      (fun _ => True) body := by
  intro reader rest here _
  have there : Before context (mark .leftBrace :: (listed style body.statements ++
      mark .rightBrace :: rest)) reader := by
    simpa [written_block block] using here
  have opens : reader.peek.kind = .leftBrace := there.kind
  have entering : withParameters parameters reader.next.context.push =
      context.entering parameters := by
    rw [there.next.context]
    exact Context.withParameters_eq distinct _ fun _ _ => Bindings.find?_empty _
  have entered : Before (context.entering parameters)
      (listed style body.statements ++ mark .rightBrace :: rest)
      { reader.next with context := withParameters parameters reader.next.context.push } := by
    rw [entering]
    exact there.next.into
  obtain ⟨made, stop, run, stop_at, same⟩ := braced_reads block readable short entered
  have closes : stop.peek.kind = .rightBrace := stop_at.kind
  have left : stop.next.context.pop = context := by
    rw [stop_at.next.context]
    apply Context.pop_eq
    · rw [Context.afterAll_natives, Context.entering, Context.foldl_withVariable_natives,
        Context.push]
    · rw [Context.afterAll_enclosing, Context.entering, Context.foldl_withVariable_enclosing,
        Context.push]
  refine ⟨⟨.block made, .void, reader.peek.span.through stop.peek.span⟩,
    { stop.next with context := stop.next.context.pop }, ?_,
    ⟨⟨left, stop_at.next.finish⟩, stop_at.next.ahead⟩, statements_same block same⟩
  rw [functionBody, bind_expect, if_pos opens]
  apply inScope_run _ stop.next
  rw [bind_changeContext, bind_remaining, bind_of_ok run, bind_expect, if_pos closes]
  rfl

theorem define_readable {function : Function} {span : Span}
    (returnable : Returnable function.returns)
    (declarable : ∀ parameter ∈ function.parameters, Declarable parameter.ty)
    (distinct : (function.parameters.map (·.name)).Nodup)
    (notNative : context.natives.find? function.name = none)
    (fresh : context.innermost.functions.find? function.name = none)
    (block : IsBlock function.body)
    (readable : Readables style ⟨false, some function.returns⟩
      ((context.withFunction function.name function.signature).entering function.parameters)
      function.body.statements) :
    StatementReadable style place context ⟨.define function, .void, span⟩ := by
  have tokens : Rendering.statement style ⟨.define function, .void, span⟩ =
      mark .func :: (typeTokens function.returns ++ identifier function.name ::
        mark .leftParen :: (Rendering.commaSeparated (function.parameters.map Rendering.parameter) ++
          mark .rightParen :: (written style function.body.form ++
            if style.closes ⟨.define function, .void, span⟩ then [mark .semicolon] else []))) := by
    obtain ⟨name, returns, parameters, body⟩ := function
    rw [statement_eq, ending_block style rfl, written, defined, atPosition_zero]
    simp [Rendering.grouped]
  refine ⟨⟨_, _, tokens, by decide⟩, ?_⟩
  intro depth enough reader rest here separate
  simp only [tokens, List.length_cons, List.length_append, List.cons_append, List.append_assoc]
    at enough here
  have shortBody : (written style function.body.form).length ≤ depth := by omega
  have named : Declarable function.returns ∨ (true = true ∧ function.returns = .void) := by
    rcases returnable with isVoid | declarable
    · exact .inr ⟨rfl, isVoid⟩
    · exact .inl declarable
  have funcHere : reader.peek.kind = .func := here.kind
  obtain ⟨first, typeRun, first_at⟩ := typeName_reads named here.next rfl
  have isName : first.peek = identifier function.name := first_at.peek
  have nameHere : first.peek.kind = .identifier := first_at.kind
  have opens : first.next.peek.kind = .leftParen := first_at.next.kind
  obtain ⟨second, parametersRun, second_at⟩ :=
    parameters_reads distinct declarable first_at.next.next
  have closes : second.peek.kind = .rightParen := second_at.kind
  obtain ⟨third, declareRun, third_at⟩ :=
    declareFunction_written (identifier function.name) function.signature second_at.next notNative
      fresh
  rw [Definition.signature] at declareRun
  obtain ⟨madeBody, behind, bodyRun, behind_at, sameBody⟩ :=
    functionBody_reads distinct block readable shortBody third_at trivial
  obtain ⟨stop, endRun, stop_at⟩ := endBlockStatement_reads behind_at separate
  refine ⟨⟨.define ⟨function.name, function.returns, function.parameters, madeBody⟩, .void,
    reader.peek.span.through madeBody.span⟩, stop, ?_, stop_at, ?_⟩
  · rw [Grammar.statement, bind_peek, funcHere]
    simp only [functionDefinition]
    rw [bind_advance, bind_of_ok typeRun, bind_expect, if_pos nameHere, bind_expect, if_pos opens,
      bind_of_ok parametersRun, bind_expect, if_pos closes, isName, bind_of_ok declareRun,
      bind_of_ok bodyRun, bind_of_ok endRun]
    rfl
  · obtain ⟨name, returns, parameters, body⟩ := function
    unfold Typed.Same at sameBody ⊢
    simp only [nodeWithoutSpans, Form.withoutSpans, definitionWithoutSpans] at sameBody ⊢
    rw [sameBody]

end

end RobotScript.Grammar
