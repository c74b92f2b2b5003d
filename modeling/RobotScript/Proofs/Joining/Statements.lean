import RobotScript.Proofs.Joining.Expressions
import RobotScript.Proofs.Rendering.BlockReads

/-! # Statements persist

A statement is read the same whatever stands behind it, as long as that does not go on
with a statement that ends in a block: a semicolon, or a further branch of a chain. -/
set_option autoImplicit false

namespace RobotScript.Grammar

structure GoesOn (tail : List Token) (inner other : Goal → Parse Node) : Prop where
  expressions : ReadsOn tail (inner .expression) (other .expression)
  statements : ∀ place, Persists tail true true nodeWithoutSpans (inner (.statement place))
    (other (.statement place))

section

variable {tail : List Token} {whole takes : Bool} {α β : Type} {view : α → β}
variable {reader longer : Reader} {inner other : Goal → Parse Node} {place : Place}

theorem statement_same {form twin : Form} (same : twin.withoutSpans = form.withoutSpans)
    (span place : Span) :
    nodeWithoutSpans (.statement twin place) = nodeWithoutSpans (.statement form span) := by
  rw [Typed.statement, Typed.statement, nodeWithoutSpans, nodeWithoutSpans, same]

/-! ## Ends -/

theorem Reader.Longer.separate (more : reader.Longer tail longer)
    (separate : Separate (kindAhead tail)) (empty : reader.ahead = []) :
    Separate longer.peek.kind := by
  have same := more.ahead
  rw [empty, List.nil_append] at same
  cases tail with
  | nil =>
    rw [more.kind (.inl rfl), Reader.peek, empty]
    exact more.ends.symm ▸ separate
  | cons token rest =>
    rw [List.map_cons] at same
    obtain ⟨twin, others, twins, alike, -⟩ := List.map_eq_cons_iff.mp same
    rw [Reader.peek, twins]
    exact Token.kind_eq alike ▸ separate

theorem endStatement_persists : Persists tail true true id endStatement endStatement :=
  .bind (expect_persists (by decide) _) fun _ _ _ => .pure rfl

theorem accept_whole {kind : TokenKind} (token : kind ≠ .eof) (goesOn : ¬ Separate kind)
    (separate : Separate (kindAhead tail)) :
    Persists tail true false id (accept kind) (accept kind) := by
  refine fun reader longer more => accept_at token more fun _ empty isKind => goesOn ?_
  exact isKind ▸ more.separate separate empty

theorem endBlockStatement_persists (separate : Separate (kindAhead tail)) :
    Persists tail true false id endBlockStatement endBlockStatement :=
  .bind (accept_whole (by decide) (by decide) separate) fun _ _ _ => .pure rfl

/-! ## Declarations -/

theorem declareVariable_persists {name twin : Token} (same : twin.bare = name.bare) (ty : Ty) :
    Persists tail true false id (declareVariable name ty) (declareVariable twin ty) := by
  refine .get fun reader longer context => ?_
  rw [context, Token.lexeme_eq same]
  cases reader.context.declareVariable name.lexeme ty with
  | error refusal => exact .refuse _ _
  | ok declared => exact changeContext_persists _

theorem declareFunction_persists {name twin : Token} (same : twin.bare = name.bare)
    (signature : Signature) :
    Persists tail true false id (declareFunction name signature)
      (declareFunction twin signature) := by
  refine .get fun reader longer context => ?_
  rw [context, Token.lexeme_eq same]
  cases reader.context.declareFunction name.lexeme signature with
  | error refusal => cases refusal <;> exact .refuse _ _
  | ok declared => exact changeContext_persists _

/-- What stands behind the first word of a type is told by two tokens, so it does not
persist where only one is left; but behind a type stands a name. -/
theorem typeBehind_persists {primitive : Primitive} {span place : Span} {ty : Ty}
    (more : reader.Longer tail longer) (left : reader.ahead ≠ []) {between : Reader}
    (named : between.peek.kind = .identifier)
    (run : typeBehind primitive span reader = .ok (ty, between)) :
    reader.next.Leads between ∧ ∃ further, between.Longer tail further ∧
      typeBehind primitive place longer = .ok (ty, further) := by
  have moreNext := more.next (.inr left)
  simp only [typeBehind, bind_advance, bind_check, bind_checkNext] at run ⊢
  by_cases brackets : reader.next.peek.kind = .leftBracket ∧
      reader.next.next.peek.kind = .rightBracket
  · obtain ⟨opens, closes⟩ := brackets
    have leftNext := Reader.ahead_of_kind moreNext.ends (opens ▸ by decide)
    have moreAfter := moreNext.next (.inr leftNext)
    have leftAfter := Reader.ahead_of_kind moreAfter.ends (closes ▸ by decide)
    rw [decide_eq_true opens, decide_eq_true closes] at run
    rw [decide_eq_true ((moreNext.kind (.inr leftNext)).trans opens),
      decide_eq_true ((moreAfter.kind (.inr leftAfter)).trans closes)]
    by_cases isVoid : primitive = .void
    · simp only [Bool.and_self, if_true, if_pos isVoid] at run
      cases run
    · simp only [Bool.and_self, if_true, if_neg isVoid] at run ⊢
      cases run
      refine ⟨(Reader.Leads.next _).trans (.next _), longer.next.next.next, ?_, rfl⟩
      exact moreAfter.next (.inr leftAfter)
  · have none : (decide (reader.next.peek.kind = .leftBracket) &&
        decide (reader.next.next.peek.kind = .rightBracket)) = false := by
      rw [← Bool.not_eq_true, Bool.and_eq_true_iff, decide_eq_true_iff, decide_eq_true_iff]
      exact brackets
    rw [none] at run
    cases run
    have leftNext := Reader.ahead_of_kind moreNext.ends (named ▸ by decide)
    have isName := (moreNext.kind (.inr leftNext)).trans named
    refine ⟨.refl _, longer.next, moreNext, ?_⟩
    rw [isName]
    rfl

theorem typeName_persists {allowVoid : Bool} (more : reader.Longer tail longer) {ty : Ty}
    {between : Reader} (run : typeName allowVoid reader = .ok (ty, between))
    (named : between.peek.kind = .identifier) :
    reader.Leads between ∧ between.ahead.length < reader.ahead.length ∧
      ∃ further, typeName allowVoid longer = .ok (ty, further) ∧ between.Longer tail further := by
  have goesOn (left : reader.ahead ≠ []) {further : Reader} (leads : reader.next.Leads between)
      (moreBetween : between.Longer tail further)
      (runToo : typeName allowVoid longer = .ok (ty, further)) :
      reader.Leads between ∧ between.ahead.length < reader.ahead.length ∧
        ∃ further, typeName allowVoid longer = .ok (ty, further) ∧ between.Longer tail further :=
    ⟨(Reader.Leads.next reader).trans leads,
      Nat.lt_of_le_of_lt leads.length_le (next_shorter left), further, runToo, moreBetween⟩
  have begins : reader.peek.kind ≠ .eof := by
    intro isEnd
    rw [typeName_eq, bind_peek, isEnd] at run
    cases run
  have left := Reader.ahead_of_kind more.ends begins
  rw [typeName_eq, bind_peek] at run
  cases known : primitiveOf? reader.peek.kind with
  | some primitive =>
    simp only [known] at run
    obtain ⟨leads, further, moreBetween, runToo⟩ := typeBehind_persists more left named run
    refine goesOn left leads moreBetween ?_
    rw [typeName_eq, bind_peek, more.kind (.inr left)]
    simp only [known]
    exact runToo
  | none =>
    simp only [known] at run
    split at run
    · cases run
    next isVoid =>
      split at run
      next allowed =>
        obtain ⟨leads, further, moreBetween, runToo⟩ := typeBehind_persists more left named run
        refine goesOn left leads moreBetween ?_
        rw [typeName_eq, bind_peek, more.kind (.inr left)]
        simp only [known, if_neg isVoid, if_pos allowed]
        exact runToo
      · cases run

theorem typedName_persists {allowVoid : Bool} {what : Expected} {next last : Ty → Token → Parse α}
    (persists : ∀ ty name twin, twin.bare = name.bare →
      Persists tail whole false view (next ty name) (last ty twin)) :
    Persists tail whole true view
      (do
        let ty ← typeName allowVoid
        let name ← expect .identifier what
        next ty name)
      (do
        let ty ← typeName allowVoid
        let name ← expect .identifier what
        last ty name) := by
  intro reader longer more result after run
  obtain ⟨ty, between, typeRun, rest⟩ := bind_ok run
  have named : between.peek.kind = .identifier := by
    rw [bind_expect] at rest
    split at rest
    next named => exact named
    next => cases rest
  obtain ⟨leads, shorter, further, typeRunToo, moreBetween⟩ := typeName_persists more typeRun named
  have names : Persists tail whole true view (expect .identifier what >>= next ty)
      (expect .identifier what >>= last ty) :=
    .bind (expect_persists (by decide) what).inPart fun name twin same => persists ty name twin same
  obtain ⟨leadsOn, taken, alike⟩ := names between further moreBetween result after rest
  refine ⟨leads.trans leadsOn, fun _ => ?_, fun room => ?_⟩
  · exact Nat.lt_of_le_of_lt leadsOn.length_le shorter
  · obtain ⟨twin, stop, restToo, same, moreAfter⟩ := alike room
    exact ⟨twin, stop, (bind_of_ok typeRunToo _).trans restToo, same, moreAfter⟩

theorem parameter_persists (sofar : List Parameter) :
    Persists tail false true id (parameter sofar) (parameter sofar) := by
  refine typedName_persists fun ty name twin same => ?_
  rw [Token.lexeme_eq same]
  exact .ite (fun _ => .refuse _ _) fun _ => .pure rfl

theorem parameters_persists : Persists tail false false id parameters parameters := by
  refine .bindSame (check_persists .rightParen) fun found => ?_
  have items (sofar twin : List Parameter) (same : id twin = id sofar) :
      Persists tail false true id (parameter sofar) (parameter twin) := by
    obtain rfl : twin = sofar := same
    exact parameter_persists twin
  exact .ite (fun _ => .pure rfl) fun _ => (commaSeparated_persists items rfl).ungripped

/-! ## Blocks -/

theorem inScope_persists {body otherBody : Parse α}
    (bodies : Persists tail whole true view body otherBody) :
    Persists tail whole true view (inScope body) (inScope otherBody) := by
  refine .before (changeContext_persists _) fun _ _ _ => ?_
  refine .bind bodies fun result twin same => ?_
  exact .bind (changeContext_persists _) fun _ _ _ => .pure same

theorem statements_persists (goesOn : GoesOn tail inner other) {rounds others : List Token}
    (more : reader.Longer tail longer) (left : Rounds tail reader rounds others) :
    PersistsAt tail false false nodesWithoutSpans (statements inner place rounds)
      (statements other place others) reader longer := by
  induction rounds generalizing reader longer others with
  | nil =>
    refine left.last (statements other place) ?_
    exact .pure more rfl
  | cons round rounds ih =>
    obtain ⟨again, rest, rfl, fewer⟩ := left.uncons
    rw [statements, statements]
    refine .bind more (check_persists .rightBrace reader longer more) ?_
    rintro closes closesTwin _ further same ⟨⟩ moreHere
    refine .bind moreHere (check_persists .eof reader further moreHere) ?_
    rintro ends endsTwin _ beyond sameEnd ⟨⟩ moreStill
    obtain rfl : closesTwin = decide (reader.peek.kind = .rightBrace) := same
    obtain rfl : endsTwin = decide (reader.peek.kind = .eof) := sameEnd
    by_cases stops : (decide (reader.peek.kind = .rightBrace) ||
        decide (reader.peek.kind = .eof)) = true
    · rw [if_pos stops, if_pos stops]
      exact .pure moreStill rfl
    · rw [if_neg stops, if_neg stops]
      have reads := goesOn.statements place reader beyond moreStill
      refine .bind moreStill reads.loose ?_
      intro first firstTwin between after firstSame run moreBetween
      have shorter := (reads first between run).2.1 rfl
      refine .bind moreBetween (ih moreBetween (fewer between shorter)) ?_
      intro list listTwin last final listSame _ moreLast
      refine .pure moreLast ?_
      rw [nodesWithoutSpans, nodesWithoutSpans, firstSame, listSame]

theorem enclosed_persists (goesOn : GoesOn tail inner other) (what : Expected)
    (opening twin : Token) :
    Persists tail true true nodeWithoutSpans (enclosed inner place what opening)
      (enclosed other place what twin) := by
  refine remaining_persists fun reader longer rounds others more left => ?_
  refine .sequence more (statements_persists goesOn more left) ?_ fun _ => .inr rfl
  intro list twins between further same _ moreBetween
  refine Persists.bind (expect_persists (by decide) _) ?_ _ _ moreBetween
  intro close closeTwin _
  refine .pure (statement_same ?_ _ _)
  rw [Form.withoutSpans, Form.withoutSpans, same]

theorem block_persists (goesOn : GoesOn tail inner other) :
    Persists tail true true nodeWithoutSpans (block inner place) (block other place) :=
  .bind (expect_persists (by decide) _) fun opening twin _ =>
    (inScope_persists (enclosed_persists goesOn _ opening twin)).ungripped

/-! ## Statements by keyword -/

theorem repeatStatement_persists (goesOn : GoesOn tail inner other)
    (separate : Separate (kindAhead tail)) :
    Persists tail true true nodeWithoutSpans (repeatStatement inner place)
      (repeatStatement other place) := by
  refine .before advance_persists fun keyword keywordTwin _ => ?_
  refine .before goesOn.expressions.loose fun count countTwin countSame => ?_
  rw [Typed.Same.ty countSame]
  refine .ite (fun _ => ?_) fun _ => .refuse _ _
  refine .bind (block_persists goesOn) fun body bodyTwin bodySame => ?_
  refine .bind (endBlockStatement_persists separate) fun _ _ _ => ?_
  refine .pure (statement_same ?_ _ _)
  rw [Form.withoutSpans, Form.withoutSpans, countSame, bodySame]

theorem whileStatement_persists (goesOn : GoesOn tail inner other)
    (separate : Separate (kindAhead tail)) :
    Persists tail true true nodeWithoutSpans (whileStatement inner place)
      (whileStatement other place) := by
  refine .before advance_persists fun keyword keywordTwin _ => ?_
  refine .before goesOn.expressions.loose fun condition conditionTwin conditionSame => ?_
  refine .before (requireBool_persists conditionSame _ _).loose fun _ _ _ => ?_
  refine .bind (block_persists goesOn) fun body bodyTwin bodySame => ?_
  refine .bind (endBlockStatement_persists separate) fun _ _ _ => ?_
  refine .pure (statement_same ?_ _ _)
  rw [Form.withoutSpans, Form.withoutSpans, conditionSame, bodySame]

theorem initialValue_persists (goesOn : GoesOn tail inner other) (name twin : Token)
    (declared : Ty) :
    Persists tail false false optionWithoutSpans (initialValue inner name declared)
      (initialValue other twin declared) := by
  refine .bindSame (accept_persists (by decide)) fun found => ?_
  refine .ite (fun _ => ?_) fun _ => .pure rfl
  refine .bind goesOn.expressions.loose fun value valueTwin valueSame => ?_
  rw [Typed.Same.ty valueSame]
  exact .ite (fun _ => .pure (congrArg some valueSame)) fun _ => .refuse _ _

theorem variableDeclaration_persists (goesOn : GoesOn tail inner other) :
    ReadsOn tail (variableDeclaration inner) (variableDeclaration other) := by
  refine .before peek_persists fun start startTwin _ => ?_
  refine typedName_persists fun declared name twin same => ?_
  refine .bind (initialValue_persists goesOn name twin declared) fun value valueTwin valueSame => ?_
  refine .bind (declareVariable_persists same declared).loose fun _ _ _ => ?_
  refine .pure (statement_same ?_ _ _)
  rw [Form.withoutSpans, Form.withoutSpans, Token.lexeme_eq same, valueSame]

theorem loopInitializer_persists (goesOn : GoesOn tail inner other) :
    ReadsOn tail (loopInitializer inner) (loopInitializer other) := by
  refine .before peek_persists fun token twin same => ?_
  rw [Token.kind_eq same]
  exact .ite (fun _ => variableDeclaration_persists goesOn) fun _ => goesOn.expressions

theorem loopStatement_persists (goesOn : GoesOn tail inner other)
    (separate : Separate (kindAhead tail)) :
    Persists tail true true nodeWithoutSpans (loopStatement inner place)
      (loopStatement other place) := by
  refine .before advance_persists fun keyword keywordTwin _ => ?_
  refine .before (expect_persists (by decide) _).loose fun _ _ _ => ?_
  refine .bind (inScope_persists (?_ : Persists tail true true nodeWithoutSpans _ _)) ?_
  · refine .before (loopInitializer_persists goesOn).loose fun first firstTwin firstSame => ?_
    refine .before (expect_persists (by decide) _).loose fun _ _ _ => ?_
    refine .before goesOn.expressions.loose fun condition conditionTwin conditionSame => ?_
    refine .before (requireBool_persists conditionSame _ _).loose fun _ _ _ => ?_
    refine .before (expect_persists (by decide) _).loose fun _ _ _ => ?_
    refine .before goesOn.expressions.loose fun step stepTwin stepSame => ?_
    refine .before (expect_persists (by decide) _).loose fun _ _ _ => ?_
    refine .bind (block_persists goesOn) fun body bodyTwin bodySame => ?_
    refine .pure (statement_same ?_ _ _)
    rw [Form.withoutSpans, Form.withoutSpans, firstSame, conditionSame, stepSame, bodySame]
  · intro node twin same
    exact .bind (endBlockStatement_persists separate) fun _ _ _ => .pure same

theorem functionBody_persists (goesOn : GoesOn tail inner other) (returns : Ty)
    (parameters : List Parameter) :
    Persists tail true true nodeWithoutSpans (functionBody inner returns parameters)
      (functionBody other returns parameters) := by
  refine .bind (expect_persists (by decide) _) fun opening openingTwin _ => ?_
  refine (inScope_persists (.before (changeContext_persists _) fun _ _ _ => ?_)).ungripped
  exact enclosed_persists goesOn _ opening openingTwin

theorem functionDefinition_persists (goesOn : GoesOn tail inner other)
    (separate : Separate (kindAhead tail)) :
    Persists tail true true nodeWithoutSpans (functionDefinition inner)
      (functionDefinition other) := by
  refine .before advance_persists fun keyword keywordTwin _ => ?_
  refine typedName_persists fun returns name nameTwin nameSame =>
    (?_ : Persists tail true true nodeWithoutSpans _ _).ungripped
  refine .before (expect_persists (by decide) _).loose fun _ _ _ => ?_
  refine .beforeSame parameters_persists fun parameters => ?_
  refine .before (expect_persists (by decide) _).loose fun _ _ _ => ?_
  refine .before (declareFunction_persists nameSame _).loose fun _ _ _ => ?_
  refine .bind (functionBody_persists goesOn returns parameters) fun body bodyTwin bodySame => ?_
  refine .bind (endBlockStatement_persists separate) fun _ _ _ => ?_
  refine .pure (statement_same ?_ _ _)
  rw [Form.withoutSpans, Form.withoutSpans, definitionWithoutSpans, definitionWithoutSpans,
    Token.lexeme_eq nameSame, bodySame]

theorem returnedValue_persists (goesOn : GoesOn tail inner other) (keyword twin : Token) :
    Persists tail false false optionWithoutSpans (returnedValue inner place keyword)
      (returnedValue other place twin) := by
  refine .bindSame (check_persists .semicolon) fun found => ?_
  refine .ite (fun _ => ?_) fun _ => ?_
  · cases place.returns with
    | none => exact .pure rfl
    | some ty => exact .ite (fun _ => .pure rfl) fun _ => .refuse _ _
  · refine .bind goesOn.expressions.loose fun value valueTwin valueSame => ?_
    rw [Typed.Same.ty valueSame]
    cases place.returns with
    | none => exact .pure (congrArg some valueSame)
    | some ty =>
      refine .ite (fun _ => .refuse _ _) fun _ => ?_
      exact .ite (fun _ => .pure (congrArg some valueSame)) fun _ => .refuse _ _

theorem returnStatement_persists (goesOn : GoesOn tail inner other) :
    Persists tail true true nodeWithoutSpans (returnStatement inner place)
      (returnStatement other place) := by
  refine .before advance_persists fun keyword twin _ => ?_
  refine .before (returnedValue_persists goesOn keyword twin) fun value valueTwin valueSame => ?_
  refine .bind endStatement_persists fun _ _ _ => .pure (statement_same ?_ _ _)
  rw [Form.withoutSpans, Form.withoutSpans, valueSame]

theorem jumpStatement_persists (form : Form) :
    Persists tail true true nodeWithoutSpans (jumpStatement place form)
      (jumpStatement place form) := by
  refine .before advance_persists fun keyword twin _ => ?_
  refine .ite (fun _ => ?_) fun _ => .refuse _ _
  exact .bind endStatement_persists fun _ _ _ => .pure rfl

theorem expressionStatement_persists (goesOn : GoesOn tail inner other) :
    Persists tail true true nodeWithoutSpans (expressionStatement inner)
      (expressionStatement other) := by
  refine .before goesOn.expressions.loose fun node twin same => ?_
  exact .bind endStatement_persists fun _ _ _ => .pure same

/-! ## Chains -/

theorem GuardKind.ofToken?_separate {kind : TokenKind} (separate : Separate kind) :
    GuardKind.ofToken? kind false = none := by
  cases kind with
  | «elif» | «eltry» => exact absurd separate (by decide)
  | _ => rfl

theorem Reader.Longer.guard (more : reader.Longer tail longer)
    (separate : Separate (kindAhead tail)) :
    GuardKind.ofToken? longer.peek.kind false = GuardKind.ofToken? reader.peek.kind false := by
  by_cases empty : reader.ahead = []
  · rw [GuardKind.ofToken?_separate (more.separate separate empty), Reader.peek, empty]
    exact (GuardKind.ofToken?_separate (more.ends.symm ▸ (by decide : Separate .eof))).symm
  · rw [more.kind (.inr empty)]

theorem guardedBlock_persists (goesOn : GoesOn tail inner other) (place : Place)
    (guard : GuardKind) :
    Persists tail true true branchWithoutSpans
      (branch (inner .expression) (block inner place) guard)
      (branch (other .expression) (block other place) guard) :=
  branch_persists goesOn.expressions (block_persists goesOn) guard

theorem laterBranches_persists (goesOn : GoesOn tail inner other)
    (separate : Separate (kindAhead tail)) {rounds others : List Token}
    (more : reader.Longer tail longer) (left : Rounds tail reader rounds others)
    {branches twins : List (Branch Form)} (begun : branches.isEmpty = false)
    (same : branchesWithoutSpans twins = branchesWithoutSpans branches) :
    PersistsAt tail true false branchesWithoutSpans (blockBranches inner place rounds branches)
      (blockBranches other place others twins) reader longer := by
  have begunToo : twins.isEmpty = false := (isEmpty_of_same same).trans begun
  have guards := more.guard separate
  induction rounds generalizing reader longer others branches twins with
  | nil =>
    -- Without a round nothing but the tail is ahead, and that opens no branch.
    have ended : GuardKind.ofToken? longer.peek.kind false = none := by
      rw [guards, Reader.peek, left.empty]
      exact GuardKind.ofToken?_separate (more.ends.symm ▸ (by decide : Separate .eof))
    have stops : blockBranches other place others twins longer = .ok (twins, longer) := by
      cases others with
      | nil => rfl
      | cons round rest =>
        rw [blockBranches, bind_peek, begunToo, ended]
        rfl
    rintro _ _ ⟨⟩
    exact ⟨.refl reader, (by rintro ⟨⟩), fun _ => ⟨twins, longer, stops, same, more⟩⟩
  | cons round rounds ih =>
    obtain ⟨again, rest, rfl, fewer⟩ := left.uncons
    intro made after run
    rw [blockBranches, bind_peek, begun] at run
    rw [blockBranches, bind_peek, begunToo, guards]
    rcases opens : GuardKind.ofToken? reader.peek.kind false with _ | guard
    · rw [opens] at run
      exact PersistsAt.pure more same made after run
    · rw [opens] at run
      have reads := guardedBlock_persists goesOn place guard reader longer more
      refine PersistsAt.bind more reads.ungripped ?_ made after run
      intro next nextTwin between further nextSame run moreBetween
      have shorter := (reads next between run).2.1 rfl
      have begins (sofar : List (Branch Form)) (last : Branch Form) :
          (sofar ++ [last]).isEmpty = false :=
        List.isEmpty_eq_false_iff.mpr (List.append_ne_nil_of_right_ne_nil _ (List.cons_ne_nil _ _))
      refine ih moreBetween (fewer between shorter) (begins _ _) ?_ (begins _ _)
        (moreBetween.guard separate)
      rw [branchesWithoutSpans_append, branchesWithoutSpans_append, same]
      exact congrArg (fun made => branchesWithoutSpans branches ++ [made]) nextSame

theorem opens_ahead {guard : GuardKind} (ends : reader.finish.kind = .eof)
    (opens : GuardKind.ofToken? reader.peek.kind true = some guard) : reader.ahead ≠ [] := by
  refine Reader.ahead_of_kind ends fun isEnd => ?_
  rw [isEnd] at opens
  cases opens

theorem blockBranches_persists (goesOn : GoesOn tail inner other) (place : Place)
    (separate : Separate (kindAhead tail)) {guard : GuardKind}
    (opens : GuardKind.ofToken? reader.peek.kind true = some guard) {rounds others : List Token}
    (more : reader.Longer tail longer) (left : Rounds tail reader rounds others) :
    PersistsAt tail true true branchesWithoutSpans (blockBranches inner place rounds [])
      (blockBranches other place others []) reader longer := by
  have ahead := opens_ahead more.ends opens
  cases rounds with
  | nil => exact absurd left.empty ahead
  | cons round rounds =>
    obtain ⟨again, rest, rfl, fewer⟩ := left.uncons
    intro made after run
    rw [blockBranches, bind_peek, List.isEmpty_nil, opens] at run
    rw [blockBranches, bind_peek, more.kind (.inr ahead), List.isEmpty_nil, opens]
    have reads := guardedBlock_persists goesOn place guard reader longer more
    refine PersistsAt.bind more reads ?_ made after run
    intro first firstTwin between further same run moreBetween
    have shorter := (reads first between run).2.1 rfl
    refine laterBranches_persists goesOn separate moreBetween (fewer between shorter) rfl ?_
    exact congrArg (fun made => [made]) same

theorem lastBlock_persists (goesOn : GoesOn tail inner other) :
    Persists tail true false optionWithoutSpans (some <$> block inner place)
      (some <$> block other place) := by
  rw [map_eq_pure_bind, map_eq_pure_bind]
  refine (Persists.bind (block_persists goesOn) ?_).ungripped
  exact fun _ _ same => .pure (congrArg some same)

theorem chainStatement_persists (goesOn : GoesOn tail inner other)
    (separate : Separate (kindAhead tail)) {guard : GuardKind}
    (opens : GuardKind.ofToken? reader.peek.kind true = some guard)
    (more : reader.Longer tail longer) :
    PersistsAt tail true true nodeWithoutSpans (chainStatement inner place)
      (chainStatement other place) reader longer := by
  have rounds : Rounds tail reader reader.ahead longer.ahead := ⟨Nat.le_refl _, more.length⟩
  have reads := blockBranches_persists goesOn place separate opens more rounds
  intro node after run
  rw [chainStatement, bind_peek, bind_remaining] at run ⊢
  refine PersistsAt.bind more reads ?_ node after run
  intro branches twins between further branchesSame _ moreBetween
  refine Persists.bindSame (accept_whole (by decide) (by decide) separate) ?_ _ _ moreBetween
  intro found
  have rest : ∀ otherwise otherwiseTwin,
      optionWithoutSpans otherwiseTwin = optionWithoutSpans otherwise →
      Persists tail true false nodeWithoutSpans
        (chainMade reader.peek.span branches otherwise)
        (chainMade longer.peek.span twins otherwiseTwin) := by
    intro otherwise otherwiseTwin otherwiseSame
    refine .bind (endBlockStatement_persists separate) fun _ _ _ => .pure (statement_same ?_ _ _)
    rw [Form.withoutSpans, Form.withoutSpans, branchesSame, otherwiseSame]
  exact .ite (fun _ => .bind (lastBlock_persists goesOn) rest) fun _ => .bind (.pure rfl) rest

/-! ## What an `if` or a `try` begins -/

/-- A chain that is a value goes on behind its first word, and behind its first test. -/
def Grounded (inner : Goal → Parse Node) : Prop :=
  ∀ reader node after, reader.finish.kind = .eof → inner .expression reader = .ok (node, after) →
    (reader.peek.kind = .try → reader.next.ahead ≠ []) ∧
      (reader.peek.kind = .if → ∀ test between,
        inner .expression reader.next = .ok (test, between) → between.ahead ≠ [])

theorem startsChain_try (isTry : reader.peek.kind = .try) :
    startsChain inner reader = .ok (decide (reader.next.peek.kind = .leftBrace), reader) := by
  rw [startsChain, bind_check, decide_eq_true isTry]
  rfl

theorem startsChain_if (isIf : reader.peek.kind = .if) {test : Node} {between : Reader}
    (run : inner .expression reader.next = .ok (test, between)) :
    startsChain inner reader = .ok (decide (between.peek.kind = .leftBrace), reader) := by
  have notTry : reader.peek.kind ≠ .try := isIf ▸ by decide
  rw [startsChain, bind_check, decide_eq_false notTry, if_neg Bool.false_ne_true, bind_get,
    bind_advance, bind_of_ok run]
  rfl

theorem startsChain_test (isIf : reader.peek.kind = .if) {braced : Bool} {after : Reader}
    (run : startsChain inner reader = .ok (braced, after)) :
    ∃ test between, inner .expression reader.next = .ok (test, between) := by
  have notTry : reader.peek.kind ≠ .try := isIf ▸ by decide
  rw [startsChain, bind_check, decide_eq_false notTry, if_neg Bool.false_ne_true, bind_get,
    bind_advance] at run
  obtain ⟨test, between, testRun, -⟩ := bind_ok run
  exact ⟨test, between, testRun⟩

theorem startsChain_back {braced : Bool} {after : Reader}
    (run : startsChain inner reader = .ok (braced, after)) : after = reader := by
  rw [startsChain, bind_check] at run
  by_cases isTry : reader.peek.kind = .try
  · rw [decide_eq_true isTry] at run
    cases run
    rfl
  · rw [decide_eq_false isTry, if_neg Bool.false_ne_true, bind_get, bind_advance] at run
    obtain ⟨_, _, _, run⟩ := bind_ok run
    cases run
    rfl

/-- Behind `if` the brace that tells a statement from a value stands before the tail. -/
theorem startsChain_if_persists (goesOn : GoesOn tail inner other) (grounded : Grounded inner)
    (isIf : reader.peek.kind = .if) (more : reader.Longer tail longer) {braced : Bool}
    (run : startsChain inner reader = .ok (braced, reader))
    (asValue : braced = false → ∃ node stop, inner .expression reader = .ok (node, stop)) :
    startsChain other longer = .ok (braced, longer) := by
  have left := Reader.ahead_of_kind more.ends (isIf ▸ by decide)
  have moreNext := more.next (.inr left)
  obtain ⟨test, stop, testRun⟩ := startsChain_test isIf run
  have isBraced : decide (stop.peek.kind = .leftBrace) = braced :=
    (Prod.mk.inj (Except.ok.inj ((startsChain_if isIf testRun).symm.trans run))).1
  obtain ⟨leads, -, alike⟩ := goesOn.expressions _ _ moreNext test stop testRun
  have room : stop.ahead ≠ [] := by
    by_cases here : stop.peek.kind = .leftBrace
    · exact Reader.ahead_of_kind (moreNext.leads leads) (here ▸ by decide)
    · obtain ⟨node, last, nodeRun⟩ := asValue (isBraced.symm.trans (decide_eq_false here))
      exact (grounded _ node last more.ends nodeRun).2 isIf test stop testRun
  obtain ⟨twin, further, testRunToo, -, moreStop⟩ := alike (.inr (.inr room))
  rw [startsChain_if ((more.kind (.inr left)).trans isIf) testRunToo, moreStop.kind (.inr room),
    isBraced]

theorem startsChain_try_persists (grounded : Grounded inner) (isTry : reader.peek.kind = .try)
    (more : reader.Longer tail longer) {braced : Bool}
    (run : startsChain inner reader = .ok (braced, reader))
    (asValue : braced = false → ∃ node stop, inner .expression reader = .ok (node, stop)) :
    startsChain other longer = .ok (braced, longer) := by
  have left := Reader.ahead_of_kind more.ends (isTry ▸ by decide)
  have moreNext := more.next (.inr left)
  have isBraced : decide (reader.next.peek.kind = .leftBrace) = braced :=
    (Prod.mk.inj (Except.ok.inj ((startsChain_try isTry).symm.trans run))).1
  have room : reader.next.ahead ≠ [] := by
    by_cases here : reader.next.peek.kind = .leftBrace
    · exact Reader.ahead_of_kind moreNext.ends (here ▸ by decide)
    · obtain ⟨node, last, nodeRun⟩ := asValue (isBraced.symm.trans (decide_eq_false here))
      exact (grounded _ node last more.ends nodeRun).1 isTry
  rw [startsChain_try ((more.kind (.inr left)).trans isTry), moreNext.kind (.inr room), isBraced]

theorem chainOrExpression_persists (goesOn : GoesOn tail inner other) (grounded : Grounded inner)
    (separate : Separate (kindAhead tail))
    (kind : reader.peek.kind = .if ∨ reader.peek.kind = .try)
    (more : reader.Longer tail longer) :
    PersistsAt tail true true nodeWithoutSpans (chainOrExpression inner place)
      (chainOrExpression other place) reader longer := by
  intro node after run
  obtain ⟨braced, between, startsRun, rest⟩ := bind_ok run
  obtain rfl := startsChain_back startsRun
  -- Without a brace the chain is read as a value, from where it was looked at.
  have asValue (value : braced = false) :
      ∃ made stop, inner .expression between = .ok (made, stop) := by
    subst value
    obtain ⟨made, stop, madeRun, -⟩ := bind_ok rest
    exact ⟨made, stop, madeRun⟩
  have starts : startsChain other longer = .ok (braced, longer) := by
    rcases kind with isIf | isTry
    · exact startsChain_if_persists goesOn grounded isIf more startsRun asValue
    · exact startsChain_try_persists grounded isTry more startsRun asValue
  rw [chainOrExpression, bind_of_ok starts]
  cases braced with
  | false => exact expressionStatement_persists goesOn _ _ more node after rest
  | true =>
    obtain ⟨guard, opens⟩ : ∃ guard, GuardKind.ofToken? between.peek.kind true = some guard := by
      rcases kind with isIf | isTry
      · exact ⟨.test, by rw [isIf]; rfl⟩
      · exact ⟨.attempt, by rw [isTry]; rfl⟩
    exact chainStatement_persists goesOn separate opens more node after rest

theorem statement_persists (goesOn : GoesOn tail inner other) (grounded : Grounded inner)
    (separate : Separate (kindAhead tail)) :
    Persists tail true true nodeWithoutSpans (statement inner place) (statement other place) := by
  have declarations : Persists tail true true nodeWithoutSpans (declarationStatement inner)
      (declarationStatement other) :=
    .before (variableDeclaration_persists goesOn).loose fun _ _ same =>
      .bind endStatement_persists fun _ _ _ => .pure same
  intro reader longer more
  refine .sequence more (peek_persists reader longer more) ?_ fun _ => .inr rfl
  rintro _ token _ further same ⟨⟩ moreHere
  rw [Token.kind_eq same]
  cases kind : reader.peek.kind with
  | «repeat» => exact repeatStatement_persists goesOn separate _ _ moreHere
  | loop => exact loopStatement_persists goesOn separate _ _ moreHere
  | «while» => exact whileStatement_persists goesOn separate _ _ moreHere
  | func => exact functionDefinition_persists goesOn separate _ _ moreHere
  | intType | doubleType | boolType | stringType => exact declarations _ _ moreHere
  | voidType => exact .refuse _ _
  | «return» => exact returnStatement_persists goesOn _ _ moreHere
  | «break» | «continue» => exact jumpStatement_persists _ _ _ moreHere
  | «if» =>
    exact chainOrExpression_persists goesOn grounded separate (.inl kind) moreHere
  | «try» =>
    exact chainOrExpression_persists goesOn grounded separate (.inr kind) moreHere
  | _ => exact expressionStatement_persists goesOn _ _ moreHere

end

end RobotScript.Grammar
