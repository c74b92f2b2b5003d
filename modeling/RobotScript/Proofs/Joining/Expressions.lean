import RobotScript.Proofs.Joining.Readers
import RobotScript.Proofs.Rendering.AtomReads

/-! # Expressions persist

Every function of the expression grammar persists if the reader of nested expressions
does. No expression ends itself: each persists only before the end of its tokens. -/
set_option autoImplicit false

namespace RobotScript.Grammar

/-- An expression is read the same before a longer rest, up to spans. -/
abbrev ReadsOn (tail : List Token) (inner other : Parse Node) : Prop :=
  Persists tail false true nodeWithoutSpans inner other

section

variable {tail : List Token} {whole takes : Bool} {α β : Type} {view : α → β}
variable {reader longer : Reader} {inner other : Parse Node}

/-! ## Operators -/

theorem binaryNode_persists {left leftTwin right rightTwin : Node} (leftSame : leftTwin.Same left)
    (rightSame : rightTwin.Same right) (operator : BinaryOp) (span place : Span) :
    Persists tail true false nodeWithoutSpans (binaryNode left operator span right)
      (binaryNode leftTwin operator place rightTwin) := by
  unfold binaryNode
  rw [leftSame.ty, rightSame.ty]
  cases operator.result? left.ty right.ty with
  | none => exact .refuse _ span
  | some ty =>
    refine .pure ?_
    rw [nodeWithoutSpans, nodeWithoutSpans, Form.withoutSpans, Form.withoutSpans, leftSame,
      rightSame]

theorem unaryNode_persists {operand twin : Node} (same : twin.Same operand) (operator : UnaryOp)
    (span place : Span) :
    Persists tail true false nodeWithoutSpans (unaryNode operator span operand)
      (unaryNode operator place twin) := by
  unfold unaryNode
  rw [same.ty]
  cases operator.result? operand.ty with
  | none => exact .refuse _ span
  | some ty =>
    refine .pure ?_
    rw [nodeWithoutSpans, nodeWithoutSpans, Form.withoutSpans, Form.withoutSpans, same]

theorem binaryOperator_persists (operators : List (TokenKind × BinaryOp)) :
    Persists tail false false (Option.map Prod.fst) (binaryOperator operators)
      (binaryOperator operators) := by
  refine .bind peek_persists fun token twin same => ?_
  rw [Token.kind_eq same]
  cases operators.lookup token.kind with
  | none => exact .pure rfl
  | some operator => exact .bind advance_persists fun _ _ _ => .pure rfl

theorem binaryOperator_shorter {operators : List (TokenKind × BinaryOp)}
    (signs : operators.lookup .eof = none) {found : BinaryOp × Span} {between : Reader}
    (ends : reader.finish.kind = .eof)
    (run : binaryOperator operators reader = .ok (some found, between)) :
    between.ahead.length < reader.ahead.length := by
  rw [binaryOperator, bind_peek] at run
  cases known : operators.lookup reader.peek.kind with
  | none =>
    rw [known] at run
    cases run
  | some operator =>
    rw [known] at run
    cases run
    have left : reader.ahead ≠ [] := by
      refine Reader.ahead_of_kind ends fun isEnd => ?_
      rw [isEnd, signs] at known
      cases known
    exact next_shorter left

theorem operatorChain_persists {operators : List (TokenKind × BinaryOp)}
    (signs : operators.lookup .eof = none) (operands : ReadsOn tail inner other)
    {rounds others : List Token} (more : reader.Longer tail longer)
    (left : Rounds tail reader rounds others) {first twin : Node} (same : twin.Same first) :
    PersistsAt tail false false nodeWithoutSpans (operatorChain operators inner rounds first)
      (operatorChain operators other others twin) reader longer := by
  induction rounds generalizing reader longer others first twin with
  | nil =>
    refine left.last (operatorChain operators other · twin) ?_
    exact .pure more same
  | cons round rounds ih =>
    obtain ⟨again, rest, rfl, fewer⟩ := left.uncons
    rw [operatorChain, operatorChain]
    refine .bind more (binaryOperator_persists operators reader longer more) ?_
    intro found foundTwin between further sameFound run moreBetween
    cases found with
    | none =>
      obtain rfl := Option.map_eq_none_iff.mp sameFound
      exact .pure moreBetween same
    | some pair =>
      obtain ⟨⟨operator, place⟩, rfl, sameOperator⟩ := Option.map_eq_some_iff.mp sameFound
      obtain rfl : operator = pair.1 := sameOperator
      have shorter := binaryOperator_shorter signs more.ends run
      refine .bind moreBetween (operands between further moreBetween).loose ?_
      intro right rightTwin after beyond rightSame rightRun moreAfter
      refine .bind moreAfter (binaryNode_persists same rightSame _ _ _ after beyond moreAfter).loose ?_
      intro joined joinedTwin last final joinedSame joinedRun moreLast
      have leads := (operands between further moreBetween right after rightRun).1
      have leadsOn := (binaryNode_persists same rightSame _ _ place after beyond moreAfter joined
        last joinedRun).1
      refine ih moreLast (fewer last ?_) joinedSame
      exact Nat.lt_of_le_of_lt (leads.trans leadsOn).length_le shorter

theorem leftAssociative_persists {operators : List (TokenKind × BinaryOp)}
    (signs : operators.lookup .eof = none) (operands : ReadsOn tail inner other) :
    ReadsOn tail (leftAssociative operators inner) (leftAssociative operators other) :=
  .bind operands fun _ _ same => remaining_persists fun _ _ _ _ more left =>
    operatorChain_persists signs operands more left same

theorem prefixed_persists {kind : TokenKind} (sign : kind ≠ .eof) (operator : UnaryOp)
    (operands : ReadsOn tail inner other) {rounds others : List Token}
    (more : reader.Longer tail longer) (left : Rounds tail reader rounds others) :
    PersistsAt tail false true nodeWithoutSpans (prefixed kind operator inner rounds)
      (prefixed kind operator other others) reader longer := by
  induction rounds generalizing reader longer others with
  | nil =>
    refine left.last (prefixed kind operator other) ?_
    exact operands reader longer more
  | cons round rounds ih =>
    obtain ⟨again, rest, rfl, fewer⟩ := left.uncons
    rw [prefixed, prefixed]
    refine .sequence more (check_persists kind reader longer more) ?_ fun _ => .inr rfl
    intro found twin between further same run moreBetween
    obtain ⟨rfl, isFound⟩ := check_ok run
    obtain rfl : twin = found := same
    cases twin with
    | false => exact operands _ _ moreBetween
    | true =>
      have ahead : between.ahead ≠ [] := by
        refine Reader.ahead_of_kind more.ends ?_
        exact of_decide_eq_true isFound.symm ▸ sign
      refine .sequence moreBetween (advance_persists _ _ moreBetween) ?_ fun _ => .inr rfl
      rintro token tokenTwin _ beyond - ⟨⟩ moreNext
      refine .bind moreNext (ih moreNext (fewer _ (next_shorter ahead))) ?_
      intro operand operandTwin after final operandSame _ moreAfter
      exact (unaryNode_persists operandSame operator _ _ after final moreAfter).inPart

/-! ## Names in view -/

theorem variableType_persists {name twin : Token} (same : twin.bare = name.bare) :
    Persists tail true false id (variableType name) (variableType twin) := by
  refine .get fun reader longer context => ?_
  rw [context, Token.lexeme_eq same]
  cases reader.context.variableType? name.lexeme with
  | none => exact .refuse _ _
  | some ty => exact .pure rfl

theorem functionSignature_persists {name twin : Token} (same : twin.bare = name.bare) :
    Persists tail true false id (functionSignature name) (functionSignature twin) := by
  refine .get fun reader longer context => ?_
  rw [context, Token.lexeme_eq same]
  cases reader.context.signature? name.lexeme with
  | none => exact .refuse _ _
  | some signature => exact .pure rfl

/-! ## Items between commas -/

theorem separated_persists {item otherItem : α → Parse α}
    (items : ∀ sofar twin, view twin = view sofar →
      Persists tail false takes view (item sofar) (otherItem twin))
    {rounds others : List Token} (more : reader.Longer tail longer)
    (left : Rounds tail reader rounds others) {sofar twin : α} (same : view twin = view sofar) :
    PersistsAt tail false takes view (separated item rounds sofar)
      (separated otherItem others twin) reader longer := by
  induction rounds generalizing reader longer others sofar twin with
  | nil =>
    refine left.last (separated otherItem · twin) ?_
    exact items sofar twin same reader longer more
  | cons round rounds ih =>
    obtain ⟨again, rest, rfl, fewer⟩ := left.uncons
    rw [separated, separated]
    refine .bind more (items sofar twin same reader longer more) ?_
    intro made madeTwin between further madeSame run moreBetween
    have leads := (items sofar twin same reader longer more made between run).1
    refine .bind moreBetween (accept_persists (by decide) between further moreBetween) ?_
    intro goesOn goesOnTwin after beyond goesOnSame comma moreAfter
    obtain rfl : goesOnTwin = goesOn := goesOnSame
    cases goesOnTwin with
    | false => exact .pure moreAfter madeSame
    | true =>
      have shorter := accept_shorter (by decide) moreBetween.ends comma
      exact (ih moreAfter (fewer after (Nat.lt_of_lt_of_le shorter leads.length_le))
        madeSame).ungripped

theorem commaSeparated_persists {item otherItem : α → Parse α}
    (items : ∀ sofar twin, view twin = view sofar →
      Persists tail false takes view (item sofar) (otherItem twin))
    {start twin : α} (same : view twin = view start) :
    Persists tail false takes view (commaSeparated item start) (commaSeparated otherItem twin) :=
  remaining_persists fun _ _ _ _ more left => separated_persists items more left same

theorem argument_persists (inners : ReadsOn tail inner other) {sofar twin : List Node}
    (same : nodesWithoutSpans twin = nodesWithoutSpans sofar) :
    Persists tail false true nodesWithoutSpans (argument inner sofar) (argument other twin) := by
  refine .bind inners fun node nodeTwin nodeSame => .pure ?_
  rw [nodesWithoutSpans_append, nodesWithoutSpans_append, same]
  exact congrArg (fun last => nodesWithoutSpans sofar ++ [last]) nodeSame

theorem arguments_persists (inners : ReadsOn tail inner other) :
    Persists tail false false nodesWithoutSpans (arguments inner) (arguments other) := by
  refine .bindSame (check_persists .rightParen) fun found => ?_
  refine .ite (fun _ => .pure rfl) fun _ => ?_
  exact (commaSeparated_persists (fun _ _ same => argument_persists inners same) rfl).loose

/-! ## Names -/

theorem call_persists (inners : ReadsOn tail inner other) (more : reader.Longer tail longer)
    (left : reader.ahead ≠ []) :
    PersistsAt tail false true optionWithoutSpans (call inner) (call other) reader longer := by
  refine .bind more (advance_here more left).inPart ?_
  intro name nameTwin _ _ nameSame _ moreNext
  refine Persists.bindSame (accept_persists (by decide)) ?_ _ _ moreNext
  intro found
  refine .ite (fun _ => ?_) fun _ => .pure rfl
  refine .bindSame (functionSignature_persists nameSame).loose fun signature => ?_
  refine .bind (arguments_persists inners) fun made madeTwin madeSame => ?_
  refine .bind (expect_persists (by decide) _).loose fun close closeTwin _ => ?_
  dsimp only
  cases fits : argumentFault? name.lexeme signature.parameters made (name.span.through close.span) with
  | some fault => exact .refuse fault.cause fault.span
  | none =>
    have fitsToo := argumentFault?_of_takes nameTwin.lexeme (Sames.of_withoutSpans madeSame)
      (argumentFault?_eq_none fits) (nameTwin.span.through closeTwin.span)
    rw [fitsToo]
    refine .pure ?_
    simp only [optionWithoutSpans, nodeWithoutSpans, Form.withoutSpans, Token.lexeme_eq nameSame,
      madeSame]

theorem call_none {between : Reader} (run : call inner reader = .ok (none, between)) :
    reader.next.peek.kind ≠ .leftParen := by
  intro here
  rw [call, bind_advance, bind_accept, if_pos here] at run
  obtain ⟨signature, _, _, run⟩ := bind_ok run
  obtain ⟨made, _, _, run⟩ := bind_ok run
  obtain ⟨close, _, _, run⟩ := bind_ok run
  cases fits : argumentFault? reader.peek.lexeme signature.parameters made
    (reader.peek.span.through close.span) with
  | some fault =>
    simp only [fits] at run
    cases run
  | none =>
    simp only [fits] at run
    cases run

theorem index_persists (inners : ReadsOn tail inner other) (more : reader.Longer tail longer)
    (left : reader.ahead ≠ []) :
    PersistsAt tail false true optionWithoutSpans (index inner) (index other) reader longer := by
  refine .bind more (advance_here more left).inPart ?_
  intro name nameTwin _ _ nameSame _ moreNext
  refine Persists.bindSame (accept_persists (by decide)) ?_ _ _ moreNext
  intro found
  refine .ite (fun _ => ?_) fun _ => .pure rfl
  refine .bindSame (variableType_persists nameSame).loose fun ty => ?_
  refine .ite (fun _ => ?_) fun _ => .refuse _ _
  refine .bind inners.loose fun position positionTwin positionSame => ?_
  rw [Typed.Same.ty positionSame]
  refine .ite (fun _ => ?_) fun _ => .refuse _ _
  refine .bind (expect_persists (by decide) _).loose fun close closeTwin _ => .pure ?_
  simp only [optionWithoutSpans, nodeWithoutSpans, Form.withoutSpans, Token.lexeme_eq nameSame,
    positionSame]

theorem index_none {between : Reader} (run : index inner reader = .ok (none, between)) :
    reader.next.peek.kind ≠ .leftBracket := by
  intro here
  rw [index, bind_advance, bind_accept, if_pos here] at run
  obtain ⟨ty, _, _, run⟩ := bind_ok run
  split at run
  · obtain ⟨position, _, _, run⟩ := bind_ok run
    split at run
    · obtain ⟨close, _, _, run⟩ := bind_ok run
      cases run
    · cases run
  · cases run

theorem assignedValue_persists (inners : ReadsOn tail inner other) (name twin : Token)
    (target : Ty) (operator : AssignOp) (span place : Span) :
    Persists tail false false optionWithoutSpans (assignedValue inner name target operator span)
      (assignedValue other twin target operator place) := by
  cases operator with
  | increment => exact .ite (fun _ => .pure rfl) fun _ => .refuse _ _
  | decrement => exact .ite (fun _ => .pure rfl) fun _ => .refuse _ _
  | set =>
    refine .bind inners.loose fun value valueTwin same => ?_
    rw [Typed.Same.ty same]
    exact .ite (fun _ => .pure (congrArg some same)) fun _ => .refuse _ _
  | compound binary =>
    refine .bind inners.loose fun value valueTwin same => ?_
    rw [Typed.Same.ty same]
    exact .ite (fun _ => .pure (congrArg some same)) fun _ => .refuse _ _

theorem assignment_persists (inners : ReadsOn tail inner other) (more : reader.Longer tail longer)
    (left : reader.ahead ≠ []) :
    PersistsAt tail false true optionWithoutSpans (assignment inner) (assignment other) reader
      longer := by
  refine .bind more (advance_here more left).inPart ?_
  intro name nameTwin _ _ nameSame _ moreNext
  refine Persists.bind peek_persists ?_ _ _ moreNext
  intro sign signTwin signSame
  rw [Token.kind_eq signSame]
  cases assignOp? sign.kind with
  | none => exact .pure rfl
  | some operator =>
    refine .bind advance_persists fun _ _ _ => ?_
    refine .bindSame (variableType_persists nameSame).loose fun target => ?_
    refine .bind (assignedValue_persists inners name nameTwin target operator _ _) ?_
    intro value valueTwin valueSame
    refine .pure ?_
    simp only [optionWithoutSpans, nodeWithoutSpans, Form.withoutSpans, Token.lexeme_eq nameSame,
      valueSame]

theorem assignment_none {between : Reader} (run : assignment inner reader = .ok (none, between)) :
    assignOp? reader.next.peek.kind = none := by
  rw [assignment, bind_advance, bind_peek] at run
  cases known : assignOp? reader.next.peek.kind with
  | none => rfl
  | some operator =>
    rw [known] at run
    obtain ⟨sign, _, _, run⟩ := bind_ok run
    obtain ⟨target, _, _, run⟩ := bind_ok run
    obtain ⟨value, _, _, run⟩ := bind_ok run
    cases run

theorem variableUse_persists (more : reader.Longer tail longer) (left : reader.ahead ≠ []) :
    PersistsAt tail false true nodeWithoutSpans variableUse variableUse reader longer := by
  refine .bind more (advance_here more left).inPart ?_
  intro name nameTwin _ _ nameSame _ moreNext
  refine Persists.bindSame (variableType_persists nameSame).loose (fun ty => .pure ?_) _ _ moreNext
  simp only [nodeWithoutSpans, Form.withoutSpans, Token.lexeme_eq nameSame]

/-- An alternative that is told by the token behind the first, and what is read if it
does not fit: that takes a token, so it stops early only if the alternative did. -/
theorem attempt_persists {form otherForm : Parse (Option Node)} {rest otherRest : Parse Node}
    (forms : PersistsAt tail false true optionWithoutSpans form otherForm reader longer)
    (told : Room tail reader.next → ∀ between, form reader = .ok (none, between) →
      ∃ further, otherForm longer = .ok (none, further))
    (rests : PersistsAt tail false true nodeWithoutSpans rest otherRest reader longer) :
    PersistsAt tail false true nodeWithoutSpans
      (do
        match ← attempt form with
        | some node => return node
        | none => rest)
      (do
        match ← attempt otherForm with
        | some node => return node
        | none => otherRest) reader longer := by
  intro node after run
  obtain ⟨found, between, formRun, restRun⟩ := bind_ok run
  cases found with
  | some fitting =>
    cases restRun
    have fits := (attempt_some _ _ _ _).mp formRun
    obtain ⟨leads, taken, alike⟩ := forms _ _ fits
    refine ⟨leads, taken, fun room => ?_⟩
    obtain ⟨twin, further, otherRun, same, moreAfter⟩ := alike room
    cases twin with
    | none => cases same
    | some twin =>
      refine ⟨twin, further, ?_, Option.some.inj same, moreAfter⟩
      rw [bind_of_ok ((attempt_some _ _ _ _).mpr otherRun)]
      rfl
  | none =>
    obtain ⟨rfl, misfit, misfits⟩ := (attempt_none _ _ _).mp formRun
    obtain ⟨leads, taken, alike⟩ := rests _ _ restRun
    refine ⟨leads, taken, fun room => ?_⟩
    obtain ⟨twin, further, otherRun, same, moreAfter⟩ := alike room
    -- What is read instead takes a token, so the alternative stopped before the tail.
    have early : Room tail between.next := by
      refine (room.resolve_left (by rintro ⟨⟩)).imp_right fun left empty => left ?_
      have shorter := taken rfl
      have length := between.next_ahead ▸ congrArg List.length empty
      rw [List.length_tail, List.length_nil] at length
      exact List.length_eq_zero_iff.mp (by omega)
    obtain ⟨stop, misfitsToo⟩ := told early misfit misfits
    refine ⟨twin, further, ?_, same, moreAfter⟩
    rw [bind_of_ok ((attempt_none _ _ _).mpr ⟨rfl, stop, misfitsToo⟩)]
    exact otherRun

theorem nameForm_persists (inners : ReadsOn tail inner other) (more : reader.Longer tail longer)
    (left : reader.ahead ≠ []) :
    PersistsAt tail false true nodeWithoutSpans (nameForm inner) (nameForm other) reader
      longer := by
  have sameKind (room : Room tail reader.next) : longer.next.peek.kind = reader.next.peek.kind :=
    (more.next (.inr left)).kind room
  refine attempt_persists (call_persists inners more left) ?_ ?_
  · intro room between misfits
    refine ⟨longer.next, ?_⟩
    rw [call, bind_advance, bind_accept, if_neg (sameKind room ▸ call_none misfits)]
    rfl
  refine attempt_persists (index_persists inners more left) ?_ ?_
  · intro room between misfits
    refine ⟨longer.next, ?_⟩
    rw [index, bind_advance, bind_accept, if_neg (sameKind room ▸ index_none misfits)]
    rfl
  refine attempt_persists (assignment_persists inners more left) ?_ ?_
  · intro room between misfits
    refine ⟨longer.next, ?_⟩
    rw [assignment, bind_advance, bind_peek, sameKind room, assignment_none misfits]
    rfl
  · exact variableUse_persists more left

/-! ## Lists -/

theorem elementType_persists (current : Option Ty) {element twin : Node}
    (same : twin.Same element) :
    Persists tail true false id (elementType current element) (elementType current twin) := by
  unfold elementType
  rw [same.ty]
  refine .ite (fun _ => .refuse _ _) fun _ => ?_
  cases current with
  | none => exact .pure rfl
  | some ty =>
    refine .ite (fun _ => .pure rfl) fun _ => ?_
    exact .ite (fun _ => .pure rfl) fun _ => .refuse _ _

def elementsView (sofar : List Node × Option Ty) : List Node × Option Ty :=
  (nodesWithoutSpans sofar.1, sofar.2)

theorem element_persists (inners : ReadsOn tail inner other) {sofar twin : List Node × Option Ty}
    (same : elementsView twin = elementsView sofar) :
    Persists tail false true elementsView (element inner sofar) (element other twin) := by
  obtain ⟨elements, types⟩ := Prod.mk.inj same
  refine .bind inners fun node nodeTwin nodeSame => ?_
  rw [types]
  refine .bindSame (elementType_persists sofar.2 nodeSame).loose fun ty => .pure ?_
  rw [elementsView, elementsView, nodesWithoutSpans_append, nodesWithoutSpans_append, elements]
  exact congrArg (fun last => (nodesWithoutSpans sofar.1 ++ [last], some ty)) nodeSame

theorem listLiteral_persists (inners : ReadsOn tail inner other) :
    ReadsOn tail (listLiteral inner) (listLiteral other) := by
  refine .before advance_persists fun opening openingTwin _ => ?_
  refine .beforeSame (check_persists .rightBracket) fun found => ?_
  refine .ite (fun _ => ?_) fun _ => ?_
  · exact .before peek_persists fun _ _ _ => .refuse _ _
  · refine .bind (commaSeparated_persists (fun _ _ => element_persists inners) rfl) ?_
    rintro ⟨elements, ty⟩ ⟨elementsTwin, tyTwin⟩ same
    obtain ⟨elementsSame, rfl⟩ := Prod.mk.inj same
    refine .bind (expect_persists (by decide) _).loose fun close closeTwin _ => .pure ?_
    simp only [nodeWithoutSpans, Form.withoutSpans, elementsSame]

/-! ## Chains -/

theorem requireBool_persists {condition twin : Node} (same : twin.Same condition)
    (keyword word : String) :
    Persists tail true false id (requireBool condition keyword) (requireBool twin word) := by
  unfold requireBool
  rw [same.ty]
  exact .ite (fun _ => .pure rfl) fun _ => .refuse _ _

theorem unifyBranch_persists (current : Option Ty) {body twin : Node} (same : twin.Same body) :
    Persists tail true false id (unifyBranch current body) (unifyBranch current twin) := by
  unfold unifyBranch
  rw [same.ty]
  refine .ite (fun _ => .refuse _ _) fun _ => ?_
  cases current with
  | none => exact .pure rfl
  | some ty => exact .ite (fun _ => .pure rfl) fun _ => .refuse _ _

theorem branch_persists {condition otherCondition body otherBody : Parse Node}
    (conditions : ReadsOn tail condition otherCondition)
    (bodies : Persists tail whole true nodeWithoutSpans body otherBody) (guard : GuardKind) :
    Persists tail whole true branchWithoutSpans (branch condition body guard)
      (branch otherCondition otherBody guard) := by
  refine .before advance_persists fun keyword keywordTwin _ => ?_
  cases guard with
  | test =>
    refine .before conditions.loose fun test testTwin testSame => ?_
    refine .before (requireBool_persists testSame _ _).loose fun _ _ _ => ?_
    refine .bind bodies fun body bodyTwin bodySame => .pure ?_
    rw [branchWithoutSpans, branchWithoutSpans, testSame, bodySame]
  | attempt =>
    refine .bind bodies fun body bodyTwin bodySame => .pure ?_
    rw [branchWithoutSpans, branchWithoutSpans, bodySame]

theorem isEmpty_of_same {branches twins : List (Branch Form)}
    (same : branchesWithoutSpans twins = branchesWithoutSpans branches) :
    twins.isEmpty = branches.isEmpty := by
  cases branches with
  | nil =>
    cases twins with
    | nil => rfl
    | cons twin rest => cases same
  | cons branch rest =>
    cases twins with
    | nil => cases same
    | cons twin others => rfl

def branchesView (sofar : List (Branch Form) × Option Ty) : List (Branch Form) × Option Ty :=
  (branchesWithoutSpans sofar.1, sofar.2)

theorem body_same {branch twin : Branch Form}
    (same : branchWithoutSpans twin = branchWithoutSpans branch) : twin.body.Same branch.body := by
  cases branch with
  | test guard body span =>
    cases twin with
    | test guardTwin bodyTwin place => exact (Branch.test.inj same).2.1
    | attempt bodyTwin place => cases same
  | attempt body span =>
    cases twin with
    | test guardTwin bodyTwin place => cases same
    | attempt bodyTwin place => exact (Branch.attempt.inj same).1

theorem valueBranches_persists (inners : ReadsOn tail inner other) {rounds others : List Token}
    (more : reader.Longer tail longer) (left : Rounds tail reader rounds others)
    {branches twins : List (Branch Form)} (ty : Option Ty)
    (same : branchesWithoutSpans twins = branchesWithoutSpans branches) :
    PersistsAt tail false false branchesView (valueBranches inner rounds branches ty)
      (valueBranches other others twins ty) reader longer := by
  induction rounds generalizing reader longer others branches twins ty with
  | nil =>
    refine left.last (valueBranches other · twins ty) ?_
    exact .pure more (congrArg (·, ty) same)
  | cons round rounds ih =>
    obtain ⟨again, rest, rfl, fewer⟩ := left.uncons
    rw [valueBranches, valueBranches]
    refine .bind more (peek_persists reader longer more) ?_
    rintro token tokenTwin _ further tokenSame ⟨⟩ moreBetween
    rw [Token.kind_eq tokenSame, isEmpty_of_same same]
    cases GuardKind.ofToken? reader.peek.kind branches.isEmpty with
    | none => exact .pure moreBetween (congrArg (·, ty) same)
    | some guard =>
      have reads := branch_persists inners inners guard reader further moreBetween
      refine .bind moreBetween reads.ungripped ?_
      intro next nextTwin after beyond nextSame run moreAfter
      have bodySame := body_same nextSame
      have unifies := unifyBranch_persists ty bodySame after beyond moreAfter
      refine .bind moreAfter unifies.loose ?_
      intro unified unifiedTwin last final unifiedSame unify moreLast
      obtain rfl : unifiedTwin = unified := unifiedSame
      have shorter := (reads next after run).2.1 rfl
      refine ih moreLast (fewer last ?_) (some unifiedTwin) ?_
      · exact Nat.lt_of_le_of_lt (unifies _ _ unify).1.length_le shorter
      · rw [branchesWithoutSpans_append, branchesWithoutSpans_append, same]
        exact congrArg (fun made => branchesWithoutSpans branches ++ [made]) nextSame

theorem valueChain_persists (inners : ReadsOn tail inner other) :
    ReadsOn tail (valueChain inner) (valueChain other) := by
  refine .before peek_persists fun start startTwin _ => ?_
  refine remaining_persists fun reader longer rounds others more left => ?_
  refine .sequence more (valueBranches_persists inners more left none rfl) ?_ fun _ => .inr rfl
  rintro ⟨branches, ty⟩ ⟨twins, tyTwin⟩ between further same _ moreBetween
  obtain ⟨branchesSame, rfl⟩ := Prod.mk.inj same
  refine Persists.beforeSame (accept_persists (by decide)) ?_ _ _ moreBetween
  intro found
  refine .ite (fun _ => ?_) fun _ => ?_
  · refine .bind inners fun otherwise otherwiseTwin otherwiseSame => ?_
    refine .bindSame (unifyBranch_persists _ otherwiseSame).loose fun common => .pure ?_
    simp only [nodeWithoutSpans, Form.withoutSpans, branchesSame, optionWithoutSpans,
      otherwiseSame]
  · exact .before peek_persists fun _ _ _ => .refuse _ _

/-! ## Atoms and levels -/

theorem grouped_persists (inners : ReadsOn tail inner other) :
    ReadsOn tail (grouped inner) (grouped other) := by
  refine .before advance_persists fun opening openingTwin _ => ?_
  refine .bind inners fun node nodeTwin same => ?_
  refine .bind (expect_persists (by decide) _).loose fun close closeTwin _ => .pure ?_
  obtain ⟨form, ty, span⟩ := node
  obtain ⟨formTwin, tyTwin, place⟩ := nodeTwin
  exact same

theorem literal_persists (value : Value) (more : reader.Longer tail longer)
    (left : reader.ahead ≠ []) :
    PersistsAt tail false true nodeWithoutSpans (literal value) (literal value) reader longer :=
  .bind more (advance_here more left).inPart fun _ _ _ _ _ _ moreNext => .pure moreNext rfl

theorem atom_persists (inners : ReadsOn tail inner other) :
    ReadsOn tail (atom inner) (atom other) := by
  intro reader longer more
  refine .sequence more (peek_persists reader longer more) ?_ fun _ => .inr rfl
  rintro _ token _ further same ⟨⟩ moreHere
  have left (kind : reader.peek.kind ≠ .eof) := Reader.ahead_of_kind more.ends kind
  rw [Token.kind_eq same, Token.lexeme_eq same]
  cases kind : reader.peek.kind with
  | int =>
    cases Decimal.int? reader.peek.lexeme with
    | none => exact .refuse _ _
    | some number => exact literal_persists _ moreHere (left (kind ▸ by decide))
  | double =>
    cases Decimal.double? reader.peek.lexeme with
    | none => exact .refuse _ _
    | some number => exact literal_persists _ moreHere (left (kind ▸ by decide))
  | bool => exact literal_persists _ moreHere (left (kind ▸ by decide))
  | string => exact literal_persists _ moreHere (left (kind ▸ by decide))
  | leftParen => exact grouped_persists inners reader further moreHere
  | leftBracket => exact listLiteral_persists inners reader further moreHere
  | «if» | «try» => exact valueChain_persists inners reader further moreHere
  | identifier => exact nameForm_persists inners moreHere (left (kind ▸ by decide))
  | _ => exact .refuse _ _

theorem expression_persists (inners : ReadsOn tail inner other) :
    ReadsOn tail (expression inner) (expression other) := by
  have negations : ReadsOn tail (negation inner) (negation other) :=
    remaining_persists fun _ _ _ _ more left =>
      prefixed_persists (by decide) .negate (atom_persists inners) more left
  have comparisons : ReadsOn tail (comparison inner) (comparison other) :=
    leftAssociative_persists rfl (leftAssociative_persists rfl (leftAssociative_persists rfl
      (leftAssociative_persists rfl negations)))
  have denials : ReadsOn tail (denial inner) (denial other) :=
    remaining_persists fun _ _ _ _ more left =>
      prefixed_persists (by decide) .not comparisons more left
  exact leftAssociative_persists rfl denials

end

end RobotScript.Grammar
