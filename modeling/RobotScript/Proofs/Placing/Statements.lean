import RobotScript.Grammar.Script
import RobotScript.Proofs.Placing.Expressions
import RobotScript.Proofs.Reading.StatementSound

/-! # Where statements stand in a text

Statements stand in a text as expressions do: what the grammar reads is faithful to the
text and stands between the place where it begins to read and the place where it stops,
and what it refuses lies in the text as well. A chain that is a statement ends with its
last branch, so it has to be known that there is one. -/
set_option autoImplicit false

namespace RobotScript.Grammar

variable {text : List Char} {low middle high : Nat}

def ReadsAll (text : List Char) (inner : Goal → Parse Node) : Prop :=
  ∀ goal, ReadsSitting text (inner goal)

theorem endStatement_places (low : Nat) : Places text low anything endStatement :=
  .bind (.expect _ _) fun _ _ _ _ => .pure trivial

theorem endBlockStatement_places (low : Nat) : Places text low anything endBlockStatement :=
  .bind (.accept _) fun _ _ _ _ => .pure trivial

theorem inScope_places {α : Type} {good : Nat → α → Prop} {body : Parse α}
    (places : Places text low good body) : Places text low good (inScope body) :=
  .changeContext _ <| .bind places fun _ _ _ isGood => .changeContext _ <| .pure isGood

theorem listed_places {first : Parse Node} {rest : Parse (List Node)}
    (one : Places text low (Sits text low) first)
    (others : ∀ middle, Places text middle (Lined text middle) rest) :
    Places text low (Lined text low) (do
      let node ← first
      let list ← rest
      return node :: list) :=
  .bind one fun _ middle _ sits => .bind (others middle) fun _ _ _ lined => .pure (.cons sits lined)

/-! ## Declarations -/

theorem declareVariable_places {name : Token} (within : name.span.In text) (ty : Ty) (low : Nat) :
    Places text low anything (declareVariable name ty) := by
  refine .view fun reader _ => ?_
  split
  · exact .changed _
  · exact .refuse _ within

theorem declareFunction_places {name : Token} (within : name.span.In text) (signature : Signature)
    (low : Nat) : Places text low anything (declareFunction name signature) := by
  refine .view fun reader _ => ?_
  split
  · exact .changed _
  · exact .refuse _ within
  · exact .refuse _ within

theorem parameters_places (low : Nat) : Places text low anything parameters := by
  refine .check _ fun found => ?_
  split
  · exact .pure trivial
  · have kept : Places text low anything (commaSeparated parameter []) := by
      refine .commaSeparated (fun _ _ _ _ => id) (fun low sofar _ => ?_) trivial
      refine .bind (typeName_places _ low) fun ty second _ _ => ?_
      refine .bind (.expect _ _) fun name third _ lies => ?_
      split
      · exact .refuse _ lies.within
      · exact .pure trivial
    exact kept

/-! ## Blocks and loops -/

section

variable {inner : Goal → Parse Node} (reads : ReadsAll text inner)

include reads

theorem statements_places (place : Place) (rounds : List Token) (low : Nat) :
    Places text low (Lined text low) (statements inner place rounds) := by
  induction rounds generalizing low with
  | nil => exact .pure (.nil (Nat.le_refl _))
  | cons token rounds ih =>
    refine .check _ fun closes => .check _ fun ends => ?_
    split
    · exact .pure (.nil (Nat.le_refl _))
    · exact listed_places (reads (.statement place) low) ih

theorem enclosed_places (place : Place) (what : Expected) {opening : Token}
    (lies : Lying text low middle opening) :
    Places text middle (Sits text low) (enclosed inner place what opening) := by
  refine .remaining fun tokens => ?_
  refine .bind (statements_places reads place tokens middle) fun list next _ lined => ?_
  refine .bind (.expect _ _) fun close last _ closeLies => .pure ?_
  exact .between lies lined closeLies rfl rfl rfl

theorem block_places (place : Place) : ReadsSitting text (block inner place) :=
  fun _ => .bind (.expect _ _) fun _ _ _ lies =>
    inScope_places (enclosed_places reads place _ lies)

theorem functionBody_places (returns : Ty) (parameters : List Parameter) :
    ReadsSitting text (functionBody inner returns parameters) :=
  fun _ => .bind (.expect _ _) fun _ _ _ lies =>
    inScope_places <| .changeContext _ <| enclosed_places reads _ _ lies

theorem repeatStatement_places (place : Place) :
    ReadsSitting text (repeatStatement inner place) := by
  refine fun low => .bind .advance fun keyword first _ lies => ?_
  refine .bind (reads .expression first) fun count second _ countSits => ?_
  split
  · refine .bind (block_places reads _ second) fun body third _ bodySits => ?_
    refine .bind (endBlockStatement_places third) fun _ last behind _ => .pure ?_
    have counted := Lined.single (countSits.widen (Span.Lies.start_le lies) (Nat.le_refl _))
    have children := counted.snoc (bodySits.widen (Nat.le_refl _) behind)
    exact .upto_last lies children rfl rfl rfl rfl
  · exact .refuse _ countSits.lies.within

theorem whileStatement_places (place : Place) :
    ReadsSitting text (whileStatement inner place) := by
  refine fun low => .bind .advance fun keyword first _ lies => ?_
  refine .bind (reads .expression first) fun condition second _ conditionSits => ?_
  refine .bind (requireBool_places conditionSits _ second) fun _ third three _ => ?_
  refine .bind (block_places reads _ third) fun body fourth _ bodySits => ?_
  refine .bind (endBlockStatement_places fourth) fun _ last behind _ => .pure ?_
  have tested := Lined.single (conditionSits.widen (Span.Lies.start_le lies) three)
  have children := tested.snoc (bodySits.widen (Nat.le_refl _) behind)
  exact .upto_last lies children rfl rfl rfl rfl

theorem initialValue_places (name : Token) (declared : Ty) (low : Nat) :
    Places text low (Maybe (Sits text low)) (initialValue inner name declared) := by
  refine .bind (.accept _) fun found first before _ => ?_
  split
  · refine .bind (reads .expression first) fun value second _ sits => ?_
    split
    · exact .pure (.some (sits.widen before (Nat.le_refl _)))
    · exact .refuse _ sits.lies.within
  · exact .pure .none

theorem variableDeclaration_places : ReadsSitting text (variableDeclaration inner) := by
  refine fun low => .peek fun token lies => ?_
  refine .bind (typeName_places _ _) fun declared first one _ => ?_
  refine .bind (.expect _ _) fun name second two nameLies => ?_
  refine .bind (initialValue_places reads name declared second) fun value third three sits => ?_
  refine .bind (declareVariable_places nameLies.within declared third) fun _ last four _ => ?_
  refine .pure (.upto_value lies ?_ (fun part isSome => ?_) rfl rfl rfl rfl)
  · exact Span.Lies.widen nameLies one (Nat.le_trans three four)
  · exact (sits part isSome).widen (Nat.le_trans one two) four

theorem loopInitializer_places : ReadsSitting text (loopInitializer inner) := by
  refine fun low => .peek fun token lies => ?_
  have weaken {parse : Parse Node} (places : ReadsSitting text parse) :
      Places text token.span.start.index (Sits text low) parse :=
    (places _).mono fun _ _ _ sits => sits.widen lies.starts (Nat.le_refl _)
  split
  · exact weaken (variableDeclaration_places reads)
  · exact weaken (reads .expression)

theorem loopStatement_places (place : Place) : ReadsSitting text (loopStatement inner place) := by
  refine fun low => .bind .advance fun keyword first _ lies => ?_
  refine .bind (.expect _ _) fun _ second two _ => ?_
  have header : Places text second (Sits text low) (do
      let initializer ← loopInitializer inner
      let _ ← expect .comma .loopInitializerEnd
      let condition ← inner .expression
      requireBool condition "loop"
      let _ ← expect .comma .loopConditionEnd
      let step ← inner .expression
      let _ ← expect .rightParen .loopStepEnd
      let body ← loopBody inner place
      return Typed.statement (.loop initializer condition step body)
        (keyword.span.through body.span)) := by
    refine .bind (loopInitializer_places reads second) fun initializer third three start => ?_
    refine .bind (.expect _ _) fun _ fourth four _ => ?_
    refine .bind (reads .expression fourth) fun condition fifth five conditionSits => ?_
    refine .bind (requireBool_places conditionSits _ fifth) fun _ sixth six _ => ?_
    refine .bind (.expect _ _) fun _ seventh seven _ => ?_
    refine .bind (reads .expression seventh) fun step eighth eight stepSits => ?_
    refine .bind (.expect _ _) fun _ ninth nine _ => ?_
    refine .bind (block_places reads _ ninth) fun body last _ bodySits => .pure ?_
    have begins := Nat.le_trans (Span.Lies.start_le lies) two
    have begun := Lined.single (start.widen begins four)
    have tested := begun.snoc (conditionSits.widen (Nat.le_refl _) (Nat.le_trans six seven))
    have stepped := tested.snoc (stepSits.widen (Nat.le_refl _) nine)
    exact .upto_last lies (stepped.snoc bodySits) rfl rfl rfl rfl
  exact .bind (inScope_places header) fun node next _ sits =>
    .bind (endBlockStatement_places next) fun _ _ behind _ =>
      .pure (sits.widen (Nat.le_refl _) behind)

/-! ## Functions and jumps -/

theorem functionDefinition_places : ReadsSitting text (functionDefinition inner) := by
  refine fun low => .bind .advance fun keyword first _ lies => ?_
  refine .bind (typeName_places _ first) fun returns second two _ => ?_
  refine .bind (.expect _ _) fun name third three nameLies => ?_
  refine .bind (.expect _ _) fun _ fourth four _ => ?_
  refine .bind (parameters_places fourth) fun parameters fifth five _ => ?_
  refine .bind (.expect _ _) fun _ sixth six _ => ?_
  refine .bind (declareFunction_places nameLies.within _ sixth) fun _ seventh seven _ => ?_
  refine .bind (functionBody_places reads returns parameters seventh) fun body last _ sits => ?_
  refine .bind (endBlockStatement_places last) fun _ _ behind _ => .pure ?_
  have begins := Span.Lies.start_le lies
  have before : keyword.span.start.index ≤ seventh := by omega
  exact .upto_only lies (sits.widen before behind) rfl rfl rfl rfl

theorem returnedValue_places (place : Place) {keyword : Token} (within : keyword.span.In text)
    (low : Nat) : Places text low (Maybe (Sits text low)) (returnedValue inner place keyword) := by
  refine .check _ fun found => ?_
  split
  · split
    · exact .pure .none
    · split
      · exact .pure .none
      · exact .refuse _ within
  · refine .bind (reads .expression low) fun value next _ sits => ?_
    split
    · exact .pure (.some sits)
    · split
      · exact .refuse _ sits.lies.within
      · split
        · exact .pure (.some sits)
        · exact .refuse _ sits.lies.within

theorem returnStatement_places (place : Place) :
    ReadsSitting text (returnStatement inner place) := by
  refine fun low => .bind .advance fun keyword first _ lies => ?_
  refine .bind (returnedValue_places reads place lies.within first) fun value second two sits => ?_
  refine .bind (endStatement_places second) fun _ last behind _ => .pure ?_
  refine .upto_value lies ?_ (fun part isSome => ?_) rfl rfl rfl rfl
  · have stops := Nat.le_trans lies.stops (Nat.le_trans two behind)
    exact (Span.Lies.tight lies).widen (Nat.le_refl _) stops
  · exact (sits part isSome).widen (Span.Lies.start_le lies) behind

omit reads in
theorem jumpStatement_places (place : Place) {form : Form}
    (jumps : form = .breaking ∨ form = .continuing) :
    ReadsSitting text (jumpStatement place form) := by
  refine fun low => .bind .advance fun keyword first _ lies => ?_
  split
  · refine .bind (endStatement_places first) fun _ last behind _ => .pure ?_
    have whole := Span.Lies.widen lies (Nat.le_refl _) behind
    rcases jumps with rfl | rfl <;> exact .leaf whole rfl rfl rfl
  · exact .refuse _ lies.within

theorem expressionStatement_places : ReadsSitting text (expressionStatement inner) :=
  fun low => .bind (reads .expression low) fun _ next _ sits =>
    .bind (endStatement_places next) fun _ _ behind _ => .pure (sits.widen (Nat.le_refl _) behind)

/-! ## Chains -/

theorem startsChain_places (low : Nat) : Places text low anything (startsChain inner) := by
  refine .check _ fun found => ?_
  split
  · exact .checkNext _
  · have ahead : Places text low anything (do
        let _ ← advance
        let _ ← inner .expression
        let braced ← check .leftBrace
        return braced) :=
      .bind .advance fun _ next _ _ => .bind (reads .expression next) fun _ _ _ _ =>
        .check _ fun _ => .pure trivial
    simpa only [bind_assoc, pure_bind] using ahead.lookAhead

theorem blockBranches_places (place : Place) (rounds : List Token) {branches : List (Branch Form)}
    (chained : Chained text low middle branches) (begun : branches ≠ []) :
    Places text middle (fun high found => Chained text low high found ∧ found ≠ [])
      (blockBranches inner place rounds branches) := by
  induction rounds generalizing middle branches with
  | nil => exact .pure ⟨chained, begun⟩
  | cons token rounds ih =>
    refine .peek fun next lies => ?_
    have before := chained.widen (Nat.le_refl _) lies.starts
    split
    · exact .pure ⟨before, begun⟩
    next guard _ =>
      refine .bind (branch_places (reads .expression) (block_places reads place) guard _) ?_
      exact fun branch later _ sits => ih (before.snoc sits) (List.concat_ne_nil branch branches)

theorem openedBranches_places (place : Place) {reader : Reader} (here : reader.From text low)
    {guard : GuardKind} (opens : GuardKind.ofToken? reader.peek.kind true = some guard) :
    PlacesAt text low (fun high found => Chained text low high found ∧ found ≠ [])
      (blockBranches inner place reader.ahead []) reader := by
  have goesOn : reader.peek.kind ≠ .eof := by
    intro isEnd
    rw [isEnd] at opens
    cases opens
  obtain ⟨token, rounds, ahead⟩ := here.ahead_cons goesOn
  rw [ahead]
  refine .peek ?_
  rw [List.isEmpty_nil, opens]
  have first := branch_places (reads .expression) (block_places reads place) guard low reader here
  refine .bind first ?_
  intro branch middle _ sits
  exact blockBranches_places reads place rounds ((Chained.nil (Nat.le_refl low)).snoc sits)
    (List.concat_ne_nil branch [])

theorem chainStatement_places (place : Place) {reader : Reader} (here : reader.From text low)
    {guard : GuardKind} (opens : GuardKind.ofToken? reader.peek.kind true = some guard) :
    PlacesAt text low (Sits text low) (chainStatement inner place) reader := by
  obtain ⟨lies, there⟩ := here.peek
  refine .peek (.remaining (.earlier ?_ lies.starts))
  refine .bind (openedBranches_places reads place there opens) ?_
  rintro branches first one ⟨chained, begun⟩
  refine Places.bind (.accept _) fun closing second two _ => ?_
  have ending {otherwise : Option Node} {third : Nat} (more : first ≤ third)
      (last : Maybe (Sits text first) third otherwise) :
      Places text third (Sits text low) (chainMade reader.peek.span branches otherwise) := by
    refine .bind (endBlockStatement_places third) fun _ high behind _ => .pure ?_
    cases otherwise with
    | none =>
      obtain ⟨front, final, rfl⟩ : ∃ front final, branches = front ++ [final] :=
        ⟨_, _, (List.dropLast_concat_getLast begun).symm⟩
      have isLast : chainEnd reader.peek.span (front ++ [final]) none = final.span := by
        rw [chainEnd, List.getLast?_concat]
        rfl
      have finalLies := chained.lies (List.mem_append_right front (List.mem_singleton_self final))
      rw [isLast]
      exact chained.upto_last.sits .void
        (lies.onwards (finalLies.widen (Nat.le_refl _) (Nat.le_trans more behind)))
        (.nil (Nat.le_refl _))
    | some node =>
      have sits := last node rfl
      exact chained.sits .void (lies.onwards (sits.lies.widen one behind)) (.single sits.upto_stop)
  cases closing with
  | false => exact ending two .none
  | true =>
    rw [if_pos rfl, map_eq_pure_bind, bind_assoc]
    refine .bind (block_places reads place second) fun node third three sits => ?_
    exact ending (Nat.le_trans two three) (.some (sits.widen two (Nat.le_refl _)))

theorem declarationStatement_places : ReadsSitting text (declarationStatement inner) := fun low =>
  .bind (variableDeclaration_places reads low) fun _ next _ sits =>
    .bind (endStatement_places next) fun _ _ behind _ =>
      .pure (sits.widen (Nat.le_refl _) behind)

theorem chainOrExpression_places (place : Place) {reader : Reader} (here : reader.From text low)
    {guard : GuardKind} (opens : GuardKind.ofToken? reader.peek.kind true = some guard) :
    PlacesAt text low (Sits text low) (chainOrExpression inner place) reader := by
  refine .bind_kept (startsChain_places reads low reader here) (fun _ _ => startsChain_ok) ?_
  intro starts
  split
  · exact chainStatement_places reads place here opens
  · exact expressionStatement_places reads low reader here

theorem statement_places (place : Place) : ReadsSitting text (statement inner place) := by
  intro low reader here
  have declaration := declarationStatement_places reads low
  have chain {guard : GuardKind} (opens : GuardKind.ofToken? reader.peek.kind true = some guard) :=
    chainOrExpression_places reads place here opens
  refine .peek ?_
  split
  · exact repeatStatement_places reads place low reader here
  · exact loopStatement_places reads place low reader here
  · exact whileStatement_places reads place low reader here
  · exact functionDefinition_places reads low reader here
  · exact declaration reader here
  · exact declaration reader here
  · exact declaration reader here
  · exact declaration reader here
  · exact Places.refuse _ here.peek.1.within reader here
  · exact returnStatement_places reads place low reader here
  · exact jumpStatement_places place (.inl rfl) low reader here
  · exact jumpStatement_places place (.inr rfl) low reader here
  next isIf => exact chain (congrArg (GuardKind.ofToken? · true) isIf)
  next isTry => exact chain (congrArg (GuardKind.ofToken? · true) isTry)
  · exact expressionStatement_places reads low reader here

end

end RobotScript.Grammar
