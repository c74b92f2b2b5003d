import RobotScript.Grammar.Expression
import RobotScript.Proofs.Placing.Faithful
import RobotScript.Proofs.Placing.Readers

/-! # Where expressions stand in a text

Every function of the expression grammar, given a reader of nested expressions that
reads faithful nodes of the text, reads such nodes itself, and the whole lies between the
place where it begins to read and the place where it stops. -/
set_option autoImplicit false

namespace RobotScript.Grammar

variable {text : List Char} {low middle high : Nat}

def ReadsSitting (text : List Char) (parse : Parse Node) : Prop :=
  ∀ low, Places text low (Sits text low) parse

/-! ## Operators -/

theorem binaryNode_places {left right : Node} (operator : BinaryOp) {span : Span}
    (within : span.In text) (leftSits : Sits text low middle left)
    (rightSits : Sits text middle high right) :
    Places text high (Sits text low) (binaryNode left operator span right) := by
  unfold binaryNode
  split
  · have children := (Lined.single leftSits.from_start).snoc rightSits
    exact .pure (.upto_last leftSits.lies children rfl rfl rfl rfl)
  · exact .refuse _ within

theorem unaryNode_places (operator : UnaryOp) {operand : Node} {span : Span}
    (lies : span.Lies text low middle) (sits : Sits text middle high operand) :
    Places text high (Sits text low) (unaryNode operator span operand) := by
  unfold unaryNode
  split
  · have child := sits.widen lies.start_le (Nat.le_refl _)
    exact .pure (.upto_only lies child rfl rfl rfl rfl)
  · exact .refuse _ lies.within

theorem binaryOperator_places (operators : List (TokenKind × BinaryOp)) :
    Places text low (fun _ found => ∀ operator span, found = some (operator, span) → span.In text)
      (binaryOperator operators) := by
  refine .peek fun token lies => ?_
  split
  · exact .pure (by rintro _ _ ⟨⟩)
  · refine .bind .advance fun _ _ _ _ => .pure ?_
    rintro _ _ ⟨⟩
    exact lies.within

theorem operatorChain_places (operators : List (TokenKind × BinaryOp)) {operand : Parse Node}
    (reads : ReadsSitting text operand) (rounds : List Token) {left : Node}
    (sits : Sits text low middle left) :
    Places text middle (Sits text low) (operatorChain operators operand rounds left) := by
  induction rounds generalizing left middle with
  | nil => exact .pure sits
  | cons token rounds ih =>
    refine .bind (binaryOperator_places operators) fun found next before isPlace => ?_
    rcases found with _ | ⟨operator, span⟩
    · exact .pure (sits.widen (Nat.le_refl _) before)
    · refine .bind (reads next) fun right behind _ rightSits => ?_
      have leftSits := sits.widen (Nat.le_refl _) before
      refine .bind (binaryNode_places operator (isPlace _ _ rfl) leftSits rightSits) ?_
      exact fun joined _ _ joinedSits => ih joinedSits

theorem leftAssociative_places (operators : List (TokenKind × BinaryOp)) {operand : Parse Node}
    (reads : ReadsSitting text operand) : ReadsSitting text (leftAssociative operators operand) :=
  fun low => .bind (reads low) fun _ _ _ sits => .remaining fun tokens =>
    operatorChain_places operators reads tokens sits

theorem prefixed_places (kind : TokenKind) (operator : UnaryOp) {operand : Parse Node}
    (reads : ReadsSitting text operand) (rounds : List Token) :
    ReadsSitting text (prefixed kind operator operand rounds) := by
  induction rounds with
  | nil => exact reads
  | cons token rounds ih =>
    refine fun low => .check kind fun found => ?_
    split
    · exact .bind .advance fun sign middle _ lies => .bind (ih middle) fun inner _ _ sits =>
        unaryNode_places operator lies sits
    · exact reads low

/-! ## Names and types -/

theorem variableType_places {name : Token} (lies : Lying text low middle name) (high : Nat) :
    Places text high anything (variableType name) := by
  refine .view fun reader _ => ?_
  split
  · exact .pure trivial
  · exact .refuse _ lies.within

theorem functionSignature_places {name : Token} (lies : Lying text low middle name) (high : Nat) :
    Places text high anything (functionSignature name) := by
  refine .view fun reader _ => ?_
  split
  · exact .pure trivial
  · exact .refuse _ lies.within

theorem typeBehind_places (primitive : Primitive) {span : Span} (within : span.In text)
    (low : Nat) : Places text low anything (typeBehind primitive span) := by
  refine .bind .advance fun _ _ _ _ => .check _ fun found => ?_
  refine .bind (.checkNext _) fun foundNext _ _ _ => ?_
  split
  · split
    · exact .refuse _ within
    · exact .bind .advance fun _ _ _ _ => .bind .advance fun _ _ _ _ => .pure trivial
  · exact .pure trivial

theorem typeName_places (allowVoid : Bool) (low : Nat) :
    Places text low anything (typeName allowVoid) := by
  rw [typeName_eq]
  refine .peek fun token lies => ?_
  split
  · exact typeBehind_places _ lies.within _
  · split
    · exact .refuse _ lies.within
    · split
      · exact typeBehind_places _ lies.within _
      · exact .refuse _ lies.within

/-! ## Conditions and branches -/

theorem requireBool_places {condition : Node} (sits : Sits text low middle condition)
    (keyword : String) (high : Nat) :
    Places text high anything (requireBool condition keyword) := by
  unfold requireBool
  split
  · exact .pure trivial
  · exact .refuse _ sits.lies.within

theorem unifyBranch_places (current : Option Ty) {body : Node} (within : body.span.In text)
    (high : Nat) : Places text high anything (unifyBranch current body) := by
  unfold unifyBranch
  split
  · exact .refuse _ within
  · split
    · exact .pure trivial
    · split
      · exact .pure trivial
      · exact .refuse _ within

theorem branch_places {condition body : Parse Node} (conditions : ReadsSitting text condition)
    (bodies : ReadsSitting text body) (guard : GuardKind) (low : Nat) :
    Places text low (BranchSits text low) (branch condition body guard) := by
  refine .bind .advance fun keyword middle _ lies => ?_
  have begins := Span.Lies.start_le lies
  cases guard with
  | test =>
    refine .bind (conditions middle) fun test next before testSits => ?_
    refine .bind (requireBool_places testSits _ next) fun _ later after _ => ?_
    refine .bind (bodies later) fun body _ _ bodySits => .pure ?_
    refine ⟨Span.Lies.through lies (Nat.le_trans before after) bodySits.lies, ?_⟩
    exact ((Lined.single (testSits.widen begins after)).snoc bodySits).upto_last
  | attempt =>
    refine .bind (bodies middle) fun body _ _ bodySits => .pure ?_
    refine ⟨Span.Lies.through lies (Nat.le_refl _) bodySits.lies, ?_⟩
    exact .single (bodySits.widen begins (Nat.le_refl _)).upto_stop

/-! ## Calls, indices and assignments -/

section

variable {inner : Parse Node}

theorem misfit?_within {function : String} {nodes : List Node}
    (within : ∀ node ∈ nodes, node.span.In text) {position : Nat} {types : List Ty}
    {fault : Fault} (found : misfit? function position nodes types = some fault) :
    fault.span.In text := by
  fun_induction misfit? function position nodes types with
  | case1 position argument arguments ty types fits ih =>
    exact ih (fun node member => within node (List.mem_cons_of_mem _ member)) found
  | case2 position argument arguments ty types misfits =>
    cases found
    exact within argument List.mem_cons_self
  | case3 => cases found

theorem argumentFault?_within {function : String} {parameters : Parameters} {nodes : List Node}
    {span : Span} {fault : Fault} (arguments : ∀ node ∈ nodes, node.span.In text)
    (within : span.In text) (found : argumentFault? function parameters nodes span = some fault) :
    fault.span.In text := by
  cases parameters with
  | anyNumber =>
    obtain ⟨argument, isVoid, rfl⟩ := Option.map_eq_some_iff.mp found
    exact arguments argument (List.mem_of_find?_eq_some isVoid)
  | exactly types =>
    rw [argumentFault?] at found
    split at found
    · cases found
      exact within
    · exact misfit?_within arguments found

variable (reads : ReadsSitting text inner)

include reads

theorem arguments_places (low : Nat) : Places text low (Lined text low) (arguments inner) := by
  refine .check _ fun found => ?_
  split
  · exact .pure (.nil (Nat.le_refl _))
  · refine .commaSeparated (fun _ _ _ behind lined => lined.widen (Nat.le_refl _) behind)
      (fun here sofar lined => ?_) (.nil (Nat.le_refl _))
    exact .bind (reads here) fun node _ _ sits => .pure (lined.snoc sits)

theorem call_places (low : Nat) :
    Places text low (Maybe (Sits text low))
      (call inner) := by
  refine .bind .advance fun name first _ nameLies => ?_
  refine .bind (.accept _) fun opened second two _ => ?_
  split
  · refine .bind (functionSignature_places nameLies second) fun signature third three _ => ?_
    refine .bind (arguments_places reads third) fun nodes fourth four lined => ?_
    refine .bind (.expect _ _) fun close fifth five closeLies => ?_
    have children := lined.widen (Nat.le_trans two three) (Nat.le_refl _)
    have lies := Span.Lies.through nameLies children.row.ordered closeLies
    dsimp only
    split
    next fault found =>
      have within (node : Node) (member : node ∈ nodes) := (lined.lies member).within
      exact .throw (argumentFault?_within within lies.within found)
    next => exact .pure (.some (.between nameLies children closeLies rfl rfl rfl))
  · exact .pure .none

theorem index_places (low : Nat) :
    Places text low (Maybe (Sits text low))
      (index inner) := by
  refine .bind .advance fun name first _ nameLies => ?_
  refine .bind (.accept _) fun opened second two _ => ?_
  split
  · refine .bind (variableType_places nameLies second) fun ty third three _ => ?_
    split
    · refine .bind (reads third) fun position fourth four sits => ?_
      split
      · refine .bind (.expect _ _) fun close fifth five closeLies => .pure ?_
        have child := sits.widen (Nat.le_trans two three) (Nat.le_refl _)
        exact .some (.between nameLies (.single child) closeLies rfl rfl rfl)
      · exact .refuse _ sits.lies.within
    · exact .refuse _ nameLies.within
  · exact .pure .none

theorem assignedValue_places (name : Token) (target : Ty) (operator : AssignOp) {span : Span}
    (within : span.In text) (low : Nat) :
    Places text low (Maybe (Sits text low)) (assignedValue inner name target operator span) := by
  unfold assignedValue
  split
  · split
    · exact .pure .none
    · exact .refuse _ within
  · split
    · exact .pure .none
    · exact .refuse _ within
  · refine .bind (reads low) fun value _ _ sits => ?_
    split
    · exact .pure (.some sits)
    · exact .refuse _ sits.lies.within
  · refine .bind (reads low) fun value _ _ sits => ?_
    split
    · exact .pure (.some sits)
    · exact .refuse _ within

theorem assignment_places (low : Nat) :
    Places text low (Maybe (Sits text low)) (assignment inner) := by
  refine .bind .advance fun name first _ nameLies reader here => .peek ?_
  cases isSign : assignOp? reader.peek.kind with
  | none => exact Places.pure .none reader here
  | some operator =>
    -- The sign that was looked at is the token that is taken, so it ends where the reader is.
    refine .advance here fun second two signLies => ?_
    change Places text second (Maybe (Sits text low)) _
    refine .bind (variableType_places nameLies second) fun target third three _ => ?_
    refine .bind (assignedValue_places reads name target operator signLies.within third) ?_
    intro value fourth four sits
    have begins := Span.Lies.start_le nameLies
    refine .pure (.some (.upto_value nameLies ?_ (fun part isSome => ?_) rfl rfl rfl rfl))
    · exact Span.Lies.widen signLies begins (Nat.le_trans three four)
    · exact (sits part isSome).widen (Nat.le_trans begins (Nat.le_trans two three)) (Nat.le_refl _)

omit reads in
theorem variableUse_places : ReadsSitting text variableUse := by
  refine fun low => .bind .advance fun name first _ nameLies => ?_
  refine .bind (variableType_places nameLies first) fun ty second two _ => .pure ?_
  exact .leaf (Span.Lies.widen nameLies (Nat.le_refl _) two) rfl rfl rfl

theorem nameForm_places : ReadsSitting text (nameForm inner) := by
  intro low
  refine .bind (.attempt (call_places reads low)) fun called first one callSits => ?_
  cases called with
  | some node => exact .pure (callSits node rfl)
  | none =>
    refine .bind (.attempt (index_places reads first)) fun indexed second two indexSits => ?_
    cases indexed with
    | some node => exact .pure ((indexSits node rfl).widen one (Nat.le_refl _))
    | none =>
      refine .bind (.attempt (assignment_places reads second)) fun assigned third three sits => ?_
      cases assigned with
      | some node => exact .pure ((sits node rfl).widen (Nat.le_trans one two) (Nat.le_refl _))
      | none =>
        refine (variableUse_places third).mono fun high node _ sits => ?_
        exact sits.widen (Nat.le_trans one (Nat.le_trans two three)) (Nat.le_refl _)

/-! ## Lists and chains -/

omit reads in
theorem elementType_places (current : Option Ty) {node : Node} (within : node.span.In text)
    (high : Nat) : Places text high anything (elementType current node) := by
  unfold elementType
  split
  · exact .refuse _ within
  · split
    · exact .pure trivial
    · split
      · exact .pure trivial
      · split
        · exact .pure trivial
        · exact .refuse _ within

theorem listLiteral_places : ReadsSitting text (listLiteral inner) := by
  refine fun low => .bind .advance fun opening first _ openingLies => .check _ fun found => ?_
  split
  · refine .peek fun token lies => .refuse _ ?_
    exact (Span.Lies.through openingLies (Nat.le_refl _) lies).within
  · have elements : Places text first (fun high sofar => Lined text first high sofar.1)
        (commaSeparated (element inner) ([], none)) := by
      refine .commaSeparated (fun _ _ _ behind lined => lined.widen (Nat.le_refl _) behind)
        (fun here sofar lined => ?_) (.nil (Nat.le_refl _))
      refine .bind (reads here) fun node second _ sits => ?_
      exact .bind (elementType_places _ sits.lies.within second) fun ty _ behind _ =>
        .pure (lined.snoc (sits.widen (Nat.le_refl _) behind))
    refine .bind elements fun sofar second two lined => ?_
    refine .bind (.expect _ _) fun close third three closeLies => .pure ?_
    exact .between openingLies lined closeLies rfl rfl rfl

theorem valueBranches_places (rounds : List Token) {branches : List (Branch Form)} {ty : Option Ty}
    (chained : Chained text low middle branches) :
    Places text middle (fun high found => Chained text low high found.1)
      (valueBranches inner rounds branches ty) := by
  induction rounds generalizing middle branches ty with
  | nil => exact .pure chained
  | cons token rounds ih =>
    refine .peek fun next lies => ?_
    have before := chained.widen (Nat.le_refl _) lies.starts
    split
    · exact .pure before
    next guard _ =>
      refine .bind (branch_places reads reads guard _) fun branch later after sits => ?_
      refine .bind (unifyBranch_places _ sits.body_within later) fun unified last more _ => ?_
      exact ih ((before.snoc sits).widen (Nat.le_refl _) more)

theorem valueChain_places : ReadsSitting text (valueChain inner) := by
  refine fun low => .peek fun token lies => .remaining fun tokens => ?_
  refine .bind (valueBranches_places reads tokens (.nil (Nat.le_refl _))) ?_
  intro found first one chained
  refine .bind (.accept _) fun closing second two _ => ?_
  split
  · refine .bind (reads second) fun otherwise third three otherwiseSits => ?_
    refine .bind (unifyBranch_places _ otherwiseSits.lies.within third) fun ty last four _ => ?_
    have whole := Span.Lies.onwards lies (otherwiseSits.lies.widen (Nat.le_trans one two) four)
    refine .pure ((chained.widen (Nat.le_refl _) two).sits ty whole ?_)
    exact .single otherwiseSits.upto_stop
  · exact .peek fun token lies => .refuse _ lies.within

/-! ## Atoms and levels -/

theorem grouped_places : ReadsSitting text (grouped inner) :=
  fun _ => .bind .advance fun _ first _ openingLies => .bind (reads first) fun _ _ _ sits =>
    .bind (.expect _ _) fun _ _ _ closeLies => .pure (sits.group openingLies closeLies)

omit reads in
theorem literal_places (value : Value) : ReadsSitting text (literal value) :=
  fun _ => .bind .advance fun _ _ _ lies => .pure (.leaf lies rfl rfl rfl)

theorem atom_places : ReadsSitting text (atom inner) := by
  refine fun low => .peek fun token lies => ?_
  have weaken {parse : Parse Node} (places : ReadsSitting text parse) :
      Places text token.span.start.index (Sits text low) parse :=
    (places _).mono fun _ _ _ sits => sits.widen lies.starts (Nat.le_refl _)
  split
  · split
    · exact weaken (literal_places _)
    · exact .refuse _ lies.within
  · split
    · exact weaken (literal_places _)
    · exact .refuse _ lies.within
  · exact weaken (literal_places _)
  · exact weaken (literal_places _)
  · exact weaken (grouped_places reads)
  · exact weaken (listLiteral_places reads)
  · exact weaken (valueChain_places reads)
  · exact weaken (valueChain_places reads)
  · exact weaken (nameForm_places reads)
  · exact .refuse _ lies.within
  · exact .refuse _ lies.within

theorem expression_places : ReadsSitting text (expression inner) := by
  have negations : ReadsSitting text (negation inner) := fun low =>
    .remaining fun tokens => prefixed_places .minus .negate (atom_places reads) tokens low
  have comparisons : ReadsSitting text (comparison inner) :=
    leftAssociative_places _ <| leftAssociative_places _ <| leftAssociative_places _ <|
      leftAssociative_places _ negations
  have denials : ReadsSitting text (denial inner) := fun low =>
    .remaining fun tokens => prefixed_places .not .not comparisons tokens low
  exact leftAssociative_places _ denials

end

end RobotScript.Grammar
