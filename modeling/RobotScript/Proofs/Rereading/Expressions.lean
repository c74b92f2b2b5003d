import RobotScript.Proofs.Joining.Scripts
import RobotScript.Proofs.Rereading.Readings

/-! # Expressions can be read again

Every function of the expression grammar reads again what it read, if the reader of
nested expressions does: to read nested expressions takes a token less each time, so the
number of tokens also bounds the depth that is needed. -/
set_option autoImplicit false

namespace RobotScript.Grammar

open Rendering

section

variable {α : Type} {most : Nat} {context : Context} {reader : Reader}
variable {inner again : Parse Node}

/-! ## Operators -/

theorem binaryNode_rereads (here : At context reader) (left : Node) (operator : BinaryOp)
    (span : Span) (right : Node) :
    RereadsAt most 0 false (binaryNode left operator span right)
      (binaryNode left operator span right) context reader := by
  unfold binaryNode
  split
  · exact .pure here _
  · exact .refuse _ _

theorem unaryNode_rereads (here : At context reader) (operator : UnaryOp) (span : Span)
    (operand : Node) :
    RereadsAt most 0 false (unaryNode operator span operand) (unaryNode operator span operand)
      context reader := by
  unfold unaryNode
  split
  · exact .pure here _
  · exact .refuse _ _

theorem binaryOperator_run {operators : List (TokenKind × BinaryOp)} {operator : BinaryOp}
    (known : operators.lookup reader.peek.kind = some operator) :
    binaryOperator operators reader = .ok (some (operator, reader.peek.span), reader.next) := by
  rw [binaryOperator, bind_peek, known]
  rfl

theorem lookup_neutral {operators : List (TokenKind × BinaryOp)}
    (neutral : ∀ entry ∈ operators, Neutral entry.1) {kind : TokenKind} {operator : BinaryOp}
    (known : operators.lookup kind = some operator) : Neutral kind := by
  obtain ⟨front, rest, rfl, -⟩ := List.lookup_eq_some_iff.mp known
  exact neutral (kind, operator) (by simp)

theorem lookup_eq_none {operators : List (TokenKind × BinaryOp)}
    (neutral : ∀ entry ∈ operators, Neutral entry.1) {kind : TokenKind} (ends : ¬ Neutral kind) :
    operators.lookup kind = none := by
  cases known : operators.lookup kind with
  | none => rfl
  | some operator => exact absurd (lookup_neutral neutral known) ends

theorem operatorChain_ended {operators : List (TokenKind × BinaryOp)}
    (neutral : ∀ entry ∈ operators, Neutral entry.1)
    (known : operators.lookup reader.peek.kind = none) (rounds others : List Token)
    (here : At context reader) (first : Node) :
    RereadsAt most 0 false (operatorChain operators inner rounds first)
      (operatorChain operators again others first) context reader := by
  refine .told (operators.lookup ·) ?_ (operatorChain_stops known rounds first) ?_ here
    (.pure here first)
  · exact fun kind shut => (lookup_eq_none neutral shut.not_neutral).trans known.symm
  · exact fun twin same => operatorChain_stops (same.trans known) others first

theorem operatorChain_rereads {operators : List (TokenKind × BinaryOp)}
    (neutral : ∀ entry ∈ operators, Neutral entry.1) (operands : Rereads most inner again)
    {rounds others : List Token} (left : reader.ahead.length ≤ rounds.length)
    (enough : most ≤ others.length) (here : At context reader) (first : Node) :
    RereadsAt most 0 false (operatorChain operators inner rounds first)
      (operatorChain operators again others first) context reader := by
  induction rounds generalizing most others reader first with
  | nil =>
    refine operatorChain_ended neutral (lookup_eq_none neutral ?_) [] others here first
    rw [here.before.kind, List.length_eq_zero_iff.mp (Nat.le_zero.mp left)]
    decide
  | cons round rounds ih =>
    cases known : operators.lookup reader.peek.kind with
    | none => exact operatorChain_ended neutral known _ others here first
    | some operator =>
      have isNeutral := lookup_neutral neutral known
      have signs : ∀ twin : Reader, twin.peek = reader.peek → binaryOperator operators twin =
          .ok (some (operator, reader.peek.span), twin.next) := by
        intro twin same
        rw [← same] at known ⊢
        exact binaryOperator_run known
      have goesOn (other : Token) (others : List Token) (enough : most ≤ others.length + 1) :
          RereadsAt most 0 true (operatorChain operators inner (round :: rounds) first)
            (operatorChain operators again (other :: others) first) context reader := by
        refine .stepOver here isNeutral (binaryOperator_run known) signs ?_
        have operandsOn := operands.fewer (Nat.sub_le most 1)
        have right := operandsOn context reader.next here.next
        refine .bind right.loose fun node between run there => ?_
        have joining : RereadsAt (most - 1) 0 false _ _ context between :=
          binaryNode_rereads there first operator reader.peek.span node
        refine .bind joining fun joined last joins stands => ?_
        refine ih operandsOn ?_ (by omega) stands joined
        have shorter := right.length_lt run
        have kept := joining.length_le joins
        rw [reader.next_ahead, List.length_tail] at shorter
        rw [List.length_cons] at left
        omega
      -- With no round left there are no tokens either, and the operator is one.
      cases others with
      | nil =>
        obtain rfl := Nat.le_zero.mp enough
        exact (goesOn round [] (Nat.zero_le _)).ofEmpty.loose
      | cons other others => exact (goesOn other others enough).loose

theorem leftAssociative_rereads {operators : List (TokenKind × BinaryOp)}
    (neutral : ∀ entry ∈ operators, Neutral entry.1) (operands : Rereads most inner again) :
    Rereads most (leftAssociative operators inner) (leftAssociative operators again) :=
  fun context reader here => .bind (operands context reader here) fun first _ _ there =>
    .remaining fun _ _ less enough =>
      operatorChain_rereads neutral (operands.fewer less) (Nat.le_refl _) enough there first

theorem prefixed_here {kind : TokenKind} (signed : reader.peek.kind = kind) (operator : UnaryOp)
    (operand : Parse Node) (round : Token) (rounds : List Token) :
    prefixed kind operator operand (round :: rounds) reader =
      (advance >>= fun sign => prefixed kind operator operand rounds >>=
        unaryNode operator sign.span) reader := by
  rw [prefixed, bind_check, decide_eq_true signed]
  rfl

theorem prefixed_unsigned {kind : TokenKind} (unsigned : reader.peek.kind ≠ kind)
    (operator : UnaryOp) (operands : Rereads most inner again) (rounds others : List Token)
    (here : At context reader) :
    RereadsAt most 0 true (prefixed kind operator inner rounds)
      (prefixed kind operator again others) context reader := by
  refine .seen (prefixed_absent unsigned operator inner rounds) ?_ here
    (operands context reader here)
  exact fun twin same => prefixed_absent (same ▸ unsigned) operator again others

theorem prefixed_rereads {kind : TokenKind} (neutral : Neutral kind) (operator : UnaryOp)
    (operands : Rereads most inner again) {rounds others : List Token}
    (left : reader.ahead.length ≤ rounds.length) (enough : most ≤ others.length)
    (here : At context reader) :
    RereadsAt most 0 true (prefixed kind operator inner rounds)
      (prefixed kind operator again others) context reader := by
  induction rounds generalizing most others reader with
  | nil =>
    refine prefixed_unsigned (fun signed => ?_) operator operands [] others here
    rw [here.before.kind, List.length_eq_zero_iff.mp (Nat.le_zero.mp left)] at signed
    exact absurd signed.symm neutral.goesOn
  | cons round rounds ih =>
    by_cases signed : reader.peek.kind = kind
    · have goesOn (other : Token) (others : List Token) (enough : most ≤ others.length + 1) :
          RereadsAt most 0 true (prefixed kind operator inner (round :: rounds))
            (prefixed kind operator again (other :: others)) context reader := by
        have signs (twin : Reader) (same : twin.peek = reader.peek) :=
          prefixed_here (same ▸ signed) operator again other others
        refine .seen (prefixed_here signed operator inner round rounds) signs here ?_
        have shorter : reader.next.ahead.length ≤ rounds.length := by
          rw [reader.next_ahead, List.length_tail]
          rw [List.length_cons] at left
          omega
        have less : most - 1 ≤ others.length := by omega
        have operand := ih (operands.fewer (Nat.sub_le most 1)) shorter less here.next
        refine .take here (signed ▸ neutral) ?_
        exact .bind operand.loose fun node between _ there => unaryNode_rereads there _ _ node
      cases others with
      | nil =>
        obtain rfl := Nat.le_zero.mp enough
        exact (goesOn round [] (Nat.zero_le _)).ofEmpty
      | cons other others => exact goesOn other others enough
    · exact prefixed_unsigned signed operator operands _ others here

/-! ## Names in view -/

theorem variableType_rereads (here : At context reader) (name : Token) :
    RereadsAt most 0 false (variableType name) (variableType name) context reader := by
  intro ty after run
  obtain ⟨-, found⟩ := variableType_ok here run
  exact RereadsAt.still here (fun twin there => variableType_run name there found) ty after run

theorem functionSignature_rereads (here : At context reader) (name : Token) :
    RereadsAt most 0 false (functionSignature name) (functionSignature name) context reader := by
  intro signature after run
  obtain ⟨-, found⟩ := functionSignature_ok here run
  exact RereadsAt.still here (fun twin there => functionSignature_run there found) signature after
    run

/-! ## Items between commas -/

theorem separated_rereads {item itemAgain : α → Parse α}
    (items : ∀ sofar, Rereads most (item sofar) (itemAgain sofar))
    {rounds others : List Token} (left : reader.ahead.length ≤ rounds.length)
    (enough : most ≤ others.length) (here : At context reader) (sofar : α) :
    RereadsAt most 0 true (separated item rounds sofar) (separated itemAgain others sofar) context
      reader := by
  induction rounds generalizing most others reader sofar with
  | nil =>
    intro made after run
    have shorter := (items sofar context reader here).length_lt run
    exact absurd (Nat.lt_of_lt_of_le shorter left) (Nat.not_lt_zero _)
  | cons round rounds ih =>
    have goesOn (other : Token) (others : List Token) (enough : most ≤ others.length + 1) :
        RereadsAt most 0 true (separated item (round :: rounds) sofar)
          (separated itemAgain (other :: others) sofar) context reader := by
      refine .bind (items sofar context reader here) fun made between run there => ?_
      refine .accept there (by decide) (by decide) rfl id (fun behind => ?_) (.pure there made)
      have shorter := (items sofar context reader here).length_lt run
      refine (ih (fun sofar => (items sofar).fewer (Nat.sub_le most 1)) ?_ (by omega) behind
        made).loose
      rw [between.next_ahead, List.length_tail]
      rw [List.length_cons] at left
      omega
    cases others with
    | nil =>
      obtain rfl := Nat.le_zero.mp enough
      exact (goesOn round [] (Nat.zero_le _)).ofEmpty
    | cons other others => exact goesOn other others enough

theorem commaSeparated_rereads {item itemAgain : α → Parse α}
    (items : ∀ sofar, Rereads most (item sofar) (itemAgain sofar)) (start : α) :
    Rereads most (commaSeparated item start) (commaSeparated itemAgain start) :=
  fun _ _ here => .remaining fun _ _ less enough =>
    separated_rereads (fun sofar => (items sofar).fewer less) (Nat.le_refl _) enough here start

theorem argument_rereads (inners : Rereads most inner again) (sofar : List Node) :
    Rereads most (argument inner sofar) (argument again sofar) :=
  fun context reader here => .bind (inners context reader here) fun _ _ _ there => .pure there _

/-! ## Calls, indices and assignments -/

theorem call_none_between {between : Reader}
    (run : call inner reader = .ok (none, between)) : between = reader.next := by
  have absent := call_none run
  rw [call, bind_advance, bind_accept, if_neg absent] at run
  cases run
  rfl

theorem index_none_between {between : Reader}
    (run : index inner reader = .ok (none, between)) : between = reader.next := by
  have absent := index_none run
  rw [index, bind_advance, bind_accept, if_neg absent] at run
  cases run
  rfl

theorem assignment_none_between {between : Reader}
    (run : assignment inner reader = .ok (none, between)) : between = reader.next := by
  have absent := assignment_none run
  rw [assignment, bind_advance, bind_peek, absent] at run
  cases run
  rfl

theorem arguments_closed {next : List Node → Token → Parse α} (inners : Rereads most inner again)
    (here : At context reader)
    (rest : ∀ nodes between, At context between →
      RereadsAt (most - 1) 0 false (next nodes between.peek) (next nodes between.peek) context
        between.next) :
    RereadsAt most (-1) true
      (arguments inner >>= fun nodes => expect .rightParen .argumentsClose >>= next nodes)
      (arguments again >>= fun nodes => expect .rightParen .argumentsClose >>= next nodes) context
      reader := by
  have closes (nodes : List Node) (between : Reader) (there : At context between) :
      RereadsAt most (-1) true (expect .rightParen .argumentsClose >>= next nodes)
        (expect .rightParen .argumentsClose >>= next nodes) context between :=
    .expect there (by decide) (by decide) rfl (fun _ => by decide) (rest nodes between there)
  have noArguments (parse : Parse Node) (twin : Reader) (empty : twin.peek.kind = .rightParen) :
      arguments parse twin = .ok ([], twin) := by
    rw [arguments, bind_check, decide_eq_true empty]
    rfl
  have someArguments (parse : Parse Node) (twin : Reader) (filled : twin.peek.kind ≠ .rightParen) :
      arguments parse twin = commaSeparated (argument parse) [] twin := by
    rw [arguments, bind_check, decide_eq_false filled]
    rfl
  by_cases empty : reader.peek.kind = .rightParen
  · refine .seen (bind_of_ok (noArguments inner reader empty) _) ?_ here (closes [] reader here)
    exact fun twin same => bind_of_ok (noArguments again twin (same ▸ empty)) _
  · have filled : RereadsAt most 0 true (arguments inner) (arguments again) context reader :=
      .seen (someArguments inner reader empty)
        (fun twin same => someArguments again twin (same ▸ empty)) here
        (commaSeparated_rereads (argument_rereads inners) [] context reader here)
    exact .before filled.loose fun nodes between _ there => closes nodes between there

theorem call_rereads (inners : Rereads (most - 1) inner again) (here : At context reader)
    (named : reader.peek.kind = .identifier) :
    RereadsAt most 0 true (call inner) (call again) context reader := by
  refine .take here (named ▸ by decide) ?_
  have opens : nesting .leftParen + -1 = 0 := rfl
  refine .accept here.next (by decide) (by decide) opens (fun _ => by decide) ?_
    (.pure here.next none)
  intro behind
  refine .bind (functionSignature_rereads behind _) fun signature between run there => ?_
  refine (arguments_closed (inners.fewer (Nat.sub_le _ 1)) there ?_).loose
  intro nodes last stands
  dsimp only
  split
  · exact .throw _
  · exact .pure stands.next _

theorem index_rereads (inners : Rereads (most - 1) inner again) (here : At context reader)
    (named : reader.peek.kind = .identifier) :
    RereadsAt most 0 true (index inner) (index again) context reader := by
  refine .take here (named ▸ by decide) ?_
  refine .accept here.next (by decide) (by decide) rfl id (fun behind => ?_) (.pure here.next none)
  refine .bind (variableType_rereads behind _) fun ty between _ there => ?_
  split
  · have inners := inners.fewer (Nat.sub_le _ 1)
    refine .bind (inners context between there).loose fun position last _ stands => ?_
    split
    · exact .expect stands (by decide) (by decide) rfl id (.pure stands.next _)
    · exact .refuse _ _
  · exact .refuse _ _

theorem assignedValue_rereads (inners : Rereads most inner again) (here : At context reader)
    (name : Token) (target : Ty) (operator : AssignOp) (span : Span) :
    RereadsAt most 0 false (assignedValue inner name target operator span)
      (assignedValue again name target operator span) context reader := by
  unfold assignedValue
  split
  · split
    · exact .pure here _
    · exact .refuse _ _
  · split
    · exact .pure here _
    · exact .refuse _ _
  · refine .bind (inners context reader here).loose fun value between _ there => ?_
    split
    · exact .pure there _
    · exact .refuse _ _
  · refine .bind (inners context reader here).loose fun value between _ there => ?_
    split
    · exact .pure there _
    · exact .refuse _ _

theorem assignOp?_neutral {kind : TokenKind} {operator : AssignOp}
    (known : assignOp? kind = some operator) : Neutral kind := by
  cases kind <;> cases known <;> decide

theorem assignOp?_eq_none {kind : TokenKind} (ends : ¬ Neutral kind) : assignOp? kind = none := by
  cases known : assignOp? kind with
  | none => rfl
  | some operator => exact absurd (assignOp?_neutral known) ends

theorem assignment_rereads (inners : Rereads (most - 1) inner again) (here : At context reader)
    (named : reader.peek.kind = .identifier) :
    RereadsAt most 0 true (assignment inner) (assignment again) context reader := by
  refine .take here (named ▸ by decide) ?_
  have sign := here.next
  cases known : assignOp? reader.next.peek.kind with
  | none =>
    have ended : RereadsAt (most - 1) 0 false (Pure.pure none) (Pure.pure none) context
        reader.next := .pure sign (none : Option Node)
    refine .told assignOp? ?_ ?_ ?_ sign ended
    · exact fun kind shut => (assignOp?_eq_none shut.not_neutral).trans known.symm
    · rw [bind_peek, known]
    · intro twin same
      rw [bind_peek, same.trans known]
  | some operator =>
    refine .loose (.peek sign ?_)
    rw [known]
    refine .take sign (assignOp?_neutral known) ?_
    refine .bind (variableType_rereads sign.next _) fun target between _ there => ?_
    have value := assignedValue_rereads (inners.fewer (Nat.sub_le _ 1)) there reader.peek target
      operator reader.next.peek.span
    exact .bind value fun _ _ _ stands => .pure stands _

theorem variableUse_rereads (here : At context reader) (named : reader.peek.kind = .identifier) :
    RereadsAt most 0 true variableUse variableUse context reader :=
  .take here (named ▸ by decide) <| .bind (variableType_rereads here.next _) fun _ _ _ there =>
    .pure there _

theorem nameForm_rereads (inners : Rereads (most - 1) inner again) (here : At context reader)
    (named : reader.peek.kind = .identifier) :
    RereadsAt most 0 true (nameForm inner) (nameForm again) context reader := by
  refine .attempt (call_rereads inners here named) (fun _ => call_none_between) ?_
  refine .attempt (index_rereads inners here named) (fun _ => index_none_between) ?_
  refine .attempt (assignment_rereads inners here named) (fun _ => assignment_none_between) ?_
  exact variableUse_rereads here named

/-! ## Lists and chains -/

theorem elementType_rereads (here : At context reader) (current : Option Ty) (element : Node) :
    RereadsAt most 0 false (elementType current element) (elementType current element) context
      reader := by
  unfold elementType
  split
  · exact .refuse _ _
  · split
    · exact .pure here _
    · split
      · exact .pure here _
      · split
        · exact .pure here _
        · exact .refuse _ _

theorem element_rereads (inners : Rereads most inner again) (sofar : List Node × Option Ty) :
    Rereads most (element inner sofar) (element again sofar) :=
  fun context reader here => .bind (inners context reader here) fun node _ _ there =>
    .bind (elementType_rereads there sofar.2 node) fun _ _ _ stands => .pure stands _

theorem listLiteral_rereads (inners : Rereads (most - 1) inner again) (here : At context reader)
    (opens : reader.peek.kind = .leftBracket) :
    RereadsAt most 0 true (listLiteral inner) (listLiteral again) context reader := by
  refine .take here (opens ▸ by decide) ?_
  have inside := here.next
  by_cases empty : reader.next.peek.kind = .rightBracket
  · intro node after run
    rw [bind_check, decide_eq_true empty] at run
    cases run
  · have elements := commaSeparated_rereads (element_rereads inners) ([], none) context _ inside
    refine .loose (.check inside ?_)
    rw [decide_eq_false empty]
    refine .bind elements fun made between _ there => ?_
    exact .expect there (by decide) (by decide) rfl id (.pure there.next _)

theorem requireBool_rereads (here : At context reader) (condition : Node) (keyword : String) :
    RereadsAt most 0 false (requireBool condition keyword) (requireBool condition keyword) context
      reader := by
  unfold requireBool
  split
  · exact .pure here _
  · exact .refuse _ _

theorem unifyBranch_rereads (here : At context reader) (current : Option Ty) (body : Node) :
    RereadsAt most 0 false (unifyBranch current body) (unifyBranch current body) context
      reader := by
  unfold unifyBranch
  split
  · exact .refuse _ _
  · split
    · exact .pure here _
    · split
      · exact .pure here _
      · exact .refuse _ _

theorem ofToken?_neutral {kind : TokenKind} {first : Bool} {guard : GuardKind}
    (known : GuardKind.ofToken? kind first = some guard) : Neutral kind := by
  cases kind <;> cases first <;> cases known <;> decide

theorem ofToken?_eq_none {kind : TokenKind} (ends : ¬ Neutral kind) (first : Bool) :
    GuardKind.ofToken? kind first = none := by
  cases known : GuardKind.ofToken? kind first with
  | none => rfl
  | some guard => exact absurd (ofToken?_neutral known) ends

theorem branch_rereads (inners : Rereads (most - 1) inner again) (here : At context reader)
    (neutral : Neutral reader.peek.kind) (guard : GuardKind) :
    RereadsAt most 0 true (branch inner inner guard) (branch again again guard) context reader := by
  refine .take here neutral ?_
  cases guard with
  | test =>
    refine .bind (inners context _ here.next).loose fun test between _ there => ?_
    refine .bind (requireBool_rereads there test _) fun _ last _ stands => ?_
    exact .bind (inners context last stands).loose fun _ _ _ behind => .pure behind _
  | attempt => exact .bind (inners context _ here.next).loose fun _ _ _ there => .pure there _

theorem valueBranches_ended {branches : List (Branch Form)}
    (stops : GuardKind.ofToken? reader.peek.kind branches.isEmpty = none)
    (rounds others : List Token) (here : At context reader) (ty : Option Ty) :
    RereadsAt most 0 false (valueBranches inner rounds branches ty)
      (valueBranches again others branches ty) context reader := by
  have runs (parse : Parse Node) (rounds : List Token) (twin : Reader)
      (stops : GuardKind.ofToken? twin.peek.kind branches.isEmpty = none) :
      valueBranches parse rounds branches ty twin = .ok ((branches, ty), twin) := by
    cases rounds with
    | nil => rfl
    | cons round rounds =>
      rw [valueBranches, bind_peek, stops]
      rfl
  refine .told (GuardKind.ofToken? · branches.isEmpty) ?_ (runs inner rounds reader stops) ?_ here
    (.pure here _)
  · exact fun kind shut => (ofToken?_eq_none shut.not_neutral _).trans stops.symm
  · exact fun twin same => runs again others twin (same.trans stops)

theorem valueBranches_rereads (inners : Rereads (most - 1) inner again)
    {rounds others : List Token} (left : reader.ahead.length ≤ rounds.length)
    (enough : most ≤ others.length) (here : At context reader) (branches : List (Branch Form))
    (ty : Option Ty) :
    RereadsAt most 0 false (valueBranches inner rounds branches ty)
      (valueBranches again others branches ty) context reader := by
  induction rounds generalizing most others reader branches ty with
  | nil =>
    refine valueBranches_ended (ofToken?_eq_none ?_ _) [] others here ty
    rw [here.before.kind, List.length_eq_zero_iff.mp (Nat.le_zero.mp left)]
    decide
  | cons round rounds ih =>
    cases opens : GuardKind.ofToken? reader.peek.kind branches.isEmpty with
    | none => exact valueBranches_ended opens _ others here ty
    | some guard =>
      have goesOn (other : Token) (others : List Token) (enough : most ≤ others.length + 1) :
          RereadsAt most 0 true (valueBranches inner (round :: rounds) branches ty)
            (valueBranches again (other :: others) branches ty) context reader := by
        refine .peek here ?_
        rw [opens]
        have reads := branch_rereads inners here (ofToken?_neutral opens) guard
        refine .behind reads fun made between run there => ?_
        have unifies : RereadsAt (most - 1) 0 false _ _ context between :=
          unifyBranch_rereads there ty made.body
        refine .bind unifies fun unified last unifyRun stands => ?_
        refine ih (inners.fewer (Nat.sub_le _ 1)) ?_ (by omega) stands _ _
        have shorter := reads.length_lt run
        have kept := unifies.length_le unifyRun
        rw [List.length_cons] at left
        omega
      cases others with
      | nil =>
        obtain rfl := Nat.le_zero.mp enough
        exact (goesOn round [] (Nat.zero_le _)).ofEmpty.loose
      | cons other others => exact (goesOn other others enough).loose

theorem valueChain_rereads (inners : Rereads (most - 1) inner again) (here : At context reader) :
    RereadsAt most 0 true (valueChain inner) (valueChain again) context reader := by
  refine .peek here (.remaining fun less others le enough => ?_)
  have branches := valueBranches_rereads (inners.fewer (Nat.sub_le_sub_right le 1)) (Nat.le_refl _)
    enough here [] none
  refine .before branches fun made between _ there => ?_
  refine .accept there (by decide) (by decide) rfl id (fun behind => ?_) ?_
  · have otherwise := inners.fewer (Nat.sub_le_sub_right le 1) context between.next behind
    refine .bind otherwise.loose fun node last _ stands => ?_
    exact .bind (unifyBranch_rereads stands _ node) fun _ _ _ final => .pure final _
  · intro node after run
    cases run

/-! ## Atoms and levels -/

theorem grouped_rereads (inners : Rereads (most - 1) inner again) (here : At context reader)
    (opens : reader.peek.kind = .leftParen) :
    RereadsAt most 0 true (grouped inner) (grouped again) context reader := by
  have deeper : nesting reader.peek.kind + -1 = 0 := by
    rw [opens]
    rfl
  refine .step here (here.ahead_ne_nil (opens ▸ by decide)) (opens ▸ by decide) deeper
    (fun _ => by decide) (advance_run reader) (fun twin same => same ▸ advance_run twin) ?_
  refine .bind (inners context _ here.next).loose fun node between _ there => ?_
  exact .expect there (by decide) (by decide) rfl (fun _ => by decide) (.pure there.next _)

theorem literal_rereads (here : At context reader) (neutral : Neutral reader.peek.kind)
    (value : Value) : RereadsAt most 0 true (literal value) (literal value) context reader :=
  .take here neutral (.pure here.next _)

theorem atom_rereads (inners : Rereads (most - 1) inner again) :
    Rereads most (atom inner) (atom again) := by
  intro context reader here
  refine .peek here ?_
  cases kind : reader.peek.kind with
  | int =>
    cases Decimal.int? reader.peek.lexeme with
    | none => exact .refuse _ _
    | some number => exact literal_rereads here (kind ▸ by decide) _
  | double =>
    cases Decimal.double? reader.peek.lexeme with
    | none => exact .refuse _ _
    | some number => exact literal_rereads here (kind ▸ by decide) _
  | bool => exact literal_rereads here (kind ▸ by decide) _
  | string => exact literal_rereads here (kind ▸ by decide) _
  | leftParen => exact grouped_rereads inners here kind
  | leftBracket => exact listLiteral_rereads inners here kind
  | «if» | «try» => exact valueChain_rereads inners here
  | identifier => exact nameForm_rereads inners here kind
  | _ => exact .refuse _ _

theorem operators_neutral (level : Nat) : ∀ entry ∈ operators level, Neutral entry.1 := by
  unfold operators
  split <;> decide

theorem ladder_rereads (inners : Rereads (most - 1) inner again) {level : Nat} (below : level ≤ 8) :
    Rereads most (ladder inner level) (ladder again level) := by
  induction below using Nat.decreasingInduction with
  | self => exact atom_rereads inners
  | of_succ level less ih =>
    have signed (operator : UnaryOp)
        (tighter : Rereads most (ladder inner (prefixLevel operator + 1))
          (ladder again (prefixLevel operator + 1))) :
        Rereads most (ladder inner (prefixLevel operator))
          (ladder again (prefixLevel operator)) := by
      have neutral : Neutral (prefixKind operator) := by cases operator <;> decide
      have reads : Rereads most
          (remaining >>= prefixed (prefixKind operator) operator
            (ladder inner (prefixLevel operator + 1)))
          (remaining >>= prefixed (prefixKind operator) operator
            (ladder again (prefixLevel operator + 1))) :=
        fun context reader here => .remaining fun less others le enough =>
          prefixed_rereads neutral operator (tighter.fewer le) (Nat.le_refl _) enough here
      cases operator <;> exact reads
    by_cases isInfix : Infix level
    · rw [ladder_joins inner isInfix, ladder_joins again isInfix]
      exact leftAssociative_rereads (operators_neutral level) ih
    · rcases level_cases less isInfix with rfl | ⟨operator, rfl⟩
      · exact ih
      · exact signed operator ih

end

/-- One unit of depth for each token is enough to read an expression again. -/
theorem readExpression_rereads {depth limit most : Nat} (enough : most ≤ limit) :
    Rereads most (read depth .expression) (read limit .expression) := by
  induction depth generalizing limit most with
  | zero =>
    rintro context reader here node after ⟨⟩
  | succ depth ih =>
    have deeper {most below : Nat} (enough : most - 1 ≤ below) :
        Rereads most (read (depth + 1) .expression) (read (below + 1) .expression) :=
      ladder_rereads (ih enough) (Nat.zero_le 8)
    cases limit with
    | zero =>
      obtain rfl := Nat.le_zero.mp enough
      have one : Rereads 0 (read (depth + 1) .expression) (read 1 .expression) :=
        deeper (Nat.zero_le 0)
      exact fun context reader here => (one context reader here).ofEmpty
    | succ limit => exact deeper (Nat.sub_le_of_le_add enough)

end RobotScript.Grammar
