import RobotScript.Proofs.Rendering.DeclarationReads

/-! # Written statements read back

By induction on the typing of a statement. What begins with `if` or `try` is told
apart by the reading ahead of the grammar: a chain of blocks is a statement of its
own, a chain of values an expression. -/
set_option autoImplicit false

namespace RobotScript.Grammar

open Rendering Typing

section

variable {style : Style} {place : Place} {context : Context} {depth : Nat}

/-! ## Jumps -/

theorem semicolon_ends (rest : List Token) : Ends 0 (kindAhead (mark .semicolon :: rest)) :=
  Closing.ends (.tail _ (.tail _ (.tail _ List.mem_cons_self)))

theorem returnNothing_readable {span : Span}
    (allowed : ∀ ty, place.returns = some ty → ty = .void) :
    StatementReadable style place context ⟨.returning none, .void, span⟩ := by
  have tokens : Rendering.statement style ⟨.returning none, .void, span⟩ =
      [mark .return, mark .semicolon] := by
    rw [statement_eq, ending_plain style rfl, written]
    rfl
  refine ⟨⟨_, _, tokens, by decide⟩, ?_⟩
  intro depth enough reader rest here separate
  have there : Before context (mark .return :: mark .semicolon :: rest) reader := by
    simpa [tokens] using here
  have returnHere : reader.peek.kind = .return := there.kind
  have semicolon : reader.next.peek.kind = .semicolon := there.next.kind
  have value : returnedValue (read depth) place reader.peek reader.next =
      .ok (none, reader.next) := by
    rw [returnedValue, bind_check, decide_eq_true semicolon]
    cases expected : place.returns with
    | none => rfl
    | some ty =>
      rw [allowed ty expected]
      rfl
  refine ⟨⟨.returning none, .void, reader.peek.span.through reader.peek.span⟩, reader.next.next, ?_,
    there.next.next, rfl⟩
  rw [Grammar.statement, bind_peek, returnHere]
  simp only [returnStatement]
  rw [bind_advance, bind_of_ok value, bind_of_ok (endStatement_reads there.next)]
  rfl

theorem returnValue_readable {value : Node} {span : Span} (readable : Readable style context value)
    (accepted : ∀ ty, place.returns = some ty → ty.accepts value.ty = true) :
    StatementReadable style place context ⟨.returning (some value), .void, span⟩ := by
  have tokens : Rendering.statement style ⟨.returning (some value), .void, span⟩ =
      mark .return :: (written style value.form ++ [mark .semicolon]) := by
    rw [statement_eq, ending_plain style rfl, written, Rendering.optional, atPosition_zero]
    rfl
  refine ⟨⟨_, _, tokens, by decide⟩, ?_⟩
  intro depth enough reader rest here separate
  simp only [tokens, List.length_cons, List.length_append, List.cons_append, List.append_assoc,
    List.nil_append] at enough here
  have short : (written style value.form).length < depth := by omega
  have returnHere : reader.peek.kind = .return := here.kind
  have starts := readable.starts 0 (Nat.zero_le 8)
  rw [atPosition_zero] at starts
  have notEnd : reader.next.peek.kind ≠ .semicolon := by
    rw [here.next.kind]
    exact starts.kindAhead_ne rfl _
  obtain ⟨made, stop, run, stop_at, same⟩ := readable.nested short here.next (semicolon_ends rest)
  have valueRun : returnedValue (read depth) place reader.peek reader.next =
      .ok (some made, stop) := by
    rw [returnedValue, bind_check, decide_eq_false notEnd]
    simp only [Bool.false_eq_true, if_false]
    rw [bind_of_ok run]
    cases expected : place.returns with
    | none => rfl
    | some ty =>
      have fits := accepted ty expected
      have hasValue : ¬ ty.isVoid = true := by
        intro isVoid
        simp [Ty.accepts, isVoid] at fits
      simp only
      rw [if_neg hasValue, same.ty, if_pos fits]
      rfl
  refine ⟨⟨.returning (some made), .void, reader.peek.span.through made.span⟩, stop.next, ?_,
    stop_at.next, ?_⟩
  · rw [Grammar.statement, bind_peek, returnHere]
    simp only [returnStatement]
    rw [bind_advance, bind_of_ok valueRun, bind_of_ok (endStatement_reads stop_at)]
    rfl
  · unfold Typed.Same at same ⊢
    simp only [nodeWithoutSpans, Form.withoutSpans, optionWithoutSpans, same]

theorem jump_run {form : Form} {keyword : Token} {reader : Reader} {rest : List Token}
    (inLoop : place.inLoop = true)
    (here : Before context (keyword :: mark .semicolon :: rest) reader) :
    jumpStatement place form reader =
      .ok (⟨form, .void, reader.peek.span.through reader.peek.span⟩, reader.next.next) := by
  rw [jumpStatement, bind_advance, if_pos inLoop, bind_of_ok (endStatement_reads here.next)]
  rfl

theorem breaking_readable {span : Span} (inLoop : place.inLoop = true) :
    StatementReadable style place context ⟨.breaking, .void, span⟩ := by
  have tokens : Rendering.statement style ⟨.breaking, .void, span⟩ =
      [mark .break, mark .semicolon] := by
    rw [statement_eq, ending_plain style rfl, written]
    rfl
  refine ⟨⟨_, _, tokens, by decide⟩, ?_⟩
  intro depth enough reader rest here separate
  have there : Before context (mark .break :: mark .semicolon :: rest) reader := by
    simpa [tokens] using here
  have breakHere : reader.peek.kind = .break := there.kind
  refine ⟨⟨.breaking, .void, reader.peek.span.through reader.peek.span⟩, reader.next.next, ?_,
    there.next.next, rfl⟩
  rw [Grammar.statement, bind_peek, breakHere]
  exact jump_run inLoop there

theorem continuing_readable {span : Span} (inLoop : place.inLoop = true) :
    StatementReadable style place context ⟨.continuing, .void, span⟩ := by
  have tokens : Rendering.statement style ⟨.continuing, .void, span⟩ =
      [mark .continue, mark .semicolon] := by
    rw [statement_eq, ending_plain style rfl, written]
    rfl
  refine ⟨⟨_, _, tokens, by decide⟩, ?_⟩
  intro depth enough reader rest here separate
  have there : Before context (mark .continue :: mark .semicolon :: rest) reader := by
    simpa [tokens] using here
  have continueHere : reader.peek.kind = .continue := there.kind
  refine ⟨⟨.continuing, .void, reader.peek.span.through reader.peek.span⟩, reader.next.next, ?_,
    there.next.next, rfl⟩
  rw [Grammar.statement, bind_peek, continueHere]
  exact jump_run inLoop there

/-! ## Expressions as statements -/

theorem expressionStatement_reads {node : Node} (readable : Readable style context node)
    (short : (written style node.form).length < depth) {reader : Reader} {rest : List Token}
    (here : Before context (written style node.form ++ mark .semicolon :: rest) reader) :
    ∃ made stop, expressionStatement (read depth) reader = .ok (made, stop) ∧
      Before context rest stop ∧ made.Same node := by
  obtain ⟨made, stop, run, stop_at, same⟩ := readable.nested short here (semicolon_ends rest)
  refine ⟨made, stop.next, ?_, stop_at.next, same⟩
  rw [expressionStatement, bind_of_ok run, bind_of_ok (endStatement_reads stop_at)]
  rfl

def Plainly (kind : TokenKind) : Prop :=
  (opensUpTo kind).isSome = true ∧ kind ≠ .if ∧ kind ≠ .try

theorem statement_plainly {kind : TokenKind} (plainly : Plainly kind) {reader : Reader}
    (here : reader.peek.kind = kind) :
    Grammar.statement (read depth) place reader = expressionStatement (read depth) reader := by
  rw [Grammar.statement, bind_peek, here]
  obtain ⟨opens, notIf, notTry⟩ := plainly
  cases kind <;> first
    | rfl
    | exact absurd rfl notIf
    | exact absurd rfl notTry
    | exact absurd opens (by decide)

theorem written_plainly {node : Node} (typed : Expression context node)
    (writable : Writable style node)
    (notChain : ∀ branches otherwise, node.form ≠ .chain branches otherwise) (rest : List Token) :
    Plainly (kindAhead (written style node.form ++ rest)) := by
  by_cases loose : level node.form = 0
  · cases typed with
    | set | combine | count =>
      rw [written]
      exact ⟨rfl, TokenKind.noConfusion, TokenKind.noConfusion⟩
    | chain => exact absurd rfl (notChain _ _)
    | @binary left right operator ty span => cases operator <;> cases loose
    | @unary operator operand ty span => cases operator <;> cases loose
    | _ => cases loose
  · have readable := expression_readable typed writable
    have starts := readable.starts (level node.form) (level_le _)
    rw [atPosition_eq, if_neg (Nat.lt_irrefl _)] at starts
    obtain ⟨token, more, highest, first, opens, reached⟩ := starts
    rw [first]
    show Plainly token.kind
    refine ⟨by rw [opens]; rfl, ?_, ?_⟩
    · intro is
      rw [is] at opens
      cases opens
      omega
    · intro is
      rw [is] at opens
      cases opens
      omega

theorem endsInBlock_expression {node : Node} (typed : Expression context node) :
    endsInBlock node.form = false := by
  cases typed with
  | @chain branches otherwise ty span nonempty hasValue guards decide bodies same last lastSame =>
    obtain ⟨branch, member⟩ := List.exists_mem_of_ne_nil branches nonempty
    rw [endsInBlock, List.all_eq_false]
    exact ⟨branch, member, Bool.eq_false_iff.mp (notBlock (bodies branch member))⟩
  | _ => rfl

/-- A chain that is a value does not look like a statement: behind its first condition
or its `try` stands a parenthesis. -/
theorem startsChain_value {ty : Ty} {branch : Branch Form}
    (good : ValueBranch style context ty branch) {more : List Token}
    (short : (Rendering.branch style true branch).length ≤ depth) {reader : Reader}
    (here : Before context (Rendering.branch style true branch ++ more) reader) :
    startsChain (read depth) reader = .ok (false, reader) := by
  rw [branch_tokens, List.length_cons, List.length_append] at short
  simp only [branch_tokens, List.cons_append, List.append_assoc, result_value good.notBlock]
    at here
  cases branch with
  | test guard body span =>
    obtain ⟨isBool, readable⟩ := good.guards guard rfl
    rw [guardTokens_value rfl good.notBlock] at short here
    have notTry : reader.peek.kind ≠ .try := by
      rw [here.kind]
      exact TokenKind.noConfusion
    have shortGuard : (Rendering.grouped (written style guard.form)).length < depth := by omega
    have parenthesis : Unjoined 0 (kindAhead
        (Rendering.grouped (written style (Branch.test guard body span).body.form) ++ more)) := by
      intro level _
      unfold operators
      split <;> rfl
    obtain ⟨made, stop, run, stop_at, -⟩ :=
      readable.nestedGrouped shortGuard here.next parenthesis
    have notBraced : stop.peek.kind ≠ .leftBrace := by
      rw [stop_at.kind]
      exact TokenKind.noConfusion
    rw [startsChain, bind_check, decide_eq_false notTry]
    simp only [Bool.false_eq_true, if_false]
    rw [bind_get, bind_advance, bind_of_ok run, bind_check, decide_eq_false notBraced, bind_set]
    rfl
  | attempt body span =>
    have isTry : reader.peek.kind = .try := here.kind
    have notBraced : reader.next.peek.kind ≠ .leftBrace := by
      have next : reader.next.peek.kind = .leftParen := here.next.kind
      rw [next]
      exact TokenKind.noConfusion
    rw [startsChain, bind_check, decide_eq_true isTry]
    simp only [if_true]
    rw [checkNext_run, decide_eq_false notBraced]

theorem statement_chain {reader : Reader}
    (opens : reader.peek.kind = .if ∨ reader.peek.kind = .try) {braced : Bool}
    (starts : startsChain (read depth) reader = .ok (braced, reader)) :
    Grammar.statement (read depth) place reader =
      if braced then chainStatement (read depth) place reader
      else expressionStatement (read depth) reader := by
  rw [Grammar.statement, bind_peek]
  rcases opens with is | is <;> rw [is] <;> simp only <;> rw [bind_of_ok starts] <;>
    cases braced <;> rfl

theorem branchKind_begins (branch : Branch Form) :
    Begins (mark (branchKind true branch)).kind := by
  cases branch with
  | test guard body span =>
    show Begins (mark .if).kind
    decide
  | attempt body span =>
    show Begins (mark .try).kind
    decide

theorem branch_opens (branch : Branch Form) (more : List Token) :
    kindAhead (Rendering.branch style true branch ++ more) = .if ∨
      kindAhead (Rendering.branch style true branch ++ more) = .try := by
  rw [branch_tokens]
  cases branch with
  | test guard body span => exact .inl rfl
  | attempt body span => exact .inr rfl

theorem expression_statementReadable {node : Node} (typed : Expression context node)
    (writable : Writable style node) : StatementReadable style place context node := by
  have tokens : Rendering.statement style node = written style node.form ++ [mark .semicolon] := by
    rw [statement_eq, ending_plain style (endsInBlock_expression typed)]
  have readable := expression_readable typed writable
  have starts := readable.starts 0 (Nat.zero_le 8)
  rw [atPosition_zero] at starts
  obtain ⟨token, more, highest, first, opens, -⟩ := starts
  refine ⟨⟨token, more ++ [mark .semicolon], by rw [tokens, first]; rfl, ?_⟩, ?_⟩
  · have known : (opensUpTo token.kind).isSome = true := by
      rw [opens]
      rfl
    revert known
    generalize token.kind = kind
    cases kind <;> decide
  · intro depth enough reader rest here separate
    rw [tokens, List.length_append, List.length_singleton] at enough
    rw [tokens, List.append_assoc, List.singleton_append] at here
    rw [Context.after_expression typed]
    have short : (written style node.form).length < depth := by omega
    obtain ⟨made, stop, run, stop_at, same⟩ := expressionStatement_reads readable short here
    refine ⟨made, stop, ?_, stop_at, same⟩
    rw [← run]
    -- Only a chain begins as a statement does that is none; its first branch tells them apart.
    by_cases isChain : ∃ branches otherwise, node.form = .chain branches otherwise
    · cases typed with
      | @chain branches otherwise ty span nonempty hasValue guards decide bodies sameTy last lastSame =>
        cases branches with
        | nil => exact absurd rfl nonempty
        | cons branch others =>
          simp only [written, branched, List.append_assoc] at here
          simp only [written, branched, List.length_append] at short
          have good : ValueBranch style context ty branch := by
            have literals (value : Value) (literal : value ∈ branchLiterals branch) :
                style.Denotes value :=
              writable value (List.mem_append_left _
                (literals_of_branch List.mem_cons_self literal))
            refine ⟨?_, ?_, sameTy branch List.mem_cons_self,
              notBlock (bodies branch List.mem_cons_self)⟩
            · intro guard isGuard
              exact ⟨decide branch List.mem_cons_self guard isGuard,
                expression_readable (guards branch List.mem_cons_self guard isGuard)
                  fun value literal => literals value (guard_literals isGuard literal)⟩
            · exact expression_readable (bodies branch List.mem_cons_self)
                fun value literal => literals value (body_literals branch literal)
          have shortBranch : (Rendering.branch style true branch).length ≤ depth := by omega
          have opening : reader.peek.kind = .if ∨ reader.peek.kind = .try := by
            rw [here.kind]
            exact branch_opens branch _
          exact statement_chain opening (startsChain_value good shortBranch here)
      | _ =>
        obtain ⟨_, _, form⟩ := isChain
        cases form
    · have plainly := written_plainly typed writable
        (fun branches otherwise form => isChain ⟨branches, otherwise, form⟩)
        (mark .semicolon :: rest)
      exact statement_plainly plainly here.kind

/-! ## Chains of blocks -/

structure BlockBranch (style : Style) (place : Place) (context : Context) (branch : Branch Form) :
    Prop where
  guards : ∀ guard, branch.guard? = some guard → guard.ty = .bool ∧ Readable style context guard
  block : IsBlock branch.body
  statements : Readables style place context.push branch.body.statements

theorem isBlock_form {node : Node} (block : IsBlock node) : isBlock node.form = true := by
  obtain ⟨list, isList, -⟩ := block
  rw [isList]
  rfl

theorem blockBranch_reads {branch : Branch Form} {first : Bool}
    (good : BlockBranch style place context branch)
    (short : (Rendering.branch style first branch).length ≤ depth) {reader : Reader}
    {rest : List Token}
    (here : Before context (Rendering.branch style first branch ++ rest) reader) :
    ∃ guard made stop, GuardKind.ofToken? reader.peek.kind first = some guard ∧
      Grammar.branch (read depth .expression) (Grammar.block (read depth) place) guard reader =
        .ok (made, stop) ∧ Before context rest stop ∧
      branchWithoutSpans made = branchWithoutSpans branch := by
  have isABlock := isBlock_form good.block
  rw [branch_tokens, List.length_cons, List.length_append, result_block isABlock] at short
  have guardReads (guard : Node) (isGuard : branch.guard? = some guard) : guard.ty = .bool ∧
      ReadsBack (read depth .expression) context (guardTokens style branch) (Ends 0) guard := by
    obtain ⟨isBool, readable⟩ := good.guards guard isGuard
    rw [guardTokens_block isGuard isABlock] at short ⊢
    exact ⟨isBool, readable.nested (by omega)⟩
  have follows (rest : List Token) : Ends 0 (kindAhead (result style branch.body ++ rest)) := by
    rw [result_block isABlock]
    exact (brace_ends good.block rest).ends
  have bodyReads : ReadsBack (Grammar.block (read depth) place) context (result style branch.body)
      (fun _ => True) branch.body := by
    rw [result_block isABlock]
    exact block_reads good.block good.statements (by omega)
  obtain ⟨guard, made, stop, opens, run, stop_at, same, -⟩ :=
    branch_reads guardReads follows bodyReads here trivial
  exact ⟨guard, made, stop, opens, run, stop_at, same⟩

theorem blockBranches_reads {more : List (Branch Form)}
    (good : ∀ branch ∈ more, BlockBranch style place context branch)
    {sofar : List (Branch Form)} {rounds : List Token} {reader : Reader} {rest : List Token}
    (here : Before context (branched style sofar.isEmpty more ++ rest) reader)
    (past : GuardKind.ofToken? (kindAhead rest) (sofar ++ more).isEmpty = none)
    (short : (branched style sofar.isEmpty more).length ≤ depth)
    (enough : reader.ahead.length ≤ rounds.length) :
    ∃ made stop, blockBranches (read depth) place rounds sofar reader = .ok (sofar ++ made, stop) ∧
      Before context rest stop ∧ branchesWithoutSpans made = branchesWithoutSpans more := by
  induction more generalizing sofar rounds reader with
  | nil =>
    have there : Before context rest reader := here
    refine ⟨[], reader, ?_, there, rfl⟩
    rw [List.append_nil] at past ⊢
    cases rounds with
    | nil => rfl
    | cons token rounds =>
      rw [← there.kind] at past
      simp only [blockBranches, bind_peek, past]
      rfl
  | cons branch others ih =>
    rw [branched, List.append_assoc] at here
    rw [branched, List.length_append] at short
    have shortBranch : (Rendering.branch style sofar.isEmpty branch).length ≤ depth := by omega
    obtain ⟨guard, made, between, opens, run, between_at, sameBranch⟩ :=
      blockBranch_reads (good branch List.mem_cons_self) shortBranch here
    have grown : (sofar ++ [made]).isEmpty = false := by simp
    have sameSize : (sofar ++ branch :: others).isEmpty = (sofar ++ [made] ++ others).isEmpty := by
      cases sofar <;> rfl
    rw [sameSize] at past
    obtain ⟨token, rounds, rfl, fewer⟩ :=
      here.exists_round (branch_ne_nil style _ branch) between_at enough
    rw [← grown] at between_at short
    obtain ⟨madeOthers, stop, othersRun, stop_at, sameOthers⟩ :=
      ih (fun branch member => good branch (List.mem_cons_of_mem _ member)) between_at past
        (by omega) fewer
    refine ⟨made :: madeOthers, stop, ?_, stop_at, ?_⟩
    · simp only [blockBranches, bind_peek, opens]
      rw [bind_of_ok run, othersRun, List.append_assoc, List.singleton_append]
    · simp only [branchesWithoutSpans, sameBranch, sameOthers]

theorem startsChain_block {branch : Branch Form} (good : BlockBranch style place context branch)
    {more : List Token} (short : (Rendering.branch style true branch).length ≤ depth)
    {reader : Reader} (here : Before context (Rendering.branch style true branch ++ more) reader) :
    startsChain (read depth) reader = .ok (true, reader) := by
  have isABlock := isBlock_form good.block
  rw [branch_tokens, List.length_cons, List.length_append] at short
  simp only [branch_tokens, List.cons_append, List.append_assoc, result_block isABlock] at here
  have brace (rest : List Token) :
      kindAhead (written style branch.body.form ++ rest) = .leftBrace := by
    rw [written_block good.block]
    rfl
  cases branch with
  | test guard body span =>
    obtain ⟨isBool, readable⟩ := good.guards guard rfl
    rw [guardTokens_block rfl isABlock] at short here
    have notTry : reader.peek.kind ≠ .try := by
      rw [here.kind]
      exact TokenKind.noConfusion
    have shortGuard : (written style guard.form).length < depth := by omega
    obtain ⟨made, stop, run, stop_at, -⟩ :=
      readable.nested shortGuard here.next (brace_ends good.block more).ends
    have braced : stop.peek.kind = .leftBrace := stop_at.kind.trans (brace more)
    rw [startsChain, bind_check, decide_eq_false notTry]
    simp only [Bool.false_eq_true, if_false]
    rw [bind_get, bind_advance, bind_of_ok run, bind_check, decide_eq_true braced, bind_set]
    rfl
  | attempt body span =>
    have isTry : reader.peek.kind = .try := here.kind
    have braced : reader.next.peek.kind = .leftBrace := here.next.kind.trans (brace more)
    rw [startsChain, bind_check, decide_eq_true isTry]
    simp only [if_true]
    rw [checkNext_run, decide_eq_true braced]

theorem lastChainBlock_reads (branches : List (Branch Form)) (start : Span)
    {otherwise : Option Node} (block : ∀ node, otherwise = some node → IsBlock node)
    (readable : ∀ node, otherwise = some node →
      Readables style place context.push node.statements)
    (short : (last style otherwise).length ≤ depth) {closed : Bool} {reader : Reader}
    {rest : List Token} (here : Before context (last style otherwise ++
      ((if closed then [mark .semicolon] else []) ++ rest)) reader)
    (separate : Separate (kindAhead rest)) :
    ∃ made stop, (do
        let otherwise ←
          if ← accept .else then some <$> Grammar.block (read depth) place else pure none
        chainMade start branches otherwise : Parse Node) reader =
        .ok (⟨.chain branches made, .void, start.through (chainEnd start branches made)⟩, stop) ∧
      Before context rest stop ∧ optionWithoutSpans made = optionWithoutSpans otherwise := by
  simp only [bind_accept]
  cases otherwise with
  | none =>
    have there : Before context ((if closed then [mark .semicolon] else []) ++ rest) reader := here
    have absent : reader.peek.kind ≠ .else := by
      rw [there.kind]
      cases closed with
      | true => exact TokenKind.noConfusion
      | false =>
        intro is
        rw [show kindAhead ((if false = true then [mark .semicolon] else []) ++ rest) =
          kindAhead rest from rfl] at is
        rw [is] at separate
        exact absurd separate (by decide)
    obtain ⟨stop, endRun, stop_at⟩ := endBlockStatement_reads there separate
    refine ⟨none, stop, ?_, stop_at, rfl⟩
    rw [if_neg absent]
    simp only [Bool.false_eq_true, if_false, bind_pure_run]
    rw [chainMade, bind_of_ok endRun]
    rfl
  | some node =>
    have isABlock := isBlock_form (block node rfl)
    rw [last, result_block isABlock] at here short
    rw [List.length_cons] at short
    have elseHere : reader.peek.kind = .else := here.kind
    have shortBlock : (written style node.form).length ≤ depth := by omega
    obtain ⟨made, behind, run, behind_at, same⟩ :=
      block_reads (block node rfl) (readable node rfl) shortBlock here.next trivial
    obtain ⟨stop, endRun, stop_at⟩ := endBlockStatement_reads behind_at separate
    have wrapped : (some <$> Grammar.block (read depth) place : Parse (Option Node)) reader.next =
        .ok (some made, behind) := by
      rw [map_eq_pure_bind, bind_of_ok run]
      rfl
    refine ⟨some made, stop, ?_, stop_at, congrArg some same⟩
    rw [if_pos elseHere]
    simp only [if_true]
    rw [bind_of_ok wrapped, chainMade, bind_of_ok endRun]
    rfl

theorem chain_statementReadable {branches : List (Branch Form)} {otherwise : Option Node}
    {span : Span} (nonempty : branches ≠ [])
    (good : ∀ branch ∈ branches, BlockBranch style place context branch)
    (block : ∀ node, otherwise = some node → IsBlock node)
    (readable : ∀ node, otherwise = some node →
      Readables style place context.push node.statements) :
    StatementReadable style place context ⟨.chain branches otherwise, .void, span⟩ := by
  have inBlock : endsInBlock (.chain branches otherwise) = true := by
    rw [endsInBlock, List.all_eq_true]
    exact fun branch member => isBlock_form (good branch member).block
  have tokens : Rendering.statement style ⟨.chain branches otherwise, .void, span⟩ =
      branched style true branches ++ (last style otherwise ++
        if style.closes ⟨.chain branches otherwise, .void, span⟩ then [mark .semicolon]
        else []) := by
    rw [statement_eq, ending_block style inBlock, written, List.append_assoc]
  cases branches with
  | nil => exact absurd rfl nonempty
  | cons branch others =>
    generalize style.closes ⟨.chain (branch :: others) otherwise, .void, span⟩ = closed at tokens
    refine ⟨?_, ?_⟩
    · rw [tokens, branched, branch_tokens]
      exact ⟨_, _, rfl, branchKind_begins branch⟩
    · intro depth enough reader rest here separate
      simp only [tokens, List.length_append, List.append_assoc] at enough here
      have opened : Before context (branched style ([] : List (Branch Form)).isEmpty
          (branch :: others) ++ (last style otherwise ++
            ((if closed then [mark .semicolon] else []) ++ rest))) reader := here
      have first : Before context (Rendering.branch style true branch ++
          (branched style false others ++ (last style otherwise ++
            ((if closed then [mark .semicolon] else []) ++ rest)))) reader := by
        simpa [branched] using here
      have shortBranches : (branched style ([] : List (Branch Form)).isEmpty
          (branch :: others)).length ≤ depth := Nat.le_trans (Nat.le_add_right _ _) enough
      have shortLast : (last style otherwise).length ≤ depth := by omega
      have shortBranch : (Rendering.branch style true branch).length ≤ depth := by
        simp only [branched, List.length_append] at enough
        omega
      -- neither `else`, nor a semicolon, nor the next statement goes on with the branches
      have past : GuardKind.ofToken? (kindAhead (last style otherwise ++
          ((if closed then [mark .semicolon] else []) ++ rest))) false = none := by
        cases otherwise with
        | some node =>
          rw [last]
          rfl
        | none =>
          cases closed with
          | true => rfl
          | false =>
            show GuardKind.ofToken? (kindAhead rest) false = none
            simp only [Separate, List.mem_cons, List.not_mem_nil, or_false, not_or] at separate
            obtain ⟨-, notElif, notEltry, -⟩ := separate
            revert notElif notEltry
            generalize kindAhead rest = kind
            cases kind <;> simp [GuardKind.ofToken?]
      have opening : reader.peek.kind = .if ∨ reader.peek.kind = .try := by
        rw [first.kind]
        exact branch_opens branch _
      have starts := startsChain_block (good branch List.mem_cons_self) shortBranch first
      obtain ⟨made, between, run, between_at, same⟩ :=
        blockBranches_reads good opened past shortBranches (Nat.le_refl _)
      obtain ⟨madeLast, stop, lastRun, stop_at, sameLast⟩ :=
        lastChainBlock_reads made reader.peek.span block readable shortLast between_at separate
      refine ⟨⟨.chain made madeLast, .void,
        reader.peek.span.through (chainEnd reader.peek.span made madeLast)⟩, stop, ?_, stop_at, ?_⟩
      · rw [statement_chain opening starts, if_pos rfl, chainStatement, bind_peek]
        simp only
        rw [bind_remaining, bind_of_ok run]
        exact lastRun
      · unfold Typed.Same
        simp only [nodeWithoutSpans, Form.withoutSpans, same, sameLast]

/-! ## All statements -/

theorem writable_statement {node statement : Node} (block : IsBlock node)
    (writable : Writable style node) (member : statement ∈ node.statements) :
    Writable style statement := by
  intro value literal
  apply writable value
  obtain ⟨list, isList, -⟩ := block
  obtain ⟨form, ty, span⟩ := node
  subst isList
  exact literals_of_mem member literal

theorem readables_of_block {node : Node} {inside : Context} (block : IsBlock node)
    (writable : Writable style node)
    (each : Sequence (fun context statement => Writable style statement →
      StatementReadable style place context statement) inside node.statements) :
    Readables style place inside node.statements := by
  intro before statement after split
  apply each before statement after split
  apply writable_statement block writable
  rw [split]
  exact List.mem_append_right _ List.mem_cons_self

theorem statement_readable {node : Node} (typed : Statement place context node)
    (writable : Writable style node) : StatementReadable style place context node := by
  induction typed with
  | expression typed => exact expression_statementReadable typed writable
  | declaration typed => exact declaration_readable typed writable
  | @define place context function span returnable declarable distinct notNative fresh block body ih =>
    have bodyWritable : Writable style function.body := by
      intro value literal
      apply writable value
      obtain ⟨name, returns, parameters, body⟩ := function
      exact literal
    exact define_readable returnable declarable distinct notNative fresh block
      (readables_of_block block bodyWritable ih)
  | returnNothing allowed => exact returnNothing_readable allowed
  | returnValue typed accepted =>
    exact returnValue_readable (expression_readable typed writable) accepted
  | breaking inLoop => exact breaking_readable inLoop
  | continuing inLoop => exact continuing_readable inLoop
  | repeating typed isInt block rounds ih =>
    have countWritable := fun value literal => writable value (List.mem_append_left _ literal)
    have bodyWritable := fun value literal => writable value (List.mem_append_right _ literal)
    exact repeating_readable (expression_readable typed countWritable) isInt block
      (readables_of_block block bodyWritable ih)
  | whileTrue typed isBool block rounds ih =>
    have conditionWritable := fun value literal => writable value (List.mem_append_left _ literal)
    have bodyWritable := fun value literal => writable value (List.mem_append_right _ literal)
    exact whileTrue_readable (expression_readable typed conditionWritable) isBool block
      (readables_of_block block bodyWritable ih)
  | @loop place context initializer condition step body span first typed isBool stepTyped block
      rounds ih =>
    have parts (value : Value) (literal : value ∈ nodeLiterals initializer ∨
        value ∈ nodeLiterals condition ∨ value ∈ nodeLiterals step ∨ value ∈ nodeLiterals body) :
        style.Denotes value := by
      apply writable value
      simp only [nodeLiterals, Form.literals, List.mem_append]
      rcases literal with literal | literal | literal | literal
      · exact .inl (.inl (.inl literal))
      · exact .inl (.inl (.inr literal))
      · exact .inl (.inr literal)
      · exact .inr literal
    exact loop_readable first (fun value literal => parts value (.inl literal))
      (expression_readable typed fun value literal => parts value (.inr (.inl literal))) isBool
      (expression_readable stepTyped fun value literal => parts value (.inr (.inr (.inl literal))))
      block
      (readables_of_block block (fun value literal => parts value (.inr (.inr (.inr literal)))) ih)
  | chain nonempty guards decide areBlocks bodies lastIsBlock last bodiesIh lastIh =>
    have branchWritable {branch : Branch Form} (member : branch ∈ _) (value : Value)
        (literal : value ∈ branchLiterals branch) : style.Denotes value :=
      writable value (List.mem_append_left _ (literals_of_branch member literal))
    refine chain_statementReadable nonempty ?_ lastIsBlock ?_
    · intro branch member
      refine ⟨?_, areBlocks branch member, ?_⟩
      · intro guard isGuard
        exact ⟨decide branch member guard isGuard,
          expression_readable (guards branch member guard isGuard) fun value literal =>
            branchWritable member value (guard_literals isGuard literal)⟩
      · exact readables_of_block (areBlocks branch member)
          (fun value literal => branchWritable member value (body_literals branch literal))
          (bodiesIh branch member)
    · rintro node rfl
      exact readables_of_block (lastIsBlock node rfl)
        (fun value literal => writable value (List.mem_append_right _ literal))
        (lastIh node rfl)

end

end RobotScript.Grammar
