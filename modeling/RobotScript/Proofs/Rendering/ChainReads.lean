import RobotScript.Proofs.Rendering.AtomReads

/-! # Written chains read back

A branch is written alike whether its chain is a value or a statement; only a value
has parentheses around its parts. With the chains that are values all expressions
are read back. -/
set_option autoImplicit false

namespace RobotScript.Grammar

open Rendering Typing

section

variable {style : Style} {context : Context} {depth : Nat}

/-! ## Chains -/

/-- The condition of a branch as it is written: in parentheses if the branch is a value. -/
def guardTokens (style : Style) (branch : Branch Form) : List Token :=
  match branch with
  | .test guard body _ =>
    if isBlock body.form then written style guard.form
    else Rendering.grouped (written style guard.form)
  | .attempt _ _ => []

def branchKind (first : Bool) : Branch Form → TokenKind
  | .test _ _ _ => if first then .if else .elif
  | .attempt _ _ => if first then .try else .eltry

theorem branch_tokens (style : Style) (first : Bool) (branch : Branch Form) :
    Rendering.branch style first branch =
      mark (branchKind first branch) :: (guardTokens style branch ++ result style branch.body) := by
  cases branch with
  | test guard body span => rw [Rendering.branch]; rfl
  | attempt body span => rw [Rendering.branch]; rfl

theorem branch_ne_nil (style : Style) (first : Bool) (branch : Branch Form) :
    Rendering.branch style first branch ≠ [] := by
  rw [branch_tokens]
  exact List.cons_ne_nil _ _

theorem result_block {node : Node} (isABlock : isBlock node.form = true) :
    result style node = written style node.form := by
  obtain ⟨form, ty, span⟩ := node
  rw [result, if_pos isABlock]

theorem result_value {node : Node} (notBlock : isBlock node.form = false) :
    result style node = Rendering.grouped (written style node.form) := by
  obtain ⟨form, ty, span⟩ := node
  rw [result, if_neg (Bool.eq_false_iff.mp notBlock)]

theorem guardTokens_block {branch : Branch Form} {guard : Node}
    (isGuard : branch.guard? = some guard) (isABlock : isBlock branch.body.form = true) :
    guardTokens style branch = written style guard.form := by
  cases branch with
  | test test body span =>
    cases isGuard
    exact if_pos isABlock
  | attempt body span => cases isGuard

theorem guardTokens_value {branch : Branch Form} {guard : Node}
    (isGuard : branch.guard? = some guard) (notBlock : isBlock branch.body.form = false) :
    guardTokens style branch = Rendering.grouped (written style guard.form) := by
  cases branch with
  | test test body span =>
    cases isGuard
    exact if_neg (Bool.eq_false_iff.mp notBlock)
  | attempt body span => cases isGuard

theorem requireBool_run {condition : Node} {keyword : String} {reader : Reader}
    (isBool : condition.ty = .bool) : requireBool condition keyword reader = .ok ((), reader) := by
  rw [requireBool, if_pos isBool]
  rfl

theorem branch_reads {condition body : Parse Node} {branch : Branch Form} {first : Bool}
    {follow ends : TokenKind → Prop}
    (guardReads : ∀ guard, branch.guard? = some guard → guard.ty = .bool ∧
      ReadsBack condition context (guardTokens style branch) follow guard)
    (follows : ∀ rest, follow (kindAhead (result style branch.body ++ rest)))
    (bodyReads : ReadsBack body context (result style branch.body) ends branch.body)
    {reader : Reader} {rest : List Token}
    (here : Before context (Rendering.branch style first branch ++ rest) reader)
    (ending : ends (kindAhead rest)) :
    ∃ guard made stop, GuardKind.ofToken? reader.peek.kind first = some guard ∧
      Grammar.branch condition body guard reader = .ok (made, stop) ∧ Before context rest stop ∧
      branchWithoutSpans made = branchWithoutSpans branch ∧ made.body.Same branch.body := by
  simp only [branch_tokens, List.cons_append, List.append_assoc] at here
  cases branch with
  | test guard value span =>
    obtain ⟨isBool, reads⟩ := guardReads guard rfl
    have opens : GuardKind.ofToken? reader.peek.kind first = some .test := by
      rw [here.kind]
      cases first <;> rfl
    obtain ⟨madeGuard, between, guardRun, between_at, sameGuard⟩ := reads here.next (follows rest)
    obtain ⟨madeBody, stop, bodyRun, stop_at, sameBody⟩ := bodyReads between_at ending
    refine ⟨.test, .test madeGuard madeBody (reader.peek.span.through madeBody.span), stop, opens,
      ?_, stop_at, ?_, sameBody⟩
    · rw [Grammar.branch, bind_advance]
      simp only
      rw [bind_of_ok guardRun, bind_of_ok (requireBool_run (sameGuard.ty.trans isBool)),
        bind_of_ok bodyRun]
      rfl
    · unfold Typed.Same at sameGuard sameBody
      simp only [Branch.body] at sameBody
      simp only [branchWithoutSpans, sameGuard, sameBody]
  | attempt value span =>
    have opens : GuardKind.ofToken? reader.peek.kind first = some .attempt := by
      rw [here.kind]
      cases first <;> rfl
    obtain ⟨madeBody, stop, bodyRun, stop_at, sameBody⟩ := bodyReads here.next ending
    refine ⟨.attempt, .attempt madeBody (reader.peek.span.through madeBody.span), stop, opens,
      ?_, stop_at, ?_, sameBody⟩
    · rw [Grammar.branch, bind_advance]
      simp only
      rw [bind_of_ok bodyRun]
      rfl
    · unfold Typed.Same at sameBody
      simp only [Branch.body] at sameBody
      simp only [branchWithoutSpans, sameBody]

theorem branchesWithoutSpans_append (first second : List (Branch Form)) :
    branchesWithoutSpans (first ++ second) =
      branchesWithoutSpans first ++ branchesWithoutSpans second := by
  induction first with
  | nil => rfl
  | cons branch rest ih => simp only [List.cons_append, branchesWithoutSpans, ih]

theorem chainKeyword_unjoined {kind : TokenKind}
    (keyword : kind = .elif ∨ kind = .eltry ∨ kind = .else) : Unjoined 0 kind := by
  intro level _
  unfold operators
  rcases keyword with rfl | rfl | rfl <;> split <;> rfl

theorem branched_ahead (branches : List (Branch Form)) (rest : List Token) :
    kindAhead (branched style false branches ++ rest) = .elif ∨
      kindAhead (branched style false branches ++ rest) = .eltry ∨
      branched style false branches ++ rest = rest := by
  cases branches with
  | nil => exact .inr (.inr rfl)
  | cons branch others =>
    rw [branched, branch_tokens]
    cases branch with
    | test guard body span => exact .inl rfl
    | attempt body span => exact .inr (.inl rfl)

theorem unifyBranch_run {known : Option Ty} {body : Node} {ty : Ty} (isTy : body.ty = ty)
    (hasValue : ty ≠ .void) (sofar : known = none ∨ known = some ty) (reader : Reader) :
    unifyBranch known body reader = .ok (ty, reader) := by
  subst isTy
  have notVoid : ¬ body.ty.isVoid = true := by simpa [Ty.isVoid] using hasValue
  unfold unifyBranch
  rw [if_neg notVoid]
  rcases sofar with rfl | rfl
  · rfl
  · simp only [if_true]
    rfl

structure ValueBranch (style : Style) (context : Context) (ty : Ty) (branch : Branch Form) :
    Prop where
  guards : ∀ guard, branch.guard? = some guard → guard.ty = .bool ∧ Readable style context guard
  body : Readable style context branch.body
  bodyTy : branch.body.ty = ty
  notBlock : isBlock branch.body.form = false

theorem valueBranches_reads {ty : Ty} (hasValue : ty ≠ .void) {more : List (Branch Form)}
    (good : ∀ branch ∈ more, ValueBranch style context ty branch)
    {sofar : List (Branch Form)} {known : Option Ty} (typed : known = none ∨ known = some ty)
    {rounds : List Token} {reader : Reader} {rest : List Token}
    (here : Before context (branched style sofar.isEmpty more ++ rest) reader)
    (last : kindAhead rest = .else) (short : (branched style sofar.isEmpty more).length ≤ depth)
    (enough : reader.ahead.length ≤ rounds.length) :
    ∃ made final stop, valueBranches (read depth .expression) rounds sofar known reader =
        .ok ((sofar ++ made, final), stop) ∧ Before context rest stop ∧
      branchesWithoutSpans made = branchesWithoutSpans more ∧
      (final = none ∨ final = some ty) := by
  induction more generalizing sofar known rounds reader with
  | nil =>
    refine ⟨[], known, reader, ?_, here, rfl, typed⟩
    rw [List.append_nil]
    cases rounds with
    | nil => rfl
    | cons token rounds =>
      have past : GuardKind.ofToken? reader.peek.kind sofar.isEmpty = none := by
        rw [here.kind]
        show GuardKind.ofToken? (kindAhead rest) _ = none
        rw [last]
        cases sofar <;> rfl
      simp only [valueBranches, bind_peek, past]
      rfl
  | cons branch others ih =>
    have branchGood := good branch List.mem_cons_self
    -- A keyword of the chain stands behind the branch, and that joins no operands.
    have followed : Unjoined 0 (kindAhead (branched style false others ++ rest)) := by
      apply chainKeyword_unjoined
      rcases branched_ahead others rest with is | is | is
      · exact .inl is
      · exact .inr (.inl is)
      · rw [is, last]
        exact .inr (.inr rfl)
    rw [branched, List.append_assoc] at here
    rw [branched, List.length_append, branch_tokens, List.length_cons, List.length_append,
      result_value branchGood.notBlock] at short
    have guardReads (guard : Node) (isGuard : branch.guard? = some guard) :
        guard.ty = .bool ∧ ReadsBack (read depth .expression) context (guardTokens style branch)
          (Unjoined 0) guard := by
      obtain ⟨isBool, readable⟩ := branchGood.guards guard isGuard
      refine ⟨isBool, ?_⟩
      rw [guardTokens_value isGuard branchGood.notBlock] at short ⊢
      exact readable.nestedGrouped (by omega)
    have bodyReads : ReadsBack (read depth .expression) context (result style branch.body)
        (Unjoined 0) branch.body := by
      rw [result_value branchGood.notBlock]
      exact branchGood.body.nestedGrouped (by omega)
    have follows (rest : List Token) :
        Unjoined 0 (kindAhead (result style branch.body ++ rest)) := by
      rw [result_value branchGood.notBlock]
      intro level _
      unfold operators
      split <;> rfl
    obtain ⟨guard, made, between, opens, run, between_at, sameBranch, sameBody⟩ :=
      branch_reads guardReads follows bodyReads here followed
    have unified := unifyBranch_run (sameBody.ty.trans branchGood.bodyTy) hasValue typed between
    have grown : (sofar ++ [made]).isEmpty = false := by simp
    obtain ⟨token, rounds, rfl, fewer⟩ :=
      here.exists_round (branch_ne_nil style _ branch) between_at enough
    rw [← grown] at between_at short
    obtain ⟨others', final, stop, restRun, stop_at, sameOthers, finalTyped⟩ :=
      ih (fun branch member => good branch (List.mem_cons_of_mem _ member)) (.inr rfl)
        between_at (by omega) fewer
    refine ⟨made :: others', final, stop, ?_, stop_at, ?_, finalTyped⟩
    · simp only [valueBranches, bind_peek, opens]
      rw [bind_of_ok run, bind_of_ok unified, restRun, List.append_assoc, List.singleton_append]
    · simp only [branchesWithoutSpans, sameBranch, sameOthers]

theorem last_value {node : Node} (notBlock : isBlock node.form = false) :
    last style (some node) = mark .else :: Rendering.grouped (written style node.form) := by
  rw [last, result_value notBlock]

theorem chain_readable {branches : List (Branch Form)} {otherwise : Node} {ty : Ty} {span : Span}
    (nonempty : branches ≠ []) (hasValue : ty ≠ .void)
    (good : ∀ branch ∈ branches, ValueBranch style context ty branch)
    (readable : Readable style context otherwise) (isTy : otherwise.ty = ty)
    (notBlock : isBlock otherwise.form = false) :
    Readable style context ⟨.chain branches (some otherwise), ty, span⟩ := by
  cases branches with
  | nil => exact absurd rfl nonempty
  | cons first others =>
    have tokens : written style (.chain (first :: others) (some otherwise)) =
        branched style true (first :: others) ++
          mark .else :: Rendering.grouped (written style otherwise.form) := by
      rw [written, last_value notBlock]
    have opens (rest : List Token) :
        kindAhead (written style (.chain (first :: others) (some otherwise)) ++ rest) =
          branchKind true first := by
      rw [tokens, branched, branch_tokens]
      cases first <;> rfl
    apply Readable.of_loose rfl
    · rw [tokens, branched, branch_tokens]
      cases first with
      | test guard body span => exact ⟨_, _, 0, rfl, rfl, Nat.le_refl 0⟩
      | attempt body span => exact ⟨_, _, 0, rfl, rfl, Nat.le_refl 0⟩
    · intro operator rest
      rw [opens]
      cases first <;> cases operator <;> exact TokenKind.noConfusion
    · intro depth enough reader rest here ends
      simp only [tokens, List.length_append, List.length_cons] at enough
      have kind := here.kind.trans (opens rest)
      have chained : atom (read depth .expression) reader =
          valueChain (read depth .expression) reader := by
        rw [atom, bind_peek, kind]
        cases first <;> rfl
      have there : Before context (branched style ([] : List (Branch Form)).isEmpty (first :: others) ++
          (mark .else :: Rendering.grouped (written style otherwise.form) ++ rest)) reader := by
        simpa [tokens] using here
      obtain ⟨made, known, between, run, between_at, same, typed⟩ :=
        valueBranches_reads hasValue good (.inl rfl) there rfl
          (Nat.le_trans (Nat.le_add_right _ _) enough) (Nat.le_refl _)
      have elseHere : between.peek.kind = .else := between_at.kind
      have short : (Rendering.grouped (written style otherwise.form)).length < depth := by omega
      obtain ⟨madeLast, stop, lastRun, stop_at, sameLast⟩ :=
        readable.nestedGrouped short between_at.next ends.1
      have unified := unifyBranch_run (sameLast.ty.trans isTy) hasValue typed stop
      refine ⟨⟨.chain made (some madeLast), ty, reader.peek.span.through madeLast.span⟩, stop, ?_,
        stop_at, ?_⟩
      · rw [chained, valueChain, bind_peek]
        simp only
        rw [bind_remaining, bind_of_ok run]
        simp only [List.nil_append]
        rw [bind_accept, if_pos elseHere]
        simp only [if_true]
        rw [bind_of_ok lastRun, bind_of_ok unified]
        rfl
      · unfold Typed.Same at sameLast ⊢
        simp only [nodeWithoutSpans, Form.withoutSpans, same, optionWithoutSpans, sameLast]

/-! ## Operators -/

theorem unary_readable {operator : UnaryOp} {operand : Node} {ty : Ty} {span : Span}
    (readable : Readable style context operand) (applies : operator.result? operand.ty = some ty) :
    Readable style context ⟨.unary operator operand, ty, span⟩ := by
  have tokens : written style (.unary operator operand) =
      token (prefixKind operator) operator.symbol ::
        atPosition style (prefixLevel operator) operand := by
    rw [written]
  have bounded : prefixLevel operator ≤ 8 := level_le (.unary operator operand)
  apply Readable.of_written
  · rw [tokens]
    cases operator <;> exact ⟨_, _, _, rfl, rfl, Nat.le_refl _⟩
  · intro depth enough
    simp only [tokens, List.length_cons] at enough ⊢
    exact prefixed_sign_reads rfl applies
      (readable.reads depth (prefixLevel operator) bounded (by omega))
  · intro depth isInfix
    have notInfix : ¬ Infix (prefixLevel operator) := by cases operator <;> decide
    exact absurd isInfix notInfix

theorem binary_readable {left right : Node} {operator : BinaryOp} {ty : Ty} {span : Span}
    (leftReadable : Readable style context left) (rightReadable : Readable style context right)
    (applies : operator.result? left.ty right.ty = some ty) :
    Readable style context ⟨.binary left operator right, ty, span⟩ := by
  have tokens : written style (.binary left operator right) =
      atPosition style (infixLevel operator) left ++
        token (infixKind operator) operator.symbol ::
          atPosition style (infixLevel operator + 1) right := by
    rw [written]
  have isInfix := infixLevel_infix operator
  have bounded : infixLevel operator < 8 := isInfix.lt
  have spine (depth : Nat) (enough : (written style (.binary left operator right)).length ≤ depth) :
      Spine (read depth .expression) context (infixLevel operator)
        (written style (.binary left operator right)) ⟨.binary left operator right, ty, span⟩ := by
    simp only [tokens, List.length_append, List.length_cons] at enough ⊢
    exact Spine.join rfl applies (leftReadable.spine depth _ isInfix (by omega))
      (rightReadable.reads depth _ bounded (by omega))
  apply Readable.of_written
  · rw [tokens]
    exact (leftReadable.starts (infixLevel operator) (Nat.le_of_lt bounded)).append _
  · exact fun depth enough => (spine depth enough).reads
  · exact fun depth _ enough => spine depth enough

/-! ## All expressions -/

theorem notBlock {node : Node} (typed : Expression context node) : isBlock node.form = false := by
  cases typed <;> rfl

/-- Whether every literal of a tree has a token that stands for it. -/
def Writable (style : Style) (node : Node) : Prop :=
  ∀ value ∈ nodeLiterals node, style.Denotes value

theorem literals_of_mem {nodes : List Node} {node : Node} (member : node ∈ nodes) {value : Value}
    (literal : value ∈ nodeLiterals node) : value ∈ nodesLiterals nodes := by
  induction nodes with
  | nil => cases member
  | cons first rest ih =>
    rw [nodesLiterals, List.mem_append]
    rcases List.mem_cons.mp member with rfl | member
    · exact .inl literal
    · exact .inr (ih member)

theorem literals_of_branch {branches : List (Branch Form)} {branch : Branch Form}
    (member : branch ∈ branches) {value : Value} (literal : value ∈ branchLiterals branch) :
    value ∈ branchesLiterals branches := by
  induction branches with
  | nil => cases member
  | cons first rest ih =>
    rw [branchesLiterals, List.mem_append]
    rcases List.mem_cons.mp member with rfl | member
    · exact .inl literal
    · exact .inr (ih member)

theorem body_literals (branch : Branch Form) {value : Value}
    (literal : value ∈ nodeLiterals branch.body) : value ∈ branchLiterals branch := by
  cases branch with
  | test guard body span => exact List.mem_append_right _ literal
  | attempt body span => exact literal

theorem guard_literals {branch : Branch Form} {guard : Node} (isGuard : branch.guard? = some guard)
    {value : Value} (literal : value ∈ nodeLiterals guard) : value ∈ branchLiterals branch := by
  cases branch with
  | test test body span =>
    cases isGuard
    exact List.mem_append_left _ literal
  | attempt body span => cases isGuard

theorem expression_readable {node : Node} (typed : Expression context node)
    (writable : Writable style node) : Readable style context node := by
  induction typed with
  | literal plain => exact literal_readable plain (writable _ List.mem_cons_self)
  | name found => exact name_readable found
  | unary typed applies ih => exact unary_readable (ih writable) applies
  | binary leftTyped rightTyped applies leftIh rightIh =>
    exact binary_readable
      (leftIh fun value literal => writable value (List.mem_append_left _ literal))
      (rightIh fun value literal => writable value (List.mem_append_right _ literal)) applies
  | call found typed taken ih =>
    refine call_readable found ?_ taken
    intro argument member
    exact ih argument member fun value literal => writable value (literals_of_mem member literal)
  | index found isList typed isInt ih => exact index_readable found isList (ih writable) isInt
  | set found typed accepted ih => exact set_readable found (ih writable) accepted
  | combine found combining typed applies accepted ih =>
    exact combine_readable found combining (ih writable) applies accepted
  | count found counting numeric => exact count_readable found counting numeric
  | list nonempty typed plain common ih =>
    refine list_readable nonempty ?_ plain common
    intro element member
    exact ih element member fun value literal => writable value (literals_of_mem member literal)
  | chain nonempty hasValue guards decide bodies same last lastSame guardIh bodyIh lastIh =>
    refine chain_readable nonempty hasValue ?_ ?_ lastSame (notBlock last)
    · intro branch member
      refine ⟨?_, ?_, same branch member, notBlock (bodies branch member)⟩
      · intro guard isGuard
        refine ⟨decide branch member guard isGuard, guardIh branch member guard isGuard ?_⟩
        intro value literal
        exact writable value (List.mem_append_left _
          (literals_of_branch member (guard_literals isGuard literal)))
      · apply bodyIh branch member
        intro value literal
        exact writable value (List.mem_append_left _
          (literals_of_branch member (body_literals branch literal)))
    · apply lastIh
      intro value literal
      exact writable value (List.mem_append_right _ literal)

end

end RobotScript.Grammar
