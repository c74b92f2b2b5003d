import RobotScript.Proofs.Joining.Statements
import RobotScript.Proofs.Rendering.RoundTrip

/-! # Scripts read one behind the other

If one script can be read, and then another in the context behind it, the tokens of
both can be read as one script, with the statements of the first and then those of the
second. Only the spans differ. -/
set_option autoImplicit false

namespace RobotScript

namespace Grammar

open Rendering (Endless endless_nil endless_cons)

variable {tail : List Token} {reader longer : Reader} {inner : Parse Node}

/-! ## Expressions -/

theorem readExpression_persists (tail : List Token) {fewer most : Nat} (le : fewer ≤ most) :
    ReadsOn tail (read fewer .expression) (read most .expression) := by
  induction fewer generalizing most with
  | zero =>
    rintro reader longer more node after run
    cases run
  | succ fewer ih =>
    cases most with
    | zero => cases le
    | succ most => exact expression_persists (ih (Nat.le_of_succ_le_succ le))

/-! ## What begins with a word of its own -/

theorem expression_atom {node : Node} {after : Reader}
    (run : expression inner reader = .ok (node, after)) (notMinus : reader.peek.kind ≠ .minus)
    (notDenied : reader.peek.kind ≠ .not) :
    ∃ first between, atom inner reader = .ok (first, between) := by
  have unsigned : Unsigned reader.peek.kind := by
    intro operator
    cases operator with
    | negate => exact notMinus
    | not => exact notDenied
  exact ladder_begins (Nat.zero_le 8) (Nat.le_refl 8) unsigned run

theorem expression_branch {guard : GuardKind} (ends : reader.finish.kind = .eof)
    (opens : GuardKind.ofToken? reader.peek.kind true = some guard) {node : Node} {after : Reader}
    (run : expression inner reader = .ok (node, after)) :
    ∃ first between, branch inner inner guard reader = .ok (first, between) := by
  have begins : reader.peek.kind = .if ∨ reader.peek.kind = .try := by
    cases kind : reader.peek.kind with
    | «if» => exact .inl rfl
    | «try» => exact .inr rfl
    | _ =>
      rw [kind] at opens
      cases opens
  have isChain : atom inner reader = valueChain inner reader := by
    rw [atom, bind_peek]
    rcases begins with kind | kind <;> rw [kind]
  have notSigned : reader.peek.kind ≠ .minus ∧ reader.peek.kind ≠ .not := by
    rcases begins with kind | kind <;> rw [kind] <;> decide
  obtain ⟨_, _, run⟩ := expression_atom run notSigned.1 notSigned.2
  rw [isChain, valueChain, bind_peek, bind_remaining] at run
  obtain ⟨_, _, run, -⟩ := bind_ok run
  cases ahead : reader.ahead with
  | nil => exact absurd ahead (opens_ahead ends opens)
  | cons token rest =>
    rw [ahead, valueBranches, bind_peek, List.isEmpty_nil, opens] at run
    obtain ⟨first, between, run, -⟩ := bind_ok run
    exact ⟨first, between, run⟩

theorem read_grounded (depth : Nat) : Grounded (read depth) := by
  cases depth with
  | zero =>
    intro reader node after ends run
    cases run
  | succ depth =>
    intro reader node after ends run
    have inners := readExpression_persists [] (Nat.le_succ depth)
    have nonempty {reader after : Reader} {node : Node} (ends : reader.finish.kind = .eof)
        (run : read depth .expression reader = .ok (node, after)) : reader.ahead ≠ [] := by
      intro empty
      have shorter := (inners reader reader (.refl ends) node after run).2.1 rfl
      rw [empty] at shorter
      cases shorter
    have nextEnds : reader.next.finish.kind = .eof := reader.next_finish ▸ ends
    constructor
    · intro isTry
      have opens : GuardKind.ofToken? reader.peek.kind true = some .attempt := by rw [isTry]; rfl
      obtain ⟨_, _, run⟩ := expression_branch ends opens run
      rw [branch, bind_advance] at run
      obtain ⟨_, _, run, -⟩ := bind_ok run
      exact nonempty nextEnds run
    · intro isIf test between testRun
      have opens : GuardKind.ofToken? reader.peek.kind true = some .test := by rw [isIf]; rfl
      obtain ⟨_, _, run⟩ := expression_branch ends opens run
      rw [branch, bind_advance] at run
      obtain ⟨condition, stop, conditionRun, run⟩ := bind_ok run
      obtain ⟨_, _, checked, rest⟩ := bind_ok run
      obtain ⟨_, _, bodyRun, -⟩ := bind_ok rest
      obtain ⟨rfl, -⟩ := requireBool_ok checked
      -- The branch reads its test at less depth, and stops at the same token.
      obtain ⟨leads, -, alike⟩ := inners _ _ (.refl nextEnds) condition _ conditionRun
      obtain ⟨_, further, testRunToo, -, moreStop⟩ := alike (.inr (.inl rfl))
      obtain ⟨rfl, rfl⟩ := Prod.mk.inj (Except.ok.inj (testRun.symm.trans testRunToo))
      intro empty
      have length := moreStop.length
      rw [empty] at length
      have left := nonempty (leads.finish ▸ nextEnds) bodyRun
      exact left (List.length_eq_zero_iff.mp length.symm)

/-! ## Statements -/

theorem read_persists (separate : Separate (kindAhead tail)) {fewer most : Nat}
    (le : fewer ≤ most) : GoesOn tail (read fewer) (read most) := by
  refine ⟨readExpression_persists tail le, fun place => ?_⟩
  induction fewer generalizing most place with
  | zero =>
    rintro reader longer more node after run
    cases run
  | succ fewer ih =>
    cases most with
    | zero => cases le
    | succ most =>
      have lower := Nat.le_of_succ_le_succ le
      have goesOn : GoesOn tail (read fewer) (read most) :=
        ⟨readExpression_persists tail lower, ih lower⟩
      exact statement_persists goesOn (read_grounded fewer) separate

/-! ## Statements up to the end -/

theorem empty_of_end (endless : Endless reader.ahead) (isEnd : reader.peek.kind = .eof) :
    reader.ahead = [] := by
  cases ahead : reader.ahead with
  | nil => rfl
  | cons token rest =>
    rw [Reader.peek, ahead] at isEnd
    exact absurd isEnd (endless token (ahead ▸ List.mem_cons_self))

/-- The statements of a script are read the same before more of them, from where the
longer reader then goes on. -/
theorem topStatements_joined {inner other : Goal → Parse Node} (goesOn : GoesOn tail inner other)
    {rounds others : List Token} (more : reader.Longer tail longer)
    (endless : Endless reader.ahead) (enough : reader.ahead.length ≤ rounds.length)
    (most : rounds.length + tail.length ≤ others.length) {list : List Node} {after : Reader}
    (run : topStatements inner rounds reader = .ok (list, after)) :
    ∃ twins further rest, Sames twins list ∧ after.Longer tail further ∧
      (after.ahead = [] ∧ after.finish = reader.finish) ∧ tail.length ≤ rest.length ∧
      ∀ lasts final, topStatements other rest further = .ok (lasts, final) →
        topStatements other others longer = .ok (twins ++ lasts, final) := by
  induction rounds generalizing reader longer others list with
  | nil =>
    cases run
    have empty := List.length_eq_zero_iff.mp (Nat.le_zero.mp enough)
    rw [List.length_nil, Nat.zero_add] at most
    exact ⟨[], longer, others, .nil, more, ⟨empty, rfl⟩, most, fun _ _ run => run⟩
  | cons round rounds ih =>
    rw [topStatements, bind_check] at run
    by_cases isEnd : reader.peek.kind = .eof
    · rw [decide_eq_true isEnd] at run
      cases run
      refine ⟨[], longer, others, .nil, more, ⟨empty_of_end endless isEnd, rfl⟩, ?_,
        fun _ _ run => run⟩
      exact Nat.le_trans (Nat.le_add_left _ _) most
    · rw [decide_eq_false isEnd] at run
      obtain ⟨first, between, firstRun, rest⟩ := bind_ok run
      obtain ⟨list, behind, listRun, made⟩ := bind_ok rest
      cases made
      obtain ⟨leads, taken, alike⟩ := goesOn.statements topLevel reader longer more first between
        firstRun
      obtain ⟨twin, further, twinRun, same, moreBetween⟩ := alike (.inl rfl)
      have shorter := taken rfl
      rw [List.length_cons] at enough most
      -- The longer reader keeps a round for each token of the tail.
      cases others with
      | nil => exact absurd most (by rw [List.length_nil]; omega)
      | cons again others =>
        rw [List.length_cons] at most
        have enough : between.ahead.length ≤ rounds.length := by omega
        have most : rounds.length + tail.length ≤ others.length := by omega
        have endless : Endless between.ahead :=
          fun token member => endless token (leads.ahead.mem member)
        obtain ⟨twins, final, left, sames, moreAfter, ⟨empty, ends⟩, still, joins⟩ :=
          ih moreBetween endless enough most listRun
        refine ⟨twin :: twins, final, left, .cons same sames, moreAfter,
          ⟨empty, ends.trans leads.finish⟩, still, ?_⟩
        intro lasts stop lastRun
        have ahead := Reader.ahead_of_kind more.ends isEnd
        rw [topStatements, bind_check, more.kind (.inr ahead), decide_eq_false isEnd,
          if_neg Bool.false_ne_true, bind_of_ok twinRun, bind_of_ok (joins lasts stop lastRun)]
        rfl

/-- No statement begins with what goes on with one that ends in a block. -/
theorem statement_begins {depth : Nat} {place : Place} {node : Node} {after : Reader}
    (run : read depth (.statement place) reader = .ok (node, after)) :
    Separate reader.peek.kind := by
  intro goesOn
  cases depth with
  | zero => cases run
  | succ depth =>
    rw [read, statement, bind_peek] at run
    have isAtom (run : expressionStatement (read depth) reader = .ok (node, after))
        (notMinus : reader.peek.kind ≠ .minus) (notDenied : reader.peek.kind ≠ .not) :
        ∃ first between, atom (read (depth - 1) .expression) reader = .ok (first, between) := by
      obtain ⟨_, _, run, -⟩ := bind_ok run
      cases depth with
      | zero => cases run
      | succ depth => exact expression_atom run notMinus notDenied
    simp only [List.mem_cons, List.not_mem_nil, or_false] at goesOn
    rcases goesOn with kind | kind | kind | kind <;>
    · rw [kind] at run
      obtain ⟨_, _, refused⟩ := isAtom run (kind ▸ by decide) (kind ▸ by decide)
      rw [atom, bind_peek, kind] at refused
      cases refused

/-! ## Scripts -/

theorem Reader.ofTokens_append {ahead : List Token} {finish : Token} (endless : Endless ahead)
    (ends : finish.kind = .eof) (context : Context) :
    Reader.ofTokens (ahead ++ [finish]) context = ⟨ahead, finish, none, context⟩ := by
  have goesOn : ∀ token ∈ ahead, decide (token.kind ≠ .eof) = true :=
    fun token member => decide_eq_true (endless token member)
  have taken : [finish].takeWhile (fun token => decide (token.kind ≠ .eof)) = [] := by
    rw [List.takeWhile_cons, ends]
    rfl
  have left : [finish].dropWhile (fun token => decide (token.kind ≠ .eof)) = [finish] := by
    rw [List.dropWhile_cons, ends]
    rfl
  simp only [Reader.ofTokens, List.takeWhile_append_of_pos goesOn,
    List.dropWhile_append_of_pos goesOn, taken, left, List.append_nil]

/-- Tokens as scanning gives them: only the last one marks the end. -/
structure Ended (tokens ahead : List Token) : Prop where
  endless : Endless ahead
  last : ∃ finish : Token, finish.bare = (.eof, "") ∧ tokens = ahead ++ [finish]

namespace Ended

variable {tokens ahead : List Token}

theorem nil (position : Position) : Ended [⟨.eof, "", Span.point position⟩] [] :=
  ⟨endless_nil, _, rfl, rfl⟩

theorem cons {token : Token} (goesOn : token.kind ≠ .eof) (ended : Ended tokens ahead) :
    Ended (token :: tokens) (token :: ahead) := by
  obtain ⟨finish, isEnd, rfl⟩ := ended.last
  exact ⟨(endless_cons _ _).mpr ⟨goesOn, ended.endless⟩, finish, isEnd, rfl⟩

theorem starts (ended : Ended tokens ahead) (context : Context) :
    ∃ finish : Token, finish.bare = (.eof, "") ∧
      Reader.ofTokens tokens context = ⟨ahead, finish, none, context⟩ := by
  obtain ⟨finish, isEnd, rfl⟩ := ended.last
  have ends : finish.kind = .eof := congrArg Prod.fst isEnd
  exact ⟨finish, isEnd, Reader.ofTokens_append ended.endless ends context⟩

end Ended

theorem parse_statements {tokens : List Token} {context after : Context} {root : Node}
    {reader : Reader} (starts : Reader.ofTokens tokens context = reader)
    (run : parse tokens context = .ok (root, after)) :
    ∃ behind, topStatements (read (enoughDepth reader.ahead.length)) reader.ahead reader =
      .ok (root.statements, behind) ∧ behind.context = after := by
  obtain ⟨behind, whole, same⟩ := parse_ok run
  rw [starts] at whole
  change (script : Parse Node) reader = _ at whole
  rw [script, bind_peek, bind_remaining] at whole
  obtain ⟨list, between, listRun, made⟩ := bind_ok whole
  cases made
  exact ⟨behind, listRun, same⟩

theorem parse_of_statements {tokens : List Token} {context : Context} {reader behind : Reader}
    {list : List Node} (starts : Reader.ofTokens tokens context = reader)
    (run : topStatements (read (enoughDepth reader.ahead.length)) reader.ahead reader =
      .ok (list, behind)) :
    ∃ root, parse tokens context = .ok (root, behind.context) ∧ root.statements = list := by
  have whole : script.run reader =
      .ok (.statement (.block list) (reader.peek.span.through behind.peek.span), behind) := by
    show (script : Parse Node) reader = _
    rw [script, bind_peek, bind_remaining, bind_of_ok run]
    rfl
  rw [parse, starts, whole]
  exact ⟨_, rfl, rfl⟩

theorem topStatements_separate {inner : Goal → Parse Node} {list : List Node} {after : Reader}
    (begins : ∀ {reader node after}, inner (.statement topLevel) reader = .ok (node, after) →
      Separate reader.peek.kind)
    (run : topStatements inner reader.ahead reader = .ok (list, after)) :
    Separate (kindAhead reader.ahead) := by
  cases ahead : reader.ahead with
  | nil => decide
  | cons token rest =>
    have first : reader.peek = token := by rw [Reader.peek, ahead]; rfl
    show Separate token.kind
    rw [ahead, topStatements, bind_check, first] at run
    by_cases isEnd : token.kind = .eof
    · rw [isEnd]
      decide
    · rw [decide_eq_false isEnd] at run
      obtain ⟨_, _, run, -⟩ := bind_ok run
      exact first ▸ begins run

/-- Two scripts, the second read in the context the first leaves, are read as one. -/
theorem parse_joined {context middle last : Context} {first second : Node}
    {firstTokens secondTokens tokens firstAhead secondAhead ahead : List Token}
    (firstEnded : Ended firstTokens firstAhead) (secondEnded : Ended secondTokens secondAhead)
    (ended : Ended tokens ahead)
    (joined : ahead.map Token.bare = (firstAhead ++ secondAhead).map Token.bare)
    (firstRun : parse firstTokens context = .ok (first, middle))
    (secondRun : parse secondTokens middle = .ok (second, last)) :
    ∃ root, parse tokens context = .ok (root, last) ∧
      Sames root.statements (first.statements ++ second.statements) := by
  obtain ⟨finish, isEnd, starts⟩ := ended.starts context
  obtain ⟨firstFinish, firstEnd, firstStarts⟩ := firstEnded.starts context
  obtain ⟨secondFinish, secondEnd, secondStarts⟩ := secondEnded.starts middle
  obtain ⟨between, firstList, rfl⟩ := parse_statements firstStarts firstRun
  obtain ⟨after, secondList, rfl⟩ := parse_statements secondStarts secondRun
  have lengths := congrArg List.length joined
  rw [List.length_map, List.length_map, List.length_append] at lengths
  have separate : Separate (kindAhead secondAhead) :=
    topStatements_separate statement_begins secondList
  have ends {token : Token} (isEnd : token.bare = (.eof, "")) : token.kind = .eof :=
    congrArg Prod.fst isEnd
  have more : Reader.Longer secondAhead ⟨firstAhead, firstFinish, none, context⟩
      ⟨ahead, finish, none, context⟩ :=
    ⟨joined, isEnd.trans firstEnd.symm, ends firstEnd, rfl⟩
  have firstLe : enoughDepth firstAhead.length ≤ enoughDepth ahead.length :=
    Nat.succ_le_succ (lengths ▸ Nat.le_add_right _ _)
  have secondLe : enoughDepth secondAhead.length ≤ enoughDepth ahead.length :=
    Nat.succ_le_succ (lengths ▸ Nat.le_add_left _ _)
  -- The first script stops where the tokens of the second one begin.
  obtain ⟨firstTwins, further, rest, firstSames, moreBetween, ⟨empty, still⟩, left, joins⟩ :=
    topStatements_joined (read_persists separate firstLe) more firstEnded.endless (Nat.le_refl _)
      (Nat.le_of_eq lengths.symm) firstList
  -- From there nothing but the second script is ahead.
  have again : Reader.Longer [] ⟨secondAhead, secondFinish, none, between.context⟩ further := by
    refine ⟨?_, ?_, ends secondEnd, moreBetween.context⟩
    · rw [moreBetween.ahead, empty, List.append_nil, List.nil_append]
    · rw [moreBetween.finish, still, firstEnd, secondEnd]
  obtain ⟨secondTwins, final, behind, secondSames, moreAfter, ⟨nothing, -⟩, -, joinsOn⟩ :=
    topStatements_joined (read_persists (by decide) secondLe) again secondEnded.endless
      (Nat.le_refl _) left secondList
  have atEnd : final.peek.kind = .eof := by
    rw [moreAfter.kind (.inl rfl), Reader.peek, nothing]
    exact moreAfter.ends
  have ended : topStatements (read (enoughDepth ahead.length)) behind final = .ok ([], final) := by
    cases behind with
    | nil => rfl
    | cons round rounds =>
      rw [topStatements, bind_check, atEnd]
      rfl
  obtain ⟨root, run, statements⟩ := parse_of_statements starts (joins _ _ (joinsOn _ _ ended))
  refine ⟨root, moreAfter.context ▸ run, ?_⟩
  rw [statements, List.append_nil]
  exact List.rel_append firstSames secondSames

end Grammar

end RobotScript
