import RobotScript.Grammar.Script
import RobotScript.Proofs.Decimal.IntText
import RobotScript.Proofs.Rendering.Ladder

/-! # Written expressions read back

By induction on the typing of an expression: at every position, the tokens it is
written with are read as the expression again, by a reader with one level of
nesting for each of the tokens. -/
set_option autoImplicit false

namespace RobotScript.Grammar

open Rendering Typing

/-! ## First tokens -/

/-- The tightest position at which a token may begin an expression. -/
def opensUpTo : TokenKind → Option Nat
  | .int | .double | .bool | .string | .leftParen | .leftBracket | .identifier => some 8
  | .minus => some 7
  | .not => some 2
  | .if | .try => some 0
  | _ => none

/-- The tokens begin as an expression does at a position. -/
def Starts (position : Nat) (tokens : List Token) : Prop :=
  ∃ token rest highest, tokens = token :: rest ∧ opensUpTo token.kind = some highest ∧
    position ≤ highest

theorem Starts.append {position : Nat} {tokens : List Token} (starts : Starts position tokens)
    (more : List Token) : Starts position (tokens ++ more) := by
  obtain ⟨token, rest, highest, rfl, opens, reached⟩ := starts
  exact ⟨token, rest ++ more, highest, rfl, opens, reached⟩

theorem Starts.looser {position looser : Nat} {tokens : List Token}
    (starts : Starts position tokens) (below : looser ≤ position) : Starts looser tokens := by
  obtain ⟨token, rest, highest, split, opens, reached⟩ := starts
  exact ⟨token, rest, highest, split, opens, Nat.le_trans below reached⟩

theorem Starts.unsigned {position : Nat} {tokens : List Token} (starts : Starts position tokens)
    (operator : UnaryOp) (looser : prefixLevel operator < position) (rest : List Token) :
    kindAhead (tokens ++ rest) ≠ prefixKind operator := by
  obtain ⟨token, others, highest, rfl, opens, reached⟩ := starts
  show token.kind ≠ prefixKind operator
  intro same
  rw [same] at opens
  cases operator <;> cases opens <;> exact absurd (Nat.lt_of_lt_of_le looser reached) (by decide)

theorem Starts.kindAhead_ne {position : Nat} {tokens : List Token} (starts : Starts position tokens)
    {kind : TokenKind} (other : opensUpTo kind = none) (rest : List Token) :
    kindAhead (tokens ++ rest) ≠ kind := by
  obtain ⟨token, more, highest, rfl, opens, -⟩ := starts
  rintro rfl
  have clash := opens.symm.trans other
  cases clash

theorem commaSeparated_starts {position : Nat} {first : List Token} (starts : Starts position first)
    (others : List (List Token)) :
    Starts position (Rendering.commaSeparated (first :: others)) := by
  cases others with
  | nil => exact starts
  | cons second others => exact starts.append _

theorem grouped_starts (tokens : List Token) : Starts 8 (Rendering.grouped tokens) :=
  ⟨_, _, 8, rfl, rfl, Nat.le_refl 8⟩

/-! ## What reads back at every position -/

theorem atPosition_eq (style : Style) (position : Nat) (node : Node) :
    atPosition style position node =
      if level node.form < position then Rendering.grouped (written style node.form)
      else written style node.form := by
  obtain ⟨form, ty, span⟩ := node
  rw [atPosition]

theorem atPosition_zero (style : Style) (node : Node) :
    atPosition style 0 node = written style node.form := by
  rw [atPosition_eq, if_neg (Nat.not_lt_zero _)]

theorem grouped_length (tokens : List Token) :
    (Rendering.grouped tokens).length = tokens.length + 2 := by
  simp [Rendering.grouped]

structure Readable (style : Style) (context : Context) (node : Node) : Prop where
  starts : ∀ position, position ≤ 8 → Starts position (atPosition style position node)
  reads : ∀ depth position, position ≤ 8 → (atPosition style position node).length ≤ depth →
    ReadsBack (ladder (read depth .expression) position) context (atPosition style position node)
      (Ends position) node
  spine : ∀ depth level, Infix level → (atPosition style level node).length ≤ depth →
    Spine (read depth .expression) context level (atPosition style level node) node

section

variable {style : Style} {context : Context} {node : Node}

theorem Infix.lt {level : Nat} (isInfix : Infix level) : level < 8 := by
  simp only [Infix, List.mem_cons, List.not_mem_nil, or_false] at isInfix
  omega

theorem nested_reads {depth : Nat} {tokens : List Token} {follow : TokenKind → Prop}
    (enough : tokens.length < depth)
    (reads : ∀ below, tokens.length ≤ below →
      ReadsBack (ladder (read below .expression) 0) context tokens follow node) :
    ReadsBack (read depth .expression) context tokens follow node := by
  cases depth with
  | zero => exact absurd enough (Nat.not_lt_zero _)
  | succ below => exact reads below (Nat.le_of_lt_succ enough)

theorem Readable.nested (readable : Readable style context node) {depth : Nat}
    (enough : (written style node.form).length < depth) :
    ReadsBack (read depth .expression) context (written style node.form) (Ends 0) node := by
  rw [← atPosition_zero] at enough ⊢
  exact nested_reads enough fun below => readable.reads below 0 (Nat.zero_le 8)

theorem grouped_atPosition {depth : Nat}
    (nested : ReadsBack (read depth .expression) context (written style node.form) (Ends 0) node)
    (position : Nat) (bounded : position ≤ 8) :
    ReadsBack (ladder (read depth .expression) position) context
      (Rendering.grouped (written style node.form)) (Unjoined position) node := by
  have atoms : ReadsBack (ladder (read depth .expression) 8) context _ _ node :=
    grouped_reads nested
  refine (ladder_reads position bounded (Nat.le_refl 8) ?_ atoms).weaken fun _ ends => ⟨trivial, ends⟩
  intro operator _ looser
  exact (grouped_starts _).unsigned operator looser

theorem Readable.nestedGrouped (readable : Readable style context node) {depth : Nat}
    (enough : (Rendering.grouped (written style node.form)).length < depth) :
    ReadsBack (read depth .expression) context (Rendering.grouped (written style node.form))
      (Unjoined 0) node := by
  apply nested_reads enough
  intro below bound
  rw [grouped_length] at bound
  exact grouped_atPosition (readable.nested (by omega)) 0 (Nat.zero_le 8)

/-- It suffices to read an expression without parentheses at its own level. -/
theorem Readable.of_written
    (starts : Starts (level node.form) (written style node.form))
    (reads : ∀ depth, (written style node.form).length ≤ depth →
      ReadsBack (ladder (read depth .expression) (level node.form)) context
        (written style node.form) (Ends (level node.form)) node)
    (spine : ∀ depth, Infix (level node.form) → (written style node.form).length ≤ depth →
      Spine (read depth .expression) context (level node.form) (written style node.form) node) :
    Readable style context node := by
  have climbed (depth position : Nat) (below : position ≤ level node.form)
      (enough : (written style node.form).length ≤ depth) :
      ReadsBack (ladder (read depth .expression) position) context (written style node.form)
        (Ends position) node := by
    refine (ladder_reads position below (level_le _) ?_ (reads depth enough)).weaken ?_
    · intro operator _ looser
      exact starts.unsigned operator looser
    · intro kind ends
      exact ⟨ends.tighter below, ends.1⟩
  have nested (depth : Nat) (enough : (written style node.form).length < depth) :
      ReadsBack (read depth .expression) context (written style node.form) (Ends 0) node :=
    nested_reads enough fun below => climbed below 0 (Nat.zero_le _)
  have everywhere (depth position : Nat) (bounded : position ≤ 8)
      (enough : (atPosition style position node).length ≤ depth) :
      ReadsBack (ladder (read depth .expression) position) context (atPosition style position node)
        (Ends position) node := by
    rw [atPosition_eq] at enough ⊢
    split at enough
    · rename_i loose
      rw [if_pos loose]
      rw [grouped_length] at enough
      exact (grouped_atPosition (nested depth (by omega)) position bounded).weaken
        fun kind ends => ends.1
    · rename_i tight
      rw [if_neg tight]
      exact climbed depth position (Nat.le_of_not_lt tight) enough
  refine ⟨?_, everywhere, ?_⟩
  · intro position bounded
    rw [atPosition_eq]
    split
    · exact (grouped_starts _).looser bounded
    · rename_i tight
      exact starts.looser (Nat.le_of_not_lt tight)
  · intro depth position isInfix enough
    by_cases own : position = level node.form
    · subst own
      rw [atPosition_eq, if_neg (Nat.lt_irrefl _)] at enough ⊢
      exact spine depth isInfix enough
    · -- off its own level a node is written as it is one level tighter
      have tighter : atPosition style position node = atPosition style (position + 1) node := by
        rw [atPosition_eq, atPosition_eq]
        by_cases loose : level node.form < position
        · rw [if_pos loose, if_pos (Nat.lt_succ_of_lt loose)]
        · rw [if_neg loose, if_neg (by omega)]
      rw [tighter] at enough ⊢
      exact (everywhere depth (position + 1) isInfix.lt enough).spine isInfix

theorem Readable.of_atom (tightest : level node.form = 8)
    (starts : Starts 8 (written style node.form))
    (reads : ∀ depth, (written style node.form).length ≤ depth →
      ReadsBack (atom (read depth .expression)) context (written style node.form) Unapplied node) :
    Readable style context node := by
  apply Readable.of_written
  · rw [tightest]
    exact starts
  · rw [tightest]
    intro depth enough
    exact (reads depth enough).weaken fun kind ends => ends.2
  · rw [tightest]
    intro depth isInfix
    exact absurd isInfix (by decide)

theorem Readable.of_loose (loosest : level node.form = 0)
    (starts : Starts 0 (written style node.form))
    (unsigned : ∀ operator rest,
      kindAhead (written style node.form ++ rest) ≠ prefixKind operator)
    (reads : ∀ depth, (written style node.form).length ≤ depth →
      ReadsBack (atom (read depth .expression)) context (written style node.form) (Ends 0) node) :
    Readable style context node := by
  apply Readable.of_written
  · rw [loosest]
    exact starts
  · rw [loosest]
    intro depth enough
    have atoms : ReadsBack (ladder (read depth .expression) 8) context _ _ node := reads depth enough
    refine (ladder_reads 0 (Nat.zero_le 8) (Nat.le_refl 8) ?_ atoms).weaken
      fun kind ends => ⟨ends, ends.1⟩
    intro operator _ _
    exact unsigned operator
  · rw [loosest]
    intro depth isInfix
    exact absurd isInfix (by decide)

end

/-! ## Items between commas -/

theorem each_eq_map (style : Style) (nodes : List Node) :
    each style nodes = nodes.map (atPosition style 0) := by
  induction nodes with
  | nil => rfl
  | cons node rest ih => rw [each, ih, List.map_cons]

theorem separated_reads {α β : Type} {context : Context} {item : α → Parse α}
    {write : β → List Token} {all : List β} (holds : List β → α → Prop)
    (step : ∀ before current behind sofar, all = before ++ current :: behind →
      holds before sofar →
      Consumes (item sofar) context context (write current) Closing (holds (before ++ [current])))
    {before : List β} {current : β} {behind : List β} (split : all = before ++ current :: behind)
    {sofar : α} (start : holds before sofar) {rounds : List Token} {reader : Reader}
    {rest : List Token}
    (here : Before context
      (Rendering.commaSeparated ((current :: behind).map write) ++ rest) reader)
    (closing : Closing (kindAhead rest)) (last : kindAhead rest ≠ .comma)
    (enough : reader.ahead.length ≤ rounds.length) :
    ∃ result stop, separated item rounds sofar reader = .ok (result, stop) ∧
      Before context rest stop ∧ holds all result := by
  induction behind generalizing before current sofar rounds reader with
  | nil =>
    rw [List.map_singleton, Rendering.commaSeparated] at here
    obtain ⟨result, stop, run, there, holdsAll⟩ := step before current [] sofar split start here closing
    rw [← split] at holdsAll
    refine ⟨result, stop, ?_, there, holdsAll⟩
    cases rounds with
    | nil => exact run
    | cons token rounds =>
      rw [separated, bind_of_ok run, bind_accept, if_neg (there.kind ▸ last)]
      rfl
  | cons next behind ih =>
    have split_here : Before context (write current ++ mark .comma ::
        (Rendering.commaSeparated ((next :: behind).map write) ++ rest)) reader := by
      simpa [Rendering.commaSeparated] using here
    have comma : Closing (kindAhead (mark .comma ::
        (Rendering.commaSeparated ((next :: behind).map write) ++ rest))) :=
      .tail _ (.tail _ List.mem_cons_self)
    obtain ⟨result, stop, run, there, holdsMore⟩ :=
      step before current (next :: behind) sofar split start split_here comma
    have commaHere : stop.peek.kind = .comma := there.kind
    have upToComma : Before context ((write current ++ [mark .comma]) ++
        (Rendering.commaSeparated ((next :: behind).map write) ++ rest)) reader := by
      simpa using split_here
    obtain ⟨token, rounds, rfl, fewer⟩ := upToComma.exists_round (by simp) there.next enough
    obtain ⟨final, behindAll, others, behind_at, holdsAll⟩ :=
      ih (by rw [split, List.append_assoc, List.singleton_append]) holdsMore there.next fewer
    refine ⟨final, behindAll, ?_, behind_at, holdsAll⟩
    rw [separated, bind_of_ok run, bind_accept, if_pos commaHere]
    exact others

end RobotScript.Grammar
