import RobotScript.Proofs.Reading.StatementSound
import RobotScript.Proofs.Rendering.ChainReads

/-! # Written blocks read back

The statements of a block are read one after the other, each with the declarations
that the ones before it leave in view. Whether a semicolon stands behind a block
makes no difference, since no statement begins with one. -/
set_option autoImplicit false

namespace RobotScript.Grammar

open Rendering Typing

/-! ## Between statements -/

/-- What may follow a statement: nothing that it would take for its own. -/
def Separate (kind : TokenKind) : Prop :=
  kind ∉ [TokenKind.semicolon, .elif, .eltry, .else]

instance (kind : TokenKind) : Decidable (Separate kind) := inferInstanceAs (Decidable (kind ∉ _))

def Begins (kind : TokenKind) : Prop :=
  kind ∉ [TokenKind.semicolon, .elif, .eltry, .else, .rightBrace, .eof]

instance (kind : TokenKind) : Decidable (Begins kind) := inferInstanceAs (Decidable (kind ∉ _))

theorem Begins.separate {kind : TokenKind} (begins : Begins kind) : Separate kind := by
  simp only [Begins, Separate, List.mem_cons, List.not_mem_nil, or_false, not_or] at begins ⊢
  exact ⟨begins.1, begins.2.1, begins.2.2.1, begins.2.2.2.1⟩

structure StatementReadable (style : Style) (place : Place) (context : Context) (node : Node) :
    Prop where
  begins : ∃ token rest, Rendering.statement style node = token :: rest ∧ Begins token.kind
  reads : ∀ depth, (Rendering.statement style node).length ≤ depth →
    Consumes (Grammar.statement (read depth) place) context (context.after node)
      (Rendering.statement style node) Separate fun made => made.Same node

/-- All statements of a list read back, each where the ones before it leave off. -/
def Readables (style : Style) (place : Place) : Context → List Node → Prop :=
  Sequence (StatementReadable style place)

section

variable {style : Style} {place : Place} {context : Context} {depth : Nat}

theorem statement_eq (style : Style) (node : Node) :
    Rendering.statement style node = written style node.form ++ ending style node := by
  obtain ⟨form, ty, span⟩ := node
  rw [Rendering.statement]

/-- The first of some written statements is read back, up to those behind it, and one round
less is enough for them. -/
theorem Readables.first {node : Node} {others : List Node}
    (readable : Readables style place context (node :: others))
    (short : (listed style (node :: others)).length < depth) {rounds : List Token}
    {reader : Reader} {rest : List Token}
    (here : Before context (listed style (node :: others) ++ rest) reader)
    (separate : Separate (kindAhead rest)) (enough : reader.ahead.length ≤ rounds.length) :
    Begins reader.peek.kind ∧ ∃ made between round more,
      read depth (.statement place) reader = .ok (made, between) ∧
      Before (context.after node) (listed style others ++ rest) between ∧ made.Same node ∧
      rounds = round :: more ∧ between.ahead.length ≤ more.length := by
  rw [listed, List.append_assoc] at here
  rw [listed, List.length_append] at short
  obtain ⟨token, tail, tokens, begins⟩ := readable.head.begins
  have isFirst : reader.peek.kind = token.kind := by
    rw [here.kind, tokens]
    rfl
  have behind : Separate (kindAhead (listed style others ++ rest)) := by
    cases others with
    | nil => exact separate
    | cons next others =>
      obtain ⟨first, more, tokens, begins⟩ := readable.tail.head.begins
      rw [listed, tokens]
      exact begins.separate
  cases depth with
  | zero => exact absurd short (Nat.not_lt_zero _)
  | succ below =>
    obtain ⟨made, between, run, between_at, same⟩ :=
      readable.head.reads below (by omega) here behind
    obtain ⟨round, more, split, fewer⟩ :=
      here.exists_round (tokens ▸ List.cons_ne_nil token tail) between_at enough
    exact ⟨isFirst ▸ begins, made, between, round, more, run, between_at, same, split, fewer⟩

theorem statements_reads {nodes : List Node} (readable : Readables style place context nodes)
    (short : (listed style nodes).length < depth) {rounds : List Token} {reader : Reader}
    {rest : List Token} (here : Before context (listed style nodes ++ rest) reader)
    (past : kindAhead rest = .rightBrace ∨ kindAhead rest = .eof)
    (enough : reader.ahead.length ≤ rounds.length) :
    ∃ made stop, statements (read depth) place rounds reader = .ok (made, stop) ∧
      Before (context.afterAll nodes) rest stop ∧ Sames made nodes := by
  induction nodes generalizing context rounds reader with
  | nil =>
    refine ⟨[], reader, ?_, here, .nil⟩
    cases rounds with
    | nil => rfl
    | cons token rounds =>
      have kind := here.kind
      have stops : (decide (reader.peek.kind = .rightBrace) || decide (reader.peek.kind = .eof)) =
          true := by
        rw [kind]
        rcases past with is | is
        · rw [show kindAhead (listed style [] ++ rest) = .rightBrace from is]
          rfl
        · rw [show kindAhead (listed style [] ++ rest) = .eof from is]
          rfl
      rw [statements, bind_check, bind_check, if_pos stops]
      rfl
  | cons node others ih =>
    have separate : Separate (kindAhead rest) := by
      rcases past with is | is <;> rw [is] <;> decide
    obtain ⟨begins, made, between, round, rounds, run, between_at, same, rfl, fewer⟩ :=
      readable.first short here separate enough
    have goesOn : ¬ (decide (reader.peek.kind = .rightBrace) ||
        decide (reader.peek.kind = .eof)) = true := by
      simp only [Begins, List.mem_cons, List.not_mem_nil, or_false, not_or] at begins
      simp [begins.2.2.2.2.1, begins.2.2.2.2.2]
    rw [listed, List.length_append] at short
    obtain ⟨madeOthers, stop, othersRun, stop_at, sameOthers⟩ :=
      ih readable.tail (by omega) between_at fewer
    refine ⟨made :: madeOthers, stop, ?_, stop_at, .cons same sameOthers⟩
    rw [statements, bind_check, bind_check, if_neg goesOn, bind_of_ok run, bind_of_ok othersRun]
    rfl

/-! ## Blocks -/

theorem inScope_run {α : Type} {body : Parse α} {reader : Reader} (result : α) (inside : Reader)
    (run : body { reader with context := reader.context.push } = .ok (result, inside)) :
    inScope body reader = .ok (result, { inside with context := inside.context.pop }) := by
  rw [inScope, bind_changeContext, bind_of_ok run]
  rfl

theorem Before.into {changed : Context} {tokens : List Token} {reader : Reader}
    (here : Before context tokens reader) :
    Before changed tokens { reader with context := changed } := ⟨here.toAt.into, here.ahead⟩

theorem Before.push {tokens : List Token} {reader : Reader}
    (here : Before context tokens reader) :
    Before context.push tokens { reader with context := reader.context.push } := by
  rw [here.context]
  exact here.into

theorem written_block {node : Node} (block : IsBlock node) :
    written style node.form =
      mark .leftBrace :: listed style node.statements ++ [mark .rightBrace] := by
  obtain ⟨list, isList, -⟩ := block
  obtain ⟨form, ty, span⟩ := node
  subst isList
  rw [written]
  rfl

theorem statements_same {node : Node} {made : List Node} {span : Span} (block : IsBlock node)
    (same : Sames made node.statements) :
    Typed.Same ⟨.block made, .void, span⟩ node := by
  obtain ⟨list, isList, isVoid⟩ := block
  obtain ⟨form, ty, place⟩ := node
  subst isList isVoid
  unfold Typed.Same
  have sameList : nodesWithoutSpans made = nodesWithoutSpans list := same.withoutSpans
  simp only [nodeWithoutSpans, Form.withoutSpans, sameList]

theorem braced_reads {node : Node} {inside : Context} (block : IsBlock node)
    (readable : Readables style place inside node.statements)
    (short : (written style node.form).length ≤ depth) {opened : Reader} {rest : List Token}
    (here : Before inside (listed style node.statements ++ mark .rightBrace :: rest) opened) :
    ∃ made stop, statements (read depth) place opened.ahead opened = .ok (made, stop) ∧
      Before (inside.afterAll node.statements) (mark .rightBrace :: rest) stop ∧
      Sames made node.statements := by
  rw [written_block block, List.length_append, List.length_cons, List.length_singleton] at short
  exact statements_reads readable (by omega) here (.inl rfl) (Nat.le_refl _)

theorem block_reads {node : Node} (block : IsBlock node)
    (readable : Readables style place context.push node.statements)
    (short : (written style node.form).length ≤ depth) :
    ReadsBack (Grammar.block (read depth) place) context (written style node.form)
      (fun _ => True) node := by
  intro reader rest here _
  have there : Before context (mark .leftBrace :: (listed style node.statements ++
      mark .rightBrace :: rest)) reader := by
    simpa [written_block block] using here
  have opens : reader.peek.kind = .leftBrace := there.kind
  obtain ⟨made, stop, run, stop_at, same⟩ := braced_reads block readable short there.next.push
  have closes : stop.peek.kind = .rightBrace := stop_at.kind
  have left := leave stop_at.next.toAt
  refine ⟨⟨.block made, .void, reader.peek.span.through stop.peek.span⟩,
    { stop.next with context := stop.next.context.pop }, ?_, ⟨left, stop_at.next.ahead⟩,
    statements_same block same⟩
  rw [Grammar.block, bind_expect, if_pos opens]
  apply inScope_run _ stop.next
  rw [bind_remaining, bind_of_ok run, bind_expect, if_pos closes]
  rfl

theorem endBlockStatement_reads {closed : Bool} {reader : Reader} {rest : List Token}
    (here : Before context ((if closed then [mark .semicolon] else []) ++ rest) reader)
    (separate : Separate (kindAhead rest)) :
    ∃ stop, endBlockStatement reader = .ok ((), stop) ∧ Before context rest stop := by
  cases closed with
  | true =>
    have there : Before context (mark .semicolon :: rest) reader := here
    have semicolon : reader.peek.kind = .semicolon := there.kind
    refine ⟨reader.next, ?_, there.next⟩
    rw [endBlockStatement, bind_accept, if_pos semicolon]
    rfl
  | false =>
    have there : Before context rest reader := here
    have absent : reader.peek.kind ≠ .semicolon := by
      rw [there.kind]
      intro is
      rw [is] at separate
      exact absurd separate (by decide)
    refine ⟨reader, ?_, there⟩
    rw [endBlockStatement, bind_accept, if_neg absent]
    rfl

theorem endStatement_reads {reader : Reader} {rest : List Token}
    (here : Before context (mark .semicolon :: rest) reader) :
    endStatement reader = .ok ((), reader.next) := by
  have semicolon : reader.peek.kind = .semicolon := here.kind
  rw [endStatement, bind_expect, if_pos semicolon]
  rfl

theorem ending_block (style : Style) {node : Node} (inBlock : endsInBlock node.form = true) :
    ending style node = if style.closes node then [mark .semicolon] else [] := by
  rw [ending, inBlock]
  cases style.closes node <;> rfl

theorem ending_plain (style : Style) {node : Node} (plain : endsInBlock node.form = false) :
    ending style node = [mark .semicolon] := by
  rw [ending, plain]
  rfl

end

end RobotScript.Grammar
