import RobotScript.Proofs.Joining.Texts
import RobotScript.Proofs.Placing.Statements

/-! # Where scripts stand in their text

All nodes of a script that is read from a text are faithful to it, and where a text is
refused, by the scanner or by the grammar, the fault lies in the text. -/
set_option autoImplicit false

namespace RobotScript

variable {text : List Char}

namespace Grammar

theorem read_places (depth : Nat) : ReadsAll text (read depth) := by
  induction depth with
  | zero =>
    have refused (low : Nat) : Places text low (Sits text low) (do
        refuse (.grammar .unexpectedEnd) (← peek).span) :=
      .peek fun token lies => .refuse _ lies.within
    exact fun goal low => refused low
  | succ depth ih =>
    intro goal
    cases goal with
    | expression => exact expression_places (ih .expression)
    | statement place => exact statement_places ih place

theorem topStatements_places {inner : Goal → Parse Node} (reads : ReadsAll text inner)
    (rounds : List Token) (low : Nat) :
    Places text low (Lined text low) (topStatements inner rounds) := by
  induction rounds generalizing low with
  | nil => exact .pure (.nil (Nat.le_refl _))
  | cons token rounds ih =>
    refine .check _ fun ends => ?_
    split
    · exact .pure (.nil (Nat.le_refl _))
    · exact listed_places (reads _ low) ih

theorem script_places (low : Nat) :
    Places text low (fun _ => Throughout (Faithful text)) script := by
  refine .peek fun token lies => .remaining fun tokens => ?_
  refine .bind (topStatements_places (read_places _) tokens _) fun list middle before lined => ?_
  refine .peek fun final finalLies => .pure ?_
  have whole := lies.onwards (finalLies.widen before (Nat.le_refl _))
  have sits : Sits text low final.span.stop.index
      (.statement (.block list) (token.span.through final.span)) :=
    .of_children whole (lined.widen (Nat.le_refl _) finalLies.le_stop) rfl rfl
  exact sits.faithful

theorem ofTokens_from {tokens ahead : List Token} (ended : Ended tokens ahead) {low : Nat}
    (spread : Spread text low tokens) (isScan : scanFrom .start text = .ok tokens)
    (context : Context) : (Reader.ofTokens tokens context).From text low := by
  obtain ⟨finish, isEnd, rfl⟩ := ended.last
  rw [Reader.ofTokens_append ended.endless (congrArg Prod.fst isEnd)]
  exact ⟨spread, fun token member => ⟨_, isScan, member⟩, congrArg Prod.fst isEnd, by rintro _ ⟨⟩⟩

end Grammar

theorem parseText_faithful (source : String) (context : Context) :
    (∀ root behind, parseText source context = .ok (root, behind) →
      Throughout (Faithful source.toList) root) ∧
      ∀ fault, parseText source context = .error fault → fault.span.In source.toList := by
  have scanning := scanFrom_spread (Position.at_start source.toList)
  rw [parseText]
  cases scanned : scan source with
  | error fault =>
    refine ⟨by rintro _ _ ⟨⟩, ?_⟩
    rintro _ ⟨⟩
    exact scanning.2 fault scanned
  | ok tokens =>
    obtain ⟨ahead, ended, -⟩ := scan_ok scanned
    have reader := Grammar.ofTokens_from ended (scanning.1 tokens scanned) scanned context
    obtain ⟨refused, read⟩ := Grammar.script_places _ _ reader
    dsimp only
    rw [parse]
    cases ran : Grammar.script.run (Grammar.Reader.ofTokens tokens context) with
    | error fault =>
      refine ⟨by rintro _ _ ⟨⟩, ?_⟩
      rintro _ ⟨⟩
      exact refused fault ran
    | ok pair =>
      refine ⟨?_, by rintro _ ⟨⟩⟩
      rintro _ _ ⟨⟩
      obtain ⟨-, -, -, faithful⟩ := read pair.1 pair.2 ran
      exact faithful

/-- What is read from a text lies in it, and what is refused of it as well. -/
theorem parseText_places (source : String) (context : Context) :
    (∀ root behind, parseText source context = .ok (root, behind) →
      Known (Span.In source.toList) root) ∧
      ∀ fault, parseText source context = .error fault → fault.span.In source.toList := by
  obtain ⟨faithful, refused⟩ := parseText_faithful source context
  exact ⟨fun root behind run node within => (faithful root behind run node within).holds.within,
    refused⟩

end RobotScript
