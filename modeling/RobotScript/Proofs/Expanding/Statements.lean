import RobotScript.Proofs.Expanding.Evaluation
import RobotScript.Proofs.Joining.Texts

/-! # Assignments and their expansions as texts

A text is read as its tokens are, wherever they stand in it. So a compound assignment and
its expansion are accepted in the same contexts, and do the same. -/
set_option autoImplicit false

namespace RobotScript

open Evaluation Grammar Rendering Typing

variable {context behind : Context} {root : Node} {tokens : List Token} {source : String}

/-! ## Texts and their tokens -/

theorem Grammar.parse_respelled {spelled others ahead : List Token}
    (ended : Grammar.Ended spelled ahead) (otherEnded : Grammar.Ended others tokens)
    (same : tokens.map Token.bare = ahead.map Token.bare)
    (run : parse spelled context = .ok (root, behind)) :
    ∃ again, parse others context = .ok (again, behind) ∧
      Sames again.statements root.statements := by
  obtain ⟨finish, -, starts⟩ := (Grammar.Ended.nil default).starts context
  obtain ⟨empty, nothing, none⟩ : ∃ empty, parse _ context = .ok (empty, context) ∧
      empty.statements = [] := parse_of_statements starts rfl
  obtain ⟨again, parsed, sames⟩ := parse_joined (.nil default) ended otherEnded same nothing run
  rw [none] at sames
  exact ⟨again, parsed, sames⟩

def HasTokens (source : String) (tokens : List Token) : Prop :=
  Scans source.toList (tokens.map Token.bare)

/-- A text that is accepted in a context. -/
def Compiles (source : String) (context : Context) : Prop :=
  ∃ program, parseText source context = .ok program

def withEnd (tokens : List Token) : List Token := tokens ++ [⟨.eof, "", default⟩]

namespace HasTokens

theorem scanned (has : HasTokens source tokens) :
    ∃ spelled ahead, scan source = .ok spelled ∧ Grammar.Ended spelled ahead ∧
      ahead.map Token.bare = tokens.map Token.bare := has.scanFrom Position.start

theorem ended (has : HasTokens source tokens) : Grammar.Ended (withEnd tokens) tokens := by
  obtain ⟨spelled, ahead, -, ended, same⟩ := has.scanned
  refine ⟨fun token member => ?_, _, rfl, rfl⟩
  have shown : token.bare ∈ ahead.map Token.bare := same ▸ List.mem_map_of_mem member
  obtain ⟨twin, twinMember, alike⟩ := List.mem_map.mp shown
  have kinds : twin.kind = token.kind := congrArg Prod.fst alike
  exact kinds ▸ ended.endless twin twinMember

theorem of_scan (scanned : (scan source).toOption.map (·.map Token.bare) =
    some (tokens.map Token.bare ++ [(.eof, "")])) : HasTokens source tokens := by
  cases run : scan source with
  | error fault =>
    rw [run] at scanned
    cases scanned
  | ok spelled =>
    obtain ⟨ahead, ended, scans⟩ := scan_ok run
    obtain ⟨finish, isEnd, rfl⟩ := ended.last
    rw [run] at scanned
    have shown : (ahead ++ [finish]).map Token.bare = _ := Option.some.inj scanned
    rw [List.map_append, List.map_singleton, isEnd] at shown
    rw [List.append_cancel_right shown] at scans
    exact scans

theorem parse_of_text (has : HasTokens source tokens)
    (run : parseText source context = .ok (root, behind)) :
    ∃ again, parse (withEnd tokens) context = .ok (again, behind) ∧
      Sames again.statements root.statements := by
  obtain ⟨spelled, ahead, scanned, ended, same⟩ := has.scanned
  rw [parseText, scanned] at run
  exact parse_respelled ended has.ended same.symm run

theorem text_of_parse (has : HasTokens source tokens)
    (run : parse (withEnd tokens) context = .ok (root, behind)) :
    ∃ again, parseText source context = .ok (again, behind) ∧
      Sames again.statements root.statements := by
  obtain ⟨spelled, ahead, scanned, ended, same⟩ := has.scanned
  rw [parseText, scanned]
  exact parse_respelled has.ended ended same run

/-! ## Assignments -/

section

variable {name : String} {operator : AssignOp} {right : List Token} {target : Ty}
variable {value : Option Node}

theorem compiles_iff (has : HasTokens source (assignmentTokens name operator right))
    (sign : assignOp? (assignKind operator) = some operator)
    (unended : ∀ token ∈ right, token.kind ≠ .semicolon)
    (counted : ∀ binary, Counting operator binary → right = []) :
    Compiles source context ↔ ∃ target value, context.variableType? name = some target ∧
      Assignable context target operator right value := by
  constructor
  · rintro ⟨⟨root, behind⟩, parsed⟩
    obtain ⟨again, run, -⟩ := has.parse_of_text parsed
    exact assignable_of_parse has.ended sign unended counted run
  · rintro ⟨target, value, declared, assignable⟩
    obtain ⟨root, span, run, -⟩ := parse_assignment has.ended sign declared assignable
    obtain ⟨again, parsed, -⟩ := has.text_of_parse run
    exact ⟨_, parsed⟩

theorem reads (has : HasTokens source (assignmentTokens name operator right))
    (sign : assignOp? (assignKind operator) = some operator)
    (declared : context.variableType? name = some target)
    (assignable : Assignable context target operator right value)
    (parsed : parseText source context = .ok (root, behind)) :
    behind = context ∧ ∃ node span, root.statements = [node] ∧
      node.Same ⟨.assign name operator value, target, span⟩ := by
  obtain ⟨plain, span, run, single⟩ := parse_assignment has.ended sign declared assignable
  obtain ⟨again, parsedAgain, sames⟩ := has.text_of_parse run
  obtain ⟨rfl, rfl⟩ := Prod.mk.inj (Except.ok.inj (parsed.symm.trans parsedAgain))
  rw [single] at sames
  obtain ⟨node, nodes, same, rest, statements⟩ := List.forall₂_cons_right_iff.mp sames
  obtain rfl := List.forall₂_nil_right_iff.mp rest
  exact ⟨rfl, node, span, statements, same⟩

end

end HasTokens

/-! ## Expansions -/

section

variable {name short long : String} {operator : BinaryOp} {right : List Token}
variable {target : Ty} {span : Span} {node : Node}

theorem Typed.Same.assigns {assign : AssignOp} {value : Option Node}
    (same : node.Same ⟨.assign name assign value, target, span⟩) :
    ∃ given, node = ⟨.assign name assign given, target, node.span⟩ ∧
      optionWithoutSpans value = optionWithoutSpans given := by
  obtain ⟨form, ty, place⟩ := node
  obtain ⟨forms, types, -⟩ := Typed.mk.inj same
  subst types
  cases form with
  | assign other sign given =>
    obtain ⟨rfl, rfl, values⟩ := Form.assign.inj forms
    exact ⟨given, rfl, values.symm⟩
  | _ => cases forms

theorem Typed.Same.joined {value other : Node} {ty : Ty} {place inside stop : Span}
    (same : other.Same value)
    (whole : node.Same ⟨.assign name .set (some ⟨.binary ⟨.variable name, target, place⟩ operator
      other, ty, inside⟩), target, stop⟩) (span : Span) :
    Typed.Same (expansionNode name operator value target ty span) node := by
  unfold Typed.Same at same whole ⊢
  rw [whole]
  simp only [expansionNode, nodeWithoutSpans, Form.withoutSpans, optionWithoutSpans, same]

theorem combining_sign (combining : Combining operator) :
    assignOp? (assignKind (.compound operator)) = some (.compound operator) :=
  assignKind_sign fun _ same => AssignOp.compound.inj same ▸ combining

theorem counting_sign {counts : AssignOp} (counting : Counting counts operator) :
    assignOp? (assignKind counts) = some counts := by
  cases counting <;> rfl

theorem expansion_unended (name : String) (operator : BinaryOp)
    (unended : ∀ token ∈ right, token.kind ≠ .semicolon) :
    ∀ token ∈ expansionTokens name operator right, token.kind ≠ .semicolon := by
  have sign : infixKind operator ≠ .semicolon := by cases operator <;> decide
  simpa [expansionTokens, sign] using unended

theorem grouped_unended (unended : ∀ token ∈ right, token.kind ≠ .semicolon) :
    ∀ token ∈ Rendering.grouped right, token.kind ≠ .semicolon := by
  intro token member
  rw [Rendering.grouped, List.mem_append, List.mem_cons, List.mem_singleton] at member
  rcases member with (rfl | member) | rfl
  · decide
  · exact unended token member
  · decide

theorem compound_accepted (combining : Combining operator) (contained : Contained right)
    (shortHas : HasTokens short (assignmentTokens name (.compound operator) right))
    (longHas : HasTokens long (assignmentTokens name .set
      (expansionTokens name operator (Rendering.grouped right)))) :
    Compiles short context ↔ Compiles long context := by
  have unended := expansion_unended name operator (grouped_unended contained.unended)
  rw [shortHas.compiles_iff (combining_sign combining) contained.unended (by rintro _ ⟨⟩),
    longHas.compiles_iff rfl unended (by rintro _ ⟨⟩)]
  constructor
  · rintro ⟨target, given, declared, assignable⟩
    obtain ⟨value, rfl⟩ := assignable.isSome
    obtain ⟨_, _, _, _, expanded⟩ := assignable.expanded declared
    exact ⟨target, _, declared, expanded⟩
  · rintro ⟨target, value, declared, assignable⟩
    obtain ⟨value, contracted⟩ := assignable.contracted contained declared
    exact ⟨target, some value, declared, contracted⟩

theorem counting_accepted {counts : AssignOp} (counting : Counting counts operator)
    (has : HasTokens short (assignmentTokens name counts [])) :
    Compiles short context ↔
      context.variableType? name = some .int ∨ context.variableType? name = some .double := by
  rw [has.compiles_iff (counting_sign counting) (by simp) (fun _ _ => rfl)]
  simp only [assignable_counting counting, Ty.isNumeric, Bool.or_eq_true, decide_eq_true_eq]
  constructor
  · rintro ⟨target, value, declared, -, rfl | rfl⟩
    · exact .inl declared
    · exact .inr declared
  · rintro (declared | declared)
    · exact ⟨_, none, declared, rfl, .inl rfl⟩
    · exact ⟨_, none, declared, rfl, .inr rfl⟩

theorem compound_alike {expanded : Node} {last : Context} (combining : Combining operator)
    (contained : Contained right)
    (shortHas : HasTokens short (assignmentTokens name (.compound operator) right))
    (longHas : HasTokens long (assignmentTokens name .set
      (expansionTokens name operator (Rendering.grouped right))))
    (parsed : parseText short context = .ok (root, behind))
    (parsedLong : parseText long context = .ok (expanded, last)) :
    behind = context ∧ last = context ∧ ∃ node expansion value,
      root.statements = [node] ∧ expanded.statements = [expansion] ∧
      node.form = .assign name (.compound operator) (some value) ∧
      ∀ (Host : Type) (setup : Setup Host) (fuel : Nat) (scope : ScopeId) (machine : Machine Host),
        (machine.store.get? scope name).isSome = true →
        KeepsVariable setup value scope name machine →
        EndsSame (evaluate setup fuel node scope machine)
          (evaluate setup (fuel + 1) expansion scope machine) := by
  obtain ⟨target, given, declared, assignable⟩ := (shortHas.compiles_iff
    (combining_sign combining) contained.unended (by rintro _ ⟨⟩)).mp ⟨_, parsed⟩
  obtain ⟨value, rfl⟩ := assignable.isSome
  obtain ⟨place, inside, ty, span, whole⟩ := assignable.expanded declared
  obtain ⟨rfl, node, _, statements, same⟩ :=
    shortHas.reads (combining_sign combining) declared assignable parsed
  obtain ⟨rfl, expansion, _, expansions, sameLong⟩ :=
    longHas.reads rfl declared whole parsedLong
  obtain ⟨given, isAssign, values⟩ := same.assigns
  obtain ⟨twin, rfl, alike⟩ := option_twin values rfl
  refine ⟨rfl, rfl, node, expansion, twin, statements, expansions, isAssign ▸ rfl, ?_⟩
  intro Host setup fuel scope machine bound keeps
  have ends : evaluate setup (fuel + 1) _ scope machine = _ :=
    compound_ends combining bound keeps target ty node.span
  have operands := alike.widened inside
  have written := Typed.Same.joined operands sameLong node.span
  have long : EndsSame (evaluate setup (fuel + 1) _ scope machine) _ := written.ends
  rw [ends, ← isAssign] at long
  exact long

theorem counting_alike {counts : AssignOp} (counting : Counting counts operator)
    (shortHas : HasTokens short (assignmentTokens name counts []))
    (longHas : HasTokens long (assignmentTokens name .set (expansionTokens name operator [one])))
    (parsed : parseText short context = .ok (root, behind)) :
    behind = context ∧ ∃ expanded node expansion, parseText long context = .ok (expanded, context) ∧
      root.statements = [node] ∧ expanded.statements = [expansion] ∧
      ∀ (Host : Type) (setup : Setup Host) (fuel : Nat) (scope : ScopeId) (machine : Machine Host),
        EndsSame (evaluate setup fuel node scope machine)
          (evaluate setup (fuel + 2) expansion scope machine) := by
  obtain ⟨target, given, declared, assignable⟩ := (shortHas.compiles_iff
    (counting_sign counting) (by simp) (fun _ _ => rfl)).mp ⟨_, parsed⟩
  obtain ⟨rfl, numeric⟩ := (assignable_counting counting).mp assignable
  obtain ⟨place, ty, span, whole⟩ := assignable_counted counting declared numeric
  have unended : ∀ token ∈ expansionTokens name operator [one], token.kind ≠ .semicolon :=
    expansion_unended name operator (by simp [one])
  obtain ⟨⟨expanded, last⟩, parsedLong⟩ := (longHas.compiles_iff rfl unended
    (by rintro _ ⟨⟩)).mpr ⟨target, _, declared, whole⟩
  obtain ⟨rfl, node, _, statements, same⟩ :=
    shortHas.reads (counting_sign counting) declared assignable parsed
  obtain ⟨rfl, expansion, _, expansions, sameLong⟩ := longHas.reads rfl declared whole parsedLong
  obtain ⟨given, isAssign, values⟩ := same.assigns
  obtain rfl : given = none := by cases given <;> first | rfl | cases values
  refine ⟨rfl, expanded, node, expansion, parsedLong, statements, expansions, ?_⟩
  intro Host setup fuel scope machine
  have ends : evaluate setup (fuel + 2) (expansionNode name _ _ _ _ _) scope machine = _ :=
    counting_ends counting target ty default node.span
  have written := Typed.Same.joined rfl sameLong node.span
  have long : EndsSame (evaluate setup (fuel + 2) _ scope machine) _ := written.ends
  rw [ends, ← isAssign] at long
  exact long

end

/-- A compound assignment and its expansion are accepted alike and do the same wherever the
variable is bound and what stands at the right leaves it as it is; what counts can be
assigned to numbers, and always does what its expansion does. Fuel apart: an expansion nests
deeper. The tokens at the right may be any that are contained, as those of every expression
are. -/
theorem assignments_expand (context : Context) (name : String) :
    (∀ others right node, Denotes others right node → Contained right) ∧
    (∀ operator right short long, Combining operator → Contained right →
      HasTokens short (assignmentTokens name (.compound operator) right) →
      HasTokens long (assignmentTokens name .set
        (expansionTokens name operator (Rendering.grouped right))) →
      (Compiles short context ↔ Compiles long context) ∧
      ∀ root behind expanded last, parseText short context = .ok (root, behind) →
        parseText long context = .ok (expanded, last) →
        behind = context ∧ last = context ∧ ∃ node expansion value,
          root.statements = [node] ∧ expanded.statements = [expansion] ∧
          node.form = .assign name (.compound operator) (some value) ∧
          ∀ (Host : Type) (setup : Setup Host) (fuel : Nat) (scope : ScopeId)
            (machine : Machine Host), (machine.store.get? scope name).isSome = true →
            KeepsVariable setup value scope name machine →
            EndsSame (evaluate setup fuel node scope machine)
              (evaluate setup (fuel + 1) expansion scope machine)) ∧
    ∀ counts operator short long, Counting counts operator →
      HasTokens short (assignmentTokens name counts []) →
      HasTokens long (assignmentTokens name .set (expansionTokens name operator [one])) →
      (Compiles short context ↔
        context.variableType? name = some .int ∨ context.variableType? name = some .double) ∧
      ∀ root behind, parseText short context = .ok (root, behind) →
        behind = context ∧ ∃ expanded node expansion,
          parseText long context = .ok (expanded, context) ∧
          root.statements = [node] ∧ expanded.statements = [expansion] ∧
          ∀ (Host : Type) (setup : Setup Host) (fuel : Nat) (scope : ScopeId)
            (machine : Machine Host),
            EndsSame (evaluate setup fuel node scope machine)
              (evaluate setup (fuel + 2) expansion scope machine) := by
  refine ⟨fun _ _ _ denotes => denotes.contained, ?_, ?_⟩
  · intro operator right short long combining contained shortHas longHas
    refine ⟨compound_accepted combining contained shortHas longHas, ?_⟩
    intro root behind expanded last parsed parsedLong
    exact compound_alike combining contained shortHas longHas parsed parsedLong
  · intro counts operator short long counting shortHas longHas
    refine ⟨counting_accepted counting shortHas, ?_⟩
    intro root behind parsed
    exact counting_alike counting shortHas longHas parsed

def holdingFactors : Store := (Store.withRoot.define 0 "n" (.int 6)).define 0 "m" (.int 7)

theorem product_as_expansion :
    let context := (printing.natives.context.withVariable "n" .int).withVariable "m" .int
    Combining .multiply ∧ Contained [identifier "m"] ∧
      HasTokens "n =* m;" (assignmentTokens "n" (.compound .multiply) [identifier "m"]) ∧
      HasTokens "n = n * (m);" (assignmentTokens "n" .set
        (expansionTokens "n" .multiply (Rendering.grouped [identifier "m"]))) ∧
      Compiles "n =* m;" context ∧ Compiles "n = n * (m);" context ∧
      ∃ root behind expanded last node expansion,
        parseText "n =* m;" context = .ok (root, behind) ∧
        parseText "n = n * (m);" context = .ok (expanded, last) ∧
        root.statements = [node] ∧ expanded.statements = [expansion] ∧
        (∃ result after, evaluate printing 20 node 0 (.ready holdingFactors []) =
          some (result, after) ∧ (after.store.get? 0 "n").map Value.text = some "42") ∧
        EndsSame (evaluate printing 20 node 0 (.ready holdingFactors []))
          (evaluate printing 21 expansion 0 (.ready holdingFactors [])) ∧
      Counting .increment .add ∧ HasTokens "n ++;" (assignmentTokens "n" .increment []) ∧
      HasTokens "n = n + 1;" (assignmentTokens "n" .set (expansionTokens "n" .add [one])) ∧
      Compiles "n ++;" context ∧ Compiles "n = n + 1;" context := by
  intro context
  have combining : Combining .multiply := by decide
  have stretch : Stretch 0 [identifier "m"] := .cons (by decide) rfl (Int.le_refl 0) .nil
  have contained : Contained [identifier "m"] := stretch.contained
  have shortHas : HasTokens "n =* m;" (assignmentTokens "n" (.compound .multiply)
      [identifier "m"]) := .of_scan (by decide +kernel)
  have longHas : HasTokens "n = n * (m);" (assignmentTokens "n" .set
      (expansionTokens "n" .multiply (Rendering.grouped [identifier "m"]))) :=
    .of_scan (by decide +kernel)
  have countHas : HasTokens "n ++;" (assignmentTokens "n" .increment []) :=
    .of_scan (by decide +kernel)
  have addHas : HasTokens "n = n + 1;" (assignmentTokens "n" .set
      (expansionTokens "n" .add [one])) := .of_scan (by decide +kernel)
  obtain ⟨countable, counted⟩ := (assignments_expand context "n").2.2 .increment .add _ _ .up
    countHas addHas
  obtain ⟨⟨counting, after⟩, parsedCounting⟩ := countable.mpr (.inl (by decide +kernel))
  obtain ⟨-, _, _, _, parsedAdding, -⟩ := counted _ _ parsedCounting
  have checked : (parseText "n =* m;" context).toOption.any (fun program =>
      program.1.statements.any fun node => node.parts.any fun operand =>
        match operand.form with
        | .variable _ =>
          (evaluate printing 20 node 0 (.ready holdingFactors [])).any fun ended =>
            (ended.2.store.get? 0 "n").map Value.text == some "42"
        | _ => false) = true := by
    decide +kernel
  obtain ⟨⟨root, behind⟩, parsed, checked⟩ := (Option.any_eq_true _ _).mp checked
  have parsed := ok_of_toOption parsed
  obtain ⟨accepted, alike⟩ := (assignments_expand context "n").2.1 .multiply [identifier "m"] _ _
    combining contained shortHas longHas
  obtain ⟨⟨expanded, last⟩, parsedLong⟩ := accepted.mp ⟨_, parsed⟩
  obtain ⟨-, -, node, expansion, value, statements, expansions, isAssign, ends⟩ :=
    alike _ _ _ _ parsed parsedLong
  have parts : node.parts = [value] := by
    rw [Typed.parts, isAssign]
    rfl
  rw [statements, List.any_cons, List.any_nil, Bool.or_false, parts, List.any_cons, List.any_nil,
    Bool.or_false] at checked
  obtain ⟨form, ty, span⟩ := value
  cases form with
  | «variable» other =>
    obtain ⟨⟨result, after⟩, ran, checked⟩ := (Option.any_eq_true _ _).mp checked
    have bound : (holdingFactors.get? 0 "n").isSome = true := by decide +kernel
    have keeps := KeepsVariable.variable printing other ty span 0 "n" (.ready holdingFactors [])
    exact ⟨combining, contained, shortHas, longHas, ⟨_, parsed⟩, ⟨_, parsedLong⟩, root,
      behind, expanded, last, node, expansion, parsed, parsedLong, statements, expansions,
      ⟨result, after, ran, beq_iff_eq.mp checked⟩, ends _ printing 20 0 _ bound keeps, .up,
      countHas, addHas, ⟨_, parsedCounting⟩, ⟨_, parsedAdding⟩⟩
  | _ => cases checked

end RobotScript
