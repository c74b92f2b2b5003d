import RobotScript.Proofs.Walking.Progress

/-! # What walking leaves behind

However many scopes, loops and functions are entered on the way, an expression leaves all
around it as it was, and a statement adds one declaration to the innermost scope at most. -/
set_option autoImplicit false

namespace RobotScript

namespace Context

/-- One name more in the innermost scope, at most, that was new to it. -/
inductive Declares (context : Context) : Context → Prop where
  | nothing : Declares context context
  | ofVariable {name : String} {ty : Ty} (fresh : context.innermost.vars.find? name = none) :
      Declares context (context.withVariable name ty)
  | ofFunction {name : String} {signature : Signature}
      (notNative : context.natives.find? name = none)
      (fresh : context.innermost.functions.find? name = none) :
      Declares context (context.withFunction name signature)

namespace Declares

variable {context after : Context}

theorem natives (declares : context.Declares after) : after.natives = context.natives := by
  cases declares <;> rfl

theorem enclosing (declares : context.Declares after) : after.enclosing = context.enclosing := by
  cases declares <;> rfl

theorem depth (declares : context.Declares after) : after.depth = context.depth := by
  cases declares <;> rfl

theorem vars (declares : context.Declares after) {name : String} {ty : Ty}
    (found : context.innermost.vars.find? name = some ty) :
    after.innermost.vars.find? name = some ty := by
  cases declares with
  | nothing | ofFunction => exact found
  | @ofVariable declared _ fresh =>
    have differs : declared ≠ name := by
      rintro rfl
      rw [fresh] at found
      cases found
    change (context.innermost.vars.insert _ _).find? name = some ty
    rw [Bindings.find?_insert, if_neg differs, found]

theorem functions (declares : context.Declares after) {name : String} {signature : Signature}
    (found : context.innermost.functions.find? name = some signature) :
    after.innermost.functions.find? name = some signature := by
  cases declares with
  | nothing | ofVariable => exact found
  | @ofFunction defined _ _ fresh =>
    have differs : defined ≠ name := by
      rintro rfl
      rw [fresh] at found
      cases found
    change (context.innermost.functions.insert _ _).find? name = some signature
    rw [Bindings.find?_insert, if_neg differs, found]

end Declares

theorem declares_after {place : Grammar.Place} {context : Context} {node : Node}
    (typed : Typing.Statement place context node) : context.Declares (context.after node) := by
  cases typed with
  | expression typed =>
    rw [after_expression typed]
    exact .nothing
  | declaration typed =>
    cases typed with
    | declare _ fresh => exact .ofVariable fresh
  | define _ _ _ notNative fresh => exact .ofFunction notNative fresh
  | _ => exact .nothing

end Context

namespace Grammar

open Walk (Phrase Clause)

variable {cursor after : Cursor} {node : Node}

theorem Walk.expression_kept (ended : cursor.Ended)
    (walked : Phrase.expression.walk cursor = some (.ok node, after)) :
    read cursor.ahead.length .expression cursor.reader = .ok (node, after.reader) ∧
      after.context = cursor.context ∧ after.loops = cursor.loops ∧
      after.results = cursor.results := by
  obtain ⟨run, reaches⟩ := (readExpression_mirrors _ cursor (.self ended)).of_walk walked
  have kept := ((read_sound _).expressions ⟨rfl, cursor.finish_kind⟩ run).1.context
  exact ⟨run, kept, reaches.loops, reaches.results⟩

theorem Walk.statement_declares (ended : cursor.Ended)
    (walked : Clause.statement.walk cursor = some (.ok node, after)) :
    read (cursor.ahead.length + 1) (.statement cursor.place) cursor.reader =
        .ok (node, after.reader) ∧
      after.context = cursor.context.after node ∧ cursor.context.Declares after.context ∧
      after.loops = cursor.loops ∧ after.results = cursor.results := by
  obtain ⟨run, reaches⟩ :=
    ((read_walkable (cursor.ahead.length + 1)).statements cursor (.self ended)).of_walk walked
  obtain ⟨here, typed⟩ :=
    (read_sound _).statements cursor.place ⟨rfl, cursor.finish_kind⟩ run
  have context : after.context = cursor.context.after node := here.context
  exact ⟨run, context, context ▸ Context.declares_after typed, reaches.loops, reaches.results⟩

end Grammar

open Grammar
open Walk (Phrase Clause)

/-- An expression leaves the declarations, the loops and the functions around it as they are; a
statement adds its own declaration to the innermost scope and changes nothing else; both are
read as they are walked. A script read in a single scope leaves a single scope with what its
statements declare. -/
theorem parse_balanced :
    (∀ cursor node after, cursor.Ended → Phrase.expression.walk cursor = some (.ok node, after) →
      read cursor.ahead.length .expression cursor.reader = .ok (node, after.reader) ∧
        after.context = cursor.context ∧ after.loops = cursor.loops ∧
        after.results = cursor.results) ∧
      (∀ cursor node after, cursor.Ended → Clause.statement.walk cursor = some (.ok node, after) →
        read (cursor.ahead.length + 1) (.statement cursor.place) cursor.reader =
            .ok (node, after.reader) ∧
          after.loops = cursor.loops ∧ after.results = cursor.results ∧
          after.context.natives = cursor.context.natives ∧
          after.context.enclosing = cursor.context.enclosing ∧
          after.context.depth = cursor.context.depth ∧
          after.context = cursor.context.after node ∧
          cursor.context.Declares after.context ∧
          (∀ name ty, cursor.context.innermost.vars.find? name = some ty →
            after.context.innermost.vars.find? name = some ty) ∧
          ∀ name signature, cursor.context.innermost.functions.find? name = some signature →
            after.context.innermost.functions.find? name = some signature) ∧
      ∀ tokens context root after, context.depth = 1 →
        parse tokens context = .ok (root, after) →
        after.depth = 1 ∧ after = context.afterAll root.statements ∧
          ∃ last, Walk.script (.start tokens context) = some (.ok root, last) ∧
            last.context = after := by
  refine ⟨fun cursor node after => Walk.expression_kept, fun cursor node after ended walked => ?_,
    fun tokens context root after single run => ?_⟩
  · obtain ⟨run, context, declares, loops, results⟩ := Walk.statement_declares ended walked
    exact ⟨run, loops, results, declares.natives, declares.enclosing, declares.depth, context,
      declares, fun _ _ => declares.vars, fun _ _ => declares.functions⟩
  · obtain ⟨outcome, last, walked, parsed, -⟩ := parse_walked tokens context
    obtain ⟨reader, scriptRun, behind⟩ := parse_ok run
    have declared : after = context.afterAll root.statements :=
      behind.symm.trans (script_sound (Reader.ofTokens_at tokens context) scriptRun).1.context
    rw [run] at parsed
    cases outcome with
    | error fault => cases parsed
    | ok made =>
      cases parsed
      refine ⟨?_, declared, last, walked, rfl⟩
      rw [declared, Context.depth, Context.scopes, Context.afterAll_enclosing]
      exact single

/-- `int n = 2; repeat n { n ++; }` opens a scope and closes it again, and its first statement
declares `n`. -/
theorem parse_balanced_counting :
    (∃ node after,
      Clause.statement.walk (.start counting (.withNatives .empty)) = some (.ok node, after) ∧
        (Context.withNatives .empty).Declares after.context ∧
        after.context = (Context.withNatives .empty).after node) ∧
      ∃ root after, parse counting (.withNatives .empty) = .ok (root, after) ∧ after.depth = 1 ∧
        after = (Context.withNatives .empty).afterAll root.statements := by
  obtain ⟨-, statements, scripts⟩ := parse_balanced
  constructor
  · have ended := Cursor.start_ended counting (.withNatives .empty)
    have walkable := (read_walkable 13).statements _ ⟨ended, by decide⟩
    have reads : (read 13 (.statement topLevel)
        (Cursor.start counting (.withNatives .empty)).reader).isOk = true := by decide +kernel
    cases walkable with
    | @ends node after walked read reaches =>
      obtain ⟨-, -, -, -, -, -, context, declares, -⟩ := statements _ node after ended walked
      exact ⟨node, after, walked, declares, context⟩
    | fails walked refused onward =>
      change read 13 (.statement topLevel) _ = _ at refused
      rw [refused] at reads
      cases reads
  · have parses : (parse counting (.withNatives .empty)).isOk = true := by decide +kernel
    cases run : parse counting (.withNatives .empty) with
    | error fault =>
      rw [run] at parses
      cases parses
    | ok result =>
      obtain ⟨single, declared, -⟩ := scripts counting _ result.1 result.2 rfl run
      exact ⟨result.1, result.2, rfl, single, declared⟩

end RobotScript
