import RobotScript.Proofs.Running.Statements

/-! # Runs are sound

The forms together, closed by induction on the depth of nesting, and from there the
run of a whole script in a fresh scope. -/
set_option autoImplicit false

namespace RobotScript

open Typing Evaluation

variable {Host : Type} {stage : Stage Host} {inner : Node → ScopeId → Run (Traced Host) Value}
variable {context : Context} {outlook : Outlook} {machine : Machine (Traced Host)} {scope : Nat}
variable {node : Node}

theorem chainExpression_runs (sound : Sound stage inner) {branches : List (Branch Form)}
    {otherwise : Node} {ty : Ty} {span : Span}
    (guards : ∀ branch ∈ branches, ∀ guard, branch.guard? = some guard →
      Expression context guard)
    (decide : ∀ branch ∈ branches, ∀ guard, branch.guard? = some guard → guard.ty = .bool)
    (bodies : ∀ branch ∈ branches, Expression context branch.body)
    (same : ∀ branch ∈ branches, branch.body.ty = ty)
    (last : Expression context otherwise) (lastSame : otherwise.ty = ty)
    (ready : ReadyNode stage context outlook machine scope
      ⟨.chain branches (some otherwise), ty, span⟩) :
    RunsTyped stage (chain inner (some otherwise) scope branches) machine ty := by
  refine chain_runs (fun _ quiet => quiet) ready.world ?_ ?_ ?_ nofun
  · intro branch member guard isGuard later leads
    have tested := condition_runs sound (guards branch member guard isGuard)
      (decide branch member guard isGuard)
      (((ready.first.branch member).guard isGuard).later leads ready.inside)
    rwa [leads.size] at tested
  · intro branch member later leads
    have body := sound.expression (bodies branch member)
      ((ready.first.branch member).body.later leads ready.inside)
    rwa [leads.size, same branch member] at body
  · rintro node ⟨⟩ later leads
    have body := sound.expression last (Ready.later ready.second leads ready.inside)
    rwa [leads.size, lastSame] at body

theorem form_expression (sound : Sound stage inner) (fuel : Nat)
    (typed : Expression context node)
    (ready : ReadyNode stage context outlook machine scope node) :
    RunsTyped stage (Tracing.form stage.plain inner fuel node scope) machine node.ty := by
  cases typed with
  | literal plain => exact .pure ready.world ⟨rfl, Value.wellFormed_of_scalar plain.1⟩
  | name found => exact variable_runs found ready
  | unary typed applies => exact unary_runs sound typed applies ready
  | binary leftTyped rightTyped applies =>
    exact binary_runs sound leftTyped rightTyped applies ready
  | call found typed taken => exact call_runs sound found typed taken ready
  | index found isList typed isInt => exact index_runs sound found isList typed isInt ready
  | set found typed accepted => exact set_runs sound found typed accepted ready
  | combine found combining typed applies accepted =>
    exact combine_runs sound found typed applies accepted ready
  | count found counting numeric => exact count_runs found counting numeric ready
  | @list elements ty span nonempty typed plain common =>
    exact list_runs sound ty nonempty typed plain common ready
  | chain nonempty hasValue guards decide bodies same last lastSame =>
    exact chainExpression_runs sound guards decide bodies same last lastSame ready

theorem form_block (sound : Sound stage inner) (fuel : Nat) (place : Grammar.Place)
    (isBlock : IsBlock node) (typed : Sequence (Statement place) context.push node.statements)
    (ready : ReadyNode stage context outlook machine scope node) :
    RunsPlainly stage place (Tracing.form stage.plain inner fuel node scope) machine .void := by
  obtain ⟨form, ty, span⟩ := node
  obtain ⟨list, rfl, rfl⟩ := isBlock
  exact block_runs sound place typed ready

theorem form_statement (sound : Sound stage inner) (fuel : Nat) {place : Grammar.Place}
    (typed : Statement place context node)
    (ready : ReadyNode stage context outlook machine scope node)
    (top : scope + 1 = machine.store.size)
    (unkept : ∀ name, node.declares = some name → Unkept machine scope name) :
    RunsForward stage place outlook scope node (Tracing.form stage.plain inner fuel node scope)
      machine := by
  have plainly {ty : Ty} (isTy : node.ty = ty) (declares : node.declares = none)
      (runs : RunsPlainly stage place (Tracing.form stage.plain inner fuel node scope) machine ty) :
      RunsForward stage place outlook scope node (Tracing.form stage.plain inner fuel node scope)
        machine := by
    subst isTy
    exact RunsPlainly.forward runs ready.world ready.inside declares
  cases typed with
  | expression typed =>
    exact plainly rfl typed.declares ((form_expression sound fuel typed ready).plainly place)
  | declaration typed =>
    cases typed with
    | declare declarable fresh typed accepted =>
      exact declare_runs sound place typed accepted ready top (unkept _ rfl)
  | define returnable declarable distinct notNative fresh isBlock body =>
    exact define_runs place declarable distinct isBlock body ready top (unkept _ rfl)
  | returnNothing allowed =>
    exact plainly rfl rfl (returning_runs sound place nofun allowed ready)
  | @returnValue place context value span typed accepted =>
    refine plainly rfl rfl (returning_runs sound place ?_ accepted ready)
    rintro node ⟨⟩
    exact typed
  | breaking inLoop => exact plainly rfl rfl (.stop ready.world inLoop)
  | continuing inLoop => exact plainly rfl rfl (.stop ready.world inLoop)
  | repeating typed isInt isBlock rounds =>
    exact plainly rfl rfl (repeating_runs sound place typed isInt isBlock rounds ready)
  | whileTrue typed isBool isBlock rounds =>
    exact plainly rfl rfl (whileTrue_runs sound place fuel typed isBool isBlock rounds ready)
  | loop first typed isBool stepTyped isBlock rounds =>
    exact plainly rfl rfl
      (loop_runs sound place fuel first typed isBool stepTyped isBlock rounds ready)
  | chain nonempty guards decide areBlocks bodies lastIsBlock last =>
    exact plainly rfl rfl
      (chainStatement_runs sound place guards decide areBlocks bodies lastIsBlock last ready)

theorem evaluate_sound (stage : Stage Host) (fuel : Nat) :
    Sound stage (Tracing.evaluate stage.plain fuel) := by
  induction fuel with
  | zero =>
    refine ⟨?_, ?_, ?_⟩
    · intro context outlook machine scope node typed ready
      exact .exhausted
    · intro place context outlook machine scope node typed ready top unkept
      exact .exhausted
    · intro place context outlook machine scope node isBlock typed ready
      exact .exhausted
  | succ fuel ih =>
    refine ⟨?_, ?_, ?_⟩
    · intro context outlook machine scope node typed ready
      exact form_expression ih fuel typed ready
    · intro place context outlook machine scope node typed ready top unkept
      exact form_statement ih fuel typed ready top unkept
    · intro place context outlook machine scope node isBlock typed ready
      exact form_block ih fuel place isBlock typed ready

end RobotScript
