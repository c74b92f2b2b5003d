import RobotScript.Proofs.Scoping.Visible
import RobotScript.Proofs.Walking.Balance

/-! # Histories of a context

Scopes are entered and left and names are declared in any order. Whatever is done above a
scope that was entered leaves the scopes below it as they were, so that leaving it again, by
itself or with all that are still open above it, gives back the context that it was
entered from. -/
set_option autoImplicit false

namespace RobotScript

namespace Context

inductive Operation where
  | push
  | pop
  | truncate (depth : Nat)
  | declareVariable (name : String) (ty : Ty)
  | declareFunction (name : String) (signature : Signature)
deriving DecidableEq, Repr

/-- Only declarations may be refused. -/
def answer (context : Context) : Operation → Except Refusal Context
  | .push => .ok context.push
  | .pop => .ok context.pop
  | .truncate depth => .ok (context.truncate depth)
  | .declareVariable name ty => context.declareVariable name ty
  | .declareFunction name signature => context.declareFunction name signature

def perform (context : Context) (operation : Operation) : Context :=
  match context.answer operation with
  | .ok after => after
  | .error _ => context

def performAll (context : Context) (operations : List Operation) : Context :=
  operations.foldl perform context

inductive Refuses (context : Context) : Operation → Refusal → Prop where
  | variable {name : String} {ty : Ty} (bound : context.innermost.vars.binds name = true) :
      Refuses context (.declareVariable name ty) .duplicate
  | native {name : String} {signature : Signature} (bound : context.natives.binds name = true) :
      Refuses context (.declareFunction name signature) .native
  | function {name : String} {signature : Signature} (free : context.natives.binds name = false)
      (bound : context.innermost.functions.binds name = true) :
      Refuses context (.declareFunction name signature) .duplicate

variable {base context : Context}

theorem performAll_append (context : Context) (first second : List Operation) :
    context.performAll (first ++ second) = (context.performAll first).performAll second :=
  List.foldl_append

theorem depth_pos (context : Context) : 1 ≤ context.depth := Nat.succ_pos _

/-! ## Declarations -/

theorem perform_of_refused {operation : Operation} {reason : Refusal}
    (refused : context.answer operation = .error reason) : context.perform operation = context := by
  rw [perform, refused]

theorem perform_of_accepted {after : Context} {operation : Operation}
    (accepted : context.answer operation = .ok after) : context.perform operation = after := by
  rw [perform, accepted]

theorem perform_cases (context : Context) (operation : Operation) :
    context.perform operation = context.push ∨
      (∃ count, context.perform operation = popTimes count context) ∨
      context.Declares (context.perform operation) := by
  cases answered : context.answer operation with
  | error reason =>
    rw [perform_of_refused answered]
    exact .inr (.inr .nothing)
  | ok after =>
    rw [perform_of_accepted answered]
    cases operation with
    | push =>
      cases answered
      exact .inl rfl
    | pop =>
      cases answered
      exact .inr (.inl ⟨1, rfl⟩)
    | truncate depth =>
      cases answered
      exact .inr (.inl ⟨context.depth - depth, rfl⟩)
    | declareVariable name ty =>
      obtain ⟨fresh, rfl⟩ := declareVariable_ok.mp answered
      exact .inr (.inr (.ofVariable fresh))
    | declareFunction name signature =>
      obtain ⟨notNative, fresh, rfl⟩ := declareFunction_ok.mp answered
      exact .inr (.inr (.ofFunction notNative fresh))

theorem refuses_of_answer {operation : Operation} {reason : Refusal}
    (refused : context.answer operation = .error reason) : context.Refuses operation reason := by
  cases operation with
  | push | pop | truncate => cases refused
  | declareVariable name ty =>
    rw [answer, declareVariable] at refused
    split at refused
    next bound =>
      cases refused
      exact .variable bound
    · cases refused
  | declareFunction name signature =>
    rw [answer, declareFunction] at refused
    split at refused
    next bound =>
      cases refused
      exact .native bound
    next free =>
      split at refused
      next bound =>
        cases refused
        exact .function (Bool.eq_false_iff.mpr free) bound
      · cases refused

theorem signature?_native {name : String} {signature : Signature}
    (found : context.natives.find? name = some signature) :
    context.signature? name = some signature := by
  rw [signature?, found]

theorem signature?_declared {after : Context} {name : String} {signature : Signature}
    (accepted : context.declareFunction name signature = .ok after) (other : String) :
    after.signature? other = if name = other then some signature else context.signature? other := by
  obtain ⟨notNative, -, rfl⟩ := declareFunction_ok.mp accepted
  cases isNative : context.natives.find? other with
  | none => exact signature?_withFunction context name other signature isNative
  | some native =>
    have differs : name ≠ other := by
      rintro rfl
      rw [notNative] at isNative
      cases isNative
    have behind : (context.withFunction name signature).natives.find? other = some native :=
      isNative
    rw [if_neg differs, signature?_native behind, signature?_native isNative]

/-! ## Scopes above a context -/

theorem natives_pop (context : Context) : context.pop.natives = context.natives := by
  rw [pop]
  split <;> rfl

theorem natives_popTimes (count : Nat) (context : Context) :
    (popTimes count context).natives = context.natives := by
  induction count generalizing context with
  | zero => rfl
  | succ count ih => exact (ih context.pop).trans context.natives_pop

theorem depth_pop (context : Context) : context.pop.depth = max 1 (context.depth - 1) := by
  obtain ⟨natives, innermost, enclosing⟩ := context
  cases enclosing with
  | nil => rfl
  | cons outer rest => simp [pop, depth, scopes]

theorem depth_popTimes (count : Nat) (context : Context) :
    (popTimes count context).depth = max 1 (context.depth - count) := by
  induction count generalizing context with
  | zero => simp [popTimes, context.depth_pos]
  | succ count ih =>
    rw [popTimes, ih, depth_pop]
    omega

/-- A scope has been entered from the context, and possibly more above it. -/
structure Above (base context : Context) : Prop where
  natives : context.natives = base.natives
  enclosing : ∃ between, context.enclosing = between ++ base.scopes

namespace Above

theorem push (base : Context) : base.Above base.push := ⟨rfl, [], rfl⟩

theorem pop_cases (above : base.Above context) :
    context.pop = base ∧ context.depth = base.depth + 1 ∨
      base.Above context.pop ∧ base.depth + 1 < context.depth := by
  obtain ⟨natives, innermost, enclosing⟩ := context
  obtain ⟨rfl, between, rfl⟩ := above
  cases between with
  | nil => exact .inl ⟨rfl, rfl⟩
  | cons outer between =>
    refine .inr ⟨⟨rfl, between, rfl⟩, ?_⟩
    simp only [depth, scopes, List.length_cons, List.length_append, List.cons_append]
    omega

theorem popTimes (above : base.Above context) (count : Nat)
    (stays : base.depth < (popTimes count context).depth) :
    base.Above (Context.popTimes count context) := by
  induction count generalizing context with
  | zero => exact above
  | succ count ih =>
    rcases above.pop_cases with ⟨back, -⟩ | ⟨inside, -⟩
    · rw [Context.popTimes, back, depth_popTimes] at stays
      have := base.depth_pos
      omega
    · exact ih inside stays

theorem perform (above : base.Above context) (operation : Operation)
    (stays : base.depth < (context.perform operation).depth) :
    base.Above (context.perform operation) := by
  rcases context.perform_cases operation with pushed | ⟨count, popped⟩ | declares
  · obtain ⟨between, enclosing⟩ := above.enclosing
    rw [pushed]
    refine ⟨above.natives, context.innermost :: between, ?_⟩
    rw [Context.push, scopes, enclosing, List.cons_append]
  · rw [popped] at stays ⊢
    exact above.popTimes count stays
  · exact ⟨declares.natives.trans above.natives, declares.enclosing ▸ above.enclosing⟩

theorem performAll (above : base.Above context) (operations : List Operation)
    (stays : ∀ part, part <+: operations → base.depth < (context.performAll part).depth) :
    base.Above (context.performAll operations) := by
  induction operations generalizing context with
  | nil => exact above
  | cons first rest ih =>
    -- The prefixes are those of the whole history, so they bound every step of it.
    have here : base.Above (context.perform first) :=
      above.perform first (stays [first] ⟨rest, rfl⟩)
    exact ih here fun part isPrefix => stays (first :: part) (List.cons_prefix_cons.mpr ⟨rfl, isPrefix⟩)

theorem pop (above : base.Above context) (single : context.depth = base.depth + 1) :
    context.pop = base := by
  rcases above.pop_cases with ⟨back, -⟩ | ⟨-, deeper⟩
  · exact back
  · omega

theorem truncate (above : base.Above context) : context.truncate base.depth = base := by
  rw [Context.truncate]
  generalize amount : context.depth - base.depth = count
  induction count generalizing context with
  | zero =>
    rcases above.pop_cases with ⟨-, single⟩ | ⟨-, deeper⟩ <;> omega
  | succ count ih =>
    rcases above.pop_cases with ⟨back, single⟩ | ⟨inside, deeper⟩
    · obtain rfl : count = 0 := by omega
      exact back
    · refine ih inside ?_
      rw [depth_pop]
      omega

end Above

/-! ## All histories -/

theorem natives_perform (context : Context) (operation : Operation) :
    (context.perform operation).natives = context.natives := by
  rcases context.perform_cases operation with pushed | ⟨count, popped⟩ | declares
  · rw [pushed, push]
  · rw [popped, natives_popTimes]
  · exact declares.natives

theorem natives_performAll (context : Context) (operations : List Operation) :
    (context.performAll operations).natives = context.natives := by
  induction operations generalizing context with
  | nil => rfl
  | cons first rest ih => exact (ih (context.perform first)).trans (context.natives_perform first)

/-- Whatever has happened to a context, there is a scope; what it refuses to declare changes
nothing, and what it declares is seen under its name and among its kind only; the natives
are found before all else; and between entering a scope and leaving it, at once or together
with scopes above it, nothing happens to what was there before. -/
theorem history_laws {natives : Bindings Signature} {history : List Operation}
    (reached : (withNatives natives).performAll history = context) :
    1 ≤ context.depth ∧
      (∀ operation reason, context.answer operation = .error reason →
        context.Refuses operation reason ∧ context.perform operation = context) ∧
      (∀ name ty after, context.declareVariable name ty = .ok after →
        context.perform (.declareVariable name ty) = after ∧ after.depth = context.depth ∧
        (∀ other, after.variableType? other =
          if name = other then some ty else context.variableType? other) ∧
        ∀ other, after.signature? other = context.signature? other) ∧
      (∀ name signature after, context.declareFunction name signature = .ok after →
        context.perform (.declareFunction name signature) = after ∧ after.depth = context.depth ∧
        (∀ other, after.signature? other =
          if name = other then some signature else context.signature? other) ∧
        ∀ other, after.variableType? other = context.variableType? other) ∧
      (∀ name signature, natives.find? name = some signature →
        context.signature? name = some signature) ∧
      ∀ inside, (∀ part, part <+: inside →
          context.depth < (context.performAll (.push :: part)).depth) →
        ((context.performAll (.push :: inside)).depth = context.depth + 1 →
          context.performAll (.push :: inside ++ [.pop]) = context) ∧
        context.performAll (.push :: inside ++ [.truncate context.depth]) = context := by
  refine ⟨context.depth_pos, fun operation reason refused =>
    ⟨refuses_of_answer refused, perform_of_refused refused⟩, ?_, ?_, ?_, ?_⟩
  · intro name ty after accepted
    refine ⟨perform_of_accepted accepted, ?_⟩
    obtain ⟨-, rfl⟩ := declareVariable_ok.mp accepted
    exact ⟨rfl, fun other => context.variableType?_withVariable name other ty, fun other => rfl⟩
  · intro name signature after accepted
    refine ⟨perform_of_accepted accepted, ?_, signature?_declared accepted, ?_⟩ <;>
      obtain ⟨-, -, rfl⟩ := declareFunction_ok.mp accepted
    · rfl
    · exact fun other => rfl
  · intro name signature found
    refine signature?_native ?_
    rw [← reached, natives_performAll]
    exact found
  · intro inside stays
    have above : context.Above (context.performAll (.push :: inside)) :=
      (Above.push context).performAll inside stays
    constructor
    · intro single
      rw [performAll_append]
      exact above.pop single
    · rw [performAll_append]
      exact above.truncate

def printingOnly : Bindings Signature := Bindings.ofList [("print", ⟨.anyNumber, .void⟩)]

/-- In a loop in a function there is another `x`; `print` cannot be defined there. Behind the
function, or at the mark that was set before it, all is as it was. -/
theorem nested_history_laws :
    let before := (withNatives printingOnly).performAll
      [.pop, .truncate 0, .declareVariable "x" .int, .declareVariable "x" .double]
    let inside : List Operation :=
      [.declareVariable "x" .bool, .push, .declareFunction "print" ⟨.exactly [], .int⟩,
        .declareFunction "x" ⟨.exactly [], .int⟩, .pop]
    before.variableType? "x" = some .int ∧
      (before.performAll (.push :: inside)).variableType? "x" = some .bool ∧
      before.performAll (.push :: inside ++ [.pop]) = before ∧
      before.performAll (.push :: inside ++ [.truncate before.depth]) = before := by
  intro before inside
  obtain ⟨-, -, -, -, -, closing⟩ := history_laws (rfl : _ = before)
  have stays : ∀ part, part <+: inside →
      before.depth < (before.performAll (.push :: part)).depth := by
    intro part isPrefix
    have all : ∀ count < 6,
        before.depth < (before.performAll (.push :: inside.take count)).depth := by
      decide +kernel
    rw [List.prefix_iff_eq_take.mp isPrefix]
    exact all part.length (Nat.lt_succ_of_le isPrefix.length_le)
  obtain ⟨popped, truncated⟩ := closing inside stays
  exact ⟨by decide +kernel, by decide +kernel, popped (by decide +kernel), truncated⟩

end Context

end RobotScript
