import RobotScript.Proofs.Binding.Sessions
import RobotScript.Proofs.Leftovers.Shadows
import RobotScript.Proofs.Scoping.Visible

/-! # What a session is about

The core of a session is its store with only those names in the root that the context has.
If no function of the context captures, the core is a world of its own: its functions see
in it all that they were read with, so an entry that captures nothing finds there every
name that it uses. -/
set_option autoImplicit false

namespace RobotScript

open Typing Evaluation

variable {Host : Type}

/-! ## Stores without some names -/

def Bindings.kept {α : Type} (keeps : String → Bool) (bindings : Bindings α) : Bindings α :=
  ⟨bindings.entries.filter fun entry => keeps entry.1⟩

theorem Bindings.find?_kept {α : Type} (keeps : String → Bool) (bindings : Bindings α)
    (name : String) :
    (bindings.kept keeps).find? name = if keeps name then bindings.find? name else none := by
  obtain ⟨entries⟩ := bindings
  change findIn name (entries.filter fun entry => keeps entry.1) =
    if keeps name then findIn name entries else none
  induction entries with
  | nil => cases keeps name <;> rfl
  | cons entry rest ih =>
    obtain ⟨key, value⟩ := entry
    by_cases here : key = name
    · subst here
      cases kept : keeps key <;> simp [kept, findIn, ih]
    · cases kept : keeps key <;> simp [kept, findIn, ih, here]

namespace Store

def kept (keeps : Name → Bool) (store : Store) : Store :=
  ⟨store.scopes.modify Session.scope fun scope =>
    { scope with
      vars := scope.vars.kept fun name => keeps (.var name)
      functions := scope.functions.kept fun name => keeps (.func name) }⟩

variable (keeps : Name → Bool) (store : Store)

theorem size_kept : (store.kept keeps).size = store.size := Array.size_modify

theorem scope?_kept (id : ScopeId) :
    (store.kept keeps).scope? id =
      if Session.scope = id then
        (store.scope? id).map fun scope =>
          { scope with
            vars := scope.vars.kept fun name => keeps (.var name)
            functions := scope.functions.kept fun name => keeps (.func name) }
      else store.scope? id := Array.getElem?_modify

theorem variableIn?_kept (name : String) :
    (store.kept keeps).variableIn? name Session.scope =
      if keeps (.var name) then store.variableIn? name Session.scope else none := by
  rw [variableIn?, variableIn?, scope?_kept, if_pos rfl]
  cases store.scope? Session.scope with
  | none => cases keeps (.var name) <;> rfl
  | some scope => exact Bindings.find?_kept _ _ _

theorem functionIn?_kept (name : String) :
    (store.kept keeps).functionIn? name Session.scope =
      if keeps (.func name) then store.functionIn? name Session.scope else none := by
  rw [functionIn?, functionIn?, scope?_kept, if_pos rfl]
  cases store.scope? Session.scope with
  | none => cases keeps (.func name) <;> rfl
  | some scope => exact Bindings.find?_kept _ _ _

theorem parent?_kept (id : ScopeId) : (store.kept keeps).parent? id = store.parent? id := by
  rw [parent?, parent?, scope?_kept]
  split
  · cases store.scope? id <;> rfl
  · rfl

theorem isHeld_kept (id : ScopeId) : (store.kept keeps).isHeld id = store.isHeld id := by
  rw [isHeld, isHeld, scope?_kept]
  by_cases here : Session.scope = id
  · rw [if_pos here]
    cases store.scope? id <;> rfl
  · rw [if_neg here]

def binds (store : Store) : Name → Bool
  | .var name => (store.variableIn? name Session.scope).isSome
  | .func name => (store.functionIn? name Session.scope).isSome

end Store

/-! ## Contexts that grow -/

def Context.binds (context : Context) : Name → Bool
  | .var name => context.scopes.any fun declarations => declarations.vars.binds name
  | .func name => context.scopes.any fun declarations => declarations.functions.binds name

/-- What the earlier context has, the later one has with the same meaning. -/
structure Context.Within (early late : Context) : Prop where
  natives : late.natives = early.natives
  vars : ∀ name ty, early.variableType? name = some ty → late.variableType? name = some ty
  functions : ∀ name signature, early.signature? name = some signature →
    late.signature? name = some signature

namespace Context

variable {context early late : Context}

theorem Within.refl (context : Context) : context.Within context :=
  ⟨rfl, fun _ _ found => found, fun _ _ found => found⟩

theorem Within.trans {last : Context} (one : early.Within late) (two : late.Within last) :
    early.Within last :=
  ⟨two.natives.trans one.natives, fun name ty found => two.vars name ty (one.vars name ty found),
    fun name signature found => two.functions name signature (one.functions name signature found)⟩

theorem Within.has {name : Name} (within : early.Within late) (has : early.Has name) :
    late.Has name := by
  cases name with
  | var name => exact has.imp fun ty => within.vars name ty
  | func name => exact has.imp fun signature => within.functions name signature

theorem binds_of_variable {name : String} {ty : Ty}
    (found : context.innermost.vars.find? name = some ty) : context.binds (.var name) = true :=
  List.any_eq_true.mpr ⟨context.innermost, List.mem_cons_self, Option.isSome_of_mem found⟩

theorem binds_of_function {name : String} {signature : Signature}
    (found : context.innermost.functions.find? name = some signature) :
    context.binds (.func name) = true :=
  List.any_eq_true.mpr ⟨context.innermost, List.mem_cons_self, Option.isSome_of_mem found⟩

theorem declared_of_outermost (outermost : context.enclosing = []) {name : Name}
    (has : context.Has name) :
    context.Declared name ∨ ∃ label native, name = .func label ∧
      context.natives.find? label = some native := by
  cases name with
  | var name =>
    obtain ⟨ty, found⟩ := has
    rw [variableType?, scopes, outermost, List.findSome?_singleton] at found
    refine .inl fun isNone => ?_
    rw [isNone] at found
    cases found
  | func name =>
    obtain ⟨signature, found⟩ := has
    cases isNative : context.natives.find? name with
    | some native => exact .inr ⟨name, native, rfl, isNative⟩
    | none =>
      rw [signature?, isNative, scopes, outermost] at found
      dsimp only at found
      rw [List.findSome?_singleton] at found
      refine .inl fun isNone => ?_
      rw [isNone] at found
      cases found

/-- At the top level a statement declares nothing that is there already. -/
theorem not_has_of_declares (outermost : context.enclosing = []) {place : Grammar.Place}
    {node : Node} (typed : Statement place context node) {name : Name}
    (declares : node.declares = some name) : ¬ context.Has name := by
  intro has
  rcases declared_of_outermost outermost has with declared | ⟨label, native, rfl, isNative⟩
  · exact typed.fresh declares declared
  · cases typed with
    | expression typed =>
      rw [typed.declares] at declares
      cases declares
    | declaration typed =>
      cases typed with
      | declare => cases declares
    | define _ _ _ notNative =>
      cases declares
      rw [notNative] at isNative
      cases isNative
    | _ => cases declares

theorem within_after (outermost : context.enclosing = []) {place : Grammar.Place} {node : Node}
    (typed : Statement place context node) : context.Within (context.after node) := by
  have fresh {name : Name} (declares : node.declares = some name) : ¬ context.Has name :=
    not_has_of_declares outermost typed declares
  refine ⟨after_natives context node, fun name ty found => ?_, fun name signature found => ?_⟩
  · obtain ⟨form, nodeTy, span⟩ := node
    cases form with
    | declare other declared initializer =>
      change (context.withVariable other declared).variableType? name = some ty
      rw [variableType?_withVariable, if_neg]
      · exact found
      · rintro rfl
        exact fresh rfl ⟨ty, found⟩
    | _ => exact found
  · obtain ⟨form, nodeTy, span⟩ := node
    cases form with
    | define function =>
      change (context.withFunction function.name _).signature? name = some signature
      cases isNative : context.natives.find? name with
      | some native =>
        rw [signature?, isNative] at found
        rw [signature?, withFunction, isNative]
        exact found
      | none =>
        rw [signature?_withFunction _ _ _ _ isNative, if_neg]
        · exact found
        · rintro rfl
          exact fresh rfl ⟨signature, found⟩
    | _ => exact found

theorem not_has_of_mem (outermost : context.enclosing = []) {place : Grammar.Place}
    {list : List Node} (typed : Sequence (Statement place) context list) {node : Node}
    (member : node ∈ list) {name : Name} (declares : node.declares = some name) :
    ¬ context.Has name := by
  induction list generalizing context with
  | nil => cases member
  | cons first rest ih =>
    rcases List.mem_cons.mp member with rfl | behind
    · exact not_has_of_declares outermost typed.head declares
    · intro has
      have outermostToo := (after_enclosing context first).trans outermost
      exact ih outermostToo typed.tail behind ((within_after outermost typed.head).has has)

end Context

theorem Binding.Sees.earlier {footing : Binding.Footing Host} {store : Store} {scope : ScopeId}
    {early late : Context} {free : List Name} (sees : Binding.Sees footing store scope late free)
    (within : early.Within late) : Binding.Sees footing store scope early free where
  natives := within.natives.symm.trans sees.natives
  functions name signature notNative found :=
    sees.functions name signature (within.natives ▸ notNative) (within.functions name signature found)
  values asked name ty found := sees.values asked name ty (within.vars name ty found)

/-! ## Functions that were read in the context of a session -/

/-- A function as it was read in a context that had its own name already. -/
structure ReadIn (context : Context) (function : Function) : Prop where
  isBlock : IsBlock function.body
  body : Sequence (Statement ⟨false, some function.returns⟩)
    (context.entering function.parameters) function.body.statements
  captureFree : CaptureFree (Parameter.names function.parameters) function.body

namespace Session

/-- The functions of a context were read, without capture, when it had no more than it has. -/
def Reads (context : Context) (store : Store) : Prop :=
  ∀ name signature closure, context.innermost.functions.find? name = some signature →
    store.functionIn? name scope = some closure →
      ∃ early : Context, early.Within context ∧ ReadIn early closure.function

/-- What holds between two entries if the ones before that succeeded capture nothing. -/
structure Tidy (setup : Setup Host) (session : Session Host) : Prop where
  sameSetup : session.setup = setup
  natives : session.context.natives = setup.natives.map (·.signature)
  consistent : Consistent session
  size : session.store.size = 1
  rooted : session.store.Rooted
  held : session.store.isHeld scope = true
  reads : Reads session.context session.store

variable {setup : Setup Host} {session next : Session Host} {context : Context}

/-! ### Entries -/

theorem Reads.kept {before after : Store} (reads : Reads context before)
    (keeps : Keeps context before after) : Reads context after := by
  intro name signature closure found stored
  rw [keeps.functions name signature found] at stored
  exact reads name signature closure found stored

theorem readIn_of_define {place : Grammar.Place} {function : Function} {ty : Ty} {span : Span}
    (typed : Statement place context ⟨.define function, ty, span⟩)
    (captureFree : ∀ extent ∈ nodeExtents [] ⟨.define function, ty, span⟩,
      keepsMeanings extent.opening extent.statements = true) :
    ReadIn (context.withFunction function.name function.signature) function := by
  cases typed with
  | expression typed => cases typed
  | declaration typed => cases typed
  | define returnable declarable distinct notNative fresh isBlock body =>
    refine ⟨isBlock, body, ?_⟩
    obtain ⟨name, returns, parameters, body⟩ := function
    exact captureFree

section

variable {machine after : Machine Host} {fuel : Nat}

theorem stored_of_define {function : Function} {ty : Ty} {span : Span} {value : Value}
    (inside : scope < machine.store.size)
    (run : topStatement setup (evaluate setup fuel) scope ⟨.define function, ty, span⟩ machine =
      some (.ok value, after)) :
    after.store.functionIn? function.name scope = some ⟨function, scope⟩ := by
  rcases Run.bind_ended run with ⟨_, ⟨⟩, _⟩ | ⟨_, between, ticked, evaluated⟩
  have stands := (standing_course setup scope).tick span machine _ _ ticked inside
  cases fuel with
  | zero => cases evaluated
  | succ fuel =>
    cases evaluated
    exact (Store.functionIn?_defineFunction (stands.size ▸ inside) _ _ _).trans (if_pos ⟨rfl, rfl⟩)

theorem topStatement_reads {node : Node} (typed : Statement Grammar.topLevel context node)
    (outermost : context.enclosing = [])
    (captureFree : ∀ extent ∈ nodeExtents [] node,
      keepsMeanings extent.opening extent.statements = true)
    (inside : scope < machine.store.size) (reads : Reads context machine.store) {value : Value}
    (run : topStatement setup (evaluate setup fuel) scope node machine = some (.ok value, after)) :
    Reads (context.after node) after.store := by
  have within := Context.within_after outermost typed
  have still (closure : Closure) (early : ∃ early : Context, early.Within context ∧
      ReadIn early closure.function) :
      ∃ early : Context, early.Within (context.after node) ∧ ReadIn early closure.function :=
    early.imp fun _ both => ⟨both.1.trans within, both.2⟩
  have reads := reads.kept (topStatement_keeps typed inside run).1
  intro name signature closure found stored
  rcases typed.defines_cases with ⟨function, span, rfl, fresh⟩ | nothing
  · change (context.innermost.functions.insert function.name _).find? name = some signature at found
    rw [Bindings.find?_insert] at found
    split at found
    next same =>
      subst same
      rw [stored_of_define inside run] at stored
      cases stored
      exact ⟨_, .refl _, readIn_of_define typed captureFree⟩
    next => exact still closure (reads name signature closure found stored)
  · obtain ⟨form, ty, span⟩ := node
    cases form with
    | define function =>
      cases nothing with
      | intro noFunction _ => exact absurd rfl (noFunction function)
    | _ => exact still closure (reads name signature closure found stored)

theorem topStatements_reads {nodes : List Node}
    (typed : Sequence (Statement Grammar.topLevel) context nodes)
    (outermost : context.enclosing = [])
    (captureFree : ∀ extent ∈ nodesExtents nodes,
      keepsMeanings extent.opening extent.statements = true)
    (inside : scope < machine.store.size) (reads : Reads context machine.store) {last value : Value}
    (run : Evaluation.topStatements setup (evaluate setup fuel) scope last nodes machine =
      some (.ok value, after)) : Reads (context.afterAll nodes) after.store := by
  induction nodes generalizing context machine last with
  | nil =>
    cases run
    exact reads
  | cons node rest ih =>
    rcases topStatements_ended run with ⟨_, failed, -⟩ | ⟨value, between, ended, further⟩
    · cases failed
    · have size := (topStatement_keeps typed.head inside ended).1.size
      have now := topStatement_reads typed.head outermost
        (fun extent member => captureFree extent (List.mem_append_left _ member)) inside reads ended
      exact ih typed.tail ((Context.after_enclosing context node).trans outermost)
        (fun extent member => captureFree extent (List.mem_append_right _ member)) (size ▸ inside)
        now further

end

/-! ### The core -/

/-- The store of a session with only the names of its context in the root. -/
def core (session : Session Host) : Store := session.store.kept session.context.binds

theorem variable_of_binds (outermost : context.enclosing = []) {name : String}
    (binds : context.binds (.var name) = true) :
    ∃ ty, context.innermost.vars.find? name = some ty := by
  obtain ⟨declarations, member, bound⟩ := List.any_eq_true.mp binds
  rw [Context.scopes, outermost] at member
  obtain rfl := List.mem_singleton.mp member
  exact Option.isSome_iff_exists.mp bound

theorem function_of_binds (outermost : context.enclosing = []) {name : String}
    (binds : context.binds (.func name) = true) :
    ∃ signature, context.innermost.functions.find? name = some signature := by
  obtain ⟨declarations, member, bound⟩ := List.any_eq_true.mp binds
  rw [Context.scopes, outermost] at member
  obtain rfl := List.mem_singleton.mp member
  exact Option.isSome_iff_exists.mp bound

namespace Tidy

variable (tidy : Tidy setup session)

include tidy

theorem kept {keeps : Name → Bool}
    (keepsContext : ∀ name, session.context.binds name = true → keeps name = true) :
    Tidy setup { session with store := session.store.kept keeps } where
  sameSetup := tidy.sameSetup
  natives := tidy.natives
  consistent :=
    { outermost := tidy.consistent.outermost
      inside := (Store.size_kept keeps _).symm ▸ tidy.consistent.inside
      binds :=
        { values := by
            intro name ty found
            rw [Store.variableIn?_kept, if_pos (keepsContext _ (Context.binds_of_variable found))]
            exact tidy.consistent.binds.values name ty found
          functions := by
            intro name signature found
            rw [Store.functionIn?_kept, if_pos (keepsContext _ (Context.binds_of_function found))]
            exact tidy.consistent.binds.functions name signature found } }
  size := (Store.size_kept _ _).trans tidy.size
  rooted id parent isParent := tidy.rooted id parent (Store.parent?_kept keeps _ id ▸ isParent)
  held := (Store.isHeld_kept _ _ _).trans tidy.held
  reads := by
    intro name signature closure found stored
    rw [Store.functionIn?_kept, if_pos (keepsContext _ (Context.binds_of_function found))] at stored
    exact tidy.reads name signature closure found stored

theorem core_size : session.core.size = 1 := (Store.size_kept _ _).trans tidy.size

theorem core_binds : Binds session.context session.core :=
  (tidy.kept fun _ binds => binds).consistent.binds

theorem core_function {id : ScopeId} {name : String} {closure : Closure}
    (stored : session.core.functionIn? name id = some closure) :
    id = scope ∧ closure.home = scope ∧
      ∃ early : Context, early.Within session.context ∧ ReadIn early closure.function := by
  have inside := Store.functionIn?_lt stored
  rw [tidy.core_size] at inside
  obtain rfl : id = scope := Nat.lt_one_iff.mp inside
  rw [core, Store.functionIn?_kept] at stored
  split at stored
  next binds =>
    obtain ⟨signature, found⟩ := function_of_binds tidy.consistent.outermost binds
    obtain ⟨other, isOther, -, isHome⟩ := tidy.consistent.binds.functions name signature found
    rw [stored] at isOther
    obtain rfl := Option.some.inj isOther
    exact ⟨rfl, isHome, tidy.reads name signature closure found stored⟩
  · cases stored

theorem core_sees (free : List Name) :
    Binding.Sees ⟨setup, True⟩ session.core scope session.context free :=
  .of_binds tidy.natives tidy.consistent.outermost (tidy.core_size ▸ Nat.one_pos) tidy.core_binds free

theorem core_world : Binding.World ⟨setup, True⟩ (Machine.ready session.core session.host).watched where
  rooted := by
    intro id parent isParent
    exact tidy.rooted id parent (Store.parent?_kept session.context.binds _ id ▸ isParent)
  held := by
    intro id inside
    rw [Machine.watched, Machine.ready, tidy.core_size] at inside
    obtain rfl : id = scope := Nat.lt_one_iff.mp inside
    exact (Store.isHeld_kept _ _ _).trans tidy.held
  closures := by
    intro id name closure stored
    obtain ⟨rfl, isHome, early, within, read⟩ := tidy.core_function stored
    exact ⟨isHome, early, (tidy.core_sees _).earlier within, read.isBlock, read.body,
      fun _ => read.captureFree⟩
  visits _ member := absurd member List.not_mem_nil

/-- An entry that captures nothing is ready to run on the core. -/
theorem core_ready {root : Node} (typed : Program session.context root)
    (captureFree : CaptureFree [] root) :
    Binding.ReadySequence ⟨setup, True⟩ session.context
      (Machine.ready session.core session.host).watched scope root.statements := by
  obtain ⟨form, ty, span⟩ := root
  obtain ⟨⟨list, rfl, rfl⟩, statements⟩ := typed
  have keeps := captureFree ⟨[], list⟩ List.mem_cons_self
  refine ⟨⟨tidy.core_world, tidy.core_sees _, ?_, ?_⟩, tidy.core_size.symm, ?_, ?_⟩
  · exact tidy.core_size ▸ Nat.one_pos
  · exact fun _ extent member => captureFree extent (List.mem_cons_of_mem _ member)
  · exact fun _ =>
      calm_of_keepsMeanings statements (fun _ member => absurd member List.not_mem_nil) keeps
  · intro _ node member name declares label closure stored free
    obtain ⟨-, -, early, within, read⟩ := tidy.core_function stored
    have has := function_inView read.isBlock read.body name free
    exact Context.not_has_of_mem tidy.consistent.outermost statements member declares
      (within.has has)

theorem core_run {root : Node} (typed : Program session.context root)
    (captureFree : CaptureFree [] root) {fuel : Nat} {result : Except Fault Value}
    {after : Machine Host}
    (run : runIn setup fuel root scope (.ready session.core session.host) = some (result, after)) :
    after.store.Rooted ∧ after.store.isHeld scope = true ∧
      ∀ fault, result = .error fault → ¬ fault.Unbound := by
  have inside : scope < session.core.size := tidy.core_size ▸ Nat.one_pos
  have size := (topStatements_keeps typed.statements inside run).1.size
  obtain ⟨last, watched, rfl⟩ := Watching.runIn_of_plain run
  obtain ⟨world, bound⟩ := Binding.topStatements_runs (Binding.evaluate_sound ⟨setup, True⟩ fuel)
    typed.statements (tidy.core_ready typed captureFree) watched
  exact ⟨world.rooted, world.held scope (size ▸ inside),
    fun fault isFault => not_not_intro (bound fault isFault)⟩

end Tidy

end Session

end RobotScript
