import Mathlib.Data.Option.Basic
import RobotScript.Proofs.Locality.Regions

/-! # Stores with an empty scope put in between

Two runs go the same way, but that the second one runs inside one scope more, which is
empty. All scopes that they open later have numbers one apart, and what lies in the scope
of the first run may lie in the empty one in the second. Names are found alike from both,
since there is nothing to be found in the scope between. -/
set_option autoImplicit false

namespace RobotScript

def Closure.later (closure : Closure) : Closure := ⟨closure.function, closure.home + 1⟩

namespace Store

variable {first one two : Store} {scope : ScopeId}

/-! ## Numbers of scopes -/

/-- The number that a scope has in the second store: one more if it was opened since. -/
def moved (first : Store) (id : ScopeId) : ScopeId := if id < first.size then id else id + 1

theorem moved_old {id : ScopeId} (old : id < first.size) : first.moved id = id := if_pos old

theorem moved_new {id : ScopeId} (new : first.size ≤ id) : first.moved id = id + 1 :=
  if_neg (Nat.not_lt.mpr new)

/-- From these scopes names are found alike: from the same scope in both stores, and from
the one around the scope between and the scope between. -/
inductive Meets (first : Store) (scope : ScopeId) : ScopeId → ScopeId → Prop
  | moved {id : ScopeId} (near : first.Nearby scope id) : Meets first scope id (first.moved id)
  | between : Meets first scope scope first.size

namespace Meets

variable {id twin : ScopeId}

theorem old (around : id ∈ first.chain scope) : Meets first scope id id := by
  have meets : Meets first scope id (first.moved id) := .moved (.inl around)
  rwa [moved_old (lt_size_of_mem_chain around)] at meets

theorem new (later : first.size ≤ id) : Meets first scope id (id + 1) := by
  have meets : Meets first scope id (first.moved id) := .moved (.inr later)
  rwa [moved_new later] at meets

theorem near_moved (near : first.Nearby scope id) : first.Nearby scope (first.moved id) := by
  rcases near with around | later
  · rw [moved_old (lt_size_of_mem_chain around)]
    exact .inl around
  · rw [moved_new later]
    exact .inr (Nat.le_succ_of_le later)

theorem near (inside : scope < first.size) (meets : Meets first scope id twin) :
    first.Nearby scope id ∧ first.Nearby scope twin := by
  cases meets with
  | between => exact ⟨.inl (mem_chain_self inside), .inr (Nat.le_refl _)⟩
  | moved near => exact ⟨near, near_moved near⟩

end Meets

/-! ## Stores that are one scope apart -/

/-- A scope that was opened by the first run, and what it is for the second. -/
structure Twins (first : Store) (scope : ScopeId) (mine yours : Scope) : Prop where
  vars : yours.vars = mine.vars
  functions : ∀ name, yours.functions.find? name = (mine.functions.find? name).map Closure.later
  parents : Option.Rel (Meets first scope) mine.parent yours.parent

/-- The second store has an empty scope behind those that there were first. -/
structure Inserted (first : Store) (scope : ScopeId) (one two : Store) : Prop where
  size : two.size = one.size + 1
  old : ∀ id < first.size, two.scope? id = one.scope? id
  between : two.scope? first.size = some ⟨.empty, .empty, some scope, true⟩
  new : ∀ id, first.size ≤ id →
    Option.Rel (Twins first scope) (one.scope? id) (two.scope? (id + 1))

theorem Inserted.start (first : Store) (scope : ScopeId) :
    Inserted first scope first (first.opened (some scope) .empty) where
  size := size_opened ..
  old id inside := scope?_opened_below first (some scope) .empty inside
  between := by rw [scope?_opened, if_pos rfl]
  new id later := by
    rw [scope?_of_size_le later, scope?_of_size_le]
    · exact .none
    · rw [size_opened]
      exact Nat.succ_le_succ later

namespace Inserted

variable (inserted : Inserted first scope one two)

include inserted

/-! ### What is changed in both -/

theorem changed {id : ScopeId} (near : first.Nearby scope id) {mine yours : Store}
    {change other : Scope → Scope} (size : mine.size = one.size) (sizeToo : yours.size = two.size)
    (changes : ∀ at_, mine.scope? at_ =
      if id = at_ then (one.scope? at_).map change else one.scope? at_)
    (changesToo : ∀ at_, yours.scope? at_ =
      if first.moved id = at_ then (two.scope? at_).map other else two.scope? at_)
    (same : id < first.size → other = change)
    (keeps : first.size ≤ id → ∀ one two, Twins first scope one two →
      Twins first scope (change one) (other two)) :
    Inserted first scope mine yours := by
  have sizes : yours.size = mine.size + 1 := by rw [sizeToo, size, inserted.size]
  rcases near with around | later
  · have inside := lt_size_of_mem_chain around
    rw [moved_old inside] at changesToo
    obtain rfl := same inside
    refine ⟨sizes, fun at_ below => ?_, ?_, fun at_ new => ?_⟩
    · rw [changes, changesToo, inserted.old at_ below]
    · rw [changesToo, if_neg (Nat.ne_of_lt inside), inserted.between]
    · have away : id < at_ := Nat.lt_of_lt_of_le inside new
      rw [changes, changesToo, if_neg (Nat.ne_of_lt away),
        if_neg (Nat.ne_of_lt (Nat.lt_succ_of_lt away))]
      exact inserted.new at_ new
  · rw [moved_new later] at changesToo
    refine ⟨sizes, fun at_ below => ?_, ?_, fun at_ new => ?_⟩
    · have away : at_ < id := Nat.lt_of_lt_of_le below later
      rw [changes, changesToo, if_neg (Nat.ne_of_gt away),
        if_neg (Nat.ne_of_gt (Nat.lt_succ_of_lt away)), inserted.old at_ below]
    · rw [changesToo, if_neg (Nat.ne_of_gt (Nat.lt_succ_of_le later)), inserted.between]
    · rw [changes, changesToo]
      have twins := inserted.new at_ new
      by_cases here : id = at_
      · rw [if_pos here, if_pos (congrArg (· + 1) here)]
        generalize one.scope? at_ = before at twins
        generalize two.scope? (at_ + 1) = beforeToo at twins
        cases twins with
        | none => exact .none
        | some twins => exact .some (keeps later _ _ twins)
      · rw [if_neg here, if_neg fun same => here (Nat.succ.inj same)]
        exact twins

theorem define {id : ScopeId} (near : first.Nearby scope id) (name : String) (value : Value) :
    Inserted first scope (one.define id name value) (two.define (first.moved id) name value) := by
  refine inserted.changed near (size_define ..) (size_define ..)
    (scope?_define one id name value) (scope?_define two (first.moved id) name value)
    (fun _ => rfl) fun _ mine yours twins => ?_
  exact ⟨congrArg (·.insert name value) twins.vars, twins.functions, twins.parents⟩

theorem defineFunction {id : ScopeId} (near : first.Nearby scope id) (function : Function) :
    Inserted first scope (one.defineFunction id ⟨function, id⟩)
      (two.defineFunction (first.moved id) ⟨function, first.moved id⟩) := by
  refine inserted.changed near (size_defineFunction ..) (size_defineFunction ..)
    (scope?_defineFunction one id _) (scope?_defineFunction two (first.moved id) _)
    (fun inside => by rw [moved_old inside]) fun later mine yours twins => ?_
  refine ⟨twins.vars, fun name => ?_, twins.parents⟩
  rw [Bindings.find?_insert, Bindings.find?_insert, twins.functions, moved_new later]
  split
  · rfl
  · rfl

theorem opened {parent around : ScopeId} (meets : Meets first scope parent around)
    (more : first.size ≤ one.size) (vars : Bindings Value) :
    Inserted first scope (one.opened (some parent) vars) (two.opened (some around) vars) where
  size := by rw [size_opened, size_opened, inserted.size]
  old id inside := by
    have before : id < one.size := Nat.lt_of_lt_of_le inside more
    rw [scope?_opened_below one (some parent) vars before,
      scope?_opened_below two (some around) vars (inserted.size ▸ Nat.lt_succ_of_lt before),
      inserted.old id inside]
  between := by
    rw [scope?_opened_below two (some around) vars (inserted.size ▸ Nat.lt_succ_of_le more),
      inserted.between]
  new id later := by
    rw [scope?_opened, scope?_opened, inserted.size]
    by_cases here : id = one.size
    · rw [if_pos here, if_pos (congrArg (· + 1) here)]
      exact .some ⟨rfl, fun _ => rfl, .some meets⟩
    · rw [if_neg here, if_neg fun same => here (Nat.succ.inj same)]
      exact inserted.new id later

theorem closed (more : first.size < one.size) : Inserted first scope one.closed two.closed where
  size := by
    rw [size_closed, size_closed, inserted.size, Nat.add_sub_cancel,
      Nat.sub_add_cancel (Nat.one_le_of_lt more)]
  old id inside := by
    have before : id + 1 < one.size := Nat.lt_of_le_of_lt (Nat.succ_le_of_lt inside) more
    rw [scope?_closed before, scope?_closed (inserted.size ▸ Nat.lt_succ_of_lt before),
      inserted.old id inside]
  between := by
    rw [scope?_closed (inserted.size ▸ Nat.succ_lt_succ more), inserted.between]
  new id later := by
    rw [scope?_closed_eq, scope?_closed_eq, inserted.size, Nat.add_sub_cancel]
    by_cases left : id + 1 < one.size
    · rw [if_pos (Nat.lt_sub_of_add_lt left), if_pos left]
      exact inserted.new id later
    · rw [if_neg fun below => left (Nat.add_lt_of_lt_sub below), if_neg left]
      exact .none

theorem closed_eq (size : one.size = first.size) : two.closed = one := by
  obtain ⟨mine⟩ := one
  obtain ⟨yours⟩ := two
  refine congrArg Store.mk (Array.ext_getElem? fun id => ?_)
  change (Store.closed ⟨yours⟩).scope? id = (Store.mk mine).scope? id
  rw [scope?_closed_eq, inserted.size, Nat.add_sub_cancel, size]
  split
  next inside => exact inserted.old id inside
  next outside => rw [scope?_of_size_le (size ▸ Nat.le_of_not_lt outside)]

end Inserted

/-! ## What is found in both stores -/

section

variable {α β : Type} {like : α → β → Prop}

theorem findSome?_cons_or (find : ScopeId → Option α) (item : ScopeId) (rest : List ScopeId) :
    (item :: rest).findSome? find = (find item).or (rest.findSome? find) := by
  rw [List.findSome?_cons]
  cases find item <;> rfl

theorem eq_of_rel {mine yours : Option α} (same : Option.Rel Eq mine yours) : mine = yours := by
  cases same with
  | none => rfl
  | some same => rw [same]

theorem rel_of_eq {mine yours : Option α} (same : mine = yours) : Option.Rel Eq mine yours := by
  subst same
  cases mine with
  | none => exact .none
  | some value => exact .some rfl

theorem or_rel {mine further : Option α} {yours beyond : Option β}
    (here : Option.Rel like mine yours) (there : Option.Rel like further beyond) :
    Option.Rel like (mine.or further) (yours.or beyond) := by
  cases here with
  | none => exact there
  | some related => exact .some related

theorem findSome?_rel {list : List ScopeId} {find : ScopeId → Option α}
    {search : ScopeId → Option β}
    (here : ∀ item ∈ list, Option.Rel like (find item) (search item)) :
    Option.Rel like (list.findSome? find) (list.findSome? search) := by
  induction list with
  | nil => exact .none
  | cons item rest ih =>
    rw [findSome?_cons_or, findSome?_cons_or]
    exact or_rel (here item List.mem_cons_self)
      (ih fun other member => here other (List.mem_cons_of_mem item member))

theorem findSome?_chain_skip {store : Store} {id parent : ScopeId} {vars : Bindings Value}
    {functions : Bindings Closure} {held : Bool}
    (isScope : store.scope? id = some ⟨vars, functions, some parent, held⟩) (older : parent < id)
    {search : ScopeId → Option β} (nothing : search id = none) :
    (store.chain id).findSome? search = (store.chain parent).findSome? search := by
  rw [chain, isScope]
  dsimp only
  rw [if_pos older, findSome?_cons_or, nothing, Option.none_or]

/-- What is around two scopes that meet is found from them too. -/
theorem Twins.findSome?_chain {id : ScopeId} {mine yours : Scope}
    (twins : Twins first scope mine yours) (isMine : one.scope? id = some mine)
    (isYours : two.scope? (id + 1) = some yours) (later : first.size ≤ id)
    (inside : scope < first.size) {find : ScopeId → Option α} {search : ScopeId → Option β}
    (here : Option.Rel like (find id) (search (id + 1)))
    (further : ∀ parent around, around < id + 1 → Meets first scope parent around →
      Option.Rel like ((one.chain parent).findSome? find)
        ((two.chain around).findSome? search)) :
    Option.Rel like ((one.chain id).findSome? find) ((two.chain (id + 1)).findSome? search) := by
  obtain ⟨vars, functions, parent, held⟩ := mine
  obtain ⟨varsToo, functionsToo, around, heldToo⟩ := yours
  rw [chain, chain, isMine, isYours]
  have parents : Option.Rel (Meets first scope) parent around := twins.parents
  dsimp only
  have alone : Option.Rel like ([id].findSome? find) ([id + 1].findSome? search) := by
    rw [findSome?_cons_or, findSome?_cons_or]
    exact or_rel here .none
  cases parents with
  | none => exact alone
  | @some parent around meets =>
    have older : parent < id ↔ around < id + 1 := by
      cases meets with
      | between => exact ⟨fun _ => Nat.lt_succ_of_le later, fun _ => Nat.lt_of_lt_of_le inside later⟩
      | moved near =>
        rcases near with outer | new
        · have old := lt_size_of_mem_chain outer
          have below := Nat.lt_of_lt_of_le old later
          rw [moved_old old]
          exact ⟨fun _ => Nat.lt_succ_of_lt below, fun _ => below⟩
        · rw [moved_new new]
          exact ⟨Nat.succ_lt_succ, Nat.lt_of_succ_lt_succ⟩
    dsimp only
    by_cases below : parent < id
    · rw [if_pos below, if_pos (older.mp below), findSome?_cons_or,
        findSome?_cons_or]
      exact or_rel here (further parent around (older.mp below) meets)
    · rw [if_neg below, if_neg fun above => below (older.mpr above)]
      exact alone

theorem Inserted.findSome?_chain (inserted : Inserted first scope one two)
    (since : Since first scope one) (sinceToo : Since first scope two)
    (inside : scope < first.size) {find : ScopeId → Option α} {search : ScopeId → Option β}
    (here : ∀ id, first.Nearby scope id → Option.Rel like (find id) (search (first.moved id)))
    (nothing : search first.size = none) {id twin : ScopeId} (meets : Meets first scope id twin) :
    Option.Rel like ((one.chain id).findSome? find) ((two.chain twin).findSome? search) := by
  induction twin using Nat.strongRecOn generalizing id with
  | ind twin ih =>
    cases meets with
    | between =>
      rw [findSome?_chain_skip inserted.between inside nothing]
      exact ih scope inside (.old (mem_chain_self inside))
    | moved near =>
      rcases near with around | later
      · have old := lt_size_of_mem_chain around
        rw [moved_old old, since.chain old, sinceToo.chain old]
        refine findSome?_rel fun item member => ?_
        have found := here item (.inl (chain_subset around member))
        rwa [moved_old (lt_size_of_mem_chain member)] at found
      · have found := here id (.inr later)
        have twins := inserted.new id later
        rw [moved_new later] at ih found ⊢
        rcases isMine : one.scope? id with _ | mine
        · rw [isMine] at twins
          generalize isYours : two.scope? (id + 1) = yours at twins
          cases twins with
          | none =>
            rw [chain, chain, isMine, isYours]
            exact .none
        · rw [isMine] at twins
          generalize isYours : two.scope? (id + 1) = yours at twins
          cases twins with
          | some twins =>
            exact twins.findSome?_chain isMine isYours later inside found fun parent around below =>
              ih around below

end

namespace Inserted

variable (inserted : Inserted first scope one two) (since : Since first scope one)
variable (sinceToo : Since first scope two) (inside : scope < first.size)

include inserted

theorem variableIn?_moved {id : ScopeId} (near : first.Nearby scope id) (name : String) :
    two.variableIn? name (first.moved id) = one.variableIn? name id := by
  rcases near with around | later
  · have old := lt_size_of_mem_chain around
    rw [moved_old old, variableIn?, variableIn?, inserted.old id old]
  · have twins := inserted.new id later
    rw [moved_new later, variableIn?, variableIn?]
    generalize one.scope? id = mine at twins
    generalize two.scope? (id + 1) = yours at twins
    cases twins with
    | none => rfl
    | some twins => exact congrArg (·.find? name) twins.vars

theorem functionIn?_moved (since : Since first scope one) {id : ScopeId}
    (near : first.Nearby scope id) (name : String) :
    Option.Rel (fun mine yours => yours.function = mine.function ∧
        Meets first scope mine.home yours.home)
      (one.functionIn? name id) (two.functionIn? name (first.moved id)) := by
  have homes := since.homes name id
  rcases near with around | later
  · have old := lt_size_of_mem_chain around
    have same : two.functionIn? name id = one.functionIn? name id := by
      rw [functionIn?, functionIn?, inserted.old id old]
    rw [moved_old old, same]
    cases stored : one.functionIn? name id with
    | none => exact .none
    | some closure =>
      have home := homes closure (.inl around) stored
      exact .some ⟨rfl, home ▸ .old around⟩
  · have twins := inserted.new id later
    have same : two.functionIn? name (id + 1) = (one.functionIn? name id).map Closure.later := by
      rw [functionIn?, functionIn?]
      generalize one.scope? id = mine at twins
      generalize two.scope? (id + 1) = yours at twins
      cases twins with
      | none => rfl
      | some twins => exact twins.functions name
    rw [moved_new later, same]
    cases stored : one.functionIn? name id with
    | none => exact .none
    | some closure =>
      have home := homes closure (.inr later) stored
      refine .some ⟨rfl, ?_⟩
      rw [Closure.later, home]
      exact .new later

theorem variableIn?_between (name : String) : two.variableIn? name first.size = none := by
  rw [variableIn?, inserted.between]
  rfl

theorem functionIn?_between (name : String) : two.functionIn? name first.size = none := by
  rw [functionIn?, inserted.between]
  rfl

include since sinceToo inside

theorem get? {id twin : ScopeId} (meets : Meets first scope id twin) (name : String) :
    two.get? twin name = one.get? id name := by
  refine (eq_of_rel (inserted.findSome?_chain since sinceToo inside ?_ ?_ meets)).symm
  · exact fun id near => rel_of_eq (inserted.variableIn?_moved near name).symm
  · exact inserted.variableIn?_between name

theorem owner? {id twin : ScopeId} (meets : Meets first scope id twin) (name : String) :
    Option.Rel (fun mine yours => first.Nearby scope mine ∧ yours = first.moved mine)
      (one.owner? id name) (two.owner? twin name) := by
  rw [Store.owner?, Store.owner?, List.find?_eq_findSome?_guard, List.find?_eq_findSome?_guard]
  refine inserted.findSome?_chain since sinceToo inside (fun id near => ?_) ?_ meets
  · rw [Option.guard, Option.guard, inserted.variableIn?_moved near name]
    split
    · exact .some ⟨near, rfl⟩
    · exact .none
  · rw [Option.guard, inserted.variableIn?_between name]
    rfl

theorem function? {id twin : ScopeId} (meets : Meets first scope id twin) (name : String) :
    Option.Rel (fun mine yours => yours.function = mine.function ∧
        Meets first scope mine.home yours.home)
      (one.function? id name) (two.function? twin name) := by
  refine inserted.findSome?_chain since sinceToo inside (fun id near => ?_) ?_ meets
  · exact inserted.functionIn?_moved since near name
  · exact inserted.functionIn?_between name

end Inserted

end Store

end RobotScript
