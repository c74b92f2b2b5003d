/-! # Bindings

A finite table from names to what they stand for, in the order in which the
names were first bound. Binding a name again changes what it stands for and
leaves its place. -/
set_option autoImplicit false

namespace RobotScript

structure Bindings (α : Type) where
  entries : List (String × α)
deriving DecidableEq, Repr

namespace Bindings

variable {α : Type}

def empty : Bindings α := ⟨[]⟩

instance : Inhabited (Bindings α) := ⟨empty⟩

def findIn (name : String) : List (String × α) → Option α
  | [] => none
  | (key, value) :: rest => if key = name then some value else findIn name rest

def insertIn (name : String) (value : α) : List (String × α) → List (String × α)
  | [] => [(name, value)]
  | (key, old) :: rest =>
    if key = name then (key, value) :: rest else (key, old) :: insertIn name value rest

def find? (bindings : Bindings α) (name : String) : Option α := findIn name bindings.entries

def binds (bindings : Bindings α) (name : String) : Bool := (bindings.find? name).isSome

def insert (bindings : Bindings α) (name : String) (value : α) : Bindings α :=
  ⟨insertIn name value bindings.entries⟩

def ofList (entries : List (String × α)) : Bindings α :=
  entries.foldl (fun bindings entry => bindings.insert entry.1 entry.2) empty

def map {β : Type} (change : α → β) (bindings : Bindings α) : Bindings β :=
  ⟨bindings.entries.map fun entry => (entry.1, change entry.2)⟩

@[simp] theorem find?_empty (name : String) : (empty : Bindings α).find? name = none := rfl

theorem find?_insert (bindings : Bindings α) (name other : String) (value : α) :
    (bindings.insert name value).find? other =
      if name = other then some value else bindings.find? other := by
  obtain ⟨entries⟩ := bindings
  show findIn other (insertIn name value entries) = if name = other then some value
    else findIn other entries
  induction entries with
  | nil => rfl
  | cons entry rest ih =>
    obtain ⟨key, old⟩ := entry
    by_cases same : key = name
    · subst same
      by_cases key = other <;> simp_all [insertIn, findIn]
    · rw [insertIn, if_neg same, findIn, findIn, ih]
      by_cases here : key = other
      · have differs : ¬ name = other := fun equal => same (here.trans equal.symm)
        rw [if_pos here, if_pos here, if_neg differs]
      · rw [if_neg here, if_neg here]

theorem find?_map {β : Type} (change : α → β) (bindings : Bindings α) (name : String) :
    (bindings.map change).find? name = (bindings.find? name).map change := by
  obtain ⟨entries⟩ := bindings
  show findIn name (entries.map fun entry => (entry.1, change entry.2)) =
    (findIn name entries).map change
  induction entries with
  | nil => rfl
  | cons entry rest ih =>
    obtain ⟨key, value⟩ := entry
    by_cases here : key = name <;> simp [findIn, here, ih]

end Bindings

end RobotScript
