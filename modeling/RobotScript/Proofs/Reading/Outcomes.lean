import RobotScript.Script

/-! # How readings of a text end

What was found out about the outcome of scanning, compiling or running a certain text, as
facts about the tree, the value or the fault that it has. -/
set_option autoImplicit false

namespace RobotScript

variable {Host : Type}

theorem ok_of_toOption {α : Type} {result : Except Fault α} {value : α}
    (found : result.toOption = some value) : result = .ok value := by
  cases result with
  | error fault => cases found
  | ok other =>
    cases found
    rfl

theorem compile_ok {natives : NativeTable Host} {source : String} {root : Node}
    (compiled : compile natives source = .ok root) :
    ∃ behind, parseText source natives.context = .ok (root, behind) := by
  rw [compile] at compiled
  rcases parsed : parseText source natives.context with fault | ⟨tree, behind⟩
  · rw [parsed] at compiled
    cases compiled
  · rw [parsed] at compiled
    cases compiled
    exact ⟨behind, rfl⟩

theorem exists_compiled {natives : NativeTable Host} {source : String} {check : Node → Bool}
    (checked : (compile natives source).toOption.any check = true) :
    ∃ root, compile natives source = .ok root ∧ check root = true := by
  obtain ⟨root, found, holds⟩ := (Option.any_eq_true _ _).mp checked
  exact ⟨root, ok_of_toOption found, holds⟩

def fault? {α : Type} : Except Fault α → Option Fault
  | .error fault => some fault
  | .ok _ => none

theorem error_of_fault? {α : Type} {result : Except Fault α} {fault : Fault}
    (failed : fault? result = some fault) : result = .error fault := by
  cases result with
  | ok value => cases failed
  | error reason =>
    cases failed
    rfl

end RobotScript
