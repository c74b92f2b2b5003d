import RobotScript.Script

/-! # Sessions

A session takes one entry after the other. What an entry declares stays for the
entries behind it, once the whole entry has compiled and run; the scope keeps
what was stored even if the entry then failed, but the names stay free. -/
set_option autoImplicit false

namespace RobotScript

structure Session (Host : Type) where
  setup : Setup Host
  context : Context
  store : Store
  host : Host

namespace Session

variable {Host : Type}

def scope : ScopeId := 0

def start (setup : Setup Host) (host : Host) : Session Host :=
  ⟨setup, setup.natives.context, Store.withRoot, host⟩

/-- An entry that is one expression shows its value, unless it has none or is an
assignment. -/
def shows (root : Node) : Bool :=
  match root.statements with
  | [single] =>
    match single.form with
    | .assign _ _ _ => false
    | _ => !single.ty.isVoid
  | _ => false

/-- What an entry gave: a fault, or a value if there is one to show. -/
abbrev Answer := Except Fault (Option Value)

def enter (fuel : Nat) (session : Session Host) (source : String) :
    Option (Answer × Session Host) :=
  match parseText source session.context with
  | .error fault => some (.error fault, session)
  | .ok (root, context) =>
    match Evaluation.runIn session.setup fuel root scope
      (Machine.ready session.store session.host) with
    | none => none
    | some (.error fault, machine) =>
      some (.error fault, { session with store := machine.store, host := machine.host })
    | some (.ok value, machine) =>
      some (.ok (if shows root then some value else none),
        { session with context := context, store := machine.store, host := machine.host })

end Session

end RobotScript
