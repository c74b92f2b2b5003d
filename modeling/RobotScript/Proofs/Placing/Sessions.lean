import RobotScript.Proofs.Leaving.Jumps
import RobotScript.Proofs.Placing.Scripts

/-! # Where the faults of a session point

A run fails at the place of a node that it evaluates, which belongs to the script or to
a function that was stored before. A fault of an entry therefore points into the text of
the entry unless it is raised in a function of an earlier entry: functions keep the
places of the text that they were written in, and then the fault points into that text. -/
set_option autoImplicit false

namespace RobotScript

open Evaluation

variable {Host : Type}

namespace Session

/-- The session that entries lead to, one after the other, whether they failed or not. -/
inductive Entered (setup : Setup Host) (host : Host) : List String → Session Host → Prop
  | start : Entered setup host [] (start setup host)
  | entry {earlier : List String} {session next : Session Host} {fuel : Nat} {source : String}
      {answer : Answer} (before : Entered setup host earlier session)
      (run : session.enter fuel source = some (answer, next)) :
      Entered setup host (earlier ++ [source]) next

def InSome (sources : List String) (span : Span) : Prop :=
  ∃ source ∈ sources, span.In source.toList

variable {setup : Setup Host} {host : Host} {earlier : List String} {session next : Session Host}

theorem Entered.reached (entered : Entered setup host earlier session) :
    Reached setup host session := by
  induction entered with
  | start => exact .start
  | entry _ run reached => exact reached.entered run

theorem Reached.size (reached : Reached setup host session) : session.store.size = 1 := by
  induction reached with
  | start => rfl
  | entered before run size => exact (enter_consistent before.consistent run).2.1.size.trans size

/-- The functions of a session stand in the texts of the entries before. -/
theorem Entered.knows (entered : Entered setup host earlier session) :
    session.store.Knows (InSome earlier) := by
  induction entered with
  | start => exact Store.knows_withRoot _
  | @entry earlier session next fuel source answer before run knows =>
    have knows : session.store.Knows (InSome (earlier ++ [source])) := by
      intro name id closure found
      refine (knows name id closure found).mono ?_
      rintro span ⟨origin, member, within⟩
      exact ⟨origin, List.mem_append_left _ member, within⟩
    rcases enter_cases run with ⟨_, _, _, rfl⟩ | ⟨root, result, machine, parsed, ran, -, rfl⟩
    · exact knows
    · have here : Known (InSome (earlier ++ [source])) root := by
        refine ((parseText_places source session.context).1 root _ parsed).mono ?_
        exact fun span within => ⟨source, List.mem_append_right _ List.mem_cons_self, within⟩
      exact (runIn_knows here knows ran).1

/-- A fault points into the text of the entry that it ends, unless the entry was compiled and
the fault is raised in a function of an earlier entry: then it points into the text of that
entry. -/
theorem fault_places (entered : Entered setup host earlier session) {fuel : Nat} {source : String}
    {fault : Fault} (fails : session.enter fuel source = some (.error fault, next)) :
    fault.span.In source.toList ∧ fault.span.Fits source.length ∨
      (∃ root behind, parseText source session.context = .ok (root, behind)) ∧
      (∃ name closure node, session.store.functionIn? name scope = some closure ∧
        Within closure.function.body node ∧ fault.span = node.span) ∧
      ∃ origin ∈ earlier, fault.span.In origin.toList ∧ fault.span.Fits origin.length := by
  have points {text : String} (within : fault.span.In text.toList) :
      fault.span.In text.toList ∧ fault.span.Fits text.length := by
    have fits := within.fits
    rw [String.length_toList] at fits
    exact ⟨within, fits⟩
  rcases enter_cases fails with ⟨reason, refused, same, -⟩ |
    ⟨root, result, machine, parsed, ran, answered, -⟩
  · cases same
    exact .inl (points ((parseText_places source session.context).2 fault refused))
  · let ofEntry (span : Span) : Prop := ∃ node, Within root node ∧ span = node.span
    let ofStored (span : Span) : Prop :=
      ∃ name closure node, session.store.functionIn? name scope = some closure ∧
        Within closure.function.body node ∧ span = node.span
    have here : Known (fun span => ofEntry span ∨ ofStored span) root :=
      fun node within => .inl ⟨node, within, rfl⟩
    have knows : session.store.Knows fun span => ofEntry span ∨ ofStored span := by
      intro name id closure found node within
      have inside := Store.functionIn?_lt found
      rw [entered.reached.size] at inside
      obtain rfl : id = scope := Nat.lt_one_iff.mp inside
      exact .inr ⟨name, closure, node, found, within, rfl⟩
    have failed : result = .error fault := by
      cases result <;> cases answered
      rfl
    rcases ((runIn_knows here knows ran).2 fault failed).1 with ⟨node, within, same⟩ | stored
    · have places := (parseText_places source session.context).1 root _ parsed
      exact .inl (points (same ▸ places node within))
    · refine .inr ⟨⟨root, _, parsed⟩, stored, ?_⟩
      obtain ⟨name, closure, node, found, within, same⟩ := stored
      obtain ⟨origin, member, lies⟩ := entered.knows name scope closure found node within
      exact ⟨origin, member, points (same ▸ lies)⟩

theorem exists_failing {first second : String} {fuel : Nat} {check : Fault → Bool}
    (checked : ((start setup host).success? fuel first).any (fun stored =>
      (stored.2.failure? fuel second).any fun failed => check failed.1) = true) :
    ∃ session fault next, Entered setup host [first] session ∧
      session.enter fuel second = some (.error fault, next) ∧ check fault = true := by
  obtain ⟨⟨_, session⟩, stored, checked⟩ := (Option.any_eq_true _ _).mp checked
  obtain ⟨⟨fault, next⟩, failed, checked⟩ := (Option.any_eq_true _ _).mp checked
  exact ⟨session, fault, next, Entered.start.entry (success?_eq_some.mp stored),
    failure?_eq_some.mp failed, checked⟩

def storing : String := "func double ratio(double x, double y) \x7b return x / y; \x7d"

/-- An entry that fails on its own, further on than the first one reaches. -/
def overreaching : String :=
  "double half = ratio(1, 2); double none = half - ratio(2, 4); bool same = half / none == none;"

theorem overreaching_places :
    ∃ session fault next, Entered ⟨.ofList [], .standard, none⟩ () [storing] session ∧
      session.enter 20 overreaching = some (.error fault, next) ∧
      fault.span.In overreaching.toList ∧ fault.span.Fits overreaching.length := by
  let check (fault : Fault) : Bool := decide (¬ fault.span.Fits storing.length)
  obtain ⟨session, fault, next, entered, fails, outside⟩ :
      ∃ session fault next, Entered ⟨.ofList [], .standard, none⟩ () [storing] session ∧
        session.enter 20 overreaching = some (.error fault, next) ∧ check fault = true :=
    exists_failing (by decide +kernel)
  refine ⟨session, fault, next, entered, fails, ?_⟩
  rcases fault_places entered fails with here | ⟨-, -, origin, member, -, fits⟩
  · exact here
  · obtain rfl := List.mem_singleton.mp member
    exact absurd fits (of_decide_eq_true outside)

def calling : String := "ratio(1, 0);"

/-- The fault of an entry may point behind the end of the entry. -/
theorem calling_misplaces :
    ∃ session fault next, Entered ⟨.ofList [], .standard, none⟩ () [storing] session ∧
      session.enter 20 calling = some (.error fault, next) ∧ ¬ fault.span.Fits calling.length := by
  let check (fault : Fault) : Bool := decide (¬ fault.span.Fits calling.length)
  obtain ⟨session, fault, next, entered, fails, outside⟩ :
      ∃ session fault next, Entered ⟨.ofList [], .standard, none⟩ () [storing] session ∧
        session.enter 20 calling = some (.error fault, next) ∧ check fault = true :=
    exists_failing (by decide +kernel)
  exact ⟨session, fault, next, entered, fails, of_decide_eq_true outside⟩

end Session

end RobotScript
