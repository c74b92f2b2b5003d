import Mathlib.Data.List.TakeWhile
import RobotScript.Proofs.Reading.Steps
import RobotScript.Proofs.Walking.Cursor

/-! # What is ahead of a cursor

From a cursor with an end token at its own or further on, a reader sees the tokens up to the
first of these. The cursor goes on through them and never passes that end token. -/
set_option autoImplicit false

namespace RobotScript.Grammar

namespace Cursor

def rest (cursor : Cursor) : List Token := cursor.tokens.drop cursor.current

def ahead (cursor : Cursor) : List Token := cursor.rest.takeWhile fun token => token.kind ≠ .eof

def Ended (cursor : Cursor) : Prop := ∃ token ∈ cursor.rest, token.kind = .eof

def finish (cursor : Cursor) : Token :=
  (cursor.rest.dropWhile fun token => token.kind ≠ .eof).headD ⟨.eof, "", default⟩

def stop (cursor : Cursor) : Nat := cursor.current + cursor.ahead.length

def last (cursor : Cursor) : Option Position :=
  if cursor.current = 0 then none
  else cursor.tokens[cursor.current - 1]?.map (·.span.stop)

/-- What a reader sees from here. -/
def reader (cursor : Cursor) : Reader :=
  ⟨cursor.ahead, cursor.finish, cursor.last, cursor.context⟩

def passed (cursor : Cursor) : Cursor := { cursor with current := cursor.current + 1 }

variable {cursor : Cursor}

theorem Ended.split (ended : cursor.Ended) :
    ∃ behind, cursor.rest = cursor.ahead ++ cursor.finish :: behind := by
  have whole := List.takeWhile_append_dropWhile (l := cursor.rest)
    (p := fun token : Token => decide (token.kind ≠ .eof))
  cases others : cursor.rest.dropWhile fun token => token.kind ≠ .eof with
  | nil =>
    obtain ⟨token, member, isEnd⟩ := ended
    have goesOn := List.dropWhile_eq_nil_iff.mp others token member
    exact absurd isEnd (of_decide_eq_true goesOn)
  | cons token behind =>
    refine ⟨behind, ?_⟩
    rw [others] at whole
    rw [finish, others]
    exact whole.symm

theorem finish_kind (cursor : Cursor) : cursor.finish.kind = .eof := by
  rw [finish]
  cases others : cursor.rest.dropWhile fun token => token.kind ≠ .eof with
  | nil => rfl
  | cons token behind =>
    have stops := List.head?_dropWhile_not (fun token : Token => token.kind ≠ .eof) cursor.rest
    rw [others] at stops
    simpa using stops

theorem getElem?_rest (cursor : Cursor) (more : Nat) :
    cursor.tokens[cursor.current + more]? = cursor.rest[more]? :=
  List.getElem?_drop.symm

theorem Ended.peek (ended : cursor.Ended) :
    cursor.tokens[cursor.current]? = some cursor.reader.peek := by
  obtain ⟨behind, split⟩ := ended.split
  rw [← Nat.add_zero cursor.current, getElem?_rest, split, Reader.peek]
  change (cursor.ahead ++ cursor.finish :: behind)[0]? = some (cursor.ahead.headD cursor.finish)
  cases cursor.ahead <;> rfl

theorem ahead_of_kind (goesOn : cursor.reader.peek.kind ≠ .eof) :
    ∃ others, cursor.ahead = cursor.reader.peek :: others := by
  change (cursor.ahead.headD cursor.finish).kind ≠ .eof at goesOn
  rw [Reader.peek]
  change ∃ others, cursor.ahead = cursor.ahead.headD cursor.finish :: others
  cases ahead : cursor.ahead with
  | nil =>
    rw [ahead] at goesOn
    exact absurd cursor.finish_kind goesOn
  | cons token others => exact ⟨others, rfl⟩

theorem ahead_of_end (atEnd : cursor.reader.peek.kind = .eof) : cursor.ahead = [] := by
  cases ahead : cursor.ahead with
  | nil => rfl
  | cons token others =>
    have first : cursor.reader.peek = token := by
      change cursor.ahead.headD cursor.finish = token
      rw [ahead]
      rfl
    have member : token ∈ cursor.ahead := ahead ▸ List.mem_cons_self
    have goesOn :=
      List.mem_takeWhile_imp (p := fun token : Token => decide (token.kind ≠ .eof)) member
    exact absurd (first ▸ atEnd) (of_decide_eq_true goesOn)

theorem Ended.rest_eq (ended : cursor.Ended) :
    cursor.rest = cursor.reader.peek :: cursor.passed.rest := by
  have here := ended.peek
  rw [← Nat.add_zero cursor.current, getElem?_rest] at here
  change cursor.rest = _ :: cursor.tokens.drop (cursor.current + 1)
  rw [← List.drop_drop]
  change cursor.rest = _ :: cursor.rest.drop 1
  cases others : cursor.rest with
  | nil =>
    rw [others] at here
    cases here
  | cons token behind =>
    rw [others] at here
    cases here
    rfl

theorem kind_of_empty (empty : cursor.ahead = []) : cursor.reader.peek.kind = .eof := by
  change (cursor.ahead.headD cursor.finish).kind = .eof
  rw [empty]
  exact cursor.finish_kind

section

variable (goesOn : cursor.reader.peek.kind ≠ .eof) (ended : cursor.Ended)

include goesOn ended

theorem ahead_eq : cursor.ahead = cursor.reader.peek :: cursor.passed.ahead := by
  rw [ahead, ahead, ended.rest_eq,
    List.takeWhile_cons_of_pos (p := fun token : Token => decide (token.kind ≠ .eof))
      (decide_eq_true goesOn)]

theorem passed_ended : cursor.passed.Ended := by
  have split := ended.rest_eq
  obtain ⟨token, member, isEnd⟩ := ended
  rw [split] at member
  rcases List.mem_cons.mp member with rfl | member
  · exact absurd isEnd goesOn
  · exact ⟨token, member, isEnd⟩

theorem passed_stop : cursor.passed.stop = cursor.stop := by
  rw [stop, stop, ahead_eq goesOn ended, List.length_cons]
  exact Nat.add_right_comm cursor.current 1 cursor.passed.ahead.length

theorem passed_reader : cursor.passed.reader = cursor.reader.next := by
  have finishes : cursor.passed.finish = cursor.finish := by
    rw [finish, finish, ended.rest_eq,
      List.dropWhile_cons_of_pos (p := fun token : Token => decide (token.kind ≠ .eof))
        (decide_eq_true goesOn)]
  have lasts : cursor.passed.last = some cursor.reader.peek.span.stop := by
    change (if cursor.current + 1 = 0 then none
      else cursor.tokens[cursor.current]?.map (·.span.stop)) = _
    rw [if_neg (Nat.succ_ne_zero _), ended.peek]
    rfl
  have first : cursor.reader.ahead = cursor.reader.peek :: cursor.passed.ahead :=
    ahead_eq goesOn ended
  rw [Reader.next, first]
  change Reader.mk _ cursor.passed.finish cursor.passed.last _ = _
  rw [finishes, lasts]
  rfl

end

/-- Further on in the same tokens, before the same end token. -/
structure Onward (cursor after : Cursor) : Prop where
  tokens : after.tokens = cursor.tokens
  ended : after.Ended
  stop : after.stop = cursor.stop
  forward : cursor.current ≤ after.current

/-- Further on, past one token at least if one is taken, in the same loops and functions. -/
structure Reaches (takes : Bool) (cursor after : Cursor) : Prop extends Onward cursor after where
  taken : cursor.current + takes.toNat ≤ after.current
  loops : after.loops = cursor.loops
  results : after.results = cursor.results

namespace Onward

variable {between after : Cursor}

theorem refl (ended : cursor.Ended) : cursor.Onward cursor := ⟨rfl, ended, rfl, Nat.le_refl _⟩

theorem trans (first : cursor.Onward between) (second : between.Onward after) :
    cursor.Onward after :=
  ⟨second.tokens.trans first.tokens, second.ended, second.stop.trans first.stop,
    Nat.le_trans first.forward second.forward⟩

theorem back (ended : cursor.Ended) (tokens : after.tokens = cursor.tokens)
    (current : after.current = cursor.current) : cursor.Onward after := by
  have rest : after.rest = cursor.rest := by rw [Cursor.rest, Cursor.rest, tokens, current]
  refine ⟨tokens, ?_, ?_, Nat.le_of_eq current.symm⟩
  · rwa [Cursor.Ended, rest]
  · rw [Cursor.stop, Cursor.stop, Cursor.ahead, Cursor.ahead, rest, current]

theorem left (onward : cursor.Onward after) :
    after.current + after.ahead.length = cursor.current + cursor.ahead.length := onward.stop

theorem goesOn (onward : cursor.Onward after) {number : Nat} {token : Token}
    (first : cursor.current ≤ number) (last : number < after.current)
    (found : cursor.tokens[number]? = some token) : token.kind ≠ .eof := by
  obtain ⟨more, rfl⟩ := Nat.exists_eq_add_of_le first
  have inside : more < cursor.ahead.length := by
    have same := onward.left
    omega
  have split : cursor.ahead ++ cursor.rest.dropWhile (fun token => token.kind ≠ .eof) =
      cursor.rest := List.takeWhile_append_dropWhile
  rw [getElem?_rest, ← split, List.getElem?_append_left inside] at found
  have member := List.mem_of_getElem? found
  exact of_decide_eq_true
    (List.mem_takeWhile_imp (p := fun token : Token => decide (token.kind ≠ .eof)) member)

end Onward

namespace Reaches

variable {between after : Cursor} {takes takesToo : Bool}

theorem refl (ended : cursor.Ended) : cursor.Reaches false cursor :=
  ⟨.refl ended, Nat.le_refl _, rfl, rfl⟩

theorem trans (first : cursor.Reaches takes between) (second : between.Reaches takesToo after) :
    cursor.Reaches (takes || takesToo) after := by
  refine ⟨first.toOnward.trans second.toOnward, ?_, second.loops.trans first.loops,
    second.results.trans first.results⟩
  have one := first.taken
  have two := second.taken
  cases takes with
  | false =>
    rw [Bool.false_or]
    exact Nat.le_trans (Nat.add_le_add_right one _) two
  | true => exact Nat.le_trans one second.forward

theorem left_le (reaches : cursor.Reaches takes after) :
    after.ahead.length ≤ cursor.ahead.length := by
  have same := reaches.left
  have forward := reaches.forward
  omega

theorem left_lt (reaches : cursor.Reaches true after) :
    after.ahead.length < cursor.ahead.length := by
  have same := reaches.left
  have taken : cursor.current + 1 ≤ after.current := reaches.taken
  omega

theorem place (reaches : cursor.Reaches takes after) : after.place = cursor.place := by
  rw [Cursor.place, Cursor.place, reaches.loops, reaches.results]

theorem passed (goesOn : cursor.reader.peek.kind ≠ .eof) (ended : cursor.Ended) :
    cursor.Reaches true cursor.passed :=
  ⟨⟨rfl, passed_ended goesOn ended, passed_stop goesOn ended, Nat.le_succ _⟩, Nat.le_refl _, rfl,
    rfl⟩

theorem recontext (ended : cursor.Ended) (context : Context) :
    cursor.Reaches false { cursor with context := context } :=
  ⟨⟨rfl, ended, rfl, Nat.le_refl _⟩, Nat.le_refl _, rfl, rfl⟩

end Reaches

/-- With an end token ahead and fewer tokens than some number before it. -/
structure Within (cursor : Cursor) (most : Nat) : Prop where
  ended : cursor.Ended
  fewer : cursor.ahead.length < most

namespace Within

variable {after : Cursor} {most : Nat} {takes : Bool}

theorem self (ended : cursor.Ended) : cursor.Within (cursor.ahead.length + 1) :=
  ⟨ended, Nat.lt_succ_self _⟩

theorem loose (within : cursor.Within most) : cursor.Within (most + 1) :=
  ⟨within.ended, Nat.lt_succ_of_lt within.fewer⟩

theorem onward (within : cursor.Within most) (reaches : cursor.Reaches takes after) :
    after.Within most :=
  ⟨reaches.ended, Nat.lt_of_le_of_lt reaches.left_le within.fewer⟩

theorem inside (within : cursor.Within (most + 1)) (reaches : cursor.Reaches true after) :
    after.Within most :=
  ⟨reaches.ended, Nat.lt_of_lt_of_le reaches.left_lt (Nat.le_of_lt_succ within.fewer)⟩

theorem atEnd (within : cursor.Within 1) : cursor.reader.peek.kind = .eof :=
  kind_of_empty (List.length_eq_zero_iff.mp (Nat.lt_one_iff.mp within.fewer))

theorem passed (within : cursor.Within (most + 1)) (goesOn : cursor.reader.peek.kind ≠ .eof) :
    cursor.passed.Within most :=
  within.inside (.passed goesOn within.ended)

end Within

end Cursor

end RobotScript.Grammar
