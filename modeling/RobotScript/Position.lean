/-! # Positions and spans in a script

A position counts characters (Unicode scalar values), lines and columns from
zero; only a line feed starts a new line. A span is the half-open range between
two positions. -/
set_option autoImplicit false

namespace RobotScript

structure Position where
  index : Nat
  line : Nat
  column : Nat
deriving DecidableEq, Repr

namespace Position

def start : Position := ⟨0, 0, 0⟩

instance : Inhabited Position := ⟨start⟩

def advance (position : Position) (character : Char) : Position :=
  if character = '\n' then
    ⟨position.index + 1, position.line + 1, 0⟩
  else
    ⟨position.index + 1, position.line, position.column + 1⟩

def advanceOver (position : Position) (characters : List Char) : Position :=
  characters.foldl advance position

/-- Positions are shown counting from one. -/
def text (position : Position) : String :=
  s!"[line: {position.line + 1}, Column: {position.column + 1}]"

theorem advance_index (position : Position) (character : Char) :
    (position.advance character).index = position.index + 1 := by
  unfold advance
  split <;> rfl

@[simp] theorem advanceOver_cons (position : Position) (character : Char) (rest : List Char) :
    position.advanceOver (character :: rest) = (position.advance character).advanceOver rest := rfl

theorem advanceOver_append (position : Position) (first second : List Char) :
    position.advanceOver (first ++ second) = (position.advanceOver first).advanceOver second :=
  List.foldl_append

theorem advanceOver_index (position : Position) (characters : List Char) :
    (position.advanceOver characters).index = position.index + characters.length := by
  induction characters generalizing position with
  | nil => rfl
  | cons character rest ih =>
    rw [advanceOver_cons, ih, advance_index, List.length_cons]
    omega

end Position

structure Span where
  start : Position
  stop : Position
deriving DecidableEq, Repr

namespace Span

instance : Inhabited Span := ⟨⟨Position.start, Position.start⟩⟩

def point (position : Position) : Span := ⟨position, position⟩

/-- From the start of the first span to the end of the second. -/
def through (first second : Span) : Span := ⟨first.start, second.stop⟩

/-- The character range of a span, cut to a text of the given length; it never
ends before it starts. -/
def charRange (span : Span) (length : Nat) : Nat × Nat :=
  let first := min span.start.index length
  (first, max first (min span.stop.index length))

end Span

end RobotScript
