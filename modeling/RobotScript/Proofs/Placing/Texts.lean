import RobotScript.Token.Scan

/-! # Places in a text

A position lies in a text if it is the one behind some of its first characters, and so a
span that lies in a text is a range of its characters, which no cut changes. The tokens
of a text lie in it one behind the other, and so do the characters that are refused.
Spans of whole tokens are put together from the start of one to the stop of another, and
spans that stand in a row are in order and do not overlap. -/
set_option autoImplicit false

namespace RobotScript

variable {text rest : List Char}

/-! ## Positions and spans -/

/-- The position is the one at which this rest of the text begins. -/
def Position.At (text rest : List Char) (position : Position) : Prop :=
  ∃ front, text = front ++ rest ∧ position = Position.start.advanceOver front

/-- The position is one of the text, or the one at its end. -/
def Position.In (text : List Char) (position : Position) : Prop := ∃ rest, position.At text rest

namespace Position

variable {position : Position}

theorem at_start (text : List Char) : Position.start.At text text := ⟨[], rfl, rfl⟩

theorem At.advanceOver {taken : List Char} (here : position.At text (taken ++ rest)) :
    (position.advanceOver taken).At text rest := by
  obtain ⟨front, rfl, rfl⟩ := here
  exact ⟨front ++ taken, (List.append_assoc ..).symm, (advanceOver_append ..).symm⟩

theorem In.index_le (within : position.In text) : position.index ≤ text.length := by
  obtain ⟨rest, front, rfl, rfl⟩ := within
  have length : (start.advanceOver front).index = front.length := by
    rw [advanceOver_index]
    exact Nat.zero_add _
  rw [length, List.length_append]
  exact Nat.le_add_right _ _

end Position

def Span.Fits (length : Nat) (span : Span) : Prop :=
  span.start.index ≤ span.stop.index ∧ span.stop.index ≤ length

instance (length : Nat) (span : Span) : Decidable (span.Fits length) :=
  inferInstanceAs (Decidable (_ ∧ _))

theorem Span.fits_iff {length : Nat} {span : Span} :
    span.Fits length ↔ span.charRange length = (span.start.index, span.stop.index) := by
  rw [Fits, charRange, Prod.mk.injEq]
  omega

/-- The span runs from one position of the text to another that does not come before it. -/
structure Span.In (text : List Char) (span : Span) : Prop where
  start : span.start.In text
  stop : span.stop.In text
  ordered : span.start.index ≤ span.stop.index

namespace Span.In

variable {span first second : Span}

theorem point {position : Position} (within : position.In text) : (Span.point position).In text :=
  ⟨within, within, Nat.le_refl _⟩

theorem through (one : first.In text) (two : second.In text)
    (ordered : first.start.index ≤ second.stop.index) : (first.through second).In text :=
  ⟨one.start, two.stop, ordered⟩

theorem fits (within : span.In text) : span.Fits text.length :=
  ⟨within.ordered, within.stop.index_le⟩

end Span.In

def Token.Of (text : List Char) (token : Token) : Prop :=
  ∃ tokens, scanFrom .start text = .ok tokens ∧ token ∈ tokens

structure Span.Aligned (text : List Char) (span : Span) : Prop where
  start : ∃ token : Token, token.Of text ∧ span.start = token.span.start
  stop : ∃ token : Token, token.Of text ∧ span.stop = token.span.stop

theorem Token.Of.aligned {token : Token} (isToken : token.Of text) : token.span.Aligned text :=
  ⟨⟨token, isToken, rfl⟩, token, isToken, rfl⟩

/-- The span is one of whole tokens of a text, between two of its places. -/
structure Span.Lies (text : List Char) (low high : Nat) (span : Span) : Prop where
  within : span.In text
  aligned : span.Aligned text
  starts : low ≤ span.start.index
  stops : span.stop.index ≤ high

namespace Span.Lies

variable {low middle high : Nat} {first second : Span}

theorem widen {less more : Nat} (lies : first.Lies text low high) (before : less ≤ low)
    (behind : high ≤ more) : first.Lies text less more :=
  ⟨lies.within, lies.aligned, Nat.le_trans before lies.starts, Nat.le_trans lies.stops behind⟩

theorem tight (lies : first.Lies text low high) :
    first.Lies text first.start.index first.stop.index :=
  ⟨lies.within, lies.aligned, Nat.le_refl _, Nat.le_refl _⟩

theorem start_le (lies : first.Lies text low high) : first.start.index ≤ high :=
  Nat.le_trans lies.within.ordered lies.stops

theorem le_stop (lies : first.Lies text low high) : low ≤ first.stop.index :=
  Nat.le_trans lies.starts lies.within.ordered

theorem onwards (one : first.Lies text low middle)
    (two : second.Lies text first.start.index high) : (first.through second).Lies text low high :=
  ⟨one.within.through two.within two.le_stop, ⟨one.aligned.start, two.aligned.stop⟩, one.starts,
    two.stops⟩

/-- From a span to one that begins where the first is over, or later. -/
theorem through {later : Nat} (one : first.Lies text low middle) (behind : middle ≤ later)
    (two : second.Lies text later high) : (first.through second).Lies text low high :=
  one.onwards (two.widen (Nat.le_trans one.start_le behind) (Nat.le_refl _))

end Span.Lies

/-! ## Rows -/

/-- The spans stand between two places in their order, and none overlaps another. -/
structure Row (low high : Nat) (spans : List Span) : Prop where
  ordered : low ≤ high
  inside : ∀ span ∈ spans, low ≤ span.start.index ∧ span.start.index ≤ span.stop.index ∧
    span.stop.index ≤ high
  apart : spans.Pairwise fun one two => one.stop.index ≤ two.start.index

namespace Row

variable {low middle high : Nat} {spans others : List Span} {span : Span}

theorem nil (ordered : low ≤ high) : Row low high [] := ⟨ordered, by rintro _ ⟨⟩, .nil⟩

theorem single (starts : low ≤ span.start.index) (ordered : span.start.index ≤ span.stop.index)
    (stops : span.stop.index ≤ high) : Row low high [span] := by
  refine ⟨by omega, fun other member => ?_, List.pairwise_singleton _ _⟩
  obtain rfl := List.mem_singleton.mp member
  exact ⟨starts, ordered, stops⟩

theorem widen {less more : Nat} (row : Row low high spans) (before : less ≤ low)
    (behind : high ≤ more) : Row less more spans := by
  refine ⟨Nat.le_trans before (Nat.le_trans row.ordered behind), fun span member => ?_, row.apart⟩
  obtain ⟨starts, ordered, stops⟩ := row.inside span member
  exact ⟨Nat.le_trans before starts, ordered, Nat.le_trans stops behind⟩

theorem append (one : Row low middle spans) (two : Row middle high others) :
    Row low high (spans ++ others) := by
  have first := (one.widen (Nat.le_refl low) two.ordered).inside
  have second := (two.widen one.ordered (Nat.le_refl high)).inside
  refine ⟨Nat.le_trans one.ordered two.ordered, ?_, ?_⟩
  · exact fun span member => (List.mem_append.mp member).elim (first span) (second span)
  · refine List.pairwise_append.mpr ⟨one.apart, two.apart, fun left leftMember right member => ?_⟩
    exact Nat.le_trans (one.inside left leftMember).2.2 (two.inside right member).1

theorem upto_last (row : Row low high (spans ++ [span])) :
    Row low span.stop.index (spans ++ [span]) := by
  obtain ⟨starts, ordered, -⟩ :=
    row.inside span (List.mem_append_right _ (List.mem_singleton_self span))
  refine ⟨Nat.le_trans starts ordered, fun other member => ?_, row.apart⟩
  obtain ⟨otherStarts, otherOrdered, -⟩ := row.inside other member
  refine ⟨otherStarts, otherOrdered, ?_⟩
  rcases List.mem_append.mp member with earlier | last
  · have apart := (List.pairwise_append.mp row.apart).2.2 other earlier span
      (List.mem_singleton_self span)
    exact Nat.le_trans apart ordered
  · exact Nat.le_of_eq (congrArg (·.stop.index) (List.mem_singleton.mp last))

/-- Rows inside the spans of a row are a row together. -/
theorem flatMap {α : Type} {items : List α} {outer : α → Span} {inner : α → List Span}
    (row : Row low high (items.map outer))
    (rows : ∀ item ∈ items, Row (outer item).start.index (outer item).stop.index (inner item)) :
    Row low high (items.flatMap inner) := by
  have outside {item : α} (member : item ∈ items) : low ≤ (outer item).start.index ∧
      (outer item).stop.index ≤ high :=
    have inside := row.inside (outer item) (List.mem_map_of_mem member)
    ⟨inside.1, inside.2.2⟩
  refine ⟨row.ordered, fun span member => ?_, ?_⟩
  · obtain ⟨item, isItem, isInner⟩ := List.mem_flatMap.mp member
    exact ((rows item isItem).widen (outside isItem).1 (outside isItem).2).inside span isInner
  · refine List.pairwise_flatMap.mpr ⟨fun item member => (rows item member).apart, ?_⟩
    refine (List.pairwise_map.mp row.apart).imp_of_mem fun {left right} isLeft isRight apart => ?_
    intro first isFirst second isSecond
    calc first.stop.index ≤ (outer left).stop.index :=
          ((rows left isLeft).inside first isFirst).2.2
      _ ≤ (outer right).start.index := apart
      _ ≤ second.start.index := ((rows right isRight).inside second isSecond).1

end Row

/-! ## Tokens -/

/-- The tokens lie in a text one behind the other, none before a place; the last one marks
the end and is empty. -/
inductive Spread (text : List Char) : Nat → List Token → Prop
  | last {low : Nat} {token : Token} (within : token.span.In text)
      (starts : low ≤ token.span.start.index) (empty : token.span.stop = token.span.start) :
      Spread text low [token]
  | cons {low : Nat} {token : Token} {tokens : List Token} (within : token.span.In text)
      (starts : low ≤ token.span.start.index) (behind : Spread text token.span.stop.index tokens) :
      Spread text low (token :: tokens)

namespace Spread

variable {low : Nat} {token : Token} {tokens : List Token}

theorem mono {less : Nat} (spread : Spread text low tokens) (before : less ≤ low) :
    Spread text less tokens := by
  cases spread with
  | last within starts empty => exact .last within (Nat.le_trans before starts) empty
  | cons within starts behind => exact .cons within (Nat.le_trans before starts) behind

theorem head (spread : Spread text low (token :: tokens)) :
    token.span.In text ∧ low ≤ token.span.start.index ∧
      Spread text token.span.start.index (token :: tokens) := by
  cases spread with
  | last within starts empty => exact ⟨within, starts, .last within (Nat.le_refl _) empty⟩
  | cons within starts behind => exact ⟨within, starts, .cons within (Nat.le_refl _) behind⟩

theorem tail (spread : Spread text low (token :: tokens)) (more : tokens ≠ []) :
    Spread text token.span.stop.index tokens := by
  cases spread with
  | last => exact absurd rfl more
  | cons within starts behind => exact behind

theorem final (spread : Spread text low [token]) : Spread text token.span.stop.index [token] := by
  cases spread with
  | last within _ empty => exact .last within (Nat.le_of_eq (congrArg Position.index empty)) empty
  | cons _ _ behind => cases behind

end Spread

/-! ## Scanning -/

theorem Piece.cut_at {position : Position} {first : Char}
    (here : position.At text (first :: rest)) :
    let span : Span := ⟨position, position.advanceOver (first :: (cut first rest).taken)⟩
    span.In text ∧ span.stop.At text (cut first rest).rest := by
  have whole : first :: rest = (first :: (cut first rest).taken) ++ (cut first rest).rest :=
    congrArg (first :: ·) (cut_append first rest).symm
  have behind := (whole ▸ here : position.At text _).advanceOver
  refine ⟨⟨⟨_, here⟩, ⟨_, behind⟩, ?_⟩, behind⟩
  exact (Position.advanceOver_index ..).symm ▸ Nat.le_add_right _ _

/-- Scanning on from a place of a text gives tokens that lie behind it in the text, or it
refuses characters of the text. -/
theorem scanFrom_spread {position : Position} {characters : List Char}
    (here : position.At text characters) :
    (∀ tokens, scanFrom position characters = .ok tokens → Spread text position.index tokens) ∧
      ∀ fault, scanFrom position characters = .error fault → fault.span.In text := by
  fun_induction scanFrom position characters with
  | case1 position =>
    refine ⟨?_, by rintro _ ⟨⟩⟩
    rintro _ ⟨⟩
    exact .last (.point ⟨[], here⟩) (Nat.le_refl _) rfl
  | case2 position first rest piece span blank ih =>
    obtain ⟨within, behind⟩ := Piece.cut_at here
    obtain ⟨spread, refused⟩ := ih behind
    exact ⟨fun tokens run => (spread tokens run).mono within.ordered, refused⟩
  | case3 position first rest piece span cause kind =>
    refine ⟨by rintro _ ⟨⟩, ?_⟩
    rintro _ ⟨⟩
    exact (Piece.cut_at here).1
  | case4 position first rest piece span kind lexeme isToken fault failed ih =>
    refine ⟨by rintro _ ⟨⟩, ?_⟩
    rintro _ ⟨⟩
    exact (ih (Piece.cut_at here).2).2 fault failed
  | case5 position first rest piece span kind lexeme isToken tokens scanned ih =>
    obtain ⟨within, behind⟩ := Piece.cut_at here
    refine ⟨?_, by rintro _ ⟨⟩⟩
    rintro _ ⟨⟩
    exact .cons within (Nat.le_refl _) ((ih behind).1 tokens scanned)

end RobotScript
