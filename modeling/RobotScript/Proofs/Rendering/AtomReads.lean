import RobotScript.Proofs.Rendering.ExpressionReads

/-! # Written atoms read back

Literals, names, calls, indices, assignments and lists: each is told apart by the
first tokens it is written with, and passes the checks that its typing promises. -/
set_option autoImplicit false

namespace RobotScript.Grammar

open Rendering Typing

section

variable {style : Style} {context : Context} {inner : Parse Node} {depth : Nat}

/-! ## Literals -/

theorem literal_run (value : Value) (reader : Reader) :
    literal value reader =
      .ok (⟨.literal value, value.ty, reader.peek.span⟩, reader.next) := rfl

/-- A value that a literal has is written as one token, which an atom reads as the
value. -/
theorem literal_readable {value : Value} {span : Span} (plain : Plain value.ty)
    (denotes : style.Denotes value) : Readable style context ⟨.literal value, value.ty, span⟩ := by
  have one : ∃ token, Rendering.literal style value = [token] ∧ opensUpTo token.kind = some 8 ∧
      ∀ inner reader, reader.peek = token → atom inner reader = literal value reader := by
    cases value with
    | int number =>
      refine ⟨_, rfl, rfl, ?_⟩
      intro inner reader is
      rw [atom, bind_peek, is]
      simp only [token, Decimal.int?_intText]
    | double number =>
      refine ⟨_, rfl, rfl, ?_⟩
      intro inner reader is
      have reads : Decimal.double? (style.number number) = some number := denotes
      rw [atom, bind_peek, is]
      simp only [token, reads]
    | bool truth =>
      refine ⟨_, rfl, rfl, ?_⟩
      intro inner reader is
      rw [atom, bind_peek, is]
      cases truth <;> rfl
    | string characters =>
      refine ⟨_, rfl, rfl, ?_⟩
      intro inner reader is
      rw [atom, bind_peek, is]
      rfl
    | list element items => exact absurd plain.1 Bool.noConfusion
    | void => exact absurd rfl plain.2
  obtain ⟨token, writes, opens, run⟩ := one
  have tokens : written style (.literal value) = [token] := by rw [written_literal, writes]
  apply Readable.of_atom rfl
  · exact ⟨token, [], 8, tokens, opens, Nat.le_refl 8⟩
  · intro depth _ reader rest here _
    simp only [tokens, List.singleton_append] at here
    refine ⟨_, _, (run _ _ here.peek).trans (literal_run value reader), here.next, rfl⟩

/-! ## Names -/

theorem variableType_run (name : Token) {ty : Ty} {reader : Reader} (here : At context reader)
    (found : context.variableType? name.lexeme = some ty) :
    variableType name reader = .ok (ty, reader) := by
  rw [variableType, bind_get, here.context, found]
  rfl

theorem functionSignature_run {name : Token} {signature : Signature} {reader : Reader}
    (here : At context reader) (found : context.signature? name.lexeme = some signature) :
    functionSignature name reader = .ok (signature, reader) := by
  rw [functionSignature, bind_get, here.context, found]
  rfl

section

variable {name : String} {more : List Token} {reader : Reader}

theorem atom_identifier (here : Before context (identifier name :: more) reader) :
    atom inner reader = nameForm inner reader := by
  rw [atom, bind_peek, here.peek]
  rfl

theorem attempt_call_absent (here : Before context (identifier name :: more) reader)
    (absent : kindAhead more ≠ .leftParen) :
    attempt (call inner) reader = .ok (none, reader) := by
  refine (attempt_none _ _ _).mpr ⟨rfl, reader.next, ?_⟩
  rw [call, bind_advance, bind_accept, if_neg (here.next.kind ▸ absent)]
  rfl

theorem attempt_index_absent (here : Before context (identifier name :: more) reader)
    (absent : kindAhead more ≠ .leftBracket) :
    attempt (index inner) reader = .ok (none, reader) := by
  refine (attempt_none _ _ _).mpr ⟨rfl, reader.next, ?_⟩
  rw [index, bind_advance, bind_accept, if_neg (here.next.kind ▸ absent)]
  rfl

theorem attempt_assignment_absent (here : Before context (identifier name :: more) reader)
    (absent : assignOp? (kindAhead more) = none) :
    attempt (assignment inner) reader = .ok (none, reader) := by
  refine (attempt_none _ _ _).mpr ⟨rfl, reader.next, ?_⟩
  rw [assignment, bind_advance, bind_peek, here.next.kind, absent]
  rfl

theorem nameForm_call {node : Node} {stop : Reader}
    (run : call inner reader = .ok (some node, stop)) :
    nameForm inner reader = .ok (node, stop) := by
  rw [nameForm, bind_of_ok ((attempt_some _ _ _ _).mpr run)]
  rfl

theorem nameForm_index {node : Node} {stop : Reader}
    (here : Before context (identifier name :: more) reader) (opens : kindAhead more = .leftBracket)
    (run : index inner reader = .ok (some node, stop)) :
    nameForm inner reader = .ok (node, stop) := by
  have notCall : kindAhead more ≠ .leftParen := by rw [opens]; exact TokenKind.noConfusion
  rw [nameForm, bind_of_ok (attempt_call_absent here notCall)]
  simp only
  rw [bind_of_ok ((attempt_some _ _ _ _).mpr run)]
  rfl

theorem nameForm_assignment {node : Node} {stop : Reader} {operator : AssignOp}
    (here : Before context (identifier name :: more) reader)
    (sign : assignOp? (kindAhead more) = some operator)
    (run : assignment inner reader = .ok (some node, stop)) :
    nameForm inner reader = .ok (node, stop) := by
  have notCall : kindAhead more ≠ .leftParen := by
    intro is
    rw [is] at sign
    cases sign
  have notIndex : kindAhead more ≠ .leftBracket := by
    intro is
    rw [is] at sign
    cases sign
  rw [nameForm, bind_of_ok (attempt_call_absent here notCall)]
  simp only
  rw [bind_of_ok (attempt_index_absent here notIndex)]
  simp only
  rw [bind_of_ok ((attempt_some _ _ _ _).mpr run)]
  rfl

theorem nameForm_variable (here : Before context (identifier name :: more) reader)
    (unapplied : Unapplied (kindAhead more)) :
    nameForm inner reader = variableUse reader := by
  rw [nameForm, bind_of_ok (attempt_call_absent here unapplied.1)]
  simp only
  rw [bind_of_ok (attempt_index_absent here unapplied.2.1)]
  simp only
  rw [bind_of_ok (attempt_assignment_absent here unapplied.2.2)]

end

theorem identifier_starts (name : String) (more : List Token) :
    Starts 8 (identifier name :: more) := ⟨_, _, 8, rfl, rfl, Nat.le_refl 8⟩

theorem name_readable {name : String} {ty : Ty} {span : Span}
    (found : context.variableType? name = some ty) :
    Readable style context ⟨.variable name, ty, span⟩ := by
  apply Readable.of_atom rfl
  · exact identifier_starts name []
  · intro depth _ reader rest here unapplied
    have there : Before context (identifier name :: rest) reader := here
    have isName : reader.peek.lexeme = name := by rw [there.peek]; rfl
    refine ⟨⟨.variable name, ty, reader.peek.span⟩, reader.next, ?_, there.next, rfl⟩
    rw [← isName] at found
    rw [atom_identifier there, nameForm_variable there unapplied, variableUse, bind_advance,
      bind_of_ok (variableType_run reader.peek there.toAt.next found), isName]
    rfl

/-! ## Arguments -/

theorem length_le_commaSeparated {tokens : List Token} {lists : List (List Token)}
    (member : tokens ∈ lists) : tokens.length ≤ (Rendering.commaSeparated lists).length := by
  induction lists with
  | nil => cases member
  | cons first rest ih =>
    cases rest with
    | nil => rw [List.mem_singleton.mp member, Rendering.commaSeparated]
    | cons next rest =>
      rw [Rendering.commaSeparated, List.length_append, List.length_cons]
      rcases List.mem_cons.mp member with rfl | member
      · omega
      · have := ih member
        omega

theorem length_le_each (style : Style) {nodes : List Node} {node : Node} (member : node ∈ nodes) :
    (written style node.form).length ≤
      (Rendering.commaSeparated (nodes.map (atPosition style 0))).length := by
  rw [← atPosition_zero]
  exact length_le_commaSeparated (List.mem_map_of_mem member)

theorem argument_reads {nodes before behind : List Node} {current : Node} {sofar : List Node}
    (readable : ∀ node ∈ nodes, Readable style context node)
    (short : ∀ node ∈ nodes, (written style node.form).length < depth)
    (split : nodes = before ++ current :: behind) (same : Sames sofar before) :
    Consumes (argument (read depth .expression) sofar) context context
      (atPosition style 0 current) Closing fun result => Sames result (before ++ [current]) := by
  intro reader rest here closing
  have member : current ∈ nodes := by
    rw [split]
    exact List.mem_append_right _ List.mem_cons_self
  rw [atPosition_zero] at here
  obtain ⟨made, stop, run, there, sameNode⟩ :=
    (readable current member).nested (short current member) here closing.ends
  refine ⟨sofar ++ [made], stop, ?_, there, same.append sameNode⟩
  rw [argument, bind_of_ok run]
  rfl

theorem arguments_reads {nodes : List Node} {reader : Reader} {rest : List Token}
    (readable : ∀ node ∈ nodes, Readable style context node)
    (short : ∀ node ∈ nodes, (written style node.form).length < depth)
    (here : Before context (Rendering.commaSeparated (nodes.map (atPosition style 0)) ++
      mark .rightParen :: rest) reader) :
    ∃ made stop, arguments (read depth .expression) reader = .ok (made, stop) ∧
      Before context (mark .rightParen :: rest) stop ∧ Sames made nodes := by
  cases nodes with
  | nil =>
    refine ⟨[], reader, ?_, here, .nil⟩
    have closes : reader.peek.kind = .rightParen := here.kind
    rw [arguments, bind_check, decide_eq_true closes]
    rfl
  | cons first others =>
    have starts := (readable first List.mem_cons_self).starts 0 (Nat.zero_le 8)
    have notClosed : reader.peek.kind ≠ .rightParen := by
      rw [here.kind]
      exact (commaSeparated_starts starts _).kindAhead_ne rfl _
    rw [arguments, bind_check, decide_eq_false notClosed]
    simp only [Bool.false_eq_true, if_false, Grammar.commaSeparated, bind_remaining]
    exact separated_reads (fun before sofar => Sames sofar before)
      (fun before current behind sofar split same => argument_reads readable short split same)
      (List.nil_append _).symm .nil here List.mem_cons_self TokenKind.noConfusion (Nat.le_refl _)

theorem misfit?_of_takes {function : String} {position : Nat} {made nodes : List Node}
    {types : List Ty} (same : Sames made nodes)
    (fits : List.Forall₂ (fun ty (node : Node) => ty.accepts node.ty = true) types nodes) :
    misfit? function position made types = none := by
  induction same generalizing position types with
  | nil => cases fits; rfl
  | cons head tail ih =>
    cases fits with
    | cons accepted others =>
      rw [misfit?, head.ty, if_pos accepted]
      exact ih others

theorem argumentFault?_of_takes (function : String) {parameters : Parameters}
    {made nodes : List Node} (same : Sames made nodes) (taken : Takes parameters nodes)
    (span : Span) : argumentFault? function parameters made span = none := by
  cases parameters with
  | anyNumber =>
    rw [argumentFault?, Option.map_eq_none_iff, List.find?_eq_none]
    intro argument member
    obtain ⟨node, nodeMember, sameNode⟩ := same.twin member
    have hasValue := taken node nodeMember
    rw [sameNode.ty]
    simpa [Ty.isVoid] using hasValue
  | exactly types =>
    have sameLength : ¬ made.length ≠ types.length := by
      rw [same.length_eq, ← List.Forall₂.length_eq taken]
      exact fun differs => differs rfl
    rw [argumentFault?, if_neg sameLength]
    exact misfit?_of_takes same taken

theorem call_readable {name : String} {arguments : List Node} {signature : Signature} {span : Span}
    (found : context.signature? name = some signature)
    (readable : ∀ argument ∈ arguments, Readable style context argument)
    (taken : Takes signature.parameters arguments) :
    Readable style context ⟨.call name arguments, signature.returns, span⟩ := by
  have tokens : written style (.call name arguments) =
      identifier name :: Rendering.grouped
        (Rendering.commaSeparated (arguments.map (atPosition style 0))) := by
    rw [written, each_eq_map]
  apply Readable.of_atom rfl
  · rw [tokens]
    exact identifier_starts name _
  · intro depth enough reader rest here _
    simp only [tokens, List.length_cons, grouped_length] at enough
    have short (argument : Node) (member : argument ∈ arguments) :
        (written style argument.form).length < depth := by
      have := length_le_each style member
      omega
    have there : Before context (identifier name :: mark .leftParen ::
        (Rendering.commaSeparated (arguments.map (atPosition style 0)) ++
          mark .rightParen :: rest)) reader := by
      simpa [tokens, Rendering.grouped] using here
    have isName : reader.peek.lexeme = name := by rw [there.peek]; rfl
    have opens : reader.next.peek.kind = .leftParen := there.next.kind
    obtain ⟨made, stop, run, stop_at, same⟩ := arguments_reads readable short there.next.next
    have closes : stop.peek.kind = .rightParen := stop_at.kind
    have fits := argumentFault?_of_takes name same taken
      (reader.peek.span.through stop.peek.span)
    rw [← isName] at found
    refine ⟨⟨.call name made, signature.returns, reader.peek.span.through stop.peek.span⟩,
      stop.next, ?_, stop_at.next, ?_⟩
    · rw [atom_identifier there]
      apply nameForm_call
      rw [call, bind_advance, bind_accept, if_pos opens]
      simp only [if_true]
      rw [bind_of_ok (functionSignature_run there.next.next.toAt found), bind_of_ok run,
        bind_expect, if_pos closes]
      simp only [isName, fits]
      rfl
    · unfold Typed.Same
      simp only [nodeWithoutSpans, Form.withoutSpans, same.withoutSpans]

/-! ## Indices and assignments -/

theorem index_readable {name : String} {position : Node} {ty : Ty} {span : Span}
    (found : context.variableType? name = some ty) (isList : ty.isList = true)
    (readable : Readable style context position) (isInt : position.ty = .int) :
    Readable style context ⟨.index name position, ty.element, span⟩ := by
  have tokens : written style (.index name position) =
      identifier name :: mark .leftBracket :: written style position.form ++
        [mark .rightBracket] := by
    rw [written, atPosition_zero]
  apply Readable.of_atom rfl
  · rw [tokens]
    exact identifier_starts name _
  · intro depth enough reader rest here _
    simp only [tokens, List.length_cons, List.cons_append, List.length_append] at enough
    have there : Before context (identifier name :: mark .leftBracket ::
        (written style position.form ++ mark .rightBracket :: rest)) reader := by
      simpa [tokens] using here
    have isName : reader.peek.lexeme = name := by rw [there.peek]; rfl
    have opens : reader.next.peek.kind = .leftBracket := there.next.kind
    have closing : Closing (kindAhead (mark .rightBracket :: rest)) := .tail _ List.mem_cons_self
    have short : (written style position.form).length < depth := by omega
    obtain ⟨made, stop, run, stop_at, same⟩ :=
      readable.nested short there.next.next closing.ends
    have closes : stop.peek.kind = .rightBracket := stop_at.kind
    rw [← isName] at found
    refine ⟨⟨.index name made, ty.element, reader.peek.span.through stop.peek.span⟩,
      stop.next, ?_, stop_at.next, ?_⟩
    · rw [atom_identifier there]
      apply nameForm_index there rfl
      rw [index, bind_advance, bind_accept, if_pos opens]
      simp only [if_true]
      rw [bind_of_ok (variableType_run reader.peek there.next.next.toAt found), if_pos isList, bind_of_ok run,
        if_pos (same.ty.trans isInt), bind_expect, if_pos closes, isName]
      rfl
    · unfold Typed.Same at same ⊢
      simp only [nodeWithoutSpans, Form.withoutSpans, same]

theorem assignKind_sign {operator : AssignOp}
    (writable : ∀ binary, operator = .compound binary → Combining binary) :
    assignOp? (assignKind operator) = some operator := by
  cases operator with
  | set => rfl
  | increment => rfl
  | decrement => rfl
  | compound binary =>
    have combining := writable binary rfl
    cases binary <;> first | rfl | exact absurd combining (by decide)

theorem assignment_readable {name : String} {operator : AssignOp} {value : Option Node} {ty : Ty}
    {span : Span} (found : context.variableType? name = some ty)
    (writable : ∀ binary, operator = .compound binary → Combining binary)
    (reads : ∀ depth sign, (optional style value).length < depth →
      Consumes (assignedValue (read depth .expression) ⟨.identifier, name, default⟩ ty operator sign)
        context context (optional style value) (Ends 0)
        fun made => optionWithoutSpans made = optionWithoutSpans value) :
    Readable style context ⟨.assign name operator value, ty, span⟩ := by
  have tokens : written style (.assign name operator value) =
      identifier name :: token (assignKind operator) operator.symbol :: optional style value := by
    rw [written]
  apply Readable.of_loose rfl
  · rw [tokens]
    exact (identifier_starts name _).looser (Nat.zero_le 8)
  · intro prefixed rest
    rw [tokens]
    cases prefixed <;> exact TokenKind.noConfusion
  · intro depth enough reader rest here ends
    simp only [tokens, List.length_cons] at enough
    have there : Before context (identifier name :: token (assignKind operator) operator.symbol ::
        (optional style value ++ rest)) reader := by
      simpa [tokens] using here
    have isName : reader.peek = ⟨.identifier, name, default⟩ := there.peek
    have sign := assignKind_sign writable
    obtain ⟨made, stop, run, stop_at, same⟩ :=
      reads depth reader.next.peek.span (by omega) there.next.next ends
    refine ⟨⟨.assign name operator made, ty, reader.peek.span.through
      ((made.map (·.span)).getD reader.next.peek.span)⟩, stop, ?_, stop_at, ?_⟩
    · rw [atom_identifier there]
      apply nameForm_assignment there sign
      have target := variableType_run reader.peek there.next.next.toAt
        (by rw [isName]; exact found)
      have signHere : assignOp? reader.next.peek.kind = some operator := by
        rw [there.next.kind]
        exact sign
      rw [assignment, bind_advance, bind_peek, signHere]
      simp only
      rw [bind_advance, bind_of_ok target, isName, bind_of_ok run]
      rfl
    · unfold Typed.Same
      simp only [nodeWithoutSpans, Form.withoutSpans, same]

theorem set_readable {name : String} {value : Node} {ty : Ty} {span : Span}
    (found : context.variableType? name = some ty) (readable : Readable style context value)
    (accepted : ty.accepts value.ty = true) :
    Readable style context ⟨.assign name .set (some value), ty, span⟩ := by
  apply assignment_readable found
  · intro binary isCompound
    cases isCompound
  · intro depth sign enough reader rest here ends
    rw [Rendering.optional, atPosition_zero] at enough here
    obtain ⟨made, stop, run, stop_at, same⟩ := readable.nested enough here ends
    refine ⟨some made, stop, ?_, stop_at, congrArg some same⟩
    rw [assignedValue]
    simp only
    rw [bind_of_ok run, same.ty, if_pos accepted]
    rfl

theorem combine_readable {name : String} {operator : BinaryOp} {value : Node} {ty result : Ty}
    {span : Span} (found : context.variableType? name = some ty) (combining : Combining operator)
    (readable : Readable style context value)
    (applies : operator.result? ty value.ty = some result) (accepted : ty.accepts result = true) :
    Readable style context ⟨.assign name (.compound operator) (some value), ty, span⟩ := by
  apply assignment_readable found
  · intro binary isCompound
    cases isCompound
    exact combining
  · intro depth sign enough reader rest here ends
    rw [Rendering.optional, atPosition_zero] at enough here
    obtain ⟨made, stop, run, stop_at, same⟩ := readable.nested enough here ends
    refine ⟨some made, stop, ?_, stop_at, congrArg some same⟩
    rw [assignedValue]
    simp only
    rw [bind_of_ok run, same.ty, if_pos (combines_iff.mpr ⟨result, applies, accepted⟩)]
    rfl

theorem count_readable {name : String} {operator : AssignOp} {ty : Ty} {span : Span}
    (found : context.variableType? name = some ty)
    (counting : operator = .increment ∨ operator = .decrement) (numeric : ty.isNumeric = true) :
    Readable style context ⟨.assign name operator none, ty, span⟩ := by
  apply assignment_readable found
  · rintro binary rfl
    rcases counting with isCompound | isCompound <;> cases isCompound
  · intro depth sign enough reader rest here ends
    refine ⟨none, reader, ?_, here, rfl⟩
    rcases counting with rfl | rfl <;> rw [assignedValue] <;> simp only [if_pos numeric] <;> rfl

/-! ## Lists -/

def ElementsSoFar (before : List Node) (sofar : List Node × Option Ty) : Prop :=
  Sames sofar.1 before ∧
    ((before = [] ∧ sofar.2 = none) ∨
      ∃ ty, sofar.2 = some ty ∧ before ≠ [] ∧ Common before ty)

theorem elementType_run {before behind : List Node} {current made : Node} {ty : Ty}
    {known : Option Ty} (all : Common (before ++ current :: behind) ty) (plain : Plain current.ty)
    (same : made.Same current)
    (sofar : (before = [] ∧ known = none) ∨
      ∃ ty, known = some ty ∧ before ≠ [] ∧ Common before ty) (reader : Reader) :
    ∃ next, elementType known made reader = .ok (next, reader) ∧
      Common (before ++ [current]) next := by
  have isPlain : ¬ (made.ty.isList || made.ty.isVoid) = true := by
    rw [same.ty, plain.1, Bool.false_or]
    simpa [Ty.isVoid] using plain.2
  unfold elementType
  rw [if_neg isPlain]
  rcases sofar with ⟨rfl, rfl⟩ | ⟨known, rfl, nonempty, common⟩
  · refine ⟨current.ty, ?_, .inl ?_⟩
    · rw [same.ty]
      rfl
    · intro element member
      rw [List.nil_append, List.mem_singleton] at member
      rw [member]
  · simp only
    by_cases equal : known = current.ty
    · refine ⟨known, ?_, ?_⟩
      · rw [same.ty, if_pos equal]
        rfl
      · subst equal
        exact common.append_same
    · rcases all.goesWith nonempty common with isSame | ⟨numeric, otherNumeric⟩
      · exact absurd isSame equal
      · refine ⟨.double, ?_, common.append_numeric nonempty equal numeric otherNumeric⟩
        rw [same.ty, if_neg equal, numeric, otherNumeric]
        rfl

theorem element_reads {nodes before behind : List Node} {current : Node} {ty : Ty}
    {sofar : List Node × Option Ty} (readable : ∀ node ∈ nodes, Readable style context node)
    (short : ∀ node ∈ nodes, (written style node.form).length < depth)
    (plain : ∀ node ∈ nodes, Plain node.ty) (common : Common nodes ty)
    (split : nodes = before ++ current :: behind) (earlier : ElementsSoFar before sofar) :
    Consumes (element (read depth .expression) sofar) context context
      (atPosition style 0 current) Closing (ElementsSoFar (before ++ [current])) := by
  intro reader rest here closing
  have member : current ∈ nodes := by
    rw [split]
    exact List.mem_append_right _ List.mem_cons_self
  rw [split] at common
  rw [atPosition_zero] at here
  obtain ⟨made, stop, run, there, same⟩ :=
    (readable current member).nested (short current member) here closing.ends
  obtain ⟨next, typing, commonNext⟩ :=
    elementType_run common (plain current member) same earlier.2 stop
  refine ⟨(sofar.1 ++ [made], some next), stop, ?_, there, earlier.1.append same, .inr ?_⟩
  · rw [element, bind_of_ok run, bind_of_ok typing]
    rfl
  · exact ⟨next, rfl, List.append_ne_nil_of_right_ne_nil _ (List.cons_ne_nil _ _), commonNext⟩

theorem list_readable {elements : List Node} {ty : Ty} {span : Span} (nonempty : elements ≠ [])
    (readable : ∀ element ∈ elements, Readable style context element)
    (plain : ∀ element ∈ elements, Plain element.ty) (common : Common elements ty) :
    Readable style context ⟨.list elements, .listOf ty.primitive, span⟩ := by
  have tokens : written style (.list elements) =
      mark .leftBracket :: Rendering.commaSeparated (elements.map (atPosition style 0)) ++
        [mark .rightBracket] := by
    rw [written, each_eq_map]
  apply Readable.of_atom rfl
  · rw [tokens]
    exact ⟨_, _, 8, rfl, rfl, Nat.le_refl 8⟩
  · intro depth enough reader rest here _
    simp only [tokens, List.length_cons, List.cons_append, List.length_append] at enough
    have short (element : Node) (member : element ∈ elements) :
        (written style element.form).length < depth := by
      have := length_le_each style member
      omega
    cases elements with
    | nil => exact absurd rfl nonempty
    | cons first others =>
      have there : Before context (mark .leftBracket ::
          (Rendering.commaSeparated ((first :: others).map (atPosition style 0)) ++
            mark .rightBracket :: rest)) reader := by
        simpa [tokens] using here
      have opens : reader.peek.kind = .leftBracket := there.kind
      have starts := (readable first List.mem_cons_self).starts 0 (Nat.zero_le 8)
      have notClosed : reader.next.peek.kind ≠ .rightBracket := by
        rw [there.next.kind]
        exact (commaSeparated_starts starts _).kindAhead_ne rfl _
      have empty : ElementsSoFar [] (([], none) : List Node × Option Ty) := ⟨.nil, .inl ⟨rfl, rfl⟩⟩
      obtain ⟨⟨made, known⟩, stop, run, stop_at, same, typing⟩ :=
        separated_reads ElementsSoFar
          (fun before current behind sofar split earlier =>
            element_reads readable short plain common split earlier)
          (List.nil_append _).symm empty there.next
          (.tail _ List.mem_cons_self) TokenKind.noConfusion (Nat.le_refl _)
      obtain ⟨result, rfl, commonAll⟩ : ∃ result, known = some result ∧
          Common (first :: others) result := by
        rcases typing with ⟨empty, -⟩ | ⟨result, isKnown, -, commonAll⟩
        · cases empty
        · exact ⟨result, isKnown, commonAll⟩
      obtain rfl := commonAll.unique nonempty common
      have elementsRun : Grammar.commaSeparated (element (read depth .expression)) ([], none)
          reader.next = .ok ((made, some result), stop) := by
        rw [Grammar.commaSeparated, bind_remaining]
        exact run
      have closes : stop.peek.kind = .rightBracket := stop_at.kind
      refine ⟨⟨.list made, .listOf result.primitive,
        reader.peek.span.through stop.peek.span⟩, stop.next, ?_, stop_at.next, ?_⟩
      · rw [atom, bind_peek, opens]
        simp only [listLiteral]
        rw [bind_advance, bind_check, decide_eq_false notClosed]
        simp only [Bool.false_eq_true, if_false]
        rw [bind_of_ok elementsRun]
        simp only
        rw [bind_expect, if_pos closes]
        rfl
      · unfold Typed.Same
        simp only [nodeWithoutSpans, Form.withoutSpans, same.withoutSpans]

end

end RobotScript.Grammar
