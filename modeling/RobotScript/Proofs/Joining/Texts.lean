import RobotScript.Proofs.Joining.Scripts

/-! # Texts behind texts

Scanning a text and then, behind a line break or a space, another gives the tokens of
both: no token goes on over these but a string, and a string that is not closed is
refused. Only a comment that is left open takes what stands behind it. -/
set_option autoImplicit false

namespace RobotScript

/-! ## Pieces before a line break or a space -/

/-- Every comment of a text ends in it. -/
inductive ClosesComments : List Char → Prop where
  | nil : ClosesComments []
  | cons {first : Char} {rest : List Char} (closes : first = '#' → '#' ∈ rest)
      (behind : ClosesComments (Piece.cut first rest).rest) : ClosesComments (first :: rest)

namespace Piece

variable {first : Char} {rest : List Char}

def before (piece : Piece) (more : List Char) : Piece := { piece with rest := piece.rest ++ more }

theorem takeWhile_before {goesOn : Char → Bool} {stop : Char} (stops : goesOn stop = false)
    (rest more : List Char) : (rest ++ stop :: more).takeWhile goesOn = rest.takeWhile goesOn := by
  induction rest with
  | nil => rw [List.nil_append, List.takeWhile_cons, stops]; rfl
  | cons character rest ih => rw [List.cons_append, List.takeWhile_cons, List.takeWhile_cons, ih]

theorem dropWhile_before {goesOn : Char → Bool} {stop : Char} (stops : goesOn stop = false)
    (rest more : List Char) :
    (rest ++ stop :: more).dropWhile goesOn = rest.dropWhile goesOn ++ stop :: more := by
  induction rest with
  | nil => rw [List.nil_append, List.dropWhile_cons, stops]; rfl
  | cons character rest ih =>
    rw [List.cons_append, List.dropWhile_cons, List.dropWhile_cons, ih]
    split <;> rfl

theorem pairOr_before {pairs : List (Char × TokenKind)} {stop : Char}
    (unpaired : pairs.lookup stop = none) (kind : TokenKind) (first : Char)
    (rest more : List Char) :
    pairOr kind pairs first (rest ++ stop :: more) =
      (pairOr kind pairs first rest).before (stop :: more) := by
  cases rest with
  | nil => simp only [List.nil_append, pairOr, unpaired]; rfl
  | cons second rest =>
    simp only [List.cons_append, pairOr]
    cases pairs.lookup second <;> rfl

theorem commentTail_before (closed : '#' ∈ rest) (more : List Char) :
    commentTail (rest ++ more) = ((commentTail rest).1, (commentTail rest).2 ++ more) := by
  induction rest with
  | nil => cases closed
  | cons character rest ih =>
    rw [List.cons_append, commentTail, commentTail]
    by_cases closes : character = '#'
    · rw [if_pos closes, if_pos closes]
    · have behind : '#' ∈ rest := (List.mem_cons.mp closed).resolve_left (Ne.symm closes)
      rw [if_neg closes, if_neg closes, ih behind]

theorem quotedTail_before (more : List Char) (closed : (quotedTail rest).closed = true) :
    quotedTail (rest ++ more) = { quotedTail rest with rest := (quotedTail rest).rest ++ more } := by
  fun_induction quotedTail rest with
  | case1 => cases closed
  | case2 =>
    rw [List.cons_append, quotedTail.eq_def]
    rfl
  | case3 => cases closed
  | case4 kept rest _ tail ih =>
    rw [List.cons_append, List.cons_append, quotedTail.eq_def]
    simp only [ih closed]
    rfl
  | case5 character rest opened plain tail ih =>
    rw [List.cons_append, quotedTail.eq_def]
    simp only [if_neg opened, if_neg plain, ih closed]
    rfl

theorem number_before {stop : Char} (stops : Decimal.isDigit stop = false) (noPoint : stop ≠ '.')
    (first : Char) (rest more : List Char) :
    number first (rest ++ stop :: more) = (number first rest).before (stop :: more) := by
  unfold number
  rw [takeWhile_before stops, dropWhile_before stops]
  cases rest.dropWhile Decimal.isDigit with
  | nil =>
    rw [List.nil_append]
    split
    next point =>
      cases point
      exact absurd rfl noPoint
    next => rfl
  | cons character others =>
    rw [List.cons_append]
    split
    next point =>
      cases point
      simp only [before, takeWhile_before stops, dropWhile_before stops]
    next whole =>
      split
      next point =>
        cases point
        exact absurd rfl (whole _)
      next => rfl

theorem word_before {stop : Char} (stops : isNameCharacter stop = false) (first : Char)
    (rest more : List Char) :
    word first (rest ++ stop :: more) = (word first rest).before (stop :: more) := by
  unfold word
  rw [takeWhile_before stops, dropWhile_before stops]
  rfl

theorem quoted_before (accepted : ∀ cause, (quoted rest).kind ≠ .refused cause)
    (more : List Char) : quoted (rest ++ more) = (quoted rest).before more := by
  cases closed : (quotedTail rest).closed with
  | true =>
    rw [quoted, quotedTail_before more closed]
    rfl
  | false =>
    refine absurd ?_ (accepted .unterminatedString)
    rw [quoted, closed]
    rfl

theorem cut_before {stop : Char} (separates : stop = '\n' ∨ stop = ' ')
    (closes : first = '#' → '#' ∈ rest)
    (accepted : ∀ cause, (cut first rest).kind ≠ .refused cause) (more : List Char) :
    cut first (rest ++ stop :: more) = (cut first rest).before (stop :: more) := by
  have comments (closed : '#' ∈ rest) :
      comment (rest ++ stop :: more) = (comment rest).before (stop :: more) := by
    rw [comment, commentTail_before closed]
    rfl
  have digit : Decimal.isDigit stop = false := by rcases separates with rfl | rfl <;> decide
  have point : stop ≠ '.' := by rcases separates with rfl | rfl <;> decide
  have letter : isNameCharacter stop = false := by rcases separates with rfl | rfl <;> decide
  revert accepted
  unfold cut
  split <;> intro accepted
  all_goals first
    | exact pairOr_before (by rcases separates with rfl | rfl <;> decide) _ _ _ _
    | exact comments (closes rfl)
    | exact quoted_before accepted _
    | (split
       · rfl
       · split
         · exact number_before digit point _ _ _
         · split
           · exact word_before letter _ _ _
           · rfl)
    | rfl

end Piece

theorem ClosesComments.of_absent {characters : List Char} (absent : '#' ∉ characters) :
    ClosesComments characters := by
  induction length : characters.length using Nat.strongRecOn generalizing characters with
  | _ length ih =>
    cases characters with
    | nil => exact .nil
    | cons first rest =>
      have absentBehind : '#' ∉ (Piece.cut first rest).rest := by
        intro member
        refine absent (List.mem_cons_of_mem _ ?_)
        rw [← Piece.cut_append first rest]
        exact List.mem_append_right _ member
      refine .cons (fun isHash => absurd (isHash ▸ List.mem_cons_self) absent) ?_
      refine ih _ ?_ absentBehind rfl
      rw [← length, List.length_cons]
      exact Nat.lt_succ_of_le (Piece.cut_rest_length first rest)

/-! ## Tokens wherever they stand -/

/-- The tokens of a text, without their spans and without the end. -/
inductive Scans : List Char → List (TokenKind × String) → Prop where
  | nil : Scans [] []
  | blank {first : Char} {rest : List Char} {shown : List (TokenKind × String)}
      (kind : (Piece.cut first rest).kind = .blank)
      (behind : Scans (Piece.cut first rest).rest shown) : Scans (first :: rest) shown
  | token {first : Char} {rest : List Char} {shown : List (TokenKind × String)}
      {kind : TokenKind} {lexeme : String}
      (isToken : (Piece.cut first rest).kind = .token kind lexeme)
      (behind : Scans (Piece.cut first rest).rest shown) :
      Scans (first :: rest) ((kind, lexeme) :: shown)

theorem of_lookup {α β : Type} [BEq α] [LawfulBEq α] {good : β → Prop} {table : List (α × β)}
    (listed : ∀ pair ∈ table, good pair.2) {key : α} {value : β}
    (found : table.lookup key = some value) : good value := by
  obtain ⟨front, back, rfl, -⟩ := List.lookup_eq_some_iff.mp found
  exact listed (key, value) (List.mem_append_right _ List.mem_cons_self)

namespace Piece

inductive Verbatim (good : TokenKind → Prop) (first : Char) : Piece → Prop where
  | intro {kind : TokenKind} (isGood : good kind) (taken rest : List Char) :
      Verbatim good first ⟨.token kind (String.ofList (first :: taken)), taken, rest⟩

section

variable {good : TokenKind → Prop} {kind : TokenKind}

theorem single_verbatim (isGood : good kind) (first : Char) (rest : List Char) :
    Verbatim good first (single kind first rest) := by
  rw [single, String.singleton_eq_ofList]
  exact .intro isGood [] rest

theorem pairOr_verbatim {pairs : List (Char × TokenKind)} (isGood : good kind)
    (paired : ∀ pair ∈ pairs, good pair.2) (first : Char) (rest : List Char) :
    Verbatim good first (pairOr kind pairs first rest) := by
  cases rest with
  | nil => exact single_verbatim isGood first []
  | cons second more =>
    rw [pairOr]
    split
    next found => exact .intro (of_lookup paired found) [second] more
    next => exact single_verbatim isGood first _

theorem word_verbatim (name : good .identifier)
    (keyword : ∀ pair ∈ TokenKind.keywords, good pair.2) (first : Char) (rest : List Char) :
    Verbatim good first (word first rest) := by
  refine .intro ?_ _ _
  rw [TokenKind.ofWord]
  cases found : TokenKind.keywords.lookup _ with
  | none => exact name
  | some kind => exact of_lookup keyword found

end

def NotEnd (piece : Piece) : Prop :=
  ∀ kind lexeme, piece.kind = .token kind lexeme → kind ≠ .eof

theorem Verbatim.notEnd {first : Char} {piece : Piece}
    (verbatim : Verbatim (· ≠ .eof) first piece) : piece.NotEnd := by
  obtain ⟨isGood, taken, rest⟩ := verbatim
  rintro _ _ ⟨⟩
  exact isGood

theorem quoted_notEnd (rest : List Char) : (quoted rest).NotEnd := by
  intro kind lexeme isToken
  rw [quoted] at isToken
  dsimp only at isToken
  split at isToken
  · cases isToken
    decide
  · cases isToken

theorem number_notEnd (first : Char) (rest : List Char) : (number first rest).NotEnd := by
  intro kind lexeme isToken
  rw [number] at isToken
  dsimp only at isToken
  split at isToken <;> dsimp only at isToken <;> split at isToken
  all_goals
    cases isToken
  all_goals decide

theorem cut_notEnd (first : Char) (rest : List Char) : (cut first rest).NotEnd := by
  unfold cut
  split
  all_goals first
    | exact (single_verbatim (by decide) _ _).notEnd
    | exact (pairOr_verbatim (by decide) (by decide) _ _).notEnd
    | (rintro _ _ ⟨⟩)
    | exact quoted_notEnd rest
    | skip
  split
  · rintro _ _ ⟨⟩
  · split
    · exact number_notEnd _ _
    · split
      · exact (word_verbatim (by decide) (by decide) _ _).notEnd
      · rintro _ _ ⟨⟩

end Piece

open Grammar (Ended)

theorem scans_of_scanFrom {position : Position} {characters : List Char} {tokens : List Token}
    (run : scanFrom position characters = .ok tokens) :
    ∃ ahead, Ended tokens ahead ∧ Scans characters (ahead.map Token.bare) := by
  fun_induction scanFrom position characters generalizing tokens with
  | case1 position =>
    cases run
    exact ⟨[], .nil position, .nil⟩
  | case2 position first rest piece span blank =>
    rename_i ih
    obtain ⟨ahead, ended, scans⟩ := ih run
    exact ⟨ahead, ended, .blank blank scans⟩
  | case3 => cases run
  | case4 => cases run
  | case5 position first rest piece span kind lexeme isToken tokens behind =>
    rename_i ih
    cases run
    obtain ⟨ahead, ended, scans⟩ := ih behind
    have goesOn := Piece.cut_notEnd first rest kind lexeme isToken
    exact ⟨⟨kind, lexeme, span⟩ :: ahead, ended.cons goesOn, .token isToken scans⟩

namespace Scans

variable {characters first second : List Char} {shown others : List (TokenKind × String)}

theorem scanFrom (scans : Scans characters shown) (position : Position) :
    ∃ tokens ahead, RobotScript.scanFrom position characters = .ok tokens ∧ Ended tokens ahead ∧
      ahead.map Token.bare = shown := by
  induction scans generalizing position with
  | nil =>
    refine ⟨_, [], ?_, .nil position, rfl⟩
    rw [RobotScript.scanFrom]
  | @blank first rest shown kind behind ih =>
    obtain ⟨tokens, ahead, run, ended⟩ :=
      ih (position.advanceOver (first :: (Piece.cut first rest).taken))
    refine ⟨tokens, ahead, ?_, ended⟩
    rw [RobotScript.scanFrom]
    simp only [kind, run]
  | @token first rest shown kind lexeme isToken behind ih =>
    let span : Span := ⟨position, position.advanceOver (first :: (Piece.cut first rest).taken)⟩
    obtain ⟨tokens, ahead, run, ended, same⟩ := ih span.stop
    have goesOn := Piece.cut_notEnd first rest kind lexeme isToken
    refine ⟨⟨kind, lexeme, span⟩ :: tokens, ⟨kind, lexeme, span⟩ :: ahead, ?_,
      ended.cons goesOn, congrArg ((kind, lexeme) :: ·) same⟩
    rw [RobotScript.scanFrom]
    simp only [isToken, run, span]

/-- Two texts with a line break or a space between them have the tokens of both. -/
theorem joined {stop : Char} (separates : stop = '\n' ∨ stop = ' ') (closes : ClosesComments first)
    (scans : Scans first shown) (scansOn : Scans second others) :
    Scans (first ++ stop :: second) (shown ++ others) := by
  induction scans with
  | nil => rcases separates with rfl | rfl <;> exact .blank rfl scansOn
  | @blank first rest shown kind behind ih =>
    cases closes with
    | cons closes closesBehind =>
      have same := Piece.cut_before separates closes (by rw [kind]; rintro _ ⟨⟩) second
      refine .blank ?_ ?_
      · exact (congrArg Piece.kind same).trans kind
      · exact (congrArg Piece.rest same) ▸ ih closesBehind
  | @token first rest shown tokenKind lexeme isToken behind ih =>
    cases closes with
    | cons closes closesBehind =>
      have same := Piece.cut_before separates closes (by rw [isToken]; rintro _ ⟨⟩) second
      refine .token ?_ ?_
      · exact (congrArg Piece.kind same).trans isToken
      · exact (congrArg Piece.rest same) ▸ ih closesBehind

end Scans

/-! ## Texts -/

theorem scan_ok {source : String} {tokens : List Token} (run : scan source = .ok tokens) :
    ∃ ahead, Ended tokens ahead ∧ Scans source.toList (ahead.map Token.bare) :=
  scans_of_scanFrom run

/-- Two texts, the second read in the context the first leaves, are read as one with a
line break between them. -/
theorem parseText_joined {first second : String} {context middle last : Context}
    {left right : Node} (closes : ClosesComments first.toList)
    (run : parseText first context = .ok (left, middle))
    (runOn : parseText second middle = .ok (right, last)) :
    ∃ root, parseText (first ++ "\n" ++ second) context = .ok (root, last) ∧
      Sames root.statements (left.statements ++ right.statements) := by
  obtain ⟨firstTokens, scanned, parsed⟩ := parseText_ok run
  obtain ⟨secondTokens, scannedOn, parsedOn⟩ := parseText_ok runOn
  obtain ⟨firstAhead, firstEnded, scans⟩ := scan_ok scanned
  obtain ⟨secondAhead, secondEnded, scansOn⟩ := scan_ok scannedOn
  obtain ⟨tokens, ahead, scannedAll, ended, same⟩ :=
    (scans.joined (.inl rfl) closes scansOn).scanFrom Position.start
  have joined : ahead.map Token.bare = (firstAhead ++ secondAhead).map Token.bare := by
    rw [same, List.map_append]
  obtain ⟨root, parsedAll, sames⟩ :=
    Grammar.parse_joined firstEnded secondEnded ended joined parsed parsedOn
  have whole : (first ++ "\n" ++ second).toList = first.toList ++ '\n' :: second.toList := by
    simp
  refine ⟨root, ?_, sames⟩
  rw [parseText, scan, whole, scannedAll]
  exact parsedAll

end RobotScript
