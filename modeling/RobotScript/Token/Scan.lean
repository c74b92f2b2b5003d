import RobotScript.Decimal.Numeral
import RobotScript.Fault
import RobotScript.Text.Blank
import RobotScript.Text.Letter
import RobotScript.Token

/-! # Scanning

`Piece.cut` says what stands at the front of a text, whatever comes before it:
a blank or a comment, a token, or characters that are neither. `scanFrom` cuts
piece after piece and gives each token its span. A piece takes at least one
character and never invents or drops any (`Piece.cut_append`), so scanning ends. -/
set_option autoImplicit false

namespace RobotScript

inductive PieceKind where
  | blank
  | token (kind : TokenKind) (lexeme : String)
  | refused (cause : LexicalCause)

/-- A piece of a text: what it is, the characters it takes behind its first, and
the text behind it. -/
structure Piece where
  kind : PieceKind
  taken : List Char
  rest : List Char

/-- A comment up to the next `#`, which belongs to it, or up to the end. -/
def commentTail : List Char → List Char × List Char
  | [] => ([], [])
  | character :: rest =>
    if character = '#' then ([character], rest)
    else
      let (taken, behind) := commentTail rest
      (character :: taken, behind)

/-- A string from behind its opening quote. -/
structure Quoted where
  closed : Bool
  content : List Char
  taken : List Char
  rest : List Char

/-- A backslash keeps the next character as it is; the first quote not kept so
closes the string. -/
def quotedTail : List Char → Quoted
  | [] => ⟨false, [], [], []⟩
  | character :: rest =>
    if character = '"' then ⟨true, [], [character], rest⟩
    else if character = '\\' then
      match rest with
      | [] => ⟨false, [], [character], []⟩
      | kept :: more =>
        let tail := quotedTail more
        ⟨tail.closed, kept :: tail.content, character :: kept :: tail.taken, tail.rest⟩
    else
      let tail := quotedTail rest
      ⟨tail.closed, character :: tail.content, character :: tail.taken, tail.rest⟩

/-- Names are made of letters and underscores, never of digits. -/
def isNameCharacter (character : Char) : Bool :=
  Text.isLetter character || character = '_'

namespace Piece

/-- A token of one character. -/
def single (kind : TokenKind) (first : Char) (rest : List Char) : Piece :=
  ⟨.token kind (String.singleton first), [], rest⟩

/-- A token of two characters if the second is one of those listed, otherwise a
token of one. -/
def pairOr (kind : TokenKind) (pairs : List (Char × TokenKind)) (first : Char)
    (rest : List Char) : Piece :=
  match rest with
  | [] => single kind first []
  | second :: more =>
    match pairs.lookup second with
    | some pairKind => ⟨.token pairKind (String.ofList [first, second]), [second], more⟩
    | none => single kind first (second :: more)

def comment (rest : List Char) : Piece :=
  ⟨.blank, (commentTail rest).1, (commentTail rest).2⟩

def quoted (rest : List Char) : Piece :=
  let tail := quotedTail rest
  ⟨if tail.closed then .token .string (String.ofList tail.content)
    else .refused .unterminatedString, tail.taken, tail.rest⟩

/-- Digits with at most one point; a second point begins the next token. -/
def number (first : Char) (rest : List Char) : Piece :=
  let digits := rest.takeWhile Decimal.isDigit
  match rest.dropWhile Decimal.isDigit with
  | '.' :: more =>
    let taken := digits ++ '.' :: more.takeWhile Decimal.isDigit
    let lexeme := String.ofList (first :: taken)
    ⟨if (Decimal.double? lexeme).isSome then .token .double lexeme
      else .refused (.invalidDouble lexeme), taken, more.dropWhile Decimal.isDigit⟩
  | behind =>
    let lexeme := String.ofList (first :: digits)
    ⟨if (Decimal.int? lexeme).isSome then .token .int lexeme
      else .refused (.intOutOfRange lexeme), digits, behind⟩

def word (first : Char) (rest : List Char) : Piece :=
  let taken := rest.takeWhile isNameCharacter
  let lexeme := String.ofList (first :: taken)
  ⟨.token (TokenKind.ofWord lexeme) lexeme, taken, rest.dropWhile isNameCharacter⟩

/-- The piece at the front of a text that is not empty. -/
def cut (first : Char) (rest : List Char) : Piece :=
  match first with
  | '(' => single .leftParen first rest
  | ')' => single .rightParen first rest
  | '{' => single .leftBrace first rest
  | '}' => single .rightBrace first rest
  | '[' => single .leftBracket first rest
  | ']' => single .rightBracket first rest
  | ',' => single .comma first rest
  | ':' => single .colon first rest
  | '.' => single .dot first rest
  | ';' => single .semicolon first rest
  | '*' => single .star first rest
  | '/' => single .slash first rest
  | '^' => single .caret first rest
  | '&' => single .and first rest
  | '|' => single .or first rest
  | '+' => pairOr .plus [('+', .plusPlus)] first rest
  | '-' => pairOr .minus [('-', .minusMinus)] first rest
  | '=' =>
    pairOr .equal [('=', .equalEqual), ('+', .equalPlus), ('-', .equalMinus), ('*', .equalStar),
      ('/', .equalSlash), ('^', .equalCaret)] first rest
  | '!' => pairOr .not [('=', .bangEqual)] first rest
  | '<' => pairOr .less [('=', .lessEqual)] first rest
  | '>' => pairOr .greater [('=', .greaterEqual)] first rest
  | '#' => comment rest
  | '"' => quoted rest
  | other =>
    if Text.isBlank other then ⟨.blank, [], rest⟩
    else if Decimal.isDigit other then number other rest
    else if isNameCharacter other then word other rest
    else ⟨.refused (.illegalCharacter other), [], rest⟩

end Piece

theorem commentTail_append (characters : List Char) :
    (commentTail characters).1 ++ (commentTail characters).2 = characters := by
  induction characters with
  | nil => rfl
  | cons character rest ih =>
    unfold commentTail
    split
    · rfl
    · simpa using ih

theorem quotedTail_append (characters : List Char) :
    (quotedTail characters).taken ++ (quotedTail characters).rest = characters := by
  fun_induction quotedTail characters with
  | case1 => rfl
  | case2 => rfl
  | case3 => rfl
  | case4 _ _ _ _ ih => simpa using ih
  | case5 _ _ _ _ _ ih => simpa using ih

namespace Piece

theorem pairOr_append (kind : TokenKind) (pairs : List (Char × TokenKind)) (first : Char)
    (rest : List Char) :
    (pairOr kind pairs first rest).taken ++ (pairOr kind pairs first rest).rest = rest := by
  unfold pairOr
  cases rest with
  | nil => rfl
  | cons second more =>
    dsimp only
    split <;> rfl

theorem number_append (first : Char) (rest : List Char) :
    (number first rest).taken ++ (number first rest).rest = rest := by
  unfold number
  dsimp only
  split
  next more behind =>
    rw [List.append_assoc, List.cons_append, List.takeWhile_append_dropWhile, ← behind,
      List.takeWhile_append_dropWhile]
  next => exact List.takeWhile_append_dropWhile

theorem cut_append (first : Char) (rest : List Char) :
    (cut first rest).taken ++ (cut first rest).rest = rest := by
  unfold cut
  split
  all_goals first
    | rfl
    | exact pairOr_append _ _ _ _
    | exact commentTail_append rest
    | exact quotedTail_append rest
    | (split
       · rfl
       · split
         · exact number_append _ _
         · split
           · exact List.takeWhile_append_dropWhile
           · rfl)

theorem cut_rest_length (first : Char) (rest : List Char) :
    (cut first rest).rest.length ≤ rest.length := by
  have whole := congrArg List.length (cut_append first rest)
  rw [List.length_append] at whole
  omega

end Piece

/-- The tokens of a text that starts at a position; an empty token marks its end. -/
def scanFrom (position : Position) (characters : List Char) : Except Fault (List Token) :=
  match characters with
  | [] => .ok [⟨.eof, "", Span.point position⟩]
  | first :: rest =>
    let piece := Piece.cut first rest
    let span : Span := ⟨position, position.advanceOver (first :: piece.taken)⟩
    match piece.kind with
    | .blank => scanFrom span.stop piece.rest
    | .refused cause => .error ⟨.lexical cause, span⟩
    | .token kind lexeme =>
      match scanFrom span.stop piece.rest with
      | .error fault => .error fault
      | .ok tokens => .ok (⟨kind, lexeme, span⟩ :: tokens)
termination_by characters.length
decreasing_by
  all_goals
    have shorter := Piece.cut_rest_length first rest
    simp only [List.length_cons]
    omega

def scan (source : String) : Except Fault (List Token) :=
  scanFrom Position.start source.toList

end RobotScript
