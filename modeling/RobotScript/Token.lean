import RobotScript.Position

/-! # Tokens

The words and signs of the language. A token's lexeme is its text in the script;
that of a string token is the text between the quotes with escapes resolved. -/
set_option autoImplicit false

namespace RobotScript

inductive TokenKind where
  | leftParen
  | rightParen
  | leftBrace
  | rightBrace
  | leftBracket
  | rightBracket
  | comma
  | colon
  | dot
  | semicolon
  | star
  | slash
  | caret
  | plus
  | plusPlus
  | minus
  | minusMinus
  | equal
  | equalEqual
  | equalPlus
  | equalMinus
  | equalStar
  | equalSlash
  | equalCaret
  | bangEqual
  | greater
  | greaterEqual
  | less
  | lessEqual
  | identifier
  | string
  | int
  | double
  | bool
  | intType
  | doubleType
  | boolType
  | stringType
  | voidType
  | and
  | or
  | not
  | if
  | elif
  | try
  | eltry
  | else
  | repeat
  | loop
  | while
  | return
  | continue
  | break
  | func
  | eof
deriving DecidableEq, Repr

structure Token where
  kind : TokenKind
  lexeme : String
  span : Span
deriving DecidableEq, Repr

namespace TokenKind

def keywords : List (String × TokenKind) :=
  [("true", .bool), ("false", .bool), ("and", .and), ("or", .or), ("not", .not), ("if", .if),
   ("elif", .elif), ("try", .try), ("eltry", .eltry), ("else", .else), ("repeat", .repeat),
   ("loop", .loop), ("while", .while), ("return", .return), ("continue", .continue),
   ("break", .break), ("func", .func), ("int", .intType), ("double", .doubleType),
   ("bool", .boolType), ("string", .stringType), ("void", .voidType)]

def ofWord (word : String) : TokenKind :=
  (keywords.lookup word).getD .identifier

end TokenKind

end RobotScript
