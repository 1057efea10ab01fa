import MarketScript.Source.Position

/-!
# Tokens

The words of the script language.  There are no reserved words: a keyword is a bare word like any
other.
-/

namespace MarketScript

/-- What a token is. -/
inductive TokenKind where
  /-- A bare token: name, number or address. -/
  | word
  /-- A quoted text. -/
  | str
  | leftParen
  | rightParen
  /-- The end of a line outside parentheses. -/
  | newline
  | eof
deriving DecidableEq, Repr, Inhabited

namespace TokenKind

/-- The name of a kind in listings of tokens. -/
def name : TokenKind → String
  | word => "Word"
  | str => "Str"
  | leftParen => "LeftParen"
  | rightParen => "RightParen"
  | newline => "Newline"
  | eof => "Eof"

/-- All kinds. -/
def all : List TokenKind := [word, str, leftParen, rightParen, newline, eof]

/-- The kind of a given name. -/
def ofName? (name : String) : Option TokenKind := all.find? (·.name == name)

/-- Names tell kinds apart. -/
@[simp] theorem ofName?_name (k : TokenKind) : ofName? k.name = some k := by
  cases k <;> decide

end TokenKind

/-- A token with the span of text it was read from.  The lexeme of a quoted text is its content
    with escapes replaced; that of every other token is the text itself. -/
structure Token where
  kind : TokenKind
  lexeme : String
  span : Span
deriving DecidableEq, Repr, Inhabited

/-- The form `Kind(lexeme)`. -/
def Token.text (t : Token) : String := s!"{t.kind.name}({t.lexeme})"

end MarketScript
