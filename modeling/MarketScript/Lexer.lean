import MarketScript.Source.Diagnostic
import MarketScript.Text.Blank
import MarketScript.Token

/-!
# Reading tokens

Text is read one character at a time by an automaton, so what has been read of a text depends on
nothing after it, and reading two texts in a row is one fold after the other.

A newline is a token only outside parentheses, and never the first token or one after another
newline.  `--` where a token could begin starts a comment, which runs up to the end of its line.  In
a quoted text `\n`, `\t`, `\"` and `\\` are escapes; the text must end before its line does.
-/

namespace MarketScript.Lexer

/-- What the automaton is in the middle of. -/
inductive Mode where
  /-- Between tokens. -/
  | idle
  /-- After a hyphen where a token begins: the start of a comment or of a word. -/
  | hyphen (start : Position)
  | comment
  /-- In a word; its characters so far, the last first. -/
  | word (start : Position) (chars : List Char)
  /-- In a quoted text; its content so far, the last character first. -/
  | quoted (start : Position) (chars : List Char)
  /-- In a quoted text after a backslash. -/
  | escape (start : Position) (chars : List Char)
deriving DecidableEq, Repr

/-- The automaton after part of a text. -/
structure State where
  position : Position := .start
  /-- How many parentheses are open; a stray closing one does not count. -/
  depth : Nat := 0
  mode : Mode := .idle
  /-- The tokens so far, the last first. -/
  tokens : List Token := []
  /-- What was wrong so far, the last first. -/
  diagnostics : List Diagnostic := []
deriving DecidableEq, Repr

/-- The characters that continue a word. -/
def isWordChar (c : Char) : Bool :=
  ! isBlank c && c != '(' && c != ')' && c != '"'

namespace State

/-- One more token. -/
def emit (s : State) (kind : TokenKind) (lexeme : String) (span : Span) : State :=
  { s with tokens := ⟨kind, lexeme, span⟩ :: s.tokens }

/-- One more diagnostic. -/
def report (s : State) (message : String) (span : Span) : State :=
  { s with diagnostics := { message, span } :: s.diagnostics }

/-- A line ends: a token, unless no other token stands on the line. -/
def endLine (s : State) (span : Span) : State :=
  match s.tokens with
  | [] => s
  | last :: _ => if last.kind = .newline then s else s.emit .newline "\n" span

/-- A word is complete. -/
def endWord (s : State) (start : Position) (chars : List Char) : State :=
  { s.emit .word (String.ofList chars.reverse) ⟨start, s.position⟩ with mode := .idle }

/-- A quoted text is complete. -/
def endQuoted (s : State) (start : Position) (chars : List Char) : State :=
  { s.emit .str (String.ofList chars.reverse) ⟨start, s.position⟩ with mode := .idle }

/-- A quoted text is broken off by the end of its line or of the script. -/
def breakQuoted (s : State) (start : Position) (chars : List Char) : State :=
  (s.report "unterminated string literal" ⟨start, s.position⟩).endQuoted start chars

/-- A character between tokens, at `start`; the state has already moved past it. -/
def begin (s : State) (start : Position) (c : Char) : State :=
  let span : Span := ⟨start, s.position⟩
  match c with
  | '\n' => if s.depth = 0 then s.endLine span else s
  | '(' => { s.emit .leftParen "(" span with depth := s.depth + 1 }
  | ')' => { s.emit .rightParen ")" span with depth := s.depth - 1 }
  | '"' => { s with mode := .quoted start [] }
  | '-' => { s with mode := .hyphen start }
  | c => if isBlank c then s else { s with mode := .word start [c] }

/-- A character after part of a word, at `here`. -/
def continueWord (s : State) (start here : Position) (chars : List Char) (c : Char) : State :=
  if isWordChar c then { s with mode := .word start (c :: chars), position := here.step c }
  else { s.endWord start chars with position := here.step c }.begin here c

/-- The automaton after one more character. -/
def step (s : State) (c : Char) : State :=
  let here := s.position
  let moved := { s with position := here.step c }
  match s.mode with
  | .idle => moved.begin here c
  | .hyphen start =>
    if c = '-' then { moved with mode := .comment } else s.continueWord start here ['-'] c
  | .comment => if c = '\n' then { moved with mode := .idle }.begin here c else moved
  | .word start chars => s.continueWord start here chars c
  | .quoted start chars =>
    match c with
    | '"' => moved.endQuoted start chars
    | '\n' => moved.breakQuoted start chars
    | '\\' => { moved with mode := .escape start chars }
    | c => { moved with mode := .quoted start (c :: chars) }
  | .escape start chars =>
    match c with
    | 'n' => { moved with mode := .quoted start ('\n' :: chars) }
    | 't' => { moved with mode := .quoted start ('\t' :: chars) }
    | '"' => { moved with mode := .quoted start ('"' :: chars) }
    | '\\' => { moved with mode := .quoted start ('\\' :: chars) }
    | c =>
      { moved.report s!"unknown escape sequence '\\{c}'" ⟨start, moved.position⟩ with
        mode := .quoted start (c :: chars) }

/-- The automaton after several more characters. -/
def read (s : State) (cs : List Char) : State := cs.foldl step s

@[simp] theorem read_nil (s : State) : s.read [] = s := rfl

@[simp] theorem read_cons (s : State) (c : Char) (cs : List Char) :
    s.read (c :: cs) = (s.step c).read cs := rfl

/-- Reading two texts in a row. -/
@[simp] theorem read_append (s : State) (cs ds : List Char) :
    s.read (cs ++ ds) = (s.read cs).read ds :=
  List.foldl_append

/-- The text ends: an open word is complete, an open quoted text is broken off. -/
def close (s : State) : State :=
  match s.mode with
  | .idle => s
  | .comment => { s with mode := .idle }
  | .hyphen start => s.endWord start ['-']
  | .word start chars => s.endWord start chars
  | .quoted start chars => s.breakQuoted start chars
  | .escape start chars => s.breakQuoted start chars

end State

/-- The tokens of a text, the last of them `eof`, and what is wrong with the text. -/
def tokenize (source : String) : List Token × List Diagnostic :=
  let s := (State.read {} source.toList).close
  (s.tokens.reverse ++ [⟨.eof, "", ⟨s.position, s.position⟩⟩], s.diagnostics.reverse)

end MarketScript.Lexer
