import MarketScript.Event
import MarketScript.Lexer

/-!
# Statements

A script is read line by line: each logical line whose parentheses match is one statement, each
other line one diagnostic.  What is wrong with a line says nothing about the lines after it.
-/

namespace MarketScript

/-- A command of a script and where it stands.  The event is always a list. -/
structure Statement where
  event : Event
  span : Span
deriving DecidableEq, Inhabited

namespace Statement

/-- The line on which a statement begins. -/
def line (s : Statement) : Nat := s.span.start.line

/-- The tokens before the first end-of-text token, cut at the newline tokens; empty lines are left
    out. -/
def lines : List Token → List (List Token)
  | [] => []
  | t :: ts =>
    if t.kind = .eof then []
    else if t.kind = .newline then lines ts
    else
      match ts.head? with
      | none => [[t]]
      | some next =>
        if next.kind = .newline ∨ next.kind = .eof then [t] :: lines ts
        else
          match lines ts with
          | [] => [[t]]
          | l :: ls => (t :: l) :: ls

def unexpectedClose (span : Span) : Diagnostic := { message := "unexpected ')'", span }

def unclosedOpen (span : Span) : Diagnostic :=
  { message := "unclosed '('", span, note := some "every '(' needs a matching ')'" }

def unexpectedEnd (span : Span) : Diagnostic := { message := "unexpected end of line", span }

/-- Reads the events of a line.  `opened` holds the groups that are open, the innermost first: the
    parenthesis of each and the events before it, the last first.  `done` holds the events of the
    innermost group so far, the last first. -/
def readItems : List Token → (opened : List (Token × List Event)) → (done : List Event) →
    Except Diagnostic (List Event)
  | [], [], done => .ok done.reverse
  | [], (paren, _) :: _, _ => .error (unclosedOpen paren.span)
  | t :: ts, opened, done =>
    match t.kind with
    | .word => readItems ts opened (.word t.lexeme :: done)
    | .str => readItems ts opened (.quoted t.lexeme :: done)
    | .leftParen => readItems ts ((t, done) :: opened) []
    | .rightParen =>
      match opened with
      | [] => .error (unexpectedClose t.span)
      | (_, before) :: outer => readItems ts outer (.list done.reverse :: before)
    | .newline | .eof => .error (unexpectedEnd t.span)

/-- A line that is one parenthesised group is the group itself. -/
def eventOf : List Event → Event
  | [.list items] => .list items
  | items => .list items

/-- The statement that a line makes. -/
def ofLine (line : List Token) : Except Diagnostic Statement :=
  let span (t : Option Token) : Span := (t.map (·.span)).getD .synthetic
  (readItems line [] []).map fun items =>
    ⟨eventOf items, (span line.head?).join (span line.getLast?)⟩

/-- The statements of the lines that make one, and a diagnostic for each that makes none. -/
def ofLines : List (List Token) → List Statement × List Diagnostic
  | [] => ([], [])
  | line :: rest =>
    let (statements, diagnostics) := ofLines rest
    match ofLine line with
    | .ok statement => (statement :: statements, diagnostics)
    | .error diagnostic => (statements, diagnostic :: diagnostics)

/-- The statements in a list of tokens and what is wrong with it. -/
def ofTokens (tokens : List Token) : List Statement × List Diagnostic :=
  ofLines (lines tokens)

/-- The statements in a script and what is wrong with it, first its tokens and then its lines. -/
def parse (source : String) : List Statement × List Diagnostic :=
  let (tokens, lexical) := Lexer.tokenize source
  let (statements, syntactic) := ofTokens tokens
  (statements, lexical ++ syntactic)

end Statement

end MarketScript
