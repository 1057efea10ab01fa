import MarketScript.Source.Position

/-!
# Diagnostics

What is wrong with a piece of script text.
-/

namespace MarketScript

/-- A message about a span, with an optional hint below it. -/
structure Diagnostic where
  message : String
  span : Span
  note : Option String := none
deriving DecidableEq, Repr, Inhabited

/-- The message, the place unless the span is synthetic, and the hint if there is one. -/
def Diagnostic.text (d : Diagnostic) : String :=
  s!"error: {d.message}" ++
    (if d.span.isSynthetic then "" else s!"\n  --> {d.span.text}") ++
    (match d.note with
      | none => ""
      | some note => s!"\n  = note: {note}")

end MarketScript
