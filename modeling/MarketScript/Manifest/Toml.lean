import MarketScript.Decimal.Basic
import MarketScript.Text.Digit

/-!
# TOML values

The values of TOML documents and their written forms: strings of four kinds, numbers, dates and
times, truth values, arrays and inline tables.  Numbers other than integers are kept as they are
written, dates and times in a normal form.
-/

namespace MarketScript

/-- A TOML value. -/
inductive Toml where
  | string (value : String)
  | integer (value : Int)
  | float (text : String)
  | bool (value : Bool)
  | datetime (text : String)
  | array (elements : List Toml)
  | table (entries : List (String × Toml))
deriving Inhabited

namespace Toml

/-- No key has this many parts, and arrays and inline tables are not nested this deep. -/
def nestingLimit : Nat := 80

/-! ## Blanks, lines and comments -/

def isBlankChar (c : Char) : Bool := c == ' ' || c == '\t'

def skipBlanks (cs : List Char) : List Char := cs.dropWhile isBlankChar

/-- The text after a line break. -/
def newline? : List Char → Option (List Char)
  | '\n' :: rest => some rest
  | '\r' :: '\n' :: rest => some rest
  | _ => none

/-- The characters of comments and of single-line strings: no controls but the tab. -/
def isTextChar (c : Char) : Bool := c == '\t' || (32 ≤ c.toNat && c.toNat != 127)

/-- The text after the end of a line, which may hold blanks and a comment. -/
def endOfLine? (cs : List Char) : Option (List Char) :=
  let cs := skipBlanks cs
  let cs := if cs.head? == some '#' then cs.dropWhile isTextChar else cs
  if cs.isEmpty then some [] else newline? cs

/-- The text after blanks, line breaks and comments, from inside a comment or not. -/
def skipVoid : (comment : Bool) → List Char → List Char
  | _, [] => []
  | _, '\n' :: rest => skipVoid false rest
  | _, '\r' :: '\n' :: rest => skipVoid false rest
  | false, '#' :: rest => skipVoid true rest
  | false, c :: rest => if isBlankChar c then skipVoid false rest else c :: rest
  | true, c :: rest => if isTextChar c then skipVoid true rest else c :: rest

/-! ## Strings -/

/-- The character of a code point in base sixteen. -/
def codePoint? (ds : List Char) : Option Char :=
  let n := numeral 16 ds
  if ds.all (hexDigit? · |>.isSome) && (n < 0xD800 || (0xE000 ≤ n && n < 0x110000)) then
    some (Char.ofNat n)
  else none

/-- The character that a letter after a backslash stands for. -/
def escape? : Char → Option Char
  | 'b' => some '\x08'
  | 't' => some '\t'
  | 'n' => some '\n'
  | 'f' => some '\x0c'
  | 'r' => some '\r'
  | '"' => some '"'
  | '\\' => some '\\'
  | _ => none

/-- The rest of a string in double quotes; `done` holds what was read, last first. -/
def basicString (done : List Char) : List Char → Option (String × List Char)
  | [] => none
  | '"' :: rest => some (String.ofList done.reverse, rest)
  | '\\' :: 'u' :: a :: b :: c :: d :: rest =>
    match codePoint? [a, b, c, d] with
    | some ch => basicString (ch :: done) rest
    | none => none
  | '\\' :: 'U' :: a :: b :: c :: d :: e :: f :: g :: h :: rest =>
    match codePoint? [a, b, c, d, e, f, g, h] with
    | some ch => basicString (ch :: done) rest
    | none => none
  | '\\' :: c :: rest =>
    match escape? c with
    | some ch => basicString (ch :: done) rest
    | none => none
  | c :: rest => if isTextChar c && c != '\\' then basicString (c :: done) rest else none

/-- The rest of a string in single quotes, which has no escapes. -/
def literalString (cs : List Char) : Option (String × List Char) :=
  let body := cs.takeWhile fun c => isTextChar c && c != '\''
  match cs.drop body.length with
  | '\'' :: rest => some (String.ofList body, rest)
  | _ => none

/-- The end of a string of several lines after its third quote: two more quotes may belong to the
    string. -/
def closeLong (quote : Char) (done rest : List Char) : String × List Char :=
  let extra := (rest.takeWhile (· == quote)).take 2
  (String.ofList (done.reverse ++ extra), rest.drop extra.length)

/-- The rest of a string of several lines in double quotes.  After a backslash at the end of a line,
    blanks and line breaks are left out. -/
def longBasicString : (trim : Bool) → (done : List Char) → List Char → Option (String × List Char)
  | _, _, [] => none
  | _, done, '"' :: '"' :: '"' :: rest => some (closeLong '"' done rest)
  | trim, done, '\n' :: rest => longBasicString trim (if trim then done else '\n' :: done) rest
  | trim, done, '\r' :: '\n' :: rest =>
    longBasicString trim (if trim then done else '\n' :: done) rest
  | _, done, '\\' :: 'u' :: a :: b :: c :: d :: rest =>
    match codePoint? [a, b, c, d] with
    | some ch => longBasicString false (ch :: done) rest
    | none => none
  | _, done, '\\' :: 'U' :: a :: b :: c :: d :: e :: f :: g :: h :: rest =>
    match codePoint? [a, b, c, d, e, f, g, h] with
    | some ch => longBasicString false (ch :: done) rest
    | none => none
  | _, done, '\\' :: c :: rest =>
    match escape? c with
    | some ch => longBasicString false (ch :: done) rest
    | none =>
      if (newline? (skipBlanks (c :: rest))).isSome then longBasicString true done (c :: rest)
      else none
  | trim, done, c :: rest =>
    if trim && isBlankChar c then longBasicString true done rest
    else if isTextChar c && c != '\\' then longBasicString false (c :: done) rest
    else none

/-- The rest of a string of several lines in single quotes. -/
def longLiteralString (done : List Char) : List Char → Option (String × List Char)
  | [] => none
  | '\'' :: '\'' :: '\'' :: rest => some (closeLong '\'' done rest)
  | '\n' :: rest => longLiteralString ('\n' :: done) rest
  | '\r' :: '\n' :: rest => longLiteralString ('\n' :: done) rest
  | c :: rest => if isTextChar c then longLiteralString (c :: done) rest else none

/-- The text without a line break at its start. -/
def skipFirstBreak (cs : List Char) : List Char := (newline? cs).getD cs

/-- Reads a string of any kind. -/
def readString : List Char → Option (String × List Char)
  | '"' :: '"' :: '"' :: rest => longBasicString false [] (skipFirstBreak rest)
  | '\'' :: '\'' :: '\'' :: rest => longLiteralString [] (skipFirstBreak rest)
  | '"' :: rest => basicString [] rest
  | '\'' :: rest => literalString rest
  | _ => none

/-! ## Keys -/

/-- The characters of a key without quotes. -/
def isKeyChar (c : Char) : Bool := c.isAlphanum || c == '_' || c == '-'

/-- Reads one part of a key. -/
def readSimpleKey (cs : List Char) : Option (String × List Char) :=
  match cs with
  | '"' :: rest => basicString [] rest
  | '\'' :: rest => literalString rest
  | cs =>
    let word := cs.takeWhile isKeyChar
    if word.isEmpty then none else some (String.ofList word, cs.drop word.length)

/-- Reads a key: parts with points between them.  `fuel` is at least the length of the text. -/
def readKeyParts : (fuel : Nat) → List Char → Option (List String × List Char)
  | 0, _ => none
  | fuel + 1, cs => do
    let (part, rest) ← readSimpleKey cs
    match skipBlanks rest with
    | '.' :: after => do
      let (parts, rest) ← readKeyParts fuel (skipBlanks after)
      return (part :: parts, rest)
    | rest => return ([part], rest)

/-- Reads a key and the blanks after it.  A key has fewer parts than `nestingLimit`. -/
def readKey (cs : List Char) : Option (List String × List Char) :=
  match readKeyParts (cs.length + 1) cs with
  | some (parts, rest) => if parts.length < nestingLimit then some (parts, rest) else none
  | none => none

/-! ## Numbers, dates and times -/

/-- Digits of a class, one underscore at most between two of them. -/
def digits? (isDigit : Char → Bool) : List Char → Option (List Char)
  | [] => none
  | [c] => if isDigit c then some [c] else none
  | c :: '_' :: rest => if isDigit c then (digits? isDigit rest).map (c :: ·) else none
  | c :: rest => if isDigit c then (digits? isDigit rest).map (c :: ·) else none

def isBaseDigit (base : Nat) (c : Char) : Bool :=
  match hexDigit? c with
  | some n => n < base
  | none => false

/-- Whether a number fits in a signed word of 64 bits. -/
def fitsWord (n : Int) : Bool := Int64.minValue.toInt ≤ n && n ≤ Int64.maxValue.toInt

/-- The digits of a whole number of base ten: no zero at the start unless it is the number. -/
def decimalDigits? (cs : List Char) : Option (List Char) :=
  match digits? Char.isDigit cs with
  | some ('0' :: _ :: _) => none
  | ds => ds

/-- A sign, and the text after it. -/
def splitSign : List Char → Bool × List Char
  | '-' :: cs => (true, cs)
  | '+' :: cs => (false, cs)
  | cs => (false, cs)

def integer? (token : List Char) : Option Int := do
  let n : Int ←
    match token with
    | '0' :: 'x' :: ds => (digits? (isBaseDigit 16) ds).map fun ds => (numeral 16 ds : Int)
    | '0' :: 'o' :: ds => (digits? (isBaseDigit 8) ds).map fun ds => (numeral 8 ds : Int)
    | '0' :: 'b' :: ds => (digits? (isBaseDigit 2) ds).map fun ds => (numeral 2 ds : Int)
    | token =>
      let (negative, ds) := splitSign token
      (decimalDigits? ds).map fun ds => if negative then - numeral 10 ds else numeral 10 ds
  if fitsWord n then some n else none

/-- The text before the first character of a class, and the text after it. -/
def cut? (p : Char → Bool) (cs : List Char) : Option (List Char × List Char) :=
  match cs.dropWhile (! p ·) with
  | [] => none
  | _ :: after => some (cs.takeWhile (! p ·), after)

/-- The exponent of a number: digits, after a sign or not. -/
def exponent? (cs : List Char) : Option Int :=
  let (negative, ds) := splitSign cs
  (digits? Char.isDigit ds).map fun ds => if negative then - numeral 10 ds else numeral 10 ds

/-- The digits before the point, the digits after it, and the exponent of a number without a sign
    that has a point or an exponent. -/
def floatParts? (body : List Char) : Option (List Char × List Char × Int) := do
  let (mantissa, exponent) ←
    match cut? (fun c => c == 'e' || c == 'E') body with
    | none => some (body, none)
    | some (mantissa, cs) => (exponent? cs).map fun n => (mantissa, some n)
  match cut? (· == '.') mantissa, exponent with
  | some (whole, part), exponent =>
    return (← decimalDigits? whole, ← digits? Char.isDigit part, exponent.getD 0)
  | none, some n => return (← decimalDigits? mantissa, [], n)
  | none, none => none

/-- The least number that is too large for a floating-point number of 64 bits. -/
def floatLimit : Nat := (1 <<< 1024) - (1 <<< 970)

/-- Whether the number of these digits, with its point moved to the right by `shift`, is too large
    for a floating-point number.  The limit has 309 digits before its point, so that most numbers
    need no more than a count of theirs. -/
def exceedsFloat (digits : List Char) (shift : Int) : Bool :=
  let digits := digits.dropWhile (· == '0')
  let places := digits.length + shift
  if digits.isEmpty || places < 309 then false
  else if 309 < places then true
  else floatLimit * tenPow (- shift).toNat ≤ numeral 10 digits * tenPow shift.toNat

/-- Whether a text is a floating-point number.  A number above zero must not be too large for one;
    below zero there is no bound. -/
def isFloat (token : List Char) : Bool :=
  let (negative, body) := splitSign token
  if body == ['i', 'n', 'f'] || body == ['n', 'a', 'n'] then true
  else
    match floatParts? body with
    | some (whole, part, exponent) =>
      negative || ! exceedsFloat (whole ++ part) (exponent - part.length)
    | none => false

/-- A number of exactly two digits within bounds. -/
def twoDigits? (low high : Nat) (cs : List Char) : Bool :=
  cs.length == 2 && cs.all Char.isDigit && low ≤ numeral 10 cs && numeral 10 cs ≤ high

/-- The days of a month. -/
def monthDays (year month : Nat) : Nat :=
  if month == 2 then
    if year % 4 == 0 && (year % 100 != 0 || year % 400 == 0) then 29 else 28
  else if month == 4 || month == 6 || month == 9 || month == 11 then 30
  else 31

def isDate (cs : List Char) : Bool :=
  match cs with
  | [a, b, c, d, '-', m, n, '-', x, y] =>
    [a, b, c, d].all Char.isDigit && twoDigits? 1 12 [m, n] &&
      twoDigits? 1 (monthDays (numeral 10 [a, b, c, d]) (numeral 10 [m, n])) [x, y]
  | _ => false

/-- A fraction of a second in normal form: nine digits at most, and no zeros at its end. -/
def fractionForm (digits : List Char) : List Char :=
  match ((digits.take 9).reverse.dropWhile (· == '0')).reverse with
  | [] => []
  | ds => '.' :: ds

/-- The normal form of what follows the seconds of a time. -/
def fraction? : List Char → Option (List Char)
  | [] => some []
  | '.' :: ds => if ! ds.isEmpty && ds.all Char.isDigit then some (fractionForm ds) else none
  | _ => none

/-- The normal form of a time of day. -/
def time? : List Char → Option (List Char)
  | a :: b :: ':' :: c :: d :: ':' :: e :: f :: rest =>
    if twoDigits? 0 23 [a, b] && twoDigits? 0 59 [c, d] && twoDigits? 0 60 [e, f] then
      (fraction? rest).map ([a, b, ':', c, d, ':', e, f] ++ ·)
    else none
  | _ => none

/-- The normal form of the offset of a time, or of none.  An offset of zero is not below zero. -/
def offset? : List Char → Option (List Char)
  | [] => some []
  | ['Z'] | ['z'] => some ['Z']
  | [sign, a, b, ':', c, d] =>
    if (sign == '+' || sign == '-') && twoDigits? 0 23 [a, b] && twoDigits? 0 59 [c, d] then
      let sign := if [a, b, c, d].all (· == '0') then '+' else sign
      some [sign, a, b, ':', c, d]
    else none
  | _ => none

/-- The normal form of a time with an offset or without one. -/
def offsetTime? (cs : List Char) : Option (List Char) := do
  let time := cs.takeWhile fun c => c.isDigit || c == ':' || c == '.'
  return (← time? time) ++ (← offset? (cs.drop time.length))

/-- The normal form of a date and a time, of which either may be missing: between the two stands the
    letter T. -/
def datetime? (cs : List Char) : Option (List Char) :=
  if isDate cs then some cs
  else
    let (date, rest) := cs.splitAt 10
    match rest with
    | delimiter :: time =>
      if isDate date && (delimiter == 'T' || delimiter == 't' || delimiter == ' ') then
        (offsetTime? time).map (date ++ 'T' :: ·)
      else time? cs
    | [] => time? cs

def isTokenChar (c : Char) : Bool :=
  c.isAlphanum || c == '_' || c == '+' || c == '-' || c == '.' || c == ':'

/-- Reads a truth value, a number, or a date or time. -/
def readToken (cs : List Char) : Option (Toml × List Char) :=
  let token := cs.takeWhile isTokenChar
  let rest := cs.drop token.length
  if token == ['t', 'r', 'u', 'e'] then some (bool true, rest)
  else if token == ['f', 'a', 'l', 's', 'e'] then some (bool false, rest)
  else
    match integer? token with
    | some n => some (integer n, rest)
    | none =>
      if isFloat token then some (float (String.ofList token), rest)
      else
        let long :=
          if rest.head? == some ' ' then token ++ ' ' :: (rest.drop 1).takeWhile isTokenChar
          else token
        match datetime? long with
        | some text => some (datetime (String.ofList text), cs.drop long.length)
        | none => (datetime? token).map fun text => (datetime (String.ofList text), rest)

/-! ## Tables under construction -/

/-- A place in a document that is being read. -/
inductive Node where
  | value (value : Toml)
  /-- A table.  An implicit one was only named on the way to another; a dotted one by a key with
      points. -/
  | table (implicit dotted : Bool) (entries : List (String × Node))
  /-- An array of tables, the last first. -/
  | tables (rows : List (List (String × Node)))
deriving Inhabited

/-- A table that is being read. -/
structure Draft where
  implicit : Bool := false
  dotted : Bool := false
  entries : List (String × Node) := []

namespace Draft

def find? (t : Draft) (key : String) : Option Node :=
  (t.entries.find? (·.1 == key)).map (·.2)

/-- The table with another node under a key. -/
def set (t : Draft) (key : String) (node : Node) : Draft :=
  if t.entries.any (·.1 == key) then
    { t with entries := t.entries.map fun e => if e.1 == key then (key, node) else e }
  else { t with entries := t.entries ++ [(key, node)] }

def remove (t : Draft) (key : String) : Draft :=
  { t with entries := t.entries.filter (·.1 != key) }

def toNode (t : Draft) : Node := .table t.implicit t.dotted t.entries

/-- Changes the table that a path leads to, making the tables on the way.  A path with points may not
    lead through a table that has a header of its own. -/
def change (dotted : Bool) (f : Draft → Option Draft) :
    (path : List String) → Draft → Option Draft
  | [], t => f t
  | key :: path, t =>
    match t.find? key with
    | none => do
      let child ← change dotted f path { implicit := true, dotted }
      return t.set key child.toNode
    | some (.value _) => none
    | some (.tables []) => none
    | some (.tables (row :: rows)) => do
      let child ← change dotted f path { entries := row }
      return t.set key (.tables (child.entries :: rows))
    | some (.table implicit isDotted entries) =>
      if dotted && ! implicit then none
      else do
        let child ← change dotted f path { implicit, dotted := isDotted, entries }
        return t.set key child.toNode

/-- The table with a value under a key.  No key may be given twice, and a key with points may not
    reach into a table that was made without them. -/
def define (t : Draft) (key : List String) (value : Toml) : Option Draft :=
  match key.getLast? with
  | none => none
  | some last =>
    let path := key.dropLast
    change (! path.isEmpty) (fun t =>
      if t.dotted == path.isEmpty || (t.find? last).isSome then none
      else some (t.set last (.value value))) path t

end Draft

mutual

/-- The value that a place holds. -/
def ofNode : Node → Toml
  | .value value => value
  | .table _ _ entries => table (ofEntries entries)
  | .tables rows => array (ofRows rows).reverse

/-- The entries of a table. -/
def ofEntries : List (String × Node) → List (String × Toml)
  | [] => []
  | (key, node) :: rest => (key, ofNode node) :: ofEntries rest

/-- The tables of an array of tables. -/
def ofRows : List (List (String × Node)) → List Toml
  | [] => []
  | row :: rows => table (ofEntries row) :: ofRows rows

end

/-! ## Values -/

mutual

/-- Reads a value with `depth` arrays and inline tables around it, which must stay fewer than
    `nestingLimit`.  Every step within another takes at least one character, so a `fuel` of the
    length of the text is enough. -/
def readValue : (fuel depth : Nat) → List Char → Option (Toml × List Char)
  | 0, _, _ => none
  | fuel + 1, depth, cs =>
    match cs with
    | '"' :: _ | '\'' :: _ => (readString cs).map fun (s, rest) => (string s, rest)
    | '[' :: rest =>
      if depth + 1 < nestingLimit then readElements fuel (depth + 1) [] (skipVoid false rest)
      else none
    | '\x7b' :: rest =>
      if depth + 1 < nestingLimit then
        match skipBlanks rest with
        | '\x7d' :: rest => some (table [], rest)
        | rest => readEntries fuel (depth + 1) {} rest
      else none
    | cs => readToken cs

/-- The rest of an array; `done` holds the elements before, last first, and `depth` counts the array
    itself too. -/
def readElements : (fuel depth : Nat) → (done : List Toml) → List Char → Option (Toml × List Char)
  | 0, _, _, _ => none
  | fuel + 1, depth, done, cs =>
    match cs with
    | ']' :: rest => some (array done.reverse, rest)
    | cs => do
      let (v, rest) ← readValue fuel depth cs
      match skipVoid false rest with
      | ',' :: rest => readElements fuel depth (v :: done) (skipVoid false rest)
      | ']' :: rest => some (array (v :: done).reverse, rest)
      | _ => none

/-- The rest of an inline table; `depth` counts the table itself too. -/
def readEntries : (fuel depth : Nat) → Draft → List Char → Option (Toml × List Char)
  | 0, _, _, _ => none
  | fuel + 1, depth, done, cs => do
    let (key, rest) ← readKey cs
    match rest with
    | '=' :: rest => do
      let (v, rest) ← readValue fuel depth (skipBlanks rest)
      let done ← done.define key v
      match skipBlanks rest with
      | ',' :: rest => readEntries fuel depth done (skipBlanks rest)
      | '\x7d' :: rest => some (table (ofEntries done.entries), rest)
      | _ => none
    | _ => none

end

end Toml

end MarketScript
