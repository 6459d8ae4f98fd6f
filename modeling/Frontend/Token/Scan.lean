import Frontend.Token

/-! Splitting a text into tokens. Each step takes the longest lexeme at hand off the front of the text; blanks
and comments between lexemes are dropped, and bad input is reported and passed over. -/

attribute [local instance (high)] Zero.ofOfNat0

namespace Frontend.Scan

def byteSize (cs : List Char) : Nat := (cs.map Char.utf8Size).sum

def isBlank (c : Char) : Bool :=
  c = ' ' || c = '\t' || c = '\n' || c = '\r' || c = '\x0c'

def isWordStart (c : Char) : Bool := c.isAlpha || c = '_'

def isWord (c : Char) : Bool := c.isAlphanum || c = '_'

def isDigitOrGap (c : Char) : Bool := c.isDigit || c = '_'

def skip : (inComment : Bool) → Nat → List Char → Nat × List Char
  | _, off, [] => (off, [])
  | true, off, c :: rest => skip (c ≠ '\n') (off + c.utf8Size) rest
  | false, off, '/' :: '/' :: rest => skip true (off + 2) rest
  | false, off, c :: rest => if isBlank c then skip false (off + c.utf8Size) rest else (off, c :: rest)

inductive Found where
  | token (kind : TokenKind)
  | unexpected (c : Char)
  | unterminated

structure Lexeme where
  found : Found
  text : List Char
  rest : List Char

/-- The rest of a string literal after its opening quote: what it takes, what follows, and whether it was closed.
It ends at its quote or before the end of its line. -/
def stringTail : List Char → List Char × List Char × Bool
  | [] => ([], [], false)
  | '"' :: rest => (['"'], rest, true)
  | ['\\'] => (['\\'], [], false)
  | '\\' :: c :: rest =>
    let (taken, after, closed) := stringTail rest
    ('\\' :: c :: taken, after, closed)
  | '\n' :: rest => ([], '\n' :: rest, false)
  | c :: rest =>
    let (taken, after, closed) := stringTail rest
    (c :: taken, after, closed)

def string (rest : List Char) : Lexeme :=
  let (taken, after, closed) := stringTail rest
  ⟨if closed then .token .str else .unterminated, '"' :: taken, after⟩

def fraction : List Char → List Char × List Char
  | '.' :: d :: rest =>
    if d.isDigit then ('.' :: d :: rest.takeWhile isDigitOrGap, rest.dropWhile isDigitOrGap)
    else ([], '.' :: d :: rest)
  | cs => ([], cs)

def exponent : List Char → List Char × List Char
  | e :: cs =>
    if e = 'e' || e = 'E' then
      let (sign, digits) := match cs with
        | '+' :: r => (['+'], r)
        | '-' :: r => (['-'], r)
        | r => ([], r)
      match digits with
      | d :: rest =>
        if d.isDigit then (e :: sign ++ d :: rest.takeWhile isDigitOrGap, rest.dropWhile isDigitOrGap)
        else ([], e :: cs)
      | [] => ([], e :: cs)
    else ([], e :: cs)
  | [] => ([], [])

def decimal (cs : List Char) : Lexeme :=
  let whole := cs.takeWhile isDigitOrGap
  let (frac, rest) := fraction (cs.dropWhile isDigitOrGap)
  let (exp, rest) := exponent rest
  ⟨.token (if frac.isEmpty && exp.isEmpty then .int else .float), whole ++ frac ++ exp, rest⟩

def number : List Char → Lexeme
  | '0' :: x :: rest =>
    if x = 'x' || x = 'b' || x = 'o' then
      ⟨.token .int, '0' :: x :: rest.takeWhile isWord, rest.dropWhile isWord⟩
    else decimal ('0' :: x :: rest)
  | cs => decimal cs

def word (cs : List Char) : Lexeme :=
  let text := cs.takeWhile isWord
  let kind := match Keyword.ofText? (String.ofList text) with
    | some k => .keyword k
    | none => .ident
  ⟨.token kind, text, cs.dropWhile isWord⟩

def pair? : Char → Char → Option Punct
  | '=', '=' => some .eqEq
  | '!', '=' => some .bangEq
  | '<', '=' => some .ltEq
  | '>', '=' => some .gtEq
  | '.', '*' => some .dotStar
  | _, _ => none

def single? : Char → Option Punct
  | '(' => some .lParen
  | ')' => some .rParen
  | '{' => some .lBrace
  | '}' => some .rBrace
  | '[' => some .lBracket
  | ']' => some .rBracket
  | ',' => some .comma
  | ';' => some .semicolon
  | ':' => some .colon
  | '.' => some .dot
  | '=' => some .assign
  | '<' => some .lt
  | '>' => some .gt
  | '+' => some .plus
  | '-' => some .minus
  | '*' => some .star
  | '/' => some .slash
  | '%' => some .percent
  | '!' => some .bang
  | '&' => some .ampersand
  | '?' => some .question
  | _ => none

def punct (c : Char) (rest : List Char) : Lexeme :=
  match rest with
  | d :: after =>
    match pair? c d with
    | some p => ⟨.token (.punct p), [c, d], after⟩
    | none => ofSingle c rest
  | [] => ofSingle c rest
where
  ofSingle (c : Char) (rest : List Char) : Lexeme :=
    ⟨match single? c with
      | some p => .token (.punct p)
      | none => .unexpected c, [c], rest⟩

def lexeme (c : Char) (rest : List Char) : Lexeme :=
  if c = '"' then string rest
  else if c.isDigit then number (c :: rest)
  else if c = '@' then ⟨.token .builtin, c :: rest.takeWhile isWord, rest.dropWhile isWord⟩
  else if isWordStart c then word (c :: rest)
  else punct c rest

structure Result where
  tokens : List Token := []
  errors : List ParseError := []
  stop : Nat

/-- Scans from an offset; every lexeme has a character, so `fuel` need not exceed the length. -/
def scanFrom : (fuel : Nat) → Nat → List Char → Result
  | 0, off, cs => { stop := (skip false off cs).1 }
  | fuel + 1, off, cs =>
    match skip false off cs with
    | (off, []) => { stop := off }
    | (off, c :: rest) =>
      let l := lexeme c rest
      let stop := off + byteSize l.text
      let span : Span := ⟨off, stop⟩
      let later := scanFrom fuel stop l.rest
      match l.found with
      | .token kind => { later with tokens := ⟨kind, String.ofList l.text, span⟩ :: later.tokens }
      | .unexpected c => { later with errors := .unexpectedChar c span :: later.errors }
      | .unterminated => { later with errors := .unterminatedString span :: later.errors }

def scan (source : String) : Result :=
  let cs := source.toList
  scanFrom cs.length 0 cs

def Result.eof (r : Result) : Token := ⟨.eof, "", .point r.stop⟩

end Frontend.Scan
