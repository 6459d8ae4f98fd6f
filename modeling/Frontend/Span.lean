/-! Byte ranges of a source text, and what they cover in its UTF-8 form. Offsets have no bound here: a text is taken to
be below 4 GiB, so that each of them is a word of 32 bits. -/

namespace Frontend

abbrev DeclId := Nat
abbrev ExportId := Nat
abbrev FileId := Nat

def DeclId.label (d : DeclId) : String := "decl#" ++ toString d

def FileId.label (f : FileId) : String := "file#" ++ toString f

def utf8 (text : String) : List UInt8 := text.toUTF8.data.toList

/-- The half-open byte range from `start` up to `stop`. -/
structure Span where
  start : Nat := 0
  stop : Nat := 0
  deriving DecidableEq, Inhabited

namespace Span

def point (offset : Nat) : Span := ⟨offset, offset⟩

def isEmpty (s : Span) : Bool := s.start == s.stop

def length (s : Span) : Nat := s.stop - s.start

def merge (a b : Span) : Span := ⟨min a.start b.start, max a.stop b.stop⟩

def bytes (s : Span) (text : String) : List UInt8 := ((utf8 text).take s.stop).drop s.start

def advance : Nat × Nat → List UInt8 → Nat × Nat
  | pos, [] => pos
  | (line, col), b :: rest => if b = 10 then advance (line + 1, 1) rest else advance (line, col + 1) rest

def lineCol (s : Span) (text : String) : Nat × Nat := advance (1, 1) ((utf8 text).take s.start)

def text (s : Span) : String := toString s.start ++ ".." ++ toString s.stop

end Span

end Frontend
