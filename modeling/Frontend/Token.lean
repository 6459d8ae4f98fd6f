import Frontend.Span

/-! Tokens of the source language, and the errors of reading it. -/

namespace Frontend

inductive Keyword where
  | fn | const | var | pub | exported | external | inlined | threadLocal | comptime | test
  | usingNamespace | ret | ifCond | elseBranch | whileLoop | leave | next | litTrue | litFalse | null
  | undefined | unreachable | and | or | align | linkSection | callConv
  deriving DecidableEq, Inhabited

inductive Punct where
  | lParen | rParen | lBrace | rBrace | lBracket | rBracket | comma | semicolon | colon | dot | dotStar
  | assign | eqEq | bangEq | lt | ltEq | gt | gtEq | plus | minus | star | slash | percent | bang
  | ampersand | question
  deriving DecidableEq, Inhabited

inductive TokenKind where
  | int | float | str | ident | builtin
  | keyword (k : Keyword)
  | punct (p : Punct)
  | eof
  deriving DecidableEq, Inhabited

structure Token where
  kind : TokenKind
  text : String
  span : Span
  deriving DecidableEq, Inhabited

namespace Keyword

def spelling : Keyword → String × String
  | fn => ("fn", "Fn")
  | const => ("const", "Const")
  | var => ("var", "Var")
  | pub => ("pub", "Pub")
  | exported => ("export", "Export")
  | external => ("extern", "Extern")
  | inlined => ("inline", "Inline")
  | threadLocal => ("threadlocal", "ThreadLocal")
  | comptime => ("comptime", "Comptime")
  | test => ("test", "Test")
  | usingNamespace => ("usingnamespace", "UsingNamespace")
  | ret => ("return", "Return")
  | ifCond => ("if", "If")
  | elseBranch => ("else", "Else")
  | whileLoop => ("while", "While")
  | leave => ("break", "Break")
  | next => ("continue", "Continue")
  | litTrue => ("true", "True")
  | litFalse => ("false", "False")
  | null => ("null", "Null")
  | undefined => ("undefined", "Undefined")
  | unreachable => ("unreachable", "Unreachable")
  | and => ("and", "And")
  | or => ("or", "Or")
  | align => ("align", "Align")
  | linkSection => ("linksection", "LinkSection")
  | callConv => ("callconv", "CallConv")

def all : List Keyword :=
  [fn, const, var, pub, exported, external, inlined, threadLocal, comptime, test, usingNamespace, ret,
    ifCond, elseBranch, whileLoop, leave, next, litTrue, litFalse, null, undefined, unreachable, and, or,
    align, linkSection, callConv]

def ofText? (text : String) : Option Keyword := all.find? (fun k => k.spelling.1 == text)

def startsItem : Keyword → Bool
  | fn | const | var | pub | exported | external | inlined | threadLocal | comptime | test
  | usingNamespace => true
  | _ => false

end Keyword

def Punct.spelling : Punct → String × String
  | lParen => ("(", "LParen")
  | rParen => (")", "RParen")
  | lBrace => ("\x7b", "LBrace")
  | rBrace => ("\x7d", "RBrace")
  | lBracket => ("[", "LBracket")
  | rBracket => ("]", "RBracket")
  | comma => (",", "Comma")
  | semicolon => (";", "Semicolon")
  | colon => (":", "Colon")
  | dot => (".", "Dot")
  | dotStar => (".*", "DotStar")
  | assign => ("=", "Assign")
  | eqEq => ("==", "EqEq")
  | bangEq => ("!=", "BangEq")
  | lt => ("<", "Lt")
  | ltEq => ("<=", "LtEq")
  | gt => (">", "Gt")
  | gtEq => (">=", "GtEq")
  | plus => ("+", "Plus")
  | minus => ("-", "Minus")
  | star => ("*", "Star")
  | slash => ("/", "Slash")
  | percent => ("%", "Percent")
  | bang => ("!", "Bang")
  | ampersand => ("&", "Ampersand")
  | question => ("?", "Question")

namespace TokenKind

def name : TokenKind → String
  | int => "IntLiteral"
  | float => "FloatLiteral"
  | str => "StringLiteral"
  | ident => "Identifier"
  | builtin => "Builtin"
  | keyword k => k.spelling.2
  | punct p => p.spelling.2
  | eof => "Eof"

def describe : TokenKind → String
  | int => "integer literal"
  | float => "float literal"
  | str => "string literal"
  | ident => "identifier"
  | builtin => "builtin"
  | keyword k => "'" ++ k.spelling.1 ++ "'"
  | punct p => "'" ++ p.spelling.1 ++ "'"
  | eof => "end of file"

def startsItem : TokenKind → Bool
  | keyword k => k.startsItem
  | _ => false

end TokenKind

inductive NumberFault where
  | empty | invalidDigit | tooLarge
  deriving DecidableEq, Inhabited

def NumberFault.message : NumberFault → String
  | empty => "cannot parse integer from empty string"
  | invalidDigit => "invalid digit found in string"
  | tooLarge => "number too large to fit in target type"

inductive ParseError where
  | unexpectedChar (c : Char) (span : Span)
  | unterminatedString (span : Span)
  | invalidNumber (fault : NumberFault) (span : Span)
  | expected (what found : String) (span : Span)
  deriving DecidableEq, Inhabited

namespace ParseError

def span : ParseError → Span
  | unexpectedChar _ s | unterminatedString s | invalidNumber _ s | expected _ _ s => s

def name : ParseError → String
  | unexpectedChar .. => "UnexpectedChar"
  | unterminatedString .. => "UnterminatedString"
  | invalidNumber .. => "InvalidNumber"
  | expected .. => "Expected"

def message (e : ParseError) : String :=
  "at " ++ e.span.text ++ ": " ++
    match e with
    | unexpectedChar c _ => "unexpected character '" ++ String.singleton c ++ "'"
    | unterminatedString _ => "unterminated string literal"
    | invalidNumber fault _ => "invalid number literal: " ++ fault.message
    | expected what found _ => "expected " ++ what ++ ", found " ++ found

end ParseError

end Frontend
