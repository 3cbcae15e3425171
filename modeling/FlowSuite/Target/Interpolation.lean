/-
Strings put together at run time.

Python writes them as f-strings in single quotes, so that the double quotes of an
accessor can stand inside a field.  Before version 3.12 a field may hold no single
quote, backslash, brace, number sign or line feed; where an expression has one of
them the whole string becomes a sum of literals and conversions instead.
JavaScript writes them as template literals, which have no such limit.
-/
import FlowSuite.Text.Quoted

namespace FlowSuite

/-- A part of a string: a text, or an expression whose value is put in. -/
inductive Piece where
  | text (s : String)
  | expr (e : String)
  deriving DecidableEq, Repr

/-- Expressions added up from left to right. -/
def concat (parts : List String) : String :=
  " + ".intercalate parts

namespace Python

/-- Whether an expression may stand inside a field of an f-string. -/
def fitsField (e : String) : Bool :=
  e.toList.all fun c =>
    c != '\x27' && c != '\\' && c != '{' && c != '}' && c != '#' && c != '\n'

/-- How a character is written in an f-string outside of its fields. -/
def escapeField (c : Char) : List Char :=
  if c = '\\' then ['\\', '\\']
  else if c = '\x27' then ['\\', '\x27']
  else if c = '{' then ['{', '{']
  else if c = '}' then ['}', '}']
  else if c = '\n' then ['\\', 'n']
  else if c = '\r' then ['\\', 'r']
  else if c = '\t' then ['\\', 't']
  else [c]

/-- A part of an f-string. -/
def field : Piece → List Char
  | .text s => s.toList.flatMap escapeField
  | .expr e => '{' :: (e.toList ++ ['}'])

/-- The pieces as an f-string. -/
def fString (pieces : List Piece) : String :=
  String.ofList ('f' :: '\x27' :: (pieces.flatMap field ++ ['\x27']))

/-- A term of the sum; an empty text is none. -/
def term? : Piece → Option String
  | .text s => if s.isEmpty then none else some (Text.quote s)
  | .expr e => some ("str(" ++ e ++ ")")

/-- The pieces as a sum of strings. -/
def sum (pieces : List Piece) : String :=
  concat (pieces.filterMap term?)

/-- Whether every expression among the pieces may stand in a field. -/
def fits : Piece → Bool
  | .text _ => true
  | .expr e => fitsField e

/-- The string that the pieces make up. -/
def interpolate (pieces : List Piece) : String :=
  if pieces.all fits then fString pieces else sum pieces

end Python

namespace JavaScript

/-- A text inside a template literal: the backslash and the backtick are escaped, and
so is a dollar sign that a brace follows. -/
def templateText : List Char → List Char
  | [] => []
  | '$' :: '{' :: cs => '\\' :: '$' :: '{' :: templateText cs
  | c :: cs =>
      if c = '\\' ∨ c = '\x60' then '\\' :: c :: templateText cs else c :: templateText cs

/-- A part of a template literal. -/
def templatePart : Piece → List Char
  | .text s => templateText s.toList
  | .expr e => '$' :: '{' :: (e.toList ++ ['}'])

/-- The string that the pieces make up. -/
def interpolate (pieces : List Piece) : String :=
  String.ofList ('\x60' :: (pieces.flatMap templatePart ++ ['\x60']))

end JavaScript

end FlowSuite
