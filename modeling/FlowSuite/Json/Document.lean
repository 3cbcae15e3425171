/-
JSON documents as written.

A document is the tree of what a JSON text says before anything is made of it: keys
may repeat and keep their order, numerals keep their digits, and a string may turn
out to have no text, when an escape in it names half of a surrogate pair.  Whether
such a part is an error depends on whether somebody asks for it, so a document
only fails to be read where the text breaks the grammar.
-/
import FlowSuite.Number.Numeral

namespace FlowSuite

/-- A JSON text, as a tree. -/
inductive Document where
  | null
  | bool (b : Bool)
  | number (n : Numeral)
  /-- A string literal, with its text if it has one. -/
  | string (text : Option String)
  | array (items : List Document)
  | object (members : List (Option String × Document))
  deriving Repr

namespace Document

/-! ### String literals -/

/-- A part of a string literal: a character, or an escaped 16-bit unit. -/
inductive Unit16 where
  | char (c : Char)
  | unit (n : Nat)

/-- The value of a hexadecimal digit. -/
def hexValue? (c : Char) : Option Nat :=
  let n := c.toNat
  if 48 ≤ n ∧ n ≤ 57 then some (n - 48)
  else if 97 ≤ n ∧ n ≤ 102 then some (n - 87)
  else if 65 ≤ n ∧ n ≤ 70 then some (n - 55)
  else none

/-- The value of four hexadecimal digits. -/
def hexUnit? (a b c d : Char) : Option Nat := do
  let a ← hexValue? a
  let b ← hexValue? b
  let c ← hexValue? c
  let d ← hexValue? d
  return ((a * 16 + b) * 16 + c) * 16 + d

/-- The character that a one-letter escape stands for. -/
def unescape? : Char → Option Char
  | '"' => some '"'
  | '\\' => some '\\'
  | '/' => some '/'
  | 'b' => some '\x08'
  | 'f' => some '\x0c'
  | 'n' => some '\n'
  | 'r' => some '\r'
  | 't' => some '\t'
  | _ => none

/-- The parts of a string literal whose opening quote has been read, and what follows
its closing quote. -/
def readUnits : List Char → Option (List Unit16 × List Char)
  | [] => none
  | '"' :: cs => some ([], cs)
  | '\\' :: 'u' :: a :: b :: c :: d :: cs => do
      let n ← hexUnit? a b c d
      let (us, rest) ← readUnits cs
      return (.unit n :: us, rest)
  | '\\' :: e :: cs => do
      let c ← unescape? e
      let (us, rest) ← readUnits cs
      return (.char c :: us, rest)
  | c :: cs =>
      if c.toNat < 0x20 then none
      else do
        let (us, rest) ← readUnits cs
        return (.char c :: us, rest)

/-- The first half of a surrogate pair. -/
def isHigh (n : Nat) : Bool := 0xD800 ≤ n && n < 0xDC00

/-- The second half of a surrogate pair. -/
def isLow (n : Nat) : Bool := 0xDC00 ≤ n && n < 0xE000

/-- The characters that the parts spell, unless half a surrogate pair stands alone. -/
def spell? : List Unit16 → Option (List Char)
  | [] => some []
  | .char c :: us => (spell? us).map (c :: ·)
  | .unit n :: us =>
      if isHigh n then
        match us with
        | .unit m :: us =>
            if isLow m then
              (spell? us).map (Char.ofNat (0x10000 + (n - 0xD800) * 1024 + (m - 0xDC00)) :: ·)
            else none
        | _ => none
      else if isLow n then none
      else (spell? us).map (Char.ofNat n :: ·)

/-- A string literal whose opening quote has been read. -/
def readString (cs : List Char) : Option (Option String × List Char) :=
  (readUnits cs).map fun (us, rest) => ((spell? us).map String.ofList, rest)

/-! ### Values -/

/-- The characters that may stand between two tokens. -/
def isSpace (c : Char) : Bool :=
  c = ' ' ∨ c = '\t' ∨ c = '\n' ∨ c = '\r'

/-- What follows the space at the front. -/
def skip (cs : List Char) : List Char :=
  cs.dropWhile isSpace

/-- The items of an array up to its closing bracket; there is at least one.  The first
argument reads an item, the second bounds their number. -/
def readItems (read : List Char → Option (Document × List Char)) :
    Nat → List Char → Option (List Document × List Char)
  | 0, _ => none
  | bound + 1, cs => do
      let (item, cs) ← read cs
      match skip cs with
      | ',' :: cs =>
          let (items, cs) ← readItems read bound cs
          return (item :: items, cs)
      | ']' :: cs => return ([item], cs)
      | _ => none

/-- The members of an object up to its closing brace; there is at least one. -/
def readMembers (read : List Char → Option (Document × List Char)) :
    Nat → List Char → Option (List (Option String × Document) × List Char)
  | 0, _ => none
  | bound + 1, cs =>
      match skip cs with
      | '"' :: cs => do
          let (key, cs) ← readString cs
          match skip cs with
          | ':' :: cs => do
              let (value, cs) ← read cs
              match skip cs with
              | ',' :: cs =>
                  let (members, cs) ← readMembers read bound cs
                  return ((key, value) :: members, cs)
              | '}' :: cs => return ([(key, value)], cs)
              | _ => none
          | _ => none
      | _ => none

/-- The value at the front of `cs`, and what follows it.  The bound limits nesting and
the number of parts; a bound above the number of characters never stops a reading. -/
def readValue : Nat → List Char → Option (Document × List Char)
  | 0, _ => none
  | bound + 1, cs =>
      match skip cs with
      | 'n' :: 'u' :: 'l' :: 'l' :: cs => some (.null, cs)
      | 't' :: 'r' :: 'u' :: 'e' :: cs => some (.bool true, cs)
      | 'f' :: 'a' :: 'l' :: 's' :: 'e' :: cs => some (.bool false, cs)
      | '"' :: cs => (readString cs).map fun (s, cs) => (.string s, cs)
      | '[' :: cs =>
          match skip cs with
          | ']' :: cs => some (.array [], cs)
          | cs => (readItems (readValue bound) bound cs).map fun (items, cs) => (.array items, cs)
      | '{' :: cs =>
          match skip cs with
          | '}' :: cs => some (.object [], cs)
          | cs =>
              (readMembers (readValue bound) bound cs).map fun (members, cs) =>
                (.object members, cs)
      | cs => (Numeral.read cs).map fun (n, cs) => (.number n, cs)

/-- The document that a text holds, when it holds one and nothing else. -/
def parse? (s : String) : Option Document :=
  let cs := s.toList
  match readValue (cs.length + 1) cs with
  | some (d, rest) => if (skip rest).isEmpty then some d else none
  | none => none

end Document

end FlowSuite
