/-
JSON values.

An object is kept as its fields in the order of their keys, each key once, so that
equal objects are equal lists.  Keys are ordered by code points.
-/
import FlowSuite.Json.Number
import FlowSuite.Text.Quoted

namespace FlowSuite

/-- A JSON value. -/
inductive Json where
  | null
  | bool (b : Bool)
  | number (n : Number)
  | string (s : String)
  | array (items : List Json)
  | object (fields : List (String × Json))
  deriving BEq, Repr

/-- The fields of a JSON object. -/
abbrev Object := List (String × Json)

namespace Object

/-- The fields with `key` set to `value`, in its place in the order of keys. -/
def insert (key : String) (value : Json) : Object → Object
  | [] => [(key, value)]
  | (k, v) :: fields =>
      if key = k then (key, value) :: fields
      else if key < k then (key, value) :: (k, v) :: fields
      else (k, v) :: insert key value fields

/-- The fields given one after the other; a later value for a key replaces an earlier. -/
def ofFields (fields : List (String × Json)) : Object :=
  fields.foldl (fun o (k, v) => insert k v o) []

/-- The value under a key. -/
def get? (o : Object) (key : String) : Option Json :=
  o.lookup key

end Object

namespace Json

/-! ### Writing

A value is written without any blank between its parts.
-/

mutual

/-- The text of a value. -/
def render : Json → String
  | .null => "null"
  | .bool b => if b then "true" else "false"
  | .number n => n.text
  | .string s => Text.quote s
  | .array items => "[" ++ renderItems items ++ "]"
  | .object fields => "\x7b" ++ renderFields fields ++ "\x7d"

/-- The texts of the items of an array, with a comma between two of them. -/
def renderItems : List Json → String
  | [] => ""
  | [v] => v.render
  | v :: w :: rest => v.render ++ "," ++ renderItems (w :: rest)

/-- The texts of the fields of an object, with a comma between two of them. -/
def renderFields : List (String × Json) → String
  | [] => ""
  | [(k, v)] => Text.quote k ++ ":" ++ v.render
  | (k, v) :: f :: rest => Text.quote k ++ ":" ++ v.render ++ "," ++ renderFields (f :: rest)

end

end Json

end FlowSuite
