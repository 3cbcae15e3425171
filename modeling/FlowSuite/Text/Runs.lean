/-
Runs of characters.

Scanning a text gives characters that stand for themselves and other things between
them.  Characters side by side belong together and become one text; whatever else
there is stays as it is.  So no text that is made is empty, and no two of them meet.
-/

namespace FlowSuite.Text

variable {α β : Type}

/-- The text made of collected characters, last one first; none if there are none. -/
def flush (text : String → β) (run : List Char) : List β :=
  if run.isEmpty then [] else [text (String.ofList run.reverse)]

/-- Characters side by side become one text.  Each part is a character or is kept as
something else; the list of characters holds those collected so far, last one first. -/
def gather (text : String → β) (part : α → Char ⊕ β) : List Char → List α → List β
  | run, [] => flush text run
  | run, a :: rest =>
      match part a with
      | .inl c => gather text part (c :: run) rest
      | .inr b => flush text run ++ b :: gather text part [] rest

end FlowSuite.Text
