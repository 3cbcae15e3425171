/-
Names that must not repeat.

A name that is taken gives way to itself with the number 2 behind it, then 3, and so on.
One of the first `n + 1` choices is free when `n` names are taken, so the search is
over a finite list.

Names are told apart for each target on its own: a Selenium test and a Cypress test may
have the same name.
-/
import FlowSuite.Target.Basic

namespace FlowSuite

/-- The choices for a name, from the first: the name itself, `name_2`, `name_3`. -/
def nameChoice (name : String) (k : Nat) : String :=
  if k = 0 then name else s!"{name}_{k + 1}"

/-- The first choice for a name that is not taken. -/
def uniqueName (name : String) (taken : List String) : String :=
  let choices := (List.range (taken.length + 1)).map (nameChoice name)
  (choices.find? fun choice => !taken.contains choice).getD name

/-- The names that are taken for a target. -/
def takenBy (t : Target) (taken : List (Target × String)) : List String :=
  (taken.filter fun entry => entry.1 = t).map Prod.snd

/-- The names that are given when names are asked for in this order. -/
def uniqueNames (taken : List (Target × String)) : List (Target × String) → List String
  | [] => []
  | (t, wanted) :: rest =>
      let name := uniqueName wanted (takenBy t taken)
      name :: uniqueNames ((t, name) :: taken) rest

@[simp] theorem length_uniqueNames (taken wanted : List (Target × String)) :
    (uniqueNames taken wanted).length = wanted.length := by
  induction wanted generalizing taken with
  | nil => rfl
  | cons entry rest ih => simp [uniqueNames, ih]

end FlowSuite
