/-
Where a walk through a flow has been.

A walk remembers the steps on its path, so that it can stop when it would meet one of
them again.  The body of a loop starts with an empty path: it may pass steps that the
walk passed before the loop.  What it may not pass is a loop it is inside of, so these
are remembered apart.

Every step taken lowers the rank of the scope.  Taking a step adds its id to the path;
entering a body forgets the path but adds the loop to the loops, and an id can be added
to the loops only once.  That is why a walk ends.
-/

namespace FlowSuite

/-- Ids that were met, the latest one first. -/
abbrev Trail := List String

/-- What a walk remembers. -/
structure Scope where
  /-- The steps on the path. -/
  visited : Trail := []
  /-- The loops around the path. -/
  loops : Trail := []
  deriving DecidableEq, Repr

namespace Scope

/-- Whether going to a step would close a cycle. -/
def closes (s : Scope) (id : String) : Bool :=
  s.visited.contains id || s.loops.contains id

/-- The scope after a step. -/
def enter (s : Scope) (id : String) : Scope :=
  { s with visited := id :: s.visited }

/-- The scope at the start of a loop's body. -/
def loopBody (s : Scope) (id : String) : Scope :=
  { visited := [], loops := id :: s.loops }

/-! ### The rank -/

/-- How many of the ids may still become the id of a loop around the path. -/
def outer (s : Scope) (ids : List String) : Nat :=
  ids.countP fun i => !s.loops.contains i

/-- How many of the ids may still be met on the path. -/
def fresh (s : Scope) (ids : List String) : Nat :=
  ids.countP fun i => !s.closes i

/-- The rank of a scope, given the ids that loops and steps can have: bodies count more
than everything a path can meet. -/
def rank (s : Scope) (loops ids : List String) : Nat :=
  s.outer loops * ids.length + s.fresh ids

private theorem countP_lt_countP {p q : String → Bool} {ids : List String} {a : String}
    (hle : ∀ i, p i = true → q i = true) (hmem : a ∈ ids) (hq : q a = true)
    (hp : p a = false) : ids.countP p < ids.countP q := by
  induction ids with
  | nil => cases hmem
  | cons b rest ih =>
      have hrest : rest.countP p ≤ rest.countP q := List.countP_mono_left fun i _ => hle i
      rcases List.mem_cons.mp hmem with rfl | hmem
      · rw [List.countP_cons, List.countP_cons, hq, hp]
        simp only [Bool.false_eq_true, if_false, if_true]
        omega
      · have hb : (if p b = true then 1 else 0) ≤ (if q b = true then 1 else 0) := by
          by_cases hpb : p b = true
          · exact Nat.le_of_eq (by rw [if_pos hpb, if_pos (hle b hpb)])
          · rw [if_neg hpb]
            exact Nat.zero_le _
        rw [List.countP_cons, List.countP_cons]
        exact Nat.add_lt_add_of_lt_of_le (ih hmem) hb

@[simp] theorem closes_enter (s : Scope) (id i : String) :
    (s.enter id).closes i = (i == id || s.closes i) := by
  simp only [closes, enter, List.contains_cons, Bool.or_assoc]

@[simp] theorem outer_enter (s : Scope) (id : String) (ids : List String) :
    (s.enter id).outer ids = s.outer ids := rfl

theorem fresh_enter_lt {s : Scope} {id : String} {ids : List String} (hmem : id ∈ ids)
    (hopen : s.closes id = false) : (s.enter id).fresh ids < s.fresh ids := by
  refine countP_lt_countP ?_ hmem (by simp [hopen]) (by simp)
  intro i hi
  simp only [closes_enter, Bool.not_or, Bool.and_eq_true] at hi
  exact hi.2

/-- A step lowers the rank. -/
theorem rank_enter_lt {s : Scope} {id : String} {loops ids : List String} (hmem : id ∈ ids)
    (hopen : s.closes id = false) : (s.enter id).rank loops ids < s.rank loops ids := by
  have h := fresh_enter_lt hmem hopen
  simp only [rank, outer_enter]
  omega

theorem outer_loopBody_lt {s : Scope} {id : String} {loops : List String}
    (hmem : id ∈ loops) (hopen : s.closes id = false) :
    ((s.enter id).loopBody id).outer loops < s.outer loops := by
  simp only [closes, Bool.or_eq_false_iff] at hopen
  refine countP_lt_countP ?_ hmem (by rw [hopen.2]; rfl) (by simp [loopBody])
  intro i hi
  simp only [loopBody, enter, List.contains_cons, Bool.not_or, Bool.and_eq_true] at hi
  exact hi.2

/-- Entering a body lowers the rank. -/
theorem rank_loopBody_lt {s : Scope} {id : String} {loops ids : List String}
    (hloop : id ∈ loops) (hmem : id ∈ ids) (hopen : s.closes id = false) :
    ((s.enter id).loopBody id).rank loops ids < s.rank loops ids := by
  have houter := outer_loopBody_lt hloop hopen
  have hbody : ((s.enter id).loopBody id).fresh ids ≤ ids.length := List.countP_le_length
  have hfresh := fresh_enter_lt hmem hopen
  have hmul := Nat.mul_le_mul_right ids.length (Nat.succ_le_of_lt houter)
  rw [Nat.succ_mul] at hmul
  simp only [rank]
  omega

end Scope

end FlowSuite
