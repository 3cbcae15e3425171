/-
The functions of loops that watch.

In a Cypress test a loop that watches an element is a function: it is declared where the loop
stands, it calls itself again at the end of its body, and it is called once below its
declaration.  The function is named after the words of the loop's id, and ids that differ may
have the same words.

Two things can go wrong when two functions have one name.  A block that declares both is not
a program at all.  And the block at the end of which a function calls itself may declare the
other one, since the body of the loop is part of that block; then the call goes to the inner
function.  Elsewhere equal names do no harm: a declaration deeper inside, or in another arm,
is out of sight of the calls.

`Program` already says what is a block, so declarations and calls are read off it, and a name
is looked up from the innermost block outwards.  A walk never puts one loop twice into a block
nor a loop straight into its own body, for it would be running in a circle; what remains are
the loops with different ids, and for these it is the words that count.
-/
import FlowSuite.Proofs.Execution
import Mathlib.Data.List.Nodup

namespace FlowSuite

namespace Program

/-! ### Declarations and calls -/

/-- The loops whose functions a block declares, in order. -/
def declared : Program → List String
  | .done => []
  | .plain _ rest => rest.declared
  | .act _ _ rest => rest.declared
  | .choose _ _ _ _ rest => rest.declared
  | .loop id (.watching _) _ rest => id :: rest.declared
  | .loop _ (.times _) _ rest => rest.declared

/-- The blocks inside a block, each given by the loops it declares. -/
def inner : Program → List (List String)
  | .done => []
  | .plain _ rest => rest.inner
  | .act _ _ rest => rest.inner
  | .choose _ _ yes no rest =>
      yes.declared :: yes.inner ++ no.declared :: no.inner ++ rest.inner
  | .loop _ _ body rest => body.declared :: body.inner ++ rest.inner

/-- All blocks, the outermost first. -/
def blocks (p : Program) : List (List String) :=
  p.declared :: p.inner

/-- The loops that watch, each with the block at whose end it calls itself again. -/
def nests : Program → List (String × List String)
  | .done => []
  | .plain _ rest => rest.nests
  | .act _ _ rest => rest.nests
  | .choose _ _ yes no rest => yes.nests ++ no.nests ++ rest.nests
  | .loop id (.watching _) body rest => (id, body.declared) :: (body.nests ++ rest.nests)
  | .loop _ (.times _) body rest => body.nests ++ rest.nests

/-- The loop whose function is called by the name of a loop's function, seen from inside of
some blocks, the innermost first. -/
def reached (scope : List (List String)) (id : String) : Option String :=
  scope.flatten.find? fun other => Cypress.pollName other = Cypress.pollName id

/-- The calls of the functions, each with the loop it belongs to and the loop it reaches.
The program stands in the first block of the scope. -/
def calls (scope : List (List String)) : Program → List (String × Option String)
  | .done => []
  | .plain _ rest => rest.calls scope
  | .act _ _ rest => rest.calls scope
  | .choose _ _ yes no rest =>
      yes.calls (yes.declared :: scope) ++ no.calls (no.declared :: scope) ++ rest.calls scope
  | .loop id (.watching _) body rest =>
      body.calls (body.declared :: scope) ++
        (id, reached (body.declared :: scope) id) :: (id, reached scope id) :: rest.calls scope
  | .loop _ (.times _) body rest => body.calls (body.declared :: scope) ++ rest.calls scope

/-- No block declares a function twice, and every call reaches the function of its own
loop. -/
structure KeepsApart (p : Program) : Prop where
  once : ∀ block ∈ p.blocks, (block.map Cypress.pollName).Nodup
  own : ∀ call ∈ p.calls [p.declared], call.2 = some call.1

/-- Two loops whose functions are in each other's way if their names are the same: a block
declares both, or the body of one declares the other. -/
inductive Meet (p : Program) (i j : String) : Prop where
  | beside {block : List String} (hblock : block ∈ p.blocks) (hi : i ∈ block) (hj : j ∈ block)
  | within {block : List String} (hnest : (i, block) ∈ p.nests) (hj : j ∈ block)

/-- No block declares a loop twice, and no body declares the loop it is the body of. -/
structure Distinct (p : Program) : Prop where
  once : ∀ block ∈ p.blocks, block.Nodup
  outside : ∀ nest ∈ p.nests, nest.1 ∉ nest.2

end Program

/-! ### Names and words -/

theorem Cypress.pollName_eq_iff (i j : String) :
    pollName i = pollName j ↔ Text.snake i = Text.snake j := by
  have hname : ∀ id, (pollName id).toList
      = "repeatWhile".toList ++
        if (Text.snake id).isEmpty then [] else '_' :: (Text.snake id).toList := by
    intro id
    simp only [pollName]
    split
    · rfl
    · exact String.toList_append
  constructor
  · intro h
    have hchars := congrArg String.toList h
    rw [hname, hname, List.append_cancel_left_eq] at hchars
    apply String.toList_inj.mp
    by_cases hi : (Text.snake i).isEmpty = true
    · by_cases hj : (Text.snake j).isEmpty = true
      · rw [String.isEmpty_iff.mp hi, String.isEmpty_iff.mp hj]
      · simp [hi, hj] at hchars
    · by_cases hj : (Text.snake j).isEmpty = true
      · simp [hi, hj] at hchars
      · simpa [hi, hj] using hchars
  · intro h
    simp only [pollName, h]

namespace Program

/-! ### What calls reach -/

theorem reached_of_mem {block : List String} {outer : List (List String)} {id : String}
    (hid : id ∈ block)
    (hblock : ∀ other ∈ block, Cypress.pollName other = Cypress.pollName id → other = id) :
    reached (block :: outer) id = some id := by
  rw [reached, List.flatten_cons, List.find?_append]
  cases hfind : block.find? fun other => Cypress.pollName other = Cypress.pollName id with
  | none => simpa using List.find?_eq_none.mp hfind id hid
  | some other =>
      have hname : Cypress.pollName other = Cypress.pollName id := by
        simpa using List.find?_some hfind
      rw [Option.some_or, hblock other (List.mem_of_find?_eq_some hfind) hname]

theorem reached_of_notMem {block : List String} {outer : List (List String)} {id : String}
    (hblock : ∀ other ∈ block, Cypress.pollName other ≠ Cypress.pollName id) :
    reached (block :: outer) id = reached outer id := by
  have hfind : (block.find? fun other => Cypress.pollName other = Cypress.pollName id) = none := by
    rw [List.find?_eq_none]
    intro other hother
    simpa using hblock other hother
  rw [reached, List.flatten_cons, List.find?_append, hfind, Option.none_or, reached]

/-- A call that reaches its own loop is not caught by a block that does not declare it. -/
theorem pollName_ne_of_reached {block : List String} {outer : List (List String)} {id : String}
    (hid : id ∉ block) (hreached : reached (block :: outer) id = some id) :
    ∀ other ∈ block, Cypress.pollName id ≠ Cypress.pollName other := by
  intro other hother hname
  rw [reached, List.flatten_cons, List.find?_append] at hreached
  cases hfind : block.find? fun other => Cypress.pollName other = Cypress.pollName id with
  | none => exact absurd hname.symm (by simpa using List.find?_eq_none.mp hfind other hother)
  | some found =>
      rw [hfind, Option.some_or, Option.some.injEq] at hreached
      exact hid (hreached ▸ List.mem_of_find?_eq_some hfind)

/-- The names of functions tell the loops of a block apart. -/
def NamesTell (block : List String) : Prop :=
  ∀ i ∈ block, ∀ j ∈ block, Cypress.pollName i = Cypress.pollName j → i = j

/-- Everything inside of a block: a property of its inner blocks, and one of the loops that
watch with the blocks of their bodies. -/
def Inside (onBlock : List String → Prop) (onNest : String → List String → Prop)
    (p : Program) : Prop :=
  (∀ block ∈ p.inner, onBlock block) ∧ ∀ nest ∈ p.nests, onNest nest.1 nest.2

section

variable {onBlock : List String → Prop} {onNest : String → List String → Prop} {id : String}
  {body rest : Program}

theorem inside_choose {test : String} {yes no : Program} :
    (choose id test yes no rest).Inside onBlock onNest ↔
      (onBlock yes.declared ∧ yes.Inside onBlock onNest) ∧
        (onBlock no.declared ∧ no.Inside onBlock onNest) ∧ rest.Inside onBlock onNest := by
  simp only [Inside, inner, nests, List.forall_mem_append, List.forall_mem_cons]
  tauto

theorem inside_times {count : String} :
    (loop id (.times count) body rest).Inside onBlock onNest ↔
      (onBlock body.declared ∧ body.Inside onBlock onNest) ∧ rest.Inside onBlock onNest := by
  simp only [Inside, inner, nests, List.forall_mem_append, List.forall_mem_cons]
  tauto

theorem inside_watching {e : Element} :
    (loop id (.watching e) body rest).Inside onBlock onNest ↔
      onNest id body.declared ∧
        (onBlock body.declared ∧ body.Inside onBlock onNest) ∧ rest.Inside onBlock onNest := by
  simp only [Inside, inner, nests, List.forall_mem_append, List.forall_mem_cons]
  tauto

end

/-- Where names tell apart the loops that meet, calls reach their own loop.  The block around
may declare more than the program does, namely what stands before it. -/
theorem own_of_namesTell {p : Program} {block : List String} {outer : List (List String)}
    (hdeclared : p.declared ⊆ block) (hblock : NamesTell block)
    (hinside : p.Inside NamesTell fun id block =>
      ∀ j ∈ block, Cypress.pollName j ≠ Cypress.pollName id) :
    ∀ call ∈ p.calls (block :: outer), call.2 = some call.1 := by
  induction p generalizing block outer with
  | done => simp [calls]
  | plain ls rest ih => exact ih hdeclared hblock hinside
  | act id ls rest ih => exact ih hdeclared hblock hinside
  | choose id test yes no rest ihyes ihno ihrest =>
      obtain ⟨⟨hyes, hyes'⟩, ⟨hno, hno'⟩, hrest⟩ := inside_choose.mp hinside
      simp only [calls, List.forall_mem_append]
      exact ⟨⟨ihyes (List.Subset.refl _) hyes hyes', ihno (List.Subset.refl _) hno hno'⟩,
        ihrest hdeclared hblock hrest⟩
  | loop id head body rest ihbody ihrest =>
      cases head with
      | times count =>
          obtain ⟨⟨hbody, hbody'⟩, hrest⟩ := inside_times.mp hinside
          simp only [calls, List.forall_mem_append]
          exact ⟨ihbody (List.Subset.refl _) hbody hbody', ihrest hdeclared hblock hrest⟩
      | watching e =>
          obtain ⟨hothers, ⟨hbody, hbody'⟩, hrest⟩ := inside_watching.mp hinside
          obtain ⟨hid, hdeclared⟩ := List.cons_subset.mp hdeclared
          have hcall : reached (block :: outer) id = some id :=
            reached_of_mem hid fun other hother => hblock other hother id hid
          have hagain : reached (body.declared :: block :: outer) id = some id := by
            rw [reached_of_notMem hothers, hcall]
          simp only [calls, List.forall_mem_append, List.forall_mem_cons]
          exact ⟨ihbody (List.Subset.refl _) hbody hbody', hagain, hcall,
            ihrest hdeclared hblock hrest⟩

/-- A loop that watches calls itself from the block of its body. -/
theorem exists_call_of_mem_nests {p : Program} {nest : String × List String}
    (h : nest ∈ p.nests) (scope : List (List String)) :
    ∃ outer, (nest.1, reached (nest.2 :: outer) nest.1) ∈ p.calls scope := by
  induction p generalizing scope with
  | done => cases h
  | plain ls rest ih => exact ih h scope
  | act id ls rest ih => exact ih h scope
  | choose id test yes no rest ihyes ihno ihrest =>
      simp only [nests, List.mem_append] at h
      simp only [calls, List.mem_append]
      rcases h with (h | h) | h
      · obtain ⟨outer, hcall⟩ := ihyes h (yes.declared :: scope)
        exact ⟨outer, Or.inl (Or.inl hcall)⟩
      · obtain ⟨outer, hcall⟩ := ihno h (no.declared :: scope)
        exact ⟨outer, Or.inl (Or.inr hcall)⟩
      · obtain ⟨outer, hcall⟩ := ihrest h scope
        exact ⟨outer, Or.inr hcall⟩
  | loop id head body rest ihbody ihrest =>
      cases head with
      | times count =>
          simp only [nests, List.mem_append] at h
          simp only [calls, List.mem_append]
          rcases h with h | h
          · obtain ⟨outer, hcall⟩ := ihbody h (body.declared :: scope)
            exact ⟨outer, Or.inl hcall⟩
          · obtain ⟨outer, hcall⟩ := ihrest h scope
            exact ⟨outer, Or.inr hcall⟩
      | watching e =>
          simp only [nests, List.mem_append, List.mem_cons] at h
          simp only [calls, List.mem_append, List.mem_cons]
          rcases h with rfl | h | h
          · exact ⟨scope, Or.inr (Or.inl rfl)⟩
          · obtain ⟨outer, hcall⟩ := ihbody h (body.declared :: scope)
            exact ⟨outer, Or.inl hcall⟩
          · obtain ⟨outer, hcall⟩ := ihrest h scope
            exact ⟨outer, Or.inr (Or.inr (Or.inr hcall))⟩

/-- In a program that declares no loop twice, functions keep apart exactly if the names of
loops that meet do. -/
theorem Distinct.keepsApart_iff {p : Program} (h : p.Distinct) :
    p.KeepsApart ↔
      ∀ i j, p.Meet i j → Cypress.pollName i = Cypress.pollName j → i = j := by
  constructor
  · intro hapart i j hmeet hname
    cases hmeet with
    | beside hblock hi hj => exact List.inj_on_of_nodup_map (hapart.once _ hblock) hi hj hname
    | within hnest hj =>
        obtain ⟨outer, hcall⟩ := exists_call_of_mem_nests hnest [p.declared]
        exact absurd hname
          (pollName_ne_of_reached (h.outside _ hnest) (hapart.own _ hcall) j hj)
  · intro hnames
    have htell : ∀ block ∈ p.blocks, NamesTell block :=
      fun block hblock i hi j hj => hnames i j (.beside hblock hi hj)
    refine ⟨?_, own_of_namesTell (List.Subset.refl _) (htell _ List.mem_cons_self) ⟨?_, ?_⟩⟩
    · intro block hblock
      exact (h.once block hblock).map_on (htell block hblock)
    · intro block hblock
      exact htell block (List.mem_cons_of_mem _ hblock)
    · intro nest hnest j hj hname
      exact h.outside nest hnest (hnames nest.1 j (.within hnest hj) hname.symm ▸ hj)

end Program

/-! ### A walk declares no loop twice -/

namespace Program

/-- What a walk that has been where the scope says declares: nothing that would close a
cycle, nothing twice, and no loop in its own body. -/
structure Enters (scope : Scope) (p : Program) : Prop where
  opened : ∀ i ∈ p.declared, scope.closes i = false
  nodup : p.declared.Nodup
  inside : p.Inside List.Nodup fun id block => id ∉ block

theorem enters_done (scope : Scope) : Enters scope done :=
  ⟨by simp [declared], List.nodup_nil, by simp [Inside, inner, nests]⟩

section

variable {scope : Scope} {id : String} {ls : List Line} {p body : Program}

theorem Enters.plain (h : p.Enters scope) : (Program.plain ls p).Enters scope :=
  ⟨h.opened, h.nodup, h.inside⟩

/-- What comes after a step is declared for the walk that comes to the step. -/
theorem Enters.act (h : p.Enters (scope.enter id)) : (Program.act id ls p).Enters scope := by
  refine ⟨?_, h.nodup, h.inside⟩
  intro i hi
  have hopened := h.opened i hi
  rw [Scope.closes_enter, Bool.or_eq_false_iff] at hopened
  exact hopened.2

theorem Enters.choose {test : String} {yes no : Program} {scope' : Scope}
    (hyes : yes.Enters scope') (hno : no.Enters scope') :
    (Program.choose id test yes no done).Enters scope :=
  ⟨by simp [declared], List.nodup_nil,
    inside_choose.mpr ⟨⟨hyes.nodup, hyes.inside⟩, ⟨hno.nodup, hno.inside⟩,
      (enters_done scope).inside⟩⟩

theorem Enters.times {count : String} {scope' : Scope} (hbody : body.Enters scope')
    (hnext : p.Enters scope) : (Program.loop id (.times count) body p).Enters scope :=
  ⟨hnext.opened, hnext.nodup,
    inside_times.mpr ⟨⟨hbody.nodup, hbody.inside⟩, hnext.inside⟩⟩

/-- The path before a loop is left at its body, but the loop itself stays closed there. -/
theorem Enters.watching {e : Element} (hopen : scope.closes id = false)
    (hbody : body.Enters ((scope.enter id).loopBody id)) (hnext : p.Enters (scope.enter id)) :
    (Program.act id ls (.loop id (.watching e) body p)).Enters scope := by
  have hbodyId : id ∉ body.declared := by
    intro hid
    have hopened := hbody.opened id hid
    simp [Scope.closes, Scope.loopBody] at hopened
  have hnextId : id ∉ p.declared := by
    intro hid
    have hopened := hnext.opened id hid
    simp at hopened
  have hafter : (Program.act id ls p).Enters scope := hnext.act
  have hinside : (Program.loop id (.watching e) body p).Inside List.Nodup
      fun id block => id ∉ block :=
    inside_watching.mpr ⟨hbodyId, ⟨hbody.nodup, hbody.inside⟩, hnext.inside⟩
  refine ⟨?_, List.nodup_cons.mpr ⟨hnextId, hnext.nodup⟩, hinside⟩
  intro i hi
  rcases List.mem_cons.mp hi with rfl | hi
  · exact hopen
  · exact hafter.opened i hi

end

theorem enters_elim {scope : Scope} {target : Option Node} {f : Node → Script}
    (h : ∀ n, ((f n).program .cypress).Enters scope) :
    ((target.elim .stop f).program .cypress).Enters scope := by
  cases target with
  | none => exact enters_done scope
  | some n => exact h n

theorem Enters.arm {scope : Scope} {s : Script} (answer : Bool)
    (h : (s.program .cypress).Enters scope) :
    (Target.cypress.arm answer s (s.program .cypress)).Enters scope := by
  cases s with
  | stop => exact (enters_done scope).plain.plain
  | _ => exact h.plain

theorem Enters.loop {scope : Scope} {site : Site} {l : Loop} {body next : Script}
    (hopen : scope.closes site.id = false)
    (hbody : (body.program .cypress).Enters ((scope.enter site.id).loopBody site.id))
    (hnext : (next.program .cypress).Enters (scope.enter site.id)) :
    ((Script.loop site l body next).program .cypress).Enters scope := by
  unfold Script.program
  cases Target.cypress.head? l site.element with
  | none => exact hnext.plain.act
  | some head =>
      cases head with
      | times count => exact (hbody.plain.times hnext.plain).act
      | watching e => exact Enters.watching hopen hbody.plain hnext.plain

end Program

theorem Flow.enters_walk (g : Flow) (ids : List String) (node : Node) (scope : Scope)
    (isRoot : Bool) :
    ((g.walk ids node scope isRoot).program .cypress).Enters scope := by
  fun_induction Flow.walk g ids node scope isRoot with
  | case1 node scope isRoot hopen inner site a hstep ih => exact (Program.enters_elim ih).act
  | case2 node scope isRoot hopen inner site c hstep ih =>
      exact .act (.choose ((Program.enters_elim ih).arm true) ((Program.enters_elim ih).arm false))
  | case3 node scope isRoot hopen inner site l hstep ihbody ihdone =>
      refine Program.Enters.loop hopen.2 ?_ (Program.enters_elim ihdone)
      split
      · exact Program.enters_elim ihbody
      · exact Program.enters_done _
  | case4 node scope isRoot hclosed => exact (Program.enters_done scope).plain

theorem Flow.distinct_script (g : Flow) (root : Node) :
    ((g.script root).program .cypress).Distinct := by
  have henters := g.enters_walk (root.id :: g.ids) root {} true
  refine ⟨?_, henters.inside.2⟩
  intro block hblock
  rcases List.mem_cons.mp hblock with rfl | hblock
  · exact henters.nodup
  · exact henters.inside.1 block hblock

/-- **The functions of loops keep apart exactly if no two loops that meet have ids of the
same words.**  The names of the functions are the same exactly if the words are; loops that
do not meet may have one name without harm. -/
theorem polls_keep_apart_iff (g : Flow) (root : Node) :
    (∀ i j, Cypress.pollName i = Cypress.pollName j ↔ Text.snake i = Text.snake j) ∧
      ((g.script root).program .cypress).lines .cypress = (g.script root).lines .cypress ∧
      (((g.script root).program .cypress).KeepsApart ↔
        ∀ i j, ((g.script root).program .cypress).Meet i j →
          Text.snake i = Text.snake j → i = j) := by
  refine ⟨Cypress.pollName_eq_iff, Script.lines_program _ _ (g.isTidy_walk _ root {} true), ?_⟩
  simpa only [Cypress.pollName_eq_iff] using (g.distinct_script root).keepsApart_iff

/-- Two loops that watch an element, the second of which comes through an outlet of the
first.  Their ids have the same words. -/
def twoWatches (outlet : Outlet) : Flow where
  nodes := [⟨"start", .entry, []⟩, ⟨"wait 1", .loop, [("loopType", .string "While")]⟩,
    ⟨"wait-1", .loop, [("loopType", .string "While")]⟩, ⟨"spinner", .element, []⟩]
  edges := [.flow "e1" "start" "wait 1", .via "e2" "wait 1" outlet "wait-1",
    .data "e3" "spinner" "wait 1", .data "e4" "spinner" "wait-1"]

/-- The program of the test case over the two loops. -/
def twoWatchesProgram (outlet : Outlet) : Program :=
  ((twoWatches outlet).script ⟨"start", .entry, []⟩).program .cypress

/-- One after the other they declare a function twice in one block; one inside the other, the
outer one calls the inner one when it should call itself. -/
theorem twoWatches_clash :
    (twoWatches .done).ids.Nodup ∧ (twoWatches .body).ids.Nodup ∧
      (twoWatchesProgram .done).declared = ["wait 1", "wait-1"] ∧
      (twoWatchesProgram .done).declared.map Cypress.pollName
        = ["repeatWhile_wait_1", "repeatWhile_wait_1"] ∧
      ¬(twoWatchesProgram .done).KeepsApart ∧
      ("wait 1", some "wait-1") ∈
        (twoWatchesProgram .body).calls [(twoWatchesProgram .body).declared] ∧
      ¬(twoWatchesProgram .body).KeepsApart := by
  have hnames : (twoWatchesProgram .done).declared.map Cypress.pollName
      = ["repeatWhile_wait_1", "repeatWhile_wait_1"] := by decide +kernel
  have hcall : ("wait 1", some "wait-1") ∈
      (twoWatchesProgram .body).calls [(twoWatchesProgram .body).declared] := by decide +kernel
  refine ⟨by decide, by decide, by decide +kernel, hnames, ?_, hcall, ?_⟩
  · intro hapart
    have honce := hapart.once _ List.mem_cons_self
    rw [hnames] at honce
    exact absurd honce (by decide)
  · intro hapart
    exact absurd (hapart.own _ hcall) (by decide)

end FlowSuite
