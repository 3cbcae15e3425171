/-
What becomes of a canvas.

Everything after the canvas looks steps up by their ids, and some of it takes for granted
that no two steps have the same one.  The editor does not see to that, so it is seen to when
a canvas is made into a flow.  Blocks are taken one after the other, with the ids met so far;
the first block that repeats one of them, or whose type is none of a step, ends it.

What the ids met so far are for is said by `AcceptedAfter`, without any set: no block is
refused behind the ones before it.  It holds of blocks one at a time, so it goes along with
the recursion; and for blocks that are accepted to the end it says that their ids are
distinct.  The error is the one of the first block that is refused, and if there is none,
every block becomes a node and every wire an edge, in order, with all that they hold.
-/
import FlowSuite.Flow.Canvas
import Mathlib.Data.List.Forall2

namespace FlowSuite

/-! ### Types and handles -/

/-- The types that a block can have. -/
def Canvas.blockTypes : List String :=
  ["start_session", "element", "interact", "assert", "condition", "loop", "wait",
    "screenshot", "set_variable", "network", "load_fixture", "custom_command"]

theorem Kind.blockType_of_ofBlockType? {s : String} {k : Kind} (h : ofBlockType? s = some k) :
    k.blockType = s := by
  have hfound := List.find?_some h
  simpa using hfound

theorem Kind.ofBlockType?_eq_none_iff (s : String) :
    ofBlockType? s = none ↔ s ∉ Canvas.blockTypes := by
  have htypes : Canvas.blockTypes = all.map blockType := rfl
  rw [ofBlockType?, List.find?_eq_none, htypes, List.mem_map]
  constructor
  · rintro h ⟨k, hk, rfl⟩
    exact h k hk (beq_self_eq_true _)
  · intro h k hk heq
    exact h ⟨k, hk, by simpa using heq⟩

/-- The handle that stands for an outlet; the flow outlet has none of its own. -/
def Outlet.handle? : Outlet → Option String
  | .flow => none
  | .whenTrue => some "true-out"
  | .whenFalse => some "false-out"
  | .body => some "loop-body"
  | .done => some "loop-done"

/-- The handle that stands for an inlet; the flow inlet has none of its own. -/
def Inlet.handle? : Inlet → Option String
  | .flow => none
  | .data => some "data-in"

/-- An outlet is behind its handle, and the flow outlet is behind all other ones too. -/
def Outlet.IsBehind (o : Outlet) (handle : Option String) : Prop :=
  o.handle? = handle ∨ o = .flow ∧ ∀ o' : Outlet, o'.handle? ≠ handle

/-- An inlet is behind its handle, and the flow inlet is behind all other ones too. -/
def Inlet.IsBehind (i : Inlet) (handle : Option String) : Prop :=
  i.handle? = handle ∨ i = .flow ∧ ∀ i' : Inlet, i'.handle? ≠ handle

theorem Outlet.isBehind_ofHandle (handle : Option String) :
    (ofHandle handle).IsBehind handle := by
  unfold ofHandle
  split
  · exact Or.inl rfl
  · exact Or.inl rfl
  · exact Or.inl rfl
  · exact Or.inl rfl
  · rename_i htrue hfalse hbody hdone
    cases handle with
    | none => exact Or.inl rfl
    | some s =>
        refine Or.inr ⟨rfl, fun o => ?_⟩
        cases o with
        | flow => exact nofun
        | whenTrue => exact fun h => htrue h.symm
        | whenFalse => exact fun h => hfalse h.symm
        | body => exact fun h => hbody h.symm
        | done => exact fun h => hdone h.symm

theorem Inlet.isBehind_ofHandle (handle : Option String) :
    (ofHandle handle).IsBehind handle := by
  unfold ofHandle
  split
  · exact Or.inl rfl
  · rename_i hdata
    cases handle with
    | none => exact Or.inl rfl
    | some s =>
        refine Or.inr ⟨rfl, fun i => ?_⟩
        cases i with
        | flow => exact nofun
        | data => exact fun h => hdata h.symm

namespace Canvas

/-! ### One block -/

/-- A block that cannot stand behind the given ones: it repeats an id, or is of no type. -/
def Block.IsRefused (earlier : List Block) (b : Block) : Prop :=
  b.id ∈ earlier.map (·.id) ∨ b.type ∉ blockTypes

/-- The error for a block behind the given ones.  That an id is repeated is said first. -/
inductive Block.Fails (earlier : List Block) (b : Block) : FlowError → Prop where
  | repeated (h : b.id ∈ earlier.map (·.id)) : Fails earlier b (.duplicateId b.id)
  | unknown (hnew : b.id ∉ earlier.map (·.id)) (h : b.type ∉ blockTypes) :
      Fails earlier b (.unknownType b.id b.type)

/-- The node has what the block has. -/
structure Block.Becomes (b : Block) (n : Node) : Prop where
  id : n.id = b.id
  kind : n.kind.blockType = b.type
  data : n.data = b.data

/-- The ids met so far are those of the given blocks. -/
def Met (seen : List String) (earlier : List Block) : Prop :=
  ∀ id, id ∈ seen ↔ id ∈ earlier.map (·.id)

theorem Met.next {seen : List String} {earlier : List Block} (h : Met seen earlier)
    (b : Block) : Met (b.id :: seen) (earlier ++ [b]) := by
  intro id
  rw [List.mem_cons, h id, List.map_append, List.mem_append, List.map_singleton,
    List.mem_singleton]
  exact or_comm

theorem Block.Fails.isRefused {earlier : List Block} {b : Block} {e : FlowError}
    (h : b.Fails earlier e) : b.IsRefused earlier := by
  cases h with
  | repeated h => exact Or.inl h
  | unknown hnew h => exact Or.inr h

theorem Block.Fails.unique {earlier : List Block} {b : Block} {e e' : FlowError}
    (h : b.Fails earlier e) (h' : b.Fails earlier e') : e = e' := by
  cases h with
  | repeated hmet =>
      cases h' with
      | repeated => rfl
      | unknown hnew => exact absurd hmet hnew
  | unknown hnew htype =>
      cases h' with
      | repeated hmet => exact absurd hmet hnew
      | unknown => rfl

/-- A block fails, or it is not refused and becomes a node. -/
theorem Block.toNode_cases {seen : List String} {earlier : List Block} (hmet : Met seen earlier)
    (b : Block) :
    (∃ e, b.toNode seen = .error e ∧ b.Fails earlier e) ∨
      ∃ n, b.toNode seen = .ok n ∧ ¬b.IsRefused earlier ∧ b.Becomes n := by
  unfold toNode
  by_cases hid : b.id ∈ seen
  · rw [if_pos hid]
    exact Or.inl ⟨_, rfl, .repeated ((hmet b.id).mp hid)⟩
  · have hnew : b.id ∉ earlier.map (·.id) := fun h => hid ((hmet b.id).mpr h)
    rw [if_neg hid]
    cases hkind : Kind.ofBlockType? b.type with
    | none =>
        exact Or.inl ⟨_, rfl, .unknown hnew ((Kind.ofBlockType?_eq_none_iff _).mp hkind)⟩
    | some k =>
        refine Or.inr ⟨_, rfl, ?_, ⟨rfl, Kind.blockType_of_ofBlockType? hkind, rfl⟩⟩
        rintro (hold | htype)
        · exact hnew hold
        · rw [(Kind.ofBlockType?_eq_none_iff _).mpr htype] at hkind
          cases hkind

/-! ### Blocks one after the other -/

/-- Of blocks that come after the given ones, none is refused behind those before it. -/
def AcceptedAfter (earlier bs : List Block) : Prop :=
  ∀ front b back, bs = front ++ b :: back → ¬b.IsRefused (earlier ++ front)

/-- None of the blocks is refused behind those before it. -/
def Accepted (bs : List Block) : Prop :=
  ∀ front b back, bs = front ++ b :: back → ¬b.IsRefused front

theorem acceptedAfter_nil (earlier : List Block) : AcceptedAfter earlier [] := by
  intro front b back h
  exact absurd h.symm (by simp)

theorem acceptedAfter_cons_iff {earlier : List Block} {b : Block} {bs : List Block} :
    AcceptedAfter earlier (b :: bs) ↔
      ¬b.IsRefused earlier ∧ AcceptedAfter (earlier ++ [b]) bs := by
  constructor
  · intro h
    refine ⟨?_, ?_⟩
    · have hfirst := h [] b bs rfl
      rwa [List.append_nil] at hfirst
    · rintro front b' back rfl
      have hlater := h (b :: front) b' back rfl
      rwa [List.append_cons] at hlater
  · rintro ⟨hfirst, hrest⟩ front b' back hsplit
    cases front with
    | nil =>
        cases hsplit
        rwa [List.append_nil]
    | cons c front =>
        cases hsplit
        have hlater := hrest front b' back rfl
        rwa [← List.append_cons] at hlater

/-- Blocks that are accepted have ids of their own. -/
theorem AcceptedAfter.nodup {earlier bs : List Block} (h : AcceptedAfter earlier bs) :
    (bs.map (·.id)).Nodup ∧ ∀ b ∈ bs, b.id ∉ earlier.map (·.id) := by
  induction bs generalizing earlier with
  | nil => exact ⟨List.nodup_nil, nofun⟩
  | cons b bs ih =>
      obtain ⟨hfirst, hrest⟩ := acceptedAfter_cons_iff.mp h
      obtain ⟨hnodup, hnew⟩ := ih hrest
      have hafter : ∀ b' ∈ bs, b'.id ∉ earlier.map (·.id) ∧ b'.id ≠ b.id := by
        intro b' hb'
        have hboth := hnew b' hb'
        rw [List.map_append, List.mem_append, not_or, List.map_singleton,
          List.mem_singleton] at hboth
        exact hboth
      refine ⟨?_, ?_⟩
      · refine List.nodup_cons.mpr ⟨?_, hnodup⟩
        intro hmem
        obtain ⟨b', hb', hid⟩ := List.mem_map.mp hmem
        exact (hafter b' hb').2 hid
      · intro b' hb'
        rcases List.mem_cons.mp hb' with rfl | hb'
        · exact fun hold => hfirst (Or.inl hold)
        · exact (hafter b' hb').1

theorem nodes_cons_of_error {seen : List String} {b : Block} {bs : List Block} {e : FlowError}
    (h : b.toNode seen = .error e) : nodes seen (b :: bs) = .error e := by
  rw [nodes, h]

theorem nodes_cons_of_ok {seen : List String} {b : Block} {bs : List Block} {n : Node}
    (h : b.toNode seen = .ok n) :
    nodes seen (b :: bs) = (nodes (b.id :: seen) bs).map (n :: ·) := by
  rw [nodes, h]
  cases nodes (b.id :: seen) bs with
  | error e => rfl
  | ok ns => rfl

/-- The error is the one of the first block that is refused. -/
theorem nodes_eq_error_iff {seen : List String} {earlier : List Block} (hmet : Met seen earlier)
    (bs : List Block) (e : FlowError) :
    nodes seen bs = .error e ↔
      ∃ before b after, bs = before ++ b :: after ∧ AcceptedAfter earlier before ∧
        b.Fails (earlier ++ before) e := by
  induction bs generalizing seen earlier with
  | nil =>
      refine iff_of_false nofun ?_
      rintro ⟨before, b, after, hsplit, -⟩
      exact absurd hsplit.symm (by simp)
  | cons b bs ih =>
      rcases b.toNode_cases hmet with ⟨e', hnode, hfails⟩ | ⟨n, hnode, hkept, -⟩
      -- The block is the first one that is refused.
      · rw [nodes_cons_of_error hnode]
        constructor
        · intro heq
          cases heq
          refine ⟨[], b, bs, rfl, acceptedAfter_nil earlier, ?_⟩
          rwa [List.append_nil]
        · rintro ⟨before, b', after, hsplit, haccepted, hfails'⟩
          cases before with
          | nil =>
              cases hsplit
              rw [List.append_nil] at hfails'
              rw [hfails.unique hfails']
          | cons c before =>
              cases hsplit
              exact absurd hfails.isRefused (acceptedAfter_cons_iff.mp haccepted).1
      -- The first one that is refused is the first of the rest, behind one block more.
      · have hrest : nodes seen (b :: bs) = .error e ↔ nodes (b.id :: seen) bs = .error e := by
          rw [nodes_cons_of_ok hnode]
          cases nodes (b.id :: seen) bs with
          | error e' => exact Iff.rfl
          | ok ns => exact iff_of_false nofun nofun
        rw [hrest, ih (hmet.next b)]
        constructor
        · rintro ⟨before, b', after, rfl, haccepted, hfails⟩
          refine ⟨b :: before, b', after, rfl, acceptedAfter_cons_iff.mpr ⟨hkept, haccepted⟩, ?_⟩
          rwa [List.append_cons]
        · rintro ⟨before, b', after, hsplit, haccepted, hfails⟩
          cases before with
          | nil =>
              cases hsplit
              rw [List.append_nil] at hfails
              exact absurd hfails.isRefused hkept
          | cons c before =>
              cases hsplit
              refine ⟨before, b', after, rfl, (acceptedAfter_cons_iff.mp haccepted).2, ?_⟩
              rwa [← List.append_cons]

/-- Without an error all blocks are accepted, and each one becomes a node. -/
theorem becomes_of_nodes_eq_ok {seen : List String} {earlier : List Block}
    (hmet : Met seen earlier) {bs : List Block} {ns : List Node} (h : nodes seen bs = .ok ns) :
    AcceptedAfter earlier bs ∧ List.Forall₂ Block.Becomes bs ns := by
  induction bs generalizing seen earlier ns with
  | nil =>
      cases h
      exact ⟨acceptedAfter_nil earlier, .nil⟩
  | cons b bs ih =>
      rcases b.toNode_cases hmet with ⟨e, hnode, -⟩ | ⟨n, hnode, hkept, hbecomes⟩
      · rw [nodes_cons_of_error hnode] at h
        cases h
      · rw [nodes_cons_of_ok hnode] at h
        cases hrest : nodes (b.id :: seen) bs with
        | error e =>
            rw [hrest] at h
            cases h
        | ok rest =>
            rw [hrest] at h
            cases h
            obtain ⟨haccepted, hbecome⟩ := ih (hmet.next b) hrest
            exact ⟨acceptedAfter_cons_iff.mpr ⟨hkept, haccepted⟩, .cons hbecomes hbecome⟩

theorem map_id_of_becomes {bs : List Block} {ns : List Node}
    (h : List.Forall₂ Block.Becomes bs ns) : ns.map (·.id) = bs.map (·.id) := by
  induction h with
  | nil => rfl
  | cons hbecomes hrest ih => rw [List.map_cons, List.map_cons, hbecomes.id, ih]

/-! ### Wires -/

/-- The edge has what the wire at a position has, and an id also if the wire has none. -/
structure Wire.Becomes (position : Nat) (w : Wire) (e : Edge) : Prop where
  named : ∀ id, w.id = some id → e.id = id
  numbered : w.id = none → e.id = s!"edge-{position}"
  source : e.source = w.source
  target : e.target = w.target
  outlet : ∃ o, e.outlet? = some o ∧ o.IsBehind w.sourceHandle
  inlet : ∃ i, e.inlet? = some i ∧ i.IsBehind w.targetHandle

theorem Wire.becomes_toEdge (position : Nat) (w : Wire) :
    w.Becomes position (w.toEdge position) where
  named id h := by simp only [toEdge, h, Option.getD_some]
  numbered h := by simp only [toEdge, h, Option.getD_none]
  source := rfl
  target := rfl
  outlet := ⟨_, rfl, Outlet.isBehind_ofHandle _⟩
  inlet := ⟨_, rfl, Inlet.isBehind_ofHandle _⟩

theorem Wire.getElem?_mapIdx_toEdge {ws : List Wire} {i : Nat} {w : Wire}
    (h : ws[i]? = some w) : (ws.mapIdx Wire.toEdge)[i]? = some (w.toEdge i) := by
  rw [List.getElem?_mapIdx, h]
  rfl

/-! ### The flow -/

theorem toFlow_eq_error_iff (c : Canvas) (e : FlowError) :
    c.toFlow = .error e ↔ nodes [] c.blocks = .error e := by
  unfold toFlow
  cases nodes [] c.blocks with
  | error e' => simp
  | ok ns => exact iff_of_false nofun nofun

theorem of_toFlow_eq_ok {c : Canvas} {g : Flow} (h : c.toFlow = .ok g) :
    nodes [] c.blocks = .ok g.nodes ∧ g.edges = c.wires.mapIdx Wire.toEdge := by
  unfold toFlow at h
  cases hnodes : nodes [] c.blocks with
  | error e =>
      rw [hnodes] at h
      cases h
  | ok ns =>
      rw [hnodes] at h
      cases h
      exact ⟨rfl, rfl⟩

theorem met_nil : Met [] [] := fun _ => Iff.rfl

/-- A block that is refused makes an error, its own or an earlier one's. -/
theorem exists_toFlow_eq_error {c : Canvas} {before after : List Block} {b : Block}
    (hblocks : c.blocks = before ++ b :: after) (h : b.IsRefused before) :
    ∃ e, c.toFlow = .error e := by
  cases hflow : c.toFlow with
  | error e => exact ⟨e, rfl⟩
  | ok g =>
      have haccepted : Accepted c.blocks :=
        (becomes_of_nodes_eq_ok met_nil (of_toFlow_eq_ok hflow).1).1
      exact absurd h (haccepted before b after hblocks)

/-- **A canvas is refused exactly if a block is, and else nothing of it is lost.**  The error
is the one of the first block that repeats the id of an earlier one or is of no type.
Otherwise the nodes are those of the blocks, in order and with distinct ids, and the edges
those of the wires, in order, with both ends set and an id by their position if they had
none. -/
theorem canvas_becomes_flow (c : Canvas) :
    ((∃ e, c.toFlow = .error e) ↔
      ∃ before b after, c.blocks = before ++ b :: after ∧ b.IsRefused before) ∧
    (∀ e, c.toFlow = .error e ↔
      ∃ before b after, c.blocks = before ++ b :: after ∧ Accepted before ∧ b.Fails before e) ∧
    (∀ g, c.toFlow = .ok g →
      List.Forall₂ Block.Becomes c.blocks g.nodes ∧ g.ids.Nodup ∧
        g.edges.length = c.wires.length ∧
        ∀ i (w : Wire), c.wires[i]? = some w → ∃ e, g.edges[i]? = some e ∧ w.Becomes i e) := by
  have hfirst : ∀ e, c.toFlow = .error e ↔
      ∃ before b after, c.blocks = before ++ b :: after ∧ Accepted before ∧
        b.Fails before e := by
    intro e
    exact (toFlow_eq_error_iff c e).trans (nodes_eq_error_iff met_nil c.blocks e)
  refine ⟨?_, hfirst, ?_⟩
  · constructor
    · rintro ⟨e, he⟩
      obtain ⟨before, b, after, hblocks, -, hfails⟩ := (hfirst e).mp he
      exact ⟨before, b, after, hblocks, hfails.isRefused⟩
    · rintro ⟨before, b, after, hblocks, hrefused⟩
      exact exists_toFlow_eq_error hblocks hrefused
  · intro g hg
    obtain ⟨hnodes, hedges⟩ := of_toFlow_eq_ok hg
    obtain ⟨haccepted, hbecome⟩ := becomes_of_nodes_eq_ok met_nil hnodes
    refine ⟨hbecome, ?_, ?_, ?_⟩
    · rw [Flow.ids, map_id_of_becomes hbecome]
      exact haccepted.nodup.1
    · rw [hedges, List.length_mapIdx]
    · intro i w hw
      rw [hedges]
      exact ⟨w.toEdge i, Wire.getElem?_mapIdx_toEdge hw, w.becomes_toEdge i⟩

/-- A block whose type is unknown as well is refused for its id. -/
example :
    toFlow ⟨[⟨"a", "wait", [], none⟩, ⟨"a", "dance", [], none⟩, ⟨"b", "sing", [], none⟩], []⟩
      = .error (.duplicateId "a") := rfl

end Canvas

end FlowSuite
