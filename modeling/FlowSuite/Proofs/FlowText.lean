/-
Flows as text.

A flow is written as a JSON object and read back from its text as the flow that it was.
Ends of edges that were not said are left out and are read as not said, so a flow end that
was said stays different from one that was not.  The fields of a step are values of any
shape; they come back as they were if they are kept in the order of their keys, and since
reading puts them in order, only then.
-/
import FlowSuite.Flow.Codec
import FlowSuite.Proofs.Json.Text

namespace FlowSuite

/-! ### Records -/

theorem Object.filter_eq_of_nodup {fields : List (String × Json)}
    (h : (fields.map (·.1)).Nodup) (name : String) :
    fields.filter ([name].contains ·.1) = ((fields.lookup name).map (name, ·)).toList := by
  induction fields with
  | nil => rfl
  | cons f fields ih =>
      obtain ⟨key, value⟩ := f
      obtain ⟨hfirst, hrest⟩ := List.nodup_cons.mp h
      by_cases heq : key = name
      · subst heq
        have hnone : fields.filter ([key].contains ·.1) = [] := by
          rw [List.filter_eq_nil_iff]
          intro g hg hname
          have hkey : g.1 = key := by simpa using hname
          exact hfirst (List.mem_map.mpr ⟨g, hg, hkey⟩)
        rw [List.filter_cons_of_pos (by simp), hnone, List.lookup_cons_self]
        rfl
      · have hne : (name == key) = false := by simpa using Ne.symm heq
        rw [List.filter_cons_of_neg (by simpa using heq), ih hrest, List.lookup_cons, hne]

/-- A record that was written as an object has for each of its fields what stands under the
field's name. -/
theorem Document.record?_document {fields : List (String × Json)}
    (hkeys : (fields.map (·.1)).Nodup) (names : List String) :
    (Json.object fields).document.record? (names.map ([·]))
      = some (names.map fun name => (fields.lookup name).map Json.document) := by
  rw [Json.document_object, record?]
  refine Option.bind_eq_some_iff.mpr ⟨fields.map fun f => (f.1, f.2.document),
    Json.mapM_map_eq_some fun _ _ => rfl, Json.mapM_map_eq_some fun name _ => ?_⟩
  have hfilter := Object.filter_eq_of_nodup hkeys name
  rw [List.filter_map]
  simp only [Function.comp_def, hfilter]
  cases fields.lookup name with
  | none => rfl
  | some v => rfl

theorem Kind.ofName?_name (k : Kind) : ofName? k.name = some k := by
  cases k <;> decide

theorem Outlet.ofName?_name (o : Outlet) : ofName? o.name = some o := by
  cases o <;> decide

theorem Inlet.ofName?_name (i : Inlet) : ofName? i.name = some i := by
  cases i <;> decide

theorem Document.fields?_document {o : Object} (hint : (Json.object o).IsIntegral)
    (hord : (Json.object o).IsOrdered) {levels : Nat} (hdepth : (Json.object o).depth ≤ levels) :
    (Json.object o).document.fields? levels = some o := by
  rw [fields?, Json.ofDocument?_document hint hord hdepth]

/-! ### Steps -/

theorem Node.record?_document (n : Node) :
    n.toJson.document.record? [["id"], ["kind"], ["data"]]
      = some [some (.string (some n.id)), some (.string (some n.kind.name)),
          some (Json.object n.data).document] := by
  rw [toJson]
  exact Document.record?_document (by simp) ["id", "kind", "data"]

theorem Node.ofDocument?_document {n : Node} (hint : (Json.object n.data).IsIntegral)
    (hord : (Json.object n.data).IsOrdered) {levels : Nat}
    (hdepth : (Json.object n.data).depth ≤ levels - 1) :
    ofDocument? levels n.toJson.document = some n := by
  have hdata := Document.fields?_document hint hord hdepth
  simp [ofDocument?, n.record?_document, Document.required, Document.withDefault, Document.text?,
    Document.name?, Kind.ofName?_name, hdata]

theorem Document.object_of_fields? {levels : Nat} {d : Document} {o : Object}
    (h : d.fields? levels = some o) :
    (Json.object o).IsOrdered ∧ (Json.object o).depth ≤ levels := by
  unfold fields? at h
  split at h
  · rename_i fields hfields
    cases h
    exact Json.isOrdered_and_depth_le_of_ofDocument? hfields
  · cases h

/-- The fields of a step that was read are in order and nest no deeper than is allowed. -/
theorem Node.data_of_ofDocument? {levels : Nat} (hlevels : 1 < levels) {d : Document} {n : Node}
    (h : ofDocument? levels d = some n) :
    (Json.object n.data).IsOrdered ∧ (Json.object n.data).depth ≤ levels - 1 := by
  unfold ofDocument? at h
  obtain ⟨fields, -, h⟩ := Option.bind_eq_some_iff.mp h
  split at h
  · obtain ⟨id, -, h⟩ := Option.bind_eq_some_iff.mp h
    obtain ⟨kind, -, h⟩ := Option.bind_eq_some_iff.mp h
    obtain ⟨data, hdata, h⟩ := Option.bind_eq_some_iff.mp h
    cases h
    unfold Document.withDefault at hdata
    split at hdata
    · cases hdata
      have hempty : (Json.object []).IsOrdered := by decide
      exact ⟨hempty, Nat.le_sub_one_of_lt hlevels⟩
    · exact Document.object_of_fields? hdata
  · cases h

/-! ### Wires -/

theorem Edge.record?_document (e : Edge) :
    e.toJson.document.record?
        [["id"], ["sourceNodeId"], ["targetNodeId"], ["sourceRole"], ["targetRole"]]
      = some [some (.string (some e.id)), some (.string (some e.source)),
          some (.string (some e.target)), e.outlet?.map fun o => .string (some o.name),
          e.inlet?.map fun i => .string (some i.name)] := by
  obtain ⟨id, source, target, outlet?, inlet?⟩ := e
  cases outlet? <;> cases inlet? <;>
    exact Document.record?_document (by simp)
      ["id", "sourceNodeId", "targetNodeId", "sourceRole", "targetRole"]

/-- A name that was left out is read as left out, and a name that was written as that name. -/
theorem Document.optional_name {α : Type} {name : α → String} {ofName? : String → Option α}
    (h : ∀ a, ofName? (name a) = some a) (a? : Option α) :
    optional (fun d => d.name?.bind ofName?) (a?.map fun a => .string (some (name a)))
      = some a? := by
  cases a? with
  | none => rfl
  | some a => simp [optional, name?, h]

theorem Edge.ofDocument?_document (e : Edge) : ofDocument? e.toJson.document = some e := by
  simp [ofDocument?, e.record?_document, Document.required, Document.text?,
    Document.optional_name Outlet.ofName?_name, Document.optional_name Inlet.ofName?_name]

/-! ### Flows -/

namespace Flow

/-- All numbers in the fields of steps are integers of 64 bits. -/
def IsIntegral (g : Flow) : Prop :=
  ∀ n ∈ g.nodes, (Json.object n.data).IsIntegral

/-- The fields of steps, and all objects in them, have their keys in order, each once. -/
def IsOrdered (g : Flow) : Prop :=
  ∀ n ∈ g.nodes, (Json.object n.data).IsOrdered

instance (g : Flow) : Decidable g.IsIntegral :=
  List.decidableBAll _ g.nodes

instance (g : Flow) : Decidable g.IsOrdered :=
  List.decidableBAll _ g.nodes

theorem IsIntegral.toJson {g : Flow} (h : g.IsIntegral) : g.toJson.IsIntegral := by
  have hnode : ∀ n ∈ g.nodes, n.toJson.IsIntegral := by
    intro n hn
    simpa [Node.toJson] using h n hn
  have hedge : ∀ e ∈ g.edges, e.toJson.IsIntegral := by
    intro e _
    obtain ⟨id, source, target, outlet?, inlet?⟩ := e
    cases outlet? <;> cases inlet? <;> simp [Edge.toJson]
  simpa [Flow.toJson] using ⟨hnode, hedge⟩

theorem record?_document (g : Flow) :
    g.toJson.document.record? [["nodes"], ["edges"]]
      = some [some (.array (g.nodes.map fun n => n.toJson.document)),
          some (.array (g.edges.map fun e => e.toJson.document))] := by
  have hrecord : g.toJson.document.record? [["nodes"], ["edges"]]
      = some [some (Json.array (g.nodes.map Node.toJson)).document,
          some (Json.array (g.edges.map Edge.toJson)).document] := by
    rw [toJson]
    exact Document.record?_document (by simp) ["nodes", "edges"]
  rw [hrecord, Json.document_array, Json.document_array, List.map_map, List.map_map]
  rfl

/-- The fields of a step stand inside of three containers. -/
theorem depth_toJson_le_iff {g : Flow} {n : Nat} :
    g.toJson.depth ≤ n + 3 ↔ ∀ node ∈ g.nodes, (Json.object node.data).depth ≤ n := by
  have hnode : ∀ node : Node, node.toJson.depth ≤ n + 1 ↔ (Json.object node.data).depth ≤ n := by
    intro node
    simp [Node.toJson, Json.depth_object_le_iff]
  have hedge : ∀ e : Edge, e.toJson.depth ≤ n + 1 := by
    rintro ⟨id, source, target, outlet?, inlet?⟩
    cases outlet? <;> cases inlet? <;> simp [Edge.toJson, Json.depth_object_le_iff]
  simp [toJson, Json.depth_object_le_iff, Json.depth_array_le_iff, hnode, hedge]

theorem ofDocument?_document {g : Flow} (hint : g.IsIntegral) (hord : g.IsOrdered)
    (hdepth : g.toJson.depth ≤ nestingLimit) : ofDocument? g.toJson.document = some g := by
  have hnodes : (g.nodes.map fun n => n.toJson.document).mapM (Node.ofDocument? (nestingLimit - 2))
      = some (g.nodes.map id) :=
    Json.mapM_map_eq_some fun n hn =>
      Node.ofDocument?_document (hint n hn) (hord n hn) (depth_toJson_le_iff.mp hdepth n hn)
  have hedges : (g.edges.map fun e => e.toJson.document).mapM Edge.ofDocument?
      = some (g.edges.map id) :=
    Json.mapM_map_eq_some fun e _ => e.ofDocument?_document
  simp [ofDocument?, g.record?_document, Document.required, Document.items?, hnodes, hedges]

/-- Whatever is read is in order and nests no deeper than is allowed. -/
theorem isOrdered_and_depth_le_of_parse {s : String} {g : Flow} (h : parse s = .ok g) :
    g.IsOrdered ∧ g.toJson.depth ≤ nestingLimit := by
  unfold parse at h
  split at h
  · rename_i g' hg
    cases h
    obtain ⟨d, -, hd⟩ := Option.bind_eq_some_iff.mp hg
    unfold ofDocument? at hd
    obtain ⟨fields, -, hd⟩ := Option.bind_eq_some_iff.mp hd
    split at hd
    · obtain ⟨nodeItems, -, hd⟩ := Option.bind_eq_some_iff.mp hd
      obtain ⟨edgeItems, -, hd⟩ := Option.bind_eq_some_iff.mp hd
      obtain ⟨nodes, hnodes, hd⟩ := Option.bind_eq_some_iff.mp hd
      obtain ⟨edges, -, hd⟩ := Option.bind_eq_some_iff.mp hd
      cases hd
      have hdata : ∀ n ∈ nodes, (Json.object n.data).IsOrdered ∧
          (Json.object n.data).depth ≤ nestingLimit - 3 := by
        intro n hn
        obtain ⟨d, -, hd⟩ := Json.exists_mem_of_mapM_eq_some hnodes hn
        exact Node.data_of_ofDocument? (by decide) hd
      exact ⟨fun n hn => (hdata n hn).1, depth_toJson_le_iff.mpr fun n hn => (hdata n hn).2⟩
    · cases hd
  · cases h

end Flow

/-- **Flows come back from their text.**  A flow whose numbers are integers of 64 bits is
read from its text as the same flow, step by step and wire by wire, exactly if the fields of
its steps are kept in the order of their keys and its text nests no deeper than is
allowed. -/
theorem parse_render_toJson_iff (g : Flow) (hnumbers : g.IsIntegral) :
    Flow.parse g.toJson.render = .ok g ↔
      g.IsOrdered ∧ g.toJson.depth ≤ nestingLimit := by
  constructor
  · exact Flow.isOrdered_and_depth_le_of_parse
  · rintro ⟨hordered, hdepth⟩
    rw [Flow.parse, Json.parse?_render_document hnumbers.toJson, Option.bind_eq_bind,
      Option.bind_some, Flow.ofDocument?_document hnumbers hordered hdepth]

/-- A flow that goes to the limits: the least and the greatest integer, as many containers as
may nest, escapes of every kind, and edges whose ends are said and not said. -/
def limitFlow : Flow where
  nodes := [
    { id := "start", kind := .entry },
    { id := "say \"é\"\\", kind := .setVariable,
      data := [
        ("", .array [.number (.int (-9223372036854775808)), .number (.int 18446744073709551615)]),
        ("deep", Nat.repeat (fun v => .array [v]) 123 .null),
        ("text\t", .object
          [("a\r\n", .string "\x08\x0c\x1f/"), ("ä", .bool true), ("😀", .null)])] }]
  edges := [
    ⟨"said", "start", "say \"é\"\\", some .flow, some .flow⟩,
    ⟨"unsaid", "start", "say \"é\"\\", none, none⟩,
    ⟨"half", "say \"é\"\\", "start", some .done, none⟩]

theorem limitFlow_comes_back :
    limitFlow.IsIntegral ∧ limitFlow.toJson.depth = nestingLimit ∧
      Flow.parse limitFlow.toJson.render = .ok limitFlow := by
  have hnumbers : limitFlow.IsIntegral := by decide +kernel
  have hordered : limitFlow.IsOrdered := by decide +kernel
  have hdepth : limitFlow.toJson.depth = nestingLimit := by decide +kernel
  exact ⟨hnumbers, hdepth,
    (parse_render_toJson_iff limitFlow hnumbers).mpr ⟨hordered, Nat.le_of_eq hdepth⟩⟩

end FlowSuite
