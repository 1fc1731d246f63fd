import BoxArrow.Proofs.ColonRoundTrip
import BoxArrow.Proofs.GraphvizRoundTrip
import BoxArrow.Proofs.MermaidRoundTrip

/-!
# Connections under conversion

A text is converted by reading it in one language and writing its graph in another. What should come
back are the connections: the pairs of ids that edges join, each once and in the same order. Where
no line of a node is read as an arrow, they all come back exactly when the line of every edge is read
as an arrow between the ends of this edge.

Between the two stand the delimiters of the language that is written. Nothing is escaped, and not
every label of one language fits between the delimiters of another. A label behind a colon goes on
to the end of its line, so that nothing can happen to it there. A label between quotes that holds a
quote itself, or a label between bars that holds a bar, may make the line unreadable, and a node
label with a bracket may even look like an arrow.

## Main definitions

* `BoxArrow.Dialect.readEnds` — the arrow that a line is read as.
* `BoxArrow.Mermaid.readBackTarget` — where the arrow of an edge leads once it is written.

## Main results

* `BoxArrow.D2.ends_parse_write`, `BoxArrow.Graphviz.ends_parse_write_eq_iff`,
  `BoxArrow.Mermaid.ends_parse_write_eq_iff` — language by language, for graphs of texts.
* `BoxArrow.ends_parse_generate_parse` — which texts keep their connections.
-/

namespace BoxArrow

open Reader

/-! ### What is read of the lines of a graph -/

/-- The ids that a line joins when it is read as an arrow. -/
def Dialect.readEnds (d : Dialect) (line : List Char) : Option (String × String) :=
  ((d.readLine line).bind (·.arrow?)).map (·.ends)

/-- The labels of all languages are texts of a line and not empty. -/
def IsLabel (x : String) : Prop :=
  x.toList ≠ [] ∧ '\n' ∉ x.toList

theorem IsWord.isLabel {w : String} (h : IsWord w) : IsLabel w :=
  ⟨h.ne_nil, h.notMem (by decide)⟩

theorem Engine.isLabel_of_vocabulary (engine : Engine) {x : String}
    (h : engine.vocabulary.own x ∨ engine.vocabulary.inline x ∨ engine.vocabulary.arrow x) :
    IsLabel x := by
  cases engine with
  | mermaid =>
    rcases h with hown | hinline | harrow
    · exact hown.elim
    · exact ⟨hinline.1.1, hinline.2⟩
    · exact ⟨harrow.1.1, harrow.2⟩
  | graphviz =>
    rcases h with hown | hinline | harrow
    · exact hown
    · exact hinline.elim
    · exact harrow
  | plantUml =>
    rcases h with hown | hinline | harrow
    · exact hown.elim
    · exact hinline.elim
    · exact ⟨harrow.1.1, harrow.2⟩
  | d2 =>
    rcases h with hown | hinline | harrow
    · exact hown.elim
    · exact hinline.elim
    · exact ⟨harrow.1.1, harrow.2⟩

/-- What the graph of a text in any language has to offer to a writer. -/
structure Graph.IsConvertible (g : Graph) : Prop where
  writable : g.IsWritable IsLabel IsLabel
  nodup_ends : g.ends.Nodup

theorem isConvertible_parse (source : Engine) (text : String) :
    (parse source text).IsConvertible where
  writable := by
    have hg := isTextual_parse source text
    refine hg.isWritable (fun n hn => ?_) fun x hx => source.isLabel_of_vocabulary (.inr (.inr hx))
    rcases hg.label_node n hn with hown | hinline | hid
    · exact source.isLabel_of_vocabulary (.inl hown)
    · exact source.isLabel_of_vocabulary (.inr (.inl hinline))
    · exact hid ▸ (hg.isWord_id n hn).isLabel
  nodup_ends := (isTextual_parse source text).nodup_ends

variable {g : Graph} {n : Node} {e : Edge} {engine : Engine} {text : String}

/-- The labels of a graph stay on the lines where they are written. -/
theorem Graph.IsConvertible.fits (h : g.IsConvertible) :
    g.IsWritable (fun x => '\n' ∉ x.toList) (fun x => '\n' ∉ x.toList) :=
  h.writable.mono (fun _ hx => hx.2) fun _ hx => hx.2

/-- The connections of a written text are the arrows that the lines of its nodes and edges are read
as. -/
theorem ends_parse_of_lines {nodeLine : Node → String} {edgeLine : Edge → String}
    (h : statements engine text =
      (g.nodes.filterMap fun n => engine.dialect.readLine (nodeLine n).toList) ++
        g.edges.filterMap fun e => engine.dialect.readLine (edgeLine e).toList) :
    (parse engine text).ends =
      ((g.nodes.filterMap fun n => engine.dialect.readEnds (nodeLine n).toList) ++
        g.edges.filterMap fun e => engine.dialect.readEnds (edgeLine e).toList).eraseDups := by
  rw [parse_eq_described, Graph.ends_described, joinedPairs, h, List.filterMap_append,
    List.filterMap_filterMap, List.filterMap_filterMap, List.map_append, List.map_filterMap,
    List.map_filterMap]
  rfl

/-- Where the lines of nodes are no arrows, all connections come back exactly when the line of every
edge is an arrow between its ends. -/
theorem ends_parse_eq_iff (hg : g.IsConvertible) {nodeLine : Node → String}
    {edgeLine : Edge → String}
    (h : statements engine text =
      (g.nodes.filterMap fun n => engine.dialect.readLine (nodeLine n).toList) ++
        g.edges.filterMap fun e => engine.dialect.readLine (edgeLine e).toList)
    (hnodes : ∀ n ∈ g.nodes, engine.dialect.readEnds (nodeLine n).toList = none) :
    (parse engine text).ends = g.ends ↔
      ∀ e ∈ g.edges, engine.dialect.readEnds (edgeLine e).toList = some e.ends := by
  rw [ends_parse_of_lines h, List.filterMap_eq_nil_iff.mpr hnodes, List.nil_append]
  exact eraseDups_filterMap_eq_map_iff hg.nodup_ends

/-! ### D2 -/

/-- All connections come back from D2. -/
theorem D2.ends_parse_write (hg : g.IsConvertible) : (parse .d2 (write g)).ends = g.ends := by
  have harrows : (g.edges.map fun e => Statement.connection (.bare e.source) (.bare e.target)
      (colonReadBack e.label)).filterMap (·.arrow?) =
      g.edges.map fun e => ⟨e.source, e.target, colonReadBack e.label⟩ := by
    rw [List.filterMap_map, ← List.filterMap_eq_map]
    rfl
  rw [parse_eq_described, Graph.ends_described, D2.statements_write hg.fits, harrows, joinedPairs,
    List.map_map]
  exact eraseDups_of_nodup hg.nodup_ends

/-! ### Graphviz -/

namespace Graphviz

theorem readEnds_nodeLine (hid : IsWord n.id) :
    Engine.graphviz.dialect.readEnds (nodeLine n).toList = none := by
  rw [Dialect.readEnds]
  cases hread : Engine.graphviz.dialect.readLine (nodeLine n).toList with
  | none => rfl
  | some s =>
    obtain ⟨-, x, -, rfl⟩ := (readLine_nodeLine hid).mp hread
    rfl

/-- The line of an edge is an arrow between its ends, if it is read at all. -/
theorem readEnds_edgeLine (hsource : IsWord e.source) (htarget : IsWord e.target) :
    Engine.graphviz.dialect.readEnds (edgeLine e).toList = some e.ends ↔
      ¬ IsHeader e.source ∧ (readBackEnding e.label).isSome := by
  rw [Dialect.readEnds]
  constructor
  · intro h
    cases hread : Engine.graphviz.dialect.readLine (edgeLine e).toList with
    | none =>
      rw [hread] at h
      exact absurd h nofun
    | some s =>
      obtain ⟨hheader, label, hback, -⟩ := (readLine_edgeLine hsource htarget).mp hread
      exact ⟨hheader, Option.isSome_iff_exists.mpr ⟨label, hback⟩⟩
  · rintro ⟨hheader, hsome⟩
    obtain ⟨label, hback⟩ := Option.isSome_iff_exists.mp hsome
    rw [(readLine_edgeLine hsource htarget).mpr ⟨hheader, label, hback, rfl⟩]
    rfl

/-- A label without quotes does not keep an edge from being read. -/
theorem isSome_readBackEnding {label : Option String}
    (h : ∀ x ∈ label, x.toList ≠ [] ∧ '"' ∉ x.toList) : (readBackEnding label).isSome := by
  cases label with
  | none => rfl
  | some x =>
    obtain ⟨hne, hquote⟩ := h x rfl
    rw [readBackEnding, (readBack_eq_self_iff hne).mpr hquote]
    rfl

/-- All connections come back from a digraph exactly when no edge starts at an id that looks like a
header, and every label of an edge lets the line be read. -/
theorem ends_parse_write_eq_iff (hg : g.IsConvertible) :
    (parse .graphviz (write g)).ends = g.ends ↔
      ∀ e ∈ g.edges, ¬ IsHeader e.source ∧ (readBackEnding e.label).isSome := by
  rw [ends_parse_eq_iff hg (statements_write hg.fits) fun n hn =>
    readEnds_nodeLine (hg.writable.isWord_id n hn)]
  refine forall₂_congr fun e he => ?_
  obtain ⟨hsource, htarget⟩ := hg.writable.isWord_ends e he
  exact readEnds_edgeLine hsource htarget

end Graphviz

/-! ### Mermaid -/

namespace Mermaid

/-- Reads what stands behind the head of an arrow, and keeps the id of the target. -/
def arrowEnd : Reader String := do
  spaces
  let _ ← Reader.optional pipeLabel
  spaces
  let target ← mention
  ending
  return target.id

/-- Where the arrow of an edge leads once it is written, if it is read at all. -/
def readBackTarget (e : Edge) : Option String :=
  arrowEnd.whole (pipe e.label ++ ' ' :: e.target.toList)

/-- A label without bars leaves the target of its arrow in place. -/
theorem readBackTarget_eq_target (htarget : IsWord e.target)
    (hlabel : ∀ x ∈ e.label, IsEnclosed '|' x) : readBackTarget e = some e.target := by
  have hmention : mention e.target.toList = some (.bare e.target, []) := by
    simpa using mention_bare htarget (List.takeWhile_nil) nofun
  rw [readBackTarget, whole_eq_some, arrowEnd, pipe_append hlabel htarget, bind_of_some hmention]
  rfl

/-- A label without brackets keeps the line of a node from being read as an arrow. -/
theorem readEnds_nodeLine (hid : IsWord n.id) (hlabel : IsEnclosed ']' n.label) :
    Engine.mermaid.dialect.readEnds (nodeLine n).toList = none := by
  rw [Dialect.readEnds, readLine_nodeLine hid hlabel]
  rfl

/-- An arrow is drawn from the source of its line to whatever is read as the target. -/
theorem connection_eq_some {source : String} (hsource : IsWord source) {rest : List Char}
    {p : String × String} :
    (∃ s, connection (source.toList ++ ' ' :: ("-->".toList ++ rest)) = some (s, []) ∧
        s.arrow?.map (·.ends) = some p) ↔
      ∃ target, arrowEnd rest = some (target, []) ∧ (source, target) = p := by
  rw [connection, bind_of_some (mention_bare hsource rfl (by simp)),
    bind_of_some (spaces_of_one rfl), bind_of_some (literal_append _ _)]
  simp only [arrowEnd, bind_eq_some, pure_eq_some]
  constructor
  · rintro ⟨_, ⟨_, r₁, hgap, label, r₂, hlabel, _, r₃, hgap', target, r₄, htarget, _, r₅, hend, rfl,
      hrest⟩, hp⟩
    exact ⟨target.id, ⟨_, r₁, hgap, label, r₂, hlabel, _, r₃, hgap', target, r₄, htarget, _, r₅,
      hend, rfl, hrest⟩, Option.some.inj hp⟩
  · rintro ⟨_, ⟨_, r₁, hgap, label, r₂, hlabel, _, r₃, hgap', target, r₄, htarget, _, r₅, hend, rfl,
      hrest⟩, rfl⟩
    exact ⟨_, ⟨_, r₁, hgap, label, r₂, hlabel, _, r₃, hgap', target, r₄, htarget, _, r₅, hend, rfl,
      hrest⟩, rfl⟩

/-- A line whose first word is followed by a space can only be an arrow. -/
theorem whole_statement_edge {source : String} (hsource : IsWord source) {rest : List Char}
    {s : Statement} :
    statement.whole (source.toList ++ ' ' :: rest) = some s ↔
      connection (source.toList ++ ' ' :: rest) = some (s, []) := by
  have hdeclaration : declaration (source.toList ++ ' ' :: rest) = none := by
    rw [declaration, bind_of_some (word_append hsource rfl), bracketLabel,
      bind_of_none (enclosed_eq_none (by simp))]
  rw [whole_eq_some, statement, orElse_eq_some, hdeclaration]
  simp

/-- The line of an edge is read as an arrow from its source to whatever is read as the target. -/
theorem readEnds_edgeLine (hsource : IsWord e.source) (htarget : IsWord e.target) :
    Engine.mermaid.dialect.readEnds (edgeLine e).toList =
      if ¬ IsHeader e.source then (readBackTarget e).map fun target => (e.source, target)
      else none := by
  rw [Dialect.readEnds, readLine_edgeLine_eq_whole hsource htarget]
  split_ifs with hheader
  · rfl
  · ext p
    simp only [Option.map_eq_some_iff, Option.bind_eq_some_iff, whole_statement_edge hsource,
      readBackTarget, whole_eq_some]
    constructor
    · rintro ⟨a, ⟨s, hs, ha⟩, rfl⟩
      exact (connection_eq_some hsource).mp ⟨s, hs, congrArg (Option.map (·.ends)) ha⟩
    · intro h
      obtain ⟨s, hs, hp⟩ := (connection_eq_some hsource).mpr h
      obtain ⟨a, ha, rfl⟩ := Option.map_eq_some_iff.mp hp
      exact ⟨a, ⟨s, hs, ha⟩, rfl⟩

/-- All connections of a graph without closing brackets in its node labels come back from its
flowchart exactly when no edge starts at an id that looks like a header, and every arrow leads to
the target of its edge once it is written. -/
theorem ends_parse_write_eq_iff (hg : g.IsConvertible)
    (hnodes : ∀ n ∈ g.nodes, ']' ∉ n.label.toList) :
    (parse .mermaid (write g)).ends = g.ends ↔
      ∀ e ∈ g.edges, ¬ IsHeader e.source ∧ readBackTarget e = some e.target := by
  rw [ends_parse_eq_iff hg (statements_write_eq_lines hg.fits) fun n hn =>
    readEnds_nodeLine (hg.writable.isWord_id n hn) ⟨(hg.writable.label_node n hn).1, hnodes n hn⟩]
  refine forall₂_congr fun e he => ?_
  obtain ⟨hsource, htarget⟩ := hg.writable.isWord_ends e he
  rw [readEnds_edgeLine hsource htarget]
  split_ifs with hheader
  · simp [hheader]
  · simp [hheader, Edge.ends]

end Mermaid

/-! ### Texts -/

/-- Only labels from Graphviz hold closing brackets. -/
theorem bracket_notMem_label {source : Engine} (hsource : source ≠ .graphviz)
    (hn : n ∈ (parse source text).nodes) : ']' ∉ n.label.toList := by
  have hg := isTextual_parse source text
  have hid : ']' ∉ n.id.toList := (hg.isWord_id n hn).notMem (by decide)
  cases source with
  | graphviz => exact absurd rfl hsource
  | mermaid =>
    rcases hg.label_node n hn with hown | hinline | hlabel
    · exact hown.elim
    · exact hinline.1.2
    · exact hlabel ▸ hid
  | plantUml => exact label_eq_id_of_isTextual hg hn ▸ hid
  | d2 => exact label_eq_id_of_isTextual hg hn ▸ hid

/-- Of a text in any language, all connections come back from D2. They come back from Graphviz
exactly when no edge starts at an id that looks like a header and every edge label lets its line be
read, and from Mermaid exactly when no edge starts at an id that looks like a header and every arrow
leads to the target of its edge once it is written. Edge labels without a quote, and without a bar,
do no harm. Where node labels hold closing brackets, as only those from Graphviz do, the lines of
nodes may draw arrows of their own, and these come first. -/
theorem ends_parse_generate_parse (source : Engine) (text : String) :
    let g := parse source text
    (parse .d2 (generate .d2 g)).ends = g.ends ∧
    ((parse .graphviz (generate .graphviz g)).ends = g.ends ↔
      ∀ e ∈ g.edges, ¬ Graphviz.IsHeader e.source ∧ (Graphviz.readBackEnding e.label).isSome) ∧
    ((∀ n ∈ g.nodes, ']' ∉ n.label.toList) →
      ((parse .mermaid (generate .mermaid g)).ends = g.ends ↔
        ∀ e ∈ g.edges, ¬ Mermaid.IsHeader e.source ∧
          Mermaid.readBackTarget e = some e.target)) ∧
    (source ≠ .graphviz → ∀ n ∈ g.nodes, ']' ∉ n.label.toList) ∧
    (parse .mermaid (generate .mermaid g)).ends =
      ((g.nodes.filterMap fun n =>
          Engine.mermaid.dialect.readEnds (Mermaid.nodeLine n).toList) ++
        g.edges.filterMap fun e =>
          Engine.mermaid.dialect.readEnds (Mermaid.edgeLine e).toList).eraseDups ∧
    ∀ e ∈ g.edges,
      ((∀ x ∈ e.label, '"' ∉ x.toList) → (Graphviz.readBackEnding e.label).isSome) ∧
      ((∀ x ∈ e.label, '|' ∉ x.toList) → Mermaid.readBackTarget e = some e.target) := by
  intro g
  have hg : g.IsConvertible := isConvertible_parse source text
  refine ⟨D2.ends_parse_write hg, Graphviz.ends_parse_write_eq_iff hg,
    Mermaid.ends_parse_write_eq_iff hg, fun hsource n hn => bracket_notMem_label hsource hn,
    ends_parse_of_lines (Mermaid.statements_write_eq_lines hg.fits),
    fun e he => ⟨fun hquote => ?_, fun hbar => ?_⟩⟩
  · refine Graphviz.isSome_readBackEnding fun x hx => ⟨?_, hquote x hx⟩
    exact (hg.writable.label_edge e he x hx).1
  · refine Mermaid.readBackTarget_eq_target (hg.writable.isWord_ends e he).2 fun x hx => ?_
    exact ⟨(hg.writable.label_edge e he x hx).1, hbar x hx⟩

-- the label of the node `b` closes its bracket and draws an arrow
example :
    (parse .mermaid (generate .mermaid
      (parse .graphviz "a -> b\nb [label=\"x] --> c[y\"]"))).ends = [("b", "c"), ("a", "b")] := by
  decide +kernel

/-- A label with a bar does not get through a flowchart. -/
theorem ends_parse_generate_parse_bar_ne :
    (parse .mermaid (generate .mermaid (parse .d2 "a -> b: x|y"))).ends ≠
      (parse .d2 "a -> b: x|y").ends := by
  decide +kernel

end BoxArrow
