import BoxArrow.CommandLine.Run
import BoxArrow.Proofs.Files
import BoxArrow.Proofs.SavedCoordinates
import BoxArrow.Proofs.Textual
import Mathlib.Algebra.Order.BigOperators.Group.List

/-!
# Conversion through a snapshot

A text can be converted at once, or it can be exported and the snapshot imported later, in a run of
its own with another configuration at another time. Both ways lead to the same text.

The way through the snapshot leaves the graph on the disk. Not everything of a graph is read back
from there: the text of a coordinate may be read as a number that is next to it. But no writer looks
at coordinates, so that it is enough that they are finite and can be read at all. The nodes of a
text stand on a grid, and before the grid reaches infinity, the text would have to be longer than
any memory.

A run reads the configuration and its input, works out the text that a command leads to, and writes
this text in the end. So a run that fails has not written anything.

## Main definitions

* `BoxArrow.Node.caption` — what writers look at in a node.

## Main results

* `BoxArrow.generate_congr` — the texts of graphs with the same captions and edges.
* `BoxArrow.isFinite_of_mem_nodes_parse` — the nodes of a text can be stored.
* `BoxArrow.sessionOf_eq` — the session that a command works on.
* `BoxArrow.Task.result_convert`, `BoxArrow.Task.result_exportSnapshot`,
  `BoxArrow.Task.result_importSnapshot` — the commands one by one.
* `BoxArrow.Task.result_importSnapshot_eq_result_convert` — both ways lead to the same text.
* `BoxArrow.Invocation.failsCleanly_run` — a run that fails changes nothing.
* `BoxArrow.Invocation.run_importSnapshot_eq_run_convert` — both ways, with the file that is written
  in between.
-/

namespace BoxArrow

/-! ### What writers look at -/

/-- What writers look at in a node. -/
def Node.caption (n : Node) : String × String :=
  (n.id, n.label)

theorem Node.StoredAs.caption_eq {n m : Node} (h : n.StoredAs m) : m.caption = n.caption :=
  Prod.ext h.id_eq h.label_eq

theorem captions_of_storedAs {ns ms : List Node} (h : List.Forall₂ Node.StoredAs ns ms) :
    ms.map Node.caption = ns.map Node.caption := by
  induction h with
  | nil => rfl
  | cons hfirst _ ih => rw [List.map_cons, List.map_cons, hfirst.caption_eq, ih]

section Captions

variable {g h : Graph}

/-- Lines that show the captions of nodes. -/
theorem map_congr_captions (hnodes : h.nodes.map Node.caption = g.nodes.map Node.caption)
    (nodeLine : Node → String) (line : String × String → String)
    (hline : ∀ n, nodeLine n = line n.caption) :
    h.nodes.map nodeLine = g.nodes.map nodeLine := by
  have hmap (ns : List Node) : ns.map nodeLine = (ns.map Node.caption).map line := by
    rw [List.map_map]
    exact List.map_congr_left fun n _ => hline n
  rw [hmap, hmap, hnodes]

theorem PlantUml.displayName_congr (hnodes : h.nodes.map Node.caption = g.nodes.map Node.caption)
    (id : String) : displayName h id = displayName g id := by
  have hname (g : Graph) : displayName g id =
      (((g.nodes.map Node.caption).find? (·.1 == id)).map (·.2)).getD id := by
    rw [List.find?_map, Option.map_map, displayName, Graph.node?]
    change _ = Option.getD (Option.map (·.label) (g.nodes.find? (·.id == id))) id
    cases g.nodes.find? (·.id == id) <;> rfl
  rw [hname, hname, hnodes]

/-- Two graphs have the same text when their edges and the ids and labels of their nodes are the
same. -/
theorem generate_congr (engine : Engine)
    (hnodes : h.nodes.map Node.caption = g.nodes.map Node.caption) (hedges : h.edges = g.edges) :
    generate engine h = generate engine g := by
  cases engine with
  | mermaid =>
    change Mermaid.write h = Mermaid.write g
    rw [Mermaid.write, Mermaid.write, hedges,
      map_congr_captions hnodes Mermaid.nodeLine (fun c => s!"  {c.1}[{c.2}]") fun _ => rfl]
  | plantUml =>
    have hline : PlantUml.edgeLine h = PlantUml.edgeLine g := by
      funext e
      rw [PlantUml.edgeLine, PlantUml.edgeLine, PlantUml.displayName_congr hnodes,
        PlantUml.displayName_congr hnodes]
    change PlantUml.write h = PlantUml.write g
    rw [PlantUml.write, PlantUml.write, hedges, hline]
  | graphviz =>
    change Graphviz.write h = Graphviz.write g
    rw [Graphviz.write, Graphviz.write, hedges,
      map_congr_captions hnodes Graphviz.nodeLine (fun c => s!"  {c.1} [label=\"{c.2}\"];")
        fun _ => rfl]
  | d2 =>
    change D2.write h = D2.write g
    rw [D2.write, D2.write, hedges,
      map_congr_captions hnodes D2.nodeLine (fun c => s!"{c.1}: {c.2}") fun _ => rfl]

end Captions

/-! ### The nodes of a text -/

/-- There are at most two nodes to a line. -/
theorem length_nodes_parse_le (engine : Engine) (text : String) :
    (parse engine text).nodes.length ≤ 2 * (text.length + 1) := by
  have hlines : (statements engine text).length ≤ text.length + 1 :=
    (List.length_filterMap_le _ _).trans (length_lines_le text.toList)
  have hmentions : ∀ n ∈ (statements engine text).map (·.mentions.length), n ≤ 2 := by
    intro n hn
    obtain ⟨s, -, rfl⟩ := List.mem_map.mp hn
    cases s <;> simp [Statement.mentions]
  rw [parse_eq_described]
  generalize statements engine text = S at hlines hmentions ⊢
  calc (Graph.described S).nodes.length
      = (mentionedIds (S.flatMap (·.mentions))).length := Graph.length_nodesOf
    _ ≤ (S.flatMap (·.mentions)).length :=
      (eraseDups_sublist _).length_le.trans_eq (List.length_map _)
    _ = (S.map (·.mentions.length)).sum := List.length_flatMap
    _ ≤ S.length * 2 := by simpa using List.sum_le_card_nsmul _ 2 hmentions
    _ ≤ 2 * (text.length + 1) := by omega

/-- The nodes of a text stand on the grid in their order. -/
theorem exists_gridSlot_of_mem_nodes {engine : Engine} {text : String} {n : Node}
    (hn : n ∈ (parse engine text).nodes) :
    ∃ i < (parse engine text).nodes.length,
      n.position = Position.gridSlot i ∧ n.size = Size.default := by
  rw [parse_eq_described] at hn ⊢
  obtain ⟨i, hi, rfl⟩ := List.getElem_of_mem hn
  refine ⟨i, hi, ?_, ?_⟩ <;> simp [Graph.described, Graph.nodesOf, Node.fresh]

/-- A node on the grid has finite coordinates, unless it is far beyond the end of any text. -/
theorem isFinite_of_gridSlot {n : Node} {i : Nat} (hi : i < 3 * 2 ^ 64)
    (hposition : n.position = Position.gridSlot i) (hsize : n.size = Size.default) :
    n.IsFinite := by
  have hcolumns : ∀ k < 3, (100 + 250 * Float.ofNat k).isFinite = true := by decide +kernel
  have hrow : (Position.gridSlot i).y.isFinite = true :=
    isFinite_of_exponentField (exponentField_gridSlot hi) (by decide)
  rw [Node.IsFinite, hposition, hsize]
  exact ⟨⟨hcolumns (i % 3) (Nat.mod_lt _ (by decide)), hrow⟩, by decide +kernel⟩

theorem isFinite_of_mem_nodes_parse {engine : Engine} {text : String}
    (htext : text.length < 2 ^ 64) {n : Node} (hn : n ∈ (parse engine text).nodes) :
    n.IsFinite := by
  obtain ⟨i, hi, hposition, hsize⟩ := exists_gridSlot_of_mem_nodes hn
  have hlength := length_nodes_parse_le engine text
  exact isFinite_of_gridSlot (by omega) hposition hsize

/-! ### Blank texts -/

theorem readLine_of_blank (d : Dialect) {line : List Char} (h : ∀ c ∈ line, isBlank c = true) :
    d.readLine line = none := by
  rw [Dialect.readLine, trim_eq_nil.mpr h]
  rfl

/-- A blank text has no statements. -/
theorem statements_of_blank (engine : Engine) {text : String} (h : trim text.toList = []) :
    statements engine text = [] :=
  List.filterMap_eq_nil_iff.mpr fun _ hline =>
    readLine_of_blank _ fun c hc => trim_eq_nil.mp h c (mem_of_mem_lines hline hc)

/-- The session that a command works on holds the graph of its text. That a blank text is not
imported makes no difference, since the session has no other graph yet. -/
theorem sessionOf_eq (c : Circumstances) (config : Config) (engine : Engine) (text : String) :
    c.sessionOf config engine text =
      ⟨c.id, engine, text, parse engine text, c.started, 2, config.sources⟩ := by
  rw [Circumstances.sessionOf, Session.importText]
  split_ifs with hblank
  · have hnil : trim text.toList = [] := List.isEmpty_iff.mp hblank
    rw [parse, statements_of_blank engine hnil]
    rfl
  · rfl

/-! ### Commands -/

theorem Engine.ofTag_tag (engine : Engine) : Engine.ofTag engine.tag = .ok engine := by
  cases engine <;> rfl

/-- A text has at most blanks behind it, whether it is written to a file or shown. -/
theorem exists_eq_append_of_mem {text written : String} (h : written ∈ [text, shownText text]) :
    ∃ tail : String, written = text ++ tail ∧ ∀ c ∈ tail.toList, Json.isBlank c = true := by
  rcases List.mem_pair.mp h with rfl | rfl
  · exact ⟨"", String.append_empty.symm, nofun⟩
  rw [shownText]
  split_ifs
  · exact ⟨"", String.append_empty.symm, nofun⟩
  · exact ⟨"\n", rfl, List.forall_mem_singleton.mpr rfl⟩

namespace Task

variable {v : FileView} {c : Circumstances} {config : Config} {input text tag : String}
  {name : Option String} {source target : Engine}

/-- A conversion writes the graph of the text in the other language. -/
theorem result_convert (hread : v.text input = .ok text)
    (hsource : sourceEngine input name = .ok source) (htarget : Engine.ofTag tag = .ok target)
    (c : Circumstances) (config : Config) :
    (convert input name tag).result v c config = .ok (generate target (parse source text)) := by
  rw [result, hsource, htarget, hread]
  change Except.ok (generate target (c.sessionOf config source text).graph) = _
  rw [sessionOf_eq]

/-- An export writes the snapshot of a session on the text. -/
theorem result_exportSnapshot (hread : v.text input = .ok text)
    (hsource : sourceEngine input name = .ok source) (c : Circumstances) (config : Config) :
    (exportSnapshot input name).result v c config =
      .ok ((c.sessionOf config source text).snapshot c.saved).text := by
  rw [result, hsource, hread]
  rfl

/-- An import writes the graph of the session that the snapshot leads to, in the language that is
named or else in the one of the snapshot. -/
theorem result_importSnapshot {saved : String} (hread : v.text input = .ok saved)
    {named : Option String} {engine : Option Engine} (hnamed : named.mapM Engine.ofTag = .ok engine)
    {s : Session} (hrestore : (c.session config).restore saved = .ok s) :
    (importSnapshot input named).result v c config =
      .ok (generate (engine.getD s.engine) s.graph) := by
  rw [result, hnamed, hread]
  change (do
    let s ← (c.session config).restore saved
    return (engine.elim s s.setEngine).generate.code) = _
  rw [hrestore]
  cases engine <;> rfl

/-- Every session that reads what an export wrote goes on in the language of the exported text, with
a graph that has the captions and the edges of this text. -/
theorem exists_restore_exported (htext : text.length < 2 ^ 64) (hstarted : c.started.IsValid)
    (hsaved : c.saved.IsValid) (config : Config) (source : Engine) {tail : String}
    (htail : ∀ d ∈ tail.toList, Json.isBlank d = true) (t : Session) :
    ∃ s, t.restore (((c.sessionOf config source text).snapshot c.saved).text ++ tail) = .ok s ∧
      s.engine = source ∧ s.graph.edges = (parse source text).edges ∧
      s.graph.nodes.map Node.caption = (parse source text).nodes.map Node.caption := by
  have hns : List.Forall₂ Node.StoredAs (parse source text).nodes
      ((parse source text).nodes.map Node.reread) :=
    forall₂_storedAs_reread fun n hn => isFinite_of_mem_nodes_parse htext hn
  have hvalid : (⟨(parse source text).nodes.map Node.reread, (parse source text).edges⟩ :
      Graph).Valid := Graph.valid_reread (valid_parse source text)
  have hparse := Session.parse_snapshot_text (s := c.sessionOf config source text)
    (by rwa [sessionOf_eq]) (Timestamp.parse_text (by rwa [sessionOf_eq]))
    (Timestamp.parse_text hsaved) tail htail
  rw [sessionOf_eq] at hparse ⊢
  exact ⟨_, Session.restore_of_parse hvalid hparse t, rfl, rfl, captions_of_storedAs hns⟩

/-- An import of what an export wrote leads to the graph of the exported text, in the language that
is named or else in that of the text. -/
theorem result_importSnapshot_of_exported (htext : text.length < 2 ^ 64)
    (hstarted : c.started.IsValid) (hsaved : c.saved.IsValid) (config : Config) {source : Engine}
    {tail : String} (htail : ∀ d ∈ tail.toList, Json.isBlank d = true) {w : FileView} {path : String}
    (hw : w.text path =
      .ok (((c.sessionOf config source text).snapshot c.saved).text ++ tail))
    {named : Option String} {engine : Option Engine} (hnamed : named.mapM Engine.ofTag = .ok engine)
    (c' : Circumstances) (config' : Config) :
    (importSnapshot path named).result w c' config' =
      .ok (generate (engine.getD source) (parse source text)) := by
  obtain ⟨s, hrestore, rfl, hedges, hcaptions⟩ :=
    exists_restore_exported htext hstarted hsaved config source htail (c'.session config')
  rw [result_importSnapshot hw hnamed hrestore, generate_congr _ hcaptions hedges]

/-- Conversion through a snapshot: what is exported of a text, and imported again from the file that
it was written to or from where it was shown, becomes the text that a conversion leads to at once.
Without an engine, the import leads to what a conversion into the language of the text itself leads
to. The ids, the points in time and the configurations of the three runs may be any, and so may the
text, up to the size of a memory. -/
theorem result_importSnapshot_eq_result_convert (hread : v.text input = .ok text)
    (hsource : sourceEngine input name = .ok source) (htext : text.length < 2 ^ 64)
    (hstarted : c.started.IsValid) (hsaved : c.saved.IsValid) (config : Config) :
    ∃ saved, (exportSnapshot input name).result v c config = .ok saved ∧
      ∀ written ∈ [saved, shownText saved], ∀ (w : FileView) (path : String),
        w.text path = .ok written →
        ∀ (c' c'' : Circumstances) (config' config'' : Config),
          (∀ tag target, Engine.ofTag tag = .ok target →
            ∃ code, (importSnapshot path (some tag)).result w c' config' = .ok code ∧
              (convert input name tag).result v c'' config'' = .ok code) ∧
          ∃ code, (importSnapshot path none).result w c' config' = .ok code ∧
            (convert input name source.tag).result v c'' config'' = .ok code := by
  refine ⟨_, result_exportSnapshot hread hsource c config, ?_⟩
  intro written hwritten w path hw c' c'' config' config''
  obtain ⟨tail, rfl, htail⟩ := exists_eq_append_of_mem hwritten
  have himport {named : Option String} {engine : Option Engine}
      (hnamed : named.mapM Engine.ofTag = .ok engine) :
      (importSnapshot path named).result w c' config' =
        .ok (generate (engine.getD source) (parse source text)) :=
    result_importSnapshot_of_exported htext hstarted hsaved config htail hw hnamed c' config'
  refine ⟨fun tag target htarget => ?_, ?_⟩
  · have hnamed : (some tag).mapM Engine.ofTag = .ok (some target) := by
      rw [Option.mapM_some, htarget]
      rfl
    exact ⟨_, himport hnamed, result_convert hread hsource htarget c'' config''⟩
  · have hnamed : (none : Option String).mapM Engine.ofTag = .ok none := rfl
    exact ⟨_, himport hnamed, result_convert hread hsource (Engine.ofTag_tag source) c'' config''⟩

/-- A flowchart with an awkward label is exported in one second and imported in a leap second, from
where it was shown and with another configuration. -/
theorem result_importSnapshot_eq_result_convert_flow :
    let flow := "flowchart LR\nU[\"quoted\" \\ é] -->|sends| A\n\tA --> P[(PDF)]\n"
    let v : FileView := ⟨fun _ => .ok flow, fun _ => true⟩
    let c : Circumstances := ⟨"first", ⟨20667, 3600, 500000000⟩, ⟨20667, 3601, 7⟩⟩
    let c' : Circumstances := ⟨"second", ⟨20668, 86399, 1000000007⟩, ⟨20668, 86399, 1000000008⟩⟩
    let config : Config := ⟨.d2, .default, 400⟩
    v.text "flow.txt" = .ok flow ∧ sourceEngine "flow.txt" (some "Mermaid") = .ok .mermaid ∧
      flow.length < 2 ^ 64 ∧ c.started.IsValid ∧ c.saved.IsValid ∧
      Engine.ofTag "d2" = .ok .d2 ∧
      ∃ saved, (exportSnapshot "flow.txt" (some "Mermaid")).result v c .default = .ok saved ∧
        (importSnapshot "saved.json" (some "d2")).result
            ⟨fun _ => .ok (shownText saved), fun _ => true⟩ c' config =
          .ok "U: \"quoted\" \\ é\nA: A\nP: (PDF)\nU -> A: sends\nA -> P\n" ∧
        (convert "flow.txt" (some "Mermaid") "d2").result v c' config =
          .ok "U: \"quoted\" \\ é\nA: A\nP: (PDF)\nU -> A: sends\nA -> P\n" := by
  intro flow v c c' config
  have hread : v.text "flow.txt" = .ok flow := rfl
  have hsource : sourceEngine "flow.txt" (some "Mermaid") = .ok .mermaid := rfl
  have htarget : Engine.ofTag "d2" = .ok .d2 := rfl
  have hsize : flow.length < 2 ^ 64 := by decide
  have hstarted : c.started.IsValid := by decide
  have hsaved : c.saved.IsValid := by decide
  have hcode : generate .d2 (parse .mermaid flow) =
      "U: \"quoted\" \\ é\nA: A\nP: (PDF)\nU -> A: sends\nA -> P\n" := by decide +kernel
  obtain ⟨saved, hexport, hpaths⟩ :=
    result_importSnapshot_eq_result_convert hread hsource hsize hstarted hsaved .default
  obtain ⟨code, himport, hconvert⟩ := (hpaths _ (List.mem_pair.mpr (.inr rfl))
    ⟨fun _ => .ok (shownText saved), fun _ => true⟩ "saved.json" rfl c' c' config config).1
    "d2" .d2 htarget
  have hdirect := result_convert hread hsource htarget c' config
  rw [hcode] at hdirect
  obtain rfl := Except.ok.inj (hconvert.symm.trans hdirect)
  exact ⟨hread, hsource, hsize, hstarted, hsaved, htarget, saved, hexport, himport, hconvert⟩

end Task

/-! ### Runs -/

theorem text_view_of_read {t : FileTree} {path text : String} (h : t.read path = .ok text) :
    t.view.text path = .ok text := by
  have hview : t.view.read path = .ok text := h
  rw [FileView.text, hview]

theorem text_view_of_find {t : FileTree} {path text : String} {place : Place}
    (h : t.find path = .ok (.file place text.toUTF8)) (hnames : FileTree.namesDirectory path = false) :
    t.view.text path = .ok text :=
  text_view_of_read (FileTree.read_of_find h hnames)

section WriteOutput

variable {w : World} {path : String} {place : Place}

/-- A file that is written is read as the text, and every path to another place leads to what it led
to before. -/
theorem run_writeOutput_of_takesAt (h : w.files.TakesAt path place) (text : String) :
    ∃ files, (writeOutput text (some path)).run w = .ok () { w with files := files } ∧
      files.read path = .ok text ∧
      ∀ other found, w.files.find other = .ok found → found.place? ≠ some place →
        files.find other = .ok found := by
  obtain ⟨files, hwrite, hread, hothers⟩ := FileTree.run_write_of_takesAt h text
  exact ⟨files, Procedure.run_onPart_eq_ok.mpr ⟨files, hwrite, rfl⟩, hread, hothers⟩

theorem run_writeOutput_of_isNull (h : w.files.IsNull path) (text : String) :
    (writeOutput text (some path)).run w = .ok () w :=
  Procedure.run_onPart_eq_ok.mpr ⟨w.files, FileTree.run_write_of_isNull h text, rfl⟩

theorem run_writeOutput_of_not (hplace : ∀ place, ¬w.files.TakesAt path place)
    (hnull : ¬w.files.IsNull path) (text : String) :
    ∃ fault, (writeOutput text (some path)).run w = .error (.file fault) w := by
  obtain ⟨fault, hwrite⟩ := FileTree.run_write_of_not hplace hnull text
  exact ⟨fault, Procedure.run_onPart_eq_error.mpr ⟨fault, w.files, hwrite, rfl, rfl⟩⟩

end WriteOutput

theorem failsCleanly_writeOutput (text : String) (output : Option String) :
    (writeOutput text output).FailsCleanly fun fault => ∃ e, fault = .file e := by
  cases output with
  | none => exact (Procedure.neverFails_modify _).failsCleanly _
  | some path =>
    exact ((FileTree.failsCleanly_write path text).onPart fun _ => rfl).mono
      fun _ ⟨e, _, he⟩ => ⟨e, he⟩

namespace Invocation

variable {w : World} {home : Option String} {c : Circumstances} {i : Invocation} {config : Config}

/-- A run that fails changes no file and shows nothing. -/
theorem failsCleanly_run (home : Option String) (c : Circumstances) (i : Invocation) :
    (i.run home c).FailsCleanly fun _ => True :=
  Procedure.failsCleanly_check_bind (fun _ _ _ => trivial) fun text =>
    (failsCleanly_writeOutput text i.output).mono fun _ _ => trivial

theorem run_of_result_eq_error {fault : Fault}
    (h : i.result w.files.view home c = .error fault) : (i.run home c).run w = .error fault w :=
  Procedure.run_check_bind_of_error h

theorem run_of_result_eq_ok {text : String} (h : i.result w.files.view home c = .ok text) :
    (i.run home c).run w = (writeOutput text i.output).run w :=
  Procedure.run_check_bind_of_ok h

/-- A text that a run leads to is shown when no file is named for it. -/
theorem run_of_shown {text : String} (h : i.result w.files.view home c = .ok text)
    (hshown : i.output = none) :
    (i.run home c).run w = .ok () { w with shown := w.shown ++ shownText text } := by
  rw [run_of_result_eq_ok h, hshown]
  rfl

theorem result_of_loadConfig {v : FileView} (hload : loadConfig v home i.config = .ok config)
    (c : Circumstances) : i.result v home c = i.task.result v c config := by
  rw [result, hload]
  rfl

/-- Conversion through a file: what an export writes to a file, a second run imports from the tree
that the first one has left, and what it shows is what a conversion of the text shows at once. This
is so for the engine that the import names, and without one for the engine of the text itself. The
three runs may each have a configuration, an id and points in time of their own. -/
theorem run_importSnapshot_eq_run_convert {input text path : String} {name named : Option String}
    {source : Engine} {place : Place} (hread : w.files.view.text input = .ok text)
    (hsource : sourceEngine input name = .ok source) (htext : text.length < 2 ^ 64)
    (hstarted : c.started.IsValid) (hsaved : c.saved.IsValid)
    (hload : loadConfig w.files.view home named = .ok config) (hpath : w.files.TakesAt path place) :
    ∃ files,
      (run home c ⟨.exportSnapshot input name, some path, named⟩).run w =
        .ok () { w with files := files } ∧
      ∀ (home' home'' named' named'' : Option String) (config' config'' : Config),
        loadConfig files.view home' named' = .ok config' →
        loadConfig w.files.view home'' named'' = .ok config'' →
        ∀ (c' c'' : Circumstances) (override : Option String) (target : Option Engine)
          (tag shown : String), override.mapM Engine.ofTag = .ok target →
          Engine.ofTag tag = .ok (target.getD source) →
          ∃ code,
            (run home' c' ⟨.importSnapshot path override, none, named'⟩).run ⟨files, shown⟩ =
              .ok () ⟨files, shown ++ code⟩ ∧
            (run home'' c'' ⟨.convert input name tag, none, named''⟩).run ⟨w.files, shown⟩ =
              .ok () ⟨w.files, shown ++ code⟩ := by
  have hexport := (result_of_loadConfig (i := ⟨.exportSnapshot input name, some path, named⟩)
    hload c).trans (Task.result_exportSnapshot hread hsource c config)
  obtain ⟨files, hwrite, hback, -⟩ := run_writeOutput_of_takesAt hpath
    ((c.sessionOf config source text).snapshot c.saved).text
  refine ⟨files, (run_of_result_eq_ok hexport).trans hwrite, ?_⟩
  intro home' home'' named' named'' config' config'' hload' hload'' c' c'' override target tag shown
    hoverride htag
  have hsnapshot : files.view.text path =
      .ok (((c.sessionOf config source text).snapshot c.saved).text ++ "") := by
    rw [text_view_of_read hback, String.append_empty]
  have htail : ∀ d ∈ "".toList, Json.isBlank d = true := nofun
  have himport := (result_of_loadConfig (i := ⟨.importSnapshot path override, none, named'⟩)
    hload' c').trans (Task.result_importSnapshot_of_exported htext hstarted hsaved config htail
      hsnapshot hoverride c' config')
  have hconvert := (result_of_loadConfig (i := ⟨.convert input name tag, none, named''⟩)
    hload'' c'').trans (Task.result_convert hread hsource htag c'' config'')
  exact ⟨_, run_of_shown (w := ⟨files, shown⟩) himport rfl,
    run_of_shown (w := ⟨w.files, shown⟩) hconvert rfl⟩

end Invocation

end BoxArrow
