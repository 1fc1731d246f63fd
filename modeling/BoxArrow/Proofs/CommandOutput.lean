import BoxArrow.Proofs.Commands

/-!
# Commands and configurations

Every command works on a session, and a session starts on the configured engine, with a configured
text. Another configured text is loaded whenever the session switches to another engine. Still the
configuration is not found again in what a command writes: what it leads to is a function of the
tags that it is given and of the content of its input, and so is the fault when it fails. Only in a
snapshot there are also the id and the times of the session.

The proof names this function. `BoxArrow.Task.product` knows neither a session nor a configuration,
and runs under two configurations agree because each of them agrees with it.

What a command leads to is then shown, with a line feed at its end, or it is what the file of the
output is read as after the run.

## Main definitions

* `BoxArrow.Product`, `BoxArrow.Task.product` — what a task makes of the content of its input.

## Main results

* `BoxArrow.Session.picture_restore` — a session without a graph adds nothing of its own to the
  diagram that it loads.
* `BoxArrow.Task.result_eq_product` — the text of a task under any configuration.
* `BoxArrow.Invocation.output_ignores_config` — two configurations lead to the same output and to
  the same faults, what a run shows or writes is exactly this output, and a run that fails writes
  nothing.
-/

namespace BoxArrow

/-! ### What tasks make of their input -/

/-- What a task makes of its input. -/
inductive Product where
  /-- A text in a diagram language. -/
  | code (text : String)
  /-- A diagram that is to be saved, with the text that it is read from. -/
  | diagram (engine : Engine) (text : String) (graph : Graph)
deriving DecidableEq, Repr

/-- What is written. A diagram is saved as a snapshot, with the id and the times of a session. -/
def Product.written (c : Circumstances) : Product → String
  | .code text => text
  | .diagram engine text graph =>
    Snapshot.text
      { version := Snapshot.currentVersion
        diagram :=
          { id := some c.id
            engine := engine
            code := text
            nodes := some graph.nodes
            edges := some graph.edges
            createdAt := some c.started
            updatedAt := some c.saved } }

/-- The engine and the graph of a saved diagram. Arrays that are absent count as empty. -/
def Snapshot.picture (snap : Snapshot) : Except Fault (Engine × Graph) :=
  match Graph.ofParts (snap.diagram.nodes.getD []) (snap.diagram.edges.getD []) with
  | .ok g => .ok (snap.diagram.engine, g)
  | .error e => .error (.invalidFormat (.brokenGraph e))

/-- The engine and the graph of the diagram that a text saves. -/
def savedPicture (text : String) : Except Fault (Engine × Graph) :=
  Snapshot.parse text >>= Snapshot.picture

/-- What a task makes of the content of its input, which may have failed to be read. -/
def Task.product (content : Except Fault String) : Task → Except Fault Product
  | .convert input source target => Product.code <$> do
    let source ← sourceEngine input source
    let target ← Engine.ofTag target
    return generate target (parse source (← content))
  | .exportSnapshot input source => do
    let source ← sourceEngine input source
    let text ← content
    return .diagram source text (parse source text)
  | .importSnapshot _ target => Product.code <$> do
    let named ← target.mapM Engine.ofTag
    let (engine, g) ← savedPicture (← content)
    return generate (named.getD engine) g

/-! ### Tasks under a configuration -/

namespace Session

variable {s : Session}

/-- What the writers look at in a session. -/
def picture (s : Session) : Engine × Graph :=
  (s.engine, s.graph)

/-- What a session makes of a snapshot, or why it does not take it over. -/
theorem outcome_adopt (s : Session) (snap : Snapshot) :
    (adopt snap).outcome s = (s.adoptedGraph snap.diagram).map fun _ => s.adopted snap := by
  cases hgraph : s.adoptedGraph snap.diagram with
  | ok g =>
    have hvalid : (s.merged snap).Valid := (adoptedGraph_eq_ok.mp hgraph).1
    exact Procedure.outcome_eq_ok.mpr ⟨(), run_adopt_eq_ok.mpr ⟨hvalid, rfl⟩⟩
  | error fault =>
    exact Procedure.outcome_eq_error.mpr ⟨s, Procedure.run_check_bind_of_error hgraph⟩

/-- A session without a graph adds nothing to the arrays of a snapshot. -/
theorem picture_adopt (hempty : s.graph = Graph.empty) (snap : Snapshot) :
    ((adopt snap).outcome s).map picture = snap.picture := by
  have hnodes : s.graph.nodes = [] := congrArg Graph.nodes hempty
  have hedges : s.graph.edges = [] := congrArg Graph.edges hempty
  rw [outcome_adopt, adoptedGraph, Snapshot.picture, hnodes, hedges]
  cases hparts : Graph.ofParts (snap.diagram.nodes.getD []) (snap.diagram.edges.getD []) with
  | error e => rfl
  | ok g =>
    obtain ⟨-, rfl⟩ := Graph.ofParts_eq_ok.mp hparts
    change Except.ok (snap.diagram.engine, s.merged snap) = _
    rw [merged, hnodes, hedges]

/-- What a session without a graph shows of a text that it loads, and why it cannot load it, depend
on the text alone. -/
theorem picture_restore (hempty : s.graph = Graph.empty) (text : String) :
    (s.restore text).map picture = savedPicture text := by
  have hrestore : s.restore text =
      Snapshot.parse text >>= fun snap => (adopt snap).outcome s := by
    rw [restore, importSnapshot, Procedure.outcome]
    cases Snapshot.parse text <;> rfl
  rw [hrestore, savedPicture]
  cases Snapshot.parse text with
  | error fault => rfl
  | ok snap => exact picture_adopt hempty snap

end Session

namespace Task

/-- Whatever the configuration, a task leads to the text of what it makes of its input, and it fails
exactly as this does. -/
theorem result_eq_product (v : FileView) (c : Circumstances) (config : Config) (task : Task) :
    task.result v c config = (task.product (v.text task.input)).map (·.written c) := by
  cases task with
  | convert path name tag =>
    rw [result, product, input]
    cases sourceEngine path name with
    | error fault => rfl
    | ok source =>
      cases Engine.ofTag tag with
      | error fault => rfl
      | ok target =>
        cases v.text path with
        | error fault => rfl
        | ok text =>
          change Except.ok (generate target (c.sessionOf config source text).graph) =
            Except.ok (generate target (parse source text))
          rw [sessionOf_eq]
  | exportSnapshot path name =>
    rw [result, product, input]
    cases sourceEngine path name with
    | error fault => rfl
    | ok source =>
      cases v.text path with
      | error fault => rfl
      | ok text =>
        change Except.ok ((c.sessionOf config source text).snapshot c.saved).text =
          Except.ok (Product.written c (.diagram source text (parse source text)))
        rw [sessionOf_eq, Product.written, Session.snapshot]
  | importSnapshot path name =>
    rw [result, product, input]
    cases name.mapM Engine.ofTag with
    | error fault => rfl
    | ok named =>
      cases v.text path with
      | error fault => rfl
      | ok text =>
        have hsaved := Session.picture_restore (s := c.session config) rfl text
        change (do
          let s ← (c.session config).restore text
          return (named.elim s s.setEngine).generate.code) = (Product.code <$> do
            let (engine, g) ← savedPicture text
            return generate (named.getD engine) g).map (Product.written c)
        rw [← hsaved]
        cases (c.session config).restore text with
        | error fault => rfl
        | ok s => cases named <;> rfl

/-- Only an export writes anything of the clock and of chance. -/
theorem map_written_product (content : Except Fault String) {task : Task}
    (htask : ∀ path name, task ≠ .exportSnapshot path name) (c c' : Circumstances) :
    (task.product content).map (·.written c') = (task.product content).map (·.written c) := by
  have hcode (texts : Except Fault String) (c : Circumstances) :
      (Product.code <$> texts).map (·.written c) = texts := by
    cases texts <;> rfl
  cases task with
  | convert path name tag => exact (hcode _ c').trans (hcode _ c).symm
  | exportSnapshot path name => exact absurd rfl (htask path name)
  | importSnapshot path name => exact (hcode _ c').trans (hcode _ c).symm

end Task

/-! ### Runs -/

theorem endsWith_newline_iff {text : String} :
    text.endsWith "\n" = true ↔ ['\n'] <:+ text.toList := by
  rw [String.endsWith_eq_endsWith_toSlice, String.Slice.endsWith_string_iff, String.copy_toSlice]
  rfl

/-- The end of a run on the world `w` in which a text has gone to an output. -/
structure Delivered (text : String) (output : Option String) (w : World)
    (r : EStateM.Result Fault World Unit) : Prop where
  /-- A text that ends with a line feed is shown as it is. -/
  shown : output = none → ['\n'] <:+ text.toList →
    r = .ok () { w with shown := w.shown ++ text }
  /-- Any other text is shown with a line feed behind it. -/
  shown_newline : output = none → ¬['\n'] <:+ text.toList →
    r = .ok () { w with shown := w.shown ++ (text ++ "\n") }
  /-- Under a path that leads to a file, or to where there can be one, the text is read afterwards.
  Paths to other places lead to what they led to before, and nothing is shown. -/
  file : ∀ path place, output = some path → w.files.TakesAt path place →
    ∃ files, r = .ok () { w with files := files } ∧ files.read path = .ok text ∧
      ∀ other found, w.files.find other = .ok found → found.place? ≠ some place →
        files.find other = .ok found
  /-- The null device takes every text. -/
  nullDevice : ∀ path, output = some path → w.files.IsNull path → r = .ok () w
  /-- Under every other path the run fails, and changes nothing. -/
  refused : ∀ path, output = some path → (∀ place, ¬w.files.TakesAt path place) →
    ¬w.files.IsNull path → ∃ fault, r = .error (.file fault) w

theorem delivered_writeOutput (text : String) (output : Option String) (w : World) :
    Delivered text output w ((writeOutput text output).run w) := by
  have hnone : (writeOutput text none).run w =
      .ok () { w with shown := w.shown ++ shownText text } := rfl
  constructor
  case shown =>
    rintro rfl hends
    rw [hnone, shownText, if_pos (endsWith_newline_iff.mpr hends)]
  case shown_newline =>
    rintro rfl hends
    rw [hnone, shownText, if_neg (mt endsWith_newline_iff.mp hends)]
  case file =>
    rintro path place rfl hplace
    exact run_writeOutput_of_takesAt hplace text
  case nullDevice =>
    rintro path rfl hnull
    exact run_writeOutput_of_isNull hnull text
  case refused =>
    rintro path rfl hplace hnull
    exact run_writeOutput_of_not hplace hnull text

namespace Invocation

variable {v v' : FileView} {home home' : Option String} {i i' : Invocation}
  {config config' : Config}

theorem result_eq_product_of_loadConfig (hload : loadConfig v home i.config = .ok config)
    (c : Circumstances) :
    i.result v home c = (i.task.product (v.text i.task.input)).map (·.written c) :=
  (result_of_loadConfig hload c).trans (i.task.result_eq_product v c config)

/-- Two configurations that can be loaded lead to the same output and to the same faults: what a
task makes of the content of its input, saved under the id and at the times of the run if it is a
diagram. Exactly this is what a run shows or writes. A run whose configuration cannot be loaded or
whose task fails ends with this fault, and no run that fails changes any file or shows anything. -/
theorem output_ignores_config (hload : loadConfig v home i.config = .ok config)
    (hload' : loadConfig v' home' i'.config = .ok config') (htask : i'.task = i.task)
    (hread : v'.text i.task.input = v.text i.task.input) (c c' : Circumstances) :
    (i.result v home c = (i.task.product (v.text i.task.input)).map (·.written c) ∧
      i'.result v' home' c' = (i.task.product (v.text i.task.input)).map (·.written c')) ∧
    ((c' = c ∨ ∀ path name, i.task ≠ .exportSnapshot path name) →
      i'.result v' home' c' = i.result v home c) ∧
    ∀ (w : World) (home : Option String) (i : Invocation) (c : Circumstances),
      (∀ fault left, (i.run home c).run w = .error fault left → left = w) ∧
      (∀ fault, loadConfig w.files.view home i.config = .error fault →
        (i.run home c).run w = .error fault w) ∧
      ∀ config, loadConfig w.files.view home i.config = .ok config →
        (∀ fault, i.task.product (w.files.view.text i.task.input) = .error fault →
          (i.run home c).run w = .error fault w) ∧
        ∀ p, i.task.product (w.files.view.text i.task.input) = .ok p →
          Delivered (p.written c) i.output w ((i.run home c).run w) := by
  have hresult := result_eq_product_of_loadConfig hload c
  have hresult' := result_eq_product_of_loadConfig hload' c'
  rw [htask, hread] at hresult'
  refine ⟨⟨hresult, hresult'⟩, fun hsame => ?_, fun w home i c => ⟨?_, fun fault hfault => ?_, ?_⟩⟩
  · rw [hresult, hresult']
    rcases hsame with rfl | hcode
    · rfl
    · exact Task.map_written_product _ hcode c c'
  · exact fun fault left hrun => (failsCleanly_run home c i hrun).2
  · refine run_of_result_eq_error ?_
    rw [result, hfault]
    rfl
  · intro config hload
    have hresult := result_eq_product_of_loadConfig hload c
    refine ⟨fun fault hfault => run_of_result_eq_error ?_, fun p hp => ?_⟩
    · rw [hresult, hfault]
      rfl
    · have hok : i.result w.files.view home c = .ok (p.written c) := by
        rw [hresult, hp]
        rfl
      rw [run_of_result_eq_ok hok]
      exact delivered_writeOutput (p.written c) i.output w

/-- A blank text is converted once under a configuration with a text of its own for the language,
into a file beside the working directory, and once without a configuration, to be shown. -/
theorem output_ignores_config_blank :
    let own := "default_engine = \"plantuml\"\n[sources]\nplantuml = \"A -> B\"\n"
    let t : FileTree := ⟨["home"], [(["home", "own.toml"], .file own.toUTF8),
      (["home", "blank.txt"], .file " \n".toUTF8)], fun _ => none⟩
    let i : Invocation :=
      ⟨.convert "blank.txt" (some "plantuml") "graphviz", some "../graph.dot", some "own.toml"⟩
    let i' : Invocation := { i with output := none, config := none }
    let c : Circumstances := ⟨"first", ⟨20667, 3600, 500000000⟩, ⟨20667, 3601, 7⟩⟩
    let c' : Circumstances := ⟨"second", ⟨20668, 86399, 0⟩, ⟨20668, 86399, 1⟩⟩
    loadConfig t.view none i.config =
        .ok ⟨.plantUml, { Sources.default with plantUml := "A -> B" }, 400⟩ ∧
      loadConfig t.view none i'.config = .ok .default ∧ i'.task = i.task ∧
      i'.result t.view none c' = i.result t.view none c ∧
      (∃ files, (i.run none c).run ⟨t, ""⟩ = .ok () ⟨files, ""⟩ ∧
        files.read "../graph.dot" = .ok "digraph G \x7b\n\x7d") ∧
      (i'.run none c').run ⟨t, ""⟩ = .ok () ⟨t, "digraph G \x7b\n\x7d\n"⟩ := by
  intro own t i i' c c'
  have hparse : Config.parse? own =
      some ⟨.plantUml, { Sources.default with plantUml := "A -> B" }, 400⟩ := by decide +kernel
  have hload : loadConfig t.view none i.config =
      .ok ⟨.plantUml, { Sources.default with plantUml := "A -> B" }, 400⟩ := by
    have hfind : t.find "own.toml" = .ok (.file ["home", "own.toml"] own.toUTF8) :=
      FileTree.find_eq_walk_here t "own.toml" ["own.toml"] (by simp) (by decide +kernel)
        (by decide +kernel)
    have hown : t.view.text "own.toml" = .ok own := text_view_of_find hfind (by decide +kernel)
    have hthere : t.view.isThere "own.toml" = true := by
      change t.isThere "own.toml" = true
      rw [FileTree.isThere, hfind]
      decide +kernel
    change readConfig t.view "own.toml" = _
    simp [readConfig, hthere, hown, hparse, bind, Except.bind, pure, Except.pure]
  have hload' : loadConfig t.view none i'.config = .ok .default := by
    have hfind : t.find localConfigPath = .error .notFound := by
      exact FileTree.find_eq_walk_here t localConfigPath ["diptych", "config.toml"]
        (by simp [localConfigPath]) (by decide +kernel) (by decide +kernel)
    have hthere : t.view.isThere localConfigPath = false := by
      change t.isThere localConfigPath = false
      rw [FileTree.isThere, hfind]
    rw [loadConfig, configPlaces]
    simp [hthere, i']
  have hcode : generate .graphviz (parse .plantUml " \n") = "digraph G \x7b\n\x7d" := by
    decide +kernel
  have hproduct : i.task.product (t.view.text i.task.input) =
      .ok (.code "digraph G \x7b\n\x7d") := by
    have hfind : t.find "blank.txt" = .ok (.file ["home", "blank.txt"] " \n".toUTF8) :=
      FileTree.find_eq_walk_here t "blank.txt" ["blank.txt"] (by simp) (by decide +kernel)
        (by decide +kernel)
    have hblank : t.view.text "blank.txt" = .ok " \n" := text_view_of_find hfind (by decide +kernel)
    rw [← hcode]
    change i.task.product (t.view.text "blank.txt") = _
    rw [hblank]
    rfl
  obtain ⟨-, hsame, hruns⟩ := output_ignores_config hload hload' rfl rfl c c'
  have hpath : t.TakesAt "../graph.dot" ["graph.dot"] := by
    have hfind : t.find "../graph.dot" = .ok (.nothing ["graph.dot"]) :=
      FileTree.find_eq_walk_here t "../graph.dot" ["..", "graph.dot"] (by simp) (by decide +kernel)
        (by decide +kernel)
    exact ⟨by decide +kernel, rfl, .nothing ["graph.dot"], hfind, rfl⟩
  obtain ⟨-, -, hdone⟩ := hruns ⟨t, ""⟩ none i c
  obtain ⟨-, -, hdone'⟩ := hruns ⟨t, ""⟩ none i' c'
  obtain ⟨files, hrun, hback, -⟩ := ((hdone _ hload).2 _ hproduct).file _ _ rfl hpath
  refine ⟨hload, hload', rfl, hsame (.inr nofun), ⟨files, hrun, hback⟩, ?_⟩
  exact ((hdone' _ hload').2 _ hproduct).shown_newline rfl (by decide)

end Invocation

end BoxArrow
