import BoxArrow.Proofs.Edits
import BoxArrow.Proofs.MermaidRoundTrip

/-!
# Nodes made by hand in a flowchart

The id of a node made by hand has a hyphen after its kind and a digit after the hyphen. Identifiers
have no hyphens. A line that begins with such an id is read up to the hyphen, where neither a label
nor an arrow follows, so that the line is no statement. The node is lost when its flowchart is read
again, and so is every edge that starts at it. The rest of the graph comes back as if the node had
never been made.

## Main results

* `BoxArrow.exists_toList_freshId` — a hyphen and a digit follow the kind.
* `BoxArrow.Mermaid.readLine_hyphenated` — lines that begin with such an id say nothing.
* `BoxArrow.Mermaid.parse_generate_connect_addNode` — what comes back of a node made by hand.
-/

namespace BoxArrow

/-! ### The ids -/

theorem numbered_toList (base : String) (n : Nat) :
    (numbered base n).toList = base.toList ++ '-' :: Nat.toDigits 10 n := by
  simp [numbered, toString]

/-- In the id of an element made by hand, a hyphen and a digit follow the kind. -/
theorem exists_toList_freshId (kind : String) (stamp : Nat) (taken : List String) :
    ∃ c rest, c.isDigit = true ∧
      (freshId kind stamp taken).toList = kind.toList ++ '-' :: c :: rest := by
  obtain ⟨c, digits, hdigits⟩ :=
    List.exists_cons_of_ne_nil (Nat.toDigits_ne_nil (n := stamp) (b := 10))
  have hc : c.isDigit = true := isDigit_toDigits stamp c (hdigits ▸ List.mem_cons_self)
  rcases freshId_eq_or_eq_numbered kind stamp taken with h | ⟨k, h⟩
  · exact ⟨c, digits, hc, by rw [h, numbered_toList, hdigits]⟩
  · refine ⟨c, digits ++ '-' :: Nat.toDigits 10 k, hc, ?_⟩
    rw [h, numbered_toList, numbered_toList, hdigits, List.append_assoc]
    rfl

/-- Digits are the only characters that a number brings into an id. -/
theorem newline_notMem_numbered {base : String} (h : '\n' ∉ base.toList) (n : Nat) :
    '\n' ∉ (numbered base n).toList := by
  have hdigits : '\n' ∉ Nat.toDigits 10 n := fun hmem =>
    absurd (isDigit_toDigits n _ hmem) (by decide)
  rw [numbered_toList, List.mem_append, List.mem_cons]
  rintro (hbase | hhyphen | hdigit)
  · exact h hbase
  · exact absurd hhyphen (by decide)
  · exact hdigits hdigit

theorem newline_notMem_freshId {kind : String} (h : '\n' ∉ kind.toList) (stamp : Nat)
    (taken : List String) : '\n' ∉ (freshId kind stamp taken).toList := by
  have hstamp := newline_notMem_numbered h stamp
  rcases freshId_eq_or_eq_numbered kind stamp taken with heq | ⟨k, heq⟩
  · exact heq ▸ hstamp
  · exact heq ▸ newline_notMem_numbered hstamp k

namespace Mermaid

open Reader

/-! ### Lines that begin with such an id -/

variable {w : String} {c : Char} {rest : List Char}

/-- Neither an arrow nor a label follows a word where a hyphen and a digit stand. -/
theorem statement_hyphenated (hw : IsWord w) (hc : c.isDigit = true) :
    statement (w.toList ++ '-' :: c :: rest) = none := by
  have hne : c ≠ '-' := by
    rintro rfl
    exact absurd hc (by decide)
  have hconnection : connection (w.toList ++ '-' :: c :: rest) = none := by
    rw [connection, bind_of_some (mention_bare hw rfl (by simp)), bind_of_some (spaces_of_none rfl),
      bind_of_none (literal_eq_none ?_)]
    simp [List.cons_prefix_cons, hne.symm]
  have hdeclaration : declaration (w.toList ++ '-' :: c :: rest) = none := by
    rw [declaration, bind_of_some (word_append hw rfl), bracketLabel,
      bind_of_none (enclosed_eq_none (by simp))]
  rw [statement, Reader.orElse, hconnection]
  exact hdeclaration

/-- An indented line that begins with a word, a hyphen and a digit is no statement. -/
theorem readLine_hyphenated (hw : IsWord w) (hc : c.isDigit = true) :
    Engine.mermaid.dialect.readLine (' ' :: ' ' :: (w.toList ++ '-' :: c :: rest)) = none := by
  have hblank : isBlank c = false := isBlank_of_isDigit hc
  have htrim : trim (' ' :: ' ' :: (w.toList ++ '-' :: c :: rest)) =
      w.toList ++ '-' :: c :: trimEnd rest := by
    have hindent : trimStart (' ' :: ' ' :: (w.toList ++ '-' :: c :: rest)) =
        trimStart (w.toList ++ '-' :: c :: rest) := rfl
    have hend : (w.toList ++ ['-', c]).reverse.takeWhile isBlank = [] := by
      rw [List.reverse_append]
      exact List.takeWhile_cons_of_neg (by simp [hblank])
    have hcut : trimEnd (w.toList ++ ['-', c] ++ rest) = w.toList ++ ['-', c] ++ trimEnd rest :=
      trimEnd_append hend
    rw [List.append_assoc, List.append_assoc] at hcut
    rw [trim, hindent, trimStart_eq_self (hw.takeWhile_append hw.isBlank _)]
    exact hcut
  have hwhole : statement.whole (w.toList ++ '-' :: c :: trimEnd rest) = none := by
    rw [Reader.whole, statement_hyphenated hw hc]
  rw [Dialect.readLine, htrim, Dialect.readTrimmed]
  exact (congrArg _ hwhole).trans (ite_self none)

/-! ### A node made by hand and an edge from it -/

variable {g : Graph}

/-- A flowchart with one more node and one more edge that starts at it has the statements that it
had before, where the id of the node is that of a node made by hand. -/
theorem statements_write_append {n : Node} {e : Edge}
    (h : g.IsWritable vocabulary.inline vocabulary.arrow) (hw : IsWord w) (hc : c.isDigit = true)
    (hid : n.id.toList = w.toList ++ '-' :: c :: rest) (hsource : e.source = n.id)
    (hnode : '\n' ∉ (nodeLine n).toList) (hedge : '\n' ∉ (edgeLine e).toList) :
    statements .mermaid (write ⟨g.nodes ++ [n], g.edges ++ [e]⟩) =
      statements .mermaid (write g) := by
  have hkept := h.mono (fun _ hx => hx.2) fun _ hx => hx.2
  have hnodeSilent : Engine.mermaid.dialect.readLine (nodeLine n).toList = none := by
    rw [nodeLine_toList, hid, List.append_assoc, List.cons_append, List.cons_append]
    exact readLine_hyphenated hw hc
  have hedgeSilent : Engine.mermaid.dialect.readLine (edgeLine e).toList = none := by
    rw [edgeLine_toList, hsource, hid, List.append_assoc, List.cons_append, List.cons_append]
    exact readLine_hyphenated hw hc
  rw [statements_write_eq_lines hkept, statements_write_of_newline_notMem]
  · have hlastNode : [n].filterMap (fun n => Engine.mermaid.dialect.readLine (nodeLine n).toList) =
        [] := List.filterMap_cons_none hnodeSilent
    have hlastEdge : [e].filterMap (fun e => Engine.mermaid.dialect.readLine (edgeLine e).toList) =
        [] := List.filterMap_cons_none hedgeSilent
    rw [List.filterMap_append, List.filterMap_append, hlastNode, hlastEdge, List.append_nil,
      List.append_nil]
  · intro m hm
    rcases List.mem_append.mp hm with hm | hm
    · exact newline_notMem_nodeLine (hkept.isWord_id m hm) (hkept.label_node m hm)
    · exact List.mem_singleton.mp hm ▸ hnode
  · intro f hf
    rcases List.mem_append.mp hf with hf | hf
    · exact newline_notMem_edgeLine (hkept.isWord_ends f hf).1 (hkept.isWord_ends f hf).2
        (hkept.label_edge f hf)
    · exact List.mem_singleton.mp hf ▸ hedge

/-- A node made by hand in the graph of a text can be connected with every node that is there. But
neither comes back from the flowchart: what is read again is what would be read without them, in
which no node has the new id and no edge starts at it. -/
theorem parse_generate_connect_addNode (text : String) {label : String}
    (hlabel : '\n' ∉ label.toList) (stamp stamp' : Nat) (across down : UInt64) {v : String}
    (hv : v ∈ (parse .mermaid text).nodeIds) :
    ∃ h, ((parse .mermaid text).addNode label stamp across down).connect
          ((parse .mermaid text).newNode label stamp across down).id v stamp' = .ok h ∧
      parse .mermaid (generate .mermaid h) =
        parse .mermaid (generate .mermaid (parse .mermaid text)) ∧
      ((parse .mermaid text).newNode label stamp across down).id ∉
        (parse .mermaid (generate .mermaid h)).nodeIds ∧
      ∀ e ∈ (parse .mermaid (generate .mermaid h)).edges,
        e.source ≠ ((parse .mermaid text).newNode label stamp across down).id := by
  have htextual := isTextual_parse .mermaid text
  have htrip := parse_write_of_isTextual htextual
  generalize parse .mermaid text = g at hv htextual htrip ⊢
  let n := g.newNode label stamp across down
  let e := (g.addNode label stamp across down).newEdge n.id v stamp'
  have hconnect : (g.addNode label stamp across down).connect n.id v stamp' =
      .ok ⟨g.nodes ++ [n], g.edges ++ [e]⟩ := by
    have hsource : n.id ∈ (g.addNode label stamp across down).nodeIds :=
      List.mem_map_of_mem (by simp [Graph.addNode, n])
    have htarget : v ∈ (g.addNode label stamp across down).nodeIds := by
      rw [Graph.nodeIds, Graph.addNode, List.map_append]
      exact List.mem_append_left _ hv
    exact Graph.connect_eq_ok.mpr ⟨hsource, htarget, rfl⟩
  obtain ⟨c, rest, hc, hid⟩ := exists_toList_freshId "node" stamp g.nodeIds
  have hidNewline : '\n' ∉ n.id.toList := newline_notMem_freshId (by decide) stamp g.nodeIds
  have hvNewline : '\n' ∉ v.toList := by
    obtain ⟨m, hm, rfl⟩ := List.mem_map.mp hv
    exact (htextual.isWord_id m hm).notMem (by decide)
  have hback : parse .mermaid (write ⟨g.nodes ++ [n], g.edges ++ [e]⟩) =
      parse .mermaid (write g) := by
    have hnode : '\n' ∉ (nodeLine n).toList := by
      have hnlabel : '\n' ∉ n.label.toList := hlabel
      simp [nodeLine_toList, hidNewline, hnlabel]
    have hedge : '\n' ∉ (edgeLine e).toList := by
      have hends : '\n' ∉ e.source.toList ∧ '\n' ∉ e.target.toList := ⟨hidNewline, hvNewline⟩
      have hnone : e.label = none := rfl
      simp [edgeLine_toList, hnone, pipe, hends]
    rw [parse, statements_write_append (isWritable_of_isTextual htextual) (by decide) hc hid rfl
      hnode hedge, parse]
  -- what comes back has the nodes of the text, and the new id is none of theirs
  have hnew : n.id ∉ (parse .mermaid (write g)).nodeIds := by
    rw [htrip]
    exact freshId_notMem "node" stamp g.nodeIds
  refine ⟨_, hconnect, hback, ?_, fun f hf hsource => ?_⟩
  · rw [generate, Engine.dialect, hback]
    exact hnew
  · rw [generate, Engine.dialect, hback] at hf
    exact hnew (hsource ▸ ((isTextual_parse .mermaid _).valid.2 f hf).1)

theorem parse_generate_connect_addNode_lost :
    '\n' ∉ "New".toList ∧ "a" ∈ (parse .mermaid "a --> b").nodeIds ∧
      ∃ h, ((parse .mermaid "a --> b").addNode "New" 7 1 2).connect "node-7" "a" 7 = .ok h ∧
        generate .mermaid h =
          "flowchart LR\n  a[a]\n  b[b]\n  node-7[New]\n  a --> b\n  node-7 --> a\n" ∧
        "node-7" ∉ (parse .mermaid (generate .mermaid h)).nodeIds := by
  have hlabel : '\n' ∉ "New".toList := by decide
  have hnode : "a" ∈ (parse .mermaid "a --> b").nodeIds := by decide +kernel
  obtain ⟨h, hok, -, hlost, -⟩ := parse_generate_connect_addNode "a --> b" hlabel 7 7 1 2 hnode
  have hid : ((parse .mermaid "a --> b").newNode "New" 7 1 2).id = "node-7" := by decide +kernel
  rw [hid] at hok hlost
  refine ⟨hlabel, hnode, h, hok, ?_, hlost⟩
  obtain rfl := Except.ok.inj hok
  decide +kernel

/-- A node made by hand and connected with a node of a text does not survive. -/
theorem parse_generate_connect_addNode_ne :
    ¬ ∀ h, ((parse .mermaid "a --> b").addNode "New" 7 1 2).connect "node-7" "a" 7 = .ok h →
      (∃ n ∈ (parse .mermaid (generate .mermaid h)).nodes, n.id = "node-7" ∧ n.label = "New") ∧
        ∃ e ∈ (parse .mermaid (generate .mermaid h)).edges, e.source = "node-7" ∧ e.target = "a" :=
  fun hkept => absurd (hkept _ rfl) (by decide +kernel)

end Mermaid

end BoxArrow
