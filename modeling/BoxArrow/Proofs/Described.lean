import BoxArrow.Proofs.Validity
import BoxArrow.Proofs.Vocabulary

/-!
# The graph of a text, read off its statements

A text is read by taking its statements in turn and changing a graph at each of them. This file
reads the same graph off the list of statements in one look, clause by clause: which nodes there
are and in which order, where they stand, what they are called, and which arrows there are with
which labels.

The turns are followed for mentions and for arrows apart. After any number of them the nodes are
those of the mentions so far, where the first mention of an id decides, and the edges are those of
the arrows so far, where the last arrow of a pair decides. That edges are found by their id does no
harm, because ids of nodes are words and a hyphen between two words tells where the first one ends.

## Main definitions

* `BoxArrow.Statement.mentions`, `BoxArrow.Statement.arrow?`, `BoxArrow.Statement.ownLabel?` — what
  a statement says, by kind.
* `BoxArrow.Graph.described` — the graph of a list of statements, clause by clause.

## Main results

* `BoxArrow.Graph.ofStatements_eq_described` — taking the statements in turn gives that graph.
* `BoxArrow.Graph.valid_described`, `BoxArrow.Graph.nodup_edgeIds_described`.
* `BoxArrow.parse_eq_described` — the graph of every text.
* `BoxArrow.parse_describes_statements` — the same, with its validity and its edge ids.
-/

namespace BoxArrow

/-! ### What a statement says -/

/-- The nodes that a statement mentions, the source of a connection before its target. -/
def Statement.mentions : Statement → List Mention
  | .connection source target _ => [source, target]
  | .declaration node => [node]
  | .nodeLabel _ _ => []

/-- An arrow of a text: the ids that it joins, and its label. -/
structure Arrow where
  source : String
  target : String
  label : Option String

/-- The ids that an arrow joins. -/
def Arrow.ends (a : Arrow) : String × String :=
  (a.source, a.target)

/-- Arrows between words. -/
def Arrow.IsWordy (a : Arrow) : Prop :=
  IsWord a.source ∧ IsWord a.target

/-- The arrow that a statement draws. -/
def Statement.arrow? : Statement → Option Arrow
  | .connection source target label => some ⟨source.id, target.id, label⟩
  | .declaration _ => none
  | .nodeLabel _ _ => none

theorem Statement.arrow?_eq_some {s : Statement} {a : Arrow} :
    s.arrow? = some a ↔
      ∃ source target, s = .connection source target a.label ∧
        source.id = a.source ∧ target.id = a.target := by
  cases s with
  | connection source target label =>
    constructor
    · rintro ⟨⟩
      exact ⟨source, target, rfl, rfl, rfl⟩
    · rintro ⟨_, _, ⟨⟩, hsource, htarget⟩
      rw [arrow?, hsource, htarget]
  | declaration node => exact iff_of_false nofun (by rintro ⟨_, _, ⟨⟩, -⟩)
  | nodeLabel id label => exact iff_of_false nofun (by rintro ⟨_, _, ⟨⟩, -⟩)

/-- The label that a statement of its own gives to a node. -/
def Statement.ownLabel? (id : String) : Statement → Option String
  | .nodeLabel owner label => if owner = id then some label else none
  | .connection _ _ _ => none
  | .declaration _ => none

/-- The ids of a list of mentions, each once, in the order of their first mention. -/
def mentionedIds (ms : List Mention) : List String :=
  (ms.map (·.id)).eraseDups

/-- The label that the first mention of an id gives, or the id where it gives none. -/
def inlineLabel (ms : List Mention) (id : String) : String :=
  ((ms.find? (·.id == id)).bind (·.label)).getD id

/-- The pairs of ids that a list of arrows joins, each once, in the order of their first arrow. -/
def joinedPairs (arrows : List Arrow) : List (String × String) :=
  (arrows.map (·.ends)).eraseDups

/-- The label of the last arrow that joins a pair, if that arrow has one. -/
def lastLabel (arrows : List Arrow) (pair : String × String) : Option String :=
  ((arrows.filter (·.ends == pair)).getLast?).bind (·.label)

/-- The last label that statements of their own give to a node, if there is any. -/
def lastOwnLabel? (S : List Statement) (id : String) : Option String :=
  (S.filterMap (Statement.ownLabel? id)).getLast?

theorem mem_of_lastOwnLabel? {S : List Statement} {id x : String}
    (h : lastOwnLabel? S id = some x) : .nodeLabel id x ∈ S := by
  obtain ⟨s, hs, hx⟩ := List.mem_filterMap.mp (List.mem_of_getLast? h)
  cases s with
  | nodeLabel owner label =>
    rw [Statement.ownLabel?] at hx
    split_ifs at hx with howner
    obtain rfl := Option.some.inj hx
    exact howner ▸ hs
  | connection source target label => exact absurd hx nofun
  | declaration node => exact absurd hx nofun

namespace Graph

/-- The nodes of a list of mentions, one to each id and in grid slots by their order. -/
def nodesOf (ms : List Mention) (label : String → String) : List Node :=
  (mentionedIds ms).mapIdx fun i id => Node.fresh id (label id) (Position.gridSlot i)

/-- The edges of a list of arrows, one to each pair of ids. -/
def edgesOf (arrows : List Arrow) : List Edge :=
  (joinedPairs arrows).map fun p => Edge.between p.1 p.2 (lastLabel arrows p)

/-- The graph that a list of statements describes, clause by clause: the mentioned ids in the order
of their first mention, on the grid in that order, each labelled by the last statement about its
label alone and otherwise as at its first mention; and the joined pairs in the order of their first
connection, each labelled as in its last one. -/
def described (S : List Statement) : Graph where
  nodes := nodesOf (S.flatMap (·.mentions)) fun id =>
    (lastOwnLabel? S id).getD (inlineLabel (S.flatMap (·.mentions)) id)
  edges := edgesOf (S.filterMap (·.arrow?))

/-! ### One mention more -/

variable {ms : List Mention} {label label' : String → String}

theorem map_id_nodesOf : (nodesOf ms label).map (·.id) = mentionedIds ms := by
  refine List.ext_getElem? fun i => ?_
  rw [nodesOf, List.getElem?_map, List.getElem?_mapIdx]
  cases (mentionedIds ms)[i]? <;> rfl

theorem length_nodesOf : (nodesOf ms label).length = (mentionedIds ms).length :=
  List.length_mapIdx

theorem nodesOf_congr (h : ∀ id ∈ mentionedIds ms, label id = label' id) :
    nodesOf ms label = nodesOf ms label' := by
  rw [nodesOf, nodesOf, List.mapIdx_eq_mapIdx_iff]
  intro i hi
  rw [h _ (List.getElem_mem hi)]

/-- Giving every node a label by its id is the same as having done so from the start. -/
theorem map_label_nodesOf (f : String → String → String) :
    ((nodesOf ms label).map fun n => { n with label := f n.id n.label }) =
      nodesOf ms fun id => f id (label id) := by
  refine List.ext_getElem? fun i => ?_
  rw [nodesOf, nodesOf, List.getElem?_map, List.getElem?_mapIdx, List.getElem?_mapIdx]
  cases (mentionedIds ms)[i]? <;> rfl

theorem mem_mentionedIds {id : String} : id ∈ mentionedIds ms ↔ ∃ m ∈ ms, m.id = id := by
  rw [mentionedIds, List.mem_eraseDups, List.mem_map]

theorem mentionedIds_concat (m : Mention) :
    mentionedIds (ms ++ [m]) =
      if m.id ∈ mentionedIds ms then mentionedIds ms else mentionedIds ms ++ [m.id] := by
  rw [mentionedIds, List.map_append, List.map_singleton, eraseDups_concat]
  simp only [mentionedIds, List.mem_eraseDups]

theorem find?_mention_isSome {id : String} :
    (ms.find? (·.id == id)).isSome ↔ id ∈ mentionedIds ms := by
  rw [List.find?_isSome, mem_mentionedIds]
  simp only [beq_iff_eq]

/-- Later mentions do not change the label of an id that was mentioned before. -/
theorem inlineLabel_concat_of_mem {id : String} (h : id ∈ mentionedIds ms) (m : Mention) :
    inlineLabel (ms ++ [m]) id = inlineLabel ms id := by
  obtain ⟨first, hfirst⟩ := Option.isSome_iff_exists.mp (find?_mention_isSome.mpr h)
  rw [inlineLabel, inlineLabel, List.find?_append, hfirst, Option.some_or]

/-- The first mention of an id gives its label. -/
theorem inlineLabel_concat_self {m : Mention} (h : m.id ∉ mentionedIds ms) :
    inlineLabel (ms ++ [m]) m.id = m.label.getD m.id := by
  have hnone : ms.find? (·.id == m.id) = none := by
    rw [← Option.not_isSome_iff_eq_none, find?_mention_isSome]
    exact h
  rw [inlineLabel, List.find?_append, hnone, Option.none_or]
  simp

/-- The turn of a mention, on the nodes of the mentions before it. -/
theorem register_nodesOf (m : Mention) (es : List Edge) :
    register ⟨nodesOf ms (inlineLabel ms), es⟩ m =
      ⟨nodesOf (ms ++ [m]) (inlineLabel (ms ++ [m])), es⟩ := by
  have hids : (⟨nodesOf ms (inlineLabel ms), es⟩ : Graph).nodeIds = mentionedIds ms :=
    map_id_nodesOf
  have hkeep : nodesOf ms (inlineLabel ms) = nodesOf ms (inlineLabel (ms ++ [m])) :=
    nodesOf_congr fun id hid => (inlineLabel_concat_of_mem hid m).symm
  by_cases h : m.id ∈ mentionedIds ms
  · have hthere := hasNode_eq_true.mpr (hids ▸ h)
    rw [register, if_pos hthere, hkeep, nodesOf, nodesOf, mentionedIds_concat, if_pos h]
  · have hnew := fun hthere => h (hids ▸ hasNode_eq_true.mp hthere)
    rw [register, if_neg hnew]
    simp only [length_nodesOf]
    rw [hkeep, nodesOf, nodesOf, mentionedIds_concat, if_neg h, List.mapIdx_concat,
      inlineLabel_concat_self h]

/-! ### One arrow more -/

variable {arrows : List Arrow}

theorem mem_joinedPairs {p : String × String} :
    p ∈ joinedPairs arrows ↔ ∃ a ∈ arrows, a.ends = p := by
  rw [joinedPairs, List.mem_eraseDups, List.mem_map]

/-- The label of a pair is that of an arrow which joins it. -/
theorem exists_arrow_of_mem_joinedPairs {p : String × String} (h : p ∈ joinedPairs arrows) :
    ∃ a ∈ arrows, a.ends = p ∧ a.label = lastLabel arrows p := by
  obtain ⟨b, hb, hbp⟩ := mem_joinedPairs.mp h
  have hne : arrows.filter (·.ends == p) ≠ [] :=
    List.ne_nil_of_mem (List.mem_filter.mpr ⟨hb, beq_iff_eq.mpr hbp⟩)
  obtain ⟨hmem, hends⟩ := List.mem_filter.mp (List.getLast_mem hne)
  refine ⟨_, hmem, beq_iff_eq.mp hends, ?_⟩
  rw [lastLabel, List.getLast?_eq_some_getLast hne, Option.bind_some]

theorem joinedPairs_concat (a : Arrow) :
    joinedPairs (arrows ++ [a]) =
      if a.ends ∈ joinedPairs arrows then joinedPairs arrows
      else joinedPairs arrows ++ [a.ends] := by
  rw [joinedPairs, List.map_append, List.map_singleton, eraseDups_concat]
  simp only [joinedPairs, List.mem_eraseDups]

theorem lastLabel_concat_self (a : Arrow) : lastLabel (arrows ++ [a]) a.ends = a.label := by
  rw [lastLabel, List.filter_append, List.filter_cons_of_pos (by simp), List.filter_nil,
    List.getLast?_concat, Option.bind_some]

theorem lastLabel_concat_of_ne {a : Arrow} {p : String × String} (h : a.ends ≠ p) :
    lastLabel (arrows ++ [a]) p = lastLabel arrows p := by
  rw [lastLabel, List.filter_append, List.filter_cons_of_neg (by simpa using h),
    List.filter_nil, List.append_nil, lastLabel]

theorem between_id_toList (s t : String) (l : Option String) :
    (Edge.between s t l).id.toList = s.toList ++ '-' :: t.toList := by
  simp [Edge.between, Edge.fresh, toString]

/-- A hyphen after a word tells where the word ends, so that the id of an edge between words names
the words. -/
theorem between_id_inj {s t s' t' : String} {l l' : Option String} (hs : IsWord s) (ht : IsWord t)
    (h : (Edge.between s t l).id = (Edge.between s' t' l').id) : (s, t) = (s', t') := by
  rw [← String.toList_inj, between_id_toList, between_id_toList,
    List.append_cons_inj_of_notMem (hs.notMem (by decide)) (ht.notMem (by decide))] at h
  rw [Prod.mk.injEq]
  exact ⟨String.toList_inj.mp h.1, String.toList_inj.mp h.2.2⟩

/-- Edges between distinct pairs of words have distinct ids. -/
theorem nodup_edgeIds_edgesOf (h : ∀ a ∈ arrows, a.IsWordy) :
    ((edgesOf arrows).map (·.id)).Nodup := by
  rw [edgesOf, List.map_map]
  refine (nodup_eraseDups _).map_on fun p hp q _ hpq => ?_
  obtain ⟨a, ha, rfl⟩ := mem_joinedPairs.mp hp
  exact between_id_inj (h a ha).1 (h a ha).2 hpq

/-- The turn of a connection, on the edges of the arrows before it. -/
theorem link_edgesOf {a : Arrow} (h : ∀ b ∈ arrows ++ [a], b.IsWordy) (ns : List Node) :
    link ⟨ns, edgesOf arrows⟩ (Edge.between a.source a.target a.label) =
      ⟨ns, edgesOf (arrows ++ [a])⟩ := by
  have hbefore : ∀ b ∈ arrows, b.IsWordy := fun b hb => h b (List.mem_append_left _ hb)
  have ha : a.IsWordy := h a (List.mem_append_right _ List.mem_cons_self)
  have hthere : (⟨ns, edgesOf arrows⟩ : Graph).hasEdge
      (Edge.between a.source a.target a.label).id = true ↔ a.ends ∈ joinedPairs arrows := by
    rw [hasEdge_eq_true, edgeIds, edgesOf, List.map_map, List.mem_map]
    constructor
    · rintro ⟨p, hp, hid⟩
      rwa [Arrow.ends, between_id_inj ha.1 ha.2 hid.symm]
    · exact fun hp => ⟨a.ends, hp, rfl⟩
  by_cases hp : a.ends ∈ joinedPairs arrows
  · rw [link, if_pos (hthere.mpr hp), modifyFirst_eq_map _ _ _ _ (nodup_edgeIds_edgesOf hbefore),
      edgesOf, edgesOf, joinedPairs_concat, if_pos hp, List.map_map]
    congr 1
    refine List.map_congr_left fun p hpmem => ?_
    by_cases hpa : a.ends = p
    · subst hpa
      rw [lastLabel_concat_self, Function.comp_apply]
      exact if_pos rfl
    · rw [lastLabel_concat_of_ne hpa, Function.comp_apply]
      refine if_neg fun hid => hpa (between_id_inj ha.1 ha.2 hid.symm)
  · rw [link, if_neg (fun hin => hp (hthere.mp hin)), edgesOf, edgesOf, joinedPairs_concat,
      if_neg hp, List.map_append, List.map_singleton, lastLabel_concat_self]
    congr 2
    refine List.map_congr_left fun p hpmem => ?_
    rw [lastLabel_concat_of_ne]
    rintro rfl
    exact hp hpmem

/-! ### All turns -/

variable {S : List Statement}

theorem isWordy_of_uses {v : Vocabulary} (h : ∀ s ∈ S, s.Uses v) :
    ∀ a ∈ S.filterMap (·.arrow?), a.IsWordy := by
  intro a ha
  obtain ⟨s, hs, hsa⟩ := List.mem_filterMap.mp ha
  obtain ⟨source, target, rfl, hsource, htarget⟩ := Statement.arrow?_eq_some.mp hsa
  exact ⟨hsource ▸ (h _ hs).1.1, htarget ▸ (h _ hs).2.1.1⟩

/-- The nodes and edges after the turns of some statements, apart from labels in statements of
their own. -/
theorem foldl_absorb (h : ∀ a ∈ S.filterMap (·.arrow?), a.IsWordy) :
    S.foldl absorb empty =
      ⟨nodesOf (S.flatMap (·.mentions)) (inlineLabel (S.flatMap (·.mentions))),
        edgesOf (S.filterMap (·.arrow?))⟩ := by
  induction S using List.reverseRecOn with
  | nil => rfl
  | append_singleton S s ih =>
    rw [List.filterMap_append] at h
    rw [List.foldl_append, ih fun a ha => h a (List.mem_append_left _ ha), List.flatMap_append,
      List.filterMap_append, List.flatMap_singleton, List.foldl_cons, List.foldl_nil]
    cases s with
    | connection source target label =>
      rw [absorb, register_nodesOf, register_nodesOf, List.append_assoc]
      exact link_edgesOf (a := ⟨source.id, target.id, label⟩) h _
    | declaration node =>
      rw [absorb, register_nodesOf]
      simp only [Statement.mentions, Statement.arrow?, List.filterMap_cons_none, List.filterMap_nil,
        List.append_nil]
    | nodeLabel id label =>
      simp only [absorb, Statement.mentions, Statement.arrow?, List.filterMap_cons_none,
        List.filterMap_nil, List.append_nil]

theorem lastOwnLabel?_concat (id owner label : String) :
    lastOwnLabel? (S ++ [.nodeLabel owner label]) id =
      if owner = id then some label else lastOwnLabel? S id := by
  rw [lastOwnLabel?, List.filterMap_append, List.filterMap_cons, Statement.ownLabel?]
  split_ifs
  · exact List.getLast?_concat
  · rw [List.filterMap_nil, List.append_nil, lastOwnLabel?]

/-- Where node ids are distinct, the second turns label every node as its last statement says. -/
theorem foldl_absorbLabel (g : Graph) (h : g.nodeIds.Nodup) :
    S.foldl absorbLabel g =
      { g with nodes := g.nodes.map fun n =>
          { n with label := (lastOwnLabel? S n.id).getD n.label } } := by
  induction S using List.reverseRecOn with
  | nil => simp [lastOwnLabel?]
  | append_singleton S s ih =>
    rw [List.foldl_append, ih, List.foldl_cons, List.foldl_nil]
    cases s with
    | connection source target label =>
      simp [absorbLabel, lastOwnLabel?, Statement.ownLabel?]
    | declaration node =>
      simp [absorbLabel, lastOwnLabel?, Statement.ownLabel?]
    | nodeLabel id label =>
      have hids : (g.nodes.map fun n : Node =>
          { n with label := (lastOwnLabel? S n.id).getD n.label }).map (·.id) = g.nodeIds := by
        rw [List.map_map]
        rfl
      rw [absorbLabel, relabel, modifyFirst_eq_map _ _ _ _ (hids ▸ h), List.map_map]
      congr 1
      refine List.map_congr_left fun n _ => ?_
      rw [Function.comp_apply, lastOwnLabel?_concat]
      dsimp only
      by_cases hid : n.id = id
      · rw [if_pos hid, if_pos hid.symm, Option.getD_some]
      · rw [if_neg hid, if_neg (Ne.symm hid)]

/-- Statements about words describe the graph that is read off from them clause by clause. -/
theorem ofStatements_eq_described {v : Vocabulary} (h : ∀ s ∈ S, s.Uses v) :
    ofStatements S = described S := by
  rw [ofStatements, foldl_absorb (isWordy_of_uses h), foldl_absorbLabel _ ?_, described]
  · congr 1
    exact map_label_nodesOf fun id label => (lastOwnLabel? S id).getD label
  · rw [nodeIds, map_id_nodesOf]
    exact nodup_eraseDups _

/-! ### What is described -/

theorem nodeIds_described : (described S).nodeIds = mentionedIds (S.flatMap (·.mentions)) :=
  map_id_nodesOf

/-- Every edge that is described comes with its label from a connection. -/
theorem exists_connection_of_mem_edges {e : Edge} (he : e ∈ (described S).edges) :
    ∃ source target, .connection source target e.label ∈ S ∧
      source.id = e.source ∧ target.id = e.target := by
  obtain ⟨p, hp, rfl⟩ := List.mem_map.mp he
  obtain ⟨a, ha, rfl, hlabel⟩ := exists_arrow_of_mem_joinedPairs hp
  obtain ⟨s, hs, hsa⟩ := List.mem_filterMap.mp ha
  obtain ⟨source, target, rfl, hsource, htarget⟩ := Statement.arrow?_eq_some.mp hsa
  exact ⟨source, target, hlabel ▸ hs, hsource, htarget⟩

/-- The graph of a list of statements is valid, whatever the statements are. -/
theorem valid_described (S : List Statement) : (described S).Valid := by
  rw [Valid, nodeIds_described]
  refine ⟨nodup_eraseDups _, fun e he => ?_⟩
  obtain ⟨source, target, hs, hsource, htarget⟩ := exists_connection_of_mem_edges he
  constructor <;> rw [mem_mentionedIds]
  · exact ⟨source, List.mem_flatMap.mpr ⟨_, hs, List.mem_pair.mpr (.inl rfl)⟩, hsource⟩
  · exact ⟨target, List.mem_flatMap.mpr ⟨_, hs, List.mem_pair.mpr (.inr rfl)⟩, htarget⟩

/-- Statements about words describe edges with distinct ids. -/
theorem nodup_edgeIds_described {v : Vocabulary} (h : ∀ s ∈ S, s.Uses v) :
    (described S).edgeIds.Nodup :=
  nodup_edgeIds_edgesOf (isWordy_of_uses h)

end Graph

/-! ### The graph of a text -/

theorem parse_eq_described (engine : Engine) (text : String) :
    parse engine text = Graph.described (statements engine text) :=
  Graph.ofStatements_eq_described (statements_uses engine text)

theorem valid_parse (engine : Engine) (text : String) : (parse engine text).Valid := by
  rw [parse_eq_described]
  exact Graph.valid_described _

/-- The graph of a text is read off from the statements of its lines clause by clause. Nothing is
wrong with it, and its edges have distinct ids. -/
theorem parse_describes_statements (engine : Engine) (text : String) :
    parse engine text = Graph.described (statements engine text) ∧
      (parse engine text).firstFault = none ∧ (parse engine text).edgeIds.Nodup := by
  refine ⟨parse_eq_described engine text, Graph.firstFault_eq_none.mpr (valid_parse engine text), ?_⟩
  rw [parse_eq_described]
  exact Graph.nodup_edgeIds_described (statements_uses engine text)

end BoxArrow
