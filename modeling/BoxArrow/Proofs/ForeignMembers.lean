import BoxArrow.Graph.ChangeForm
import BoxArrow.Proofs.SavedCoordinates

/-!
# Changes with members that are not known

The editor adds members of its own to the changes that it reports, such as `dragging`, and may add
them anywhere: to the batch, to a change, to a position. Whatever is added, and wherever the members
stand, a batch is decoded as what was written, provided that its numbers are finite. A single number
that is not finite makes the batch undecodable, since `null` is written in its place.

Three things come together. A record passes over the keys that it does not have. A written record
has all its fields, so that its keys are its fields, and no added member can be taken for one of
them. A tagged record is decoded without its tag by an alternative that passes over more keys than
the others: a `position` in the record of a removal is passed over as well.

## Main definitions

* `BoxArrow.Json.ExtendsTo` — documents with further members.
* `BoxArrow.Json.withForeign` — an object as it is read with further members.
* `BoxArrow.Json.Yields` — what is decoded of a document with whatever further members.
* `BoxArrow.ChangeSet.IsFinite` — the batches with finite numbers.

## Main results

* `BoxArrow.Json.ExtendsTo.read` — a record is read from the members that were written.
* `BoxArrow.Json.yields_pair`, `BoxArrow.Json.yields_tagged` — records of two fields and with a tag.
* `BoxArrow.ChangeSet.ofJson_ignores_foreign` — batches.
-/

namespace BoxArrow

open scoped List

namespace Json

/-! ### Further members -/

mutual

/-- The document `j'` is `j` with further members in its objects, however deep these stand. The keys
of the further members are none of those that the object has; apart from this there may be any
number of them, with any values. The members of an object may stand in any order. -/
inductive ExtendsTo : Json → Json → Prop
  | null : ExtendsTo null null
  | bool (b : Bool) : ExtendsTo (bool b) (bool b)
  | number (n : Number) : ExtendsTo (number n) (number n)
  | string (s : String) : ExtendsTo (string s) (string s)
  | array {items items' : List Json} (h : List.Forall₂ ExtendsTo items items') :
      ExtendsTo (array items) (array items')
  | object {members kept foreign members' : List (String × Json)}
      (hkept : MembersExtendTo members kept)
      (hforeign : ∀ m ∈ foreign, m.1 ∉ members.map (·.1))
      (horder : members' ~ kept ++ foreign) :
      ExtendsTo (object members) (object members')

/-- The members have the same keys, and further members within their values. -/
inductive MembersExtendTo : List (String × Json) → List (String × Json) → Prop
  | nil : MembersExtendTo [] []
  | cons {value value' : Json} {members kept : List (String × Json)} (key : String)
      (h : ExtendsTo value value') (hmore : MembersExtendTo members kept) :
      MembersExtendTo ((key, value) :: members) ((key, value') :: kept)

end

variable {j : Json} {members kept foreign : List (String × Json)} {key : String} {value : Json}

theorem MembersExtendTo.keys : {members kept : List (String × Json)} →
    MembersExtendTo members kept → kept.map (·.1) = members.map (·.1)
  | _, _, .nil => rfl
  | _, _, .cons key _ hmore => congrArg (key :: ·) hmore.keys

mutual

theorem ExtendsTo.refl : (j : Json) → j.ExtendsTo j
  | .null => .null
  | .bool b => .bool b
  | .number n => .number n
  | .string s => .string s
  | .array items => .array (forall₂_extendsTo_refl items)
  | .object members =>
    .object (.refl members) (List.forall_mem_nil _) (.of_eq (List.append_nil members).symm)

theorem forall₂_extendsTo_refl : (items : List Json) → List.Forall₂ ExtendsTo items items
  | [] => .nil
  | item :: items => .cons (.refl item) (forall₂_extendsTo_refl items)

theorem MembersExtendTo.refl : (members : List (String × Json)) → MembersExtendTo members members
  | [] => .nil
  | (key, value) :: members => .cons key (.refl value) (.refl members)

end

/-! ### The order of a reader -/

theorem insertMember_perm (h : key ∉ members.map (·.1)) :
    insertMember key value members ~ (key, value) :: members := by
  induction members with
  | nil => rfl
  | cons m members ih =>
    obtain ⟨hne, hmore⟩ : key ≠ m.1 ∧ key ∉ members.map (·.1) := by simpa using h
    rw [insertMember, if_neg hne]
    split
    · rfl
    · exact ((ih hmore).cons m).trans (.swap ..)

/-- Of members with different keys, each is kept. -/
theorem sortMembers_perm (h : (members.map (·.1)).Nodup) : sortMembers members ~ members := by
  -- The fold starts with what is sorted already, and it is this that differs from step to step.
  suffices ∀ sorted : List (String × Json), ((sorted ++ members).map (·.1)).Nodup →
      members.foldl (fun sorted m => insertMember m.1 m.2 sorted) sorted ~ sorted ++ members from
    this [] h
  clear h
  induction members with
  | nil => exact fun sorted _ => .of_eq (List.append_nil sorted).symm
  | cons m members ih =>
    intro sorted h
    have hmiddle : m :: (sorted ++ members) ~ sorted ++ m :: members := List.perm_middle.symm
    have hnodup : (m.1 :: (sorted ++ members).map (·.1)).Nodup :=
      (hmiddle.map Prod.fst).nodup_iff.mpr h
    have hnew : m.1 ∉ sorted.map (·.1) := fun hm =>
      (List.nodup_cons.mp hnodup).1 (by simp [hm])
    have hinsert : insertMember m.1 m.2 sorted ++ members ~ m :: (sorted ++ members) :=
      (insertMember_perm hnew).append_right members
    exact (ih _ ((hinsert.map Prod.fst).nodup_iff.mpr hnodup)).trans (hinsert.trans hmiddle)

/-- The object that a reader makes of the members that were written and of further ones. -/
def withForeign (kept foreign : List (String × Json)) : Json :=
  object (sortMembers (kept ++ foreign))

theorem extendsTo_withForeign (hkept : MembersExtendTo members kept)
    (hkeys : ((members ++ foreign).map (·.1)).Nodup) :
    (object members).ExtendsTo (withForeign kept foreign) := by
  rw [List.map_append] at hkeys
  have hdisjoint := List.disjoint_of_nodup_append hkeys
  refine .object hkept (fun m hm hmem => hdisjoint hmem (List.mem_map_of_mem hm)) ?_
  exact sortMembers_perm (by rwa [List.map_append, hkept.keys])

end Json

/-! ### Records -/

/-- The keys that are no fields of the record are passed over. -/
def RecordShape.PassesOver {σ : Type} (shape : RecordShape)
    (visit : σ → String → Json → Decoded σ) : Prop :=
  ∀ d key j, key ∉ shape.fields.map (·.name) → visit d key j = .ok d

namespace Json

variable {α σ : Type} {members : List (String × Json)} {j : Json}

/-- A record that was written with all its fields is read from these alone, whatever members there
are besides, in the order in which they stand. -/
theorem ExtendsTo.read {shape : RecordShape} {visit : σ → String → Json → Decoded σ}
    (hvisit : shape.PassesOver visit) (hfields : members.map (·.1) = shape.fields.map (·.name))
    (h : (Json.object members).ExtendsTo j) :
    ∃ kept fields, MembersExtendTo members kept ∧ fields ~ kept ∧
      ∀ enclosure d, shape.read enclosure visit d j =
        fields.foldlM (fun d m => visit d m.1 m.2) d := by
  obtain _ | _ | _ | _ | _ | @⟨_, kept, foreign, members', hkept, hforeign, horder⟩ := h
  -- The keys that were written are the fields, so a filter by the fields tells the members apart.
  let known (m : String × Json) : Bool := decide (m.1 ∈ shape.fields.map (·.name))
  have hknown : kept.filter known = kept := by
    rw [List.filter_eq_self]
    intro m hm
    exact decide_eq_true (hfields ▸ hkept.keys ▸ List.mem_map_of_mem hm)
  have hunknown : foreign.filter known = [] := by
    rw [List.filter_eq_nil_iff]
    intro m hm hmem
    exact hforeign m hm (hfields ▸ of_decide_eq_true hmem)
  refine ⟨kept, members'.filter known, hkept, ?_, fun enclosure d => ?_⟩
  · have hfilter := horder.filter known
    rwa [List.filter_append, hknown, hunknown, List.append_nil] at hfilter
  · rw [RecordShape.read_object, List.foldlM_filter]
    congr 1
    funext d m
    split
    · rfl
    next hm => exact hvisit d m.1 m.2 fun hmem => hm (decide_eq_true hmem)

theorem lookup_eq_some_of_perm {members rest : List (String × Json)} {key : String} {value : Json}
    (h : members ~ (key, value) :: rest) (hrest : key ∉ rest.map (·.1)) :
    members.lookup key = some value := by
  cases hlookup : members.lookup key with
  | none =>
    have hne := List.lookup_eq_none_iff.mp hlookup _ (h.symm.subset List.mem_cons_self)
    simp at hne
  | some value' =>
    obtain ⟨before, after, hsplit, -⟩ := List.lookup_eq_some_iff.mp hlookup
    have hmem : (key, value') ∈ (key, value) :: rest := h.subset (by simp [hsplit])
    rcases List.mem_cons.mp hmem with heq | hmem
    · rw [(Prod.mk.inj heq).2]
    · exact absurd (List.mem_map_of_mem hmem) hrest

/-! ### Values with finite numbers -/

/-- What is decoded of a document, whatever further members there are. -/
def Yields (decode : Json → Decoded α) (j : Json) (r : Decoded α) : Prop :=
  ∀ j', j.ExtendsTo j' → decode j' = r

/-- What is decoded of a value that was written: the value itself when its numbers are finite, and
otherwise a complaint about the `null` that stands in the place of a number. -/
def okIf (finite : Prop) [Decidable finite] (a : α) : Decoded α :=
  if finite then .ok a else .error (.wrongType null "f64")

theorem okIf_pos {finite : Prop} [Decidable finite] (h : finite) (a : α) : okIf finite a = .ok a :=
  if_pos h

theorem okIf_neg {finite : Prop} [Decidable finite] (h : ¬finite) (a : α) :
    okIf finite a = .error (.wrongType null "f64") :=
  if_neg h

theorem okIf_congr {finite finite' : Prop} [Decidable finite] [Decidable finite']
    (h : finite ↔ finite') (a : α) : okIf finite a = okIf finite' a :=
  if_congr h rfl rfl

theorem map_okIf {β : Type} (f : α → β) (finite : Prop) [Decidable finite] (a : α) :
    (okIf finite a).map f = okIf finite (f a) := by
  by_cases h : finite
  · rw [okIf_pos h, okIf_pos h]
    rfl
  · rw [okIf_neg h, okIf_neg h]
    rfl

/-- What is decoded in two steps, of which only the first one looks at numbers. -/
theorem okIf_bind {β : Type} {finite : Prop} [Decidable finite] {a : α} {f : α → Decoded β} {b : β}
    (h : f a = .ok b) : okIf finite a >>= f = okIf finite b := by
  by_cases hfinite : finite
  · rw [okIf_pos hfinite, okIf_pos hfinite]
    exact h
  · rw [okIf_neg hfinite, okIf_neg hfinite]
    rfl

/-- What is decoded in two steps has finite numbers when both steps find finite numbers. -/
theorem okIf_bind_okIf {β : Type} {finite finite' : Prop} [Decidable finite] [Decidable finite']
    {a : α} {f : α → Decoded β} {b : β} (h : f a = okIf finite' b) :
    okIf finite a >>= f = okIf (finite ∧ finite') b := by
  by_cases hfinite : finite
  · rw [okIf_pos hfinite, okIf_congr (and_iff_right hfinite)]
    exact h
  · rw [okIf_neg hfinite, okIf_neg fun hboth => hfinite hboth.1]
    rfl

theorem Yields.bind {β : Type} {decode : Json → Decoded α} {finite : Prop} [Decidable finite]
    {a : α} {f : α → Decoded β} {b : β} (h : Yields decode j (okIf finite a)) (hf : f a = .ok b) :
    Yields (fun j => decode j >>= f) j (okIf finite b) := by
  intro j' hj
  change decode j' >>= f = _
  rw [h j' hj]
  exact okIf_bind hf

theorem yields_string (s : String) : Yields asString (.string s) (okIf True s) := by
  rintro _ ⟨⟩
  rfl

theorem yields_bool (b : Bool) : Yields asBool (.bool b) (okIf True b) := by
  rintro _ ⟨⟩
  rfl

theorem yields_ofFloat (x : Float) : Yields asFloat (ofFloat x) (okIf (x.isFinite = true) x) := by
  intro j h
  by_cases hx : x.isFinite = true
  · rw [ofFloat, if_pos hx] at h
    cases h
    exact (okIf_pos hx x).symm
  · rw [ofFloat, if_neg hx] at h
    cases h
    exact (okIf_neg hx x).symm

theorem ExtendsTo.ne_null {j j' : Json} (h : j.ExtendsTo j') (hj : j ≠ .null) : j' ≠ .null := by
  rintro rfl
  cases h
  exact hj rfl

/-- A value that could be absent is decoded, provided that no value is written as `null`. -/
theorem yields_option {decode : Json → Decoded α} {form : α → Json} {finite : α → Prop}
    [DecidablePred finite] (hnull : ∀ a, form a ≠ null)
    (h : ∀ a, Yields decode (form a) (okIf (finite a) a)) (slot : Option α) :
    Yields (asOption decode) ((slot.map form).getD null) (okIf (∀ a ∈ slot, finite a) slot) := by
  intro j hj
  cases slot with
  | none =>
    cases hj
    exact (okIf_pos nofun none).symm
  | some a =>
    have hsome : asOption decode j = (decode j).map some := by
      rw [asOption]
      exact hj.ne_null (hnull a)
    rw [hsome, h a j hj, map_okIf]
    exact okIf_congr (by simp) (some a)

/-- A list is decoded when all its entries are. -/
theorem yields_list {decode : Json → Decoded α} {form : α → Json} {finite : α → Prop}
    [DecidablePred finite] (h : ∀ a, Yields decode (form a) (okIf (finite a) a)) (as : List α) :
    Yields (asList decode) (.array (as.map form)) (okIf (∀ a ∈ as, finite a) as) := by
  rintro _ (_ | _ | _ | _ | @⟨_, items, hitems⟩)
  change items.mapM decode = _
  rw [List.forall₂_map_left_iff] at hitems
  induction hitems with
  | nil => exact (okIf_pos (List.forall_mem_nil _) []).symm
  | @cons a item as items hitem _ ih =>
    rw [List.mapM_cons, h a item hitem, ih, okIf_congr List.forall_mem_cons]
    exact okIf_bind_okIf (okIf_bind rfl)

/-! ### Records of such values -/

/-- A field that is not set yet is set to what is decoded. -/
theorem fill_bind {name : String} {value : Decoded α} {finite : Prop} [Decidable finite] {a : α}
    {f : Option α → Decoded σ} {d : σ} (hvalue : value = okIf finite a) (hf : f (some a) = .ok d) :
    fill name none value >>= f = okIf finite d := by
  have hfill : fill name none value = okIf finite (some a) := by
    rw [hvalue]
    exact map_okIf some finite a
  rw [hfill]
  exact okIf_bind hf

/-- A tagged record is decoded by the alternative that it names. The further members go with the
rest of the record. -/
theorem yields_tagged {tag title : String} {known : List (String × (Json → Decoded α))}
    {content : Json → Decoded α} {r : Decoded α} (hcontent : known.lookup tag = some content)
    (htype : "type" ∉ members.map (·.1)) (h : Yields content (.object members) r) :
    Yields (asTagged title known) (.object (("type", .string tag) :: members)) r := by
  intro j hj
  obtain _ | _ | _ | _ | _ | @⟨_, kept, foreign, members', hkept, hforeign, horder⟩ := hj
  obtain _ | @⟨_, _, _, kept, _, ⟨⟩, hkept⟩ := hkept
  have hrest : "type" ∉ (kept ++ foreign).map (·.1) := by
    rw [List.map_append, List.mem_append, hkept.keys, not_or]
    refine ⟨htype, fun hmem => ?_⟩
    obtain ⟨m, hm, hkey⟩ := List.mem_map.mp hmem
    exact hforeign m hm (hkey ▸ List.mem_cons_self)
  -- Only one member has the key of the tag, so that the tag is found and then nothing else is lost.
  have hall : ∀ m ∈ kept ++ foreign, (m.1 != "type") = true := fun m hm =>
    bne_iff_ne.mpr fun hkey => hrest (hkey ▸ List.mem_map_of_mem hm)
  have horder' : members'.filter (·.1 != "type") ~ kept ++ foreign := by
    have hfilter := horder.filter (·.1 != "type")
    rwa [List.cons_append, List.filter_cons_of_neg (by simp),
      List.filter_eq_self.mpr hall] at hfilter
  have hchoose : chooseVariant known tag = .ok content := by
    rw [chooseVariant, hcontent]
  have hcontents : asTagged title known (object members') =
      content (.object (members'.filter (·.1 != "type"))) := by
    rw [asTagged, lookup_eq_some_of_perm horder hrest]
    change chooseVariant known tag >>= _ = _
    rw [hchoose]
    rfl
  rw [hcontents]
  exact h _ (.object hkept (fun m hm hmem => hforeign m hm (List.mem_cons_of_mem _ hmem)) horder')

/-- A record of two fields. It does not matter which of them is known first. -/
theorem yields_pair {β : Type} {shape : RecordShape} {visit : σ → String → Json → Decoded σ}
    (hvisit : shape.PassesOver visit) {key₁ key₂ : String}
    (hfields : shape.fields.map (·.name) = [key₁, key₂]) (draft : Option α → Option β → σ)
    {value₁ value₂ : Json} {finite₁ finite₂ finite : Prop} [Decidable finite₁]
    [Decidable finite₂] [Decidable finite] (hfinite : finite₁ ∧ finite₂ ↔ finite) {a : α} {b : β}
    (h₁ : ∀ slot, Yields (visit (draft none slot) key₁) value₁
      (okIf finite₁ (draft (some a) slot)))
    (h₂ : ∀ slot, Yields (visit (draft slot none) key₂) value₂
      (okIf finite₂ (draft slot (some b))))
    (enclosure : Enclosure) :
    Yields (shape.read enclosure visit (draft none none))
      (.object [(key₁, value₁), (key₂, value₂)])
      (okIf finite (draft (some a) (some b))) := by
  intro j h
  have hkeys : [(key₁, value₁), (key₂, value₂)].map (·.1) = shape.fields.map (·.name) :=
    hfields.symm
  obtain ⟨_, fields, _ | ⟨_, hj₁, _ | ⟨_, hj₂, ⟨⟩⟩⟩, horder, hread⟩ := h.read hvisit hkeys
  rw [hread, ← okIf_congr hfinite]
  -- Two members have two orders, and the second one is visited with the first one known.
  rcases List.perm_pair.mp horder with rfl | rfl
  · simp only [List.foldlM_cons, List.foldlM_nil, bind_pure]
    rw [h₁ none _ hj₁]
    exact okIf_bind_okIf (h₂ (some a) _ hj₂)
  · simp only [List.foldlM_cons, List.foldlM_nil, bind_pure]
    rw [h₂ none _ hj₂, okIf_congr and_comm]
    exact okIf_bind_okIf (h₁ (some b) _ hj₁)

end Json

open Json

/-! ### Positions and sizes -/

theorem Position.passesOver_visit : shape.PassesOver Draft.visit := by
  intro d key j hkey
  unfold Draft.visit
  split <;> simp_all [shape]

theorem Size.passesOver_visit : shape.PassesOver Draft.visit := by
  intro d key j hkey
  unfold Draft.visit
  split <;> simp_all [shape]

theorem Position.yields (enclosure : Enclosure) (p : Position) :
    Yields (ofJson enclosure) p.toJson (okIf p.IsFinite p) :=
  (yields_pair passesOver_visit rfl Draft.mk Iff.rfl
    (fun _ _ hx => fill_bind (yields_ofFloat p.x _ hx) rfl)
    (fun _ _ hy => fill_bind (yields_ofFloat p.y _ hy) rfl) enclosure).bind rfl

theorem Size.yields (enclosure : Enclosure) (s : Size) :
    Yields (ofJson enclosure) s.toJson (okIf s.IsFinite s) :=
  (yields_pair passesOver_visit rfl Draft.mk Iff.rfl
    (fun _ _ hwidth => fill_bind (yields_ofFloat s.width _ hwidth) rfl)
    (fun _ _ hheight => fill_bind (yields_ofFloat s.height _ hheight) rfl) enclosure).bind rfl

theorem yields_position? (p : Option Position) :
    Yields (asOption (Position.ofJson .tagged)) ((p.map Position.toJson).getD .null)
      (okIf (∀ q ∈ p, q.IsFinite) p) :=
  yields_option (show ∀ p : Position, p.toJson ≠ null from nofun) (Position.yields .tagged) p

theorem yields_size? (s : Option Size) :
    Yields (asOption (Size.ofJson .tagged)) ((s.map Size.toJson).getD .null)
      (okIf (∀ t ∈ s, t.IsFinite) s) :=
  yields_option (show ∀ s : Size, s.toJson ≠ null from nofun) (Size.yields .tagged) s

/-! ### Changes -/

namespace ChangeDraft

theorem passesOver_visit (shape : RecordShape) : shape.PassesOver (visit shape) := by
  intro d key j hkey
  have hno : ¬shape.fields.any (·.name == key) = true := by
    simpa using hkey
  exact if_neg hno

theorem yields_position (title id : String) (p : Option Position) :
    Yields (read (changeShape title [⟨"position", false⟩]))
      (.object [("id", .string id), ("position", (p.map Position.toJson).getD .null)])
      (okIf (∀ q ∈ p, q.IsFinite) ⟨some id, some p, none, none⟩) :=
  yields_pair (passesOver_visit (changeShape title [⟨"position", false⟩])) rfl
    (fun id p => ⟨id, p, none, none⟩) (by rw [true_and])
    (fun _ _ hid => fill_bind (yields_string id _ hid) rfl)
    (fun _ _ hp => fill_bind (yields_position? p _ hp) rfl) .tagged

theorem yields_dimensions (title id : String) (s : Option Size) :
    Yields (read (changeShape title [⟨"dimensions", false⟩]))
      (.object [("id", .string id), ("dimensions", (s.map Size.toJson).getD .null)])
      (okIf (∀ t ∈ s, t.IsFinite) ⟨some id, none, some s, none⟩) :=
  yields_pair (passesOver_visit (changeShape title [⟨"dimensions", false⟩])) rfl
    (fun id s => ⟨id, none, s, none⟩) (by rw [true_and])
    (fun _ _ hid => fill_bind (yields_string id _ hid) rfl)
    (fun _ _ hs => fill_bind (yields_size? s _ hs) rfl) .tagged

theorem yields_selected (title id : String) (selected : Bool) :
    Yields (read (changeShape title [⟨"selected", true⟩]))
      (.object [("id", .string id), ("selected", .bool selected)])
      (okIf True ⟨some id, none, none, some selected⟩) :=
  yields_pair (passesOver_visit (changeShape title [⟨"selected", true⟩])) rfl
    (fun id selected => ⟨id, none, none, selected⟩) (by rw [true_and])
    (fun _ _ hid => fill_bind (yields_string id _ hid) rfl)
    (fun _ _ hb => fill_bind (yields_bool selected _ hb) rfl) .tagged

/-- Where a change has no further field, whatever stands besides the id is passed over. -/
theorem yields_id (title id : String) :
    Yields (read (changeShape title [])) (.object [("id", .string id)])
      (okIf True ⟨some id, none, none, none⟩) := by
  intro j h
  have hkeys : [("id", Json.string id)].map (·.1) =
      (changeShape title []).fields.map (·.name) := rfl
  obtain ⟨_, fields, _ | ⟨_, hid, ⟨⟩⟩, horder, hread⟩ :=
    h.read (passesOver_visit (changeShape title [])) hkeys
  cases hid
  rw [read, hread, List.perm_singleton.mp horder]
  rfl

end ChangeDraft

/-- The new position or size, where there is one, is finite. -/
def NodeChange.IsFinite : NodeChange → Prop
  | position _ p => ∀ q ∈ p, q.IsFinite
  | dimensions _ s => ∀ t ∈ s, t.IsFinite
  | select _ _ | remove _ => True

instance NodeChange.decidableIsFinite : (c : NodeChange) → Decidable c.IsFinite
  | position _ p => inferInstanceAs (Decidable (∀ q ∈ p, q.IsFinite))
  | dimensions _ s => inferInstanceAs (Decidable (∀ t ∈ s, t.IsFinite))
  | select _ _ | remove _ => inferInstanceAs (Decidable True)

theorem NodeChange.yields (c : NodeChange) : Yields ofJson c.toJson (okIf c.IsFinite c) := by
  cases c with
  | position id p =>
    exact yields_tagged rfl (by simp) ((ChangeDraft.yields_position _ id p).bind rfl)
  | dimensions id s =>
    exact yields_tagged rfl (by simp) ((ChangeDraft.yields_dimensions _ id s).bind rfl)
  | select id selected =>
    exact yields_tagged rfl (by simp) ((ChangeDraft.yields_selected _ id selected).bind rfl)
  | remove id =>
    exact yields_tagged rfl (by simp) ((ChangeDraft.yields_id _ id).bind rfl)

theorem EdgeChange.yields (c : EdgeChange) : Yields ofJson c.toJson (okIf True c) := by
  cases c with
  | select id selected =>
    exact yields_tagged rfl (by simp) ((ChangeDraft.yields_selected _ id selected).bind rfl)
  | remove id =>
    exact yields_tagged rfl (by simp) ((ChangeDraft.yields_id _ id).bind rfl)

/-! ### Batches -/

namespace ChangeSet

/-- The new positions and sizes of nodes are finite. -/
def IsFinite (c : ChangeSet) : Prop :=
  ∀ n ∈ c.nodes, n.IsFinite

instance (c : ChangeSet) : Decidable c.IsFinite :=
  inferInstanceAs (Decidable (∀ n ∈ c.nodes, n.IsFinite))

theorem passesOver_visit : shape.PassesOver Draft.visit := by
  intro d key j hkey
  unfold Draft.visit
  split <;> simp_all [shape]

/-- A batch is decoded as what was written, whatever further members there are, when its numbers are
finite, and otherwise not at all. -/
theorem yields (c : ChangeSet) : Yields ofJson c.toJson (okIf c.IsFinite c) :=
  (yields_pair passesOver_visit rfl Draft.mk (by simp [IsFinite])
    (fun _ _ hnodes => fill_bind (yields_list NodeChange.yields c.nodes _ hnodes) rfl)
    (fun _ _ hedges => fill_bind (yields_list EdgeChange.yields c.edges _ hedges) rfl)
    .plain).bind rfl

/-- Every batch with finite numbers is decoded from what was written of it, as the same batch, and
so it is with any number of further members, in the batch, in its changes and in their positions and
sizes, under any keys that are no fields there. A batch with a number that is not finite is not
decoded, with further members or without. -/
theorem ofJson_ignores_foreign (c : ChangeSet) :
    (c.IsFinite → ofJson c.toJson = .ok c ∧ ∀ j, c.toJson.ExtendsTo j → ofJson j = .ok c) ∧
    (¬c.IsFinite → ∀ j, c.toJson.ExtendsTo j → ofJson j = .error (.wrongType .null "f64")) := by
  refine ⟨fun hfinite => ?_, fun hinfinite j hj => (c.yields j hj).trans (okIf_neg hinfinite c)⟩
  have hall : ∀ j, c.toJson.ExtendsTo j → ofJson j = .ok c := fun j hj =>
    (c.yields j hj).trans (okIf_pos hfinite c)
  exact ⟨hall _ (.refl _), hall⟩

/-- Changes of all kinds. -/
def assorted : ChangeSet where
  nodes := [.position "a" (some ⟨10, 20.5⟩), .position "a" none, .dimensions "b" (some ⟨150, 90⟩),
    .select "c" true, .remove "d"]
  edges := [.select "c-d" false, .remove "a-b"]

/-- The changes of all kinds as an editor might report them. Further members stand on all levels,
and some of their keys are fields elsewhere. -/
def assortedReport : Json :=
  withForeign
    [("nodes", .array [
      withForeign
        [("type", .string "position"), ("id", .string "a"),
          ("position", withForeign [("x", .ofFloat 10), ("y", .ofFloat 20.5)]
            [("z", .ofFloat 0.5), ("type", .null)])]
        [("dragging", .bool true)],
      withForeign [("type", .string "position"), ("id", .string "a"), ("position", .null)]
        [("x", .string "far"), ("dragging", .bool false)],
      withForeign
        [("type", .string "dimensions"), ("id", .string "b"),
          ("dimensions", withForeign [("width", .ofFloat 150), ("height", .ofFloat 90)] [])]
        [("resizing", .bool true), ("position", .bool true)],
      withForeign [("type", .string "select"), ("id", .string "c"), ("selected", .bool true)] [],
      withForeign [("type", .string "remove"), ("id", .string "d")]
        [("selected", .null), ("position", .array []), ("dimensions", .string "none")]]),
      ("edges", .array [
        withForeign
          [("type", .string "select"), ("id", .string "c-d"), ("selected", .bool false)]
          [("source", .string "c")],
        withForeign [("type", .string "remove"), ("id", .string "a-b")] []])]
    [("type", .object [("nodes", .null)]), ("id", .string "batch")]

theorem ofJson_ignores_foreign_assorted :
    let overgrown : ChangeSet := ⟨[.remove "d", .dimensions "b" (some ⟨150, 1 / 0⟩)], []⟩
    assorted.IsFinite ∧ assorted.toJson.ExtendsTo assortedReport ∧
      ofJson assorted.toJson = .ok assorted ∧ ofJson assortedReport = .ok assorted ∧
      ¬overgrown.IsFinite ∧ ofJson overgrown.toJson = .error (.wrongType .null "f64") := by
  intro overgrown
  have hfinite : assorted.IsFinite := by decide +kernel
  have hinfinite : ¬overgrown.IsFinite := by decide +kernel
  have hposition : (Position.toJson ⟨10, 20.5⟩).ExtendsTo
      (withForeign [("x", .ofFloat 10), ("y", .ofFloat 20.5)]
        [("z", .ofFloat 0.5), ("type", .null)]) :=
    extendsTo_withForeign (.refl _) (by decide)
  have hsize : (Size.toJson ⟨150, 90⟩).ExtendsTo
      (withForeign [("width", .ofFloat 150), ("height", .ofFloat 90)] []) :=
    extendsTo_withForeign (.refl _) (by decide)
  have hextends : assorted.toJson.ExtendsTo assortedReport := by
    refine extendsTo_withForeign (.cons "nodes" (.array (.cons ?_ (.cons ?_ (.cons ?_ (.cons ?_
      (.cons ?_ .nil)))))) (.cons "edges" (.array (.cons ?_ (.cons ?_ .nil))) .nil)) (by decide)
    · exact extendsTo_withForeign (.cons "type" (.string _) (.cons "id" (.string _)
        (.cons "position" hposition .nil))) (by decide)
    · exact extendsTo_withForeign (.refl _) (by decide)
    · exact extendsTo_withForeign (.cons "type" (.string _) (.cons "id" (.string _)
        (.cons "dimensions" hsize .nil))) (by decide)
    all_goals exact extendsTo_withForeign (.refl _) (by decide)
  obtain ⟨hwritten, hreported⟩ := (ofJson_ignores_foreign assorted).1 hfinite
  exact ⟨hfinite, hextends, hwritten, hreported _ hextends, hinfinite,
    (ofJson_ignores_foreign overgrown).2 hinfinite _ (.refl _)⟩

end ChangeSet

end BoxArrow
