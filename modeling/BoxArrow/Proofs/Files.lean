import BoxArrow.Files
import BoxArrow.Proofs.Procedures
import Mathlib.Data.List.Infix

/-!
# Files that are written

A text that is written to a file is read from there afterwards, and every other path that led to
something leads to the same as before. The reason is that a write changes the tree at one place
only. A path is walked through directories, and a file is never written where a directory is; so the
directories on the way to any place are the same after a write, and only a walk that ends at the
place of the write ends with something new.

## Main definitions

* `BoxArrow.FileTree.Found.place?` — the place at which a file can be written.
* `BoxArrow.FileTree.TakesAt`, `BoxArrow.FileTree.IsNull` — the paths under which a text can be
  written, to a file or to the null device.

## Main results

* `BoxArrow.FileTree.find_put` — what paths lead to after a write.
* `BoxArrow.FileTree.run_write_of_takesAt` — reading after writing.
* `BoxArrow.FileTree.run_write_of_not` — writing fails under every other path, and changes nothing.
-/

namespace BoxArrow.FileTree

variable {t : FileTree} {place way directory next : Place} {name path : String} {found : Found}
  {content : ByteArray}

/-! ### What is at a place -/

/-- The place at which a file is, or at which there is nothing yet. -/
def Found.place? : Found → Option Place
  | .file place _ => some place
  | .nothing place => some place
  | _ => none

theorem leadsOn_iff :
    t.leadsOn place = true ↔ place <+: t.here ∨ ∃ e ∈ t.entries, place <+: e.1 := by
  simp [leadsOn]

theorem leadsOn_of_isPrefix (h : t.leadsOn way = true) (hbegins : place <+: way) :
    t.leadsOn place = true := by
  rw [leadsOn_iff] at h ⊢
  exact h.imp hbegins.trans fun ⟨e, he, hway⟩ => ⟨e, he, hbegins.trans hway⟩

/-- Directories lead on. -/
theorem leadsOn_of_atPlace (h : t.atPlace place = .directory next) :
    next = place ∧ t.leadsOn place = true := by
  rw [atPlace] at h
  cases hentry : t.entries.lookup place with
  | none =>
    rw [hentry] at h
    dsimp only at h
    split_ifs at h with hleads
    · exact ⟨(Found.directory.inj h).symm, hleads⟩
  | some entry =>
    rw [hentry] at h
    obtain ⟨before, after, hentries, -⟩ := List.lookup_eq_some_iff.mp hentry
    have hmem : (place, entry) ∈ t.entries := by
      rw [hentries]
      exact List.mem_append_right _ List.mem_cons_self
    cases entry with
    | file content => exact absurd h nofun
    | nullDevice => exact absurd h nofun
    | directory =>
      refine ⟨(Found.directory.inj h).symm, leadsOn_iff.mpr (.inr ⟨_, hmem, List.prefix_rfl⟩)⟩

theorem place?_atPlace (h : (t.atPlace place).place? = some way) : way = place := by
  rw [atPlace] at h
  cases hentry : t.entries.lookup place with
  | none =>
    rw [hentry] at h
    dsimp only at h
    split_ifs at h
    · exact absurd h nofun
    · exact (Option.some.inj h).symm
  | some entry =>
    rw [hentry] at h
    cases entry with
    | file content => exact (Option.some.inj h).symm
    | nullDevice => exact absurd h nofun
    | directory => exact absurd h nofun

/-! ### A file that is put in its place -/

theorem atPlace_put_self : (t.put place content).atPlace place = .file place content := by
  rw [atPlace, put, List.lookup_cons_self]

theorem lookup_put_of_ne (hne : way ≠ place) :
    (t.put place content).entries.lookup way = t.entries.lookup way := by
  have hfilter (entries : List (Place × Entry)) :
      (entries.filter (·.1 != place)).lookup way = entries.lookup way := by
    induction entries with
    | nil => rfl
    | cons e entries ih =>
      by_cases he : e.1 = place
      · rw [List.filter_cons_of_neg (by simpa using he), ih, List.lookup_cons,
          beq_false_of_ne (he ▸ hne)]
      · rw [List.filter_cons_of_pos (by simpa using he), List.lookup_cons, List.lookup_cons, ih]
  rw [put, List.lookup_cons, beq_false_of_ne hne]
  exact hfilter t.entries

/-- Only what begins the new place leads on that may not have done so before. -/
theorem leadsOn_put :
    (t.put place content).leadsOn way = true ↔ t.leadsOn way = true ∨ way <+: place := by
  rw [leadsOn_iff, leadsOn_iff]
  constructor
  · rintro (hhere | ⟨e, he, hway⟩)
    · exact .inl (.inl hhere)
    · rcases List.mem_cons.mp he with rfl | he
      · exact .inr hway
      · exact .inl (.inr ⟨e, List.mem_of_mem_filter he, hway⟩)
  · rintro ((hhere | ⟨e, he, hway⟩) | hplace)
    · exact .inl hhere
    · by_cases heq : e.1 = place
      · exact .inr ⟨_, List.mem_cons_self, heq ▸ hway⟩
      · refine .inr ⟨e, List.mem_cons_of_mem _ (List.mem_filter.mpr ⟨he, ?_⟩), hway⟩
        simpa using heq
    · exact .inr ⟨_, List.mem_cons_self, hplace⟩

/-- Every other place is as it was, provided that directories lead to the one that is written to. -/
theorem atPlace_put_of_ne (hparent : t.leadsOn place.dropLast = true) (hne : way ≠ place) :
    (t.put place content).atPlace way = t.atPlace way := by
  have hleads : (t.put place content).leadsOn way = t.leadsOn way := by
    rw [Bool.eq_iff_iff, leadsOn_put]
    refine or_iff_left_of_imp fun hbegins => leadsOn_of_isPrefix hparent ?_
    rcases List.eq_nil_or_concat' place with rfl | ⟨parent, name, rfl⟩
    · exact absurd (List.prefix_nil.mp hbegins) hne
    · rw [List.dropLast_concat]
      exact (List.prefix_concat_iff.mp hbegins).resolve_left hne
  rw [atPlace, atPlace, lookup_put_of_ne hne, hleads]

/-! ### Walks -/

theorem leadsOn_of_look (hdirectory : t.leadsOn directory = true)
    (h : t.look directory name = .directory next) : t.leadsOn next = true := by
  rw [look] at h
  split_ifs at h
  · exact Found.directory.inj h ▸ hdirectory
  · exact Found.directory.inj h ▸ leadsOn_of_isPrefix hdirectory (List.dropLast_prefix directory)
  · obtain ⟨rfl, hleads⟩ := leadsOn_of_atPlace h
    exact hleads

theorem place?_look (h : (t.look directory name).place? = some place) :
    place = directory ++ [name] ∧ t.look directory name = t.atPlace place := by
  rw [look] at h ⊢
  split_ifs at h ⊢
  · exact absurd h nofun
  · exact absurd h nofun
  · exact absurd h nofun
  · obtain rfl := place?_atPlace h
    exact ⟨rfl, rfl⟩

/-- A walk goes on from a directory, and ends at everything else. -/
theorem walk_cons_eq_ok {names : List String} :
    t.walk directory (name :: names) = .ok found ↔
      (∃ next, t.look directory name = .directory next ∧ t.walk next names = .ok found) ∨
        (∀ next, t.look directory name ≠ .directory next) ∧ names = [] ∧
          found = t.look directory name := by
  rw [walk]
  cases t.look directory name with
  | directory next => simp
  | file place content => cases names <;> simp [eq_comm]
  | nullDevice => cases names <;> simp [eq_comm]
  | nothing place => cases names <;> simp [eq_comm]
  | unnameable => cases names <;> simp [eq_comm]

/-- Directories lead to the place that a walk ends at. -/
theorem leadsOn_dropLast_of_walk {names : List String} (hdirectory : t.leadsOn directory = true)
    (hwalk : t.walk directory names = .ok found) (hplace : found.place? = some place) :
    t.leadsOn place.dropLast = true ∧ (t.atPlace place).place? = some place := by
  induction names generalizing directory with
  | nil =>
    obtain rfl := Except.ok.inj hwalk
    exact absurd hplace nofun
  | cons name names ih =>
    rcases walk_cons_eq_ok.mp hwalk with ⟨next, hlook, hrest⟩ | ⟨-, -, rfl⟩
    · exact ih (leadsOn_of_look hdirectory hlook) hrest
    · obtain ⟨heq, hat⟩ := place?_look hplace
      refine ⟨?_, hat ▸ hplace⟩
      rw [heq, List.dropLast_concat]
      exact hdirectory

/-- What something that was found becomes when a file is put in its place. -/
def Found.afterPut (place : Place) (content : ByteArray) (found : Found) : Found :=
  if found.place? = some place then .file place content else found

section Put

-- a file can be put at the place: directories lead to it, and it is none itself
variable (hparent : t.leadsOn place.dropLast = true) (hfree : (t.atPlace place).place? = some place)
include hparent hfree

theorem look_put (directory : Place) (name : String) :
    (t.put place content).look directory name =
      (t.look directory name).afterPut place content := by
  rw [look, look]
  split_ifs
  · exact (if_neg nofun).symm
  · exact (if_neg nofun).symm
  · exact (if_neg nofun).symm
  · by_cases hway : directory ++ [name] = place
    · rw [hway, atPlace_put_self, Found.afterPut, if_pos hfree]
    · rw [atPlace_put_of_ne hparent hway, Found.afterPut, if_neg]
      exact fun hplace => hway (place?_atPlace hplace).symm

theorem walk_put {names : List String} (hwalk : t.walk directory names = .ok found) :
    (t.put place content).walk directory names = .ok (found.afterPut place content) := by
  induction names generalizing directory with
  | nil =>
    obtain rfl := Except.ok.inj hwalk
    rfl
  | cons name names ih =>
    rw [walk_cons_eq_ok, look_put hparent hfree]
    rcases walk_cons_eq_ok.mp hwalk with ⟨next, hlook, hrest⟩ | ⟨hend, hnames, rfl⟩
    · exact .inl ⟨next, by rw [hlook]; rfl, ih hrest⟩
    · refine .inr ⟨fun next hnext => ?_, hnames, rfl⟩
      rw [Found.afterPut] at hnext
      split_ifs at hnext
      exact hend next hnext

end Put

/-! ### Paths -/

theorem leadsOn_start (t : FileTree) (path : String) : t.leadsOn (t.start path) = true := by
  rw [start]
  split_ifs
  · exact leadsOn_iff.mpr (.inl List.nil_prefix)
  · exact leadsOn_iff.mpr (.inl List.prefix_rfl)

theorem find_eq_walk (hnul : path.contains '\x00' = false) (hempty : path.isEmpty = false)
    (hsize : path.utf8ByteSize ≤ maxPathSize) :
    t.find path = t.walk (t.start path) (pathNames path) := by
  rw [find, hnul, hempty, if_neg Bool.false_ne_true, if_neg Bool.false_ne_true,
    if_neg (Nat.not_lt.mpr hsize)]

/-- A path that does not begin with a slash is walked from the working directory. -/
theorem find_eq_walk_here (t : FileTree) (path : String) (names : List String)
    (hnul : path.contains '\x00' = false)
    (htext : path.isEmpty = false ∧ path.utf8ByteSize ≤ maxPathSize ∧ path.startsWith "/" = false)
    (hnames : pathNames path = names) : t.find path = t.walk t.here names := by
  rw [find_eq_walk hnul htext.1 htext.2.1, start, htext.2.2, if_neg Bool.false_ne_true, hnames]

/-- Apart from the walk, whether a path leads somewhere is a matter of its text. -/
theorem find_eq_ok :
    t.find path = .ok found ↔
      path.contains '\x00' = false ∧ path.isEmpty = false ∧ path.utf8ByteSize ≤ maxPathSize ∧
        t.walk (t.start path) (pathNames path) = .ok found := by
  constructor
  · intro h
    have htext : path.contains '\x00' = false ∧ path.isEmpty = false ∧
        path.utf8ByteSize ≤ maxPathSize := by
      rw [find] at h
      split_ifs at h with hnul hempty hsize
      exact ⟨by simpa using hnul, by simpa using hempty, Nat.not_lt.mp hsize⟩
    exact ⟨htext.1, htext.2.1, htext.2.2, find_eq_walk htext.1 htext.2.1 htext.2.2 ▸ h⟩
  · rintro ⟨hnul, hempty, hsize, hwalk⟩
    rwa [find_eq_walk hnul hempty hsize]

/-- After a file is put in the place that a path leads to, every path that leads to this place leads
to the file, and all others lead to what they led to before. -/
theorem find_put (hpath : t.find path = .ok found) (hplace : found.place? = some place)
    {other : String} {found' : Found} (hother : t.find other = .ok found') :
    (t.put place content).find other = .ok (found'.afterPut place content) := by
  obtain ⟨-, -, -, hwalk⟩ := find_eq_ok.mp hpath
  obtain ⟨hparent, hfree⟩ := leadsOn_dropLast_of_walk (leadsOn_start t path) hwalk hplace
  obtain ⟨hnul, hempty, hsize, hwalk'⟩ := find_eq_ok.mp hother
  exact find_eq_ok.mpr ⟨hnul, hempty, hsize, walk_put hparent hfree hwalk'⟩

/-! ### Texts that are written -/

/-- Under this path a text is written to a file at the given place, which may be a new one. -/
def TakesAt (t : FileTree) (path : String) (place : Place) : Prop :=
  namesDirectory path = false ∧ t.refusal place = none ∧
    ∃ found, t.find path = .ok found ∧ found.place? = some place

/-- Under this path a text is written to the null device. -/
def IsNull (t : FileTree) (path : String) : Prop :=
  namesDirectory path = false ∧ t.find path = .ok .nullDevice

theorem textOfContent_toUTF8 (text : String) : textOfContent text.toUTF8 = .ok text := by
  have hread : String.fromUTF8? text.toUTF8 = some text := dif_pos text.isValidUTF8
  rw [textOfContent, hread]

theorem read_of_find {text : String} (h : t.find path = .ok (.file place text.toUTF8))
    (hnames : namesDirectory path = false) : t.read path = .ok text := by
  rw [read, h]
  change (if namesDirectory path then _ else _) = _
  rw [hnames]
  exact textOfContent_toUTF8 text

theorem allowed_eq_ok {o : Option Place} :
    some <$> t.allowed place = .ok o ↔ o = some place ∧ t.refusal place = none := by
  rw [allowed]
  cases t.refusal place with
  | none =>
    change Except.ok (some place) = Except.ok o ↔ _
    simp [eq_comm]
  | some fault => exact iff_of_false nofun nofun

theorem target_eq_ok {o : Option Place} :
    t.target path = .ok o ↔
      (∃ place, o = some place ∧ t.TakesAt path place) ∨ o = none ∧ t.IsNull path := by
  simp only [TakesAt, IsNull]
  rw [target]
  cases t.find path with
  | error fault => exact iff_of_false nofun (by simp)
  | ok found =>
    change (if namesDirectory path then _ else _) = Except.ok o ↔ _
    split_ifs with hnames
    · exact iff_of_false nofun (by simp [hnames])
    · rw [Bool.not_eq_true] at hnames
      simp only [hnames, true_and, Except.ok.injEq, exists_eq_left']
      cases found with
      | directory place => exact iff_of_false nofun (by simp [Found.place?])
      | unnameable => exact iff_of_false nofun (by simp [Found.place?])
      | nullDevice =>
        change Except.ok none = Except.ok o ↔ _
        simp [Found.place?, eq_comm]
      | file place content =>
        rw [allowed_eq_ok]
        simp [Found.place?]
      | nothing place =>
        rw [allowed_eq_ok]
        simp [Found.place?]

/-- A write finds out where the text goes, and then puts it there. -/
theorem run_write (t : FileTree) (path text : String) :
    (write path text).run t =
      match t.target path with
      | .ok (some place) => .ok () (t.put place text.toUTF8)
      | .ok none => .ok () t
      | .error fault => .error fault t := by
  cases htarget : t.target path with
  | error fault => exact Procedure.run_check_bind_of_error htarget
  | ok o =>
    cases o with
    | none => exact Procedure.run_check_bind_of_ok htarget
    | some place => exact Procedure.run_check_bind_of_ok htarget

/-- Reading after writing: the text is read under the path that it was written to, and every path to
another place leads to what it led to before. -/
theorem run_write_of_takesAt (h : t.TakesAt path place) (text : String) :
    ∃ t', (write path text).run t = .ok () t' ∧ t'.read path = .ok text ∧
      ∀ other found, t.find other = .ok found → found.place? ≠ some place →
        t'.find other = .ok found := by
  have htarget : t.target path = .ok (some place) := target_eq_ok.mpr (.inl ⟨place, rfl, h⟩)
  obtain ⟨hnames, -, found, hfind, hplace⟩ := h
  refine ⟨t.put place text.toUTF8, ?_, ?_, fun other found' hother hne => ?_⟩
  · rw [run_write, htarget]
  · have hfile : (t.put place text.toUTF8).find path = .ok (.file place text.toUTF8) := by
      rw [find_put hfind hplace hfind, Found.afterPut, if_pos hplace]
    exact read_of_find hfile hnames
  · rw [find_put hfind hplace hother, Found.afterPut, if_neg hne]

/-- What is written to the null device is gone. -/
theorem run_write_of_isNull (h : t.IsNull path) (text : String) :
    (write path text).run t = .ok () t := by
  have htarget : t.target path = .ok none := target_eq_ok.mpr (.inr ⟨rfl, h⟩)
  rw [run_write, htarget]

/-- A write finds out where the text goes before it changes anything. -/
theorem failsCleanly_write (path text : String) :
    (write path text).FailsCleanly fun _ => True := by
  refine Procedure.failsCleanly_check_bind (fun _ _ _ => trivial) fun o => ?_
  cases o with
  | none => exact (Procedure.neverFails_pure ()).failsCleanly _
  | some place => exact (Procedure.neverFails_modify _).failsCleanly _

/-- Under every other path a write fails. -/
theorem run_write_of_not (hplace : ∀ place, ¬t.TakesAt path place) (hnull : ¬t.IsNull path)
    (text : String) : ∃ fault, (write path text).run t = .error fault t := by
  cases htarget : t.target path with
  | ok o =>
    rcases target_eq_ok.mp htarget with ⟨place, -, h⟩ | ⟨-, h⟩
    · exact absurd h (hplace place)
    · exact absurd h hnull
  | error fault =>
    exact ⟨fault, by rw [run_write, htarget]⟩

end BoxArrow.FileTree
