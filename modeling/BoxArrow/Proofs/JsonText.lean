import BoxArrow.Json.Decode
import BoxArrow.Json.Reader
import BoxArrow.Proofs.Reading

/-!
# Written documents are read again

What is written of a document is read as a document of the same shape: strings come back character
by character, whatever they hold, arrays keep their entries in order, and objects come back with
their members by ascending key. Only for numbers this is not so in general, because reading rounds.
For them it has to be known what the text of the number by itself is read as.

How a document is read does not depend on its layout, on how deep it stands and on what comes after
it, as long as that does not go on with a numeral. `BoxArrow.Json.ReadAs` says so for one document,
and there is one rule for every kind of document.

## Main definitions

* `BoxArrow.Json.EndsNumeral` — texts that do not go on with a numeral.
* `BoxArrow.Json.ReadAs` — as what a written document is read.
* `BoxArrow.Json.ReadsBackAs`, `BoxArrow.Json.ReadsBack` — as which floating point number another
  one is read, and which are read as themselves.

## Main results

* `BoxArrow.Json.stringLiteral_stringText` — every string is read back from its escaped form.
* `BoxArrow.Json.readAs_array`, `BoxArrow.Json.readAs_object` — documents with brackets.
* `BoxArrow.Json.readAs_number` — what is known of a number as a whole text holds of it in every
  place.
* `BoxArrow.Json.parse?_render_append`, `BoxArrow.Json.parse?_render` — whole texts.
-/

namespace BoxArrow.Json

open Reader

variable {rest : List Char}

/-! ### Strings -/

theorem hexValue?_digitChar {n : Nat} (h : n < 16) : hexValue? n.digitChar = some n := by
  have hall : ∀ n : Fin 16, hexValue? (Nat.digitChar n) = some n.val := by decide
  exact hall ⟨n, h⟩

theorem hexDigit_digitChar {n : Nat} (h : n < 16) (rest : List Char) :
    hexDigit (n.digitChar :: rest) = some (n, rest) :=
  filterMap_eq_some.mpr ⟨_, rfl, hexValue?_digitChar h⟩

theorem oneChar_controlEscape {c : Char} (h : c < ' ') (rest : List Char) :
    oneChar (controlEscape c ++ rest) = some (c, rest) := by
  have hc : c.toNat < 32 := h
  have hquad : hexQuad (Nat.digitChar 0 :: Nat.digitChar 0 :: Nat.digitChar (c.toNat / 16) ::
      Nat.digitChar (c.toNat % 16) :: rest) = some (c.toNat, rest) := by
    rw [hexQuad, bind_of_some (hexDigit_digitChar (by omega) _),
      bind_of_some (hexDigit_digitChar (by omega) _),
      bind_of_some (hexDigit_digitChar (by omega) _),
      bind_of_some (hexDigit_digitChar (by omega) _)]
    refine pure_eq_some.mpr ⟨?_, rfl⟩
    omega
  change unicodeEscape (Nat.digitChar 0 :: Nat.digitChar 0 :: Nat.digitChar (c.toNat / 16) ::
    Nat.digitChar (c.toNat % 16) :: rest) = some (c, rest)
  rw [unicodeEscape, bind_of_some hquad, if_neg (by omega), if_neg (by omega), Char.ofNat_toNat]
  rfl

theorem oneChar_of_plain {c : Char} (hquote : c ≠ '"') (hbackslash : c ≠ '\\') (hlow : ¬ c < ' ')
    (rest : List Char) : oneChar (c :: rest) = some (c, rest) := by
  rw [oneChar]
  · simp [hquote, hbackslash, hlow]
  · rintro - rfl
    exact absurd rfl hbackslash
  · rintro - - rfl
    exact absurd rfl hbackslash

/-- Every character is read back from the way it is written in a string. -/
theorem oneChar_stringChar (c : Char) (rest : List Char) :
    oneChar (stringChar c ++ rest) = some (c, rest) := by
  rw [stringChar]
  split_ifs with hquote hbackslash hb hf hn hr ht hlow
  · rw [beq_iff_eq.mp hquote]; rfl
  · rw [beq_iff_eq.mp hbackslash]; rfl
  · rw [beq_iff_eq.mp hb]; rfl
  · rw [beq_iff_eq.mp hf]; rfl
  · rw [beq_iff_eq.mp hn]; rfl
  · rw [beq_iff_eq.mp hr]; rfl
  · rw [beq_iff_eq.mp ht]; rfl
  · exact oneChar_controlEscape hlow rest
  · rw [beq_iff_eq] at hquote hbackslash
    exact oneChar_of_plain hquote hbackslash hlow rest

theorem stringChar_ne_nil (c : Char) : stringChar c ≠ [] := by
  rw [stringChar]
  split_ifs <;> exact nofun

theorem stringText_append (s : String) (rest : List Char) :
    stringText s ++ rest = '"' :: (s.toList.flatMap stringChar ++ '"' :: rest) := by
  simp only [stringText, List.cons_append, List.append_assoc, List.nil_append]

theorem stringLiteral_stringText (s : String) (rest : List Char) :
    stringLiteral (stringText s ++ rest) = some (s, rest) := by
  have hchars : Reader.repeated oneChar (s.toList.flatMap stringChar ++ '"' :: rest) =
      some (s.toList, '"' :: rest) := by
    refine congrArg some (many_flatMap (P := fun _ => True) ?_ (fun _ _ => trivial)
      stringChar_ne_nil trivial rfl)
    exact List.forall₂_same.mpr fun c _ rest _ => oneChar_stringChar c rest
  rw [stringText_append, stringLiteral, bind_of_some (literal_cons rfl _), bind_of_some hchars,
    bind_of_some (literal_cons rfl _), String.ofList_toList]
  rfl

/-! ### Blanks and the characters of numerals -/

/-- The blanks of JSON. -/
def isBlank (c : Char) : Bool :=
  c == ' ' || c == '\t' || c == '\n' || c == '\r'

/-- The characters that numerals are made of. -/
def isNumeralChar (c : Char) : Bool :=
  c.isDigit || c == '-' || c == '+' || c == '.' || c == 'e' || c == 'E'

/-- The text does not go on with a numeral. -/
def EndsNumeral (rest : List Char) : Prop :=
  rest.takeWhile isNumeralChar = []

theorem isNumeralChar_of_isBlank {c : Char} (h : isBlank c = true) : isNumeralChar c = false := by
  simp only [isBlank, Bool.or_eq_true, beq_iff_eq] at h
  obtain ((rfl | rfl) | rfl) | rfl := h <;> rfl

theorem isBlank_of_isNumeralChar {c : Char} (h : isNumeralChar c = true) : isBlank c = false :=
  Bool.eq_false_iff.mpr fun hblank => by simp [isNumeralChar_of_isBlank hblank] at h

theorem ne_of_isNumeralChar {c d : Char} (hc : isNumeralChar c = true)
    (hd : isNumeralChar d = false) : c ≠ d := by
  rintro rfl
  exact absurd hc (by rw [hd]; exact nofun)

namespace EndsNumeral

theorem cons {c : Char} (h : isNumeralChar c = false) (rest : List Char) :
    EndsNumeral (c :: rest) := by
  rw [EndsNumeral, List.takeWhile_cons, h]
  rfl

theorem append_blanks {ws : List Char} (hws : ∀ c ∈ ws, isBlank c = true)
    (h : EndsNumeral rest) : EndsNumeral (ws ++ rest) := by
  cases ws with
  | nil => exact h
  | cons c ws => exact cons (isNumeralChar_of_isBlank (hws c List.mem_cons_self)) _

theorem takeWhile_eq_nil (h : EndsNumeral rest) {p : Char → Bool}
    (hp : ∀ c, p c = true → isNumeralChar c = true) : rest.takeWhile p = [] := by
  cases rest with
  | nil => rfl
  | cons c rest =>
    by_cases hc : p c = true
    · rw [EndsNumeral, List.takeWhile_cons, hp c hc] at h
      exact absurd h nofun
    · rw [List.takeWhile_cons, if_neg hc]

end EndsNumeral

theorem isBlank_newLine (layout : Layout) (level : Nat) :
    ∀ c ∈ layout.newLine level, isBlank c = true := by
  cases layout with
  | compact => exact nofun
  | pretty =>
    refine List.forall_mem_cons.mpr ⟨rfl, fun c hc => ?_⟩
    rw [(List.mem_replicate.mp hc).2]
    rfl

/-! ### Skipping blanks -/

theorem skipBlanks_eq (cs : List Char) : skipBlanks cs = some ((), cs.dropWhile isBlank) :=
  rfl

theorem skipBlanks_cons {c : Char} (h : isBlank c = false) (cs : List Char) :
    skipBlanks (c :: cs) = some ((), c :: cs) := by
  rw [skipBlanks_eq, List.dropWhile_cons_of_neg (by simp [h])]

/-- What begins by skipping blanks does not see how many of them there are. -/
theorem skipBlanks_bind_append {α : Type} {ws : List Char} (h : ∀ c ∈ ws, isBlank c = true)
    (f : Unit → Reader α) (cs : List Char) :
    (skipBlanks >>= f) (ws ++ cs) = (skipBlanks >>= f) cs := by
  rw [bind_of_some (skipBlanks_eq _), bind_of_some (skipBlanks_eq _),
    List.dropWhile_append_of_pos h]

theorem document_append_blanks {ws : List Char} (h : ∀ c ∈ ws, isBlank c = true) (depth : Nat)
    (cs : List Char) : document depth (ws ++ cs) = document depth cs := by
  cases depth with
  | zero => exact skipBlanks_bind_append h _ cs
  | succ depth => exact skipBlanks_bind_append h _ cs

theorem memberOf_append_blanks {ws : List Char} (h : ∀ c ∈ ws, isBlank c = true)
    (value : Reader Json) (cs : List Char) : memberOf value (ws ++ cs) = memberOf value cs :=
  skipBlanks_bind_append h _ cs

/-! ### Numerals -/

theorem digits_stopsBefore (h : EndsNumeral rest) : StopsBefore rest digits :=
  .bind (.span1 (h.takeWhile_eq_nil fun c hc => by simp [isNumeralChar, hc])) fun _ => .pure _

theorem fractionPart_stopsBefore (h : EndsNumeral rest) : StopsBefore rest fractionPart :=
  .bind (.literal (c := '.') rfl (h.takeWhile_eq_nil fun c hc => by simp_all [isNumeralChar]))
    fun _ => digits_stopsBefore h

theorem exponentPart_stopsBefore (h : EndsNumeral rest) : StopsBefore rest exponentPart := by
  refine .bind (.one (h.takeWhile_eq_nil fun c hc => ?_)) fun _ =>
    .bind (.optional (.one (h.takeWhile_eq_nil fun c hc => ?_))) fun _ =>
    .bind (digits_stopsBefore h) fun _ => .pure _
  · rcases Bool.or_eq_true_iff.mp hc with hc | hc <;> simp [isNumeralChar, hc]
  · rcases Bool.or_eq_true_iff.mp hc with hc | hc <;> simp [isNumeralChar, hc]

/-- A numeral is read without a look at what comes after it. -/
theorem numeral_stopsBefore (h : EndsNumeral rest) : StopsBefore rest numeral :=
  .bind (.optional (.literal (c := '-') rfl
      (h.takeWhile_eq_nil fun c hc => by simp_all [isNumeralChar]))) fun _ =>
    .bind (.filterMap (digits_stopsBefore h)) fun _ =>
    .bind (.optional (fractionPart_stopsBefore h)) fun _ =>
    .bind (.optional (exponentPart_stopsBefore h)) fun _ => .pure _

theorem numeral_ensures (line : List Char) : Ensures line numeral fun _ => True := by
  have hdigits : Ensures line digits fun _ => True :=
    .bind (.span1 _) fun _ _ => .pure trivial
  have hwhole : Ensures line wholeDigits fun _ => True :=
    .filterMap hdigits fun _ _ _ _ => trivial
  have hfraction : Ensures line fractionPart fun _ => True :=
    .bind (.literal _) fun _ _ => hdigits
  have hexponent : Ensures line exponentPart fun _ => True :=
    .bind (.one _) fun _ _ => .bind (.optional (.one _)) fun _ _ =>
      .bind hdigits fun _ _ => .pure trivial
  exact .bind (.optional (.literal _)) fun _ _ => .bind hwhole fun _ _ =>
    .bind (.optional hfraction) fun _ _ => .bind (.optional hexponent) fun _ _ => .pure trivial

/-! ### Documents by their first character -/

/-- What begins like a numeral is read as a numeral or not at all. -/
theorem scalar_of_isNumeralChar {c : Char} (hc : isNumeralChar c = true) (cs : List Char) :
    scalar (c :: cs) = Reader.filterMap (fun n => n.value.map .number) numeral (c :: cs) := by
  have hword {s : String} {d : Char} {s' : List Char} (hs : s.toList = d :: s')
      (hd : isNumeralChar d = false) : Reader.literal s (c :: cs) = none :=
    literal_cons_of_ne hs (ne_of_isNumeralChar hc hd) cs
  rw [scalar, orElse_of_none (bind_of_none (hword rfl rfl) _),
    orElse_of_none (bind_of_none (hword rfl rfl) _),
    orElse_of_none (bind_of_none (hword rfl rfl) _)]
  exact orElse_of_none (bind_of_none (bind_of_none (hword rfl rfl) _) _)

theorem scalar_stringText (s : String) (rest : List Char) :
    scalar (stringText s ++ rest) = some (.string s, rest) := by
  have hword {w : String} {d : Char} {w' : List Char} (hw : w.toList = d :: w') (hd : '"' ≠ d) :
      Reader.literal w (stringText s ++ rest) = none := by
    rw [stringText_append]
    exact literal_cons_of_ne hw hd _
  rw [scalar, orElse_of_none (bind_of_none (hword rfl (by decide)) _),
    orElse_of_none (bind_of_none (hword rfl (by decide)) _),
    orElse_of_none (bind_of_none (hword rfl (by decide)) _)]
  exact orElse_of_some (bind_of_some (stringLiteral_stringText s rest) _)

/-- A text that begins with no blank and no opening bracket is read without brackets. -/
theorem document_eq_scalar {c : Char} (hblank : isBlank c = false) (harray : c ≠ '[')
    (hobject : c ≠ '\x7b') (depth : Nat) (cs : List Char) :
    document depth (c :: cs) = scalar (c :: cs) := by
  cases depth with
  | zero => rw [document, bind_of_some (skipBlanks_cons hblank cs)]
  | succ depth =>
    rw [document, bind_of_some (skipBlanks_cons hblank cs),
      orElse_of_none (bind_of_none (literal_cons_of_ne rfl harray cs) _)]
    exact orElse_of_none (bind_of_none (literal_cons_of_ne rfl hobject cs) _)

theorem document_array {depth : Nat} {cs : List Char} {items : List Json}
    (h : entries (document depth) "]" cs = some (items, rest)) :
    document (depth + 1) ('[' :: cs) = some (.array items, rest) := by
  rw [document, bind_of_some (skipBlanks_cons rfl _)]
  refine orElse_of_some ?_
  rw [bind_of_some (literal_cons rfl _), bind_of_some h]
  rfl

theorem document_object {depth : Nat} {cs : List Char} {members : List (String × Json)}
    (h : entries (memberOf (document depth)) "\x7d" cs = some (members, rest)) :
    document (depth + 1) ('\x7b' :: cs) = some (.object (sortMembers members), rest) := by
  rw [document, bind_of_some (skipBlanks_cons rfl _),
    orElse_of_none (bind_of_none (literal_cons_of_ne rfl (by decide) _) _)]
  refine orElse_of_some ?_
  rw [bind_of_some (literal_cons rfl _), bind_of_some h]
  rfl

/-! ### Entries of brackets -/

section Entries

variable {α β : Type} {entry : Reader α} {write : β → List Char} {close : String} {k : Char}
  {b : β} {bs : List β} {a : α} {as : List α}

/-- A closing bracket without entries before it. -/
theorem entries_nil (hclose : close.toList = [k]) (hk : k = ']' ∨ k = '\x7d')
    (rest : List Char) : entries entry close (k :: rest) = some ([], rest) := by
  have hblank : isBlank k = false := by rcases hk with rfl | rfl <;> rfl
  rw [entries, bind_of_some (skipBlanks_cons hblank rest)]
  exact orElse_of_some (bind_of_some (literal_cons hclose rest) _)

/-- Entries that are written with blanks before each, commas between them and blanks at the end. -/
theorem entries_cons {ws ws' : List Char} (hws : ∀ c ∈ ws, isBlank c = true)
    (hws' : ∀ c ∈ ws', isBlank c = true) (hclose : close.toList = [k])
    (hk : k = ']' ∨ k = '\x7d')
    (hskip : ∀ ws cs, (∀ c ∈ ws, isBlank c = true) → entry (ws ++ cs) = entry cs)
    (hnone : ∀ cs, entry (k :: cs) = none)
    (hread : List.Forall₂
      (fun b a => ∀ rest, EndsNumeral rest → entry (write b ++ rest) = some (a, rest))
      (b :: bs) (a :: as)) (rest : List Char) :
    entries entry close
        (ws ++ (write b ++ (bs.flatMap (fun b => ',' :: (ws ++ write b)) ++ (ws' ++ k :: rest)))) =
      some (a :: as, rest) := by
  obtain ⟨hfirst, hmore⟩ := List.forall₂_cons.mp hread
  obtain ⟨hblank, hnum, hcomma⟩ : isBlank k = false ∧ isNumeralChar k = false ∧ k ≠ ',' := by
    rcases hk with rfl | rfl <;> decide
  have hlast : skipBlanks (ws' ++ k :: rest) = some ((), k :: rest) := by
    rw [skipBlanks_eq, List.dropWhile_append_of_pos hws', ← skipBlanks_eq, skipBlanks_cons hblank]
  have hend : EndsNumeral (ws' ++ k :: rest) := .append_blanks hws' (.cons hnum rest)
  generalize htail : bs.flatMap (fun b => ',' :: (ws ++ write b)) ++ (ws' ++ k :: rest) = tail
  have hrepeated : Reader.repeated (do skipBlanks; Reader.literal ","; entry) tail =
      some (as, ws' ++ k :: rest) := by
    rw [← htail]
    refine congrArg some (many_flatMap (P := EndsNumeral)
      (hmore.imp fun b a h rest hrest => ?_) (fun b rest => .cons rfl _)
      (fun b => List.cons_ne_nil _ _) hend ?_)
    · rw [List.cons_append, List.append_assoc, bind_of_some (skipBlanks_cons rfl _),
        bind_of_some (literal_cons rfl _), hskip ws _ hws]
      exact h rest hrest
    · rw [bind_of_some hlast]
      exact bind_of_none (literal_cons_of_ne rfl hcomma rest) _
  have htailEnds : EndsNumeral tail := by
    rw [← htail]
    cases bs with
    | nil => exact hend
    | cons b' bs => exact .cons rfl _
  -- The first entry is read without its own blanks too, so no closing bracket stands in its place.
  have hentry : entry ((write b ++ tail).dropWhile isBlank) = some (a, tail) := by
    rw [← hfirst tail htailEnds, ← hskip _ _ fun c hc => List.mem_takeWhile_imp hc,
      List.takeWhile_append_dropWhile]
  have hopen : Reader.literal close ((write b ++ tail).dropWhile isBlank) = none := by
    cases h : Reader.literal close ((write b ++ tail).dropWhile isBlank) with
    | none => rfl
    | some found =>
      rw [literal_eq_some.mp h, hclose, List.singleton_append, hnone] at hentry
      exact absurd hentry nofun
  rw [entries, bind_of_some (skipBlanks_eq _), List.dropWhile_append_of_pos hws,
    orElse_of_none (bind_of_none hopen _), bind_of_some hentry, bind_of_some hrepeated,
    bind_of_some hlast, bind_of_some (literal_cons hclose rest)]
  rfl

end Entries

/-! ### How brackets are written -/

/-- A member of an object as it is written. -/
def memberText (layout : Layout) (level : Nat) (m : String × Json) : List Char :=
  stringText m.1 ++ (layout.colon ++ render layout level m.2)

theorem renderItems_eq_flatMap (layout : Layout) (level : Nat) (items : List Json) :
    renderItems layout level items =
      items.flatMap fun item => ',' :: (layout.newLine level ++ render layout level item) := by
  induction items with
  | nil => rw [renderItems, List.flatMap_nil]
  | cons item items ih => rw [renderItems, ih, List.flatMap_cons, List.cons_append]

theorem renderMembers_eq_flatMap (layout : Layout) (level : Nat) (members : List (String × Json)) :
    renderMembers layout level members =
      members.flatMap fun m => ',' :: (layout.newLine level ++ memberText layout level m) := by
  induction members with
  | nil => rw [renderMembers, List.flatMap_nil]
  | cons m members ih =>
    simp only [renderMembers, ih, List.flatMap_cons, memberText, List.cons_append,
      List.append_assoc]

theorem render_array_cons (layout : Layout) (level : Nat) (item : Json) (items : List Json)
    (rest : List Char) :
    render layout level (array (item :: items)) ++ rest =
      '[' :: (layout.newLine (level + 1) ++ (render layout (level + 1) item ++
        (items.flatMap (fun item =>
          ',' :: (layout.newLine (level + 1) ++ render layout (level + 1) item)) ++
            (layout.newLine level ++ ']' :: rest)))) := by
  simp only [render, renderItems_eq_flatMap, List.cons_append, List.append_assoc, List.nil_append]

theorem render_object_cons (layout : Layout) (level : Nat) (m : String × Json)
    (members : List (String × Json)) (rest : List Char) :
    render layout level (object (m :: members)) ++ rest =
      '\x7b' :: (layout.newLine (level + 1) ++ (memberText layout (level + 1) m ++
        (members.flatMap (fun m =>
          ',' :: (layout.newLine (level + 1) ++ memberText layout (level + 1) m)) ++
            (layout.newLine level ++ '\x7d' :: rest)))) := by
  simp only [render, renderMembers_eq_flatMap, memberText, List.cons_append, List.append_assoc,
    List.nil_append]

/-! ### As what documents are read -/

variable {depth : Nat} {j j' : Json}

/-- In either layout and inside of any number of brackets, `j` is written so that it is read as
`j'` where at most `depth` brackets may be nested. -/
def ReadAs (depth : Nat) (j j' : Json) : Prop :=
  ∀ layout level rest, EndsNumeral rest →
    document depth (render layout level j ++ rest) = some (j', rest)

theorem readAs_null (depth : Nat) : ReadAs depth null null := by
  intro layout level rest _
  rw [render, List.cons_append, document_eq_scalar rfl (by decide) (by decide)]
  rfl

theorem readAs_bool (depth : Nat) (b : Bool) : ReadAs depth (bool b) (bool b) := by
  intro layout level rest _
  cases b with
  | true =>
    rw [render, List.cons_append, document_eq_scalar rfl (by decide) (by decide)]
    rfl
  | false =>
    rw [render, List.cons_append, document_eq_scalar rfl (by decide) (by decide)]
    rfl

theorem readAs_string (depth : Nat) (s : String) : ReadAs depth (string s) (string s) := by
  intro layout level rest _
  rw [render, stringText_append, document_eq_scalar rfl (by decide) (by decide),
    ← stringText_append, scalar_stringText]

theorem readAs_array {items items' : List Json} (h : List.Forall₂ (ReadAs depth) items items') :
    ReadAs (depth + 1) (array items) (array items') := by
  intro layout level rest _
  cases h with
  | nil =>
    rw [render]
    exact document_array (entries_nil rfl (.inl rfl) rest)
  | cons hfirst hmore =>
    rw [render_array_cons]
    refine document_array (entries_cons (isBlank_newLine layout _) (isBlank_newLine layout _) rfl
      (.inl rfl) (fun ws cs hws => document_append_blanks hws depth cs) (fun cs => ?_)
      (.cons (hfirst layout _) (hmore.imp fun item item' h => h layout _)) rest)
    rw [document_eq_scalar rfl (by decide) (by decide)]
    rfl

theorem memberOf_memberText {m m' : String × Json} (hkey : m.1 = m'.1)
    (hvalue : ReadAs depth m.2 m'.2) (layout : Layout) (level : Nat) (rest : List Char)
    (hrest : EndsNumeral rest) :
    memberOf (document depth) (memberText layout level m ++ rest) = some (m', rest) := by
  obtain ⟨ws, hcolon, hws⟩ : ∃ ws, layout.colon = ':' :: ws ∧ ∀ c ∈ ws, isBlank c = true := by
    cases layout with
    | compact => exact ⟨[], rfl, nofun⟩
    | pretty => exact ⟨[' '], rfl, List.forall_mem_singleton.mpr rfl⟩
  have hskip (cs : List Char) :
      skipBlanks (stringText m.1 ++ cs) = some ((), stringText m.1 ++ cs) := by
    rw [stringText_append]
    exact skipBlanks_cons rfl _
  have hdocument :
      document depth (ws ++ (render layout level m.2 ++ rest)) = some (m'.2, rest) := by
    rw [document_append_blanks hws]
    exact hvalue layout level rest hrest
  simp only [memberText, hcolon, List.append_assoc, List.cons_append]
  rw [memberOf, bind_of_some (hskip _), bind_of_some (stringLiteral_stringText _ _),
    bind_of_some (skipBlanks_cons rfl _), bind_of_some (literal_cons rfl _),
    bind_of_some hdocument, hkey]
  rfl

/-- Members that are read with their keys. -/
abbrev MembersReadAs (depth : Nat) : List (String × Json) → List (String × Json) → Prop :=
  List.Forall₂ fun m m' => m.1 = m'.1 ∧ ReadAs depth m.2 m'.2

theorem MembersReadAs.cons {members members' : List (String × Json)} (key : String)
    (h : ReadAs depth j j') (hmore : MembersReadAs depth members members') :
    MembersReadAs depth ((key, j) :: members) ((key, j') :: members') :=
  List.Forall₂.cons ⟨rfl, h⟩ hmore

theorem readAs_object {members members' : List (String × Json)}
    (h : MembersReadAs depth members members') :
    ReadAs (depth + 1) (object members) (object (sortMembers members')) := by
  intro layout level rest _
  cases h with
  | nil =>
    rw [render]
    exact document_object (entries_nil rfl (.inr rfl) rest)
  | cons hfirst hmore =>
    rw [render_object_cons]
    refine document_object (entries_cons (isBlank_newLine layout _) (isBlank_newLine layout _) rfl
      (.inr rfl) (fun ws cs hws => memberOf_append_blanks hws _ cs) (fun cs => ?_)
      (.cons (memberOf_memberText hfirst.1 hfirst.2 layout _)
        (hmore.imp fun m m' h => memberOf_memberText h.1 h.2 layout _)) rest)
    rw [memberOf, bind_of_some (skipBlanks_cons rfl _)]
    rfl

/-- A whole document is read in either layout, also with blanks behind it. -/
theorem parse?_render_append (h : ReadAs maxDepth j j') (layout : Layout) (tail : String)
    (htail : ∀ c ∈ tail.toList, isBlank c = true) :
    parse? (String.ofList (render layout 0 j) ++ tail) = some j' := by
  have hends : EndsNumeral (tail.toList ++ []) := .append_blanks htail rfl
  have hblanks : tail.toList.dropWhile isBlank = [] := List.dropWhile_eq_nil_iff.mpr htail
  rw [List.append_nil] at hends
  rw [parse?, String.toList_append, String.toList_ofList, whole_eq_some,
    bind_of_some (h layout 0 _ hends), bind_of_some (skipBlanks_eq _), hblanks]
  rfl

theorem parse?_render (h : ReadAs maxDepth j j') (layout : Layout) :
    parse? (String.ofList (render layout 0 j)) = some j' := by
  have hread := parse?_render_append h layout "" nofun
  rwa [String.append_empty] at hread

/-! ### Numbers -/

/-- What the text of a number is read as by itself, it is read as wherever it stands. -/
theorem readAs_number {n : Number} (htext : ∀ c ∈ numberText n, isNumeralChar c = true)
    (h : parse? (compact (.number n)) = some j) (depth : Nat) : ReadAs depth (number n) j := by
  intro layout level rest hrest
  rw [compact, parse?, String.toList_ofList, render, whole_eq_some, bind_eq_some] at h
  obtain ⟨j', blanks, hdocument, hend⟩ := h
  rw [bind_of_some (skipBlanks_eq blanks)] at hend
  obtain ⟨rfl, hblanks⟩ := pure_eq_some.mp hend
  rw [render]
  cases hcs : numberText n with
  | nil =>
    rw [hcs] at hdocument
    exact absurd hdocument nofun
  | cons c cs =>
    rw [hcs] at hdocument htext
    have hc : isNumeralChar c = true := htext c List.mem_cons_self
    have hstart (depth : Nat) (cs : List Char) : document depth (c :: cs) =
        Reader.filterMap (fun n => n.value.map number) numeral (c :: cs) := by
      rw [document_eq_scalar (isBlank_of_isNumeralChar hc) (ne_of_isNumeralChar hc rfl)
        (ne_of_isNumeralChar hc rfl), scalar_of_isNumeralChar hc]
    rw [hstart, filterMap_eq_some] at hdocument
    obtain ⟨parts, hparts, hvalue⟩ := hdocument
    -- The text of a number holds no blanks, so nothing of it is left over.
    have hnil : blanks = [] := by
      cases blanks with
      | nil => rfl
      | cons b blanks =>
        have hb := (numeral_ensures _ List.suffix_rfl hparts).2.subset List.mem_cons_self
        rw [List.dropWhile_cons, isBlank_of_isNumeralChar (htext b hb)] at hblanks
        exact absurd hblanks nofun
    rw [hnil] at hparts
    rw [List.cons_append, hstart, filterMap_eq_some]
    exact ⟨parts, (numeral_stopsBefore hrest).append hparts, hvalue⟩

theorem forall_isNumeralChar_toDigits (n : Nat) :
    ∀ c ∈ Nat.toDigits 10 n, isNumeralChar c = true := by
  intro c hc
  simp [isNumeralChar, Nat.isDigit_of_mem_toDigits (by decide) (by decide) hc]

theorem forall_isNumeralChar_positional (d : Decimal) :
    ∀ c ∈ d.positional, isNumeralChar c = true := by
  have hdigits : ∀ c ∈ d.digitChars, isNumeralChar c = true :=
    forall_isNumeralChar_toDigits d.digits
  have hzeros (n : Nat) : ∀ c ∈ List.replicate n '0', isNumeralChar c = true := by
    intro c hc
    rw [List.eq_of_mem_replicate hc]
    rfl
  rw [Decimal.positional]
  split_ifs
  · exact List.forall_mem_append.mpr
      ⟨List.forall_mem_append.mpr ⟨hdigits, hzeros _⟩, List.all_eq_true.mp rfl⟩
  · refine List.forall_mem_append.mpr ⟨fun c hc => hdigits c (List.mem_of_mem_take hc), ?_⟩
    exact List.forall_mem_cons.mpr ⟨rfl, fun c hc => hdigits c (List.mem_of_mem_drop hc)⟩
  · exact List.forall_mem_append.mpr
      ⟨List.forall_mem_cons.mpr ⟨rfl, List.forall_mem_cons.mpr ⟨rfl, hzeros _⟩⟩, hdigits⟩

theorem forall_isNumeralChar_scientific (d : Decimal) :
    ∀ c ∈ d.scientific, isNumeralChar c = true := by
  have hdigits : ∀ c ∈ d.digitChars, isNumeralChar c = true :=
    forall_isNumeralChar_toDigits d.digits
  have hsign : isNumeralChar (if d.leading < 0 then '-' else '+') = true := by
    split_ifs <;> rfl
  rw [Decimal.scientific]
  refine List.forall_mem_append.mpr ⟨?_, List.forall_mem_cons.mpr
    ⟨rfl, List.forall_mem_cons.mpr ⟨hsign, forall_isNumeralChar_toDigits _⟩⟩⟩
  split
  · next first second more h =>
    rw [h] at hdigits
    obtain ⟨hfirst, hmore⟩ := List.forall_mem_cons.mp hdigits
    exact List.forall_mem_cons.mpr ⟨hfirst, List.forall_mem_cons.mpr ⟨rfl, hmore⟩⟩
  · exact hdigits

/-- A floating point number is written with the characters of numerals only. -/
theorem forall_isNumeralChar_floatText (x : Float) :
    ∀ c ∈ (floatText x).toList, isNumeralChar c = true := by
  have hmagnitude : ∀ c ∈ magnitudeText x, isNumeralChar c = true := by
    rw [magnitudeText, Decimal.layout]
    split_ifs
    · exact List.all_eq_true.mp rfl
    · exact forall_isNumeralChar_positional _
    · exact forall_isNumeralChar_scientific _
  rw [floatText, String.toList_ofList]
  split_ifs
  · exact List.forall_mem_cons.mpr ⟨rfl, hmagnitude⟩
  · exact hmagnitude

/-- The text of the number `x` as a whole document is read as the number `y`. -/
def ReadsBackAs (x y : Float) : Prop :=
  (parse? (ofFloat x).compact).bind (fun j => j.asFloat.toOption) = some y

instance (x y : Float) : Decidable (ReadsBackAs x y) :=
  inferInstanceAs (Decidable (_ = _))

/-- The number is read as itself from its text as a whole document. This is so for most numbers but
not for all, and never for NaN and the infinities, which have no text. -/
def ReadsBack (x : Float) : Prop :=
  (parse? (ofFloat x).compact).bind (fun j => j.asFloat.toOption) = some x

instance (x : Float) : Decidable (ReadsBack x) :=
  inferInstanceAs (Decidable (_ = _))

theorem ReadsBack.readsBackAs {x : Float} (h : ReadsBack x) : ReadsBackAs x x := h

theorem readAs_ofFloat {x y : Float} (h : ReadsBackAs x y) (depth : Nat) :
    ∃ j, ReadAs depth (ofFloat x) j ∧ j.asFloat = .ok y := by
  obtain ⟨j, hparse, hfloat⟩ := Option.bind_eq_some_iff.mp h
  have hok : j.asFloat = .ok y := by
    cases hj : j.asFloat with
    | error e =>
      rw [hj] at hfloat
      exact absurd hfloat nofun
    | ok z =>
      rw [hj] at hfloat
      exact congrArg Except.ok (Option.some.inj hfloat)
  refine ⟨j, ?_, hok⟩
  rw [ofFloat] at hparse ⊢
  split_ifs at hparse ⊢
  · exact readAs_number (n := .float x) (forall_isNumeralChar_floatText x) hparse depth
  · -- In place of a number that is not finite `null` is read, which is no number.
    obtain rfl := Option.some.inj ((parse?_render (readAs_null _) .compact).symm.trans hparse)
    exact absurd hok nofun

end BoxArrow.Json
