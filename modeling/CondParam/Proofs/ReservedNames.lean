import CondParam.Config
import CondParam.Proofs.Names
import CondParam.Proofs.Payload

/-!
# Spellings of reserved names

Reserved names are given in a text with commas, or in a list of such texts. `Lists` says which names
a text lists: those between its commas, without the blanks around them. `namesOfText` finds just
these (`namesOfText_eq_iff`), and a value means what its texts mean with commas between them
(`splitNames_eq_namesOfText`). Settings depend on the names alone (`Settings.ofEntries_respelled`),
so the two spellings give the same settings.
-/

set_option autoImplicit false

namespace CondParam

/-! ## Lists of names -/

/-- A name as it stands in a list: not empty, without blanks at its ends and without commas. -/
structure IsListedName (name : Text) : Prop where
  ne_nil : name ≠ []
  head : ∀ c ∈ name.head?, isSpace c = false
  last : ∀ c ∈ name.getLast?, isSpace c = false
  comma_notMem : .char ',' ∉ name

/-- The names that a text lists: between its commas stands a name with blanks around it, or nothing
but blanks. -/
inductive Lists : Text → List Text → Prop
  | blank {w : Text} : w.isBlank = true → Lists w []
  | name {w name w' : Text} : w.isBlank = true → IsListedName name → w'.isBlank = true →
      Lists (w ++ (name ++ w')) [name]
  | comma {s t : Text} {names more : List Text} : Lists s names → Lists t more →
      Lists (s ++ .char ',' :: t) (names ++ more)

theorem IsListedName.strip_eq {name : Text} (h : IsListedName name) : name.strip = name :=
  Text.strip_eq_self_iff.2 ⟨h.head, h.last⟩

theorem Lists.isListedName {t : Text} {names : List Text} (h : Lists t names) :
    ∀ name ∈ names, IsListedName name := by
  induction h with
  | blank _ => exact fun _ hm => absurd hm List.not_mem_nil
  | name _ hn _ =>
    intro name hm
    obtain rfl := List.mem_singleton.1 hm
    exact hn
  | comma _ _ ihs iht =>
    intro name hm
    exact (List.mem_append.1 hm).elim (ihs name) (iht name)

/-! ## The names in a text -/

theorem comma_notMem_of_isBlank {w : Text} (h : w.isBlank = true) : .char ',' ∉ w := by
  intro hm
  have hs : isSpace (.char ',') = true := Text.isBlank_iff.1 h _ hm
  cases hs

theorem namesOfText_of_isBlank {w : Text} (h : w.isBlank = true) : namesOfText w = [] := by
  rw [namesOfText, Text.splitOn_of_notMem (comma_notMem_of_isBlank h), List.map_singleton,
    Text.strip_eq_nil_iff.2 h]
  rfl

theorem namesOfText_of_notMem {t : Text} (hc : .char ',' ∉ t) (hs : t.strip ≠ []) :
    namesOfText t = [t.strip] := by
  rw [namesOfText, Text.splitOn_of_notMem hc, List.map_singleton,
    List.filter_cons_of_pos (by simpa using hs), List.filter_nil]

theorem namesOfText_append_comma (s t : Text) :
    namesOfText (s ++ .char ',' :: t) = namesOfText s ++ namesOfText t := by
  rw [namesOfText, Text.splitOn_append_cons, List.map_append, List.filter_append]
  rfl

theorem Lists.namesOfText_eq {t : Text} {names : List Text} (h : Lists t names) :
    namesOfText t = names := by
  induction h with
  | blank hw => exact namesOfText_of_isBlank hw
  | @name w name w' hw hn hw' =>
    have hc : .char ',' ∉ w ++ (name ++ w') := by
      simp only [List.mem_append, not_or]
      exact ⟨comma_notMem_of_isBlank hw, hn.comma_notMem, comma_notMem_of_isBlank hw'⟩
    have hs : (w ++ (name ++ w')).strip = name := Text.strip_padded hw hw' hn.strip_eq
    have hne : (w ++ (name ++ w')).strip ≠ [] := by
      rw [hs]
      exact hn.ne_nil
    rw [namesOfText_of_notMem hc hne, hs]
  | comma _ _ ihs iht => rw [namesOfText_append_comma, ihs, iht]

/-- Without commas there is one name or none. -/
theorem lists_of_notMem {t : Text} (h : .char ',' ∉ t) : Lists t (namesOfText t) := by
  by_cases hs : t.strip = []
  · have hb := Text.strip_eq_nil_iff.1 hs
    rw [namesOfText_of_isBlank hb]
    exact .blank hb
  · obtain ⟨w, w', hw, hw', he⟩ := t.exists_strip
    obtain ⟨hhead, hlast⟩ := Text.strip_eq_self_iff.1 t.strip_strip
    have hc : .char ',' ∉ t.strip := by
      intro hm
      rw [he] at h
      exact h (List.mem_append_right _ (List.mem_append_left _ hm))
    have hl : Lists (w ++ (t.strip ++ w')) [t.strip] := .name hw ⟨hs, hhead, hlast, hc⟩ hw'
    rwa [← he, ← namesOfText_of_notMem h hs] at hl

theorem lists_namesOfText (t : Text) : Lists t (namesOfText t) := by
  by_cases h : .char ',' ∈ t
  · -- The text before the first comma gives one name or none; go on behind the comma.
    obtain ⟨s, r, ht, hs⟩ := List.eq_append_cons_of_mem h
    have hr : Lists r (namesOfText r) := lists_namesOfText r
    rw [ht, namesOfText_append_comma]
    exact .comma (lists_of_notMem hs) hr
  · exact lists_of_notMem h
termination_by t.length
decreasing_by
  rw [ht, List.length_append, List.length_cons]
  omega

/-- **The names found in a text are those that it lists.** -/
theorem namesOfText_eq_iff {t : Text} {names : List Text} :
    namesOfText t = names ↔ Lists t names :=
  ⟨fun h => h ▸ lists_namesOfText t, Lists.namesOfText_eq⟩

theorem namesOfText_join (ts : List Text) :
    namesOfText (.join "," ts) = ts.flatMap namesOfText := by
  induction ts with
  | nil => rfl
  | cons t ts ih =>
    cases ts with
    | nil => rw [Text.join_singleton, List.flatMap_singleton]
    | cons t' ts =>
      rw [Text.join_cons_cons, List.flatMap_cons, ← ih]
      exact namesOfText_append_comma t _

/-- A name alone lists itself. -/
theorem IsListedName.namesOfText_eq {name : Text} (h : IsListedName name) :
    namesOfText name = [name] := by
  have hl : Lists ([] ++ (name ++ [])) [name] := .name rfl h rfl
  rw [List.nil_append, List.append_nil] at hl
  exact hl.namesOfText_eq

/-! ## The names in a value -/

def Data.text? : Data → Option Text
  | text t => some t
  | _ => none

/-- The texts that a value gives names in: itself, or those among its items. -/
def Data.texts : Data → List Text
  | list items => items.filterMap text?
  | v => v.text?.toList

theorem Data.texts_list_map_text (ts : List Text) : (list (ts.map text)).texts = ts := by
  rw [texts, List.filterMap_map]
  exact List.filterMap_some

theorem splitNames_append (xs ys : List Data) :
    splitNames (.list (xs ++ ys)) = splitNames (.list xs) ++ splitNames (.list ys) := by
  rw [splitNames, List.flatMap_append]
  rfl

theorem splitNames_list (items : List Data) :
    splitNames (.list items) = (items.filterMap Data.text?).flatMap namesOfText := by
  induction items with
  | nil => rfl
  | cons item items ih =>
    rw [← List.singleton_append, splitNames_append, ih, List.filterMap_append, List.flatMap_append]
    congr 1
    cases item <;> rfl

/-- **A value means what its texts mean with commas between them.** -/
theorem splitNames_eq_namesOfText (v : Data) : splitNames v = namesOfText (.join "," v.texts) := by
  rw [namesOfText_join]
  cases v with
  | list items => exact splitNames_list items
  | text t => exact (List.flatMap_singleton ..).symm
  | null | bool _ | int _ | floating _ | moment _ | table _ => rfl

theorem isListedName_of_mem_splitNames {v : Data} {name : Text} (h : name ∈ splitNames v) :
    IsListedName name := by
  rw [splitNames_eq_namesOfText] at h
  exact (lists_namesOfText _).isListedName name h

/-- Names that were found are found again. -/
theorem splitNames_list_map_text {names : List Text} (h : ∀ name ∈ names, IsListedName name) :
    splitNames (.list (names.map .text)) = names := by
  rw [splitNames_eq_namesOfText, Data.texts_list_map_text, namesOfText_join, List.flatMap_def,
    List.map_congr_left fun name hm => (h name hm).namesOfText_eq, ← List.flatMap_def]
  exact List.flatMap_singleton' names

/-! ## Settings -/

/-- A section with the reserved names given as `v`, among other entries. -/
def reservedAs (v : Data) (es fs : List (Text × Data)) : List (Text × Data) :=
  es ++ (("reserved_names" : Text), v) :: fs

section
variable {v v' : Data} (es fs : List (Text × Data))

theorem givenText_reservedAs {key : Text} (hk : ("reserved_names" : Text) ≠ key) (default : Text) :
    givenText (reservedAs v es fs) key default = givenText (es ++ fs) key default := by
  rw [givenText, givenText, reservedAs, lookup_insert_of_ne hk]

theorem lookup_reservedAs :
    (reservedAs v es fs).lookup ("reserved_names" : Text) =
      (es.lookup ("reserved_names" : Text)).or (some v) :=
  lookup_insert_self

/-- Reserved names that are spelled in another way give the same settings, or the same fault. -/
theorem Settings.ofEntries_respelled (h : splitNames v = splitNames v') :
    Settings.ofEntries (reservedAs v es fs) = Settings.ofEntries (reservedAs v' es fs) := by
  -- An entry of this key in `es` comes first; then neither spelling is looked at.
  have hn (o : Option Data) :
      splitNames ((o.or (some v)).getD .null) = splitNames ((o.or (some v')).getD .null) := by
    cases o with
    | none => exact h
    | some _ => rfl
  have hf : ("reserved_names" : Text) ≠ "function_name" := by decide
  have hm : ("reserved_names" : Text) ≠ "marker" := by decide
  have hs : ("reserved_names" : Text) ≠ "diagnostic_stream" := by decide
  simp only [ofEntries, givenStream, givenText_reservedAs es fs hf, givenText_reservedAs es fs hm,
    givenText_reservedAs es fs hs, lookup_reservedAs, hn]

end

/-- **A list of reserved names and a text with commas mean the same.** The texts in a list give the
names that they give joined with commas, and so the same settings. The names of a value are those
that its texts list; none of them is empty, has blanks at its ends or a comma in it, and given as a
list they are found again. The names of a list are found part by part. -/
theorem splitNames_spellings :
    (∀ ts : List Text,
      splitNames (.list (ts.map .text)) = splitNames (.text (.join "," ts)) ∧
      ∀ es fs,
        Settings.ofEntries (reservedAs (.list (ts.map .text)) es fs) =
          Settings.ofEntries (reservedAs (.text (.join "," ts)) es fs)) ∧
    (∀ v : Data,
      (∀ names, splitNames v = names ↔ Lists (.join "," v.texts) names) ∧
      (∀ name ∈ splitNames v, name ≠ [] ∧ name.strip = name ∧ .char ',' ∉ name) ∧
      splitNames (.list ((splitNames v).map .text)) = splitNames v) ∧
    ∀ xs ys : List Data,
      splitNames (.list (xs ++ ys)) = splitNames (.list xs) ++ splitNames (.list ys) := by
  refine ⟨fun ts => ?_, fun v => ⟨fun names => ?_, fun name hm => ?_, ?_⟩, splitNames_append⟩
  · have h : splitNames (.list (ts.map .text)) = splitNames (.text (.join "," ts)) := by
      rw [splitNames_eq_namesOfText, Data.texts_list_map_text]
      rfl
    exact ⟨h, fun es fs => Settings.ofEntries_respelled es fs h⟩
  · rw [splitNames_eq_namesOfText, namesOfText_eq_iff]
  · have h := isListedName_of_mem_splitNames hm
    exact ⟨h.ne_nil, h.strip_eq, h.comma_notMem⟩
  · exact splitNames_list_map_text fun name => isListedName_of_mem_splitNames

/-- A list with commas in its texts, a blank field and an item that is no text. -/
theorem splitNames_spellings_mixed :
    let v : Data := .list [.text "ComputerName", .int 3, .text " Session,\u00a0,\tCredential"]
    let names : List Text := ["ComputerName", "Session", "Credential"]
    splitNames v = names ∧ Lists "ComputerName, Session,\u00a0,\tCredential" names ∧
      ("Session" : Text) ∈ splitNames v ∧ .char ',' ∉ ("Session" : Text) := by
  intro v names
  have hj : Text.join "," v.texts = "ComputerName, Session,\u00a0,\tCredential" := by decide +kernel
  have hv : splitNames v = names := by decide +kernel
  have hm : ("Session" : Text) ∈ splitNames v := by
    rw [hv]
    exact .tail _ (.head _)
  obtain ⟨hl, hn, -⟩ := splitNames_spellings.2.1 v
  rw [hj] at hl
  exact ⟨hv, (hl names).1 hv, hm, (hn _ hm).2.2⟩

end CondParam
