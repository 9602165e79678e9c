import Mathlib.Algebra.Group.Nat.Defs
import Mathlib.Data.Finset.Card
import Prototypes.Symbol.Table

/-!
# Interning

The vector and the map of a symbol table are inverse to each other and nothing is in them
twice (`Inverse`), as long as the numbers suffice; so symbols and texts correspond one to
one, which is why a selector may be taken for its text everywhere else.  Whatever is
interned afterwards, a symbol keeps its text and a text its symbol (`Grows`).

What a run of interning does (`Interns`) is put together from its calls.  That the numbers
suffice is seen by counting the texts that the table holds and those to come (`HasRoom`),
which is the same count from the first call to the last.  Making an assignment and reading
its target are calls of this kind, on the texts of `Symbol.assignment` and
`Symbol.assignmentTarget?`.

## Main results

* `grows_internAll` — nothing that a table says changes.
* `Inverse.interns_internAll` — a run of interning.
* `Inverse.isAssignmentOf_iff` — assignments in a table are assignments of texts.
* `interning_bijective` — interning from the empty table on.
-/

namespace Prototypes.SymbolTable

variable {table later : SymbolTable} {text other : String} {more : List String}
  {id id' target : SymbolId}

/-! ## Looking at a table -/

theorem text_eq_ok_iff : table.text id = .ok text ↔ table.texts[id.number.toNat]? = some text := by
  unfold SymbolTable.text
  cases table.texts[id.number.toNat]? <;> simp

/-- The texts that symbols have are those of the vector. -/
theorem mem_texts_of_text (h : table.text id = .ok text) : text ∈ table.texts :=
  List.mem_of_getElem? (text_eq_ok_iff.mp h)

@[simp] theorem find?_empty (text : String) : empty.find? text = none := by
  simp [empty, find?]

theorem find?_add :
    (table.add text).find? other = if text = other then some table.next else table.find? other := by
  simp [add, find?, Std.ExtHashMap.getElem?_insert]

/-- As long as there are numbers left, the next one is the length of the vector. -/
theorem eq_next_iff (hroom : table.texts.length < 2 ^ 32) :
    id = table.next ↔ id.number.toNat = table.texts.length := by
  obtain ⟨number⟩ := id
  rw [next, SymbolId.mk.injEq, ← UInt32.toNat_inj, UInt32.toNat_ofNat_of_lt' hroom]

/-- A text that is added has the next symbol, and all others have theirs. -/
theorem text_add_iff (hroom : table.texts.length < 2 ^ 32) :
    (table.add text).text id = .ok other ↔
      table.text id = .ok other ∨ id = table.next ∧ other = text := by
  rw [text_eq_ok_iff, text_eq_ok_iff, eq_next_iff hroom]
  obtain hlt | heq | hgt := Nat.lt_trichotomy id.number.toNat table.texts.length
  · simp [add, List.getElem?_append_left hlt, hlt.ne]
  · simp [add, heq, eq_comm]
  · have hnone : table.texts[id.number.toNat]? = none := List.getElem?_eq_none hgt.le
    have hnone' : (table.add text).texts[id.number.toNat]? = none :=
      List.getElem?_eq_none (by simp only [add, List.length_append, List.length_singleton]; omega)
    simp [hnone, hnone', hgt.ne']

/-! ## What interning does -/

/-- The second look decides; the first one only saves the exclusive lock. -/
theorem intern_eq_getOrAdd (table : SymbolTable) (text : String) :
    table.intern text = table.getOrAdd text := by
  unfold intern
  cases hfind : table.find? text with
  | none => rfl
  | some id => rw [getOrAdd, hfind]

theorem intern_of_found (h : table.find? text = some id) : table.intern text = (id, table) := by
  rw [intern_eq_getOrAdd, getOrAdd, h]

theorem intern_of_new (h : table.find? text = none) :
    table.intern text = (table.next, table.add text) := by
  rw [intern_eq_getOrAdd, getOrAdd, h]

theorem intern_cases (table : SymbolTable) (text : String) :
    (∃ id, table.find? text = some id ∧ table.intern text = (id, table)) ∨
    table.find? text = none ∧ table.intern text = (table.next, table.add text) := by
  cases hfind : table.find? text with
  | none => exact .inr ⟨rfl, intern_of_new hfind⟩
  | some id => exact .inl ⟨id, rfl, intern_of_found hfind⟩

/-- Nothing is added exactly for a text that is found. -/
theorem intern_eq_self_iff : table.intern text = (id, table) ↔ table.find? text = some id := by
  obtain ⟨found, hfind, hintern⟩ | ⟨hfind, hintern⟩ := intern_cases table text
  · simp [hfind, hintern]
  · have hadd : table.add text ≠ table := fun h => by
      simpa [add] using congrArg (fun t => t.texts.length) h
    simp [hfind, hintern, hadd]

theorem internAll_singleton (table : SymbolTable) (text : String) :
    table.internAll [text] = ([(table.intern text).1], (table.intern text).2) := rfl

/-- Interning goes on from the table that is left. -/
theorem internAll_append (table : SymbolTable) (texts more : List String) :
    table.internAll (texts ++ more) =
      ((table.internAll texts).1 ++ ((table.internAll texts).2.internAll more).1,
        ((table.internAll texts).2.internAll more).2) := by
  induction texts generalizing table with
  | nil => rfl
  | cons text texts ih => simp only [List.cons_append, internAll, ih]

/-! ## Tables only grow -/

/-- What one table says of symbols and texts, a later one says too. -/
structure Grows (table later : SymbolTable) : Prop where
  text : ∀ id text, table.text id = .ok text → later.text id = .ok text
  find? : ∀ text id, table.find? text = some id → later.find? text = some id

theorem Grows.refl (table : SymbolTable) : table.Grows table :=
  ⟨fun _ _ h => h, fun _ _ h => h⟩

theorem Grows.trans {a b c : SymbolTable} (hab : a.Grows b) (hbc : b.Grows c) : a.Grows c where
  text id text h := hbc.text id text (hab.text id text h)
  find? text id h := hbc.find? text id (hab.find? text id h)

theorem grows_add (hnew : table.find? text = none) : table.Grows (table.add text) where
  text id other h := by
    rw [text_eq_ok_iff] at h ⊢
    obtain ⟨hlt, -⟩ := List.getElem?_eq_some_iff.mp h
    exact (List.getElem?_append_left hlt).trans h
  find? other id h := by
    have hne : text ≠ other := by
      rintro rfl
      cases hnew.symm.trans h
    rw [find?_add, if_neg hne, h]

theorem grows_intern (table : SymbolTable) (text : String) :
    table.Grows (table.intern text).2 := by
  obtain ⟨id, -, hintern⟩ | ⟨hnew, hintern⟩ := intern_cases table text
  · rw [hintern]
    exact .refl table
  · rw [hintern]
    exact grows_add hnew

/-- Whatever is interned, symbols keep their texts and texts their symbols. -/
theorem grows_internAll (table : SymbolTable) (texts : List String) :
    table.Grows (table.internAll texts).2 := by
  induction texts generalizing table with
  | nil => exact .refl table
  | cons text more ih => exact (grows_intern table text).trans (ih (table.intern text).2)

/-! ## Vector and map are inverse -/

/-- The vector and the map are inverse to each other, and nothing is there twice. -/
structure Inverse (table : SymbolTable) : Prop where
  nodup : table.texts.Nodup
  exists_id : ∀ text ∈ table.texts, ∃ id, table.text id = .ok text
  find?_iff : ∀ text id, table.find? text = some id ↔ table.text id = .ok text

theorem inverse_empty : empty.Inverse where
  nodup := List.nodup_nil
  exists_id _ h := nomatch h
  find?_iff text id := by simp [SymbolTable.text, empty, find?]

namespace Inverse

theorem mem_texts_iff (h : table.Inverse) : text ∈ table.texts ↔ ∃ id, table.find? text = some id := by
  refine ⟨fun hmem => ?_, fun ⟨id, hfind⟩ => mem_texts_of_text ((h.find?_iff text id).mp hfind)⟩
  obtain ⟨id, hid⟩ := h.exists_id text hmem
  exact ⟨id, (h.find?_iff text id).mpr hid⟩

theorem not_mem_texts (h : table.Inverse) (hnew : table.find? text = none) :
    text ∉ table.texts := by
  simp [h.mem_texts_iff, hnew]

/-- Symbols are equal exactly when their texts are. -/
theorem id_eq_iff (h : table.Inverse) (hid : table.text id = .ok text)
    (hid' : table.text id' = .ok other) : id = id' ↔ text = other := by
  constructor
  · rintro rfl
    exact Except.ok.inj (hid.symm.trans hid')
  · rintro rfl
    rw [← h.find?_iff] at hid hid'
    exact Option.some.inj (hid.symm.trans hid')

/-- A text that is not found is added without a repetition. -/
theorem nodup_concat (h : table.Inverse) (hnew : table.find? text = none) :
    (table.texts ++ [text]).Nodup :=
  List.nodup_append'.mpr ⟨h.nodup, List.nodup_singleton text,
    List.disjoint_singleton.mpr (h.not_mem_texts hnew)⟩

theorem add (h : table.Inverse) (hnew : table.find? text = none)
    (hroom : table.texts.length < 2 ^ 32) : (table.add text).Inverse where
  nodup := h.nodup_concat hnew
  exists_id other hmem := by
    obtain hold | hsame := List.mem_append.mp hmem
    · obtain ⟨id, hid⟩ := h.exists_id other hold
      exact ⟨id, (grows_add hnew).text id other hid⟩
    · exact ⟨table.next, (text_add_iff hroom).mpr (.inr ⟨rfl, List.mem_singleton.mp hsame⟩)⟩
  find?_iff other id := by
    rw [text_add_iff hroom, find?_add, ← h.find?_iff]
    by_cases hsame : text = other
    · subst hsame
      simp [hnew, eq_comm]
    · simp [hsame, Ne.symm hsame]

end Inverse

/-! ## Runs of interning -/

/-- What interning texts makes of a table, and the symbols that it hands out. -/
structure Interns (table : SymbolTable) (texts : List String) (ids : List SymbolId)
    (later : SymbolTable) : Prop where
  inverse : later.Inverse
  grows : table.Grows later
  mem_texts : ∀ text, text ∈ later.texts ↔ text ∈ table.texts ∨ text ∈ texts
  text_ids : ids.map later.text = texts.map .ok

theorem Inverse.interns_nil (h : table.Inverse) : table.Interns [] [] table :=
  ⟨h, .refl table, by simp, rfl⟩

/-- One call. -/
theorem Inverse.interns_intern (h : table.Inverse) (text : String)
    (hroom : table.find? text = none → table.texts.length < 2 ^ 32) :
    table.Interns [text] [(table.intern text).1] (table.intern text).2 := by
  obtain ⟨id, hfind, hintern⟩ | ⟨hnew, hintern⟩ := intern_cases table text
  · have hid := (h.find?_iff text id).mp hfind
    rw [hintern]
    refine ⟨h, .refl table, fun other => ?_, by simp [hid]⟩
    simpa using fun hsame : other = text => hsame ▸ mem_texts_of_text hid
  · have hid : (table.add text).text table.next = .ok text :=
      (text_add_iff (hroom hnew)).mpr (.inr ⟨rfl, rfl⟩)
    rw [hintern]
    exact ⟨h.add hnew (hroom hnew), grows_add hnew, fun other => List.mem_append, by simp [hid]⟩

/-- The symbol that is handed out has the text. -/
theorem Inverse.text_intern (h : table.Inverse) (text : String)
    (hroom : table.find? text = none → table.texts.length < 2 ^ 32) :
    (table.intern text).2.text (table.intern text).1 = .ok text := by
  simpa using (h.interns_intern text hroom).text_ids

/-- One run after another: the symbols of the first one have kept their texts. -/
theorem Interns.append {a b c : SymbolTable} {texts : List String} {ids ids' : List SymbolId}
    (hab : a.Interns texts ids b) (hbc : b.Interns more ids' c) :
    a.Interns (texts ++ more) (ids ++ ids') c where
  inverse := hbc.inverse
  grows := hab.grows.trans hbc.grows
  mem_texts text := by
    rw [hbc.mem_texts, hab.mem_texts, List.mem_append, or_assoc]
  text_ids := by
    have hkept : ids.map c.text = ids.map b.text := by
      refine List.map_congr_left fun id hid => ?_
      obtain ⟨text, -, htext⟩ := List.mem_map.mp (hab.text_ids ▸ List.mem_map_of_mem hid)
      rw [← htext]
      exact hbc.grows.text id text htext.symm
    rw [List.map_append, List.map_append, hkept, hab.text_ids, hbc.text_ids]

/-- There are numbers for all texts, for those that the table holds and those to come. -/
def HasRoom (table : SymbolTable) (texts : List String) : Prop :=
  (table.texts ++ texts).toFinset.card ≤ 2 ^ 32

theorem HasRoom.length_lt (hroom : table.HasRoom (text :: more)) (h : table.Inverse)
    (hnew : table.find? text = none) : table.texts.length < 2 ^ 32 := by
  have hle : (table.texts ++ [text]).toFinset.card ≤ 2 ^ 32 := by
    refine (Finset.card_le_card fun other hother => ?_).trans hroom
    rw [List.mem_toFinset] at hother ⊢
    rw [List.append_cons]
    exact List.mem_append_left more hother
  rw [List.toFinset_card_of_nodup (h.nodup_concat hnew), List.length_append] at hle
  exact hle

/-- What is left of the room depends on the texts alone. -/
theorem Interns.hasRoom {texts : List String} {ids : List SymbolId}
    (h : table.Interns texts ids later) (hroom : table.HasRoom (texts ++ more)) :
    later.HasRoom more := by
  have hsame : (later.texts ++ more).toFinset = (table.texts ++ (texts ++ more)).toFinset := by
    ext text
    simp [h.mem_texts, or_assoc]
  rwa [HasRoom, hsame]

theorem Inverse.interns_internAll {texts : List String} (h : table.Inverse)
    (hroom : table.HasRoom texts) :
    table.Interns texts (table.internAll texts).1 (table.internAll texts).2 := by
  induction texts generalizing table with
  | nil => exact h.interns_nil
  | cons text more ih =>
    -- the room for `text` is only needed when it is new; what is left is room for the others
    have hstep := h.interns_intern text (hroom.length_lt h)
    exact hstep.append (ih hstep.inverse (hstep.hasRoom hroom))

/-! ## Assignments -/

/--
In a table, one symbol is the assignment to another one that has a text which is not empty.
Both are there, so asking for the assignment adds nothing.
-/
def IsAssignmentOf (table : SymbolTable) (id target : SymbolId) : Prop :=
  ∃ text, table.text target = .ok text ∧ text ≠ "" ∧ table.assignment target = .ok (id, table)

theorem assignment_of_text (h : table.text id = .ok text) :
    table.assignment id = .ok (table.intern (text ++ ":=")) := by
  rw [assignment, h]
  rfl

theorem isAssignment_of_text (h : table.text id = .ok text) :
    table.isAssignment id = .ok (Symbol.mk text).isAssignment := by
  rw [isAssignment, h]
  rfl

/-- What is answered for the target of a symbol, and which text is interned for it. -/
theorem assignmentTarget?_cases (h : table.text id = .ok text) :
    (Symbol.mk text).assignmentTarget? = none ∧ table.assignmentTarget? id = .ok (none, table) ∨
    ∃ symbol, (Symbol.mk text).assignmentTarget? = some symbol ∧
      table.assignmentTarget? id =
        .ok (some (table.intern symbol.text).1, (table.intern symbol.text).2) := by
  rw [assignmentTarget?, h]
  cases htarget : (Symbol.mk text).assignmentTarget? with
  | none => exact .inl ⟨rfl, by simp only [bind, Except.bind, htarget]; rfl⟩
  | some symbol => exact .inr ⟨symbol, rfl, by simp only [bind, Except.bind, htarget]; rfl⟩

namespace Inverse

/-- Assignments in a table are assignments of texts. -/
theorem isAssignmentOf_iff (h : table.Inverse) (hid : table.text id = .ok text) :
    table.IsAssignmentOf id target ↔
      ∃ symbol, (Symbol.mk text).assignmentTarget? = some symbol ∧
        table.text target = .ok symbol.text := by
  have hname (name : String) :
      table.intern (name ++ ":=") = (id, table) ↔ text = name ++ ":=" := by
    rw [intern_eq_self_iff, h.find?_iff, hid, Except.ok.injEq]
  constructor
  · rintro ⟨name, htarget, hne, hassign⟩
    rw [assignment_of_text htarget, Except.ok.injEq, hname] at hassign
    exact ⟨⟨name⟩, Symbol.assignmentTarget?_eq_some_iff.mpr
      ⟨hne, congrArg Symbol.mk hassign⟩, htarget⟩
  · rintro ⟨⟨name⟩, hsymbol, htarget⟩
    obtain ⟨hne, htext⟩ := Symbol.assignmentTarget?_eq_some_iff.mp hsymbol
    refine ⟨name, htarget, hne, ?_⟩
    rw [assignment_of_text htarget, (hname name).mpr (congrArg Symbol.text htext)]

/-- An assignment that has its symbol already adds nothing. -/
theorem eq_of_assignment (hroom : table.texts.length < 2 ^ 32) (hid : table.text id = .ok text)
    (hassign : table.assignment target = .ok (id, later)) : later = table := by
  cases htarget : table.text target with
  | error reason =>
    rw [assignment, htarget] at hassign
    cases hassign
  | ok name =>
    rw [assignment_of_text htarget, Except.ok.injEq] at hassign
    obtain ⟨found, -, hintern⟩ | ⟨-, hintern⟩ := intern_cases table (name ++ ":=")
    · exact (congrArg Prod.snd (hintern.symm.trans hassign)).symm
    · -- a symbol that has a text already is not the next one
      have hnext : id = table.next := (congrArg Prod.fst (hintern.symm.trans hassign)).symm
      rw [text_eq_ok_iff, (eq_next_iff hroom).mp hnext, List.getElem?_eq_none le_rfl] at hid
      cases hid

/-- Asking for the assignment to a symbol interns its text with the marker. -/
theorem exists_assignment (h : table.Inverse) (hroom : table.texts.length < 2 ^ 32)
    (hid : table.text id = .ok text) :
    ∃ assigned later, table.assignment id = .ok (assigned, later) ∧
      table.internAll [text ++ ":="] = ([assigned], later) ∧
      later.text assigned = .ok (text ++ ":=") :=
  ⟨(table.intern (text ++ ":=")).1, (table.intern (text ++ ":=")).2, assignment_of_text hid,
    internAll_singleton table (text ++ ":="), h.text_intern _ fun _ => hroom⟩

/-- Asking for the target of a symbol answers what the symbol is the assignment to. -/
theorem exists_assignmentTarget? (h : table.Inverse) (hroom : table.texts.length < 2 ^ 32)
    (hid : table.text id = .ok text) :
    ∃ answer later more, table.assignmentTarget? id = .ok (answer, later) ∧
      table.internAll more = (answer.toList, later) ∧
      (∀ target, answer = some target ↔ later.IsAssignmentOf id target) ∧
      answer.isSome = (Symbol.mk text).isAssignment := by
  obtain ⟨hnone, hanswer⟩ | ⟨symbol, hsome, hanswer⟩ := assignmentTarget?_cases hid
  · refine ⟨none, table, [], hanswer, rfl, fun target => ?_, ?_⟩
    · simp [h.isAssignmentOf_iff hid, hnone]
    · rw [Symbol.isAssignment_eq, hnone]
      rfl
  · have hstep := h.interns_intern symbol.text fun _ => hroom
    have hfound := h.text_intern symbol.text fun _ => hroom
    refine ⟨_, _, [symbol.text], hanswer, internAll_singleton table symbol.text,
      fun target => ?_, ?_⟩
    · rw [hstep.inverse.isAssignmentOf_iff (hstep.grows.text id text hid)]
      simp only [hsome, Option.some.injEq, exists_eq_left']
      constructor
      · rintro rfl
        exact hfound
      · exact fun htarget => (hstep.inverse.id_eq_iff hfound htarget).mpr rfl
    · rw [Symbol.isAssignment_eq, hsome]
      rfl

end Inverse

/-! ## From the empty table on -/

/-- **Interning is a bijection that only grows.**

When texts have been interned, fewer than `2 ^ 32` distinct ones, the vector and the map are
inverse to each other and hold just these texts, each once.  The symbols handed out have the
texts they were asked for, and symbols are equal exactly when their texts are.  When interning
goes on, no symbol loses its text and no text its symbol.

Asking for the assignment to a symbol interns its text with the marker, which adds nothing if
the answer is a symbol already.  Asking for the target of a symbol answers exactly what it is
the assignment to; no more is interned than the answer, and there is one exactly when the
symbol says that it is an assignment. -/
theorem interning_bijective (texts : List String) (hcard : texts.toFinset.card < 2 ^ 32) :
    ∃ ids table, empty.internAll texts = (ids, table) ∧
      table.Inverse ∧
      (∀ text, text ∈ table.texts ↔ text ∈ texts) ∧
      ids.map table.text = texts.map .ok ∧
      (∀ id id' text text', table.text id = .ok text → table.text id' = .ok text' →
        (id = id' ↔ text = text')) ∧
      (∀ more ids' later, table.internAll more = (ids', later) →
        empty.internAll (texts ++ more) = (ids ++ ids', later) ∧ table.Grows later) ∧
      ∀ id text, table.text id = .ok text →
        (∃ assigned later, table.assignment id = .ok (assigned, later) ∧
          table.internAll [text ++ ":="] = ([assigned], later) ∧
          later.text assigned = .ok (text ++ ":=")) ∧
        (∀ target later, table.assignment target = .ok (id, later) → later = table) ∧
        ∃ answer later more verdict,
          table.assignmentTarget? id = .ok (answer, later) ∧
          table.internAll more = (answer.toList, later) ∧
          table.isAssignment id = .ok verdict ∧
          (∀ target, answer = some target ↔ later.IsAssignmentOf id target) ∧
          (verdict = true ↔ ∃ target, later.IsAssignmentOf id target) := by
  have hrun : empty.Interns texts (empty.internAll texts).1 (empty.internAll texts).2 :=
    inverse_empty.interns_internAll hcard.le
  have hmem (text : String) : text ∈ (empty.internAll texts).2.texts ↔ text ∈ texts := by
    simpa [empty] using hrun.mem_texts text
  have hroom : (empty.internAll texts).2.texts.length < 2 ^ 32 := by
    rw [← List.toFinset_card_of_nodup hrun.inverse.nodup, List.toFinset.ext hmem]
    exact hcard
  refine ⟨_, _, rfl, hrun.inverse, hmem, hrun.text_ids,
    fun id id' text text' => hrun.inverse.id_eq_iff, ?_, fun id text hid =>
      ⟨hrun.inverse.exists_assignment hroom hid,
        fun target later => Inverse.eq_of_assignment hroom hid, ?_⟩⟩
  · intro more ids' later hmore
    have hgrows := grows_internAll (empty.internAll texts).2 more
    rw [internAll_append, hmore]
    rw [hmore] at hgrows
    exact ⟨rfl, hgrows⟩
  · obtain ⟨answer, later, more, hanswer, hmore, htarget, hsome⟩ :=
      hrun.inverse.exists_assignmentTarget? hroom hid
    refine ⟨answer, later, more, _, hanswer, hmore, isAssignment_of_text hid, htarget, ?_⟩
    rw [← hsome, Option.isSome_iff_exists]
    exact exists_congr htarget

/-- An assignment whose target is new, the marker alone, and the assignment once more. -/
theorem interning_bijective_new_target :
    ["x:=", ":=", "x:="].toFinset.card < 2 ^ 32 ∧
      ∃ table, empty.internAll ["x:=", ":=", "x:="] = ([⟨0⟩, ⟨1⟩, ⟨0⟩], table) ∧
        table.Inverse ∧
        [⟨0⟩, ⟨1⟩, ⟨0⟩].map table.text = [.ok "x:=", .ok ":=", .ok "x:="] ∧
        table.isAssignment ⟨0⟩ = .ok true ∧ table.isAssignment ⟨1⟩ = .ok false ∧
        table.find? "x" = none ∧
        ∃ target later, table.assignmentTarget? ⟨0⟩ = .ok (some target, later) ∧
          later.IsAssignmentOf ⟨0⟩ target := by
  have hcard : ["x:=", ":=", "x:="].toFinset.card < 2 ^ 32 :=
    (List.toFinset_card_le _).trans_lt (by decide)
  obtain ⟨ids, table, hrun, hinverse, -, hids, -, -, hassign⟩ :=
    interning_bijective ["x:=", ":=", "x:="] hcard
  have hfirst : empty.intern "x:=" = (⟨0⟩, empty.add "x:=") := intern_of_new (find?_empty "x:=")
  have hsecond : (empty.add "x:=").intern ":=" = (⟨1⟩, (empty.add "x:=").add ":=") :=
    intern_of_new (by simp [find?_add])
  have hthird : ((empty.add "x:=").add ":=").intern "x:=" = (⟨0⟩, (empty.add "x:=").add ":=") :=
    intern_of_found (by simp [find?_add]; rfl)
  simp only [internAll, hfirst, hsecond, hthird] at hrun
  obtain ⟨rfl, rfl⟩ := Prod.mk.inj hrun
  obtain ⟨hzero, hone, -⟩ : _ ∧ _ ∧ _ := by simpa using hids
  obtain ⟨-, -, answer, later, -, verdict, hanswer, -, hverdict, htarget, hexists⟩ :=
    hassign ⟨0⟩ "x:=" hzero
  have htrue : (Symbol.mk "x:=").isAssignment = true := by decide +kernel
  have hfalse : (Symbol.mk ":=").isAssignment = false := by decide +kernel
  rw [isAssignment_of_text hzero, htrue, Except.ok.injEq] at hverdict
  obtain ⟨target, hassigned⟩ := hexists.mp hverdict.symm
  refine ⟨hcard, _, ?_, hinverse, hids, ?_, ?_, ?_, target, later, ?_, hassigned⟩
  · simp only [internAll, hfirst, hsecond, hthird]
  · rw [isAssignment_of_text hzero, htrue]
  · rw [isAssignment_of_text hone, hfalse]
  · simp [find?_add]
  · rw [hanswer, (htarget target).mpr hassigned]

end Prototypes.SymbolTable
