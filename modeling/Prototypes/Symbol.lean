/-!
# Selectors

A selector names a slot or a message. Two selectors are the same exactly
when their texts are, so a selector *is* its text; nothing else about it can
be observed.

A selector that ends in `:=` after at least one other character is an
*assignment*: `x:=` writes the field `x`.
-/

namespace Prototypes

/-- The name of a slot, a message, a parameter or a method. -/
structure Symbol where
  text : String
deriving DecidableEq, Inhabited

namespace Symbol

instance : ToString Symbol := ⟨Symbol.text⟩

/-- `x` becomes `x:=`. -/
def assignment (s : Symbol) : Symbol := ⟨s.text ++ ":="⟩

/-- Whether the selector has the form of an assignment: the marker `:=` with something before it. -/
def isAssignment (s : Symbol) : Bool :=
  2 < s.text.length && [':', '='].isSuffixOf s.text.toList

/-- `x:=` becomes `x`; any other selector has no target. -/
def assignmentTarget? (s : Symbol) : Option Symbol :=
  match s.text.toList.reverse with
  | '=' :: ':' :: last :: before => some ⟨String.ofList (last :: before).reverse⟩
  | _ => none

/-- Reading the target of an assignment undoes making one. -/
theorem assignmentTarget?_assignment {s : Symbol} (h : s.text ≠ "") :
    s.assignment.assignmentTarget? = some s := by
  have hrev : s.assignment.text.toList.reverse = '=' :: ':' :: s.text.toList.reverse := by
    simp [assignment]
  have hne : s.text.toList.reverse ≠ [] := by
    simpa using h
  obtain ⟨last, before, hr⟩ := List.exists_cons_of_ne_nil hne
  have hs : s.text.toList = (last :: before).reverse := by rw [← hr, List.reverse_reverse]
  simp only [assignmentTarget?, hrev, hr]
  rw [← hs, String.ofList_toList]

/-- The target of a selector is what it is the assignment of. -/
theorem assignmentTarget?_eq_some_iff {t s : Symbol} :
    t.assignmentTarget? = some s ↔ s.text ≠ "" ∧ t = s.assignment := by
  refine ⟨fun h => ?_, fun ⟨hne, ht⟩ => ht ▸ assignmentTarget?_assignment hne⟩
  unfold assignmentTarget? at h
  split at h
  · rename_i last before hrev
    obtain rfl := Option.some.inj h
    have htext : t.text.toList = (last :: before).reverse ++ [':', '='] := by
      simpa using congrArg List.reverse hrev
    refine ⟨fun he => by simpa using congrArg String.toList he, ?_⟩
    obtain ⟨text⟩ := t
    exact congrArg Symbol.mk (String.toList_inj.mp (by simpa using htext))
  · cases h

/-- The assignments are the selectors that have a target. -/
theorem isAssignment_eq (t : Symbol) : t.isAssignment = t.assignmentTarget?.isSome := by
  have hlen : t.text.length = t.text.toList.reverse.length := by
    rw [List.length_reverse, String.length_toList]
  have hsuf : [':', '='].isSuffixOf t.text.toList
      = ['=', ':'].isPrefixOf t.text.toList.reverse := rfl
  unfold isAssignment assignmentTarget?
  rw [hlen, hsuf]
  split
  · rename_i h
    simp [h]
  · rename_i h
    match hr : t.text.toList.reverse with
    | [] | [_] | [_, _] => simp
    | a :: b :: c :: r =>
      simp only [List.isPrefixOf, List.length_cons, Option.isSome_none, Bool.and_eq_false_imp,
        beq_iff_eq, decide_eq_true_eq]
      rintro - rfl rfl
      exact (h c r hr).elim

end Symbol

/-! ## Selectors the object model sends by itself -/

namespace Selector

/-- Sent to a value that is applied but is not a closure. -/
def apply : Symbol := ⟨"apply"⟩

/-- The slot of a mirror that holds the mirage it reflects on. -/
def base : Symbol := ⟨"base"⟩

/-- Sent to every new instance. -/
def init : Symbol := ⟨"init"⟩

/-- Asked of a custom field: the selector it is installed under. -/
def name : Symbol := ⟨"name"⟩

/-- Asked of a custom field: an instance for a given host. -/
def new : Symbol := ⟨"new"⟩

/-- Asked of a custom field: its current value. -/
def readField : Symbol := ⟨"readField"⟩

/-- Told to a custom field: its next value. -/
def writeField : Symbol := ⟨"writeField"⟩

end Selector

end Prototypes
