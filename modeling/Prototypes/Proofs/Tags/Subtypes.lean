import Mathlib.Logic.Relation
import Prototypes.Value.Basic

/-!
# The order of subtypes

A tag is below what can be reached from it along supertypes.  The question whether it is below
another is answered with a stack of tags still to be looked at; tags with several supertypes may
share some of them, which are then looked at more than once.

Tags are told apart by their identities alone.  That this is enough is due to how they come about:
each is made with an identity of its own, on supertypes that are there already.

## Main results

* `TypeTag.anyReaches_iff` — what the stack finds is what can be reached.
* `TypeTag.Made.isSubtypeOf_iff` — among tags that were made the answer is reachability.
* `TypeTag.Reaches.antisymm`, `TypeTag.Made.isSubtypeOf_trans` — it is an order.
-/

namespace Prototypes.TypeTag

open Relation (ReflTransGen)

/-! ## Reachability -/

/-- The second tag is the first, or can be reached from it along supertypes. -/
def Reaches : TypeTag → TypeTag → Prop := ReflTransGen fun tag above => above ∈ tag.supertypes

theorem sizeOf_supertype {tag above : TypeTag} (h : above ∈ tag.supertypes) : sizeOf above < sizeOf tag := by
  obtain ⟨identity, name, supertypes⟩ := tag
  have hlt := List.sizeOf_lt_of_mem h
  simp only [mk.sizeOf_spec] at hlt ⊢
  omega

namespace Reaches

variable {first second third : TypeTag}

theorem refl (tag : TypeTag) : tag.Reaches tag := ReflTransGen.refl

theorem trans (h : first.Reaches second) (h' : second.Reaches third) : first.Reaches third :=
  ReflTransGen.trans h h'

/-- The way up from a tag ends there or begins with one of its supertypes. -/
theorem cases_iff : first.Reaches second ↔
    second = first ∨ ∃ above ∈ first.supertypes, above.Reaches second :=
  (ReflTransGen.cases_head_iff).trans (or_congr_left eq_comm)

/-- Tags further up are smaller, since a tag is made of its supertypes. -/
theorem sizeOf_le (h : first.Reaches second) : second = first ∨ sizeOf second < sizeOf first := by
  induction h with
  | refl => exact .inl rfl
  | tail _ hlast ih =>
    have hlt := sizeOf_supertype hlast
    rcases ih with rfl | hle
    · exact .inr hlt
    · exact .inr (Nat.lt_trans hlt hle)

theorem antisymm (h : first.Reaches second) (h' : second.Reaches first) : first = second := by
  rcases h.sizeOf_le with rfl | hlt
  · rfl
  · rcases h'.sizeOf_le with rfl | hlt'
    · rfl
    · omega

end Reaches

/-- A tag with the identity of `other` can be reached. -/
def Meets (tag other : TypeTag) : Prop := ∃ above, tag.Reaches above ∧ above.identity = other.identity

theorem meets_iff {tag other : TypeTag} :
    tag.Meets other ↔ tag.identity = other.identity ∨ ∃ above ∈ tag.supertypes, above.Meets other := by
  constructor
  · rintro ⟨above, hreaches, hidentity⟩
    rcases Reaches.cases_iff.mp hreaches with rfl | ⟨next, hnext, hrest⟩
    · exact .inl hidentity
    · exact .inr ⟨next, hnext, above, hrest, hidentity⟩
  · rintro (hidentity | ⟨next, hnext, above, hrest, hidentity⟩)
    · exact ⟨tag, .refl tag, hidentity⟩
    · exact ⟨above, Reaches.cases_iff.mpr (.inr ⟨next, hnext, hrest⟩), hidentity⟩

/-! ## The stack -/

/-- From a stack everything is found that can be reached from a tag on it. -/
theorem anyReaches_iff (other : TypeTag) (pending : List TypeTag) :
    anyReaches other pending = true ↔ ∃ tag ∈ pending, tag.Meets other := by
  -- the recursion is that of the search: the supertypes of the first tag come to lie on the rest
  fun_induction anyReaches other pending with
  | case1 => simp
  | case2 tag pending ih =>
    have hpushed : (∃ above ∈ tag.supertypes.reverseAux pending, above.Meets other) ↔
        (∃ above ∈ tag.supertypes, above.Meets other) ∨ ∃ above ∈ pending, above.Meets other := by
      simp only [List.reverseAux_eq, List.mem_append, List.mem_reverse, or_and_right, exists_or]
    rw [Bool.or_eq_true, beq_iff_eq, ih, hpushed, ← or_assoc, ← meets_iff]
    simp only [List.mem_cons, exists_eq_or_imp]

theorem isSubtypeOf_iff_meets {tag other : TypeTag} : tag.isSubtypeOf other = true ↔ tag.Meets other := by
  rw [isSubtypeOf, Bool.or_eq_true, beq_iff_eq, anyReaches_iff, meets_iff, List.reverseAux_eq,
    List.append_nil]
  simp only [List.mem_reverse]

theorem isSubtypeOf_of_reaches {tag other : TypeTag} (h : tag.Reaches other) :
    tag.isSubtypeOf other = true :=
  isSubtypeOf_iff_meets.mpr ⟨other, h, rfl⟩

/-! ## Tags that were made -/

/--
Tags that have been made one after the other, the last of them first: each has an identity of its
own, and its supertypes were there.
-/
inductive Made : List TypeTag → Prop
  | nil : Made []
  | new {tags : List TypeTag} {tag : TypeTag} : Made tags →
      (∀ other ∈ tags, other.identity ≠ tag.identity) → (∀ above ∈ tag.supertypes, above ∈ tags) →
        Made (tag :: tags)

namespace Made

variable {tags : List TypeTag} {tag other third : TypeTag}

theorem supertype_mem (h : Made tags) (htag : tag ∈ tags) {above : TypeTag}
    (habove : above ∈ tag.supertypes) : above ∈ tags := by
  induction h with
  | nil => cases htag
  | new _ _ hsupertypes ih =>
    rcases List.mem_cons.mp htag with rfl | htag
    · exact List.mem_cons_of_mem _ (hsupertypes above habove)
    · exact List.mem_cons_of_mem _ (ih htag)

/-- Whatever can be reached was made. -/
theorem mem_of_reaches (h : Made tags) (htag : tag ∈ tags) (hreaches : tag.Reaches other) : other ∈ tags := by
  induction hreaches with
  | refl => exact htag
  | tail _ hlast ih => exact h.supertype_mem ih hlast

/-- No two tags have one identity. -/
theorem eq_of_identity (h : Made tags) (htag : tag ∈ tags) (hother : other ∈ tags)
    (hidentity : tag.identity = other.identity) : tag = other := by
  induction h with
  | nil => cases htag
  | new _ hnew _ ih =>
    rcases List.mem_cons.mp htag with rfl | hbefore <;> rcases List.mem_cons.mp hother with rfl | hbefore'
    · rfl
    · exact absurd hidentity.symm (hnew other hbefore')
    · exact absurd hidentity (hnew tag hbefore)
    · exact ih hbefore hbefore'

/-- A tag is a subtype of just those that can be reached from it. -/
theorem isSubtypeOf_iff (h : Made tags) (htag : tag ∈ tags) (hother : other ∈ tags) :
    tag.isSubtypeOf other = true ↔ tag.Reaches other := by
  refine ⟨fun hsubtype => ?_, isSubtypeOf_of_reaches⟩
  obtain ⟨above, hreaches, hidentity⟩ := isSubtypeOf_iff_meets.mp hsubtype
  exact h.eq_of_identity (h.mem_of_reaches htag hreaches) hother hidentity ▸ hreaches

theorem isSubtypeOf_trans (h : Made tags) (htag : tag ∈ tags) (hother : other ∈ tags)
    (hbelow : tag.isSubtypeOf other = true) (habove : other.isSubtypeOf third = true) :
    tag.isSubtypeOf third = true := by
  obtain ⟨above, hreaches, hidentity⟩ := isSubtypeOf_iff_meets.mp habove
  exact isSubtypeOf_iff_meets.mpr
    ⟨above, ((h.isSubtypeOf_iff htag hother).mp hbelow).trans hreaches, hidentity⟩

theorem isSubtypeOf_antisymm (h : Made tags) (htag : tag ∈ tags) (hother : other ∈ tags)
    (hbelow : tag.isSubtypeOf other = true) (habove : other.isSubtypeOf tag = true) : tag = other :=
  ((h.isSubtypeOf_iff htag hother).mp hbelow).antisymm ((h.isSubtypeOf_iff hother htag).mp habove)

end Made

end Prototypes.TypeTag
