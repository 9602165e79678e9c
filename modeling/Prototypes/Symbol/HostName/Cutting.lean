import Prototypes.Error

/-!
# Host names cut at bytes

A text lies in memory as UTF-8 and is taken apart at byte offsets. A cut is
good only between two characters and no farther than the end of the text; a bad
one stops whoever makes it.

Here are the writer and the reader of host names as they work on bytes: they look
behind a colon, behind the three bytes of a code and behind what has been read by
cutting the text there.
-/

namespace Prototypes.HostName

/-! ## Cuts -/

/-- The first `count` bytes and what follows them, if the cut is good. -/
def cut? : (count : Nat) → List Char → Option (List Char × List Char)
  | 0, text => some ([], text)
  | _ + 1, [] => none
  | count + 1, c :: text =>
    if c.utf8Size ≤ count + 1 then
      (cut? (count + 1 - c.utf8Size) text).map fun parts => (c :: parts.1, parts.2)
    else none

/-- What follows the first `count` bytes; the cut has to be good. -/
def behind (count : Nat) (text : List Char) : Except Halt (List Char) :=
  match cut? count text with
  | some (_, rest) => .ok rest
  | none => .error .outOfBounds

/-- A cut loses no character. -/
theorem cut?_append {count : Nat} {text before after : List Char}
    (h : cut? count text = some (before, after)) : text = before ++ after := by
  induction text generalizing count before after with
  | nil =>
    cases count with
    | zero => cases h; rfl
    | succ count => cases h
  | cons c text ih =>
    cases count with
    | zero => cases h; rfl
    | succ count =>
      rw [cut?] at h
      split at h
      · obtain ⟨parts, hparts, hpair⟩ := Option.map_eq_some_iff.mp h
        cases hpair
        rw [ih hparts]
        rfl
      · cases h

/-- The number of bytes of a text. -/
def byteLength : List Char → Nat
  | [] => 0
  | c :: text => c.utf8Size + byteLength text

theorem byteLength_append (before after : List Char) :
    byteLength (before ++ after) = byteLength before + byteLength after := by
  induction before with
  | nil => simp [byteLength]
  | cons c before ih => simp [byteLength, ih, Nat.add_assoc]

/-- A cut between two characters is good. -/
theorem cut?_byteLength (before after : List Char) :
    cut? (byteLength before) (before ++ after) = some (before, after) := by
  induction before with
  | nil => simp [byteLength, cut?]
  | cons c before ih =>
    obtain ⟨count, hcount⟩ := Nat.exists_eq_add_one_of_ne_zero
      (show byteLength (c :: before) ≠ 0 from
        Nat.pos_iff_ne_zero.mp (Nat.add_pos_left c.utf8Size_pos _))
    have hle : c.utf8Size ≤ count + 1 := by rw [← hcount]; exact Nat.le_add_right _ _
    have hsub : count + 1 - c.utf8Size = byteLength before := by simp [← hcount, byteLength]
    rw [hcount, List.cons_append, cut?, if_pos hle, hsub, ih]
    rfl

theorem behind_byteLength (before after : List Char) :
    behind (byteLength before) (before ++ after) = .ok after := by
  rw [behind, cut?_byteLength]

/-- Less is left behind a cut that is not at the start. -/
theorem length_lt_of_behind {count : Nat} {text rest : List Char} (hcount : 0 < count)
    (h : behind count text = .ok rest) : rest.length < text.length := by
  obtain ⟨count, rfl⟩ := Nat.exists_eq_add_one_of_ne_zero (Nat.pos_iff_ne_zero.mp hcount)
  unfold behind at h
  cases hcut : cut? (count + 1) text with
  | none => rw [hcut] at h; cases h
  | some parts =>
    rw [hcut] at h
    cases h
    cases text with
    | nil => cases hcut
    | cons c text =>
      rw [cut?] at hcut
      split at hcut
      · obtain ⟨parts, hparts, rfl⟩ := Option.map_eq_some_iff.mp hcut
        have happend := congrArg List.length (cut?_append hparts)
        simp only [List.length_append, List.length_cons] at happend ⊢
        omega
      · cases hcut

/-! ## Writing -/

/-- The characters written for `rest`, which starts at the byte `index` of `text`. -/
def encodeCutting (text : List Char) : (index : Nat) → (rest : List Char) → Except Halt (List Char)
  | _, [] => .ok []
  | index, c :: rest => do
    let written ←
      if c = ':' then do
        let later ← behind (index + 1) text
        pure (if ['o', 'p'].isPrefixOf later then spell colonCode else ['_'])
      else
        pure (match codeOf? c with
          | some code => spell code
          | none => [c])
    return written ++ (← encodeCutting text (index + c.utf8Size) rest)

/-- The host name of a selector in a stratum. -/
def ofSymbolCutting (stratum : Stratum) (selector : Symbol) : Except Halt String := do
  let written ← encodeCutting selector.text.toList 0 selector.text.toList
  return stratum.mark ++ String.ofList written

/-! ## Reading -/

/-- The character whose code a text starts with, if it starts with one. -/
def operatorAt (text : List Char) : Except Halt (Option Char) :=
  match text with
  | '_' :: 'o' :: 'p' :: after =>
    match cut? 3 after with
    | none => .ok none
    | some (code, _) => do
      let rest ← behind 3 after
      return if ['_'].isPrefixOf rest then charOf? code else none
  | _ => .ok none

/-- The selector's characters, read from the left; a code takes seven bytes. -/
def decodeCutting (text : List Char) : Except Halt (List Char) :=
  match text with
  | [] => .ok []
  | c :: more =>
    if c = '_' then
      match operatorAt (c :: more) with
      | .error reason => .error reason
      | .ok (some op) =>
        match _h : behind 7 (c :: more) with
        | .error reason => .error reason
        | .ok rest => (op :: ·) <$> decodeCutting rest
      | .ok none =>
        match _h : behind c.utf8Size (c :: more) with
        | .error reason => .error reason
        | .ok rest => (':' :: ·) <$> decodeCutting rest
    else
      match _h : behind c.utf8Size (c :: more) with
      | .error reason => .error reason
      | .ok rest => (c :: ·) <$> decodeCutting rest
termination_by text.length
decreasing_by
  · exact length_lt_of_behind (Nat.succ_pos 6) ‹_›
  · exact length_lt_of_behind c.utf8Size_pos ‹_›
  · exact length_lt_of_behind c.utf8Size_pos ‹_›

/-- Reads a host name, its faults as errors of the host. -/
def readCutting (name : String) : Except Halt (Stratum × Symbol) :=
  match split? name.toList with
  | none => .error (.raised (.internal (.hostName name .noStratum)))
  | some (_, []) => .error (.raised (.internal (.hostName name .noSelector)))
  | some (stratum, body) => do return (stratum, ⟨String.ofList (← decodeCutting body)⟩)

end Prototypes.HostName
