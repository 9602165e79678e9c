import Mathlib.Data.List.Basic
import Prototypes.Symbol.HostName.Cutting

/-!
# The codec of host names

Reading a host name undoes writing one, for every selector that is not empty and
holds no underscore, and for no other: what is read never holds an underscore.

The one ambiguity is a written underscore that `op` follows.  It starts a code,
because no plain colon is written in front of `op` (`operator?_encode`).

The reader and the writer that cut the text at bytes make good cuts only, and give
what `read` and `ofSymbol` give.

## Main results

* `decode_encode`, `underscore_not_mem_decode` — the two halves of the round trip.
* `readCutting_eq`, `ofSymbolCutting_eq` — all cuts are good.
* `codec` — what is read back, and what is refused.
-/

namespace Prototypes.HostName

/-! ## Codes -/

/-- An operator is no underscore, and its code, three letters of one byte, reads as it. -/
private theorem mem_codes {c : Char} {code : List Char} (h : (c, code) ∈ operatorCodes) :
    c ≠ '_' ∧ charOf? code = some c ∧
      ∃ x y z, code = [x, y, z] ∧ x.utf8Size = 1 ∧ y.utf8Size = 1 ∧ z.utf8Size = 1 := by
  have hall : ∀ entry ∈ operatorCodes, entry.1 ≠ '_' ∧ charOf? entry.2 = some entry.1 ∧
      entry.2.length = 3 ∧ entry.2.all (fun x => x.utf8Size == 1) = true := by decide
  obtain ⟨hne, hchar, hlength, hsize⟩ := hall _ h
  obtain ⟨x, y, z, hcode⟩ := List.length_eq_three.mp hlength
  dsimp only at hcode hsize hchar hne
  rw [hcode] at hsize
  simp only [List.all_cons, List.all_nil, Bool.and_true, Bool.and_eq_true, beq_iff_eq] at hsize
  exact ⟨hne, hchar, x, y, z, hcode, hsize⟩

theorem mem_operatorCodes_of_codeOf? {c : Char} {code : List Char} (h : codeOf? c = some code) :
    (c, code) ∈ operatorCodes := by
  obtain ⟨⟨c', code'⟩, hfind, rfl⟩ := Option.map_eq_some_iff.mp h
  have hc : c' = c := by simpa using List.find?_some hfind
  exact hc ▸ List.mem_of_find?_eq_some hfind

/-- What a code stands for is a colon or an operator. -/
theorem charOf?_eq_some {c : Char} {code : List Char} (h : charOf? code = some c) :
    c ≠ '_' ∧ ∃ x y z, code = [x, y, z] ∧ x.utf8Size = 1 ∧ y.utf8Size = 1 ∧ z.utf8Size = 1 := by
  unfold charOf? at h
  split at h
  · rename_i hcolon
    cases h
    exact ⟨by decide, 'c', 'l', 'n', by simpa [colonCode] using hcolon, by decide, by decide, by decide⟩
  · obtain ⟨⟨c', code'⟩, hfind, rfl⟩ := Option.map_eq_some_iff.mp h
    have hcode : code' = code := by simpa using List.find?_some hfind
    subst hcode
    obtain ⟨hne, -, hletters⟩ := mem_codes (List.mem_of_find?_eq_some hfind)
    exact ⟨hne, hletters⟩

/-! ## Reading one character -/

/-- The operator whose code a text starts with, and what follows it. -/
def operator? : List Char → Option (Char × List Char)
  | '_' :: 'o' :: 'p' :: x :: y :: z :: '_' :: rest => (charOf? [x, y, z]).map fun c => (c, rest)
  | _ => none

theorem operator?_eq_some_iff {text rest : List Char} {c : Char} :
    operator? text = some (c, rest) ↔ ∃ code, text = spell code ++ rest ∧ charOf? code = some c := by
  constructor
  · intro h
    unfold operator? at h
    split at h
    · rename_i x y z rest'
      obtain ⟨c', hc, hpair⟩ := Option.map_eq_some_iff.mp h
      cases hpair
      exact ⟨[x, y, z], rfl, hc⟩
    · cases h
  · rintro ⟨code, rfl, hc⟩
    obtain ⟨-, x, y, z, rfl, -⟩ := charOf?_eq_some hc
    simp [operator?, spell, hc]

/-- An underscore reads as the operator whose code it starts, and else as a colon. -/
theorem decode_underscore (more : List Char) :
    decode ('_' :: more) =
      match operator? ('_' :: more) with
      | some (c, rest) => c :: decode rest
      | none => ':' :: decode more := by
  by_cases hcode : ∃ x y z rest, more = 'o' :: 'p' :: x :: y :: z :: '_' :: rest
  · obtain ⟨x, y, z, rest, rfl⟩ := hcode
    rw [decode, operator?]
    cases charOf? [x, y, z] <;> rfl
  · have hnone : operator? ('_' :: more) = none := by
      unfold operator?
      split
      · rename_i x y z rest h
        exact absurd ⟨x, y, z, rest, (List.cons.inj h).2⟩ hcode
      · rfl
    rw [hnone, decode, if_pos rfl]
    rintro x y z rest - rfl
    exact hcode ⟨x, y, z, rest, rfl⟩

theorem decode_of_ne {c : Char} (h : c ≠ '_') (more : List Char) :
    decode (c :: more) = c :: decode more := by
  rw [decode.eq_def]
  split
  · rename_i hnil
    cases hnil
  · rename_i hcons
    exact absurd (List.cons.inj hcons).1 h
  · rename_i hcons
    cases hcons
    rw [if_neg h]

/-! ## The round trip -/

/-- What is read holds no underscore. -/
theorem underscore_not_mem_decode (text : List Char) : '_' ∉ decode text := by
  fun_induction decode text with
  | case1 => simp
  | case2 x y z rest c hc ih =>
    have hne := (charOf?_eq_some hc).1
    simp [Ne.symm hne, ih]
  | case3 x y z rest hc ih => simp [ih]
  | case4 c rest hcode ih =>
    split
    · simp [ih]
    · rename_i h
      simp [ih, Ne.symm h]

/-- Something is read of every text that is not empty. -/
theorem decode_ne_nil {text : List Char} (h : text ≠ []) : decode text ≠ [] := by
  fun_cases decode text <;> simp_all

/-- What is written starts with `op` only if the selector does. -/
theorem isPrefixOf_of_encode {rest more : List Char} (h : encode rest = 'o' :: 'p' :: more) :
    ['o', 'p'].isPrefixOf rest = true := by
  -- a letter that is written first is the first of the selector, as all else starts with `_`
  have hfirst : ∀ {x : Char} {text more : List Char}, x ≠ '_' → encode text = x :: more →
      ∃ later, text = x :: later ∧ encode later = more := by
    intro x text more hx h
    cases text with
    | nil => cases h
    | cons c later =>
      rw [encode, encodeChar] at h
      split at h
      · split at h <;> exact absurd (List.cons.inj h).1.symm hx
      · split at h
        · exact absurd (List.cons.inj h).1.symm hx
        · obtain ⟨rfl, hmore⟩ := List.cons.inj h
          exact ⟨later, rfl, hmore⟩
  obtain ⟨later, rfl, hlater⟩ := hfirst (by decide) h
  obtain ⟨last, rfl, -⟩ := hfirst (by decide) hlater
  rfl

/-- A plain colon is not read together with what is written after it. -/
theorem operator?_encode {rest : List Char} (h : ¬['o', 'p'].isPrefixOf rest = true) :
    operator? ('_' :: encode rest) = none := by
  cases hread : operator? ('_' :: encode rest) with
  | none => rfl
  | some found =>
    obtain ⟨code, hcode, -⟩ := operator?_eq_some_iff.mp hread
    exact absurd (isPrefixOf_of_encode (List.cons.inj hcode).2) h

theorem decode_spell {c : Char} {code : List Char} (h : charOf? code = some c)
    (rest : List Char) : decode (spell code ++ rest) = c :: decode rest := by
  have hread : operator? (spell code ++ rest) = some (c, rest) :=
    operator?_eq_some_iff.mpr ⟨code, rfl, h⟩
  rw [show spell code ++ rest = '_' :: (['o', 'p'] ++ code ++ ['_'] ++ rest) from rfl] at hread ⊢
  rw [decode_underscore, hread]

/-- Reading undoes writing where there are no underscores. -/
theorem decode_encode {text : List Char} (h : '_' ∉ text) : decode (encode text) = text := by
  induction text with
  | nil => rfl
  | cons c rest ih =>
    have hne := List.ne_of_not_mem_cons h
    have hrest := List.not_mem_of_not_mem_cons h
    rw [encode, encodeChar]
    split
    case isTrue hcolon =>
      split
      case isTrue =>
        have hchar : charOf? colonCode = some ':' := rfl
        rw [decode_spell hchar, ih hrest, hcolon]
      case isFalse hplain =>
        rw [List.singleton_append, decode_underscore, operator?_encode hplain]
        rw [ih hrest, hcolon]
    case isFalse =>
      split
      case h_1 code hcode =>
        rw [decode_spell (mem_codes (mem_operatorCodes_of_codeOf? hcode)).2.1, ih hrest]
      case h_2 => rw [List.singleton_append, decode_of_ne (Ne.symm hne), ih hrest]

/-! ## Cuts are good -/

theorem byteLength_spell {c : Char} {code : List Char} (h : charOf? code = some c) :
    byteLength (spell code) = 7 := by
  obtain ⟨-, x, y, z, rfl, hx, hy, hz⟩ := charOf?_eq_some h
  simp [spell, byteLength, hx, hy, hz]
  decide

/-- Looking for a code by cutting finds what `operator?` finds. -/
theorem operatorAt_eq (text : List Char) :
    operatorAt text = .ok ((operator? text).map Prod.fst) := by
  cases hread : operator? text with
  | some found =>
    obtain ⟨c, rest⟩ := found
    obtain ⟨code, rfl, hcode⟩ := operator?_eq_some_iff.mp hread
    obtain ⟨-, x, y, z, rfl, hx, hy, hz⟩ := charOf?_eq_some hcode
    have hlength : byteLength [x, y, z] = 3 := by simp [byteLength, hx, hy, hz]
    have hcut : cut? 3 ([x, y, z] ++ '_' :: rest) = some ([x, y, z], '_' :: rest) :=
      hlength ▸ cut?_byteLength [x, y, z] ('_' :: rest)
    rw [show spell [x, y, z] ++ rest = '_' :: 'o' :: 'p' :: ([x, y, z] ++ '_' :: rest) from rfl]
    simp only [operatorAt, behind, hcut]
    exact congrArg Except.ok hcode
  | none =>
    unfold operatorAt
    split
    · rename_i after
      cases hcut : cut? 3 after with
      | none => rfl
      | some parts =>
        obtain ⟨code, rest⟩ := parts
        simp only [behind, hcut]
        refine congrArg Except.ok (ite_eq_right_iff.mpr fun hunderscore => ?_)
        cases hchar : charOf? code with
        | none => rfl
        | some c =>
          obtain ⟨rest', rfl⟩ := List.isPrefixOf_iff_prefix.mp hunderscore
          have hafter : after = code ++ (['_'] ++ rest') := cut?_append hcut
          have htext : '_' :: 'o' :: 'p' :: after = spell code ++ rest' := by simp [spell, hafter]
          cases hread.symm.trans (operator?_eq_some_iff.mpr ⟨code, htext, hchar⟩)
    · rfl

/-- A code that is found ends where the reader goes on. -/
theorem behind_of_operatorAt {text : List Char} {c : Char} (h : operatorAt text = .ok (some c)) :
    ∃ rest, operator? text = some (c, rest) ∧ behind 7 text = .ok rest := by
  rw [operatorAt_eq] at h
  obtain ⟨⟨c', rest⟩, hread, rfl⟩ := Option.map_eq_some_iff.mp (Except.ok.inj h)
  obtain ⟨code, rfl, hcode⟩ := operator?_eq_some_iff.mp hread
  exact ⟨rest, hread, byteLength_spell hcode ▸ behind_byteLength (spell code) rest⟩

theorem operator?_of_operatorAt {text : List Char} (h : operatorAt text = .ok none) :
    operator? text = none := by
  rw [operatorAt_eq] at h
  exact Option.map_eq_none_iff.mp (Except.ok.inj h)

theorem behind_utf8Size (c : Char) (more : List Char) :
    behind c.utf8Size (c :: more) = .ok more :=
  behind_byteLength [c] more

/-- All cuts of the reader are good. -/
theorem decodeCutting_eq (text : List Char) : decodeCutting text = .ok (decode text) := by
  fun_induction decodeCutting text with
  | case1 => rfl
  | case2 more reason hop =>
    rw [operatorAt_eq] at hop
    cases hop
  | case3 more op reason hop hbehind =>
    obtain ⟨rest, -, hrest⟩ := behind_of_operatorAt hop
    cases hbehind.symm.trans hrest
  | case4 more op rest hop hbehind ih =>
    obtain ⟨rest', hread, hrest⟩ := behind_of_operatorAt hop
    cases hbehind.symm.trans hrest
    rw [ih, decode_underscore, hread]
    rfl
  | case5 more reason hop hbehind => cases hbehind.symm.trans (behind_utf8Size _ _)
  | case6 more rest hop hbehind ih =>
    cases hbehind.symm.trans (behind_utf8Size _ _)
    rw [ih, decode_underscore, operator?_of_operatorAt hop]
    rfl
  | case7 c more hc reason hbehind => cases hbehind.symm.trans (behind_utf8Size _ _)
  | case8 c more hc rest hbehind ih =>
    cases hbehind.symm.trans (behind_utf8Size _ _)
    rw [ih, decode_of_ne hc]
    rfl

/-- All cuts of the writer are good. -/
theorem encodeCutting_eq (before rest : List Char) :
    encodeCutting (before ++ rest) (byteLength before) rest = .ok (encode rest) := by
  induction rest generalizing before with
  | nil => simp [encodeCutting, encode]
  | cons c rest ih =>
    have hnext := ih (before ++ [c])
    simp only [byteLength_append, byteLength, Nat.add_zero, List.append_assoc,
      List.singleton_append] at hnext
    rw [encodeCutting, hnext, encode, encodeChar]
    split
    case isTrue hcolon =>
      have hlater : behind (byteLength before + 1) (before ++ c :: rest) = .ok rest := by
        have hcut := behind_byteLength (before ++ [c]) rest
        have hsize : c.utf8Size = 1 := by rw [hcolon]; decide
        simpa [byteLength_append, byteLength, hsize] using hcut
      rw [hlater]
      rfl
    case isFalse => rfl

/-- The writer that cuts writes the host name. -/
theorem ofSymbolCutting_eq (stratum : Stratum) (selector : Symbol) :
    ofSymbolCutting stratum selector = .ok (ofSymbol stratum selector) := by
  have hencode := encodeCutting_eq [] selector.text.toList
  rw [List.nil_append, byteLength] at hencode
  rw [ofSymbolCutting, hencode]
  rfl

/-- The reader that cuts reads what `readOrFail` reads, and has the same faults. -/
theorem readCutting_eq (name : String) :
    readCutting name = (readOrFail name).mapError Halt.raised := by
  unfold readCutting readOrFail read
  cases split? name.toList with
  | none => rfl
  | some found =>
    obtain ⟨stratum, body⟩ := found
    cases body with
    | nil => rfl
    | cons c body =>
      simp only [decodeCutting_eq]
      rfl

/-! ## The codec -/

/-- The selectors that have a host name of their own. -/
def Readable (selector : Symbol) : Prop := selector.text ≠ "" ∧ '_' ∉ selector.text.toList

instance (selector : Symbol) : Decidable (Readable selector) :=
  inferInstanceAs (Decidable (_ ∧ _))

/-- The halt of a reader that is given no host name. -/
def fault (name : String) (reason : Fault) : Halt :=
  .raised (.internal (.hostName name reason))

/-- A name splits at a stratum's mark. -/
theorem split?_eq_some_iff {name body : List Char} {stratum : Stratum} :
    split? name = some (stratum, body) ↔ name = stratum.mark.toList ++ body := by
  constructor
  · intro h
    unfold split? at h
    split at h <;> cases h <;> rfl
  · rintro rfl
    cases stratum <;> rfl

theorem split?_eq_none_iff {name : List Char} :
    split? name = none ↔ ∀ stratum : Stratum, ¬stratum.mark.toList <+: name := by
  constructor
  · rintro hnone stratum ⟨body, rfl⟩
    cases hnone.symm.trans (split?_eq_some_iff.mpr rfl)
  · intro hmark
    cases hsplit : split? name with
    | none => rfl
    | some found => exact absurd ⟨_, (split?_eq_some_iff.mp hsplit).symm⟩ (hmark found.1)

/-- Refused for its start, refused for its end, or read. -/
theorem readCutting_cases (name : String) :
    (split? name.toList = none ∧ readCutting name = .error (fault name .noStratum)) ∨
    (∃ stratum, split? name.toList = some (stratum, []) ∧
      readCutting name = .error (fault name .noSelector)) ∨
    ∃ stratum body, body ≠ [] ∧ split? name.toList = some (stratum, body) ∧
      readCutting name = .ok (stratum, ⟨String.ofList (decode body)⟩) := by
  unfold readCutting
  cases split? name.toList with
  | none => exact .inl ⟨rfl, rfl⟩
  | some found =>
    obtain ⟨stratum, body⟩ := found
    cases body with
    | nil => exact .inr (.inl ⟨stratum, rfl, rfl⟩)
    | cons c more =>
      simp only [decodeCutting_eq]
      exact .inr (.inr ⟨stratum, c :: more, List.cons_ne_nil _ _, rfl, rfl⟩)

theorem readCutting_of_body {name : String} {stratum : Stratum} {body : List Char}
    (h : split? name.toList = some (stratum, body)) (hbody : body ≠ []) :
    readCutting name = .ok (stratum, ⟨String.ofList (decode body)⟩) := by
  obtain ⟨hsplit, -⟩ | ⟨_, hsplit, -⟩ | ⟨_, _, -, hsplit, hread⟩ := readCutting_cases name <;>
    cases h.symm.trans hsplit
  · exact absurd rfl hbody
  · exact hread

/-- A name is refused for its start exactly when it has neither mark. -/
theorem readCutting_noStratum_iff {name : String} :
    readCutting name = .error (fault name .noStratum) ↔
      ∀ stratum : Stratum, ¬stratum.mark.toList <+: name.toList := by
  rw [← split?_eq_none_iff]
  obtain ⟨hsplit, hread⟩ | ⟨_, hsplit, hread⟩ | ⟨_, _, -, hsplit, hread⟩ :=
    readCutting_cases name <;> simp [hsplit, hread, fault]

/-- A name is refused for its end exactly when it is a mark. -/
theorem readCutting_noSelector_iff {name : String} :
    readCutting name = .error (fault name .noSelector) ↔ ∃ stratum : Stratum, name = stratum.mark := by
  have hmark : (∃ stratum : Stratum, name = stratum.mark) ↔
      ∃ stratum, split? name.toList = some (stratum, []) := by
    simp only [split?_eq_some_iff, List.append_nil, String.toList_inj]
  rw [hmark]
  obtain ⟨hsplit, hread⟩ | ⟨_, hsplit, hread⟩ | ⟨_, _, hbody, hsplit, hread⟩ :=
    readCutting_cases name <;> simp [hsplit, hread, fault]
  exact hbody

theorem split?_ofSymbol (stratum : Stratum) (selector : Symbol) :
    split? (ofSymbol stratum selector).toList = some (stratum, encode selector.text.toList) :=
  split?_eq_some_iff.mpr (by simp [ofSymbol])

/-- What is read of a body is readable. -/
theorem readable_decode {body : List Char} (h : body ≠ []) :
    Readable ⟨String.ofList (decode body)⟩ := by
  refine ⟨fun hempty => decode_ne_nil h ?_, ?_⟩
  · simpa using congrArg String.toList hempty
  · simpa using underscore_not_mem_decode body

/-- Something is written of every selector that is not empty. -/
theorem encode_ne_nil {text : List Char} (h : text ≠ []) : encode text ≠ [] := by
  intro hnil
  cases text with
  | nil => exact h rfl
  | cons c rest =>
    have hchar := (List.append_eq_nil_iff.mp hnil).1
    rw [encodeChar] at hchar
    split at hchar <;> split at hchar <;> cases hchar

/-- Written and read again, the readable selectors come back, and no others do. -/
theorem readCutting_ofSymbol {stratum : Stratum} {selector : Symbol} :
    readCutting (ofSymbol stratum selector) = .ok (stratum, selector) ↔ Readable selector := by
  obtain ⟨text⟩ := selector
  have hsplit := split?_ofSymbol stratum ⟨text⟩
  by_cases hempty : text.toList = []
  · rw [hempty, encode] at hsplit
    obtain ⟨hno, -⟩ | ⟨_, -, hread⟩ | ⟨_, _, hbody, hno, -⟩ :=
      readCutting_cases (ofSymbol stratum ⟨text⟩)
    · cases hsplit.symm.trans hno
    · rw [hread]
      exact ⟨fun h => (nomatch h), fun h => absurd (String.toList_inj.mp hempty) h.1⟩
    · cases hsplit.symm.trans hno
      exact absurd rfl hbody
  · have hread := readCutting_of_body hsplit (encode_ne_nil hempty)
    constructor
    · intro h
      obtain ⟨-, hselector⟩ := Prod.mk.inj (Except.ok.inj (hread.symm.trans h))
      exact hselector ▸ readable_decode (encode_ne_nil hempty)
    · intro h
      rw [hread, decode_encode h.2, String.ofList_toList]

/-- **The codec of host names.**

No cut of the writer or of the reader is bad: the writer always answers, and the reader has
no faults but the two of a name that is no host name.  Names of two strata differ; a selector
is read back in its stratum exactly when it is not empty and holds no underscore, so such
selectors have different names.  A name is refused exactly when it starts with neither mark
or with nothing behind its mark; what is read of any other name is read back. -/
theorem codec :
    (∀ stratum selector,
      ofSymbolCutting stratum selector = .ok (ofSymbol stratum selector) ∧
      (readCutting (ofSymbol stratum selector) = .ok (stratum, selector) ↔ Readable selector)) ∧
    (∀ stratum stratum' selector selector',
      ofSymbol stratum selector = ofSymbol stratum' selector' →
        stratum = stratum' ∧ (Readable selector → Readable selector' → selector = selector')) ∧
    ∀ name,
      readCutting name = (readOrFail name).mapError Halt.raised ∧
      (readCutting name = .error (fault name .noStratum) ↔
        ∀ stratum : Stratum, ¬stratum.mark.toList <+: name.toList) ∧
      (readCutting name = .error (fault name .noSelector) ↔
        ∃ stratum : Stratum, name = stratum.mark) ∧
      (∀ halt, readCutting name = .error halt →
        halt = fault name .noStratum ∨ halt = fault name .noSelector) ∧
      ∀ stratum selector, readCutting name = .ok (stratum, selector) →
        Readable selector ∧ readCutting (ofSymbol stratum selector) = .ok (stratum, selector) := by
  refine ⟨fun stratum selector => ⟨ofSymbolCutting_eq _ _, readCutting_ofSymbol⟩, ?_, ?_⟩
  · intro stratum stratum' selector selector' hname
    have hsplit := (split?_ofSymbol stratum selector).symm.trans
      ((congrArg (split? ·.toList) hname).trans (split?_ofSymbol stratum' selector'))
    refine ⟨congrArg Prod.fst (Option.some.inj hsplit), fun hs hs' => ?_⟩
    have hread : readCutting (ofSymbol stratum selector) = .ok (stratum, selector) :=
      readCutting_ofSymbol.mpr hs
    rw [hname, readCutting_ofSymbol.mpr hs'] at hread
    exact (congrArg Prod.snd (Except.ok.inj hread)).symm
  · intro name
    refine ⟨readCutting_eq name, readCutting_noStratum_iff, readCutting_noSelector_iff, ?_, ?_⟩
    all_goals
      obtain ⟨-, hread⟩ | ⟨_, -, hread⟩ | ⟨_, _, hbody, -, hread⟩ := readCutting_cases name
    · exact fun halt h => .inl (Except.error.inj (hread.symm.trans h)).symm
    · exact fun halt h => .inr (Except.error.inj (hread.symm.trans h)).symm
    · exact fun halt h => nomatch hread.symm.trans h
    · exact fun stratum selector h => nomatch hread.symm.trans h
    · exact fun stratum selector h => nomatch hread.symm.trans h
    · intro stratum selector h
      cases hread.symm.trans h
      exact ⟨readable_decode hbody, readCutting_ofSymbol.mpr (readable_decode hbody)⟩

/-- Operators, colons, letters that look like a code and a letter of two bytes. -/
theorem codec_of_mixed :
    ofSymbol .base ⟨"é:op+:opmns:"⟩ = "base_é_opcln_op_oppls__opcln_opmns_" ∧
      readCutting "base_é_opcln_op_oppls__opcln_opmns_" = .ok (.base, ⟨"é:op+:opmns:"⟩) := by
  have hname : ofSymbol .base ⟨"é:op+:opmns:"⟩ = "base_é_opcln_op_oppls__opcln_opmns_" := by
    decide +kernel
  exact ⟨hname, hname ▸ (codec.1 .base ⟨"é:op+:opmns:"⟩).2.mpr (by decide +kernel)⟩

end Prototypes.HostName
