import Prototypes.Symbol

/-!
# Host names of selectors

Host code names a selector by an identifier. The identifier starts with the
*stratum* of the operation, `base_` for ordinary messages and `meta_` for
reflective ones. After it every colon is written `_` and every operator
character by a three-letter code between `_op` and `_`, so `at:put:` is
`base_at_put_` and `+` is `base__oppls_`.

The one clash is a colon in front of the letters `op`, which would look like
the start of a code; that colon has a code of its own, `cln`. Thus every
`_op` in a written name starts a code, which is why reading back what was
written gives the selector again whenever it holds no underscore.
-/

namespace Prototypes

/-- The two namespaces of host names. -/
inductive Stratum where
  /-- ordinary messages -/
  | base
  /-- reflective operations -/
  | reflective
deriving DecidableEq, Inhabited

namespace Stratum

/-- What every host name of the stratum starts with. -/
def mark : Stratum → String
  | base => "base_"
  | reflective => "meta_"

/-- The stratum's own name. -/
def label : Stratum → String
  | base => "Base"
  | reflective => "Meta"

end Stratum

namespace HostName

/-! ## Codes of single characters -/

/-- Operator characters and the letters they are spelled with. -/
def operatorCodes : List (Char × List Char) :=
  [('+', ['p', 'l', 's']), ('-', ['m', 'n', 's']), ('*', ['m', 'u', 'l']), ('/', ['d', 'i', 'v']),
   ('\\', ['b', 's', 'l']), ('!', ['n', 'o', 't']), ('>', ['g', 't', 'x']), ('<', ['l', 't', 'x']),
   ('=', ['e', 'q', 'l']), ('~', ['t', 'i', 'l']), ('?', ['q', 'u', 'e']), ('%', ['r', 'e', 'm'])]

/-- The code of a colon in front of `op`. -/
def colonCode : List Char := ['c', 'l', 'n']

def codeOf? (c : Char) : Option (List Char) :=
  (operatorCodes.find? fun entry => entry.1 == c).map Prod.snd

/-- The character a code stands for, the colon's included. -/
def charOf? (code : List Char) : Option Char :=
  if code == colonCode then some ':'
  else (operatorCodes.find? fun entry => entry.2 == code).map Prod.fst

/-- A code as it stands in a name. -/
def spell (code : List Char) : List Char := ['_', 'o', 'p'] ++ code ++ ['_']

/-! ## Selectors to names and back -/

/-- The characters written for a selector character `c` followed by `rest`. -/
def encodeChar (c : Char) (rest : List Char) : List Char :=
  if c = ':' then
    if ['o', 'p'].isPrefixOf rest then spell colonCode else ['_']
  else
    match codeOf? c with
    | some code => spell code
    | none => [c]

def encode : List Char → List Char
  | [] => []
  | c :: rest => encodeChar c rest ++ encode rest

/-- An underscore reads as the operator whose code it starts, and else as a colon. -/
def decode : List Char → List Char
  | [] => []
  | '_' :: 'o' :: 'p' :: x :: y :: z :: '_' :: rest =>
    match charOf? [x, y, z] with
    | some c => c :: decode rest
    | none => ':' :: decode ('o' :: 'p' :: x :: y :: z :: '_' :: rest)
  | c :: rest => (if c = '_' then ':' else c) :: decode rest

/-- The host name of a selector in a stratum. -/
def ofSymbol (stratum : Stratum) (selector : Symbol) : String :=
  stratum.mark ++ String.ofList (encode selector.text.toList)

/-- Why an identifier is not a host name. -/
inductive Fault where
  /-- it starts with neither stratum -/
  | noStratum
  /-- nothing follows the stratum -/
  | noSelector
deriving DecidableEq, Inhabited

/-- The stratum of a name and the characters after its mark. -/
def split? (name : List Char) : Option (Stratum × List Char) :=
  match name with
  | 'b' :: 'a' :: 's' :: 'e' :: '_' :: body => some (.base, body)
  | 'm' :: 'e' :: 't' :: 'a' :: '_' :: body => some (.reflective, body)
  | _ => none

/-- Reads a host name. -/
def read (name : String) : Except Fault (Stratum × Symbol) :=
  match split? name.toList with
  | none => .error .noStratum
  | some (_, []) => .error .noSelector
  | some (stratum, body) => .ok (stratum, ⟨String.ofList (decode body)⟩)

end HostName

end Prototypes
