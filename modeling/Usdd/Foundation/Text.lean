import Mathlib.Data.List.Basic
/-!
# Texts

The functions on strings and paths that a program takes from its standard library: lines,
whitespace, splitting at a separator, decimal numbers, comparison up to case, and the components
of a path.
-/
namespace Usdd.Foundation

section Lines

/-- A line without the carriage return at its end. -/
def stripReturn (line : List Char) : List Char :=
  if line.getLast? = some '\r' then line.dropLast else line

/-- The lines of a text. The last one counts if it is not empty, and keeps its carriage return if
no newline follows. -/
def lines (text : List Char) : List (List Char) :=
  let pieces := text.splitOn '\n'
  let last := pieces.getLastD []
  pieces.dropLast.map stripReturn ++ if last = [] then [] else [last]

/-- The characters with the property `White_Space`. -/
def isWhitespace (char : Char) : Bool :=
  let code := char.toNat
  (9 ≤ code && code ≤ 13) || code == 0x20 || code == 0x85 || code == 0xa0 || code == 0x1680 ||
    (0x2000 ≤ code && code ≤ 0x200a) || code == 0x2028 || code == 0x2029 || code == 0x202f ||
    code == 0x205f || code == 0x3000

/-- A line of which trimming leaves nothing. -/
def isBlank (line : List Char) : Bool := line.all isWhitespace

end Lines

section Pieces

/-- What follows a given start of a text. -/
def stripStart (start text : List Char) : Option (List Char) :=
  if start.isPrefixOf text then some (text.drop start.length) else none

/-- The parts of a text before and after the first separator. -/
def splitOnce (separator : Char) : List Char → Option (List Char × List Char)
  | [] => none
  | char :: rest =>
    if char = separator then some ([], rest)
    else (splitOnce separator rest).map fun (before, after) => (char :: before, after)

/-- Equality up to the case of ASCII letters. -/
def eqIgnoreAsciiCase (left right : List Char) : Bool :=
  left.map Char.toLower == right.map Char.toLower

/-- A decimal number of 64 bits. One plus sign may precede the digits. -/
def parseU64 (text : List Char) : Option UInt64 :=
  let digits := if text.head? = some '+' then text.tail else text
  if digits.isEmpty || !digits.all Char.isDigit then none
  else
    let value := digits.foldl (fun value digit => 10 * value + (digit.toNat - 48)) 0
    if value < UInt64.size then some (UInt64.ofNat value) else none

theorem stripStart_eq_some {start text rest : List Char} :
    stripStart start text = some rest ↔ text = start ++ rest := by
  unfold stripStart
  constructor
  · intro stripped
    split at stripped
    · rename_i leads
      obtain ⟨tail, rfl⟩ := List.isPrefixOf_iff_prefix.mp leads
      rw [List.drop_left, Option.some.injEq] at stripped
      rw [stripped]
    · cases stripped
  · rintro rfl
    rw [if_pos (List.isPrefixOf_iff_prefix.mpr (List.prefix_append start rest)), List.drop_left]

/-- A text is split at a separator exactly once: none is before it. -/
theorem splitOnce_eq_some {separator : Char} {text before after : List Char} :
    splitOnce separator text = some (before, after) ↔
      text = before ++ separator :: after ∧ separator ∉ before := by
  induction text generalizing before with
  | nil => simp [splitOnce]
  | cons char rest ih =>
    rw [splitOnce]
    by_cases here : char = separator
    · rw [if_pos here, here]
      cases before with
      | nil => simp [eq_comm]
      | cons head tail =>
        simp only [List.cons_append, List.cons.injEq, List.mem_cons, not_or]
        constructor
        · intro wrong
          cases wrong
        · rintro ⟨⟨same, _⟩, other, _⟩
          exact absurd same other
    · rw [if_neg here]
      cases before with
      | nil => simp [here]
      | cons head tail =>
        simp only [Option.map_eq_some_iff, Prod.exists, Prod.mk.injEq, List.cons.injEq,
          List.cons_append, List.mem_cons, not_or]
        constructor
        · rintro ⟨_, _, split, ⟨rfl, rfl⟩, rfl⟩
          obtain ⟨whole, apart⟩ := ih.mp split
          exact ⟨⟨rfl, whole⟩, fun same => here same.symm, apart⟩
        · rintro ⟨⟨rfl, whole⟩, _, apart⟩
          exact ⟨tail, after, ih.mpr ⟨whole, apart⟩, ⟨rfl, rfl⟩, rfl⟩

end Pieces

section Paths

/-- A component of a path. -/
inductive Component where
  | rootDir
  | curDir
  | parentDir
  | normal (name : List Char)
deriving DecidableEq

/-- What a path has between two slashes. A dot is a component only where it leads the path. -/
def innerComponent (piece : List Char) : Option Component :=
  if piece = [] ∨ piece = ['.'] then none
  else if piece = ['.', '.'] then some .parentDir
  else some (.normal piece)

/-- The components of a path. -/
def components (path : List Char) : List Component :=
  let pieces := path.splitOn '/'
  let leading : List Component :=
    if path.head? = some '/' then [.rootDir]
    else if pieces.head? = some ['.'] then [.curDir]
    else []
  leading ++ pieces.filterMap innerComponent

/-- Whether a component is a name. -/
def Component.isNormal : Component → Bool
  | .normal _ => true
  | _ => false

/-- Whether a path starts at the root. -/
def isAbsolute (path : List Char) : Bool := path.head? == some '/'

/-- A path with names only is not absolute. -/
theorem not_absolute_of_normal {path : List Char}
    (normal : ∀ component ∈ components path, component.isNormal = true) :
    isAbsolute path = false := by
  by_contra absolute
  have rooted : path.head? = some '/' := by simpa [isAbsolute] using absolute
  have root : Component.rootDir ∈ components path := by simp [components, rooted]
  exact absurd (normal _ root) (by decide)

end Paths

end Usdd.Foundation
