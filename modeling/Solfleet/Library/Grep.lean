import Solfleet.Library.Text

/-! # Basic regular expressions without repetition

The patterns `grep` reads whose only operator is the dot. A pattern carries the proof
that it holds no other operator, no line break and no anchor, so the matcher needs none.
-/

namespace Grep

/-- What repeats, opens a bracket expression, escapes or separates patterns. -/
def operators : List Char := ['*', '[', '\\', '\n']

/-- `^` and `$` are anchors at the ends only. -/
structure Pattern where
  text : String
  plain : ∀ c ∈ text.toList, c ∉ operators
  start : text.toList.head? ≠ some '^'
  stop : text.toList.getLast? ≠ some '$'

/-- A dot stands for any character of a line. -/
def charMatches (p c : Char) : Bool := p == '.' || p == c

def atFront : List Char → List Char → Bool
  | [], _ => true
  | _ :: _, [] => false
  | p :: ps, c :: cs => charMatches p c && atFront ps cs

/-- The pattern is found somewhere in the line. -/
def Pattern.matchesLine (p : Pattern) (line : String) : Bool :=
  line.toList.tails.any (atFront p.text.toList)

theorem atFront_append (ps rest : List Char) : atFront ps (ps ++ rest) = true := by
  induction ps with
  | nil => rfl
  | cons p ps ih => simp [atFront, charMatches, ih]

theorem Pattern.matchesLine_append (p : Pattern) (a b : String) :
    p.matchesLine (a ++ p.text ++ b) = true := by
  have htail : p.text.toList ++ b.toList ∈ (a ++ p.text ++ b).toList.tails := by
    simp [List.mem_tails, String.append_assoc]
  exact List.any_eq_true.mpr ⟨_, htail, atFront_append ..⟩

end Grep
