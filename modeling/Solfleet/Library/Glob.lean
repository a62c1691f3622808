import Mathlib.Data.List.Infix

/-! # Shell-style name patterns

Python's `fnmatch` on a case-sensitive host. A pattern is first read into tokens,
with the translator's own treatment of bracket expressions (a leading `!`, a
`]` in first place, ranges, ranges that run backwards), and the tokens are then
matched against the whole name. `.` in the translator's regular expressions
matches every character, newlines included.
-/

namespace Glob

inductive Token where
  | star
  | any
  | lit (c : Char)
  | oneOf (negated : Bool) (singles : List Char) (ranges : List (Char × Char))
  deriving DecidableEq, Repr

/-! ## Bracket expressions -/

/-- The text after `[` up to its closing bracket, and the rest of the pattern.
A `]` that comes first, or first after `!`, does not close. -/
def bracket (cs : List Char) : Option (List Char × List Char) :=
  let lead :=
    match cs with
    | '!' :: ']' :: _ => 2
    | '!' :: _ => 1
    | ']' :: _ => 1
    | _ => 0
  let body := (cs.drop lead).takeWhile (· != ']')
  match (cs.drop lead).dropWhile (· != ']') with
  | [] => none
  | _ :: rest => some (cs.take lead ++ body, rest)

/-- Split at the hyphens that make a range: the first no earlier than `offset`,
each next one no earlier than two characters after the one before. -/
def chunksAux : Nat → Nat → List Char → List (List Char)
  | 0, _, cs => [cs]
  | fuel + 1, offset, cs =>
      match (cs.drop offset).findIdx? (· == '-') with
      | none => [cs]
      | some k => cs.take (offset + k) :: chunksAux fuel 2 (cs.drop (offset + k + 1))

/-- A last hyphen with nothing after it is an ordinary character. -/
def closeChunks : List (List Char) → List (List Char)
  | [c, []] => [c ++ ['-']]
  | c :: rest => c :: closeChunks rest
  | [] => []

def chunks (stuff : List Char) : List (List Char) :=
  if stuff.contains '-' then
    closeChunks (chunksAux stuff.length (if stuff.head? = some '!' then 2 else 1) stuff)
  else [stuff]

/-- Two neighbouring chunks whose range runs backwards lose its end points. -/
def dropEmptyRange (c : List Char) : List (List Char) → List (List Char)
  | d :: rest =>
      match c.getLast?, d.head? with
      | some hi, some lo => if lo < hi then (c.dropLast ++ d.tail) :: rest else c :: d :: rest
      | _, _ => c :: d :: rest
  | [] => [c]

def ranges : List (List Char) → List (Char × Char)
  | c :: d :: rest =>
      match c.getLast?, d.head? with
      | some lo, some hi => (lo, hi) :: ranges (d :: rest)
      | _, _ => ranges (d :: rest)
  | _ => []

def bracketToken (stuff : List Char) : Token :=
  match (chunks stuff).foldr dropEmptyRange [] with
  | ('!' :: c) :: rest => .oneOf true (c ++ rest.flatten) (ranges (c :: rest))
  | cs => .oneOf false cs.flatten (ranges cs)

/-! ## Patterns -/

/-- Each step consumes at least one character of the pattern, so its length is
enough fuel. -/
def tokensAux : Nat → List Char → List Token
  | 0, _ => []
  | _ + 1, [] => []
  | fuel + 1, '*' :: cs => .star :: tokensAux fuel cs
  | fuel + 1, '?' :: cs => .any :: tokensAux fuel cs
  | fuel + 1, '[' :: cs =>
      match bracket cs with
      | none => .lit '[' :: tokensAux fuel cs
      | some (stuff, rest) => bracketToken stuff :: tokensAux fuel rest
  | fuel + 1, c :: cs => .lit c :: tokensAux fuel cs

def tokens (pattern : String) : List Token := tokensAux pattern.toList.length pattern.toList

def Token.accepts : Token → Char → Bool
  | .star, _ => false
  | .any, _ => true
  | .lit c, c' => c == c'
  | .oneOf negated singles ranges, c =>
      (singles.contains c || ranges.any fun r => decide (r.1 ≤ c ∧ c ≤ r.2)) != negated

def accepts : List Token → List Char → Bool
  | [], cs => cs.isEmpty
  | .star :: ts, cs => cs.tails.any (accepts ts)
  | _ :: _, [] => false
  | t :: ts, c :: cs => t.accepts c && accepts ts cs

def fnmatch (name pattern : String) : Bool := accepts (tokens pattern) name.toList

/-! ## The names a pattern allows -/

/-- A token that lets a character into a name. -/
def Token.admits (t : Token) (c : Char) : Bool := t == .star || t.accepts c

/-- A token that no name gets past: a bracket expression without characters. -/
def Token.Dead (t : Token) : Prop := ∀ c, t.admits c = false

theorem accepts_cons_of_ne_star {t : Token} (ht : t ≠ .star) (ts : List Token) (c : Char)
    (cs : List Char) : accepts (t :: ts) (c :: cs) = (t.accepts c && accepts ts cs) := by
  cases t <;> first | exact absurd rfl ht | rfl

theorem accepts_cons_nil_of_ne_star {t : Token} (ht : t ≠ .star) (ts : List Token) :
    accepts (t :: ts) [] = false := by
  cases t <;> first | exact absurd rfl ht | rfl

theorem accepts_star_cons_iff {ts : List Token} {cs : List Char} :
    accepts (.star :: ts) cs = true ↔
      ∃ skipped rest, cs = skipped ++ rest ∧ accepts ts rest = true := by
  simp only [accepts, List.any_eq_true, List.mem_tails]
  constructor
  · rintro ⟨rest, ⟨skipped, rfl⟩, h⟩
    exact ⟨skipped, rest, rfl, h⟩
  · rintro ⟨skipped, rest, rfl, h⟩
    exact ⟨rest, ⟨skipped, rfl⟩, h⟩

/-- Every character of a name is let in by some token. -/
theorem admits_of_accepts {ts : List Token} {cs : List Char} (h : accepts ts cs = true) :
    ∀ c ∈ cs, ∃ t ∈ ts, t.admits c = true := by
  induction ts generalizing cs with
  | nil => simp_all [accepts]
  | cons t ts ih =>
      intro c hc
      by_cases ht : t = .star
      · exact ⟨t, List.mem_cons_self, by simp [Token.admits, ht]⟩
      · cases cs with
        | nil => cases hc
        | cons d cs =>
            rw [accepts_cons_of_ne_star ht, Bool.and_eq_true] at h
            obtain rfl | hc := List.mem_cons.mp hc
            · exact ⟨t, List.mem_cons_self, by simp [Token.admits, h.1]⟩
            · obtain ⟨u, hu, ha⟩ := ih h.2 c hc
              exact ⟨u, List.mem_cons_of_mem _ hu, ha⟩

theorem accepts_eq_false_of_dead {ts : List Token} {t : Token} (ht : t ∈ ts) (hdead : t.Dead)
    (cs : List Char) : accepts ts cs = false := by
  induction ts generalizing cs with
  | nil => cases ht
  | cons u ts ih =>
      by_cases hu : u = .star
      · subst hu
        obtain rfl | ht := List.mem_cons.mp ht
        · exact absurd (hdead 'a') (by decide)
        · rw [Bool.eq_false_iff, ne_eq, accepts_star_cons_iff]
          rintro ⟨skipped, rest, rfl, h⟩
          rw [ih ht] at h
          cases h
      · cases cs with
        | nil => exact accepts_cons_nil_of_ne_star hu ts
        | cons c cs =>
            rw [accepts_cons_of_ne_star hu]
            obtain rfl | ht := List.mem_cons.mp ht
            · have hc := hdead c
              simp only [Token.admits, Bool.or_eq_false_iff] at hc
              rw [hc.2, Bool.false_and]
            · rw [ih ht, Bool.and_false]

/-- Without dead tokens a pattern allows a name, and whatever a token admits occurs in one. -/
theorem exists_accepts {ts : List Token} (h : ∀ t ∈ ts, ¬ t.Dead) :
    (∃ cs, accepts ts cs = true) ∧
      ∀ t ∈ ts, ∀ c, t.admits c = true → ∃ cs, accepts ts cs = true ∧ c ∈ cs := by
  induction ts with
  | nil => exact ⟨⟨[], rfl⟩, by simp⟩
  | cons u ts ih =>
      obtain ⟨hu, hts⟩ := List.forall_mem_cons.mp h
      obtain ⟨⟨cs, hcs⟩, hmem⟩ := ih hts
      -- whatever `u` admits can stand before any name the rest allows
      have hlead : ∀ c, u.admits c = true → ∀ cs, accepts ts cs = true →
          accepts (u :: ts) (c :: cs) = true := by
        intro c hc cs hcs
        by_cases hstar : u = .star
        · subst hstar
          exact accepts_star_cons_iff.mpr ⟨[c], cs, rfl, hcs⟩
        · rw [accepts_cons_of_ne_star hstar, hcs, Bool.and_true]
          simpa [Token.admits, hstar] using hc
      obtain ⟨d, hd⟩ : ∃ d, u.admits d = true := by
        simpa [Token.Dead] using hu
      refine ⟨⟨d :: cs, hlead d hd cs hcs⟩, List.forall_mem_cons.mpr ⟨fun c hc => ?_, ?_⟩⟩
      · exact ⟨c :: cs, hlead c hc cs hcs, List.mem_cons_self⟩
      · intro t ht c hc
        obtain ⟨cs, hcs, hin⟩ := hmem t ht c hc
        exact ⟨d :: cs, hlead d hd cs hcs, List.mem_cons_of_mem _ hin⟩

end Glob
