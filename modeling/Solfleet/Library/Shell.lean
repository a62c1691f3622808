import Solfleet.Library.Text

/-! # Literal text in a command line

Where a POSIX shell takes a character as itself. A scan over the line carries the
quoting mode; a character is literal when it neither separates, operates, expands nor
quotes in that mode. Templates mark the characters that came in through a hole.
-/

namespace Shell

/-! ## The scan -/

inductive Mode where
  | bare
  | escaped
  | single
  | double
  | doubleEscaped
  deriving DecidableEq

/-- Outside quotes these separate words, operate, expand, match names or quote. White
space of any kind counts as a separator. -/
def isSpecial (c : Char) : Bool :=
  Text.isSpace c ||
    [';', '&', '|', '<', '>', '(', ')', '$', '\x60', '\\', '"', '\'', '*', '?', '[',
      '\x7b'].contains c

/-- A word that stands outside quotes for itself: nothing in it is special, and it opens
neither a comment nor the name of a home directory. -/
def BareWord (w : String) : Prop :=
  (∀ c ∈ w.toList, isSpecial c = false) ∧ w.toList.head? ≠ some '#' ∧ w.toList.head? ≠ some '~'

instance (w : String) : Decidable (BareWord w) :=
  -- the characters of the word are checked, not all characters there are
  @instDecidableAnd _ _ (List.decidableBAll _ _) inferInstance

/-- A plain word that a command reads as an operand. -/
def Operand (w : String) : Prop := BareWord w ∧ w ≠ "" ∧ w.toList.head? ≠ some '-'

instance (w : String) : Decidable (Operand w) := inferInstanceAs (Decidable (_ ∧ _))

/-- Whether a character is literal, and the mode after it. -/
def scan : Mode → Char → Bool × Mode
  | .bare, c =>
      if c = '\'' then (false, .single)
      else if c = '"' then (false, .double)
      else if c = '\\' then (false, .escaped)
      else (!isSpecial c, .bare)
  | .escaped, c => (c != '\n', .bare)
  | .single, c => if c = '\'' then (false, .bare) else (true, .single)
  | .double, c =>
      if c = '"' then (false, .bare)
      else if c = '\\' then (false, .doubleEscaped)
      else (c != '$' && c != '\x60', .double)
  | .doubleEscaped, c => (c != '\n', .double)

/-- All marked characters of a line are literal. -/
def marksLiteral : Mode → List (Char × Bool) → Bool
  | _, [] => true
  | mode, (c, marked) :: rest => (!marked || (scan mode c).1) && marksLiteral (scan mode c).2 rest

theorem scan_of_plain {c : Char} (h : isSpecial c = false) (mode : Mode) :
    (scan mode c).1 = true := by
  have hne : ∀ d, isSpecial d = true → c ≠ d := by
    rintro d hd rfl
    rw [h] at hd
    cases hd
  cases mode with
  | bare => simp [scan, hne '\'' (by decide), hne '"' (by decide), hne '\\' (by decide), h]
  | escaped => simpa [scan] using hne '\n' (by decide)
  | single => simp [scan, hne '\'' (by decide)]
  | double =>
      simp [scan, hne '"' (by decide), hne '\\' (by decide), hne '$' (by decide),
        hne '\x60' (by decide)]
  | doubleEscaped => simpa [scan] using hne '\n' (by decide)

/-- What is plain is literal wherever it stands. -/
theorem marksLiteral_of_plain {cs : List (Char × Bool)}
    (h : ∀ c ∈ cs, c.2 = true → isSpecial c.1 = false) (mode : Mode) :
    marksLiteral mode cs = true := by
  induction cs generalizing mode with
  | nil => rfl
  | cons c cs ih =>
      obtain ⟨c, marked⟩ := c
      simp only [marksLiteral, Bool.and_eq_true, Bool.or_eq_true, Bool.not_eq_true']
      refine ⟨?_, ih (fun d hd => h d (by simp [hd])) _⟩
      cases marked with
      | false => exact .inl rfl
      | true => exact .inr (scan_of_plain (h _ List.mem_cons_self rfl) mode)

/-- Outside quotes only what is plain is literal. -/
theorem plain_of_marksLiteral {cs : List Char} {rest : List (Char × Bool)}
    (h : marksLiteral .bare (cs.map (·, true) ++ rest) = true) :
    ∀ c ∈ cs, isSpecial c = false := by
  induction cs with
  | nil => simp
  | cons c cs ih =>
      simp only [List.map_cons, List.cons_append, marksLiteral, Bool.not_true, Bool.false_or,
        Bool.and_eq_true] at h
      obtain ⟨hliteral, hrest⟩ := h
      simp only [scan] at hliteral hrest
      split at hliteral
      · cases hliteral
      split at hliteral
      · cases hliteral
      split at hliteral
      · cases hliteral
      case isFalse hquote hdouble hbackslash =>
        rw [if_neg hquote, if_neg hdouble, if_neg hbackslash] at hrest
        exact List.forall_mem_cons.mpr ⟨by simpa using hliteral, ih hrest⟩

/-! ## Templates -/

inductive Piece where
  | fixed (s : String)
  | hole
  deriving DecidableEq

abbrev Template := List Piece

def Piece.fill (v : String) : Piece → String
  | .fixed s => s
  | .hole => v

def Piece.marked (v : String) : Piece → List (Char × Bool)
  | .fixed s => s.toList.map (·, false)
  | .hole => v.toList.map (·, true)

/-- The line with the holes filled. -/
def render (v : String) : Template → String
  | [] => ""
  | p :: ps => p.fill v ++ render v ps

def marked (v : String) (t : Template) : List (Char × Bool) := t.flatMap (Piece.marked v)

/-- The text of every hole is literal in the line. -/
def LiteralIn (v : String) (t : Template) : Prop := marksLiteral .bare (marked v t) = true

instance (v : String) (t : Template) : Decidable (LiteralIn v t) :=
  inferInstanceAs (Decidable (_ = _))

@[simp] theorem render_nil (v : String) : render v [] = "" := rfl

@[simp] theorem render_fixed (v s : String) (t : Template) :
    render v (.fixed s :: t) = s ++ render v t := rfl

@[simp] theorem render_hole (v : String) (t : Template) :
    render v (.hole :: t) = v ++ render v t := rfl

@[simp] theorem render_append (v : String) (t u : Template) :
    render v (t ++ u) = render v t ++ render v u := by
  induction t with
  | nil => simp
  | cons p t ih => simp [render, ih, String.append_assoc]

theorem literalIn_of_plain {v : String} (h : ∀ c ∈ v.toList, isSpecial c = false) (t : Template) :
    LiteralIn v t := by
  refine marksLiteral_of_plain (fun c hc hmarked => ?_) .bare
  obtain ⟨p, _, hp⟩ := List.mem_flatMap.mp hc
  cases p with
  | fixed s =>
      obtain ⟨d, _, rfl⟩ := List.mem_map.mp hp
      cases hmarked
  | hole =>
      obtain ⟨d, hd, rfl⟩ := List.mem_map.mp hp
      exact h d hd

/-- A hole that the scan reaches outside quotes takes plain text only. -/
theorem plain_of_literalIn {v s : String} {t : Template}
    (hbare : ∀ rest, marksLiteral .bare (s.toList.map (·, false) ++ rest) = marksLiteral .bare rest)
    (h : LiteralIn v (.fixed s :: .hole :: t)) : ∀ c ∈ v.toList, isSpecial c = false := by
  unfold LiteralIn marked at h
  simp only [List.flatMap_cons, Piece.marked] at h
  rw [hbare] at h
  exact plain_of_marksLiteral h

end Shell
