import Mathlib.Data.List.DropRight

/-! # Unit files

Sections of assignments, as a service manager reads them. A line that ends in a backslash goes on
in the next one, with a blank for the backslash and the line break between them. Comments are
left out before lines are put together.
-/

namespace UnitFile

/-! ## Reading -/

def isBlank (c : Char) : Bool := c == ' ' || c == '\t' || c == '\n' || c == '\r'

def strip (cs : List Char) : List Char := (cs.dropWhile isBlank).rdropWhile isBlank

/-- The first character that is no blank opens a comment. -/
def isComment (line : List Char) : Bool :=
  (line.dropWhile isBlank).head?.any fun c => c == '#' || c == ';'

/-- The line ends in a backslash that no other one escapes. -/
def goesOn (line : List Char) : Bool :=
  line.foldl (fun escaped c => !escaped && c == '\\') false

/-- The lines as they go on, behind what went before. -/
def logical (pending : List Char) : List (List Char) → List (List Char)
  | [] => if pending = [] then [] else [pending]
  | line :: lines =>
      if isComment line then logical pending lines
      else if goesOn (pending ++ line) then logical ((pending ++ line).dropLast ++ [' ']) lines
      else (pending ++ line) :: logical [] lines

/-- A value, its key and its section. -/
structure Entry where
  name : List Char
  key : List Char
  value : List Char
  deriving DecidableEq

/-- A line with no key, or outside any section, is passed over; a section header that is not
closed makes the file invalid. -/
def entries (name : Option (List Char)) : List (List Char) → Option (List Entry)
  | [] => some []
  | line :: lines =>
      match strip line with
      | [] => entries name lines
      | c :: cs =>
          if c = '[' then
            if cs.getLast? = some ']' then entries (some cs.dropLast) lines else none
          else
            let key := (c :: cs).takeWhile (· != '=')
            let value := ((c :: cs).dropWhile (· != '=')).drop 1
            match name with
            | none => entries name lines
            | some section' =>
                if '=' ∉ c :: cs ∨ key = [] then entries name lines
                else (entries name lines).map (⟨section', strip key, strip value⟩ :: ·)

def read (text : List Char) : Option (List Entry) :=
  entries none (logical [] (text.splitOn '\n'))

/-- What quotes, escapes, variables, specifiers and separators are written with. -/
def isMagic (c : Char) : Bool :=
  c == '"' || c == '\'' || c == '\\' || c == '%' || c == '$' || c == ';'

def isFlag (c : Char) : Bool := c == '@' || c == '-' || c == ':' || c == '+' || c == '!' || c == '|'

def words (cs : List Char) : List (List Char) := (cs.splitOnP isBlank).filter (· ≠ [])

/-- The arguments of a command line in which nothing is quoted, expanded or separated, and whose
program has no flags before its path. -/
def argv? (value : List Char) : Option (List (List Char)) :=
  if value.any isMagic || value.head?.any isFlag then none else some (words value)

/-! ## Writing -/

/-- An assignment, the value of which may go on over more lines. -/
structure Setting where
  key : List Char
  first : List Char
  more : List (List Char) := []

namespace Setting

/-- The pieces, with the blanks that come between them. -/
def value (a : Setting) : List Char :=
  a.more.foldl (fun value piece => value ++ ([' ', ' ', ' ', ' '] ++ piece)) a.first

theorem value_eq (a : Setting) :
    a.value = a.first ++ a.more.flatMap ([' ', ' ', ' ', ' '] ++ ·) := by
  have hfold : ∀ (pieces : List (List Char)) (start : List Char),
      pieces.foldl (fun value piece => value ++ ([' ', ' ', ' ', ' '] ++ piece)) start =
        start ++ pieces.flatMap ([' ', ' ', ' ', ' '] ++ ·) := by
    intro pieces
    induction pieces with
    | nil => simp
    | cons piece pieces ih =>
        intro start
        rw [List.foldl_cons, ih, List.flatMap_cons, List.append_assoc]
  exact hfold a.more a.first

end Setting

/-- A line and those it goes on in. -/
def linesFrom (line : List Char) : List (List Char) → List (List Char)
  | [] => [line]
  | piece :: pieces => (line ++ [' ', '\\']) :: linesFrom ([' ', ' '] ++ piece) pieces

structure Part where
  name : List Char
  assignments : List Setting

def Setting.lines (a : Setting) : List (List Char) :=
  linesFrom (a.key ++ '=' :: a.first) a.more

def Part.lines (part : Part) : List (List Char) :=
  ('[' :: part.name ++ [']']) :: part.assignments.flatMap Setting.lines ++ [[]]

/-- The parts, and empty lines behind them. -/
def write (parts : List Part) (blanks : Nat) : List Char :=
  ['\n'].intercalate (parts.flatMap Part.lines ++ List.replicate blanks [])

def Part.entries (part : Part) : List Entry :=
  part.assignments.map fun a => ⟨part.name, a.key, a.value⟩

/-! ## What can be written -/

/-- A word of letters, such as keys and section names are. -/
def Letters (cs : List Char) : Prop := cs ≠ [] ∧ ∀ c ∈ cs, c.isAlpha = true

instance (cs : List Char) : Decidable (Letters cs) :=
  -- the characters of the word are checked, not all characters there are
  @instDecidableAnd _ _ inferInstance (List.decidableBAll _ _)

/-- Text that stays in its line and does not escape its end. -/
def Inline (cs : List Char) : Prop := '\n' ∉ cs ∧ '\\' ∉ cs

instance (cs : List Char) : Decidable (Inline cs) := inferInstanceAs (Decidable (_ ∧ _))

structure Setting.Plain (a : Setting) : Prop where
  key : Letters a.key
  first : Inline a.first
  more : ∀ piece ∈ a.more, Inline piece ∧ isComment piece = false
  trimmed : strip a.value = a.value

structure Part.Plain (part : Part) : Prop where
  name : Letters part.name
  assignments : ∀ a ∈ part.assignments, a.Plain

/-! ## Lines -/

theorem Letters.not_mem {cs : List Char} (h : Letters cs) {c : Char} (hc : c.isAlpha = false) :
    c ∉ cs := by
  intro hmem
  rw [h.2 c hmem] at hc
  cases hc

theorem Letters.inline {cs : List Char} (h : Letters cs) : Inline cs :=
  ⟨h.not_mem (by decide), h.not_mem (by decide)⟩

theorem isBlank_of_isAlpha {c : Char} (h : c.isAlpha = true) : isBlank c = false := by
  by_contra hblank
  simp only [isBlank, Bool.or_eq_true, beq_iff_eq, Bool.not_eq_false] at hblank
  rcases hblank with ((rfl | rfl) | rfl) | rfl
  all_goals revert h; decide

theorem Inline.append {cs ds : List Char} (h : Inline cs) (h' : Inline ds) :
    Inline (cs ++ ds) := by
  simp only [Inline, List.mem_append, not_or]
  exact ⟨⟨h.1, h'.1⟩, h.2, h'.2⟩

theorem goesOn_concat (cs : List Char) (c : Char) :
    goesOn (cs ++ [c]) = (!goesOn cs && c == '\\') := by
  simp [goesOn]

theorem goesOn_of_inline {cs : List Char} (h : Inline cs) : goesOn cs = false := by
  induction cs using List.reverseRecOn with
  | nil => rfl
  | append_singleton cs c ih =>
      have hc : c ≠ '\\' := fun heq => h.2 (by simp [heq])
      rw [goesOn_concat]
      simp [hc]

theorem goesOn_backslash {cs : List Char} (h : Inline cs) : goesOn (cs ++ ['\\']) = true := by
  rw [goesOn_concat, goesOn_of_inline h]
  rfl

theorem isComment_blank {c : Char} (h : isBlank c = true) (cs : List Char) :
    isComment (c :: cs) = isComment cs := by
  rw [isComment, List.dropWhile_cons_of_pos h, isComment]

theorem isComment_cons {c : Char} (h : isBlank c = false) (hc : (c == '#' || c == ';') = false)
    (cs : List Char) : isComment (c :: cs) = false := by
  rw [isComment, List.dropWhile_cons_of_neg (by simp [h])]
  simpa using hc

/-- More characters behind a line that is no comment do not make it one. -/
theorem isComment_append {cs : List Char} (h : isComment cs = false) (c : Char)
    (hblank : isBlank c = true) (ds : List Char)
    (hds : isComment ds = false) : isComment (cs ++ c :: ds) = false := by
  induction cs with
  | nil =>
      rw [List.nil_append, isComment_blank hblank]
      exact hds
  | cons d cs ih =>
      cases hd : isBlank d with
      | true =>
          rw [isComment_blank hd] at h
          rw [List.cons_append, isComment_blank hd]
          exact ih h
      | false =>
          rw [isComment, List.dropWhile_cons_of_neg (by simp [hd])] at h
          rw [List.cons_append]
          exact isComment_cons hd (by simpa using h) _

/-- What goes on over several lines is one. -/
theorem logical_linesFrom {pending line : List Char} {pieces rest : List (List Char)}
    (hpending : Inline pending) (hline : Inline line) (hfirst : isComment line = false)
    (hpieces : ∀ piece ∈ pieces, Inline piece ∧ isComment piece = false) :
    logical pending (linesFrom line pieces ++ rest) =
      (pending ++ line ++ pieces.flatMap ([' ', ' ', ' ', ' '] ++ ·)) :: logical [] rest := by
  induction pieces generalizing pending line with
  | nil =>
      rw [linesFrom, List.singleton_append, logical, if_neg (by simp [hfirst]),
        if_neg (by simp [goesOn_of_inline (hpending.append hline)])]
      simp
  | cons piece pieces ih =>
      have hpiece := hpieces piece (by simp)
      have hblank : Inline [' '] := by decide
      have hlonger : Inline (pending ++ line ++ [' ']) := (hpending.append hline).append hblank
      have hcomment : isComment (line ++ [' ', '\\']) = false :=
        isComment_append hfirst ' ' (by decide) ['\\'] (by decide)
      have hwhole : pending ++ (line ++ [' ', '\\']) = (pending ++ line ++ [' ']) ++ ['\\'] := by
        simp
      have hon : goesOn (pending ++ (line ++ [' ', '\\'])) = true := by
        rw [hwhole]
        exact goesOn_backslash hlonger
      have hdrop : (pending ++ (line ++ [' ', '\\'])).dropLast = pending ++ line ++ [' '] := by
        rw [hwhole, List.dropLast_concat]
      have hnext : isComment ([' ', ' '] ++ piece) = false := by
        rw [List.cons_append, isComment_blank (by decide), List.cons_append,
          isComment_blank (by decide)]
        exact hpiece.2
      rw [linesFrom, List.cons_append, logical, if_neg (by simp [hcomment]), if_pos hon, hdrop,
        ih (hlonger.append hblank) ((show Inline [' ', ' '] by decide).append hpiece.1) hnext
          fun p hp => hpieces p (by simp [hp])]
      simp

/-! ## Entries -/

theorem Letters.exists_cons {cs : List Char} (h : Letters cs) :
    ∃ c rest, cs = c :: rest ∧ c.isAlpha = true := by
  cases cs with
  | nil => exact (h.1 rfl).elim
  | cons c rest => exact ⟨c, rest, rfl, h.2 c (by simp)⟩

theorem rdropWhile_append_cons {p : Char → Bool} {c : Char} (hc : p c = false)
    (cs ds : List Char) :
    (cs ++ c :: ds).rdropWhile p = cs ++ c :: ds.rdropWhile p := by
  induction ds using List.reverseRecOn with
  | nil =>
      have hlast : (cs ++ [c]).rdropWhile p = cs ++ [c] := by
        rw [List.rdropWhile_concat_neg _ _ _ (by simp [hc])]
      simpa using hlast
  | append_singleton ds d ih =>
      rw [← List.cons_append, ← List.append_assoc]
      by_cases hd : p d = true
      · rw [List.rdropWhile_concat_pos _ _ _ hd, ih, List.rdropWhile_concat_pos _ _ _ hd]
      · rw [List.rdropWhile_concat_neg _ _ _ hd, List.rdropWhile_concat_neg _ _ _ hd]
        simp

theorem strip_of_ends {cs : List Char} (hfirst : ∀ c ∈ cs.head?, isBlank c = false)
    (hlast : ∀ c ∈ cs.getLast?, isBlank c = false) : strip cs = cs := by
  cases cs with
  | nil => rfl
  | cons c cs =>
      have hc : isBlank c = false := hfirst c rfl
      rw [strip, List.dropWhile_cons_of_neg (by simp [hc]), List.rdropWhile_eq_self_iff]
      intro hne
      simp [hlast _ (List.getLast?_eq_some_getLast hne)]

theorem strip_of_word {cs : List Char} (h : ∀ c ∈ cs, isBlank c = false) : strip cs = cs :=
  strip_of_ends (fun c hc => h c (List.mem_of_head? hc)) fun c hc => h c (List.mem_of_getLast? hc)

theorem Letters.strip {cs : List Char} (h : Letters cs) : strip cs = cs :=
  strip_of_word fun c hc => isBlank_of_isAlpha (h.2 c hc)

/-- Stripping a value at its end does not change what it is stripped to. -/
theorem strip_rdropWhile (cs : List Char) : strip (cs.rdropWhile isBlank) = strip cs := by
  induction cs with
  | nil => rfl
  | cons c cs ih =>
      cases hc : isBlank c with
      | false =>
          have hkept : (c :: cs).rdropWhile isBlank = c :: cs.rdropWhile isBlank := by
            simpa using rdropWhile_append_cons hc [] cs
          rw [hkept, strip, List.dropWhile_cons_of_neg (by simp [hc]), ← hkept,
            List.rdropWhile_idempotent, strip, List.dropWhile_cons_of_neg (by simp [hc])]
      | true =>
          have hrest : strip (c :: cs) = strip cs := by
            rw [strip, List.dropWhile_cons_of_pos hc, strip]
          rw [hrest, ← ih]
          by_cases hall : ∀ d ∈ cs, isBlank d = true
          · have hnil : (c :: cs).rdropWhile isBlank = [] := by
              rw [List.rdropWhile_eq_nil_iff]
              simpa [hc] using hall
            have hnil' : cs.rdropWhile isBlank = [] := List.rdropWhile_eq_nil_iff.mpr hall
            rw [hnil, hnil']
          · push Not at hall
            rcases hall with ⟨d, hd, hblank⟩
            rcases List.append_of_mem hd with ⟨before, after, rfl⟩
            have hd' : isBlank d = false := by simpa using hblank
            rw [rdropWhile_append_cons hd', ← List.cons_append, rdropWhile_append_cons hd',
              List.cons_append, strip, List.dropWhile_cons_of_pos hc, strip]

theorem entries_nil_line {name : Option (List Char)} (lines : List (List Char)) :
    entries name ([] :: lines) = entries name lines := by
  rw [entries]
  rfl

theorem entries_header {name : Option (List Char)} (part : List Char)
    (lines : List (List Char)) :
    entries name (('[' :: part ++ [']']) :: lines) = entries (some part) lines := by
  have hstrip : strip ('[' :: part ++ [']']) = '[' :: (part ++ [']']) := by
    refine strip_of_ends (fun c hc => ?_) fun c hc => ?_
    · cases hc
      rfl
    · rw [List.getLast?_concat] at hc
      cases hc
      rfl
  rw [entries, hstrip]
  simp

/-- An assignment is read as it was written. -/
theorem entries_assignment {part key value : List Char} (hkey : Letters key)
    (hvalue : strip value = value) (lines : List (List Char)) :
    entries (some part) ((key ++ '=' :: value) :: lines) =
      (entries (some part) lines).map (⟨part, key, value⟩ :: ·) := by
  rcases hkey.exists_cons with ⟨c, rest, hcons, hc⟩
  have hstrip : strip (key ++ '=' :: value) = key ++ '=' :: value.rdropWhile isBlank := by
    have hblank : ¬ isBlank c = true := by simp [isBlank_of_isAlpha hc]
    have hhead : (key ++ '=' :: value).dropWhile isBlank = key ++ '=' :: value := by
      rw [hcons, List.cons_append, List.dropWhile_cons_of_neg hblank]
    rw [strip, hhead, rdropWhile_append_cons (by decide)]
  have hother : ∀ d ∈ key, (d != '=') = true := fun d hd => by
    rw [bne_iff_ne]
    rintro rfl
    exact hkey.not_mem (by decide) hd
  have hbracket : c ≠ '[' := by
    rintro rfl
    revert hc
    decide
  have htake : (key ++ '=' :: value.rdropWhile isBlank).takeWhile (· != '=') = key := by
    rw [List.takeWhile_append_of_pos hother]
    simp
  have hdrop : (key ++ '=' :: value.rdropWhile isBlank).dropWhile (· != '=') =
      '=' :: value.rdropWhile isBlank := by
    rw [List.dropWhile_append_of_pos hother]
    simp
  have hmem : '=' ∈ key ++ '=' :: value.rdropWhile isBlank := by simp
  have hne : key ≠ [] := hkey.1
  rw [entries, hstrip]
  subst hcons
  rw [List.cons_append] at htake hdrop hmem
  simp only [List.cons_append, if_neg hbracket, htake, hdrop, List.drop_one, List.tail_cons, hmem,
    not_true_eq_false, hne, or_self, if_false, strip_rdropWhile, hvalue, hkey.strip]

/-! ## Round trip -/

theorem Setting.Plain.not_comment {a : Setting} (h : a.Plain) :
    isComment (a.key ++ '=' :: a.first) = false := by
  rcases h.key.exists_cons with ⟨c, rest, hcons, hc⟩
  rw [hcons, List.cons_append]
  refine isComment_cons (isBlank_of_isAlpha hc) ?_ _
  by_contra hcomment
  simp only [Bool.or_eq_true, beq_iff_eq, Bool.not_eq_false] at hcomment
  rcases hcomment with rfl | rfl
  all_goals revert hc; decide

/-- One logical line an assignment. -/
theorem logical_assignment {a : Setting} (h : a.Plain) (rest : List (List Char)) :
    logical [] (a.lines ++ rest) = (a.key ++ '=' :: a.value) :: logical [] rest := by
  have hline : Inline (a.key ++ '=' :: a.first) :=
    h.key.inline.append ((show Inline ['='] by decide).append h.first)
  rw [Setting.lines, logical_linesFrom (by decide) hline h.not_comment h.more]
  simp [Setting.value_eq]

theorem logical_assignments {assignments : List Setting}
    (h : ∀ a ∈ assignments, a.Plain) (rest : List (List Char)) :
    logical [] (assignments.flatMap Setting.lines ++ rest) =
      assignments.map (fun a => a.key ++ '=' :: a.value) ++ logical [] rest := by
  induction assignments with
  | nil => rfl
  | cons a assignments ih =>
      rw [List.flatMap_cons, List.append_assoc, logical_assignment (h a (by simp)),
        ih fun b hb => h b (by simp [hb])]
      rfl

theorem entries_assignments {part : List Char} {assignments : List Setting}
    (h : ∀ a ∈ assignments, a.Plain) (lines : List (List Char)) :
    entries (some part) (assignments.map (fun a => a.key ++ '=' :: a.value) ++ lines) =
      (entries (some part) lines).map
        (assignments.map (fun a => ⟨part, a.key, a.value⟩) ++ ·) := by
  induction assignments with
  | nil => simp
  | cons a assignments ih =>
      have ha := h a (by simp)
      rw [List.map_cons, List.cons_append, entries_assignment ha.key ha.trimmed,
        ih fun b hb => h b (by simp [hb]), Option.map_map]
      rfl

theorem entries_blanks (name : Option (List Char)) (blanks : Nat) :
    entries name (logical [] (List.replicate blanks [])) = some [] := by
  induction blanks with
  | zero => rfl
  | succ blanks ih =>
      have hempty : logical [] (List.replicate (blanks + 1) []) =
          [] :: logical [] (List.replicate blanks []) := rfl
      rw [hempty, entries_nil_line, ih]

theorem entries_parts {parts : List Part} (h : ∀ part ∈ parts, part.Plain)
    (name : Option (List Char)) (blanks : Nat) :
    entries name (logical [] (parts.flatMap Part.lines ++ List.replicate blanks [])) =
      some (parts.flatMap Part.entries) := by
  induction parts generalizing name with
  | nil => exact entries_blanks name blanks
  | cons part parts ih =>
      have hpart := h part (by simp)
      have hbracket : Inline ('[' :: part.name ++ [']']) :=
        ((show Inline ['['] by decide).append hpart.name.inline).append (by decide)
      have hheader : ∀ rest, logical [] (('[' :: part.name ++ [']']) :: rest) =
          ('[' :: part.name ++ [']']) :: logical [] rest := by
        intro rest
        have hcomment : isComment ('[' :: part.name ++ [']']) = false :=
          isComment_cons (by decide) (by decide) _
        have hlines : logical [] (linesFrom ('[' :: part.name ++ [']']) [] ++ rest) = _ :=
          logical_linesFrom (by decide) hbracket hcomment (by simp)
        simpa [linesFrom] using hlines
      have hempty : ∀ rest, logical [] ([] :: rest) = [] :: logical [] rest := fun rest => rfl
      rw [List.flatMap_cons, Part.lines, List.cons_append, List.cons_append, List.cons_append,
        hheader, List.append_assoc, List.append_assoc, logical_assignments hpart.assignments,
        List.singleton_append, hempty, entries_header, entries_assignments hpart.assignments,
        entries_nil_line, ih (fun p hp => h p (by simp [hp])) (some part.name)]
      rfl

theorem not_mem_linesFrom {line : List Char} {pieces : List (List Char)} (h : '\n' ∉ line)
    (hpieces : ∀ piece ∈ pieces, '\n' ∉ piece) : ∀ l ∈ linesFrom line pieces, '\n' ∉ l := by
  induction pieces generalizing line with
  | nil => simpa [linesFrom] using h
  | cons piece pieces ih =>
      intro l hl
      rcases List.mem_cons.mp hl with rfl | hl
      · simpa using h
      · refine ih ?_ (fun p hp => hpieces p (by simp [hp])) l hl
        simpa using hpieces piece (by simp)

theorem Part.Plain.not_mem {part : Part} (h : part.Plain) : ∀ l ∈ part.lines, '\n' ∉ l := by
  intro l hl
  rcases List.mem_append.mp hl with hl | hl
  · rcases List.mem_cons.mp hl with rfl | hl
    · simpa using h.name.inline.1
    · rcases List.mem_flatMap.mp hl with ⟨a, ha, hl⟩
      have hplain := h.assignments a ha
      refine not_mem_linesFrom ?_ (fun piece hp => (hplain.more piece hp).1.1) l hl
      simpa using ⟨hplain.key.inline.1, hplain.first.1⟩
  · rw [List.mem_singleton.mp hl]
    simp

/-- A file is read as it was written. -/
theorem read_write {parts : List Part} (hne : parts ≠ []) (h : ∀ part ∈ parts, part.Plain)
    (blanks : Nat) : read (write parts blanks) = some (parts.flatMap Part.entries) := by
  have hlines : parts.flatMap Part.lines ++ List.replicate blanks [] ≠ [] := by
    rcases List.exists_cons_of_ne_nil hne with ⟨part, rest, rfl⟩
    simp [Part.lines]
  have hsplit : (write parts blanks).splitOn '\n' =
      parts.flatMap Part.lines ++ List.replicate blanks [] := by
    refine List.splitOn_intercalate '\n' (fun l hl => ?_) hlines
    rcases List.mem_append.mp hl with hl | hl
    · rcases List.mem_flatMap.mp hl with ⟨part, hpart, hl⟩
      exact (h part hpart).not_mem l hl
    · rw [List.eq_of_mem_replicate hl]
      simp
  rw [read, hsplit, entries_parts h]

/-! ## Arguments -/

theorem words_append_cons {c : Char} (h : isBlank c = true) (cs ds : List Char) :
    words (cs ++ c :: ds) = words cs ++ words ds := by
  rw [words, List.splitOnP_append_cons _ _ h, List.filter_append, words, words]

theorem words_cons {c : Char} (h : isBlank c = true) (cs : List Char) :
    words (c :: cs) = words cs := by
  have hnil : words [] = [] := rfl
  simpa [hnil] using words_append_cons h [] cs

theorem words_value (first : List Char) (more : List (List Char)) :
    words (first ++ more.flatMap ([' ', ' ', ' ', ' '] ++ ·)) =
      words first ++ more.flatMap words := by
  induction more generalizing first with
  | nil => simp
  | cons piece more ih =>
      have hblank : isBlank ' ' = true := rfl
      rw [List.flatMap_cons, List.flatMap_cons, List.cons_append, List.cons_append,
        words_append_cons hblank]
      simp only [List.cons_append, List.nil_append, words_cons hblank] at ih ⊢
      rw [ih]

/-- The arguments are the words of the pieces. -/
theorem argv?_value {a : Setting} (hmagic : ∀ piece ∈ a.first :: a.more, ∀ c ∈ piece,
    isMagic c = false) (hflag : ∃ c ∈ a.first.head?, isFlag c = false) :
    argv? a.value = some ((a.first :: a.more).flatMap words) := by
  rcases hflag with ⟨c, hc, hflag⟩
  have hnone : ∀ d ∈ a.value, isMagic d = false := by
    intro d hd
    rw [a.value_eq] at hd
    rcases List.mem_append.mp hd with hd | hd
    · exact hmagic _ (by simp) d hd
    · rcases List.mem_flatMap.mp hd with ⟨piece, hpiece, hd⟩
      rcases List.mem_append.mp hd with hd | hd
      · have hspace : d = ' ' := by simpa using hd
        rw [hspace]
        rfl
      · exact hmagic piece (by simp [hpiece]) d hd
  have hany : a.value.any isMagic = false := List.any_eq_false.mpr fun d hd => by
    simp [hnone d hd]
  have hhead : a.value.head?.any isFlag = false := by
    rw [a.value_eq, List.head?_append, hc]
    simpa using hflag
  rw [argv?, hany, hhead, if_neg (by simp), a.value_eq, words_value, List.flatMap_cons]

/-! ## Texts -/

def Setting.text (a : Setting) : List Char :=
  a.key ++ '=' :: (a.first ++ a.more.flatMap ([' ', '\\', '\n', ' ', ' '] ++ ·)) ++ ['\n']

def Part.text (part : Part) : List Char :=
  '[' :: part.name ++ ']' :: '\n' :: part.assignments.flatMap Setting.text ++ ['\n']

theorem intercalate_linesFrom (line : List Char) (pieces : List (List Char))
    {rest : List (List Char)} (hrest : rest ≠ []) :
    ['\n'].intercalate (linesFrom line pieces ++ rest) =
      line ++ pieces.flatMap ([' ', '\\', '\n', ' ', ' '] ++ ·) ++
        '\n' :: ['\n'].intercalate rest := by
  induction pieces generalizing line with
  | nil =>
      rw [linesFrom, List.singleton_append, List.intercalate_cons_of_ne_nil hrest]
      simp
  | cons piece pieces ih =>
      rw [linesFrom, List.cons_append, List.intercalate_cons_of_ne_nil (by simp [hrest]), ih]
      simp

theorem intercalate_assignments (assignments : List Setting) {rest : List (List Char)}
    (hrest : rest ≠ []) :
    ['\n'].intercalate (assignments.flatMap Setting.lines ++ rest) =
      assignments.flatMap Setting.text ++ ['\n'].intercalate rest := by
  induction assignments with
  | nil => rfl
  | cons a assignments ih =>
      rw [List.flatMap_cons, List.append_assoc, Setting.lines,
        intercalate_linesFrom _ _ (by simp [hrest]), ih]
      simp [Setting.text]

/-- With an empty line behind them, the texts of the parts follow one another. -/
theorem write_one (parts : List Part) : write parts 1 = parts.flatMap Part.text := by
  unfold write
  induction parts with
  | nil => rfl
  | cons part parts ih =>
      have hrest : parts.flatMap Part.lines ++ List.replicate 1 [] ≠ [] := by simp
      rw [List.flatMap_cons, List.flatMap_cons, Part.lines, List.append_assoc, List.append_assoc,
        List.cons_append, List.intercalate_cons_of_ne_nil (by simp),
        intercalate_assignments _ (by simp), List.singleton_append,
        List.intercalate_cons_of_ne_nil hrest, ih]
      simp [Part.text]

end UnitFile
