import Mathlib.Data.List.DropRight
import Mathlib.Data.List.Infix

/-! # Python text operations

The `str` methods a host program relies on, over lists of characters where the
operation is defined by a scan, with a `String` face. Character classes follow
the Unicode tables of the interpreter: `isSpace` is the whitespace `split` and
`strip` remove, `isLineBreak` the boundaries of `splitlines`, `decimal?` the
characters `int` reads and `isDigit` the larger class `isdigit` accepts.
-/

namespace Text

/-! ## Character classes -/

def inRanges (ranges : List (Nat × Nat)) (c : Char) : Bool :=
  ranges.any fun r => decide (r.1 ≤ c.toNat ∧ c.toNat ≤ r.2)

def isSpace (c : Char) : Bool :=
  inRanges [(0x09, 0x0d), (0x1c, 0x20), (0x85, 0x85), (0xa0, 0xa0), (0x1680, 0x1680),
    (0x2000, 0x200a), (0x2028, 0x2029), (0x202f, 0x202f), (0x205f, 0x205f),
    (0x3000, 0x3000)] c

def isLineBreak (c : Char) : Bool :=
  inRanges [(0x0a, 0x0d), (0x1c, 0x1e), (0x85, 0x85), (0x2028, 0x2029)] c

/-- The zeros of the runs of ten decimal digits. -/
def decimalZeros : List Nat :=
  [0x30, 0x660, 0x6f0, 0x7c0, 0x966, 0x9e6, 0xa66, 0xae6, 0xb66, 0xbe6, 0xc66, 0xce6, 0xd66,
    0xde6, 0xe50, 0xed0, 0xf20, 0x1040, 0x1090, 0x17e0, 0x1810, 0x1946, 0x19d0, 0x1a80,
    0x1a90, 0x1b50, 0x1bb0, 0x1c40, 0x1c50, 0xa620, 0xa8d0, 0xa900, 0xa9d0, 0xa9f0, 0xaa50,
    0xabf0, 0xff10, 0x104a0, 0x10d30, 0x11066, 0x110f0, 0x11136, 0x111d0, 0x112f0, 0x11450,
    0x114d0, 0x11650, 0x116c0, 0x11730, 0x118e0, 0x11950, 0x11c50, 0x11d50, 0x11da0, 0x11f50,
    0x16a60, 0x16ac0, 0x16b50, 0x1d7ce, 0x1d7d8, 0x1d7e2, 0x1d7ec, 0x1d7f6, 0x1e140, 0x1e2f0,
    0x1e4f0, 0x1e950, 0x1fbf0]

def decimal? (c : Char) : Option Nat :=
  (decimalZeros.find? fun z => decide (z ≤ c.toNat ∧ c.toNat < z + 10)).map (c.toNat - ·)

/-- Digits such as superscripts, which `isdigit` accepts and `int` does not read. -/
def isDigit (c : Char) : Bool :=
  (decimal? c).isSome ||
    inRanges [(0xb2, 0xb3), (0xb9, 0xb9), (0x1369, 0x1371), (0x19da, 0x19da), (0x2070, 0x2070),
      (0x2074, 0x2079), (0x2080, 0x2089), (0x2460, 0x2468), (0x2474, 0x247c), (0x2488, 0x2490),
      (0x24ea, 0x24ea), (0x24f5, 0x24fd), (0x24ff, 0x24ff), (0x2776, 0x277e), (0x2780, 0x2788),
      (0x278a, 0x2792), (0x10a40, 0x10a43), (0x10e60, 0x10e68), (0x11052, 0x1105a),
      (0x1f100, 0x1f10a)] c

/-! ## Scans -/

/-- `acc` is the current line, reversed; a final line break opens no new line. -/
def linesAux : List Char → List Char → List (List Char)
  | [], [] => []
  | [], acc => [acc.reverse]
  | '\r' :: '\n' :: rest, acc => acc.reverse :: linesAux rest []
  | c :: rest, acc =>
      if isLineBreak c then acc.reverse :: linesAux rest [] else linesAux rest (c :: acc)

def splitlines (s : String) : List String := (linesAux s.toList []).map String.ofList

def wordsAux : List Char → List Char → List (List Char)
  | [], [] => []
  | [], acc => [acc.reverse]
  | c :: rest, acc =>
      if isSpace c then
        if acc = [] then wordsAux rest [] else acc.reverse :: wordsAux rest []
      else wordsAux rest (c :: acc)

/-- `split()`: the maximal runs of characters that are not whitespace. -/
def split (s : String) : List String := (wordsAux s.toList []).map String.ofList

def strip (s : String) : String :=
  String.ofList ((s.toList.dropWhile isSpace).rdropWhile isSpace)

def lstrip (c : Char) (s : String) : String := String.ofList (s.toList.dropWhile (· == c))

def rstrip (c : Char) (s : String) : String := String.ofList (s.toList.rdropWhile (· == c))

/-- The text before and after the first `c`, if there is one. -/
def partition? (c : Char) (s : String) : Option (String × String) :=
  if s.toList.contains c then
    some (String.ofList (s.toList.takeWhile (· != c)),
      String.ofList ((s.toList.dropWhile (· != c)).drop 1))
  else none

def startsWith (c : Char) (s : String) : Bool := s.toList.head? == some c

def endsWith (c : Char) (s : String) : Bool := s.toList.getLast? == some c

/-- `s[:-1]` -/
def dropLast (s : String) : String := String.ofList s.toList.dropLast

def allDigits (s : String) : Bool := !s.toList.isEmpty && s.toList.all isDigit

/-- `int` on text that `isdigit` accepts: an error on a digit that is not
decimal, and beyond the interpreter's limit of 4300 digits. -/
def int? (s : String) : Option Nat :=
  if s.toList.length ≤ 4300 then
    s.toList.foldl (fun n c => do pure (10 * (← n) + (← decimal? c))) (some 0)
  else none

def join (separator : String) (parts : List String) : String := separator.intercalate parts

def contains (needle s : String) : Bool := s.toList.tails.any fun t => needle.toList.isPrefixOf t

/-! ## Paths -/

/-- `os.path.dirname` over characters: the part up to the last slash, without
its trailing slashes unless it is nothing else. -/
def dirnameChars (cs : List Char) : List Char :=
  let head := cs.rdropWhile (· != '/')
  if head.all (· == '/') then head else head.rdropWhile (· == '/')

def dirname (s : String) : String := String.ofList (dirnameChars s.toList)

/-- `os.path.join` -/
def pathJoin (a b : String) : String :=
  if startsWith '/' b then b
  else if a = "" || endsWith '/' a then a ++ b
  else a ++ "/" ++ b

/-! ## Representations -/

def hexDigit (n : Nat) : Char :=
  if n < 10 then Char.ofNat (0x30 + n) else Char.ofNat (0x57 + n)

/-- `repr` of a string; characters from U+0100 on are taken as printable. -/
def pyRepr (s : String) : String :=
  let quote := if s.toList.contains '\'' && !s.toList.contains '"' then '"' else '\''
  let escape (c : Char) : List Char :=
    if c = quote || c = '\\' then ['\\', c]
    else if c = '\n' then ['\\', 'n']
    else if c = '\r' then ['\\', 'r']
    else if c = '\t' then ['\\', 't']
    else if c.toNat < 0x20 || (0x7f ≤ c.toNat && c.toNat ≤ 0xa0) || c.toNat = 0xad then
      ['\\', 'x', hexDigit (c.toNat / 16), hexDigit (c.toNat % 16)]
    else [c]
  String.ofList ([quote] ++ s.toList.flatMap escape ++ [quote])

def pyReprOption : Option String → String
  | none => "None"
  | some s => pyRepr s

def pyReprList (xs : List String) : String := "[" ++ join ", " (xs.map pyRepr) ++ "]"

/-- `round(n / d, 1)` for a quotient that a float holds exactly: ties to even. -/
def roundTenths (n d : Nat) : String :=
  let q := 10 * n / d
  let r := 10 * n % d
  let t := if 2 * r > d || (2 * r = d && q % 2 = 1) then q + 1 else q
  toString (t / 10) ++ "." ++ toString (t % 10)

def boolText (b : Bool) : String := if b then "True" else "False"

/-- Truth value of an optional string: set and not empty. -/
def truthy : Option String → Bool
  | none => false
  | some s => s != ""

/-! ## Directories of joined paths -/

theorem rdropWhile_slash_append (d : List Char) {b : List Char} (hb : '/' ∉ b) :
    (d ++ '/' :: b).rdropWhile (· != '/') = d ++ ['/'] := by
  induction b using List.reverseRecOn with
  | nil => simp
  | append_singleton b c ih =>
      simp only [List.mem_append, List.mem_singleton, not_or] at hb
      have happ : d ++ '/' :: (b ++ [c]) = (d ++ '/' :: b) ++ [c] := by simp
      rw [happ, List.rdropWhile_concat_pos _ _ _ (by simpa using Ne.symm hb.2), ih hb.1]

theorem dirnameChars_join {d b : List Char} (hd : d ≠ []) (hlast : d.getLast hd ≠ '/')
    (hb : '/' ∉ b) : dirnameChars (d ++ '/' :: b) = d := by
  have hall : (d ++ ['/']).all (· == '/') = false := by
    rw [List.all_eq_false]
    exact ⟨d.getLast hd, by simp, by simpa using hlast⟩
  simp only [dirnameChars, rdropWhile_slash_append d hb, hall]
  rw [if_neg (by simp), List.rdropWhile_concat_pos _ _ _ (by simp),
    List.rdropWhile_eq_self_iff.mpr]
  intro _
  simpa using hlast

/-- A path is its directory joined with a name only if the directory is spelled
without a trailing slash. -/
theorem dirnameChars_of_join {d b : List Char} (hb : '/' ∉ b)
    (h : dirnameChars (d ++ '/' :: b) = d) : ∃ hd : d ≠ [], d.getLast hd ≠ '/' := by
  simp only [dirnameChars, rdropWhile_slash_append d hb] at h
  by_cases hall : (d ++ ['/']).all (· == '/') = true
  · rw [if_pos hall] at h
    have hlen := congrArg List.length h
    simp at hlen
  · rw [if_neg hall, List.rdropWhile_concat_pos _ _ _ (by simp)] at h
    have hd : d ≠ [] := by
      rintro rfl
      exact hall (by simp)
    have hself := List.rdropWhile_eq_self_iff.mp h hd
    exact ⟨hd, by simpa using hself⟩

theorem endsWith_eq_false_iff {c : Char} {s : String} :
    endsWith c s = false ↔ ∀ h : s.toList ≠ [], s.toList.getLast h ≠ c := by
  unfold endsWith
  by_cases hs : s.toList = []
  · simp [hs]
  · simp [List.getLast?_eq_some_getLast hs, hs]

theorem endsWith_rstrip (c : Char) (s : String) : endsWith c (rstrip c s) = false := by
  rw [endsWith_eq_false_iff, rstrip, String.toList_ofList]
  intro h
  simpa using List.rdropWhile_last_not (· == c) s.toList h

/-- What is stripped from the end of a text is stripped from that of a longer one. -/
theorem rstrip_append_rstrip (c : Char) (a b : String) :
    rstrip c (a ++ rstrip c b) = rstrip c (a ++ b) := by
  have hlists : ∀ l m : List Char, (l ++ m.rdropWhile (· == c)).rdropWhile (· == c) =
      (l ++ m).rdropWhile (· == c) := by
    intro l m
    induction m using List.reverseRecOn with
    | nil => rw [List.rdropWhile_nil]
    | append_singleton m x ih =>
        by_cases hx : (x == c) = true
        · rw [List.rdropWhile_concat_pos (· == c) m x hx, ih, ← List.append_assoc,
            List.rdropWhile_concat_pos (· == c) (l ++ m) x hx]
        · rw [List.rdropWhile_concat_neg (· == c) m x hx]
  rw [rstrip, rstrip, rstrip, String.toList_append, String.toList_append, String.toList_ofList,
    hlists]

/-- What precedes the first `c`, and what follows it. -/
theorem append_cons_inj {α : Type} {c : α} {xs xs' ys ys' : List α} (hx : c ∉ xs) (hx' : c ∉ xs')
    (h : xs ++ c :: ys = xs' ++ c :: ys') : xs = xs' ∧ ys = ys' := by
  induction xs generalizing xs' with
  | nil =>
      cases xs' with
      | nil => exact ⟨rfl, (List.cons.inj h).2⟩
      | cons x' xs' =>
          obtain ⟨rfl, _⟩ := List.cons.inj h
          exact (hx' List.mem_cons_self).elim
  | cons x xs ih =>
      cases xs' with
      | nil =>
          obtain ⟨rfl, _⟩ := List.cons.inj h
          exact (hx List.mem_cons_self).elim
      | cons x' xs' =>
          obtain ⟨rfl, htail⟩ := List.cons.inj h
          rw [List.mem_cons, not_or] at hx hx'
          obtain ⟨rfl, rfl⟩ := ih hx.2 hx'.2 htail
          exact ⟨rfl, rfl⟩

theorem toList_join (d b : String) : (d ++ "/" ++ b).toList = d.toList ++ '/' :: b.toList := by
  simp

/-- A name joined to a directory has that directory. -/
theorem dirname_join {d b : String} (hd : d ≠ "") (hlast : endsWith '/' d = false)
    (hb : '/' ∉ b.toList) : dirname (d ++ "/" ++ b) = d := by
  have hne : d.toList ≠ [] := by simpa using hd
  rw [dirname, toList_join, dirnameChars_join hne (endsWith_eq_false_iff.mp hlast hne) hb,
    String.ofList_toList]

theorem of_dirname_join {d b : String} (hb : '/' ∉ b.toList) (h : dirname (d ++ "/" ++ b) = d) :
    d ≠ "" ∧ endsWith '/' d = false := by
  have hchars : dirnameChars (d.toList ++ '/' :: b.toList) = d.toList := by
    rw [← toList_join]
    simpa [dirname] using congrArg String.toList h
  obtain ⟨hne, hlast⟩ := dirnameChars_of_join hb hchars
  exact ⟨by simpa using hne, endsWith_eq_false_iff.mpr fun _ => hlast⟩

/-! ## Words and blanks -/

theorem ne_nil_of_mem_wordsAux {cs acc word : List Char} (h : word ∈ wordsAux cs acc) :
    word ≠ [] := by
  induction cs generalizing acc with
  | nil =>
      cases acc with
      | nil => exact nomatch h
      | cons c acc =>
          rw [wordsAux, List.mem_singleton] at h
          · rw [h]
            exact List.reverse_ne_nil_iff.mpr (List.cons_ne_nil c acc)
          · exact nofun
  | cons c cs ih =>
      rw [wordsAux] at h
      split at h
      · split at h
        · exact ih h
        · next hacc =>
            rcases List.mem_cons.mp h with h | h
            · rw [h]
              exact List.reverse_ne_nil_iff.mpr hacc
            · exact ih h
      · exact ih h

/-- The words of a text are not empty. -/
theorem ne_empty_of_mem_split {s word : String} (h : word ∈ split s) : word ≠ "" := by
  obtain ⟨cs, hcs, rfl⟩ := List.mem_map.mp h
  intro hempty
  exact ne_nil_of_mem_wordsAux hcs (String.ofList_eq_empty_iff.mp hempty)

/-- Stripping leaves nothing of whitespace, and only of whitespace. -/
theorem strip_eq_empty_iff {s : String} : strip s = "" ↔ ∀ c ∈ s.toList, isSpace c = true := by
  have hchars : strip s = "" ↔ (s.toList.dropWhile isSpace).rdropWhile isSpace = [] := by
    rw [strip, ← String.toList_inj, String.toList_ofList]
    rfl
  rw [hchars, List.rdropWhile_eq_nil_iff]
  constructor
  · intro h c hc
    have hall : s.toList.dropWhile isSpace = [] := by
      by_contra hne
      have hhead := List.head_dropWhile_not isSpace hne
      rw [h _ (List.head_mem hne)] at hhead
      cases hhead
    exact List.dropWhile_eq_nil_iff.mp hall c hc
  · intro h c hc
    exact h c ((List.dropWhile_suffix isSpace).subset hc)

theorem wordsAux_append {w : List Char} (hw : ∀ c ∈ w, isSpace c = false) (rest acc : List Char) :
    wordsAux (w ++ rest) acc = wordsAux rest (w.reverse ++ acc) := by
  induction w generalizing acc with
  | nil => rfl
  | cons c w ih =>
      rcases List.forall_mem_cons.mp hw with ⟨hc, hw⟩
      rw [List.cons_append, wordsAux, hc, if_neg Bool.false_ne_true, ih hw]
      simp

/-- The first word of a text that begins with a word and a blank. -/
theorem head?_split_append {w : String} (hne : w ≠ "") (hw : ∀ c ∈ w.toList, isSpace c = false)
    (rest : String) : (split (w ++ " " ++ rest)).head? = some w := by
  have hnil : w.toList ≠ [] := fun h => hne (String.toList_inj.mp h)
  have hchars : (w ++ " " ++ rest).toList = w.toList ++ ' ' :: rest.toList := by simp
  have hblank : isSpace ' ' = true := by decide
  rw [split, hchars, wordsAux_append hw, List.append_nil, wordsAux, hblank, if_pos rfl,
    if_neg (by simpa using hnil), List.reverse_reverse, List.map_cons, List.head?_cons,
    String.ofList_toList]

theorem strip_ne_empty {w : String} (hne : w ≠ "") (hw : ∀ c ∈ w.toList, isSpace c = false)
    (rest : String) : strip (w ++ rest) ≠ "" := by
  have hnil : w.toList ≠ [] := fun h => hne (String.toList_inj.mp h)
  intro hempty
  have hspace := strip_eq_empty_iff.mp hempty (w.toList.head hnil) (by simp)
  rw [hw _ (List.head_mem hnil)] at hspace
  cases hspace

end Text
