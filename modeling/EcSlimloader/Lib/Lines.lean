import Mathlib.Tactic.Common

/-!
# `EcSlimloader.Lib.Lines`: the lines of a text

The functions of a Rust `str` that take a text apart: `lines`, `trim`, `trim_start_matches` with a
text as its pattern, and `contains`. Here they are functions on the characters.

The lemmas say what they make of a text that was put together: from a front of whole lines and
one more line, and from white space around a prefix and a value.

`lines` splits at line feeds, drops a carriage return in front of one, and has no last line when
the text ends with a line feed. These are the rules of `str::lines`. `unlines` is the way back.
-/

set_option autoImplicit false

namespace Text

/-- `char::is_whitespace`: the property `White_Space` of Unicode. -/
def isWhitespace (c : Char) : Bool :=
  (9 ≤ c.toNat && c.toNat ≤ 13) || c.toNat == 0x20 || c.toNat == 0x85 || c.toNat == 0xa0 ||
    c.toNat == 0x1680 || (0x2000 ≤ c.toNat && c.toNat ≤ 0x200a) || c.toNat == 0x2028 ||
    c.toNat == 0x2029 || c.toNat == 0x202f || c.toNat == 0x205f || c.toNat == 0x3000

/-- `str::lines`. A line ends with a line feed, which may have a carriage return in front of it.
The last line need not end. -/
def lines : List Char → List (List Char)
  | [] => []
  | c :: cs =>
      if c = '\n' then [] :: lines cs
      else if c = '\r' ∧ cs.head? = some '\n' then lines cs
      else match lines cs with
        | [] => [[c]]
        | line :: rest => (c :: line) :: rest

/-- `str::trim`. -/
def trim (s : List Char) : List Char :=
  ((s.dropWhile isWhitespace).reverse.dropWhile isWhitespace).reverse

/-- The loop of `trim_start_matches`, for at most `count` matches. -/
def trimMatches (pat : List Char) : Nat → List Char → List Char
  | 0, s => s
  | count + 1, s => if pat.isPrefixOf s then trimMatches pat count (s.drop pat.length) else s

/-- `str::trim_start_matches`, for a pattern that is not empty. There are not more matches than
characters. -/
def trimStartMatches (pat s : List Char) : List Char := trimMatches pat s.length s

/-- `str::contains`. -/
def contains (pat : List Char) : List Char → Bool
  | [] => pat.isEmpty
  | c :: cs => pat.isPrefixOf (c :: cs) || contains pat cs

/-! ### Lines

`lines` splits at line feeds and takes a carriage return off the end of a line. A text without a
line feed in the end has a last line too. -/

/-- A line on its own: it has no line feed in it, and no carriage return at its end. -/
def IsLine (line : List Char) : Prop := '\n' ∉ line ∧ line.getLast? ≠ some '\r'

/-- The text of lines that all end. -/
def unlines (front : List (List Char)) : List Char := front.flatMap fun line => line ++ ['\n']

/-- A line that ends. -/
theorem lines_append_line {line : List Char} (h : IsLine line) (rest : List Char) :
    lines (line ++ '\n' :: rest) = line :: lines rest := by
  obtain ⟨hfeed, hreturn⟩ := h
  induction line with
  | nil => simp [lines]
  | cons c cs ih =>
      have hc : c ≠ '\n' := fun h => hfeed (h ▸ List.mem_cons_self)
      have hcs : '\n' ∉ cs := fun h => hfeed (List.mem_cons_of_mem c h)
      have hcr : ¬(c = '\r' ∧ (cs ++ '\n' :: rest).head? = some '\n') := by
        intro ⟨hc, hhead⟩
        cases cs with
        | nil => exact hreturn (congrArg some hc)
        | cons d ds =>
            cases hhead
            exact hcs List.mem_cons_self
      have hlast : cs.getLast? ≠ some '\r' := by
        intro h
        rw [List.getLast?_cons, h] at hreturn
        exact hreturn rfl
      rw [List.cons_append, lines, if_neg hc, if_neg hcr, ih hcs hlast]

/-- A last line that does not end. -/
theorem lines_of_not_mem {line : List Char} (h : '\n' ∉ line) (hne : line ≠ []) :
    lines line = [line] := by
  induction line with
  | nil => exact absurd rfl hne
  | cons c cs ih =>
      have hc : c ≠ '\n' := fun heq => h (heq ▸ List.mem_cons_self)
      have hcs : '\n' ∉ cs := fun hmem => h (List.mem_cons_of_mem c hmem)
      have hcr : ¬(c = '\r' ∧ cs.head? = some '\n') := fun h => hcs (List.mem_of_head? h.2)
      rw [lines, if_neg hc, if_neg hcr]
      cases cs with
      | nil => rfl
      | cons d ds => rw [ih hcs (List.cons_ne_nil d ds)]

/-- The lines of a text that was put together from lines. -/
theorem lines_unlines_append {front : List (List Char)} (h : ∀ line ∈ front, IsLine line)
    (rest : List Char) : lines (unlines front ++ rest) = front ++ lines rest := by
  induction front with
  | nil => rfl
  | cons line front ih =>
      have hunlines : unlines (line :: front) ++ rest
          = line ++ '\n' :: (unlines front ++ rest) := by simp [unlines]
      rw [hunlines, lines_append_line (h line List.mem_cons_self),
        ih fun l hl => h l (List.mem_cons_of_mem line hl)]
      rfl

/-! ### Parts of a line

What a search finds in a text that was put together: the label in the middle, the value without the
white space around it. -/

/-- A text that contains a pattern. -/
theorem contains_append (front pat back : List Char) :
    contains pat (front ++ (pat ++ back)) = true := by
  induction front with
  | nil =>
      cases hpat : pat ++ back with
      | nil =>
          have hnil := List.append_eq_nil_iff.mp hpat
          rw [hnil.1]
          rfl
      | cons c cs =>
          have hprefix : pat.isPrefixOf (c :: cs) = true := by
            rw [← hpat, List.isPrefixOf_iff_prefix]
            exact List.prefix_append pat back
          rw [List.nil_append, contains, hprefix, Bool.true_or]
  | cons c cs ih => rw [List.cons_append, contains, ih, Bool.or_true]

/-- White space around a text that begins and ends with something else. -/
theorem trim_append {left s right : List Char} (hleft : ∀ c ∈ left, isWhitespace c = true)
    (hright : ∀ c ∈ right, isWhitespace c = true) {c d : Char} (hc : s.head? = some c)
    (hd : s.getLast? = some d) (hc' : isWhitespace c = false) (hd' : isWhitespace d = false) :
    trim (left ++ (s ++ right)) = s := by
  -- From the front, `trim` stops at the first character of `s`, which is not white space.
  have hfront : (left ++ (s ++ right)).dropWhile isWhitespace = s ++ right := by
    rw [List.dropWhile_append_of_pos hleft]
    cases s with
    | nil => cases hc
    | cons c' s =>
        cases hc
        rw [List.cons_append, List.dropWhile_cons_of_neg (by rw [hc']; decide)]
  -- From the back, it stops at the last one.
  have hback : (s ++ right).reverse.dropWhile isWhitespace = s.reverse := by
    rw [List.reverse_append, List.dropWhile_append_of_pos
      fun c hc => hright c (List.mem_reverse.mp hc)]
    rw [← List.head?_reverse] at hd
    cases hs : s.reverse with
    | nil =>
        rw [hs] at hd
        cases hd
    | cons d' s =>
        rw [hs] at hd
        cases hd
        rw [List.dropWhile_cons_of_neg (by rw [hd']; decide)]
  rw [trim, hfront, hback, List.reverse_reverse]

/-- A pattern in front of a text that does not start with it again. -/
theorem trimStartMatches_append {pat s : List Char} (hpat : pat ≠ [])
    (hs : pat.isPrefixOf s = false) : trimStartMatches pat (pat ++ s) = s := by
  have hstop : ∀ count, trimMatches pat count s = s := by
    intro count
    cases count with
    | zero => rfl
    | succ count => rw [trimMatches, hs, if_neg Bool.false_ne_true]
  have hprefix : pat.isPrefixOf (pat ++ s) = true := by
    rw [List.isPrefixOf_iff_prefix]
    exact List.prefix_append pat s
  obtain ⟨c, cs, rfl⟩ := List.exists_cons_of_ne_nil hpat
  rw [trimStartMatches, List.length_append, List.length_cons, Nat.add_right_comm, trimMatches,
    hprefix, if_pos rfl, List.drop_left, hstop]

end Text
