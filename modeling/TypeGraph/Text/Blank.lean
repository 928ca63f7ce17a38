/-!
# Blank characters

Type names are written by people, so blanks around them and before their brackets are dropped. A
character is blank when it has the Unicode property White_Space. This file holds the table of that
property and the two trimming operations on lists of characters.
-/

namespace TypeGraph.Text

/-- The code points with the property White_Space, as closed ranges, ascending and apart. -/
def blankRanges : List (Nat × Nat) :=
  [(0x09, 0x0D), (0x20, 0x20), (0x85, 0x85), (0xA0, 0xA0), (0x1680, 0x1680), (0x2000, 0x200A),
   (0x2028, 0x2029), (0x202F, 0x202F), (0x205F, 0x205F), (0x3000, 0x3000)]

/-- Whether a character is blank. -/
def isBlank (c : Char) : Bool :=
  blankRanges.any fun range => range.1 ≤ c.toNat && c.toNat ≤ range.2

/-- Drop the blanks at the end. -/
def trimEnd (text : List Char) : List Char :=
  (text.reverse.dropWhile isBlank).reverse

/-- Drop the blanks on both sides. -/
def trim (text : List Char) : List Char :=
  trimEnd (text.dropWhile isBlank)

/-- What is left of a text when the given ending is cut off, if it has that ending. -/
def dropEnding? (ending text : List Char) : Option (List Char) :=
  if ending.isSuffixOf text then some (text.take (text.length - ending.length)) else none

theorem length_trimEnd_le (text : List Char) : (trimEnd text).length ≤ text.length := by
  have h := (List.dropWhile_sublist isBlank (l := text.reverse)).length_le
  simpa [trimEnd] using h

theorem length_dropEnding?_lt {ending text rest : List Char} (hne : ending ≠ [])
    (h : dropEnding? ending text = some rest) : rest.length < text.length := by
  unfold dropEnding? at h
  split at h
  next hs =>
    have hle := (List.isSuffixOf_iff_suffix.1 hs).length_le
    have hpos := List.length_pos_iff.2 hne
    cases h
    simp only [List.length_take]
    omega
  next => cases h

end TypeGraph.Text
