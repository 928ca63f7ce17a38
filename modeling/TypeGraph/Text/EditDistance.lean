/-!
# Edit distance

The least number of single-character insertions, deletions and substitutions that turn one text
into another. It is computed row by row: the row for a beginning of the first text holds its
distances to all beginnings of the second, shortest first. An entry is read by its position, and a
position outside of a row has none.
-/

namespace TypeGraph.Text

/-- The entry after position `j` of a row that is filled up to there, from the row above it. The
two beginnings end in `c` and `d`. -/
def entryAfter? (c d : Char) (above row : Array Nat) (j : Nat) : Option Nat := do
  let both ← above[j]?
  let deleted ← above[j + 1]?
  let inserted ← row[j]?
  return min (min (both + if c = d then 0 else 1) (deleted + 1)) (inserted + 1)

/-- Fill a row after position `j`, with one entry for each character. -/
def fillRow? (c : Char) (above row : Array Nat) (j : Nat) : List Char → Option (Array Nat)
  | [] => some row
  | d :: ds => do
    let entry ← entryAfter? c d above row j
    fillRow? c above (row.push entry) (j + 1) ds

/-- The last row, from the row for a beginning of length `i` and the characters after it. -/
def lastRow? (target : List Char) (row : Array Nat) (i : Nat) : List Char → Option (Array Nat)
  | [] => some row
  | c :: cs => do
    let next ← fillRow? c row #[i + 1] 0 target
    lastRow? target next (i + 1) cs

/-- The edit distance of two texts, counted in characters, if all entries that are read exist. -/
def editDistance? (source target : String) : Option Nat := do
  let columns := target.toList
  let row ← lastRow? columns (Array.range (columns.length + 1)) 0 source.toList
  row[columns.length]?

/-- The edit distance of two texts, counted in characters. It always exists. -/
def editDistance (source target : String) : Nat :=
  (editDistance? source target).getD 0

end TypeGraph.Text
