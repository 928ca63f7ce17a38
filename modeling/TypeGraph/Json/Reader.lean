import TypeGraph.Json.Value

/-!
# Reading JSON texts

The reader accepts exactly the texts of the JSON grammar: no comments, no comma behind the last
item, no leading zeros, no raw control characters in strings. Every part that is read takes at
least one character off the text, and this is why reading ends.
-/

namespace TypeGraph.Json

/-- Something that was read from the front of a text, and what is left of the text. -/
structure Parsed (α : Type) (text : List Char) where
  value : α
  rest : List Char
  shorter : rest.length < text.length

namespace Parsed

variable {α β : Type} {text text' : List Char}

/-- Change what was read. -/
def map (f : α → β) (p : Parsed α text) : Parsed β text :=
  ⟨f p.value, p.rest, p.shorter⟩

/-- What was read from a part of a text, as read from the whole text. -/
def widen (p : Parsed α text) (h : text.length ≤ text'.length) : Parsed α text' :=
  ⟨p.value, p.rest, Nat.lt_of_lt_of_le p.shorter h⟩

end Parsed

/-! ## Blanks and words -/

/-- Whether a character may stand between the parts of a text. -/
def isSpace (c : Char) : Bool :=
  c = ' ' || c = '\n' || c = '\t' || c = '\r'

/-- Drop the blanks at the front. -/
def skip (text : List Char) : List Char := text.dropWhile isSpace

theorem length_skip_le (text : List Char) : (skip text).length ≤ text.length :=
  (List.dropWhile_sublist isSpace).length_le

/-- Read a word that is not empty. -/
def word? (word text : List Char) : Option (Parsed Unit text) :=
  if h : word.isPrefixOf text ∧ 0 < word.length then
    some ⟨(), text.drop word.length, by
      have hle := (List.isPrefixOf_iff_prefix.1 h.1).length_le
      have hpos := h.2
      rw [List.length_drop]
      omega⟩
  else none

/-! ## Numbers -/

/-- The value of a decimal digit. -/
def digit? (c : Char) : Option Nat :=
  if '0' ≤ c ∧ c ≤ '9' then some (c.toNat - '0'.toNat) else none

/-- The digits at the front of a text, and the rest. -/
def digits : List Char → List Nat × List Char
  | [] => ([], [])
  | c :: rest =>
    match digit? c with
    | some d =>
      let (ds, rest) := digits rest
      (d :: ds, rest)
    | none => ([], c :: rest)

theorem length_digits_le (text : List Char) : (digits text).2.length ≤ text.length := by
  induction text with
  | nil => simp [digits]
  | cons c rest ih =>
    unfold digits
    split
    next => simpa using Nat.le_succ_of_le ih
    next => simp

theorem length_digits_lt {text : List Char} (h : (digits text).1 ≠ []) :
    (digits text).2.length < text.length := by
  cases text with
  | nil => simp [digits] at h
  | cons c rest =>
    unfold digits at h ⊢
    split
    next => simpa using Nat.lt_succ_of_le (length_digits_le rest)
    next hd => simp [hd] at h

/-- Read one or more digits. -/
def someDigits? (text : List Char) : Option (Parsed (List Nat) text) :=
  if h : (digits text).1 ≠ [] then some ⟨(digits text).1, (digits text).2, length_digits_lt h⟩
  else none

/-- Read the digits before the point: a zero stands alone. -/
def wholeDigits? (text : List Char) : Option (Parsed (List Nat) text) := do
  let ds ← someDigits? text
  if ds.value.head? = some 0 ∧ 1 < ds.value.length then none else some ds

/-- Read a point and the digits behind it, if there is a point. -/
def fraction? (text : List Char) : Option (Option (List Nat) × { rest : List Char //
    rest.length ≤ text.length }) :=
  match text with
  | '.' :: rest => do
    let ds ← someDigits? rest
    some (some ds.value, ⟨ds.rest, Nat.le_of_lt (Nat.lt_succ_of_lt ds.shorter)⟩)
  | text => some (none, ⟨text, Nat.le_refl _⟩)

/-- Read an exponent, if there is one. -/
def exponent? (text : List Char) : Option (Option (Bool × List Nat) × { rest : List Char //
    rest.length ≤ text.length }) :=
  match text with
  | c :: rest =>
    if c = 'e' ∨ c = 'E' then
      match rest with
      | '-' :: rest => do
        let ds ← someDigits? rest
        some (some (true, ds.value),
          ⟨ds.rest, Nat.le_of_lt (Nat.lt_succ_of_lt (Nat.lt_succ_of_lt ds.shorter))⟩)
      | '+' :: rest => do
        let ds ← someDigits? rest
        some (some (false, ds.value),
          ⟨ds.rest, Nat.le_of_lt (Nat.lt_succ_of_lt (Nat.lt_succ_of_lt ds.shorter))⟩)
      | rest => do
        let ds ← someDigits? rest
        some (some (false, ds.value), ⟨ds.rest, Nat.le_of_lt (Nat.lt_succ_of_lt ds.shorter)⟩)
    else some (none, ⟨c :: rest, Nat.le_refl _⟩)
  | [] => some (none, ⟨[], Nat.le_refl _⟩)

/-- Read a number without sign. -/
def unsigned? (negative : Bool) (text : List Char) : Option (Parsed Literal text) := do
  let whole ← wholeDigits? text
  let (fraction, afterFraction) ← fraction? whole.rest
  let (exponent, afterExponent) ← exponent? afterFraction.1
  some ⟨⟨negative, whole.value, fraction, exponent⟩, afterExponent.1,
    Nat.lt_of_le_of_lt (Nat.le_trans afterExponent.2 afterFraction.2) whole.shorter⟩

/-- Read a number. -/
def literal? (text : List Char) : Option (Parsed Literal text) :=
  match text with
  | '-' :: rest => (unsigned? true rest).map fun p => p.widen (Nat.le_succ _)
  | text => unsigned? false text

/-! ## Strings -/

/-- The value of a hexadecimal digit. -/
def hexDigit? (c : Char) : Option Nat :=
  if '0' ≤ c ∧ c ≤ '9' then some (c.toNat - '0'.toNat)
  else if 'a' ≤ c ∧ c ≤ 'f' then some (c.toNat - 'a'.toNat + 10)
  else if 'A' ≤ c ∧ c ≤ 'F' then some (c.toNat - 'A'.toNat + 10)
  else none

/-- The value of four hexadecimal digits. -/
def hex4? (a b c d : Char) : Option Nat := do
  return (((← hexDigit? a) * 16 + (← hexDigit? b)) * 16 + (← hexDigit? c)) * 16 + (← hexDigit? d)

/-- Whether a code unit is the first half of a surrogate pair. -/
def isHigh (unit : Nat) : Bool := 0xD800 ≤ unit && unit ≤ 0xDBFF

/-- Whether a code unit is the second half of a surrogate pair. -/
def isLow (unit : Nat) : Bool := 0xDC00 ≤ unit && unit ≤ 0xDFFF

/-- The character that a surrogate pair stands for. -/
def joinPair (high low : Nat) : Char :=
  Char.ofNat (0x10000 + (high - 0xD800) * 0x400 + (low - 0xDC00))

/-- The character that a letter behind a backslash stands for. -/
def escaped? : Char → Option Char
  | '"' => some '"'
  | '\\' => some '\\'
  | '/' => some '/'
  | 'b' => some '\x08'
  | 'f' => some '\x0c'
  | 'n' => some '\n'
  | 'r' => some '\r'
  | 't' => some '\t'
  | _ => none

/-- A string that is being read: its characters so far, the last one first, or none once it is
known to be no text. -/
abbrev Spelled := Option (List Char)

/-- Add a character. -/
def Spelled.push (s : Spelled) (c : Char) : Spelled := s.map (c :: ·)

/-- The string that was read. -/
def Spelled.text (s : Spelled) : Option String := s.map fun cs => String.ofList cs.reverse

/-- Read the rest of a string up to its closing quote. -/
def stringBody? (s : Spelled) (text : List Char) : Option (Parsed (Option String) text) :=
  match text with
  | [] => none
  | '"' :: rest => some ⟨s.text, rest, Nat.lt_succ_self _⟩
  | '\\' :: 'u' :: a :: b :: c :: d :: rest =>
    match hex4? a b c d with
    | none => none
    | some unit =>
      if isHigh unit then
        match rest with
        | '\\' :: 'u' :: a' :: b' :: c' :: d' :: rest' =>
          match hex4? a' b' c' d' with
          | some unit' =>
            if isLow unit' then
              (stringBody? (s.push (joinPair unit unit')) rest').map fun p =>
                p.widen (by simp only [List.length_cons]; omega)
            else
              (stringBody? none ('\\' :: 'u' :: a' :: b' :: c' :: d' :: rest')).map fun p =>
                p.widen (by simp only [List.length_cons]; omega)
          | none => none
        | rest =>
          (stringBody? none rest).map fun p => p.widen (by simp only [List.length_cons]; omega)
      else if isLow unit then
        (stringBody? none rest).map fun p => p.widen (by simp only [List.length_cons]; omega)
      else
        (stringBody? (s.push (Char.ofNat unit)) rest).map fun p =>
          p.widen (by simp only [List.length_cons]; omega)
  | '\\' :: e :: rest =>
    match escaped? e with
    | some c =>
      (stringBody? (s.push c) rest).map fun p => p.widen (by simp only [List.length_cons]; omega)
    | none => none
  | c :: rest =>
    if c.toNat < 0x20 then none
    else (stringBody? (s.push c) rest).map fun p => p.widen (Nat.le_succ _)
termination_by text.length

/-- Read a string. -/
def string? (text : List Char) : Option (Parsed (Option String) text) :=
  match text with
  | '"' :: rest => (stringBody? (some []) rest).map fun p => p.widen (Nat.le_succ _)
  | _ => none

/-! ## Values -/

mutual

/-- Read a value that starts with the first character of the text. -/
def value? (text : List Char) : Option (Parsed Json text) :=
  match text with
  | '[' :: rest =>
    match _h : skip rest with
    | ']' :: rest' => some ⟨.array [], rest', by
        have hle := length_skip_le rest
        rw [_h] at hle
        simp only [List.length_cons] at hle ⊢
        omega⟩
    | _ => (items? rest).map fun p => (p.map Json.array).widen (Nat.le_succ _)
  | '\x7b' :: rest =>
    match _h : skip rest with
    | '\x7d' :: rest' => some ⟨.object [], rest', by
        have hle := length_skip_le rest
        rw [_h] at hle
        simp only [List.length_cons] at hle ⊢
        omega⟩
    | _ => (members? rest).map fun p => (p.map Json.object).widen (Nat.le_succ _)
  | '"' :: rest => (string? ('"' :: rest)).map fun p => p.map Json.string
  | 'n' :: rest => (word? "null".toList ('n' :: rest)).map fun p => p.map fun _ => .null
  | 't' :: rest => (word? "true".toList ('t' :: rest)).map fun p => p.map fun _ => .bool true
  | 'f' :: rest => (word? "false".toList ('f' :: rest)).map fun p => p.map fun _ => .bool false
  | text => (literal? text).map fun p => p.map Json.number
termination_by (text.length, 0)

/-- Read the items of an array and its closing bracket. Blanks may come first. -/
def items? (text : List Char) : Option (Parsed (List Json) text) :=
  match value? (skip text) with
  | none => none
  | some item =>
    match _h : skip item.rest with
    | ']' :: rest => some ⟨[item.value], rest, by
        have hitem := item.shorter
        have hskip := length_skip_le text
        have hle := length_skip_le item.rest
        rw [_h] at hle
        simp only [List.length_cons] at hle
        omega⟩
    | ',' :: rest =>
      have hlt : rest.length < text.length := by
        have hitem := item.shorter
        have hskip := length_skip_le text
        have hle := length_skip_le item.rest
        rw [_h] at hle
        simp only [List.length_cons] at hle
        omega
      (items? rest).map fun p => (p.map (item.value :: ·)).widen (Nat.le_of_lt hlt)
    | _ => none
termination_by (text.length, 1)
decreasing_by
  · rcases Nat.lt_or_eq_of_le (length_skip_le text) with h | h
    · exact Prod.Lex.left _ _ h
    · rw [h]
      exact Prod.Lex.right _ (Nat.lt_succ_self 0)
  · exact Prod.Lex.left _ _ hlt

/-- Read the members of an object and its closing brace. Blanks may come first. -/
def members? (text : List Char) : Option (Parsed (List (Option String × Json)) text) :=
  match string? (skip text) with
  | none => none
  | some key =>
    match _hkey : skip key.rest with
    | ':' :: afterKey =>
      have hafter : (skip afterKey).length < text.length := by
        have hshorter := key.shorter
        have hskip := length_skip_le text
        have hle := length_skip_le key.rest
        have hle' := length_skip_le afterKey
        rw [_hkey] at hle
        simp only [List.length_cons] at hle
        omega
      match value? (skip afterKey) with
      | none => none
      | some item =>
        match _h : skip item.rest with
        | '\x7d' :: rest => some ⟨[(key.value, item.value)], rest, by
            have hitem := item.shorter
            have hle := length_skip_le item.rest
            rw [_h] at hle
            simp only [List.length_cons] at hle
            omega⟩
        | ',' :: rest =>
          have hlt : rest.length < text.length := by
            have hitem := item.shorter
            have hle := length_skip_le item.rest
            rw [_h] at hle
            simp only [List.length_cons] at hle
            omega
          (members? rest).map fun p =>
            (p.map ((key.value, item.value) :: ·)).widen (Nat.le_of_lt hlt)
        | _ => none
    | _ => none
termination_by (text.length, 1)
decreasing_by
  · exact Prod.Lex.left _ _ hafter
  · exact Prod.Lex.left _ _ hlt

end

/-- The value that a text stands for. Only blanks may stand around it. -/
def parse? (text : String) : Option Json := do
  let p ← value? (skip text.toList)
  if (skip p.rest).isEmpty then some p.value else none

end TypeGraph.Json
