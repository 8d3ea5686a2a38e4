/-!
# Text

Schema text is a list of characters, so every rule about it is a function on lists and every proof an induction
on one. String literals stand for the list of their characters. White space is the Unicode property
`White_Space`: it holds of the no-break and the ideographic space, but not of the zero-width space or the
information separators.
-/

namespace SurrealZod

abbrev Text := List Char

instance : Coe String Text := ⟨String.toList⟩

namespace Text

def isBlank (c : Char) : Bool :=
  let code := c.toNat
  (9 ≤ code && code ≤ 13) || code == 0x20 || code == 0x85 || code == 0xA0 || code == 0x1680 ||
    (0x2000 ≤ code && code ≤ 0x200A) || code == 0x2028 || code == 0x2029 || code == 0x202F ||
    code == 0x205F || code == 0x3000

/-- The text without the white space it begins with. -/
def trimStart (t : Text) : Text := t.dropWhile isBlank

/-- The text without the white space it ends with. -/
def trimEnd (t : Text) : Text := (t.reverse.dropWhile isBlank).reverse

/-- The text without white space at either end. -/
def trim (t : Text) : Text := trimEnd (trimStart t)

theorem length_trim_le (t : Text) : (trim t).length ≤ t.length := by
  have hdrop : ∀ s : Text, (s.dropWhile isBlank).length ≤ s.length := fun s =>
    (List.dropWhile_sublist _).length_le
  have hstart := hdrop t
  have hend := hdrop (t.dropWhile isBlank).reverse
  simp only [trim, trimEnd, trimStart, List.length_reverse] at *
  omega

/-- The parts in order with a separator between neighbours. -/
abbrev join (separator : Text) (parts : List Text) : Text := separator.intercalate parts

/-- The maximal runs of characters that are not white space. -/
def words (t : Text) : List Text := (t.splitOnP isBlank).filter (!·.isEmpty)

/-- The text with its outer white space dropped and every inner run of it written as one space. -/
def squeeze (t : Text) : Text := join [' '] (words t)

def dropStart? : Text → Text → Option Text
  | [], t => some t
  | _ :: _, [] => none
  | p :: ps, c :: cs => if p = c then dropStart? ps cs else none

def dropLast? (last : Char) (t : Text) : Option Text :=
  if t.getLast? = some last then some t.dropLast else none

/-- What stands between a given first and a given last character, which are two characters of the text. -/
def between? (first last : Char) (t : Text) : Option Text :=
  (dropStart? [first] t).bind (dropLast? last)

def contains (part : Text) : Text → Bool
  | [] => part.isEmpty
  | c :: rest => part.isPrefixOf (c :: rest) || contains part rest

theorem contains_iff {part t : Text} : contains part t = true ↔ part <:+: t := by
  induction t with
  | nil => simp [contains]
  | cons c rest ih => simp [contains, ih, List.infix_cons_iff]

end Text

end SurrealZod
