import SurrealZod.Text.Basic

/-!
# UTF-8

Files hold bytes, and a file is a text if its bytes are well-formed UTF-8: shortest forms only, and no surrogates. Bytes
that are not well formed are read too, for showing them: every longest beginning of a character that breaks off, and
every byte that begins none, counts as one gap.
-/

namespace SurrealZod

namespace Utf8

def size (t : Text) : Nat := t.foldl (fun bytes c => bytes + c.utf8Size) 0

/-- A character of which bytes are still to come. -/
structure Partial where
  /-- The bits that are known. -/
  bits : Nat
  /-- The bounds of the next byte. -/
  low : Nat := 0x80
  high : Nat := 0xBF
  /-- The number of bytes after the next one. -/
  more : Nat := 0

/-- What the first byte of a character of several bytes begins. The bounds of the second byte rule out longer forms than
needed, surrogates, and what lies above the last code point. -/
def Partial.ofLead? (byte : Nat) : Option Partial :=
  if byte < 0xC2 then none
  else if byte < 0xE0 then some { bits := byte % 0x20 }
  else if byte = 0xE0 then some { bits := 0, low := 0xA0, more := 1 }
  else if byte = 0xED then some { bits := 0xD, high := 0x9F, more := 1 }
  else if byte < 0xF0 then some { bits := byte % 0x10, more := 1 }
  else if byte = 0xF0 then some { bits := 0, low := 0x90, more := 2 }
  else if byte < 0xF4 then some { bits := byte % 8, more := 2 }
  else if byte = 0xF4 then some { bits := 4, high := 0x8F, more := 2 }
  else none

/-- The characters of the bytes, with `none` for each gap. -/
def scan : Option Partial → List UInt8 → List (Option Char)
  | none, [] => []
  | some _, [] => [none]
  | known, byte :: rest =>
    let code := byte.toNat
    let start :=
      if code < 0x80 then some (Char.ofNat code) :: scan none rest
      else
        match Partial.ofLead? code with
        | some lead => scan (some lead) rest
        | none => none :: scan none rest
    match known with
    | none => start
    | some { bits, low, high, more } =>
      if low ≤ code ∧ code ≤ high then
        match more with
        | 0 => some (Char.ofNat (0x40 * bits + code % 0x40)) :: scan none rest
        | more + 1 => scan (some { bits := 0x40 * bits + code % 0x40, more }) rest
      else none :: start

def decode? (bytes : List UInt8) : Option Text := (scan none bytes).mapM id

/-- The text of any bytes, with a replacement character for each gap. -/
def decodeLossy (bytes : List UInt8) : Text := (scan none bytes).map (·.getD '\ufffd')

end Utf8

end SurrealZod
