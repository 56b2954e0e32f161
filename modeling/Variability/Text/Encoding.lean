/-!
# Text encodings

Source files come in several encodings. A file is decoded by the first decoder that accepts all of
it: UTF-8 after its byte order mark, plain UTF-8, UTF-16 after the byte order mark of either byte
order. A file that none of them accepts is read as ISO-8859-1, where each byte is the character
with its number. A byte left over at the end of a UTF-16 file is dropped.
-/

namespace Variability.Text

/-- The encodings that are tried. -/
inductive Encoding where
  /-- UTF-8 after a byte order mark. -/
  | markedUtf8
  | utf8
  /-- UTF-16 with the low byte first, after a byte order mark. -/
  | utf16Little
  /-- UTF-16 with the high byte first, after a byte order mark. -/
  | utf16Big
  deriving DecidableEq, Repr, Inhabited

namespace Encoding

/-- The encodings in the order in which they are tried. -/
def all : List Encoding := [markedUtf8, utf8, utf16Little, utf16Big]

/-- The byte order mark that a file in the encoding begins with. -/
def mark : Encoding → List UInt8
  | markedUtf8 => [0xEF, 0xBB, 0xBF]
  | utf8 => []
  | utf16Little => [0xFF, 0xFE]
  | utf16Big => [0xFE, 0xFF]

end Encoding

/-! ### UTF-16 -/

/-- Pairs of bytes as numbers. A last byte without a partner is dropped. -/
def pairUp (join : UInt8 → UInt8 → Nat) : List UInt8 → List Nat
  | a :: b :: rest => join a b :: pairUp join rest
  | _ => []

/-- The characters that UTF-16 units stand for, unless a surrogate lacks its partner. -/
def ofUnits : List Nat → Option (List Char)
  | [] => some []
  | u :: rest =>
    if u < 0xD800 ∨ 0xE000 ≤ u then (ofUnits rest).map (Char.ofNat u :: ·)
    else match rest with
      | v :: rest =>
        if u < 0xDC00 ∧ 0xDC00 ≤ v ∧ v < 0xE000 then
          (ofUnits rest).map (Char.ofNat (0x10000 + (u - 0xD800) * 0x400 + (v - 0xDC00)) :: ·)
        else none
      | [] => none

/-! ### Decoding -/

/-- Bytes as UTF-8. -/
def ofUtf8? (bytes : List UInt8) : Option String :=
  String.fromUTF8? ⟨bytes.toArray⟩

/-- Bytes after the byte order mark in an encoding. -/
def Encoding.decodeBody? : Encoding → List UInt8 → Option String
  | markedUtf8, bytes => ofUtf8? bytes
  | utf8, bytes => ofUtf8? bytes
  | utf16Little, bytes =>
    (ofUnits (pairUp (fun a b => b.toNat * 0x100 + a.toNat) bytes)).map String.ofList
  | utf16Big, bytes =>
    (ofUnits (pairUp (fun a b => a.toNat * 0x100 + b.toNat) bytes)).map String.ofList

/-- Bytes in an encoding, if they begin with its mark and the encoding accepts what follows. -/
def Encoding.decode? (e : Encoding) (bytes : List UInt8) : Option String :=
  if e.mark.isPrefixOf bytes then e.decodeBody? (bytes.drop e.mark.length) else none

/-- Bytes as ISO-8859-1. -/
def ofLatin1 (bytes : List UInt8) : String :=
  String.ofList (bytes.map fun b => Char.ofNat b.toNat)

/-- The text that the bytes of a file stand for. -/
def decode (bytes : List UInt8) : String :=
  (Encoding.all.findSome? (·.decode? bytes)).getD (ofLatin1 bytes)

end Variability.Text
