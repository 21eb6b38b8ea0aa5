/-!
# Bytes as text

UTF-8 is decoded in two ways: strictly, where any malformed byte makes the whole
undecodable, and with replacement, where every maximal part that could have begun
a character becomes one U+FFFD.
-/

namespace ScrapeDiscovery.Text

/-- The shape of an encoded character, told by its first byte: how many bytes follow, the
bits that the first one contributes, and the range of the second one. -/
structure Utf8Head where
  following : Nat
  bits : Nat
  secondLow : Nat
  secondHigh : Nat
  deriving DecidableEq, Repr

/-- The shape that a first byte announces. -/
def utf8Head? (b : Nat) : Option Utf8Head :=
  if b < 0x80 then some ⟨0, b, 0x80, 0xBF⟩
  else if 0xC2 ≤ b && b ≤ 0xDF then some ⟨1, b - 0xC0, 0x80, 0xBF⟩
  else if b == 0xE0 then some ⟨2, 0, 0xA0, 0xBF⟩
  else if b == 0xED then some ⟨2, 0xD, 0x80, 0x9F⟩
  else if 0xE1 ≤ b && b ≤ 0xEF then some ⟨2, b - 0xE0, 0x80, 0xBF⟩
  else if b == 0xF0 then some ⟨3, 0, 0x90, 0xBF⟩
  else if b == 0xF4 then some ⟨3, 4, 0x80, 0x8F⟩
  else if 0xF1 ≤ b && b ≤ 0xF3 then some ⟨3, b - 0xF0, 0x80, 0xBF⟩
  else none

/-- A character of which bytes are missing. -/
structure Utf8Open where
  missing : Nat
  bits : Nat
  low : Nat
  high : Nat
  deriving DecidableEq, Repr

/-- Decodes bytes. `none` stands for each malformed part. -/
def decodeParts : Option Utf8Open → List Nat → List (Option Char)
  | none, [] => []
  | some _, [] => [none]
  | none, b :: bs =>
    match utf8Head? b with
    | none => none :: decodeParts none bs
    | some h =>
      if h.following = 0 then some (Char.ofNat h.bits) :: decodeParts none bs
      else decodeParts (some ⟨h.following, h.bits, h.secondLow, h.secondHigh⟩) bs
  | some o, b :: bs =>
    if o.low ≤ b && b ≤ o.high then
      let bits := o.bits * 64 + (b - 0x80)
      if o.missing = 1 then some (Char.ofNat bits) :: decodeParts none bs
      else decodeParts (some ⟨o.missing - 1, bits, 0x80, 0xBF⟩) bs
    else
      match utf8Head? b with
      | none => none :: none :: decodeParts none bs
      | some h =>
        if h.following = 0 then none :: some (Char.ofNat h.bits) :: decodeParts none bs
        else none :: decodeParts (some ⟨h.following, h.bits, h.secondLow, h.secondHigh⟩) bs

/-- The text of well-formed bytes. -/
def decodeUtf8? (bytes : List Nat) : Option String :=
  ((decodeParts none bytes).mapM id).map String.ofList

/-- The text of any bytes, each malformed part replaced by U+FFFD. -/
def decodeUtf8Lossy (bytes : List Nat) : String :=
  String.ofList ((decodeParts none bytes).map (·.getD '\ufffd'))

end ScrapeDiscovery.Text
