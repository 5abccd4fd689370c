import TabletopDice.Json.Token
import TabletopDice.Text.Quoted

/-!
JSON as bytes. A JSON text starts with two ASCII characters, or is one alone, so
its first bytes show by their zeros whether it is written in units of one, two or
four bytes, and in which order.
-/

namespace TabletopDice.Json

open TabletopDice.Text

inductive Encoding
  | utf8
  | utf16 (bigEndian : Bool)
  | utf32 (bigEndian : Bool)
  deriving DecidableEq, Repr

namespace Encoding

def ofBytes : List Nat → Encoding
  | 0 :: 0 :: _ :: _ :: _ => .utf32 true
  | 0 :: _ :: _ :: _ :: _ => .utf16 true
  | _ :: 0 :: 0 :: 0 :: _ => .utf32 false
  | _ :: 0 :: _ :: _ :: _ => .utf16 false
  | [0, _] => .utf16 true
  | [_, 0] => .utf16 false
  | _ => .utf8

end Encoding

def pairValue (bigEndian : Bool) (first second : Nat) : Nat :=
  if bigEndian then first * 0x100 + second else second * 0x100 + first

/-- The bytes in twos as numbers, unless one is left over. -/
def pairUnits? (bigEndian : Bool) : List Nat → Option (List Nat)
  | [] => some []
  | [_] => none
  | first :: second :: rest =>
      (pairUnits? bigEndian rest).map (pairValue bigEndian first second :: ·)

/-- The bytes in fours as code points, unless some are left over or a number is none. -/
def codePoints? (bigEndian : Bool) : List Nat → Option (List Nat)
  | [] => some []
  | first :: second :: third :: fourth :: rest =>
      let left := pairValue bigEndian first second
      let right := pairValue bigEndian third fourth
      let code := if bigEndian then left * 0x10000 + right else right * 0x10000 + left
      if code < 0x110000 then (codePoints? bigEndian rest).map (code :: ·) else none
  | _ => none

/-- The character of a code point. Half of a surrogate pair has none and is written as the
escape that stands for it in a string. -/
def codeText (code : Nat) : Text :=
  if isHighSurrogate code || isLowSurrogate code then '\\' :: 'u' :: hexadecimal 4 code
  else [Char.ofNat code]

def pairsText : List Nat → Text
  | [] => []
  | [unit] => codeText unit
  | high :: low :: rest =>
      if isHighSurrogate high && isLowSurrogate low then pairChar high low :: pairsText rest
      else codeText high ++ pairsText (low :: rest)

def bytesOf (text : Text) : List Nat :=
  (text.flatMap String.utf8EncodeChar).map UInt8.toNat

/-- A JSON text of which `received` shows the bytes one by one, as what they stand for in the
encoding that they show. One byte order mark in front is passed over. -/
def decode? (received : Text) : Option Text :=
  let bytes := bytesOf received
  match Encoding.ofBytes bytes with
  | .utf8 => some (if received.head? = some '\ufeff' then received.drop 1 else received)
  | .utf16 bigEndian => (pairUnits? bigEndian bytes).map pairsText
  | .utf32 bigEndian => (codePoints? bigEndian bytes).map fun codes => codes.flatMap codeText

end TabletopDice.Json
