import TabletopDice.Text.Basic

/-!
Blank characters: the spaces, the line breaks and the separators of Unicode 14,
together with the ASCII information separators. Zero-width characters are not
blank. Trimming removes blanks at the two ends of a text.
-/

namespace TabletopDice.Text

def isBlank (char : Char) : Bool :=
  let code := char.toNat
  (0x09 ≤ code && code ≤ 0x0D) || (0x1C ≤ code && code ≤ 0x20) || code == 0x85 || code == 0xA0
    || code == 0x1680 || (0x2000 ≤ code && code ≤ 0x200A) || code == 0x2028 || code == 0x2029
    || code == 0x202F || code == 0x205F || code == 0x3000

def trimLeft (text : Text) : Text := text.dropWhile isBlank

def trimRight (text : Text) : Text := dropTrailing isBlank text

def trim (text : Text) : Text := trimRight (trimLeft text)

def allBlank (text : Text) : Bool := text.all isBlank

/-- Puts a character that is not blank in front of the words of the text behind it. -/
def consWord (char : Char) : Text → List Text → List Text
  | next :: _, word :: more =>
      if isBlank next then [char] :: word :: more else (char :: word) :: more
  | _, more => [char] :: more

/-- The words between the blanks; none of them is empty. -/
def words : Text → List Text
  | [] => []
  | char :: rest => if isBlank char then words rest else consWord char rest (words rest)

end TabletopDice.Text
