import TabletopDice.Text.Blank
import TabletopDice.Text.WordChar

/-!
Labels name a value of an expression. A label is one or more words; each starts
with a letter, the low line or another word character that is no decimal digit.
What looks like a die, a limit or a confirmation is recognised here, so that it
is not taken for a label by mistake.
-/

namespace TabletopDice.Text

def startsLabelWord (char : Char) : Bool := isWordChar char && !isDigit char

/-- Inside a word some punctuation may stand too: `≡`, `‖` and `#` carry colours and titles. -/
def continuesLabelWord (char : Char) : Bool :=
  isWordChar char || char == ',' || char == '.' || char == '≡' || char == '‖' || char == '#'

def isLabelWord : Text → Bool
  | [] => false
  | char :: rest => startsLabelWord char && rest.all continuesLabelWord

def isBareLabel (text : Text) : Bool :=
  match words text with
  | [] => false
  | word :: more => isLabelWord word && more.all isLabelWord

def mentionsDie : Text → Bool
  | [] => false
  | char :: rest =>
      (isDigit char &&
        match trimLeft rest with
        | mark :: next :: _ => (mark == 'd' || mark == 'D') && isDigit next
        | _ => false)
      || mentionsDie rest

/-- Some place that follows no word character satisfies `here`. -/
def someWordStart (here : Text → Bool) : Bool → Text → Bool
  | _, [] => false
  | afterWord, char :: rest =>
      (!afterWord && here (char :: rest)) || someWordStart here (isWordChar char) rest

def startsInteger : Text → Bool
  | '+' :: next :: _ | '-' :: next :: _ => isDigit next
  | char :: _ => isDigit char
  | [] => false

def startsLimit (text : Text) : Bool :=
  match after? ['m', 'i', 'n'] text <|> after? ['m', 'a', 'x'] text with
  | some rest => startsInteger (trimLeft rest)
  | none => false

/-- A confirmation specifier: the letter `c`, then digits, and then the end of the word. -/
def startsConfirmation : Text → Bool
  | 'c' :: rest =>
      match rest.dropWhile isDigit with
      | [] => true
      | next :: _ => !isWordChar next
  | _ => false

def mentionsLimit (text : Text) : Bool := someWordStart startsLimit false text

def mentionsConfirmation (text : Text) : Bool := someWordStart startsConfirmation false text

end TabletopDice.Text
