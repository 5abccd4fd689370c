import TabletopDice.Text.Numeral

/-!
Alternatives in braces, such as `d20+{17/12/7}`. An expression with several sets
of them stands for one expression per combination of their values, the last set
varying fastest. The expression is kept as a template with a numbered place for
each set.
-/

namespace TabletopDice

/-- A stretch of an expression: plain text, or what stands in a pair of braces. -/
inductive Segment
  | plain (text : Text)
  | choice (values : Text)
  deriving DecidableEq, Repr

namespace Segment

def consPlain (char : Char) : List Segment → List Segment
  | plain text :: segments => plain (char :: text) :: segments
  | segments => plain [char] :: segments

def appendPlain (text : Text) (segments : List Segment) : List Segment :=
  text.foldr consPlain segments

/-- Cuts a text at its pairs of braces. A pair closes at the first closing brace and stays on
one line; `opened` holds what was read since an opening brace, the last character first. -/
def split (opened : Option Text) : Text → List Segment
  | [] => match opened with
    | none => []
    | some read => appendPlain ('{' :: read.reverse) []
  | char :: rest =>
      match opened with
      | none => if char = '{' then split (some []) rest else consPlain char (split none rest)
      | some read =>
          if char = '}' then choice read.reverse :: split none rest
          else if char = '\n' then
            appendPlain ('{' :: read.reverse ++ ['\n']) (split none rest)
          else split (some (char :: read)) rest

def ofText (text : Text) : List Segment := split none text

def values? : Segment → Option Text
  | plain _ => none
  | choice values => some values

def place (index : Nat) : Text := '{' :: Text.ofNat index ++ ['}']

/-- The segments as a template; the places are numbered on from `index`. -/
def template (index : Nat) : List Segment → Text
  | [] => []
  | plain text :: segments => text ++ template index segments
  | choice _ :: segments => place index ++ template (index + 1) segments

end Segment

/-- The template with the values put one after another into the places numbered on from
`index`, each at the first occurrence of its place. -/
def substitute (index : Nat) (template : Text) : List Text → Text
  | [] => template
  | value :: values =>
      substitute (index + 1) (Text.replaceFirst (Segment.place index) value template) values

/-- One value of each set in every way, the last set varying fastest. -/
def combinations : List (List Text) → List (List Text)
  | [] => [[]]
  | values :: sets => values.flatMap fun value => (combinations sets).map (value :: ·)

end TabletopDice
