import TabletopDice.Number.DecimalText

/-!
Roll results as fragments. A result is told as a row of tagged pieces of text, so
that every client can set the pieces as it likes. `render` sets them as one plain
line.
-/

namespace TabletopDice

inductive FragmentKind
  | automatic
  | best
  | bonus
  | closeGroup
  | confirmLabel
  | confirmSpec
  | constant
  | cumulative
  | delimiter
  | die
  | dieBonus
  | difficulty
  | discarded
  | exceeded
  | fail
  | forcedMaximum
  | iteration
  | label
  | maximized
  | maximum
  | maximumRoll
  | met
  | minimum
  | notice
  | openGroup
  | operator
  | repetition
  | result
  | roll
  | separator
  | short
  | subtotal
  | success
  | target
  | total
  | worst
  /-- A kind that this library makes no fragments of. -/
  | other (name : Text)
  deriving DecidableEq, Repr

namespace FragmentKind

def name : FragmentKind → Text
  | automatic => "sf".toList
  | best => "best".toList
  | bonus => "bonus".toList
  | closeGroup => "endgroup".toList
  | confirmLabel => "critlabel".toList
  | confirmSpec => "critspec".toList
  | constant => "constant".toList
  | cumulative => "cumulative".toList
  | delimiter => "moddelim".toList
  | die => "diespec".toList
  | dieBonus => "diebonus".toList
  | difficulty => "dc".toList
  | discarded => "discarded".toList
  | exceeded => "exceeded".toList
  | fail => "fail".toList
  | forcedMaximum => "maximized".toList
  | iteration => "iteration".toList
  | label => "label".toList
  | maximized => "fullmax".toList
  | maximum => "max".toList
  | maximumRoll => "maxroll".toList
  | met => "met".toList
  | minimum => "min".toList
  | notice => "notice".toList
  | openGroup => "begingroup".toList
  | operator => "operator".toList
  | repetition => "repeat".toList
  | result => "result".toList
  | roll => "roll".toList
  | separator => "separator".toList
  | short => "short".toList
  | subtotal => "subtotal".toList
  | success => "success".toList
  | target => "until".toList
  | total => "total".toList
  | worst => "worst".toList
  | other name => name

def all : List FragmentKind :=
  [automatic, best, bonus, closeGroup, confirmLabel, confirmSpec, constant, cumulative, delimiter,
    die, dieBonus, difficulty, discarded, exceeded, fail, forcedMaximum, iteration, label,
    maximized, maximum, maximumRoll, met, minimum, notice, openGroup, operator, repetition, result,
    roll, separator, short, subtotal, success, target, total, worst]

def ofName (tag : Text) : FragmentKind :=
  (all.find? fun kind => kind.name == tag).getD (other tag)

/-- What a plain line shows in front of and behind a fragment of this kind. -/
def surroundings : FragmentKind → String × String
  | best => (" (best of ", ") ")
  | worst => (" (worst of ", ") ")
  | automatic | confirmLabel | confirmSpec | maximized | delimiter | separator => ("", " ")
  | difficulty => ("DC ", " ")
  | bonus | constant | dieBonus | die | forcedMaximum => ("", "")
  | operator | openGroup | closeGroup => ("", "")
  | discarded => ("\x7bdiscarded ", "\x7d")
  | exceeded => ("(EXCEEDED DC by ", ") ")
  | fail | success => ("(", ") ")
  | iteration => ("(#", ") ")
  | label => (" ", "")
  | maximum => ("!", "")
  | maximumRoll => ("\x7b!", "\x7d")
  | met => ("MET DC (", ") ")
  | minimum => (" (min ", ") ")
  | notice | result => ("[", "] ")
  | repetition => ("(x", ") ")
  | roll => ("\x7b", "\x7d")
  | short => ("(MISSED DC by ", ") ")
  | subtotal => ("(", ")")
  | target => (" (until ", ") ")
  | total => (" (total ", ") ")
  | cumulative => ("(cumulative ", ") ")
  | other tag => (" <" ++ String.ofList tag ++ ": ", "> ")

end FragmentKind

structure Fragment where
  kind : FragmentKind
  value : Text
  deriving DecidableEq, Repr

namespace Fragment

def int (kind : FragmentKind) (value : Int) : Fragment := ⟨kind, Text.ofInt value⟩

def bar : Fragment := ⟨.delimiter, ['|']⟩

/-- A number below zero in parentheses, so that a sign in front of it stays readable; any
other text as it is. -/
def bracketNegative (value : Text) : Text :=
  match Double.read? value with
  | some number =>
      if Double.lt number (.finite false 0) then '(' :: value ++ [')'] else value
  | none => value

def render (fragment : Fragment) : Text :=
  match fragment.kind with
  | .bonus | .constant | .dieBonus => bracketNegative fragment.value
  | kind => kind.surroundings.1.toList ++ fragment.value ++ kind.surroundings.2.toList

end Fragment

def renderFragments (fragments : List Fragment) : Text := fragments.flatMap Fragment.render

structure RollResult where
  /-- Nothing was rolled, and the total means nothing. -/
  suppressed : Bool := false
  invalid : Bool := false
  total : Int := 0
  details : List Fragment := []
  deriving DecidableEq, Repr

end TabletopDice
