import TabletopDice.Text.Basic

/-!
The grammar of specifications as users read it.
-/

namespace TabletopDice

def grammarLines : List String :=
  ["[<title>=] <expression> [|<modifier>...]",
    "[<title>=] <chance>% [<success>[/<fail>]] [|<modifier>...]",
    "",
    "<expression> is a sequence of values joined by + - * // <= >=  (or × ÷ ≤ ≥),",
    "optionally grouped with parentheses. Each value is either",
    "    [>][<n>[/<div>]]d<sides>|% [best|worst of <n>] [<label>]",
    "or a constant with an optional label. A leading > makes the first die",
    "roll its maximum face. \x7b<a>/<b>/...\x7d rolls once for each value listed.",
    "",
    "Modifiers:",
    "    min <n>              result is at least <n>",
    "    max <n>              result is at most <n>",
    "    c[<threat>][±<bonus>] roll to confirm critical threats",
    "    dc <n>               report success against difficulty class <n>",
    "    sf [<ok>[/<fail>]]   natural 1 fails, natural max succeeds",
    "    until <n>            reroll until a result of at least <n>",
    "    repeat <n>           roll <n> times",
    "    total <n>            reroll until the results add up to <n>",
    "    ! or maximized       every die rolls its maximum face"]

def grammarText : Text := grammarLines.flatMap fun line => line.toList ++ ['\n']

end TabletopDice
