import TabletopDice.Roller.Session

/-!
Rolling a specification. A pass rolls every combination of the alternatives once;
passes are repeated as the modifiers ask, but never more than the limit. A roll
that threatens to be critical is followed by one more roll that confirms it.
-/

namespace TabletopDice

namespace Modifiers

def margin (target result : Int) : Fragment :=
  if target < result then Fragment.int .exceeded (result - target)
  else if result = target then ⟨.met, "successful".toList⟩
  else Fragment.int .short (target - result)

/-- The global modifiers as fragments. With the result of a roll they also tell how it went:
`pass` counts the passes before it and `sum` what they added up to. -/
def optionFragments (modifiers : Modifiers) (outcome : Option (Int × Nat × Int)) :
    List Fragment :=
  let shown (fragments : Int → Nat → Int → List Fragment) : List Fragment :=
    match outcome with
    | some (result, pass, sum) => fragments result pass sum
    | none => []
  let iteration (pass : Nat) : Fragment := Fragment.int .iteration (pass + 1)
  (if modifiers.confirm then [Fragment.bar, ⟨.confirmSpec, modifiers.confirmSpecifier⟩] else []) ++
    (if 1 < modifiers.repeatFor then
      [Fragment.bar, Fragment.int .repetition modifiers.repeatFor] ++
        shown fun _ pass _ => [iteration pass]
    else []) ++
    (if modifiers.target ≠ 0 then
      [Fragment.bar, Fragment.int .target modifiers.target] ++
        shown fun result pass _ => [iteration pass, margin modifiers.target result]
    else []) ++
    (if modifiers.total ≠ 0 then
      [Fragment.bar, Fragment.int .total modifiers.total] ++
        shown fun result pass sum => [Fragment.int .cumulative (sum + result), iteration pass]
    else []) ++
    (if modifiers.difficulty ≠ 0 then
      [Fragment.bar, Fragment.int .difficulty modifiers.difficulty] ++
        shown fun result _ _ => [margin modifiers.difficulty result]
    else []) ++
    (if modifiers.automatic.isEmpty then [] else [Fragment.bar, ⟨.automatic, modifiers.automatic⟩])

/-- The numbers that `optionFragments` works out from a result. -/
def optionNumbers (modifiers : Modifiers) (result sum : Int) : List Int :=
  (if modifiers.target ≠ 0 then [result - modifiers.target] else []) ++
    (if modifiers.total ≠ 0 then [sum + result] else []) ++
    (if modifiers.difficulty ≠ 0 then [result - modifiers.difficulty] else [])

def maximizedFragments (modifiers : Modifiers) : List Fragment :=
  if modifiers.maximized then [Fragment.bar, ⟨.maximized, "maximized".toList⟩] else []

def chanceMessages (modifiers : Modifiers) : Text × Text :=
  match Text.trim modifiers.chanceLabel with
  | [] => ("success".toList, "fail".toList)
  | label =>
      match Text.splitFirst? '/' label with
      | some (success, fail) => (Text.trimRight success, Text.trimLeft fail)
      | none =>
          (label,
            if label = "hit".toList then "miss".toList
            else if label = "miss".toList then "hit".toList
            else "did not ".toList ++ label)

def chanceFragments (modifiers : Modifiers) (chance : Nat) : List Fragment :=
  ⟨.die, Text.ofNat chance ++ ['%']⟩ ::
    match Text.trim modifiers.chanceLabel with
    | [] => []
    | label => [⟨.label, label⟩]

end Modifiers

/-- What the roller is asked for, as fragments. A specification with alternatives is told as it is
written. -/
def Roller.requestFragments (roller : Roller) (text : Text) : Except Failure (List Fragment) :=
  let modifiers := roller.modifiers
  match modifiers.chance, roller.dice with
  | some chance, _ => return modifiers.chanceFragments chance ++ modifiers.maximizedFragments
  | none, none => return [⟨.die, if text.isEmpty then modifiers.template else text⟩]
  | none, some dice => do
      return (← dice.describe none none 0) ++ modifiers.optionFragments none ++
        modifiers.maximizedFragments

namespace SessionM

def evaluate (modifiers : Modifiers) (dice : Dice) (bonus : Int) : SessionM Evaluation := do
  let evaluation ← ofDraw (dice.evaluate modifiers.maximized bonus)
  remember dice evaluation
  return evaluation

/-- A percentile roll. It succeeds up to the chance; the pass counts the face rolled. -/
def rollChance (modifiers : Modifiers) (chance : Nat) (dice : Dice) :
    SessionM (Int × List RollResult) := do
  let evaluation ← evaluate modifiers dice 0
  let face := evaluation.total
  let succeeded := decide (face ≤ chance)
  let (success, fail) := modifiers.chanceMessages
  let shown : List Fragment :=
    if modifiers.maximized then Fragment.int .maximumRoll face :: modifiers.maximizedFragments
    else [Fragment.int .roll face]
  return (face, [{
    total := if succeeded then 1 else 0
    details := (if succeeded then ⟨.success, success⟩ else ⟨.fail, fail⟩) ::
      ⟨.separator, ['=']⟩ :: modifiers.chanceFragments chance ++ shown }])

/-- The roll that confirms a critical one, if the first roll threatens to be critical. Maximized
rolls are always confirmed. -/
def confirmRoll (modifiers : Modifiers) (dice : Dice) (first : Evaluation) :
    SessionM (List RollResult) := do
  if first.natural = naturalNone then throw (.dice .confirmationBeforeRoll)
  if first.natural = naturalDisqualified then throw (.dice .confirmationNeedsOneDie)
  let threat : Int := if 0 < modifiers.threat then modifiers.threat else first.defaultThreat
  if !modifiers.maximized && decide (first.natural < threat) then return []
  let second ← evaluate modifiers dice modifiers.confirmBonus
  let description ← ofExcept
    (dice.describe (some second) modifiers.automaticMessages modifiers.confirmBonus)
  return [{
    total := second.total
    details := ⟨.confirmLabel, "Confirm:".toList⟩ :: description ++ modifiers.maximizedFragments }]

/-- One elementary roll with its confirmation. `pass` and `sum` tell what came before. -/
def rollDice (modifiers : Modifiers) (pass : Nat) (sum : Int) (dice : Dice) :
    SessionM (Int × List RollResult) := do
  match modifiers.chance with
  | some chance => rollChance modifiers chance dice
  | none =>
      let evaluation ← evaluate modifiers dice 0
      let result := evaluation.total
      let description ← ofExcept (dice.describe (some evaluation) modifiers.automaticMessages 0)
      ofExcept (requireTellable (modifiers.optionNumbers result sum))
      let options := modifiers.optionFragments (some (result, pass, sum))
      let first : RollResult := {
        total := result, details := description ++ options ++ modifiers.maximizedFragments }
      let confirmation ←
        if modifiers.confirm then confirmRoll modifiers dice evaluation else pure []
      return (result, first :: confirmation)

/-- Rolls the dice of one pass in order; the pass counts the result of the last of them. -/
def rollSequence (modifiers : Modifiers) (pass : Nat) (sum : Int) :
    Int → List (Except Failure Dice) → SessionM (Int × List RollResult)
  | result, [] => return (result, [])
  | _, dice :: more => do
      let (result, rolled) ← rollDice modifiers pass sum (← ofExcept dice)
      let (final, rest) ← rollSequence modifiers pass sum result more
      return (final, rolled ++ rest)

structure Progress where
  finished : Nat := 0
  /-- What the passes of the current repetition add up to. -/
  sum : Int := 0
  deriving DecidableEq, Repr

def Progress.advance (progress : Progress) (modifiers : Modifiers) (result : Int) : Progress :=
  let sum := progress.sum + result
  if modifiers.total ≠ 0 then
    if modifiers.total ≤ sum then { finished := progress.finished + 1, sum := 0 }
    else { progress with sum }
  else if modifiers.target = 0 ∨ modifiers.target ≤ result then
    { finished := progress.finished + 1, sum }
  else { progress with sum }

/-- Makes passes until all repetitions are complete or none of the passes is left. `name` tells
what is rolled, for the warning. -/
def rollPasses (modifiers : Modifiers) (sequence : List (Except Failure Dice)) (name : Text) :
    (left : Nat) → Progress → SessionM (List RollResult)
  | 0, progress => do
      if progress.finished < modifiers.repeatFor then
        modify fun session => { session with warnings := session.warnings ++ [.stopped name] }
      return []
  | left + 1, progress => do
      if progress.finished < modifiers.repeatFor then
        let (result, rolled) ←
          rollSequence modifiers (maxPasses - (left + 1)) progress.sum 0 sequence
        let rest ← rollPasses modifiers sequence name left (progress.advance modifiers result)
        return rolled ++ rest
      else return []

/-- Rolls a specification, or the remembered one if the text is empty. Gives the title and one
result for every elementary roll and every confirmation. -/
def roll (text : Text) : SessionM (Text × List RollResult) := do
  requireSpecification text
  let roller := (← get).roller
  let modifiers := roller.modifiers
  let name := if modifiers.title.isEmpty then text else modifiers.title
  return (modifiers.title, ← rollPasses modifiers roller.sequence name maxPasses {})

def rollOnce (text : Text) : SessionM (Text × RollResult) := do
  match ← roll text with
  | (title, [result]) => return (title, result)
  | _ => throw (.dice .multipleResults)

/-- Tells what a specification asks for without rolling it, for those who may not see the result.
`notice` says why. -/
def explainSecret (text notice : Text) : SessionM (Text × RollResult) := do
  requireSpecification text
  let roller := (← get).roller
  let request ← ofExcept (roller.requestFragments text)
  return (roller.modifiers.title, { suppressed := true, details := ⟨.notice, notice⟩ :: request })

end SessionM

end TabletopDice
