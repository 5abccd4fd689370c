/-!
Text as a list of characters, with the cuts and replacements that the rest of
the library needs. Every function is structural on the list, so each keeps or
drops characters in a way that an induction can follow.
-/

namespace TabletopDice

abbrev Text := List Char

namespace Text

/-- A condition on the characters of a text is decided character by character. -/
instance decidableForallMem {condition : Char → Prop} [DecidablePred condition] (text : Text) :
    Decidable (∀ char ∈ text, condition char) :=
  List.decidableBAll condition text

/-- What follows `lead` in the text, if the text starts with it. -/
def after? : Text → Text → Option Text
  | [], text => some text
  | _ :: _, [] => none
  | wanted :: lead, char :: rest => if char = wanted then after? lead rest else none

theorem after_append (lead rest : Text) : after? lead (lead ++ rest) = some rest := by
  induction lead with
  | nil => rfl
  | cons char lead ih => simp [after?, ih]

/-- The text with every `first` directly followed by `second` turned into `glyph`,
found from left to right without overlap. -/
def replacePairs (first second glyph : Char) : Text → Text
  | [] => []
  | [char] => [char]
  | char :: next :: rest =>
      if char = first ∧ next = second then glyph :: replacePairs first second glyph rest
      else char :: replacePairs first second glyph (next :: rest)

def replaceFirst (old new : Text) : Text → Text
  | [] => if old = [] then new else []
  | char :: rest =>
      match after? old (char :: rest) with
      | some suffix => new ++ suffix
      | none => char :: replaceFirst old new rest

/-- The parts between the separators, always one more than there are separators. -/
def splitOn (separator : Char) : Text → List Text
  | [] => [[]]
  | char :: rest =>
      if char = separator then [] :: splitOn separator rest
      else match splitOn separator rest with
        | [] => [[char]]
        | part :: parts => (char :: part) :: parts

def splitFirst? (separator : Char) : Text → Option (Text × Text)
  | [] => none
  | char :: rest =>
      if char = separator then some ([], rest)
      else (splitFirst? separator rest).map fun (before, behind) => (char :: before, behind)

def join (separator : Text) : List Text → Text
  | [] => []
  | [part] => part
  | part :: parts => part ++ separator ++ join separator parts

def dropTrailing (drop : Char → Bool) (text : Text) : Text :=
  (text.reverse.dropWhile drop).reverse

def byteCount (text : Text) : Nat := text.foldr (fun char count => char.utf8Size + count) 0

def lowered (text : Text) : Text := text.map Char.toLower

/-- The first text does not come after the second in the order of the code points. -/
def isOrdered : Text → Text → Bool
  | [], _ => true
  | _ :: _, [] => false
  | char :: rest, next :: more =>
      decide (char.toNat < next.toNat) || (char == next && isOrdered rest more)

theorem splitOn_ne_nil (separator : Char) (text : Text) : splitOn separator text ≠ [] := by
  cases text with
  | nil => simp [splitOn]
  | cons char rest =>
      simp only [splitOn]
      split
      · simp
      · split <;> simp

theorem join_splitOn (separator : Char) (text : Text) :
    join [separator] (splitOn separator text) = text := by
  induction text with
  | nil => rfl
  | cons char rest ih =>
      simp only [splitOn]
      split
      next same =>
        subst same
        cases parts : splitOn char rest with
        | nil => exact absurd parts (splitOn_ne_nil char rest)
        | cons part parts' => simpa [join, parts] using ih
      next =>
        cases parts : splitOn separator rest with
        | nil => exact absurd parts (splitOn_ne_nil separator rest)
        | cons part parts' =>
            rw [parts] at ih
            cases parts' with
            | nil => simpa [join] using ih
            | cons _ _ => simpa [join] using ih

end Text

end TabletopDice
