import TabletopDice.Error

/-!
Where random numbers come from. A source is a fixed plan of draws and the number
of draws made so far: the draw with a given index yields a number below any
positive bound. Computations that draw keep the source, with its count, also when
they fail.
-/

namespace TabletopDice

inductive Seed
  | number (value : Int)
  /-- A seed was asked for and left out. -/
  | blank
  deriving DecidableEq, Repr

structure Source where
  /-- The number below a bound that a draw gives. -/
  below : Nat → Nat → Nat
  below_lt : ∀ draw bound, 0 < bound → below draw bound < bound
  /-- The number from zero up to one that a draw gives. -/
  unit : Nat → Double
  drawn : Nat := 0

namespace Source

/-- A source that goes round a list of faces. A die shows the face, counted on from its first
side again when the face is beyond its last. -/
def ofFaces (faces : List Nat) : Source where
  below draw bound := (faces.getD (draw % faces.length) 1 - 1) % bound
  below_lt _ _ positive := Nat.mod_lt _ positive
  unit draw := Double.ofRatio false (faces.getD (draw % faces.length) 1 % 1024) 1024

def highest : Source where
  below _ bound := bound - 1
  below_lt _ _ positive := Nat.sub_lt positive (by decide)
  unit _ := .finite false 0

/-- One word of a pseudorandom sequence: the index, scattered. -/
def scatter (index : UInt64) : UInt64 :=
  let first := (index ^^^ (index >>> 30)) * 0xBF58476D1CE4E5B9
  let second := (first ^^^ (first >>> 27)) * 0x94D049BB133111EB
  second ^^^ (second >>> 31)

def wordsValue (seed : UInt64) (draw : Nat) : Nat → Nat
  | 0 => 0
  | count + 1 =>
      let index := scatter (seed + draw.toUInt64 * 0x9E3779B97F4A7C15) + count.toUInt64
      wordsValue seed draw count * twoPow 64 + (scatter index).toNat

/-- The word that a seed stands for; a blank one counts as zero. -/
def startWord : Seed → UInt64
  | .number value => scatter (UInt64.ofNat (value % twoPow 64).toNat)
  | .blank => scatter 0

/-- A pseudorandom source. A draw below a large bound takes as many words as the bound has,
and one more. -/
def ofSeed (seed : Seed) : Source where
  below draw bound := wordsValue (startWord seed) draw (bound.log2 / 64 + 2) % bound
  below_lt _ _ positive := Nat.mod_lt _ positive
  unit draw := Double.ofRatio false (wordsValue (startWord seed) draw 1 / twoPow 11) (twoPow 53)

end Source

abbrev Draw := ExceptT Failure (StateM Source)

namespace Draw

def below (bound : Nat) : Draw Nat := do
  let source ← get
  set { source with drawn := source.drawn + 1 }
  return source.below source.drawn bound

def unit : Draw Double := do
  let source ← get
  set { source with drawn := source.drawn + 1 }
  return source.unit source.drawn

def ofExcept {α : Type} : Except Failure α → Draw α
  | .ok value => return value
  | .error failure => throw failure

end Draw

end TabletopDice
