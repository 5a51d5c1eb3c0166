/-!
# Random bracket strings

Balanced strings of brackets as input for parsers.  Each place takes a closing
bracket if as many brackets are open as places are left, an opening one if none
is open, and otherwise what a toss decides.

`Brackets.generate` takes the tosses from any source; `Brackets.sample` uses a
xorshift generator with a fixed seed and a probability of opening.
-/

namespace TableParsing.Brackets

/-- Fills `places` places when `nested` brackets are open, with tosses from a source. -/
def generate {σ : Type} (toss : σ → Bool × σ) : (places nested : Nat) → σ → List Char
  | 0, _, _ => []
  | places + 1, nested, source =>
    if nested = places + 1 then
      ')' :: generate toss places (nested - 1) source
    else if nested = 0 then
      '(' :: generate toss places 1 source
    else
      match toss source with
      | (true, source) => '(' :: generate toss places (nested + 1) source
      | (false, source) => ')' :: generate toss places (nested - 1) source

/-- The number of places for a requested length: the next even number above it. -/
def evenLength (length : Nat) : Nat := (length / 2 + 1) * 2

/-! ## Tosses -/

/-- The state of a xorshift generator: its last four words. -/
structure Xorshift where
  x : UInt32
  y : UInt32
  z : UInt32
  w : UInt32
deriving DecidableEq, Repr

namespace Xorshift

/-- The generator after one step; its last word is the word that the step yields. -/
def step (generator : Xorshift) : Xorshift :=
  let mixed := generator.x ^^^ (generator.x <<< 11)
  { x := generator.y
    y := generator.z
    z := generator.w
    w := generator.w ^^^ (generator.w >>> 19) ^^^ mixed ^^^ (mixed >>> 8) }

/-- The generator whose words are the bytes 0 to 15 in little-endian order. -/
def seed : Xorshift := ⟨0x03020100, 0x07060504, 0x0B0A0908, 0x0F0E0D0C⟩

/-- A number below two to the 52nd from two words, the low one first. -/
def draw (generator : Xorshift) : Nat × Xorshift :=
  let low := generator.step
  let high := low.step
  ((high.w.toNat * Nat.pow 2 32 + low.w.toNat) / Nat.pow 2 12, high)

/-- Whether a random number between 0 and 1 is below `depth`. -/
def toss (depth : Float) (generator : Xorshift) : Bool × Xorshift :=
  let (number, following) := generator.draw
  (number.toFloat / (Nat.pow 2 52).toFloat < depth, following)

end Xorshift

/-- A bracket string of at least the given length that opens a bracket with probability `depth`
where it has the choice. -/
def sample (length : Nat) (depth : Float) : String :=
  String.ofList (generate (Xorshift.toss depth) (evenLength length) 0 Xorshift.seed)

end TableParsing.Brackets
