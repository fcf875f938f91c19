import Mathlib.Algebra.Group.Nat.Defs
import Mathlib.Data.Int.Notation
import Mathlib.Data.List.DropRight

namespace Leadline.Library

/-- The parts of `-?(0|[1-9][0-9]*)(\.[0-9]+)?([eE][-+]?[0-9]+)?`. -/
structure Literal where
  sign : List Char
  integer : List Char
  fraction : List Char
  exponent : List Char

def natOfDigits (ds : List Char) : ℕ := ds.foldl (fun n d => n * 10 + (d.toNat - '0'.toNat)) 0

namespace Literal

variable (l : Literal)

def chars : List Char := l.sign ++ l.integer ++ l.fraction ++ l.exponent

def exponentValue : ℤ :=
  match l.exponent.tail with
  | '-' :: ds => -natOfDigits ds
  | '+' :: ds => natOfDigits ds
  | ds => natOfDigits ds

def magnitude : Float.Model :=
  Float.Model.ofScientific (natOfDigits (l.integer ++ l.fraction.tail)) (l.exponentValue - l.fraction.tail.length)

/-- The literal that `repr` gives the decimal `0.d₁d₂… * 10 ^ point`. -/
def ofDigits (ds : List Char) (point : ℤ) : Literal :=
  if -4 < point ∧ point ≤ 16 then
    if point ≤ 0 then ⟨[], ['0'], '.' :: (List.replicate (-point).toNat '0' ++ ds), []⟩
    else if ds.length ≤ point.toNat then ⟨[], ds ++ List.replicate (point.toNat - ds.length) '0', ['.', '0'], []⟩
    else ⟨[], ds.take point.toNat, '.' :: ds.drop point.toNat, []⟩
  else
    let power := Nat.toDigits 10 (point - 1).natAbs
    ⟨[], ds.take 1, if ds.tail = [] then [] else '.' :: ds.tail,
      'e' :: ([if point < 1 then '-' else '+'] ++ (List.replicate (2 - power.length) '0' ++ power))⟩

def zero : Literal := ⟨[], ['0'], ['.', '0'], []⟩

def ofDecimal (c : ℕ) (e : ℤ) : Literal :=
  let ds := Nat.toDigits 10 c
  if c = 0 then zero else ofDigits (ds.rdropWhile (· = '0')) (ds.length + e)

def around (num den : ℕ) (point : ℤ) (n : ℕ) : List Literal :=
  let e := point - n
  let num := num * 10 ^ (-e).toNat
  let den := den * 10 ^ e.toNat
  let below := num / den
  let rest := 2 * (num % den)
  -- the nearer one first, and of a tie the even one
  if rest < den ∨ rest = den ∧ below % 2 = 0 then [ofDecimal below e, ofDecimal (below + 1) e]
  else [ofDecimal (below + 1) e, ofDecimal below e]

def decimals (num den : ℕ) : List Literal :=
  let point : ℤ :=
    if den ≤ num then (Nat.toDigits 10 (num / den)).length else 1 - (Nat.toDigits 10 (den / num)).length
  -- 17 digits are enough for a double
  (List.range' 1 17).flatMap (around num den point)

def candidates : Float.Model.UnpackedFloat → List Literal
  | .finite _ m e _ => decimals (m * 2 ^ e.toNat) (2 ^ (-e).toNat)
  | _ => [zero]

/-- The first of the candidates that is read as the same double. -/
def shortest : Literal :=
  { ((candidates l.magnitude.unpack).find? (·.magnitude = l.magnitude)).getD l with sign := l.sign }

/-- `float.__repr__` of the number, with the name that `json` has for one that is out of range. -/
def repr : String :=
  if l.magnitude.isInf then String.ofList (l.sign ++ "Infinity".toList) else String.ofList l.shortest.chars

end Literal

end Leadline.Library
