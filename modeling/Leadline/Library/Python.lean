import Leadline.Library.Json
import Mathlib.Algebra.Ring.Nat
import Mathlib.Data.Rat.Defs
import Mathlib.Data.List.Infix

/-!
Python's conversions and comparisons of JSON values. What they make of letters, of digits outside
of ASCII and of a text that is meant as a number is left to the interpreter, a parameter.
-/

namespace Leadline.Library

inductive Double
  | nan
  | negInf
  | finite (q : ℚ)
  | posInf
  deriving DecidableEq

namespace Double

def equal (a b : Double) : Bool := a ≠ nan && a = b

theorem equal_trans {a b c : Double} (h : a.equal b = true) (h' : b.equal c = true) : a.equal c = true := by
  simp only [Double.equal, Bool.and_eq_true, decide_eq_true_eq] at h
  obtain ⟨-, rfl⟩ := h
  exact h'

def less : Double → Double → Bool
  | negInf, finite _ => true
  | negInf, posInf => true
  | finite p, finite q => p < q
  | finite _, posInf => true
  | _, _ => false

def lessOrEqual (a b : Double) : Bool := a.less b || a.equal b

end Double

/-- An integer that no double is near to: it would be rounded to `2 ^ 1024` or further from zero. -/
def Double.BeyondRange (n : ℤ) : Prop := 2 ^ 1024 - 2 ^ 970 ≤ n.natAbs

instance (n : ℤ) : Decidable (Double.BeyondRange n) := inferInstanceAs (Decidable (_ ≤ _))

/-- How `float(value)` ends: a number, a TypeError or ValueError, or an OverflowError. -/
inductive FloatCall
  | value (d : Double)
  | invalid
  | overflow

structure Python where
  lower : String → String
  digit : Char → Option ℕ
  double : String → Double
  float : Json → FloatCall
  int : Json → Option ℤ

namespace Python

variable (py : Python)

def intOf : Json → Option ℤ
  | .int n => some n
  | .bool b => some (if b then 1 else 0)
  | .str s => py.int (.str s)
  | .float l => py.int (.float l)
  | _ => none

/-- An OverflowError is what `float` makes of the integers beyond the range of a double, and of nothing else. -/
def OverflowsOnIntegers : Prop := ∀ value, py.float value = .overflow ↔ ∃ n, value = .int n ∧ Double.BeyondRange n

/-- `bool(value)` -/
def truthy : Json → Bool
  | .null => false
  | .bool b => b
  | .int n => n ≠ 0
  | .float l => py.double l ≠ .finite 0
  | .str s => s ≠ ""
  | .arr items => !items.isEmpty
  | .obj fields => !fields.isEmpty

def numeric : Json → Option Double
  | .int n => some (.finite n)
  | .bool b => some (.finite (if b then 1 else 0))
  | .float l => some (py.double l)
  | _ => none

mutual

/-- `==` -/
def equal : Json → Json → Bool
  | .null, .null => true
  | .str s, .str t => s = t
  | .arr xs, .arr ys => equalItems xs ys
  | .obj fs, .obj gs => fs.length = gs.length && equalFields fs gs
  | a, b =>
    match py.numeric a, py.numeric b with
    | some x, some y => x.equal y
    | _, _ => false

def equalItems : List Json → List Json → Bool
  | [], [] => true
  | x :: xs, y :: ys => equal x y && equalItems xs ys
  | _, _ => false

def equalFields : List (String × Json) → Dict → Bool
  | [], _ => true
  | (k, x) :: fs, gs =>
    (match Dict.get gs k with
      | some y => equal x y
      | none => false) && equalFields fs gs

end

variable {py} in
theorem equalFields_get {fs gs : Dict} {k : String} {v : Json} (h : py.equalFields fs gs = true)
    (hv : Dict.get fs k = some v) : ∃ w, Dict.get gs k = some w ∧ py.equal v w = true := by
  induction fs with
  | nil => cases hv
  | cons p fs ih =>
    obtain ⟨l, x⟩ := p
    simp only [equalFields, Bool.and_eq_true] at h
    obtain ⟨hfirst, hrest⟩ := h
    rw [Dict.get, List.lookup_cons] at hv
    split at hv
    · rename_i hk
      cases hv
      rw [eq_of_beq hk]
      split at hfirst
      · rename_i w hw
        exact ⟨w, hw, hfirst⟩
      · cases hfirst
    · exact ih hrest hv

variable {py} in
theorem equal_obj_get {fs : Dict} {j : Json} {k : String} {v : Json} (h : py.equal (.obj fs) j = true)
    (hv : Dict.get fs k = some v) : ∃ gs w, j = .obj gs ∧ Dict.get gs k = some w ∧ py.equal v w = true := by
  cases j with
  | obj gs =>
    simp only [equal, Bool.and_eq_true] at h
    obtain ⟨w, hw, heq⟩ := equalFields_get h.2 hv
    exact ⟨gs, w, rfl, hw, heq⟩
  | null => simp [equal, numeric] at h
  | bool b => simp [equal, numeric] at h
  | int n => simp [equal, numeric] at h
  | float l => simp [equal, numeric] at h
  | str s => simp [equal, numeric] at h
  | arr items => simp [equal, numeric] at h

section

variable {py}

theorem equal_of_numeric {x : Json} {a : Double} (hx : py.numeric x = some a) (y : Json) :
    py.equal x y = true ↔ ∃ b, py.numeric y = some b ∧ a.equal b = true := by
  cases x with
  | int n => cases hx; cases y <;> simp [equal, numeric]
  | bool n => cases hx; cases y <;> simp [equal, numeric]
  | float n => cases hx; cases y <;> simp [equal, numeric]
  | null => cases hx
  | str s => cases hx
  | arr s => cases hx
  | obj s => cases hx

theorem equal_trans_of_numeric {x y z : Json} {a : Double} (hx : py.numeric x = some a) (h : py.equal x y = true)
    (h' : py.equal y z = true) : py.equal x z = true := by
  obtain ⟨b, hy, hab⟩ := (equal_of_numeric hx y).mp h
  obtain ⟨c, hz, hbc⟩ := (equal_of_numeric hy z).mp h'
  exact (equal_of_numeric hx z).mpr ⟨c, hz, Double.equal_trans hab hbc⟩

mutual

theorem equal_trans : ∀ (x y z : Json), py.equal x y = true → py.equal y z = true → py.equal x z = true
  | .null, y, z, h, h' => by
    cases y with
    | null => exact h'
    | _ => simp [equal, numeric] at h
  | .str s, y, z, h, h' => by
    cases y with
    | str t =>
      rwa [of_decide_eq_true h]
    | _ => simp [equal, numeric] at h
  | .bool b, y, z, h, h' => equal_trans_of_numeric rfl h h'
  | .int n, y, z, h, h' => equal_trans_of_numeric rfl h h'
  | .float l, y, z, h, h' => equal_trans_of_numeric rfl h h'
  | .arr xs, y, z, h, h' => by
    cases y with
    | arr ys =>
      cases z with
      | arr zs => exact equalItems_trans xs ys zs h h'
      | _ => simp [equal, numeric] at h'
    | _ => simp [equal, numeric] at h
  | .obj fs, y, z, h, h' => by
    cases y with
    | obj gs =>
      cases z with
      | obj hs =>
        simp only [equal, Bool.and_eq_true, decide_eq_true_eq] at h h' ⊢
        exact ⟨h.1.trans h'.1, equalFields_trans fs gs hs h.2 h'.2⟩
      | _ => simp [equal, numeric] at h'
    | _ => simp [equal, numeric] at h

theorem equalItems_trans : ∀ (xs ys zs : List Json), py.equalItems xs ys = true → py.equalItems ys zs = true →
    py.equalItems xs zs = true
  | [], ys, zs, h, h' => by
    cases ys with
    | nil => exact h'
    | cons y ys => cases h
  | x :: xs, ys, zs, h, h' => by
    cases ys with
    | nil => cases h
    | cons y ys =>
      cases zs with
      | nil => cases h'
      | cons z zs =>
        simp only [equalItems, Bool.and_eq_true] at h h' ⊢
        exact ⟨equal_trans x y z h.1 h'.1, equalItems_trans xs ys zs h.2 h'.2⟩

theorem equalFields_trans : ∀ (fs gs hs : Dict), py.equalFields fs gs = true → py.equalFields gs hs = true →
    py.equalFields fs hs = true
  | [], gs, hs, h, h' => rfl
  | (k, x) :: fs, gs, hs, h, h' => by
    simp only [equalFields, Bool.and_eq_true] at h ⊢
    obtain ⟨hfirst, hrest⟩ := h
    refine ⟨?_, equalFields_trans fs gs hs hrest h'⟩
    split at hfirst
    · rename_i y hy
      obtain ⟨z, hz, hyz⟩ := equalFields_get h' hy
      rw [hz]
      exact equal_trans x y z hfirst hyz
    · cases hfirst

end

end

/-- `part.lower() in text.lower()` -/
def containsText (text part : String) : Bool := (py.lower part).toList <:+: (py.lower text).toList

/-- Enough of an interpreter for ASCII texts and values without a `float`. -/
def ascii : Python where
  lower s := String.ofList (s.toList.map Char.toLower)
  digit c := if c.isDigit then some (c.toNat - '0'.toNat) else none
  double _ := .nan
  float
    | .int n => .value (.finite n)
    | .bool b => .value (.finite (if b then 1 else 0))
    | _ => .invalid
  int _ := none

end Python

end Leadline.Library
