import Leadline.Library.Floats
import Leadline.Library.Printable
import Mathlib.Data.List.Forall2

/-!
JSON texts as Python's `json` module reads and writes them. A float is the literal that `json.dumps` has for it. An
unpaired surrogate, which no text of Lean holds, is read as the private character `0x800` above it.
-/

namespace Leadline.Library

inductive Json
  | null
  | bool (b : Bool)
  | int (n : ℤ)
  | float (literal : String)
  | str (s : String)
  | arr (items : List Json)
  | obj (fields : List (String × Json))

abbrev Dict := List (String × Json)

namespace Dict

def get (d : Dict) (k : String) : Option Json := d.lookup k

/-- Item assignment: an existing key keeps its place. -/
def set (d : Dict) (k : String) (v : Json) : Dict :=
  if d.any (·.1 = k) then d.map (fun p => if p.1 = k then (k, v) else p) else d ++ [(k, v)]

def str? (d : Dict) (k : String) : Option String :=
  match d.get k with
  | some (.str s) => some s
  | _ => none

theorem str?_eq_some {d : Dict} {k s : String} : d.str? k = some s ↔ d.get k = some (.str s) := by
  unfold str?
  split
  · rename_i t hget
    simp [hget]
  · rename_i hother
    simpa using hother s

def text (d : Dict) (k : String) : Option String := (d.str? k).filter (· ≠ "")

theorem text_eq_some {d : Dict} {k s : String} : d.text k = some s ↔ d.str? k = some s ∧ s ≠ "" := by
  rw [text, Option.filter_eq_some_iff]
  simp

theorem eq_of_text {d : Dict} {k s t : String} (hs : d.str? k = some s) (ht : d.text k = some t) : s = t :=
  Option.some.inj (hs.symm.trans (text_eq_some.mp ht).1)

theorem get_set_self (d : Dict) (k : String) (v : Json) : (d.set k v).get k = some v := by
  have hreplaced : ∀ d : Dict, d.any (·.1 = k) = true →
      Dict.get (d.map fun p => if p.1 = k then (k, v) else p) k = some v := by
    intro d
    induction d with
    | nil =>
      intro h
      cases h
    | cons p d ih =>
      intro h
      rw [List.map_cons]
      by_cases hp : p.1 = k
      · rw [if_pos hp, get, List.lookup_cons]
        simp
      · have hne : (k == p.1) = false := by simpa using fun h => hp h.symm
        have hrest : d.any (·.1 = k) = true := by simpa [hp] using h
        rw [if_neg hp, get, List.lookup_cons, hne]
        exact ih hrest
  have hadded : ∀ d : Dict, ¬d.any (·.1 = k) = true → Dict.get (d ++ [(k, v)]) k = some v := by
    intro d
    induction d with
    | nil =>
      intro _
      rw [List.nil_append, get, List.lookup_cons]
      simp
    | cons p d ih =>
      intro h
      have hp : p.1 ≠ k := by
        intro hp
        exact h (by simp [hp])
      have hne : (k == p.1) = false := by simpa using fun h => hp h.symm
      have hrest : ¬d.any (·.1 = k) = true := by simpa [hp] using h
      rw [List.cons_append, get, List.lookup_cons, hne]
      exact ih hrest
  unfold set
  split
  · rename_i h
    exact hreplaced d h
  · rename_i h
    exact hadded d h

theorem get_set_of_ne (d : Dict) {j k : String} (v : Json) (h : j ≠ k) : (d.set k v).get j = d.get j := by
  have hreplaced : ∀ d : Dict, Dict.get (d.map fun p => if p.1 = k then (k, v) else p) j = d.get j := by
    intro d
    induction d with
    | nil => rfl
    | cons p d ih =>
      obtain ⟨l, w⟩ := p
      by_cases hl : l = k
      · have hne : (j == l) = false := by simpa [hl] using h
        have hne' : (j == k) = false := by simpa using h
        simp only [List.map_cons, hl, if_true, get, List.lookup_cons, hne']
        exact ih
      · simp only [List.map_cons, hl, if_false, get, List.lookup_cons]
        split
        · rfl
        · exact ih
  have hadded : ∀ d : Dict, Dict.get (d ++ [(k, v)]) j = d.get j := by
    intro d
    have hlast : List.lookup j [(k, v)] = none := by simpa using h
    rw [get, List.lookup_append, hlast, Option.or_none, get]
  unfold set
  split
  · exact hreplaced d
  · exact hadded d

theorem set_ne_nil (d : Dict) (k : String) (v : Json) : d.set k v ≠ [] := by
  intro h
  have hget := get_set_self d k v
  rw [h] at hget
  cases hget

def setAll (d : Dict) (items : List (String × Json)) : Dict := items.foldl (fun d p => d.set p.1 p.2) d

def mapItems (f : String → Json → Json) (d : Dict) : Dict := d.map fun p => (p.1, f p.1 p.2)

theorem get_mapItems (f : String → Json → Json) (d : Dict) (k : String) :
    (mapItems f d).get k = (d.get k).map (f k) := by
  induction d with
  | nil => rfl
  | cons p d ih =>
    obtain ⟨j, v⟩ := p
    simp only [get, mapItems, List.map_cons, List.lookup_cons] at ih ⊢
    cases hk : k == j with
    | true => rw [eq_of_beq hk]; rfl
    | false => exact ih

theorem get_setAll_of_not_mem {items : List (String × Json)} {k : String} (h : k ∉ items.map Prod.fst) (d : Dict) :
    (d.setAll items).get k = d.get k := by
  induction items generalizing d with
  | nil => rfl
  | cons p items ih =>
    rw [List.map_cons, List.mem_cons, not_or] at h
    exact (ih h.2 (d.set p.1 p.2)).trans (get_set_of_ne d p.2 h.1)

def Alike (k : String) : Dict → Dict → Prop := List.Forall₂ fun p q => p.1 = q.1 ∧ (p.1 ≠ k → p = q)

theorem Alike.any_eq {d e : Dict} {k : String} (h : Alike k d e) (j : String) :
    d.any (·.1 = j) = e.any (·.1 = j) := by
  induction h with
  | nil => rfl
  | cons hpq _ ih => rw [List.any_cons, List.any_cons, ih, hpq.1]

theorem Alike.set {d e : Dict} {k : String} (h : Alike k d e) (j : String) (v : Json) :
    Alike k (d.set j v) (e.set j v) := by
  unfold Dict.set
  rw [h.any_eq]
  split
  · refine List.forall₂_map_left_iff.mpr (List.forall₂_map_right_iff.mpr (h.imp fun p q hpq => ?_))
    rw [hpq.1]
    split
    · exact ⟨rfl, fun _ => rfl⟩
    · exact hpq
  · exact List.rel_append h (.cons ⟨rfl, fun _ => rfl⟩ .nil)

theorem Alike.set_self {d e : Dict} {k : String} (h : Alike k d e) (v : Json) : d.set k v = e.set k v := by
  have hreplaced : d.map (fun p => if p.1 = k then (k, v) else p) = e.map fun p => if p.1 = k then (k, v) else p := by
    induction h with
    | nil => rfl
    | @cons p q d e hpq _ ih =>
      rw [List.map_cons, List.map_cons, ih, hpq.1]
      split
      · rfl
      · rename_i hne
        rw [hpq.2 (hpq.1 ▸ hne)]
  have hsame : ¬e.any (·.1 = k) = true → d = e := by
    clear hreplaced
    induction h with
    | nil => exact fun _ => rfl
    | @cons p q d e hpq _ ih =>
      intro hnone
      simp only [List.any_cons, Bool.or_eq_true, decide_eq_true_eq, not_or] at hnone
      rw [hpq.2 (hpq.1 ▸ hnone.1), ih hnone.2]
  unfold Dict.set
  rw [h.any_eq]
  split
  · exact hreplaced
  · rename_i hnone
    rw [hsame hnone]

theorem alike_set (d : Dict) (k : String) (v w : Json) : Alike k (d.set k v) (d.set k w) := by
  unfold Dict.set
  split
  · refine List.forall₂_map_left_iff.mpr (List.forall₂_map_right_iff.mpr (List.forall₂_same.mpr fun p _ => ?_))
    split
    · exact ⟨rfl, fun h => absurd rfl h⟩
    · exact ⟨rfl, fun _ => rfl⟩
  · exact List.rel_append (List.forall₂_same.mpr fun p _ => ⟨rfl, fun _ => rfl⟩) (.cons ⟨rfl, fun h => absurd rfl h⟩ .nil)

theorem Alike.setAll {d e : Dict} {items : List (String × Json)} {k : String} (h : Alike k d e)
    (hmem : k ∈ items.map Prod.fst) : d.setAll items = e.setAll items := by
  induction items generalizing d e with
  | nil => cases hmem
  | cons p items ih =>
    by_cases hp : p.1 = k
    · have hset : d.set p.1 p.2 = e.set p.1 p.2 := by rw [hp, h.set_self]
      exact congrArg (fun d => Dict.setAll d items) hset
    · exact ih (h.set p.1 p.2) ((List.mem_cons.mp hmem).resolve_left (Ne.symm hp))

theorem mapItems_set (f : String → Json → Json) (d : Dict) (k : String) (v : Json) :
    mapItems f (d.set k v) = (mapItems f d).set k (f k v) := by
  have hany : (mapItems f d).any (·.1 = k) = d.any (·.1 = k) := by
    rw [mapItems, List.any_map]
    rfl
  unfold set
  rw [hany]
  split
  · simp only [mapItems, List.map_map]
    refine List.map_congr_left fun p _ => ?_
    simp only [Function.comp_apply]
    split <;> rfl
  · simp [mapItems]

theorem mapItems_setAll (f : String → Json → Json) (d : Dict) (items : List (String × Json)) :
    mapItems f (d.setAll items) = (mapItems f d).setAll (mapItems f items) := by
  induction items generalizing d with
  | nil => rfl
  | cons p items ih =>
    have hrest := ih (d.set p.1 p.2)
    rw [mapItems_set] at hrest
    exact hrest

end Dict

namespace Json

inductive Step
  | index (i : ℕ)
  | key (k : String)

def follow : List Step → Json → Option Json
  | [], v => some v
  | .index i :: path, .arr items => items[i]?.bind (follow path)
  | .key k :: path, .obj fields => (Dict.get fields k).bind (follow path)
  | _ :: _, _ => none

def isBlank (c : Char) : Bool := c = ' ' || c = '\t' || c = '\n' || c = '\r'

def skipBlank (cs : List Char) : List Char := cs.dropWhile isBlank

def hexDigit (c : Char) : Option ℕ :=
  if '0' ≤ c ∧ c ≤ '9' then some (c.toNat - '0'.toNat)
  else if 'a' ≤ c ∧ c ≤ 'f' then some (c.toNat - 'a'.toNat + 10)
  else if 'A' ≤ c ∧ c ≤ 'F' then some (c.toNat - 'A'.toNat + 10)
  else none

def hex4 : List Char → Option (ℕ × List Char)
  | a :: b :: c :: d :: rest => do
    let a ← hexDigit a
    let b ← hexDigit b
    let c ← hexDigit c
    let d ← hexDigit d
    pure (((a * 16 + b) * 16 + c) * 16 + d, rest)
  | _ => none

def shortEscapes : List (Char × Char) :=
  [('"', '"'), ('\\', '\\'), ('/', '/'), ('b', '\x08'), ('f', '\x0c'), ('n', '\n'),
    ('r', '\r'), ('t', '\t')]

def isHighSurrogate (n : ℕ) : Bool := 0xd800 ≤ n && n ≤ 0xdbff

def isLowSurrogate (n : ℕ) : Bool := 0xdc00 ≤ n && n ≤ 0xdfff

def lowSurrogate : List Char → Option (ℕ × List Char)
  | a :: b :: rest =>
    if a = '\\' ∧ b = 'u' then (hex4 rest).filter (fun p => isLowSurrogate p.1) else none
  | _ => none

/-- The character of a `\uXXXX` escape; a high surrogate takes a following low one with it. -/
def unicodeEscape (cs : List Char) : Option (Char × List Char) := do
  let (n, rest) ← hex4 cs
  if isHighSurrogate n then
    match lowSurrogate rest with
    | some (lo, rest) => pure (Char.ofNat (0x10000 + (n - 0xd800) * 0x400 + (lo - 0xdc00)), rest)
    | none => pure (Char.ofNat (n + 0x800), rest)
  else if isLowSurrogate n then pure (Char.ofNat (n + 0x800), rest)
  else pure (Char.ofNat n, rest)

def escapeTail : List Char → Option (Char × List Char)
  | [] => none
  | c :: cs =>
    if c = 'u' then unicodeEscape cs
    else (shortEscapes.lookup c).map fun ch => (ch, cs)

def stringTail : ℕ → List Char → Option (List Char × List Char)
  | 0, _ => none
  | _ + 1, [] => none
  | n + 1, c :: cs =>
    if c = '"' then some ([], cs)
    else if c = '\\' then do
      let (ch, rest) ← escapeTail cs
      let (s, rest) ← stringTail n rest
      pure (ch :: s, rest)
    else if c.toNat < 0x20 then none
    else do
      let (s, rest) ← stringTail n cs
      pure (c :: s, rest)

/-- `int()` refuses more than 4300 digits. -/
def maxStrDigits : ℕ := 4300

/-- The digits of `(0|[1-9][0-9]*)`. -/
def integerPart (cs : List Char) : Option (List Char × List Char) :=
  if cs.head? = some '0' then some (['0'], cs.tail)
  else
    let ds := cs.takeWhile Char.isDigit
    if ds = [] then none else some (ds, cs.drop ds.length)

/-- The text of `(\.[0-9]+)?`. -/
def fractionPart (cs : List Char) : List Char × List Char :=
  let ds := cs.tail.takeWhile Char.isDigit
  if cs.head? = some '.' ∧ ds ≠ [] then ('.' :: ds, cs.tail.drop ds.length) else ([], cs)

/-- The text of `([eE][-+]?[0-9]+)?`. -/
def exponentPart (cs : List Char) : List Char × List Char :=
  let e := cs.take 1
  let sign := (cs.tail.take 1).filter (fun c => c = '+' || c = '-')
  let ds := (cs.tail.drop sign.length).takeWhile Char.isDigit
  if (e = ['e'] ∨ e = ['E']) ∧ ds ≠ [] then
    (e ++ sign ++ ds, cs.tail.drop (sign.length + ds.length))
  else ([], cs)

def number (cs : List Char) : Option (Json × List Char) := do
  let (sign, cs) := if cs.head? = some '-' then (['-'], cs.tail) else ([], cs)
  let (ds, rest) ← integerPart cs
  let (frac, rest) := fractionPart rest
  let (exp, rest) := exponentPart rest
  if frac = [] ∧ exp = [] then
    if ds.length ≤ maxStrDigits then
      pure (.int (if sign = [] then natOfDigits ds else -natOfDigits ds), rest)
    else none
  else pure (.float (Literal.repr ⟨sign, ds, frac, exp⟩), rest)

def constants : List (String × Json) :=
  [("null", .null), ("true", .bool true), ("false", .bool false),
    ("NaN", .float "NaN"), ("Infinity", .float "Infinity"), ("-Infinity", .float "-Infinity")]

def constant (cs : List Char) : Option (Json × List Char) :=
  constants.findSome? fun (name, j) =>
    if name.toList.isPrefixOf cs then some (j, cs.drop name.length) else none

mutual

def value : ℕ → List Char → Option (Json × List Char)
  | 0, _ => none
  | _ + 1, [] => none
  | n + 1, c :: cs =>
    if c = '"' then (stringTail (n + 1) cs).map fun (s, rest) => (.str (String.ofList s), rest)
    else if c = '{' then
      if (skipBlank cs).head? = some '}' then some (.obj [], (skipBlank cs).tail)
      else (members n [] (skipBlank cs)).map fun (d, rest) => (.obj d, rest)
    else if c = '[' then
      if (skipBlank cs).head? = some ']' then some (.arr [], (skipBlank cs).tail)
      else (elements n (skipBlank cs)).map fun (js, rest) => (.arr js, rest)
    else (constant (c :: cs)).orElse fun _ => number (c :: cs)

def elements : ℕ → List Char → Option (List Json × List Char)
  | 0, _ => none
  | n + 1, cs => do
    let (j, rest) ← value n cs
    let next := skipBlank rest
    if next.head? = some ',' then do
      let (js, rest) ← elements n (skipBlank next.tail)
      pure (j :: js, rest)
    else if next.head? = some ']' then pure ([j], next.tail)
    else none

/-- The members of an object up to its closing brace; of two equal keys the last one counts. -/
def members : ℕ → Dict → List Char → Option (Dict × List Char)
  | 0, _, _ => none
  | n + 1, d, cs =>
    if cs.head? = some '"' then do
      let (k, rest) ← stringTail (n + 1) cs.tail
      let colon := skipBlank rest
      if colon.head? = some ':' then do
        let (j, rest) ← value n (skipBlank colon.tail)
        let next := skipBlank rest
        let d := d.set (String.ofList k) j
        if next.head? = some ',' then members n d (skipBlank next.tail)
        else if next.head? = some '}' then pure (d, next.tail)
        else none
      else none
    else none

end

/-- `json.loads`; `none` where it raises. -/
def loads (text : String) : Option Json :=
  let cs := text.toList
  match value (cs.length + 1) (skipBlank cs) with
  | some (j, rest) => if skipBlank rest = [] then some j else none
  | none => none

def hexChar (n : ℕ) : Char := if n < 10 then Char.ofNat (n + '0'.toNat) else Char.ofNat (n - 10 + 'a'.toNat)

def unitEscape (n : ℕ) : List Char :=
  ['\\', 'u', hexChar (n / 4096 % 16), hexChar (n / 256 % 16), hexChar (n / 16 % 16), hexChar (n % 16)]

def escape (c : Char) : List Char :=
  let n := c.toNat
  match (shortEscapes.filter (fun p => p.1 ≠ '/')).find? (fun p => p.2 = c) with
  | some p => ['\\', p.1]
  | none =>
    if 0x20 ≤ n ∧ n < 0x7f then [c]
    else if n < 0x10000 then unitEscape n
    else unitEscape (0xd800 + (n - 0x10000) / 0x400) ++ unitEscape (0xdc00 + (n - 0x10000) % 0x400)

def literal (s : String) : String := String.ofList ('"' :: s.toList.flatMap escape ++ ['"'])

mutual

/-- `json.dumps` with its default separators. -/
def dumps : Json → String
  | .null => "null"
  | .bool b => if b then "true" else "false"
  | .int n => toString n
  | .float l => l
  | .str s => literal s
  | .arr items => "[" ++ String.intercalate ", " (dumpItems items) ++ "]"
  | .obj fields => "\x7b" ++ String.intercalate ", " (dumpFields fields) ++ "\x7d"

def dumpItems : List Json → List String
  | [] => []
  | j :: js => dumps j :: dumpItems js

def dumpFields : List (String × Json) → List String
  | [] => []
  | (k, j) :: fs => (literal k ++ ": " ++ dumps j) :: dumpFields fs

end

def reprEscape (q c : Char) : List Char :=
  let n := c.toNat
  if c = q ∨ c = '\\' then ['\\', c]
  else if c = '\n' then ['\\', 'n']
  else if c = '\r' then ['\\', 'r']
  else if c = '\t' then ['\\', 't']
  else if Printable.isPrintable c then [c]
  else if n < 0x100 then ['\\', 'x', hexChar (n / 16), hexChar (n % 16)]
  else if n < 0x10000 then unitEscape n
  else '\\' :: 'U' :: ((unitEscape (n / 0x10000)).drop 2 ++ (unitEscape (n % 0x10000)).drop 2)

/-- `repr` of a string: double quotes only around a text that has a single quote and no double one. -/
def quote (s : String) : String :=
  let q := if s.toList.contains '\'' && !s.toList.contains '"' then '"' else '\''
  String.ofList (q :: s.toList.flatMap (reprEscape q) ++ [q])

/-- `float.__repr__`, which has other names than `json.dumps` for what is no number. -/
def floatRepr (literal : String) : String :=
  if literal = "NaN" then "nan"
  else if literal = "Infinity" then "inf"
  else if literal = "-Infinity" then "-inf"
  else literal

mutual

def pyRepr : Json → String
  | .null => "None"
  | .bool b => if b then "True" else "False"
  | .int n => toString n
  | .float l => floatRepr l
  | .str s => quote s
  | .arr items => "[" ++ String.intercalate ", " (reprItems items) ++ "]"
  | .obj fields => "\x7b" ++ String.intercalate ", " (reprFields fields) ++ "\x7d"

def reprItems : List Json → List String
  | [] => []
  | j :: js => pyRepr j :: reprItems js

def reprFields : List (String × Json) → List String
  | [] => []
  | (k, j) :: fs => (quote k ++ ": " ++ pyRepr j) :: reprFields fs

end

/-- `str(value)`. -/
def pyStr : Json → String
  | .str s => s
  | j => pyRepr j

example : (loads " \x7b\"event\": \"lead\\u002ecreated\", \"n\" :[1,-2, true]\x7d ").map dumps =
    some "\x7b\"event\": \"lead.created\", \"n\": [1, -2, true]\x7d" := by decide +kernel

example : (loads "[1e2, 0.00001, -0.0, 1e400]").map dumps = some "[100.0, 1e-05, -0.0, Infinity]" := by decide +kernel

example : pyRepr (.arr [.float "Infinity", .str "\x01é\u200b"]) = "[inf, '\\x01é\\u200b']" := by decide +kernel

end Json

end Leadline.Library
