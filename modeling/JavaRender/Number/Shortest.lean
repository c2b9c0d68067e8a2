import JavaRender.Number.Binary64

/-!
The shortest decimal that reads back as a given double. Decimal grids are tried from one significant
digit on; the first grid with a point that rounds to the double wins, of two points the nearer.
-/
namespace JavaRender.Shortest

/-- A positive number `factor * 10 ^ ten * 2 ^ two`. -/
structure Scaled where
  factor : Nat
  ten : Int
  two : Int

def Scaled.at (x : Scaled) (ten two : Int) : Nat :=
  x.factor * pow10 (x.ten - ten) * pow2 (x.two - two)

def Scaled.lt (x y : Scaled) : Bool :=
  let ten := min x.ten y.ten
  let two := min x.two y.two
  x.at ten two < y.at ten two

/-- The numbers that round to one double; the ends belong to an even significand. -/
structure Interval where
  low : Scaled
  high : Scaled
  closed : Bool

def Interval.contains (i : Interval) (x : Scaled) : Bool :=
  if i.closed then !x.lt i.low && !i.high.lt x else i.low.lt x && x.lt i.high

/-- Halfway to the neighbours; below a power of two the neighbour is only half as far. -/
def interval (m : Nat) (e : Int) : Interval :=
  let near := if m = pow2 52 && Binary64.minExponent < e then 1 else 2
  ⟨⟨4 * m - near, 0, e - 2⟩, ⟨4 * m + 2, 0, e - 2⟩, m % 2 = 0⟩

def floorAt (m : Nat) (e ten : Int) : Nat :=
  m * pow2 e * pow10 (-ten) / (pow2 (-e) * pow10 ten)

def leadingExponent (m : Nat) (e : Int) : Int :=
  ((Nat.toDigits 10 (floorAt m e (-400))).length : Int) - 401

/-- Of the two grid points around the value the one that rounds to it and lies nearer. -/
def onGrid? (m : Nat) (e ten : Int) : Option Nat :=
  let below := floorAt m e ten
  let i := interval m e
  let lowIn := i.contains ⟨below, ten, 0⟩
  let highIn := i.contains ⟨below + 1, ten, 0⟩
  if lowIn && highIn then
    -- twice the value against the sum of the two points
    let middle : Scaled := ⟨2 * below + 1, ten, 0⟩
    let twice : Scaled := ⟨2 * m, 0, e⟩
    if twice.lt middle then some below
    else if middle.lt twice then some (below + 1)
    else some (if below % 2 = 0 then below else below + 1)
  else if lowIn then some below
  else if highIn then some (below + 1)
  else none

/-- Tries the grids with `count` digits and more; the double itself lies on the last of them in
all cases, so the fuel of seventeen grids is enough. -/
def search (m : Nat) (e leading : Int) : Nat → Nat → Nat × Int
  | 0, count => (floorAt m e (leading - count), leading - count)
  | fuel + 1, count =>
    match onGrid? m e (leading - count) with
    | some n => (n, leading - count)
    | none => search m e leading fuel (count + 1)

def stripZeros (digits : List Char) : List Char :=
  (digits.reverse.dropWhile (· = '0')).reverse

def digits (m : Nat) (e : Int) : List Char × Int :=
  let (n, ten) := search m e (leadingExponent m e) 17 0
  let ds := Nat.toDigits 10 n
  (stripZeros ds, ten + (ds.length : Int) - 1)

/-- The digits from 0.0001 up to sixteen places are positional and always have a point; beyond that
stands an exponent with a sign and at least two digits. -/
def layOut (ds : List Char) (leading : Int) : List Char :=
  if -4 ≤ leading && leading < 16 then
    if leading < 0 then '0' :: '.' :: (List.replicate (leading.natAbs - 1) '0' ++ ds)
    else
      let whole := leading.toNat + 1
      if ds.length ≤ whole then ds ++ List.replicate (whole - ds.length) '0' ++ ['.', '0']
      else ds.take whole ++ '.' :: ds.drop whole
  else
    (match ds with
      | [] => []
      | [c] => [c]
      | c :: rest => c :: '.' :: rest) ++
    'e' :: (if leading < 0 then '-' else '+') :: Digit.padded 10 2 leading.natAbs

def chars : Binary64 → List Char
  | .nan => ['n', 'a', 'n']
  | .infinity negative => if negative then ['-', 'i', 'n', 'f'] else ['i', 'n', 'f']
  | .finite negative m e =>
    let body := if m = 0 then ['0', '.', '0'] else
      let (ds, leading) := digits m e
      layOut ds leading
    if negative then '-' :: body else body

def text (x : Binary64) : String := String.ofList (chars x)

end JavaRender.Shortest
