/-!
# The shortest decimal of a binary number

A double is a whole number times a power of two. Every real number nearer to it than
to its neighbours reads back as it, ends included when the whole number is even. Of
the decimals in that interval `Shortest.of` takes one with the fewest digits, and of
those the nearest to the double; of two that are equally near it takes the even one.

`Shortest.scientific` and `Shortest.positional` are the two ways the library writes
such a decimal.
-/

namespace TableStore.Decimal

/-- A decimal: `digits` times ten to the `exponent`, with a sign. -/
structure Shortest where
  /-- Whether a minus stands in front. -/
  negative : Bool
  /-- The digits, as a number; zero only for zero. -/
  digits : Nat
  /-- The power of ten. -/
  exponent : Int
  deriving DecidableEq, Repr

/-- A positive fraction. -/
structure Ratio where
  num : Nat
  den : Nat

/-- A fraction times a power of ten. -/
def Ratio.shift (r : Ratio) (e : Int) : Ratio :=
  match e with
  | .ofNat n => ⟨r.num * Nat.pow 10 n, r.den⟩
  | .negSucc n => ⟨r.num, r.den * Nat.pow 10 (n + 1)⟩

/-- The interval of reals that read back as one double, and the double. -/
structure Interval where
  low : Ratio
  value : Ratio
  high : Ratio
  /-- Whether the ends belong to the interval. -/
  closed : Bool

/-- Whether a number of units of ten to the `e` lies in the interval. -/
def Interval.holds (i : Interval) (e : Int) (n : Nat) : Bool :=
  let low := i.low.shift (-e)
  let high := i.high.shift (-e)
  if i.closed then low.num ≤ n * low.den && n * high.den ≤ high.num
  else low.num < n * low.den && n * high.den < high.num

/-- The best whole number of units of ten to the `e` in the interval, if there is one. -/
def Interval.best? (i : Interval) (e : Int) : Option Nat :=
  let v := i.value.shift (-e)
  let below := v.num / v.den
  let rest := v.num % v.den
  match i.holds e below && below != 0, i.holds e (below + 1) with
  | true, true =>
    if 2 * rest < v.den then some below
    else if 2 * rest > v.den then some (below + 1)
    else some (if below % 2 = 0 then below else below + 1)
  | true, false => some below
  | false, true => some (below + 1)
  | false, false => none

/-- Try ever finer units, `fuel` of them, from ten to the `e` downwards. -/
def Interval.search (i : Interval) (e : Int) : Nat → Nat × Int
  | 0 => (i.value.num / i.value.den, 0)
  | fuel + 1 =>
    match i.best? e with
    | some n => (n, e)
    | none => i.search (e - 1) fuel

/-- Take the zeros off the end of a number, counting them. -/
def stripZeros (n : Nat) (e : Int) : Nat → Nat × Int
  | 0 => (n, e)
  | fuel + 1 => if n % 10 = 0 && n != 0 then stripZeros (n / 10) (e + 1) fuel else (n, e)

/-- The interval around `m` times two to the `q`; the gap below a power of two is half
the gap above it. -/
def Interval.around (m : Nat) (q : Int) (narrow : Bool) : Interval :=
  let low := if narrow then 4 * m - 1 else 4 * m - 2
  let scale (n : Nat) : Ratio :=
    match q - 2 with
    | .ofNat k => ⟨n * Nat.pow 2 k, 1⟩
    | .negSucc k => ⟨n, Nat.pow 2 (k + 1)⟩
  ⟨scale low, scale (4 * m), scale (4 * m + 2), m % 2 = 0⟩

/-- The leading bit of a double's whole number, which is not stored: two to the 52nd. -/
def hiddenBit : Nat := 4503599627370496

/-- The shortest decimal of a finite double. -/
def Shortest.of (x : Float) : Shortest :=
  let bits : Nat := x.toBits.toNat
  let negative : Bool := bits >>> 63 == 1
  let biased : Nat := (bits >>> 52) % 2048
  let fraction : Nat := bits % hiddenBit
  if biased == 0 && fraction == 0 then ⟨negative, 0, 0⟩
  else
    let m := if biased = 0 then fraction else hiddenBit + fraction
    let q : Int := (if biased = 0 then 1 else (biased : Int)) - 1075
    let interval := Interval.around m q (fraction == 0 && decide (1 < biased))
    let (n, e) := interval.search 309 650
    let (n, e) := stripZeros n e 310
    ⟨negative, n, e⟩

def digitsOf (n : Nat) : List Char := Nat.toDigits 10 n

/-- A number without sign: positional, with a zero after the point when it is whole, from
a hundred-thousandth up to ten to the sixteenth, else one digit before the point and a
signed exponent. -/
def scientificChars (digits : Nat) (exponent : Int) : List Char :=
  let ds := digitsOf digits
  let point : Int := ds.length + exponent
  if digits = 0 then ['0', '.', '0']
  else if 0 ≤ exponent && point ≤ 16 then ds ++ List.replicate exponent.toNat '0' ++ ['.', '0']
  else if 0 < point && point ≤ 16 then ds.take point.toNat ++ '.' :: ds.drop point.toNat
  else if -5 < point && point ≤ 0 then '0' :: '.' :: List.replicate (-point).toNat '0' ++ ds
  else
    let e := point - 1
    let mantissa := match ds with
      | [d] => [d]
      | d :: rest => d :: '.' :: rest
      | [] => []
    mantissa ++ 'e' :: (if e < 0 then '-' else '+') :: digitsOf e.natAbs

/-- The decimal with an exponent where it is very large or very small. -/
def Shortest.scientific (d : Shortest) : String :=
  String.ofList ((if d.negative then ['-'] else []) ++ scientificChars d.digits d.exponent)

/-- The decimal written out, without a point when it is whole. -/
def Shortest.positional (d : Shortest) : String :=
  let ds := digitsOf d.digits
  let point : Int := ds.length + d.exponent
  let body :=
    if 0 ≤ d.exponent then
      if d.digits = 0 then ['0'] else ds ++ List.replicate d.exponent.toNat '0'
    else if 0 < point then ds.take point.toNat ++ '.' :: ds.drop point.toNat
    else '0' :: '.' :: List.replicate (-point).toNat '0' ++ ds
  String.ofList ((if d.negative then ['-'] else []) ++ body)

end TableStore.Decimal
