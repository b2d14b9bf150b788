set_option autoImplicit false

/- Binary floating-point numbers of 64 bits as exact numbers: reading a decimal rounds to the
nearest value, ties to the even significand, and writing gives the fewest decimal digits that read
back. -/
namespace PipelineCompiler

/-- A finite value is ± significand · 2 ^ exponent. Values built by `ofDecimal` keep the exponent
at −1074 or above, the significand below 2 ^ 53, and the significand at 2 ^ 52 or above unless the
exponent is −1074; so equal numbers have one form. There is one value that is no number. -/
inductive Binary64 where
  | notANumber
  | infinite (negative : Bool)
  | finite (negative : Bool) (significand : Nat) (exponent : Int)
  deriving Repr, DecidableEq

namespace Binary64

/-- The quotient rounded to the nearest natural number, a half to the even one. -/
def divideToEven (numerator denominator : Nat) : Nat :=
  let quotient := numerator / denominator
  match compare (2 * (numerator % denominator)) denominator with
  | .lt => quotient
  | .gt => quotient + 1
  | .eq => if quotient % 2 = 0 then quotient else quotient + 1

/-- Powers that scale a number up. A negative exponent, which would scale it down, leaves it. -/
def twoTo (exponent : Int) : Nat := Nat.pow 2 exponent.toNat

def tenTo (exponent : Int) : Nat := Nat.pow 10 exponent.toNat

/-- The greatest power of two (as an exponent) that is not above the positive quotient. -/
def floorLog (numerator denominator : Nat) : Int :=
  let estimate : Int := (numerator.log2 : Int) - (denominator.log2 : Int)
  if denominator * twoTo estimate ≤ numerator * twoTo (-estimate) then estimate
  else estimate - 1

/-- The value nearest to a quotient of naturals; what would need an exponent above 971 is
infinite. -/
def ofQuotient (negative : Bool) (numerator denominator : Nat) : Binary64 :=
  if numerator = 0 then .finite negative 0 (-1074)
  else
    let exponent := max (floorLog numerator denominator - 52) (-1074)
    let rounded := divideToEven (numerator * twoTo (-exponent))
      (denominator * twoTo exponent)
    let (significand, exponent) :=
      if rounded = Nat.pow 2 53 then (Nat.pow 2 52, exponent + 1) else (rounded, exponent)
    if exponent > 971 then .infinite negative else .finite negative significand exponent

def digitCount (n : Nat) : Nat := if n = 0 then 0 else (Nat.toDigits 10 n).length

/-- The value nearest to ± digits · 10 ^ exponent. Exponents far outside the range are settled
without computing the power. -/
def ofDecimal (negative : Bool) (digits : Nat) (exponent : Int) : Binary64 :=
  let magnitude := (digitCount digits : Int) + exponent
  if digits = 0 ∨ magnitude < -330 then .finite negative 0 (-1074)
  else if magnitude > 320 then .infinite negative
  else ofQuotient negative (digits * tenTo exponent) (tenTo (-exponent))

/-- Integers of this size or above are nearer to 2 ^ 1024 than to any finite value. -/
def overflowBound : Nat := Nat.pow 2 1024 - Nat.pow 2 970

def fitsInt (n : Int) : Bool := n.natAbs < overflowBound

/-- The integer that a whole number is; `none` for fractions and for what is not finite. -/
def toInt? : Binary64 → Option Int
  | .notANumber => none
  | .infinite _ => none
  | .finite negative significand exponent =>
    let scale := twoTo (-exponent)
    if significand % scale = 0 then
      let magnitude : Int := (significand / scale * twoTo exponent : Nat)
      some (if negative then -magnitude else magnitude)
    else none

def isFinite : Binary64 → Bool
  | .finite _ _ _ => true
  | _ => false

structure Decimal where
  digits : Nat
  exponent : Int
  deriving Repr, DecidableEq

def compareScaled (a : Nat) (i : Int) (n : Nat) (j : Int) : Ordering :=
  compare (a * tenTo i * twoTo (-j)) (n * twoTo j * tenTo (-i))

/-- Whether a decimal lies among the reals that round to significand · 2 ^ exponent. The interval
holds its ends exactly when the significand is even, and it is narrower below a power of two. -/
def readsBack (significand : Nat) (exponent : Int) (d : Decimal) : Bool :=
  let narrow := significand = Nat.pow 2 52 ∧ exponent > -1074
  let low := if narrow then 4 * significand - 1 else 4 * significand - 2
  let high := 4 * significand + 2
  let closed := significand % 2 = 0
  let fromLow := compareScaled d.digits d.exponent low (exponent - 2)
  let fromHigh := compareScaled d.digits d.exponent high (exponent - 2)
  (fromLow = .gt ∨ (closed ∧ fromLow = .eq)) ∧ (fromHigh = .lt ∨ (closed ∧ fromHigh = .eq))

/-- The two multiples of 10 ^ power around the value that read back, the nearer first chosen; of
two equally near ones the even one. -/
def nearestOnGrid (significand : Nat) (exponent power : Int) : Option Decimal :=
  let numerator := significand * twoTo exponent * tenTo (-power)
  let denominator := twoTo (-exponent) * tenTo power
  let below : Decimal := ⟨numerator / denominator, power⟩
  let above : Decimal := ⟨numerator / denominator + 1, power⟩
  match decide (below.digits ≠ 0) && readsBack significand exponent below,
      readsBack significand exponent above with
  | false, false => none
  | true, false => some below
  | false, true => some above
  | true, true =>
    match compare (2 * (numerator % denominator)) denominator with
    | .lt => some below
    | .gt => some above
    | .eq => if below.digits % 2 = 0 then some below else some above

def stripZeros : Nat → Decimal → Decimal
  | 0, d => d
  | fuel + 1, d =>
    if d.digits ≠ 0 ∧ d.digits % 10 = 0 then stripZeros fuel ⟨d.digits / 10, d.exponent + 1⟩ else d

/-- The least k with significand · 2 ^ exponent < 10 ^ k, for a positive significand: the digit
counts of numerator and denominator leave two candidates. -/
def decimalScale (significand : Nat) (exponent : Int) : Int :=
  let numerator := significand * twoTo exponent
  let denominator := twoTo (-exponent)
  let estimate : Int := (digitCount numerator : Int) - (digitCount denominator : Int)
  if numerator * tenTo (-estimate) < denominator * tenTo estimate then estimate
  else estimate + 1

/-- The fewest digits that read back, and among those the nearest. -/
def shortest (significand : Nat) (exponent : Int) : Decimal :=
  let scale := decimalScale significand exponent
  let found := (List.range 17).findSome? fun (n : Nat) =>
    nearestOnGrid significand exponent (scale - 1 - (n : Int))
  match found with
  | some d => stripZeros 20 d
  | none => ⟨significand * twoTo exponent * tenTo (-exponent) / twoTo (-exponent), exponent⟩

/-- Positional for a leading digit between 10 ^ −4 and 10 ^ 15, with `.0` behind whole numbers;
otherwise one digit before the point and an exponent with a sign and two digits at least. -/
def layout (d : Decimal) : String :=
  let digits := Nat.toDigits 10 d.digits
  let count : Int := digits.length
  let leading := d.exponent + count - 1
  if -4 ≤ leading ∧ leading < 16 then
    if d.exponent ≥ 0 then
      String.ofList (digits ++ List.replicate d.exponent.toNat '0') ++ ".0"
    else if leading ≥ 0 then
      String.ofList (digits.take (leading + 1).toNat) ++ "." ++
        String.ofList (digits.drop (leading + 1).toNat)
    else
      "0." ++ String.ofList (List.replicate (-leading - 1).toNat '0' ++ digits)
  else
    let fraction := String.ofList (digits.drop 1)
    let power := Nat.toDigits 10 leading.natAbs
    let padded := if power.length < 2 then '0' :: power else power
    String.ofList (digits.take 1) ++ (if fraction = "" then "" else "." ++ fraction) ++ "e" ++
      (if leading < 0 then "-" else "+") ++ String.ofList padded

def toText : Binary64 → String
  | .notANumber => "nan"
  | .infinite negative => if negative then "-inf" else "inf"
  | .finite negative significand exponent =>
    (if negative then "-" else "") ++
      (if significand = 0 then "0.0" else layout (shortest significand exponent))

end Binary64

end PipelineCompiler
