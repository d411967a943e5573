import DocDecl.Text.Basic

/-!
# Decimal fractions

A decimal fraction is kept with the precision of a binary number of 53 bits, and is shown with the
fewest digits that read back as the same number.

## Main definitions

* `Binary`, `Binary.nearest` : the binary number nearest to a fraction.
* `Binary.shortest` : the fewest digits that read back, and their decimal exponent.
* `DecimalStyle`, `decimalText` : digits with a point or an exponent.

## Main results

* `divNearest_of_dvd` : a quotient without a remainder is not rounded.
-/

namespace DocDecl

/-- A quotient rounded to the nearest number; of two that are equally near, to the even one. -/
def divNearest (a b : Nat) : Nat :=
  let q := a / b
  let r := 2 * (a % b)
  if r < b ∨ (r = b ∧ q % 2 = 0) then q else q + 1

theorem divNearest_of_dvd {a b : Nat} (hb : 0 < b) (h : b ∣ a) : divNearest a b = a / b := by
  simp [divNearest, Nat.mod_eq_zero_of_dvd h, hb]

/-- The numerator and denominator of a number times a power. -/
def scaled (base n d : Nat) (e : Int) : Nat × Nat :=
  if 0 ≤ e then (n * base.pow e.toNat, d) else (n, d * base.pow (-e).toNat)

/-- The binary number `significand * 2 ^ exponent`. -/
structure Binary where
  /-- The significand, of at most 53 bits. -/
  significand : Nat
  /-- The exponent, at least -1074. -/
  exponent : Int
  deriving DecidableEq, Repr

namespace Binary

/-- The binary number nearest to the fraction `n / d`, or nothing if that is too great. -/
def nearest (n d : Nat) : Option Binary :=
  if n = 0 then some ⟨0, -1074⟩
  else
    let low : Int := max ((Nat.log2 n : Int) - Nat.log2 d - 53) (-1074)
    let (a, b) := scaled 2 n d (-low)
    let e := if a / b < Nat.pow 2 53 then low else low + 1
    let (a, b) := scaled 2 n d (-e)
    let s := divNearest a b
    let r : Binary := if s = Nat.pow 2 53 then ⟨Nat.pow 2 52, e + 1⟩ else ⟨s, e⟩
    if 971 < r.exponent then none else some r

/-- The least `k` for which a fraction is smaller than `10 ^ k`, looked for near an estimate. -/
def decimalExponent (n d : Nat) : Int :=
  let estimate : Int := ((Nat.log2 n : Int) - Nat.log2 d) * 30103 / 100000
  let below (k : Int) : Bool :=
    let (a, b) := scaled 10 n d (-k)
    a < b
  if below (estimate - 1) then estimate - 1
  else if below estimate then estimate
  else if below (estimate + 1) then estimate + 1
  else estimate + 2

/-- The digits with a given last place that read back as a binary number, if there are any: of the
two neighbours of the number, the nearer that does. -/
def digitsAt? (x : Binary) (place : Int) : Option Nat :=
  let (n, d) := scaled 2 x.significand 1 x.exponent
  let (a, b) := scaled 10 n d (-place)
  let readsBack (k : Nat) : Bool :=
    let (p, q) := scaled 10 k 1 place
    nearest p q = some x
  let low := a / b
  let near := divNearest a b
  let far := if near = low then low + 1 else low
  if readsBack near then some near else if readsBack far then some far else none

/-- The fewest digits that read back as a binary number, and the place of the last one. -/
def shortest (x : Binary) : Nat × Int :=
  let (n, d) := scaled 2 x.significand 1 x.exponent
  let k := decimalExponent n d
  let hit := (List.range 17).findSome? fun i =>
    let place := k - (i + 1 : Nat)
    (digitsAt? x place).map fun m => (m, place)
  hit.getD (0, 0)

end Binary

/-- Where a decimal number is written with an exponent. -/
structure DecimalStyle where
  /-- The least exponent of the first digit that is written with a point. -/
  leastPointed : Int
  /-- The least exponent of the first digit that is written with an exponent. -/
  leastRaised : Int
  /-- The least number of digits of an exponent. -/
  exponentDigits : Nat

/-- Numbers from a ten-thousandth up to ten to the sixteenth are written with a point, and all
others with an exponent of at least two digits. -/
def plainStyle : DecimalStyle := ⟨-4, 16, 2⟩

/-- Digits without the zeros at their end. -/
def dropZeros (ds : Text) : Text := (ds.reverse.dropWhile (· = '0')).reverse

/-- The number `m * 10 ^ place` in a style, always with a digit behind the point or an exponent. -/
def decimalText (style : DecimalStyle) (m : Nat) (place : Int) : Text :=
  if m = 0 then "0.0"
  else
    let all := Text.ofNat m
    let first := place + all.length - 1
    let ds := dropZeros all
    if style.leastPointed ≤ first ∧ first < style.leastRaised then
      if first < 0 then "0." ++ List.replicate (-first - 1).toNat '0' ++ ds
      else
        let whole := first.toNat + 1
        ds.take whole ++ List.replicate (whole - ds.length) '0' ++ "." ++
          if ds.length ≤ whole then ['0'] else ds.drop whole
    else
      let exponent := Text.ofNat first.natAbs
      ds.take 1 ++ Text.onlyIf (1 < ds.length) "." ++ ds.drop 1 ++
        (if first < 0 then "e-" else "e+") ++
        List.replicate (style.exponentDigits - exponent.length) '0' ++ exponent

/-- The fraction `m * 10 ^ place` as it is shown. One that is too great is infinite. -/
def fractionText (negative : Bool) (m : Nat) (place : Int) : Text :=
  let first := place + (Text.ofNat m).length
  let value :=
    if m = 0 ∨ first < -330 then some ⟨0, -1074⟩
    else if 310 < first then none
    else
      let (n, d) := scaled 10 m 1 place
      Binary.nearest n d
  let shown : Text :=
    match value with
    | none => "inf"
    | some x =>
      if x.significand = 0 then "0.0"
      else
        let (ds, p) := x.shortest
        decimalText plainStyle ds p
  Text.onlyIf negative "-" ++ shown

end DocDecl
