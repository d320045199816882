/-!
# The logarithm of the gamma function

Rational approximations on intervals for positive arguments, accurate to about the last
digit. Below eight they rest on the recurrence, beyond on the asymptotic series. The intervals
end where the upper half of an argument's bits does, and the logarithm is one of the same
library, so that the last digits do not depend on the machine's.
-/

namespace SchedulerLearning.LogGamma

/-- `c₀ + y * (c₁ + y * (c₂ + …))`. -/
def polynomial (coefficients : List Float) (y : Float) : Float :=
  match coefficients with
  | [] => 0
  | [c] => c
  | c :: rest => c + y * polynomial rest y

/-- The place of the minimum of the gamma function on the positive numbers. -/
def minimum : Float := 1.46163214496836224576

/-- The upper half of the bits but for the sign; it grows with the distance from zero. -/
def magnitude (x : Float) : UInt32 := (x.toBits >>> 32).toUInt32 &&& 0x7fffffff

/-- The logarithm of `2 ^ shift * x` for a normal number `x`, which is reduced to one between the
square roots of a half and of two. -/
def logNormal (shift : Int) (x : Float) : Float :=
  let bits := x.toBits
  let high := (bits >>> 32).toUInt32 + (0x3ff00000 - 0x3fe6a09e)
  let exponent := Float.ofInt (shift + (high >>> 20).toNat - 0x3ff)
  let high := (high &&& 0x000fffff) + 0x3fe6a09e
  let f := Float.ofBits ((high.toUInt64 <<< 32) ||| (bits &&& 0xffffffff)) - 1
  let half := 0.5 * f * f
  let s := f / (2 + f)
  let z := s * s
  let w := z * z
  let odd := w * polynomial
    [3.999999999940941908e-01, 2.222219843214978396e-01, 1.531383769920937332e-01] w
  let even := z * polynomial
    [6.666666666666735130e-01, 2.857142874366239149e-01, 1.818357216161805012e-01,
      1.479819860511658591e-01] w
  s * (half + (even + odd)) + exponent * 1.90821492927058770002e-10 - half + f +
    exponent * 6.93147180369123816490e-01

def log (x : Float) : Float :=
  if x == 0 then -1 / (x * x)
  else if !x.isFinite then x
  else if x == 1 then 0
  else if magnitude x < 0x00100000 then logNormal (-54) (x * 18014398509481984)
  else logNormal 0 x

/-- About the value at one, `y` below it. -/
def belowOne (y : Float) : Float :=
  let z := y * y
  let even := polynomial
    [7.72156649015328655494e-02, 6.73523010531292681824e-02, 7.38555086081402883957e-03,
      1.19270763183362067845e-03, 2.20862790713908385557e-04, 2.52144565451257326939e-05] z
  let odd := z * polynomial
    [3.22467033424113591611e-01, 2.05808084325167332806e-02, 2.89051383673415629091e-03,
      5.10069792153511336608e-04, 1.08011567247583939954e-04, 4.48640949618915160150e-05] z
  (y * even + odd) - 0.5 * y

/-- About the minimum, `y` away from it. -/
def nearMinimum (y : Float) : Float :=
  let z := y * y
  let w := z * y
  let p₁ := polynomial
    [4.83836122723810047042e-01, -3.27885410759859649565e-02, 6.10053870246291332635e-03,
      -1.40346469989232843813e-03, 3.15632070903625950361e-04] w
  let p₂ := polynomial
    [-1.47587722994593911752e-01, 1.79706750811820387126e-02, -3.68452016781138256760e-03,
      8.81081882437654011382e-04, -3.12754168375120860518e-04] w
  let p₃ := polynomial
    [6.46249402391333854778e-02, -1.03142241298341437450e-02, 2.25964780900612472250e-03,
      -5.38595305356740546715e-04, 3.35529192635519073543e-04] w
  (-1.21486290535849611461e-01) + (z * p₁ - (-3.63867699703950536541e-18 - w * (p₂ + y * p₃)))

/-- About the value at one, `y` above it. -/
def aboveOne (y : Float) : Float :=
  let p := y * polynomial
    [-7.72156649015328655494e-02, 6.32827064025093366517e-01, 1.45492250137234768737e+00,
      9.77717527963372745603e-01, 2.28963728064692451092e-01, 1.33810918536787660377e-02] y
  let q := polynomial
    [1.0, 2.45597793713041134822e+00, 2.12848976379893395361e+00, 7.69285150456672783825e-01,
      1.04222645593369134254e-01, 3.21709242282423911810e-03] y
  (-0.5) * y + p / q

/-- At `2 + y` with `y` in `[0, 1)`. -/
def aboveTwo (y : Float) : Float :=
  let p := y * polynomial
    [-7.72156649015328655494e-02, 2.14982415960608852501e-01, 3.25778796408930981787e-01,
      1.46350472652464452805e-01, 2.66422703033638609560e-02, 1.84028451407337715652e-03,
      3.19475326584100867617e-05] y
  let q := polynomial
    [1.0, 1.39200533467621045958e+00, 7.21935547567138069525e-01, 1.71933865632803078993e-01,
      1.86459191715652901344e-02, 7.77942496381893596434e-04, 7.32668430744625636189e-06] y
  0.5 * y + p / q

/-- `product * (y + n - 1) * … * (y + 2)`. -/
def rising (y product : Float) : Nat → Float
  | 0 | 1 | 2 => product
  | n + 1 => rising y (product * (y + n.toFloat)) n

def series (x : Float) : Float :=
  let z := 1 / x
  let w := 4.18938533204672725052e-01 + z * polynomial
    [8.33333333333329678849e-02, -2.77777777728775536470e-03, 7.93650558643019558500e-04,
      -5.95187557450339963135e-04, 8.36339918996282139126e-04, -1.63092934096575273989e-03] (z * z)
  (x - 0.5) * (log x - 1) + w

end SchedulerLearning.LogGamma

namespace SchedulerLearning

open LogGamma in
def logGamma (x : Float) : Float :=
  let m := magnitude x
  if 0x7ff00000 ≤ m then x * x
  else if m < 0x3b900000 then -log x
  else if x == 1 || x == 2 then 0
  else if m ≤ 0x3feccccc then
    -log x +
      if 0x3fe76944 ≤ m then belowOne (1 - x)
      else if 0x3fcda661 ≤ m then nearMinimum (x - (minimum - 1))
      else aboveOne x
  else if m < 0x40000000 then
    if 0x3ffbb4c3 ≤ m then belowOne (2 - x)
    else if 0x3ff3b4c4 ≤ m then nearMinimum (x - minimum)
    else aboveOne (x - 1)
  else if m < 0x40200000 then
    let n := x.toUInt64.toNat
    let y := x - n.toFloat
    let r := aboveTwo y
    if n < 3 then r else r + log (rising y 1 n)
  else if m < 0x43900000 then series x
  else x * (log x - 1)

end SchedulerLearning
