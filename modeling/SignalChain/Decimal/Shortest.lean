import SignalChain.Decimal.Binary

/-!
# Shortest decimals

A floating-point number is written with the fewest digits that read back as the same number, and
of several such decimals with the nearest. Numbers that are neither very small nor very great are
written out in full, with at least one place after the point; all others get an exponent with a
sign.
-/

namespace SignalChain.Decimal

/-- The decimal `digits * 10 ^ scale`. -/
structure Scaled where
  digits : Nat
  scale : Int
  deriving DecidableEq

namespace Binary

/-- The decimals of the grid `10 ^ k` next to `x`, below and above, that read back as `x`. The first
component is whether the lower one is the nearer, an even last digit deciding a tie. -/
def neighbours (x : Binary) (k : Int) : Bool × List Nat :=
  -- in quarters of the last place of the mantissa
  let value := 4 * x.mantissa
  let upper := value + 2
  let lower :=
    if x.mantissa = Nat.pow 2 52 ∧ minExponent < x.exponent then value - 1 else value - 2
  let even := x.mantissa % 2 = 0
  let e := x.exponent - 2
  -- `onGrid v / unit` is the quarter count `v` as a multiple of `10 ^ k`
  let onGrid := fun v : Nat => v * Nat.pow 2 e.toNat * Nat.pow 10 (-k).toNat
  let unit := Nat.pow 2 (-e).toNat * Nat.pow 10 k.toNat
  let below := onGrid value / unit
  let reads := fun d : Nat =>
    let p := d * unit
    if even then onGrid lower ≤ p && p ≤ onGrid upper
    else onGrid lower < p && p < onGrid upper
  let rest := 2 * (onGrid value % unit)
  (rest < unit || (rest = unit && below % 2 = 0), [below, below + 1].filter reads)

/-- The exponent of the leading digit of `x`. -/
def leading (x : Binary) : Int :=
  let r := x.toRatio
  let fits := fun k : Int => Nat.pow 10 k.toNat * r.2 ≤ r.1 * Nat.pow 10 (-k).toNat
  (((List.range 633).map fun (i : Nat) => (308 : Int) - (i : Int)).find? fits).getD (-324)

/-- The nearest of the decimals with `n` digits that read back as `x`. -/
def withDigits? (x : Binary) (n : Nat) : Option Scaled :=
  let k := x.leading - n + 1
  match x.neighbours k with
  | (_, []) => none
  | (_, [d]) => some ⟨d, k⟩
  | (lowerNearer, d :: d' :: _) => some ⟨if lowerNearer then d else d', k⟩

/-- The nearest of the shortest decimals that read back as `x`. Seventeen digits always do. -/
def shortest (x : Binary) : Scaled :=
  if x.mantissa = 0 then ⟨0, 0⟩
  else (((List.range 17).map (· + 1)).findSome? x.withDigits?).getD ⟨0, 0⟩

end Binary

/-- The exponents of the leading digit that are written out in full. -/
def isPlain (leading : Int) : Bool :=
  -5 ≤ leading && leading ≤ 15

/-- The text of a decimal. -/
def Scaled.text (d : Scaled) : List Char :=
  let all := Nat.toDigits 10 d.digits
  let leading := d.scale + all.length - 1
  let ds := match (all.reverse.dropWhile (· = '0')).reverse with
    | [] => ['0']
    | ds => ds
  let orZero := fun cs : List Char => if cs.isEmpty then ['0'] else cs
  if isPlain leading then
    if 0 ≤ leading then
      let places := leading.toNat + 1
      ds.take places ++ List.replicate (places - ds.length) '0' ++ ['.'] ++ orZero (ds.drop places)
    else ['0', '.'] ++ List.replicate (-leading - 1).toNat '0' ++ ds
  else
    let exponent := Nat.toDigits 10 leading.natAbs
    let point := if ds.length = 1 then [] else '.' :: ds.drop 1
    ds.take 1 ++ point ++ ['e', if 0 ≤ leading then '+' else '-'] ++ exponent

/-- The text of a floating-point number with a sign. -/
def text (negative : Bool) (x : Binary) : String :=
  String.ofList ((if negative then ['-'] else []) ++ x.shortest.text)

end SignalChain.Decimal
