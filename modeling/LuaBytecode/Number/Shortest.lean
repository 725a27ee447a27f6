/-
  The shortest decimal that reads back as a given double.

  A finite non-zero double `m · 2 ^ q` owns an interval of reals: those that round to it.  Its ends lie
  half way to the neighbouring doubles, and belong to the interval exactly when `m` is even.  Below a
  power of two the neighbour is only half as far away.  Measured in quarters of the double's own unit,
  that is in units of `2 ^ (q - 2)`, the double sits at `4 * m`, the upper end at `4 * m + 2`, and the
  lower end at `4 * m - 2`, or at `4 * m - 1` above a power of two.

  The shortest decimal is the point of that interval on the coarsest grid `10 ^ k` that has one.  If a
  grid has a point in the interval, one of the two neighbours of the double itself on that grid is in
  the interval too, so only those two are tried.  When both are in, the nearer is taken, and an exact
  half goes as the caller says.

  The search goes down from a power of ten above the interval.  Seventeen digits always suffice, and
  should the search still end without a hit the exact value is returned: for `q < 0` the grid
  `10 ^ q` contains `m · 2 ^ q = m · 5 ^ (-q) · 10 ^ q` itself.  So every result lies in the interval.
-/
import LuaBytecode.Number.Binary64

namespace LuaBytecode

/-- The decimal `digits · 10 ^ exponent`. -/
structure Decimal where
  digits : Nat
  exponent : Int
  deriving DecidableEq

/-- The reals that round to the positive double `center / 4 · 2 ^ (scale + 2)`, in units of
    `2 ^ scale`. -/
structure RoundingInterval where
  lower : Nat
  center : Nat
  upper : Nat
  /-- Whether the two ends belong to the interval. -/
  closed : Bool
  scale : Int
  deriving DecidableEq

namespace RoundingInterval

/-- The interval of the positive double that the fields of `f` denote, the sign aside. -/
def ofBinary64 (f : Binary64) : RoundingInterval :=
  let m := f.significand
  { lower := if m = 0x10000000000000 ∧ 1 < f.exponentField then 4 * m - 1 else 4 * m - 2
    center := 4 * m
    upper := 4 * m + 2
    closed := m % 2 == 0
    scale := f.scale - 2 }

/-- What one unit of the interval weighs once both sides of a comparison with the grid `10 ^ k` are
    cleared of negative powers. -/
def unit (i : RoundingInterval) (k : Int) : Nat := Nat.pow 2 i.scale.toNat * Nat.pow 10 (-k).toNat

/-- What one step of the grid `10 ^ k` weighs in the same comparison. -/
def step (i : RoundingInterval) (k : Int) : Nat := Nat.pow 10 k.toNat * Nat.pow 2 (-i.scale).toNat

/-- Whether `c · 10 ^ k` lies in the interval. -/
def contains (i : RoundingInterval) (c : Nat) (k : Int) : Bool :=
  let x := c * i.step k
  let lo := i.lower * i.unit k
  let hi := i.upper * i.unit k
  if i.closed then decide (lo ≤ x ∧ x ≤ hi) else decide (lo < x ∧ x < hi)

/-- The grid neighbour of the center to print, if one of the two is in the interval. -/
def onGrid? (i : RoundingInterval) (tie : Tie) (k : Int) : Option Nat :=
  let x := i.center * i.unit k
  let c := x / i.step k
  match i.contains c k, i.contains (c + 1) k with
  | true, true => some (roundDiv tie x (i.step k))
  | true, false => some c
  | false, true => some (c + 1)
  | false, false => none

/-- Tries the grids `10 ^ k`, `10 ^ (k - 1)`, … for `tries` steps. -/
def search (i : RoundingInterval) (tie : Tie) : Nat → Int → Option Decimal
  | 0, _ => none
  | tries + 1, k =>
    match i.onGrid? tie k with
    | some c => some ⟨c, k⟩
    | none => search i tie tries (k - 1)

/-- The center itself, as a decimal. -/
def exact (i : RoundingInterval) : Decimal :=
  if 0 ≤ i.scale then ⟨i.center * Nat.pow 2 i.scale.toNat, 0⟩
  else ⟨i.center * Nat.pow 5 (-i.scale).toNat, i.scale⟩

/-- A power of ten above the whole interval: `10 ^ k` with `k` a little over the binary exponent of
    the center times `log 2 / log 10`. -/
def startExponent (i : RoundingInterval) : Int :=
  (i.center.log2 + i.scale) * 30103 / 100000 + 2

/-- The shortest decimal in the interval, nearest to the center among the shortest. -/
def shortest (i : RoundingInterval) (tie : Tie) : Decimal :=
  (i.search tie 22 i.startExponent).getD i.exact

end RoundingInterval

/-- The shortest decimal that reads back as `f`, its sign aside.  Zero is `0`. -/
def Binary64.shortest (f : Binary64) (tie : Tie) : Decimal :=
  if f.significand = 0 then ⟨0, 0⟩ else (RoundingInterval.ofBinary64 f).shortest tie

example : Binary64.shortest ⟨0x3fb999999999999a⟩ .toEven = ⟨1, -1⟩ := by decide +kernel
example : Binary64.shortest ⟨1⟩ .toEven = ⟨5, -324⟩ := by decide +kernel
example : Binary64.shortest ⟨0x7fefffffffffffff⟩ .toEven = ⟨17976931348623157, 292⟩ := by decide +kernel
example : Binary64.shortest ⟨0x3e60000000000000⟩ .toEven = ⟨29802322387695312, -24⟩ := by decide +kernel
example : Binary64.shortest ⟨0x3e60000000000000⟩ .up = ⟨29802322387695313, -24⟩ := by decide +kernel

end LuaBytecode
