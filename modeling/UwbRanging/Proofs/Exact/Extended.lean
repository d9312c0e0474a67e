import Mathlib.Algebra.Order.Field.Basic
import Mathlib.Algebra.Order.Floor.Semiring
import Mathlib.Data.List.Induction
import UwbRanging.Arith

/-!
Exact arithmetic. Sums, products and quotients of numbers are what they are in an ordered field; the two infinities and
the value that is no number follow the rules they follow in binary64. Zero has no sign, and what divides by it goes to
the infinity of its own sign. The square root is left open.
-/

namespace UwbRanging

inductive Extended (K : Type) where
  | finite (x : K)
  | infinite (negative : Bool)
  | nan
  deriving DecidableEq

/-- A function in the place of the square root. -/
class SquareRoot (K : Type) where
  sqrt : Extended K → Extended K

namespace Extended

variable {K : Type}

section Operations

variable [Field K] [LinearOrder K]

def add : Extended K → Extended K → Extended K
  | finite x, finite y => finite (x + y)
  | finite _, infinite t => infinite t
  | infinite s, finite _ => infinite s
  | infinite s, infinite t => if s = t then infinite s else nan
  | nan, _ => nan
  | _, nan => nan

def neg : Extended K → Extended K
  | finite x => finite (-x)
  | infinite s => infinite !s
  | nan => nan

/-- Zero times an infinity is no number. -/
def mul : Extended K → Extended K → Extended K
  | finite x, finite y => finite (x * y)
  | finite x, infinite t => if x = 0 then nan else infinite (t ^^ decide (x < 0))
  | infinite s, finite y => if y = 0 then nan else infinite (s ^^ decide (y < 0))
  | infinite s, infinite t => infinite (s ^^ t)
  | nan, _ => nan
  | _, nan => nan

def inv : Extended K → Extended K
  | finite x => if x = 0 then infinite false else finite x⁻¹
  | infinite _ => finite 0
  | nan => nan

def abs : Extended K → Extended K
  | finite x => finite |x|
  | infinite _ => infinite false
  | nan => nan

def lt : Extended K → Extended K → Bool
  | finite x, finite y => decide (x < y)
  | finite _, infinite t => !t
  | infinite s, finite _ => s
  | infinite s, infinite t => s && !t
  | nan, _ => false
  | _, nan => false

def eq : Extended K → Extended K → Bool
  | finite x, finite y => decide (x = y)
  | infinite s, infinite t => s == t
  | _, _ => false

def isFinite : Extended K → Bool
  | finite _ => true
  | _ => false

/-- The nearest count that fits a 64-bit counter. -/
def toCount [FloorSemiring K] : Extended K → Nat
  | finite x => min (2 ^ 64 - 1) ⌊x + 2⁻¹⌋₊
  | infinite false => 2 ^ 64 - 1
  | _ => 0

end Operations

section Scaling

variable [Field K]

/-- Every number times `f`; the infinities stay where they are. -/
def scale (f : K) : Extended K → Extended K
  | finite x => finite (f * x)
  | infinite s => infinite s
  | nan => nan

variable (f : K)

@[simp] theorem scale_finite (a : K) : scale f (finite a) = finite (f * a) :=
  rfl

@[simp] theorem scale_infinite (s : Bool) : scale f (infinite s) = infinite s :=
  rfl

@[simp] theorem scale_nan : scale f nan = nan :=
  rfl

theorem scale_scale (g : K) (x : Extended K) : scale f (scale g x) = scale (f * g) x := by
  cases x <;> simp only [scale_finite, scale_infinite, scale_nan, mul_assoc]

end Scaling

variable [Field K] [LinearOrder K] [FloorSemiring K] [SquareRoot K]

instance : Arith (Extended K) where
  add := add
  sub x y := add x (neg y)
  mul := mul
  div x y := mul x (inv y)
  neg := neg
  abs := abs
  sqrt := SquareRoot.sqrt
  lt := lt
  eq := eq
  isFinite := isFinite
  ofNat n := finite n
  toCount := toCount

section Numbers

variable (x y : K)

@[simp] theorem finite_add_finite : (finite x + finite y : Extended K) = finite (x + y) :=
  rfl

@[simp] theorem neg_finite : (-finite x : Extended K) = finite (-x) :=
  rfl

@[simp] theorem finite_sub_finite : (finite x - finite y : Extended K) = finite (x - y) :=
  congrArg finite (sub_eq_add_neg x y).symm

@[simp] theorem finite_mul_finite : (finite x * finite y : Extended K) = finite (x * y) :=
  rfl

theorem finite_div_finite {y : K} (hy : y ≠ 0) : (finite x / finite y : Extended K) = finite (x / y) := by
  have hinv : inv (finite y) = finite y⁻¹ := if_neg hy
  change mul (finite x) (inv (finite y)) = finite (x / y)
  rw [hinv, div_eq_mul_inv]
  rfl

theorem finite_div_infinite (negative : Bool) : (finite x / infinite negative : Extended K) = finite 0 :=
  congrArg finite (mul_zero x)

@[simp] theorem abs_finite : Arith.abs (finite x : Extended K) = finite |x| :=
  rfl

@[simp] theorem lt_finite : Arith.lt (finite x : Extended K) (finite y) = decide (x < y) :=
  rfl

@[simp] theorem eq_finite : Arith.eq (finite x : Extended K) (finite y) = decide (x = y) :=
  rfl

theorem isFinite_iff {x : Extended K} : Arith.isFinite x = true ↔ ∃ a, x = finite a := by
  change isFinite x = true ↔ ∃ a, x = finite a
  cases x <;> simp [isFinite]

/-- What is less than something in absolute value is a number. -/
theorem isFinite_of_abs_lt {x y : Extended K} (h : Arith.lt (Arith.abs x) y = true) : Arith.isFinite x = true := by
  change lt (abs x) y = true at h
  change isFinite x = true
  cases x <;> cases y <;> simp_all [lt, abs, isFinite]

theorem isFinite_of_sub {x y : Extended K} (h : Arith.isFinite (x - y) = true) : Arith.isFinite x = true := by
  change isFinite (add x (neg y)) = true at h
  change isFinite x = true
  cases x <;> cases y <;> grind [isFinite, add, neg]

@[simp] theorem ofNat_eq (n : Nat) : (Arith.ofNat n : Extended K) = finite (n : K) :=
  rfl

@[simp] theorem zero_eq : (Arith.zero : Extended K) = finite 0 :=
  congrArg finite Nat.cast_zero

@[simp] theorem one_eq : (Arith.one : Extended K) = finite 1 :=
  congrArg finite Nat.cast_one

theorem ratio_eq (num : Nat) {den : Nat} (hden : den ≠ 0) :
    (Arith.ratio num den : Extended K) = finite ((num : K) / (den : K)) :=
  finite_div_finite _ (Nat.cast_ne_zero.2 hden)

end Numbers

@[simp] theorem nan_add (x : Extended K) : nan + x = nan :=
  rfl

@[simp] theorem nan_sub (x : Extended K) : nan - x = nan :=
  rfl

@[simp] theorem nan_div (x : Extended K) : nan / x = nan :=
  rfl

/-- A number that was added can be taken away again. -/
theorem add_sub_finite (x : Extended K) (a : K) : x + finite a - finite a = x := by
  change add (add x (finite a)) (finite (-a)) = x
  cases x <;> simp [add]

/-- What is infinite or no number cannot. -/
theorem add_sub_of_not_isFinite {u : Extended K} (h : Arith.isFinite u = false) (x : Extended K) :
    x + u - u = nan := by
  change isFinite u = false at h
  change add (add x u) (neg u) = nan
  cases x <;> cases u <;> grind [add, neg, isFinite]

/-- Terms may be added in any order. -/
theorem add_swap (x y z : Extended K) : x + y + z = x + z + y := by
  change add (add x y) z = add (add x z) y
  cases x <;> cases y <;> cases z <;> simp only [add, add_right_comm]
  all_goals grind [add]

/-- A sum does not depend on the order of what is added. -/
theorem sum_perm {xs ys : List (Extended K)} (h : xs.Perm ys) : Arith.sum xs = Arith.sum ys :=
  h.foldl_eq' (fun _ _ _ _ z => add_swap z _ _) _

theorem sum_concat (xs : List (Extended K)) (x : Extended K) : Arith.sum (xs ++ [x]) = Arith.sum xs + x :=
  List.foldl_append

theorem sum_cons (x : Extended K) (xs : List (Extended K)) : Arith.sum (x :: xs) = Arith.sum xs + x := by
  rw [← sum_concat]
  exact sum_perm (List.perm_append_singleton x xs).symm

theorem sum_append (xs ys : List (Extended K)) : Arith.sum (xs ++ ys) = Arith.sum xs + Arith.sum ys := by
  induction xs with
  | nil =>
      have hzero (x : Extended K) : x = add (finite (-((0 : Nat) : K))) x := by cases x <;> simp [add]
      exact hzero _
  | cons x xs ih => rw [List.cons_append, sum_cons, sum_cons, ih, add_swap]

theorem sum_flatten (xss : List (List (Extended K))) : Arith.sum xss.flatten = Arith.sum (xss.map Arith.sum) := by
  induction xss using List.reverseRecOn with
  | nil => rfl
  | append_singleton xss xs ih =>
      rw [List.flatten_append, List.flatten_singleton, sum_append, ih, List.map_append, List.map_singleton, sum_concat]

section Scale

variable (f : K) (x y : Extended K)

theorem scale_add : scale f (x + y) = scale f x + scale f y := by
  change scale f (add x y) = add (scale f x) (scale f y)
  cases x <;> cases y <;> simp only [add, scale_finite, scale_infinite, scale_nan, mul_add, apply_ite (scale f)]

theorem scale_neg : scale f (-x) = -scale f x := by
  change scale f (neg x) = neg (scale f x)
  cases x <;> simp only [neg, scale_finite, scale_infinite, scale_nan, mul_neg]

theorem scale_sub : scale f (x - y) = scale f x - scale f y := by
  change scale f (x + -y) = scale f x + -scale f y
  rw [scale_add, scale_neg]

/-- The sum of what is scaled. -/
theorem sum_map_scale (xs : List (Extended K)) : Arith.sum (xs.map (scale f)) = scale f (Arith.sum xs) := by
  have hstart : scale f (-Arith.zero) = -Arith.zero := by simp
  rw [Arith.sum, Arith.sum, List.foldl_map]
  nth_rewrite 1 [← hstart]
  refine List.foldl_hom (scale f) ?_
  exact fun z x => (scale_add f z x).symm

theorem mul_swap : x * y = y * x := by
  change mul x y = mul y x
  cases x <;> cases y <;> simp only [mul, mul_comm, Bool.xor_comm]

variable {f} (hf : 0 < f)
include hf

theorem mul_finite : x * finite f = scale f x := by
  change mul x (finite f) = scale f x
  cases x <;> simp [mul, hf.ne', hf.not_gt, mul_comm]

variable [IsStrictOrderedRing K]

/-- What is divided by a positive number is restored by it. -/
theorem finite_mul_div_finite : finite f * (x / finite f) = x := by
  have hinv : inv (finite f) = finite f⁻¹ := if_neg hf.ne'
  have hone : scale 1 x = x := by cases x <;> simp
  change finite f * (x * inv (finite f)) = x
  rw [hinv, mul_finite _ (inv_pos.2 hf), mul_swap, mul_finite _ hf, scale_scale, mul_inv_cancel₀ hf.ne', hone]

theorem scale_mul : scale f x * y = scale f (x * y) := by
  have hzero (a : K) : f * a = 0 ↔ a = 0 := mul_eq_zero_iff_left hf.ne'
  have hneg (a : K) : f * a < 0 ↔ a < 0 := by simpa using mul_lt_mul_iff_right₀ (b := a) (c := 0) hf
  change mul (scale f x) y = scale f (mul x y)
  cases x <;> cases y <;>
    simp only [mul, scale_finite, scale_infinite, scale_nan, mul_assoc, hzero, hneg, apply_ite (scale f)]

theorem mul_scale : x * scale f y = scale f (x * y) := by
  rw [mul_swap, scale_mul y x hf, mul_swap]

theorem scale_div : scale f x / y = scale f (x / y) :=
  scale_mul x (inv y) hf

theorem abs_scale : Arith.abs (scale f x) = scale f (Arith.abs x) := by
  change abs (scale f x) = scale f (abs x)
  cases x <;> simp only [abs, scale_finite, scale_infinite, scale_nan, abs_mul, abs_of_pos hf]

theorem lt_scale : Arith.lt (scale f x) (scale f y) = Arith.lt x y := by
  change lt (scale f x) (scale f y) = lt x y
  cases x <;> cases y <;> simp only [lt, scale_finite, scale_infinite, scale_nan, mul_lt_mul_iff_right₀ hf]

end Scale

end Extended

end UwbRanging
