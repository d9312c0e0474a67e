import UwbRanging.Statistics.Moments
import UwbRanging.Statistics.Quantile

/-!
The summary of a series: count, mean, spread, and a two-sided confidence interval for the mean.
-/

namespace UwbRanging.Statistics

/-- Numbers with quantiles of Student's t distribution. -/
class StudentQuantile (α : Type) where
  quantile : α → UInt32 → Except RangingError α

instance : StudentQuantile Float where
  quantile := studentQuantile

structure Summary (α : Type) where
  count : Nat
  mean : α
  stdDev : α
  /-- Lower end of the confidence interval. -/
  ciLow : α
  /-- Upper end of the confidence interval. -/
  ciHigh : α
  deriving BEq

variable {α : Type} [Arith α]

def Summary.halfWidth (s : Summary α) : α :=
  (s.ciHigh - s.ciLow) / Arith.ofNat 2

/-- Summarises a series at a confidence level. The interval reaches as far to both sides of the mean as the t
quantile says for one degree of freedom less than there are values; the mean of one value has no spread. The
degrees of freedom are a 32-bit word, as wide as the quantile takes them. -/
def summarize [StudentQuantile α] (values : List α) (confidence : α) :
    Except RangingError (Summary α) := do
  if !Arith.isProbability confidence then throw .invalidConfidence
  let m ← mean values
  let s ← stdDev values
  let n := values.length
  let half ←
    if n < 2 then pure Arith.zero
    else do
      let t ← StudentQuantile.quantile ((Arith.one + confidence) / Arith.ofNat 2)
        (UInt32.ofNat (n - 1))
      pure (t * s / Arith.sqrt (Arith.ofNat n))
  return ⟨n, m, s, m - half, m + half⟩

end UwbRanging.Statistics
