/-!
White space in the sense of Unicode's White_Space property, and texts without it at their ends.
-/

namespace UwbRanging.Text

/-- The characters with the White_Space property. -/
def isBlank (c : Char) : Bool :=
  let n := c.toNat
  (0x09 ≤ n && n ≤ 0x0d) || n = 0x20 || n = 0x85 || n = 0xa0 || n = 0x1680 || (0x2000 ≤ n && n ≤ 0x200a)
    || n = 0x2028 || n = 0x2029 || n = 0x202f || n = 0x205f || n = 0x3000

def trimEnd (p : Char → Bool) (s : List Char) : List Char :=
  (s.reverse.dropWhile p).reverse

/-- Without the blanks at both ends. -/
def trim (s : List Char) : List Char :=
  trimEnd isBlank (s.dropWhile isBlank)

end UwbRanging.Text
