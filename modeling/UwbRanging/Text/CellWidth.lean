/-!
How many cells of a terminal a character fills: none, one, or two for the wide characters of East Asia.
-/

namespace UwbRanging.Text

/-- Marks that are drawn onto the character before them, and characters without any shape. -/
def isZeroWidth (c : Char) : Bool :=
  let n := c.toNat
  (0x300 ≤ n && n ≤ 0x36f) || (0x200b ≤ n && n ≤ 0x200f) || (0x20d0 ≤ n && n ≤ 0x20ff)
    || (0xfe00 ≤ n && n ≤ 0xfe0f) || n = 0xfeff

/-- Ideographs, syllables, full-width forms and emoji. -/
def isWide (c : Char) : Bool :=
  let n := c.toNat
  (0x1100 ≤ n && n ≤ 0x115f) || (0x2e80 ≤ n && n ≤ 0x303e) || (0x3041 ≤ n && n ≤ 0xa4cf)
    || (0xac00 ≤ n && n ≤ 0xd7a3) || (0xf900 ≤ n && n ≤ 0xfaff) || (0xfe30 ≤ n && n ≤ 0xfe6f)
    || (0xff00 ≤ n && n ≤ 0xff60) || (0xffe0 ≤ n && n ≤ 0xffe6) || (0x1f300 ≤ n && n ≤ 0x1f64f)
    || (0x1f680 ≤ n && n ≤ 0x1f6ff) || (0x1f900 ≤ n && n ≤ 0x1f9ff) || (0x20000 ≤ n && n ≤ 0x3fffd)

def cellWidth (c : Char) : Nat :=
  if isZeroWidth c then 0 else if isWide c then 2 else 1

def textWidth (s : List Char) : Nat :=
  s.foldr (fun c n => cellWidth c + n) 0

/-- As much of a text as fits a number of cells. -/
def fitCells (width : Nat) : List Char → List Char
  | [] => []
  | c :: s => if cellWidth c ≤ width then c :: fitCells (width - cellWidth c) s else []

/-- A text cut or filled with spaces to a number of cells. -/
def fillCells (width : Nat) (s : List Char) : List Char :=
  let fitting := fitCells width s
  fitting ++ List.replicate (width - textWidth fitting) ' '

end UwbRanging.Text
