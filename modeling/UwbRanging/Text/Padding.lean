/-!
Texts padded with spaces to the width of a column. Widths count characters; what is wider stays whole.
-/

namespace UwbRanging.Text

def spaces (n : Nat) : String :=
  String.ofList (List.replicate n ' ')

def padLeft (width : Nat) (s : String) : String :=
  spaces (width - s.length) ++ s

def padRight (width : Nat) (s : String) : String :=
  s ++ spaces (width - s.length)

end UwbRanging.Text
