import Mathlib.Data.List.DropRight

/-! The string functions of the sources' standard library that the models use. -/
namespace Text

/-- `char::is_whitespace`: the Unicode property `White_Space`. -/
def isWhitespace (c : Char) : Bool :=
  (9 ≤ c.toNat && c.toNat ≤ 13) || (8192 ≤ c.toNat && c.toNat ≤ 8202) ||
    [32, 133, 160, 5760, 8232, 8233, 8239, 8287, 12288].contains c.toNat

def trim (s : String) : String :=
  String.ofList ((s.toList.dropWhile isWhitespace).rdropWhile isWhitespace)

def blank (s : String) : Bool := s.toList.all isWhitespace

example : blank " \t\n" = true ∧ trim " rollio\r\n" = "rollio" := by decide

end Text
