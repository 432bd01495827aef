/-!
# Blank characters

A line is cut into words at blank characters, and the blanks around it do not count.
Blank is what Unicode calls `White_Space`: twenty-five characters, of which six are ASCII.
-/

namespace JobControl.Text

/-- The characters with the Unicode property `White_Space`. -/
def isBlank (c : Char) : Bool :=
  let n := c.toNat
  (9 ≤ n && n ≤ 13) || n == 0x20 || n == 0x85 || n == 0xA0 || n == 0x1680 ||
    (0x2000 ≤ n && n ≤ 0x200A) || n == 0x2028 || n == 0x2029 || n == 0x202F ||
    n == 0x205F || n == 0x3000

def trimBlanks (text : List Char) : List Char :=
  ((text.dropWhile isBlank).reverse.dropWhile isBlank).reverse

def trim (text : String) : String :=
  String.ofList (trimBlanks text.toList)

def isBlankText (text : String) : Bool :=
  text.toList.all isBlank

@[simp]
theorem toList_trim (text : String) :
    (trim text).toList = trimBlanks text.toList := by
  simp [trim]

end JobControl.Text
