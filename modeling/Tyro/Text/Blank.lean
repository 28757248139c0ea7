/-!
# Blank characters

Blank means the Unicode property `White_Space`: twenty-five characters, among them the ASCII
blanks, the no-break space and the ideographic space. The scanner skips them between tokens, and
messages about source text are trimmed of them. `trim` removes the blanks at both ends of a text
and leaves those inside.
-/

namespace Tyro.Text

/-- Whether `c` has the Unicode property `White_Space`. -/
def isBlank (c : Char) : Bool :=
  let n := c.toNat
  (0x9 ≤ n && n ≤ 0xD) || n == 0x20 || n == 0x85 || n == 0xA0 || n == 0x1680 ||
    (0x2000 ≤ n && n ≤ 0x200A) || n == 0x2028 || n == 0x2029 || n == 0x202F || n == 0x205F ||
    n == 0x3000

/-- The characters without the blanks at both ends. -/
def trimChars (cs : List Char) : List Char :=
  ((cs.dropWhile isBlank).reverse.dropWhile isBlank).reverse

/-- The text without the blanks at both ends. -/
def trim (s : String) : String := String.ofList (trimChars s.toList)

end Tyro.Text
