/-!
# Blank characters

The blanks of this library are the characters with Unicode's `White_Space` property together with
the four information separators U+001C to U+001F.  Trimming a text removes the blanks at both ends
and nothing inside it.
-/

namespace TypeAtlas.Text

def isBlank (c : Char) : Bool :=
  let code := c.toNat
  (0x09 ≤ code && code ≤ 0x0D) || (0x1C ≤ code && code ≤ 0x20) || code == 0x85 || code == 0xA0 ||
    code == 0x1680 || (0x2000 ≤ code && code ≤ 0x200A) || code == 0x2028 || code == 0x2029 ||
    code == 0x202F || code == 0x205F || code == 0x3000

def dropBlanks (chars : List Char) : List Char :=
  chars.dropWhile isBlank

def dropTrailingBlanks (chars : List Char) : List Char :=
  (dropBlanks chars.reverse).reverse

/-- A list of characters without the blanks at both ends. -/
def trimChars (chars : List Char) : List Char :=
  dropTrailingBlanks (dropBlanks chars)

def trim (text : String) : String :=
  String.ofList (trimChars text.toList)

def trimEnd (text : String) : String :=
  String.ofList (dropTrailingBlanks text.toList)

/-- A character in its small form if that is an ASCII letter: it is an ASCII capital then, or the
Kelvin sign. -/
def lowerChar (c : Char) : Char :=
  if c.toNat = 0x212A then 'k' else c.toLower

/-- A text in small letters as far as they are ASCII letters, which is enough to compare it with a
name that has no others. -/
def lowerAscii (text : String) : String :=
  String.ofList (text.toList.map lowerChar)

end TypeAtlas.Text
