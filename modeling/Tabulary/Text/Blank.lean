/-!
White space.  A character is blank when Unicode gives it the category "space separator" or one of
the bidirectional classes of white space, paragraph and segment separators.
-/

namespace Tabulary
namespace Text

def isBlank (c : Char) : Bool :=
  let n := c.toNat
  (0x09 ≤ n && n ≤ 0x0D) || (0x1C ≤ n && n ≤ 0x20) || n == 0x85 || n == 0xA0 ||
    n == 0x1680 || (0x2000 ≤ n && n ≤ 0x200A) || n == 0x2028 || n == 0x2029 ||
    n == 0x202F || n == 0x205F || n == 0x3000

def stripChars (p : Char → Bool) (cs : List Char) : List Char :=
  ((cs.dropWhile p).reverse.dropWhile p).reverse

/-- The text without blanks at either end. -/
def trim (s : String) : String := String.ofList (stripChars isBlank s.toList)

/-- The longest run of characters at the front that are not blank. -/
def firstWord (s : String) : String :=
  String.ofList (s.toList.takeWhile fun c => !isBlank c)

end Text
end Tabulary
