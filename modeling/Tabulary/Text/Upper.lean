/-!
Upper case, as far as words of the Latin alphabet need it.
-/

namespace Tabulary
namespace Text

/-- The upper case of a character where that is plain Latin text; every other character stands for
itself.  Ten characters beyond the basic letters have such an upper case: the sharp s, the dotless
i, the long s and seven ligatures. -/
def upperChar (c : Char) : List Char :=
  if c.toNat < 0x80 then [c.toUpper]
  else match c.toNat with
    | 0xDF => ['S', 'S']
    | 0x131 => ['I']
    | 0x17F => ['S']
    | 0xFB00 => ['F', 'F']
    | 0xFB01 => ['F', 'I']
    | 0xFB02 => ['F', 'L']
    | 0xFB03 => ['F', 'F', 'I']
    | 0xFB04 => ['F', 'F', 'L']
    | 0xFB05 => ['S', 'T']
    | 0xFB06 => ['S', 'T']
    | _ => [c]

def capitals (s : String) : String := String.ofList (s.toList.flatMap upperChar)

end Text
end Tabulary
