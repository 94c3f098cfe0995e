/-!
The order of texts and of lists of texts: by the first place where they differ.
-/

namespace Tabulary
namespace Text

/-- Whether two lists of texts are in order. -/
def inOrder : List String → List String → Bool
  | [], _ => true
  | _ :: _, [] => false
  | a :: as, b :: bs => if a = b then inOrder as bs else a ≤ b

end Text
end Tabulary
