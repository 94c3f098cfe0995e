/-!
Paths below a fixed anchor, as lists of names.
-/

namespace Tabulary

abbrev Path := List String

namespace Path

/-- The names of a written path: slashes separate them, empty names and single dots say nothing. -/
def parts (s : String) : Path :=
  ((s.toList.splitBy fun a b => a ≠ '/' && b ≠ '/').map String.ofList).filter
    fun name => name ≠ "" && name ≠ "." && name ≠ "/"

/-- The path written after its anchor, which ends in a slash unless it is empty. -/
def text (anchor : String) (p : Path) : String :=
  match p with
  | [] => if anchor.endsWith "/" && anchor != "/" then (anchor.dropEnd 1).toString
    else if anchor = "" then "." else anchor
  | _ => anchor ++ "/".intercalate p

end Path
end Tabulary
