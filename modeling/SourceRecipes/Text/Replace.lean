/-!
# Replacing a part of a text

The first occurrence of a part is the leftmost one; an empty part occurs at the very beginning.
-/

namespace SourceRecipes.Text

/-- The text with the first occurrence of `part` replaced by `other`, if it occurs at all. -/
def replaceFirst (part other : List Char) : List Char → List Char
  | [] => if part.isPrefixOf [] then other else []
  | c :: rest =>
    if part.isPrefixOf (c :: rest) then other ++ (c :: rest).drop part.length
    else c :: replaceFirst part other rest

def startsWith (text part : String) : Bool :=
  part.toList.isPrefixOf text.toList

def endsWith (text part : String) : Bool :=
  part.toList.isSuffixOf text.toList

end SourceRecipes.Text
