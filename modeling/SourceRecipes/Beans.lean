import SourceRecipes.SourceSet

/-!
# Bean documents

Small documents in the form of application contexts, to try recipes on: a root `beans` with an element `bean` for each
bean, which has an identifier and a class.
-/

namespace SourceRecipes

structure Bean where
  id : String
  className : String
  deriving DecidableEq, Repr

namespace Bean

def newAttribute (key text : String) : StateM IdSupply Attribute := do
  return Attribute.new (← IdSupply.fresh) (← IdSupply.fresh) key text

def element (b : Bean) : StateM IdSupply Element := do
  let element := Element.new (← IdSupply.fresh) "bean"
  return (element.pushAttribute (← newAttribute "id" b.id)).pushAttribute (← newAttribute "class" b.className)

def document (path : SourcePath) (beans : List Bean) : StateM IdSupply Document := do
  let id ← IdSupply.fresh
  let root := Element.new (← IdSupply.fresh) "beans"
  let elements ← beans.mapM element
  return {
    id, path
    prolog := some "<?xml version=\"1.0\" encoding=\"UTF-8\"?>"
    root := elements.foldl (fun root bean => root.pushChild (.element bean)) root }

end Bean

/-- The classes of the beans right under the root of the document at a path. -/
def SourceSet.classesOfBeans? (s : SourceSet) (path : SourcePath) : Option (List String) := do
  let document ← (← s.get? path).markup?
  let beans := document.root.childElements.filter fun e => e.name == "bean"
  return (beans.filterMap fun e => e.attribute? "class").map fun a => a.value.text

def SourceSet.plainTextAt? (s : SourceSet) (path : SourcePath) : Option String := do
  return (← (← s.get? path).plainText?).text

end SourceRecipes
