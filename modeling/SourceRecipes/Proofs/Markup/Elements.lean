import SourceRecipes.Markup.Fingerprint

/-!
# The elements of a tree

A property of all elements of a tree follows from one step: that an element has it when its child elements have it.
`elements` lists an element with all elements inside it, in the order of their tags.
-/

namespace SourceRecipes

def Element.children (e : Element) : List Child :=
  e.content.getD []

/-- What holds of an element when it holds of its child elements holds of all elements. -/
theorem Element.induction {motive : Element → Prop}
    (step : ∀ e : Element, (∀ d : Element, Child.element d ∈ Element.children e → motive d) → motive e)
    (e : Element) : motive e :=
  step e fun d _hd => Element.induction step d
termination_by sizeOf e
decreasing_by
  obtain ⟨id, leading, name, attributes, content, beforeDelimiter⟩ := e
  cases content with
  | none => simp [Element.children] at _hd
  | some children =>
      have hsize := List.sizeOf_lt_of_mem (show Child.element d ∈ children from _hd)
      simp only [Child.element.sizeOf_spec, ElementOf.mk.sizeOf_spec, Option.some.sizeOf_spec] at hsize ⊢
      omega

theorem Element.map_content_congr {e : Element} {f g : Child → Child} (h : ∀ c ∈ Element.children e, f c = g c) :
    e.content.map (List.map f) = e.content.map (List.map g) := by
  refine Option.map_congr fun children hchildren => List.map_congr_left fun c hc => h c ?_
  rwa [Element.children, hchildren]

mutual

def Element.elements (e : Element) : List Element :=
  match e with
  | ⟨id, leading, name, attributes, content, beforeDelimiter⟩ =>
    ⟨id, leading, name, attributes, content, beforeDelimiter⟩ :: contentElements content
termination_by structural e

def Child.elements (c : Child) : List Element :=
  match c with
  | .element e => Element.elements e
  | .charData _ => []
  | .comment _ => []
termination_by structural c

def contentElements (content : Option (List Child)) : List Element :=
  match content with
  | none => []
  | some children => childrenElements children
termination_by structural content

def childrenElements (children : List Child) : List Element :=
  match children with
  | [] => []
  | c :: rest => Child.elements c ++ childrenElements rest
termination_by structural children

end

theorem childrenElements_eq_flatMap (children : List Child) :
    childrenElements children = children.flatMap Child.elements := by
  induction children with
  | nil => rfl
  | cons c rest ih => simp only [childrenElements, List.flatMap_cons, ih]

theorem Element.elements_eq_cons (e : Element) :
    Element.elements e = e :: (Element.children e).flatMap Child.elements := by
  obtain ⟨id, leading, name, attributes, content, beforeDelimiter⟩ := e
  cases content with
  | none => rfl
  | some children => exact congrArg _ (childrenElements_eq_flatMap children)

theorem Element.self_mem_elements (e : Element) : e ∈ Element.elements e := by
  rw [Element.elements_eq_cons]
  exact List.mem_cons_self

theorem Element.mem_elements_of_child {e d c : Element} (hd : Child.element d ∈ Element.children e)
    (hc : c ∈ Element.elements d) : c ∈ Element.elements e := by
  rw [Element.elements_eq_cons e]
  exact List.mem_cons_of_mem _ (List.mem_flatMap.mpr ⟨_, hd, hc⟩)

theorem childrenStream_eq_flatMap (children : List Child) :
    childrenStream children = children.flatMap Child.stream := by
  induction children with
  | nil => rfl
  | cons c rest ih => simp only [childrenStream, List.flatMap_cons, ih]

end SourceRecipes
