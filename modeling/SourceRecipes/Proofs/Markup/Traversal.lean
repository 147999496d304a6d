import Mathlib.Data.List.Basic
import SourceRecipes.Proofs.Markup.Occurrences
import SourceRecipes.Proofs.Markup.Printed
import SourceRecipes.Proofs.Markup.Visits

/-!
# Walks that ask about every attribute

A visitor that only says what becomes of attributes is asked about each of them once, in the order of their print, and every
question meets the state that the one before it left: the walk is a plain pass over the list of occurrences. A tree is
known by its outline, which has blank attributes, and by its occurrences, so what the walk answers with is told by the answers: the
outline is the old one, and every attribute is the one it was replaced by, or the old one. Elements with certain names can be left
out with all that is inside them.
-/

namespace SourceRecipes

/-! ### Outlines -/

def Attribute.blank : Attribute :=
  Attribute.new .blank .blank "" ""

mutual

/-- The tree with blank attributes in the place of its own. -/
def Element.outline (e : Element) : Element :=
  match e with
  | ⟨id, leading, name, attributes, content, beforeDelimiter⟩ =>
    ⟨id, leading, name, attributes.map fun _ => .blank, contentOutline content, beforeDelimiter⟩
termination_by structural e

def Child.outline (c : Child) : Child :=
  match c with
  | .element e => .element (Element.outline e)
  | .charData d => .charData d
  | .comment c => .comment c
termination_by structural c

def contentOutline (content : Option (List Child)) : Option (List Child) :=
  match content with
  | none => none
  | some children => some (childrenOutline children)
termination_by structural content

def childrenOutline (children : List Child) : List Child :=
  match children with
  | [] => []
  | c :: rest => Child.outline c :: childrenOutline rest
termination_by structural children

end

theorem childrenOutline_eq_map (children : List Child) : childrenOutline children = children.map Child.outline := by
  induction children with
  | nil => rfl
  | cons c rest ih => simp only [childrenOutline, List.map_cons, ih]

theorem Element.outline_eq (e : Element) :
    Element.outline e = { e with
      attributes := e.attributes.map fun _ => .blank
      content := e.content.map (List.map Child.outline) } := by
  obtain ⟨id, leading, name, attributes, content, beforeDelimiter⟩ := e
  cases content with
  | none => rfl
  | some children => simp only [Element.outline, contentOutline, childrenOutline_eq_map, Option.map_some]

theorem Element.outline_congr {e : Element} {attributes : List Attribute} {content : Option (List Child)}
    (hattributes : (attributes.map fun _ => Attribute.blank) = e.attributes.map fun _ => .blank)
    (hcontent : content.map (List.map Child.outline) = e.content.map (List.map Child.outline)) :
    Element.outline { e with attributes, content } = Element.outline e := by
  rw [Element.outline_eq, Element.outline_eq e, hattributes, hcontent]

theorem Element.children_outline (e : Element) :
    Element.children (Element.outline e) = (Element.children e).map Child.outline := by
  rw [Element.outline_eq]
  cases hc : e.content <;> simp [Element.children, hc]

/-- The outline has an attribute wherever the tree has one. -/
theorem Element.length_occurrences_outline (above : List String) (e : Element) :
    (Element.occurrences above (Element.outline e)).length = (Element.occurrences above e).length := by
  induction e using Element.induction generalizing above with
  | step e ih =>
      have hinside : ∀ c ∈ Element.children e, (Child.occurrences (e.name :: above) (Child.outline c)).length =
          (Child.occurrences (e.name :: above) c).length := by
        intro c hc
        cases c with
        | element d => exact ih d hc _
        | charData d => rfl
        | comment c => rfl
      have hname : (Element.outline e).name = e.name := by rw [Element.outline_eq]
      have hattributes : (Element.outline e).attributes = e.attributes.map fun _ => .blank := by
        rw [Element.outline_eq]
      rw [Element.occurrences_eq, Element.occurrences_eq above e, Element.children_outline, hname, hattributes,
        List.flatMap_map, List.length_append, List.length_append, List.length_flatMap, List.length_flatMap,
        List.map_congr_left hinside]
      simp only [List.length_map]

theorem Child.length_occurrences_outline (above : List String) (c : Child) :
    (Child.occurrences above (Child.outline c)).length = (Child.occurrences above c).length := by
  cases c with
  | element e => exact Element.length_occurrences_outline above e
  | charData d => rfl
  | comment c => rfl

theorem Child.eq_of_outline_eq {above : List String} {c c' : Child}
    (hchild : ∀ d, c = .element d → ∀ d', Element.outline d' = Element.outline d →
      Element.occurrences above d' = Element.occurrences above d → d' = d)
    (houtline : Child.outline c' = Child.outline c)
    (hoccurrences : Child.occurrences above c' = Child.occurrences above c) : c' = c := by
  cases c with
  | element d =>
      cases c' with
      | element d' => exact congrArg Child.element (hchild d rfl d' (Child.element.inj houtline) hoccurrences)
      | charData d' => nomatch houtline
      | comment c' => nomatch houtline
  | charData d =>
      cases c' with
      | element d' => nomatch houtline
      | charData d' => exact houtline
      | comment c' => nomatch houtline
  | comment c =>
      cases c' with
      | element d' => nomatch houtline
      | charData d' => nomatch houtline
      | comment c' => exact houtline

/-- Children are known by their outlines and their occurrences if the elements among them are. -/
theorem children_eq_of_outline_eq {above : List String} {children children' : List Child}
    (hchild : ∀ d, Child.element d ∈ children → ∀ d', Element.outline d' = Element.outline d →
      Element.occurrences above d' = Element.occurrences above d → d' = d)
    (houtline : children'.map Child.outline = children.map Child.outline)
    (hoccurrences : children'.flatMap (Child.occurrences above) = children.flatMap (Child.occurrences above)) :
    children' = children := by
  induction children generalizing children' with
  | nil => exact List.map_eq_nil_iff.mp houtline
  | cons c rest ih =>
      obtain ⟨c', rest', rfl, hhead, htail⟩ := List.map_eq_cons_iff.mp houtline
      have hlength : (Child.occurrences above c').length = (Child.occurrences above c).length := by
        rw [← Child.length_occurrences_outline, hhead, Child.length_occurrences_outline]
      rw [List.flatMap_cons, List.flatMap_cons] at hoccurrences
      obtain ⟨hown, hrest⟩ := List.append_inj hoccurrences hlength
      have hsame : c' = c := Child.eq_of_outline_eq (fun d hd => hchild d (hd ▸ List.mem_cons_self)) hhead hown
      rw [hsame, ih (fun d hd => hchild d (List.mem_cons_of_mem c hd)) htail hrest]

/-- A tree is known by its outline and its attributes in order. -/
theorem Element.eq_of_outline_eq {above : List String} {e e' : Element}
    (houtline : Element.outline e' = Element.outline e)
    (hoccurrences : Element.occurrences above e' = Element.occurrences above e) : e' = e := by
  induction e using Element.induction generalizing above e' with
  | step e ih =>
      obtain ⟨id, leading, name, attributes, content, beforeDelimiter⟩ := e
      obtain ⟨id', leading', name', attributes', content', beforeDelimiter'⟩ := e'
      rw [Element.outline_eq, Element.outline_eq] at houtline
      simp only [ElementOf.mk.injEq] at houtline
      obtain ⟨rfl, rfl, rfl, hblank, hcontent, rfl⟩ := houtline
      rw [Element.occurrences_eq, Element.occurrences_eq] at hoccurrences
      -- The outlines tell how many attributes are of the element itself, so the occurrences come apart.
      have hlength : attributes'.length = attributes.length := by
        simpa only [List.length_map] using congrArg List.length hblank
      obtain ⟨hown, hinside⟩ := List.append_inj hoccurrences (by simpa only [List.length_map] using hlength)
      have hattributes : attributes' = attributes :=
        List.map_injective_iff.mpr (fun a b h => congrArg Occurrence.entry h) hown
      have hsame : content' = content := by
        cases content with
        | none => exact Option.map_eq_none_iff.mp hcontent
        | some children =>
            obtain ⟨children', rfl, hchildren⟩ := Option.map_eq_some_iff.mp hcontent
            exact congrArg some (children_eq_of_outline_eq (fun d hd d' => ih d hd) hchildren hinside)
      rw [hattributes, hsame]

/-! ### Questions and answers -/

/-- The attribute replaced by an answer, if there is one. -/
def Occurrence.answered (o : Occurrence) (answer : Option Attribute) : Occurrence :=
  { o with entry := answer.getD o.entry }

/-- Whether the attribute stands in an element with one of the names. -/
def Occurrence.isWithin (names : String → Bool) (o : Occurrence) : Bool :=
  names o.tag || o.above.any names

section Passes

variable {σ : Type} {ask : Occurrence → StateM σ (Option Attribute)}

/-- A pass over occurrences from one state to another, with the answers to the questions and what they make of the
occurrences. -/
structure Pass (ask : Occurrence → StateM σ (Option Attribute)) (s : σ) (old : List Occurrence)
    (answers : List (Option Attribute)) (new : List Occurrence) (s' : σ) : Prop where
  run : (old.mapM ask).run s = (answers, s')
  new_eq : new = List.zipWith Occurrence.answered old answers

namespace Pass

variable {s s₁ s₂ : σ} {old old' new new' : List Occurrence} {answers answers' : List (Option Attribute)}

theorem nil (s : σ) : Pass ask s [] [] [] s :=
  ⟨rfl, rfl⟩

theorem cons {o : Occurrence} (h : Pass ask ((ask o).run s).2 old answers new s₁) :
    Pass ask s (o :: old) (((ask o).run s).1 :: answers) (o.answered ((ask o).run s).1 :: new) s₁ where
  run := by rw [run_mapM_cons, h.run]
  new_eq := by rw [h.new_eq, List.zipWith_cons_cons]

theorem append (h : Pass ask s old answers new s₁) (h' : Pass ask s₁ old' answers' new' s₂) :
    Pass ask s (old ++ old') (answers ++ answers') (new ++ new') s₂ := by
  induction old generalizing s answers new with
  | nil =>
      obtain ⟨hrun, rfl⟩ := h
      cases hrun
      exact h'
  | cons o rest ih =>
      obtain ⟨hrun, rfl⟩ := h
      rw [run_mapM_cons] at hrun
      cases hrun
      exact (ih ⟨rfl, rfl⟩).cons

/-- Where nothing is asked, nothing is replaced. -/
theorem unasked (h : ∀ o ∈ old, ask o = pure none) (s : σ) : Pass ask s old (old.map fun _ => none) old s := by
  induction old with
  | nil => exact nil s
  | cons o rest ih =>
      rw [List.forall_mem_cons] at h
      have hhead : (ask o).run s = (none, s) := by rw [h.1]; rfl
      have hrest : Pass ask ((ask o).run s).2 rest (rest.map fun _ => none) rest s := by
        rw [hhead]
        exact ih h.2
      have hpass := hrest.cons (o := o)
      rw [hhead] at hpass
      exact hpass

end Pass

end Passes

/-! ### Nodes -/

/-- What a walk asks about in a node, and what it cannot change. -/
structure View (α : Type) where
  occurrences : α → List Occurrence
  outline : α → α

namespace View

def list {α : Type} (v : View α) : View (List α) :=
  ⟨fun items => items.flatMap v.occurrences, List.map v.outline⟩

def entry (above : List String) (tag : String) : View Attribute :=
  ⟨fun a => [⟨above, tag, a⟩], fun _ => .blank⟩

def element (above : List String) : View Element :=
  ⟨Element.occurrences above, Element.outline⟩

def child (above : List String) : View Child :=
  ⟨Child.occurrences above, Child.outline⟩

def document : View Document :=
  ⟨fun d => Element.occurrences [] d.root, fun d => { d with root := Element.outline d.root }⟩

variable {α β σ : Type}

/-- A visit asks about the attributes of a node in order, and answers with the node in which the answers took their places, or
with `none` if none of them did. -/
def Asks (v : View α) (ask : Occurrence → StateM σ (Option Attribute)) (visit : StateM σ (Option α)) (node : α) : Prop :=
  ∀ s, v.outline ((visit.run s).1.getD node) = v.outline node ∧ ∃ answers,
    Pass ask s (v.occurrences node) answers (v.occurrences ((visit.run s).1.getD node)) (visit.run s).2 ∧
      ((visit.run s).1 = none ↔ ∀ answer ∈ answers, answer = none)

variable {v : View α} {w : View β} {ask : Occurrence → StateM σ (Option Attribute)}

theorem asks_of_unasked {node : α} (h : ∀ o ∈ v.occurrences node, ask o = pure none) : v.Asks ask (pure none) node := by
  intro s
  refine ⟨rfl, _, Pass.unasked h s, iff_of_true rfl fun answer hanswer => ?_⟩
  obtain ⟨o, -, rfl⟩ := List.mem_map.mp hanswer
  rfl

/-- A visit of what a node holds is one of the node. -/
theorem Asks.map {visit : StateM σ (Option α)} {inner : α} {wrap : α → β} (h : v.Asks ask visit inner)
    (hoccurrences : ∀ a, w.occurrences (wrap a) = v.occurrences a)
    (houtline : ∀ a, v.outline a = v.outline inner → w.outline (wrap a) = w.outline (wrap inner)) :
    w.Asks ask (do return (← visit).map wrap) (wrap inner) := by
  intro s
  obtain ⟨hsame, answers, hpass, hnone⟩ := h s
  have hrun : (do return (← visit).map wrap : StateM σ (Option β)).run s =
      ((visit.run s).1.map wrap, (visit.run s).2) := rfl
  have hanswer : ((visit.run s).1.map wrap).getD (wrap inner) = wrap ((visit.run s).1.getD inner) :=
    Option.getD_map wrap inner (visit.run s).1
  rw [hrun, hanswer, hoccurrences, hoccurrences, Option.map_eq_none_iff]
  exact ⟨houtline _ hsame, answers, hpass, hnone⟩

theorem asks_replaceEach {f : α → StateM σ (Option α)} {items : List α} (h : ∀ a ∈ items, v.Asks ask (f a) a) :
    v.list.Asks ask (replaceEach f items) items := by
  induction items with
  | nil => exact asks_of_unasked nofun
  | cons a rest ih =>
      intro s
      rw [List.forall_mem_cons] at h
      obtain ⟨houtline, answers, hpass, hnone⟩ := h.1 s
      obtain ⟨houtlines, others, hpasses, hnones⟩ := ih h.2 ((f a).run s).2
      rw [run_replaceEach_cons, getD_replaced, replaced_eq_none_iff, hnone, hnones]
      refine ⟨?_, answers ++ others, hpass.append hpasses, List.forall_mem_append.symm⟩
      exact congrArg₂ List.cons houtline houtlines

theorem asks_entry {above : List String} {tag : String} {a : Attribute} {f : Attribute → StateM σ (Option Attribute)}
    (h : ask ⟨above, tag, a⟩ = f a) : (View.entry above tag).Asks ask (f a) a := by
  intro s
  have hnil : Pass ask ((ask ⟨above, tag, a⟩).run s).2 [] [] [] ((ask ⟨above, tag, a⟩).run s).2 := Pass.nil _
  have hpass := hnil.cons
  rw [h] at hpass
  exact ⟨rfl, _, hpass, by simp⟩

/-- New children with the old outlines leave the outline of the content. -/
theorem map_outline_or {content children : Option (List Child)} (hempty : content = none → children = none)
    (h : (children.getD (content.getD [])).map Child.outline = (content.getD []).map Child.outline) :
    (children.or content).map (List.map Child.outline) = content.map (List.map Child.outline) := by
  cases content with
  | none => rw [hempty rfl, Option.or_none]
  | some old =>
      cases children with
      | none => rfl
      | some new => exact congrArg some h

/-- A visit of the attributes and one of the children after it are one of the element. -/
theorem asks_rebuild {above : List String} {e : Element} {attributes : StateM σ (Option (List Attribute))}
    {children : StateM σ (Option (List Child))}
    (hattributes : (View.entry above e.name).list.Asks ask attributes e.attributes)
    (hchildren : (View.child (e.name :: above)).list.Asks ask children (Element.children e))
    (hempty : e.content = none → children = pure none) :
    (View.element above).Asks ask (do return Visitor.rebuild e (← attributes) (← children)) e := by
  intro s
  obtain ⟨houtline, answers, hpass, hnone⟩ := hattributes s
  obtain ⟨houtlines, others, hpasses, hnones⟩ := hchildren (attributes.run s).2
  have hrun : (do return Visitor.rebuild e (← attributes) (← children) : StateM σ (Option Element)).run s =
      (Visitor.rebuild e (attributes.run s).1 (children.run (attributes.run s).2).1,
        (children.run (attributes.run s).2).2) := rfl
  rw [hrun, Visitor.getD_rebuild, Visitor.rebuild_eq_none_iff, hnone, hnones]
  refine ⟨?_, answers ++ others, ?_, List.forall_mem_append.symm⟩
  · exact Element.outline_congr houtline (map_outline_or (fun hnil => by rw [hempty hnil]; rfl) houtlines)
  · have hboth := hpass.append hpasses
    simp only [View.list, View.entry, View.child, ← List.map_eq_flatMap] at hboth
    simp only [View.element, Element.occurrences_eq, Element.children, Option.getD_or] at hboth ⊢
    exact hboth

end View

namespace Visitor

open View

variable {σ : Type} {v : Visitor σ} {f : Attribute → StateM σ (Option Attribute)} {leavesOut : String → Bool}

/-- What a visitor asks about attributes, if it leaves out the elements with some names. -/
def askOutside (leavesOut : String → Bool) (f : Attribute → StateM σ (Option Attribute)) (o : Occurrence) :
    StateM σ (Option Attribute) :=
  if o.isWithin leavesOut then pure none else f o.entry

theorem isWithin_of_mem_occurrences {above : List String} {e : Element} (hname : leavesOut e.name = true)
    {o : Occurrence} (ho : o ∈ Element.occurrences above e) : o.isWithin leavesOut = true := by
  rw [Element.occurrences_eq, List.mem_append] at ho
  rw [Occurrence.isWithin, Bool.or_eq_true, List.any_eq_true]
  rcases ho with hown | hinside
  · obtain ⟨a, -, rfl⟩ := List.mem_map.mp hown
    exact Or.inl hname
  · obtain ⟨c, -, hoc⟩ := List.mem_flatMap.mp hinside
    cases c with
    | element d =>
        have hmem : e.name ∈ o.above := Element.above_subset_of_mem_occurrences hoc List.mem_cons_self
        exact Or.inr ⟨e.name, hmem, hname⟩
    | charData d => nomatch hoc
    | comment c => nomatch hoc

theorem asks_visitChild {ask : Occurrence → StateM σ (Option Attribute)} {above : List String} {c : Child}
    (h : ∀ d, c = .element d → (View.element above).Asks ask (v.visitElement d) d) :
    (View.child above).Asks ask (v.visitChild c) c := by
  cases c with
  | element d =>
      apply Asks.map (h d rfl)
      · exact fun _ => rfl
      · exact fun _ => congrArg Child.element
  | charData d => exact asks_of_unasked nofun
  | comment c => exact asks_of_unasked nofun

theorem asks_visitContent {ask : Occurrence → StateM σ (Option Attribute)} {above : List String} {e : Element}
    (h : ∀ d, Child.element d ∈ Element.children e → (View.element above).Asks ask (v.visitElement d) d) :
    (View.child above).list.Asks ask (v.visitContent e.content) (Element.children e) := by
  unfold Element.children at h ⊢
  cases hcontent : e.content with
  | none => exact asks_of_unasked nofun
  | some children =>
      rw [hcontent, Option.getD_some] at h
      rw [visitContent, visitChildren_eq_replaceEach]
      exact asks_replaceEach fun c hc => asks_visitChild fun d hd => h d (hd ▸ hc)

theorem asks_visitElement (hattribute : v.onAttribute = f)
    (helement : ∀ e walk, v.onElement e walk = if leavesOut e.name then pure none else walk) {above : List String}
    (habove : above.any leavesOut = false) (e : Element) :
    (View.element above).Asks (askOutside leavesOut f) (v.visitElement e) e := by
  induction e using Element.induction generalizing above with
  | step e ih =>
      rw [visitElement_eq, helement]
      -- No name above is left out, so the attributes of the element are asked about exactly if its own name is not.
      by_cases hname : leavesOut e.name = true
      · rw [if_pos hname]
        apply asks_of_unasked
        intro o ho
        exact if_pos (isWithin_of_mem_occurrences hname ho)
      · rw [if_neg hname]
        rw [Bool.not_eq_true] at hname
        apply asks_rebuild
        · rw [hattribute]
          apply asks_replaceEach
          intro a _
          have houtside : Occurrence.isWithin leavesOut ⟨above, e.name, a⟩ = false := by
            rw [Occurrence.isWithin, hname, habove, Bool.or_false]
          apply asks_entry
          rw [askOutside, houtside, if_neg Bool.false_ne_true]
        · apply asks_visitContent
          intro d hd
          apply ih d hd
          rw [List.any_cons, hname, habove, Bool.or_false]
        · intro hnil
          rw [hnil]
          rfl

theorem asks_visitDocument (hattribute : v.onAttribute = f)
    (helement : ∀ e walk, v.onElement e walk = if leavesOut e.name then pure none else walk) (d : Document) :
    View.document.Asks (askOutside leavesOut f) (v.visitDocument d) d := by
  have hroot := asks_visitElement hattribute helement List.any_nil d.root
  have hdocument : View.document.Asks (askOutside leavesOut f)
      (do return (← v.visitElement d.root).map fun root => { d with root }) { d with root := d.root } :=
    hroot.map (fun _ => rfl) fun _ houtline => congrArg (fun root => ({ d with root } : Document)) houtline
  exact hdocument

end Visitor

/-! ### Documents -/

namespace Document

variable {σ : Type} {ask : Occurrence → StateM σ (Option Attribute)} {visit : StateM σ (Option Document)}
  {d d₁ d₂ : Document} {answers : List (Option Attribute)}

/-- The second document is the first one with the answers in the places of the attributes that they were given for. -/
structure IsAnswered (d : Document) (answers : List (Option Attribute)) (d' : Document) : Prop where
  id : d'.id = d.id
  path : d'.path = d.path
  prolog : d'.prolog = d.prolog
  outline : Element.outline d'.root = Element.outline d.root
  occurrences : Element.occurrences [] d'.root = List.zipWith Occurrence.answered (Element.occurrences [] d.root) answers

theorem IsAnswered.unique (h₁ : d.IsAnswered answers d₁) (h₂ : d.IsAnswered answers d₂) : d₁ = d₂ := by
  obtain ⟨id₁, path₁, prolog₁, root₁⟩ := d₁
  obtain ⟨id₂, path₂, prolog₂, root₂⟩ := d₂
  have hroot : root₁ = root₂ := Element.eq_of_outline_eq (h₁.outline.trans h₂.outline.symm)
    (h₁.occurrences.trans h₂.occurrences.symm)
  rw [mk.injEq]
  exact ⟨h₁.id.trans h₂.id.symm, h₁.path.trans h₂.path.symm, h₁.prolog.trans h₂.prolog.symm, hroot⟩

/-- A visit of a document asks about every attribute once, in the order of the text and from one state to the next. It
answers with `none` if all answers are `none`, else with the document in which the answers took their places. -/
def IsWalked (ask : Occurrence → StateM σ (Option Attribute)) (visit : StateM σ (Option Document)) (d : Document) :
    Prop :=
  ∀ s, ∃ answers, ((Element.occurrences [] d.root).mapM ask).run s = (answers, (visit.run s).2) ∧
    ((visit.run s).1 = none ↔ ∀ answer ∈ answers, answer = none) ∧
    ∀ d', (visit.run s).1 = some d' ↔ (∃ answer ∈ answers, answer ≠ none) ∧ d.IsAnswered answers d'

theorem isWalked_of_asks (h : View.document.Asks ask visit d) : IsWalked ask visit d := by
  intro s
  obtain ⟨houtline, answers, ⟨hrun, hnew⟩, hnone⟩ := h s
  simp only [View.document, mk.injEq] at houtline
  obtain ⟨hid, hpath, hprolog, hroot⟩ := houtline
  have hanswered : d.IsAnswered answers ((visit.run s).1.getD d) := ⟨hid, hpath, hprolog, hroot, hnew⟩
  refine ⟨answers, hrun, hnone, fun d' => ?_⟩
  cases hvisit : (visit.run s).1 with
  | none =>
      rw [hvisit] at hnone
      have hall := hnone.mp rfl
      simp only [reduceCtorEq, false_iff, not_and]
      rintro ⟨answer, hanswer, hsome⟩
      exact absurd (hall answer hanswer) hsome
  | some edited =>
      rw [hvisit] at hnone hanswered
      have hsome : ∃ answer ∈ answers, answer ≠ none := by
        by_contra hall
        have hnot : ∀ answer ∈ answers, answer = none := by simpa using hall
        nomatch hnone.mpr hnot
      rw [Option.some.injEq]
      constructor
      · rintro rfl
        exact ⟨hsome, hanswered⟩
      · rintro ⟨-, hother⟩
        exact hanswered.unique hother

end Document

/-- A visitor that only says what becomes of attributes walks a whole document: it asks about every attribute of every tag
once, in order, each question with the state that the one before it left, and all that is not replaced stays. If it leaves
out the elements with some names, the same holds but for the attributes in them, about which it does not ask. -/
theorem Visitor.visitDocument_asks_in_order {σ : Type} (f : Attribute → StateM σ (Option Attribute)) (d : Document) :
    d.IsWalked (fun o => f o.entry) (({ onAttribute := f } : Visitor σ).visitDocument d) ∧
    ∀ leavesOut : String → Bool,
      d.IsWalked (fun o => if o.isWithin leavesOut then pure none else f o.entry)
        (({ onAttribute := f, onElement := fun e walk => if leavesOut e.name then pure none else walk } :
          Visitor σ).visitDocument d) := by
  constructor
  · have hall : askOutside (fun _ => false) f = fun o => f o.entry := by
      funext o
      have houtside : o.isWithin (fun _ => false) = false := by simp [Occurrence.isWithin]
      rw [askOutside, houtside, if_neg Bool.false_ne_true]
    rw [← hall]
    exact Document.isWalked_of_asks (asks_visitDocument rfl (fun _ _ => rfl) d)
  · intro leavesOut
    exact Document.isWalked_of_asks (asks_visitDocument rfl (fun _ _ => rfl) d)

end SourceRecipes
