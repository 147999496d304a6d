import SourceRecipes.Proofs.Data.Outcome
import SourceRecipes.Yaml.Node.Grammar

/-!
# The root of a document

A reference needs an anchor in front of it, so the root of a document is none: unless the document is empty, its root holds
a value.
-/

namespace SourceRecipes.Yaml

/-- Whether a node is a scalar, a sequence or a mapping. -/
def Node.holdsValue : Node → Bool
  | void => false
  | scalar .. => true
  | sequence .. => true
  | mapping .. => true
  | reference _ => false

namespace Grammar

variable {α β : Type} {before : Pending → Prop} {x : Grammar α} {f : α → Grammar β}

/-- A part of the grammar that is read from what has one property leaves what has another. -/
def Ensures (before : Pending → Prop) (x : Grammar α) (after : α → Pending → Prop) : Prop :=
  ∀ p a p', before p → x.run p = .ok (a, p') → after a p'

theorem Ensures.bind {middle : α → Pending → Prop} {after : β → Pending → Prop} (hx : Ensures before x middle)
    (hf : ∀ a, Ensures (middle a) (f a) after) : Ensures before (x >>= f) after := by
  intro p b p' hp hrun
  rw [StateT.run_bind, bind_eq_ok_iff] at hrun
  obtain ⟨⟨a, p₁⟩, hfirst, hrest⟩ := hrun
  exact hf a p₁ b p' (hx p a p₁ hp hfirst) hrest

theorem Ensures.of_imp {before' : Pending → Prop} {after : α → Pending → Prop} (hx : Ensures before x after)
    (h : ∀ p, before' p → before p) : Ensures before' x after :=
  fun p a p' hp hrun => hx p a p' (h p hp) hrun

theorem ensures_true (x : Grammar α) : Ensures before x fun _ _ => True :=
  fun _ _ _ _ _ => trivial

theorem ensures_const {c : Prop} (x : Grammar α) : Ensures (fun _ => c) x fun _ _ => c :=
  fun _ _ _ h _ => h

theorem ensures_pure {a : α} {after : α → Pending → Prop} (h : ∀ p, before p → after a p) :
    Ensures before (pure a) after := by
  intro p a' p' hp hrun
  obtain ⟨rfl, rfl⟩ := Prod.mk.inj (Except.ok.inj hrun)
  exact h p hp

theorem ensures_throw (e : Error) (after : α → Pending → Prop) : Ensures before (throw e) after := by
  intro p a p' _ hrun
  nomatch hrun

theorem ensures_get : Ensures before get fun q p => q = p ∧ before p := by
  intro p q p' hp hrun
  obtain ⟨rfl, rfl⟩ := Prod.mk.inj (Except.ok.inj hrun)
  exact ⟨rfl, hp⟩

theorem ensures_modify {g : Pending → Pending} {after : Pending → Prop} (h : ∀ p, before p → after (g p)) :
    Ensures before (modify g) fun _ => after := by
  intro p a p' hp hrun
  obtain ⟨-, rfl⟩ := Prod.mk.inj (Except.ok.inj hrun)
  exact h p hp

/-! ### No anchors -/

/-- No anchor was met yet. -/
def NoAnchors (p : Pending) : Prop :=
  p.anchors = []

theorem ensures_peek : Ensures NoAnchors peek fun _ => NoAnchors :=
  ensures_get.bind fun _ => ensures_pure fun _ h => h.2

theorem ensures_advance : Ensures NoAnchors advance fun _ => NoAnchors :=
  ensures_modify fun _ h => h

theorem ensures_remaining : Ensures NoAnchors remaining fun _ => NoAnchors :=
  ensures_get.bind fun _ => ensures_pure fun _ h => h.2

theorem ensures_directives (fuel : Nat) (hasVersion : Bool) :
    Ensures NoAnchors (directives fuel hasVersion) fun _ => NoAnchors := by
  induction fuel generalizing hasVersion with
  | zero => exact ensures_throw .malformed _
  | succ fuel ih =>
    refine ensures_peek.bind fun token? => ?_
    split
    · split_ifs
      · exact ensures_throw .malformed _
      · exact ensures_advance.bind fun _ => ih true
    · refine ensures_get.bind fun p => ?_
      split_ifs
      · exact ensures_throw .malformed _
      · refine Ensures.of_imp (ensures_advance.bind fun _ => ?_) fun _ h => h.2
        exact Ensures.bind (ensures_modify fun _ h => h) fun _ => ih hasVersion
    · exact ensures_modify fun _ h => h

/-! ### Nodes -/

theorem ensures_reference (name : String) (after : Node → Pending → Prop) : Ensures NoAnchors (reference name) after := by
  refine ensures_get.bind fun p => ?_
  split
  · next number hlookup =>
    rintro p' n _ ⟨rfl, hnone⟩ -
    rw [hnone] at hlookup
    nomatch hlookup
  · exact ensures_throw _ after

theorem ensures_node (fuel : Nat) (position : Position) :
    Ensures NoAnchors (node fuel position) fun n _ => n.holdsValue = true := by
  cases fuel with
  | zero => exact ensures_throw .malformed _
  | succ fuel =>
    refine ensures_peek.bind fun token? => ?_
    split
    · exact ensures_advance.bind fun _ => ensures_reference _ _
    · refine (ensures_true properties).bind ?_
      rintro ⟨anchor, tag⟩
      refine (ensures_true peek).bind fun token? => ?_
      split
      · exact (ensures_true _).bind fun _ => ensures_pure fun _ _ => rfl
      · exact (ensures_true _).bind fun _ => ensures_pure fun _ _ => rfl
      · exact (ensures_true _).bind fun _ => (ensures_true _).bind fun _ => ensures_pure fun _ _ => rfl
      · exact (ensures_true _).bind fun _ => (ensures_true _).bind fun _ => ensures_pure fun _ _ => rfl
      · exact (ensures_true _).bind fun _ => (ensures_true _).bind fun _ => ensures_pure fun _ _ => rfl
      · exact (ensures_true _).bind fun _ => (ensures_true _).bind fun _ => ensures_pure fun _ _ => rfl
      · exact (ensures_true _).bind fun _ => (ensures_true _).bind fun _ => ensures_pure fun _ _ => rfl
      · exact (ensures_true _).bind fun _ => (ensures_true _).bind fun _ => ensures_pure fun _ _ => rfl
      · split_ifs
        · exact ensures_pure fun _ _ => rfl
        · exact ensures_throw .malformed _

/-! ### Documents -/

theorem ensures_root : Ensures NoAnchors root fun n _ => n = .void ∨ n.holdsValue = true := by
  have hnode : ∀ fuel position, Ensures NoAnchors (node fuel position) fun n _ => n = .void ∨ n.holdsValue = true :=
    fun fuel position p n p' hp hrun => Or.inr (ensures_node fuel position p n p' hp hrun)
  refine ensures_remaining.bind fun left => ensures_peek.bind fun token? => ?_
  split
  · exact ensures_pure fun _ _ => Or.inl rfl
  · exact ensures_throw .malformed _
  · refine (ensures_directives _ false).bind fun _ => ?_
    split_ifs
    · refine ensures_peek.bind fun token? => ?_
      split_ifs
      · refine ensures_advance.bind fun _ => ensures_peek.bind fun token? => ?_
        split
        · exact ensures_pure fun _ _ => Or.inr rfl
        · split_ifs
          · exact ensures_pure fun _ _ => Or.inr rfl
          · exact hnode _ _
      · exact ensures_throw .malformed _
    · exact hnode _ _

end Grammar

theorem Document.root_of_parse {text : String} {d : Document} (h : Document.parse text = .ok d) :
    d.root = .void ∨ d.root.holdsValue = true := by
  obtain ⟨tokens, -, h⟩ := bind_eq_ok_iff.mp h
  obtain ⟨⟨root, p⟩, hrun, h⟩ := bind_eq_ok_iff.mp h
  obtain rfl := Except.ok.inj h
  have hroot : Grammar.Ensures Grammar.NoAnchors (do
      let root ← Grammar.root
      Grammar.finish ((← Grammar.remaining) + 1)
      return root : Grammar Node) fun n _ => n = .void ∨ n.holdsValue = true := by
    refine Grammar.ensures_root.bind fun n => ?_
    refine (Grammar.ensures_const _).bind fun left => (Grammar.ensures_const _).bind fun _ => ?_
    exact Grammar.ensures_pure fun _ h => h
  exact hroot { tokens } root p rfl hrun

end SourceRecipes.Yaml
