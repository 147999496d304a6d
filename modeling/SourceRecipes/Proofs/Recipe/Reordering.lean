import SourceRecipes.Proofs.Recipe.Subjects

/-!
# Recipes in another order

A reordering keeps the order of recipes with one subject, so it has the same recipes of every subject in the same order. It
makes the same of every file, and its first recipes with their targets are the same, so it creates the same files, if in
another order.
-/

namespace SourceRecipes.RecipeSpec

variable {specs specs' : List RecipeSpec}

/-- The recipes of the first list at other places; two recipes with one subject stand in the order in which they stood. -/
def IsReordering (specs specs' : List RecipeSpec) : Prop :=
  ∃ place : Fin specs'.length ≃ Fin specs.length, (∀ i, specs'.get i = specs.get (place i)) ∧
    ∀ i j, i < j → (specs'.get i).subject = (specs'.get j).subject → place i < place j

/-- The places of the recipes with a subject. -/
def placesOf (specs : List RecipeSpec) (s : Subject) : List (Fin specs.length) :=
  (List.finRange specs.length).filter fun i => (specs.get i).subject = s

theorem mem_placesOf {s : Subject} {i : Fin specs.length} : i ∈ placesOf specs s ↔ (specs.get i).subject = s := by
  rw [placesOf, List.mem_filter, decide_eq_true_eq]
  exact and_iff_right (List.mem_finRange i)

theorem pairwise_placesOf (specs : List RecipeSpec) (s : Subject) : (placesOf specs s).Pairwise (· < ·) :=
  (List.sortedLT_finRange specs.length).pairwise.filter _

theorem map_get_placesOf (specs : List RecipeSpec) (s : Subject) :
    (placesOf specs s).map specs.get = withSubject specs s := by
  have hfilter : withSubject ((List.finRange specs.length).map specs.get) s = (placesOf specs s).map specs.get := by
    rw [withSubject, List.filter_map]
    rfl
  rw [← hfilter, List.map_get_finRange]

theorem IsReordering.withSubject_eq (h : IsReordering specs specs') (s : Subject) :
    withSubject specs s = withSubject specs' s := by
  obtain ⟨place, hget, horder⟩ := h
  have hpairwise : ((placesOf specs' s).map place).Pairwise (· < ·) := by
    rw [List.pairwise_map]
    apply (pairwise_placesOf specs' s).imp_of_mem
    intro i j hi hj hlt
    exact horder i j hlt ((mem_placesOf.mp hi).trans (mem_placesOf.mp hj).symm)
  -- Both rows of places ascend, so it is enough that they have the same members.
  have hplaces : (placesOf specs' s).map place = placesOf specs s := by
    apply hpairwise.eq_of_mem_iff (pairwise_placesOf specs s)
    intro k
    rw [List.mem_map, mem_placesOf]
    constructor
    · rintro ⟨i, hi, rfl⟩
      rw [← hget]
      exact mem_placesOf.mp hi
    · intro hk
      refine ⟨place.symm k, ?_, place.apply_symm_apply k⟩
      rw [mem_placesOf, hget, place.apply_symm_apply]
      exact hk
  calc withSubject specs s
      = (placesOf specs s).map specs.get := (map_get_placesOf specs s).symm
    _ = ((placesOf specs' s).map place).map specs.get := by rw [hplaces]
    _ = (placesOf specs' s).map specs'.get := by
        rw [List.map_map]
        exact List.map_congr_left fun i _ => (hget i).symm
    _ = withSubject specs' s := map_get_placesOf specs' s

theorem mem_iff_of_withSubject_eq (h : ∀ s, withSubject specs s = withSubject specs' s) {spec : RecipeSpec} :
    spec ∈ specs ↔ spec ∈ specs' := by
  have hmem : ∀ list : List RecipeSpec, spec ∈ withSubject list spec.subject ↔ spec ∈ list := by
    intro list
    rw [withSubject, List.mem_filter, decide_eq_true_eq]
    exact and_iff_left rfl
  rw [← hmem specs, h, hmem]

/-! ### Creators -/

variable {taken taken' : List SourcePath} {r : AppendToTextFile}

theorem isFirst_iff_head? : IsFirst taken specs r ↔ r.relativeFileName ∉ taken ∧
    (withSubject specs (.text r.relativeFileName)).head? = some (appendToTextFile r) := by
  have hother : ∀ before : List RecipeSpec,
      (∀ q, appendToTextFile q ∈ before → q.relativeFileName ≠ r.relativeFileName) ↔
        ∀ spec ∈ before, (!decide (spec.subject = .text r.relativeFileName)) = true := by
    intro before
    constructor
    · intro h spec hspec
      cases spec with
      | changeXmlAttribute q => rfl
      | appendToTextFile q => simpa [subject] using h q hspec
    · intro h q hq
      simpa [subject] using h _ hq
  rw [withSubject, List.head?_filter, List.find?_eq_some_iff_append]
  constructor
  · rintro ⟨before, after, hspecs, hfree, hfirst⟩
    exact ⟨hfree, decide_eq_true rfl, before, after, hspecs, (hother before).mp hfirst⟩
  · rintro ⟨hfree, -, before, after, hspecs, hfirst⟩
    exact ⟨before, after, hspecs, hfree, (hother before).mpr hfirst⟩

theorem nodup_of_creators (h : taken.Nodup) (specs : List RecipeSpec) : (creators taken specs).Nodup :=
  (List.nodup_append.mp (nodup_creators h specs)).2.1.of_map

/-- The same files are created, in some order. -/
theorem creators_perm (h : ∀ s, withSubject specs s = withSubject specs' s) (htaken : taken.Nodup)
    (htaken' : taken'.Nodup) (hsame : ∀ path, path ∈ taken ↔ path ∈ taken') :
    (creators taken specs).Perm (creators taken' specs') := by
  rw [List.perm_ext_iff_of_nodup (nodup_of_creators htaken specs) (nodup_of_creators htaken' specs')]
  intro r
  rw [mem_creators_iff, mem_creators_iff, isFirst_iff_head?, isFirst_iff_head?, hsame, h]

end SourceRecipes.RecipeSpec
