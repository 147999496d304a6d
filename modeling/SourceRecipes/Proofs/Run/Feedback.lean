import SourceRecipes.Proofs.Recipe.Feedback
import SourceRecipes.Proofs.Run.Changes

/-!
# Runs of a rewrite that feeds itself

A single rewrite acts on every attribute by itself, so the files after some cycles have, at every attribute, the text that
as many rewrites give. A rewrite that makes texts grow is busy in every cycle there may be. One that makes them shrink is
busy until the attribute with the most copies has none left, and in the cycle after that nothing changes.
-/

namespace SourceRecipes

/-- A function that changes something exactly in its first `most` applications is applied once more, if it may. -/
theorem timesApplied_eq_min {α : Type} [DecidableEq α] {f : α → α} {x : α} {limit most : Nat} (hlimit : limit ≠ 0)
    (h : ∀ i < limit, f^[i + 1] x = f^[i] x ↔ most ≤ i) : timesApplied f limit x = min limit (most + 1) := by
  apply (isLeast_timesApplied f hlimit x).unique
  constructor
  · refine ⟨by omega, by omega, ?_⟩
    by_cases hreached : limit ≤ most
    · exact Or.inr (by omega)
    · have hmin : min limit (most + 1) = most + 1 := by omega
      rw [hmin]
      exact Or.inl ((h most (by omega)).mpr (Nat.le_refl most))
  · rintro k ⟨hpos, hle, hfixed | hlast⟩
    · obtain ⟨i, rfl⟩ := Nat.exists_eq_add_of_le' hpos
      have hmost : most ≤ i := (h i (by omega)).mp hfixed
      omega
    · omega

namespace Run

open RecipeSpec ChangeXmlAttribute

variable {r : ChangeXmlAttribute} {old extra : String} {files : List SourceFile}
  {sources : SourceSet} {limit : UInt32}

/-! ### The files after some cycles -/

theorem iterate_editFiles (r : ChangeXmlAttribute) (files : List SourceFile) (count : Nat) :
    (editFiles [r])^[count] files = files.map (SourceFile.mapTexts (r.textAfterTimes count)) := by
  induction count with
  | zero =>
      rw [textAfterTimes_zero, Function.iterate_zero_apply, funext SourceFile.mapTexts_text]
      exact (List.map_id files).symm
  | succ count ih =>
      rw [Function.iterate_succ_apply', ih, editFiles, List.map_map]
      apply List.map_congr_left
      intro file _
      have hedit : ∀ file, applyAll [.changeXmlAttribute r] file = file.mapTexts r.textAt := applyAll_changes [r]
      rw [Function.comp_apply, List.map_singleton, hedit, SourceFile.mapTexts_mapTexts]
      exact congrArg file.mapTexts (funext (r.textAt_withText_textAfterTimes count))

theorem iterate_editFiles_succ_eq_iff {count : Nat} :
    (editFiles [r])^[count + 1] files = (editFiles [r])^[count] files ↔
      ∀ o ∈ files.flatMap SourceFile.occurrences, r.textAfterTimes (count + 1) o = r.textAfterTimes count o := by
  rw [iterate_editFiles, iterate_editFiles, List.map_inj_left]
  simp only [SourceFile.mapTexts_eq_mapTexts_iff, List.mem_flatMap]
  constructor
  · rintro h o ⟨file, hfile, ho⟩
    exact h file hfile o ho
  · intro h file hfile o ho
    exact h o ⟨file, hfile, ho⟩

/-! ### The number of cycles -/

theorem timesApplied_of_growing (hold : r.oldValue = some old) (hnew : r.newValue = old ++ extra) (hextra : extra ≠ "")
    (h : ∃ o ∈ files.flatMap SourceFile.occurrences, r.IsEligible o ∧ ∃ rest, o.text = old ++ rest) {count : Nat}
    (hcount : count ≠ 0) : timesApplied (editFiles [r]) count files = count := by
  obtain ⟨o, ho, heligible, rest, htext⟩ := h
  have hbusy : ∀ i, (editFiles [r])^[i + 1] files ≠ (editFiles [r])^[i] files := by
    intro i hsame
    exact textAfterTimes_succ_ne_of_growing hold hnew hextra heligible htext i
      (iterate_editFiles_succ_eq_iff.mp hsame o ho)
  have hmin : timesApplied (editFiles [r]) count files = min count (count + 1) := by
    apply timesApplied_eq_min hcount
    intro i hi
    exact iff_of_false (hbusy i) (by omega)
  omega

theorem timesApplied_of_shrinking (hold : r.oldValue = some old) (hnew : old = r.newValue ++ extra)
    (hextra : extra ≠ "") {most : Nat}
    (hmost : IsGreatest
      (insert 0 {k | ∃ o ∈ files.flatMap SourceFile.occurrences, r.BeginsWithCopies extra o k}) most)
    {count : Nat} (hcount : count ≠ 0) : timesApplied (editFiles [r]) count files = min count (most + 1) := by
  apply timesApplied_eq_min hcount
  intro i _
  rw [iterate_editFiles_succ_eq_iff, isLUB_le_iff hmost.isLUB]
  simp only [textAfterTimes_succ_eq_iff_of_shrinking hold hnew hextra, mem_upperBounds, Set.mem_insert_iff,
    Set.mem_ofPred_eq, forall_eq_or_imp, Nat.zero_le, true_and]
  constructor
  · rintro h k ⟨o, ho, hk⟩
    exact h o ho k hk
  · intro h o ho k hk
    exact h k ⟨o, ho, hk⟩

/-! ### Runs -/

theorem value_start_changes (recipes : List ChangeXmlAttribute)
    (hfits : ∀ i ≤ limit.toNat, ∀ file ∈ (editFiles recipes)^[i] sources.files, file.Fits)
    (hdigests : ∀ i ≤ limit.toNat, ∀ j ≤ limit.toNat, ∀ a ∈ (editFiles recipes)^[i] sources.files,
      ∀ b ∈ (editFiles recipes)^[j] sources.files, b.fingerprint = a.fingerprint → b.stream = a.stream)
    (supply : IdSupply) :
    ∃ result, ((start limit ((recipes.map .changeXmlAttribute).map RecipeSpec.active) sources).run supply).value =
        (result, supply) ∧
      result.sources.files = (editFiles recipes)^[limit.toNat] sources.files ∧
      result.cyclesRun.toNat = timesApplied (editFiles recipes) limit.toNat sources.files := by
  obtain ⟨final, hrun, hfiles, hcycle⟩ := run_cycles_changes
    ⟨(recipes.map .changeXmlAttribute).map RecipeSpec.active, sources, {}⟩ (map_spec_active _) hfits hdigests supply
  refine ⟨_, value_start hrun, hfiles, ?_⟩
  dsimp only
  rw [hcycle, UInt32.zero_add]
  exact UInt32.toNat_ofNat_of_lt' (Nat.lt_of_le_of_lt (timesApplied_le _ _ _) limit.toNat_lt_size)

/-- The long run of a single rewrite with an old value, when one of its values is the other one followed by a piece. With
the piece in the new value, every eligible text that begins with the old value takes in one piece a cycle, and no cycle is
left out. With the piece in the old value, every eligible text that begins with the new value loses the pieces behind
that one by one, as long as it has some and cycles are left, and there is one more cycle than the most pieces a text has,
if that many may run. The texts of the run fit their fields, and different streams that occur in it have
different digests. -/
theorem run_feeds_itself (r : ChangeXmlAttribute) (old extra : String) (hold : r.oldValue = some old)
    (hextra : extra ≠ "") (sources : SourceSet) (limit : UInt32) (hlimit : 1 ≤ limit)
    (hfits : ∀ i ≤ limit.toNat, ∀ file ∈ (editFiles [r])^[i] sources.files, file.Fits)
    (hdigests : ∀ i ≤ limit.toNat, ∀ j ≤ limit.toNat, ∀ a ∈ (editFiles [r])^[i] sources.files,
      ∀ b ∈ (editFiles [r])^[j] sources.files, b.fingerprint = a.fingerprint → b.stream = a.stream) :
    ∃ session, run limit [(RecipeSpec.changeXmlAttribute r).active] sources = .ok session ∧
      ∀ supply, ∃ result text, (session.run supply).value = (result, supply) ∧
        result.sources.files = sources.files.map (SourceFile.mapTexts text) ∧
        (r.newValue = old ++ extra →
          (∀ o rest, r.IsEligible o → o.text = old ++ rest →
            text o = old ++ Text.copies extra limit.toNat ++ rest) ∧
          (∀ o, ¬ (r.IsEligible o ∧ ∃ rest, o.text = old ++ rest) → text o = o.text) ∧
          ((∃ o ∈ sources.files.flatMap SourceFile.occurrences, r.IsEligible o ∧ ∃ rest, o.text = old ++ rest) →
            result.cyclesRun = limit)) ∧
        (old = r.newValue ++ extra →
          (∀ o, r.IsEligible o → (∃ behind, o.text = r.newValue ++ behind) →
            ∃ k rest, o.text = r.newValue ++ Text.copies extra k ++ rest ∧ (∀ tail, rest ≠ extra ++ tail) ∧
              text o = r.newValue ++ Text.copies extra (k - min limit.toNat k) ++ rest) ∧
          (∀ o, ¬ (r.IsEligible o ∧ ∃ behind, o.text = r.newValue ++ behind) → text o = o.text) ∧
          ∃ most, IsGreatest (insert 0 {k | ∃ o ∈ sources.files.flatMap SourceFile.occurrences,
              r.IsEligible o ∧ ∃ rest, o.text = r.newValue ++ Text.copies extra k ++ rest}) most ∧
            result.cyclesRun.toNat = min limit.toNat (most + 1)) := by
  have hcount : limit.toNat ≠ 0 := Nat.ne_of_gt (UInt32.le_iff_toNat_le.mp hlimit)
  have hmay : ∀ spec ∈ [RecipeSpec.changeXmlAttribute r], ¬ spec.info.maxCycles < limit := by
    intro spec hspec
    rw [List.mem_singleton.mp hspec]
    exact not_maxCycles_changeXmlAttribute_lt limit
  refine ⟨_, run_active_eq_ok sources (fun h => hcount (congrArg UInt32.toNat h)) hmay, fun supply => ?_⟩
  obtain ⟨result, hvalue, hfiles, hcycles⟩ := value_start_changes [r] hfits hdigests supply
  rw [iterate_editFiles] at hfiles
  refine ⟨result, r.textAfterTimes limit.toNat, hvalue, hfiles, fun hnew => ⟨?_, ?_, ?_⟩, fun hnew => ⟨?_, ?_, ?_⟩⟩
  · intro o rest heligible htext
    exact textAfterTimes_of_growing hold hnew heligible htext limit.toNat
  · intro o hnot
    exact textAfterTimes_of_not_append hold hnot limit.toNat
  · intro hstarts
    rw [timesApplied_of_growing hold hnew hextra hstarts hcount] at hcycles
    exact UInt32.toNat_inj.mp hcycles
  · rintro o heligible ⟨behind, hbehind⟩
    obtain ⟨k, rest, rfl, hrest⟩ := Text.exists_eq_copies_append hextra behind
    rw [← String.append_assoc] at hbehind
    refine ⟨k, rest, hbehind, hrest, ?_⟩
    have hleft : k - min limit.toNat k = k - limit.toNat := by omega
    rw [textAfterTimes_of_shrinking hold hnew heligible hbehind hrest, hleft]
  · intro o hnot
    apply textAfterTimes_of_not_append hold
    rintro ⟨heligible, rest, htext⟩
    rw [hnew, String.append_assoc] at htext
    exact hnot ⟨heligible, extra ++ rest, htext⟩
  · obtain ⟨most, hmost⟩ := exists_isGreatest_copies hextra r (sources.files.flatMap SourceFile.occurrences)
    refine ⟨most, hmost, ?_⟩
    rw [hcycles, timesApplied_of_shrinking hold hnew hextra hmost hcount]

/-- Three texts, each with one piece more than the one before. -/
def row : List SourceFile :=
  [beanFile "ac", beanFile "abc", beanFile "abbc"]

theorem fits_row : ∀ file ∈ row, file.Fits ∧ file.stream.length ≤ 1024 := by
  decide +kernel

theorem stream_eq_of_fingerprint_eq_row {a b : SourceFile} (ha : a ∈ row) (hb : b ∈ row)
    (h : b.fingerprint = a.fingerprint) : b.stream = a.stream :=
  stream_eq_of_fingerprint_eq_of_short (fun file hfile => (fits_row file hfile).2)
    (fun file hfile => (fits_row file hfile).2) (by decide +kernel) ha hb h

theorem iterate_mem_row_of_growing : ∀ i ≤ UInt32.toNat 2,
    ∀ file ∈ (editFiles [⟨"bean", "class", some "a", "ab"⟩])^[i] [beanFile "ac"], file ∈ row := by
  decide +kernel

theorem iterate_mem_row_of_shrinking : ∀ i ≤ UInt32.toNat 5,
    ∀ file ∈ (editFiles [⟨"bean", "class", some "ab", "a"⟩])^[i] [beanFile "abbc"], file ∈ row := by
  decide +kernel

theorem ne_piece_append (tail : String) : "c" ≠ "b" ++ tail := by
  intro h
  have hlists := congrArg String.toList h
  simp at hlists

theorem eq_copies_two {k : Nat} {rest : String} (h : "abbc" = "a" ++ Text.copies "b" k ++ rest) :
    Text.copies "b" k ++ rest = Text.copies "b" 2 ++ "c" := by
  have hfront : "a" ++ (Text.copies "b" k ++ rest) = "a" ++ (Text.copies "b" 2 ++ "c") := by
    rw [← String.append_assoc, ← h]
    decide
  exact (String.append_right_inj _).mp hfront

/-- Two cycles put two pieces in, and of five that may take them out again three are run. -/
theorem run_feeds_itself_of_row :
    (∃ session, run 2 [(RecipeSpec.changeXmlAttribute ⟨"bean", "class", some "a", "ab"⟩).active]
        (SourceSet.ofList [beanFile "ac"]) = .ok session ∧
      ∀ supply, ∃ result, (session.run supply).value = (result, supply) ∧
        result.sources.files = [beanFile "abbc"] ∧ result.cyclesRun = 2) ∧
    ∃ session, run 5 [(RecipeSpec.changeXmlAttribute ⟨"bean", "class", some "ab", "a"⟩).active]
        (SourceSet.ofList [beanFile "abbc"]) = .ok session ∧
      ∀ supply, ∃ result, (session.run supply).value = (result, supply) ∧
        result.sources.files = [beanFile "ac"] ∧ result.cyclesRun.toNat = 3 := by
  constructor
  · obtain ⟨session, hsession, hresult⟩ := run_feeds_itself ⟨"bean", "class", some "a", "ab"⟩ "a" "b" rfl (by decide)
      (SourceSet.ofList [beanFile "ac"]) 2 (by decide)
      (fun i hi file hfile => (fits_row file (iterate_mem_row_of_growing i hi file hfile)).1)
      (fun i hi j hj a ha b hb => stream_eq_of_fingerprint_eq_row (iterate_mem_row_of_growing i hi a ha)
        (iterate_mem_row_of_growing j hj b hb))
    refine ⟨session, hsession, fun supply => ?_⟩
    obtain ⟨result, text, hvalue, hfiles, hgrowing, -⟩ := hresult supply
    obtain ⟨htexts, -, hcycles⟩ := hgrowing (by decide)
    have htext := htexts ⟨[], "bean", Attribute.new .blank .blank "class" "ac"⟩ "c" (by decide) (by decide)
    refine ⟨result, hvalue, ?_, hcycles ⟨_, List.mem_singleton.mpr rfl, by decide, "c", by decide⟩⟩
    calc
      result.sources.files = [beanFile (text ⟨[], "bean", Attribute.new .blank .blank "class" "ac"⟩)] := hfiles
      _ = [beanFile "abbc"] := by rw [htext]; decide
  · obtain ⟨session, hsession, hresult⟩ := run_feeds_itself ⟨"bean", "class", some "ab", "a"⟩ "ab" "b" rfl (by decide)
      (SourceSet.ofList [beanFile "abbc"]) 5 (by decide)
      (fun i hi file hfile => (fits_row file (iterate_mem_row_of_shrinking i hi file hfile)).1)
      (fun i hi j hj a ha b hb => stream_eq_of_fingerprint_eq_row (iterate_mem_row_of_shrinking i hi a ha)
        (iterate_mem_row_of_shrinking j hj b hb))
    refine ⟨session, hsession, fun supply => ?_⟩
    obtain ⟨result, text, hvalue, hfiles, -, hshrinking⟩ := hresult supply
    obtain ⟨htexts, -, most, ⟨hmem, hbound⟩, hcycles⟩ := hshrinking (by decide)
    obtain ⟨k, rest, hfound, hrest, htext⟩ := htexts ⟨[], "bean", Attribute.new .blank .blank "class" "abbc"⟩
      (by decide) ⟨"bbc", by decide⟩
    obtain ⟨rfl, rfl⟩ := Text.copies_append_unique hrest ne_piece_append (eq_copies_two hfound)
    have htwo : 2 ≤ most := hbound (Or.inr ⟨_, List.mem_singleton.mpr rfl, by decide, "c", by decide⟩)
    have hmost : most ≤ 2 := by
      rcases hmem with rfl | ⟨o, ho, -, rest, hrest⟩
      · exact Nat.zero_le 2
      · rw [List.mem_singleton.mp ho] at hrest
        exact Text.le_of_copies_append_eq ne_piece_append (eq_copies_two hrest)
    refine ⟨result, hvalue, ?_, ?_⟩
    · calc
        result.sources.files = [beanFile (text ⟨[], "bean", Attribute.new .blank .blank "class" "abbc"⟩)] := hfiles
        _ = [beanFile "ac"] := by rw [htext]; decide
    · have hlimit : UInt32.toNat 5 = 5 := rfl
      omega

end Run

end SourceRecipes
