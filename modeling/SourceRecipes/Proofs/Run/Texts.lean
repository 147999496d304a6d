import SourceRecipes.Proofs.Json.Records
import SourceRecipes.Run.Config

/-!
# Configurations in texts and in values

Whatever a configuration is made of reads the same from a JSON text and from the value of that text.
-/

namespace SourceRecipes

open Json

theorem agrees_sourcePath : Agrees (SourcePath.read : Reader SourcePath) SourcePath.read := by
  apply Agrees.bind agrees_string
  intro raw depth text _
  cases SourcePath.parse raw <;> rfl

theorem agrees_strategy : Agrees (ExistingFileStrategy.read : Reader ExistingFileStrategy) ExistingFileStrategy.read :=
  agrees_any ExistingFileStrategy.handler

theorem agrees_appendToTextFile :
    RecordAgrees (AppendToTextFile.record : Record Reader AppendToTextFile) AppendToTextFile.record where
  blank := rfl
  fields := by
    refine .cons ⟨rfl, rfl, fun r => ?_⟩ (.cons ⟨rfl, rfl, fun r => ?_⟩ (.cons ⟨rfl, rfl, fun r => ?_⟩
      (.cons ⟨rfl, rfl, fun r => ?_⟩ (.cons ⟨rfl, rfl, fun r => ?_⟩ .nil))))
    · exact Agrees.map agrees_sourcePath _
    · exact Agrees.map agrees_string _
    · exact Agrees.map (Agrees.optional agrees_string) _
    · exact Agrees.map (Agrees.optional agrees_boolean) _
    · exact Agrees.map (Agrees.optional agrees_strategy) _

theorem agrees_recipeSpec : Agrees (RecipeSpec.read : Reader RecipeSpec) RecipeSpec.read :=
  agrees_tagged _ _ _ _

theorem agrees_logConfig : RecordAgrees (LogConfig.record : Record Reader LogConfig) LogConfig.record where
  blank := rfl
  fields := by
    refine .cons ⟨rfl, rfl, fun c => ?_⟩ (.cons ⟨rfl, rfl, fun c => ?_⟩ .nil)
    · exact Agrees.map agrees_string _
    · exact Agrees.map agrees_boolean _

theorem agrees_runConfig : RecordAgrees (RunConfig.record : Record Reader RunConfig) RunConfig.record where
  blank := rfl
  fields := by
    refine .cons ⟨rfl, rfl, fun c => ?_⟩ (.cons ⟨rfl, rfl, fun c => ?_⟩ (.cons ⟨rfl, rfl, fun c => ?_⟩ .nil))
    · exact Agrees.map agrees_word _
    · exact Agrees.map agrees_logConfig.agrees _
    · exact Agrees.map (Agrees.list agrees_recipeSpec) _

end SourceRecipes
