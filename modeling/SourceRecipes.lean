import SourceRecipes.Beans
import SourceRecipes.Json.Print
import SourceRecipes.Run.Execute
import SourceRecipes.Run.Load
import SourceRecipes.Proofs.Digest.Separation
import SourceRecipes.Proofs.Run.Reordering
import SourceRecipes.Proofs.Run.Stability
import SourceRecipes.Proofs.Recipe.Feedback
import SourceRecipes.Proofs.Run.Feedback
import SourceRecipes.Proofs.Data.Outcome
import SourceRecipes.Proofs.Json.Number
import SourceRecipes.Proofs.Json.StringLiteral
import SourceRecipes.Proofs.Path
import SourceRecipes.Proofs.Recipe.Calls
import SourceRecipes.Proofs.Json.Spelling
import SourceRecipes.Proofs.Data.Entries
import SourceRecipes.Proofs.Json.Agreement
import SourceRecipes.Proofs.Json.Records
import SourceRecipes.Proofs.Run.Texts
import SourceRecipes.Proofs.Json.Written
import SourceRecipes.Proofs.Run.Serialisation
import SourceRecipes.Proofs.Data.Mapping
import SourceRecipes.Proofs.Recipe.Leniency
import SourceRecipes.Proofs.Path.Algebra
import SourceRecipes.Proofs.SourceSet.History
import SourceRecipes.Proofs.Text.Digits
import SourceRecipes.Proofs.Yaml.WholeNumber
import SourceRecipes.Proofs.Yaml.PlainScalar
import SourceRecipes.Proofs.Yaml.Root
import SourceRecipes.Proofs.Recipe.YamlStrategy
import SourceRecipes.Proofs.Run.Refusal
import SourceRecipes.Proofs.Run.Account
import SourceRecipes.Proofs.Run.Identities
import SourceRecipes.Proofs.Markup.Identities
import SourceRecipes.Proofs.Markup.Traversal
import SourceRecipes.Proofs.Recipe.Idempotence
import SourceRecipes.Proofs.Recipe.Counting
import SourceRecipes.Proofs.Run.Appending
import SourceRecipes.Proofs.Text.Hex
import SourceRecipes.Proofs.Digest.Fingerprinter
import SourceRecipes.Proofs.Digest.ContentHash
import SourceRecipes.Proofs.Markup.Replacing
import SourceRecipes.Proofs.Path.Stored
