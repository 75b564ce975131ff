import NightScout.Core.JsonReading
import NightScout.Lib.StableSort
import NightScout.Lib.Utf8
import Mathlib.Data.Prod.Lex

/-!
# The target genome

What `recon/intelligence/genome.py` learned of a target, as far as it is ordered and fingerprinted. Each list of a
genome is sorted by its scores, and cut; the fingerprint hashes the lists without the scores, in the order the scores
gave them.

`math.log1p`, `str.casefold` and `sha256` are parameters, and so is the text of a float, which no fingerprint has.
-/

namespace NightScout

open Lib

inductive VocabularyCategory where
  | general | dns | parameter | path | api | project | technology | environment | region | service | artifact
  deriving DecidableEq, Repr

def VocabularyCategory.value : VocabularyCategory → String
  | general => "general" | dns => "dns" | parameter => "parameter" | path => "path" | api => "api"
  | project => "project" | technology => "technology" | environment => "environment" | region => "region"
  | service => "service" | artifact => "artifact"

inductive GenomeSignalKind where
  | environment | region | service | project | technology | apiVersion | applicationTitle
  deriving DecidableEq, Repr

def GenomeSignalKind.value : GenomeSignalKind → String
  | environment => "environment" | region => "region" | service => "service" | project => "project"
  | technology => "technology" | apiVersion => "api-version" | applicationTitle => "application-title"

/-! ## Entries -/

structure GenomeVocabularyEntry where
  canonicalKey : Stripped
  categories : Finset VocabularyCategory
  vocabularyScore : ℚ
  yieldAttempts : ℕ := 0
  expectedYield : Option ℚ := none

/-- Ranking only. -/
def GenomeVocabularyEntry.genomeScore (entry : GenomeVocabularyEntry) : ℚ :=
  let yieldBonus := match entry.expectedYield with
    | some expectedYield => expectedYield * min 1 (entry.yieldAttempts / 12) * 2
    | none => 0
  entry.vocabularyScore + yieldBonus

structure GenomePatternEntry where
  patternId : Stripped
  template : Stripped
  score : ℚ
  confidence : ℚ

structure GenomeLearnedSignal where
  kind : GenomeSignalKind
  value : Stripped
  occurrences : ℕ
  sourceDiversity : ℕ
  confidence : ℚ
  relevance : ℚ

def GenomeLearnedSignal.score (log1p : ℚ → ℚ) (signal : GenomeLearnedSignal) : ℚ :=
  signal.relevance * 3 + signal.confidence + log1p signal.occurrences + min 4 signal.sourceDiversity * (9 / 20)

structure GenomeUrlShape where
  template : Stripped
  isApi : Bool := false
  occurrences : ℕ
  sourceDiversity : ℕ

def GenomeUrlShape.score (log1p : ℚ → ℚ) (shape : GenomeUrlShape) : ℚ :=
  log1p shape.occurrences + min 5 shape.sourceDiversity * (7 / 10) + if shape.isApi then 4 / 5 else 0

structure GenomeApplicationTitle where
  title : Stripped
  occurrences : ℕ
  sourceDiversity : ℕ

structure GenomeTechnologyStack where
  technologies : List String
  webserver : Option String := none
  occurrences : ℕ
  sourceDiversity : ℕ
  has_material : technologies ≠ [] ∨ webserver ≠ none := by decide

structure GenomeCertificateRelation where
  certificateKey : Stripped
  sans : List String
  occurrences : ℕ

/-- The lists of a genome that its fingerprint is made of. -/
structure TargetGenome where
  vocabulary : List GenomeVocabularyEntry := []
  patterns : List GenomePatternEntry := []
  learnedSignals : List GenomeLearnedSignal := []
  urlShapes : List GenomeUrlShape := []
  applicationTitles : List GenomeApplicationTitle := []
  technologyStacks : List GenomeTechnologyStack := []
  certificateRelations : List GenomeCertificateRelation := []

/-! ## Building -/

/-- The limits of `TargetGenomeConfig` on these lists. -/
structure TargetGenomeConfig where
  maxVocabularyEntries : ℕ := 512
  maxPatterns : ℕ := 128
  maxLearnedSignals : ℕ := 256
  maxUrlShapes : ℕ := 128
  maxApplicationTitles : ℕ := 64
  maxTechnologyStacks : ℕ := 64
  maxCertificateRelations : ℕ := 128

/-- What was found, as `build` orders and cuts it: vocabulary and patterns come in their order of relevance. -/
def TargetGenome.build (log1p : ℚ → ℚ) (casefold : String → String) (config : TargetGenomeConfig) (found : TargetGenome) :
    TargetGenome where
  vocabulary := sortBy (fun entry : GenomeVocabularyEntry => toLex (-entry.genomeScore, entry.canonicalKey.text))
    (found.vocabulary.take config.maxVocabularyEntries)
  patterns := sortBy (fun item : GenomePatternEntry => toLex (-(item.score + item.confidence), item.patternId.text))
    (found.patterns.take config.maxPatterns)
  learnedSignals := (sortBy (fun signal : GenomeLearnedSignal =>
    toLex (-signal.score log1p, toLex (signal.kind.value, signal.value.text))) found.learnedSignals).take
      config.maxLearnedSignals
  urlShapes := (sortBy (fun shape : GenomeUrlShape => toLex (-shape.score log1p, shape.template.text))
    found.urlShapes).take config.maxUrlShapes
  applicationTitles := (sortBy (fun item : GenomeApplicationTitle => toLex (-(item.occurrences : ℤ),
    toLex (-(item.sourceDiversity : ℤ), casefold item.title.text))) found.applicationTitles).take
      config.maxApplicationTitles
  technologyStacks := (sortBy (fun item : GenomeTechnologyStack => toLex (-(item.occurrences : ℤ),
    toLex (-(item.sourceDiversity : ℤ), toLex (item.technologies, item.webserver.getD "")))) found.technologyStacks).take
      config.maxTechnologyStacks
  certificateRelations := (sortBy (fun item : GenomeCertificateRelation => toLex (-(item.sans.length : ℤ),
    toLex (-(item.occurrences : ℤ), item.certificateKey.text))) found.certificateRelations).take
      config.maxCertificateRelations

/-! ## The fingerprint -/

section Fingerprint

variable (F : FloatText) (sha256 : List UInt8 → String) (casefold : String → String)

/-- The values of a set of categories, sorted. -/
def categoryValues (categories : Finset VocabularyCategory) : List String :=
  sortedTexts (categories.image VocabularyCategory.value)

def optionalString : Option String → JsonValue
  | some text => .string text
  | none => .null

/-- What of a genome is hashed. -/
def genomePayload (targetKey : String) (genome : TargetGenome) : List (String × JsonValue) :=
  [("version", .int 1),
   ("target_key", .string targetKey),
   ("vocabulary", .array (genome.vocabulary.map fun entry =>
     .array [.string entry.canonicalKey.text, .strings (categoryValues entry.categories)])),
   ("patterns", .array (genome.patterns.map fun entry => .strings [entry.patternId.text, entry.template.text])),
   ("signals", .array (genome.learnedSignals.map fun signal => .strings [signal.kind.value, signal.value.text])),
   ("url_shapes", .array (genome.urlShapes.map fun shape => .string shape.template.text)),
   ("titles", .array (genome.applicationTitles.map fun title => .string (casefold title.title.text))),
   ("stacks", .array (genome.technologyStacks.map fun stack =>
     .array [.strings stack.technologies, optionalString stack.webserver])),
   ("certificate_relations", .array (genome.certificateRelations.map fun relation =>
     .array [.string relation.certificateKey.text, .strings relation.sans]))]

def genomeFingerprint (targetKey : String) (genome : TargetGenome) : String :=
  sha256 (utf8Encode (dumps F (JsonValue.object (genomePayload casefold targetKey genome)).sortKeys))

end Fingerprint

end NightScout
