import NightScout.Intelligence.Genome

/-!
# What a genome's fingerprint stands for

A fingerprint is one of the lists of a genome without their scores (`genomeFingerprint_inj`). It tells two structures
apart, but it also tells one structure apart from itself, where other scores put it in another order
(`fingerprint_stable_iff`).
-/

namespace NightScout

open Lib

/-- What is learned, apart from how strongly, in the order of the genome. A title stands for its case folding. -/
structure LearnedStructure where
  vocabulary : List (String × Finset VocabularyCategory)
  patterns : List (String × String)
  signals : List (GenomeSignalKind × String)
  urlShapes : List String
  titles : List String
  technologyStacks : List (List String × Option String)
  certificateRelations : List (String × List String)
  deriving DecidableEq

def TargetGenome.learned (casefold : String → String) (genome : TargetGenome) : LearnedStructure where
  vocabulary := genome.vocabulary.map fun entry => (entry.canonicalKey.text, entry.categories)
  patterns := genome.patterns.map fun entry => (entry.patternId.text, entry.template.text)
  signals := genome.learnedSignals.map fun signal => (signal.kind, signal.value.text)
  urlShapes := genome.urlShapes.map fun shape => shape.template.text
  titles := genome.applicationTitles.map fun title => casefold title.title.text
  technologyStacks := genome.technologyStacks.map fun stack => (stack.technologies, stack.webserver)
  certificateRelations := genome.certificateRelations.map fun relation => (relation.certificateKey.text, relation.sans)

/-- The same sets, whatever the order. -/
structure SameStructure (s t : LearnedStructure) : Prop where
  vocabulary : ∀ x, x ∈ s.vocabulary ↔ x ∈ t.vocabulary
  patterns : ∀ x, x ∈ s.patterns ↔ x ∈ t.patterns
  signals : ∀ x, x ∈ s.signals ↔ x ∈ t.signals
  urlShapes : ∀ x, x ∈ s.urlShapes ↔ x ∈ t.urlShapes
  titles : ∀ x, x ∈ s.titles ↔ x ∈ t.titles
  technologyStacks : ∀ x, x ∈ s.technologyStacks ↔ x ∈ t.technologyStacks
  certificateRelations : ∀ x, x ∈ s.certificateRelations ↔ x ∈ t.certificateRelations

theorem SameStructure.refl (s : LearnedStructure) : SameStructure s s :=
  ⟨fun _ => .rfl, fun _ => .rfl, fun _ => .rfl, fun _ => .rfl, fun _ => .rfl, fun _ => .rfl, fun _ => .rfl⟩

/-! ## Reading the payload back -/

section Payload

variable {F : FloatText} {casefold : String → String} {targetKey : String} {g h : TargetGenome}

theorem dumps_injective {v w : JsonValue} (heq : dumps F v = dumps F w) : v = w := by
  have hread : ∀ v : JsonValue, loads F true (dumps F v) = some v :=
    fun v => loads_dumpsWith (.inl rfl) fun s _ => readString_flatMap readString_escapeChar s.toList
  have hboth := hread v
  rw [heq, hread w] at hboth
  exact (Option.some.inj hboth).symm

theorem utf8Encode_injective : Function.Injective utf8Encode :=
  fun a b heq => by rw [← utf8Decode_encode a, heq, utf8Decode_encode]

theorem sortItems_eq_map (items : List JsonValue) : JsonValue.sortItems items = items.map JsonValue.sortKeys := by
  induction items with
  | nil => rfl
  | cons v items ih => rw [JsonValue.sortItems, ih, List.map_cons]

/-- An array is not sorted, where its items are not. -/
theorem sortKeys_array {items : List JsonValue} (hitems : ∀ v ∈ items, v.sortKeys = v) :
    (JsonValue.array items).sortKeys = .array items := by
  rw [JsonValue.sortKeys, sortItems_eq_map, List.map_congr_left hitems, List.map_id']

theorem sortKeys_strings (texts : List String) : (JsonValue.strings texts).sortKeys = .strings texts := by
  refine sortKeys_array fun v hv => ?_
  obtain ⟨text, -, rfl⟩ := List.mem_map.mp hv
  rfl

theorem strings_injective : Function.Injective JsonValue.strings := by
  intro a b heq
  exact List.map_injective_iff.mpr (fun s t h => JsonValue.string.inj h) (JsonValue.array.inj heq)

theorem sortKeys_optionalString (text : Option String) : (optionalString text).sortKeys = optionalString text := by
  cases text with
  | none => rfl
  | some text => rfl

theorem optionalString_injective : Function.Injective optionalString := by
  intro a b heq
  cases a with
  | none =>
    cases b with
    | none => rfl
    | some b => cases heq
  | some a =>
    cases b with
    | none => cases heq
    | some b => rw [JsonValue.string.inj heq]

theorem categoryValues_injective : Function.Injective categoryValues := by
  intro a b heq
  have himage : a.image VocabularyCategory.value = b.image VocabularyCategory.value := by
    rw [← toFinset_sortedTexts (a.image _), ← categoryValues, heq, categoryValues, toFinset_sortedTexts]
  have hvalue : Function.Injective VocabularyCategory.value := by
    intro x y hxy
    cases x <;> cases y <;> first | rfl | exact absurd hxy (by decide)
  exact Finset.image_injective hvalue himage

/-- Rows that are told apart are told apart in an array of them. -/
theorem identities_eq {A B : Type} {identity : A → B} {row : B → JsonValue} (hrow : Function.Injective row)
    (hfixed : ∀ b, (row b).sortKeys = row b) {xs ys : List A}
    (heq : (JsonValue.array (xs.map fun x => row (identity x))).sortKeys =
      (JsonValue.array (ys.map fun y => row (identity y))).sortKeys) : xs.map identity = ys.map identity := by
  have hitems : ∀ zs : List A, ∀ v ∈ zs.map (fun z => row (identity z)), v.sortKeys = v := by
    intro zs v hv
    obtain ⟨z, -, rfl⟩ := List.mem_map.mp hv
    exact hfixed _
  rw [sortKeys_array (hitems xs), sortKeys_array (hitems ys), JsonValue.array.injEq] at heq
  refine List.map_injective_iff.mpr hrow ?_
  rw [List.map_map, List.map_map]
  exact heq

theorem genomePayload_keys : (genomePayload casefold targetKey g).map Prod.fst =
    ["version", "target_key", "vocabulary", "patterns", "signals", "url_shapes", "titles", "stacks",
      "certificate_relations"] := rfl

/-- Payloads that are written alike have the same values, one after the other. -/
theorem payload_entry (heq : (JsonValue.object (genomePayload casefold targetKey g)).sortKeys =
      (JsonValue.object (genomePayload casefold targetKey h)).sortKeys) (i : ℕ) {name : String} {v w : JsonValue}
    (hv : (genomePayload casefold targetKey g)[i]? = some (name, v))
    (hw : (genomePayload casefold targetKey h)[i]? = some (name, w)) : v.sortKeys = w.sortKeys := by
  have hnodup : ∀ genome : TargetGenome, ((genomePayload casefold targetKey genome).map Prod.fst).Nodup := by
    intro genome
    rw [genomePayload_keys]
    decide
  rw [JsonValue.sortKeys, JsonValue.sortKeys, JsonValue.object.injEq] at heq
  have hread := JsonValue.get?_sortKeys (hnodup g) (List.mem_of_getElem? hv)
  rw [heq, JsonValue.get?_sortKeys (hnodup h) (List.mem_of_getElem? hw)] at hread
  exact (Option.some.inj hread).symm

/-- What a row of two values is read as. -/
theorem row_injective {A B : Type} {first : A → JsonValue} {second : B → JsonValue} (hfirst : Function.Injective first)
    (hsecond : Function.Injective second) :
    Function.Injective fun x : A × B => JsonValue.array [first x.1, second x.2] := by
  rintro ⟨a, b⟩ ⟨a', b'⟩ heq
  simp only [JsonValue.array.injEq, List.cons.injEq, and_true] at heq
  rw [hfirst heq.1, hsecond heq.2]

theorem row_fixed {A B : Type} {first : A → JsonValue} {second : B → JsonValue}
    (hfirst : ∀ a, (first a).sortKeys = first a) (hsecond : ∀ b, (second b).sortKeys = second b) (x : A × B) :
    (JsonValue.array [first x.1, second x.2]).sortKeys = .array [first x.1, second x.2] := by
  refine sortKeys_array fun v hv => ?_
  rcases List.mem_pair.mp hv with rfl | rfl
  · exact hfirst _
  · exact hsecond _

theorem string_injective : Function.Injective JsonValue.string := fun _ _ heq => JsonValue.string.inj heq

theorem kind_injective : Function.Injective fun kind : GenomeSignalKind => JsonValue.string kind.value := by
  intro a b hab
  have hvalue : a.value = b.value := JsonValue.string.inj hab
  cases a <;> cases b <;> first | rfl | exact absurd hvalue (by decide)

theorem LearnedStructure.ext {s t : LearnedStructure} (hvocabulary : s.vocabulary = t.vocabulary)
    (hpatterns : s.patterns = t.patterns) (hsignals : s.signals = t.signals) (hshapes : s.urlShapes = t.urlShapes)
    (htitles : s.titles = t.titles) (hstacks : s.technologyStacks = t.technologyStacks)
    (hrelations : s.certificateRelations = t.certificateRelations) : s = t := by
  cases s
  cases t
  cases hvocabulary
  cases hpatterns
  cases hsignals
  cases hshapes
  cases htitles
  cases hstacks
  cases hrelations
  rfl

/-- **The payload is the structure in its order.** -/
theorem payload_inj (heq : (JsonValue.object (genomePayload casefold targetKey g)).sortKeys =
    (JsonValue.object (genomePayload casefold targetKey h)).sortKeys) : g.learned casefold = h.learned casefold := by
  have hstring : ∀ text : String, (JsonValue.string text).sortKeys = .string text := fun _ => rfl
  have hkind : ∀ kind : GenomeSignalKind, (JsonValue.string kind.value).sortKeys = .string kind.value := fun _ => rfl
  refine LearnedStructure.ext ?_ ?_ ?_ ?_ ?_ ?_ ?_
  · exact identities_eq (row_injective string_injective (strings_injective.comp categoryValues_injective))
      (row_fixed hstring fun _ => sortKeys_strings _) (payload_entry heq 2 rfl rfl)
  · exact identities_eq (row_injective string_injective string_injective) (row_fixed hstring hstring)
      (payload_entry heq 3 rfl rfl)
  · exact identities_eq (row_injective kind_injective string_injective) (row_fixed hkind hstring)
      (payload_entry heq 4 rfl rfl)
  · exact identities_eq string_injective hstring (payload_entry heq 5 rfl rfl)
  · exact identities_eq string_injective hstring (payload_entry heq 6 rfl rfl)
  · exact identities_eq (row_injective strings_injective optionalString_injective)
      (row_fixed sortKeys_strings sortKeys_optionalString) (payload_entry heq 7 rfl rfl)
  · exact identities_eq (row_injective string_injective strings_injective) (row_fixed hstring sortKeys_strings)
      (payload_entry heq 8 rfl rfl)

/-- The payload does not read anything else. -/
theorem genomePayload_congr (heq : g.learned casefold = h.learned casefold) :
    genomePayload casefold targetKey g = genomePayload casefold targetKey h := by
  have hrows : ∀ genome : TargetGenome, genomePayload casefold targetKey genome =
      [("version", .int 1),
       ("target_key", .string targetKey),
       ("vocabulary", .array ((genome.learned casefold).vocabulary.map fun x =>
         .array [.string x.1, .strings (categoryValues x.2)])),
       ("patterns", .array ((genome.learned casefold).patterns.map fun x => .strings [x.1, x.2])),
       ("signals", .array ((genome.learned casefold).signals.map fun x => .strings [x.1.value, x.2])),
       ("url_shapes", .array ((genome.learned casefold).urlShapes.map .string)),
       ("titles", .array ((genome.learned casefold).titles.map .string)),
       ("stacks", .array ((genome.learned casefold).technologyStacks.map fun x =>
         .array [.strings x.1, optionalString x.2])),
       ("certificate_relations", .array ((genome.learned casefold).certificateRelations.map fun x =>
         .array [.string x.1, .strings x.2]))] := by
    intro genome
    simp only [genomePayload, TargetGenome.learned, List.map_map]
    rfl
  rw [hrows g, hrows h, heq]

end Payload

/-! ## When it is stable -/

section Stable

variable {F : FloatText} {sha256 : List UInt8 → String} {casefold : String → String} {targetKey : String}
  {g h : TargetGenome}

/-- **A fingerprint stands for the structure in its order.** -/
theorem genomeFingerprint_inj (hsha256 : Function.Injective sha256) :
    genomeFingerprint F sha256 casefold targetKey g = genomeFingerprint F sha256 casefold targetKey h ↔
      g.learned casefold = h.learned casefold := by
  constructor
  · intro heq
    exact payload_inj (dumps_injective (utf8Encode_injective (hsha256 heq)))
  · intro heq
    rw [genomeFingerprint, genomePayload_congr heq, genomeFingerprint]

/-- Fingerprints are the same for one structure, and differ for two. -/
def FingerprintStable (F : FloatText) (sha256 : List UInt8 → String) (casefold : String → String) (targetKey : String)
    (g h : TargetGenome) : Prop :=
  genomeFingerprint F sha256 casefold targetKey g = genomeFingerprint F sha256 casefold targetKey h ↔
    SameStructure (g.learned casefold) (h.learned casefold)

/-- **Fingerprints are stable exactly if one structure is listed in one order.** -/
theorem fingerprint_stable_iff (hsha256 : Function.Injective sha256) :
    FingerprintStable F sha256 casefold targetKey g h ↔
      (SameStructure (g.learned casefold) (h.learned casefold) → g.learned casefold = h.learned casefold) := by
  rw [FingerprintStable, genomeFingerprint_inj hsha256]
  constructor
  · exact fun hstable hsame => hstable.mpr hsame
  · intro hlisted
    refine ⟨fun heq => ?_, hlisted⟩
    rw [heq]
    exact .refl _

end Stable

/-! ## Scores that change -/

/-- A text for the bytes, in place of their digest. -/
def bytesText (bytes : List UInt8) : String := String.ofList (bytes.map fun b => Char.ofNat b.toNat)

theorem bytesText_injective : Function.Injective bytesText := by
  have hchar : ∀ b : UInt8, (Char.ofNat b.toNat).toNat = b.toNat := by
    intro b
    have hlt : b.toNat < 256 := b.toNat_lt
    have hvalid : b.toNat.isValidChar := .inl (by omega)
    rw [Char.ofNat, dif_pos hvalid]
    rfl
  intro a b heq
  refine List.map_injective_iff.mpr ?_ (String.ofList_inj.mp heq)
  intro x y hxy
  have hnat : (Char.ofNat x.toNat).toNat = (Char.ofNat y.toNat).toNat := congrArg Char.toNat hxy
  rw [hchar, hchar] at hnat
  exact UInt8.toNat_inj.mp hnat

/-- Two tokens, of which the first is found more often or less. -/
def tokensGenome (apiScore : ℚ) : TargetGenome :=
  TargetGenome.build id id {}
    { vocabulary := [{ canonicalKey := { text := "api" }, categories := {.general}, vocabularyScore := apiScore },
        { canonicalKey := { text := "dev" }, categories := {.general}, vocabularyScore := 2 }] }

/-- A score that stays ahead leaves the fingerprint as it is. -/
theorem fingerprint_stable_ahead :
    FingerprintStable .quotients bytesText id "example.com" (tokensGenome 3) (tokensGenome 4) :=
  (fingerprint_stable_iff bytesText_injective).mpr fun _ => by decide +kernel

theorem tokensGenome_vocabulary :
    ((tokensGenome 3).learned id).vocabulary = [("api", {.general}), ("dev", {.general})] ∧
      ((tokensGenome 1).learned id).vocabulary = [("dev", {.general}), ("api", {.general})] := by decide +kernel

/-- A score that falls behind another changes it. -/
theorem rescored_genome_changes :
    ¬ FingerprintStable .quotients bytesText id "example.com" (tokensGenome 3) (tokensGenome 1) := by
  intro hstable
  have hsame : SameStructure ((tokensGenome 3).learned id) ((tokensGenome 1).learned id) := by
    refine { SameStructure.refl ((tokensGenome 3).learned id) with vocabulary := fun x => ?_ }
    rw [tokensGenome_vocabulary.1, tokensGenome_vocabulary.2]
    simp [or_comm]
  have hlisted := (genomeFingerprint_inj bytesText_injective).mp (hstable.mpr hsame)
  have horder := congrArg LearnedStructure.vocabulary hlisted
  rw [tokensGenome_vocabulary.1, tokensGenome_vocabulary.2] at horder
  exact absurd horder (by decide)

end NightScout
