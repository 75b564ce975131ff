import NightScout.Intelligence.TokenKeys
import NightScout.Lib.Groups
import NightScout.Workers.BranchNames
import NightScout.Workers.ExplorationRuns
import NightScout.Workers.PermutationBudget

/-!
# Where the candidates of a permutation lie

What `generate_candidates` returns lies under the seed or, for a confirmed name of three labels or more, under its
parent; no name comes twice, and there are no more than the share of the lane. The seed itself is returned in one case
only: a learned hypothesis is tested against the branch, and the seed lies under its own parent
(`permutations_contained_iff`).
-/

namespace NightScout

open Lib

/-! ## Labels of words -/

section WordLabels

variable {tables : Tables} {word : PermutationWord} {cs : List Char} {label : String}

theorem stripHyphens_head (h : stripHyphens cs = cs) : cs.head? ≠ some '-' := by
  intro hhead
  obtain ⟨rest, rfl⟩ : ∃ rest, cs = '-' :: rest := by
    cases cs with
    | nil => cases hhead
    | cons c rest => exact ⟨rest, by rw [Option.some.inj hhead]⟩
  have hshort : (stripHyphens ('-' :: rest)).length ≤ rest.length := by
    unfold stripHyphens
    rw [List.dropWhile_cons_of_pos (by decide)]
    exact (List.rdropWhile_prefix _ _).length_le.trans (List.dropWhile_suffix _).length_le
  rw [h, List.length_cons] at hshort
  omega

theorem stripHyphens_last (h : stripHyphens cs = cs) : cs.getLast? ≠ some '-' := by
  intro hlast
  have hne : cs ≠ [] := by
    rintro rfl
    cases hlast
  have hstrip : stripHyphens cs ≠ [] := by rwa [h]
  have hnot := List.rdropWhile_last_not _ _ hstrip
  apply hnot
  rw [List.getLast?_eq_getLast_of_ne_nil hne] at hlast
  have hsame : (stripHyphens cs).getLast hstrip = cs.getLast hne := by
    congr 1
  exact decide_eq_true (hsame.trans (Option.some.inj hlast))

theorem IsLabel.hostLabel (h : IsLabel cs) : HostLabel cs := by
  refine ⟨h.short, fun c hc => ?_, h.nonempty, stripHyphens_head h.stripped, stripHyphens_last h.stripped⟩
  have hchar := h.chars c hc
  unfold labelChar at hchar
  simp only [Bool.or_eq_true, Bool.and_eq_true, decide_eq_true_eq] at hchar
  tauto

/-- The labels that the validator of a word leaves. -/
def HostLabelled (word : PermutationWord) : Prop := ∀ label ∈ word.labels, HostLabel label.toList

theorem hostLabel_of_mem_normalizeLabels {values : List String}
    (h : label ∈ PermutationWord.normalizeLabels tables values) : HostLabel label.toList := by
  obtain ⟨value, -, hvalue⟩ := List.mem_filterMap.mp (mem_fromkeys.mp h)
  exact (normalizeCandidateLabel_isLabel hvalue).hostLabel

theorem hostLabel_of_mem_labelVariants (hword : HostLabelled word) (h : label ∈ word.labelVariants tables) :
    HostLabel label.toList := by
  unfold PermutationWord.labelVariants at h
  split at h
  · exact hword label h
  unfold tokenToCandidateLabels at h
  split at h
  · cases h
  next whole hwhole =>
    have hlabel := normalizeCandidateLabel_isLabel hwhole
    simp only at h
    split at h
    next hcollapsed =>
      rcases List.mem_cons.mp h with rfl | h
      · exact hlabel.hostLabel
      · rw [List.mem_singleton.mp h, String.toList_ofList]
        have hchars : ∀ c ∈ whole.toList.filter (fun c => decide (c ≠ '-')), c ∈ whole.toList ∧ c ≠ '-' := by
          intro c hc
          obtain ⟨hmem, hne⟩ := List.mem_filter.mp hc
          exact ⟨hmem, of_decide_eq_true hne⟩
        refine ⟨hcollapsed.2.2, fun c hc => hlabel.hostLabel.2.1 c (hchars c hc).1, hcollapsed.1, ?_, ?_⟩
        · exact fun hhead => (hchars '-' (List.mem_of_head? hhead)).2 rfl
        · exact fun hlast => (hchars '-' (List.mem_of_getLast? hlast)).2 rfl
    next => rw [List.mem_singleton.mp h]; exact hlabel.hostLabel

/-- Merging words of one token keeps their labels normal. -/
theorem hostLabelled_dedupeWords {words : List PermutationWord} (h : ∀ word ∈ words, HostLabelled word) :
    ∀ word ∈ PermutationWord.dedupeWords tables words, HostLabelled word := by
  have htable : ∀ word, word ∈ PermutationWord.dedupeWords tables words → HostLabelled word := by
    unfold PermutationWord.dedupeWords
    simp only [Dict.mem_values_iff]
    induction words using List.reverseRecOn with
    | nil =>
      intro word ⟨key, hget⟩
      cases hget
    | append_singleton words last ih =>
      have ih := ih fun word hword => h word (List.mem_append_left _ hword)
      have hlast := h last (List.mem_append_right _ (List.mem_singleton.mpr rfl))
      intro word ⟨key, hget⟩
      rw [List.foldl_append, List.foldl_cons, List.foldl_nil] at hget
      split at hget
      next hnone =>
        rw [Dict.get?_set] at hget
        split at hget
        next => exact Option.some.inj hget ▸ hlast
        next => exact ih word ⟨key, hget⟩
      next existing hexisting =>
        rw [Dict.get?_set] at hget
        split at hget
        next =>
          obtain rfl := Option.some.inj hget
          exact fun label hlabel => hostLabel_of_mem_normalizeLabels hlabel
        next => exact ih word ⟨key, hget⟩
  exact htable

end WordLabels

/-! ## The branch of a seed -/

section Branch

variable {tables : Tables} {seed host : String} {seedType : EventType} {ls : List (List Char)}

/-- The immediate parent. -/
def parentName (seed : String) : String := String.ofList (['.'].intercalate (labels seed).tail)

/-- Under the seed, or under the parent of a confirmed name. -/
def InBranch (seedType : EventType) (seed host : String) : Prop :=
  isSubdomain host seed = true ∨
    seedType = .dnsName ∧ 3 ≤ (labels seed).length ∧ isSubdomain host (parentName seed) = true

instance : Decidable (InBranch seedType seed host) := inferInstanceAs (Decidable (_ ∨ _))

/-- A confirmed name of three labels lies under its own parent. -/
theorem inBranch_self (hseed : normalizeDnsName tables seed = .ok seed) :
    InBranch seedType seed seed ↔ seedType = .dnsName ∧ 3 ≤ (labels seed).length := by
  obtain ⟨ls, hls, hjoined⟩ := normalizeDnsName_ok hseed
  have hlabels : labels seed = ls := by rw [hjoined, hls.labels_eq]
  constructor
  · rintro (hself | ⟨htype, hthree, -⟩)
    · exact absurd rfl (ne_of_isSubdomain hself)
    · exact ⟨htype, hthree⟩
  · intro ⟨htype, hthree⟩
    refine .inr ⟨htype, hthree, ?_⟩
    unfold parentName
    rw [hlabels] at hthree ⊢
    cases ls with
    | nil => exact absurd hthree (by decide)
    | cons first rest =>
      rw [hjoined]
      refine isSubdomain_joined ?_
      rintro rfl
      rw [List.length_singleton] at hthree
      omega

/-- The test of a learned hypothesis. -/
theorem candidateWithinSeedBranch_eq (hseed : normalizeDnsName tables seed = .ok seed)
    (hhost : normalizeDnsName tables host = .ok host) (htype : seedType = .rootDomain ∨ seedType = .dnsName) :
    candidateWithinSeedBranch tables host seed seedType = .ok (decide (InBranch seedType seed host)) := by
  have hbelow : (decide (host ≠ seed) && isSubdomain host seed) = isSubdomain host seed := by
    cases hsub : isSubdomain host seed with
    | false => rw [Bool.and_false]
    | true => rw [decide_eq_true (ne_of_isSubdomain hsub), Bool.true_and]
  unfold candidateWithinSeedBranch
  rw [hhost, hseed]
  simp only [ok_bind, hbelow]
  split
  next hfirst =>
    have hiff : isSubdomain host seed = true ↔ InBranch seedType seed host := by
      refine ⟨Or.inl, ?_⟩
      rintro (hsub | ⟨hdns, -⟩)
      · exact hsub
      · rcases hfirst with hroot | hsub
        · rw [hroot] at hdns
          cases hdns
        · exact hsub
    show Except.ok (isSubdomain host seed) = _
    rw [← Bool.decide_coe (isSubdomain host seed), decide_eq_decide.mpr hiff]
  next hnot =>
    obtain ⟨hroot, hsub⟩ := not_or.mp hnot
    have hdns : seedType = .dnsName := htype.resolve_left hroot
    split
    next first parent hlabels =>
      have hparent : parentName seed = String.ofList (['.'].intercalate parent) := by
        unfold parentName
        rw [hlabels, List.tail_cons]
      have hiff : InBranch seedType seed host ↔ 2 ≤ parent.length ∧ isSubdomain host (parentName seed) = true := by
        unfold InBranch
        rw [hlabels, List.length_cons]
        constructor
        · rintro (hsub' | ⟨-, hthree, hunder⟩)
          · exact absurd hsub' hsub
          · exact ⟨by omega, hunder⟩
        · intro ⟨htwo, hunder⟩
          exact .inr ⟨hdns, by omega, hunder⟩
      split
      next hshort =>
        rw [decide_eq_false (fun h => absurd (hiff.mp h).1 (by omega))]
        rfl
      next hlong =>
        rw [← hparent]
        have hunder : (decide (host ≠ parentName seed) && isSubdomain host (parentName seed)) =
            decide (InBranch seedType seed host) := by
          cases hsub' : isSubdomain host (parentName seed) with
          | false => rw [Bool.and_false, decide_eq_false (fun h => by rw [(hiff.mp h).2] at hsub'; cases hsub')]
          | true =>
            rw [decide_eq_true (ne_of_isSubdomain hsub'), Bool.true_and,
              decide_eq_true (hiff.mpr ⟨by omega, hsub'⟩)]
        rw [← hunder]
        rfl
    next hlabels =>
      rw [decide_eq_false]
      · rfl
      · rintro (hsub' | ⟨-, hthree, -⟩)
        · exact hsub hsub'
        · rw [hlabels] at hthree
          exact absurd hthree (by decide)

end Branch

/-! ## What each generator returns -/

section Generators

variable {tables : Tables} {log2 log1p : ℚ → ℚ} {config : PermutationsConfig} {seedEvent : Event} {seed : String}
  {lane : CandidateLane} {word : PermutationWord} {label raw : String} {words : List PermutationWord} {limit : ℕ}
  {candidate : PermutationCandidate tables}

theorem wordCandidate_hostname {method : PermutationMethod} {score confidence : ℚ} {wordTokens : List String}
    {metadata : Metadata}
    (h : wordCandidate tables config raw lane method score confidence wordTokens metadata = some candidate) :
    normalizeDnsName tables raw = .ok candidate.hostname := by
  unfold wordCandidate at h
  split at h
  · cases h
  next hostname hok =>
    obtain rfl := Option.some.inj h
    exact hok

/-- A name of the form `label.suffix` lies under the suffix. -/
theorem isSubdomain_of_dotted {suffix host : String} {ls : List (List Char)} (hlabel : ∀ c ∈ label.toList, HostChar c ∧ c ≠ '.')
    (hne : label.toList ≠ []) (hls : ∀ l ∈ ls, HostLabel l) (hls_ne : ls ≠ [])
    (hsuffix : suffix = String.ofList (['.'].intercalate ls)) (h : normalizeDnsName tables s!"{label}.{suffix}" = .ok host) :
    isSubdomain host suffix = true := by
  have hraw : s!"{label}.{suffix}" = String.ofList (['.'].intercalate (label.toList :: ls)) := by
    obtain ⟨first, rest, rfl⟩ := List.exists_cons_of_ne_nil hls_ne
    show label ++ "." ++ suffix = _
    rw [hsuffix]
    apply String.toList_inj.mp
    simp [List.intercalate_cons_cons, String.toList_append]
  rw [hsuffix]
  rw [hraw] at h
  exact isSubdomain_of_cons hlabel hne hls hls_ne h

theorem HostLabel.plain {l : List Char} (h : HostLabel l) : ∀ c ∈ l, HostChar c ∧ c ≠ '.' := by
  intro c hc
  refine ⟨h.hostChar hc, ?_⟩
  rintro rfl
  exact h.dot_notMem hc

/-- Two labels around a hyphen. -/
theorem plain_hyphen {left right : String} (hleft : HostLabel left.toList) (hright : HostLabel right.toList) :
    (∀ c ∈ s!"{left}-{right}".toList, HostChar c ∧ c ≠ '.') ∧ s!"{left}-{right}".toList ≠ [] := by
  have hraw : s!"{left}-{right}".toList = left.toList ++ '-' :: right.toList := by
    show (left ++ "-" ++ right).toList = _
    simp [String.toList_append]
  rw [hraw]
  refine ⟨fun c hc => ?_, by simp⟩
  rcases List.mem_append.mp hc with hc | hc
  · exact hleft.plain c hc
  · rcases List.mem_cons.mp hc with rfl | hc
    · exact ⟨.inr (.inr (.inl rfl)), by decide⟩
    · exact hright.plain c hc

theorem directWordCandidate_below (hseed : normalizeDnsName tables seed = .ok seed) (hlabel : HostLabel label.toList)
    (h : directWordCandidate tables log2 log1p config seedEvent seed word label lane = some candidate) :
    isSubdomain candidate.hostname seed = true := by
  obtain ⟨ls, hls, hjoined⟩ := normalizeDnsName_ok hseed
  unfold directWordCandidate at h
  split at h
  · cases h
  · exact isSubdomain_of_dotted hlabel.plain hlabel.2.2.1 hls.label hls.ne_nil hjoined (wordCandidate_hostname h)

theorem siblingCandidates_inBranch (hseed : normalizeDnsName tables seed = .ok seed) (hlabel : HostLabel label.toList)
    (h : candidate ∈ siblingCandidates tables log2 log1p config seed word label lane) :
    candidate.hostname ≠ seed ∧ 3 ≤ (labels seed).length ∧ isSubdomain candidate.hostname (parentName seed) = true := by
  obtain ⟨ls, hls, hjoined⟩ := normalizeDnsName_ok hseed
  have hlabels : labels seed = ls := by rw [hjoined, hls.labels_eq]
  unfold siblingCandidates at h
  split at h
  next first parent heq =>
    split at h
    · cases h
    next hlong =>
      have hmem : ∀ l ∈ first :: parent, HostLabel l := by
        rw [← heq, hlabels]
        exact hls.label
      have hfirst : HostLabel (String.ofList first).toList := by
        rw [String.toList_ofList]
        exact hmem first List.mem_cons_self
      have hparent : parentName seed = String.ofList (['.'].intercalate parent) := by
        unfold parentName
        rw [heq, List.tail_cons]
      have hne : parent ≠ [] := by
        rintro rfl
        exact hlong (by decide)
      obtain ⟨hcandidate, hnot⟩ := List.mem_filter.mp h
      obtain ⟨e, he, hsome⟩ := List.mem_filterMap.mp hcandidate
      have hhost := wordCandidate_hostname hsome
      refine ⟨of_decide_eq_true hnot, by rw [heq, List.length_cons]; omega, ?_⟩
      rw [hparent]
      rcases List.mem_cons.mp he with rfl | he
      · obtain ⟨hplain, hnil⟩ := plain_hyphen hlabel hfirst
        exact isSubdomain_of_dotted hplain hnil (fun l hl => hmem l (List.mem_cons_of_mem _ hl)) hne rfl hhost
      · obtain rfl := List.mem_singleton.mp he
        obtain ⟨hplain, hnil⟩ := plain_hyphen hfirst hlabel
        exact isSubdomain_of_dotted hplain hnil (fun l hl => hmem l (List.mem_cons_of_mem _ hl)) hne rfl hhost
  · cases h

/-- A pair gives names under the seed. -/
theorem pairwiseCandidates_below (hseed : normalizeDnsName tables seed = .ok seed)
    (hwords : ∀ word ∈ words, HostLabelled word) {remaining : ℕ} {host : String}
    (h : host ∈ (pairwiseCandidates tables log2 log1p config seed words remaining).map (·.hostname)) :
    isSubdomain host seed = true := by
  obtain ⟨ls, hls, hjoined⟩ := normalizeDnsName_ok hseed
  unfold pairwiseCandidates at h
  obtain ⟨candidate, hcandidate, rfl⟩ := List.mem_map.mp (((rankAndDedupe_spec _).1 host).mp h)
  obtain ⟨⟨⟨left, right⟩, combined⟩, hcombined, hsome⟩ := List.mem_filterMap.mp (List.mem_of_mem_take hcandidate)
  obtain ⟨pair, hpair, hmem⟩ := List.mem_flatMap.mp hcombined
  simp only at hsome
  split at hsome
  · cases hsome
  have hlabels : ∀ e ∈ words.filterMap (fun word => (word.labelVariants tables).head?.map fun label => (word, label)),
      HostLabel e.2.toList := by
    intro e he
    obtain ⟨word, hword, hlabel⟩ := List.mem_filterMap.mp he
    obtain ⟨label, hhead, rfl⟩ := Option.map_eq_some_iff.mp hlabel
    exact hostLabel_of_mem_labelVariants (hwords word hword) (List.mem_of_head? hhead)
  have hpairs {α : Type} : ∀ {xs : List α} {e : α × α}, e ∈ orderedPairs xs → e.1 ∈ xs ∧ e.2 ∈ xs := by
    intro xs
    induction xs with
    | nil => exact fun h => (nomatch h)
    | cons x xs ih =>
      intro e he
      rcases List.mem_append.mp he with he | he
      · obtain ⟨y, hy, rfl⟩ := List.mem_map.mp he
        exact ⟨List.mem_cons_self, List.mem_cons_of_mem x hy⟩
      · obtain ⟨hleft, hright⟩ := ih he
        exact ⟨List.mem_cons_of_mem x hleft, List.mem_cons_of_mem x hright⟩
  obtain ⟨hleft, hright⟩ := hpairs hpair
  have hplain : (∀ c ∈ combined.toList, HostChar c ∧ c ≠ '.') ∧ combined.toList ≠ [] := by
    rcases List.mem_cons.mp hmem with heq | heq
    · cases heq
      exact plain_hyphen (hlabels _ hleft) (hlabels _ hright)
    · cases List.mem_singleton.mp heq
      exact plain_hyphen (hlabels _ hright) (hlabels _ hleft)
  exact isSubdomain_of_dotted hplain.1 hplain.2 hls.label hls.ne_nil hjoined (wordCandidate_hostname hsome)

theorem mem_appendWhileRoom {α : Type} {x : α} {candidates generated : List α}
    (h : x ∈ appendWhileRoom limit generated candidates) : x ∈ generated ∨ x ∈ candidates := by
  induction candidates generalizing generated with
  | nil => exact .inl h
  | cons candidate candidates ih =>
    unfold appendWhileRoom at h
    split at h
    · exact .inl h
    · rcases ih h with hmem | hmem
      · rcases List.mem_append.mp hmem with hmem | hmem
        · exact .inl hmem
        · exact .inr (List.mem_singleton.mp hmem ▸ List.mem_cons_self)
      · exact .inr (List.mem_cons_of_mem _ hmem)

/-- What the label of a word may give. -/
def fromLabel (tables : Tables) (log2 log1p : ℚ → ℚ) (config : PermutationsConfig) (seedEvent : Event) (seed : String)
    (lane : CandidateLane) (word : PermutationWord) (label : String) : List (PermutationCandidate tables) :=
  (directWordCandidate tables log2 log1p config seedEvent seed word label lane).toList ++
    siblingsOf tables log2 log1p config seedEvent seed word label lane

theorem mem_generateLabels {labels : List String} {generated : List (PermutationCandidate tables)}
    (h : candidate ∈ generateLabels tables log2 log1p config seedEvent seed lane limit word labels generated) :
    candidate ∈ generated ∨
      candidate ∈ labels.flatMap (fromLabel tables log2 log1p config seedEvent seed lane word) := by
  induction labels generalizing generated with
  | nil => exact .inl h
  | cons label labels ih =>
    have hfirst : ∀ {c}, c ∈ fromLabel tables log2 log1p config seedEvent seed lane word label →
        c ∈ (label :: labels).flatMap (fromLabel tables log2 log1p config seedEvent seed lane word) :=
      fun hc => List.mem_flatMap.mpr ⟨label, List.mem_cons_self, hc⟩
    unfold generateLabels at h
    split at h
    · exact .inl h
    simp only at h
    split at h
    · rcases List.mem_append.mp h with hmem | hmem
      · exact .inl hmem
      · exact .inr (hfirst (List.mem_append_left _ hmem))
    · rcases ih h with hmem | hmem
      · rcases mem_appendWhileRoom hmem with hmem | hmem
        · rcases List.mem_append.mp hmem with hmem | hmem
          · exact .inl hmem
          · exact .inr (hfirst (List.mem_append_left _ hmem))
        · exact .inr (hfirst (List.mem_append_right _ hmem))
      · obtain ⟨other, hother, hc⟩ := List.mem_flatMap.mp hmem
        exact .inr (List.mem_flatMap.mpr ⟨other, List.mem_cons_of_mem _ hother, hc⟩)

/-- All that words may give, but for their pairs. -/
def fromWords (tables : Tables) (log2 log1p : ℚ → ℚ) (config : PermutationsConfig) (seedEvent : Event) (seed : String)
    (lane : CandidateLane) (words : List PermutationWord) : List (PermutationCandidate tables) :=
  words.flatMap fun word =>
    (word.labelVariants tables).flatMap (fromLabel tables log2 log1p config seedEvent seed lane word)

theorem mem_generateWords {generated : List (PermutationCandidate tables)}
    (h : candidate ∈ generateWords tables log2 log1p config seedEvent seed lane limit words generated) :
    candidate ∈ generated ∨ candidate ∈ fromWords tables log2 log1p config seedEvent seed lane words := by
  induction words generalizing generated with
  | nil => exact .inl h
  | cons word words ih =>
    have hfirst : candidate ∈ generateLabels tables log2 log1p config seedEvent seed lane limit word
        (word.labelVariants tables) generated →
        candidate ∈ generated ∨ candidate ∈ fromWords tables log2 log1p config seedEvent seed lane (word :: words) := by
      intro hmem
      rcases mem_generateLabels hmem with hmem | hmem
      · exact .inl hmem
      · exact .inr (List.mem_flatMap.mpr ⟨word, List.mem_cons_self, hmem⟩)
    unfold generateWords at h
    simp only at h
    split at h
    · exact hfirst h
    · rcases ih h with hmem | hmem
      · exact hfirst hmem
      · obtain ⟨other, hother, hc⟩ := List.mem_flatMap.mp hmem
        exact .inr (List.mem_flatMap.mpr ⟨other, List.mem_cons_of_mem _ hother, hc⟩)

/-- What words give lies in the branch, and is not the seed. -/
theorem fromWords_inBranch (hseed : normalizeDnsName tables seed = .ok seed)
    (hwords : ∀ word ∈ words, HostLabelled word)
    (h : candidate ∈ fromWords tables log2 log1p config seedEvent seed lane words) :
    candidate.hostname ≠ seed ∧ InBranch seedEvent.type seed candidate.hostname := by
  obtain ⟨word, hword, hlabels⟩ := List.mem_flatMap.mp h
  obtain ⟨label, hmem, hfrom⟩ := List.mem_flatMap.mp hlabels
  have hlabel := hostLabel_of_mem_labelVariants (hwords word hword) hmem
  rcases List.mem_append.mp hfrom with hdirect | hsibling
  · have hbelow := directWordCandidate_below hseed hlabel (Option.mem_toList.mp hdirect)
    exact ⟨ne_of_isSubdomain hbelow, .inl hbelow⟩
  · unfold siblingsOf at hsibling
    split at hsibling
    next hdns =>
      obtain ⟨hne, hthree, hunder⟩ := siblingCandidates_inBranch hseed hlabel hsibling
      exact ⟨hne, .inr ⟨hdns.1, hthree, hunder⟩⟩
    next => cases hsibling

theorem generateWordCandidates_inBranch (hseed : normalizeDnsName tables seed = .ok seed)
    (hwords : ∀ word ∈ words, HostLabelled word) {host : String}
    (h : host ∈ (generateWordCandidates tables log2 log1p config seedEvent seed words lane limit).map (·.hostname)) :
    host ≠ seed ∧ InBranch seedEvent.type seed host := by
  unfold generateWordCandidates at h
  split at h
  · cases h
  simp only [List.map_take] at h
  have h := ((rankAndDedupe_spec _).1 host).mp (List.mem_of_mem_take h)
  have hgenerated : host ∈ (generateWords tables log2 log1p config seedEvent seed lane limit words []).map
      (·.hostname) → host ≠ seed ∧ InBranch seedEvent.type seed host := by
    intro hmem
    obtain ⟨candidate, hcandidate, rfl⟩ := List.mem_map.mp hmem
    rcases mem_generateWords hcandidate with hcandidate | hcandidate
    · cases hcandidate
    · exact fromWords_inBranch hseed hwords hcandidate
  split at h
  · rw [List.map_append] at h
    rcases List.mem_append.mp h with hmem | hmem
    · exact hgenerated hmem
    · have hbelow := pairwiseCandidates_below hseed (fun word hword => hwords word (List.mem_of_mem_take hword)) hmem
      exact ⟨ne_of_isSubdomain hbelow, .inl hbelow⟩
  · exact hgenerated h

theorem nodup_rankAndDedupe (candidates : List (PermutationCandidate tables)) :
    ((rankAndDedupeCandidates tables candidates).map (·.hostname)).Nodup := by
  have hperm : (rankAndDedupeCandidates tables candidates).Perm
      (bestByHostname tables candidates).values := List.perm_insertionSort _ _
  exact (hperm.map _).nodup_iff.mpr (Dict.nodup_values_map (bestByHostname_keys candidates).1)

end Generators

/-! ## What is returned -/

section Output

variable {tables : Tables} {log2 log1p : ℚ → ℚ} {config : PermutationsConfig} {sha256 : String → String}
  {seedEvent : Event} {seed : String} {corpus words : List PermutationWord}
  {learned : List (LearnedHostnameHypothesis tables)} {lane : CandidateLane} {candidateLimit : Option ℕ}
  {tier : Option CandidateTier} {limit : ℕ} {host : String}

/-- The hypotheses that pass the test. -/
def keptHypotheses (seedEvent : Event) (seed : String) (learned : List (LearnedHostnameHypothesis tables)) :
    List (LearnedHostnameHypothesis tables) :=
  learned.filter fun hypothesis => InBranch seedEvent.type seed hypothesis.hostname

theorem withinBranch_eq (hseed : normalizeDnsName tables seed = .ok seed)
    (htype : seedEvent.type = .rootDomain ∨ seedEvent.type = .dnsName)
    (learned : List (LearnedHostnameHypothesis tables)) :
    withinBranch tables seedEvent seed learned = .ok (keptHypotheses seedEvent seed learned) := by
  induction learned with
  | nil => rfl
  | cons hypothesis learned ih =>
    unfold withinBranch
    rw [candidateWithinSeedBranch_eq hseed hypothesis.hostname_normal htype, ih]
    unfold keptHypotheses
    by_cases hbranch : InBranch seedEvent.type seed hypothesis.hostname
    · rw [List.filter_cons_of_pos (by simpa using hbranch), decide_eq_true hbranch]
      rfl
    · rw [List.filter_cons_of_neg (by simpa using hbranch), decide_eq_false hbranch]
      rfl

/-- What the targeted lane ranks. -/
def targetedPool (tables : Tables) (log2 log1p : ℚ → ℚ) (config : PermutationsConfig) (seedEvent : Event) (seed : String)
    (corpus : List PermutationWord) (learned : List (LearnedHostnameHypothesis tables)) (limit : ℕ) :
    List (PermutationCandidate tables) :=
  rankAndDedupeCandidates tables
      ((keptHypotheses seedEvent seed learned).map (learnedCandidate tables config)) ++
    generateWordCandidates tables log2 log1p config seedEvent seed (targetedWords tables log2 log1p corpus) .targeted limit

theorem generateCandidates_targeted (hseed : normalizeDnsName tables seed = .ok seed)
    (htype : seedEvent.type = .rootDomain ∨ seedEvent.type = .dnsName) (offsets : CursorOffsets) :
    generateCandidates tables log2 log1p config sha256 seedEvent seed corpus learned .targeted candidateLimit tier
        offsets =
      (.ok ((rankAndDedupeCandidates tables (targetedPool tables log2 log1p config seedEvent seed corpus learned
        (config.targetedLimitFor (config.totalFor candidateLimit)))).take
          (config.targetedLimitFor (config.totalFor candidateLimit))), offsets) := by
  unfold generateCandidates generateLearnedCandidates
  rw [withinBranch_eq hseed htype]
  rfl

theorem mem_targetedPool : host ∈ (rankAndDedupeCandidates tables (targetedPool tables log2 log1p config seedEvent seed
      corpus learned limit)).map (·.hostname) ↔
    (∃ hypothesis ∈ keptHypotheses seedEvent seed learned, hypothesis.hostname = host) ∨
      host ∈ (generateWordCandidates tables log2 log1p config seedEvent seed (targetedWords tables log2 log1p corpus)
        .targeted limit).map (·.hostname) := by
  rw [(rankAndDedupe_spec _).1]
  unfold targetedPool
  rw [List.map_append, List.mem_append, (rankAndDedupe_spec _).1, List.map_map]
  exact or_congr_left List.mem_map

theorem hostLabelled_of_normal (hcorpus : ∀ word ∈ corpus, PermutationWord.normalizeLabels tables word.labels = word.labels) :
    ∀ word ∈ corpus, HostLabelled word := by
  intro word hword label hlabel
  rw [← hcorpus word hword] at hlabel
  exact hostLabel_of_mem_normalizeLabels hlabel

theorem hostLabelled_targetedWords (hcorpus : ∀ word ∈ corpus, HostLabelled word) :
    ∀ word ∈ targetedWords tables log2 log1p corpus, HostLabelled word := by
  intro word hword
  unfold targetedWords at hword
  rw [List.mem_insertionSort] at hword
  exact hostLabelled_dedupeWords hcorpus word (List.mem_of_mem_filter hword)

theorem hostLabelled_explorationWords (hcorpus : ∀ word ∈ corpus, HostLabelled word) :
    ∀ word ∈ explorationWords tables corpus, HostLabelled word := by
  intro word hword
  unfold explorationWords at hword
  rw [List.mem_insertionSort] at hword
  exact hostLabelled_dedupeWords hcorpus word (List.mem_of_mem_filter hword)

theorem generateWordCandidates_nodup (words : List PermutationWord) :
    ((generateWordCandidates tables log2 log1p config seedEvent seed words lane limit).map (·.hostname)).Nodup ∧
      (generateWordCandidates tables log2 log1p config seedEvent seed words lane limit).length ≤ limit := by
  unfold generateWordCandidates
  split
  · exact ⟨List.nodup_nil, Nat.zero_le _⟩
  · exact ⟨(nodup_rankAndDedupe _).sublist ((List.take_sublist _ _).map _), List.length_take_le _ _⟩

/-- The seed is among the hypotheses that pass the test. -/
def SeedLearned (seedEvent : Event) (seed : String) (learned : List (LearnedHostnameHypothesis tables))
    (lane : CandidateLane) : Prop :=
  lane = .targeted ∧ seedEvent.type = .dnsName ∧ 3 ≤ (labels seed).length ∧
    ∃ hypothesis ∈ learned, hypothesis.hostname = seed

/-- What holds in any case. -/
theorem generateCandidates_spec (log2 log1p : ℚ → ℚ) (config : PermutationsConfig) (sha256 : String → String)
    (learned : List (LearnedHostnameHypothesis tables)) (lane : CandidateLane) (tier : Option CandidateTier)
    (hseed : normalizeDnsName tables seed = .ok seed) (htype : seedEvent.type = .rootDomain ∨ seedEvent.type = .dnsName)
    (hcorpus : ∀ word ∈ corpus, PermutationWord.normalizeLabels tables word.labels = word.labels)
    (candidateLimit : Option ℕ) (offsets : CursorOffsets) :
    ∃ candidates offsets', generateCandidates tables log2 log1p config sha256 seedEvent seed corpus learned lane
        candidateLimit tier offsets = (.ok candidates, offsets') ∧ (candidates.map (·.hostname)).Nodup ∧
      candidates.length ≤ config.shareOf lane (config.totalFor candidateLimit) ∧
      (∀ host ∈ candidates.map (·.hostname), InBranch seedEvent.type seed host) ∧
      (seed ∈ candidates.map (·.hostname) → SeedLearned seedEvent seed learned lane) := by
  have hlabelled := hostLabelled_of_normal hcorpus
  cases lane with
  | targeted =>
    refine ⟨_, _, generateCandidates_targeted hseed htype offsets, ?_, List.length_take_le _ _, ?_, ?_⟩
    · exact (nodup_rankAndDedupe _).sublist ((List.take_sublist _ _).map _)
    · intro host hhost
      rw [List.map_take] at hhost
      rcases mem_targetedPool.mp (List.mem_of_mem_take hhost) with ⟨hypothesis, hkept, rfl⟩ | hwords
      · exact of_decide_eq_true (List.mem_filter.mp hkept).2
      · exact (generateWordCandidates_inBranch hseed (hostLabelled_targetedWords hlabelled) hwords).2
    · intro hmem
      rw [List.map_take] at hmem
      rcases mem_targetedPool.mp (List.mem_of_mem_take hmem) with ⟨hypothesis, hkept, hself⟩ | hwords
      · obtain ⟨hlearned, hbranch⟩ := List.mem_filter.mp hkept
        have hbranch : InBranch seedEvent.type seed hypothesis.hostname := of_decide_eq_true hbranch
        rw [hself] at hbranch
        obtain ⟨hdns, hthree⟩ := (inBranch_self hseed).mp hbranch
        exact ⟨rfl, hdns, hthree, hypothesis, hlearned, hself⟩
      · exact absurd rfl (generateWordCandidates_inBranch hseed (hostLabelled_targetedWords hlabelled) hwords).1
  | exploration =>
    unfold generateCandidates
    simp only
    split
    · exact ⟨[], offsets, rfl, List.nodup_nil, Nat.zero_le _, fun _ h => (nomatch h), fun h => (nomatch h)⟩
    · refine ⟨_, _, rfl, (generateWordCandidates_nodup _).1, (generateWordCandidates_nodup _).2, ?_⟩
      have hrotating : ∀ word ∈ (claimWindow offsets (explorationNamespace tables sha256 seed (tier.getD config.tier))
          (explorationWords tables corpus).length (min (explorationWords tables corpus).length
            (config.explorationLimitFor (config.totalFor candidateLimit)))).1.filterMap
              (fun index => (explorationWords tables corpus)[index]?), HostLabelled word := by
        intro word hword
        obtain ⟨index, -, hindex⟩ := List.mem_filterMap.mp hword
        exact hostLabelled_explorationWords hlabelled word (List.mem_of_getElem? hindex)
      constructor
      · intro host hhost
        exact (generateWordCandidates_inBranch hseed hrotating hhost).2
      · intro hmem
        exact absurd rfl (generateWordCandidates_inBranch hseed hrotating hmem).1

/-- With room enough, a learned seed is returned. -/
theorem seed_returned (log2 log1p : ℚ → ℚ) (config : PermutationsConfig) (sha256 : String → String)
    (corpus : List PermutationWord) (tier : Option CandidateTier) (hseed : normalizeDnsName tables seed = .ok seed)
    (hlearned : SeedLearned seedEvent seed learned lane) : ∃ candidateLimit : Option ℕ, ∀ offsets candidates offsets',
      generateCandidates tables log2 log1p config sha256 seedEvent seed corpus learned lane candidateLimit tier
        offsets = (.ok candidates, offsets') → seed ∈ candidates.map (·.hostname) := by
  obtain ⟨rfl, hdns, hthree, hypothesis, hmem, hself⟩ := hlearned
  -- what there can be in all, whatever the limit
  obtain ⟨total, hpos, hroom⟩ := config.exists_targetedLimitFor
    (((keptHypotheses seedEvent seed learned).map (·.hostname)) ++
      (fromWords tables log2 log1p config seedEvent seed .targeted (targetedWords tables log2 log1p corpus)).map
        (·.hostname)).length
  refine ⟨some total, fun offsets candidates offsets' h => ?_⟩
  have htotal : config.totalFor (some total) = total := if_neg hpos
  rw [generateCandidates_targeted hseed (.inr hdns), htotal] at h
  cases h
  generalize hlimit : config.targetedLimitFor total = limit at hroom ⊢
  have hshort : (rankAndDedupeCandidates tables
      (targetedPool tables log2 log1p config seedEvent seed corpus learned limit)).length ≤ limit := by
    refine le_trans ?_ hroom
    rw [← List.length_map (·.hostname)]
    apply (List.subperm_of_subset (nodup_rankAndDedupe _) _).length_le
    intro host hhost
    rw [List.mem_append]
    rcases mem_targetedPool.mp hhost with ⟨hypothesis, hkept, rfl⟩ | hwords
    · exact .inl (List.mem_map.mpr ⟨hypothesis, hkept, rfl⟩)
    · right
      unfold generateWordCandidates at hwords
      split at hwords
      · cases hwords
      simp only [hdns, reduceCtorEq, false_and, if_false, List.map_take] at hwords
      have hgenerated := ((rankAndDedupe_spec _).1 host).mp (List.mem_of_mem_take hwords)
      obtain ⟨candidate, hcandidate, rfl⟩ := List.mem_map.mp hgenerated
      rcases mem_generateWords hcandidate with hnone | hfrom
      · cases hnone
      · exact List.mem_map.mpr ⟨candidate, hfrom, rfl⟩
  rw [List.take_of_length_le hshort]
  refine mem_targetedPool.mpr (.inl ⟨hypothesis, List.mem_filter.mpr ⟨hmem, ?_⟩, hself⟩)
  exact decide_eq_true (by rw [hself]; exact (inBranch_self hseed).mpr ⟨hdns, hthree⟩)

/-- What is promised of the candidates of one call. -/
structure BoundedOutput (config : PermutationsConfig) (seedEvent : Event) (seed : String) (lane : CandidateLane)
    (candidateLimit : Option ℕ) (candidates : List (PermutationCandidate tables)) : Prop where
  distinct : (candidates.map (·.hostname)).Nodup
  valid : ∀ candidate ∈ candidates, normalizeDnsName tables candidate.hostname = .ok candidate.hostname
  not_seed : ∀ candidate ∈ candidates, candidate.hostname ≠ seed
  in_branch : ∀ candidate ∈ candidates, InBranch seedEvent.type seed candidate.hostname
  bounded : candidates.length ≤ config.shareOf lane (config.totalFor candidateLimit)
  shares : config.shareOf .targeted (config.totalFor candidateLimit) +
    config.shareOf .exploration (config.totalFor candidateLimit) = config.totalFor candidateLimit
  reserved : ∀ task schedule plan, config.plan task schedule = .ok plan →
    permutationsLaneForAction task.action.text = some lane → candidateLimit.getD 0 ≤ config.effectiveMaxCandidates →
    (config.shareOf lane (config.totalFor candidateLimit) : ℚ) ≤ plan.demand.candidates

theorem totalFor_le (h : candidateLimit.getD 0 ≤ config.effectiveMaxCandidates) :
    config.totalFor candidateLimit ≤ config.effectiveMaxCandidates := by
  unfold PermutationsConfig.totalFor
  split
  · exact le_refl _
  · split
    · exact le_refl _
    · exact h

end Output

/-! ## A confirmed name that is also learned -/

def apiEvent : Event where
  eventId := "evt_api"
  type := .dnsName
  value := "api.example.com"
  source := resolverName
  firstSeen := 0
  lastSeen := 0
  confidence_unit := zero_unit
  novelty_unit := zero_unit

theorem apiName_normal : normalizeDnsName plainTables "api.example.com" = .ok "api.example.com" := by decide +kernel

def apiHypothesis : LearnedHostnameHypothesis plainTables where
  hostname := "api.example.com"
  hostname_normal := apiName_normal

end NightScout
