import NightScout.Surface.CaseTables

/-!
# Where a URL is cut

`urlsplit` cuts a text and then looks at the network location only. Parts that are put together with `urlunsplit` are
cut at the same places, whatever their network location looks like inside.
-/

namespace NightScout

open Lib

/-- What `urlsplit` keeps of a text. -/
def keptText (value : String) : List Char :=
  (value.toList.dropWhile fun c => c.toNat ≤ 32).filter fun c => c ∉ ['\t', '\r', '\n']

/-- The parts of a text. -/
def cutParts (url : List Char) : SplitResult :=
  let (scheme, url) := splitScheme url
  let (netloc, url) := splitNetloc url
  let (url, _, fragment) := partition '#' url
  let (path, _, query) := partition '?' url
  { scheme := String.ofList scheme, netloc := String.ofList netloc, path := String.ofList path
    query := String.ofList query, fragment := String.ofList fragment }

/-- The network location has no brackets or those of an address, and no separator hides in it. -/
def AcceptsNetloc (tables : Tables) (netloc : String) : Prop :=
  ('[' ∈ netloc.toList ∨ ']' ∈ netloc.toList →
    '[' ∈ netloc.toList ∧ ']' ∈ netloc.toList ∧ tables.bracketed netloc = true) ∧
  checkNetloc tables netloc = true

section Cuts

variable {tables : Tables} {value : String} {parts : SplitResult}

theorem urlsplit_ok_iff : urlsplit tables value = .ok parts ↔
    parts = cutParts (keptText value) ∧ AcceptsNetloc tables parts.netloc := by
  unfold urlsplit cutParts keptText AcceptsNetloc
  simp only
  generalize splitScheme _ = pieces
  obtain ⟨scheme, url⟩ := pieces
  simp only
  generalize splitNetloc url = pieces
  obtain ⟨netloc, rest⟩ := pieces
  simp only
  constructor
  · intro h
    split at h
    · cases h
    next hbracket =>
      split at h
      next hcheck =>
        obtain rfl := Except.ok.inj h
        refine ⟨rfl, ?_, hcheck⟩
        simp only [String.toList_ofList]
        intro hor
        by_contra hand
        exact hbracket ⟨hor, hand⟩
      · cases h
  · rintro ⟨rfl, hbracket, hcheck⟩
    simp only [String.toList_ofList] at hbracket
    rw [if_neg fun hand => hand.2 (hbracket hand.1), if_pos hcheck]

theorem keptText_removed : ∀ c ∈ keptText value, isRemoved c = false := by
  intro c hc
  have hnot := (List.mem_filter.mp hc).2
  rw [decide_eq_true_eq] at hnot
  exact decide_eq_false hnot

theorem keptText_head : ∀ c ∈ (keptText value).head?, 32 < c.toNat := by
  intro c hc
  unfold keptText at hc
  have hhead := List.head?_dropWhile_not (fun c : Char => decide (c.toNat ≤ 32)) value.toList
  cases hlist : value.toList.dropWhile fun c => decide (c.toNat ≤ 32) with
  | nil =>
    rw [hlist] at hc
    cases hc
  | cons d rest =>
    rw [hlist] at hhead hc
    have hd : 32 < d.toNat := by simpa using hhead
    have hkeep : decide (d ∉ ['\t', '\r', '\n']) = true := by
      rw [decide_eq_true_eq]
      intro hmem
      have hcases : d = '\t' ∨ d = '\r' ∨ d = '\n' := by simpa using hmem
      rcases hcases with rfl | rfl | rfl <;> revert hd <;> decide
    simp only [List.filter_cons, hkeep, if_true, List.head?_cons] at hc
    obtain rfl := Option.some.inj hc
    exact hd

theorem keptText_eq {url : List Char} (hremoved : ∀ c ∈ url, isRemoved c = false)
    (hhead : ∀ c ∈ url.head?, 32 < c.toNat) : keptText (String.ofList url) = url := by
  unfold keptText
  rw [String.toList_ofList]
  have hdrop : url.dropWhile (fun c => decide (c.toNat ≤ 32)) = url := by
    apply dropWhile_eq_self
    cases url with
    | nil => rfl
    | cons c url => simpa using hhead c rfl
  rw [hdrop, List.filter_eq_self]
  intro c hc
  rw [decide_eq_true_eq]
  exact of_decide_eq_false (hremoved c hc)

end Cuts

/-! ## Schemes -/

/-- Nothing, or a delimiter and what follows it. -/
def Stops (rest : List Char) : Prop := ∀ c ∈ rest.head?, endsNetloc c = true

section Schemes

variable {front rest rest' : List Char}

theorem splitScheme_rest (h : (splitScheme front).1 = []) : splitScheme front = ([], front) := by
  unfold splitScheme at h ⊢
  simp only at h ⊢
  split at h
  next hscheme =>
    have hnil : (partition ':' front).1 = [] := by simpa using h
    rw [hnil] at hscheme
    obtain ⟨-, hhead, -⟩ := hscheme
    cases hhead
  next hnot => rw [if_neg hnot]

theorem endsNetloc_not_scheme {c : Char} (h : endsNetloc c = true) :
    (c.isAlphanum || c ∈ ['+', '-', '.']) = false ∧ c ≠ ':' := by
  have hcases : c = '/' ∨ c = '?' ∨ c = '#' := by simpa [endsNetloc] using h
  rcases hcases with rfl | rfl | rfl <;> decide

/-- A scheme is found before the first delimiter, or not at all. -/
theorem splitScheme_stop (hrest : Stops rest) : (splitScheme (front ++ rest)).1 = (splitScheme front).1 := by
  by_cases hcolon : ':' ∈ front
  · obtain ⟨a, b, rfl, ha⟩ := List.eq_append_cons_of_mem hcolon
    unfold splitScheme
    rw [List.append_assoc, List.cons_append, partition_eq ha, partition_eq ha]
    simp only
    split <;> rfl
  · have hfront : (splitScheme front).1 = [] := by
      unfold splitScheme
      rw [partition_of_notMem hcolon]
      simp
    rw [hfront]
    cases rest with
    | nil => rw [List.append_nil, hfront]
    | cons c rest =>
      obtain ⟨hc, hne⟩ := endsNetloc_not_scheme (hrest c rfl)
      unfold splitScheme
      simp only
      rw [if_neg]
      rintro ⟨-, -, hall⟩
      have hbefore : (partition ':' (front ++ c :: rest)).1 = front ++ c :: (rest.takeWhile (· ≠ ':')) := by
        show List.takeWhile _ _ = _
        rw [List.takeWhile_append_of_pos, List.takeWhile_cons_of_pos (by simpa using hne)]
        intro d hd
        rw [decide_eq_true_eq]
        rintro rfl
        exact hcolon hd
      rw [hbefore, List.all_append, List.all_cons, hc] at hall
      simp at hall

theorem splitScheme_of_stop (hfront : (splitScheme front).1 = []) (hrest : Stops rest) :
    splitScheme (front ++ rest) = ([], front ++ rest) := by
  apply splitScheme_rest
  rw [splitScheme_stop hrest, hfront]

end Schemes

/-! ## Putting parts together -/

/-- The path up to its first slash. -/
def firstSegment (path : String) : List Char := path.toList.takeWhile (· ≠ '/')

/-- Parts of the web, or of a reference without a scheme, that can be cut apart again. -/
structure Cuttable (parts : SplitResult) : Prop where
  scheme : parts.scheme = "" ∨ IsHttp parts.scheme ∧ parts.netloc ≠ ""
  netloc : ∀ c ∈ parts.netloc.toList, endsNetloc c = false ∧ isRemoved c = false
  path_abs : parts.netloc ≠ "" → parts.path = "" ∨ parts.path.toList.head? = some '/'
  path : ∀ c ∈ parts.path.toList, c ≠ '?' ∧ c ≠ '#' ∧ isRemoved c = false
  query : ∀ c ∈ parts.query.toList, c ≠ '#' ∧ isRemoved c = false
  fragment : ∀ c ∈ parts.fragment.toList, isRemoved c = false
  start : parts.scheme = "" → parts.netloc = "" →
    (splitScheme (firstSegment parts.path)).1 = [] ∧ ∀ c ∈ (firstSegment parts.path).head?, 32 < c.toNat

/-- A text behind its delimiter, unless it is empty. -/
def delimited (c : Char) (text : String) : List Char := if text = "" then [] else c :: text.toList

/-- What follows the network location. -/
def behindNetloc (parts : SplitResult) : List Char :=
  parts.path.toList ++ (delimited '?' parts.query ++ delimited '#' parts.fragment)

/-- The slashes before the network location, or before a path that looks like one. -/
def slashesBefore (parts : SplitResult) : List Char :=
  if parts.netloc ≠ "" ∨ parts.path.toList.take 2 = ['/', '/'] then ['/', '/'] else []

/-- What follows the scheme. -/
def behindScheme (parts : SplitResult) : List Char :=
  slashesBefore parts ++ (parts.netloc.toList ++ behindNetloc parts)

section Cuttable

variable {parts : SplitResult}

theorem mem_delimited {c d : Char} {text : String} (h : d ∈ delimited c text) : d = c ∨ d ∈ text.toList := by
  unfold delimited at h
  split at h
  · cases h
  · exact List.mem_cons.mp h

namespace Cuttable

theorem toList (h : Cuttable parts) : (urlunsplitParts parts).toList =
    (if parts.scheme = "" then [] else parts.scheme.toList ++ [':']) ++ behindScheme parts := by
  by_cases hnetloc : parts.netloc = ""
  · have hscheme : parts.scheme = "" := h.scheme.resolve_right fun hand => hand.2 hnetloc
    unfold urlunsplitParts behindScheme slashesBefore behindNetloc
    simp only [hnetloc, hscheme, ne_eq, not_true_eq_false, if_false, false_and, false_or, if_true]
    split <;> simp_all [String.toList_append, delimited] <;> split <;> split <;> simp_all
  · have habs : ¬ (parts.path ≠ "" ∧ parts.path.toList.head? ≠ some '/') := by
      rintro ⟨hne, hhead⟩
      exact (h.path_abs hnetloc).elim hne hhead
    rw [urlunsplitParts_netloc hnetloc]
    unfold urlunsplit behindScheme slashesBefore behindNetloc
    simp only [if_neg habs, hnetloc, ne_eq, not_false_eq_true, true_or, if_true]
    split <;> split <;> split <;> simp_all [String.toList_append, delimited]

theorem slashes_cases (parts : SplitResult) :
    slashesBefore parts = [] ∧ parts.netloc = "" ∧ parts.path.toList.take 2 ≠ ['/', '/'] ∨
      slashesBefore parts = ['/', '/'] ∧ (parts.netloc ≠ "" ∨ parts.path.toList.take 2 = ['/', '/']) := by
  unfold slashesBefore
  split
  next hor => exact .inr ⟨rfl, hor⟩
  next hnot =>
    obtain ⟨hnetloc, htake⟩ := not_or.mp hnot
    exact .inl ⟨rfl, not_not.mp hnetloc, htake⟩

theorem stops_delimited (parts : SplitResult) : Stops (delimited '?' parts.query ++ delimited '#' parts.fragment) := by
  intro c hc
  unfold delimited at hc
  split at hc <;> split at hc <;> (simp at hc; try subst hc; try decide)

theorem stops_behind (h : Cuttable parts) (hslashes : parts.netloc ≠ "" ∨ parts.path.toList.take 2 = ['/', '/']) :
    Stops (behindNetloc parts) := by
  have hhead : parts.path = "" ∨ parts.path.toList.head? = some '/' := by
    by_cases hnetloc : parts.netloc = ""
    · right
      have htake := hslashes.resolve_left fun hne => hne hnetloc
      cases hpath : parts.path.toList with
      | nil =>
        rw [hpath] at htake
        cases htake
      | cons c path =>
        rw [hpath, List.take_succ_cons] at htake
        exact congrArg some (List.cons.inj htake).1
    · exact h.path_abs hnetloc
  intro c hc
  unfold behindNetloc at hc
  rcases hhead with hempty | hhead
  · rw [hempty] at hc
    exact stops_delimited parts c hc
  · rw [List.head?_append, hhead] at hc
    obtain rfl := Option.some.inj hc
    decide

/-- The network location ends where the rest begins. -/
theorem splitNetloc (h : Cuttable parts) :
    splitNetloc (behindScheme parts) = (parts.netloc.toList, behindNetloc parts) := by
  unfold NightScout.splitNetloc behindScheme
  rcases slashes_cases parts with ⟨hslashes, hnetloc, htake⟩ | ⟨hslashes, hor⟩
  · have hbehind : (behindNetloc parts).take 2 ≠ ['/', '/'] := by
      intro htwo
      unfold behindNetloc at htwo
      cases hpath : parts.path.toList with
      | nil =>
        rw [hpath, List.nil_append] at htwo
        unfold delimited at htwo
        split at htwo <;> split at htwo <;> simp at htwo
      | cons c path =>
        cases path with
        | nil =>
          rw [hpath] at htwo
          unfold delimited at htwo
          split at htwo <;> split at htwo <;> simp at htwo
        | cons d path =>
          rw [hpath] at htwo htake
          exact htake htwo
    simp only [hslashes, hnetloc, String.toList_empty, List.nil_append, if_neg hbehind]
  · have hwhile : (parts.netloc.toList ++ behindNetloc parts).takeWhile (fun c => decide (c ∉ ['/', '?', '#'])) =
        parts.netloc.toList := by
      rw [not_endsNetloc_eq]
      apply takeWhile_append_stop
      · intro c hc
        rw [(h.netloc c hc).1]
        rfl
      · have hstops := h.stops_behind hor
        cases hbehind : behindNetloc parts with
        | nil => exact .inl rfl
        | cons c rest =>
          rw [hbehind] at hstops
          exact .inr ⟨c, rest, rfl, by rw [hstops c rfl]; rfl⟩
    rw [hslashes]
    simp only [List.cons_append, List.nil_append, List.take_succ_cons, List.take_zero, if_true, List.drop_succ_cons,
      List.drop_zero, hwhile, List.drop_left]

/-- The scheme ends at the colon, and without a scheme no colon is one's end. -/
theorem splitScheme (h : Cuttable parts) :
    splitScheme ((if parts.scheme = "" then [] else parts.scheme.toList ++ [':']) ++ behindScheme parts) =
      (parts.scheme.toList, behindScheme parts) := by
  rcases h.scheme with hscheme | ⟨hhttp, -⟩
  · rw [if_pos hscheme, hscheme, List.nil_append]
    rcases slashes_cases parts with ⟨hslashes, hnetloc, -⟩ | ⟨hslashes, -⟩
    · have hsplit : behindScheme parts = firstSegment parts.path ++ (parts.path.toList.dropWhile (· ≠ '/') ++
          (delimited '?' parts.query ++ delimited '#' parts.fragment)) := by
        rw [behindScheme, hslashes, hnetloc, behindNetloc, ← List.append_assoc (firstSegment parts.path),
          firstSegment, List.takeWhile_append_dropWhile]
        rfl
      rw [hsplit]
      apply splitScheme_of_stop (h.start hscheme hnetloc).1
      intro c hc
      have hfirst := List.head?_dropWhile_not (fun c : Char => decide (c ≠ '/')) parts.path.toList
      cases hrest : parts.path.toList.dropWhile (· ≠ '/') with
      | nil =>
        rw [hrest] at hc
        exact stops_delimited parts c hc
      | cons d rest =>
        rw [hrest] at hc hfirst
        obtain rfl := Option.some.inj hc
        have hslash : d = '/' := by simpa using hfirst
        rw [hslash]
        decide
    · rw [behindScheme, hslashes]
      refine @splitScheme_of_stop [] _ rfl ?_
      intro c hc
      obtain rfl := Option.some.inj hc
      decide
  · rw [if_neg hhttp.ne_empty, List.append_assoc]
    rcases hhttp with hscheme | hscheme
    · rw [hscheme]
      simp [NightScout.splitScheme, partition]
    · rw [hscheme]
      simp [NightScout.splitScheme, partition]

theorem partition_fragment (h : Cuttable parts) : ∃ b, partition '#' (behindNetloc parts) =
    (parts.path.toList ++ delimited '?' parts.query, b, parts.fragment.toList) := by
  have hfront : '#' ∉ parts.path.toList ++ delimited '?' parts.query := by
    intro hc
    rcases List.mem_append.mp hc with hc | hc
    · exact (h.path _ hc).2.1 rfl
    · rcases mem_delimited hc with hc | hc
      · cases hc
      · exact (h.query _ hc).1 rfl
  unfold behindNetloc
  rw [← List.append_assoc]
  by_cases hempty : parts.fragment = ""
  · refine ⟨false, ?_⟩
    have hnil : delimited '#' parts.fragment = [] := if_pos hempty
    rw [hnil, List.append_nil, partition_of_notMem hfront, hempty]
    rfl
  · refine ⟨true, ?_⟩
    have hcons : delimited '#' parts.fragment = '#' :: parts.fragment.toList := if_neg hempty
    rw [hcons, partition_eq hfront]

theorem partition_query (h : Cuttable parts) : ∃ b, partition '?' (parts.path.toList ++ delimited '?' parts.query) =
    (parts.path.toList, b, parts.query.toList) := by
  have hpath : '?' ∉ parts.path.toList := fun hc => (h.path _ hc).1 rfl
  unfold delimited
  split
  next hempty =>
    refine ⟨false, ?_⟩
    rw [hempty, List.append_nil, partition_of_notMem hpath]
    rfl
  next => exact ⟨true, partition_eq hpath⟩

/-- **What is put together is cut at the same places.** -/
theorem cut (h : Cuttable parts) : cutParts (urlunsplitParts parts).toList = parts := by
  obtain ⟨b, hfragment⟩ := h.partition_fragment
  obtain ⟨b', hquery⟩ := h.partition_query
  rw [h.toList]
  unfold cutParts
  simp only [h.splitScheme, h.splitNetloc, hfragment, hquery, String.ofList_toList]

theorem removed (h : Cuttable parts) : ∀ c ∈ (urlunsplitParts parts).toList, isRemoved c = false := by
  intro c hc
  have hdelimited : ∀ (d : Char) (text : String), isRemoved d = false → (∀ c ∈ text.toList, isRemoved c = false) →
      c ∈ delimited d text → isRemoved c = false := by
    intro d text hd htext hin
    rcases mem_delimited hin with rfl | hin
    · exact hd
    · exact htext c hin
  rw [h.toList] at hc
  rcases List.mem_append.mp hc with hc | hc
  · rcases h.scheme with hscheme | ⟨hhttp, -⟩
    · rw [if_pos hscheme] at hc
      cases hc
    · rw [if_neg hhttp.ne_empty] at hc
      have hall : (parts.scheme.toList ++ [':']).all (fun c => !isRemoved c) = true := by
        rcases hhttp with hscheme | hscheme <;> (rw [hscheme]; decide)
      simpa using List.all_eq_true.mp hall c hc
  · rcases List.mem_append.mp hc with hc | hc
    · unfold slashesBefore at hc
      split at hc
      · have hslash : c = '/' := by simpa using hc
        rw [hslash]
        decide
      · cases hc
    rcases List.mem_append.mp hc with hc | hc
    · exact (h.netloc c hc).2
    rcases List.mem_append.mp hc with hc | hc
    · exact (h.path c hc).2.2
    rcases List.mem_append.mp hc with hc | hc
    · exact hdelimited '?' _ (by decide) (fun d hd => (h.query d hd).2) hc
    · exact hdelimited '#' _ (by decide) h.fragment hc

theorem head (h : Cuttable parts) : ∀ c ∈ (urlunsplitParts parts).toList.head?, 32 < c.toNat := by
  intro c hc
  have hends : ∀ {c : Char}, endsNetloc c = true → 32 < c.toNat := by
    intro c hc
    have hcases : c = '/' ∨ c = '?' ∨ c = '#' := by simpa [endsNetloc] using hc
    rcases hcases with rfl | rfl | rfl <;> decide
  rw [h.toList] at hc
  rcases h.scheme with hscheme | ⟨hhttp, -⟩
  · rw [if_pos hscheme, List.nil_append] at hc
    rcases slashes_cases parts with ⟨hslashes, hnetloc, -⟩ | ⟨hslashes, -⟩
    · rw [behindScheme, hslashes, hnetloc, behindNetloc] at hc
      obtain ⟨-, hstart⟩ := h.start hscheme hnetloc
      cases hpath : parts.path.toList with
      | nil =>
        rw [hpath] at hc
        exact hends (stops_delimited parts c hc)
      | cons d path =>
        rw [hpath] at hc
        obtain rfl := Option.some.inj hc
        by_cases hslash : d = '/'
        · rw [hslash]
          decide
        · apply hstart
          rw [firstSegment, hpath, List.takeWhile_cons_of_pos (by simpa using hslash)]
          rfl
    · rw [behindScheme, hslashes] at hc
      obtain rfl := Option.some.inj hc
      decide
  · rw [if_neg hhttp.ne_empty] at hc
    rcases hhttp with hscheme | hscheme <;>
      (rw [hscheme] at hc; obtain rfl := Option.some.inj hc; decide)

/-- Whether parts that are put together are accepted rests on their network location only. -/
theorem urlsplit_iff (h : Cuttable parts) {tables : Tables} {parts' : SplitResult} :
    urlsplit tables (urlunsplitParts parts) = .ok parts' ↔ parts' = parts ∧ AcceptsNetloc tables parts.netloc := by
  have hkept : keptText (urlunsplitParts parts) = (urlunsplitParts parts).toList := by
    have heq := keptText_eq h.removed h.head
    rwa [String.ofList_toList] at heq
  rw [urlsplit_ok_iff, hkept, h.cut]
  constructor
  · rintro ⟨rfl, haccepts⟩
    exact ⟨rfl, haccepts⟩
  · rintro ⟨rfl, haccepts⟩
    exact ⟨rfl, haccepts⟩

end Cuttable

end Cuttable

/-! ## Cutting any text -/

section AnyText

variable {url : List Char}

theorem stops_dropWhile (url : List Char) : Stops (url.dropWhile fun c => !endsNetloc c) := by
  intro c hc
  have hhead := List.head?_dropWhile_not (fun c => !endsNetloc c) url
  rw [hc] at hhead
  simpa using hhead

/-- Between the slashes and the rest stands the network location, and without slashes there is none. -/
theorem splitNetloc_cases (url : List Char) : (splitNetloc url).1 = [] ∧ (splitNetloc url).2 = url ∨
      (splitNetloc url).1 = (url.drop 2).takeWhile (fun c => !endsNetloc c) ∧
        (splitNetloc url).2 = (url.drop 2).dropWhile fun c => !endsNetloc c := by
  unfold splitNetloc
  split
  · right
    simp only [not_endsNetloc_eq, drop_takeWhile, and_self]
  · exact .inl ⟨rfl, rfl⟩

theorem splitNetloc_suffix (url : List Char) : (splitNetloc url).2 <:+ url := by
  rcases splitNetloc_cases url with ⟨-, hrest⟩ | ⟨-, hrest⟩
  · rw [hrest]
  · rw [hrest]
    exact (List.dropWhile_suffix _).trans (List.drop_suffix _ _)

theorem mem_splitNetloc {c : Char} (h : c ∈ (splitNetloc url).1) : endsNetloc c = false ∧ c ∈ url := by
  rcases splitNetloc_cases url with ⟨hnil, -⟩ | ⟨hnetloc, -⟩
  · rw [hnil] at h
    cases h
  · rw [hnetloc] at h
    refine ⟨?_, List.mem_of_mem_drop ((List.takeWhile_prefix _).subset h)⟩
    simpa using List.mem_takeWhile_imp h

/-- The path that a text starts with. -/
def pathText (url : List Char) : List Char := (partition '?' (partition '#' url).1).1

theorem firstSegment_pathText (url : List Char) :
    firstSegment (String.ofList (pathText url)) = url.takeWhile fun c => !endsNetloc c := by
  unfold firstSegment pathText partition
  simp only [String.toList_ofList, List.takeWhile_takeWhile]
  congr 1
  funext c
  by_cases hslash : c = '/'
  · simp [hslash, endsNetloc]
  · by_cases hquestion : c = '?'
    · simp [hquestion, endsNetloc]
    · simp [hslash, hquestion, endsNetloc]

/-- A path where a network location has stopped is from the root. -/
theorem pathText_stops (h : Stops url) : pathText url = [] ∨ (pathText url).head? = some '/' := by
  cases url with
  | nil => exact .inl rfl
  | cons c url =>
    have hc := h c rfl
    have hcases : c = '/' ∨ c = '?' ∨ c = '#' := by simpa [endsNetloc] using hc
    unfold pathText partition
    rcases hcases with rfl | rfl | rfl
    · right
      simp
    · left
      simp
    · left
      simp

theorem mem_pathText {c : Char} (h : c ∈ pathText url) : c ≠ '?' ∧ c ≠ '#' ∧ c ∈ url := by
  obtain ⟨hquestion, hc⟩ := mem_partition.1 h
  obtain ⟨hhash, hc⟩ := mem_partition.1 hc
  exact ⟨hquestion, hhash, hc⟩

theorem cutParts_scheme (url : List Char) : (cutParts url).scheme = String.ofList (splitScheme url).1 := rfl

theorem cutParts_netloc (url : List Char) :
    (cutParts url).netloc = String.ofList (splitNetloc (splitScheme url).2).1 := rfl

theorem cutParts_path (url : List Char) :
    (cutParts url).path = String.ofList (pathText (splitNetloc (splitScheme url).2).2) := rfl

/-- **A text is cut into parts that can be put together and cut again.** -/
theorem cuttable_cutParts (hremoved : ∀ c ∈ url, isRemoved c = false) (hhead : ∀ c ∈ url.head?, 32 < c.toNat)
    (hscheme : (cutParts url).scheme = "" ∨ IsHttp (cutParts url).scheme ∧ (cutParts url).netloc ≠ "") :
    Cuttable (cutParts url) := by
  have hafter := (splitScheme_suffix url).subset
  have hrest := (splitNetloc_suffix (splitScheme url).2).subset
  have hclean : ∀ c ∈ (splitNetloc (splitScheme url).2).2, isRemoved c = false :=
    fun c hc => hremoved c (hafter (hrest hc))
  refine ⟨hscheme, ?_, ?_, ?_, ?_, ?_, ?_⟩
  · intro c hc
    rw [cutParts_netloc, String.toList_ofList] at hc
    obtain ⟨hends, hin⟩ := mem_splitNetloc hc
    exact ⟨hends, hremoved c (hafter hin)⟩
  · intro hne
    rw [cutParts_netloc] at hne
    rw [cutParts_path, String.toList_ofList]
    rcases splitNetloc_cases (splitScheme url).2 with ⟨hnil, -⟩ | ⟨-, hcut⟩
    · rw [hnil] at hne
      exact absurd rfl hne
    · rw [hcut]
      rcases pathText_stops (stops_dropWhile ((splitScheme url).2.drop 2)) with hempty | hslash
      · left
        rw [hempty]
      · exact .inr hslash
  · intro c hc
    rw [cutParts_path, String.toList_ofList] at hc
    obtain ⟨hquestion, hhash, hin⟩ := mem_pathText hc
    exact ⟨hquestion, hhash, hclean c hin⟩
  · intro c hc
    have hc' : c ∈ (partition '?' (partition '#' (splitNetloc (splitScheme url).2).2).1).2.2 := by
      simpa [cutParts] using hc
    obtain ⟨hhash, hin⟩ := mem_partition.1 (mem_partition.2 hc')
    exact ⟨hhash, hclean c hin⟩
  · intro c hc
    have hc' : c ∈ (partition '#' (splitNetloc (splitScheme url).2).2).2.2 := by
      simpa [cutParts] using hc
    exact hclean c (mem_partition.2 hc')
  · intro hnone hnetloc
    rw [cutParts_path, firstSegment_pathText]
    have hnil : (splitScheme url).1 = [] := by
      rw [cutParts_scheme] at hnone
      exact String.ofList_eq_empty_iff.mp hnone
    have hsplit := splitScheme_rest hnil
    have hempty : (splitNetloc (splitScheme url).2).1 = [] := by
      rw [cutParts_netloc] at hnetloc
      exact String.ofList_eq_empty_iff.mp hnetloc
    rcases splitNetloc_cases (splitScheme url).2 with ⟨-, hcut⟩ | ⟨hnetloc, hcut⟩
    · rw [hcut, hsplit]
      constructor
      · have hwhole := @List.takeWhile_append_dropWhile _ (fun c => !endsNetloc c) url
        rw [← splitScheme_stop (stops_dropWhile url), hwhole, hnil]
      · intro c hc
        apply hhead
        cases url with
        | nil => cases hc
        | cons d url =>
          rw [List.takeWhile_cons] at hc
          split at hc
          · exact hc
          · cases hc
    · -- the network location is empty, and so is what follows it up to the first delimiter
      have hstop : ((splitScheme url).2.drop 2).takeWhile (fun c => !endsNetloc c) = [] := by rw [← hnetloc, hempty]
      have hagain : ((splitNetloc (splitScheme url).2).2).takeWhile (fun c => !endsNetloc c) = [] := by
        rw [hcut]
        have hstops := stops_dropWhile ((splitScheme url).2.drop 2)
        cases hdrop : ((splitScheme url).2.drop 2).dropWhile fun c => !endsNetloc c with
        | nil => rfl
        | cons c rest =>
          rw [hdrop] at hstops
          rw [List.takeWhile_cons_of_neg]
          rw [hstops c rfl]
          decide
      rw [hagain]
      exact ⟨rfl, fun c hc => by cases hc⟩

end AnyText

theorem cuttable_of_split {tables : Tables} {value : String} {parts : SplitResult}
    (h : urlsplit tables value = .ok parts) (hscheme : parts.scheme = "" ∨ IsHttp parts.scheme ∧ parts.netloc ≠ "") :
    Cuttable parts := by
  obtain ⟨rfl, -⟩ := urlsplit_ok_iff.mp h
  exact cuttable_cutParts keptText_removed keptText_head hscheme

end NightScout
