import NightScout.Policy.Urls

/-!
# Reading a URL back

`urlsplit` on the URLs that the scope module puts together: what follows the scheme is cut at the
first `/`, `?` or `#`, and from there on at `#` and `?`. A URL of clean parts is taken apart into
these parts again.
-/

namespace NightScout

open Lib

/-- The characters that `urlsplit` removes wherever they stand. -/
def isRemoved (c : Char) : Bool := c ∈ ['\t', '\r', '\n']

/-- Ends a network location. -/
def endsNetloc (c : Char) : Bool := c ∈ ['/', '?', '#']

/-- The schemes of the scope's URLs. -/
def IsHttp (scheme : String) : Prop := scheme = "http" ∨ scheme = "https"

/-- What `urlsplit` does after the scheme and the slashes. -/
def splitAfter (tables : Tables) (scheme : String) (url : List Char) : Except PyError SplitResult :=
  let netloc := url.takeWhile fun c => !endsNetloc c
  if ('[' ∈ netloc ∨ ']' ∈ netloc) ∧
      ¬ ('[' ∈ netloc ∧ ']' ∈ netloc ∧ tables.bracketed (String.ofList netloc)) then
    .error (.valueError "Invalid IPv6 URL")
  else
    let (url, _, fragment) := partition '#' (url.drop netloc.length)
    let (path, _, query) := partition '?' url
    if checkNetloc tables (String.ofList netloc) then
      .ok { scheme, netloc := String.ofList netloc, path := String.ofList path
            query := String.ofList query, fragment := String.ofList fragment }
    else .error (.valueError (s!"netloc {String.ofList netloc} contains invalid characters under " ++
      "NFKC normalization"))

section Reading

variable {tables : Tables} {scheme : String}

theorem urlsplit_http (h : IsHttp scheme) (rest : List Char) :
    urlsplit tables (String.ofList (scheme.toList ++ ':' :: '/' :: '/' :: rest)) =
      splitAfter tables scheme (rest.filter fun c => !isRemoved c) := by
  rcases h with rfl | rfl
  · simp [urlsplit, splitAfter, splitScheme, splitNetloc, isRemoved, endsNetloc, partition]
  · simp [urlsplit, splitAfter, splitScheme, splitNetloc, isRemoved, endsNetloc, partition]

theorem drop_takeWhile (p : Char → Bool) (cs : List Char) : cs.drop (cs.takeWhile p).length = cs.dropWhile p := by
  induction cs with
  | nil => rfl
  | cons c cs ih =>
    cases hc : p c with
    | false => simp [hc]
    | true => simpa [hc] using ih

/-- Behind a network location stands nothing, or a path from the root. -/
theorem splitAfter_path {url : List Char} {parts : SplitResult} (h : splitAfter tables scheme url = .ok parts) :
    parts.path = "" ∨ parts.path.toList.head? = some '/' := by
  unfold splitAfter at h
  simp only [drop_takeWhile] at h
  split at h
  · cases h
  split at h
  · obtain rfl := Except.ok.inj h
    simp only [partition]
    cases hrest : url.dropWhile fun c => !endsNetloc c with
    | nil => exact .inl rfl
    | cons c cs =>
      have hc : endsNetloc c = true := by
        have hhead := List.head?_dropWhile_not (fun c => !endsNetloc c) url
        rw [hrest] at hhead
        simpa using hhead
      have hcases : c = '/' ∨ c = '?' ∨ c = '#' := by simpa [endsNetloc] using hc
      rcases hcases with rfl | rfl | rfl
      · right
        simp
      · left
        simp
      · left
        simp
  · cases h

theorem urlunsplit_toList {parts : SplitResult} (hscheme : parts.scheme ≠ "")
    (hpath : parts.path = "" ∨ parts.path.toList.head? = some '/') (hfragment : parts.fragment = "") :
    urlunsplit parts = String.ofList (parts.scheme.toList ++ ':' :: '/' :: '/' ::
      (parts.netloc.toList ++ parts.path.toList ++
        if parts.query = "" then [] else '?' :: parts.query.toList)) := by
  have habs : ¬ (parts.path ≠ "" ∧ parts.path.toList.head? ≠ some '/') := by
    rintro ⟨hne, hhead⟩
    rcases hpath with hnil | hslash
    · exact hne hnil
    · exact hhead hslash
  apply String.toList_inj.mp
  rw [String.toList_ofList, urlunsplit]
  simp only [if_neg habs, if_pos hscheme, hfragment, ne_eq, not_true_eq_false, if_false]
  by_cases hquery : parts.query = ""
  · simp [hquery, String.toList_append]
  · simp [hquery, String.toList_append]

theorem urlunsplit_http (parts : SplitResult) (hscheme : parts.scheme ≠ "") : ∃ rest,
    urlunsplit parts = String.ofList (parts.scheme.toList ++ ':' :: '/' :: '/' :: rest) := by
  unfold urlunsplit
  simp only [if_pos hscheme]
  generalize (if parts.path ≠ "" ∧ parts.path.toList.head? ≠ some '/' then "/" ++ parts.path
    else parts.path) = path
  have hbase : ∀ tail : List Char, ∃ rest,
      parts.scheme ++ ":" ++ ("//" ++ parts.netloc ++ path) ++ String.ofList tail =
        String.ofList (parts.scheme.toList ++ ':' :: '/' :: '/' :: rest) := by
    intro tail
    refine ⟨parts.netloc.toList ++ path.toList ++ tail, ?_⟩
    apply String.toList_inj.mp
    simp [String.toList_append]
  have hquery : ∃ tail : List Char, (if parts.query ≠ "" then "?" ++ parts.query else "") ++
      (if parts.fragment ≠ "" then "#" ++ parts.fragment else "") = String.ofList tail :=
    ⟨_, String.ofList_toList.symm⟩
  obtain ⟨tail, htail⟩ := hquery
  obtain ⟨rest, hrest⟩ := hbase tail
  refine ⟨rest, ?_⟩
  rw [← hrest, ← htail]
  apply String.toList_inj.mp
  split <;> split <;> simp [String.toList_append]

/-- What a canonical URL is put together from. -/
structure CleanParts (tables : Tables) (parts : SplitResult) : Prop where
  scheme : IsHttp parts.scheme
  netloc : ∀ c ∈ parts.netloc.toList, endsNetloc c = false ∧ isRemoved c = false ∧ c ≠ '[' ∧ c ≠ ']'
  netloc_ok : checkNetloc tables parts.netloc = true
  path_abs : parts.path = "" ∨ parts.path.toList.head? = some '/'
  path : ∀ c ∈ parts.path.toList, c ≠ '?' ∧ c ≠ '#' ∧ isRemoved c = false
  query : ∀ c ∈ parts.query.toList, c ≠ '#' ∧ isRemoved c = false
  fragment : parts.fragment = ""

theorem IsHttp.ne_empty (h : IsHttp scheme) : scheme ≠ "" := by
  rcases h with rfl | rfl
  · decide
  · decide

theorem takeWhile_append_stop {p : Char → Bool} {a b : List Char} (ha : ∀ c ∈ a, p c = true)
    (hb : b = [] ∨ ∃ c rest, b = c :: rest ∧ p c = false) : (a ++ b).takeWhile p = a := by
  rw [List.takeWhile_append_of_pos ha]
  rcases hb with rfl | ⟨c, rest, rfl, hc⟩
  · simp
  · simp [hc]

theorem partition_eq {sep : Char} {a b : List Char} (ha : sep ∉ a) : partition sep (a ++ sep :: b) = (a, true, b) := by
  have hbefore : (a ++ sep :: b).takeWhile (· ≠ sep) = a := by
    apply takeWhile_append_stop
    · intro c hc
      simp only [decide_eq_true_eq]
      rintro rfl
      exact ha hc
    · exact .inr ⟨sep, b, rfl, by simp⟩
  simp only [partition, hbefore]
  simp

theorem partition_of_notMem {sep : Char} {a : List Char} (ha : sep ∉ a) : partition sep a = (a, false, []) := by
  have hbefore : a.takeWhile (· ≠ sep) = a := by
    rw [List.takeWhile_eq_self_iff]
    intro c hc
    simp only [decide_eq_true_eq]
    rintro rfl
    exact ha hc
  simp only [partition, hbefore]
  simp [ha]

/-- What follows the network location of a URL without a fragment. -/
def tailOf (parts : SplitResult) : List Char :=
  parts.path.toList ++ if parts.query = "" then [] else '?' :: parts.query.toList

theorem tailOf_stop {parts : SplitResult} (h : CleanParts tables parts) :
    tailOf parts = [] ∨ ∃ c rest, tailOf parts = c :: rest ∧ (!endsNetloc c) = false := by
  unfold tailOf
  cases hpath : parts.path.toList with
  | cons c path =>
    rcases h.path_abs with hempty | hslash
    · simp [hempty] at hpath
    · rw [hpath] at hslash
      obtain rfl := Option.some.inj hslash
      exact .inr ⟨'/', _, rfl, rfl⟩
  | nil =>
    split
    · exact .inl rfl
    · exact .inr ⟨'?', _, rfl, rfl⟩

theorem partition_tailOf {parts : SplitResult} (h : CleanParts tables parts) :
    partition '#' (tailOf parts) = (tailOf parts, false, []) ∧
      ∃ b, partition '?' (tailOf parts) = (parts.path.toList, b, parts.query.toList) := by
  have hpath : '?' ∉ parts.path.toList := fun hc => (h.path _ hc).1 rfl
  constructor
  · apply partition_of_notMem
    intro hc
    rcases List.mem_append.mp hc with hc | hc
    · exact (h.path _ hc).2.1 rfl
    · split at hc
      · cases hc
      · rcases List.mem_cons.mp hc with hc | hc
        · cases hc
        · exact (h.query _ hc).1 rfl
  · unfold tailOf
    split
    next hquery =>
      refine ⟨false, ?_⟩
      rw [List.append_nil, partition_of_notMem hpath, hquery]
      rfl
    next => exact ⟨true, partition_eq hpath⟩

/-- **Clean parts are read back.** -/
theorem urlsplit_urlunsplit {parts : SplitResult} (h : CleanParts tables parts) :
    urlsplit tables (urlunsplit parts) = .ok parts := by
  have hkept : (parts.netloc.toList ++ tailOf parts).filter (fun c => !isRemoved c) =
      parts.netloc.toList ++ tailOf parts := by
    rw [List.filter_eq_self]
    intro c hc
    rw [Bool.not_eq_true']
    rcases List.mem_append.mp hc with hc | hc
    · exact (h.netloc c hc).2.1
    rcases List.mem_append.mp hc with hc | hc
    · exact (h.path c hc).2.2
    · split at hc
      · cases hc
      · rcases List.mem_cons.mp hc with rfl | hc
        · rfl
        · exact (h.query c hc).2
  have hnetloc : (parts.netloc.toList ++ tailOf parts).takeWhile (fun c => !endsNetloc c) =
      parts.netloc.toList :=
    takeWhile_append_stop (fun c hc => by rw [(h.netloc c hc).1]; rfl) (tailOf_stop h)
  have hopen : '[' ∉ parts.netloc.toList := fun hc => (h.netloc _ hc).2.2.1 rfl
  have hclose : ']' ∉ parts.netloc.toList := fun hc => (h.netloc _ hc).2.2.2 rfl
  obtain ⟨hhash, b, hquestion⟩ := partition_tailOf h
  rw [urlunsplit_toList h.scheme.ne_empty h.path_abs h.fragment, urlsplit_http h.scheme,
    List.append_assoc, show parts.path.toList ++ _ = tailOf parts from rfl, hkept, splitAfter, hnetloc]
  simp only [hopen, hclose, or_self, false_and, if_false, List.drop_left, hhash, hquestion,
    String.ofList_toList, h.netloc_ok, if_true]
  cases parts
  cases h.fragment
  rfl

end Reading

/-! ## Any URL -/

section AnyUrl

variable {tables : Tables} {value scheme : String} {parts : SplitResult}

theorem ite_snd_suffix {p : Prop} [Decidable p] {x y : List Char × List Char} {url : List Char}
    (hx : x.2 <:+ url) (hy : y.2 <:+ url) : (if p then x else y).2 <:+ url := by
  split
  · exact hx
  · exact hy

theorem splitScheme_suffix (url : List Char) : (splitScheme url).2 <:+ url :=
  ite_snd_suffix (List.drop_suffix _ _) (List.suffix_refl url)

theorem not_endsNetloc_eq : (fun c => decide (c ∉ ['/', '?', '#'])) = fun c => !endsNetloc c := by
  funext c
  simp [endsNetloc]

/-- A URL with a network location is cut by `splitAfter`, at its scheme and two slashes. -/
theorem urlsplit_ok (h : urlsplit tables value = .ok parts) (hnetloc : parts.netloc ≠ "") :
    ∃ rest, (∀ c ∈ rest, isRemoved c = false) ∧ splitAfter tables parts.scheme rest = .ok parts := by
  unfold urlsplit at h
  simp only at h
  generalize hkept : ((value.toList.dropWhile fun c => decide (c.toNat ≤ 32)).filter fun c =>
    decide (c ∉ ['\t', '\r', '\n'])) = kept at h
  have hremoved : ∀ c ∈ kept, isRemoved c = false := by
    intro c hc
    rw [← hkept] at hc
    have hnot := (List.mem_filter.mp hc).2
    rw [decide_eq_true_eq] at hnot
    exact decide_eq_false hnot
  have hrest : ∀ c ∈ (splitScheme kept).2, isRemoved c = false :=
    fun c hc => hremoved c ((splitScheme_suffix kept).subset hc)
  generalize (splitScheme kept).2 = url at h hrest
  unfold splitNetloc at h
  by_cases hslashes : url.take 2 = ['/', '/']
  · rw [if_pos hslashes] at h
    refine ⟨url.drop 2, fun c hc => hrest c (List.mem_of_mem_drop hc), ?_⟩
    simp only [not_endsNetloc_eq] at h
    split at h
    · cases h
    next hbracket =>
      split at h
      next hcheck =>
        obtain rfl := Except.ok.inj h
        rw [splitAfter, if_neg hbracket]
        simp only [if_pos hcheck]
      · cases h
  · rw [if_neg hslashes] at h
    exfalso
    split at h
    · cases h
    split at h
    · obtain rfl := Except.ok.inj h
      exact hnetloc rfl
    · cases h

theorem mem_partition {sep c : Char} {url : List Char} :
    (c ∈ (partition sep url).1 → c ≠ sep ∧ c ∈ url) ∧ (c ∈ (partition sep url).2.2 → c ∈ url) := by
  constructor
  · intro h
    have hc := List.mem_takeWhile_imp h
    exact ⟨of_decide_eq_true hc, (List.takeWhile_prefix _).subset h⟩
  · exact List.mem_of_mem_drop

/-- The parts behind the scheme of a URL, as they are cut. -/
theorem splitAfter_clean {rest : List Char} (hrest : ∀ c ∈ rest, isRemoved c = false)
    (h : splitAfter tables scheme rest = .ok parts) :
    (∀ c ∈ parts.netloc.toList, endsNetloc c = false ∧ isRemoved c = false) ∧ checkNetloc tables parts.netloc = true ∧
    (∀ c ∈ parts.path.toList, c ≠ '?' ∧ c ≠ '#' ∧ isRemoved c = false) ∧
    (∀ c ∈ parts.query.toList, c ≠ '#' ∧ isRemoved c = false) := by
  unfold splitAfter at h
  simp only at h
  split at h
  · cases h
  next =>
    split at h
    next hcheck =>
      obtain rfl := Except.ok.inj h
      simp only [String.toList_ofList]
      refine ⟨?_, hcheck, ?_, ?_⟩
      · intro c hc
        refine ⟨?_, hrest c ((List.takeWhile_prefix _).subset hc)⟩
        simpa using List.mem_takeWhile_imp hc
      · intro c hc
        obtain ⟨hquestion, hc⟩ := mem_partition.1 hc
        obtain ⟨hhash, hc⟩ := mem_partition.1 hc
        exact ⟨hquestion, hhash, hrest c (List.mem_of_mem_drop hc)⟩
      · intro c hc
        obtain ⟨hhash, hc⟩ := mem_partition.1 (mem_partition.2 hc)
        exact ⟨hhash, hrest c (List.mem_of_mem_drop hc)⟩
    · cases h

theorem splitAfter_netloc {rest : List Char} (h : splitAfter tables scheme rest = .ok parts) :
    parts.netloc.toList = rest.takeWhile fun c => !endsNetloc c := by
  unfold splitAfter at h
  simp only at h
  split at h
  · cases h
  split at h
  · obtain rfl := Except.ok.inj h
    exact String.toList_ofList
  · cases h

/-- Brackets come in pairs. -/
theorem splitAfter_brackets {rest : List Char} (h : splitAfter tables scheme rest = .ok parts)
    (hor : '[' ∈ parts.netloc.toList ∨ ']' ∈ parts.netloc.toList) :
    '[' ∈ parts.netloc.toList ∧ ']' ∈ parts.netloc.toList := by
  rw [splitAfter_netloc h] at hor ⊢
  unfold splitAfter at h
  simp only at h
  split at h
  · cases h
  next hbracket =>
    by_contra hand
    exact hbracket ⟨hor, fun ⟨hopen, hclose, _⟩ => hand ⟨hopen, hclose⟩⟩

end AnyUrl

/-! ## Canonical URLs -/

section Canonical

variable {tables : Tables} {value url : String}

/-- A canonical URL is put together from the scheme, the path and the query of the URL, and from the
    canonical host and the port. -/
theorem canonicalUrl_ok_iff : canonicalUrl tables value = .ok url ↔
    ∃ parsed rawHost host port, urlsplit tables value = .ok parsed ∧ IsHttp parsed.scheme ∧
      parsed.hostname tables = some rawHost ∧ parsed.hasUserinfo = false ∧
      canonicalDomain tables rawHost = .ok host ∧ parsed.port = .ok port ∧ url = canonicalParts parsed host port := by
  constructor
  · intro h
    obtain ⟨parsed, hparsed, h⟩ := bind_ok h
    obtain ⟨hscheme, h⟩ := guard_ok h
    split at h
    · cases h
    next rawHost hrawHost =>
      obtain ⟨huser, h⟩ := guard_ok h
      obtain ⟨host, hhost, h⟩ := bind_ok h
      obtain ⟨port, hport, h⟩ := bind_ok h
      refine ⟨parsed, rawHost, host, port, hparsed, ?_, hrawHost, ?_, hhost, hport, ?_⟩
      · by_contra hnot
        exact hscheme ⟨fun heq => hnot (.inl heq), fun heq => hnot (.inr heq)⟩
      · simpa using huser
      · exact (Except.ok.inj h).symm
  · rintro ⟨parsed, rawHost, host, port, hparsed, hscheme, hrawHost, huser, hhost, hport, rfl⟩
    have hok : ¬ (parsed.scheme ≠ "http" ∧ parsed.scheme ≠ "https") := by
      rintro ⟨hhttp, hhttps⟩
      exact hscheme.elim hhttp hhttps
    simp [canonicalUrl, hparsed, hok, hrawHost, huser, hhost, hport]

/-- The candidate that a URL rule is compared with has a path from the root. -/
theorem candidate_path {candidate : SplitResult} (h : canonicalUrl tables value = .ok url)
    (hcandidate : urlsplit tables url = .ok candidate) : (pathOf candidate).toList.head? = some '/' := by
  obtain ⟨parsed, -, host, port, -, hscheme, -, -, -, -, rfl⟩ := canonicalUrl_ok_iff.mp h
  let parts : SplitResult := { parsed with
    netloc := canonicalNetloc parsed.scheme host port, path := pathOf parsed, fragment := "" }
  obtain ⟨rest, hrest⟩ := urlunsplit_http parts hscheme.ne_empty
  rw [show canonicalParts parsed host port = urlunsplit parts from rfl, hrest,
    urlsplit_http hscheme] at hcandidate
  unfold pathOf
  split
  · rfl
  next hne => exact (splitAfter_path hcandidate).resolve_left hne

end Canonical

end NightScout
