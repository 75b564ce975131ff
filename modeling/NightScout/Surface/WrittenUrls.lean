import NightScout.Surface.CaseTables

/-!
# URLs that the identities write

`_normalize_url` takes a URL apart and puts it together again, from the scheme, the host without its dots, the
port unless it is the scheme's own, the path and the query. What is written can be cut again at the same places
(`Written.inj`); whether the host is found in its network location is another matter.
-/

namespace NightScout

open Lib

/-! ## Schemes -/

/-- A scheme, as `urlsplit` gives it. -/
structure IsScheme (scheme : String) : Prop where
  head : (scheme.toList.head?.any fun c => c.isAlpha) = true
  chars : ∀ c ∈ scheme.toList, (c.isAlphanum || c ∈ ['+', '-', '.']) = true
  lower : IsLowered scheme.toList

section Schemes

variable {tables : Tables} {scheme value : String} {parts : SplitResult}

theorem toLower_of_isDigit {c : Char} (h : c.isDigit = true) : c.toLower = c := by
  have hcode := isDigit_iff.mp h
  exact toLower_of_not_upper (by omega)

theorem isAlpha_toLower {c : Char} (h : c.isAlpha = true) : c.toLower.isAlpha = true := by
  by_cases hupper : 65 ≤ c.toNat ∧ c.toNat ≤ 90
  · have hcode := toNat_toLower hupper
    exact isAlpha_iff.mpr (.inr (isLower_iff.mpr (by omega)))
  · rwa [toLower_of_not_upper hupper]

theorem splitScheme_isScheme {url : List Char} (h : (splitScheme url).1 ≠ []) :
    IsScheme (String.ofList (splitScheme url).1) := by
  unfold splitScheme at h ⊢
  simp only at h ⊢
  split at h
  next hscheme =>
    obtain ⟨hfound, hhead, hall⟩ := hscheme
    rw [if_pos ⟨hfound, hhead, hall⟩]
    generalize (partition ':' url).1 = scheme at hhead hall
    refine ⟨?_, ?_, ?_⟩
    · rw [String.toList_ofList, List.head?_map, Option.any_map]
      cases hfirst : scheme.head? with
      | none =>
        rw [hfirst] at hhead
        cases hhead
      | some c =>
        rw [hfirst] at hhead
        exact isAlpha_toLower hhead
    · intro c hc
      rw [String.toList_ofList] at hc
      obtain ⟨d, hd, rfl⟩ := List.mem_map.mp hc
      have hchar := List.all_eq_true.mp hall d hd
      rw [Bool.or_eq_true] at hchar ⊢
      rcases hchar with halnum | hpunct
      · left
        rw [Char.isAlphanum, Bool.or_eq_true] at halnum ⊢
        rcases halnum with halpha | hdigit
        · left
          exact isAlpha_toLower halpha
        · right
          rwa [toLower_of_isDigit hdigit]
      · right
        have hcases : d = '+' ∨ d = '-' ∨ d = '.' := by simpa using hpunct
        rcases hcases with rfl | rfl | rfl <;> decide
    · rw [String.toList_ofList]
      exact isLowered_map scheme
  next => exact absurd rfl h

theorem urlsplit_scheme (h : urlsplit tables value = .ok parts) (hscheme : parts.scheme ≠ "") :
    IsScheme parts.scheme := by
  unfold urlsplit at h
  simp only at h
  split at h
  · cases h
  split at h
  · obtain rfl := Except.ok.inj h
    apply splitScheme_isScheme
    intro hnil
    apply hscheme
    simp only [hnil]
  · cases h

namespace IsScheme

theorem mem (h : IsScheme scheme) {c : Char} (hc : c ∈ scheme.toList) :
    c.toNat < 128 ∧ c ≠ ':' ∧ isRemoved c = false := by
  have hchar := h.chars c hc
  rw [Bool.or_eq_true] at hchar
  rcases hchar with halnum | hpunct
  · refine ⟨?_, ?_, ?_⟩
    · rw [Char.isAlphanum, Bool.or_eq_true, isAlpha_iff, isUpper_iff, isLower_iff, isDigit_iff] at halnum
      omega
    · rintro rfl
      revert halnum
      decide
    · by_contra hremoved
      rw [Bool.not_eq_false] at hremoved
      have hcases : c = '\t' ∨ c = '\r' ∨ c = '\n' := by simpa [isRemoved] using hremoved
      rcases hcases with rfl | rfl | rfl <;> (revert halnum; decide)
  · have hcases : c = '+' ∨ c = '-' ∨ c = '.' := by simpa using hpunct
    rcases hcases with rfl | rfl | rfl <;> decide

theorem ne_empty (h : IsScheme scheme) : scheme ≠ "" := by
  rintro rfl
  have hhead := h.head
  revert hhead
  decide

theorem isAscii (h : IsScheme scheme) : isAscii scheme = true :=
  isAscii_iff.mpr fun _ hc => (h.mem hc).1

theorem strLower (h : IsScheme scheme) : strLower tables scheme = scheme :=
  strLower_of_isLowered h.isAscii h.lower

theorem splitScheme (h : IsScheme scheme) (rest : List Char) :
    splitScheme (scheme.toList ++ ':' :: rest) = (scheme.toList, rest) := by
  have hcolon : ':' ∉ scheme.toList := fun hc => (h.mem hc).2.1 rfl
  have hchars := List.all_eq_true.mpr h.chars
  unfold NightScout.splitScheme
  rw [partition_eq hcolon]
  simp only [h.head, hchars, and_self, if_true, map_toLower_of_isLowered h.lower]

/-- A text that starts with a scheme starts with a letter. -/
theorem head_append (h : IsScheme scheme) (rest : List Char) :
    ∃ c cs, scheme.toList ++ rest = c :: cs ∧ c.isAlpha = true := by
  have hhead := h.head
  cases hlist : scheme.toList with
  | nil =>
    rw [hlist] at hhead
    cases hhead
  | cons c cs =>
    rw [hlist] at hhead
    exact ⟨c, cs ++ rest, rfl, hhead⟩

end IsScheme

theorem alpha_not_space {c : Char} (h : c.isAlpha = true) : isSpace c = false ∧ ¬ c.toNat ≤ 32 := by
  rw [isAlpha_iff, isUpper_iff, isLower_iff] at h
  refine ⟨?_, by omega⟩
  simp only [isSpace, Bool.or_eq_false_iff, Bool.and_eq_false_iff, decide_eq_false_iff_not]
  omega

/-- What `urlsplit` does with a text that is a scheme, a colon and a rest without controls. -/
theorem urlsplit_after (h : IsScheme scheme) {rest : List Char} (hrest : ∀ c ∈ rest, isRemoved c = false) :
    urlsplit tables (String.ofList (scheme.toList ++ ':' :: rest)) =
      if rest.take 2 = ['/', '/'] then splitAfter tables scheme (rest.drop 2)
      else .ok { scheme, netloc := "", path := String.ofList (partition '?' (partition '#' rest).1).1
                 query := String.ofList (partition '?' (partition '#' rest).1).2.2
                 fragment := String.ofList (partition '#' rest).2.2 } := by
  obtain ⟨c, cs, hcons, halpha⟩ := h.head_append (':' :: rest)
  have hdrop : (scheme.toList ++ ':' :: rest).dropWhile (fun c => decide (c.toNat ≤ 32)) =
      scheme.toList ++ ':' :: rest := by
    rw [hcons, List.dropWhile_cons_of_neg (by simpa using (alpha_not_space halpha).2)]
  have hkept : (scheme.toList ++ ':' :: rest).filter (fun c => decide (c ∉ ['\t', '\r', '\n'])) =
      scheme.toList ++ ':' :: rest := by
    rw [List.filter_eq_self]
    intro d hd
    have hnot : isRemoved d = false := by
      rcases List.mem_append.mp hd with hd | hd
      · exact (h.mem hd).2.2
      · rcases List.mem_cons.mp hd with rfl | hd
        · decide
        · exact hrest d hd
    rw [decide_eq_true_eq]
    exact of_decide_eq_false hnot
  unfold urlsplit
  simp only [String.toList_ofList, hdrop, hkept, h.splitScheme]
  unfold splitNetloc
  by_cases hslashes : rest.take 2 = ['/', '/']
  · simp only [if_pos hslashes, splitAfter, not_endsNetloc_eq, String.ofList_toList]
  · simp [if_neg hslashes, checkNetloc, isAscii]

end Schemes

/-! ## Written URLs -/

/-- The parts that a URL is put together from. -/
structure Written (parts : SplitResult) : Prop where
  scheme : IsScheme parts.scheme
  netloc : ∀ c ∈ parts.netloc.toList, endsNetloc c = false ∧ isRemoved c = false
  path_abs : parts.path.toList.head? = some '/'
  path : ∀ c ∈ parts.path.toList, c ≠ '?' ∧ c ≠ '#' ∧ isRemoved c = false
  query : ∀ c ∈ parts.query.toList, c ≠ '#' ∧ isRemoved c = false
  fragment : parts.fragment = ""

/-- The slashes behind the colon, unless there is neither a network location nor a need of them. -/
def slashesOf (parts : SplitResult) : List Char :=
  if parts.netloc = "" ∧ parts.path.toList.take 2 ≠ ['/', '/'] ∧ parts.scheme ∉ usesNetloc then []
  else ['/', '/']

namespace Written

variable {tables : Tables} {parts parts' : SplitResult}

theorem tail_head (h : Written parts) : ∃ rest, tailOf parts = '/' :: rest := by
  have habs := h.path_abs
  unfold tailOf
  cases hpath : parts.path.toList with
  | nil =>
    rw [hpath] at habs
    cases habs
  | cons c path =>
    rw [hpath] at habs
    obtain rfl := Option.some.inj habs
    exact ⟨_, rfl⟩

theorem tail_clean (h : Written parts) : ∀ c ∈ tailOf parts, c ≠ '#' ∧ isRemoved c = false := by
  intro c hc
  rcases List.mem_append.mp hc with hc | hc
  · exact (h.path c hc).2
  · split at hc
    · cases hc
    · rcases List.mem_cons.mp hc with rfl | hc
      · decide
      · exact h.query c hc

theorem toList (h : Written parts) : (urlunsplitParts parts).toList =
    parts.scheme.toList ++ ':' :: (slashesOf parts ++ parts.netloc.toList ++ tailOf parts) := by
  by_cases hnetloc : parts.netloc = ""
  · have hpath : parts.path ≠ "" := by
      intro hempty
      have habs := h.path_abs
      rw [hempty] at habs
      cases habs
    unfold urlunsplitParts slashesOf tailOf
    simp only [hnetloc, ne_eq, not_true_eq_false, if_false, h.scheme.ne_empty, not_false_eq_true, if_true,
      true_and, h.fragment, hpath, h.path_abs, false_or, and_true]
    by_cases hslashes : parts.path.toList.take 2 = ['/', '/']
    · split <;> simp_all [String.toList_append]
    · by_cases huses : parts.scheme ∈ usesNetloc
      · split <;> simp_all [String.toList_append]
      · split <;> simp_all [String.toList_append]
  · have hslashes : slashesOf parts = ['/', '/'] := if_neg fun hand => hnetloc hand.1
    rw [urlunsplitParts_netloc hnetloc, urlunsplit_toList h.scheme.ne_empty (.inr h.path_abs) h.fragment,
      String.toList_ofList, hslashes]
    simp [tailOf]

theorem takeWhile_netloc (h : Written parts) :
    (parts.netloc.toList ++ tailOf parts).takeWhile (fun c => !endsNetloc c) = parts.netloc.toList := by
  obtain ⟨rest, hrest⟩ := h.tail_head
  apply takeWhile_append_stop
  · intro c hc
    rw [(h.netloc c hc).1]
    rfl
  · exact .inr ⟨'/', rest, hrest, rfl⟩

theorem partition_tail (h : Written parts) :
    ∃ b, partition '?' (tailOf parts) = (parts.path.toList, b, parts.query.toList) := by
  have hpath : '?' ∉ parts.path.toList := fun hc => (h.path _ hc).1 rfl
  unfold tailOf
  split
  next hquery =>
    refine ⟨false, ?_⟩
    rw [List.append_nil, partition_of_notMem hpath, hquery]
    rfl
  next => exact ⟨true, partition_eq hpath⟩

theorem slashes_cases (parts : SplitResult) : slashesOf parts = [] ∨ slashesOf parts = ['/', '/'] := by
  unfold slashesOf
  split
  · exact .inl rfl
  · exact .inr rfl

/-- Where the slashes are left out, nothing looks like them. -/
theorem slashes_nil (h : Written parts) (hslashes : slashesOf parts ≠ ['/', '/']) :
    slashesOf parts = [] ∧ parts.netloc = "" ∧ (tailOf parts).take 2 ≠ ['/', '/'] := by
  refine ⟨(slashes_cases parts).resolve_right hslashes, ?_⟩
  unfold slashesOf at hslashes
  split at hslashes
  next hand =>
    refine ⟨hand.1, ?_⟩
    intro htake
    apply hand.2.1
    unfold tailOf at htake
    have habs := h.path_abs
    cases hpath : parts.path.toList with
    | nil =>
      rw [hpath] at habs
      cases habs
    | cons c path =>
      rw [hpath] at habs htake
      obtain rfl := Option.some.inj habs
      cases path with
      | nil =>
        exfalso
        split at htake <;> simp at htake
      | cons d path => simpa using htake
  next => exact absurd rfl hslashes

/-- What follows the colon tells the network location, the path and the query. -/
theorem rest_inj (h : Written parts) (h' : Written parts')
    (heq : slashesOf parts ++ parts.netloc.toList ++ tailOf parts =
      slashesOf parts' ++ parts'.netloc.toList ++ tailOf parts') :
    parts.netloc = parts'.netloc ∧ tailOf parts = tailOf parts' := by
  have hshort : ∀ {parts : SplitResult}, Written parts → slashesOf parts = [] →
      parts.netloc = "" ∧ (tailOf parts).take 2 ≠ ['/', '/'] :=
    fun h hnil => (h.slashes_nil (by rw [hnil]; decide)).2
  rcases slashes_cases parts with hs | hs <;> rcases slashes_cases parts' with hs' | hs'
  · obtain ⟨hn, -⟩ := hshort h hs
    obtain ⟨hn', -⟩ := hshort h' hs'
    simpa [hs, hs', hn, hn'] using heq
  · obtain ⟨hn, htake⟩ := hshort h hs
    exfalso
    apply htake
    simp only [hs, hs', hn, String.toList_empty, List.nil_append] at heq
    rw [heq]
    rfl
  · obtain ⟨hn, htake⟩ := hshort h' hs'
    exfalso
    apply htake
    simp only [hs, hs', hn, String.toList_empty, List.nil_append] at heq
    rw [← heq]
    rfl
  · rw [hs, hs', List.append_assoc, List.append_assoc] at heq
    have hrest := List.append_cancel_left heq
    have hnetloc : parts.netloc.toList = parts'.netloc.toList := by
      rw [← h.takeWhile_netloc, ← h'.takeWhile_netloc, hrest]
    rw [hnetloc] at hrest
    exact ⟨String.toList_inj.mp hnetloc, List.append_cancel_left hrest⟩

/-- **What is written tells its parts.** -/
theorem inj (h : Written parts) (h' : Written parts') (heq : urlunsplitParts parts = urlunsplitParts parts') :
    parts = parts' := by
  have hlists := congrArg String.toList heq
  rw [h.toList, h'.toList] at hlists
  have hcut : ∀ {scheme : String} (_ : IsScheme scheme) (rest : List Char),
      partition ':' (scheme.toList ++ ':' :: rest) = (scheme.toList, true, rest) :=
    fun hscheme rest => partition_eq fun hc => (hscheme.mem hc).2.1 rfl
  have hparts := congrArg (partition ':') hlists
  rw [hcut h.scheme, hcut h'.scheme] at hparts
  obtain ⟨hscheme, -, hrest⟩ := Prod.mk.inj hparts |>.imp_right Prod.mk.inj
  obtain ⟨hnetloc, htail⟩ := h.rest_inj h' hrest
  obtain ⟨b, hb⟩ := h.partition_tail
  obtain ⟨b', hb'⟩ := h'.partition_tail
  rw [htail, hb'] at hb
  obtain ⟨hpath, -, hquery⟩ := Prod.mk.inj hb |>.imp_right Prod.mk.inj
  have hfragment := h.fragment.trans h'.fragment.symm
  cases parts
  cases parts'
  simp only [SplitResult.mk.injEq]
  exact ⟨String.toList_inj.mp hscheme, hnetloc, String.toList_inj.mp hpath.symm,
    String.toList_inj.mp hquery.symm, hfragment⟩

end Written

/-! ## Reading a URL -/

/-- A URL with a scheme and a host, and no port that cannot be read. -/
structure UrlOf (tables : Tables) (value : String) (parsed : SplitResult) (hostname : String)
    (port : Option ℕ) : Prop where
  split : urlsplit tables value = .ok parsed
  scheme : parsed.scheme ≠ ""
  hostname : parsed.hostname tables = some hostname
  port : parsed.port = .ok port

/-- The host that is shown. -/
def hostOf (tables : Tables) (hostname : String) : String := rstripDots (strLower tables hostname)

/-- The port that is shown: not the scheme's own. -/
def shownPortOf (scheme : String) (port : Option ℕ) : Option ℕ :=
  port.filter fun n => some n ≠ defaultPort scheme

/-- The parts that a URL is written from. -/
def writtenParts (tables : Tables) (parsed : SplitResult) (hostname : String) (port : Option ℕ) : SplitResult where
  scheme := strLower tables parsed.scheme
  netloc := shownNetloc (strLower tables parsed.scheme) (hostOf tables hostname) port
  path := pathOf parsed
  query := parsed.query
  fragment := ""

theorem shownNetloc_toList (scheme host : String) (port : Option ℕ) :
    (shownNetloc scheme host port).toList = host.toList ++ portText (shownPortOf scheme port) := by
  cases port with
  | none => simp [shownNetloc, shownPortOf, portText]
  | some n =>
    by_cases hdefault : some n = defaultPort scheme
    · simp [shownNetloc, shownPortOf, portText, hdefault, Option.filter]
    · simp [shownNetloc, shownPortOf, portText, hdefault, Option.filter, String.toList_append]
      rfl

section Reading

variable {tables : Tables} {parsed : SplitResult} {value hostname : String} {port : Option ℕ}

theorem normalizeUrl_of (h : UrlOf tables value parsed hostname port) :
    normalizeUrl tables value = .ok (urlunsplitParts (writtenParts tables parsed hostname port)) := by
  unfold normalizeUrl
  simp only [h.split, bind, Except.bind, h.hostname, if_neg h.scheme, h.port]
  rfl

/-- A URL without a scheme or a host is left as it is. -/
theorem normalizeUrl_plain (hsplit : urlsplit tables value = .ok parsed)
    (hnone : parsed.hostname tables = none ∨ parsed.scheme = "") :
    normalizeUrl tables value = .ok (strip value) := by
  unfold normalizeUrl
  simp only [hsplit, bind, Except.bind]
  rcases hnone with hnone | hscheme
  · rw [hnone]
    rfl
  · split
    · rfl
    · rw [if_pos hscheme]
      rfl

theorem normalizeUrl_ok {url : String} (h : normalizeUrl tables value = .ok url) :
    (∃ parsed, urlsplit tables value = .ok parsed ∧
      (parsed.hostname tables = none ∨ parsed.scheme = "") ∧ url = strip value) ∨
    ∃ parsed hostname port, UrlOf tables value parsed hostname port ∧
      url = urlunsplitParts (writtenParts tables parsed hostname port) := by
  obtain ⟨parsed, hsplit, hrest⟩ := bind_ok h
  cases hname : parsed.hostname tables with
  | none =>
    rw [normalizeUrl_plain hsplit (.inl hname)] at h
    exact .inl ⟨parsed, hsplit, .inl hname, (Except.ok.inj h).symm⟩
  | some hostname =>
    by_cases hscheme : parsed.scheme = ""
    · rw [normalizeUrl_plain hsplit (.inr hscheme)] at h
      exact .inl ⟨parsed, hsplit, .inr hscheme, (Except.ok.inj h).symm⟩
    · rw [hname] at hrest
      simp only [if_neg hscheme] at hrest
      obtain ⟨port, hport, -⟩ := bind_ok hrest
      have hurl : UrlOf tables value parsed hostname port := ⟨hsplit, hscheme, hname, hport⟩
      rw [normalizeUrl_of hurl] at h
      exact .inr ⟨parsed, hostname, port, hurl, (Except.ok.inj h).symm⟩

theorem not_mem_rpartition (sep : Char) (text : List Char) : sep ∉ (rpartition sep text).2.2 := by
  intro h
  have hkept := List.mem_takeWhile_imp (List.mem_reverse.mp h)
  simp at hkept

theorem mem_hostInfo_after {c : Char} (h : c ∈ parsed.hostInfo.1) : c ∈ (rpartition '@' parsed.netloc.toList).2.2 := by
  unfold SplitResult.hostInfo at h
  simp only at h
  split at h
  · exact mem_partition.2 (mem_partition.1 h).2
  · exact (mem_partition.1 h).2

/-- Where the characters of a host name come from. -/
theorem mem_hostname_cases (h : parsed.hostname tables = some hostname) {c : Char} (hc : c ∈ hostname.toList) :
    c = '%' ∨ c ∈ parsed.hostInfo.1 ∨
      ∃ name : String, (∀ d ∈ name.toList, d ∈ parsed.hostInfo.1) ∧ c ∈ (strLower tables name).toList := by
  unfold SplitResult.hostname at h
  simp only at h
  split at h
  · cases h
  have hname : ∀ d, d ∈ (partition '%' parsed.hostInfo.1).1 → d ∈ parsed.hostInfo.1 :=
    fun d hd => (mem_partition.1 hd).2
  have hzone : ∀ d, d ∈ (partition '%' parsed.hostInfo.1).2.2 → d ∈ parsed.hostInfo.1 :=
    fun d hd => mem_partition.2 hd
  obtain rfl := Option.some.inj h
  generalize partition '%' parsed.hostInfo.1 = pieces at hc hname hzone
  obtain ⟨name, percent, zone⟩ := pieces
  simp only at hc hname hzone
  rw [String.toList_append] at hc
  rcases List.mem_append.mp hc with hc | hc
  · right
    right
    refine ⟨String.ofList name, ?_, hc⟩
    rw [String.toList_ofList]
    exact hname
  · cases percent with
    | false => simp at hc
    | true =>
      simp only [if_true, String.toList_append, String.toList_ofList] at hc
      rcases List.mem_append.mp hc with hc | hc
      · exact .inl (List.mem_singleton.mp hc)
      · exact .inr (.inl (hzone c hc))

/-- The characters of the host between its brackets, or before its colon. -/
theorem mem_hostname_plain (hlower : MapsCase (strLower tables)) (h : parsed.hostname tables = some hostname)
    {c : Char} (hc : c ∈ hostname.toList) (hplain : IsPlain c) (hpercent : c ≠ '%') : c ∈ parsed.hostInfo.1 := by
  rcases mem_hostname_cases h hc with rfl | hin | ⟨name, hname, hin⟩
  · exact absurd rfl hpercent
  · exact hin
  · exact hname c (hlower.mem_of_plain hin hplain)

namespace UrlOf

theorem isScheme (h : UrlOf tables value parsed hostname port) : IsScheme parsed.scheme :=
  urlsplit_scheme h.split h.scheme

variable (hlower : MapsCase (strLower tables))

include hlower

theorem mem_hostOf (h : UrlOf tables value parsed hostname port) {c : Char}
    (hc : c ∈ (hostOf tables hostname).toList) (hplain : IsPlain c) (hpercent : c ≠ '%') : c ∈ parsed.hostInfo.1 := by
  have hin := (rstripDots_sublist _).subset hc
  exact mem_hostname_plain hlower h.hostname (hlower.mem_of_plain hin hplain) hplain hpercent

/-- The host brings no delimiter along. -/
theorem host_clean (h : UrlOf tables value parsed hostname port) {c : Char}
    (hc : c ∈ (hostOf tables hostname).toList) : endsNetloc c = false ∧ isRemoved c = false ∧ c ≠ '@' := by
  obtain ⟨rest, hrest, hafter⟩ := urlsplit_ok h.split (netloc_ne_empty_of_hostname h.hostname)
  obtain ⟨hnetloc, -⟩ := splitAfter_clean hrest hafter
  refine ⟨?_, ?_, ?_⟩
  · by_contra hends
    rw [Bool.not_eq_false] at hends
    have hcases : c = '/' ∨ c = '?' ∨ c = '#' := by simpa [endsNetloc] using hends
    have hplain : IsPlain c ∧ c ≠ '%' := by
      rcases hcases with rfl | rfl | rfl <;> exact ⟨isPlain_ascii (by decide) (by decide), by decide⟩
    have hnot := (hnetloc c (mem_hostInfo (h.mem_hostOf hlower hc hplain.1 hplain.2))).1
    rw [hends] at hnot
    cases hnot
  · by_contra hremoved
    rw [Bool.not_eq_false] at hremoved
    have hcases : c = '\t' ∨ c = '\r' ∨ c = '\n' := by simpa [isRemoved] using hremoved
    have hplain : IsPlain c ∧ c ≠ '%' := by
      rcases hcases with rfl | rfl | rfl <;> exact ⟨isPlain_ascii (by decide) (by decide), by decide⟩
    have hnot := (hnetloc c (mem_hostInfo (h.mem_hostOf hlower hc hplain.1 hplain.2))).2
    rw [hremoved] at hnot
    cases hnot
  · rintro rfl
    have hin := h.mem_hostOf hlower hc (isPlain_ascii (by decide) (by decide)) (by decide)
    exact not_mem_rpartition '@' _ (mem_hostInfo_after hin)

/-- A host has at most one kind of brackets. -/
theorem host_brackets (h : UrlOf tables value parsed hostname port) :
    ¬ ('[' ∈ (hostOf tables hostname).toList ∧ ']' ∈ (hostOf tables hostname).toList) := by
  rintro ⟨hopen, hclose⟩
  have hin := h.mem_hostOf hlower hopen (isPlain_ascii (by decide) (by decide)) (by decide)
  have hin' := h.mem_hostOf hlower hclose (isPlain_ascii (by decide) (by decide)) (by decide)
  exact hostInfo_bracketed (mem_hostInfo_after hin) hin'

/-- What is written can be cut again. -/
theorem written (h : UrlOf tables value parsed hostname port) : Written (writtenParts tables parsed hostname port) := by
  obtain ⟨habs, hpath, hquery⟩ := rest_clean_of_split h.split h.hostname
  refine ⟨?_, ?_, habs, hpath, hquery, rfl⟩
  · rw [writtenParts, h.isScheme.strLower]
    exact h.isScheme
  · intro c hc
    rw [writtenParts, shownNetloc_toList] at hc
    rcases List.mem_append.mp hc with hc | hc
    · obtain ⟨hends, hremoved, -⟩ := h.host_clean hlower hc
      exact ⟨hends, hremoved⟩
    · obtain ⟨hends, hremoved, -⟩ := portText_clean hc
      exact ⟨hends, hremoved⟩

end UrlOf

end Reading

end NightScout
