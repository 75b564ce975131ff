import NightScout.Lib.Wildcards
import NightScout.Policy.CanonicalSubjects

/-!
# What URL rules show

A URL rule is shown as `scheme://host[:port]/path[?query]`, where a leading `*.` of the host and the stars of the path
and the query are the wildcards. `_match_url_pattern` hands the path and the query to `fnmatchcase`, for which a
question mark and a closed bracket are wildcards too: a rule means what it shows exactly if it has none of these
(`url_rule_means_iff`).
-/

namespace NightScout

open Lib

/-! ## Canonical texts -/

/-- A text of the form `scheme://host[:port]/path[?query]`. -/
structure CanonicalText (text : String) (parts : SplitResult) (host : String) (port : Option ℕ) : Prop where
  text : text = urlunsplit parts
  http : IsHttp parts.scheme
  netloc : parts.netloc = canonicalNetloc parts.scheme host port
  port : ∀ p ∈ port, p ≤ 65535
  path_abs : parts.path.toList.head? = some '/'
  path : ∀ c ∈ parts.path.toList, c ≠ '?' ∧ c ≠ '#' ∧ isRemoved c = false
  query : ∀ c ∈ parts.query.toList, c ≠ '#' ∧ isRemoved c = false
  fragment : parts.fragment = ""

/-- A host that is read back from a URL it stands in: no address in brackets, no white space around it. -/
structure ReadableHost (host : String) : Prop extends PlainHost host where
  chars : ∀ c ∈ host.toList, endsNetloc c = false ∧ isRemoved c = false ∧ c ≠ '@'

section Texts

variable {tables : Tables} {text value rawHost host : String} {parts parsed : SplitResult} {port : Option ℕ}

namespace CanonicalText

theorem path_ne (h : CanonicalText text parts host port) : parts.path ≠ "" := by
  intro hempty
  have habs := h.path_abs
  rw [hempty] at habs
  cases habs

theorem pathOf_eq (h : CanonicalText text parts host port) : pathOf parts = parts.path := if_neg h.path_ne

theorem clean (h : CanonicalText text parts host port) (hhost : ReadableHost host) : CleanParts tables parts := by
  refine ⟨h.http, ?_, ?_, .inr h.path_abs, h.path, h.query, h.fragment⟩
  · intro c hc
    rw [h.netloc, canonicalNetloc_toList] at hc
    rcases List.mem_append.mp hc with hc | hc
    · obtain ⟨hends, hremoved, -⟩ := hhost.chars c hc
      obtain ⟨-, hopen, hclose⟩ := hhost.plain c hc
      exact ⟨hends, hremoved, hopen, hclose⟩
    · obtain ⟨hends, hremoved, -, hopen, hclose⟩ := portText_clean hc
      exact ⟨hends, hremoved, hopen, hclose⟩
  · rw [checkNetloc, h.netloc, if_pos (isAscii_canonicalNetloc hhost.ascii)]

/-- The parts are read back. -/
theorem read (h : CanonicalText text parts host port) (hhost : ReadableHost host) :
    UrlRead tables text parts host host (shownPort parts.scheme port) := by
  have htext : parts.netloc.toList = host.toList ++ portText (shownPort parts.scheme port) := by
    rw [h.netloc, canonicalNetloc_toList]
  have huser : '@' ∉ parts.netloc.toList := by
    rw [htext]
    intro hc
    rcases List.mem_append.mp hc with hc | hc
    · exact (hhost.chars _ hc).2.2 rfl
    · exact (portText_clean hc).2.2.1 rfl
  have hinfo := hostInfo_canonical htext huser hhost.plain
  have hbound : ∀ p ∈ shownPort parts.scheme port, p ≤ 65535 :=
    fun p hp => h.port p (Option.filter_eq_some_iff.mp hp).1
  refine ⟨?_, h.http, ?_, decide_eq_false huser, ?_, ?_⟩
  · rw [h.text]
    exact urlsplit_urlunsplit (h.clean hhost)
  · exact hostname_lowered (by rw [hinfo]) (ne_empty_of_labels hhost.nonempty) hhost.ascii hhost.lower
  · exact stable_of hhost.ascii hhost.lower hhost.nonempty hhost.lengths hhost.stripped
  · exact port_canonical (by rw [hinfo]) hbound

theorem canonicalParts_eq_text (h : CanonicalText text parts host port) :
    canonicalParts parts host (shownPort parts.scheme port) = text := by
  have hnetloc : canonicalNetloc parts.scheme host (shownPort parts.scheme port) = parts.netloc := by
    rw [canonicalNetloc_shownPort, h.netloc]
  rw [h.text]
  simp only [canonicalParts, h.pathOf_eq, hnetloc]
  rw [← h.fragment]

theorem canonicalUrl_eq (h : CanonicalText text parts host port) (hhost : ReadableHost host) :
    canonicalUrl tables text = .ok text :=
  canonicalUrl_read.mpr ⟨_, _, _, _, h.read hhost, h.canonicalParts_eq_text.symm⟩

/-- An empty fragment is read as none. -/
theorem split_hash (h : CanonicalText text parts host port) (hhost : ReadableHost host) :
    urlsplit tables (text ++ "#") = .ok parts := by
  have hclean : CleanParts tables parts := h.clean hhost
  have htext : text ++ "#" = String.ofList (parts.scheme.toList ++ ':' :: '/' :: '/' ::
      (parts.netloc.toList ++ (tailOf parts ++ ['#']))) := by
    apply String.toList_inj.mp
    rw [h.text, urlunsplit_toList h.http.ne_empty (.inr h.path_abs) h.fragment]
    simp [tailOf, String.toList_append]
  have hkept : (parts.netloc.toList ++ (tailOf parts ++ ['#'])).filter (fun c => !isRemoved c) =
      parts.netloc.toList ++ (tailOf parts ++ ['#']) := by
    rw [List.filter_eq_self]
    intro c hc
    rw [Bool.not_eq_true']
    rcases List.mem_append.mp hc with hc | hc
    · exact (hclean.netloc c hc).2.1
    rcases List.mem_append.mp hc with hc | hc
    · rcases List.mem_append.mp hc with hc | hc
      · exact (h.path c hc).2.2
      · split at hc
        · cases hc
        · rcases List.mem_cons.mp hc with rfl | hc
          · rfl
          · exact (h.query c hc).2
    · obtain rfl := List.mem_singleton.mp hc
      rfl
  obtain ⟨tail, htail⟩ : ∃ tail, tailOf parts = '/' :: tail := by
    have habs := h.path_abs
    unfold tailOf
    cases hpath : parts.path.toList with
    | nil => simp [hpath] at habs
    | cons c path =>
      rw [hpath] at habs
      obtain rfl := Option.some.inj habs
      exact ⟨_, rfl⟩
  have hnetloc : (parts.netloc.toList ++ (tailOf parts ++ ['#'])).takeWhile (fun c => !endsNetloc c) =
      parts.netloc.toList := by
    apply takeWhile_append_stop
    · intro c hc
      rw [(hclean.netloc c hc).1]
      rfl
    · exact .inr ⟨'/', tail ++ ['#'], by rw [htail]; rfl, rfl⟩
  have hopen : '[' ∉ parts.netloc.toList := fun hc => (hclean.netloc _ hc).2.2.1 rfl
  have hclose : ']' ∉ parts.netloc.toList := fun hc => (hclean.netloc _ hc).2.2.2 rfl
  obtain ⟨hhash, b, hquestion⟩ := partition_tailOf hclean
  have hnot : '#' ∉ tailOf parts := by
    intro hc
    have hfound := congrArg (fun p => p.2.1) hhash
    simp only [partition, decide_eq_false_iff_not] at hfound
    exact hfound hc
  rw [htext, urlsplit_http h.http, hkept, splitAfter, hnetloc]
  simp only [hopen, hclose, or_self, false_and, if_false, List.drop_left, partition_eq hnot, hquestion,
    String.ofList_toList, hclean.netloc_ok, if_true]
  have hfragment := h.fragment
  cases parts
  cases hfragment
  rfl

/-- Such a text is the value of an accepted subject. -/
theorem accepted {lib : ScopeLib} (h : CanonicalText text parts host port) (hhost : ReadableHost host) :
    ScopeSubject.modelValidate lib .url (text ++ "#") = .ok ⟨.url, text⟩ := by
  have hread : UrlRead lib.toTables text parts host host (shownPort parts.scheme port) := h.read hhost
  have hread' : UrlRead lib.toTables (text ++ "#") parts host host (shownPort parts.scheme port) :=
    ⟨h.split_hash hhost, hread.http, hread.hostname, hread.userinfo, hread.canonical, hread.port⟩
  have hcanonical : canonicalUrl lib.toTables (text ++ "#") = .ok text :=
    canonicalUrl_read.mpr ⟨_, _, _, _, hread', h.canonicalParts_eq_text.symm⟩
  have hstrip : strip (text ++ "#") = text ++ "#" := by
    obtain ⟨rest, hrest⟩ : ∃ rest, text.toList = 'h' :: rest := by
      rw [h.text, urlunsplit_toList h.http.ne_empty (.inr h.path_abs) h.fragment, String.toList_ofList]
      rcases h.http with hscheme | hscheme
      · rw [hscheme]
        exact ⟨_, rfl⟩
      · rw [hscheme]
        exact ⟨_, rfl⟩
    apply String.toList_inj.mp
    rw [toList_strip, stripChars_eq_rdropWhile, String.toList_append, hrest]
    exact List.rdropWhile_concat_neg isSpace ('h' :: rest) '#' (by decide)
  have hne : text ++ "#" ≠ "" := by
    intro hempty
    have hlength := congrArg (fun s => s.toList.length) hempty
    simp [String.toList_append] at hlength
  rw [ScopeSubject.modelValidate, hstrip, if_neg hne]
  show (canonicalUrl lib.toTables (text ++ "#")).map _ = _
  rw [hcanonical]
  rfl

end CanonicalText

end Texts

/-! ## Meaning -/

/-- A host is the one a rule shows, or a strict subdomain of what it shows behind `*.`. -/
def HostShown (ruleHost host : String) : Prop :=
  if isWildcard ruleHost then ∃ front, front ≠ "" ∧ host = front ++ "." ++ suffixOf ruleHost else host = ruleHost

/-- A URL is one of those that a rule shows. -/
structure Means (rule : SplitResult) (ruleHost : String) (parts : SplitResult) (host : String) : Prop where
  scheme : parts.scheme = rule.scheme
  port : ∃ port, effectivePort parts = .ok port ∧ effectivePort rule = .ok port
  host : HostShown ruleHost host
  path : Fnmatch.Filled rule.path.toList parts.path.toList
  query : rule.query ≠ "" → Fnmatch.Filled rule.query.toList parts.query.toList

section Meaning

variable {lib : ScopeLib} {rule : ScopeRule} {subject : ScopeSubject} {ruleParts parts : SplitResult}
  {ruleHost host : String} {rulePort port : Option ℕ}

theorem matchesHost_iff (hhost : [] ∉ labels host) : matchesHost host ruleHost = true ↔ HostShown ruleHost host := by
  unfold matchesHost HostShown
  cases isWildcard ruleHost with
  | false => simp
  | true =>
    simp only [if_true, Bool.and_eq_true, decide_eq_true_eq, isSubdomain, List.isSuffixOf_iff_suffix]
    constructor
    · rintro ⟨-, front, hfront⟩
      refine ⟨String.ofList front, ?_, ?_⟩
      · intro hempty
        obtain rfl : front = [] := by simpa using congrArg String.toList hempty
        apply hhost
        rw [labels, ← hfront, splitOn_append_cons]
        simp
      · apply String.toList_inj.mp
        rw [← hfront]
        simp [String.toList_append]
    · rintro ⟨front, hfront, rfl⟩
      refine ⟨?_, front.toList, by simp [String.toList_append]⟩
      intro heq
      have hlength := congrArg (fun s => s.toList.length) heq
      simp only [String.toList_append, List.length_append] at hlength
      have hdot : ".".toList.length = 1 := rfl
      omega

/-- What `matches` computes, where both hosts can be read. -/
theorem matchesSubject_text (hkind : rule.kind = .url) (hrule : CanonicalText rule.pattern ruleParts ruleHost rulePort)
    (hruleHost : ReadableHost ruleHost) (hurl : subject.kind = .url)
    (hsubject : CanonicalText subject.value parts host port) (hhost : ReadableHost host) :
    rule.matchesSubject lib subject = .ok true ↔ parts.scheme = ruleParts.scheme ∧
      (∃ port, effectivePort parts = .ok port ∧ effectivePort ruleParts = .ok port) ∧ HostShown ruleHost host ∧
      fnmatchcase parts.path ruleParts.path = true ∧
      (ruleParts.query ≠ "" → fnmatchcase parts.query ruleParts.query = true) := by
  have hread : UrlRead lib.toTables subject.value parts host host _ := hsubject.read hhost
  have hruleRead : UrlRead lib.toTables rule.pattern ruleParts ruleHost ruleHost _ := hrule.read hruleHost
  have hreads : Reads lib subject parts := ⟨hurl, subject.value, hsubject.canonicalUrl_eq hhost, hread.split⟩
  obtain ⟨p, hp⟩ := effectivePort_ok.mpr ⟨_, hread.port⟩
  obtain ⟨q, hq⟩ := effectivePort_ok.mpr ⟨_, hruleRead.port⟩
  have hsame : matchDomainPattern lib.toTables host ruleHost = .ok (matchesHost host ruleHost) := by
    rw [matchDomainPattern, hread.canonical]
    rfl
  rw [matchesSubject_url hkind hruleRead.split hreads]
  by_cases hscheme : parts.scheme = ruleParts.scheme
  · rw [if_neg (not_not.mpr hscheme), hread.hostname, hruleRead.hostname]
    simp only [hsame, ok_bind, ← matchesHost_iff hhost.nonempty]
    cases matchesHost host ruleHost with
    | false => simp
    | true =>
      simp only [matchUrlParts, hp, hq, ok_bind, hsubject.pathOf_eq, hrule.pathOf_eq, if_true]
      have hports : (∃ port, Except.ok p = (.ok port : Except PyError ℕ) ∧ Except.ok q = (.ok port : Except PyError ℕ)) ↔
          p = q := by
        constructor
        · rintro ⟨port, hp, hq⟩
          exact Except.ok.inj (hp.trans hq.symm)
        · rintro rfl
          exact ⟨p, rfl, rfl⟩
      rw [hports]
      by_cases hquery : ruleParts.query = ""
      · simp [hscheme, hquery]
      · simp [hscheme, hquery, and_assoc]
  · simp [hscheme]

/-- A rule without other wildcards means what it shows. -/
theorem means_iff (hkind : rule.kind = .url) (hrule : CanonicalText rule.pattern ruleParts ruleHost rulePort)
    (hruleHost : ReadableHost ruleHost) (hurl : subject.kind = .url)
    (hsubject : CanonicalText subject.value parts host port) (hhost : ReadableHost host)
    (hpath : Fnmatch.StarsOnly ruleParts.path.toList) (hquery : Fnmatch.StarsOnly ruleParts.query.toList) :
    rule.matchesSubject lib subject = .ok true ↔ Means ruleParts ruleHost parts host := by
  rw [matchesSubject_text hkind hrule hruleHost hurl hsubject hhost]
  have hpaths : fnmatchcase parts.path ruleParts.path = true ↔
      Fnmatch.Filled ruleParts.path.toList parts.path.toList := Fnmatch.matchTokens_iff_filled hpath le_rfl
  have hqueries : fnmatchcase parts.query ruleParts.query = true ↔
      Fnmatch.Filled ruleParts.query.toList parts.query.toList := Fnmatch.matchTokens_iff_filled hquery le_rfl
  rw [hpaths, hqueries]
  constructor
  · rintro ⟨hscheme, hport, hhost, hpath, hquery⟩
    exact ⟨hscheme, hport, hhost, hpath, hquery⟩
  · rintro ⟨hscheme, hport, hhost, hpath, hquery⟩
    exact ⟨hscheme, hport, hhost, hpath, hquery⟩

/-! ## A subject the rule addresses -/

/-- The host, or one below what is shown behind `*.`. -/
theorem exists_shown (hruleHost : ReadableHost ruleHost) : ∃ host, ReadableHost host ∧ HostShown ruleHost host := by
  by_cases hwild : isWildcard ruleHost = true
  · obtain ⟨rest, hrest⟩ : ∃ rest, ruleHost.toList = '*' :: '.' :: rest := by
      have htake : ruleHost.toList.take 2 = ['*', '.'] := by simpa [isWildcard] using hwild
      exact ⟨ruleHost.toList.drop 2, by rw [← List.take_append_drop 2 ruleHost.toList, htake]; rfl⟩
    have hlabels : labels ruleHost = [['*']] ++ rest.splitOn '.' := by
      rw [labels, hrest, show '*' :: '.' :: rest = ['*'] ++ '.' :: rest from rfl, splitOn_append_cons]
      rfl
    have hlabels' : labels (String.ofList ('a' :: '.' :: rest)) = [['a']] ++ rest.splitOn '.' := by
      rw [labels, String.toList_ofList, show 'a' :: '.' :: rest = ['a'] ++ '.' :: rest from rfl, splitOn_append_cons]
      rfl
    have hnonempty := hruleHost.nonempty
    have hlengths := hruleHost.lengths
    rw [hlabels] at hnonempty hlengths
    have hchars : ∀ c ∈ '.' :: rest, c ∈ ruleHost.toList := by
      intro c hc
      rw [hrest]
      exact List.mem_cons_of_mem _ hc
    refine ⟨String.ofList ('a' :: '.' :: rest), ⟨⟨⟨?_, ?_, ?_, ?_⟩, ?_, ?_⟩, ?_⟩, ?_⟩
    · rw [isAscii_iff, String.toList_ofList, List.forall_mem_cons]
      exact ⟨by decide, fun c hc => isAscii_iff.mp hruleHost.ascii c (hchars c hc)⟩
    · intro c hc
      rw [String.toList_ofList] at hc
      rcases List.mem_cons.mp hc with rfl | hc
      · decide
      · exact hruleHost.lower c (hchars c hc)
    · rw [hlabels']
      simpa using hnonempty
    · rw [hlabels']
      intro label hlabel
      rcases List.mem_append.mp hlabel with hlabel | hlabel
      · rw [List.mem_singleton.mp hlabel]
        decide
      · exact hlengths label (List.mem_append_right _ hlabel)
    · -- only the end could be stripped, and it is the rule's
      have hstar : ('*' :: '.' :: rest).dropWhile isSpace = '*' :: '.' :: rest := rfl
      have ha : ('a' :: '.' :: rest).dropWhile isSpace = 'a' :: '.' :: rest := rfl
      have hstripped := congrArg String.toList hruleHost.stripped
      rw [toList_strip, hrest, stripChars_eq_rdropWhile, hstar] at hstripped
      have hlast := List.rdropWhile_eq_self_iff.mp hstripped (List.cons_ne_nil _ _)
      apply String.toList_inj.mp
      rw [toList_strip, String.toList_ofList, stripChars_eq_rdropWhile, ha]
      refine List.rdropWhile_eq_self_iff.mpr fun _ => ?_
      simpa using hlast
    · intro c hc
      rw [String.toList_ofList] at hc
      rcases List.mem_cons.mp hc with rfl | hc
      · decide
      · exact hruleHost.plain c (hchars c hc)
    · intro c hc
      rw [String.toList_ofList] at hc
      rcases List.mem_cons.mp hc with rfl | hc
      · decide
      · exact hruleHost.chars c (hchars c hc)
    · rw [HostShown, if_pos hwild]
      refine ⟨"a", by decide, ?_⟩
      apply String.toList_inj.mp
      simp [suffixOf, hrest, String.toList_append]
  · refine ⟨ruleHost, hruleHost, ?_⟩
    rw [HostShown, if_neg hwild]

/-- There is a subject at an address the rule shows, with any path and query. -/
theorem exists_addressed (lib : ScopeLib) (hrule : CanonicalText rule.pattern ruleParts ruleHost rulePort)
    (hruleHost : ReadableHost ruleHost) {path query : List Char} (habs : path.head? = some '/')
    (hpath : ∀ c ∈ path, c ≠ '?' ∧ c ≠ '#' ∧ isRemoved c = false) (hquery : ∀ c ∈ query, c ≠ '#' ∧ isRemoved c = false) :
    ∃ subject parts host port, ScopeSubject.modelValidate lib .url (subject.value ++ "#") = .ok subject ∧
      CanonicalText subject.value parts host port ∧ ReadableHost host ∧ parts.scheme = ruleParts.scheme ∧
      (∃ port, effectivePort parts = .ok port ∧ effectivePort ruleParts = .ok port) ∧ HostShown ruleHost host ∧
      parts.path.toList = path ∧ parts.query.toList = query := by
  obtain ⟨host, hhost, hshown⟩ := exists_shown hruleHost
  let parts : SplitResult :=
    { scheme := ruleParts.scheme, netloc := canonicalNetloc ruleParts.scheme host rulePort
      path := String.ofList path, query := String.ofList query, fragment := "" }
  have htext : CanonicalText (urlunsplit parts) parts host rulePort := by
    refine ⟨rfl, hrule.http, rfl, hrule.port, ?_, ?_, ?_, rfl⟩
    · rw [String.toList_ofList, habs]
    · rwa [String.toList_ofList]
    · rwa [String.toList_ofList]
  have hread : UrlRead lib.toTables (urlunsplit parts) parts host host _ := htext.read hhost
  have hruleRead : UrlRead lib.toTables rule.pattern ruleParts ruleHost ruleHost _ := hrule.read hruleHost
  have hports : effectivePort parts = effectivePort ruleParts := by
    rw [effectivePort, effectivePort, hread.port, hruleRead.port]
  obtain ⟨p, hp⟩ := effectivePort_ok.mpr ⟨_, hruleRead.port⟩
  exact ⟨⟨.url, urlunsplit parts⟩, parts, host, rulePort, htext.accepted hhost, htext, hhost, rfl,
    ⟨p, hports.trans hp, hp⟩, hshown, String.toList_ofList, String.toList_ofList⟩

/-! ## Rules -/

/-- The rule matches those accepted subjects that it shows. -/
def MeansWhatItShows (lib : ScopeLib) (rule : ScopeRule) (ruleParts : SplitResult) (ruleHost : String) : Prop :=
  ∀ raw subject parts host port, ScopeSubject.modelValidate lib .url raw = .ok subject →
    CanonicalText subject.value parts host port → ReadableHost host →
    (rule.matchesSubject lib subject = .ok true ↔ Means ruleParts ruleHost parts host)

theorem head_of_match {pattern text : List Char} (habs : pattern.head? = some '/')
    (h : Fnmatch.matchTokens (Fnmatch.translateFrom pattern.length pattern) text = true) : text.head? = some '/' := by
  cases pattern with
  | nil => cases habs
  | cons c pattern =>
    obtain rfl := Option.some.inj habs
    have hslash : Fnmatch.isLiteral '/' = true := by decide
    rw [List.length_cons, Fnmatch.translateFrom_cons hslash] at h
    cases text with
    | nil => cases h
    | cons d text =>
      simp only [Fnmatch.matchTokens, Fnmatch.Token.accepts, Bool.and_eq_true, decide_eq_true_eq] at h
      rw [← h.1]
      rfl

/-- A pattern that some bracket keeps from matching anything the URL could hold. -/
def Unmatchable (good : Char → Prop) (pattern : List Char) : Prop :=
  ∃ token ∈ Fnmatch.translateFrom pattern.length pattern, token.isRange = true ∧
    ∀ c, good c → token.accepts c = false

theorem Unmatchable.not_match {good : Char → Prop} {pattern text : List Char} (h : Unmatchable good pattern)
    (hgood : ∀ c ∈ text, good c) : Fnmatch.matchTokens (Fnmatch.translateFrom pattern.length pattern) text = false := by
  obtain ⟨token, hmem, hrange, hnone⟩ := h
  have htakes : token.takes = true := by cases token <;> simp [Fnmatch.Token.isRange, Fnmatch.Token.takes] at hrange ⊢
  exact Fnmatch.matchTokens_eq_false hmem htakes hnone hgood

theorem exists_accepted_of_not {good : Char → Prop} (ha : good 'a') {pattern : List Char}
    (hpattern : ∀ c ∈ pattern, good c) (h : ¬ Unmatchable good pattern) : ∃ text, (∀ c ∈ text, good c) ∧
      Fnmatch.matchTokens (Fnmatch.translateFrom pattern.length pattern) text = true ∧
      (Fnmatch.Filled pattern text → Fnmatch.StarsOnly pattern) := by
  apply Fnmatch.exists_accepted ha hpattern
  intro token hmem hrange
  by_contra hnone
  push Not at hnone
  exact h ⟨token, hmem, hrange, fun c hc => Bool.not_eq_true _ ▸ hnone c hc⟩

/-- **When a URL rule means what it shows.** -/
theorem url_rule_means_iff {raw : RawScopeRule} (hvalid : ScopeRule.modelValidate lib raw = .ok rule)
    (hkind : raw.kind = .url) (hrule : CanonicalText rule.pattern ruleParts ruleHost rulePort)
    (hruleHost : ReadableHost ruleHost) : MeansWhatItShows lib rule ruleParts ruleHost ↔
      Fnmatch.StarsOnly ruleParts.path.toList ∧ Fnmatch.StarsOnly ruleParts.query.toList := by
  have hurl : rule.kind = .url := by
    unfold ScopeRule.modelValidate at hvalid
    split at hvalid
    · cases hvalid
    split at hvalid
    · cases hvalid
    obtain ⟨pattern, -, rfl⟩ := except_map_ok hvalid
    exact hkind
  constructor
  · intro hmeans
    -- a rule that some bracket keeps from matching does not match the URL it spells
    have hspelled : fnmatchcase ruleParts.path ruleParts.path = true ∧
        (ruleParts.query ≠ "" → fnmatchcase ruleParts.query ruleParts.query = true) := by
      obtain ⟨subject, parts, host, port, hsubject, htext, hhost, hscheme, hport, hshown, hpath, hquery⟩ :=
        exists_addressed lib hrule hruleHost hrule.path_abs hrule.path hrule.query
      have hsame : parts.path = ruleParts.path := String.toList_inj.mp hpath
      have hsame' : parts.query = ruleParts.query := String.toList_inj.mp hquery
      have hmatch := (hmeans _ subject parts host port hsubject htext hhost).mpr
        ⟨hscheme, hport, hshown, hpath ▸ Fnmatch.filled_self _, fun _ => hquery ▸ Fnmatch.filled_self _⟩
      rw [matchesSubject_text hurl hrule hruleHost (modelValidate_subject hsubject).1 htext hhost, hsame, hsame'] at hmatch
      exact hmatch.2.2.2
    have hpathMatchable : ¬ Unmatchable (fun c => c ≠ '?' ∧ c ≠ '#' ∧ isRemoved c = false) ruleParts.path.toList := by
      intro hnone
      exact Bool.false_ne_true ((hnone.not_match hrule.path).symm.trans hspelled.1)
    have hqueryMatchable : ¬ Unmatchable (fun c => c ≠ '#' ∧ isRemoved c = false) ruleParts.query.toList := by
      intro hnone
      have hquery : ruleParts.query ≠ "" := by
        intro hempty
        obtain ⟨token, hmem, -⟩ := hnone
        rw [hempty] at hmem
        cases hmem
      exact Bool.false_ne_true ((hnone.not_match hrule.query).symm.trans (hspelled.2 hquery))
    -- otherwise it matches a URL that fills the stars only if there are no other wildcards
    obtain ⟨path, hpathGood, hpathMatch, hpathStars⟩ := exists_accepted_of_not (by decide) hrule.path hpathMatchable
    obtain ⟨query, hqueryGood, hqueryMatch, hqueryStars⟩ :=
      exists_accepted_of_not (by decide) hrule.query hqueryMatchable
    obtain ⟨subject, parts, host, port, hsubject, htext, hhost, hscheme, hport, hshown, hpath, hquery⟩ :=
      exists_addressed lib hrule hruleHost (head_of_match hrule.path_abs hpathMatch) hpathGood hqueryGood
    have hmatch : rule.matchesSubject lib subject = .ok true := by
      rw [matchesSubject_text hurl hrule hruleHost (modelValidate_subject hsubject).1 htext hhost]
      refine ⟨hscheme, hport, hshown, ?_, fun _ => ?_⟩
      · rw [fnmatchcase, hpath]
        exact hpathMatch
      · rw [fnmatchcase, hquery]
        exact hqueryMatch
    have hshows := (hmeans _ subject parts host port hsubject htext hhost).mp hmatch
    refine ⟨hpathStars (hpath ▸ hshows.path), ?_⟩
    by_cases hempty : ruleParts.query = ""
    · rw [hempty]
      exact ⟨List.not_mem_nil, fun rest hrest => by cases List.suffix_nil.mp hrest⟩
    · exact hqueryStars (hquery ▸ hshows.query hempty)
  · rintro ⟨hpath, hquery⟩ raw subject parts host port hsubject htext hhost
    exact means_iff hurl hrule hruleHost (modelValidate_subject hsubject).1 htext hhost hpath hquery

end Meaning

/-! ## A rule that misses the URL it spells -/

theorem exampleHost_readable : ReadableHost "example.com" where
  ascii := by decide
  lower := by
    have hall : ("example.com".toList.all fun c => c.toLower = c) = true := by decide
    intro c hc
    exact of_decide_eq_true (List.all_eq_true.mp hall c hc)
  nonempty := by decide +kernel
  lengths := by decide +kernel
  stripped := by decide
  plain := by
    have hall : ("example.com".toList.all fun c => c ≠ ':' && c ≠ '[' && c ≠ ']') = true := by decide
    intro c hc
    simpa [and_assoc] using List.all_eq_true.mp hall c hc
  chars := by
    have hall : ("example.com".toList.all fun c => !endsNetloc c && !isRemoved c && c ≠ '@') = true := by decide
    intro c hc
    simpa [and_assoc] using List.all_eq_true.mp hall c hc

theorem exampleParts_text {text path : String} (htext : text = "https://example.com" ++ path) (habs : path.toList.head? = some '/')
    (hpath : (path.toList.all fun c => c ≠ '?' && c ≠ '#' && !isRemoved c) = true) :
    CanonicalText text (exampleParts path) "example.com" none where
  text := by
    have hscheme : (exampleParts path).scheme ≠ "" := by simp [exampleParts]
    have habs' : (exampleParts path).path.toList.head? = some '/' := habs
    rw [htext, urlunsplit_toList hscheme (.inr habs') rfl]
    apply String.toList_inj.mp
    rw [String.toList_append, String.toList_ofList]
    simp [exampleParts]
  http := .inr rfl
  netloc := rfl
  port := nofun
  path_abs := habs
  path := by
    intro c hc
    simpa [and_assoc] using List.all_eq_true.mp hpath c hc
  query := nofun
  fragment := rfl

theorem url_rule_means_iff_allowed :
    MeansWhatItShows asciiLib allowedRule (exampleParts "/allowed/*") "example.com" ↔
      Fnmatch.StarsOnly (exampleParts "/allowed/*").path.toList ∧
        Fnmatch.StarsOnly (exampleParts "/allowed/*").query.toList :=
  url_rule_means_iff
    (show ScopeRule.modelValidate asciiLib
      { ruleId := "allowed", kind := .url, pattern := "https://example.com/allowed/*", state := .inScope } = _
      by decide +kernel) rfl
    (exampleParts_text (show _ = "https://example.com" ++ "/allowed/*" by decide) (by decide) (by decide))
    exampleHost_readable

/-- What is under this path is to be left alone. -/
def itemRule : ScopeRule where
  ruleId := { text := "item" }
  kind := .url
  pattern := "https://example.com/items[1]"
  state := .outOfScope
  priority := 0
  tier := none
  reason := none
  state_known := outOfScope_known

/-- The rule is accepted and has no star, and it does not match the URL it spells. -/
theorem item_rule_misses_its_url : ScopeRule.modelValidate asciiIpLib
      { ruleId := "item", kind := .url, pattern := "https://example.com/items[1]", state := .outOfScope } =
        .ok itemRule ∧
    itemRule.matchesSubject asciiIpLib ⟨.url, "https://example.com/items[1]"⟩ = .ok false ∧
    ¬ MeansWhatItShows asciiIpLib itemRule (exampleParts "/items[1]") "example.com" := by
  have hmatch : itemRule.matchesSubject asciiIpLib ⟨.url, "https://example.com/items[1]"⟩ = .ok false := by
    decide +kernel
  refine ⟨by decide +kernel, hmatch, ?_⟩
  intro hmeans
  have htext : CanonicalText "https://example.com/items[1]" (exampleParts "/items[1]") "example.com" none :=
    exampleParts_text (by decide) (by decide) (by decide)
  have hshown : Means (exampleParts "/items[1]") "example.com" (exampleParts "/items[1]") "example.com" :=
    ⟨rfl, ⟨443, rfl, rfl⟩, rfl, Fnmatch.filled_self _, fun _ => Fnmatch.filled_self _⟩
  have hmatches := (hmeans _ _ _ _ _ (htext.accepted exampleHost_readable) htext exampleHost_readable).mpr hshown
  rw [hmatch] at hmatches
  cases hmatches

end NightScout
