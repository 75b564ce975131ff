import NightScout.Surface.CaseTables
import NightScout.Workers.HttpUrls

/-!
# One URL for several workers

`normalize_http_url` of `recon/workers/http.py` and `recon/workers/javascript.py`, `normalize_crawl_url` of
`recon/workers/crawler.py` and `normalize_mobile_url` of `recon/workers/mobile.py`: they reject the same strings and
give the same URL for the others. White space is stripped before the fragment and an empty query are dropped, so that a
URL with white space in front of these is no fixed point (`webUrls_canonical_iff`).
-/

namespace NightScout

open Lib

def normalizeCrawlUrl (tables : Tables) (value : String) : Except PyError String :=
  normalizeWebUrl
    { blank := "crawl URL must not be blank"
      scheme := "crawl URL scheme must be http or https"
      userinfo := "userinfo is not allowed in crawl URLs"
      hostname := "crawl URL hostname is required"
      port := "crawl URL contains invalid port" } tables value

/-- `normalize_http_url` of `recon/workers/javascript.py`. -/
def normalizeJavascriptUrl (tables : Tables) (value : String) : Except PyError String :=
  normalizeWebUrl
    { blank := "URL must not be blank"
      scheme := "URL scheme must be http or https"
      userinfo := "userinfo is not allowed"
      hostname := "URL hostname is required"
      port := "URL contains invalid port" } tables value

def normalizeMobileUrl (tables : Tables) (value : String) : Except PyError (Option String) :=
  let raw := strip value
  if raw = "" ∨ 16384 < raw.length then .ok none
  else do
    match ← exceptValueError (urlsplit tables raw) with
    | none => return none
    | some parts =>
      if parts.scheme ≠ "http" ∧ parts.scheme ≠ "https" then return none
      else if parts.hasUserinfo then return none
      else
        match parts.hostname tables with
        | none => return none
        | some rawHost =>
          match ← exceptValueError (do
            let hostname ← normalizeDnsName tables rawHost
            let port ← parts.port
            return (hostname, port)) with
          | none => return none
          | some (hostname, port) => return some (canonicalParts parts hostname port)

section Results

variable {tables : Tables} {value url rawHost hostname : String} {parts : SplitResult} {port : Option ℕ}

/-- Within its bound the mobile worker gives what the others give. -/
theorem normalizeMobileUrl_eq (texts : UrlTexts) (hlength : (strip value).length ≤ 16384) :
    normalizeMobileUrl tables value = .ok (normalizeWebUrl texts tables value).toOption := by
  unfold normalizeMobileUrl normalizeWebUrl
  dsimp only
  by_cases hraw : strip value = ""
  · rw [if_pos (.inl hraw), if_pos hraw]
    rfl
  rw [if_neg (by simp [hraw, hlength]), if_neg hraw, exceptValueError_eq (raises_urlsplit _), ok_bind]
  cases hsplit : urlsplit tables (strip value) with
  | error e => rfl
  | ok parts =>
    simp only [Except.toOption, ok_bind]
    by_cases hscheme : parts.scheme ≠ "http" ∧ parts.scheme ≠ "https"
    · rw [if_pos hscheme, if_pos hscheme]
      rfl
    rw [if_neg hscheme, if_neg hscheme]
    by_cases huser : parts.hasUserinfo = true
    · rw [if_pos huser, if_pos huser]
      rfl
    rw [if_neg huser, if_neg huser]
    cases parts.hostname tables with
    | none => rfl
    | some rawHost =>
      dsimp only
      have hraises : RaisesValueErrors (normalizeDnsName tables rawHost) := raises_normalizeDnsName rawHost
      rcases hraises.cases with ⟨name, hname⟩ | ⟨message, hname⟩
      · rcases (raises_port parts).cases with ⟨port, hport⟩ | ⟨message, hport⟩
        · rw [hname, hport]
          rfl
        · rw [hname, hport]
          rfl
      · rw [hname]
        rfl

/-! ## Reading a normal URL -/

theorem HttpUrlRead.hostInfo_normal (h : HttpUrlRead tables value parts rawHost hostname port) :
    (canonicalOf parts hostname port).hostInfo = (hostname.toList, (portText (shownPort parts.scheme port)).tail) ∧
      '@' ∉ (canonicalOf parts hostname port).netloc.toList := by
  have hhost := hostChar_of_normalizeDnsName h.hostname
  have htext : (canonicalOf parts hostname port).netloc.toList =
      hostname.toList ++ portText (shownPort parts.scheme port) := canonicalNetloc_toList _ _ _
  have huser : '@' ∉ (canonicalOf parts hostname port).netloc.toList := by
    rw [htext]
    intro hc
    rcases List.mem_append.mp hc with hc | hc
    · exact (hhost _ hc).ne (by decide) rfl
    · exact (portText_clean hc).2.2.1 rfl
  refine ⟨hostInfo_canonical htext huser ?_, huser⟩
  intro c hc
  obtain ⟨-, -, hopen, hclose⟩ := hostChar_clean (hhost c hc)
  exact ⟨(hhost c hc).ne (by decide), hopen, hclose⟩

theorem HttpUrlRead.hostname_normal (h : HttpUrlRead tables value parts rawHost hostname port) :
    (canonicalOf parts hostname port).hostname tables = some hostname := by
  have hhost := hostChar_of_normalizeDnsName h.hostname
  have hne : hostname ≠ "" := by
    obtain ⟨ls, hls, rfl⟩ := normalizeDnsName_ok h.hostname
    exact hls.ne_empty
  apply hostname_lowered
  · rw [h.hostInfo_normal.1]
  · exact hne
  · exact isAscii_iff.mpr fun c hc => (hhost c hc).lt
  · exact fun c hc => (hhost c hc).toLower

theorem HttpUrlRead.port_normal (h : HttpUrlRead tables value parts rawHost hostname port) :
    (canonicalOf parts hostname port).port = .ok (shownPort parts.scheme port) := by
  apply port_canonical
  · rw [h.hostInfo_normal.1]
  · intro p hp
    have hport := h.port
    rw [(Option.filter_eq_some_iff.mp hp).1] at hport
    exact port_le hport

theorem HttpUrlRead.netloc_plain (h : HttpUrlRead tables value parts rawHost hostname port) :
    ∀ c ∈ (canonicalNetloc parts.scheme hostname port).toList,
      endsNetloc c = false ∧ isRemoved c = false ∧ c ≠ '[' ∧ c ≠ ']' := by
  intro c hc
  rw [canonicalNetloc_toList] at hc
  rcases List.mem_append.mp hc with hc | hc
  · exact hostChar_clean (hostChar_of_normalizeDnsName h.hostname c hc)
  · obtain ⟨hend, hremoved, -, hopen, hclose⟩ := portText_clean hc
    exact ⟨hend, hremoved, hopen, hclose⟩

/-- A normal URL stands for what the URL it was made from stood for. -/
theorem HttpUrlRead.normal (h : HttpUrlRead tables value parts rawHost hostname port)
    (hstrip : strip (canonicalParts parts hostname port) = canonicalParts parts hostname port) :
    HttpUrlRead tables (canonicalParts parts hostname port) (canonicalOf parts hostname port) hostname hostname
      (shownPort parts.scheme port) where
  split := by rw [hstrip, h.split_normal]
  http := h.http
  userinfo := decide_eq_false h.hostInfo_normal.2
  host := h.hostname_normal
  hostname := normalizeDnsName_normal h.hostname
  port := h.port_normal

theorem canonicalParts_canonicalOf :
    canonicalParts (canonicalOf parts hostname port) hostname (shownPort parts.scheme port) =
      canonicalParts parts hostname port := by
  have hpath : pathOf (canonicalOf parts hostname port) = pathOf parts := if_neg (pathOf_ne_empty parts)
  have hnetloc : canonicalNetloc (canonicalOf parts hostname port).scheme hostname (shownPort parts.scheme port) =
      canonicalNetloc parts.scheme hostname port := canonicalNetloc_shownPort _ _ _
  simp only [canonicalParts, hpath, hnetloc]
  rfl

/-! ## Fixed points -/

/-- No white space stands at the end, once the fragment and an empty query are gone. -/
def EndsPlain (parts : SplitResult) : Prop :=
  (if parts.query = "" then parts.path else parts.query).toList.getLast?.any isSpace = false

/-- What stands behind the network location of a normal URL. -/
def normalTail (parts : SplitResult) : List Char :=
  (pathOf parts).toList ++ if parts.query = "" then [] else '?' :: parts.query.toList

theorem HttpUrlRead.toList_canonicalParts (h : HttpUrlRead tables value parts rawHost hostname port) :
    (canonicalParts parts hostname port).toList = parts.scheme.toList ++ ':' :: '/' :: '/' ::
      ((canonicalNetloc parts.scheme hostname port).toList ++ normalTail parts) := by
  have htail : (canonicalOf parts hostname port).path = "" ∨
      (canonicalOf parts hostname port).path.toList.head? = some '/' := .inr (rest_clean_of_split h.split h.host).1
  have hscheme : (canonicalOf parts hostname port).scheme ≠ "" := h.http.ne_empty
  rw [canonicalParts_eq, urlunsplit_toList hscheme htail rfl, String.toList_ofList]
  simp only [normalTail, canonicalOf, List.append_assoc]
  rfl

theorem getLast?_normalTail : (normalTail parts).getLast?.any isSpace = false ↔ EndsPlain parts := by
  unfold normalTail EndsPlain pathOf
  by_cases hquery : parts.query = ""
  · by_cases hpath : parts.path = ""
    · simp [hquery, hpath, isSpace]
    · simp [hquery, hpath]
  · have hne : parts.query.toList ≠ [] := fun hnil => hquery (String.toList_eq_nil_iff.mp hnil)
    obtain ⟨c, hc⟩ := Option.ne_none_iff_exists'.mp (mt List.getLast?_eq_none_iff.mp hne)
    simp [hquery, List.getLast?_append, List.getLast?_cons, hc]

theorem normalTail_ne_nil : normalTail parts ≠ [] := by
  intro hnil
  exact pathOf_ne_empty parts (String.toList_eq_nil_iff.mp (List.append_eq_nil_iff.mp hnil).1)

theorem HttpUrlRead.strip_iff (h : HttpUrlRead tables value parts rawHost hostname port) :
    strip (canonicalParts parts hostname port) = canonicalParts parts hostname port ↔ EndsPlain parts := by
  have hlast : (canonicalParts parts hostname port).toList.getLast? = (normalTail parts).getLast? := by
    rw [h.toList_canonicalParts]
    have hne : normalTail parts ≠ [] := normalTail_ne_nil
    obtain ⟨c, hc⟩ := Option.ne_none_iff_exists'.mp (mt List.getLast?_eq_none_iff.mp hne)
    simp [List.getLast?_append, List.getLast?_cons, hc]
  have hhead : (canonicalParts parts hostname port).toList.head?.any isSpace = false := by
    rw [h.toList_canonicalParts]
    rcases h.http with hscheme | hscheme
    · simp [hscheme, isSpace]
    · simp [hscheme, isSpace]
  rw [strip_eq_self_iff, hlast, getLast?_normalTail]
  simp [hhead]

theorem partition_length (sep : Char) (text : List Char) :
    (partition sep text).1.length + (if (partition sep text).2.2 = [] then 0 else (partition sep text).2.2.length + 1) ≤
      text.length := by
  have htake : (partition sep text).1.length ≤ text.length := (List.takeWhile_prefix _).length_le
  have hdrop : (partition sep text).2.2.length = text.length - ((partition sep text).1.length + 1) :=
    List.length_drop
  by_cases hnil : (partition sep text).2.2 = []
  · rw [if_pos hnil]
    omega
  · have hlt := List.length_pos_of_ne_nil hnil
    rw [if_neg hnil]
    omega

/-- No more is read behind a network location than stands there. -/
theorem normalTail_length {scheme : String} {netloc tail : List Char} (hnetloc : ∀ c ∈ netloc, endsNetloc c = false)
    (h : splitAfter tables scheme (netloc ++ '/' :: tail) = .ok parts) :
    (normalTail parts).length ≤ tail.length + 1 := by
  have htake : (netloc ++ '/' :: tail).takeWhile (fun c => !endsNetloc c) = netloc :=
    takeWhile_append_stop (fun c hc => by rw [hnetloc c hc]; rfl) (.inr ⟨'/', tail, rfl, rfl⟩)
  unfold splitAfter at h
  simp only [htake, List.drop_left] at h
  obtain ⟨-, h⟩ := guard_ok h
  split at h
  · obtain rfl := Except.ok.inj h
    have hhash := partition_length '#' ('/' :: tail)
    have hquestion := partition_length '?' (partition '#' ('/' :: tail)).1
    generalize hquery : (partition '?' (partition '#' ('/' :: tail)).1).2.2 = query at hquestion ⊢
    have hpath : (partition '?' (partition '#' ('/' :: tail)).1).1 =
        '/' :: (partition '?' (partition '#' tail).1).1 := by
      simp [partition]
    rw [hpath] at hquestion ⊢
    have hne : String.ofList ('/' :: (partition '?' (partition '#' tail).1).1) ≠ "" := by simp
    simp only [normalTail, pathOf, if_neg hne, String.toList_ofList, List.length_append]
    simp only [List.length_cons] at hhash hquestion ⊢
    by_cases hnil : query = []
    · simp only [hnil, if_true] at hquestion ⊢
      simp only [List.length_nil]
      omega
    · have hne' : String.ofList query ≠ "" := fun heq => hnil (by simpa using congrArg String.toList heq)
      simp only [if_neg hnil, if_neg hne'] at hquestion ⊢
      simp only [List.length_cons]
      omega
  · cases h

/-- A normal URL is read again without the white space at its end. -/
theorem HttpUrlRead.split_stripped (h : HttpUrlRead tables value parts rawHost hostname port) :
    ∃ tail, normalTail parts = '/' :: tail ∧
      urlsplit tables (strip (canonicalParts parts hostname port)) = splitAfter tables parts.scheme
        ((canonicalNetloc parts.scheme hostname port).toList ++
          '/' :: (tail.rdropWhile isSpace).filter fun c => !isRemoved c) := by
  have hhead := (rest_clean_of_split h.split h.host).1
  obtain ⟨path, hpath⟩ : ∃ path, (pathOf parts).toList = '/' :: path := by
    cases hcs : (pathOf parts).toList with
    | nil => simp [hcs] at hhead
    | cons c path =>
      rw [hcs] at hhead
      obtain rfl := Option.some.inj hhead
      exact ⟨path, rfl⟩
  obtain ⟨tail, htail⟩ : ∃ tail, normalTail parts = '/' :: tail := ⟨_, by rw [normalTail, hpath]; rfl⟩
  refine ⟨tail, htail, ?_⟩
  have hcut : (strip (canonicalParts parts hostname port)).toList = parts.scheme.toList ++ ':' :: '/' :: '/' ::
      ((canonicalNetloc parts.scheme hostname port).toList ++ '/' :: tail.rdropWhile isSpace) := by
    have hslash : isSpace '/' = false := rfl
    rw [toList_strip, stripChars_of_head, h.toList_canonicalParts, htail]
    · have hfront := rdropWhile_append_cons (parts.scheme.toList ++ ':' :: '/' :: '/' ::
        (canonicalNetloc parts.scheme hostname port).toList) tail hslash
      simpa using hfront
    · rw [h.toList_canonicalParts]
      rcases h.http with hscheme | hscheme
      · simp [hscheme, isSpace]
      · simp [hscheme, isSpace]
  have hremoved : isRemoved '/' = false := rfl
  have hkeep : ∀ c ∈ (canonicalNetloc parts.scheme hostname port).toList, (!isRemoved c) = true := by
    intro c hc
    rw [(h.netloc_plain c hc).2.1]
    rfl
  rw [← String.ofList_toList (s := strip _), hcut, urlsplit_http h.http, List.filter_append,
    List.filter_eq_self.mpr hkeep, List.filter_cons_of_pos (by rw [hremoved]; rfl)]

/-- **A normal URL with white space at its end is no fixed point.** -/
theorem HttpUrlRead.endsPlain_of_fixed (h : HttpUrlRead tables value parts rawHost hostname port) {texts : UrlTexts}
    (hfixed : normalizeWebUrl texts tables (canonicalParts parts hostname port) =
      .ok (canonicalParts parts hostname port)) : EndsPlain parts := by
  by_contra hends
  obtain ⟨parts', rawHost', hostname', port', hread, heq⟩ := normalizeWebUrl_ok hfixed
  obtain ⟨tail, htail, hcut⟩ := h.split_stripped
  have hsplit := hread.split
  rw [hcut] at hsplit
  have hread_le := normalTail_length (fun c hc => (h.netloc_plain c hc).1) hsplit
  -- both readings are of one URL, so that what stands behind the network location is the same
  have hsame : canonicalOf parts' hostname' port' = canonicalOf parts hostname port := by
    have hsecond := hread.split_normal
    rw [← heq, h.split_normal] at hsecond
    exact (Except.ok.inj hsecond).symm
  have htails : normalTail parts' = normalTail parts := by
    have hpaths : pathOf parts' = pathOf parts := congrArg SplitResult.path hsame
    have hqueries : parts'.query = parts.query := by
      show (canonicalOf parts' hostname' port').query = (canonicalOf parts hostname port).query
      rw [hsame]
    rw [normalTail, normalTail, hpaths, hqueries]
  rw [htails, htail, List.length_cons] at hread_le
  have hfilter := List.length_filter_le (fun c => !isRemoved c) (tail.rdropWhile isSpace)
  have hspace : tail.getLast?.any isSpace = true := by
    have hspace := mt getLast?_normalTail.mp hends
    rw [htail, Bool.not_eq_false] at hspace
    cases tail with
    | nil => cases hspace
    | cons c cs => simpa [List.getLast?_cons_cons] using hspace
  have hshorter := rdropWhile_ne_self hspace
  omega

/-- A normal URL is accepted again, whatever it becomes. -/
theorem HttpUrlRead.accepted_again (h : HttpUrlRead tables value parts rawHost hostname port) (texts : UrlTexts) :
    ∃ url, normalizeWebUrl texts tables (canonicalParts parts hostname port) = .ok url := by
  obtain ⟨tail, htail, hcut⟩ := h.split_stripped
  obtain ⟨parts', hsplit, hscheme, hnetloc⟩ : ∃ parts', urlsplit tables (strip (canonicalParts parts hostname port)) =
      .ok parts' ∧ parts'.scheme = parts.scheme ∧ parts'.netloc = canonicalNetloc parts.scheme hostname port := by
    have hascii : isAscii hostname = true :=
      isAscii_iff.mpr fun c hc => (hostChar_of_normalizeDnsName h.hostname c hc).lt
    generalize hrest : (tail.rdropWhile isSpace).filter (fun c => !isRemoved c) = rest at hcut
    have htake : ((canonicalNetloc parts.scheme hostname port).toList ++ '/' :: rest).takeWhile
        (fun c => !endsNetloc c) = (canonicalNetloc parts.scheme hostname port).toList :=
      takeWhile_append_stop (fun c hc => by rw [(h.netloc_plain c hc).1]; rfl) (.inr ⟨'/', rest, rfl, rfl⟩)
    have hbrackets : '[' ∉ (canonicalNetloc parts.scheme hostname port).toList ∧
        ']' ∉ (canonicalNetloc parts.scheme hostname port).toList :=
      ⟨fun hc => (h.netloc_plain _ hc).2.2.1 rfl, fun hc => (h.netloc_plain _ hc).2.2.2 rfl⟩
    have hcheck : checkNetloc tables (canonicalNetloc parts.scheme hostname port) = true := by
      rw [checkNetloc, if_pos (isAscii_canonicalNetloc hascii)]
    rw [hcut, splitAfter]
    simp only [htake, hbrackets.1, hbrackets.2, or_self, false_and, if_false, String.ofList_toList, hcheck, if_true]
    exact ⟨_, rfl, rfl, rfl⟩
  -- what is read off the network location is what it was
  have hsame : parts'.netloc = (canonicalOf parts hostname port).netloc := hnetloc
  have hread : HttpUrlRead tables (canonicalParts parts hostname port) parts' hostname hostname
      (shownPort parts.scheme port) := by
    refine ⟨hsplit, ?_, ?_, ?_, normalizeDnsName_normal h.hostname, ?_⟩
    · rw [hscheme]
      exact h.http
    · unfold SplitResult.hasUserinfo
      rw [hsame]
      exact decide_eq_false h.hostInfo_normal.2
    · have hname := h.hostname_normal
      unfold SplitResult.hostname SplitResult.hostInfo at hname ⊢
      rw [hsame]
      exact hname
    · have hport := h.port_normal
      unfold SplitResult.port SplitResult.hostInfo at hport ⊢
      rw [hsame]
      exact hport
  exact ⟨_, hread.normalizeWebUrl_eq texts⟩

theorem HttpUrlRead.fixed (h : HttpUrlRead tables value parts rawHost hostname port) (hends : EndsPlain parts)
    (texts : UrlTexts) : normalizeWebUrl texts tables (canonicalParts parts hostname port) =
      .ok (canonicalParts parts hostname port) := by
  rw [(h.normal (h.strip_iff.mpr hends)).normalizeWebUrl_eq, canonicalParts_canonicalOf]

theorem HttpUrlRead.effectivePort_normal (h : HttpUrlRead tables value parts rawHost hostname port) :
    effectivePort (canonicalOf parts hostname port) = effectivePort parts := by
  unfold effectivePort
  rw [h.port_normal, h.port, ok_bind, ok_bind]
  cases port with
  | none => rfl
  | some port =>
    cases hdefault : isDefaultPort parts.scheme port with
    | false => simp [shownPort, Option.filter, hdefault]
    | true =>
      simp only [shownPort, Option.filter, hdefault]
      rcases h.http with hscheme | hscheme
      · have hport : port = 80 := by simpa [isDefaultPort, hscheme] using hdefault
        simp [canonicalOf, hscheme, hport]
      · have hport : port = 443 := by simpa [isDefaultPort, hscheme] using hdefault
        simp [canonicalOf, hscheme, hport]

/-! ## The same page is stored once -/

/-- A normalizer gives a URL, or it rejects the string the way its callers expect. -/
def GivesUrl (result : Except PyError String) : Option String → Prop
  | some url => result = .ok url
  | none => ∃ message, result = .error (.valueError message)

/-- The four workers give this for a string. -/
structure AllGive (tables : Tables) (value : String) (result : Option String) : Prop where
  http : GivesUrl (normalizeHttpUrl tables value) result
  crawl : GivesUrl (normalizeCrawlUrl tables value) result
  javascript : GivesUrl (normalizeJavascriptUrl tables value) result
  mobile : (strip value).length ≤ 16384 → normalizeMobileUrl tables value = .ok result

/-- A URL in canonical form is of the page that another one is of. -/
structure SamePage (tables : Tables) (input output : SplitResult) : Prop where
  scheme : output.scheme = input.scheme
  host : ∃ rawHost host, input.hostname tables = some rawHost ∧ normalizeDnsName tables rawHost = .ok host ∧
    output.hostname tables = some host
  port : ∃ port, effectivePort input = .ok port ∧ effectivePort output = .ok port
  path : output.path = pathOf input
  query : output.query = input.query
  userinfo : output.hasUserinfo = false
  fragment : output.fragment = ""

/-- The workers agree on a string, the result is a fixed point of each, and it is of the same page. -/
def WebUrlsCanonical (tables : Tables) (value : String) : Prop :=
  ∃ result, AllGive tables value result ∧ ∀ url ∈ result, AllGive tables url (some url) ∧
    ∃ input output, urlsplit tables (strip value) = .ok input ∧ urlsplit tables url = .ok output ∧
      SamePage tables input output

theorem gives_normalizeWebUrl (texts texts' : UrlTexts) :
    GivesUrl (normalizeWebUrl texts tables value) (normalizeWebUrl texts' tables value).toOption := by
  cases hresult : normalizeWebUrl texts' tables value with
  | ok url => exact normalizeWebUrl_ok_iff.mpr (normalizeWebUrl_ok_iff.mp hresult)
  | error e =>
    have hraises : RaisesValueErrors (normalizeWebUrl texts tables value) := raises_normalizeWebUrl texts value
    rcases hraises.cases with ⟨url, hurl⟩ | hraised
    · rw [normalizeWebUrl_ok_iff.mpr (normalizeWebUrl_ok_iff.mp hurl)] at hresult
      cases hresult
    · exact hraised

/-- All four give the same. -/
theorem allGive (texts : UrlTexts) : AllGive tables value (normalizeWebUrl texts tables value).toOption where
  http := gives_normalizeWebUrl _ _
  crawl := gives_normalizeWebUrl _ _
  javascript := gives_normalizeWebUrl _ _
  mobile := normalizeMobileUrl_eq texts

theorem AllGive.eq {result : Option String} (h : AllGive tables value result) :
    result = (normalizeHttpUrl tables value).toOption := by
  have hhttp := h.http
  cases result with
  | some url =>
    rw [show normalizeHttpUrl tables value = .ok url from hhttp]
    rfl
  | none =>
    obtain ⟨message, hmessage⟩ := hhttp
    rw [hmessage]
    rfl

theorem HttpUrlRead.samePage (h : HttpUrlRead tables value parts rawHost hostname port) :
    SamePage tables parts (canonicalOf parts hostname port) where
  scheme := rfl
  host := ⟨rawHost, hostname, h.host, h.hostname, h.hostname_normal⟩
  port := by
    obtain ⟨p, hp⟩ := effectivePort_ok.mpr ⟨port, h.port⟩
    exact ⟨p, hp, by rw [h.effectivePort_normal, hp]⟩
  path := rfl
  query := rfl
  userinfo := decide_eq_false h.hostInfo_normal.2
  fragment := rfl

/-- **The workers' URLs are canonical exactly if no white space ends what is in front of the fragment.** -/
theorem webUrls_canonical_iff : WebUrlsCanonical tables value ↔
    ∀ parts rawHost hostname port, HttpUrlRead tables value parts rawHost hostname port → EndsPlain parts := by
  constructor
  · rintro ⟨result, hresult, hfixed⟩ parts rawHost hostname port hread
    have hurl : result = some (canonicalParts parts hostname port) := by
      rw [hresult.eq, normalizeHttpUrl, hread.normalizeWebUrl_eq]
      rfl
    obtain ⟨hagain, -⟩ := hfixed _ hurl
    exact hread.endsPlain_of_fixed hagain.http
  · intro hends
    refine ⟨(normalizeHttpUrl tables value).toOption, allGive _, ?_⟩
    intro url hurl
    have hok : normalizeHttpUrl tables value = .ok url := by
      cases hresult : normalizeHttpUrl tables value with
      | ok url' =>
        rw [hresult] at hurl
        rw [show url' = url from Option.some.inj hurl]
      | error e =>
        rw [hresult] at hurl
        cases hurl
    obtain ⟨parts, rawHost, hostname, port, hread, rfl⟩ := normalizeHttpUrl_ok hok
    have hplain := hends parts rawHost hostname port hread
    constructor
    · have hgive : AllGive tables (canonicalParts parts hostname port)
          (normalizeHttpUrl tables (canonicalParts parts hostname port)).toOption := allGive _
      rwa [normalizeHttpUrl, hread.fixed hplain] at hgive
    · exact ⟨parts, _, hread.split, hread.split_normal, hread.samePage⟩

end Results

/-- A space in front of the fragment stays at the end of the URL, where the next normalizer strips it. -/
theorem spaced_url_not_canonical : ¬ WebUrlsCanonical asciiTables "http://a.example/x #top" := by
  rintro ⟨result, hresult, hfixed⟩
  have hfirst : normalizeHttpUrl asciiTables "http://a.example/x #top" = .ok "http://a.example/x " := by decide +kernel
  have hsecond : normalizeHttpUrl asciiTables "http://a.example/x " = .ok "http://a.example/x" := by decide +kernel
  have hurl : result = some "http://a.example/x " := by
    rw [hresult.eq, hfirst]
    rfl
  obtain ⟨hagain, -⟩ := hfixed _ hurl
  have hsame : normalizeHttpUrl asciiTables "http://a.example/x " = .ok "http://a.example/x " := hagain.http
  rw [hsecond] at hsame
  exact absurd (Except.ok.inj hsame) (by decide)

end NightScout
