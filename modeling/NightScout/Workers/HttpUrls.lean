import NightScout.Core.ValueErrors
import NightScout.Policy.CanonicalSubjects
import NightScout.Workers.DnsNames

/-!
# URLs of the workers

`normalize_http_url` of `recon/workers/http.py`: the URL a probe is sent to and the identity its results are
stored under. It differs from the scope's canonical URL in its host, which has to be a concrete DNS
name; a normal URL therefore never carries brackets, and it is read back as the parts it was put
together from (`HttpUrlRead.split_normal`).
-/

namespace NightScout

open Lib

/-- What a copy of the normalizer says of what it rejects. -/
structure UrlTexts where
  blank : String
  scheme : String
  userinfo : String
  hostname : String
  port : String

/-- `try: … except ValueError as exc: raise ValueError(message) from exc`. -/
def orRaise {α : Type} (message : String) : Except PyError α → Except PyError α
  | .error (.valueError _) => .error (.valueError message)
  | result => result

/-- The normalizer that several workers have a copy of. -/
def normalizeWebUrl (texts : UrlTexts) (tables : Tables) (value : String) : Except PyError String :=
  let raw := strip value
  if raw = "" then .error (.valueError texts.blank)
  else do
    let parts ← urlsplit tables raw
    if parts.scheme ≠ "http" ∧ parts.scheme ≠ "https" then .error (.valueError texts.scheme)
    else if parts.hasUserinfo then .error (.valueError texts.userinfo)
    else
      match parts.hostname tables with
      | none => .error (.valueError texts.hostname)
      | some rawHost => do
        let hostname ← normalizeDnsName tables rawHost
        let port ← orRaise texts.port parts.port
        return canonicalParts parts hostname port

def normalizeHttpUrl (tables : Tables) (value : String) : Except PyError String :=
  normalizeWebUrl
    { blank := "URL must not be blank"
      scheme := "URL scheme must be http or https"
      userinfo := "userinfo is not allowed in probe URLs"
      hostname := "URL hostname is required"
      port := "invalid URL port" } tables value

theorem orRaise_ok {α : Type} {message : String} {result : Except PyError α} {a : α} :
    orRaise message result = .ok a ↔ result = .ok a := by
  cases result with
  | ok b => rfl
  | error e => cases e <;> simp [orRaise]

/-! ## What is raised -/

section Raised

variable {tables : Tables}

theorem raises_urlsplit (value : String) : RaisesValueErrors (urlsplit tables value) := by
  unfold urlsplit
  dsimp only
  split
  · exact .valueError _
  split
  · exact .ok _
  · exact .valueError _

theorem raises_port (parts : SplitResult) : RaisesValueErrors parts.port := by
  unfold SplitResult.port
  dsimp only
  split
  · exact .ok _
  refine .guard fun _ => ?_
  split
  · exact .ok _
  · exact .valueError _

theorem raises_encodeHostLabel (label : List Char) : RaisesValueErrors (encodeHostLabel tables label) := by
  unfold encodeHostLabel
  refine .guard fun _ => ?_
  split
  · exact .valueError _
  dsimp only
  split
  · exact .ok _
  split
  · exact .valueError _
  · exact .valueError _

theorem raises_normalizeDnsName (value : String) : RaisesValueErrors (normalizeDnsName tables value) := by
  unfold normalizeDnsName
  dsimp only
  iterate 7 refine .guard fun _ => ?_
  refine (RaisesValueErrors.mapM raises_encodeHostLabel _).bind fun encoded _ => ?_
  exact .guard fun _ => .ok _

theorem raises_orRaise {α : Type} {message : String} {result : Except PyError α} (h : RaisesValueErrors result) :
    RaisesValueErrors (orRaise message result) := by
  obtain ⟨a, rfl⟩ | ⟨message, rfl⟩ := h.cases
  · exact .ok a
  · exact .valueError _

/-- A URL is rejected by a `ValueError`. -/
theorem raises_normalizeWebUrl (texts : UrlTexts) (value : String) :
    RaisesValueErrors (normalizeWebUrl texts tables value) := by
  unfold normalizeWebUrl
  dsimp only
  refine .guard fun _ => (raises_urlsplit _).bind fun parts _ => ?_
  refine .guard fun _ => .guard fun _ => ?_
  split
  · exact .valueError _
  · exact (raises_normalizeDnsName _).bind fun _ _ => (raises_orRaise (raises_port _)).bind fun _ _ => .ok _

end Raised

/-! ## What is accepted -/

/-- What a URL that is normalized is read as. -/
structure HttpUrlRead (tables : Tables) (value : String) (parts : SplitResult)
    (rawHost hostname : String) (port : Option ℕ) : Prop where
  split : urlsplit tables (strip value) = .ok parts
  http : IsHttp parts.scheme
  userinfo : parts.hasUserinfo = false
  host : parts.hostname tables = some rawHost
  hostname : normalizeDnsName tables rawHost = .ok hostname
  port : parts.port = .ok port

section Reading

variable {tables : Tables} {value url rawHost hostname : String} {parts : SplitResult}
  {port : Option ℕ}

theorem normalizeWebUrl_ok {texts : UrlTexts} (h : normalizeWebUrl texts tables value = .ok url) :
    ∃ parts rawHost hostname port, HttpUrlRead tables value parts rawHost hostname port ∧
      url = canonicalParts parts hostname port := by
  unfold normalizeWebUrl at h
  simp only at h
  obtain ⟨-, h⟩ := guard_ok h
  obtain ⟨parts, hsplit, h⟩ := bind_ok h
  obtain ⟨hscheme, h⟩ := guard_ok h
  obtain ⟨huser, h⟩ := guard_ok h
  split at h
  · cases h
  next rawHost hrawHost =>
    obtain ⟨hostname, hhostname, h⟩ := bind_ok h
    obtain ⟨port, hport, h⟩ := bind_ok h
    refine ⟨parts, rawHost, hostname, port, ⟨hsplit, ?_, ?_, hrawHost, hhostname, orRaise_ok.mp hport⟩, ?_⟩
    · by_contra hnot
      exact hscheme ⟨fun heq => hnot (.inl heq), fun heq => hnot (.inr heq)⟩
    · simpa using huser
    · exact (Except.ok.inj h).symm

theorem normalizeHttpUrl_ok (h : normalizeHttpUrl tables value = .ok url) :
    ∃ parts rawHost hostname port, HttpUrlRead tables value parts rawHost hostname port ∧
      url = canonicalParts parts hostname port :=
  normalizeWebUrl_ok h

/-- A URL that can be read so is accepted. -/
theorem HttpUrlRead.normalizeWebUrl_eq (h : HttpUrlRead tables value parts rawHost hostname port) (texts : UrlTexts) :
    normalizeWebUrl texts tables value = .ok (canonicalParts parts hostname port) := by
  have hraw : strip value ≠ "" := by
    intro hempty
    have hsplit := h.split
    rw [hempty] at hsplit
    have hblank : parts.scheme = "" := by
      simp only [urlsplit, splitScheme, splitNetloc, partition, checkNetloc] at hsplit
      cases hsplit
      rfl
    exact h.http.ne_empty hblank
  have hscheme : ¬ (parts.scheme ≠ "http" ∧ parts.scheme ≠ "https") := by
    rintro ⟨hhttp, hhttps⟩
    exact h.http.elim hhttp hhttps
  unfold normalizeWebUrl
  rw [if_neg hraw, h.split, ok_bind, if_neg hscheme, h.userinfo, h.host]
  dsimp only [Bool.false_eq_true, if_false]
  rw [if_neg Bool.false_ne_true, h.hostname, ok_bind, orRaise_ok.mpr h.port]
  rfl

theorem normalizeWebUrl_ok_iff {texts : UrlTexts} : normalizeWebUrl texts tables value = .ok url ↔
    ∃ parts rawHost hostname port, HttpUrlRead tables value parts rawHost hostname port ∧
      url = canonicalParts parts hostname port := by
  constructor
  · exact normalizeWebUrl_ok
  · rintro ⟨parts, rawHost, hostname, port, hread, rfl⟩
    exact hread.normalizeWebUrl_eq texts

/-- A normal host name has none of the characters that a URL is cut at. -/
theorem hostChar_clean {c : Char} (h : HostChar c) :
    endsNetloc c = false ∧ isRemoved c = false ∧ c ≠ '[' ∧ c ≠ ']' := by
  have hne : ∀ d : Char, d.toNat ∈ [9, 10, 13, 35, 47, 63, 91, 93] → c ≠ d := by
    intro d hd
    have hrange := h.range
    rintro rfl
    simp only [List.mem_cons, List.not_mem_nil, or_false] at hd
    omega
  refine ⟨?_, ?_, hne _ (by decide), hne _ (by decide)⟩
  · simp [endsNetloc, hne '/' (by decide), hne '?' (by decide), hne '#' (by decide)]
  · simp [isRemoved, hne '\t' (by decide), hne '\r' (by decide), hne '\n' (by decide)]

theorem hostChar_of_normalizeDnsName (h : normalizeDnsName tables rawHost = .ok hostname) :
    ∀ c ∈ hostname.toList, HostChar c := by
  obtain ⟨ls, hls, rfl⟩ := normalizeDnsName_ok h
  intro c hc
  rw [String.toList_ofList] at hc
  exact hls.hostChar hc

/-- **A normal URL is read back as the parts it was put together from.** -/
theorem HttpUrlRead.split_normal (h : HttpUrlRead tables value parts rawHost hostname port) :
    urlsplit tables (canonicalParts parts hostname port) = .ok (canonicalOf parts hostname port) := by
  obtain ⟨habs, hpath, hquery⟩ := rest_clean_of_split h.split h.host
  have hhost := hostChar_of_normalizeDnsName h.hostname
  have hascii : isAscii hostname = true := isAscii_iff.mpr fun c hc => (hhost c hc).lt
  rw [canonicalParts_eq]
  apply urlsplit_urlunsplit
  refine ⟨h.http, ?_, ?_, .inr habs, hpath, hquery, rfl⟩
  · intro c hc
    rw [canonicalOf, canonicalNetloc_toList] at hc
    rcases List.mem_append.mp hc with hc | hc
    · exact hostChar_clean (hhost c hc)
    · obtain ⟨hends, hremoved, -, hopen, hclose⟩ := portText_clean hc
      exact ⟨hends, hremoved, hopen, hclose⟩
  · rw [canonicalOf, checkNetloc, if_pos (isAscii_canonicalNetloc hascii)]

end Reading

end NightScout
