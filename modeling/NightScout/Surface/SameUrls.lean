import NightScout.Surface.FaithfulIdentities

/-!
# Two URLs with one identity

Web URLs have one identity if they have the same scheme, host, port, path and query, as they should. But a host
with colons is shown without its brackets, so it may read like the host and the port of another URL.
-/

namespace NightScout

open Lib

/-- The kinds whose canonical value is a URL. -/
def urlKinds : List EventType := [.url, .apiEndpoint, .javascript, .artifact]

/-- A text that is read as a URL of the web. -/
structure WebUrl (tables : Tables) (value : String) (parsed : SplitResult) (hostname : String)
    (port : Option ℕ) : Prop extends UrlOf tables (strip value) parsed hostname port where
  web : IsHttp parsed.scheme

/-- The port that is asked. -/
def portOf (scheme : String) (port : Option ℕ) : Option ℕ := port.or (defaultPort scheme)

/-- The same scheme, host (up to case and trailing dots), port, path and query. -/
structure SameUrl (tables : Tables) (parsed : SplitResult) (hostname : String) (port : Option ℕ)
    (parsed' : SplitResult) (hostname' : String) (port' : Option ℕ) : Prop where
  scheme : parsed.scheme = parsed'.scheme
  host : hostOf tables hostname = hostOf tables hostname'
  port : portOf parsed.scheme port = portOf parsed'.scheme port'
  path : pathOf parsed = pathOf parsed'
  query : parsed.query = parsed'.query

/-- A host without a port that reads like another host and its port. -/
def ReadsLike (scheme host : String) (port : Option ℕ) (host' : String) (port' : Option ℕ) : Prop :=
  shownPortOf scheme port = none ∧
    ∃ n, shownPortOf scheme port' = some n ∧ host.toList = host'.toList ++ portText (some n)

/-- Two URLs that differ, but not in what is shown of them. -/
structure Confused (tables : Tables) (parsed : SplitResult) (hostname : String) (port : Option ℕ)
    (parsed' : SplitResult) (hostname' : String) (port' : Option ℕ) : Prop where
  scheme : parsed.scheme = parsed'.scheme
  path : pathOf parsed = pathOf parsed'
  query : parsed.query = parsed'.query
  hosts : ReadsLike parsed.scheme (hostOf tables hostname) port (hostOf tables hostname') port' ∨
    ReadsLike parsed.scheme (hostOf tables hostname') port' (hostOf tables hostname) port

section Netlocs

variable {scheme host host' : String} {port port' : Option ℕ}

/-- Texts are cut at their last colon. -/
theorem cut_last_colon {a b digits digits' : List Char} (h : ':' ∉ digits) (h' : ':' ∉ digits')
    (heq : a ++ ':' :: digits = b ++ ':' :: digits') : a = b ∧ digits = digits' := by
  have hreverse := congrArg (fun text => partition ':' text.reverse) heq
  simp only [List.reverse_append, List.reverse_cons, List.append_assoc, List.singleton_append] at hreverse
  rw [partition_eq (by simpa using h), partition_eq (by simpa using h')] at hreverse
  obtain ⟨hdigits, -, hfront⟩ := Prod.mk.inj hreverse |>.imp_right Prod.mk.inj
  exact ⟨List.reverse_injective hfront, List.reverse_injective hdigits⟩

/-- What is shown of two hosts and ports is the same if they are, or if one reads like the other. -/
theorem shownNetloc_eq_iff : shownNetloc scheme host port = shownNetloc scheme host' port' ↔
    (host = host' ∧ shownPortOf scheme port = shownPortOf scheme port') ∨
      ReadsLike scheme host port host' port' ∨ ReadsLike scheme host' port' host port := by
  rw [← String.toList_inj, shownNetloc_toList, shownNetloc_toList]
  unfold ReadsLike
  cases hport : shownPortOf scheme port with
  | none =>
    cases hport' : shownPortOf scheme port' with
    | none => simp [portText, String.toList_inj]
    | some n => simp [portText]
  | some m =>
    cases hport' : shownPortOf scheme port' with
    | none => simp [portText, eq_comm]
    | some n =>
      simp only [reduceCtorEq, false_and, or_false, Option.some.injEq]
      constructor
      · intro heq
        obtain ⟨hhost, hdigits⟩ := cut_last_colon (colon_not_mem_digits m) (colon_not_mem_digits n) heq
        have hvalue := congrArg (fun digits => Nat.ofDigitChars 10 digits 0) hdigits
        simp only [Nat.ofDigitChars_ten_toDigits] at hvalue
        exact ⟨String.toList_inj.mp hhost, hvalue⟩
      · rintro ⟨rfl, rfl⟩
        rfl

/-- A host that reads like another and its port is longer. -/
theorem ReadsLike.ne (h : ReadsLike scheme host port host' port') : host ≠ host' := by
  rintro rfl
  obtain ⟨-, n, -, hhost⟩ := h
  have hlength := congrArg List.length hhost
  simp [portText] at hlength

theorem portOf_shown (scheme : String) (port : Option ℕ) :
    portOf scheme port = (shownPortOf scheme port).or (defaultPort scheme) := by
  cases port with
  | none => rfl
  | some n => by_cases hn : some n = defaultPort scheme <;> simp [shownPortOf, portOf, Option.filter, hn]

/-- The port that is shown tells the port that is asked, and the other way on the web. -/
theorem shownPortOf_eq_iff (hweb : IsHttp scheme) :
    shownPortOf scheme port = shownPortOf scheme port' ↔ portOf scheme port = portOf scheme port' := by
  have hback : ∀ port, shownPortOf scheme port =
      (portOf scheme port).filter fun n => some n ≠ defaultPort scheme := by
    intro port
    cases port with
    | none => rcases hweb with rfl | rfl <;> rfl
    | some n => rfl
  constructor
  · intro h
    rw [portOf_shown, portOf_shown, h]
  · intro h
    rw [hback port, hback port', h]

end Netlocs

/-! ## Identities -/

section Identities

variable {tables : Tables} {upper casefold hexdigest : String → String} {u v hostname hostname' : String}
  {parsed parsed' : SplitResult} {port port' : Option ℕ}

/-- What is written of two URLs is the same if they are the same, or confused. -/
theorem written_eq_iff (hlower : MapsCase (strLower tables)) (hu : WebUrl tables u parsed hostname port)
    (hv : WebUrl tables v parsed' hostname' port') : urlunsplitParts (writtenParts tables parsed hostname port) =
        urlunsplitParts (writtenParts tables parsed' hostname' port') ↔
      SameUrl tables parsed hostname port parsed' hostname' port' ∨
        Confused tables parsed hostname port parsed' hostname' port' := by
  have hparts : urlunsplitParts (writtenParts tables parsed hostname port) =
        urlunsplitParts (writtenParts tables parsed' hostname' port') ↔
      writtenParts tables parsed hostname port = writtenParts tables parsed' hostname' port' :=
    ⟨(hu.written hlower).inj (hv.written hlower), congrArg urlunsplitParts⟩
  have hsame : writtenParts tables parsed hostname port = writtenParts tables parsed' hostname' port' ↔
      parsed.scheme = parsed'.scheme ∧
        shownNetloc parsed.scheme (hostOf tables hostname) port =
          shownNetloc parsed'.scheme (hostOf tables hostname') port' ∧
        pathOf parsed = pathOf parsed' ∧ parsed.query = parsed'.query := by
    simp only [writtenParts, hu.isScheme.strLower, hv.isScheme.strLower, SplitResult.mk.injEq, and_true]
  rw [hparts, hsame]
  constructor
  · rintro ⟨hscheme, hnetloc, hpath, hquery⟩
    rw [← hscheme, shownNetloc_eq_iff] at hnetloc
    rcases hnetloc with ⟨hhost, hport⟩ | hlike
    · left
      refine ⟨hscheme, hhost, ?_, hpath, hquery⟩
      rw [← hscheme]
      exact (shownPortOf_eq_iff hu.web).mp hport
    · exact .inr ⟨hscheme, hpath, hquery, hlike⟩
  · rintro (⟨hscheme, hhost, hport, hpath, hquery⟩ | ⟨hscheme, hpath, hquery, hlike⟩)
    · refine ⟨hscheme, ?_, hpath, hquery⟩
      rw [← hscheme] at hport ⊢
      exact shownNetloc_eq_iff.mpr (.inl ⟨hhost, (shownPortOf_eq_iff hu.web).mpr hport⟩)
    · refine ⟨hscheme, ?_, hpath, hquery⟩
      rw [← hscheme]
      exact shownNetloc_eq_iff.mpr (.inr hlike)

theorem Confused.not_same (h : Confused tables parsed hostname port parsed' hostname' port') :
    ¬ SameUrl tables parsed hostname port parsed' hostname' port' := by
  intro hsame
  rcases h.hosts with hlike | hlike
  · exact hlike.ne hsame.host
  · exact hlike.ne hsame.host.symm

/-- The node kind of a URL. -/
def urlNode : EventType → SurfaceNodeKind
  | .javascript => .javascript
  | .artifact => .artifact
  | _ => .endpoint

/-- The identity of a URL of the web is what is written of it. -/
theorem identity_of_web {kind : EventType} (hkind : kind ∈ urlKinds) (intelligence : Bool)
    (hu : WebUrl (identityLib tables upper casefold hexdigest).toTables u parsed hostname port) :
    surfaceIdentity (identityLib tables upper casefold hexdigest) kind u intelligence = .ok (some ⟨urlNode kind,
      urlunsplitParts (writtenParts (identityLib tables upper casefold hexdigest).toTables parsed hostname port)⟩) := by
  have hblank : strip u ≠ "" := by
    intro hempty
    have hsplit := hu.split
    rw [hempty] at hsplit
    obtain rfl := Except.ok.inj hsplit
    exact hu.scheme rfl
  have hurl := normalizeUrl_of hu.toUrlOf
  have hlenient : normalizeUrlIfPossible (identityLib tables upper casefold hexdigest).toTables (strip u) = _ :=
    ifPossible_iff.mpr (.inl hurl)
  have hcases : kind = .url ∨ kind = .apiEndpoint ∨ kind = .javascript ∨ kind = .artifact := by
    simpa [urlKinds] using hkind
  have hexcluded : ¬ (kind ∈ excludedIntelligence ∧ intelligence = false) := by
    rintro ⟨hmem, -⟩
    rcases hcases with rfl | rfl | rfl | rfl <;> (revert hmem; decide)
  rw [surface_of_identity hexcluded]
  refine ⟨hblank, ?_⟩
  rcases hcases with rfl | rfl | rfl | rfl
  · rw [identityOf, hurl]
    rfl
  · rw [identityOf, hurl]
    rfl
  · rw [identityOf, hlenient]
    rfl
  · rw [identityOf, hlenient]
    rfl

theorem same_identity_iff (htables : CaseTables (identityLib tables upper casefold hexdigest)) {kind : EventType}
    (hkind : kind ∈ urlKinds) (intelligence : Bool)
    (hu : WebUrl (identityLib tables upper casefold hexdigest).toTables u parsed hostname port)
    (hv : WebUrl (identityLib tables upper casefold hexdigest).toTables v parsed' hostname' port') :
    surfaceIdentity (identityLib tables upper casefold hexdigest) kind u intelligence =
        surfaceIdentity (identityLib tables upper casefold hexdigest) kind v intelligence ↔
      SameUrl (identityLib tables upper casefold hexdigest).toTables parsed hostname port parsed' hostname' port' ∨
        Confused (identityLib tables upper casefold hexdigest).toTables parsed hostname port parsed' hostname' port' := by
  rw [← written_eq_iff htables.lower hu hv, identity_of_web hkind intelligence hu, identity_of_web hkind intelligence hv]
  simp

end Identities

/-- **Surface identities.** An identity is one of its canonical value exactly if the text is settled; and two
    URLs of the web have one identity if and only if they are the same, exactly if they are not confused. -/
theorem surface_identity_law (tables : Tables) (upper casefold hexdigest : String → String)
    (htables : CaseTables (identityLib tables upper casefold hexdigest)) :
    (∀ (kind : EventType) (value : String) (intelligence : Bool) (identity : SurfaceIdentity),
      surfaceIdentity (identityLib tables upper casefold hexdigest) kind value intelligence = .ok (some identity) →
      (surfaceIdentity (identityLib tables upper casefold hexdigest) kind identity.canonicalValue intelligence =
          .ok (some identity) ↔ Settled (identityLib tables upper casefold hexdigest).toTables kind (strip value))) ∧
    ∀ kind ∈ urlKinds, ∀ (intelligence : Bool) (u v : String) (parsed parsed' : SplitResult)
      (hostname hostname' : String) (port port' : Option ℕ),
      WebUrl (identityLib tables upper casefold hexdigest).toTables u parsed hostname port →
      WebUrl (identityLib tables upper casefold hexdigest).toTables v parsed' hostname' port' →
      ((surfaceIdentity (identityLib tables upper casefold hexdigest) kind u intelligence =
          surfaceIdentity (identityLib tables upper casefold hexdigest) kind v intelligence ↔
        SameUrl (identityLib tables upper casefold hexdigest).toTables parsed hostname port parsed' hostname' port') ↔
        ¬ Confused (identityLib tables upper casefold hexdigest).toTables parsed hostname port parsed' hostname' port') := by
  constructor
  · intro kind value intelligence identity h
    obtain ⟨hblank, hexcluded, hidentity⟩ := identity_of_surface h
    rw [surface_of_identity hexcluded]
    exact identity_again_iff htables kind (strip_strip value) hblank hidentity
  · intro kind hkind intelligence u v parsed parsed' hostname hostname' port port' hu hv
    rw [same_identity_iff htables hkind intelligence hu hv]
    constructor
    · intro hiff hconfused
      exact hconfused.not_same (hiff.mp (.inr hconfused))
    · intro hnot
      exact ⟨fun hor => hor.resolve_right hnot, .inl⟩

/-! ## Tables that know ASCII only -/

/-- A case mapping that changes one letter at a time. -/
theorem mapsCase_of_map {f : String → String} {change : Char → Char}
    (hf : ∀ text : String, (f text).toList = text.toList.map change)
    (hagain : ∀ c, change (change c) = change c) (hkept : ∀ c, IsPlain c → change c = c)
    (hfresh : ∀ c, IsPlain (change c) → change c = c) : MapsCase f := by
  refine ⟨fun c piece => piece = [change c], ?_, ?_⟩
  · refine ⟨?_, ?_, ?_, ?_⟩
    · rintro c piece rfl
      exact List.cons_ne_nil _ _
    · rintro c piece rfl d hd again rfl
      rw [List.mem_singleton.mp hd, hagain]
    · rintro c piece rfl hplain
      rw [hkept c hplain]
    · rintro c piece rfl d hd hplain
      obtain rfl := List.mem_singleton.mp hd
      exact hfresh c hplain
  · intro text
    rw [hf]
    generalize text.toList = cs
    induction cs with
    | nil => exact .nil
    | cons c cs ih => exact .cons rfl ih

theorem isAlpha_of_upper {c : Char} (h : 65 ≤ c.toNat ∧ c.toNat ≤ 90) : c.isAlpha = true :=
  isAlpha_iff.mpr (.inl (isUpper_iff.mpr h))

theorem isAlpha_of_lower {c : Char} (h : 97 ≤ c.toNat ∧ c.toNat ≤ 122) : c.isAlpha = true :=
  isAlpha_iff.mpr (.inr (isLower_iff.mpr h))

theorem not_isPlain_of_alpha {c : Char} (h : c.isAlpha = true) : ¬ IsPlain c := by
  rintro (hspace | ⟨-, halpha⟩)
  · rw [(alpha_not_space h).1] at hspace
    cases hspace
  · rw [h] at halpha
    cases halpha

theorem toLower_plain {c : Char} (h : IsPlain c ∨ IsPlain c.toLower) : c.toLower = c := by
  by_cases hupper : 65 ≤ c.toNat ∧ c.toNat ≤ 90
  · exfalso
    have halpha := isAlpha_of_upper hupper
    rcases h with h | h
    · exact not_isPlain_of_alpha halpha h
    · exact not_isPlain_of_alpha (isAlpha_toLower halpha) h
  · exact toLower_of_not_upper hupper

theorem toUpper_toUpper (c : Char) : c.toUpper.toUpper = c.toUpper := by
  by_cases hlower : 97 ≤ c.toNat ∧ c.toNat ≤ 122
  · have hcode := toNat_toUpper hlower
    exact toUpper_of_not_lower (by omega)
  · rw [toUpper_of_not_lower hlower]
    exact toUpper_of_not_lower hlower

theorem toUpper_plain {c : Char} (h : IsPlain c ∨ IsPlain c.toUpper) : c.toUpper = c := by
  by_cases hlower : 97 ≤ c.toNat ∧ c.toNat ≤ 122
  · exfalso
    rcases h with h | h
    · exact not_isPlain_of_alpha (isAlpha_of_lower hlower) h
    · have hcode := toNat_toUpper hlower
      exact not_isPlain_of_alpha (isAlpha_of_upper (by omega)) h
  · exact toUpper_of_not_lower hlower

/-- Other letters keep their case. -/
def asciiIdentityLib : IdentityLib :=
  identityLib asciiTables (fun text => String.ofList (text.toList.map Char.toUpper))
    (fun text => String.ofList (text.toList.map Char.toLower)) id

theorem asciiIdentityLib_case : CaseTables asciiIdentityLib where
  lower := mapsCase_of_map strLower_ascii toLower_toLower (fun _ h => toLower_plain (.inl h))
    fun _ h => toLower_plain (.inr h)
  upper := by
    refine mapsCase_of_map ?_ toUpper_toUpper (fun _ h => toUpper_plain (.inl h)) fun _ h => toUpper_plain (.inr h)
    intro text
    unfold strUpper
    split <;> exact String.toList_ofList
  casefold := by
    refine mapsCase_of_map ?_ toLower_toLower (fun _ h => toLower_plain (.inl h)) fun _ h => toLower_plain (.inr h)
    intro text
    unfold strCasefold
    split <;> exact String.toList_ofList
  checked := by
    refine ⟨fun _ => False, fun _ _ h => h, ?_, fun _ _ _ h => h.elim⟩
    intro netloc hnetloc
    refine iff_of_true ?_ fun _ _ h => h
    unfold checkNetloc
    split
    · rfl
    · show (decide (_ = _) || _) = true
      simp [asciiIdentityLib, identityLib, ipaddressLib, asciiTables]

theorem shouted_url : WebUrl asciiIdentityLib.toTables "HTTPS://Example.com.:443"
    ⟨"https", "Example.com.:443", "", "", ""⟩ "example.com." (some 443) :=
  ⟨⟨by decide +kernel, by decide, by decide +kernel, by decide +kernel⟩, .inr rfl⟩

theorem plain_url : WebUrl asciiIdentityLib.toTables "https://example.com/"
    ⟨"https", "example.com", "/", "", ""⟩ "example.com" none :=
  ⟨⟨by decide +kernel, by decide, by decide +kernel, by decide +kernel⟩, .inr rfl⟩

/-- Case, a trailing dot, the port of the scheme and an empty path tell no two URLs apart. -/
theorem surface_identity_law_plain :
    surfaceIdentity asciiIdentityLib .url "HTTPS://Example.com.:443" false =
      surfaceIdentity asciiIdentityLib .url "https://example.com/" false := by
  have hlaw := (surface_identity_law asciiTables _ _ _ asciiIdentityLib_case).2 .url (by decide) false _ _ _ _ _ _ _ _
    shouted_url plain_url
  refine (hlaw.mpr ?_).mpr ⟨rfl, by decide +kernel, rfl, rfl, rfl⟩
  rintro ⟨-, -, -, ⟨-, n, hport, -⟩ | ⟨-, n, hport, -⟩⟩
  · cases hport
  · have hnone : shownPortOf "https" (some 443) = none := by decide
    rw [hnone] at hport
    cases hport

/-- An IPv6 host loses its brackets: its canonical URL has no identity, and two services of two ports have one
    URL. -/
theorem bracketed_identity :
    (surfaceIdentity asciiIdentityLib .url "http://[2001:db8::1]/" false =
        .ok (some ⟨.endpoint, "http://2001:db8::1/"⟩) ∧
      surfaceIdentity asciiIdentityLib .url "http://2001:db8::1/" false =
        .error (.valueError "Port could not be cast to integer value")) ∧
    surfaceIdentity asciiIdentityLib .url "http://[::1]:8080/" false =
      surfaceIdentity asciiIdentityLib .url "http://[::1:8080]/" false ∧
    WebUrl asciiIdentityLib.toTables "http://[::1]:8080/" ⟨"http", "[::1]:8080", "/", "", ""⟩ "::1" (some 8080) ∧
    WebUrl asciiIdentityLib.toTables "http://[::1:8080]/" ⟨"http", "[::1:8080]", "/", "", ""⟩ "::1:8080" none := by
  refine ⟨⟨by decide +kernel, by decide +kernel⟩, by decide +kernel, ?_, ?_⟩
  · exact ⟨⟨by decide +kernel, by decide, by decide +kernel, by decide +kernel⟩, .inl rfl⟩
  · exact ⟨⟨by decide +kernel, by decide, by decide +kernel, by decide +kernel⟩, .inl rfl⟩

end NightScout
