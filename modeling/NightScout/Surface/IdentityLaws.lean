import NightScout.Surface.KeptServices

/-!
# An identity is an identity of itself

`Settled` says which texts keep their identity when the canonical value is read again. It is no condition for
most kinds. A name must not end in white space before its dots; a URL that is written must not end in white
space, and its host must be found again behind the scheme; a service must not be empty.
-/

namespace NightScout

open Lib

/-- The library with `ipaddress` as it is. -/
def identityLib (tables : Tables) (upper casefold hexdigest : String → String) : IdentityLib where
  toScopeLib := ipaddressLib tables
  upper := upper
  casefold := casefold
  hexdigest := hexdigest

/-! ## When a text keeps its identity -/

/-- A name without its wildcard and its dots. -/
def bareName (material : String) : String :=
  rstripDots (strip (if isWildcard material then suffixOf material else material))

/-- Something is left of a name unless it is a wildcard, and what is left does not end with white space. -/
def NameSettled (material : String) : Prop :=
  (bareName material = "" → isWildcard material = true) ∧ EndsSolid (bareName material).toList

/-- What is shown last of a URL. -/
def shownEnd (parsed : SplitResult) : String := if parsed.query = "" then pathOf parsed else parsed.query

/-- The URL ends solid, and its host has no bracket and is kept. -/
def UrlSettled (tables : Tables) (material : String) : Prop :=
  ∀ parsed hostname port, UrlOf tables material parsed hostname port →
    EndsSolid (shownEnd parsed).toList ∧ ¬ Bracketed (hostOf tables hostname) ∧
      HostKept parsed.scheme (hostOf tables hostname) port

/-- The URL ends solid, and its host has a bracket, or is followed by what is no port, or is kept. -/
def LenientUrlSettled (tables : Tables) (material : String) : Prop :=
  ∀ parsed hostname port, UrlOf tables material parsed hostname port →
    EndsSolid (shownEnd parsed).toList ∧ (Bracketed (hostOf tables hostname) ∨
      PortUnread (shownNetloc parsed.scheme (hostOf tables hostname) port) ∨
      HostKept parsed.scheme (hostOf tables hostname) port)

/-- What is no URL has more than slashes and does not end with white space before them, and it is no service in
    lower case, or the same one. A URL has a network location that is shown and ends solid, and its host has a
    bracket, or is followed by what is no port, or is kept. -/
def ServiceSettled (tables : Tables) (material : String) : Prop :=
  ((∀ parsed hostname port, ¬ UrlOf tables material parsed hostname port) →
    rstripSlashes material ≠ "" ∧ EndsSolid (rstripSlashes material).toList ∧
      ∀ service, serviceFromUrl tables (rstripSlashes (strLower tables material)) = some service →
        service = rstripSlashes (strLower tables material)) ∧
  ∀ parsed hostname port, UrlOf tables material parsed hostname port →
    (shownNetloc parsed.scheme (hostOf tables hostname) port ≠ "" ∧
      EndsSolid (shownNetloc parsed.scheme (hostOf tables hostname) port).toList) ∧
    (Bracketed (hostOf tables hostname) ∨
      PortUnread (shownNetloc parsed.scheme (hostOf tables hostname) port) ∨
      HostKept parsed.scheme (hostOf tables hostname) port)

/-- The text keeps its identity under a kind. -/
def Settled (tables : Tables) (kind : EventType) (material : String) : Prop :=
  match kind with
  | .rootDomain | .dnsName | .certSan => NameSettled material
  | .httpService => ServiceSettled tables material
  | .url | .apiEndpoint => UrlSettled tables material
  | .javascript | .artifact => LenientUrlSettled tables material
  | _ => True

/-! ## Reading a canonical value -/

section Again

variable {lib : IdentityLib} {kind : EventType} {value material : String} {intelligence : Bool}
  {identity : SurfaceIdentity}

/-- An identity is read from a text that is not blank. -/
theorem identity_of_surface (h : surfaceIdentity lib kind value intelligence = .ok (some identity)) :
    strip value ≠ "" ∧ ¬ (kind ∈ excludedIntelligence ∧ intelligence = false) ∧
      identityOf lib kind (strip value) = .ok (some identity) := by
  unfold surfaceIdentity at h
  simp only at h
  split at h
  · cases h
  next hblank =>
    split at h
    · cases h
    next hexcluded => exact ⟨hblank, hexcluded, h⟩

theorem surface_of_identity (hexcluded : ¬ (kind ∈ excludedIntelligence ∧ intelligence = false)) :
    surfaceIdentity lib kind value intelligence = .ok (some identity) ↔
      strip value ≠ "" ∧ identityOf lib kind (strip value) = .ok (some identity) := by
  constructor
  · intro h
    obtain ⟨hblank, -, hidentity⟩ := identity_of_surface h
    exact ⟨hblank, hidentity⟩
  · rintro ⟨hblank, hidentity⟩
    unfold surfaceIdentity
    simp only [if_neg hblank, if_neg hexcluded]
    exact hidentity

/-! ### Names -/

variable (htables : CaseTables lib)

/-- What is written of a name, without its wildcard. -/
def writtenName (lib : IdentityLib) (material : String) : String :=
  rstripDots (strLower lib.toTables (strip (if isWildcard material then suffixOf material else material)))

theorem normalizeDomainValue_eq (lib : IdentityLib) (material : String) : normalizeDomainValue lib.toTables material =
      if isWildcard material then "*." ++ writtenName lib material else writtenName lib material := rfl

theorem toList_star (name : String) : ("*." ++ name).toList = '*' :: '.' :: name.toList := by
  rw [String.toList_append]
  rfl

theorem isWildcard_iff {name : String} : isWildcard name = true ↔ ['*', '.'] <+: name.toList := by
  rw [isWildcard, decide_eq_true_eq, List.prefix_iff_eq_take]
  exact eq_comm

theorem head_rdropWhile {p q : Char → Bool} {cs : List Char} (h : cs.head?.any p = false) :
    (cs.rdropWhile q).head?.any p = false := by
  have hprefix := List.rdropWhile_prefix q cs
  cases hcut : cs.rdropWhile q with
  | nil => rfl
  | cons c rest =>
    rw [hcut] at hprefix
    obtain ⟨after, hafter⟩ := hprefix
    rw [← hafter] at h
    exact h

include htables

/-- The name that is written, with what is known of its ends. -/
theorem bareName_mapped : ∃ image, CaseImage IsPlain image ∧
    Mapped image (bareName material).toList (writtenName lib material).toList := by
  obtain ⟨image, himage, hmapped⟩ := htables.lower
  refine ⟨image, himage, ?_⟩
  rw [bareName, writtenName, toList_rstripDots, toList_rstripDots]
  apply (hmapped _).rdropWhile himage
  intro c hc
  obtain rfl := of_decide_eq_true hc
  exact isPlain_ascii (by decide) (by decide)

theorem writtenName_empty_iff : writtenName lib material = "" ↔ bareName material = "" := by
  obtain ⟨image, himage, hmapped⟩ := @bareName_mapped lib material htables
  rw [← String.toList_eq_nil_iff, ← String.toList_eq_nil_iff]
  exact hmapped.eq_nil_iff himage

theorem writtenName_ends : EndsSolid (writtenName lib material).toList ↔ EndsSolid (bareName material).toList := by
  obtain ⟨image, himage, hmapped⟩ := @bareName_mapped lib material htables
  unfold EndsSolid
  rw [hmapped.getLast?_any himage fun c hc => .inl hc]

theorem writtenName_head : (writtenName lib material).toList.head?.any isSpace = false := by
  obtain ⟨image, himage, hmapped⟩ := @bareName_mapped lib material htables
  rw [hmapped.head?_any himage fun c hc => .inl hc, bareName, toList_rstripDots]
  apply head_rdropWhile
  exact (strip_eq_self_iff.mp (strip_strip _)).1

theorem writtenName_lowered {text : String} (htext : ∀ c ∈ text.toList, c ∈ (writtenName lib material).toList) :
    strLower lib.toTables text = text :=
  htables.lower.fixed fun c hc => ⟨_, (rstripDots_sublist _).subset (htext c hc)⟩

/-- A name that is no wildcard does not become one. -/
theorem writtenName_plain (hstrip : strip material = material) (hwild : isWildcard material = false) {front : String}
    (hfront : front.toList <+: (writtenName lib material).toList) : isWildcard front = false := by
  by_contra hnot
  rw [Bool.not_eq_false, isWildcard_iff] at hnot
  obtain ⟨image, himage, hmapped⟩ := @bareName_mapped lib material htables
  have hplain : ∀ c ∈ ['*', '.'], IsPlain c := by
    intro c hc
    have hcases : c = '*' ∨ c = '.' := by simpa using hc
    rcases hcases with rfl | rfl <;> exact isPlain_ascii (by decide) (by decide)
  have hstart := (hmapped.prefix_iff himage hplain).mp (hnot.trans hfront)
  rw [bareName, toList_rstripDots, hwild] at hstart
  simp only [Bool.false_eq_true, if_false, hstrip] at hstart
  have hwild' := isWildcard_iff.mpr (hstart.trans (List.rdropWhile_prefix _ _))
  rw [hwild] at hwild'
  cases hwild'

theorem strip_writtenName : (strip (writtenName lib material)).toList =
    (writtenName lib material).toList.rdropWhile isSpace := by
  rw [toList_strip, stripChars_of_head (writtenName_head htables)]

/-- A name that is stripped and written again is the same exactly if there was nothing to strip. -/
theorem rstripDots_strip_iff : rstripDots (strip (writtenName lib material)) = writtenName lib material ↔
    EndsSolid (bareName material).toList := by
  rw [← writtenName_ends htables]
  constructor
  · intro hsame
    by_contra hspace
    have hshorter := rdropWhile_ne_self (by simpa [EndsSolid] using hspace :
      (writtenName lib material).toList.getLast?.any isSpace = true)
    have hle := (rstripDots_sublist (strip (writtenName lib material))).length_le
    rw [hsame, strip_writtenName htables] at hle
    omega
  · intro hsolid
    have hself : strip (writtenName lib material) = writtenName lib material := by
      apply String.toList_inj.mp
      rw [strip_writtenName htables, rdropWhile_eq_self hsolid]
    rw [hself, writtenName, rstripDots_rstripDots]

theorem strLower_strip_writtenName : strLower lib.toTables (strip (writtenName lib material)) =
    strip (writtenName lib material) := by
  apply writtenName_lowered htables
  rw [toList_strip]
  exact (stripChars_sublist _).subset

/-- **A name keeps its identity** exactly if it is settled. -/
theorem name_kept_iff (hstrip : strip material = material) :
    (strip (normalizeDomainValue lib.toTables material) ≠ "" ∧
      normalizeDomainValue lib.toTables (strip (normalizeDomainValue lib.toTables material)) =
        normalizeDomainValue lib.toTables material) ↔ NameSettled material := by
  have hlower := @strLower_strip_writtenName lib material htables
  have hsame := @rstripDots_strip_iff lib material htables
  unfold NameSettled
  rw [← hsame, ← writtenName_empty_iff htables]
  cases hwild : isWildcard material with
  | false =>
    have hprefix : (strip (writtenName lib material)).toList <+: (writtenName lib material).toList := by
      rw [strip_writtenName htables]
      exact List.rdropWhile_prefix _ _
    have hplain := writtenName_plain htables hstrip hwild hprefix
    have hagain : normalizeDomainValue lib.toTables (strip (writtenName lib material)) =
        rstripDots (strip (writtenName lib material)) := by
      rw [normalizeDomainValue_eq, hplain]
      simp only [Bool.false_eq_true, if_false]
      rw [writtenName, hplain]
      simp only [Bool.false_eq_true, if_false, strip_strip, hlower]
    rw [normalizeDomainValue_eq, hwild]
    simp only [Bool.false_eq_true, if_false, imp_false]
    rw [hagain]
    constructor
    · rintro ⟨hne, heq⟩
      refine ⟨?_, heq⟩
      intro hempty
      apply hne
      rw [hempty]
      rfl
    · rintro ⟨hne, heq⟩
      refine ⟨?_, heq⟩
      intro hempty
      apply hne
      rw [← heq, hempty]
      rfl
  | true =>
    have hcanonical : normalizeDomainValue lib.toTables material = "*." ++ writtenName lib material := by
      rw [normalizeDomainValue_eq, hwild, if_pos rfl]
    have hstar : strip ("*." ++ writtenName lib material) = "*." ++ strip (writtenName lib material) := by
      apply String.toList_inj.mp
      have hdot : isSpace '.' = false := by decide
      have hcut := rdropWhile_append_cons ['*'] (writtenName lib material).toList hdot
      rw [toList_strip, toList_star, toList_star, strip_writtenName htables, stripChars_of_head (by rfl)]
      exact hcut
    have hsuffix : suffixOf ("*." ++ strip (writtenName lib material)) = strip (writtenName lib material) := by
      apply String.toList_inj.mp
      rw [suffixOf, String.toList_ofList, toList_star]
      rfl
    have hwild' : isWildcard ("*." ++ strip (writtenName lib material)) = true := by
      rw [isWildcard_iff, toList_star]
      exact ⟨_, rfl⟩
    have hagain : normalizeDomainValue lib.toTables ("*." ++ strip (writtenName lib material)) =
        "*." ++ rstripDots (strip (writtenName lib material)) := by
      rw [normalizeDomainValue_eq, if_pos hwild', writtenName, hwild']
      simp only [if_true, hsuffix, strip_strip, hlower]
    rw [hcanonical, hstar, hagain]
    have hne : "*." ++ strip (writtenName lib material) ≠ "" := by
      intro hempty
      have hlist := congrArg String.toList hempty
      rw [toList_star] at hlist
      cases hlist
    simp only [hne, ne_eq, not_false_eq_true, true_and, implies_true]
    constructor
    · intro heq
      have hlists := congrArg String.toList heq
      rw [toList_star, toList_star] at hlists
      exact String.toList_inj.mp (List.cons.inj (List.cons.inj hlists).2).2
    · intro heq
      rw [heq]

/-! ### Services -/

omit htables in
theorem UrlOf.unique {tables : Tables} {parsed parsed' : SplitResult} {hostname hostname' : String}
    {port port' : Option ℕ} (h : UrlOf tables value parsed hostname port)
    (h' : UrlOf tables value parsed' hostname' port') : parsed' = parsed ∧ hostname' = hostname ∧ port' = port := by
  obtain rfl := Except.ok.inj (h'.split.symm.trans h.split)
  obtain rfl := Option.some.inj (h'.hostname.symm.trans h.hostname)
  obtain rfl := Except.ok.inj (h'.port.symm.trans h.port)
  exact ⟨rfl, rfl, rfl⟩

/-- What is written of a text that is no service. -/
def writtenText (lib : IdentityLib) (material : String) : String := rstripSlashes (strLower lib.toTables material)

/-- The text that is written, with what is known of its ends. -/
theorem writtenText_mapped : ∃ image, CaseImage IsPlain image ∧
    Mapped image (rstripSlashes material).toList (writtenText lib material).toList := by
  obtain ⟨image, himage, hmapped⟩ := htables.lower
  refine ⟨image, himage, ?_⟩
  rw [writtenText, toList_rstripSlashes, toList_rstripSlashes]
  apply (hmapped _).rdropWhile himage
  intro c hc
  obtain rfl := of_decide_eq_true hc
  exact isPlain_ascii (by decide) (by decide)

theorem writtenText_lowered {text : String} (htext : ∀ c ∈ text.toList, c ∈ (writtenText lib material).toList) :
    strLower lib.toTables text = text := by
  apply htables.lower.fixed
  intro c hc
  refine ⟨material, ?_⟩
  have hin := htext c hc
  rw [writtenText, toList_rstripSlashes] at hin
  exact (List.rdropWhile_prefix _ _).subset hin

/-- A text that is no service keeps its identity as far as it ends solid, and is no other service in lower
    case. -/
theorem text_kept_iff (hstrip : strip material = material) :
    (strip (writtenText lib material) ≠ "" ∧
      normalizeService lib.toTables (strip (writtenText lib material)) = writtenText lib material) ↔
      rstripSlashes material ≠ "" ∧ EndsSolid (rstripSlashes material).toList ∧
        ∀ service, serviceFromUrl lib.toTables (writtenText lib material) = some service →
          service = writtenText lib material := by
  obtain ⟨image, himage, hmapped⟩ := @writtenText_mapped lib material htables
  have hempty : writtenText lib material = "" ↔ rstripSlashes material = "" := by
    rw [← String.toList_eq_nil_iff, ← String.toList_eq_nil_iff]
    exact hmapped.eq_nil_iff himage
  have hends : EndsSolid (writtenText lib material).toList ↔ EndsSolid (rstripSlashes material).toList := by
    unfold EndsSolid
    rw [hmapped.getLast?_any himage fun c hc => .inl hc]
  have hhead : (writtenText lib material).toList.head?.any isSpace = false := by
    rw [hmapped.head?_any himage fun c hc => .inl hc, toList_rstripSlashes]
    exact head_rdropWhile (strip_eq_self_iff.mp hstrip).1
  have hcut : (strip (writtenText lib material)).toList = (writtenText lib material).toList.rdropWhile isSpace := by
    rw [toList_strip, stripChars_of_head hhead]
  have hlower : strLower lib.toTables (strip (writtenText lib material)) = strip (writtenText lib material) := by
    apply writtenText_lowered htables
    rw [toList_strip]
    exact (stripChars_sublist _).subset
  unfold normalizeService
  rw [← hends, strip_strip, hlower, ne_eq, ne_eq, ← hempty]
  by_cases hsolid : EndsSolid (writtenText lib material).toList
  · have hself : strip (writtenText lib material) = writtenText lib material := by
      apply String.toList_inj.mp
      rw [hcut, rdropWhile_eq_self hsolid]
    have hslashes : rstripSlashes (writtenText lib material) = writtenText lib material := by
      apply String.toList_inj.mp
      rw [toList_rstripSlashes, writtenText, toList_rstripSlashes, List.rdropWhile_idempotent]
    rw [hself, hslashes]
    simp only [hsolid, true_and]
    refine and_congr_right fun _ => ?_
    cases serviceFromUrl lib.toTables (writtenText lib material) with
    | none => simp
    | some service => simp
  · refine iff_of_false ?_ fun hand => hsolid hand.2.1
    rintro ⟨-, hsame⟩
    cases hread : serviceFromUrl lib.toTables (strip (writtenText lib material)) with
    | some service =>
      rw [hread, Option.getD_some] at hsame
      rw [hsame] at hread
      exact hsolid (endsSolid_of_service htables hread)
    | none =>
      rw [hread, Option.getD_none] at hsame
      have hshorter := rdropWhile_ne_self (by simpa [EndsSolid] using hsolid :
        (writtenText lib material).toList.getLast?.any isSpace = true)
      have hle := (List.rdropWhile_prefix (fun c => decide (c = '/')) (strip (writtenText lib material)).toList).length_le
      rw [← toList_rstripSlashes, hsame, hcut] at hle
      omega

/-- **A service keeps its identity** exactly if it is settled. -/
theorem service_settled_iff (hstrip : strip material = material) :
    (strip (normalizeService lib.toTables material) ≠ "" ∧
      normalizeService lib.toTables (strip (normalizeService lib.toTables material)) =
        normalizeService lib.toTables material) ↔ ServiceSettled lib.toTables material := by
  unfold ServiceSettled
  cases hread : serviceFromUrl lib.toTables material with
  | none =>
    have hnone : ∀ parsed hostname port, ¬ UrlOf lib.toTables material parsed hostname port := by
      intro parsed hostname port hurl
      rw [serviceFromUrl_of hurl] at hread
      cases hread
    have hwritten : normalizeService lib.toTables material = writtenText lib material := by
      rw [normalizeService, hread, Option.getD_none, hstrip]
      rfl
    rw [hwritten, text_kept_iff htables hstrip]
    constructor
    · intro hsettled
      exact ⟨fun _ => hsettled, fun parsed hostname port hurl => absurd hurl (hnone parsed hostname port)⟩
    · intro hsettled
      exact hsettled.1 hnone
  | some service =>
    obtain ⟨parsed, hostname, port, hurl, rfl⟩ := serviceFromUrl_some hread
    have hwritten : normalizeService lib.toTables material =
        urlText parsed.scheme (writtenParts lib.toTables parsed hostname port).netloc [] := by
      rw [normalizeService, hread, Option.getD_some]
    have hne : ∀ netloc, strip (urlText parsed.scheme netloc []) ≠ "" := by
      intro netloc
      rw [strip_urlText hurl.isScheme]
      intro hempty
      have hlist := congrArg String.toList hempty
      rw [urlText_nil_toList] at hlist
      simp at hlist
    rw [hwritten, service_kept_iff htables hurl, netloc_written hurl]
    constructor
    · rintro ⟨-, hsettled⟩
      refine ⟨fun hnone => absurd hurl (hnone _ _ _), ?_⟩
      intro parsed' hostname' port' hurl'
      obtain ⟨rfl, rfl, rfl⟩ := hurl.unique hurl'
      exact hsettled
    · rintro ⟨-, hsettled⟩
      exact ⟨hne _, hsettled parsed hostname port hurl⟩

end Again

end NightScout
