import NightScout.Surface.KeptIdentities

/-!
# Services are read again

A service is written as a scheme and a network location, without a path. A text that is no such URL is put in
lower case and loses its trailing slashes.
-/

namespace NightScout

open Lib

section Services

variable {lib : IdentityLib} {value hostname : String} {parsed : SplitResult} {port : Option ℕ}

theorem isTail_nil : IsTail [] := ⟨.inl rfl, fun _ hc => by cases hc⟩

theorem urlText_nil_toList (scheme netloc : String) :
    (urlText scheme netloc []).toList = scheme.toList ++ ':' :: '/' :: '/' :: netloc.toList := by
  rw [urlText, String.toList_ofList, List.append_nil]

theorem serviceFromUrl_of (h : UrlOf lib.toTables value parsed hostname port) : serviceFromUrl lib.toTables value =
      some (urlText parsed.scheme (writtenParts lib.toTables parsed hostname port).netloc []) := by
  unfold serviceFromUrl
  simp only [h.split, h.hostname, if_neg h.scheme, h.port, h.isScheme.strLower]
  congr 1
  apply String.toList_inj.mp
  rw [urlText_nil_toList, netloc_written h]
  simp only [toString, String.toList_append, hostOf, List.append_assoc]
  rfl

/-- What is read as a service is a URL with a scheme and a host. -/
theorem serviceFromUrl_some {service : String} (h : serviceFromUrl lib.toTables value = some service) :
    ∃ parsed hostname port, UrlOf lib.toTables value parsed hostname port ∧
      service = urlText parsed.scheme (writtenParts lib.toTables parsed hostname port).netloc [] := by
  have hread := h
  unfold serviceFromUrl at h
  split at h
  · cases h
  next parsed hsplit =>
    split at h
    · cases h
    next hostname hname =>
      split at h
      · cases h
      next hscheme =>
        split at h
        · cases h
        next port hport =>
          have hurl : UrlOf lib.toTables value parsed hostname port := ⟨hsplit, hscheme, hname, hport⟩
          rw [serviceFromUrl_of hurl] at hread
          exact ⟨parsed, hostname, port, hurl, (Option.some.inj hread).symm⟩

theorem serviceFromUrl_none_of_error {e : PyError} (h : normalizeUrl lib.toTables value = .error e) :
    serviceFromUrl lib.toTables value = none := by
  cases hread : serviceFromUrl lib.toTables value with
  | none => rfl
  | some service =>
    obtain ⟨parsed, hostname, port, hurl, -⟩ := serviceFromUrl_some hread
    rw [normalizeUrl_of hurl] at h
    cases h

theorem serviceFromUrl_none_of_nameless {scheme netloc : String} {tail : List Char}
    (h : ShownNetloc lib.toTables netloc) (hscheme : IsScheme scheme) (htail : IsTail tail)
    (hbrackets : ¬ Bracketed netloc) (hname : nameText netloc = "") :
    serviceFromUrl lib.toTables (urlText scheme netloc tail) = none := by
  unfold serviceFromUrl
  simp only [h.urlsplit_plain hscheme htail hbrackets, h.hostname hbrackets, if_pos hname]

/-- Part of a network location, without its end. -/
theorem ShownNetloc.of_prefix {netloc front : String} (htables : CaseTables lib)
    (h : ShownNetloc lib.toTables netloc) (hfront : front.toList <+: netloc.toList) :
    ShownNetloc lib.toTables front := by
  have hsub : ∀ c ∈ front.toList, c ∈ netloc.toList := fun c hc => hfront.subset hc
  obtain ⟨hides, -, hcheck, -⟩ := htables.checked
  refine ⟨fun c hc => h.clean c (hsub c hc), fun hand => h.brackets ⟨hsub _ hand.1, hsub _ hand.2⟩, ?_,
    fun text htext => h.lowered text fun c hc => hsub c (htext c hc)⟩
  have hnot := (hcheck netloc fun c hc => (h.clean c hc).1).mp h.checked
  rw [hcheck front fun c hc => (h.clean c (hsub c hc)).1]
  exact fun c hc => hnot c (hsub c hc)

theorem getLast?_urlText {scheme netloc : String} (hne : netloc ≠ "") :
    (urlText scheme netloc []).toList.getLast? = netloc.toList.getLast? := by
  have hne' : netloc.toList ≠ [] := fun hnil => hne (String.toList_eq_nil_iff.mp hnil)
  have hsplit : scheme.toList ++ ':' :: '/' :: '/' :: netloc.toList =
      (scheme.toList ++ [':', '/', '/']) ++ netloc.toList := by simp
  rw [urlText_nil_toList, hsplit, List.getLast?_append_of_ne_nil _ hne']

theorem endsSolid_urlText {scheme netloc : String} (hne : netloc ≠ "") :
    EndsSolid (urlText scheme netloc []).toList ↔ EndsSolid netloc.toList := by
  unfold EndsSolid
  rw [getLast?_urlText hne]

/-- Stripping a service cuts the end of its network location. -/
theorem strip_urlText {scheme netloc : String} (hscheme : IsScheme scheme) :
    strip (urlText scheme netloc []) = urlText scheme (String.ofList (netloc.toList.rdropWhile isSpace)) [] := by
  apply String.toList_inj.mp
  have hslash : isSpace '/' = false := by decide
  have hcut := rdropWhile_append_cons (scheme.toList ++ [':', '/']) netloc.toList hslash
  rw [urlText, List.append_nil, toList_strip_scheme hscheme, urlText_nil_toList, String.toList_ofList]
  simpa using hcut

theorem digit_not_space {c : Char} (h : c.isDigit = true) : isSpace c = false := by
  have hcode := isDigit_iff.mp h
  simp only [isSpace, Bool.or_eq_false_iff, Bool.and_eq_false_iff, decide_eq_false_iff_not]
  omega

theorem length_nameText_le (netloc : String) : (nameText netloc).toList.length ≤ netloc.toList.length := by
  rw [nameText, String.toList_ofList]
  exact (List.takeWhile_prefix _).length_le

/-- What is cut off the end of a service does not come back. -/
theorem endsSolid_of_service (htables : CaseTables lib) {service : String}
    (h : serviceFromUrl lib.toTables (strip service) = some service) : EndsSolid service.toList := by
  obtain ⟨parsed, hostname, port, hurl, hservice⟩ := serviceFromUrl_some h
  have hshown := shown_of_url htables hurl
  have htext := netloc_written hurl
  generalize (writtenParts lib.toTables parsed hostname port).netloc = netloc at hservice hshown htext
  by_contra hspace
  by_cases hempty : netloc = ""
  · apply hspace
    rw [hservice, hempty, urlText_nil_toList]
    simp [EndsSolid, isSpace]
  rw [hservice, endsSolid_urlText hempty, EndsSolid, Bool.not_eq_false] at hspace
  have hshorter := rdropWhile_ne_self hspace
  -- a port that is shown ends in a digit, so the host ends in white space
  have hhost : netloc = hostOf lib.toTables hostname := by
    apply String.toList_inj.mp
    rw [htext, shownNetloc_toList] at hspace ⊢
    cases hport : shownPortOf parsed.scheme port with
    | none => rw [portText, List.append_nil]
    | some n =>
      exfalso
      rw [hport, portText, List.getLast?_append_of_ne_nil _ (List.cons_ne_nil _ _),
        List.getLast?_cons_of_ne_nil Nat.toDigits_ne_nil] at hspace
      rw [List.getLast?_eq_some_getLast Nat.toDigits_ne_nil, Option.any_some] at hspace
      have hdigit := Nat.isDigit_of_mem_toDigits (by decide) (by decide)
        (List.getLast_mem (Nat.toDigits_ne_nil : Nat.toDigits 10 n ≠ []))
      rw [digit_not_space hdigit] at hspace
      cases hspace
  -- the host that is read the second time is shorter
  have hfront : (String.ofList (netloc.toList.rdropWhile isSpace)).toList <+: netloc.toList := by
    rw [String.toList_ofList]
    exact List.rdropWhile_prefix _ _
  have hcut := hshown.of_prefix htables hfront
  have hsplit := hurl.split
  rw [hservice, strip_urlText hurl.isScheme] at hsplit
  by_cases hbrackets : Bracketed (String.ofList (netloc.toList.rdropWhile isSpace))
  · rw [hcut.urlsplit_bracketed hurl.isScheme isTail_nil hbrackets] at hsplit
    cases hsplit
  · rw [hcut.urlsplit_plain hurl.isScheme isTail_nil hbrackets] at hsplit
    have hname := hurl.hostname
    rw [← Except.ok.inj hsplit, hcut.hostname hbrackets] at hname
    split at hname
    · cases hname
    · obtain rfl := Option.some.inj hname
      rw [hcut.hostOf_name] at hhost
      have hle := ((rstripDots_sublist (nameText (String.ofList (netloc.toList.rdropWhile isSpace)))).length_le).trans
        (length_nameText_le _)
      rw [← hhost, String.toList_ofList] at hle
      omega

/-- The text of a service is in lower case as far as it has one. -/
theorem strLower_urlText (htables : CaseTables lib) {scheme netloc : String} (hscheme : IsScheme scheme)
    (h : ShownNetloc lib.toTables netloc) {text : String}
    (htext : ∀ c ∈ text.toList, c ∈ (urlText scheme netloc []).toList) : strLower lib.toTables text = text := by
  apply htables.lower.fixed
  intro c hc
  have hin := htext c hc
  rw [urlText_nil_toList] at hin
  rcases List.mem_append.mp hin with hin | hin
  · refine ⟨scheme, ?_⟩
    rwa [hscheme.strLower]
  · by_cases hplain : c = ':' ∨ c = '/'
    · refine ⟨String.singleton c, ?_⟩
      rcases hplain with rfl | rfl
      · rw [strLower, if_pos (by decide)]
        decide
      · rw [strLower, if_pos (by decide)]
        decide
    · have hnetloc : c ∈ netloc.toList := by
        simp only [List.mem_cons] at hin
        tauto
      refine ⟨String.singleton c, ?_⟩
      rw [h.lowered _ fun d hd => by rwa [show d = c by simpa using hd]]
      simp

/-- **A service keeps its identity** exactly if its network location is not empty and ends solid, and its host
    has a bracket or is kept, or its port cannot be read. -/
theorem service_kept_iff (htables : CaseTables lib) (h : UrlOf lib.toTables value parsed hostname port) :
    normalizeService lib.toTables
        (strip (urlText parsed.scheme (writtenParts lib.toTables parsed hostname port).netloc [])) =
        urlText parsed.scheme (writtenParts lib.toTables parsed hostname port).netloc [] ↔
      ((writtenParts lib.toTables parsed hostname port).netloc ≠ "" ∧
        EndsSolid (writtenParts lib.toTables parsed hostname port).netloc.toList) ∧
        (Bracketed (hostOf lib.toTables hostname) ∨ PortUnread (writtenParts lib.toTables parsed hostname port).netloc ∨
          HostKept parsed.scheme (hostOf lib.toTables hostname) port) := by
  have hshown := shown_of_url htables h
  rw [← bracketed_written h]
  have hkept := kept_iff htables h
  have hnameless := kept_of_nameless h
  generalize (writtenParts lib.toTables parsed hostname port).netloc = netloc at hshown hkept hnameless ⊢
  have hscheme := h.isScheme
  have hlowered : ∀ {text : String}, (∀ c ∈ text.toList, c ∈ (urlText parsed.scheme netloc []).toList) →
      strLower lib.toTables text = text := strLower_urlText htables hscheme hshown
  have hstrip : (strip (urlText parsed.scheme netloc [])).toList.Sublist (urlText parsed.scheme netloc []).toList := by
    rw [toList_strip]
    exact stripChars_sublist _
  unfold normalizeService
  rw [strip_strip, hlowered hstrip.subset]
  by_cases hempty : netloc = ""
  · -- without a network location the slashes go
    refine iff_of_false ?_ fun hand => hand.1.1 hempty
    subst hempty
    have hself : strip (urlText parsed.scheme "" []) = urlText parsed.scheme "" [] := by
      rw [strip_urlText hscheme]
      rfl
    have hnone := serviceFromUrl_none_of_nameless hshown hscheme isTail_nil (by simp [Bracketed]) rfl
    rw [hself, hnone, Option.getD_none]
    intro hsame
    have hcut := @rdropWhile_append_cons (fun c => decide (c = '/')) parsed.scheme.toList ['/', '/'] ':'
      (by decide)
    have hlists := congrArg String.toList hsame
    rw [toList_rstripSlashes, urlText_nil_toList] at hlists
    have hlength := congrArg List.length (hcut.symm.trans hlists)
    simp [List.rdropWhile] at hlength
  by_cases hsolid : EndsSolid netloc.toList
  · have hself : strip (urlText parsed.scheme netloc []) = urlText parsed.scheme netloc [] := by
      rw [strip_urlText hscheme, rdropWhile_eq_self hsolid, String.ofList_toList]
    have hslashless : rstripSlashes (urlText parsed.scheme netloc []) = urlText parsed.scheme netloc [] := by
      apply String.toList_inj.mp
      rw [toList_rstripSlashes]
      apply rdropWhile_eq_self
      rw [getLast?_urlText hempty]
      cases hlast : netloc.toList.getLast? with
      | none => rfl
      | some c =>
        have hclean := (hshown.clean c (List.mem_of_getLast? hlast)).1
        simp only [Option.any_some, decide_eq_false_iff_not]
        rintro rfl
        revert hclean
        decide
    rw [hself, hslashless]
    have hstays : serviceFromUrl lib.toTables (urlText parsed.scheme netloc []) = none →
        (serviceFromUrl lib.toTables (urlText parsed.scheme netloc [])).getD (urlText parsed.scheme netloc []) =
          urlText parsed.scheme netloc [] := by
      intro hnone
      rw [hnone]
      rfl
    simp only [hempty, hsolid, ne_eq, not_false_eq_true, true_and]
    by_cases hbrackets : Bracketed netloc
    · obtain ⟨e, he⟩ := normalizeUrl_unread hshown hscheme isTail_nil (.inl hbrackets)
      exact iff_of_true (hstays (serviceFromUrl_none_of_error he)) (.inl hbrackets)
    by_cases hname : nameText netloc = ""
    · exact iff_of_true
        (hstays (serviceFromUrl_none_of_nameless hshown hscheme isTail_nil hbrackets hname))
        (.inr (.inr (hnameless hname)))
    cases hport : netlocPort netloc with
    | error e =>
      obtain ⟨e', he'⟩ := normalizeUrl_unread hshown hscheme isTail_nil (.inr ⟨hname, e, hport⟩)
      exact iff_of_true (hstays (serviceFromUrl_none_of_error he')) (.inr (.inl ⟨e, hport⟩))
    | ok again =>
      have hagain := urlOf_again hshown hscheme isTail_nil hbrackets hname hport
      rw [serviceFromUrl_of hagain, Option.getD_some, netloc_written hagain, hshown.hostOf_name]
      have hread : ¬ PortUnread netloc := by
        rintro ⟨e, he⟩
        rw [hport] at he
        cases he
      simp only [hbrackets, hread, false_or]
      rw [← hkept hbrackets hname, hport]
      constructor
      · intro hsame
        refine ⟨again, rfl, ?_⟩
        have hlists := congrArg String.toList hsame
        rw [urlText_nil_toList, urlText_nil_toList] at hlists
        have hrest := List.append_cancel_left hlists
        exact String.toList_inj.mp (List.cons.inj (List.cons.inj (List.cons.inj hrest).2).2).2
      · rintro ⟨again', hagain', hsame⟩
        obtain rfl := Except.ok.inj hagain'
        exact congrArg (fun netloc => urlText parsed.scheme netloc []) hsame
  · refine iff_of_false ?_ fun hand => hsolid hand.1.2
    intro hsame
    cases hread : serviceFromUrl lib.toTables (strip (urlText parsed.scheme netloc [])) with
    | some service =>
      rw [hread, Option.getD_some] at hsame
      rw [hsame] at hread
      exact hsolid ((endsSolid_urlText hempty).mp (endsSolid_of_service htables hread))
    | none =>
      rw [hread, Option.getD_none] at hsame
      have hshorter := rdropWhile_ne_self (by simpa [EndsSolid] using hsolid : netloc.toList.getLast?.any isSpace = true)
      have hle := (List.rdropWhile_prefix (fun c => decide (c = '/'))
        (strip (urlText parsed.scheme netloc [])).toList).length_le
      rw [← toList_rstripSlashes, hsame, strip_urlText hscheme, urlText_nil_toList, urlText_nil_toList,
        String.toList_ofList] at hle
      simp only [List.length_append, List.length_cons] at hle
      omega

end Services

end NightScout
