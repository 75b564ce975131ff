import NightScout.Surface.KeptUrls

/-!
# Identities are read again

The canonical value of an identity is read a second time under the same kind. `Settled` says, kind by kind, which
texts keep their identity then.
-/

namespace NightScout

open Lib

/-- The text does not end with white space. -/
def EndsSolid (text : List Char) : Prop := text.getLast?.any isSpace = false

/-- The port cannot be read. -/
def PortUnread (netloc : String) : Prop := ∃ e, netlocPort netloc = .error e

section Urls

variable {lib : IdentityLib} {value hostname : String} {parsed : SplitResult} {port : Option ℕ}

/-! ## What follows the network location -/

theorem isTail_of_written {parts : SplitResult} (h : Written parts) : IsTail (tailOf parts) :=
  ⟨.inr h.tail_head, h.tail_clean⟩

theorem isTail_rdropWhile {tail : List Char} (h : IsTail tail) : IsTail (tail.rdropWhile isSpace) := by
  have hclean : ∀ c ∈ tail.rdropWhile isSpace, c ≠ '#' ∧ isRemoved c = false :=
    fun c hc => h.clean c ((List.rdropWhile_prefix _ _).subset hc)
  refine ⟨?_, hclean⟩
  rcases h.head with rfl | ⟨rest, rfl⟩
  · exact .inl rfl
  · exact .inr ⟨_, rdropWhile_cons (by decide) rest⟩

/-- Stripping a text that starts with a scheme cuts its end only. -/
theorem toList_strip_scheme {scheme : String} (hscheme : IsScheme scheme) (rest : List Char) :
    (strip (String.ofList (scheme.toList ++ rest))).toList = (scheme.toList ++ rest).rdropWhile isSpace := by
  obtain ⟨c, cs, hcons, halpha⟩ := hscheme.head_append rest
  rw [toList_strip, String.toList_ofList, stripChars_of_head]
  rw [hcons]
  exact (alpha_not_space halpha).1

/-! ## What is written is read as a URL again, or not -/

section Again

variable {scheme netloc : String} {tail : List Char}

/-- A URL whose network location is a bracket, or has a port that is none, is not read. -/
theorem normalizeUrl_unread (h : ShownNetloc lib.toTables netloc) (hscheme : IsScheme scheme) (htail : IsTail tail)
    (hbad : Bracketed netloc ∨ nameText netloc ≠ "" ∧ PortUnread netloc) :
    ∃ e, normalizeUrl lib.toTables (urlText scheme netloc tail) = .error e := by
  unfold normalizeUrl
  by_cases hbrackets : Bracketed netloc
  · rw [h.urlsplit_bracketed hscheme htail hbrackets]
    exact ⟨_, rfl⟩
  · obtain ⟨hname, e, he⟩ := hbad.resolve_left hbrackets
    have hne : (partsAgain scheme netloc tail).scheme ≠ "" := hscheme.ne_empty
    rw [h.urlsplit_plain hscheme htail hbrackets]
    simp only [bind, Except.bind, h.hostname hbrackets, if_neg hname, if_neg hne, port_partsAgain, he]
    exact ⟨_, rfl⟩

/-- A URL whose network location starts with a colon, or is empty, is left as it is. -/
theorem normalizeUrl_nameless (h : ShownNetloc lib.toTables netloc) (hscheme : IsScheme scheme)
    (htail : IsTail tail) (hbrackets : ¬ Bracketed netloc) (hname : nameText netloc = "") :
    normalizeUrl lib.toTables (urlText scheme netloc tail) = .ok (strip (urlText scheme netloc tail)) :=
  normalizeUrl_plain (h.urlsplit_plain hscheme htail hbrackets)
    (.inl (by rw [h.hostname hbrackets, if_pos hname]))

theorem urlOf_again (h : ShownNetloc lib.toTables netloc) (hscheme : IsScheme scheme) (htail : IsTail tail)
    (hbrackets : ¬ Bracketed netloc) (hname : nameText netloc ≠ "") {again : Option ℕ}
    (hport : netlocPort netloc = .ok again) :
    UrlOf lib.toTables (urlText scheme netloc tail) (partsAgain scheme netloc tail) (nameText netloc) again where
  split := h.urlsplit_plain hscheme htail hbrackets
  scheme := hscheme.ne_empty
  hostname := by rw [h.hostname hbrackets, if_neg hname]
  port := hport

end Again

/-- A text without slashes behind its colon has no network location. -/
theorem normalizeUrl_hostless (lib : IdentityLib) {scheme : String} (hscheme : IsScheme scheme) {tail : List Char}
    (hclean : ∀ c ∈ tail, c ≠ '#' ∧ isRemoved c = false) (hslashes : tail.take 2 ≠ ['/', '/']) :
    normalizeUrl lib.toTables (String.ofList (scheme.toList ++ ':' :: tail)) =
      .ok (strip (String.ofList (scheme.toList ++ ':' :: tail))) := by
  have hsplit : ∃ parsed : SplitResult, urlsplit lib.toTables (String.ofList (scheme.toList ++ ':' :: tail)) =
      .ok parsed ∧ parsed.netloc = "" := by
    rw [urlsplit_after hscheme fun c hc => (hclean c hc).2, if_neg hslashes]
    exact ⟨_, rfl, rfl⟩
  obtain ⟨parsed, hparsed, hnetloc⟩ := hsplit
  apply normalizeUrl_plain hparsed
  left
  have hinfo : parsed.hostInfo.1 = [] := by
    unfold SplitResult.hostInfo
    rw [hnetloc]
    rfl
  unfold SplitResult.hostname
  rw [hinfo]
  rfl

/-! ## Written URLs -/

/-- A tail that is read again becomes no longer. -/
theorem length_tail_again {tables : Tables} {scheme netloc name : String} {again : Option ℕ} {tail : List Char}
    (hne : tail ≠ []) (htail : IsTail tail) :
    (tailOf (writtenParts tables (partsAgain scheme netloc tail) name again)).length ≤ tail.length := by
  obtain ⟨rest, rfl⟩ := htail.head.resolve_left hne
  by_cases hquestion : '?' ∈ '/' :: rest
  · obtain ⟨front, back, hsplit, hfront⟩ := List.eq_append_cons_of_mem hquestion
    have hpath : String.ofList front ≠ "" := by
      intro hempty
      have hnil := congrArg String.toList hempty
      rw [String.toList_ofList] at hnil
      rw [show front = [] from hnil] at hsplit
      cases hsplit
    rw [hsplit]
    simp only [tailOf, writtenParts, pathOf, partsAgain, partition_eq hfront, if_neg hpath, String.toList_ofList,
      List.length_append, List.length_cons]
    split <;> simp
  · have hpath : String.ofList ('/' :: rest) ≠ "" := by
      intro hempty
      have hnil := congrArg String.toList hempty
      rw [String.toList_ofList] at hnil
      cases hnil
    simp only [tailOf, writtenParts, pathOf, partsAgain, partition_of_notMem hquestion, if_neg hpath,
      String.toList_ofList]
    simp

theorem ifPossible_iff {tables : Tables} {text url : String} : normalizeUrlIfPossible tables text = url ↔
    normalizeUrl tables text = .ok url ∨ strip text = url ∧ ∃ e, normalizeUrl tables text = .error e := by
  unfold normalizeUrlIfPossible
  cases normalizeUrl tables text with
  | ok other => simp
  | error e => simp

section Kept

variable (htables : CaseTables lib) (h : UrlOf lib.toTables value parsed hostname port)

include htables h

theorem toList_written : (urlunsplitParts (writtenParts lib.toTables parsed hostname port)).toList =
    parsed.scheme.toList ++ ':' :: (slashesOf (writtenParts lib.toTables parsed hostname port) ++
      (writtenParts lib.toTables parsed hostname port).netloc.toList ++
      tailOf (writtenParts lib.toTables parsed hostname port)) := by
  have hscheme : (writtenParts lib.toTables parsed hostname port).scheme = parsed.scheme := h.isScheme.strLower
  rw [(h.written htables.lower).toList, hscheme]

/-- With the slashes, what is written is a scheme, a network location and a tail. -/
theorem written_text (hslashes : slashesOf (writtenParts lib.toTables parsed hostname port) = ['/', '/']) :
    urlunsplitParts (writtenParts lib.toTables parsed hostname port) =
      urlText parsed.scheme (writtenParts lib.toTables parsed hostname port).netloc
        (tailOf (writtenParts lib.toTables parsed hostname port)) := by
  apply String.toList_inj.mp
  rw [toList_written htables h, hslashes, urlText, String.toList_ofList]
  simp

/-- Without them, it is a scheme and a path. -/
theorem written_path (hslashes : slashesOf (writtenParts lib.toTables parsed hostname port) ≠ ['/', '/']) :
    urlunsplitParts (writtenParts lib.toTables parsed hostname port) =
      String.ofList (parsed.scheme.toList ++ ':' :: tailOf (writtenParts lib.toTables parsed hostname port)) ∧
    (writtenParts lib.toTables parsed hostname port).netloc = "" ∧
    (tailOf (writtenParts lib.toTables parsed hostname port)).take 2 ≠ ['/', '/'] := by
  obtain ⟨hnil, hnetloc, htake⟩ := (h.written htables.lower).slashes_nil hslashes
  refine ⟨?_, hnetloc, htake⟩
  apply String.toList_inj.mp
  rw [toList_written htables h, hnil, hnetloc, String.toList_ofList]
  simp

/-- Stripping what is written cuts its tail. -/
theorem toList_strip_written : (strip (urlunsplitParts (writtenParts lib.toTables parsed hostname port))).toList =
      parsed.scheme.toList ++ ':' :: (slashesOf (writtenParts lib.toTables parsed hostname port) ++
        (writtenParts lib.toTables parsed hostname port).netloc.toList ++
        (tailOf (writtenParts lib.toTables parsed hostname port)).rdropWhile isSpace) := by
  obtain ⟨rest, hrest⟩ := (h.written htables.lower).tail_head
  have hlist := toList_written htables h
  have htext : urlunsplitParts (writtenParts lib.toTables parsed hostname port) = String.ofList _ :=
    String.toList_inj.mp (hlist.trans String.toList_ofList.symm)
  rw [htext, toList_strip_scheme h.isScheme, hrest]
  generalize slashesOf (writtenParts lib.toTables parsed hostname port) ++
    (writtenParts lib.toTables parsed hostname port).netloc.toList = front
  have hslash : isSpace '/' = false := by decide
  have hcut := rdropWhile_append_cons (parsed.scheme.toList ++ ':' :: front) rest hslash
  rw [rdropWhile_cons hslash]
  simpa using hcut

/-- What ends solid has nothing to strip. -/
theorem strip_written_of_solid (hsolid : EndsSolid (tailOf (writtenParts lib.toTables parsed hostname port))) :
    strip (urlunsplitParts (writtenParts lib.toTables parsed hostname port)) =
      urlunsplitParts (writtenParts lib.toTables parsed hostname port) := by
  apply String.toList_inj.mp
  rw [toList_strip_written htables h, rdropWhile_eq_self hsolid, toList_written htables h]

omit htables in
theorem netloc_written : (writtenParts lib.toTables parsed hostname port).netloc =
    shownNetloc parsed.scheme (hostOf lib.toTables hostname) port := by
  rw [writtenParts, h.isScheme.strLower]

/-- What is cut off the end of a URL does not come back. -/
theorem not_again_of_space (hspace : ¬ EndsSolid (tailOf (writtenParts lib.toTables parsed hostname port))) :
    strip (urlunsplitParts (writtenParts lib.toTables parsed hostname port)) ≠
        urlunsplitParts (writtenParts lib.toTables parsed hostname port) ∧
      normalizeUrl lib.toTables (strip (urlunsplitParts (writtenParts lib.toTables parsed hostname port))) ≠
        .ok (urlunsplitParts (writtenParts lib.toTables parsed hostname port)) := by
  have hwritten := h.written htables.lower
  have htext := toList_written htables h
  have hstripped := toList_strip_written htables h
  have hshorter : ((tailOf (writtenParts lib.toTables parsed hostname port)).rdropWhile isSpace).length <
      (tailOf (writtenParts lib.toTables parsed hostname port)).length :=
    rdropWhile_ne_self (by simpa [EndsSolid] using hspace)
  have hne : strip (urlunsplitParts (writtenParts lib.toTables parsed hostname port)) ≠
      urlunsplitParts (writtenParts lib.toTables parsed hostname port) := by
    intro heq
    rw [heq, htext] at hstripped
    have hlength := congrArg List.length hstripped
    simp only [List.length_append, List.length_cons] at hlength
    omega
  refine ⟨hne, ?_⟩
  intro hok
  by_cases hslashes : slashesOf (writtenParts lib.toTables parsed hostname port) = ['/', '/']
  · have hshown := shown_of_url htables h
    have htail := isTail_rdropWhile (isTail_of_written hwritten)
    have hcut : (tailOf (writtenParts lib.toTables parsed hostname port)).rdropWhile isSpace ≠ [] := by
      obtain ⟨rest, hrest⟩ := hwritten.tail_head
      rw [hrest, rdropWhile_cons (by decide)]
      exact List.cons_ne_nil _ _
    have hread : strip (urlunsplitParts (writtenParts lib.toTables parsed hostname port)) =
        urlText parsed.scheme (writtenParts lib.toTables parsed hostname port).netloc
          ((tailOf (writtenParts lib.toTables parsed hostname port)).rdropWhile isSpace) := by
      apply String.toList_inj.mp
      rw [hstripped, hslashes, urlText, String.toList_ofList]
      simp
    by_cases hbad : Bracketed (writtenParts lib.toTables parsed hostname port).netloc ∨
        nameText (writtenParts lib.toTables parsed hostname port).netloc ≠ "" ∧
          PortUnread (writtenParts lib.toTables parsed hostname port).netloc
    · obtain ⟨e, he⟩ := normalizeUrl_unread hshown h.isScheme htail hbad
      rw [hread, he] at hok
      cases hok
    · have hbrackets := fun hbrackets => hbad (.inl hbrackets)
      by_cases hname : nameText (writtenParts lib.toTables parsed hostname port).netloc = ""
      · rw [hread, normalizeUrl_nameless hshown h.isScheme htail hbrackets hname, ← hread, strip_strip] at hok
        exact hne (Except.ok.inj hok)
      · cases hport : netlocPort (writtenParts lib.toTables parsed hostname port).netloc with
        | error e => exact hbad (.inr ⟨hname, e, hport⟩)
        | ok again =>
          have hagain := urlOf_again hshown h.isScheme htail hbrackets hname hport
          rw [hread, normalizeUrl_of hagain] at hok
          have hsame := (hagain.written htables.lower).inj hwritten (Except.ok.inj hok)
          have hle := @length_tail_again lib.toTables parsed.scheme
            (writtenParts lib.toTables parsed hostname port).netloc
            (nameText (writtenParts lib.toTables parsed hostname port).netloc) again _ hcut htail
          rw [hsame] at hle
          omega
  · obtain ⟨-, hnetloc, htake⟩ := written_path htables h hslashes
    have hread : strip (urlunsplitParts (writtenParts lib.toTables parsed hostname port)) =
        String.ofList (parsed.scheme.toList ++ ':' ::
          (tailOf (writtenParts lib.toTables parsed hostname port)).rdropWhile isSpace) := by
      apply String.toList_inj.mp
      rw [hstripped, (hwritten.slashes_nil hslashes).1, hnetloc, String.toList_ofList]
      simp
    have hstart := List.rdropWhile_prefix isSpace (tailOf (writtenParts lib.toTables parsed hostname port))
    have hclean : ∀ c ∈ (tailOf (writtenParts lib.toTables parsed hostname port)).rdropWhile isSpace,
        c ≠ '#' ∧ isRemoved c = false := fun c hc => hwritten.tail_clean c (hstart.subset hc)
    have hcut : ((tailOf (writtenParts lib.toTables parsed hostname port)).rdropWhile isSpace).take 2 ≠
        ['/', '/'] := by
      intro heq
      apply htake
      obtain ⟨rest, hrest⟩ := hstart
      have hlong := congrArg List.length heq
      simp only [List.length_take, List.length_cons, List.length_nil] at hlong
      rw [← hrest, List.take_append_of_le_length (by omega), heq]
    rw [hread, normalizeUrl_hostless lib h.isScheme hclean hcut, ← hread, strip_strip] at hok
    exact hne (Except.ok.inj hok)

omit htables in
theorem bracketed_written :
    Bracketed (writtenParts lib.toTables parsed hostname port).netloc ↔ Bracketed (hostOf lib.toTables hostname) := by
  have hport : ∀ {c : Char}, c = '[' ∨ c = ']' → c ∉ portText (shownPortOf parsed.scheme port) := by
    intro c hc hin
    have hclean := portText_clean hin
    rcases hc with rfl | rfl
    · exact hclean.2.2.2.1 rfl
    · exact hclean.2.2.2.2 rfl
  unfold Bracketed
  rw [netloc_written h, shownNetloc_toList]
  simp only [List.mem_append, hport (.inl rfl), hport (.inr rfl), or_false]

omit htables in
/-- A host before which nothing stands is kept as it is. -/
theorem kept_of_nameless (hname : nameText (writtenParts lib.toTables parsed hostname port).netloc = "") :
    HostKept parsed.scheme (hostOf lib.toTables hostname) port := by
  rw [netloc_written h] at hname
  have htext := shownNetloc_toList parsed.scheme (hostOf lib.toTables hostname) port
  by_cases hcolon : ':' ∈ (hostOf lib.toTables hostname).toList
  · have hin : ':' ∈ (shownNetloc parsed.scheme (hostOf lib.toTables hostname) port).toList := by
      rw [htext]
      exact List.mem_append_left _ hcolon
    obtain ⟨hsplit, -⟩ := split_colon hin
    rw [hname, htext] at hsplit
    right
    left
    cases hhost : (hostOf lib.toTables hostname).toList with
    | nil =>
      rw [hhost] at hcolon
      cases hcolon
    | cons c rest =>
      rw [hhost] at hsplit
      exact congrArg some (List.cons.inj hsplit).1
  · exact .inl hcolon

omit htables in
theorem port_le_of : ∀ p ∈ port, p ≤ 65535 := by
  intro p hp
  have hport := h.port
  rw [show port = some p from hp] at hport
  exact port_le hport

/-- The host and the port are found again exactly if the host is kept. -/
theorem kept_iff (hbrackets : ¬ Bracketed (writtenParts lib.toTables parsed hostname port).netloc)
    (hname : nameText (writtenParts lib.toTables parsed hostname port).netloc ≠ "") :
    (∃ again, netlocPort (writtenParts lib.toTables parsed hostname port).netloc = .ok again ∧
      shownNetloc parsed.scheme (rstripDots (nameText (writtenParts lib.toTables parsed hostname port).netloc)) again =
        (writtenParts lib.toTables parsed hostname port).netloc) ↔
      HostKept parsed.scheme (hostOf lib.toTables hostname) port := by
  have hat : '@' ∉ (writtenParts lib.toTables parsed hostname port).netloc.toList :=
    fun hc => ((shown_of_url htables h).clean _ hc).2.2 rfl
  rw [netloc_written h] at hat hbrackets hname ⊢
  exact reread_iff hat hbrackets (rstripDots_rstripDots _) (port_le_of h) hname

/-- The path and the query are found again. -/
theorem written_again {name : String} {again : Option ℕ}
    (hnetloc : shownNetloc parsed.scheme (hostOf lib.toTables name) again =
      (writtenParts lib.toTables parsed hostname port).netloc) :
    writtenParts lib.toTables (partsAgain parsed.scheme (writtenParts lib.toTables parsed hostname port).netloc
      (tailOf (writtenParts lib.toTables parsed hostname port))) name again =
      writtenParts lib.toTables parsed hostname port := by
  obtain ⟨b, hb⟩ := (h.written htables.lower).partition_tail
  have hscheme : strLower lib.toTables parsed.scheme = parsed.scheme := h.isScheme.strLower
  have hpath : (writtenParts lib.toTables parsed hostname port).path = pathOf parsed := rfl
  have hquery : (writtenParts lib.toTables parsed hostname port).query = parsed.query := rfl
  have hne : pathOf parsed ≠ "" := pathOf_ne_empty parsed
  rw [hpath, hquery] at hb
  have hread : pathOf (partsAgain parsed.scheme (writtenParts lib.toTables parsed hostname port).netloc
      (tailOf (writtenParts lib.toTables parsed hostname port))) = pathOf parsed := by
    rw [pathOf, partsAgain, hb, String.ofList_toList, if_neg hne]
  have hread' : (partsAgain parsed.scheme (writtenParts lib.toTables parsed hostname port).netloc
      (tailOf (writtenParts lib.toTables parsed hostname port))).query = parsed.query := by
    rw [partsAgain, hb]
    exact String.ofList_toList
  rw [writtenParts, hread, hread']
  rw [show (partsAgain parsed.scheme (writtenParts lib.toTables parsed hostname port).netloc
      (tailOf (writtenParts lib.toTables parsed hostname port))).scheme = parsed.scheme from rfl, hscheme, hnetloc]
  rw [writtenParts, hscheme]

/-- **A URL is read again as itself** exactly if its host has no bracket and is kept. -/
theorem again_iff (hsolid : strip (urlunsplitParts (writtenParts lib.toTables parsed hostname port)) =
      urlunsplitParts (writtenParts lib.toTables parsed hostname port)) :
    (normalizeUrl lib.toTables (urlunsplitParts (writtenParts lib.toTables parsed hostname port)) =
        .ok (urlunsplitParts (writtenParts lib.toTables parsed hostname port)) ↔
      ¬ Bracketed (hostOf lib.toTables hostname) ∧ HostKept parsed.scheme (hostOf lib.toTables hostname) port) ∧
    ((∃ e, normalizeUrl lib.toTables (urlunsplitParts (writtenParts lib.toTables parsed hostname port)) = .error e) ↔
      Bracketed (hostOf lib.toTables hostname) ∨
        nameText (writtenParts lib.toTables parsed hostname port).netloc ≠ "" ∧
          PortUnread (writtenParts lib.toTables parsed hostname port).netloc) := by
  have hwritten := h.written htables.lower
  rw [← bracketed_written h]
  by_cases hslashes : slashesOf (writtenParts lib.toTables parsed hostname port) = ['/', '/']
  · have hshown := shown_of_url htables h
    have htail := isTail_of_written hwritten
    have htext := written_text htables h hslashes
    by_cases hbrackets : Bracketed (writtenParts lib.toTables parsed hostname port).netloc
    · obtain ⟨e, he⟩ := normalizeUrl_unread hshown h.isScheme htail (.inl hbrackets)
      rw [← htext] at he
      rw [he]
      simp [hbrackets]
    by_cases hname : nameText (writtenParts lib.toTables parsed hostname port).netloc = ""
    · have hsame := normalizeUrl_nameless hshown h.isScheme htail hbrackets hname
      rw [← htext, hsolid] at hsame
      rw [hsame]
      simp [hbrackets, hname, kept_of_nameless h hname]
    have hkept := kept_iff htables h hbrackets hname
    cases hport : netlocPort (writtenParts lib.toTables parsed hostname port).netloc with
    | error e =>
      obtain ⟨e', he'⟩ := normalizeUrl_unread hshown h.isScheme htail (.inr ⟨hname, e, hport⟩)
      rw [← htext] at he'
      have hnot : ¬ HostKept parsed.scheme (hostOf lib.toTables hostname) port := by
        intro hhost
        obtain ⟨again, hagain, -⟩ := hkept.mpr hhost
        rw [hport] at hagain
        cases hagain
      rw [he']
      refine ⟨iff_of_false nofun fun hand => hnot hand.2, iff_of_true ⟨e', rfl⟩ (.inr ⟨hname, e, hport⟩)⟩
    | ok again =>
      have hagain := urlOf_again hshown h.isScheme htail hbrackets hname hport
      have hread := normalizeUrl_of hagain
      rw [← htext] at hread
      have hnetloc : (writtenParts lib.toTables (partsAgain parsed.scheme
          (writtenParts lib.toTables parsed hostname port).netloc
          (tailOf (writtenParts lib.toTables parsed hostname port)))
          (nameText (writtenParts lib.toTables parsed hostname port).netloc) again).netloc =
          shownNetloc parsed.scheme
            (rstripDots (nameText (writtenParts lib.toTables parsed hostname port).netloc)) again := by
        rw [netloc_written hagain, hshown.hostOf_name]
        rfl
      refine ⟨?_, ?_⟩
      · rw [hread, ← hkept, hport]
        constructor
        · intro hok
          have hsame := (hagain.written htables.lower).inj hwritten (Except.ok.inj hok)
          refine ⟨hbrackets, again, rfl, ?_⟩
          rw [← hnetloc, hsame]
        · rintro ⟨-, again', hagain', hsame⟩
          obtain rfl := Except.ok.inj hagain'
          rw [← hshown.hostOf_name] at hsame
          rw [written_again htables h hsame]
      · rw [hread]
        refine iff_of_false (by rintro ⟨e, he⟩; cases he) ?_
        rintro (hbad | ⟨-, e, he⟩)
        · exact hbrackets hbad
        · rw [hport] at he
          cases he
  · obtain ⟨htext, hnetloc, htake⟩ := written_path htables h hslashes
    have hread := normalizeUrl_hostless lib h.isScheme hwritten.tail_clean htake
    rw [← htext, hsolid] at hread
    have hname : nameText (writtenParts lib.toTables parsed hostname port).netloc = "" := by
      rw [hnetloc]
      rfl
    have hbrackets : ¬ Bracketed (writtenParts lib.toTables parsed hostname port).netloc := by
      rw [hnetloc]
      simp [Bracketed]
    rw [hread]
    simp [hbrackets, hname, kept_of_nameless h hname]

/-- **A URL keeps its identity** exactly if what is written ends solid, and its host has no bracket and is
    kept. -/
theorem url_kept_iff :
    normalizeUrl lib.toTables (strip (urlunsplitParts (writtenParts lib.toTables parsed hostname port))) =
        .ok (urlunsplitParts (writtenParts lib.toTables parsed hostname port)) ↔
      EndsSolid (tailOf (writtenParts lib.toTables parsed hostname port)) ∧ ¬ Bracketed (hostOf lib.toTables hostname) ∧
        HostKept parsed.scheme (hostOf lib.toTables hostname) port := by
  by_cases hsolid : EndsSolid (tailOf (writtenParts lib.toTables parsed hostname port))
  · have hstrip := strip_written_of_solid htables h hsolid
    rw [hstrip, (again_iff htables h hstrip).1]
    simp [hsolid]
  · exact iff_of_false (not_again_of_space htables h hsolid).2 fun hand => hsolid hand.1

/-- Where a URL that cannot be read is left as it is, a bracket or a port that is none keeps the identity. -/
theorem lenient_kept_iff : normalizeUrlIfPossible lib.toTables
        (strip (urlunsplitParts (writtenParts lib.toTables parsed hostname port))) =
        urlunsplitParts (writtenParts lib.toTables parsed hostname port) ↔
      EndsSolid (tailOf (writtenParts lib.toTables parsed hostname port)) ∧ (Bracketed (hostOf lib.toTables hostname) ∨
          PortUnread (writtenParts lib.toTables parsed hostname port).netloc ∨
          HostKept parsed.scheme (hostOf lib.toTables hostname) port) := by
  rw [ifPossible_iff]
  by_cases hsolid : EndsSolid (tailOf (writtenParts lib.toTables parsed hostname port))
  · have hstrip := strip_written_of_solid htables h hsolid
    obtain ⟨hok, herror⟩ := again_iff htables h hstrip
    rw [hstrip, hstrip, hok, herror]
    simp only [hsolid, true_and]
    constructor
    · rintro (⟨-, hkept⟩ | hbrackets | ⟨-, hport⟩)
      · exact .inr (.inr hkept)
      · exact .inl hbrackets
      · exact .inr (.inl hport)
    · intro hor
      by_cases hbrackets : Bracketed (hostOf lib.toTables hostname)
      · exact .inr (.inl hbrackets)
      rcases hor.resolve_left hbrackets with hport | hkept
      · by_cases hname : nameText (writtenParts lib.toTables parsed hostname port).netloc = ""
        · exact .inl ⟨hbrackets, kept_of_nameless h hname⟩
        · exact .inr (.inr ⟨hname, hport⟩)
      · exact .inl ⟨hbrackets, hkept⟩
  · obtain ⟨hne, hnot⟩ := not_again_of_space htables h hsolid
    refine iff_of_false ?_ fun hand => hsolid hand.1
    rintro (hok | ⟨hsame, -⟩)
    · exact hnot hok
    · rw [strip_strip] at hsame
      exact hne hsame

end Kept

end Urls

end NightScout
