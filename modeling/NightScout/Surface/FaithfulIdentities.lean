import NightScout.Surface.IdentityLaws

/-!
# Identities of the other kinds, and of two URLs

A record, an address, a network, a number and a text in one case are their own canonical values. Two URLs have
one identity exactly if they agree in what is shown of them, unless the host of one is written like the host and
the port of the other.
-/

namespace NightScout

open Lib

section Texts

variable {lib : IdentityLib} {material : String}

/-! ### Records -/

theorem splitSpaces_spec {piece : String} (h : piece ∈ splitSpaces material) :
    piece.toList ≠ [] ∧ ∀ c ∈ piece.toList, isSpace c = false := by
  obtain ⟨cs, hcs, rfl⟩ := List.mem_map.mp h
  obtain ⟨hin, hne⟩ := List.mem_filter.mp hcs
  rw [String.toList_ofList]
  exact ⟨by simpa using hne, piece_free hin⟩

/-- A text that is not blank has a piece. -/
theorem splitSpaces_ne_nil (hstrip : strip material = material) (hne : material ≠ "") : splitSpaces material ≠ [] := by
  intro hnil
  obtain ⟨hhead, -⟩ := strip_eq_self_iff.mp hstrip
  have hempty : ∀ piece ∈ material.toList.splitOnP isSpace, piece = [] := by
    intro piece hpiece
    by_contra hpieceNe
    have hin : String.ofList piece ∈ splitSpaces material :=
      List.mem_map_of_mem (List.mem_filter.mpr ⟨hpiece, by simpa using hpieceNe⟩)
    rw [hnil] at hin
    cases hin
  cases hlist : material.toList with
  | nil => exact hne (String.toList_eq_nil_iff.mp hlist)
  | cons c rest =>
    rw [hlist] at hhead hempty
    rw [List.splitOnP_cons_eq_if_modifyHead] at hempty
    have hc : isSpace c = false := by simpa using hhead
    rw [hc] at hempty
    cases hsplit : rest.splitOnP isSpace with
    | nil => exact absurd hsplit (List.splitOnP_ne_nil _ _)
    | cons first others =>
      rw [hsplit] at hempty
      have hfirst := hempty (c :: first) (by simp)
      cases hfirst

/-- The pieces of a record are found again. -/
theorem splitSpaces_record (hne : splitSpaces material ≠ []) :
    splitSpaces (" ".intercalate (splitSpaces material)) = splitSpaces material := by
  have hne' : (splitSpaces material).map String.toList ≠ [] := by simpa using hne
  have hspace : isSpace ' ' = true := by decide
  have hpieces : (List.intercalate [' '] ((splitSpaces material).map String.toList)).splitOnP isSpace =
      (splitSpaces material).map String.toList := by
    rw [splitOnP_intercalate hspace hne', List.flatMap_map]
    have hself : ∀ piece ∈ splitSpaces material, List.splitOnP isSpace piece.toList = [piece.toList] :=
      fun piece hpiece => List.splitOnP_eq_singleton (splitSpaces_spec hpiece).2
    rw [List.flatMap_congr hself, ← List.map_eq_flatMap]
  have htext : (" ".intercalate (splitSpaces material)).toList =
    List.intercalate [' '] ((splitSpaces material).map String.toList) := String.toList_intercalate
  have hkept : ((splitSpaces material).map String.toList).filter (fun piece => decide (piece ≠ [])) =
      (splitSpaces material).map String.toList := by
    rw [List.filter_eq_self]
    intro cs hcs
    obtain ⟨piece, hpiece, rfl⟩ := List.mem_map.mp hcs
    exact decide_eq_true (splitSpaces_spec hpiece).1
  rw [splitSpaces.eq_1 (" ".intercalate (splitSpaces material)), htext, hpieces, hkept, List.map_map]
  have hofList : (String.ofList ∘ String.toList) = id := by
    funext text
    exact String.ofList_toList
  rw [hofList, List.map_id]

/-- A record starts and ends with a piece. -/
theorem record_ends (hne : splitSpaces material ≠ []) :
    strip (" ".intercalate (splitSpaces material)) = " ".intercalate (splitSpaces material) ∧
      " ".intercalate (splitSpaces material) ≠ "" := by
  have htext : (" ".intercalate (splitSpaces material)).toList =
    List.intercalate [' '] ((splitSpaces material).map String.toList) := String.toList_intercalate
  have hsolid : ∀ piece ∈ splitSpaces material, piece.toList.head?.any isSpace = false ∧
      piece.toList.getLast?.any isSpace = false ∧ piece.toList ≠ [] := by
    intro piece hpiece
    obtain ⟨hpieceNe, hfree⟩ := splitSpaces_spec hpiece
    refine ⟨?_, ?_, hpieceNe⟩
    · rw [List.head?_eq_some_head hpieceNe]
      exact hfree _ (List.head_mem hpieceNe)
    · rw [List.getLast?_eq_some_getLast hpieceNe]
      exact hfree _ (List.getLast_mem hpieceNe)
  have hjoined : ∀ pieces : List String, pieces ≠ [] → (∀ piece ∈ pieces, piece.toList.head?.any isSpace = false ∧
      piece.toList.getLast?.any isSpace = false ∧ piece.toList ≠ []) →
      (List.intercalate [' '] (pieces.map String.toList)).head?.any isSpace = false ∧
      (List.intercalate [' '] (pieces.map String.toList)).getLast?.any isSpace = false ∧
      List.intercalate [' '] (pieces.map String.toList) ≠ [] := by
    intro pieces hpieces hall
    induction pieces with
    | nil => exact absurd rfl hpieces
    | cons piece pieces ih =>
      obtain ⟨hpiece, hrest⟩ := List.forall_mem_cons.mp hall
      by_cases hnil : pieces = []
      · subst hnil
        rw [List.map_singleton, List.intercalate_singleton]
        exact hpiece
      · obtain ⟨-, hlast, hrestNe⟩ := ih hnil hrest
        have hmap : pieces.map String.toList ≠ [] := by simpa using hnil
        rw [List.map_cons, List.intercalate_cons_of_ne_nil hmap, List.append_assoc]
        refine ⟨?_, ?_, ?_⟩
        · rw [List.head?_append_of_ne_nil _ hpiece.2.2]
          exact hpiece.1
        · rw [List.getLast?_append_of_ne_nil _ (by simp), List.getLast?_append_of_ne_nil _ hrestNe]
          exact hlast
        · simp [hpiece.2.2]
  obtain ⟨hhead, hlast, hnonempty⟩ := hjoined _ hne hsolid
  rw [strip_eq_self_iff, htext]
  refine ⟨⟨hhead, hlast⟩, ?_⟩
  intro hempty
  apply hnonempty
  rw [← htext, hempty]
  rfl

/-! ### Addresses and networks -/

theorem hexDigit_not_space {c : Char} (h : hexDigit c ≠ none) : isSpace c = false := by
  unfold hexDigit at h
  split at h
  next hdigit => exact digit_not_space hdigit
  have halpha : c.isAlpha = true := by
    rw [isAlpha_iff, isUpper_iff, isLower_iff]
    split at h
    next hlower =>
      exact .inr ⟨UInt32.le_iff_toNat_le.mp hlower.1, (UInt32.le_iff_toNat_le.mp hlower.2).trans (by decide)⟩
    split at h
    next hupper =>
      exact .inl ⟨UInt32.le_iff_toNat_le.mp hupper.1, (UInt32.le_iff_toNat_le.mp hupper.2).trans (by decide)⟩
    next => exact absurd rfl h
  exact (alpha_not_space halpha).1

/-- An address is a text without white space, and a zone. -/
theorem address_text_parts (address : IpAddress) : ∃ number : List Char,
    address.text = number ++ (address.zone.elim [] fun zone => '%' :: zone) ∧ number ≠ [] ∧
      ∀ c ∈ number, isSpace c = false := by
  obtain ⟨version, value, zone, hlt, hzone, hzoneText⟩ := address
  cases version with
  | v4 =>
    obtain rfl := hzone rfl
    refine ⟨textIPv4 value, (List.append_nil _).symm, ?_, ?_⟩
    · intro hnil
      have hread := parseIPv4_textIPv4 hlt
      rw [hnil] at hread
      cases hread
    · intro c hc
      rcases IpAddress.mem_textIPv4 hc with rfl | hdigit
      · decide
      · exact digit_not_space hdigit
  | v6 =>
    refine ⟨textIPv6 value, rfl, ?_, ?_⟩
    · intro hnil
      have hread := parseIPv6_textIPv6 hlt
      rw [hnil] at hread
      cases hread
    · intro c hc
      rcases IpAddress.mem_textIPv6 hc with rfl | hdigit
      · decide
      · exact hexDigit_not_space hdigit

theorem address_head (address : IpAddress) : address.text.head?.any isSpace = false ∧ address.text ≠ [] := by
  obtain ⟨number, htext, hne, hsolid⟩ := address_text_parts address
  rw [htext, List.head?_append_of_ne_nil _ hne, List.head?_eq_some_head hne]
  exact ⟨hsolid _ (List.head_mem hne), by simp [hne]⟩

/-- The zone of an address ends where the text ends that it is read from. -/
theorem address_strip {material : String} (hstrip : strip material = material) {address : IpAddress}
    (h : IpAddress.parse material.toList = some address) :
    strip (String.ofList address.text) = String.ofList address.text ∧ String.ofList address.text ≠ "" := by
  obtain ⟨hhead, hne⟩ := address_head address
  rw [strip_eq_self_iff, String.toList_ofList]
  refine ⟨⟨hhead, ?_⟩, ?_⟩
  · obtain ⟨number, htext, hnumber, hsolid⟩ := address_text_parts address
    rw [htext]
    cases hzone : address.zone with
    | none =>
      rw [Option.elim_none, List.append_nil, List.getLast?_eq_some_getLast hnumber]
      exact hsolid _ (List.getLast_mem hnumber)
    | some zone =>
      have hzoneNe := (address.zone_text zone hzone).1
      obtain ⟨front, hfront⟩ := IpAddress.zone_suffix h zone hzone
      have hlast := (strip_eq_self_iff.mp hstrip).2
      rw [← hfront, List.getLast?_append_of_ne_nil _ hzoneNe] at hlast
      rw [Option.elim_some, List.getLast?_append_of_ne_nil _ (List.cons_ne_nil _ _),
        List.getLast?_cons_of_ne_nil hzoneNe]
      exact hlast
  · intro hempty
    have hlist := congrArg String.toList hempty
    rw [String.toList_ofList] at hlist
    exact hne hlist

theorem network_strip (network : IpNetwork) :
    strip (String.ofList network.text) = String.ofList network.text ∧ String.ofList network.text ≠ "" := by
  obtain ⟨hhead, hne⟩ := address_head network.base
  rw [strip_eq_self_iff, String.toList_ofList, IpNetwork.text]
  refine ⟨⟨?_, ?_⟩, ?_⟩
  · rw [List.head?_append_of_ne_nil _ hne]
    exact hhead
  · rw [List.getLast?_append_of_ne_nil _ (List.cons_ne_nil _ _), List.getLast?_cons_of_ne_nil Nat.toDigits_ne_nil,
      List.getLast?_eq_some_getLast Nat.toDigits_ne_nil]
    exact digit_not_space (Nat.isDigit_of_mem_toDigits (by decide) (by decide) (List.getLast_mem _))
  · intro hempty
    have hlist := congrArg String.toList hempty
    rw [String.toList_ofList] at hlist
    simp at hlist

/-! ### Numbers of autonomous systems -/

theorem asnValue_again (htables : CaseTables lib) (hstrip : strip material = material) (hne : material ≠ "") :
    strip (asnValue lib material) = asnValue lib material ∧ asnValue lib material ≠ "" ∧
      asnValue lib (asnValue lib material) = asnValue lib material := by
  have hstripped := htables.upper.strip_eq_self hstrip
  have hnonempty : strUpper lib material ≠ "" := fun hempty => hne (htables.upper.eq_empty_iff.mp hempty)
  have hupper : ∀ {text : String}, (∀ c ∈ text.toList, c = 'A' ∨ c = 'S' ∨ c ∈ (strUpper lib material).toList) →
      strUpper lib text = text := by
    intro text htext
    apply htables.upper.fixed
    intro c hc
    rcases htext c hc with rfl | rfl | hin
    · exact ⟨"A", by rw [strUpper, if_pos (by decide)]; decide⟩
    · exact ⟨"S", by rw [strUpper, if_pos (by decide)]; decide⟩
    · exact ⟨material, hin⟩
  by_cases hprefix : (strUpper lib material).toList.take 2 = ['A', 'S']
  · have hvalue : asnValue lib material = strUpper lib material := by
      unfold asnValue
      simp only [if_pos hprefix]
    have hagain : strUpper lib (strUpper lib material) = strUpper lib material :=
      hupper fun c hc => .inr (.inr hc)
    rw [hvalue]
    refine ⟨hstripped, hnonempty, ?_⟩
    unfold asnValue
    simp only [hagain, if_pos hprefix]
  · have hvalue : asnValue lib material = "AS" ++ strUpper lib material := by
      unfold asnValue
      simp only [if_neg hprefix]
    have htext : ("AS" ++ strUpper lib material).toList = 'A' :: 'S' :: (strUpper lib material).toList := by
      rw [String.toList_append]
      rfl
    have hagain : strUpper lib ("AS" ++ strUpper lib material) = "AS" ++ strUpper lib material := by
      apply hupper
      intro c hc
      rw [htext] at hc
      rcases List.mem_cons.mp hc with rfl | hc
      · exact .inl rfl
      rcases List.mem_cons.mp hc with rfl | hc
      · exact .inr (.inl rfl)
      · exact .inr (.inr hc)
    rw [hvalue]
    refine ⟨?_, ?_, ?_⟩
    · rw [strip_eq_self_iff, htext]
      refine ⟨rfl, ?_⟩
      have hlist : (strUpper lib material).toList ≠ [] := fun hnil => hnonempty (String.toList_eq_nil_iff.mp hnil)
      rw [List.getLast?_cons_of_ne_nil (List.cons_ne_nil _ _), List.getLast?_cons_of_ne_nil hlist]
      exact (strip_eq_self_iff.mp hstripped).2
    · intro hempty
      rw [hempty] at htext
      cases htext
    · unfold asnValue
      simp only [hagain, htext]
      rfl

end Texts

/-! ## Every kind -/

section Kinds

variable {tables : Tables} {upper casefold hexdigest : String → String} {material : String}

/-- What is written last of a URL. -/
theorem endsSolid_tail {parsed : SplitResult} {hostname : String} {port : Option ℕ} :
    EndsSolid (tailOf (writtenParts tables parsed hostname port)) ↔ EndsSolid (shownEnd parsed).toList := by
  unfold EndsSolid tailOf shownEnd writtenParts
  by_cases hquery : parsed.query = ""
  · simp only [if_pos hquery, List.append_nil]
  · have hne : parsed.query.toList ≠ [] := fun hnil => hquery (String.toList_eq_nil_iff.mp hnil)
    simp only [if_neg hquery]
    rw [List.getLast?_append_of_ne_nil _ (List.cons_ne_nil _ _), List.getLast?_cons_of_ne_nil hne]

variable (htables : CaseTables (identityLib tables upper casefold hexdigest))

include htables

theorem url_settled_iff (hstrip : strip material = material) {url : String}
    (h : normalizeUrl (identityLib tables upper casefold hexdigest).toTables material = .ok url) :
    (normalizeUrl (identityLib tables upper casefold hexdigest).toTables (strip url) = .ok url ↔
      UrlSettled (identityLib tables upper casefold hexdigest).toTables material) ∧
    (normalizeUrlIfPossible (identityLib tables upper casefold hexdigest).toTables (strip url) = url ↔
      LenientUrlSettled (identityLib tables upper casefold hexdigest).toTables material) := by
  rcases normalizeUrl_ok h with ⟨parsed, hsplit, hplain, rfl⟩ | ⟨parsed, hostname, port, hurl, rfl⟩
  · -- what is no URL stays as it is
    have hnone : ∀ parsed hostname port,
        ¬ UrlOf (identityLib tables upper casefold hexdigest).toTables material parsed hostname port := by
      intro parsed' hostname port hurl
      obtain rfl := Except.ok.inj (hsplit.symm.trans hurl.split)
      rcases hplain with hname | hscheme
      · rw [hurl.hostname] at hname
        cases hname
      · exact hurl.scheme hscheme
    rw [hstrip] at h ⊢
    rw [hstrip]
    refine ⟨iff_of_true h fun parsed hostname port hurl => absurd hurl (hnone _ _ _), iff_of_true ?_ ?_⟩
    · rw [normalizeUrlIfPossible, h]
    · exact fun parsed hostname port hurl => absurd hurl (hnone _ _ _)
  · have hkept := url_kept_iff htables hurl
    have hlenient := lenient_kept_iff htables hurl
    rw [endsSolid_tail] at hkept hlenient
    rw [netloc_written hurl] at hlenient
    rw [hkept, hlenient]
    refine ⟨⟨?_, fun hsettled => hsettled parsed hostname port hurl⟩,
      ⟨?_, fun hsettled => hsettled parsed hostname port hurl⟩⟩
    · intro hsettled parsed' hostname' port' hurl'
      obtain ⟨rfl, rfl, rfl⟩ := hurl.unique hurl'
      exact hsettled
    · intro hsettled parsed' hostname' port' hurl'
      obtain ⟨rfl, rfl, rfl⟩ := hurl.unique hurl'
      exact hsettled

theorem normalizeUrl_ne_empty (hstrip : strip material = material) (hne : material ≠ "") {url : String}
    (h : normalizeUrl (identityLib tables upper casefold hexdigest).toTables material = .ok url) : url ≠ "" := by
  rcases normalizeUrl_ok h with ⟨parsed, hsplit, hplain, rfl⟩ | ⟨parsed, hostname, port, hurl, rfl⟩
  · rwa [hstrip]
  · intro hempty
    have hlist := toList_written htables hurl
    rw [hempty] at hlist
    simp at hlist

omit htables in
theorem normalizeUrl_empty (tables : Tables) : normalizeUrl tables "" = .ok "" := rfl

theorem ifPossible_ne_empty (hstrip : strip material = material) (hne : material ≠ "") :
    normalizeUrlIfPossible (identityLib tables upper casefold hexdigest).toTables material ≠ "" := by
  unfold normalizeUrlIfPossible
  split
  next url hurl => exact normalizeUrl_ne_empty htables hstrip hne hurl
  next => rwa [hstrip]

/-- Under the lenient kinds, a text that cannot be read is left as it is. -/
theorem lenient_settled_iff (hstrip : strip material = material) :
    normalizeUrlIfPossible (identityLib tables upper casefold hexdigest).toTables
        (strip (normalizeUrlIfPossible (identityLib tables upper casefold hexdigest).toTables material)) =
        normalizeUrlIfPossible (identityLib tables upper casefold hexdigest).toTables material ↔
      LenientUrlSettled (identityLib tables upper casefold hexdigest).toTables material := by
  cases hread : normalizeUrl (identityLib tables upper casefold hexdigest).toTables material with
  | ok url =>
    have hwritten : normalizeUrlIfPossible (identityLib tables upper casefold hexdigest).toTables material = url := by
      rw [normalizeUrlIfPossible, hread]
    rw [hwritten]
    exact (url_settled_iff htables hstrip hread).2
  | error e =>
    have hself : normalizeUrlIfPossible (identityLib tables upper casefold hexdigest).toTables material = material := by
      rw [normalizeUrlIfPossible, hread]
      exact hstrip
    rw [hself, hstrip]
    refine iff_of_true hself ?_
    intro parsed hostname port hurl
    rw [normalizeUrl_of hurl] at hread
    cases hread

omit htables in
theorem map_some_iff {result : Except PyError String} {kind : SurfaceNodeKind} {value : String} :
    result.map (fun value => some (SurfaceIdentity.mk kind value)) = .ok (some ⟨kind, value⟩) ↔
      result = .ok value := by
  cases result with
  | error e => simp [Except.map]
  | ok text => simp [Except.map]

omit htables in
/-- A text that has one canonical value, read from it again. -/
theorem again_iff_of_value {kind : EventType} {node : SurfaceNodeKind} {value : String} {condition : Prop}
    (hread : (strip value ≠ "" ∧ identityOf (identityLib tables upper casefold hexdigest) kind (strip value) =
      .ok (some ⟨node, value⟩)) ↔ condition) {identity : SurfaceIdentity}
    (hidentity : (Except.ok (some ⟨node, value⟩) : Except PyError (Option SurfaceIdentity)) = .ok (some identity)) :
    (strip identity.canonicalValue ≠ "" ∧
      identityOf (identityLib tables upper casefold hexdigest) kind (strip identity.canonicalValue) =
        .ok (some identity)) ↔ condition := by
  obtain rfl := Option.some.inj (Except.ok.inj hidentity)
  exact hread

omit htables in
theorem ipValue_ok {read : Option String} {value text : String} (h : ipValue read value = .ok text) :
    read = some text := by
  cases read with
  | none => cases h
  | some other => rw [Except.ok.inj h]

omit htables in
theorem ipValue_address {value : String}
    (h : ipValue ((identityLib tables upper casefold hexdigest).address material) material = .ok value) :
    ∃ address, IpAddress.parse material.toList = some address ∧ value = String.ofList address.text := by
  obtain ⟨address, haddress, hvalue⟩ := Option.map_eq_some_iff.mp (ipValue_ok h)
  exact ⟨address, haddress, hvalue.symm⟩

omit htables in
theorem ipValue_network {value : String}
    (h : ipValue ((identityLib tables upper casefold hexdigest).network material) material = .ok value) :
    ∃ network : IpNetwork, value = String.ofList network.text := by
  obtain ⟨network, -, hvalue⟩ := Option.map_eq_some_iff.mp (ipValue_ok h)
  exact ⟨network, hvalue.symm⟩

theorem domain_again_iff (hstrip : strip material = material) {kind : EventType}
    (hkind : ∀ text, identityOf (identityLib tables upper casefold hexdigest) kind text =
      .ok (some ⟨.domain, normalizeDomainValue (identityLib tables upper casefold hexdigest).toTables text⟩)) :
    (strip (normalizeDomainValue (identityLib tables upper casefold hexdigest).toTables material) ≠ "" ∧
      identityOf (identityLib tables upper casefold hexdigest) kind
        (strip (normalizeDomainValue (identityLib tables upper casefold hexdigest).toTables material)) =
        .ok (some ⟨.domain, normalizeDomainValue (identityLib tables upper casefold hexdigest).toTables material⟩)) ↔
      NameSettled material := by
  rw [← name_kept_iff htables hstrip, hkind]
  simp

theorem strict_again_iff (hstrip : strip material = material) (hne : material ≠ "") {kind : EventType}
    (hkind : ∀ text, identityOf (identityLib tables upper casefold hexdigest) kind text =
      (normalizeUrl (identityLib tables upper casefold hexdigest).toTables text).map
        fun value => some ⟨.endpoint, value⟩) {url : String}
    (h : normalizeUrl (identityLib tables upper casefold hexdigest).toTables material = .ok url) :
    (strip url ≠ "" ∧ identityOf (identityLib tables upper casefold hexdigest) kind (strip url) =
      .ok (some ⟨.endpoint, url⟩)) ↔ UrlSettled (identityLib tables upper casefold hexdigest).toTables material := by
  rw [hkind, map_some_iff, (url_settled_iff htables hstrip h).1]
  refine ⟨fun hand => hand.2, fun hsettled => ⟨?_, hsettled⟩⟩
  intro hempty
  have hread := (url_settled_iff htables hstrip h).1.mpr hsettled
  rw [hempty, normalizeUrl_empty] at hread
  exact normalizeUrl_ne_empty htables hstrip hne h (Except.ok.inj hread).symm

theorem lenient_again_iff (hstrip : strip material = material) (hne : material ≠ "") {kind : EventType}
    {node : SurfaceNodeKind} (hkind : ∀ text, identityOf (identityLib tables upper casefold hexdigest) kind text =
      .ok (some ⟨node, normalizeUrlIfPossible (identityLib tables upper casefold hexdigest).toTables text⟩)) :
    (strip (normalizeUrlIfPossible (identityLib tables upper casefold hexdigest).toTables material) ≠ "" ∧
      identityOf (identityLib tables upper casefold hexdigest) kind
        (strip (normalizeUrlIfPossible (identityLib tables upper casefold hexdigest).toTables material)) =
        .ok (some ⟨node, normalizeUrlIfPossible (identityLib tables upper casefold hexdigest).toTables material⟩)) ↔
      LenientUrlSettled (identityLib tables upper casefold hexdigest).toTables material := by
  have hiff := lenient_settled_iff htables hstrip
  rw [hkind, ← hiff]
  simp only [Except.ok.injEq, Option.some.injEq, SurfaceIdentity.mk.injEq, true_and]
  refine ⟨fun hand => hand.2, fun hsame => ⟨?_, hsame⟩⟩
  intro hempty
  rw [hempty] at hsame
  exact ifPossible_ne_empty htables hstrip hne hsame.symm

/-- **An identity is one of its canonical value** exactly if the text is settled. -/
theorem identity_again_iff (kind : EventType) (hstrip : strip material = material) (hne : material ≠ "")
    {identity : SurfaceIdentity}
    (h : identityOf (identityLib tables upper casefold hexdigest) kind material = .ok (some identity)) :
    (strip identity.canonicalValue ≠ "" ∧
      identityOf (identityLib tables upper casefold hexdigest) kind (strip identity.canonicalValue) =
        .ok (some identity)) ↔ Settled (identityLib tables upper casefold hexdigest).toTables kind material := by
  have hself : ∀ {node : SurfaceNodeKind} {value : String},
      strip value = value → value ≠ "" →
      identityOf (identityLib tables upper casefold hexdigest) kind value = .ok (some ⟨node, value⟩) →
      ((strip value ≠ "" ∧ identityOf (identityLib tables upper casefold hexdigest) kind (strip value) =
        .ok (some ⟨node, value⟩)) ↔ True) := by
    intro node value hvalue hvalueNe hread
    rw [hvalue]
    exact iff_of_true ⟨hvalueNe, hread⟩ trivial
  cases kind with
  | policyBlock => cases h
  | humanReview => cases h
  | relationship => cases h
  | httpResponse => cases h
  | urlPath => cases h
  | rootDomain => exact again_iff_of_value (domain_again_iff htables hstrip fun _ => rfl) h
  | dnsName => exact again_iff_of_value (domain_again_iff htables hstrip fun _ => rfl) h
  | certSan => exact again_iff_of_value (domain_again_iff htables hstrip fun _ => rfl) h
  | dnsRecord =>
    have hpieces := splitSpaces_ne_nil hstrip hne
    obtain ⟨hrecord, hrecordNe⟩ := record_ends hpieces
    refine again_iff_of_value (hself hrecord hrecordNe ?_) h
    rw [identityOf, splitSpaces_record hpieces]
  | ipAddress =>
    obtain ⟨value, hvalue, hidentity⟩ := except_map_ok h
    obtain ⟨address, haddress, rfl⟩ := ipValue_address hvalue
    obtain ⟨htext, htextNe⟩ := address_strip hstrip haddress
    refine again_iff_of_value (hself htext htextNe ?_) (congrArg Except.ok hidentity)
    have hagain : (identityLib tables upper casefold hexdigest).address (String.ofList address.text) =
        some (String.ofList address.text) := by
      show (IpAddress.parse (String.ofList address.text).toList).map _ = _
      rw [String.toList_ofList, IpAddress.parse_text]
      rfl
    rw [identityOf, hagain]
    rfl
  | cidr =>
    obtain ⟨value, hvalue, hidentity⟩ := except_map_ok h
    obtain ⟨network, rfl⟩ := ipValue_network hvalue
    obtain ⟨htext, htextNe⟩ := network_strip network
    refine again_iff_of_value (hself htext htextNe ?_) (congrArg Except.ok hidentity)
    have hagain : (identityLib tables upper casefold hexdigest).network (String.ofList network.text) =
        some (String.ofList network.text) := by
      show (IpNetwork.parse (String.ofList network.text).toList).map _ = _
      rw [String.toList_ofList, IpNetwork.parse_text]
      rfl
    rw [identityOf, hagain]
    rfl
  | asn =>
    obtain ⟨hasn, hasnNe, hagain⟩ := asnValue_again htables hstrip hne
    refine again_iff_of_value (hself hasn hasnNe ?_) h
    rw [identityOf, hagain]
  | httpService =>
    refine again_iff_of_value (Iff.trans ?_ (service_settled_iff htables hstrip)) h
    simp [identityOf]
  | url =>
    obtain ⟨url, hurl, hidentity⟩ := except_map_ok h
    exact again_iff_of_value (strict_again_iff htables hstrip hne (fun _ => rfl) hurl) (congrArg Except.ok hidentity)
  | apiEndpoint =>
    obtain ⟨url, hurl, hidentity⟩ := except_map_ok h
    exact again_iff_of_value (strict_again_iff htables hstrip hne (fun _ => rfl) hurl) (congrArg Except.ok hidentity)
  | javascript =>
    exact again_iff_of_value (lenient_again_iff htables hstrip hne fun _ => rfl) h
  | artifact =>
    exact again_iff_of_value (lenient_again_iff htables hstrip hne fun _ => rfl) h
  | certificate =>
    refine again_iff_of_value (hself (htables.lower.strip_eq_self hstrip)
      (fun hempty => hne (htables.lower.eq_empty_iff.mp hempty)) ?_) h
    rw [identityOf, htables.lower.idem]
  | technology =>
    refine again_iff_of_value (hself (htables.casefold.strip_eq_self hstrip)
      (fun hempty => hne (htables.casefold.eq_empty_iff.mp hempty)) ?_) h
    rw [identityOf, htables.casefold.idem]
  | fingerprint =>
    refine again_iff_of_value (hself (htables.casefold.strip_eq_self hstrip)
      (fun hempty => hne (htables.casefold.eq_empty_iff.mp hempty)) ?_) h
    rw [identityOf, htables.casefold.idem]
  | favicon => exact again_iff_of_value (hself hstrip hne rfl) h
  | parameterName => exact again_iff_of_value (hself hstrip hne rfl) h
  | mobileArtifact => exact again_iff_of_value (hself hstrip hne rfl) h
  | vulnerabilityCandidate => exact again_iff_of_value (hself hstrip hne rfl) h
  | vulnerabilityFinding => exact again_iff_of_value (hself hstrip hne rfl) h
  | projectName | vocabToken | namingPattern =>
    refine again_iff_of_value (hself (htables.casefold.strip_eq_self hstrip)
      (fun hempty => hne (htables.casefold.eq_empty_iff.mp hempty)) ?_) h
    rw [identityOf, htables.casefold.idem]

end Kinds

end NightScout
