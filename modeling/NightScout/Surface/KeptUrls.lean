import NightScout.Surface.WrittenUrls

/-!
# Written URLs are read again

What a URL is written as is read a second time: at publishing, at ingestion, at every rebuild of the surface. The
network location is cut off where it was put, but a host of the first reading that stood in brackets stands there
without them, so that a `:` of its own ends it.
-/

namespace NightScout

open Lib

/-- A network location that is put together from a host and a port. -/
structure ShownNetloc (tables : Tables) (netloc : String) : Prop where
  clean : ∀ c ∈ netloc.toList, endsNetloc c = false ∧ isRemoved c = false ∧ c ≠ '@'
  brackets : ¬ ('[' ∈ netloc.toList ∧ ']' ∈ netloc.toList)
  checked : checkNetloc tables netloc = true
  lowered : ∀ text : String, (∀ c ∈ text.toList, c ∈ netloc.toList) → strLower tables text = text

/-- The network location has a bracket, which it has not from its port. -/
def Bracketed (netloc : String) : Prop := '[' ∈ netloc.toList ∨ ']' ∈ netloc.toList

/-- What stands before the first colon of a network location, and what behind it. -/
def nameText (netloc : String) : String := String.ofList (partition ':' netloc.toList).1

def portPart (netloc : String) : List Char := (partition ':' netloc.toList).2.2

/-- The port, as `urlsplit` reads it from a network location. -/
def netlocPort (netloc : String) : Except PyError (Option ℕ) :=
  SplitResult.port { scheme := "", netloc, path := "", query := "", fragment := "" }

/-- What may follow a network location. -/
structure IsTail (tail : List Char) : Prop where
  head : tail = [] ∨ ∃ rest, tail = '/' :: rest
  clean : ∀ c ∈ tail, c ≠ '#' ∧ isRemoved c = false

/-- The text of a scheme, a network location and a tail. -/
def urlText (scheme netloc : String) (tail : List Char) : String :=
  String.ofList (scheme.toList ++ ':' :: '/' :: '/' :: (netloc.toList ++ tail))

/-- The parts it is cut into. -/
def partsAgain (scheme netloc : String) (tail : List Char) : SplitResult where
  scheme := scheme
  netloc := netloc
  path := String.ofList (partition '?' tail).1
  query := String.ofList (partition '?' tail).2.2
  fragment := ""

section Again

variable {tables : Tables} {scheme netloc : String} {tail : List Char}

section Shown

variable {lib : IdentityLib} {value hostname : String} {parsed : SplitResult} {port : Option ℕ}

theorem mem_written (h : UrlOf lib.toTables value parsed hostname port) {c : Char}
    (hc : c ∈ (writtenParts lib.toTables parsed hostname port).netloc.toList) :
    c ∈ (hostOf lib.toTables hostname).toList ∨ c ∈ portText (shownPortOf parsed.scheme port) := by
  rw [writtenParts, h.isScheme.strLower, shownNetloc_toList] at hc
  exact List.mem_append.mp hc

/-- A separator that hides in the host hid in the network location before. -/
theorem checked_written (htables : CaseTables lib) (h : UrlOf lib.toTables value parsed hostname port)
    (hclean : ∀ c ∈ (writtenParts lib.toTables parsed hostname port).netloc.toList, endsNetloc c = false) :
    checkNetloc lib.toTables (writtenParts lib.toTables parsed hostname port).netloc = true := by
  obtain ⟨hides, hascii, hcheck, hmakes⟩ := htables.checked
  obtain ⟨rest, hrest, hafter⟩ := urlsplit_ok h.split (netloc_ne_empty_of_hostname h.hostname)
  obtain ⟨hnetloc, hpassed, -⟩ := splitAfter_clean hrest hafter
  have hbefore := (hcheck _ fun c hc => (hnetloc c hc).1).mp hpassed
  rw [hcheck _ hclean]
  intro c hc hhides
  rcases mem_written h hc with hc | hc
  · obtain ⟨d, hd, hhides⟩ := hmakes _ c ((rstripDots_sublist _).subset hc) hhides
    rcases mem_hostname_cases h.hostname hd with rfl | hin | ⟨name, hname, hin⟩
    · exact hascii '%' (by decide) hhides
    · exact hbefore d (mem_hostInfo hin) hhides
    · obtain ⟨e, he, hhides⟩ := hmakes _ d hin hhides
      exact hbefore e (mem_hostInfo (hname e he)) hhides
  · exact hascii c (portText_ascii hc) hhides

theorem strLower_portText {tables : Tables} {c : Char} (hc : c ∈ portText port) :
    strLower tables (String.singleton c) = String.singleton c := by
  apply strLower_of_isLowered
  · rw [isAscii_iff]
    intro d hd
    obtain rfl : d = c := by simpa using hd
    exact portText_ascii hc
  · intro d hd
    obtain rfl : d = c := by simpa using hd
    rcases isDigit_portText hc with rfl | hdigit
    · decide
    · exact toLower_of_isDigit hdigit

theorem shown_of_url (htables : CaseTables lib) (h : UrlOf lib.toTables value parsed hostname port) :
    ShownNetloc lib.toTables (writtenParts lib.toTables parsed hostname port).netloc := by
  have hlower := htables.lower
  have hclean : ∀ c ∈ (writtenParts lib.toTables parsed hostname port).netloc.toList,
      endsNetloc c = false ∧ isRemoved c = false ∧ c ≠ '@' := by
    intro c hc
    rcases mem_written h hc with hc | hc
    · exact h.host_clean hlower hc
    · obtain ⟨hends, hremoved, hat, -⟩ := portText_clean hc
      exact ⟨hends, hremoved, hat⟩
  refine ⟨hclean, ?_, checked_written htables h fun c hc => (hclean c hc).1, ?_⟩
  · rintro ⟨hopen, hclose⟩
    apply h.host_brackets hlower
    constructor
    · rcases mem_written h hopen with hc | hc
      · exact hc
      · exact absurd rfl (portText_clean hc).2.2.2.1
    · rcases mem_written h hclose with hc | hc
      · exact hc
      · exact absurd rfl (portText_clean hc).2.2.2.2
  · intro text htext
    apply hlower.fixed
    intro c hc
    rcases mem_written h (htext c hc) with hc | hc
    · exact ⟨hostname, (rstripDots_sublist _).subset hc⟩
    · refine ⟨String.singleton c, ?_⟩
      rw [strLower_portText hc]
      simp

end Shown

namespace ShownNetloc

theorem takeWhile (h : ShownNetloc tables netloc) (htail : IsTail tail) :
    (netloc.toList ++ tail).takeWhile (fun c => !endsNetloc c) = netloc.toList := by
  apply takeWhile_append_stop
  · intro c hc
    rw [(h.clean c hc).1]
    rfl
  · rcases htail.head with rfl | ⟨rest, rfl⟩
    · exact .inl rfl
    · exact .inr ⟨'/', rest, rfl, rfl⟩

theorem urlsplit (h : ShownNetloc tables netloc) (hscheme : IsScheme scheme) (htail : IsTail tail) :
    urlsplit tables (urlText scheme netloc tail) = splitAfter tables scheme (netloc.toList ++ tail) := by
  have hrest : ∀ c ∈ '/' :: '/' :: (netloc.toList ++ tail), isRemoved c = false := by
    intro c hc
    rcases List.mem_cons.mp hc with rfl | hc
    · decide
    rcases List.mem_cons.mp hc with rfl | hc
    · decide
    rcases List.mem_append.mp hc with hc | hc
    · exact (h.clean c hc).2.1
    · exact (htail.clean c hc).2
  rw [urlText, urlsplit_after hscheme hrest]
  rfl

/-- One bracket alone is refused. -/
theorem urlsplit_bracketed (h : ShownNetloc tables netloc) (hscheme : IsScheme scheme) (htail : IsTail tail)
    (hbrackets : Bracketed netloc) :
    NightScout.urlsplit tables (urlText scheme netloc tail) = .error (.valueError "Invalid IPv6 URL") := by
  rw [h.urlsplit hscheme htail, splitAfter, h.takeWhile htail]
  exact if_pos ⟨hbrackets, fun hand => h.brackets ⟨hand.1, hand.2.1⟩⟩

/-- Without brackets the URL is cut where it was put together. -/
theorem urlsplit_plain (h : ShownNetloc tables netloc) (hscheme : IsScheme scheme) (htail : IsTail tail)
    (hbrackets : ¬ Bracketed netloc) :
    NightScout.urlsplit tables (urlText scheme netloc tail) = .ok (partsAgain scheme netloc tail) := by
  have hhash : '#' ∉ tail := fun hc => (htail.clean _ hc).1 rfl
  rw [h.urlsplit hscheme htail, splitAfter, h.takeWhile htail]
  simp only [if_neg fun hand : ('[' ∈ netloc.toList ∨ ']' ∈ netloc.toList) ∧ _ => hbrackets hand.1,
    List.drop_left, partition_of_notMem hhash, String.ofList_toList, h.checked, if_true]
  rfl

theorem hostInfo (h : ShownNetloc tables netloc) (hbrackets : ¬ Bracketed netloc) :
    (partsAgain scheme netloc tail).hostInfo = ((partition ':' netloc.toList).1, portPart netloc) :=
  hostInfo_plain (fun hc => (h.clean _ hc).2.2 rfl) fun hc => hbrackets (.inl hc)

/-- The host is what stands before the first colon. -/
theorem hostname (h : ShownNetloc tables netloc) (hbrackets : ¬ Bracketed netloc) :
    (partsAgain scheme netloc tail).hostname tables =
      if nameText netloc = "" then none else some (nameText netloc) := by
  have hsub : ∀ c ∈ (partition ':' netloc.toList).1, c ∈ netloc.toList := fun c hc => (mem_partition.1 hc).2
  unfold SplitResult.hostname nameText
  rw [h.hostInfo hbrackets]
  generalize (partition ':' netloc.toList).1 = name at hsub
  have hempty : String.ofList name = "" ↔ name = [] := by
    rw [← String.toList_inj, String.toList_ofList]
    exact Iff.rfl
  simp only [hempty]
  split
  · rfl
  have hname : ∀ {text : List Char}, (∀ c ∈ text, c ∈ name) →
      strLower tables (String.ofList text) = String.ofList text := by
    intro text htext
    apply h.lowered
    intro c hc
    rw [String.toList_ofList] at hc
    exact hsub c (htext c hc)
  by_cases hpercent : '%' ∈ name
  · obtain ⟨front, zone, rfl, hfront⟩ := List.eq_append_cons_of_mem hpercent
    rw [partition_eq hfront]
    simp only [hname fun c hc => List.mem_append_left _ hc, if_true, Option.some.injEq]
    apply String.toList_inj.mp
    simp [String.toList_append]
  · rw [partition_of_notMem hpercent]
    simp only [hname fun c hc => hc, Bool.false_eq_true, if_false, String.append_empty]

theorem hostOf_name (h : ShownNetloc tables netloc) :
    hostOf tables (nameText netloc) = rstripDots (nameText netloc) := by
  rw [hostOf, h.lowered]
  intro c hc
  rw [nameText, String.toList_ofList] at hc
  exact (mem_partition.1 hc).2

end ShownNetloc

theorem port_partsAgain : (partsAgain scheme netloc tail).port = netlocPort netloc := rfl

end Again

/-! ## The network location, read again -/

/-- The host is found again: it has no colon, or it is not looked for behind the colon that it starts with, or
    what follows its colon is read as a port, and shown. -/
def HostKept (scheme host : String) (port : Option ℕ) : Prop :=
  ':' ∉ host.toList ∨ host.toList.head? = some ':' ∨
    shownPortOf scheme port = none ∧ ∃ (name : String) (n : ℕ), host.toList = name.toList ++ portText (some n) ∧
      ':' ∉ name.toList ∧ rstripDots name = name ∧ n ≤ 65535 ∧ some n ≠ defaultPort scheme

section Reread

variable {scheme host : String} {port : Option ℕ}

theorem rstripDots_rstripDots (text : String) : rstripDots (rstripDots text) = rstripDots text := by
  unfold rstripDots
  rw [String.toList_ofList, List.rdropWhile_idempotent]

theorem shownPortOf_shownPortOf (scheme : String) (port : Option ℕ) :
    shownPortOf scheme (shownPortOf scheme port) = shownPortOf scheme port := by
  cases port with
  | none => rfl
  | some n => by_cases h : some n = defaultPort scheme <;> simp [shownPortOf, Option.filter, h]

theorem shownPortOf_of_ne {n : ℕ} (h : some n ≠ defaultPort scheme) : shownPortOf scheme (some n) = some n := by
  simp [shownPortOf, Option.filter, h]

theorem eq_of_shownPortOf {n : ℕ} (h : shownPortOf scheme port = some n) :
    port = some n ∧ some n ≠ defaultPort scheme := by
  obtain ⟨hport, hne⟩ := Option.filter_eq_some_iff.mp h
  exact ⟨hport, by simpa using hne⟩

theorem colon_not_mem_digits (n : ℕ) : ':' ∉ Nat.toDigits 10 n := by
  intro hc
  have hdigit := Nat.isDigit_of_mem_toDigits (by decide) (by decide) hc
  revert hdigit
  decide

/-- Host and port of a network location without brackets. -/
theorem netloc_hostInfo {netloc : String} (hat : '@' ∉ netloc.toList) (hbrackets : ¬ Bracketed netloc) :
    SplitResult.hostInfo { scheme := "", netloc, path := "", query := "", fragment := "" } =
      ((partition ':' netloc.toList).1, portPart netloc) :=
  hostInfo_plain hat fun hc => hbrackets (.inl hc)

theorem netlocPort_canonical {netloc : String} (hat : '@' ∉ netloc.toList) (hbrackets : ¬ Bracketed netloc)
    (hpart : portPart netloc = (portText port).tail) (hle : ∀ p ∈ port, p ≤ 65535) : netlocPort netloc = .ok port := by
  apply port_canonical _ hle
  rw [netloc_hostInfo hat hbrackets, hpart]

theorem nameText_eq_of_append {netloc name : String} {rest : List Char} (hname : ':' ∉ name.toList)
    (h : netloc.toList = name.toList ++ ':' :: rest) : nameText netloc = name ∧ portPart netloc = rest := by
  unfold nameText portPart
  rw [h, partition_eq hname]
  exact ⟨String.ofList_toList, rfl⟩

theorem nameText_eq_self {netloc : String} (h : ':' ∉ netloc.toList) :
    nameText netloc = netloc ∧ portPart netloc = [] := by
  unfold nameText portPart
  rw [partition_of_notMem h]
  exact ⟨String.ofList_toList, rfl⟩

/-- A network location that has a colon, at its first one. -/
theorem split_colon {netloc : String} (h : ':' ∈ netloc.toList) :
    netloc.toList = (nameText netloc).toList ++ ':' :: portPart netloc ∧ ':' ∉ (nameText netloc).toList := by
  obtain ⟨front, rest, hsplit, hfront⟩ := List.eq_append_cons_of_mem h
  have hfront' : ':' ∉ (String.ofList front).toList := by rwa [String.toList_ofList]
  have hsplit' : netloc.toList = (String.ofList front).toList ++ ':' :: rest := by rwa [String.toList_ofList]
  obtain ⟨hname, hpart⟩ := nameText_eq_of_append hfront' hsplit'
  rw [hname, hpart]
  exact ⟨hsplit', hfront'⟩

/-- **The host and the port are read back** exactly if the host is kept. -/
theorem reread_iff (hat : '@' ∉ (shownNetloc scheme host port).toList)
    (hbrackets : ¬ Bracketed (shownNetloc scheme host port)) (hdots : rstripDots host = host)
    (hport : ∀ p ∈ port, p ≤ 65535) (hne : nameText (shownNetloc scheme host port) ≠ "") :
    (∃ again, netlocPort (shownNetloc scheme host port) = .ok again ∧
      shownNetloc scheme (rstripDots (nameText (shownNetloc scheme host port))) again =
        shownNetloc scheme host port) ↔ HostKept scheme host port := by
  have htext := shownNetloc_toList scheme host port
  have hle : ∀ p ∈ shownPortOf scheme port, p ≤ 65535 := fun p hp => hport p (eq_of_shownPortOf hp).1
  constructor
  · rintro ⟨again, hagain, hsame⟩
    by_cases hcolon : ':' ∈ host.toList
    · right
      right
      have hmem : ':' ∈ (shownNetloc scheme host port).toList := by
        rw [htext]
        exact List.mem_append_left _ hcolon
      obtain ⟨hsplit, hname⟩ := split_colon hmem
      have hsame' := congrArg String.toList hsame
      rw [shownNetloc_toList, hsplit] at hsame'
      have hname' : ':' ∉ (rstripDots (nameText (shownNetloc scheme host port))).toList :=
        fun hc => hname ((rstripDots_sublist _).subset hc)
      cases hshown : shownPortOf scheme again with
      | none =>
        rw [hshown, portText, List.append_nil] at hsame'
        exfalso
        apply hname'
        rw [hsame']
        exact List.mem_append_right _ List.mem_cons_self
      | some n =>
        rw [hshown] at hsame'
        have hcut := congrArg (partition ':') hsame'
        rw [portText, partition_eq hname', partition_eq hname] at hcut
        obtain ⟨hdotless, -, hdigits⟩ := Prod.mk.inj hcut |>.imp_right Prod.mk.inj
        obtain ⟨rfl, hdefault⟩ := eq_of_shownPortOf hshown
        -- one colon ends the host, so no port is shown behind it
        have hnone : shownPortOf scheme port = none := by
          cases hport : shownPortOf scheme port with
          | none => rfl
          | some m =>
            exfalso
            obtain ⟨front, rest, hfrontSplit, hfront⟩ := List.eq_append_cons_of_mem hcolon
            have hpart : portPart (shownNetloc scheme host port) = rest ++ portText (some m) := by
              have hfront' : ':' ∉ (String.ofList front).toList := by rwa [String.toList_ofList]
              refine (nameText_eq_of_append hfront' ?_).2
              rw [htext, hport, hfrontSplit, String.toList_ofList]
              simp
            apply colon_not_mem_digits n
            rw [hdigits, hpart]
            exact List.mem_append_right _ List.mem_cons_self
        refine ⟨hnone, nameText (shownNetloc scheme host port), n, ?_, hname, ?_, ?_, hdefault⟩
        · rw [hnone, portText, List.append_nil] at htext
          rw [← htext, portText, hdigits]
          exact hsplit
        · exact String.toList_inj.mp hdotless
        · exact port_le hagain
    · exact .inl hcolon
  · rintro (hcolon | hhead | ⟨hnone, name, n, hhost, hname, hdotless, hbound, hdefault⟩)
    · refine ⟨shownPortOf scheme port, ?_⟩
      have hread : nameText (shownNetloc scheme host port) = host ∧
          portPart (shownNetloc scheme host port) = (portText (shownPortOf scheme port)).tail := by
        cases hshown : shownPortOf scheme port with
        | none =>
          rw [hshown, portText, List.append_nil] at htext
          rw [String.toList_inj.mp htext]
          exact nameText_eq_self hcolon
        | some n =>
          rw [hshown] at htext
          exact nameText_eq_of_append hcolon htext
      refine ⟨netlocPort_canonical hat hbrackets hread.2 hle, ?_⟩
      apply String.toList_inj.mp
      rw [hread.1, hdots, shownNetloc_toList, shownPortOf_shownPortOf, htext]
    · exfalso
      apply hne
      have hnil : (shownNetloc scheme host port).toList.head? = some ':' := by
        rw [htext, List.head?_append, hhead]
        rfl
      cases hlist : (shownNetloc scheme host port).toList with
      | nil =>
        rw [hlist] at hnil
        cases hnil
      | cons c rest =>
        rw [hlist] at hnil
        obtain rfl := Option.some.inj hnil
        have hempty : ':' ∉ ("" : String).toList := by simp
        exact (nameText_eq_of_append hempty hlist).1
    · have hnetloc : (shownNetloc scheme host port).toList = name.toList ++ ':' :: Nat.toDigits 10 n := by
        rw [htext, hnone, hhost, portText, portText, List.append_nil]
      obtain ⟨hread, hpart⟩ := nameText_eq_of_append hname hnetloc
      refine ⟨some n, netlocPort_canonical hat hbrackets hpart ?_, ?_⟩
      · intro p hp
        rwa [← Option.some.inj hp]
      · apply String.toList_inj.mp
        rw [hread, hdotless, shownNetloc_toList, shownPortOf_of_ne hdefault, hnetloc, portText]

end Reread

end NightScout
