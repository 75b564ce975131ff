import NightScout.Core.Redaction
import NightScout.Surface.IdentityLaws

/-!
# The marker in a network location

The user information of a URL is replaced by a text in brackets. `urlsplit` takes a network location with brackets
only if what stands for its host is an address: the host of a URL with user information has to be one, or the URL
that is sanitized cannot be read any more.
-/

namespace NightScout

open Lib

/-! ## Hosts in lower case -/

/-- A host in lower case, up to its zone. -/
def lowerHost (tables : Tables) (host : List Char) : String :=
  let (name, percent, zone) := partition '%' host
  strLower tables (String.ofList name) ++ (if percent then "%" ++ String.ofList zone else "")

section LowerHost

variable {tables : Tables} {parts : SplitResult} {host : List Char}

theorem hostname_eq (tables : Tables) (parts : SplitResult) :
    parts.hostname tables = if parts.hostInfo.1 = [] then none else some (lowerHost tables parts.hostInfo.1) := rfl

theorem lowerHost_zone {name zone : List Char} (h : '%' ∉ name) :
    (lowerHost tables (name ++ '%' :: zone)).toList = (strLower tables (String.ofList name)).toList ++ '%' :: zone := by
  rw [lowerHost, partition_eq h]
  simp [String.toList_append]

theorem lowerHost_plain (h : '%' ∉ host) : lowerHost tables host = strLower tables (String.ofList host) := by
  rw [lowerHost, partition_of_notMem h]
  simp

/-- A host has a zone or not. -/
theorem zone_cases (host : List Char) : '%' ∉ host ∨ ∃ name zone, host = name ++ '%' :: zone ∧ '%' ∉ name := by
  by_cases hpercent : '%' ∈ host
  · obtain ⟨name, zone, hhost, hname⟩ := List.eq_append_cons_of_mem hpercent
    exact .inr ⟨name, zone, hhost, hname⟩
  · exact .inl hpercent

variable (hlower : MapsCase (strLower tables))

include hlower

theorem percent_not_mem {name : List Char} (h : '%' ∉ name) : '%' ∉ (strLower tables (String.ofList name)).toList := by
  intro hc
  have hin := hlower.mem_of_plain hc (isPlain_ascii (by decide) (by decide))
  rw [String.toList_ofList] at hin
  exact h hin

/-- A host in lower case stays as it is. -/
theorem lowerHost_lowerHost (host : List Char) :
    lowerHost tables (lowerHost tables host).toList = lowerHost tables host := by
  apply String.toList_inj.mp
  rcases zone_cases host with hplain | ⟨name, zone, rfl, hname⟩
  · rw [lowerHost_plain hplain, lowerHost_plain (percent_not_mem hlower hplain), String.ofList_toList, hlower.idem]
  · rw [lowerHost_zone hname, lowerHost_zone (percent_not_mem hlower hname), String.ofList_toList, hlower.idem]

theorem lowerHost_eq_empty_iff : lowerHost tables host = "" ↔ host = [] := by
  rw [← String.toList_eq_nil_iff]
  rcases zone_cases host with hplain | ⟨name, zone, rfl, hname⟩
  · rw [lowerHost_plain hplain, String.toList_eq_nil_iff, hlower.eq_empty_iff]
    exact String.ofList_eq_empty_iff
  · rw [lowerHost_zone hname]
    simp

/-- Punctuation comes from the host itself. -/
theorem mem_lowerHost {c : Char} (h : c ∈ (lowerHost tables host).toList) (hplain : IsPlain c) : c ∈ host := by
  rcases zone_cases host with hpercent | ⟨name, zone, rfl, hname⟩
  · rw [lowerHost_plain hpercent] at h
    have hin := hlower.mem_of_plain h hplain
    rwa [String.toList_ofList] at hin
  · rw [lowerHost_zone hname] at h
    rcases List.mem_append.mp h with h | h
    · have hin := hlower.mem_of_plain h hplain
      rw [String.toList_ofList] at hin
      exact List.mem_append_left _ hin
    · exact List.mem_append_right _ h

theorem head_strLower {c : Char} (hplain : IsPlain c) (text : String) :
    (strLower tables text).toList.head?.any (· = c) = text.toList.head?.any (· = c) := by
  obtain ⟨image, himage, hmapped⟩ := hlower
  apply (hmapped text).head?_any himage
  intro d hd
  rwa [of_decide_eq_true hd]

/-- A host in lower case starts with a punctuation mark if the host does. -/
theorem head_lowerHost {c : Char} (hplain : IsPlain c) :
    (lowerHost tables host).toList.head?.any (· = c) = host.head?.any (· = c) := by
  rcases zone_cases host with hpercent | ⟨name, zone, rfl, hname⟩
  · rw [lowerHost_plain hpercent, head_strLower hlower hplain, String.toList_ofList]
  · rw [lowerHost_zone hname]
    have hhead := head_strLower hlower hplain (String.ofList name)
    have hempty : (strLower tables (String.ofList name)).toList = [] ↔ name = [] := by
      rw [String.toList_eq_nil_iff, hlower.eq_empty_iff]
      exact String.ofList_eq_empty_iff
    rw [String.toList_ofList] at hhead
    cases hlist : (strLower tables (String.ofList name)).toList with
    | nil => rw [hempty.mp hlist]
    | cons d rest =>
      cases name with
      | nil =>
        rw [hempty.mpr rfl] at hlist
        cases hlist
      | cons e name =>
        rw [hlist] at hhead
        exact hhead

end LowerHost

/-! ## Brackets -/

/-- A host with the brackets it needs. -/
def ShownAs (shown host : List Char) : Prop :=
  shown = '[' :: (host ++ [']']) ∧ ']' ∉ host ∨ shown = host ∧ ':' ∉ host ∧ '[' ∉ host

section Brackets

variable {user shown host : List Char} {port : Option ℕ} {netloc : String}

theorem rpartition_eq {sep : Char} {a b : List Char} (hb : sep ∉ b) : (rpartition sep (a ++ sep :: b)).2.2 = b := by
  have hwhile : (a ++ sep :: b).reverse.takeWhile (· ≠ sep) = b.reverse := by
    rw [List.reverse_append, List.reverse_cons, List.append_assoc]
    apply takeWhile_append_stop
    · intro c hc
      rw [decide_eq_true_eq]
      rintro rfl
      exact hb (List.mem_reverse.mp hc)
    · exact .inr ⟨sep, a.reverse, rfl, by simp⟩
  simp only [rpartition, hwhile, List.reverse_reverse]

theorem portText_not_mem {c : Char} (hcolon : c ≠ ':') (hdigit : c.isDigit = false) : c ∉ portText port := by
  intro h
  rcases isDigit_portText h with rfl | hd
  · exact hcolon rfl
  · rw [hd] at hdigit
    cases hdigit

theorem after_at (hat : '@' ∉ shown) :
    (rpartition '@' (user ++ '@' :: (shown ++ portText port))).2.2 = shown ++ portText port := by
  apply rpartition_eq
  intro hc
  rcases List.mem_append.mp hc with hc | hc
  · exact hat hc
  · exact portText_not_mem (by decide) (by decide) hc

theorem partition_open : partition '[' ('[' :: (host ++ [']']) ++ portText port) =
    ([], true, host ++ ']' :: portText port) := by
  have hlist : '[' :: (host ++ [']']) ++ portText port = [] ++ '[' :: (host ++ ']' :: portText port) := by simp
  rw [hlist]
  exact partition_eq List.not_mem_nil

theorem open_not_mem (hopen : '[' ∉ host) : '[' ∉ host ++ portText port := by
  intro hc
  rcases List.mem_append.mp hc with hc | hc
  · exact hopen hc
  · exact portText_not_mem (by decide) (by decide) hc

/-- A host ends where its port begins. -/
theorem partition_port (hcolon : ':' ∉ host) :
    ∃ b, partition ':' (host ++ portText port) = (host, b, (portText port).tail) := by
  cases port with
  | none =>
    refine ⟨false, ?_⟩
    rw [portText, List.append_nil, partition_of_notMem hcolon]
    rfl
  | some port => exact ⟨true, partition_eq hcolon⟩

/-- The host is cut out of its brackets, or off its port. -/
theorem hostInfo_shown {parts : SplitResult} (hnetloc : parts.netloc.toList = user ++ '@' :: (shown ++ portText port))
    (hshown : ShownAs shown host) (hat : '@' ∉ shown) : parts.hostInfo = (host, (portText port).tail) := by
  unfold SplitResult.hostInfo
  simp only [hnetloc, after_at hat]
  rcases hshown with ⟨rfl, hclose⟩ | ⟨rfl, hcolon, hopen⟩
  · have hport : (partition ':' (portText port)).2.2 = (portText port).tail := by
      obtain ⟨b, hcut⟩ := @partition_port [] port List.not_mem_nil
      rw [List.nil_append] at hcut
      rw [hcut]
    simp only [partition_open, if_true, partition_eq hclose, hport]
  · obtain ⟨b, hcut⟩ := @partition_port shown port hcolon
    simp only [partition_of_notMem (open_not_mem hopen), Bool.false_eq_true, if_false, hcut]

/-- What is checked as an address is the host. -/
theorem checkBracketedNetloc_shown (hnetloc : netloc.toList = user ++ '@' :: (shown ++ portText port))
    (hshown : ShownAs shown host) (hat : '@' ∉ shown) : checkBracketedNetloc netloc = checkBracketedHost host := by
  unfold checkBracketedNetloc
  simp only [hnetloc, after_at hat]
  rcases hshown with ⟨rfl, hclose⟩ | ⟨rfl, hcolon, hopen⟩
  · have hport : (portText port = [] || (portText port).head? = some ':') = true := by cases port <;> rfl
    simp only [partition_open, if_true, partition_eq hclose, decide_true, Bool.true_and, hport]
  · obtain ⟨b, hcut⟩ := @partition_port shown port hcolon
    simp only [partition_of_notMem (open_not_mem hopen), Bool.false_eq_true, if_false, hcut]

/-- A bracket inside a host that is shown without brackets is refused. -/
theorem checkBracketedNetloc_inner (hnetloc : netloc.toList = user ++ '@' :: (host ++ portText port))
    (hopen : '[' ∈ host) (hhead : host.head? ≠ some '[') (hat : '@' ∉ host) : checkBracketedNetloc netloc = false := by
  obtain ⟨a, b, rfl, ha⟩ := List.eq_append_cons_of_mem hopen
  have hne : a ≠ [] := by
    rintro rfl
    exact hhead rfl
  have hcut : partition '[' (a ++ '[' :: b ++ portText port) = (a, true, b ++ portText port) := by
    rw [List.append_assoc, List.cons_append, partition_eq ha]
  unfold checkBracketedNetloc
  simp only [hnetloc, after_at hat, hcut, if_true, hne, decide_false, Bool.false_and]

end Brackets

/-! ## The host of a URL -/

/-- The port that is shown again. -/
def readPort (parts : SplitResult) : Option ℕ :=
  match parts.port with
  | .ok port => port
  | .error _ => none

/-- The host as `hostname` gives it, or nothing. -/
def hostText (tables : Tables) (parts : SplitResult) : List Char := (lowerHost tables parts.hostInfo.1).toList

/-- The host may stand behind a marker in brackets: it is an address itself, and has no bracket inside unless it is
    put in brackets again. -/
def HostFits (tables : Tables) (parts : SplitResult) : Prop :=
  checkBracketedHost (hostText tables parts) = true ∧
    ('[' ∈ hostText tables parts → ':' ∈ hostText tables parts)

section Marked

variable {tables : Tables} {parts : SplitResult}

theorem toList_markedPort (parts : SplitResult) : (markedPort parts).toList = portText (readPort parts) := by
  unfold markedPort readPort
  cases parts.port with
  | error e => rfl
  | ok port =>
    cases port with
    | none => rfl
    | some port =>
      simp [portText, String.toList_append]
      rfl

theorem readPort_le (parts : SplitResult) : ∀ p ∈ readPort parts, p ≤ 65535 := by
  intro p hp
  unfold readPort at hp
  cases hport : parts.port with
  | error e =>
    rw [hport] at hp
    cases hp
  | ok port =>
    rw [hport] at hp
    obtain rfl := Option.mem_def.mp hp
    exact port_le hport

theorem hostInfo_at : '@' ∉ parts.hostInfo.1 :=
  fun h => not_mem_rpartition '@' _ (mem_hostInfo_after h)

/-- A host with a colon stood in brackets. -/
theorem hostInfo_colon (h : ':' ∈ parts.hostInfo.1) : ']' ∉ parts.hostInfo.1 := by
  apply hostInfo_bracketed
  by_contra hopen
  have hplain : parts.hostInfo.1 = (partition ':' (rpartition '@' parts.netloc.toList).2.2).1 := by
    unfold SplitResult.hostInfo
    simp only [partition_of_notMem hopen, Bool.false_eq_true, if_false]
  rw [hplain] at h
  exact (mem_partition.1 h).1 rfl

/-- No address starts with a bracket. -/
theorem hostInfo_head (hbracketed : tables.bracketed = checkBracketedNetloc)
    (haccepts : AcceptsNetloc tables parts.netloc) : parts.hostInfo.1.head? ≠ some '[' := by
  intro hhead
  have hin : '[' ∈ parts.hostInfo.1 := List.mem_of_mem_head? hhead
  have hafter := mem_hostInfo_after hin
  obtain ⟨-, -, hcheck⟩ := haccepts.1 (.inl (mem_hostInfo hin))
  rw [hbracketed] at hcheck
  unfold SplitResult.hostInfo at hhead
  unfold checkBracketedNetloc at hcheck
  have hfound : (partition '[' (rpartition '@' parts.netloc.toList).2.2).2.1 = true := decide_eq_true hafter
  simp only [hfound, if_true, Bool.and_eq_true] at hhead hcheck
  obtain ⟨-, hhost⟩ := hcheck
  cases hlist : (partition ']' (partition '[' (rpartition '@' parts.netloc.toList).2.2).2.2).1 with
  | nil =>
    rw [hlist] at hhead
    cases hhead
  | cons c rest =>
    rw [hlist] at hhead hhost
    obtain rfl := Option.some.inj hhead
    have hfuture : ('[' :: rest).head? ≠ some 'v' := by simp
    rw [checkBracketedHost, if_neg hfuture,
      IpAddress.parse_eq_none (by decide) (by decide) (by decide) (by decide)] at hhost
    cases hhost

variable (hlower : MapsCase (strLower tables))

include hlower

theorem hostname_getD (parts : SplitResult) : (parts.hostname tables).getD "" = lowerHost tables parts.hostInfo.1 := by
  rw [hostname_eq]
  split
  next hempty => exact ((lowerHost_eq_empty_iff hlower).mpr hempty).symm
  next => rfl

theorem mem_hostText {c : Char} (h : c ∈ hostText tables parts) (hplain : IsPlain c) : c ∈ parts.hostInfo.1 :=
  mem_lowerHost hlower h hplain

theorem hostText_head (hbracketed : tables.bracketed = checkBracketedNetloc)
    (haccepts : AcceptsNetloc tables parts.netloc) : (hostText tables parts).head? ≠ some '[' := by
  have hplain : IsPlain '[' := isPlain_ascii (by decide) (by decide)
  have hhead : (hostText tables parts).head?.any (· = '[') = parts.hostInfo.1.head?.any (· = '[') :=
    head_lowerHost hlower hplain
  intro hopen
  rw [hopen] at hhead
  apply hostInfo_head hbracketed haccepts
  cases hlist : parts.hostInfo.1.head? with
  | none =>
    rw [hlist] at hhead
    cases hhead
  | some c =>
    rw [hlist] at hhead
    have hc : c = '[' := by simpa using hhead
    rw [hc]

theorem toList_markedHost (hhead : (hostText tables parts).head? ≠ some '[') : (markedHost tables parts).toList =
    if ':' ∈ hostText tables parts then '[' :: (hostText tables parts ++ [']']) else hostText tables parts := by
  unfold markedHost
  rw [hostname_getD hlower]
  simp only [show (lowerHost tables parts.hostInfo.1).toList = hostText tables parts from rfl, ne_eq, hhead,
    not_false_eq_true, and_true]
  split
  · simp [String.toList_append, hostText]
  · rfl

/-- The host is shown as it has to be, unless it has a bracket and no colon. -/
theorem shownAs_markedHost (hhead : (hostText tables parts).head? ≠ some '[')
    (hfits : '[' ∈ hostText tables parts → ':' ∈ hostText tables parts) :
    ShownAs (markedHost tables parts).toList (hostText tables parts) := by
  rw [toList_markedHost hlower hhead]
  split
  next hcolon =>
    refine .inl ⟨rfl, fun hclose => ?_⟩
    exact hostInfo_colon (mem_hostText hlower hcolon (isPlain_ascii (by decide) (by decide)))
      (mem_hostText hlower hclose (isPlain_ascii (by decide) (by decide)))
  next hcolon => exact .inr ⟨rfl, hcolon, fun hopen => hcolon (hfits hopen)⟩

theorem hostText_at : '@' ∉ hostText tables parts :=
  fun h => hostInfo_at (mem_hostText hlower h (isPlain_ascii (by decide) (by decide)))

theorem markedHost_at (hhead : (hostText tables parts).head? ≠ some '[') : '@' ∉ (markedHost tables parts).toList := by
  rw [toList_markedHost hlower hhead]
  have hat : '@' ∉ hostText tables parts := hostText_at hlower
  split
  · simpa using hat
  · exact hat

end Marked

end NightScout
