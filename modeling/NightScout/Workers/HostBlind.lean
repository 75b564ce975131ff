import NightScout.Lib.Templates
import NightScout.Workers.VHostExecution

/-!
# A server that ignores the Host value

`HostBlindServer`: it answers every Host value with the same response, but for echoing the value in the holes
of its title, its Location and its body. None of its names is a virtual host, so `execute` is to publish
nothing.

The two controls of a parent are different names of one length. A dimension that echoes the value is
unstable between them, and is left out, with two exceptions: the length of a body that echoes the value
is that of its controls', and a Location is compared after the names in it are replaced
(`interesting_response_iff`).
-/

namespace NightScout

open Lib

/-- A server that only echoes the Host value; the holes of a template are the echoes. -/
structure HostBlindServer where
  statusCode : Option ℕ := none
  webserver : Option String := none
  title : Option (Template Char) := none
  location : Option (Template Char) := none
  body : Template Char

/-- What the tool reports of a body: its digest, and counts of words and of lines. A count looks at the
    runs of blanks and words of the body, not at the words. -/
structure BodyReport where
  bodySha256 : List Char → String
  wordCount : List (Option Char) → ℕ
  lineCount : List (Option Char) → ℕ

/-- The length of a body in UTF-8. -/
def bodyLength (body : List Char) : ℕ := (body.map Char.utf8Size).sum

/-- The reported text of a template. -/
def shown (template : Option (Template Char)) (host : String) : Option String :=
  template.bind fun template => stripOrNone (String.ofList (template.fill host.toList))

variable {tables : Tables} (report : BodyReport) (server : HostBlindServer) (service : VHostService)

/-- The result of a request with this Host value. -/
def HostBlindServer.response (host : String) : VHostProbeResult where
  requestedUrl := service.url
  transportHostname := service.transportHostname
  hostHeader := host
  statusCode := server.statusCode
  title := shown server.title host
  bodySha256 := some (report.bodySha256 (server.body.fill host.toList))
  contentLength := some (bodyLength (server.body.fill host.toList))
  wordCount := some (report.wordCount (runs isSpace false (server.body.fill host.toList)))
  lineCount := some (report.lineCount (runs isSpace false (server.body.fill host.toList)))
  location := shown server.location host
  webserver := server.webserver

/-- The Location of the signature. -/
def HostBlindServer.signedLocation (tables : Tables) (host : String) : Option String :=
  normalizeLocationForSignature tables (shown server.location host) [service.transportHostname, host]

/-! ## The two controls -/

section Names

variable {host : String}

theorem isWord_of_normal (h : normalizeDnsName tables host = .ok host) : IsWord isSpace host.toList := by
  obtain ⟨ls, hls, hhost⟩ := normalizeDnsName_ok h
  constructor
  · intro hnil
    apply hls.ne_empty
    rw [← hhost, ← String.toList_eq_nil_iff.mp hnil]
  · intro c hc
    rw [hhost, String.toList_ofList] at hc
    exact (hls.hostChar hc).not_isSpace

theorem bodyLength_of_normal (h : normalizeDnsName tables host = .ok host) :
    bodyLength host.toList = host.toList.length := by
  obtain ⟨ls, hls, hhost⟩ := normalizeDnsName_ok h
  have hone : ∀ c ∈ host.toList, Char.utf8Size c = 1 := by
    intro c hc
    rw [hhost, String.toList_ofList] at hc
    exact Char.utf8Size_eq_one_iff.mpr (by
      have hlt := (hls.hostChar hc).lt
      rw [UInt32.le_iff_toNat_le]
      exact Nat.le_of_lt_succ hlt)
  unfold bodyLength
  rw [List.map_congr_left hone]
  simp

/-- The length of a body that echoes a name. -/
theorem bodyLength_fill (h : normalizeDnsName tables host = .ok host) (body : Template Char) :
    bodyLength (body.fill host.toList) = bodyLength (body.fill []) + body.holes * host.toList.length := by
  have hsum := Template.sum_fill Char.utf8Size host.toList body
  rw [← bodyLength_of_normal h]
  exact hsum

end Names

/-- Two controls that tell an echo from a fixed text. -/
structure ControlPair (tables : Tables) (report : BodyReport) (server : HostBlindServer)
    (controls : String × String) : Prop where
  firstNormal : normalizeDnsName tables controls.1 = .ok controls.1
  secondNormal : normalizeDnsName tables controls.2 = .ok controls.2
  sameLength : controls.1.toList.length = controls.2.toList.length
  different : controls.1 ≠ controls.2
  /-- Their bodies have one digest only if they are the same. -/
  noCollision : report.bodySha256 (server.body.fill controls.1.toList) =
      report.bodySha256 (server.body.fill controls.2.toList) →
    server.body.fill controls.1.toList = server.body.fill controls.2.toList

section Pairs

variable {report : BodyReport} {server : HostBlindServer} {service : VHostService}
  {controls : String × String} {host : String}

theorem ControlPair.chars_ne (hpair : ControlPair tables report server controls) :
    controls.1.toList ≠ controls.2.toList :=
  fun h => hpair.different (String.toList_inj.mp h)

/-- A template that the controls fill alike has no hole. -/
theorem ControlPair.no_holes (hpair : ControlPair tables report server controls)
    {template : Template Char} (h : template.fill controls.1.toList = template.fill controls.2.toList) :
    template.holes = 0 := by
  by_contra hholes
  exact hpair.chars_ne (Template.fill_injective hpair.sameLength hholes h)

/-- A text that the controls agree on is that of every name. -/
theorem ControlPair.shown_eq (hpair : ControlPair tables report server controls)
    {template : Option (Template Char)} (hsome : shown template controls.1 ≠ none)
    (h : shown template controls.1 = shown template controls.2) (host : String) :
    shown template host = shown template controls.1 := by
  cases template with
  | none => simp only [shown, Option.bind_none]
  | some template =>
    have hstripped : strip (String.ofList (template.fill controls.1.toList)) =
        strip (String.ofList (template.fill controls.2.toList)) := by
      simp only [shown, Option.bind_some, stripOrNone] at hsome h
      split at h
      next hblank => exact absurd (if_pos hblank) hsome
      · split at h
        · cases h
        · exact Option.some.inj h
    have hsame : template.fill controls.1.toList = template.fill controls.2.toList := by
      apply eq_of_stripped (forall₂_fill hpair.sameLength (isWord_of_normal hpair.firstNormal)
        (isWord_of_normal hpair.secondNormal) template)
      have htexts := congrArg String.toList hstripped
      simpa [toList_strip, stripChars_eq_rdropWhile] using htexts
    simp only [shown, Option.bind_some]
    rw [Template.fill_of_no_holes host.toList controls.1.toList (hpair.no_holes hsame)]

theorem ControlPair.bodyLength_eq (hpair : ControlPair tables report server controls)
    (hhost : normalizeDnsName tables host = .ok host) :
    bodyLength (server.body.fill host.toList) = bodyLength (server.body.fill controls.1.toList) ↔
      host.toList.length = controls.1.toList.length ∨ server.body.holes = 0 := by
  rw [bodyLength_fill hhost, bodyLength_fill hpair.firstNormal, Nat.add_left_cancel_iff,
    mul_eq_mul_left_iff]

/-- The signature of a response. -/
def HostBlindServer.signature (tables : Tables) (report : BodyReport) (server : HostBlindServer)
    (service : VHostService) (host : String) : VHostResponseSignature :=
  responseSignature tables (server.response report service host)

/-- The controls agree on this dimension, and the name shows another value. -/
def Changes (tables : Tables) (report : BodyReport) (server : HostBlindServer) (service : VHostService)
    (controls : String × String) (host : String) (name : SignatureField) : Prop :=
  let first := server.signature tables report service controls.1
  let second := server.signature tables report service controls.2
  let own := server.signature tables report service host
  (first.get name ≠ none ∧ first.get name = second.get name) ∧
    own.get name ≠ none ∧ own.get name ≠ first.get name

theorem isWord_pair (hpair : ControlPair tables report server controls)
    (hhost : normalizeDnsName tables host = .ok host) (inside : Bool) :
    runs isSpace inside (server.body.fill host.toList) = runs isSpace inside (server.body.fill controls.1.toList) :=
  runs_fill (isWord_of_normal hhost) (isWord_of_normal hpair.firstNormal) server.body inside

/-- Only the length and the Location can change. -/
theorem ControlPair.changes_cases (hpair : ControlPair tables report server controls)
    (hhost : normalizeDnsName tables host = .ok host) {name : SignatureField}
    (h : Changes tables report server service controls host name) : name = .contentLength ∨ name = .location := by
  obtain ⟨⟨hsome, hstable⟩, -, hchanged⟩ := h
  have hruns := isWord_pair hpair hhost false
  cases name with
  | contentLength => exact .inl rfl
  | location => exact .inr rfl
  | statusCode => exact absurd rfl hchanged
  | webserver => exact absurd rfl hchanged
  | wordCount =>
    refine absurd ?_ hchanged
    simp only [HostBlindServer.signature, responseSignature, HostBlindServer.response,
      VHostResponseSignature.get, hruns]
  | lineCount =>
    refine absurd ?_ hchanged
    simp only [HostBlindServer.signature, responseSignature, HostBlindServer.response,
      VHostResponseSignature.get, hruns]
  | bodySha256 =>
    refine absurd ?_ hchanged
    simp only [HostBlindServer.signature, responseSignature, HostBlindServer.response,
      VHostResponseSignature.get, Option.map_some, Option.some.injEq, SignatureValue.text.injEq]
      at hstable ⊢
    have hholes := hpair.no_holes (hpair.noCollision hstable)
    rw [Template.fill_of_no_holes host.toList controls.1.toList hholes]
  | title =>
    refine absurd ?_ hchanged
    simp only [HostBlindServer.signature, responseSignature, HostBlindServer.response,
      VHostResponseSignature.get, ne_eq, Option.map_eq_none_iff] at hsome hstable ⊢
    have hsame : shown server.title controls.1 = shown server.title controls.2 :=
      Option.map_injective (fun a b hab => SignatureValue.text.inj hab) hstable
    rw [hpair.shown_eq hsome hsame host]

/-- The length changes with an echo in the body of a name of another length. -/
theorem ControlPair.changes_contentLength (hpair : ControlPair tables report server controls)
    (hhost : normalizeDnsName tables host = .ok host) :
    Changes tables report server service controls host .contentLength ↔
      server.body.holes ≠ 0 ∧ host.toList.length ≠ controls.1.toList.length := by
  have hsecond := (hpair.bodyLength_eq hpair.secondNormal).mpr (.inl hpair.sameLength.symm)
  have hown := hpair.bodyLength_eq hhost
  simp only [Changes, HostBlindServer.signature, responseSignature, HostBlindServer.response,
    VHostResponseSignature.get, Option.map_some, ne_eq, reduceCtorEq, not_false_eq_true, true_and,
    Option.some.injEq, SignatureValue.number.injEq, hsecond, hown, not_or]
  exact and_comm

theorem changes_location : Changes tables report server service controls host .location ↔
      ∃ common other, server.signedLocation service tables controls.1 = some common ∧
        server.signedLocation service tables controls.2 = some common ∧
        server.signedLocation service tables host = some other ∧ other ≠ common := by
  have hget : ∀ h, (server.signature tables report service h).get .location =
      (server.signedLocation service tables h).map .text := fun _ => rfl
  simp only [Changes, hget]
  cases server.signedLocation service tables controls.1 <;>
    cases server.signedLocation service tables controls.2 <;>
    cases server.signedLocation service tables host <;> simp [eq_comm]

instance (controls : String × String) (host : String) :
    DecidablePred (Changes tables report server service controls host) :=
  fun _ => inferInstanceAs (Decidable ((_ ∧ _) ∧ _ ∧ _))

theorem changedDimensions_eq (controls : String × String) (host : String) :
    changedDimensions (server.signature tables report service controls.1) (server.signature tables report service host)
      (stableSignatureDimensions (server.signature tables report service controls.1)
        (server.signature tables report service controls.2)) =
      signatureFields.filter fun name => Changes tables report server service controls host name := by
  unfold changedDimensions stableSignatureDimensions
  rw [List.filter_filter]
  apply List.filter_congr
  intro name _
  rw [← Bool.decide_and]
  exact decide_eq_decide.mpr and_comm

/-- **A response of the server is interesting if both change**: the length of an echo, and the Location.
    Each alone scores below the default threshold. -/
theorem ControlPair.interesting_iff (hpair : ControlPair tables report server controls)
    (hhost : normalizeDnsName tables host = .ok host) :
    (compareToBaseline (server.signature tables report service controls.1) (server.signature tables report service host)
      (stableSignatureDimensions (server.signature tables report service controls.1)
        (server.signature tables report service controls.2))
      VHostWorkerConfig.default.minDifferentialScore).interesting = true ↔
      Changes tables report server service controls host .contentLength ∧
        Changes tables report server service controls host .location := by
  have hother : ∀ name, name ≠ .contentLength → name ≠ .location →
      ¬ Changes tables report server service controls host name := by
    intro name hlength hlocation hchanges
    rcases hpair.changes_cases hhost hchanges with h | h
    · exact hlength h
    · exact hlocation h
  have hkept : signatureFields.filter
        (fun name => Changes tables report server service controls host name) =
      [SignatureField.contentLength, .location].filter
        fun name => Changes tables report server service controls host name := by
    simp only [signatureFields, List.filter_cons, List.filter_nil,
      hother .statusCode (by decide) (by decide), hother .bodySha256 (by decide) (by decide),
      hother .wordCount (by decide) (by decide), hother .lineCount (by decide) (by decide),
      hother .title (by decide) (by decide), hother .webserver (by decide) (by decide),
      decide_false, if_false, Bool.false_eq_true]
  have hthreshold : VHostWorkerConfig.default.minDifferentialScore = 2 := rfl
  unfold compareToBaseline
  rw [changedDimensions_eq, hkept, hthreshold]
  by_cases hlength : Changes tables report server service controls host .contentLength <;>
    by_cases hlocation : Changes tables report server service controls host .location <;>
      norm_num [hlength, hlocation, SignatureField.weight]

end Pairs

/-! ## The controls of a parent -/

section Controls

/-- What the names of the controls take from a digest. -/
structure ControlDigest (digest : String) : Prop where
  length_eq : digest.toList.length = 64
  hex : ∀ c ∈ digest.toList, ('0' ≤ c ∧ c ≤ '9') ∨ ('a' ≤ c ∧ c ≤ 'f')
  /-- Its first two runs of sixteen digits differ. -/
  differs : digest.toList.take 16 ≠ (digest.toList.drop 16).take 16

/-- The label of a control is as long as any other control's. -/
def controlLabelLength : ℕ := 22

theorem hostLabel_control {digits : List Char} (hlength : digits.length = 16)
    (hhex : ∀ c ∈ digits, ('0' ≤ c ∧ c ≤ '9') ∨ ('a' ≤ c ∧ c ≤ 'f')) :
    HostLabel ("ns-vh-".toList ++ digits) := by
  have hne : digits ≠ [] := by
    intro hnil
    rw [hnil] at hlength
    cases hlength
  have hchar : ∀ c ∈ digits, ('a' ≤ c ∧ c ≤ 'z') ∨ ('0' ≤ c ∧ c ≤ '9') ∨ c = '-' := by
    intro c hc
    rcases hhex c hc with h | h
    · exact .inr (.inl h)
    · exact .inl ⟨h.1, le_trans h.2 (by decide)⟩
  refine ⟨?_, ?_, ?_, ?_, ?_⟩
  · rw [List.length_append, hlength]
    decide
  · intro c hc
    rcases List.mem_append.mp hc with hc | hc
    · have hfixed : ∀ c ∈ "ns-vh-".toList, ('a' ≤ c ∧ c ≤ 'z') ∨ ('0' ≤ c ∧ c ≤ '9') ∨ c = '-' := by
        decide
      exact hfixed c hc
    · exact hchar c hc
  · simp
  · have hfixed : "ns-vh-".toList = ['n', 's', '-', 'v', 'h', '-'] := by decide
    rw [hfixed]
    simp
  · rw [List.getLast?_append, List.getLast?_eq_getLast_of_ne_nil hne, Option.or_of_isSome rfl]
    intro hlast
    have hmem : '-' ∈ digits := by
      rw [← Option.some.inj hlast]
      exact List.getLast_mem hne
    exact absurd (hhex '-' hmem) (by decide)

/-- The name of a control, as joined labels. -/
theorem controlName_eq (digits : List Char) {ls : List (List Char)} (hne : ls ≠ []) :
    controlLabel digits ++ "." ++ String.ofList (['.'].intercalate ls) =
      String.ofList (['.'].intercalate (("ns-vh-".toList ++ digits) :: ls)) := by
  obtain ⟨l, ls, rfl⟩ := List.exists_cons_of_ne_nil hne
  apply String.toList_inj.mp
  simp [controlLabel, List.intercalate_cons_cons, String.toList_append]

variable {sha256 : String → String} {service : VHostService} {inputEvent : Event}

/-- A normal name is a label before its parent. -/
theorem exists_parent {hostname : String} (h : normalizeDnsName tables hostname = .ok hostname) :
    ∃ label ls, HostLabel label ∧ (∀ l ∈ ls, HostLabel l) ∧ ls ≠ [] ∧
      hostname = String.ofList (['.'].intercalate (label :: ls)) ∧
      immediateParentDomain tables hostname = .ok (some (String.ofList (['.'].intercalate ls))) := by
  obtain ⟨all, hall, hhost⟩ := normalizeDnsName_ok h
  cases all with
  | nil => exact absurd rfl hall.ne_nil
  | cons label ls =>
    cases ls with
    | nil => exact absurd hall.two (by simp)
    | cons l ls =>
      refine ⟨label, l :: ls, hall.label label List.mem_cons_self,
        fun x hx => hall.label x (List.mem_cons_of_mem _ hx), List.cons_ne_nil l ls, hhost, ?_⟩
      unfold immediateParentDomain
      rw [h, ok_bind, hhost, hall.labels_eq]
      rfl

/-- The controls of a parent: two normal names of one length, that differ if the digest is proper. -/
theorem controls_of_digest {ls : List (List Char)} (hls : ∀ l ∈ ls, HostLabel l) (hne : ls ≠ [])
    {controls : String × String}
    (h : deterministicControlHostnames tables sha256 (String.ofList (['.'].intercalate ls)) service
      inputEvent = .ok controls) (hdigest : ControlDigest
      (sha256 (controlSeed service inputEvent (String.ofList (['.'].intercalate ls))))) :
    normalizeDnsName tables controls.1 = .ok controls.1 ∧
      normalizeDnsName tables controls.2 = .ok controls.2 ∧ controls.1 ≠ controls.2 ∧
      controls.1.toList.length = controlLabelLength + 1 + (['.'].intercalate ls).length ∧
      controls.2.toList.length = controlLabelLength + 1 + (['.'].intercalate ls).length := by
  unfold deterministicControlHostnames at h
  obtain ⟨parent, hparent, h⟩ := bind_ok h
  have hsame := normalizeDnsName_joined hls hne hparent
  subst hsame
  obtain ⟨first, hfirst, h⟩ := bind_ok h
  obtain ⟨second, hsecond, h⟩ := bind_ok h
  cases h
  have hdigits : ∀ digits : List Char, digits.length = 16 →
      (∀ c ∈ digits, c ∈ (sha256 (controlSeed service inputEvent
        (String.ofList (['.'].intercalate ls)))).toList) → ∀ name,
      normalizeDnsName tables (controlLabel digits ++ "." ++ String.ofList (['.'].intercalate ls)) =
        .ok name → name = String.ofList (['.'].intercalate (("ns-vh-".toList ++ digits) :: ls)) := by
    intro digits hlength hmem name hname
    rw [controlName_eq digits hne] at hname
    apply normalizeDnsName_joined _ (List.cons_ne_nil _ _) hname
    intro l hl
    rcases List.mem_cons.mp hl with rfl | hl
    · exact hostLabel_control hlength fun c hc => hdigest.hex c (hmem c hc)
    · exact hls l hl
  have hlong := hdigest.length_eq
  have hfirstName := hdigits _ (by simp [hlong]) (fun c hc => List.mem_of_mem_take hc) first hfirst
  have hsecondName := hdigits _ (by simp [hlong])
    (fun c hc => List.mem_of_mem_drop (List.mem_of_mem_take hc)) second hsecond
  have hlength : ∀ digits : List Char, digits.length = 16 →
      (['.'].intercalate (("ns-vh-".toList ++ digits) :: ls)).length =
        controlLabelLength + 1 + (['.'].intercalate ls).length := by
    intro digits hsixteen
    obtain ⟨l, rest, rfl⟩ := List.exists_cons_of_ne_nil hne
    have hfixed : "ns-vh-".toList.length = 6 := by decide
    rw [List.intercalate_cons_cons]
    simp only [List.length_append, hsixteen, List.length_singleton, hfixed, controlLabelLength]
  refine ⟨normalizeDnsName_normal hfirst, normalizeDnsName_normal hsecond, ?_, ?_, ?_⟩
  · intro hsame
    apply hdigest.differs
    have hjoined := hfirstName.symm.trans (hsame.trans hsecondName)
    obtain ⟨l, rest, rfl⟩ := List.exists_cons_of_ne_nil hne
    rw [String.ofList_inj, List.intercalate_cons_cons, List.intercalate_cons_cons] at hjoined
    simpa using hjoined
  · show first.toList.length = _
    rw [hfirstName, String.toList_ofList, hlength _ (by simp [hlong])]
  · show second.toList.length = _
    rw [hsecondName, String.toList_ofList, hlength _ (by simp [hlong])]

end Controls

/-! ## What a run is over -/

section Runs

variable (tables) (sha256 : String → String) (inputEvent : Event) (lane : CandidateLane)
  (candidates : List (VHostCandidate tables))

/-- What the run relies on of SHA-256, for the candidates at hand. -/
structure ProperDigests : Prop where
  controls : ∀ candidate ∈ candidates, ∀ parent,
    immediateParentDomain tables candidate.hostname = .ok (some parent) →
    ControlDigest (sha256 (controlSeed service inputEvent parent))
  /-- The bodies of two controls have one digest only if they are the same. -/
  bodies : ∀ candidate ∈ candidates, ∀ parent controls,
    immediateParentDomain tables candidate.hostname = .ok (some parent) →
    deterministicControlHostnames tables sha256 parent service inputEvent = .ok controls →
    report.bodySha256 (server.body.fill controls.1.toList) =
      report.bodySha256 (server.body.fill controls.2.toList) →
    server.body.fill controls.1.toList = server.body.fill controls.2.toList

/-- The parents of the candidates of a lane, in the order they are tested. -/
def candidateParents : List String :=
  sortedTexts ((candidates.filter fun candidate => candidate.lane = lane).filterMap fun candidate =>
    (immediateParentDomain tables candidate.hostname).toOption.join).toFinset

/-- The run comes to this parent: the controls of those before it have names. -/
def ReachedParent (parent : String) : Prop :=
  ∃ before after, candidateParents tables lane candidates = before ++ parent :: after ∧
    ∀ earlier ∈ before,
      (deterministicControlHostnames tables sha256 earlier service inputEvent).isOk = true

/-- The server's response to a candidate is taken for that of a virtual host: its body echoes the
    name, whose label is not as long as a control's, and its Location, with the names in it replaced,
    is not the one the controls have in common. -/
def Misread (parent : String) (hostname : String) : Prop :=
  server.body.holes ≠ 0 ∧ ((labels hostname).headD []).length ≠ controlLabelLength ∧
    ∃ controls common other,
      deterministicControlHostnames tables sha256 parent service inputEvent = .ok controls ∧
      server.signedLocation service tables controls.1 = some common ∧
      server.signedLocation service tables controls.2 = some common ∧
      server.signedLocation service tables hostname = some other ∧ other ≠ common

variable {tables} {report} {server} {service} {sha256} {inputEvent} {candidates}

theorem ProperDigests.pair (h : ProperDigests tables report server service sha256 inputEvent candidates)
    {candidate : VHostCandidate tables} (hcandidate : candidate ∈ candidates) {parent : String}
    (hparent : immediateParentDomain tables candidate.hostname = .ok (some parent)) {controls : String × String}
    (hcontrols : deterministicControlHostnames tables sha256 parent service inputEvent = .ok controls) :
    ControlPair tables report server controls ∧ (candidate.hostname.toList.length = controls.1.toList.length ↔
        ((labels candidate.hostname).headD []).length = controlLabelLength) := by
  obtain ⟨label, ls, hlabel, hls, hne, hhost, himmediate⟩ := exists_parent candidate.hostname_normal
  rw [himmediate] at hparent
  cases hparent
  obtain ⟨hfirst, hsecond, hdiffer, hfirstLength, hsecondLength⟩ :=
    controls_of_digest hls hne hcontrols (h.controls candidate hcandidate _ himmediate)
  constructor
  · exact ⟨hfirst, hsecond, hfirstLength.trans hsecondLength.symm, hdiffer,
      h.bodies candidate hcandidate _ controls himmediate hcontrols⟩
  · have hlabels : labels candidate.hostname = label :: ls := by
      rw [hhost]
      apply labels_joined _ (List.cons_ne_nil label ls)
      intro l hl
      rcases List.mem_cons.mp hl with rfl | hl
      · exact hlabel
      · exact hls l hl
    have hlength : candidate.hostname.toList.length = label.length + 1 + (['.'].intercalate ls).length := by
      obtain ⟨l, rest, rfl⟩ := List.exists_cons_of_ne_nil hne
      rw [hhost, String.toList_ofList, List.intercalate_cons_cons]
      simp only [List.length_append, List.length_singleton]
    rw [hlength, hfirstLength, hlabels, List.headD_cons]
    omega

/-- A misread candidate is one whose differential is interesting. -/
theorem ProperDigests.interesting_iff (h : ProperDigests tables report server service sha256 inputEvent candidates)
    {candidate : VHostCandidate tables} (hcandidate : candidate ∈ candidates) {parent : String}
    (hparent : immediateParentDomain tables candidate.hostname = .ok (some parent)) {controls : String × String}
    (hcontrols : deterministicControlHostnames tables sha256 parent service inputEvent = .ok controls) :
    (compareToBaseline (server.signature tables report service controls.1)
      (server.signature tables report service candidate.hostname)
      (stableSignatureDimensions (server.signature tables report service controls.1)
        (server.signature tables report service controls.2))
      VHostWorkerConfig.default.minDifferentialScore).interesting = true ↔
      Misread tables server service sha256 inputEvent parent candidate.hostname := by
  obtain ⟨hpair, hlength⟩ := h.pair hcandidate hparent hcontrols
  have hother : candidate.hostname.toList.length ≠ controls.1.toList.length ↔
      ((labels candidate.hostname).headD []).length ≠ controlLabelLength := not_congr hlength
  rw [hpair.interesting_iff candidate.hostname_normal,
    hpair.changes_contentLength candidate.hostname_normal, changes_location, hother, and_assoc]
  unfold Misread
  apply and_congr_right
  intro _
  apply and_congr_right
  intro _
  constructor
  · rintro ⟨common, other, hfirst, hsecond, hown, hne⟩
    exact ⟨controls, common, other, hcontrols, hfirst, hsecond, hown, hne⟩
  · rintro ⟨controls', common, other, hcontrols', hfirst, hsecond, hown, hne⟩
    rw [hcontrols] at hcontrols'
    cases hcontrols'
    exact ⟨common, other, hfirst, hsecond, hown, hne⟩

end Runs

end NightScout
