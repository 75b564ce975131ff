import NightScout.Lib.Splits
import Mathlib.Data.List.Induction
import Mathlib.Data.List.TakeWhile
import Mathlib.Tactic.Ring

/-!
# `ipaddress`

Python's `ipaddress` module: `ip_address`, `ip_network(..., strict=False)`, `str` of both,
`address in network` and `subnet_of`. An address is a number below 2³² or 2¹²⁸, and an IPv6 address
may have a zone. A network is a base address without host bits, and a prefix length.

Two results are what a user needs: the text of an address (a network) is read back as this address
(this network), and the tests on networks are tests on sets of addresses, as far as zones allow.
-/

namespace NightScout.Lib

inductive IpVersion where
  | v4 | v6
  deriving DecidableEq, Repr

/-- `max_prefixlen`. -/
def IpVersion.bits : IpVersion → ℕ
  | v4 => 32
  | v6 => 128

/-! ## Numbers in texts -/

def parseOctet (text : List Char) : Option ℕ :=
  if text = [] ∨ !text.all Char.isDigit then none
  else if text.length > 3 then none
  else if text ≠ ['0'] ∧ text.head? = some '0' then none
  else
    let octet := Nat.ofDigitChars 10 text 0
    if octet > 255 then none else some octet

/-- The value of one of `_HEX_DIGITS`. -/
def hexDigit (c : Char) : Option ℕ :=
  if c.isDigit then some (c.toNat - 48)
  else if 'a' ≤ c ∧ c ≤ 'f' then some (c.toNat - 87)
  else if 'A' ≤ c ∧ c ≤ 'F' then some (c.toNat - 55)
  else none

/-- The number that `base`-digits write, the first the highest. -/
def ofDigitList (base : ℕ) (digits : List ℕ) : ℕ := digits.foldl (fun n d => base * n + d) 0

def parseHextet (text : List Char) : Option ℕ :=
  if text = [] ∨ text.length > 4 then none
  else (text.mapM hexDigit).map (ofDigitList 16)

/-- `'%x' % n`. -/
def hexText (n : ℕ) : List Char := Nat.toDigits 16 n

/-! ## IPv4 -/

/-- `IPv4Address._ip_int_from_string`. -/
def parseIPv4 (text : List Char) : Option ℕ :=
  let octets := text.splitOn '.'
  if octets.length ≠ 4 then none else (octets.mapM parseOctet).map (ofDigitList 256)

/-- The `count` lowest digits of a number, the highest first. -/
def digitList (base : ℕ) : ℕ → ℕ → List ℕ
  | 0, _ => []
  | count + 1, n => digitList base count (n / base) ++ [n % base]

/-- `IPv4Address._string_from_ip_int`. -/
def textIPv4 (n : ℕ) : List Char :=
  List.intercalate ['.'] ((digitList 256 4 n).map (Nat.toDigits 10))

/-! ## IPv6 -/

/-- An IPv4 suffix counts as two hextets. -/
def expandSuffix (parts : List (List Char)) : Option (List (List Char)) :=
  let last := parts.getLastD []
  if '.' ∈ last then
    (parseIPv4 last).map fun n => parts.dropLast ++ [hexText (n / 65536), hexText (n % 65536)]
  else some parts

/-- The hextets before (after) a `::` that stands directly at the outer end only if that end is
    empty: `^: requires ^::`. -/
def outerParts (outer : List Char) (inner parts : List (List Char)) : Option (List (List Char)) :=
  if outer = [] then (if inner = [] then some [] else none) else some parts

/-- The number that the hextets around a `::` write. -/
def fillZeros (high low : List ℕ) : ℕ :=
  ofDigitList 65536 (high ++ List.replicate (8 - (high.length + low.length)) 0 ++ low)

/-- The number that the parts between the colons write. The empty parts strictly between the first
    and the last are the places of `::`. -/
def readParts (parts : List (List Char)) : Option ℕ :=
  if parts.length > 9 then none
  else
    match parts.tail.dropLast.splitOnP List.isEmpty with
    | [_] =>
      if parts.length ≠ 8 then none else (parts.mapM parseHextet).map (ofDigitList 65536)
    | [before, after] =>
      let first := parts.headD []
      let last := parts.getLastD []
      (outerParts first before (first :: before)).bind fun high =>
        (outerParts last after (after ++ [last])).bind fun low =>
          if high.length + low.length > 7 then none
          else
            (high.mapM parseHextet).bind fun high => (low.mapM parseHextet).map (fillZeros high)
    | _ => none

/-- `IPv6Address._ip_int_from_string`. -/
def parseIPv6 (text : List Char) : Option ℕ :=
  let parts := text.splitOn ':'
  if parts.length < 3 then none else (expandSuffix parts).bind readParts

/-- The state of the loop of `_compress_hextets`: the best run of zeros so far, and the one that is
    going on, each as its start and its length. -/
structure ZeroRuns where
  index : ℕ := 0
  bestStart : ℕ := 0
  bestLength : ℕ := 0
  length : ℕ := 0

/-- One turn of the loop. The run that is going on began `length` hextets ago. -/
def ZeroRuns.next (runs : ZeroRuns) (hextet : ℕ) : ZeroRuns :=
  if hextet = 0 then
    let length := runs.length + 1
    if length > runs.bestLength then
      { index := runs.index + 1, bestStart := runs.index - runs.length, bestLength := length, length }
    else { runs with index := runs.index + 1, length }
  else { runs with index := runs.index + 1, length := 0 }

/-- `_compress_hextets`, of numbers. -/
def compressHextets (hextets : List ℕ) : List (List Char) :=
  let runs := hextets.foldl ZeroRuns.next {}
  if runs.bestLength > 1 then
    let stop := runs.bestStart + runs.bestLength
    (if runs.bestStart = 0 then [[]] else []) ++ (hextets.take runs.bestStart).map hexText ++ [[]] ++
      (hextets.drop stop).map hexText ++ (if stop = hextets.length then [[]] else [])
  else hextets.map hexText

/-- `IPv6Address._string_from_ip_int`. -/
def textIPv6 (n : ℕ) : List Char :=
  List.intercalate [':'] (compressHextets (digitList 65536 8 n))

/-! ## Numbers are read back -/

section Digits

variable {base : ℕ}

theorem ofDigitList_concat (digits : List ℕ) (d : ℕ) :
    ofDigitList base (digits ++ [d]) = base * ofDigitList base digits + d := by
  simp [ofDigitList, List.foldl_append]

@[simp] theorem length_digitList (count n : ℕ) : (digitList base count n).length = count := by
  induction count generalizing n with
  | zero => rfl
  | succ count ih => simp [digitList, ih]

theorem digitList_lt (hbase : 0 < base) {count n d : ℕ} (h : d ∈ digitList base count n) : d < base := by
  induction count generalizing n with
  | zero => cases h
  | succ count ih =>
    rcases List.mem_append.mp h with h | h
    · exact ih h
    · rw [List.mem_singleton.mp h]
      exact Nat.mod_lt n hbase

theorem ofDigitList_digitList {count n : ℕ} (h : n < base ^ count) : ofDigitList base (digitList base count n) = n := by
  induction count generalizing n with
  | zero =>
    rw [pow_zero] at h
    have hzero : n = 0 := by omega
    simp [digitList, ofDigitList, hzero]
  | succ count ih =>
    have hdiv : n / base < base ^ count := by
      apply Nat.div_lt_of_lt_mul
      rw [pow_succ, mul_comm] at h
      exact h
    rw [digitList, ofDigitList_concat, ih hdiv, Nat.div_add_mod]

end Digits

theorem parseOctet_toDigits {octet : ℕ} (h : octet < 256) : parseOctet (Nat.toDigits 10 octet) = some octet := by
  have hall : ∀ octet < 256, parseOctet (Nat.toDigits 10 octet) = some octet := by decide +kernel
  exact hall octet h

theorem hexDigit_digitChar {d : ℕ} (h : d < 16) : hexDigit d.digitChar = some d := by
  have hall : ∀ d < 16, hexDigit (Nat.digitChar d) = some d := by decide
  exact hall d h

/-- A hexadecimal text is read digit by digit. -/
theorem mapM_hexDigit (n : ℕ) : ∃ digits, (hexText n).mapM hexDigit = some digits ∧ ofDigitList 16 digits = n := by
  induction n using Nat.strong_induction_on with
  | _ n ih =>
    by_cases hlt : n < 16
    · refine ⟨[n], ?_, by simp [ofDigitList]⟩
      rw [hexText, Nat.toDigits_of_lt_base hlt, List.mapM_cons, hexDigit_digitChar hlt]
      rfl
    · obtain ⟨digits, hdigits, hvalue⟩ := ih (n / 16) (by omega)
      refine ⟨digits ++ [n % 16], ?_, ?_⟩
      · rw [hexText, Nat.toDigits_of_base_le (by decide) (by omega), mapM_concat,
          show (Nat.toDigits 16 (n / 16)).mapM hexDigit = some digits from hdigits,
          hexDigit_digitChar (by omega)]
        rfl
      · rw [ofDigitList_concat, hvalue, Nat.div_add_mod]

theorem hexText_ne_nil (n : ℕ) : hexText n ≠ [] := Nat.toDigits_ne_nil

theorem parseHextet_hexText {n : ℕ} (h : n < 65536) : parseHextet (hexText n) = some n := by
  have hlength : (hexText n).length ≤ 4 := by
    rw [hexText, Nat.length_toDigits_le_iff (by decide) (by decide)]
    exact h
  obtain ⟨digits, hdigits, hvalue⟩ := mapM_hexDigit n
  have hguard : ¬ (hexText n = [] ∨ (hexText n).length > 4) := by
    rintro (hnil | hlong)
    · exact hexText_ne_nil n hnil
    · omega
  rw [parseHextet, if_neg hguard, hdigits, Option.map_some, hvalue]

theorem hexDigit_of_mem {n : ℕ} {c : Char} (h : c ∈ hexText n) : hexDigit c ≠ none := by
  obtain ⟨digits, hdigits, -⟩ := mapM_hexDigit n
  exact ne_none_of_mapM hdigits h

/-- None of the separators of an address is a hexadecimal digit. -/
theorem not_mem_hexText {c : Char} (h : hexDigit c = none) (n : ℕ) : c ∉ hexText n :=
  fun hc => hexDigit_of_mem hc h

/-! ## What is read is in range -/

theorem ofDigitList_lt {base : ℕ} {digits : List ℕ} (h : ∀ d ∈ digits, d < base) :
    ofDigitList base digits < base ^ digits.length := by
  induction digits using List.reverseRecOn with
  | nil => simp [ofDigitList]
  | append_singleton digits d ih =>
    have hd : d < base := h d (by simp)
    have hdigits := ih fun e he => h e (List.mem_append_left _ he)
    rw [ofDigitList_concat, List.length_append, List.length_singleton, pow_succ]
    calc base * ofDigitList base digits + d
        < base * ofDigitList base digits + base := by omega
      _ = base * (ofDigitList base digits + 1) := by ring
      _ ≤ base * base ^ digits.length := Nat.mul_le_mul_left base hdigits
      _ = base ^ digits.length * base := mul_comm _ _

theorem parseOctet_lt {text : List Char} {octet : ℕ} (h : parseOctet text = some octet) : octet < 256 := by
  unfold parseOctet at h
  split at h
  · cases h
  split at h
  · cases h
  split at h
  · cases h
  simp only at h
  split at h
  · cases h
  · obtain rfl := Option.some.inj h
    omega

theorem hexDigit_lt {c : Char} {d : ℕ} (h : hexDigit c = some d) : d < 16 := by
  unfold hexDigit at h
  split at h
  next hdigit =>
    obtain rfl := Option.some.inj h
    have hle : c.toNat ≤ 57 := by
      simp only [Char.isDigit, Bool.and_eq_true, decide_eq_true_eq] at hdigit
      exact UInt32.le_iff_toNat_le.mp hdigit.2
    omega
  split at h
  next hlower =>
    obtain rfl := Option.some.inj h
    have hle : c.toNat ≤ 102 := UInt32.le_iff_toNat_le.mp hlower.2
    omega
  split at h
  next hupper =>
    obtain rfl := Option.some.inj h
    have hle : c.toNat ≤ 70 := UInt32.le_iff_toNat_le.mp hupper.2
    omega
  · cases h

theorem parseHextet_lt {text : List Char} {hextet : ℕ} (h : parseHextet text = some hextet) : hextet < 65536 := by
  unfold parseHextet at h
  split at h
  · cases h
  next hguard =>
    obtain ⟨digits, hdigits, rfl⟩ := Option.map_eq_some_iff.mp h
    obtain ⟨hlength, hall⟩ := mapM_some (fun _ _ _ hd => hexDigit_lt hd) hdigits
    calc ofDigitList 16 digits
        < 16 ^ digits.length := ofDigitList_lt hall
      _ ≤ 16 ^ 4 := Nat.pow_le_pow_right (by decide) (by omega)
      _ = 65536 := rfl

theorem parseIPv4_lt {text : List Char} {n : ℕ} (h : parseIPv4 text = some n) : n < 2 ^ 32 := by
  unfold parseIPv4 at h
  simp only at h
  split at h
  · cases h
  next hcount =>
    obtain ⟨octets, hoctets, rfl⟩ := Option.map_eq_some_iff.mp h
    obtain ⟨hlength, hall⟩ := mapM_some (fun _ _ _ ho => parseOctet_lt ho) hoctets
    have hfour : octets.length = 4 := by omega
    calc ofDigitList 256 octets
        < 256 ^ octets.length := ofDigitList_lt hall
      _ = 2 ^ 32 := by rw [hfour]; rfl

theorem hextets_lt {hextets : List ℕ} (hlength : hextets.length = 8)
    (hall : ∀ hextet ∈ hextets, hextet < 65536) : ofDigitList 65536 hextets < 2 ^ 128 :=
  calc ofDigitList 65536 hextets
      < 65536 ^ hextets.length := ofDigitList_lt hall
    _ = 2 ^ 128 := by rw [hlength]; rfl

theorem parseIPv6_lt {text : List Char} {n : ℕ} (h : parseIPv6 text = some n) : n < 2 ^ 128 := by
  unfold parseIPv6 at h
  simp only at h
  split at h
  · cases h
  obtain ⟨parts, -, h⟩ := Option.bind_eq_some_iff.mp h
  unfold readParts at h
  split at h
  · cases h
  split at h
  · split at h
    · cases h
    next hcount =>
      obtain ⟨hextets, hhextets, rfl⟩ := Option.map_eq_some_iff.mp h
      obtain ⟨hlength, hall⟩ := mapM_some (fun _ _ _ ho => parseHextet_lt ho) hhextets
      exact hextets_lt (by omega) hall
  · obtain ⟨highTexts, -, h⟩ := Option.bind_eq_some_iff.mp h
    obtain ⟨lowTexts, -, h⟩ := Option.bind_eq_some_iff.mp h
    split at h
    · cases h
    next hroom =>
      obtain ⟨high, hhigh, h⟩ := Option.bind_eq_some_iff.mp h
      obtain ⟨low, hlow, rfl⟩ := Option.map_eq_some_iff.mp h
      obtain ⟨hlength, hall⟩ := mapM_some (fun _ _ _ ho => parseHextet_lt ho) hhigh
      obtain ⟨hlength', hall'⟩ := mapM_some (fun _ _ _ ho => parseHextet_lt ho) hlow
      apply hextets_lt
      · simp only [List.length_append, List.length_replicate]
        omega
      · intro hextet hmem
        simp only [List.mem_append, List.mem_replicate] at hmem
        rcases hmem with (hmem | ⟨-, rfl⟩) | hmem
        · exact hall hextet hmem
        · decide
        · exact hall' hextet hmem
  · cases h

/-! ## IPv4 addresses are read back -/

theorem parseIPv4_textIPv4 {n : ℕ} (h : n < 2 ^ 32) : parseIPv4 (textIPv4 n) = some n := by
  have hoctets : ∀ octet ∈ digitList 256 4 n, octet < 256 := fun octet ho => digitList_lt (by decide) ho
  have hsplit : (textIPv4 n).splitOn '.' = (digitList 256 4 n).map (Nat.toDigits 10) := by
    apply List.splitOn_intercalate
    · intro text htext hdot
      obtain ⟨octet, -, rfl⟩ := List.mem_map.mp htext
      exact absurd (Nat.isDigit_of_mem_toDigits (by decide) (by decide) hdot) (by decide)
    · intro hnil
      have hlength := congrArg List.length hnil
      simp at hlength
  have hread : ((digitList 256 4 n).map (Nat.toDigits 10)).mapM parseOctet =
      some (digitList 256 4 n) := mapM_map fun octet ho => parseOctet_toDigits (hoctets octet ho)
  rw [parseIPv4, hsplit]
  simp only [List.length_map, length_digitList, ne_eq, not_true_eq_false, if_false, hread,
    Option.map_some, Option.some.injEq]
  exact ofDigitList_digitList h

/-! ## IPv6 addresses are read back

A run of zeros that is worth a `::` lies within the hextets, and consists of zeros. That it is the
longest one does not matter for reading. -/

/-- What the loop keeps, over the hextets it has seen. -/
structure ZeroRuns.Valid (runs : ZeroRuns) (seen : List ℕ) : Prop where
  index : runs.index = seen.length
  best_le : runs.bestStart + runs.bestLength ≤ seen.length
  best_zero : seen.drop runs.bestStart = List.replicate runs.bestLength 0 ++
    seen.drop (runs.bestStart + runs.bestLength)
  length_le : runs.length ≤ seen.length
  zeros : seen.drop (seen.length - runs.length) = List.replicate runs.length 0

theorem ZeroRuns.Valid.next {runs : ZeroRuns} {seen : List ℕ} (h : runs.Valid seen) (hextet : ℕ) :
    (runs.next hextet).Valid (seen ++ [hextet]) := by
  obtain ⟨hindex, hbest, hbestZero, hlength, hzeros⟩ := h
  have hkept : (seen ++ [hextet]).drop runs.bestStart = List.replicate runs.bestLength 0 ++
      (seen ++ [hextet]).drop (runs.bestStart + runs.bestLength) := by
    rw [List.drop_append_of_le_length (by omega), List.drop_append_of_le_length (by omega),
      hbestZero, List.append_assoc]
  unfold ZeroRuns.next
  split
  next hzero =>
    have hrun : (seen ++ [hextet]).drop (seen.length - runs.length) =
        List.replicate (runs.length + 1) 0 := by
      rw [List.drop_append_of_le_length (by omega), hzeros, hzero, List.replicate_succ']
    simp only
    split
    · refine ⟨by simp [hindex], ?_, ?_, ?_, ?_⟩
      · simp only [List.length_append, List.length_singleton]
        omega
      · have hend : seen.length - runs.length + (runs.length + 1) = (seen ++ [hextet]).length := by
          simp only [List.length_append, List.length_singleton]
          omega
        simp only [hindex]
        rw [hend, List.drop_length, List.append_nil, hrun]
      · simp only [List.length_append, List.length_singleton]
        omega
      · have hstart : (seen ++ [hextet]).length - (runs.length + 1) = seen.length - runs.length := by
          simp only [List.length_append, List.length_singleton]
          omega
        simp only
        rw [hstart, hrun]
    · refine ⟨by simp [hindex], ?_, hkept, ?_, ?_⟩
      · simp only [List.length_append, List.length_singleton]
        omega
      · simp only [List.length_append, List.length_singleton]
        omega
      · have hstart : (seen ++ [hextet]).length - (runs.length + 1) = seen.length - runs.length := by
          simp only [List.length_append, List.length_singleton]
          omega
        simp only
        rw [hstart, hrun]
  next =>
    refine ⟨by simp [hindex], ?_, hkept, Nat.zero_le _, ?_⟩
    · simp only [List.length_append, List.length_singleton]
      omega
    · simp

theorem ZeroRuns.valid_foldl {runs : ZeroRuns} {seen : List ℕ} (h : runs.Valid seen)
    (hextets : List ℕ) : (hextets.foldl ZeroRuns.next runs).Valid (seen ++ hextets) := by
  induction hextets generalizing runs seen with
  | nil => simpa using h
  | cons hextet hextets ih =>
    have hnext := ih (h.next hextet)
    rw [List.append_assoc] at hnext
    exact hnext

/-- **What compressing does**: nothing, or a run of zeros becomes one empty text, two at an end. -/
theorem compressHextets_cases (hextets : List ℕ) : compressHextets hextets = hextets.map hexText ∨
    ∃ before after count, 2 ≤ count ∧ hextets = before ++ List.replicate count 0 ++ after ∧
      compressHextets hextets = (if before = [] then [[]] else []) ++ before.map hexText ++ [[]] ++
        after.map hexText ++ (if after = [] then [[]] else []) := by
  have hvalid : (hextets.foldl ZeroRuns.next {}).Valid hextets := by
    have hstart : ZeroRuns.Valid {} [] := ⟨rfl, le_refl 0, rfl, le_refl 0, rfl⟩
    exact ZeroRuns.valid_foldl hstart hextets
  unfold compressHextets
  generalize hextets.foldl ZeroRuns.next {} = runs at hvalid ⊢
  simp only
  split
  next hlong =>
    right
    refine ⟨hextets.take runs.bestStart, hextets.drop (runs.bestStart + runs.bestLength),
      runs.bestLength, hlong, ?_, ?_⟩
    · rw [List.append_assoc, ← hvalid.best_zero, List.take_append_drop]
    · have hbest := hvalid.best_le
      have hfirst : hextets.take runs.bestStart = [] ↔ runs.bestStart = 0 := by
        rw [List.take_eq_nil_iff]
        constructor
        · rintro (hzero | hnil)
          · exact hzero
          · rw [hnil, List.length_nil] at hbest
            omega
        · exact Or.inl
      have hlast : hextets.drop (runs.bestStart + runs.bestLength) = [] ↔
          runs.bestStart + runs.bestLength = hextets.length := by
        rw [List.drop_eq_nil_iff]
        omega
      simp only [hfirst, hlast]
  next => exact .inl rfl

/-- The texts of the hextets on one side of a `::`. An end is an empty text. -/
def sideTexts (hextets : List ℕ) : List (List Char) :=
  if hextets = [] then [[]] else hextets.map hexText

theorem map_hexText_ne_nil {hextets : List ℕ} {text : List Char} (h : text ∈ hextets.map hexText) :
    text.isEmpty = false := by
  obtain ⟨n, -, rfl⟩ := List.mem_map.mp h
  rw [List.isEmpty_eq_false_iff]
  exact hexText_ne_nil n

theorem sideTexts_before (hextets : List ℕ) : ∃ first inner, sideTexts hextets = first :: inner ∧
    (∀ text ∈ inner, text.isEmpty = false) ∧ outerParts first inner (first :: inner) = some (hextets.map hexText) := by
  cases hextets with
  | nil => exact ⟨[], [], rfl, (by simp), rfl⟩
  | cons n rest =>
    refine ⟨hexText n, rest.map hexText, rfl, fun text h => map_hexText_ne_nil h, ?_⟩
    rw [outerParts, if_neg (hexText_ne_nil n)]
    rfl

theorem sideTexts_after (hextets : List ℕ) : ∃ inner last, sideTexts hextets = inner ++ [last] ∧
    (∀ text ∈ inner, text.isEmpty = false) ∧ outerParts last inner (inner ++ [last]) = some (hextets.map hexText) := by
  rcases List.eq_nil_or_concat hextets with rfl | ⟨rest, n, rfl⟩
  · exact ⟨[], [], rfl, (by simp), rfl⟩
  · refine ⟨rest.map hexText, hexText n, ?_, fun text h => map_hexText_ne_nil h, ?_⟩
    · simp [sideTexts]
    · rw [outerParts, if_neg (hexText_ne_nil n)]
      simp

theorem compressHextets_sides (hextets : List ℕ) : compressHextets hextets = hextets.map hexText ∨
    ∃ before after count, 2 ≤ count ∧ hextets = before ++ List.replicate count 0 ++ after ∧
      compressHextets hextets = sideTexts before ++ [] :: sideTexts after := by
  rcases compressHextets_cases hextets with h | ⟨before, after, count, hcount, hsplit, h⟩
  · exact .inl h
  · refine .inr ⟨before, after, count, hcount, hsplit, ?_⟩
    rw [h]
    unfold sideTexts
    split <;> split <;> simp_all

/-- A text of the compressed form is empty, or writes a hextet. -/
theorem mem_compressHextets {hextets : List ℕ} {text : List Char} (h : text ∈ compressHextets hextets) :
    text = [] ∨ ∃ n, text = hexText n := by
  have hside : ∀ {side : List ℕ}, text ∈ sideTexts side → text = [] ∨ ∃ n, text = hexText n := by
    intro side hmem
    unfold sideTexts at hmem
    split at hmem
    · exact .inl (List.mem_singleton.mp hmem)
    · obtain ⟨n, -, rfl⟩ := List.mem_map.mp hmem
      exact .inr ⟨n, rfl⟩
  rcases compressHextets_sides hextets with heq | ⟨before, after, count, -, -, heq⟩
  · rw [heq] at h
    obtain ⟨n, -, rfl⟩ := List.mem_map.mp h
    exact .inr ⟨n, rfl⟩
  · rw [heq] at h
    rcases List.mem_append.mp h with h | h
    · exact hside h
    · rcases List.mem_cons.mp h with rfl | h
      · exact .inl rfl
      · exact hside h

theorem not_mem_of_mem_compress {hextets : List ℕ} {text : List Char} {c : Char}
    (h : text ∈ compressHextets hextets) (hc : hexDigit c = none) : c ∉ text := by
  rcases mem_compressHextets h with rfl | ⟨n, rfl⟩
  · simp
  · exact not_mem_hexText hc n

theorem expandSuffix_compress (hextets : List ℕ) :
    expandSuffix (compressHextets hextets) = some (compressHextets hextets) := by
  have hdot : '.' ∉ (compressHextets hextets).getLastD [] := by
    rcases List.eq_nil_or_concat (compressHextets hextets) with hnil | ⟨rest, last, hlast⟩
    · simp [hnil]
    · have hmem : last ∈ compressHextets hextets := by simp [hlast]
      rw [hlast, List.concat_eq_append, List.getLastD_concat]
      exact not_mem_of_mem_compress hmem (by decide)
  rw [expandSuffix, if_neg hdot]

theorem splitOn_textIPv6 {hextets : List ℕ} (h : compressHextets hextets ≠ []) :
    (List.intercalate [':'] (compressHextets hextets)).splitOn ':' = compressHextets hextets :=
  List.splitOn_intercalate ':' (fun _ htext => not_mem_of_mem_compress htext (by decide)) h

theorem length_sideTexts (hextets : List ℕ) :
    1 ≤ (sideTexts hextets).length ∧ (sideTexts hextets).length ≤ hextets.length + 1 := by
  cases hextets with
  | nil => simp [sideTexts]
  | cons n rest => simp [sideTexts]

theorem parseIPv6_textIPv6 {n : ℕ} (h : n < 2 ^ 128) : parseIPv6 (textIPv6 n) = some n := by
  have hvalue : ofDigitList 65536 (digitList 65536 8 n) = n := ofDigitList_digitList h
  have hlength : (digitList 65536 8 n).length = 8 := length_digitList 8 n
  have hread : ∀ hextet ∈ digitList 65536 8 n, parseHextet (hexText hextet) = some hextet :=
    fun hextet hmem => parseHextet_hexText (digitList_lt (by decide) hmem)
  unfold textIPv6
  generalize digitList 65536 8 n = hextets at hvalue hlength hread ⊢
  have hexpand := expandSuffix_compress hextets
  rcases compressHextets_sides hextets with heq | ⟨before, after, count, hcount, hsplit, heq⟩
  · -- nothing was compressed: eight hextets, none of them empty
    have hparts : (compressHextets hextets).length = 8 := by rw [heq, List.length_map, hlength]
    have hne : compressHextets hextets ≠ [] := by
      intro hnil
      rw [hnil] at hparts
      cases hparts
    have hinner : (compressHextets hextets).tail.dropLast.splitOnP List.isEmpty =
        [(compressHextets hextets).tail.dropLast] := by
      apply List.splitOnP_eq_singleton
      intro text htext
      have hmem := List.mem_of_mem_tail (List.dropLast_subset _ htext)
      rw [heq] at hmem
      exact map_hexText_ne_nil hmem
    have hall : (compressHextets hextets).mapM parseHextet = some hextets := by
      rw [heq]
      exact mapM_map hread
    simp [parseIPv6, readParts, splitOn_textIPv6 hne, hexpand, hparts, hinner, hall, hvalue]
  · -- a run of zeros was: the parts before it, the empty text, and the parts after it
    obtain ⟨first, high, hbefore, hhigh, houter⟩ := sideTexts_before before
    obtain ⟨low, last, hafter, hlow, houter'⟩ := sideTexts_after after
    have hparts : compressHextets hextets = first :: (high ++ [] :: low ++ [last]) := by
      rw [heq, hbefore, hafter]
      simp
    have hinner : (high ++ [] :: low).splitOnP List.isEmpty = [high, low] := by
      rw [List.splitOnP_append_cons_of_forall_mem hhigh [] rfl, List.splitOnP_eq_singleton hlow]
    have hlengths : before.length + count + after.length = 8 := by
      rw [hsplit] at hlength
      simpa [List.length_append, Nat.add_assoc] using hlength
    have hsides := length_sideTexts before
    have hsides' := length_sideTexts after
    have hmin : ¬ (compressHextets hextets).length < 3 := by
      rw [heq, List.length_append, List.length_cons]
      omega
    have hmax : ¬ (compressHextets hextets).length > 9 := by
      rw [heq, List.length_append, List.length_cons]
      omega
    have hne : compressHextets hextets ≠ [] := by
      rw [hparts]
      exact List.cons_ne_nil _ _
    have hreadBefore : (before.map hexText).mapM parseHextet = some before :=
      mapM_map fun hextet hmem => hread hextet (by rw [hsplit]; simp [hmem])
    have hreadAfter : (after.map hexText).mapM parseHextet = some after :=
      mapM_map fun hextet hmem => hread hextet (by rw [hsplit]; simp [hmem])
    have hroom : ¬ (before.map hexText).length + (after.map hexText).length > 7 := by
      rw [List.length_map, List.length_map]
      omega
    have hfill : 8 - (before.length + after.length) = count := by omega
    have hhead : (compressHextets hextets).headD [] = first := by rw [hparts]; rfl
    have hlast : (compressHextets hextets).getLastD [] = last := by
      rw [hparts, ← List.cons_append, List.getLastD_concat]
    have hmiddle : (compressHextets hextets).tail.dropLast = high ++ [] :: low := by
      rw [hparts, List.tail_cons, List.dropLast_concat]
    simp only [parseIPv6, splitOn_textIPv6 hne, hexpand, if_neg hmin, Option.bind_some, readParts,
      if_neg hmax, hmiddle, hinner, hhead, hlast, houter, houter', if_neg hroom, hreadBefore,
      hreadAfter, Option.map_some, Option.some.injEq, fillZeros]
    rw [hfill, ← hsplit]
    exact hvalue

/-! ## Addresses -/

/-- What a zone may be: `_split_scope_id` wants it nonempty and without a second `%`, and no address
    has a slash. -/
def ZoneText (zone : List Char) : Prop := zone ≠ [] ∧ '%' ∉ zone ∧ '/' ∉ zone

instance (zone : List Char) : Decidable (ZoneText zone) := inferInstanceAs (Decidable (_ ∧ _ ∧ _))

/-- `IPv4Address` and `IPv6Address`. -/
@[ext] structure IpAddress where
  version : IpVersion
  value : ℕ
  zone : Option (List Char)
  value_lt : value < 2 ^ version.bits
  zone_v6 : version = .v4 → zone = none
  zone_text : ∀ z ∈ zone, ZoneText z
  deriving DecidableEq

namespace IpAddress

def ofIPv4 (n : ℕ) (h : n < 2 ^ 32) : IpAddress :=
  ⟨.v4, n, none, h, fun _ => rfl, fun _ hz => by cases hz⟩

def ofIPv6 (n : ℕ) (h : n < 2 ^ 128) (zone : Option (List Char)) (hzone : ∀ z ∈ zone, ZoneText z) :
    IpAddress :=
  ⟨.v6, n, zone, h, (by intro hv; cases hv), hzone⟩

/-- `str(address)`. -/
def text (address : IpAddress) : List Char :=
  match address.version with
  | .v4 => textIPv4 address.value
  | .v6 => textIPv6 address.value ++ address.zone.elim [] fun zone => '%' :: zone

/-- `IPv4Address(text)`. -/
def parseV4 (text : List Char) : Option IpAddress :=
  match h : parseIPv4 text with
  | some n => some (ofIPv4 n (parseIPv4_lt h))
  | none => none

/-- `IPv6Address(text)`. -/
def parseV6 (text : List Char) : Option IpAddress :=
  if '/' ∈ text then none
  else
    let address := text.takeWhile (· ≠ '%')
    let zone := text.drop (address.length + 1)
    match h : parseIPv6 address with
    | none => none
    | some n =>
      if '%' ∉ text then some (ofIPv6 n (parseIPv6_lt h) none fun _ hz => by cases hz)
      else if hzone : ZoneText zone then
        some (ofIPv6 n (parseIPv6_lt h) (some zone) fun _ hz => Option.some.inj hz ▸ hzone)
      else none

def parseAs : IpVersion → List Char → Option IpAddress
  | .v4 => parseV4
  | .v6 => parseV6

/-- `ip_address`. -/
def parse (text : List Char) : Option IpAddress := (parseV4 text).or (parseV6 text)

theorem parseV4_of {text : List Char} {n : ℕ} (h : parseIPv4 text = some n) :
    parseV4 text = some (ofIPv4 n (parseIPv4_lt h)) := by
  unfold parseV4
  split
  next m hm =>
    rw [h] at hm
    obtain rfl := Option.some.inj hm
    rfl
  next hnone =>
    rw [h] at hnone
    cases hnone

theorem parseV4_eq_none {text : List Char} (h : parseIPv4 text = none) : parseV4 text = none := by
  unfold parseV4
  split
  next m hm =>
    rw [h] at hm
    cases hm
  next => rfl

theorem parseV6_of_plain {text : List Char} {n : ℕ} (hslash : '/' ∉ text) (hpercent : '%' ∉ text)
    (h : parseIPv6 text = some n) :
    parseV6 text = some (ofIPv6 n (parseIPv6_lt h) none fun _ hz => by cases hz) := by
  have haddress : text.takeWhile (· ≠ '%') = text := by
    rw [List.takeWhile_eq_self_iff]
    intro c hc
    simp only [decide_eq_true_eq]
    rintro rfl
    exact hpercent hc
  unfold parseV6
  rw [if_neg hslash]
  simp only
  split
  next hnone =>
    rw [haddress, h] at hnone
    cases hnone
  next m hm =>
    rw [haddress, h] at hm
    obtain rfl := Option.some.inj hm
    rw [if_pos hpercent]

theorem parseV6_of_zone {address zone : List Char} {n : ℕ} (hslash : '/' ∉ address)
    (hpercent : '%' ∉ address) (hzone : ZoneText zone) (h : parseIPv6 address = some n) :
    parseV6 (address ++ '%' :: zone) =
      some (ofIPv6 n (parseIPv6_lt h) (some zone) fun _ hz => Option.some.inj hz ▸ hzone) := by
  have haddress : (address ++ '%' :: zone).takeWhile (· ≠ '%') = address := by
    rw [List.takeWhile_append_of_pos]
    · simp
    · intro c hc
      simp only [decide_eq_true_eq]
      rintro rfl
      exact hpercent hc
  have hrest : (address ++ '%' :: zone).drop (address.length + 1) = zone := by simp
  have hslash' : '/' ∉ address ++ '%' :: zone := by
    intro hc
    rcases List.mem_append.mp hc with hc | hc
    · exact hslash hc
    · rcases List.mem_cons.mp hc with hc | hc
      · cases hc
      · exact hzone.2.2 hc
  unfold parseV6
  rw [if_neg hslash']
  simp only
  split
  next hnone =>
    rw [haddress, h] at hnone
    cases hnone
  next m hm =>
    rw [haddress, h] at hm
    obtain rfl := Option.some.inj hm
    have hin : '%' ∈ address ++ '%' :: zone := by simp
    rw [if_neg (not_not.mpr hin), dif_pos]
    · simp only [haddress, hrest]
    · rw [haddress, hrest]
      exact hzone

/-- The characters of an IPv6 address. -/
theorem mem_textIPv6 {n : ℕ} {c : Char} (h : c ∈ textIPv6 n) : c = ':' ∨ hexDigit c ≠ none := by
  rcases mem_intercalate h with hsep | ⟨part, hpart, hc⟩
  · exact .inl (List.mem_singleton.mp hsep)
  · right
    intro hnone
    exact not_mem_of_mem_compress hpart hnone hc

/-- The characters of an IPv4 address. -/
theorem mem_textIPv4 {n : ℕ} {c : Char} (h : c ∈ textIPv4 n) : c = '.' ∨ c.isDigit = true := by
  rcases mem_intercalate h with hsep | ⟨part, hpart, hc⟩
  · exact .inl (List.mem_singleton.mp hsep)
  · obtain ⟨octet, -, rfl⟩ := List.mem_map.mp hpart
    exact .inr (Nat.isDigit_of_mem_toDigits (by decide) (by decide) hc)

theorem not_mem_textIPv6 {c : Char} (hcolon : c ≠ ':') (hc : hexDigit c = none) (n : ℕ) : c ∉ textIPv6 n := by
  intro h
  rcases mem_textIPv6 h with heq | hdigit
  · exact hcolon heq
  · exact hdigit hc

theorem not_mem_textIPv4 {c : Char} (hdot : c ≠ '.') (hc : c.isDigit = false) (n : ℕ) : c ∉ textIPv4 n := by
  intro h
  rcases mem_textIPv4 h with heq | hdigit
  · exact hdot heq
  · rw [hc] at hdigit
    cases hdigit

/-- What is read as an IPv4 address consists of digits and dots. -/
theorem parseIPv4_chars {text : List Char} {n : ℕ} (h : parseIPv4 text = some n) {c : Char}
    (hc : c ∈ text) : c = '.' ∨ c.isDigit = true := by
  unfold parseIPv4 at h
  simp only at h
  split at h
  · cases h
  obtain ⟨octets, hoctets, -⟩ := Option.map_eq_some_iff.mp h
  have hjoin : List.intercalate ['.'] (text.splitOn '.') = text := List.intercalate_splitOn '.'
  rw [← hjoin] at hc
  rcases mem_intercalate hc with hdot | ⟨piece, hpiece, hc⟩
  · exact .inl (List.mem_singleton.mp hdot)
  · right
    by_contra hdigit
    apply ne_none_of_mapM hoctets hpiece
    have hguard : piece = [] ∨ !piece.all Char.isDigit := by
      right
      rw [Bool.not_eq_true', List.all_eq_false]
      exact ⟨c, hc, hdigit⟩
    rw [parseOctet, if_pos hguard]

theorem parseV4_eq_none_of_colon {text : List Char} (h : ':' ∈ text) : parseV4 text = none := by
  apply parseV4_eq_none
  cases hparse : parseIPv4 text with
  | none => rfl
  | some n =>
    rcases parseIPv4_chars hparse h with hdot | hdigit
    · cases hdot
    · cases hdigit

theorem colon_mem {text : List Char} {n : ℕ} (h : parseIPv6 text = some n) : ':' ∈ text := by
  by_contra hcolon
  have hsplit : text.splitOn ':' = [text] := by
    rw [List.splitOn_eq_splitOnP]
    apply List.splitOnP_eq_singleton
    intro c hc
    rw [beq_eq_false_iff_ne]
    rintro rfl
    exact hcolon hc
  rw [parseIPv6, hsplit] at h
  cases h

/-- **The text of an address is read back.** -/
theorem parseAs_text (address : IpAddress) : parseAs address.version address.text = some address := by
  obtain ⟨version, value, zone, hlt, hv6, hzone⟩ := address
  cases version with
  | v4 =>
    obtain rfl := hv6 rfl
    exact parseV4_of (parseIPv4_textIPv4 hlt)
  | v6 =>
    have hread : parseIPv6 (textIPv6 value) = some value := parseIPv6_textIPv6 hlt
    have hslash : '/' ∉ textIPv6 value := not_mem_textIPv6 (by decide) (by decide) value
    have hpercent : '%' ∉ textIPv6 value := not_mem_textIPv6 (by decide) (by decide) value
    cases zone with
    | none =>
      simp only [parseAs, text, Option.elim_none, List.append_nil]
      exact parseV6_of_plain hslash hpercent hread
    | some zone => exact parseV6_of_zone hslash hpercent (hzone zone rfl) hread

/-- The text of an IPv6 address has a colon. -/
theorem parseV4_text {address : IpAddress} (h : address.version = .v6) : parseV4 address.text = none := by
  apply parseV4_eq_none_of_colon
  rw [text, h]
  have hlt := address.value_lt
  rw [h] at hlt
  exact List.mem_append_left _ (colon_mem (parseIPv6_textIPv6 hlt))

theorem parse_text (address : IpAddress) : parse address.text = some address := by
  have hread := parseAs_text address
  cases hversion : address.version with
  | v4 =>
    rw [hversion] at hread
    rw [parse, show parseV4 address.text = some address from hread]
    rfl
  | v6 =>
    rw [hversion] at hread
    rw [parse, parseV4_text hversion]
    exact hread

/-- The zone of an address is the end of the text that it is read from. -/
theorem zone_suffix {text : List Char} {address : IpAddress} (h : parse text = some address) :
    ∀ zone ∈ address.zone, zone <:+ text := by
  intro zone hzone
  rcases Option.or_eq_some_iff.mp h with h | ⟨-, h⟩
  · unfold parseV4 at h
    split at h
    · obtain rfl := Option.some.inj h
      cases hzone
    · cases h
  · unfold parseV6 at h
    split at h
    · cases h
    simp only at h
    split at h
    · cases h
    split at h
    · obtain rfl := Option.some.inj h
      cases hzone
    split at h
    · obtain rfl := Option.some.inj h
      obtain rfl := Option.some.inj hzone
      exact List.drop_suffix _ _
    · cases h

theorem text_injective {a b : IpAddress} (h : a.text = b.text) : a = b := by
  have hparse := congrArg parse h
  rw [parse_text, parse_text] at hparse
  exact Option.some.inj hparse

/-! ### A first character that is no digit -/

section FirstChar

variable {c : Char}

theorem parseHextet_eq_none (hc : hexDigit c = none) (rest : List Char) : parseHextet (c :: rest) = none := by
  unfold parseHextet
  split
  · rfl
  · rw [List.mapM_cons, hc]
    rfl

theorem mapM_parseHextet_eq_none (hc : hexDigit c = none) (rest : List Char) (others : List (List Char)) :
    ((c :: rest) :: others).mapM parseHextet = none := by
  rw [List.mapM_cons, parseHextet_eq_none hc]
  rfl

theorem readParts_eq_none (hc : hexDigit c = none) (rest : List Char) (others : List (List Char)) :
    readParts ((c :: rest) :: others) = none := by
  unfold readParts
  split
  · rfl
  split
  · split
    · rfl
    · rw [mapM_parseHextet_eq_none hc]
      rfl
  next before after _ =>
    have houter : outerParts (c :: rest) before ((c :: rest) :: before) = some ((c :: rest) :: before) :=
      if_neg (List.cons_ne_nil c rest)
    simp only [List.headD_cons, houter, Option.bind_some, mapM_parseHextet_eq_none hc, Option.bind_none, ite_self]
    exact Option.bind_fun_none _
  · rfl

/-- An IPv6 address starts with a digit or a colon. -/
theorem parseIPv6_eq_none (hc : hexDigit c = none) (hcolon : c ≠ ':') (rest : List Char) :
    parseIPv6 (c :: rest) = none := by
  obtain ⟨first, others, hsplit⟩ : ∃ first others, (c :: rest).splitOn ':' = (c :: first) :: others := by
    rw [List.splitOn_eq_splitOnP, List.splitOnP_cons_eq_if_modifyHead, if_neg (by simpa using hcolon)]
    cases hrest : rest.splitOnP (· == ':') with
    | nil => exact absurd hrest (List.splitOnP_ne_nil _ _)
    | cons first others => exact ⟨first, others, rfl⟩
  unfold parseIPv6
  simp only [hsplit]
  split
  · rfl
  next hlength =>
    have hothers : others ≠ [] := by
      rintro rfl
      exact hlength (by simp)
    unfold expandSuffix
    simp only
    split
    · cases parseIPv4 _ with
      | none => rfl
      | some n =>
        rw [Option.map_some, Option.bind_some, List.dropLast_cons_of_ne_nil hothers, List.cons_append]
        exact readParts_eq_none hc first _
    · exact readParts_eq_none hc first others

theorem parse_eq_none (hc : hexDigit c = none) (hcolon : c ≠ ':') (hpercent : c ≠ '%') (hdot : c ≠ '.')
    (rest : List Char) : parse (c :: rest) = none := by
  have hv4 : parseV4 (c :: rest) = none := by
    apply parseV4_eq_none
    cases hparse : parseIPv4 (c :: rest) with
    | none => rfl
    | some n =>
      rcases parseIPv4_chars hparse List.mem_cons_self with hdot' | hdigit
      · exact absurd hdot' hdot
      · rw [hexDigit, if_pos hdigit] at hc
        cases hc
  have hv6 : parseV6 (c :: rest) = none := by
    unfold parseV6
    split
    · rfl
    · simp only
      split
      · rfl
      next n hsome =>
        rw [List.takeWhile_cons_of_pos (by simpa using hpercent), parseIPv6_eq_none hc hcolon] at hsome
        cases hsome
  rw [parse, hv4, hv6]
  rfl

end FirstChar

end IpAddress

/-! ## Networks -/

/-- `IPv4Network` and `IPv6Network`. -/
@[ext] structure IpNetwork where
  base : IpAddress
  prefixlen : ℕ
  prefixlen_le : prefixlen ≤ base.version.bits
  no_host_bits : base.value % 2 ^ (base.version.bits - prefixlen) = 0
  deriving DecidableEq

namespace IpNetwork

def version (network : IpNetwork) : IpVersion := network.base.version

/-- The bits of the host mask. -/
def hostBits (network : IpNetwork) : ℕ := network.version.bits - network.prefixlen

/-- `int(address) & int(netmask)`. -/
def masked (bits value : ℕ) : ℕ := value - value % 2 ^ bits

theorem masked_mod (bits value : ℕ) : masked bits value % 2 ^ bits = 0 := by
  have hdiv := Nat.div_add_mod value (2 ^ bits)
  have hmul : masked bits value = 2 ^ bits * (value / 2 ^ bits) := by
    unfold masked
    omega
  rw [hmul, Nat.mul_mod_right]

/-- The network of an address and a prefix length: an address with host bits loses them, and its
    zone. -/
def ofAddress (address : IpAddress) (prefixlen : ℕ) : Option IpNetwork :=
  if hle : prefixlen ≤ address.version.bits then
    if hbits : address.value % 2 ^ (address.version.bits - prefixlen) = 0 then
      some ⟨address, prefixlen, hle, hbits⟩
    else
      let value := masked (address.version.bits - prefixlen) address.value
      some ⟨⟨address.version, value, none, lt_of_le_of_lt (Nat.sub_le _ _) address.value_lt, fun _ => rfl,
        fun _ hz => by cases hz⟩, prefixlen, hle, masked_mod _ _⟩
  else none

/-- `_prefix_from_prefix_string`, without its bound. -/
def readPrefix (text : List Char) : Option ℕ :=
  if text ≠ [] ∧ text.all Char.isDigit then some (Nat.ofDigitChars 10 text 0) else none

/-- `_prefix_from_ip_int`: the prefix length of a netmask. -/
def prefixOfMask (mask : ℕ) : Option ℕ :=
  (List.range 33).find? fun prefixlen => mask = 2 ^ 32 - 2 ^ (32 - prefixlen)

/-- `_prefix_from_ip_string`: a netmask, or a host mask. -/
def readMask (text : List Char) : Option ℕ :=
  (parseIPv4 text).bind fun mask => (prefixOfMask mask).or (prefixOfMask (2 ^ 32 - 1 - mask))

/-- `_make_netmask`. -/
def readNetmask : IpVersion → List Char → Option ℕ
  | .v4, text => ((readPrefix text).filter fun prefixlen => prefixlen ≤ 32).or (readMask text)
  | .v6, text => readPrefix text

/-- `IPv4Network(text, strict=False)` and `IPv6Network(text, strict=False)`. -/
def parseAs (version : IpVersion) (text : List Char) : Option IpNetwork :=
  match text.splitOn '/' with
  | [address] =>
    (IpAddress.parseAs version address).bind fun address => ofAddress address address.version.bits
  | [address, mask] =>
    (IpAddress.parseAs version address).bind fun address =>
      (readNetmask version mask).bind fun prefixlen => ofAddress address prefixlen
  | _ => none

/-- `ip_network(text, strict=False)`. -/
def parse (text : List Char) : Option IpNetwork := (parseAs .v4 text).or (parseAs .v6 text)

/-- `str(network)`. -/
def text (network : IpNetwork) : List Char :=
  network.base.text ++ '/' :: Nat.toDigits 10 network.prefixlen

/-- `address in network`. -/
def contains (network : IpNetwork) (address : IpAddress) : Bool :=
  address.version = network.version && masked network.hostBits address.value = network.base.value

/-- `int(network.broadcast_address)`. -/
def broadcast (network : IpNetwork) : ℕ := network.base.value + (2 ^ network.hostBits - 1)

/-- `subnet_of`, of networks of one version: `<=` on addresses is `<`, or equality with the zone, and
    the broadcast address has no zone. -/
def subnetOf (network other : IpNetwork) : Bool :=
  network.version = other.version &&
    (other.base.value < network.base.value || other.base = network.base) &&
    !decide (other.broadcast < network.broadcast)

/-! ### Networks are read back -/

theorem ofAddress_base (network : IpNetwork) : ofAddress network.base network.prefixlen = some network := by
  rw [ofAddress, dif_pos network.prefixlen_le, dif_pos network.no_host_bits]

theorem slash_not_mem_text (address : IpAddress) : '/' ∉ address.text := by
  cases hversion : address.version with
  | v4 =>
    rw [IpAddress.text, hversion]
    exact IpAddress.not_mem_textIPv4 (by decide) (by decide) _
  | v6 =>
    rw [IpAddress.text, hversion]
    intro hc
    rcases List.mem_append.mp hc with hc | hc
    · exact IpAddress.not_mem_textIPv6 (by decide) (by decide) _ hc
    · cases hzone : address.zone with
      | none =>
        rw [hzone] at hc
        cases hc
      | some zone =>
        rw [hzone] at hc
        rcases List.mem_cons.mp hc with hc | hc
        · cases hc
        · exact (address.zone_text zone hzone).2.2 hc

theorem readPrefix_toDigits (n : ℕ) : readPrefix (Nat.toDigits 10 n) = some n := by
  have hdigits : (Nat.toDigits 10 n).all Char.isDigit = true :=
    List.all_eq_true.mpr fun c hc => Nat.isDigit_of_mem_toDigits (by decide) (by decide) hc
  rw [readPrefix, if_pos ⟨Nat.toDigits_ne_nil, hdigits⟩, Nat.ofDigitChars_ten_toDigits]

theorem splitOn_text (network : IpNetwork) :
    network.text.splitOn '/' = [network.base.text, Nat.toDigits 10 network.prefixlen] := by
  have hjoin : network.text =
      List.intercalate ['/'] [network.base.text, Nat.toDigits 10 network.prefixlen] := by
    simp [text, List.intercalate_cons_cons]
  rw [hjoin]
  apply List.splitOn_intercalate
  · intro piece hpiece
    rcases List.mem_cons.mp hpiece with rfl | hpiece
    · exact slash_not_mem_text network.base
    · obtain rfl := List.mem_singleton.mp hpiece
      intro hc
      exact absurd (Nat.isDigit_of_mem_toDigits (by decide) (by decide) hc) (by decide)
  · exact List.cons_ne_nil _ _

theorem parseAs_text (network : IpNetwork) : parseAs network.version network.text = some network := by
  have hnetmask : readNetmask network.version (Nat.toDigits 10 network.prefixlen) =
      some network.prefixlen := by
    have hle := network.prefixlen_le
    unfold version
    cases hversion : network.base.version with
    | v4 =>
      rw [hversion] at hle
      have hbound : decide (network.prefixlen ≤ 32) = true := decide_eq_true hle
      simp [readNetmask, readPrefix_toDigits, Option.filter, hbound]
    | v6 => exact readPrefix_toDigits _
  rw [parseAs, splitOn_text]
  simp only [show IpAddress.parseAs network.version network.base.text = some network.base from
    IpAddress.parseAs_text network.base, hnetmask, Option.bind_some, ofAddress_base]

/-- **The text of a network is read back.** -/
theorem parse_text (network : IpNetwork) : parse network.text = some network := by
  have hread := parseAs_text network
  unfold version at hread
  cases hversion : network.base.version with
  | v4 =>
    rw [hversion] at hread
    rw [parse, hread]
    rfl
  | v6 =>
    rw [hversion] at hread
    have hnone : parseAs .v4 network.text = none := by
      rw [parseAs, splitOn_text]
      simp only [IpAddress.parseAs, IpAddress.parseV4_text hversion, Option.bind_none]
    rw [parse, hnone]
    exact hread

/-! ### Networks as sets of addresses -/

/-- The addresses of a network. A network says nothing about zones. -/
def addresses (network : IpNetwork) : Set IpAddress :=
  {address | address.version = network.version ∧ network.base.value ≤ address.value ∧
    address.value < network.base.value + 2 ^ network.hostBits}

theorem mem_addresses {network : IpNetwork} {address : IpAddress} :
    address ∈ network.addresses ↔ address.version = network.version ∧
      network.base.value ≤ address.value ∧ address.value < network.base.value + 2 ^ network.hostBits :=
  Iff.rfl

/-- Two numbers have the same masked value, one of them without host bits, if they share a block. -/
theorem sub_mod_eq_iff {size base value : ℕ} (hpos : 0 < size) (hbase : base % size = 0) :
    value - value % size = base ↔ base ≤ value ∧ value < base + size := by
  have hdiv := Nat.div_add_mod value size
  have hmod := Nat.mod_lt value hpos
  have hmul : base = size * (base / size) := by
    have h := Nat.div_add_mod base size
    omega
  constructor
  · intro h
    omega
  · intro ⟨hle, hlt⟩
    have hlow : base / size < value / size + 1 := by
      apply Nat.lt_of_mul_lt_mul_left (a := size)
      rw [← hmul, Nat.mul_add, mul_one]
      omega
    have hhigh : value / size < base / size + 1 := by
      apply Nat.lt_of_mul_lt_mul_left (a := size)
      rw [Nat.mul_add, mul_one, ← hmul]
      omega
    have hsame : value / size = base / size := by omega
    rw [hsame, ← hmul] at hdiv
    omega

/-- **Membership is membership.** -/
theorem contains_iff {network : IpNetwork} {address : IpAddress} :
    network.contains address = true ↔ address ∈ network.addresses := by
  rw [mem_addresses, contains, Bool.and_eq_true, decide_eq_true_eq, decide_eq_true_eq]
  exact and_congr_right fun _ => sub_mod_eq_iff (Nat.two_pow_pos _) network.no_host_bits

/-- The block of a network ends within the address space. -/
theorem block_le (network : IpNetwork) : network.base.value + 2 ^ network.hostBits ≤ 2 ^ network.version.bits := by
  have hle : network.hostBits ≤ network.version.bits := Nat.sub_le _ _
  have hlt := network.base.value_lt
  have hzero : network.base.value % 2 ^ network.hostBits = 0 := network.no_host_bits
  have hspace : 2 ^ network.version.bits =
      2 ^ network.hostBits * 2 ^ (network.version.bits - network.hostBits) := by
    rw [← pow_add, Nat.add_sub_cancel' hle]
  have hmul : network.base.value = 2 ^ network.hostBits * (network.base.value / 2 ^ network.hostBits) := by
    have h := Nat.div_add_mod network.base.value (2 ^ network.hostBits)
    omega
  change network.base.value < 2 ^ network.version.bits at hlt
  rw [hspace] at hlt ⊢
  rw [hmul] at hlt ⊢
  have hquotient := Nat.lt_of_mul_lt_mul_left hlt
  calc 2 ^ network.hostBits * (network.base.value / 2 ^ network.hostBits) + 2 ^ network.hostBits
      = 2 ^ network.hostBits * (network.base.value / 2 ^ network.hostBits + 1) := by ring
    _ ≤ _ := Nat.mul_le_mul_left _ hquotient

theorem broadcast_lt (network : IpNetwork) : network.broadcast < 2 ^ network.version.bits := by
  have hblock := network.block_le
  have hpos := Nat.two_pow_pos network.hostBits
  unfold broadcast
  omega

/-- The last address of a network. -/
def last (network : IpNetwork) : IpAddress where
  version := network.version
  value := network.broadcast
  zone := none
  value_lt := network.broadcast_lt
  zone_v6 := fun _ => rfl
  zone_text := fun _ hz => by cases hz

theorem base_mem (network : IpNetwork) : network.base ∈ network.addresses :=
  mem_addresses.mpr ⟨rfl, le_refl _, Nat.lt_add_of_pos_right (Nat.two_pow_pos _)⟩

theorem last_mem (network : IpNetwork) : network.last ∈ network.addresses := by
  have hpos := Nat.two_pow_pos network.hostBits
  refine mem_addresses.mpr ⟨rfl, ?_, ?_⟩
  · exact Nat.le_add_right _ _
  · change network.base.value + (2 ^ network.hostBits - 1) < network.base.value + 2 ^ network.hostBits
    omega

theorem addresses_subset_iff {network other : IpNetwork} :
    network.addresses ⊆ other.addresses ↔ network.version = other.version ∧
      other.base.value ≤ network.base.value ∧ network.broadcast ≤ other.broadcast := by
  have hpos := Nat.two_pow_pos network.hostBits
  have hpos' := Nat.two_pow_pos other.hostBits
  constructor
  · intro h
    obtain ⟨hversion, hbase, -⟩ := mem_addresses.mp (h network.base_mem)
    obtain ⟨-, -, hlast⟩ := mem_addresses.mp (h network.last_mem)
    refine ⟨hversion, hbase, ?_⟩
    change network.broadcast < other.base.value + 2 ^ other.hostBits at hlast
    unfold broadcast at hlast ⊢
    omega
  · intro ⟨hversion, hbase, hlast⟩ address haddress
    obtain ⟨hv, hlow, hhigh⟩ := mem_addresses.mp haddress
    unfold broadcast at hlast
    exact mem_addresses.mpr ⟨hv.trans hversion, by omega, by omega⟩

/-- Two networks that begin at one number have the same zone. -/
def SameZone (network other : IpNetwork) : Prop :=
  network.base.value = other.base.value → network.base.zone = other.base.zone

/-- **A subnet is a subset**, as far as the zones of the base addresses allow. -/
theorem subnetOf_iff {network other : IpNetwork} : network.subnetOf other = true ↔
    network.addresses ⊆ other.addresses ∧ SameZone network other := by
  rw [addresses_subset_iff]
  simp only [subnetOf, Bool.and_eq_true, Bool.or_eq_true, decide_eq_true_eq, Bool.not_eq_true',
    decide_eq_false_iff_not, not_lt]
  constructor
  · rintro ⟨⟨hversion, hlt | heq⟩, hlast⟩
    · exact ⟨⟨hversion, le_of_lt hlt, hlast⟩, fun hsame => absurd hsame (ne_of_gt hlt)⟩
    · exact ⟨⟨hversion, heq ▸ le_refl _, hlast⟩, fun _ => heq ▸ rfl⟩
  · rintro ⟨⟨hversion, hle, hlast⟩, hzone⟩
    refine ⟨⟨hversion, ?_⟩, hlast⟩
    rcases Nat.lt_or_eq_of_le hle with hlt | heq
    · exact .inl hlt
    · exact .inr (IpAddress.ext hversion.symm heq (hzone heq.symm).symm)

end IpNetwork

end NightScout.Lib
