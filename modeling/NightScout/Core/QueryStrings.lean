import NightScout.Lib.IpAddress
import NightScout.Lib.Utf8
import NightScout.Policy.UrlReading
import Mathlib.Data.List.SplitBy

/-!
# Query strings

`parse_qsl` and `urlencode` of `urllib.parse`, with `quote_plus` and `unquote_plus`. What `urlencode` writes is
ASCII without delimiters, and `parse_qsl` reads the pairs from it that it was written from.
-/

namespace NightScout

open Lib

/-! ## Quoting -/

def alwaysSafe (b : UInt8) : Bool :=
  (0x30 ≤ b && b ≤ 0x39) || (0x41 ≤ b && b ≤ 0x5A) || (0x61 ≤ b && b ≤ 0x7A) ||
    b = 0x5F || b = 0x2E || b = 0x2D || b = 0x7E

/-- A digit of `{:02X}`. -/
def upperHexDigit (n : ℕ) : Char := Char.ofNat (if n < 10 then 0x30 + n else 0x37 + n)

/-- A byte, as `quote` writes it where spaces are left as they are. -/
def quoteByte (b : UInt8) : List Char :=
  if alwaysSafe b || b = 0x20 then [Char.ofNat b.toNat]
  else ['%', upperHexDigit (b.toNat / 16), upperHexDigit (b.toNat % 16)]

def quotePlus (text : String) : List Char :=
  ((utf8Encode text.toList).flatMap quoteByte).map fun c => if c = ' ' then '+' else c

/-- `unquote_to_bytes`, of ASCII text. -/
def unquoteToBytes : List Char → List UInt8
  | [] => []
  | [c] => [UInt8.ofNat c.toNat]
  | [c, d] => [UInt8.ofNat c.toNat, UInt8.ofNat d.toNat]
  | c :: high :: low :: rest =>
    match decide (c = '%'), hexDigit high, hexDigit low with
    | true, some x, some y => UInt8.ofNat (16 * x + y) :: unquoteToBytes rest
    | _, _, _ => UInt8.ofNat c.toNat :: unquoteToBytes (high :: low :: rest)

def isAsciiChar (c : Char) : Bool := c.toNat < 128

/-- `unquote`: runs of ASCII are read as bytes, and the rest is kept. -/
def unquote (text : List Char) : List Char :=
  if '%' ∉ text then text
  else
    (text.splitBy fun a b => isAsciiChar a == isAsciiChar b).flatMap fun run =>
      if run.all isAsciiChar then utf8Decode (unquoteToBytes run) else run

def unquotePlus (text : List Char) : String :=
  String.ofList (unquote (text.map fun c => if c = '+' then ' ' else c))

/-! ## Pairs -/

/-- `parse_qsl(text, keep_blank_values=True)`. -/
def parseQsl (text : String) : List (String × String) :=
  ((text.toList.splitOn '&').filter (· ≠ [])).map fun piece =>
    let (name, _, value) := partition '=' piece
    (unquotePlus name, unquotePlus value)

/-- `urlencode(pairs, doseq=True)`, of pairs of texts. -/
def urlencode (pairs : List (String × String)) : String :=
  String.ofList (List.intercalate ['&'] (pairs.map fun (name, value) => quotePlus name ++ '=' :: quotePlus value))

/-! ## Reading a quoted text -/

section Quoting

theorem hexDigit_upperHexDigit {n : ℕ} (h : n < 16) :
    hexDigit (upperHexDigit n) = some n ∧ isAsciiChar (upperHexDigit n) = true := by
  revert n
  decide

/-- A byte that stands for itself. -/
theorem plain_byte {b : UInt8} (h : (alwaysSafe b || b = 0x20) = true) :
    Char.ofNat b.toNat ≠ '%' ∧ UInt8.ofNat (Char.ofNat b.toNat).toNat = b ∧ isAsciiChar (Char.ofNat b.toNat) = true := by
  simp only [alwaysSafe, Bool.or_eq_true, Bool.and_eq_true, decide_eq_true_eq, UInt8.le_iff_toNat_le,
    ← UInt8.toNat_inj] at h
  have hlt : b.toNat < 128 := by
    simp at h
    omega
  have hchar : (Char.ofNat b.toNat).toNat = b.toNat := by
    have hvalid : b.toNat.isValidChar := .inl (by omega)
    rw [Char.ofNat, dif_pos hvalid]
    rfl
  refine ⟨?_, ?_, ?_⟩
  · intro hpercent
    rw [hpercent] at hchar
    simp at h
    change 37 = b.toNat at hchar
    omega
  · rw [hchar]
    simp
  · rw [isAsciiChar, hchar]
    simpa using hlt

theorem unquoteToBytes_cons {c : Char} (h : c ≠ '%') (rest : List Char) :
    unquoteToBytes (c :: rest) = UInt8.ofNat c.toNat :: unquoteToBytes rest := by
  match rest with
  | [] => rfl
  | [d] => rfl
  | d :: e :: rest =>
    rw [unquoteToBytes, decide_eq_false h]

theorem unquoteToBytes_quoteByte (b : UInt8) (rest : List Char) :
    unquoteToBytes (quoteByte b ++ rest) = b :: unquoteToBytes rest := by
  unfold quoteByte
  split
  next hplain =>
    obtain ⟨hpercent, hbyte, -⟩ := plain_byte hplain
    rw [List.singleton_append, unquoteToBytes_cons hpercent, hbyte]
  next =>
    have hlt : b.toNat < 256 := b.toNat_lt
    obtain ⟨hhigh, -⟩ := hexDigit_upperHexDigit (n := b.toNat / 16) (by omega)
    obtain ⟨hlow, -⟩ := hexDigit_upperHexDigit (n := b.toNat % 16) (by omega)
    simp only [List.cons_append, List.nil_append]
    rw [unquoteToBytes, hhigh, hlow]
    simp only [decide_true]
    rw [Nat.div_add_mod]
    simp

theorem unquoteToBytes_quoted (bytes : List UInt8) : unquoteToBytes (bytes.flatMap quoteByte) = bytes := by
  induction bytes with
  | nil => rfl
  | cons b bytes ih => rw [List.flatMap_cons, unquoteToBytes_quoteByte, ih]

theorem quoteByte_ascii {b : UInt8} {c : Char} (h : c ∈ quoteByte b) : isAsciiChar c = true := by
  unfold quoteByte at h
  split at h
  next hplain =>
    obtain rfl := List.mem_singleton.mp h
    exact (plain_byte hplain).2.2
  next =>
    have hlt : b.toNat < 256 := b.toNat_lt
    simp only [List.mem_cons, List.not_mem_nil, or_false] at h
    rcases h with rfl | rfl | rfl
    · decide
    · exact (hexDigit_upperHexDigit (by omega)).2
    · exact (hexDigit_upperHexDigit (by omega)).2

/-- An ASCII text is one run. -/
theorem splitBy_ascii {text : List Char} (hne : text ≠ []) (h : ∀ c ∈ text, isAsciiChar c = true) :
    (text.splitBy fun a b => isAsciiChar a == isAsciiChar b) = [text] := by
  apply List.splitBy_of_isChain hne
  apply List.Pairwise.isChain
  apply List.pairwise_of_forall_mem_list
  intro a ha b hb
  rw [h a ha, h b hb]
  rfl

theorem unquoteToBytes_plain {text : List Char} (h : '%' ∉ text) (hascii : ∀ c ∈ text, isAsciiChar c = true) :
    unquoteToBytes text = utf8Encode text := by
  induction text with
  | nil => rfl
  | cons c text ih =>
    obtain ⟨hc, htext⟩ : c ≠ '%' ∧ '%' ∉ text := by simpa [eq_comm] using h
    rw [unquoteToBytes_cons hc, ih htext fun d hd => hascii d (List.mem_cons_of_mem c hd), utf8Encode, utf8Encode,
      List.flatMap_cons, utf8EncodeChar_ascii (by simpa [isAsciiChar] using hascii c List.mem_cons_self)]
    rfl

/-- Without a percent sign there is nothing to read differently. -/
theorem unquote_ascii {text : List Char} (h : ∀ c ∈ text, isAsciiChar c = true) :
    unquote text = utf8Decode (unquoteToBytes text) := by
  unfold unquote
  split
  next hpercent => rw [unquoteToBytes_plain hpercent h, utf8Decode_encode]
  next hpercent =>
    have hne : text ≠ [] := by
      rintro rfl
      exact hpercent (List.not_mem_nil)
    rw [splitBy_ascii hne h, List.flatMap_singleton, if_pos (List.all_eq_true.mpr h)]

/-- ASCII without spaces, controls and the delimiters of a URL and a query. -/
def isQuoted (c : Char) : Bool := 32 < c.toNat && c.toNat < 127 && c ∉ ['&', '=', '#', '/', '?', '[', ']', ':', '@']

theorem alwaysSafe_quoted {b : UInt8} (h : alwaysSafe b = true) : isQuoted (Char.ofNat b.toNat) = true := by
  have hall : ∀ n < 128, alwaysSafe (UInt8.ofNat n) = true → isQuoted (Char.ofNat n) = true := by decide +kernel
  have hlt : b.toNat < 128 := by
    simp only [alwaysSafe, Bool.or_eq_true, Bool.and_eq_true, decide_eq_true_eq, UInt8.le_iff_toNat_le,
      ← UInt8.toNat_inj] at h
    simp at h
    omega
  apply hall b.toNat hlt
  simpa using h

theorem quoted_upperHexDigit : ∀ n < 16, isQuoted (upperHexDigit n) = true := by decide

theorem quoteByte_quoted {b : UInt8} {c : Char} (h : c ∈ quoteByte b) : c = ' ' ∨ isQuoted c = true := by
  unfold quoteByte at h
  split at h
  next hplain =>
    obtain rfl := List.mem_singleton.mp h
    rw [Bool.or_eq_true, decide_eq_true_eq] at hplain
    rcases hplain with hsafe | rfl
    · exact .inr (alwaysSafe_quoted hsafe)
    · left
      rfl
  next =>
    have hlt : b.toNat < 256 := b.toNat_lt
    simp only [List.mem_cons, List.not_mem_nil, or_false] at h
    rcases h with rfl | rfl | rfl
    · right
      decide
    · exact .inr (quoted_upperHexDigit _ (by omega))
    · exact .inr (quoted_upperHexDigit _ (by omega))

theorem quotePlus_quoted {text : String} {c : Char} (h : c ∈ quotePlus text) : isQuoted c = true := by
  unfold quotePlus at h
  obtain ⟨d, hd, rfl⟩ := List.mem_map.mp h
  obtain ⟨b, -, hd⟩ := List.mem_flatMap.mp hd
  split
  · decide
  next hspace => exact (quoteByte_quoted hd).resolve_left hspace

/-- No byte is written with a plus sign. -/
theorem quoteByte_plus {b : UInt8} : '+' ∉ quoteByte b := by
  unfold quoteByte
  split
  next hplain =>
    rw [List.mem_singleton]
    intro hplus
    have hbyte := (plain_byte hplain).2.1
    rw [← hplus] at hbyte
    rw [← hbyte] at hplain
    revert hplain
    decide
  next =>
    have hlt : b.toNat < 256 := b.toNat_lt
    have hdigit : ∀ n < 16, upperHexDigit n ≠ '+' := by decide
    simp only [List.mem_cons, List.not_mem_nil, or_false, not_or]
    exact ⟨by decide, (hdigit _ (by omega)).symm, (hdigit _ (by omega)).symm⟩

/-- **A quoted text is read as the text.** -/
theorem unquotePlus_quotePlus (text : String) : unquotePlus (quotePlus text) = text := by
  have hspaces : (quotePlus text).map (fun c => if c = '+' then ' ' else c) =
      (utf8Encode text.toList).flatMap quoteByte := by
    rw [quotePlus, List.map_map]
    conv_rhs => rw [← List.map_id ((utf8Encode text.toList).flatMap quoteByte)]
    apply List.map_congr_left
    intro c hc
    obtain ⟨b, -, hc⟩ := List.mem_flatMap.mp hc
    have hplus : c ≠ '+' := by
      rintro rfl
      exact quoteByte_plus hc
    by_cases hspace : c = ' '
    · simp [hspace]
    · simp [hspace, hplus]
  have hascii : ∀ c ∈ (utf8Encode text.toList).flatMap quoteByte, isAsciiChar c = true := by
    intro c hc
    obtain ⟨b, -, hc⟩ := List.mem_flatMap.mp hc
    exact quoteByte_ascii hc
  rw [unquotePlus, hspaces, unquote_ascii hascii, unquoteToBytes_quoted, utf8Decode_encode, String.ofList_toList]

end Quoting

/-! ## Reading pairs -/

section Pairs

variable {pairs : List (String × String)}

/-- A pair, as it is written. -/
def pairText (pair : String × String) : List Char := quotePlus pair.1 ++ '=' :: quotePlus pair.2

theorem pairText_quoted {pair : String × String} {c : Char} (h : c ∈ pairText pair) : c = '=' ∨ isQuoted c = true := by
  rcases List.mem_append.mp h with hname | hrest
  · exact .inr (quotePlus_quoted hname)
  · rcases List.mem_cons.mp hrest with hequals | hvalue
    · exact .inl hequals
    · exact .inr (quotePlus_quoted hvalue)

theorem toList_urlencode (pairs : List (String × String)) :
    (urlencode pairs).toList = List.intercalate ['&'] (pairs.map pairText) := String.toList_ofList

theorem urlencode_quoted {c : Char} (h : c ∈ (urlencode pairs).toList) : c ∈ ['&', '='] ∨ isQuoted c = true := by
  rw [toList_urlencode] at h
  rcases mem_intercalate h with hsep | ⟨text, htext, hc⟩
  · obtain rfl := List.mem_singleton.mp hsep
    left
    decide
  · obtain ⟨pair, -, rfl⟩ := List.mem_map.mp htext
    rcases pairText_quoted hc with rfl | hquoted
    · left
      decide
    · exact .inr hquoted

theorem splitOn_pairText (pair : String × String) : (pairText pair).splitOn '&' = [pairText pair] := by
  apply List.splitOn_eq_singleton
  intro h
  rcases pairText_quoted h with hequals | hquoted
  · cases hequals
  · revert hquoted
    decide

/-- **What is encoded is parsed.** -/
theorem parseQsl_urlencode (pairs : List (String × String)) : parseQsl (urlencode pairs) = pairs := by
  by_cases hne : pairs = []
  · rw [hne]
    decide
  have hparts : pairs.map pairText ≠ [] := by simpa using hne
  have hpieces : (pairs.map pairText).flatMap (fun part => part.splitOn '&') = pairs.map pairText := by
    rw [List.flatMap_map]
    simp only [splitOn_pairText]
    exact List.flatMap_pure_eq_map _ _
  have hfilter : (pairs.map pairText).filter (· ≠ []) = pairs.map pairText := by
    rw [List.filter_eq_self]
    intro text htext
    obtain ⟨pair, -, rfl⟩ := List.mem_map.mp htext
    simp [pairText]
  rw [parseQsl, toList_urlencode, splitOn_join hparts, hpieces, hfilter, List.map_map]
  conv_rhs => rw [← List.map_id pairs]
  apply List.map_congr_left
  intro pair _
  have hequals : '=' ∉ quotePlus pair.1 := by
    intro h
    have hquoted := quotePlus_quoted h
    revert hquoted
    decide
  simp only [Function.comp_apply, pairText, partition_eq hequals, unquotePlus_quotePlus, id_eq]

end Pairs

end NightScout
