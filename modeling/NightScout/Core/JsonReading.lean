import NightScout.Core.JsonText

/-!
# Reading a JSON text

A reader of JSON texts: of those the standard has, or with `constants` of those `json.loads` takes, which have `NaN`
and the infinities too. What is written is read back (`readValue_dumpsWith`), whatever follows it. If some string is
written so that the reader finds its end too early, the whole text is no JSON (`stuck_dumpsWith`).
-/

-- a mutual block takes the hypotheses of its section together
set_option linter.unusedSectionVars false

namespace NightScout

open Lib

/-! ## Reading values -/

def isJsonSpace (c : Char) : Bool := c = ' ' || c = '\t' || c = '\n' || c = '\r'

def skipSpace (cs : List Char) : List Char := cs.dropWhile isJsonSpace

/-- A key and the colon after it. -/
def readKey (cs : List Char) : Option (String × List Char) :=
  match skipSpace cs with
  | '"' :: cs =>
    match readString .plain cs with
    | none => none
    | some (k, cs) =>
      match skipSpace cs with
      | ':' :: cs => some (String.ofList k, cs)
      | _ => none
  | _ => none

/-- A value that starts with none of the brackets and is no string. With `constants`, numbers that JSON does not have
    are read by their names. -/
def readScalar (F : FloatText) (constants : Bool) (cs : List Char) : Option (JsonValue × List Char) :=
  if ['n', 'u', 'l', 'l'] <+: cs then some (.null, cs.drop 4)
  else if ['t', 'r', 'u', 'e'] <+: cs then some (.bool true, cs.drop 4)
  else if ['f', 'a', 'l', 's', 'e'] <+: cs then some (.bool false, cs.drop 5)
  else if constants ∧ ['N', 'a', 'N'] <+: cs then some (.nan, cs.drop 3)
  else if constants ∧ ['I', 'n', 'f', 'i', 'n', 'i', 't', 'y'] <+: cs then some (.infinity false, cs.drop 8)
  else if constants ∧ ['-', 'I', 'n', 'f', 'i', 'n', 'i', 't', 'y'] <+: cs then some (.infinity true, cs.drop 9)
  else (readNumber F (cs.takeWhile isNumberChar)).map fun v => (v, cs.dropWhile isNumberChar)

section Reading

variable (F : FloatText) (constants : Bool)

mutual

/-- A value, and what follows. The entries of an object are kept as they stand. -/
def readValue : ℕ → List Char → Option (JsonValue × List Char)
  | 0, _ => none
  | fuel + 1, cs =>
    match skipSpace cs with
    | [] => none
    | c :: cs =>
      if c = '"' then (readString .plain cs).map fun p => (.string (String.ofList p.1), p.2)
      else if c = '[' then
        if (skipSpace cs).head? = some ']' then some (.array [], (skipSpace cs).tail)
        else do
          let (v, cs) ← readValue fuel cs
          let (vs, cs) ← readItems fuel cs
          return (.array (v :: vs), cs)
      else if c = '{' then
        if (skipSpace cs).head? = some '}' then some (.object [], (skipSpace cs).tail)
        else do
          let (k, cs) ← readKey cs
          let (v, cs) ← readValue fuel cs
          let (es, cs) ← readEntries fuel cs
          return (.object ((k, v) :: es), cs)
      else readScalar F constants (c :: cs)

def readItems : ℕ → List Char → Option (List JsonValue × List Char)
  | 0, _ => none
  | fuel + 1, cs =>
    match skipSpace cs with
    | [] => none
    | c :: cs =>
      if c = ']' then some ([], cs)
      else if c = ',' then do
        let (v, cs) ← readValue fuel cs
        let (vs, cs) ← readItems fuel cs
        return (v :: vs, cs)
      else none

def readEntries : ℕ → List Char → Option (List (String × JsonValue) × List Char)
  | 0, _ => none
  | fuel + 1, cs =>
    match skipSpace cs with
    | [] => none
    | c :: cs =>
      if c = '}' then some ([], cs)
      else if c = ',' then do
        let (k, cs) ← readKey cs
        let (v, cs) ← readValue fuel cs
        let (es, cs) ← readEntries fuel cs
        return ((k, v) :: es, cs)
      else none

end

/-- A JSON text: one value, and nothing after it. -/
def loads (cs : List Char) : Option JsonValue :=
  match readValue F constants (cs.length + 1) cs with
  | none => none
  | some (v, rest) => if skipSpace rest = [] then some v else none

end Reading

section Finite

variable {F : FloatText}

theorem readNumber_finite {cs : List Char} {v : JsonValue} (h : readNumber F cs = some v) : v.finite = true := by
  unfold readNumber at h
  split at h
  · cases h
    rfl
  split at h
  · cases h
    rfl
  · cases h

theorem readScalar_finite {cs : List Char} {p : JsonValue × List Char} (h : readScalar F false cs = some p) :
    p.1.finite = true := by
  unfold readScalar at h
  split at h
  · cases h
    rfl
  split at h
  · cases h
    rfl
  split at h
  · cases h
    rfl
  · obtain ⟨v, hv, rfl⟩ := Option.map_eq_some_iff.mp h
    exact readNumber_finite hv

/-- JSON has no `nan` and no infinities, and none is read. -/
theorem read_finite (fuel : ℕ) : (∀ cs p, readValue F false fuel cs = some p → p.1.finite = true) ∧
      (∀ cs p, readItems F false fuel cs = some p → JsonValue.itemsFinite p.1 = true) ∧
      ∀ cs p, readEntries F false fuel cs = some p → JsonValue.entriesFinite p.1 = true := by
  induction fuel with
  | zero => exact ⟨fun _ _ h => (nomatch h), fun _ _ h => (nomatch h), fun _ _ h => (nomatch h)⟩
  | succ fuel ih =>
    obtain ⟨hvalue, hitems, hentries⟩ := ih
    -- what comes before more items or entries
    have hmoreItems (cs : List Char) (p : List JsonValue × List Char)
        (h : (do
          let (v, cs) ← readValue F false fuel cs
          let (vs, cs) ← readItems F false fuel cs
          return (v :: vs, cs)) = some p) : JsonValue.itemsFinite p.1 = true := by
      obtain ⟨⟨v, cs₁⟩, hv, h⟩ := Option.bind_eq_some_iff.mp h
      obtain ⟨⟨vs, cs₂⟩, hvs, h⟩ := Option.bind_eq_some_iff.mp h
      cases h
      rw [JsonValue.itemsFinite, hvalue _ _ hv, hitems _ _ hvs]
      rfl
    have hmoreEntries (cs : List Char) (p : List (String × JsonValue) × List Char)
        (h : (do
          let (k, cs) ← readKey cs
          let (v, cs) ← readValue F false fuel cs
          let (es, cs) ← readEntries F false fuel cs
          return ((k, v) :: es, cs)) = some p) : JsonValue.entriesFinite p.1 = true := by
      obtain ⟨⟨k, cs₁⟩, _, h⟩ := Option.bind_eq_some_iff.mp h
      obtain ⟨⟨v, cs₂⟩, hv, h⟩ := Option.bind_eq_some_iff.mp h
      obtain ⟨⟨es, cs₃⟩, hes, h⟩ := Option.bind_eq_some_iff.mp h
      cases h
      rw [JsonValue.entriesFinite, hvalue _ _ hv, hentries _ _ hes]
      rfl
    refine ⟨fun cs p h => ?_, fun cs p h => ?_, fun cs p h => ?_⟩
    · unfold readValue at h
      cases hcs : skipSpace cs with
      | nil =>
        rw [hcs] at h
        cases h
      | cons c cs' =>
        rw [hcs] at h
        simp only at h
        split at h
        · obtain ⟨q, _, rfl⟩ := Option.map_eq_some_iff.mp h
          rfl
        split at h
        · split at h
          · cases h
            rfl
          · obtain ⟨⟨v, cs₁⟩, hv, h⟩ := Option.bind_eq_some_iff.mp h
            obtain ⟨⟨vs, cs₂⟩, hvs, h⟩ := Option.bind_eq_some_iff.mp h
            cases h
            rw [JsonValue.finite, JsonValue.itemsFinite, hvalue _ _ hv, hitems _ _ hvs]
            rfl
        split at h
        · split at h
          · cases h
            rfl
          · obtain ⟨⟨k, cs₁⟩, _, h⟩ := Option.bind_eq_some_iff.mp h
            obtain ⟨⟨v, cs₂⟩, hv, h⟩ := Option.bind_eq_some_iff.mp h
            obtain ⟨⟨es, cs₃⟩, hes, h⟩ := Option.bind_eq_some_iff.mp h
            cases h
            rw [JsonValue.finite, JsonValue.entriesFinite, hvalue _ _ hv, hentries _ _ hes]
            rfl
        · exact readScalar_finite h
    · unfold readItems at h
      cases hcs : skipSpace cs with
      | nil =>
        rw [hcs] at h
        cases h
      | cons c cs' =>
        rw [hcs] at h
        simp only at h
        split at h
        · cases h
          rfl
        split at h
        · exact hmoreItems cs' p h
        · cases h
    · unfold readEntries at h
      cases hcs : skipSpace cs with
      | nil =>
        rw [hcs] at h
        cases h
      | cons c cs' =>
        rw [hcs] at h
        simp only at h
        split at h
        · cases h
          rfl
        split at h
        · exact hmoreEntries cs' p h
        · cases h

theorem loads_finite {cs : List Char} {v : JsonValue} (h : loads F false cs = some v) : v.finite = true := by
  unfold loads at h
  cases hread : readValue F false (cs.length + 1) cs with
  | none =>
    rw [hread] at h
    cases h
  | some p =>
    rw [hread] at h
    simp only at h
    split at h
    · cases h
      exact (read_finite _).1 cs p hread
    · cases h

end Finite

/-! ## What is written is read back -/

/-- The end of a number can be seen. -/
def Delimited (cs : List Char) : Prop := ∀ c ∈ cs.head?, isNumberChar c = false

theorem skipSpace_cons {c : Char} (h : isJsonSpace c = false) (cs : List Char) :
    skipSpace (c :: cs) = c :: cs := List.dropWhile_cons_of_neg (by rw [h]; decide)

theorem delimited_cons {c : Char} (h : isNumberChar c = false) (cs : List Char) : Delimited (c :: cs) := by
  intro d hd
  cases hd
  exact h

theorem takeWhile_append_delimited {a rest : List Char} (ha : ∀ c ∈ a, isNumberChar c = true)
    (hrest : Delimited rest) : (a ++ rest).takeWhile isNumberChar = a ∧ (a ++ rest).dropWhile isNumberChar = rest := by
  have hnone : rest.takeWhile isNumberChar = [] ∧ rest.dropWhile isNumberChar = rest := by
    cases rest with
    | nil => exact ⟨rfl, rfl⟩
    | cons c rest =>
      have hc := hrest c rfl
      exact ⟨List.takeWhile_cons_of_neg (by rw [hc]; decide), List.dropWhile_cons_of_neg (by rw [hc]; decide)⟩
  rw [List.takeWhile_append_of_pos ha, List.dropWhile_append_of_pos ha, hnone.1, hnone.2, List.append_nil]
  exact ⟨rfl, rfl⟩

section RoundTrip

variable {F : FloatText} {constants : Bool} {body : String → List Char}

theorem delimited_items (vs : List JsonValue) (rest : List Char) : Delimited (dumpsItems F body vs ++ rest) := by
  cases vs with
  | nil => exact delimited_cons rfl rest
  | cons v vs => exact delimited_cons rfl _

theorem delimited_entries (es : List (String × JsonValue)) (rest : List Char) :
    Delimited (dumpsEntries F body es ++ rest) := by
  cases es with
  | nil => exact delimited_cons rfl rest
  | cons e es => exact delimited_cons rfl _

/-- A character of a number is none of the others. -/
theorem ne_of_isNumberChar {c d : Char} (hc : isNumberChar c = true) (hd : isNumberChar d = false) : c ≠ d := by
  rintro rfl
  rw [hc] at hd
  cases hd

theorem not_space_of_isNumberChar {c : Char} (hc : isNumberChar c = true) : isJsonSpace c = false := by
  unfold isJsonSpace
  simp [ne_of_isNumberChar hc (show isNumberChar ' ' = false from rfl), ne_of_isNumberChar hc (show isNumberChar '\t' = false from rfl),
    ne_of_isNumberChar hc (show isNumberChar '\n' = false from rfl), ne_of_isNumberChar hc (show isNumberChar '\r' = false from rfl)]

theorem head_number {a : List Char} (hne : a ≠ []) (ha : ∀ c ∈ a, isNumberChar c = true) :
    ∃ c cs, a = c :: cs ∧ isJsonSpace c = false ∧ c ≠ ']' := by
  obtain ⟨c, cs, rfl⟩ := List.exists_cons_of_ne_nil hne
  have hc := ha c List.mem_cons_self
  exact ⟨c, cs, rfl, (not_space_of_isNumberChar hc), ne_of_isNumberChar hc rfl⟩

theorem intText_ne_nil (n : ℤ) : intText n ≠ [] := by
  cases n with
  | ofNat n => exact Nat.toDigits_ne_nil
  | negSucc n => exact List.cons_ne_nil _ _

/-- No value starts with a space or as the end of an array does. -/
theorem head_dumpsWith (v : JsonValue) : ∃ c cs, dumpsWith F body v = c :: cs ∧ isJsonSpace c = false ∧ c ≠ ']' := by
  cases v with
  | null => exact ⟨_, _, rfl, by decide, by decide⟩
  | bool b => cases b <;> exact ⟨_, _, rfl, by decide, by decide⟩
  | int n => exact head_number (intText_ne_nil n) (isNumberChar_intText n)
  | float x => exact head_number (repr_ne_nil F x) (F.chars x)
  | nan => exact ⟨_, _, rfl, by decide, by decide⟩
  | infinity negative => cases negative <;> exact ⟨_, _, rfl, by decide, by decide⟩
  | string s => exact ⟨_, _, rfl, by decide, by decide⟩
  | array vs => cases vs <;> exact ⟨_, _, rfl, by decide, by decide⟩
  | object es =>
    cases es with
    | nil => exact ⟨_, _, rfl, by decide, by decide⟩
    | cons e es => exact ⟨_, _, rfl, by decide, by decide⟩

theorem head_skipSpace_dumpsWith (v : JsonValue) (rest : List Char) :
    (skipSpace (dumpsWith F body v ++ rest)).head? ≠ some ']' := by
  obtain ⟨c, cs, heq, hspace, hne⟩ := head_dumpsWith (F := F) v
  rw [heq, List.cons_append, skipSpace_cons hspace]
  exact fun hc => hne (Option.some.inj hc)

theorem size_pos (v : JsonValue) : 1 ≤ v.size := by
  cases v with
  | array vs => cases vs <;> simp [JsonValue.size]
  | object es =>
    cases es with
    | nil => simp [JsonValue.size]
    | cons e es => simp [JsonValue.size]
  | _ => simp [JsonValue.size]

/-- The text of a number is read as a number. -/
theorem readValue_number {a rest : List Char} {v : JsonValue} (hne : a ≠ [])
    (ha : ∀ c ∈ a, isNumberChar c = true) (hv : readNumber F a = some v) (hrest : Delimited rest) (fuel : ℕ) :
    readValue F constants (fuel + 1) (a ++ rest) = some (v, rest) := by
  obtain ⟨c, cs, rfl⟩ := List.exists_cons_of_ne_nil hne
  have hc := ha c List.mem_cons_self
  have hname {d : Char} (hd : isNumberChar d = false) (name : List Char) :
      ¬ (d :: name) <+: c :: (cs ++ rest) := by
    rw [List.cons_prefix_cons]
    exact fun h => ne_of_isNumberChar hc hd h.1.symm
  -- a sign alone is no number, and a letter is none of its characters
  have hsigned : ¬ ['-', 'I', 'n', 'f', 'i', 'n', 'i', 't', 'y'] <+: c :: (cs ++ rest) := by
    rw [List.cons_prefix_cons]
    rintro ⟨rfl, h⟩
    cases cs with
    | nil => cases hv
    | cons d cs =>
      rw [List.cons_append, List.cons_prefix_cons] at h
      exact ne_of_isNumberChar (ha d (List.mem_cons_of_mem _ List.mem_cons_self)) rfl h.1.symm
  obtain ⟨htake, hdrop⟩ := takeWhile_append_delimited ha hrest
  rw [List.cons_append] at htake hdrop ⊢
  rw [readValue, skipSpace_cons (not_space_of_isNumberChar hc)]
  simp only
  rw [if_neg (ne_of_isNumberChar hc rfl), if_neg (ne_of_isNumberChar hc rfl), if_neg (ne_of_isNumberChar hc rfl), readScalar, if_neg (hname rfl _),
    if_neg (hname rfl _), if_neg (hname rfl _), if_neg fun h => hname rfl _ h.2, if_neg fun h => hname rfl _ h.2,
    if_neg fun h => hsigned h.2, htake, hdrop, hv]
  rfl

theorem readKey_written {k : String}
    (hk : ∀ rest, readString .plain (body k ++ '"' :: rest) = some (k.toList, rest)) (rest : List Char) :
    readKey ('"' :: (body k ++ '"' :: ':' :: rest)) = some (k, rest) := by
  unfold readKey
  rw [skipSpace_cons (by decide)]
  simp only [hk, skipSpace_cons (show isJsonSpace ':' = false from rfl), String.ofList_toList]

mutual

/-- Every string being readable, every value is. -/
theorem readValue_dumpsWith : ∀ (v : JsonValue) (fuel : ℕ) (rest : List Char), constants = true ∨ v.finite = true →
    (∀ s ∈ v.texts, ∀ rest, readString .plain (body s ++ '"' :: rest) = some (s.toList, rest)) →
    v.size ≤ fuel → Delimited rest → readValue F constants fuel (dumpsWith F body v ++ rest) = some (v, rest)
  | v, 0, _, _, _, hfuel, _ => absurd (size_pos v) (by omega)
  | .null, fuel + 1, rest, _, _, _, _ => rfl
  | .bool true, fuel + 1, rest, _, _, _, _ => rfl
  | .bool false, fuel + 1, rest, _, _, _, _ => rfl
  | .int n, fuel + 1, rest, _, _, _, hrest =>
    readValue_number (intText_ne_nil n) (isNumberChar_intText n) (readNumber_intText F n) hrest fuel
  | .float x, fuel + 1, rest, _, _, _, hrest =>
    readValue_number (repr_ne_nil F x) (F.chars x) (readNumber_repr F x) hrest fuel
  | .nan, _ + 1, _, hfinite, _, _, _ => by
    obtain rfl := hfinite.resolve_right nofun
    rfl
  | .infinity false, _ + 1, _, hfinite, _, _, _ => by
    obtain rfl := hfinite.resolve_right nofun
    rfl
  | .infinity true, _ + 1, _, hfinite, _, _, _ => by
    obtain rfl := hfinite.resolve_right nofun
    rfl
  | .string s, fuel + 1, rest, _, hbody, _, _ => by
    have hs := hbody s (List.mem_singleton_self s) rest
    show readValue F constants (fuel + 1) ('"' :: (body s ++ ['"'] ++ rest)) = _
    rw [readValue, skipSpace_cons (by decide), List.append_assoc]
    simp only [if_true, List.singleton_append, hs, Option.map_some, String.ofList_toList]
  | .array [], fuel + 1, rest, _, _, _, _ => rfl
  | .array (v :: vs), fuel + 1, rest, hfinite, hbody, hfuel, hrest => by
    simp only [JsonValue.finite, JsonValue.itemsFinite, Bool.and_eq_true, or_and_left] at hfinite
    simp only [JsonValue.size] at hfuel
    have hv := readValue_dumpsWith v fuel (dumpsItems F body vs ++ rest) hfinite.1
      (fun s hs => hbody s (List.mem_append_left _ hs)) (by omega) (delimited_items vs rest)
    have hvs := readItems_dumpsItems vs fuel rest hfinite.2
      (fun s hs => hbody s (List.mem_append_right _ hs)) (by omega) hrest
    show readValue F constants (fuel + 1) ('[' :: (dumpsWith F body v ++ dumpsItems F body vs ++ rest)) = _
    rw [readValue, skipSpace_cons (by decide), List.append_assoc]
    simp only
    rw [if_neg (by decide), if_pos trivial, if_neg (head_skipSpace_dumpsWith v _), hv]
    simp only [Option.bind_eq_bind, Option.bind_some, hvs]
    rfl
  | .object [], fuel + 1, rest, _, _, _, _ => rfl
  | .object ((k, v) :: es), fuel + 1, rest, hfinite, hbody, hfuel, hrest => by
    simp only [JsonValue.finite, JsonValue.entriesFinite, Bool.and_eq_true, or_and_left] at hfinite
    simp only [JsonValue.size] at hfuel
    have hk := readKey_written (hbody k List.mem_cons_self) (dumpsWith F body v ++ (dumpsEntries F body es ++ rest))
    have hv := readValue_dumpsWith v fuel (dumpsEntries F body es ++ rest) hfinite.1
      (fun s hs => hbody s (List.mem_cons_of_mem _ (List.mem_append_left _ hs))) (by omega)
      (delimited_entries es rest)
    have hes := readEntries_dumpsEntries es fuel rest hfinite.2
      (fun s hs => hbody s (List.mem_cons_of_mem _ (List.mem_append_right _ hs))) (by omega) hrest
    show readValue F constants (fuel + 1)
      ('{' :: '"' :: (body k ++ '"' :: ':' :: (dumpsWith F body v ++ dumpsEntries F body es) ++ rest)) = _
    simp only [List.cons_append, List.append_assoc]
    rw [readValue, skipSpace_cons (by decide)]
    simp only
    rw [if_neg (by decide), if_neg (by decide), if_pos trivial,
      if_neg (by rw [skipSpace_cons (by decide)]; exact nofun), hk]
    simp only [Option.bind_eq_bind, Option.bind_some, hv, hes]
    rfl

theorem readItems_dumpsItems : ∀ (vs : List JsonValue) (fuel : ℕ) (rest : List Char),
    constants = true ∨ JsonValue.itemsFinite vs = true →
    (∀ s ∈ JsonValue.itemTexts vs, ∀ rest,
      readString .plain (body s ++ '"' :: rest) = some (s.toList, rest)) →
    JsonValue.itemsSize vs ≤ fuel → Delimited rest →
    readItems F constants fuel (dumpsItems F body vs ++ rest) = some (vs, rest)
  | [], 0, _, _, _, hfuel, _ => by simp [JsonValue.itemsSize] at hfuel
  | _ :: _, 0, _, _, _, hfuel, _ => by simp [JsonValue.itemsSize] at hfuel
  | [], fuel + 1, rest, _, _, _, _ => rfl
  | v :: vs, fuel + 1, rest, hfinite, hbody, hfuel, hrest => by
    simp only [JsonValue.itemsFinite, Bool.and_eq_true, or_and_left] at hfinite
    simp only [JsonValue.itemsSize] at hfuel
    have hv := readValue_dumpsWith v fuel (dumpsItems F body vs ++ rest) hfinite.1
      (fun s hs => hbody s (List.mem_append_left _ hs)) (by omega) (delimited_items vs rest)
    have hvs := readItems_dumpsItems vs fuel rest hfinite.2
      (fun s hs => hbody s (List.mem_append_right _ hs)) (by omega) hrest
    show readItems F constants (fuel + 1) (',' :: (dumpsWith F body v ++ dumpsItems F body vs ++ rest)) = _
    rw [readItems, skipSpace_cons (by decide), List.append_assoc]
    simp only
    rw [if_neg (by decide), if_pos trivial, hv]
    simp only [Option.bind_eq_bind, Option.bind_some, hvs]
    rfl

theorem readEntries_dumpsEntries : ∀ (es : List (String × JsonValue)) (fuel : ℕ) (rest : List Char),
    constants = true ∨ JsonValue.entriesFinite es = true →
    (∀ s ∈ JsonValue.entryTexts es, ∀ rest,
      readString .plain (body s ++ '"' :: rest) = some (s.toList, rest)) →
    JsonValue.entriesSize es ≤ fuel → Delimited rest →
    readEntries F constants fuel (dumpsEntries F body es ++ rest) = some (es, rest)
  | [], 0, _, _, _, hfuel, _ => by simp [JsonValue.entriesSize] at hfuel
  | _ :: _, 0, _, _, _, hfuel, _ => by simp [JsonValue.entriesSize] at hfuel
  | [], fuel + 1, rest, _, _, _, _ => rfl
  | (k, v) :: es, fuel + 1, rest, hfinite, hbody, hfuel, hrest => by
    simp only [JsonValue.entriesFinite, Bool.and_eq_true, or_and_left] at hfinite
    simp only [JsonValue.entriesSize] at hfuel
    have hk := readKey_written (hbody k List.mem_cons_self) (dumpsWith F body v ++ (dumpsEntries F body es ++ rest))
    have hv := readValue_dumpsWith v fuel (dumpsEntries F body es ++ rest) hfinite.1
      (fun s hs => hbody s (List.mem_cons_of_mem _ (List.mem_append_left _ hs))) (by omega)
      (delimited_entries es rest)
    have hes := readEntries_dumpsEntries es fuel rest hfinite.2
      (fun s hs => hbody s (List.mem_cons_of_mem _ (List.mem_append_right _ hs))) (by omega) hrest
    show readEntries F constants (fuel + 1)
      (',' :: '"' :: (body k ++ '"' :: ':' :: (dumpsWith F body v ++ dumpsEntries F body es) ++ rest)) = _
    simp only [List.cons_append, List.append_assoc]
    rw [readEntries, skipSpace_cons (by decide)]
    simp only
    rw [if_neg (by decide), if_pos trivial, hk]
    simp only [Option.bind_eq_bind, Option.bind_some, hv, hes]
    rfl

end

mutual

theorem size_le_length : ∀ v : JsonValue, v.size ≤ (dumpsWith F body v).length
  | .null => Nat.le_add_left 1 _
  | .bool true => Nat.le_add_left 1 _
  | .bool false => Nat.le_add_left 1 _
  | .int n => List.length_pos_iff.mpr (intText_ne_nil n)
  | .float x => List.length_pos_iff.mpr (repr_ne_nil F x)
  | .nan => Nat.le_add_left 1 _
  | .infinity true => Nat.le_add_left 1 _
  | .infinity false => Nat.le_add_left 1 _
  | .string s => by simp [JsonValue.size, dumpsWith]
  | .array [] => Nat.le_add_left 1 _
  | .array (v :: vs) => by
    have hv := size_le_length v
    have hvs := itemsSize_le_length vs
    simp only [JsonValue.size, dumpsWith, List.length_cons, List.length_append]
    omega
  | .object [] => Nat.le_add_left 1 _
  | .object ((k, v) :: es) => by
    have hv := size_le_length v
    have hes := entriesSize_le_length es
    simp only [JsonValue.size, dumpsWith, List.length_cons, List.length_append]
    omega

theorem itemsSize_le_length : ∀ vs : List JsonValue,
    JsonValue.itemsSize vs ≤ (dumpsItems F body vs).length
  | [] => Nat.le_refl 1
  | v :: vs => by
    have hv := size_le_length v
    have hvs := itemsSize_le_length vs
    simp only [JsonValue.itemsSize, dumpsItems, List.length_cons, List.length_append]
    omega

theorem entriesSize_le_length : ∀ es : List (String × JsonValue),
    JsonValue.entriesSize es ≤ (dumpsEntries F body es).length
  | [] => Nat.le_refl 1
  | (k, v) :: es => by
    have hv := size_le_length v
    have hes := entriesSize_le_length es
    simp only [JsonValue.entriesSize, dumpsEntries, List.length_cons, List.length_append]
    omega

end

theorem loads_dumpsWith {v : JsonValue} (hfinite : constants = true ∨ v.finite = true)
    (hbody : ∀ s ∈ v.texts, ∀ rest, readString .plain (body s ++ '"' :: rest) = some (s.toList, rest)) :
    loads F constants (dumpsWith F body v) = some v := by
  have hsize : v.size ≤ (dumpsWith F body v).length + 1 := (size_le_length v).trans (Nat.le_succ _)
  have hread := readValue_dumpsWith (F := F) v _ [] hfinite hbody hsize (fun c hc => nomatch hc)
  rw [List.append_nil] at hread
  unfold loads
  rw [hread]
  rfl

/-! ## A string that ends too early -/

/-- What follows is neither the end of the text nor anything that can follow a value or a key. -/
def Stuck (cs : List Char) : Prop :=
  ∃ c rest, cs = c :: rest ∧ isJsonSpace c = false ∧ c ∉ [',', ':', ']', '}']

theorem Stuck.readItems {cs : List Char} (h : Stuck cs) (fuel : ℕ) : readItems F constants fuel cs = none := by
  obtain ⟨c, rest, rfl, hspace, hc⟩ := h
  cases fuel with
  | zero => rfl
  | succ fuel =>
    rw [NightScout.readItems, skipSpace_cons hspace]
    simp only
    rw [if_neg (by rintro rfl; exact hc (by decide)), if_neg (by rintro rfl; exact hc (by decide))]

theorem Stuck.readEntries {cs : List Char} (h : Stuck cs) (fuel : ℕ) : readEntries F constants fuel cs = none := by
  obtain ⟨c, rest, rfl, hspace, hc⟩ := h
  cases fuel with
  | zero => rfl
  | succ fuel =>
    rw [NightScout.readEntries, skipSpace_cons hspace]
    simp only
    rw [if_neg (by rintro rfl; exact hc (by decide)), if_neg (by rintro rfl; exact hc (by decide))]

theorem readKey_stuck {k : String} {rest : List Char}
    (hk : ∀ p, readString .plain (body k ++ '"' :: rest) = some p → Stuck p.2) :
    readKey ('"' :: (body k ++ '"' :: rest)) = none := by
  unfold readKey
  rw [skipSpace_cons (by decide)]
  simp only
  cases hread : readString .plain (body k ++ '"' :: rest) with
  | none => rfl
  | some p =>
    obtain ⟨c, rest, hp, hspace, hc⟩ := hk p hread
    simp only [hp, skipSpace_cons hspace]
    split
    next h =>
      obtain ⟨rfl, _⟩ := List.cons.inj h
      exact absurd (by decide) hc
    next => rfl

/-- No more items are read after it. -/
theorem bind_readItems_stuck {β : Type} {x : Option (JsonValue × List Char)}
    (hx : ∀ p, x = some p → Stuck p.2) (fuel : ℕ) (f : JsonValue → List JsonValue → List Char → β) :
    (do
      let (v, cs) ← x
      let (vs, cs) ← readItems F constants fuel cs
      return f v vs cs) = none := by
  cases x with
  | none => rfl
  | some p =>
    simp only [Option.bind_eq_bind, Option.bind_some, (hx p rfl).readItems]
    rfl

theorem bind_readEntries_stuck {β : Type} {x : Option (JsonValue × List Char)}
    (hx : ∀ p, x = some p → Stuck p.2) (fuel : ℕ) (f : JsonValue → List (String × JsonValue) → List Char → β) :
    (do
      let (v, cs) ← x
      let (es, cs) ← readEntries F constants fuel cs
      return f v es cs) = none := by
  cases x with
  | none => rfl
  | some p =>
    simp only [Option.bind_eq_bind, Option.bind_some, (hx p rfl).readEntries]
    rfl

section Bad

variable {bad : String → Prop}
    (hgood : ∀ s, ¬ bad s → ∀ rest, readString .plain (body s ++ '"' :: rest) = some (s.toList, rest))
    (hbad : ∀ s, bad s → ∀ rest p, readString .plain (body s ++ '"' :: rest) = some p → Stuck p.2)

include hgood

/-- A value and the items after it, with a bad string in one of them. -/
theorem bad_item {v : JsonValue} {vs : List JsonValue} {fuel fuel' : ℕ} {rest : List Char}
    (hv : constants = true ∨ v.finite = true) (hsome : ∃ s ∈ v.texts ++ JsonValue.itemTexts vs, bad s) (hfuel : v.size ≤ fuel)
    (hvalue : (∃ s ∈ v.texts, bad s) →
      ∀ p, readValue F constants fuel (dumpsWith F body v ++ (dumpsItems F body vs ++ rest)) = some p → Stuck p.2)
    (hitems : (∃ s ∈ JsonValue.itemTexts vs, bad s) → readItems F constants fuel' (dumpsItems F body vs ++ rest) = none)
    {β : Type} (f : JsonValue → List JsonValue → List Char → β) :
    (do
      let (v, cs) ← readValue F constants fuel (dumpsWith F body v ++ (dumpsItems F body vs ++ rest))
      let (vs, cs) ← readItems F constants fuel' cs
      return f v vs cs) = none := by
  by_cases hfirst : ∃ s ∈ v.texts, bad s
  · exact bind_readItems_stuck (hvalue hfirst) fuel' f
  · have hread := readValue_dumpsWith (F := F) v fuel (dumpsItems F body vs ++ rest) hv
      (fun s hs => hgood s fun h => hfirst ⟨s, hs, h⟩) hfuel (delimited_items vs rest)
    have hlater : ∃ s ∈ JsonValue.itemTexts vs, bad s := by
      obtain ⟨s, hs, h⟩ := hsome
      exact ⟨s, (List.mem_append.mp hs).resolve_left fun hs => hfirst ⟨s, hs, h⟩, h⟩
    rw [hread]
    simp only [Option.bind_eq_bind, Option.bind_some, hitems hlater]
    rfl

include hbad

/-- An entry and those after it, with a bad string in one of them. -/
theorem bad_entry {k : String} {v : JsonValue} {es : List (String × JsonValue)} {fuel fuel' : ℕ}
    {rest : List Char} (hv : constants = true ∨ v.finite = true)
    (hsome : ∃ s ∈ k :: (v.texts ++ JsonValue.entryTexts es), bad s) (hfuel : v.size ≤ fuel)
    (hvalue : (∃ s ∈ v.texts, bad s) →
      ∀ p, readValue F constants fuel (dumpsWith F body v ++ (dumpsEntries F body es ++ rest)) = some p → Stuck p.2)
    (hentries : (∃ s ∈ JsonValue.entryTexts es, bad s) →
      readEntries F constants fuel' (dumpsEntries F body es ++ rest) = none)
    {β : Type} (f : String → JsonValue → List (String × JsonValue) → List Char → β) :
    (do
      let (k, cs) ← readKey
        ('"' :: (body k ++ '"' :: ':' :: (dumpsWith F body v ++ (dumpsEntries F body es ++ rest))))
      let (v, cs) ← readValue F constants fuel cs
      let (es, cs) ← readEntries F constants fuel' cs
      return f k v es cs) = none := by
  by_cases hkey : bad k
  · rw [readKey_stuck (hbad k hkey _)]
    rfl
  rw [readKey_written (hgood k hkey)]
  simp only [Option.bind_eq_bind, Option.bind_some]
  by_cases hfirst : ∃ s ∈ v.texts, bad s
  · exact bind_readEntries_stuck (hvalue hfirst) fuel' (f k)
  · have hread := readValue_dumpsWith (F := F) v fuel (dumpsEntries F body es ++ rest) hv
      (fun s hs => hgood s fun h => hfirst ⟨s, hs, h⟩) hfuel (delimited_entries es rest)
    have hlater : ∃ s ∈ JsonValue.entryTexts es, bad s := by
      obtain ⟨s, hs, h⟩ := hsome
      rcases List.mem_cons.mp hs with rfl | hs
      · exact absurd h hkey
      · exact ⟨s, (List.mem_append.mp hs).resolve_left fun hs => hfirst ⟨s, hs, h⟩, h⟩
    rw [hread]
    simp only [Option.bind_some, hentries hlater]
    rfl

mutual

/-- A value with a bad string is read up to something that cannot follow it, if it is read at all. -/
theorem stuck_dumpsWith :
    ∀ (v : JsonValue) (fuel : ℕ) (rest : List Char), constants = true ∨ v.finite = true → (∃ s ∈ v.texts, bad s) →
      v.size ≤ fuel → Delimited rest → ∀ p, readValue F constants fuel (dumpsWith F body v ++ rest) = some p → Stuck p.2
  | v, 0, _, _, _, hfuel, _ => absurd (size_pos v) (by omega)
  | .null, _ + 1, _, _, hsome, _, _ => by obtain ⟨s, hs, _⟩ := hsome; cases hs
  | .bool _, _ + 1, _, _, hsome, _, _ => by obtain ⟨s, hs, _⟩ := hsome; cases hs
  | .int _, _ + 1, _, _, hsome, _, _ => by obtain ⟨s, hs, _⟩ := hsome; cases hs
  | .float _, _ + 1, _, _, hsome, _, _ => by obtain ⟨s, hs, _⟩ := hsome; cases hs
  | .nan, _ + 1, _, _, hsome, _, _ => by obtain ⟨s, hs, _⟩ := hsome; cases hs
  | .infinity _, _ + 1, _, _, hsome, _, _ => by obtain ⟨s, hs, _⟩ := hsome; cases hs
  | .string s, fuel + 1, rest, _, hsome, _, _ => by
    obtain ⟨s', hs', hs⟩ := hsome
    cases List.mem_singleton.mp hs'
    show ∀ p, readValue F constants (fuel + 1) ('"' :: (body s ++ ['"'] ++ rest)) = some p → Stuck p.2
    rw [readValue, skipSpace_cons (by decide), List.append_assoc]
    simp only [if_true, List.singleton_append]
    intro p hp
    obtain ⟨q, hq, rfl⟩ := Option.map_eq_some_iff.mp hp
    exact hbad s hs rest q hq
  | .array [], _ + 1, _, _, hsome, _, _ => by obtain ⟨s, hs, _⟩ := hsome; cases hs
  | .array (v :: vs), fuel + 1, rest, hfinite, hsome, hfuel, hrest => by
    simp only [JsonValue.finite, JsonValue.itemsFinite, Bool.and_eq_true, or_and_left] at hfinite
    simp only [JsonValue.size] at hfuel
    have hnone := bad_item hgood hfinite.1 hsome (by omega)
      (fun h => stuck_dumpsWith v fuel _ hfinite.1 h (by omega) (delimited_items vs rest))
      (fun h => bad_items vs fuel rest hfinite.2 h (by omega) hrest)
      fun v vs cs => (JsonValue.array (v :: vs), cs)
    show ∀ p, readValue F constants (fuel + 1) ('[' :: (dumpsWith F body v ++ dumpsItems F body vs ++ rest)) = some p →
      Stuck p.2
    rw [readValue, skipSpace_cons (by decide), List.append_assoc]
    simp only
    rw [if_neg (by decide), if_pos trivial, if_neg (head_skipSpace_dumpsWith v _), hnone]
    exact nofun
  | .object [], _ + 1, _, _, hsome, _, _ => by obtain ⟨s, hs, _⟩ := hsome; cases hs
  | .object ((k, v) :: es), fuel + 1, rest, hfinite, hsome, hfuel, hrest => by
    simp only [JsonValue.finite, JsonValue.entriesFinite, Bool.and_eq_true, or_and_left] at hfinite
    simp only [JsonValue.size] at hfuel
    have hnone := bad_entry hgood hbad hfinite.1 hsome (by omega)
      (fun h => stuck_dumpsWith v fuel _ hfinite.1 h (by omega) (delimited_entries es rest))
      (fun h => bad_entries es fuel rest hfinite.2 h (by omega) hrest)
      fun k v es cs => (JsonValue.object ((k, v) :: es), cs)
    show ∀ p, readValue F constants (fuel + 1)
      ('{' :: '"' :: (body k ++ '"' :: ':' :: (dumpsWith F body v ++ dumpsEntries F body es) ++ rest)) = some p →
        Stuck p.2
    simp only [List.cons_append, List.append_assoc]
    rw [readValue, skipSpace_cons (by decide)]
    simp only
    rw [if_neg (by decide), if_neg (by decide), if_pos trivial,
      if_neg (by rw [skipSpace_cons (by decide)]; exact nofun), hnone]
    exact nofun

theorem bad_items : ∀ (vs : List JsonValue) (fuel : ℕ) (rest : List Char),
    constants = true ∨ JsonValue.itemsFinite vs = true → (∃ s ∈ JsonValue.itemTexts vs, bad s) →
    JsonValue.itemsSize vs ≤ fuel → Delimited rest → readItems F constants fuel (dumpsItems F body vs ++ rest) = none
  | [], _, _, _, hsome, _, _ => by obtain ⟨s, hs, _⟩ := hsome; cases hs
  | _ :: _, 0, _, _, _, _, _ => rfl
  | v :: vs, fuel + 1, rest, hfinite, hsome, hfuel, hrest => by
    simp only [JsonValue.itemsFinite, Bool.and_eq_true, or_and_left] at hfinite
    simp only [JsonValue.itemsSize] at hfuel
    have hnone := bad_item hgood hfinite.1 hsome (by omega)
      (fun h => stuck_dumpsWith v fuel _ hfinite.1 h (by omega) (delimited_items vs rest))
      (fun h => bad_items vs fuel rest hfinite.2 h (by omega) hrest)
      fun v vs cs => (v :: vs, cs)
    show readItems F constants (fuel + 1) (',' :: (dumpsWith F body v ++ dumpsItems F body vs ++ rest)) = _
    rw [readItems, skipSpace_cons (by decide), List.append_assoc]
    simp only
    rw [if_neg (by decide), if_pos trivial, hnone]

theorem bad_entries : ∀ (es : List (String × JsonValue)) (fuel : ℕ) (rest : List Char),
    constants = true ∨ JsonValue.entriesFinite es = true → (∃ s ∈ JsonValue.entryTexts es, bad s) →
    JsonValue.entriesSize es ≤ fuel → Delimited rest →
    readEntries F constants fuel (dumpsEntries F body es ++ rest) = none
  | [], _, _, _, hsome, _, _ => by obtain ⟨s, hs, _⟩ := hsome; cases hs
  | _ :: _, 0, _, _, _, _, _ => rfl
  | (k, v) :: es, fuel + 1, rest, hfinite, hsome, hfuel, hrest => by
    simp only [JsonValue.entriesFinite, Bool.and_eq_true, or_and_left] at hfinite
    simp only [JsonValue.entriesSize] at hfuel
    have hnone := bad_entry hgood hbad hfinite.1 hsome (by omega)
      (fun h => stuck_dumpsWith v fuel _ hfinite.1 h (by omega) (delimited_entries es rest))
      (fun h => bad_entries es fuel rest hfinite.2 h (by omega) hrest)
      fun k v es cs => ((k, v) :: es, cs)
    show readEntries F constants (fuel + 1)
      (',' :: '"' :: (body k ++ '"' :: ':' :: (dumpsWith F body v ++ dumpsEntries F body es) ++ rest)) = _
    simp only [List.cons_append, List.append_assoc]
    rw [readEntries, skipSpace_cons (by decide)]
    simp only
    rw [if_neg (by decide), if_pos trivial, hnone]

end

theorem loads_stuck {v : JsonValue} (hfinite : constants = true ∨ v.finite = true) (hsome : ∃ s ∈ v.texts, bad s) :
    loads F constants (dumpsWith F body v) = none := by
  have hsize : v.size ≤ (dumpsWith F body v).length + 1 := (size_le_length v).trans (Nat.le_succ _)
  have hstuck := stuck_dumpsWith (F := F) hgood hbad v _ [] hfinite hsome hsize (fun c hc => nomatch hc)
  rw [List.append_nil] at hstuck
  unfold loads
  cases hread : readValue F constants ((dumpsWith F body v).length + 1) (dumpsWith F body v) with
  | none => rfl
  | some p =>
    obtain ⟨c, rest, hp, hspace, _⟩ := hstuck p hread
    simp only
    rw [hp, skipSpace_cons hspace, if_neg (List.cons_ne_nil c rest)]

end Bad

end RoundTrip

end NightScout
