import Mathlib.Data.List.Infix
import NightScout.Lib.Fnmatch

/-!
# Patterns with stars only

A pattern in which `*` is the only wildcard, read plainly: every star stands for some text (`Filled`). The shell matcher
reads it so if no `?` stands in it and no bracket is closed (`matchTokens_iff_filled`), and for no other pattern
(`exists_accepted`, `matchTokens_eq_false`), even if only texts of certain characters are to be matched.
-/

namespace NightScout.Lib.Fnmatch

/-- The text is the pattern with every star replaced by some text. -/
inductive Filled : List Char → List Char → Prop
  | nil : Filled [] []
  | star {pattern text : List Char} (filling : List Char) (h : Filled pattern text) :
      Filled ('*' :: pattern) (filling ++ text)
  | char {pattern text : List Char} {c : Char} (hc : c ≠ '*') (h : Filled pattern text) :
      Filled (c :: pattern) (c :: text)

/-- No question mark, and no bracket that is closed. -/
structure StarsOnly (pattern : List Char) : Prop where
  any : '?' ∉ pattern
  bracket : ∀ rest, '[' :: rest <:+ pattern → scanBracket rest = none

theorem filled_self (pattern : List Char) : Filled pattern pattern := by
  induction pattern with
  | nil => exact .nil
  | cons c pattern ih =>
    by_cases hc : c = '*'
    · subst hc
      exact .star ['*'] ih
    · exact .char hc ih

theorem Filled.sublist {pattern text : List Char} (h : Filled pattern text) :
    (pattern.filter (· ≠ '*')).Sublist text := by
  induction h with
  | nil => exact .refl _
  | star filling h ih => simpa using ih.trans (List.sublist_append_right filling _)
  | char hc h ih => simpa [hc] using ih

/-! ## Stars only -/

/-- A star, or a character. -/
def tokenOf (c : Char) : Token := if c = '*' then .star else .char c

theorem StarsOnly.tail {c : Char} {pattern : List Char} (h : StarsOnly (c :: pattern)) : StarsOnly pattern where
  any hmem := h.any (List.mem_cons_of_mem c hmem)
  bracket rest hrest := h.bracket rest (hrest.trans (List.suffix_cons c pattern))

theorem translateFrom_starsOnly {pattern : List Char} (h : StarsOnly pattern) {fuel : ℕ}
    (hfuel : pattern.length ≤ fuel) : translateFrom fuel pattern = pattern.map tokenOf := by
  induction pattern generalizing fuel with
  | nil => cases fuel <;> rfl
  | cons c pattern ih =>
    obtain ⟨fuel, rfl⟩ : ∃ n, fuel = n + 1 := ⟨fuel - 1, by simp only [List.length_cons] at hfuel; omega⟩
    have hrest := ih h.tail (Nat.le_of_succ_le_succ hfuel)
    by_cases hliteral : isLiteral c = true
    · have hc : c ≠ '*' := by
        simp only [isLiteral, decide_eq_true_eq] at hliteral
        exact hliteral.1
      rw [translateFrom_cons hliteral, hrest, List.map_cons, tokenOf, if_neg hc]
    · have hcases : c = '*' ∨ c = '?' ∨ c = '[' := by
        by_contra hnot
        apply hliteral
        simp only [isLiteral, decide_eq_true_eq]
        tauto
      rcases hcases with rfl | rfl | rfl
      · rw [translateFrom, hrest]
        rfl
      · exact absurd (List.mem_cons_self) h.any
      · rw [translateFrom, h.bracket pattern (List.suffix_refl _), hrest]
        rfl

theorem matchTokens_star_iff {tokens : List Token} {text : List Char} : matchTokens (.star :: tokens) text = true ↔
      ∃ filling rest, text = filling ++ rest ∧ matchTokens tokens rest = true := by
  rw [matchTokens, List.any_eq_true]
  constructor
  · rintro ⟨rest, hrest, hmatch⟩
    obtain ⟨filling, rfl⟩ := (List.mem_tails rest text).mp hrest
    exact ⟨filling, rest, rfl, hmatch⟩
  · rintro ⟨filling, rest, rfl, hmatch⟩
    exact ⟨rest, (List.mem_tails rest _).mpr (List.suffix_append filling rest), hmatch⟩

theorem matchTokens_tokenOf {pattern text : List Char} :
    matchTokens (pattern.map tokenOf) text = true ↔ Filled pattern text := by
  constructor
  · intro h
    induction pattern generalizing text with
    | nil =>
      have hnil : text = [] := by simpa [matchTokens] using h
      rw [hnil]
      exact .nil
    | cons c pattern ih =>
      by_cases hc : c = '*'
      · subst hc
        obtain ⟨filling, rest, rfl, hmatch⟩ := matchTokens_star_iff.mp h
        exact .star filling (ih hmatch)
      · rw [List.map_cons, tokenOf, if_neg hc] at h
        cases text with
        | nil => cases h
        | cons d text =>
          simp only [matchTokens, Token.accepts, Bool.and_eq_true, decide_eq_true_eq] at h
          rw [← h.1]
          exact .char hc (ih h.2)
  · intro h
    induction h with
    | nil => rfl
    | star filling h ih => exact matchTokens_star_iff.mpr ⟨filling, _, rfl, ih⟩
    | char hc h ih =>
      rw [List.map_cons, tokenOf, if_neg hc]
      simp [matchTokens, Token.accepts, ih]

/-- **Without other wildcards the shell matcher fills the stars.** -/
theorem matchTokens_iff_filled {pattern text : List Char} (h : StarsOnly pattern) {fuel : ℕ}
    (hfuel : pattern.length ≤ fuel) : matchTokens (translateFrom fuel pattern) text = true ↔ Filled pattern text := by
  rw [translateFrom_starsOnly h hfuel, matchTokens_tokenOf]

/-! ## Other wildcards -/

theorem closeBracket_eq {cs stuff rest : List Char} (h : closeBracket cs = some (stuff, rest)) :
    cs = stuff ++ ']' :: rest := by
  induction cs generalizing stuff with
  | nil => cases h
  | cons c cs ih =>
    by_cases hc : c = ']'
    · subst hc
      obtain ⟨rfl, rfl⟩ := Prod.mk.inj (Option.some.inj h)
      rfl
    · rw [closeBracket] at h
      · obtain ⟨⟨stuff', rest'⟩, hclose, heq⟩ := Option.map_eq_some_iff.mp h
        obtain ⟨rfl, rfl⟩ := Prod.mk.inj heq
        rw [ih hclose]
        rfl
      · exact hc

theorem scanBracket_eq {cs stuff rest : List Char} (h : scanBracket cs = some (stuff, rest)) :
    cs = stuff ++ ']' :: rest := by
  unfold scanBracket at h
  split at h
  · obtain ⟨⟨stuff', rest'⟩, hclose, heq⟩ := Option.map_eq_some_iff.mp h
    obtain ⟨rfl, rfl⟩ := Prod.mk.inj heq
    rw [closeBracket_eq hclose]
    rfl
  · obtain ⟨⟨stuff', rest'⟩, hclose, heq⟩ := Option.map_eq_some_iff.mp h
    obtain ⟨rfl, rfl⟩ := Prod.mk.inj heq
    rw [closeBracket_eq hclose]
    rfl
  · obtain ⟨⟨stuff', rest'⟩, hclose, heq⟩ := Option.map_eq_some_iff.mp h
    obtain ⟨rfl, rfl⟩ := Prod.mk.inj heq
    rw [closeBracket_eq hclose]
    rfl
  · exact closeBracket_eq h

theorem bracket_range (stuff : List Char) : ∃ negated ranges, bracket stuff = .range negated ranges := by
  unfold bracket
  dsimp only
  split
  · exact ⟨_, _, rfl⟩
  · exact ⟨_, _, rfl⟩
  · exact ⟨_, _, rfl⟩

/-- What the first characters of a pattern are translated to. -/
inductive Scans (fuel : ℕ) : List Char → List Token → Prop
  | star (cs) : Scans fuel ('*' :: cs) (.star :: translateFrom fuel cs)
  | any (cs) : Scans fuel ('?' :: cs) (.any :: translateFrom fuel cs)
  | closed (stuff rest : List Char) (negated : Bool) (ranges : List (Char × Char))
      (h : scanBracket (stuff ++ ']' :: rest) = some (stuff, rest)) :
      Scans fuel ('[' :: (stuff ++ ']' :: rest)) (.range negated ranges :: translateFrom fuel rest)
  | opened (cs) (h : scanBracket cs = none) : Scans fuel ('[' :: cs) (.char '[' :: translateFrom fuel cs)
  | literal (c : Char) (cs) (h : isLiteral c = true) : Scans fuel (c :: cs) (.char c :: translateFrom fuel cs)

theorem scans (fuel : ℕ) (c : Char) (cs : List Char) : Scans fuel (c :: cs) (translateFrom (fuel + 1) (c :: cs)) := by
  by_cases hliteral : isLiteral c = true
  · rw [translateFrom_cons hliteral]
    exact .literal c cs hliteral
  · have hcases : c = '*' ∨ c = '?' ∨ c = '[' := by
      by_contra hnot
      apply hliteral
      simp only [isLiteral, decide_eq_true_eq]
      tauto
    rcases hcases with rfl | rfl | rfl
    · exact .star cs
    · exact .any cs
    · rw [translateFrom]
      cases hscan : scanBracket cs with
      | none => exact .opened cs hscan
      | some found =>
        obtain ⟨stuff, rest⟩ := found
        obtain ⟨negated, ranges, hbracket⟩ := bracket_range stuff
        obtain rfl := scanBracket_eq hscan
        dsimp only
        rw [hbracket]
        exact .closed stuff rest negated ranges hscan

/-- Takes one character. -/
def Token.takes : Token → Bool
  | .star => false
  | .any | .char _ | .range _ _ => true

/-- Is a closed bracket. -/
def Token.isRange : Token → Bool
  | .range _ _ => true
  | .star | .any | .char _ => false

/-- A closed bracket is written with two characters at least. -/
theorem countP_takes_le (fuel : ℕ) (pattern : List Char) :
    (translateFrom fuel pattern).countP Token.takes + (translateFrom fuel pattern).countP Token.isRange ≤
      (pattern.filter (· ≠ '*')).length := by
  induction fuel generalizing pattern with
  | zero => simp [translateFrom]
  | succ fuel ih =>
    cases pattern with
    | nil => simp [translateFrom]
    | cons c cs =>
      cases hscan : translateFrom (fuel + 1) (c :: cs) with
      | nil =>
        have hscans := scans fuel c cs
        rw [hscan] at hscans
        cases hscans
      | cons token tokens =>
        have hscans := scans fuel c cs
        rw [hscan] at hscans
        cases hscans with
        | star => simpa [List.countP_cons, Token.takes, Token.isRange] using ih cs
        | any =>
          have hrest := ih cs
          simp [List.countP_cons, Token.takes, Token.isRange] at hrest ⊢
          omega
        | closed stuff rest negated ranges h =>
          have hrest := ih rest
          simp [List.countP_cons, Token.takes, Token.isRange] at hrest ⊢
          omega
        | opened _ h =>
          have hrest := ih cs
          simp [List.countP_cons, Token.takes, Token.isRange] at hrest ⊢
          omega
        | literal _ _ h =>
          have hrest := ih cs
          have hc : c ≠ '*' := by
            simp only [isLiteral, decide_eq_true_eq] at h
            exact h.1
          simp [List.countP_cons, Token.takes, Token.isRange, hc] at hrest ⊢
          omega

/-- Characters that are tokens stand in the pattern, and are no wildcards. -/
theorem mem_translateFrom_char {fuel : ℕ} {pattern : List Char} {c : Char}
    (h : .char c ∈ translateFrom fuel pattern) : c ∈ pattern ∧ c ≠ '?' := by
  induction fuel generalizing pattern with
  | zero => cases h
  | succ fuel ih =>
    cases pattern with
    | nil => cases h
    | cons d cs =>
      have hscans := scans fuel d cs
      generalize translateFrom (fuel + 1) (d :: cs) = tokens at h hscans
      cases hscans with
      | star =>
        obtain ⟨hmem, hne⟩ := ih ((List.mem_cons.mp h).resolve_left nofun)
        exact ⟨List.mem_cons_of_mem _ hmem, hne⟩
      | any =>
        obtain ⟨hmem, hne⟩ := ih ((List.mem_cons.mp h).resolve_left nofun)
        exact ⟨List.mem_cons_of_mem _ hmem, hne⟩
      | closed stuff rest negated ranges hscan =>
        obtain ⟨hmem, hne⟩ := ih ((List.mem_cons.mp h).resolve_left nofun)
        refine ⟨List.mem_cons_of_mem _ (List.mem_append_right _ (List.mem_cons_of_mem _ hmem)), hne⟩
      | opened _ hscan =>
        rcases List.mem_cons.mp h with hc | hmem
        · obtain rfl := Token.char.inj hc
          exact ⟨List.mem_cons_self, by decide⟩
        · exact ⟨List.mem_cons_of_mem _ (ih hmem).1, (ih hmem).2⟩
      | literal _ _ hliteral =>
        rcases List.mem_cons.mp h with hc | hmem
        · obtain rfl := Token.char.inj hc
          simp only [isLiteral, decide_eq_true_eq] at hliteral
          exact ⟨List.mem_cons_self, hliteral.2.1⟩
        · exact ⟨List.mem_cons_of_mem _ (ih hmem).1, (ih hmem).2⟩

theorem mem_of_any_mem {fuel : ℕ} {pattern : List Char} (h : .any ∈ translateFrom fuel pattern) : '?' ∈ pattern := by
  induction fuel generalizing pattern with
  | zero => cases h
  | succ fuel ih =>
    cases pattern with
    | nil => cases h
    | cons d cs =>
      have hscans := scans fuel d cs
      generalize translateFrom (fuel + 1) (d :: cs) = tokens at h hscans
      cases hscans with
      | star => exact List.mem_cons_of_mem _ (ih ((List.mem_cons.mp h).resolve_left nofun))
      | any => exact List.mem_cons_self
      | closed stuff rest negated ranges hscan =>
        have hmem := ih ((List.mem_cons.mp h).resolve_left nofun)
        exact List.mem_cons_of_mem _ (List.mem_append_right _ (List.mem_cons_of_mem _ hmem))
      | opened _ hscan => exact List.mem_cons_of_mem _ (ih ((List.mem_cons.mp h).resolve_left nofun))
      | literal _ _ hliteral => exact List.mem_cons_of_mem _ (ih ((List.mem_cons.mp h).resolve_left nofun))

/-- Without question marks and closed brackets among the tokens there are only stars. -/
theorem starsOnly_of_tokens {fuel : ℕ} {pattern : List Char} (hfuel : pattern.length ≤ fuel)
    (hany : .any ∉ translateFrom fuel pattern)
    (hrange : ∀ token ∈ translateFrom fuel pattern, token.isRange = false) : StarsOnly pattern := by
  induction fuel generalizing pattern with
  | zero =>
    obtain rfl := List.length_eq_zero_iff.mp (Nat.le_zero.mp hfuel)
    exact ⟨nofun, fun rest hrest => by cases List.suffix_nil.mp hrest⟩
  | succ fuel ih =>
    cases pattern with
    | nil => exact ⟨nofun, fun rest hrest => by cases List.suffix_nil.mp hrest⟩
    | cons d cs =>
      have hlength : cs.length ≤ fuel := Nat.le_of_succ_le_succ hfuel
      have hscans := scans fuel d cs
      generalize translateFrom (fuel + 1) (d :: cs) = tokens at hany hrange hscans
      have hcons : ∀ {token : Token}, tokens = token :: translateFrom fuel cs → StarsOnly cs := by
        rintro token rfl
        exact ih hlength (fun h => hany (List.mem_cons_of_mem _ h)) fun t ht => hrange t (List.mem_cons_of_mem _ ht)
      cases hscans with
      | any => exact absurd List.mem_cons_self hany
      | closed stuff rest negated ranges hscan => exact absurd (hrange _ List.mem_cons_self) (by simp [Token.isRange])
      | star =>
        have hrest := hcons rfl
        refine ⟨?_, ?_⟩
        · simpa using hrest.any
        · intro rest h
          rcases List.suffix_cons_iff.mp h with heq | h
          · cases heq
          · exact hrest.bracket rest h
      | opened _ hscan =>
        have hrest := hcons rfl
        refine ⟨?_, ?_⟩
        · simpa using hrest.any
        · intro rest h
          rcases List.suffix_cons_iff.mp h with heq | h
          · rw [(List.cons.inj heq).2]
            exact hscan
          · exact hrest.bracket rest h
      | literal _ _ hliteral =>
        have hrest := hcons rfl
        simp only [isLiteral, decide_eq_true_eq] at hliteral
        refine ⟨?_, ?_⟩
        · rw [List.mem_cons, not_or]
          exact ⟨fun h => hliteral.2.1 h.symm, hrest.any⟩
        · intro rest h
          rcases List.suffix_cons_iff.mp h with heq | h
          · exact absurd (List.cons.inj heq).1.symm hliteral.2.2
          · exact hrest.bracket rest h

/-! ## The difference -/

/-- A bracket that takes none of the characters of a text keeps the pattern from matching. -/
theorem matchTokens_eq_false {good : Char → Prop} {tokens : List Token} {text : List Char}
    {token : Token} (hmem : token ∈ tokens) (hstar : token.takes = true) (htoken : ∀ c, good c → token.accepts c = false)
    (hgood : ∀ c ∈ text, good c) : matchTokens tokens text = false := by
  induction tokens generalizing text with
  | nil => cases hmem
  | cons head tokens ih =>
    rw [← Bool.not_eq_true]
    intro hmatch
    by_cases htakes : head = .star
    · subst htakes
      obtain ⟨filling, rest, rfl, hrest⟩ := matchTokens_star_iff.mp hmatch
      rcases List.mem_cons.mp hmem with rfl | hmem
      · cases hstar
      · rw [ih hmem fun c hc => hgood c (List.mem_append_right _ hc)] at hrest
        cases hrest
    · cases text with
      | nil => cases head <;> simp [matchTokens] at hmatch htakes
      | cons c text =>
        rw [matchTokens, Bool.and_eq_true] at hmatch
        · rcases List.mem_cons.mp hmem with rfl | hmem
          · rw [htoken c (hgood c List.mem_cons_self)] at hmatch
            cases hmatch.1
          · rw [ih hmem fun d hd => hgood d (List.mem_cons_of_mem _ hd)] at hmatch
            cases hmatch.2
        · exact htakes

/-- One character for each token that takes one. -/
theorem exists_match {good : Char → Prop} (ha : good 'a') {tokens : List Token}
    (hchar : ∀ c, .char c ∈ tokens → good c ∧ c ≠ '?')
    (hrange : ∀ token ∈ tokens, token.isRange = true → ∃ c, good c ∧ token.accepts c = true) :
    ∃ text, (∀ c ∈ text, good c) ∧ matchTokens tokens text = true ∧ text.length = tokens.countP Token.takes ∧
      ((∀ token ∈ tokens, token.isRange = false) → '?' ∉ text) := by
  induction tokens with
  | nil => exact ⟨[], List.forall_mem_nil _, rfl, rfl, fun _ => List.not_mem_nil⟩
  | cons token tokens ih =>
    obtain ⟨text, hgood, hmatch, hlength, hplain⟩ := ih (fun c hc => hchar c (List.mem_cons_of_mem _ hc))
      fun t ht => hrange t (List.mem_cons_of_mem _ ht)
    have hcons : ∀ c, good c → token ≠ .star → token.accepts c = true → (token.isRange = false → c ≠ '?') →
        ∃ text, (∀ c ∈ text, good c) ∧ matchTokens (token :: tokens) text = true ∧
          text.length = (token :: tokens).countP Token.takes ∧
          ((∀ token' ∈ token :: tokens, token'.isRange = false) → '?' ∉ text) := by
      intro c hc hstar haccepts hne
      refine ⟨c :: text, ?_, ?_, ?_, ?_⟩
      · rintro d hd
        rcases List.mem_cons.mp hd with rfl | hd
        · exact hc
        · exact hgood d hd
      · rw [matchTokens, haccepts, hmatch]
        · rfl
        · exact hstar
      · have htakes : token.takes = true := by cases token <;> simp [Token.takes] at hstar ⊢
        simp [htakes, hlength]
      · intro hall
        rw [List.mem_cons, not_or]
        exact ⟨fun h => hne (hall token List.mem_cons_self) h.symm,
          hplain fun t ht => hall t (List.mem_cons_of_mem _ ht)⟩
    cases token with
    | star =>
      refine ⟨text, hgood, matchTokens_star_iff.mpr ⟨[], text, rfl, hmatch⟩, ?_, ?_⟩
      · simp [Token.takes, hlength]
      · exact fun hall => hplain fun t ht => hall t (List.mem_cons_of_mem _ ht)
    | any => exact hcons 'a' ha (fun h => by cases h) rfl fun _ => by decide
    | char c =>
      obtain ⟨hc, hne⟩ := hchar c List.mem_cons_self
      exact hcons c hc (fun h => by cases h) (by simp [Token.accepts]) fun _ => hne
    | range negated ranges =>
      obtain ⟨c, hc, haccepts⟩ := hrange _ List.mem_cons_self rfl
      exact hcons c hc (fun h => by cases h) haccepts fun h => by cases h

/-- **With other wildcards something matches that does not fill the stars.** -/
theorem exists_accepted {good : Char → Prop} (ha : good 'a') {pattern : List Char} (hpattern : ∀ c ∈ pattern, good c)
    (hrange : ∀ token ∈ translateFrom pattern.length pattern, token.isRange = true →
      ∃ c, good c ∧ token.accepts c = true) :
    ∃ text, (∀ c ∈ text, good c) ∧ matchTokens (translateFrom pattern.length pattern) text = true ∧
      (Filled pattern text → StarsOnly pattern) := by
  have hchar : ∀ c, .char c ∈ translateFrom pattern.length pattern → good c ∧ c ≠ '?' := by
    intro c hc
    obtain ⟨hmem, hne⟩ := mem_translateFrom_char hc
    exact ⟨hpattern c hmem, hne⟩
  obtain ⟨text, hgood, hmatch, hlength, hplain⟩ := exists_match ha hchar hrange
  refine ⟨text, hgood, hmatch, ?_⟩
  intro hfilled
  have hle := hfilled.sublist.length_le
  have hcount := countP_takes_le pattern.length pattern
  have hnone : ∀ token ∈ translateFrom pattern.length pattern, token.isRange = false := by
    intro token htoken
    have hzero : (translateFrom pattern.length pattern).countP Token.isRange = 0 := by omega
    rw [List.countP_eq_zero] at hzero
    simpa using hzero token htoken
  apply starsOnly_of_tokens le_rfl _ hnone
  intro hany
  have hmem : '?' ∈ pattern.filter (· ≠ '*') := by simpa using mem_of_any_mem hany
  exact hplain hnone (hfilled.sublist.subset hmem)

end NightScout.Lib.Fnmatch
