import NightScout.Lib.CaseMaps
import NightScout.Exporters.SurfaceTexts

/-!
# When the HTML export is faithful

The escaped text of a value has no `<` and is read back as the value. So is the text of the tree, which is put in
last. The text of the graph is gone over once more: if a string of the snapshot has the second marker in it, the
tree is written into that string, the string ends at the first quote of the tree, and the element holds no JSON
(`surface_html_faithful_iff`).
-/

namespace NightScout

open Lib

/-! ## The text of a value in the page -/

/-- A character of a string, in the page. -/
def safeChar (c : Char) : List Char :=
  if c = '<' then "\\u003c".toList
  else if c = '>' then "\\u003e".toList
  else if c = '&' then "\\u0026".toList
  else escapeChar c

def safeBody (s : String) : List Char := s.toList.flatMap safeChar

/-- What the three replacements make of a character. -/
def safeOne (c : Char) : List Char :=
  if c = '<' then "\\u003c".toList
  else if c = '>' then "\\u003e".toList
  else if c = '&' then "\\u0026".toList
  else [c]

theorem htmlSafe_eq (cs : List Char) : htmlSafe cs = cs.flatMap safeOne := by
  unfold htmlSafe
  rw [replaceAll_singleton, replaceAll_singleton, replaceAll_singleton, List.flatMap_assoc, List.flatMap_assoc]
  refine List.flatMap_congr fun c _ => ?_
  unfold safeOne
  by_cases hlt : c = '<'
  · subst hlt
    decide
  by_cases hgt : c = '>'
  · subst hgt
    decide
  · rw [if_neg hlt, if_neg hlt, if_neg hgt, List.flatMap_singleton, if_neg hgt, List.flatMap_singleton]

theorem htmlSafe_cons {c : Char} (hc : c ∉ ['<', '>', '&']) (cs : List Char) :
    htmlSafe (c :: cs) = c :: htmlSafe cs := by
  simp only [List.mem_cons, List.not_mem_nil, or_false, not_or] at hc
  rw [htmlSafe_eq, htmlSafe_eq, List.flatMap_cons, safeOne, if_neg hc.1, if_neg hc.2.1, if_neg hc.2.2]
  rfl

theorem not_mem_of_isSyntaxChar {c : Char} (hc : isSyntaxChar c = true) {l : List Char}
    (hl : l.all (fun d => !isSyntaxChar d) = true) : c ∉ l := by
  intro hmem
  have hnot := List.all_eq_true.mp hl c hmem
  rw [hc] at hnot
  cases hnot

theorem flatMap_safeOne_escapeChar (c : Char) : (escapeChar c).flatMap safeOne = safeChar c := by
  unfold safeChar
  split
  next h =>
    subst h
    decide
  split
  next h =>
    subst h
    decide
  split
  next h =>
    subst h
    decide
  next hlt hgt hamp =>
    have hdigit : ∀ n < 16, safeOne (Nat.digitChar n) = [Nat.digitChar n] := by decide
    unfold escapeChar
    split
    · decide
    split
    · decide
    split
    · decide
    split
    · decide
    split
    · decide
    split
    · decide
    split
    · decide
    split
    next hctl =>
      simp only [List.flatMap_cons, List.flatMap_nil, hdigit (c.toNat / 16) (by omega),
        hdigit (c.toNat % 16) (by omega)]
      rfl
    next =>
      rw [List.flatMap_singleton, safeOne, if_neg hlt, if_neg hgt, if_neg hamp]

theorem htmlSafe_escaped (s : String) : htmlSafe (escaped s) = safeBody s := by
  unfold escaped safeBody
  rw [htmlSafe_eq, List.flatMap_assoc]
  exact List.flatMap_congr fun c _ => flatMap_safeOne_escapeChar c

/-- Only the strings of a value are escaped. -/
theorem embedded_eq (F : FloatText) (v : JsonValue) : embedded F v = dumpsWith F safeBody v.sortKeys := by
  unfold embedded dumps
  have hchar (c : Char) (hc : isSyntaxChar c = true) (cs : List Char) : htmlSafe (c :: cs) = c :: htmlSafe cs :=
    htmlSafe_cons (not_mem_of_isSyntaxChar hc (by decide)) cs
  have hbody (s : String) (cs : List Char) :
      htmlSafe (escaped s ++ '"' :: cs) = safeBody s ++ htmlSafe ('"' :: cs) := by
    rw [htmlSafe_eq, List.flatMap_append, ← htmlSafe_eq, ← htmlSafe_eq, htmlSafe_escaped]
  have htransform := transform_dumpsWith F hchar hbody v.sortKeys []
  rw [List.append_nil] at htransform
  rw [htransform, htmlSafe_eq, List.flatMap_nil, List.append_nil]

theorem readString_safeChar (c : Char) (rest : List Char) :
    readString .plain (safeChar c ++ rest) = (readString .plain rest).map fun p => (c :: p.1, p.2) := by
  unfold safeChar
  split
  next h =>
    subst h
    rfl
  split
  next h =>
    subst h
    rfl
  split
  next h =>
    subst h
    rfl
  next => exact readString_escapeChar c rest

theorem readString_safeBody (s : String) (rest : List Char) :
    readString .plain (safeBody s ++ '"' :: rest) = some (s.toList, rest) :=
  readString_flatMap readString_safeChar s.toList rest

theorem loads_embedded (F : FloatText) {v : JsonValue} (hfinite : v.finite = true) :
    loads F false (embedded F v) = some v.sortKeys := by
  rw [embedded_eq]
  exact loads_dumpsWith (.inr (by rw [JsonValue.finite_sortKeys, hfinite])) fun s _ => readString_safeBody s

theorem not_mem_embedded (F : FloatText) (v : JsonValue) : '<' ∉ embedded F v := by
  unfold embedded
  rw [htmlSafe_eq]
  intro h
  obtain ⟨c, _, hc⟩ := List.mem_flatMap.mp h
  unfold safeOne at hc
  split at hc
  · exact absurd hc (by decide)
  split at hc
  · exact absurd hc (by decide)
  split at hc
  · exact absurd hc (by decide)
  next hlt _ _ => exact hlt (List.mem_singleton.mp hc).symm

/-! ## The markers in it -/

/-- The texts that a character is written as. -/
theorem safeChar_cases (c : Char) : safeChar c = [c] ∨
    safeChar c ∈ ["\\u003c".toList, "\\u003e".toList, "\\u0026".toList, ['\\', '"'], ['\\', '\\'], ['\\', 'n'],
      ['\\', 'r'], ['\\', 't'], ['\\', 'b'], ['\\', 'f']] ∨
    ∃ high < 16, ∃ low < 16, safeChar c = ['\\', 'u', '0', '0', Nat.digitChar high, Nat.digitChar low] := by
  unfold safeChar
  by_cases hlt : c = '<'
  · rw [if_pos hlt]
    exact .inr (.inl (by decide))
  rw [if_neg hlt]
  by_cases hgt : c = '>'
  · rw [if_pos hgt]
    exact .inr (.inl (by decide))
  rw [if_neg hgt]
  by_cases hamp : c = '&'
  · rw [if_pos hamp]
    exact .inr (.inl (by decide))
  rw [if_neg hamp]
  exact (escapeChar_cases c).imp_right (Or.imp_left fun hmem =>
    List.mem_cons_of_mem _ (List.mem_cons_of_mem _ (List.mem_cons_of_mem _ hmem)))

/-- The marker is written as it is, and no other character is written with one of its own. -/
theorem safeChar_marker : (∀ c ∈ treeMarker, safeChar c = [c]) ∧
    ∀ c ∉ treeMarker, safeChar c ≠ [] ∧ ∀ d ∈ safeChar c, d ∉ treeMarker := by
  have hdigit : ∀ n < 16, Nat.digitChar n ∉ treeMarker := by decide
  have hsame : treeMarker.all (fun c => safeChar c = [c]) = true := by decide
  have hescape : ∀ text ∈ ["\\u003c".toList, "\\u003e".toList, "\\u0026".toList, ['\\', '"'], ['\\', '\\'],
      ['\\', 'n'], ['\\', 'r'], ['\\', 't'], ['\\', 'b'], ['\\', 'f']],
      text ≠ [] ∧ text.all (fun d => d ∉ treeMarker) = true := by decide
  refine ⟨fun c hc => of_decide_eq_true (List.all_eq_true.mp hsame c hc), fun c hc => ?_⟩
  rcases safeChar_cases c with heq | hmem | ⟨high, hhigh, low, hlow, heq⟩
  · rw [heq]
    exact ⟨List.cons_ne_nil _ _, List.forall_mem_singleton.mpr hc⟩
  · obtain ⟨hne, hall⟩ := hescape _ hmem
    exact ⟨hne, fun d hd => of_decide_eq_true (List.all_eq_true.mp hall d hd)⟩
  · rw [heq]
    refine ⟨List.cons_ne_nil _ _, ?_⟩
    exact List.forall_mem_cons.mpr ⟨by decide, List.forall_mem_cons.mpr ⟨by decide, List.forall_mem_cons.mpr
      ⟨by decide, List.forall_mem_cons.mpr ⟨by decide, List.forall_mem_cons.mpr ⟨hdigit high hhigh,
        List.forall_mem_singleton.mpr (hdigit low hlow)⟩⟩⟩⟩⟩

theorem marker_safeBody_iff (s : String) : treeMarker <:+: safeBody s ↔ treeMarker <:+: s.toList :=
  infix_flatMap_iff safeChar_marker.1 safeChar_marker.2 s.toList

/-- Replacing the marker in the text of a value replaces it in its strings. -/
theorem replaceAll_dumpsWith (F : FloatText) (new : List Char) (v : JsonValue) :
    replaceAll treeMarker new (dumpsWith F safeBody v) =
      dumpsWith F (fun s => replaceAll treeMarker new (safeBody s)) v := by
  have hmarker : treeMarker ≠ [] := by decide
  have hquote : '"' ∉ treeMarker := by decide
  have hfirst : treeMarker = '_' :: "_TREE_DATA__".toList := by decide
  have hskip (c : Char) (hc : c ≠ '_') (cs : List Char) :
      replaceAll treeMarker new (c :: cs) = c :: replaceAll treeMarker new cs := by
    refine replaceAll_cons_of_not_start ?_
    rw [hfirst, List.cons_prefix_cons]
    exact fun h => hc h.1.symm
  have hchar (c : Char) (hc : isSyntaxChar c = true) (cs : List Char) :
      replaceAll treeMarker new (c :: cs) = c :: replaceAll treeMarker new cs :=
    hskip c (fun h => absurd (h ▸ hc) (by decide)) cs
  have hbody (s : String) (cs : List Char) : replaceAll treeMarker new (safeBody s ++ '"' :: cs) =
      replaceAll treeMarker new (safeBody s) ++ replaceAll treeMarker new ('"' :: cs) := by
    rw [replaceAll_append_cons hmarker hquote, hskip _ (by decide)]
  have htransform := transform_dumpsWith F hchar hbody v []
  rwa [List.append_nil, replaceAll_nil, List.append_nil] at htransform

/-- A string with the tree in it ends inside the tree. -/
theorem stuck_replaced {new rest : List Char} (hnew : ∃ more, new = '{' :: '"' :: 'f' :: more) {s : String}
    (hs : treeMarker <:+: s.toList) (p : List Char × List Char)
    (hp : readString .plain (replaceAll treeMarker new (safeBody s) ++ '"' :: rest) = some p) : Stuck p.2 := by
  obtain ⟨more, rfl⟩ := hnew
  obtain ⟨a, b, hab, hreplace⟩ := exists_replaceAll_flatMap (by decide : treeMarker ≠ []) safeChar_marker.1
    safeChar_marker.2 hs
  unfold safeBody at hp
  rw [hreplace, List.append_assoc] at hp
  -- the reader goes over what stands before the marker, and one character more
  have hread (a rest : List Char) : readString .plain (a.flatMap safeChar ++ rest) =
      (readString .plain rest).map fun p => (a ++ p.1, p.2) := by
    induction a with
    | nil =>
      show readString .plain rest = _
      cases readString .plain rest <;> rfl
    | cons c a ih =>
      rw [List.flatMap_cons, List.append_assoc, readString_safeChar, ih, Option.map_map]
      rfl
  rw [hread] at hp
  obtain ⟨q, hq, rfl⟩ := Option.map_eq_some_iff.mp hp
  cases hq
  exact ⟨'f', _, rfl, by decide, by decide⟩

/-! ## The page that is written -/

section Assembled

variable {old new : List Char}

/-- The replacement goes over the page up to the end of a tag. -/
theorem replaceAll_head (hold : old ≠ []) {o : Char} {rest : List Char} (hfirst : old = o :: rest)
    (hangle : '<' ∉ old) {head tag : List Char} (hhead : ¬ old <:+: head) (htag : o ∉ '<' :: tag) (cs : List Char) :
    replaceAll old new (head ++ ('<' :: tag ++ cs)) = head ++ ('<' :: tag ++ replaceAll old new cs) := by
  have hstart : replaceAll old new (head ++ '<' :: (tag ++ cs)) =
      replaceAll old new head ++ '<' :: replaceAll old new (tag ++ cs) :=
    replaceAll_append_cons hold hangle head (tag ++ cs)
  rw [replaceAll_eq_self hhead, replaceAll_append_of_notMem hfirst fun h => htag (List.mem_cons_of_mem _ h)]
    at hstart
  exact hstart

/-- A text in the place of an element ends where the end tag starts. -/
theorem replaceAll_element (hold : old ≠ []) {o : Char} {rest : List Char} (hfirst : old = o :: rest)
    (hangle : '<' ∉ old) (htag : o ∉ closeTag) (text cs : List Char) : replaceAll old new (text ++ (closeTag ++ cs)) =
      replaceAll old new text ++ (closeTag ++ replaceAll old new cs) := by
  have hclose : closeTag = '<' :: "/script>".toList := by decide
  have hrest : o ∉ "/script>".toList := fun h => htag (hclose ▸ List.mem_cons_of_mem _ h)
  rw [hclose, List.cons_append, replaceAll_append_cons hold hangle, replaceAll_append_of_notMem hfirst hrest]
  rfl

end Assembled

variable (page : SurfacePage)

/-- The page with two texts in its elements. -/
def SurfacePage.filled (graph tree : List Char) : List Char :=
  page.head ++ (graphTag ++ (graph ++ (closeTag ++ '\n' :: (treeTag ++ (tree ++ (closeTag ++ page.tail))))))

theorem replaceAll_graphMarker (graph : List Char) :
    replaceAll graphMarker graph page.template = page.filled graph treeMarker := by
  have hfirst : graphMarker = '_' :: "_GRAPH_DATA__".toList := by decide
  have hne : graphMarker ≠ [] := by decide
  have hangle : '<' ∉ graphMarker := by decide
  have htag : graphTag = '<' :: "script type=\"application/json\" id=\"graph-data\">".toList := by decide
  have hmiddle : '_' ∉ closeTag ++ '\n' :: treeTag := by decide
  have hsplit (cs : List Char) : closeTag ++ '\n' :: (treeTag ++ cs) = closeTag ++ '\n' :: treeTag ++ cs := by
    simp
  unfold SurfacePage.template SurfacePage.filled
  rw [htag, replaceAll_head hne hfirst hangle page.head_graphMarker (htag ▸ by decide), replaceAll_append hne,
    hsplit, replaceAll_append_of_notMem hfirst hmiddle,
    replaceAll_element hne hfirst hangle (by decide), replaceAll_eq_self (by decide : ¬ graphMarker <:+: treeMarker),
    replaceAll_eq_self page.tail_graphMarker]

/-- The tree takes the place of its marker, and of every marker in the text of the graph. -/
theorem replaceAll_treeMarker (graph tree : List Char) : replaceAll treeMarker tree (page.filled graph treeMarker) =
      page.filled (replaceAll treeMarker tree graph) tree := by
  have hfirst : treeMarker = '_' :: "_TREE_DATA__".toList := by decide
  have hne : treeMarker ≠ [] := by decide
  have hangle : '<' ∉ treeMarker := by decide
  have htag : graphTag = '<' :: "script type=\"application/json\" id=\"graph-data\">".toList := by decide
  have hmiddle : '_' ∉ '\n' :: treeTag := by decide
  have hclose : '_' ∉ closeTag := by decide
  unfold SurfacePage.filled
  rw [htag, replaceAll_head hne hfirst hangle page.head_treeMarker (htag ▸ by decide),
    replaceAll_element hne hfirst hangle hclose, ← List.cons_append, replaceAll_append_of_notMem hfirst hmiddle,
    replaceAll_append hne, replaceAll_append_of_notMem hfirst hclose, replaceAll_eq_self page.tail_treeMarker]
  rfl

/-! ## What is read of it -/

theorem toLower_eq_angle {c : Char} (h : c.toLower = '<') : c = '<' := by
  by_cases hupper : 65 ≤ c.toNat ∧ c.toNat ≤ 90
  · have hcode := Lib.toNat_toLower hupper
    rw [h] at hcode
    have hangle : '<'.toNat = 60 := rfl
    omega
  · rwa [Lib.toLower_of_not_upper hupper] at h

theorem endsScript_cons {c : Char} (h : c ≠ '<') (cs : List Char) : endsScript (c :: cs) = false := by
  unfold endsScript
  rw [Bool.and_eq_false_iff]
  refine .inl (decide_eq_false fun heq => h (toLower_eq_angle ?_))
  exact (List.cons.inj heq).1

/-- A text without `<` goes up to the end tag. -/
theorem scriptText_append {text : List Char} (h : '<' ∉ text) (cs : List Char) :
    scriptText (text ++ (closeTag ++ cs)) = text := by
  induction text with
  | nil =>
    have hends : endsScript ('<' :: '/' :: 's' :: 'c' :: 'r' :: 'i' :: 'p' :: 't' :: '>' :: cs) = true := rfl
    exact if_pos hends
  | cons c text ih =>
    rw [List.mem_cons, not_or] at h
    rw [List.cons_append, scriptText, endsScript_cons fun hc => h.1 hc.symm, if_neg (by decide), ih h.2]

theorem elementText_graph {graph : List Char} (h : '<' ∉ graph) (tree : List Char) :
    elementText graphTag (page.filled graph tree) = some graph := by
  have htag : graphTag = '<' :: "script type=\"application/json\" id=\"graph-data\">".toList := by decide
  have hangle : '<' ∉ "script type=\"application/json\" id=\"graph-data\">".toList := by decide
  have hhead := page.head_graphTag
  unfold elementText SurfacePage.filled
  rw [htag] at hhead ⊢
  rw [List.cons_append, after_append_cons hangle hhead, ← List.cons_append, after_self, Option.map_some,
    scriptText_append h]

theorem elementText_tree {graph tree : List Char} (hgraph : '<' ∉ graph) (htree : '<' ∉ tree) :
    elementText treeTag (page.filled graph tree) = some tree := by
  have htag : treeTag = '<' :: "script type=\"application/json\" id=\"tree-data\">".toList := by decide
  have hangle : '<' ∉ "script type=\"application/json\" id=\"tree-data\">".toList := by decide
  have hgraphTag : graphTag = '<' :: "script type=\"application/json\" id=\"graph-data\">".toList := by decide
  have hfirst : '<' ∉ "script type=\"application/json\" id=\"graph-data\">".toList := by decide
  have hclose : closeTag = '<' :: "/script>".toList := by decide
  have hsecond : '<' ∉ "/script>".toList ++ ['\n'] := by decide
  have hhead := page.head_treeTag
  rw [htag] at hhead
  -- neither of the tags before is this one
  have hother (other : List Char) (hshort : ¬ treeTag <+: other) (hlong : ¬ other <+: treeTag) (cs : List Char) :
      ¬ treeTag <+: other ++ cs := by
    rw [prefix_append_iff]
    rintro (h | ⟨rest, h, _⟩)
    · exact hshort h
    · exact hlong ⟨rest, h.symm⟩
  have hafter : after treeTag (page.filled graph tree) = some (tree ++ (closeTag ++ page.tail)) := by
    calc after treeTag (page.filled graph tree)
      _ = after treeTag (graphTag ++ (graph ++ (closeTag ++ '\n' :: (treeTag ++ (tree ++ (closeTag ++ page.tail)))))) := by
        rw [htag, SurfacePage.filled, hgraphTag]
        exact after_append_cons hangle hhead _
      _ = after treeTag (closeTag ++ '\n' :: (treeTag ++ (tree ++ (closeTag ++ page.tail)))) := by
        have hnot := hother graphTag (by decide) (by decide)
          (graph ++ (closeTag ++ '\n' :: (treeTag ++ (tree ++ (closeTag ++ page.tail)))))
        rw [hgraphTag, List.cons_append] at hnot ⊢
        rw [after_cons_of_not_start hnot, htag, after_append_of_notMem hfirst, after_append_of_notMem hgraph]
      _ = after treeTag (treeTag ++ (tree ++ (closeTag ++ page.tail))) := by
        have hnot := hother closeTag (by decide) (by decide)
          ('\n' :: (treeTag ++ (tree ++ (closeTag ++ page.tail))))
        rw [hclose, List.cons_append] at hnot ⊢
        rw [after_cons_of_not_start hnot, htag, List.append_cons, after_append_of_notMem hsecond]
      _ = some (tree ++ (closeTag ++ page.tail)) := by
        rw [htag]
        exact after_self _
  unfold elementText
  rw [hafter, Option.map_some, scriptText_append htree]

/-! ## The text of the tree -/

/-- The first key of an object that is written is the least one. -/
theorem head_sortKeys {es : List (String × JsonValue)} {names : List String} (hes : es.map Prod.fst = names)
    {first : String} (hmem : first ∈ names) (hleast : ∀ k ∈ names, first ≤ k) :
    ∃ v rest, (JsonValue.object es).sortKeys = .object ((first, v) :: rest) := by
  have hkeys (es : List (String × JsonValue)) : (JsonValue.sortEntries es).map Prod.fst = es.map Prod.fst := by
    induction es with
    | nil => rfl
    | cons e es ih => rw [JsonValue.sortEntries, List.map_cons, ih, List.map_cons]
  show ∃ v rest, JsonValue.object ((JsonValue.sortEntries es).insertionSort fun a b => a.1 ≤ b.1) = _
  have hperm := List.perm_insertionSort (fun a b : String × JsonValue => a.1 ≤ b.1) (JsonValue.sortEntries es)
  have hsorted := List.pairwise_insertionSort (fun a b : String × JsonValue => a.1 ≤ b.1) (JsonValue.sortEntries es)
  have hfirst : first ∈ ((JsonValue.sortEntries es).insertionSort fun a b => a.1 ≤ b.1).map Prod.fst := by
    rw [(hperm.map Prod.fst).mem_iff, hkeys, hes]
    exact hmem
  cases hlist : (JsonValue.sortEntries es).insertionSort fun a b => a.1 ≤ b.1 with
  | nil =>
    rw [hlist] at hfirst
    cases hfirst
  | cons e rest =>
    rw [hlist] at hperm hsorted hfirst
    have hle : e.1 ≤ first := by
      rcases List.mem_cons.mp hfirst with rfl | hrest
      · exact le_refl _
      · obtain ⟨e', he', rfl⟩ := List.mem_map.mp hrest
        exact (List.pairwise_cons.mp hsorted).1 e' he'
    have hge : first ≤ e.1 := by
      refine hleast e.1 ?_
      rw [← hes, ← hkeys es, ← (hperm.map Prod.fst).mem_iff]
      exact List.mem_cons_self
    refine ⟨e.2, rest, ?_⟩
    rw [← le_antisymm hle hge]

/-- The text of the tree starts with a brace and the name of its first field. -/
theorem embedded_projection (F : FloatText) (T : TimeText) (projection : TreeProjection) :
    ∃ more, embedded F (projection.toJson T) = '{' :: '"' :: 'f' :: more := by
  have hobject (es : List (String × JsonValue)) (hes : es.map Prod.fst = ["schema_version", "target_id",
      "generated_at", "fingerprint", "statistics", "warnings", "tree"]) :
      ∃ more, embedded F (.object es) = '{' :: '"' :: 'f' :: more := by
    obtain ⟨v, rest, hsorted⟩ :=
      head_sortKeys hes (show "fingerprint" ∈ _ by decide) (by decide)
    have hbody : safeBody "fingerprint" = 'f' :: "ingerprint".toList := by decide
    rw [embedded_eq, hsorted, dumpsWith, hbody]
    exact ⟨_, rfl⟩
  exact hobject _ rfl

/-! ## The export -/

section Export

variable {F : FloatText} {T : TimeText} {page : SurfacePage} {snapshot : SurfaceGraphSnapshot}

theorem exportSurfaceHtml_eq {projection : TreeProjection} (h : snapshot.buildTreeProjection = .ok projection) :
    exportSurfaceHtml F T page snapshot = .ok (page.filled
      (replaceAll treeMarker (embedded F (projection.toJson T)) (embedded F (snapshot.modelDump T)))
      (embedded F (projection.toJson T))) := by
  unfold exportSurfaceHtml
  rw [h, ok_bind, pure_eq_ok, replaceAll_graphMarker, replaceAll_treeMarker]

/-- Neither element's text has a `<`, with the tree written into the graph or not. -/
theorem not_mem_replaced (projection : TreeProjection) :
    '<' ∉ replaceAll treeMarker (embedded F (projection.toJson T)) (embedded F (snapshot.modelDump T)) :=
  fun h => (mem_replaceAll h).elim (not_mem_embedded F _) (not_mem_embedded F _)

/-- With the marker in a string, the graph's element holds no JSON. -/
theorem loads_replaced_marked (hfinite : snapshot.finite = true) (hmarked : Marked snapshot.texts)
    (projection : TreeProjection) : loads F false
      (replaceAll treeMarker (embedded F (projection.toJson T)) (embedded F (snapshot.modelDump T))) = none := by
  have hsorted : Marked (snapshot.modelDump T).sortKeys.texts := by
    obtain ⟨s, hs, h⟩ := (marked_modelDump T snapshot).mpr hmarked
    exact ⟨s, (JsonValue.texts_sortKeys _).mem_iff.mpr hs, h⟩
  have hgood (s : String) (hs : ¬ treeMarker <:+: s.toList) (rest : List Char) :
      readString .plain (replaceAll treeMarker (embedded F (projection.toJson T)) (safeBody s) ++ '"' :: rest) =
        some (s.toList, rest) := by
    rw [replaceAll_eq_self ((marker_safeBody_iff s).not.mpr hs), readString_safeBody]
  rw [embedded_eq F (snapshot.modelDump T), replaceAll_dumpsWith]
  refine loads_stuck hgood (fun s hs rest p hp => ?_) ?_ hsorted
  · exact stuck_replaced (embedded_projection F T projection) hs p hp
  · exact .inr (by rw [JsonValue.finite_sortKeys, finite_modelDump, hfinite])

theorem replaced_unmarked (hmarked : ¬ Marked snapshot.texts) (new : List Char) :
    replaceAll treeMarker new (embedded F (snapshot.modelDump T)) = embedded F (snapshot.modelDump T) := by
  have hbody (s : String) (hs : s ∈ (snapshot.modelDump T).sortKeys.texts) :
      replaceAll treeMarker new (safeBody s) = safeBody s := by
    refine replaceAll_eq_self fun h => hmarked ((marked_modelDump T snapshot).mp ⟨s, ?_, ?_⟩)
    · exact (JsonValue.texts_sortKeys _).mem_iff.mp hs
    · exact (marker_safeBody_iff s).mp h
  rw [embedded_eq, replaceAll_dumpsWith]
  exact dumpsWith_congr F _ hbody

theorem FaithfulExport.finite (h : FaithfulExport F T page snapshot) : snapshot.finite = true := by
  obtain ⟨html, projection, hexport, hprojection, ⟨text, htext, _, hloads⟩, _⟩ := h
  rw [← finite_modelDump T, ← JsonValue.finite_sortKeys]
  exact loads_finite hloads

theorem FaithfulExport.unmarked (h : FaithfulExport F T page snapshot) : ¬ Marked snapshot.texts := by
  intro hmarked
  have hfinite := h.finite
  obtain ⟨html, projection, hexport, hprojection, ⟨text, htext, _, hloads⟩, _⟩ := h
  rw [exportSurfaceHtml_eq hprojection] at hexport
  obtain rfl := Except.ok.inj hexport
  rw [elementText_graph page (not_mem_replaced projection)] at htext
  obtain rfl := Option.some.inj htext
  rw [loads_replaced_marked hfinite hmarked] at hloads
  cases hloads

theorem faithfulExport_of_unmarked (hprojectable : snapshot.Projectable) (hfinite : snapshot.finite = true)
    (hunmarked : ¬ Marked snapshot.texts) : FaithfulExport F T page snapshot := by
  obtain ⟨projection, hprojection⟩ := SurfaceGraphSnapshot.buildTreeProjection_ok_iff.mpr hprojectable
  have hgraph : '<' ∉ embedded F (snapshot.modelDump T) := not_mem_embedded F _
  have htree : '<' ∉ embedded F (projection.toJson T) := not_mem_embedded F _
  refine ⟨_, projection, exportSurfaceHtml_eq hprojection, hprojection, ?_, ?_⟩
  · rw [replaced_unmarked hunmarked]
    exact ⟨_, elementText_graph page hgraph _, hgraph, loads_embedded F (by rw [finite_modelDump, hfinite])⟩
  · rw [replaced_unmarked hunmarked]
    exact ⟨_, elementText_tree page hgraph htree, htree,
      loads_embedded F (finite_projection T hprojection hfinite)⟩

/-- The export is faithful when the tree can be built, every number is finite and no string of the snapshot has the
    second marker in it. -/
theorem surface_html_faithful_iff : FaithfulExport F T page snapshot ↔
    snapshot.Projectable ∧ snapshot.finite = true ∧ ∀ s ∈ snapshot.texts, ¬ treeMarker <:+: s.toList := by
  constructor
  · intro h
    obtain ⟨_, projection, _, hprojection, _⟩ := id h
    have hprojectable := SurfaceGraphSnapshot.buildTreeProjection_ok_iff.mp ⟨projection, hprojection⟩
    exact ⟨hprojectable, h.finite, fun s hs hmarker => h.unmarked ⟨s, hs, hmarker⟩⟩
  · rintro ⟨hprojectable, hfinite, hunmarked⟩
    exact faithfulExport_of_unmarked hprojectable hfinite fun ⟨s, hs, hmarker⟩ => hunmarked s hs hmarker

end Export

/-! ## A node with the marker for its value -/

def SurfacePage.bare : SurfacePage where
  head := "<!doctype html>".toList
  tail := "</html>".toList
  head_graphMarker := by decide
  head_treeMarker := by decide
  tail_graphMarker := by decide
  tail_treeMarker := by decide
  head_graphTag := by decide
  head_treeTag := by decide

theorem observed_once : 1 ≤ 1 := Nat.le_refl 1

def markedSnapshot : SurfaceGraphSnapshot where
  targetId := "acme"
  generatedAt := 0
  fingerprint := "f"
  roots := ["node"]
  nodes := [{
    nodeId := "node"
    kind := .parameter
    value := "__TREE_DATA__"
    label := "__TREE_DATA__"
    confidence := 1
    novelty := 0
    firstSeen := 0
    lastSeen := 0
    observationCount := 1
    assetIds := []
    sources := []
    confidence_unit := one_unit
    novelty_unit := zero_unit
    observed := observed_once }]
  edges := []
  statistics := {
    nodeCount := 1
    edgeCount := 0
    observationsConsidered := 1
    observationsExcluded := 0
    nodesByKind := Dict.empty.set "PARAMETER" 1
    nodesByState := Dict.empty.set "OBSERVED" 1 }

theorem marked_value_is_not_exported :
    ¬ FaithfulExport FloatText.quotients TimeText.atEpoch SurfacePage.bare markedSnapshot := fun h =>
  h.unmarked ⟨"__TREE_DATA__", by decide, by decide⟩

end NightScout
