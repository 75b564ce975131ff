import Mathlib.Data.List.Sort

/-!
# Lists

The few facts about lists that several components need and Mathlib does not have in this form.
-/

namespace NightScout.Lib

variable {α β γ : Type*}

/-- What a filtered map keeps of a label it preserves is a sublist of the labels. -/
theorem map_filterMap_sublist {f : α → Option β} {g : β → γ} {h : α → γ}
    (hf : ∀ x y, f x = some y → g y = h x) :
    ∀ l : List α, ((l.filterMap f).map g).Sublist (l.map h)
  | [] => .slnil
  | x :: l => by
    cases hx : f x with
    | none =>
      rw [List.filterMap_cons_none hx]
      exact (map_filterMap_sublist hf l).cons _
    | some y =>
      rw [List.filterMap_cons_some hx, List.map_cons, List.map_cons, hf x y hx]
      exact (map_filterMap_sublist hf l).cons_cons _

/-- What is beyond the limit may be dropped early. -/
theorem take_take_append (n : ℕ) (xs ys : List α) : (xs.take n ++ ys).take n = (xs ++ ys).take n := by
  rw [List.take_append, List.take_append, List.take_take, min_self, List.length_take]
  congr 2
  omega

/-- Grouping by labels that are all there keeps every element once. -/
theorem flatMap_filter_perm [DecidableEq β] (f : α → β) {labels : List β} (h : labels.Nodup) (l : List α) :
    (labels.flatMap fun b => l.filter fun x => f x = b).Perm (l.filter fun x => f x ∈ labels) := by
  induction labels with
  | nil => simp
  | cons b labels ih =>
    obtain ⟨hb, hlabels⟩ := List.nodup_cons.mp h
    rw [List.flatMap_cons]
    refine ((ih hlabels).append_left _).trans ?_
    have hsplit := List.filter_append_perm (fun x => decide (f x = b))
      (l.filter fun x => decide (f x ∈ b :: labels))
    rw [List.filter_filter, List.filter_filter] at hsplit
    refine List.Perm.trans (.of_eq ?_) hsplit
    congr 1
    · apply List.filter_congr
      intro x _
      by_cases hx : f x = b
      · simp [hx]
      · simp [hx]
    · apply List.filter_congr
      intro x _
      by_cases hx : f x = b
      · simp [hx, hb]
      · simp [hx]

/-- A `mapM` that does not raise maps the elements one by one. -/
theorem forall₂_of_mapM_ok {ε : Type*} {f : α → Except ε β} :
    ∀ {l : List α} {l' : List β}, l.mapM f = .ok l' → List.Forall₂ (fun x y => f x = .ok y) l l'
  | [], l', h => by
    cases h
    exact .nil
  | x :: l, l', h => by
    rw [List.mapM_cons] at h
    cases hx : f x with
    | error e =>
      rw [hx] at h
      cases h
    | ok y =>
      cases hl : l.mapM f with
      | error e =>
        rw [hx, hl] at h
        cases h
      | ok ys =>
        rw [hx, hl] at h
        cases h
        exact .cons hx (forall₂_of_mapM_ok hl)

theorem mem_of_forall₂_left {R : α → β → Prop} {l : List α} {l' : List β}
    (h : List.Forall₂ R l l') {x : α} (hx : x ∈ l) : ∃ y ∈ l', R x y := by
  induction h with
  | nil => cases hx
  | cons hxy hrest ih =>
    rcases List.mem_cons.mp hx with rfl | hx
    · exact ⟨_, List.mem_cons_self, hxy⟩
    · obtain ⟨y, hy, hR⟩ := ih hx
      exact ⟨y, List.mem_cons_of_mem _ hy, hR⟩

theorem mem_of_forall₂_right {R : α → β → Prop} {l : List α} {l' : List β}
    (h : List.Forall₂ R l l') {y : β} (hy : y ∈ l') : ∃ x ∈ l, R x y := by
  obtain ⟨x, hx, hR⟩ := mem_of_forall₂_left h.flip hy
  exact ⟨x, hx, hR⟩

/-- What comes before nothing else comes first. -/
theorem head?_insertionSort {r : α → α → Prop} [DecidableRel r] [Std.Total r] [IsTrans α r] {l : List α}
    {x : α} (hx : x ∈ l) (hfirst : ∀ y ∈ l, r y x → y = x) : (l.insertionSort r).head? = some x := by
  have hmem := (List.mem_insertionSort r).mpr hx
  have hsorted := List.pairwise_insertionSort r l
  cases hl : l.insertionSort r with
  | nil =>
    rw [hl] at hmem
    cases hmem
  | cons y ys =>
    rw [hl] at hmem hsorted
    rcases List.mem_cons.mp hmem with rfl | hmem
    · rfl
    · have hy : y ∈ l := (List.mem_insertionSort r).mp (hl ▸ List.mem_cons_self)
      rw [hfirst y hy ((List.pairwise_cons.mp hsorted).1 x hmem)]
      rfl

/-!
## The best of a ranking

A ranking is cut off after `n` places. If there are fewer than `n` near elements, or no others at all, the near ones come
first and are cut last exactly if each of them outranks all the others (`take_near_iff`).
-/

variable {α κ : Type*} [LinearOrder κ] {rank : α → κ} {xs : List α} {n : ℕ}

/-- What is kept comes before what is cut off. -/
theorem rank_take_lt (hsorted : xs.Pairwise fun a b => rank a < rank b) {a c : α} (ha : a ∈ xs.take n) (hc : c ∈ xs)
    (hcut : c ∉ xs.take n) : rank a < rank c := by
  rw [← List.take_append_drop n xs] at hc hsorted
  rcases List.mem_append.mp hc with hc | hc
  · exact absurd hc hcut
  · exact (List.pairwise_append.mp hsorted).2.2 a ha c hc

theorem take_near_iff (near : α → Prop) [DecidablePred near] (hsorted : xs.Pairwise fun a b => rank a < rank b)
    (hfew : (∃ a ∈ xs, ¬ near a) → (xs.filter near).length < n) :
    ((xs.take n).Pairwise (fun a b => near b → near a) ∧
        ∀ c ∈ xs, near c → c ∈ xs.take n ∨ ∀ a ∈ xs.take n, near a) ↔
      ∀ c ∈ xs, ∀ d ∈ xs, near c → ¬ near d → rank c < rank d := by
  constructor
  · rintro ⟨hpairs, hcut⟩ c hc d hd hnear hfar
    obtain ⟨i, hi, rfl⟩ := List.getElem_of_mem hc
    obtain ⟨j, hj, rfl⟩ := List.getElem_of_mem hd
    by_contra hnot
    have hne : i ≠ j := by
      rintro rfl
      exact hfar hnear
    have hlt : j < i := by
      rcases Nat.lt_or_gt_of_ne hne with hlt | hlt
      · exact absurd (List.pairwise_iff_getElem.mp hsorted i j hi hj hlt) hnot
      · exact hlt
    have hmem : ∀ (k : ℕ) (hk : k < xs.length), xs[k] ∈ xs.take n ↔ k < n := by
      intro k hk
      constructor
      · intro hkept
        by_contra hlate
        have hnodup : xs.Nodup := hsorted.imp fun hab heq => absurd (congrArg rank heq) (ne_of_lt hab)
        obtain ⟨m, hm, heq⟩ := List.getElem_of_mem hkept
        rw [List.getElem_take] at heq
        rw [List.length_take] at hm
        have hsame : m = k := (List.Nodup.getElem_inj_iff hnodup).mp heq
        omega
      · intro hk'
        exact List.mem_take_iff_getElem.mpr ⟨k, by omega, rfl⟩
    by_cases hkept : i < n
    · have hj' : j < (xs.take n).length := by rw [List.length_take]; omega
      have hi' : i < (xs.take n).length := by rw [List.length_take]; omega
      have hpair := List.pairwise_iff_getElem.mp hpairs j i hj' hi' hlt
      rw [List.getElem_take, List.getElem_take] at hpair
      exact hfar (hpair hnear)
    · have hall := (hcut _ hc hnear).resolve_left fun hin => hkept ((hmem i hi).mp hin)
      by_cases hd' : j < n
      · exact hfar (hall _ ((hmem j hj).mpr hd'))
      · -- all that is kept is near, and there is too much of it
        have hfull : (xs.take n).length = n := by rw [List.length_take]; omega
        have hsub : (xs.take n).Sublist (xs.filter near) := by
          have hself : (xs.take n).filter near = xs.take n := List.filter_eq_self.mpr fun a ha => decide_eq_true (hall a ha)
          rw [← hself]
          exact (List.take_sublist n xs).filter _
        have hle := hsub.length_le
        have hlt' := hfew ⟨_, hd, hfar⟩
        omega
  · intro houtrank
    refine ⟨?_, fun c hc hnear => ?_⟩
    · refine List.Pairwise.imp_of_mem ?_ (hsorted.sublist (List.take_sublist n xs))
      intro a b ha hb hlt hnear
      by_contra hfar
      exact lt_asymm hlt (houtrank b (List.mem_of_mem_take hb) a (List.mem_of_mem_take ha) hnear hfar)
    · by_cases hkept : c ∈ xs.take n
      · exact .inl hkept
      · refine .inr fun a ha => ?_
        by_contra hfar
        exact lt_asymm (rank_take_lt hsorted ha hc hkept) (houtrank c hc a (List.mem_of_mem_take ha) hnear hfar)

end NightScout.Lib
