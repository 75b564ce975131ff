import NightScout.Lib.Groups

/-!
# One element for each key

A table that keeps one element under each key: the first that comes, merged with each that comes after it. What is kept
under a key is the elements of that key merged in their order (`get?_mergeAll`), whatever came in between.
-/

namespace NightScout.Lib

variable {A K : Type*} [DecidableEq K]

section Defs

variable (key : A → K) (merge : A → A → A)

def mergeInto (best : Dict K A) (x : A) : Dict K A :=
  match best.get? (key x) with
  | none => best.set (key x) x
  | some existing => best.set (key x) (merge existing x)

def mergeAll (xs : List A) : Dict K A := xs.foldl (mergeInto key merge) .empty

/-- The elements merged in their order. -/
def mergeList : List A → Option A
  | [] => none
  | x :: xs => some (xs.foldl merge x)

end Defs

variable {key : A → K} {merge : A → A → A} {xs : List A} {k : K} {x r : A}

theorem mergeList_concat (xs : List A) (x : A) : mergeList merge (xs ++ [x]) =
    some (match mergeList merge xs with | none => x | some existing => merge existing x) := by
  cases xs with
  | nil => rfl
  | cons y ys => simp [mergeList]

/-- **What is kept under a key.** -/
theorem get?_mergeAll (xs : List A) (k : K) :
    (mergeAll key merge xs).get? k = mergeList merge (xs.filter fun x => key x = k) := by
  induction xs using List.reverseRecOn generalizing k with
  | nil => rfl
  | append_singleton xs x ih =>
    rw [mergeAll, List.foldl_append, List.foldl_cons, List.foldl_nil, ← mergeAll, List.filter_append]
    have hset : (mergeInto key merge (mergeAll key merge xs) x).get? k = if k = key x then
        some (match (mergeAll key merge xs).get? (key x) with | none => x | some existing => merge existing x)
        else (mergeAll key merge xs).get? k := by
      unfold mergeInto
      cases (mergeAll key merge xs).get? (key x) with
      | none => rw [Dict.get?_set]
      | some existing => rw [Dict.get?_set]
    rw [hset]
    by_cases hk : k = key x
    · subst hk
      rw [if_pos rfl, ih, List.filter_cons_of_pos (by simp), List.filter_nil, mergeList_concat]
    · rw [if_neg hk, ih, List.filter_cons_of_neg (by simpa using Ne.symm hk), List.filter_nil, List.append_nil]

theorem mem_values_mergeAll : r ∈ (mergeAll key merge xs).values ↔
    ∃ k, mergeList merge (xs.filter fun x => key x = k) = some r := by
  simp only [Dict.mem_values_iff, get?_mergeAll]

theorem foldl_key (hkey : ∀ a b, key a = key b → key (merge a b) = key a) (ys : List A) (y : A)
    (hsame : ∀ z ∈ ys, key z = key y) : key (ys.foldl merge y) = key y := by
  induction ys generalizing y with
  | nil => rfl
  | cons z ys ih =>
    have hyz := hkey y z (hsame z List.mem_cons_self).symm
    refine (ih _ fun z hz => ?_).trans hyz
    rw [hyz]
    exact hsame z (List.mem_cons_of_mem _ hz)

/-- A merge that keeps the key leaves an element of the key. -/
theorem key_of_kept (hkey : ∀ a b, key a = key b → key (merge a b) = key a)
    (h : mergeList merge (xs.filter fun x => key x = k) = some r) : key r = k := by
  cases hgroup : xs.filter fun x => key x = k with
  | nil =>
    rw [hgroup] at h
    cases h
  | cons y ys =>
    rw [hgroup] at h
    have hgroupKey : ∀ z ∈ y :: ys, key z = k := by
      intro z hz
      rw [← hgroup] at hz
      simpa using (List.mem_filter.mp hz).2
    have hyKey := hgroupKey y List.mem_cons_self
    rw [← Option.some.inj h, foldl_key hkey ys y fun z hz => (hgroupKey z (List.mem_cons_of_mem _ hz)).trans hyKey.symm]
    exact hyKey

/-- A merge that keeps the key leaves one element for each key. -/
theorem nodup_mergeAll (hkey : ∀ a b, key a = key b → key (merge a b) = key a) (xs : List A) :
    ((mergeAll key merge xs).values.map key).Nodup := by
  have hof : ∀ e ∈ (mergeAll key merge xs).entries, key e.2 = e.1 := by
    intro e he
    have hget := Dict.mem_entries_iff.mp he
    rw [get?_mergeAll] at hget
    exact key_of_kept hkey hget
  have hkeys : (mergeAll key merge xs).values.map key = (mergeAll key merge xs).keys := by
    unfold Dict.values Dict.keys
    rw [List.map_map]
    exact List.map_congr_left hof
  rw [hkeys]
  exact Dict.nodup_keys _

/-- Every key of an element has something kept under it. -/
theorem exists_kept (hx : x ∈ xs) : ∃ r, mergeList merge (xs.filter fun y => key y = key x) = some r := by
  have hmem : x ∈ xs.filter fun y => key y = key x := List.mem_filter.mpr ⟨hx, by simp⟩
  cases hgroup : xs.filter fun y => key y = key x with
  | nil =>
    rw [hgroup] at hmem
    cases hmem
  | cons y ys => exact ⟨_, rfl⟩

/-- A property of what is kept, from the first element and one merge. -/
theorem mergeList_induction {motive : List A → A → Prop} (first : ∀ x, motive [x] x)
    (step : ∀ xs r x, motive xs r → motive (xs ++ [x]) (merge r x))
    (h : mergeList merge xs = some r) : motive xs r := by
  induction xs using List.reverseRecOn generalizing r with
  | nil => cases h
  | append_singleton xs x ih =>
    rw [mergeList_concat, Option.some.injEq] at h
    cases hxs : mergeList merge xs with
    | none =>
      rw [hxs] at h
      subst h
      cases xs with
      | nil => exact first x
      | cons y ys => cases hxs
    | some existing =>
      rw [hxs] at h
      subst h
      exact step xs existing x (ih hxs)

/-!
## Filling a table

A loop that adds each of its inputs to the entry of its key, which it makes when there is none; an input without a key
is skipped. The entry of a key is what the inputs of that key make of a fresh one (`get?_accumulate`), whatever the
others are.
-/

variable {K A B : Type*} [DecidableEq K]

def accumulate (key : A → Option K) (fresh : A → B) (add : B → A → B) (table : Dict K B) (xs : List A) : Dict K B :=
  xs.foldl (fun table x =>
    match key x with
    | none => table
    | some k => table.set k (add ((table.get? k).getD (fresh x)) x)) table

/-- The inputs of a key. -/
def withKey (key : A → Option K) (k : K) (xs : List A) : List A := xs.filter fun x => key x = some k

variable {key : A → Option K} {fresh : A → B} {add : B → A → B} {k : K} {start : B}

theorem mem_withKey {xs : List A} {x : A} : x ∈ withKey key k xs ↔ x ∈ xs ∧ key x = some k := by
  rw [withKey, List.mem_filter, decide_eq_true_eq]

/-- **The entry of a key**, where all inputs of the key make the same fresh one. -/
theorem get?_accumulate (hfresh : ∀ x, key x = some k → fresh x = start) (xs : List A) (table : Dict K B) :
    (accumulate key fresh add table xs).get? k =
      if withKey key k xs = [] then table.get? k
      else some ((withKey key k xs).foldl add ((table.get? k).getD start)) := by
  unfold accumulate withKey
  induction xs generalizing table with
  | nil => rfl
  | cons x xs ih =>
    rw [List.foldl_cons, ih]
    cases hkey : key x with
    | none =>
      have hnot : ¬ (key x = some k) := by rw [hkey]; exact nofun
      rw [List.filter_cons_of_neg (by simp [hnot])]
    | some j =>
      by_cases hj : j = k
      · subst hj
        rw [List.filter_cons_of_pos (by simp [hkey]), if_neg (List.cons_ne_nil _ _), List.foldl_cons]
        simp only [Dict.get?_set_self, Option.getD_some, hfresh x hkey]
        split
        next hnil => rw [hnil, List.foldl_nil]
        next => rfl
      · have hne : k ≠ j := Ne.symm hj
        rw [List.filter_cons_of_neg (by simp [hkey, hj])]
        simp only [Dict.get?_set_ne _ _ hne]

/-- What the entry of a key is taken to be before it is made. -/
theorem getD_accumulate (hfresh : ∀ x, key x = some k → fresh x = start) (xs : List A) (table : Dict K B) :
    ((accumulate key fresh add table xs).get? k).getD start =
      (withKey key k xs).foldl add ((table.get? k).getD start) := by
  rw [get?_accumulate hfresh]
  split
  next hnil => rw [hnil, List.foldl_nil]
  next => rfl

theorem get?_accumulate_eq_none (hfresh : ∀ x, key x = some k → fresh x = start) (xs : List A) (table : Dict K B) :
    (accumulate key fresh add table xs).get? k = none ↔ table.get? k = none ∧ withKey key k xs = [] := by
  rw [get?_accumulate hfresh]
  split
  next hnil => simp [hnil]
  next hcons => simp [hcons]

end NightScout.Lib
