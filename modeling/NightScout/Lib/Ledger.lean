import NightScout.Lib.Dict

/-!
# Ledgers: counters kept beside the leases they count

A store that admits work under a limit keeps, next to the leases it granted, one counter a
bucket: admission reads the counter, never the leases. The counter is redundant, and the one fact
every admission rests on is that it is *the sum of what the live leases hold in that bucket*.

`held` is that sum, the ledger's meaning. A lease is any row; `items i r` is what the row `r` under
the key `i` holds now, the empty list for a row that is no longer live. Opening a lease is setting
a fresh key (`held_set_none`), closing one is setting its key to a row that holds nothing
(`held_set_some`), and a counter cannot underflow because one lease never holds more than all of
them (`charge_le_held`).
-/

namespace NightScout.Lib

variable {I R K A : Type*} [DecidableEq I] [DecidableEq K] [AddCommMonoid A]

/-- What a list of items puts on the bucket `k`. -/
def charge : List (K × A) → K → A
  | [], _ => 0
  | e :: es, k => (if e.1 = k then e.2 else 0) + charge es k

@[simp] theorem charge_nil (k : K) : charge ([] : List (K × A)) k = 0 := rfl

@[simp] theorem charge_cons (e : K × A) (es : List (K × A)) (k : K) :
    charge (e :: es) k = (if e.1 = k then e.2 else 0) + charge es k := rfl

theorem charge_perm {es fs : List (K × A)} (h : es.Perm fs) (k : K) : charge es k = charge fs k := by
  induction h with
  | nil => rfl
  | cons e _ ih => rw [charge_cons, charge_cons, ih]
  | swap e f es => rw [charge_cons, charge_cons, charge_cons, charge_cons, add_left_comm]
  | trans _ _ ih ih' => exact ih.trans ih'

/-- A bucket no item names is not charged. -/
theorem charge_eq_zero {es : List (K × A)} {k : K} (h : k ∉ es.map Prod.fst) : charge es k = 0 := by
  induction es with
  | nil => rfl
  | cons e es ih =>
    simp only [List.map_cons, List.mem_cons, not_or] at h
    simp [Ne.symm h.1, ih h.2]

/-- With distinct buckets, an item is all its bucket is charged. -/
theorem charge_of_mem {es : List (K × A)} {k : K} {a : A} (hnd : (es.map Prod.fst).Nodup)
    (h : (k, a) ∈ es) : charge es k = a := by
  induction es with
  | nil => simp at h
  | cons e es ih =>
    obtain ⟨hne, hes⟩ := List.nodup_cons.mp hnd
    rcases List.mem_cons.mp h with rfl | h
    · simp [charge_eq_zero hne]
    · have hk : e.1 ≠ k := fun hek => hne (hek ▸ List.mem_map_of_mem (f := Prod.fst) h)
      simp [hk, ih hes h]

/-- What the rows of `d` hold in the bucket `k`, all together. -/
def held (items : I → R → List (K × A)) (d : Dict I R) (k : K) : A :=
  d.sumBy fun i r => charge (items i r) k

omit [DecidableEq I] in
@[simp] theorem held_empty (items : I → R → List (K × A)) (k : K) : held items Dict.empty k = 0 := rfl

/-- **Opening a lease** adds its items. -/
theorem held_set_none (items : I → R → List (K × A)) {d : Dict I R} {i : I} {r : R} (h : d.get? i = none) (k : K) :
    held items (d.set i r) k = held items d k + charge (items i r) k :=
  Dict.sumBy_set_none h

/-- **Rewriting a lease** trades what it held for what it holds now. -/
theorem held_set_some (items : I → R → List (K × A)) {d : Dict I R} {i : I} {r : R} (r' : R)
    (h : d.get? i = some r) (k : K) :
    held items (d.set i r') k + charge (items i r) k = held items d k + charge (items i r') k :=
  Dict.sumBy_set_some h

/-- Two readings of the items that agree on every row hold the same. -/
theorem held_congr {items items' : I → R → List (K × A)} {d : Dict I R}
    (h : ∀ i r, d.get? i = some r → items i r = items' i r) (k : K) : held items d k = held items' d k :=
  Dict.sumBy_congr fun i r hr => by rw [h i r hr]

section Ordered

variable [PartialOrder A] [IsOrderedAddMonoid A]

theorem charge_nonneg {es : List (K × A)} (h : ∀ e ∈ es, 0 ≤ e.2) (k : K) : 0 ≤ charge es k := by
  induction es with
  | nil => exact le_refl 0
  | cons e es ih =>
    have hes : 0 ≤ charge es k := ih fun e he => h e (List.mem_cons_of_mem _ he)
    rw [charge_cons]
    split
    · exact add_nonneg (h e List.mem_cons_self) hes
    · simpa using hes

/-- **No underflow**: one lease never holds more of a bucket than all of them. -/
theorem charge_le_held (items : I → R → List (K × A)) {d : Dict I R} {i : I} {r : R} (h : d.get? i = some r)
    (hpos : ∀ i r, d.get? i = some r → ∀ e ∈ items i r, 0 ≤ e.2) (k : K) : charge (items i r) k ≤ held items d k :=
  Dict.le_sumBy (f := fun i r => charge (items i r) k) h
    fun i r hr => charge_nonneg (hpos i r hr) k

end Ordered

end NightScout.Lib
