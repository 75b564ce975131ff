import Mathlib.Data.List.Lex
import Mathlib.Tactic.Linarith

/-!
# The proleptic Gregorian calendar

Days are numbered from 1, the first of January of the year 1. Every day from there on has one date (`ofOrdinal_valid`,
`toOrdinal_ofOrdinal`), and dates come in the order of their days (`toOrdinal_lt_iff`).
-/

namespace NightScout.Lib

structure Date where
  year : ℕ
  month : ℕ
  day : ℕ
  deriving DecidableEq, Repr

namespace Date

def isLeap (year : ℕ) : Bool := year % 4 = 0 && (year % 100 ≠ 0 || year % 400 = 0)

/-- The days of the years before a year. -/
def daysBeforeYear (year : ℕ) : ℕ :=
  let y := year - 1
  y * 365 + y / 4 - y / 100 + y / 400

def daysInMonth (leap : Bool) (month : ℕ) : ℕ :=
  if month = 2 then (if leap then 29 else 28) else if month ∈ [4, 6, 9, 11] then 30 else 31

/-- The days of a year before a month. -/
def daysBeforeMonth (leap : Bool) (month : ℕ) : ℕ :=
  [0, 0, 31, 59, 90, 120, 151, 181, 212, 243, 273, 304, 334].getD month 0 + if 2 < month ∧ leap then 1 else 0

structure Valid (date : Date) : Prop where
  year_pos : 1 ≤ date.year
  month_pos : 1 ≤ date.month
  month_le : date.month ≤ 12
  day_pos : 1 ≤ date.day
  day_le : date.day ≤ daysInMonth (isLeap date.year) date.month

instance (date : Date) : Decidable date.Valid :=
  decidable_of_iff (1 ≤ date.year ∧ 1 ≤ date.month ∧ date.month ≤ 12 ∧ 1 ≤ date.day ∧
      date.day ≤ daysInMonth (isLeap date.year) date.month)
    ⟨fun ⟨h₁, h₂, h₃, h₄, h₅⟩ => ⟨h₁, h₂, h₃, h₄, h₅⟩, fun ⟨h₁, h₂, h₃, h₄, h₅⟩ => ⟨h₁, h₂, h₃, h₄, h₅⟩⟩

def toOrdinal (date : Date) : ℕ :=
  daysBeforeYear date.year + daysBeforeMonth (isLeap date.year) date.month + date.day

/-- The month and day of a day of a year that is counted from 0. -/
def monthDay (leap : Bool) (n : ℕ) : ℕ × ℕ :=
  let month := (n + 50) / 32
  let month := if n < daysBeforeMonth leap month then month - 1 else month
  (month, n - daysBeforeMonth leap month + 1)

/-- `date.fromordinal`. -/
def ofOrdinal (ordinal : ℕ) : Date :=
  let n := ordinal - 1
  let n400 := n / 146097
  let n := n % 146097
  let n100 := n / 36524
  let n := n % 36524
  let n4 := n / 1461
  let n := n % 1461
  let n1 := n / 365
  let n := n % 365
  let year := n400 * 400 + 1 + n100 * 100 + n4 * 4 + n1
  if n1 = 4 ∨ n100 = 4 then ⟨year - 1, 12, 31⟩
  else
    let leap := n1 = 3 ∧ (n4 ≠ 24 ∨ n100 = 3)
    ⟨year, (monthDay leap n).1, (monthDay leap n).2⟩

/-! ## Years and months -/

theorem isLeap_iff (year : ℕ) : isLeap year = true ↔ 4 ∣ year ∧ (¬ 100 ∣ year ∨ 400 ∣ year) := by
  unfold isLeap
  rw [Bool.and_eq_true, Bool.or_eq_true, decide_eq_true_eq, decide_eq_true_eq, decide_eq_true_eq,
    Nat.dvd_iff_mod_eq_zero, Nat.dvd_iff_mod_eq_zero, Nat.dvd_iff_mod_eq_zero]

theorem daysBeforeYear_add_one (y : ℕ) : daysBeforeYear (y + 1) = y * 365 + y / 4 - y / 100 + y / 400 := rfl

theorem daysBeforeYear_succ {year : ℕ} (h : 1 ≤ year) :
    daysBeforeYear (year + 1) = daysBeforeYear year + 365 + (isLeap year).toNat := by
  obtain ⟨y, rfl⟩ := Nat.exists_eq_add_of_le' h
  have hle : y / 100 ≤ y / 4 := Nat.div_le_div_left (by decide) (by decide)
  have hhundred : 100 ∣ y + 1 → 4 ∣ y + 1 := dvd_trans (by decide)
  have hfour : 400 ∣ y + 1 → 100 ∣ y + 1 := dvd_trans (by decide)
  have hleap : (isLeap (y + 1)).toNat = if 4 ∣ y + 1 ∧ (¬ 100 ∣ y + 1 ∨ 400 ∣ y + 1) then 1 else 0 := by
    change cond (isLeap (y + 1)) 1 0 = _
    rw [Bool.cond_eq_ite, if_congr (isLeap_iff _) rfl rfl]
  rw [hleap, daysBeforeYear_add_one, daysBeforeYear_add_one, @Nat.succ_div y 4, @Nat.succ_div y 100, @Nat.succ_div y 400]
  by_cases h4 : 4 ∣ y + 1
  · by_cases h100 : 100 ∣ y + 1
    · by_cases h400 : 400 ∣ y + 1
      · rw [if_pos h4, if_pos h100, if_pos h400, if_pos ⟨h4, .inr h400⟩]
        omega
      · rw [if_pos h4, if_pos h100, if_neg h400, if_neg fun hboth => hboth.2.elim (absurd h100) h400]
        omega
    · rw [if_pos h4, if_neg h100, if_neg (mt hfour h100), if_pos ⟨h4, .inl h100⟩]
      omega
  · have h100 := mt hhundred h4
    rw [if_neg h4, if_neg h100, if_neg (mt hfour h100), if_neg fun hboth => h4 hboth.1]
    omega

theorem daysBeforeYear_mono {a b : ℕ} (ha : 1 ≤ a) (h : a ≤ b) : daysBeforeYear a ≤ daysBeforeYear b := by
  induction b, h using Nat.le_induction with
  | base => exact le_rfl
  | succ b hab ih =>
    rw [daysBeforeYear_succ (ha.trans hab)]
    omega

theorem daysBeforeMonth_succ : ∀ leap, ∀ month ≤ 11, 1 ≤ month →
    daysBeforeMonth leap (month + 1) = daysBeforeMonth leap month + daysInMonth leap month := by decide

theorem daysBeforeMonth_mono : ∀ leap, ∀ a ≤ 12, ∀ b ≤ 12, 1 ≤ a → a ≤ b →
    daysBeforeMonth leap a ≤ daysBeforeMonth leap b := by decide

/-- A month ends within its year. -/
theorem daysBeforeMonth_le : ∀ leap, ∀ month ≤ 12, 1 ≤ month →
    daysBeforeMonth leap month + daysInMonth leap month ≤ 365 + leap.toNat := by decide

/-! ## The order of days -/

section Order

variable {a b : Date}

theorem Valid.daysBeforeYear_lt (h : a.Valid) : daysBeforeYear a.year < a.toOrdinal := by
  have hday := h.day_pos
  unfold toOrdinal
  omega

theorem Valid.toOrdinal_le (h : a.Valid) : a.toOrdinal ≤ daysBeforeYear (a.year + 1) := by
  have hday := h.day_le
  have hmonth := daysBeforeMonth_le (isLeap a.year) a.month h.month_le h.month_pos
  rw [daysBeforeYear_succ h.year_pos]
  unfold toOrdinal
  omega

theorem toOrdinal_lt_of_year (ha : a.Valid) (hb : b.Valid) (h : a.year < b.year) : a.toOrdinal < b.toOrdinal :=
  ha.toOrdinal_le.trans_lt ((daysBeforeYear_mono (Nat.le_add_left 1 _) h).trans_lt hb.daysBeforeYear_lt)

theorem toOrdinal_lt_of_month (ha : a.Valid) (hb : b.Valid) (hyear : a.year = b.year) (h : a.month < b.month) :
    a.toOrdinal < b.toOrdinal := by
  have hday := ha.day_le
  have hday' := hb.day_pos
  have hbound := hb.month_le
  have hsucc := daysBeforeMonth_succ (isLeap b.year) a.month (by omega) ha.month_pos
  have hmono := daysBeforeMonth_mono (isLeap b.year) (a.month + 1) (by omega) b.month hb.month_le (by omega) h
  unfold toOrdinal
  rw [hyear] at hday ⊢
  omega

/-- **Dates come in the order of their days.** -/
theorem toOrdinal_lt_iff (ha : a.Valid) (hb : b.Valid) : a.toOrdinal < b.toOrdinal ↔
    a.year < b.year ∨ a.year = b.year ∧ (a.month < b.month ∨ a.month = b.month ∧ a.day < b.day) := by
  rcases lt_trichotomy a.year b.year with hyear | hyear | hyear
  · exact iff_of_true (toOrdinal_lt_of_year ha hb hyear) (.inl hyear)
  · rcases lt_trichotomy a.month b.month with hmonth | hmonth | hmonth
    · exact iff_of_true (toOrdinal_lt_of_month ha hb hyear hmonth) (.inr ⟨hyear, .inl hmonth⟩)
    · unfold toOrdinal
      rw [hyear, hmonth]
      omega
    · refine iff_of_false (toOrdinal_lt_of_month hb ha hyear.symm hmonth).not_gt ?_
      omega
  · refine iff_of_false (toOrdinal_lt_of_year hb ha hyear).not_gt ?_
    omega

theorem toOrdinal_inj (ha : a.Valid) (hb : b.Valid) (h : a.toOrdinal = b.toOrdinal) : a = b := by
  have hlt := mt (toOrdinal_lt_iff ha hb).mpr (by rw [h]; exact lt_irrefl _)
  have hgt := mt (toOrdinal_lt_iff hb ha).mpr (by rw [h]; exact lt_irrefl _)
  cases a
  cases b
  simp only [mk.injEq] at hlt hgt ⊢
  omega

end Order

/-! ## The date of a day -/

theorem monthDay_spec : ∀ leap : Bool, ∀ n < 366, n < 365 + leap.toNat →
    1 ≤ (monthDay leap n).1 ∧ (monthDay leap n).1 ≤ 12 ∧ 1 ≤ (monthDay leap n).2 ∧
      (monthDay leap n).2 ≤ daysInMonth leap (monthDay leap n).1 ∧
      daysBeforeMonth leap (monthDay leap n).1 + (monthDay leap n).2 = n + 1 := by decide +kernel

/-- The days of whole cycles of years. -/
theorem daysBeforeYear_cycles {n400 n100 n4 n1 : ℕ} (h100 : n100 ≤ 3) (h4 : n4 ≤ 24) (h1 : n1 ≤ 3) :
    daysBeforeYear (n400 * 400 + 1 + n100 * 100 + n4 * 4 + n1) = n400 * 146097 + n100 * 36524 + n4 * 1461 + n1 * 365 := by
  have hyear : n400 * 400 + 1 + n100 * 100 + n4 * 4 + n1 = n400 * 400 + n100 * 100 + n4 * 4 + n1 + 1 := by omega
  have hfours : (n400 * 400 + n100 * 100 + n4 * 4 + n1) / 4 = n400 * 100 + n100 * 25 + n4 := by omega
  have hhundreds : (n400 * 400 + n100 * 100 + n4 * 4 + n1) / 100 = n400 * 4 + n100 := by omega
  have hfourHundreds : (n400 * 400 + n100 * 100 + n4 * 4 + n1) / 400 = n400 := by omega
  rw [hyear, daysBeforeYear_add_one, hfours, hhundreds, hfourHundreds]
  omega

theorem isLeap_cycles {n400 n100 n4 n1 : ℕ} (h100 : n100 ≤ 3) (h4 : n4 ≤ 24) (h1 : n1 ≤ 3) :
    isLeap (n400 * 400 + 1 + n100 * 100 + n4 * 4 + n1) = true ↔ n1 = 3 ∧ (n4 ≠ 24 ∨ n100 = 3) := by
  rw [isLeap_iff]
  omega

/-- **Every day has a date.** -/
theorem ofOrdinal_spec {ordinal : ℕ} (h : 1 ≤ ordinal) :
    (ofOrdinal ordinal).Valid ∧ (ofOrdinal ordinal).toOrdinal = ordinal := by
  obtain ⟨n, rfl⟩ := Nat.exists_eq_add_of_le' h
  unfold ofOrdinal
  simp only [Nat.add_sub_cancel]
  generalize hn400 : n / 146097 = n400
  generalize hr400 : n % 146097 = r400
  generalize hn100 : r400 / 36524 = n100
  generalize hr100 : r400 % 36524 = r100
  generalize hn4 : r100 / 1461 = n4
  generalize hr4 : r100 % 1461 = r4
  generalize hn1 : r4 / 365 = n1
  generalize hr1 : r4 % 365 = r1
  have hsum : n = n400 * 146097 + n100 * 36524 + n4 * 1461 + n1 * 365 + r1 := by omega
  have h4 : n4 ≤ 24 := by omega
  have hr : r1 < 365 := by omega
  have hyears : n100 = 4 → n4 = 0 ∧ n1 = 0 ∧ r1 = 0 := by omega
  have hdays : n1 = 4 → n4 ≠ 24 ∧ r1 = 0 := by omega
  have h100 : n100 ≤ 4 := by omega
  have h1 : n1 ≤ 4 := by omega
  clear hn400 hr400 hn100 hr100 hn4 hr4 hn1 hr1
  split
  next hlast =>
    -- the last day of a leap year is one more than its share of a cycle
    obtain ⟨a, b, ha, hb, hab, hyear, hcount⟩ : ∃ a b, a ≤ 3 ∧ b ≤ 24 ∧ (b ≠ 24 ∨ a = 3) ∧
        n400 * 400 + 1 + n100 * 100 + n4 * 4 + n1 - 1 = n400 * 400 + 1 + a * 100 + b * 4 + 3 ∧
        n = n400 * 146097 + a * 36524 + b * 1461 + 3 * 365 + 365 := by
      by_cases hlast' : n100 = 4
      · obtain ⟨hn4, hn1, hr1⟩ := hyears hlast'
        refine ⟨3, 24, le_rfl, le_rfl, .inr rfl, ?_, ?_⟩
        · omega
        · subst hn4 hn1 hr1 hlast'
          linarith
      · have hn1 : n1 = 4 := hlast.resolve_right hlast'
        obtain ⟨hn4, hr1⟩ := hdays hn1
        refine ⟨n100, n4, by omega, h4, .inl hn4, by omega, ?_⟩
        subst hn1 hr1
        linarith
    have hleap : isLeap (n400 * 400 + 1 + a * 100 + b * 4 + 3) = true := (isLeap_cycles ha hb le_rfl).mpr ⟨rfl, hab⟩
    rw [hyear]
    refine ⟨⟨?_, Nat.le_add_left 1 11, le_rfl, Nat.le_add_left 1 30, ?_⟩, ?_⟩
    · show 1 ≤ n400 * 400 + 1 + a * 100 + b * 4 + 3
      omega
    · show 31 ≤ daysInMonth (isLeap (n400 * 400 + 1 + a * 100 + b * 4 + 3)) 12
      rw [hleap]
      decide
    · show daysBeforeYear (n400 * 400 + 1 + a * 100 + b * 4 + 3) +
          daysBeforeMonth (isLeap (n400 * 400 + 1 + a * 100 + b * 4 + 3)) 12 + 31 = n + 1
      rw [hleap, daysBeforeYear_cycles ha hb le_rfl, show daysBeforeMonth true 12 = 335 from rfl]
      omega
  next hlast =>
    rw [not_or] at hlast
    have h1 : n1 ≤ 3 := by omega
    have h100 : n100 ≤ 3 := by omega
    have hleap : isLeap (n400 * 400 + 1 + n100 * 100 + n4 * 4 + n1) = decide (n1 = 3 ∧ (n4 ≠ 24 ∨ n100 = 3)) := by
      rw [Bool.eq_iff_iff, isLeap_cycles h100 h4 h1, decide_eq_true_eq]
    obtain ⟨hmonth, hmonth', hday, hday', hcount⟩ :=
      monthDay_spec (decide (n1 = 3 ∧ (n4 ≠ 24 ∨ n100 = 3))) r1 (by omega) (by omega)
    refine ⟨⟨?_, hmonth, hmonth', hday, ?_⟩, ?_⟩
    · show 1 ≤ n400 * 400 + 1 + n100 * 100 + n4 * 4 + n1
      omega
    · rw [hleap]
      exact hday'
    · unfold toOrdinal
      simp only
      rw [hleap, daysBeforeYear_cycles h100 h4 h1]
      omega

end Date

end NightScout.Lib
