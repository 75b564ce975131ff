import Mathlib.Data.String.Basic
import Mathlib.Data.List.DropRight

/-!
# ASCII letters

The letters by their codes, and what `Char.toLower` and `Char.toUpper` do to them. The kinds of a character are read
off `Char.toNat`, so that what remains of a question about characters is arithmetic.
-/

namespace NightScout.Lib

variable {c : Char}

theorem isUpper_iff : c.isUpper = true ↔ 65 ≤ c.toNat ∧ c.toNat ≤ 90 := by
  show decide (c.val ≥ 'A'.val ∧ c.val ≤ 'Z'.val) = true ↔ _
  rw [decide_eq_true_eq, ge_iff_le, UInt32.le_iff_toNat_le, UInt32.le_iff_toNat_le]
  rfl

theorem isLower_iff : c.isLower = true ↔ 97 ≤ c.toNat ∧ c.toNat ≤ 122 := by
  show (decide (c.val ≥ 'a'.val) && decide (c.val ≤ 'z'.val)) = true ↔ _
  rw [Bool.and_eq_true, decide_eq_true_eq, decide_eq_true_eq, ge_iff_le, UInt32.le_iff_toNat_le,
    UInt32.le_iff_toNat_le]
  rfl

theorem isAlpha_iff : c.isAlpha = true ↔ c.isUpper = true ∨ c.isLower = true := by
  show (c.isUpper || c.isLower) = true ↔ _
  rw [Bool.or_eq_true]

theorem isDigit_iff : c.isDigit = true ↔ 48 ≤ c.toNat ∧ c.toNat ≤ 57 := Char.isDigit_iff_toNat

/-! ## Lower case -/

theorem toNat_toLower (h : 65 ≤ c.toNat ∧ c.toNat ≤ 90) : c.toLower.toNat = c.toNat + 32 := by
  have hupper : c.val ≥ 'A'.val ∧ c.val ≤ 'Z'.val :=
    ⟨UInt32.le_iff_toNat_le.mpr h.1, UInt32.le_iff_toNat_le.mpr h.2⟩
  have hval : c.toLower.val = c.val + ('a'.val - 'A'.val) := congrArg Char.val (dif_pos hupper)
  have hshift : ('a'.val - 'A'.val).toNat = 32 := by decide
  have hcode : c.val.toNat ≤ 90 := h.2
  show c.toLower.val.toNat = c.val.toNat + 32
  rw [hval, UInt32.toNat_add, hshift]
  omega

theorem toLower_of_not_upper (h : ¬ (65 ≤ c.toNat ∧ c.toNat ≤ 90)) : c.toLower = c := by
  refine dif_neg fun hupper => h ⟨?_, ?_⟩
  · exact UInt32.le_iff_toNat_le.mp hupper.1
  · exact UInt32.le_iff_toNat_le.mp hupper.2

theorem toLower_toLower (c : Char) : c.toLower.toLower = c.toLower := by
  by_cases h : 65 ≤ c.toNat ∧ c.toNat ≤ 90
  · have hcode := toNat_toLower h
    exact toLower_of_not_upper (by omega)
  · rw [toLower_of_not_upper h]
    exact toLower_of_not_upper h

/-! ## Upper case -/

theorem toNat_toUpper (h : 97 ≤ c.toNat ∧ c.toNat ≤ 122) : c.toUpper.toNat = c.toNat - 32 := by
  have hlower : 'a'.val ≤ c.val ∧ c.val ≤ 'z'.val :=
    ⟨UInt32.le_iff_toNat_le.mpr h.1, UInt32.le_iff_toNat_le.mpr h.2⟩
  have hval : c.toUpper.val = c.val + ('A'.val - 'a'.val) := by
    delta Char.toUpper
    rw [dif_pos hlower]
  have hshift : ('A'.val - 'a'.val).toNat = 4294967264 := by
    rw [UInt32.toNat_sub]
    rfl
  have hfrom : 97 ≤ c.val.toNat := h.1
  have hto : c.val.toNat ≤ 122 := h.2
  show c.toUpper.val.toNat = c.val.toNat - 32
  rw [hval, UInt32.toNat_add, hshift]
  omega

theorem toUpper_of_not_lower (h : ¬ (97 ≤ c.toNat ∧ c.toNat ≤ 122)) : c.toUpper = c := by
  refine dif_neg fun hlower => h ⟨?_, ?_⟩
  · exact UInt32.le_iff_toNat_le.mp hlower.1
  · exact UInt32.le_iff_toNat_le.mp hlower.2

/-!
## Mappings of texts, character by character

`Mapped image text out`: each character of `text` becomes one of its images in `out`. A character may have
several images, since a mapping may look at the neighbours (a final sigma). `CaseImage` is what a case mapping
of Unicode keeps to: what it writes it leaves alone, and the `plain` characters (white space, punctuation) come
from themselves only. So what is cut off at plain characters is cut off before as after.
-/

variable {α : Type*} {image : α → List α → Prop} {plain : α → Prop} {text out : List α}

/-- Each element becomes one of its images. -/
inductive Mapped (image : α → List α → Prop) : List α → List α → Prop
  | nil : Mapped image [] []
  | cons {c : α} {piece text out : List α} (hpiece : image c piece) (hrest : Mapped image text out) :
    Mapped image (c :: text) (piece ++ out)

/-- The images of a case mapping. -/
structure CaseImage (plain : α → Prop) (image : α → List α → Prop) : Prop where
  nonempty : ∀ c piece, image c piece → piece ≠ []
  settled : ∀ c piece, image c piece → ∀ d ∈ piece, ∀ again, image d again → again = [d]
  kept : ∀ c piece, image c piece → plain c → piece = [c]
  fresh : ∀ c piece, image c piece → ∀ d ∈ piece, plain d → d = c

namespace Mapped

theorem append {text' out' : List α} (h : Mapped image text out) (h' : Mapped image text' out') :
    Mapped image (text ++ text') (out ++ out') := by
  induction h with
  | nil => exact h'
  | cons hpiece _ ih =>
    rw [List.cons_append, List.append_assoc]
    exact .cons hpiece ih

theorem single {c : α} {piece : List α} (h : image c piece) : Mapped image [c] piece := by
  have hmapped := Mapped.cons h .nil
  rwa [List.append_nil] at hmapped

/-- The images of two pieces are the pieces of the image. -/
theorem of_append {a b : List α} (h : Mapped image (a ++ b) out) :
    ∃ front back, out = front ++ back ∧ Mapped image a front ∧ Mapped image b back := by
  induction a generalizing out with
  | nil => exact ⟨[], out, rfl, .nil, h⟩
  | cons c a ih =>
    rw [List.cons_append] at h
    cases h with
    | cons hpiece hrest =>
      obtain ⟨front, back, rfl, hfront, hback⟩ := ih hrest
      exact ⟨_ ++ front, back, (List.append_assoc _ _ _).symm, .cons hpiece hfront, hback⟩

theorem exists_image {d : α} (h : Mapped image text out) (hd : d ∈ out) :
    ∃ c ∈ text, ∃ piece, image c piece ∧ d ∈ piece := by
  induction h with
  | nil => cases hd
  | cons hpiece _ ih =>
    rcases List.mem_append.mp hd with hd | hd
    · exact ⟨_, List.mem_cons_self, _, hpiece, hd⟩
    · obtain ⟨c, hc, hrest⟩ := ih hd
      exact ⟨c, List.mem_cons_of_mem _ hc, hrest⟩

/-- What is settled stays as it is. -/
theorem eq_self (h : Mapped image text out) (hsettled : ∀ c ∈ text, ∀ again, image c again → again = [c]) :
    out = text := by
  induction h with
  | nil => rfl
  | cons hpiece _ ih =>
    rw [hsettled _ List.mem_cons_self _ hpiece, ih fun c hc => hsettled c (List.mem_cons_of_mem _ hc)]
    rfl

variable (himage : CaseImage plain image)

include himage

theorem eq_nil_iff (h : Mapped image text out) : out = [] ↔ text = [] := by
  cases h with
  | nil => exact Iff.rfl
  | cons hpiece hrest => simp [himage.nonempty _ _ hpiece]

/-- A plain character is written for itself only. -/
theorem mem_of_plain {d : α} (h : Mapped image text out) (hd : d ∈ out) (hplain : plain d) : d ∈ text := by
  obtain ⟨c, hc, piece, hpiece, hin⟩ := h.exists_image hd
  rwa [himage.fresh c piece hpiece d hin hplain]

variable {p : α → Bool} (hp : ∀ c, p c = true → plain c)

include hp

/-- A text starts with a plain character before as after. -/
theorem head?_any (h : Mapped image text out) : out.head?.any p = text.head?.any p := by
  cases h with
  | nil => rfl
  | @cons c piece text out hpiece hrest =>
    obtain ⟨d, rest, rfl⟩ := List.exists_cons_of_ne_nil (himage.nonempty _ _ hpiece)
    simp only [List.cons_append, List.head?_cons, Option.any_some]
    rw [Bool.eq_iff_iff]
    constructor
    · intro hd
      rwa [himage.fresh c _ hpiece d List.mem_cons_self (hp d hd)] at hd
    · intro hc
      rwa [(List.cons.inj (himage.kept _ _ hpiece (hp c hc))).1]

/-- A text ends with a plain character before as after. -/
theorem getLast?_any (h : Mapped image text out) : out.getLast?.any p = text.getLast?.any p := by
  cases text using List.reverseRecOn with
  | nil =>
    cases h
    rfl
  | append_singleton text c =>
    obtain ⟨front, back, rfl, hfront, hback⟩ := h.of_append
    cases hback with
    | @cons _ piece _ _ hpiece hnil =>
      cases hnil
      have hne := himage.nonempty _ _ hpiece
      rw [List.append_nil, List.getLast?_append_of_ne_nil _ hne, List.getLast?_concat,
        List.getLast?_eq_some_getLast hne, Option.any_some, Option.any_some, Bool.eq_iff_iff]
      constructor
      · intro hd
        rwa [himage.fresh c _ hpiece _ (List.getLast_mem hne) (hp _ hd)] at hd
      · intro hc
        have hpieces := himage.kept _ _ hpiece (hp c hc)
        subst hpieces
        exact hc

/-- What is cut off at the end is cut off before as after. -/
theorem rdropWhile (h : Mapped image text out) : Mapped image (text.rdropWhile p) (out.rdropWhile p) := by
  induction text using List.reverseRecOn generalizing out with
  | nil =>
    cases h
    exact .nil
  | append_singleton text c ih =>
    obtain ⟨front, back, rfl, hfront, hback⟩ := h.of_append
    cases hback with
    | @cons _ piece _ _ hpiece hnil =>
      cases hnil
      rw [List.append_nil]
      cases hc : p c with
      | true =>
        rw [himage.kept _ _ hpiece (hp c hc), List.rdropWhile_concat_pos _ _ _ hc,
          List.rdropWhile_concat_pos _ _ _ hc]
        exact ih hfront
      | false =>
        have hlast : piece = piece.dropLast ++ [piece.getLast (himage.nonempty _ _ hpiece)] :=
          (List.dropLast_append_getLast _).symm
        have hd : ¬ p (piece.getLast (himage.nonempty _ _ hpiece)) = true := by
          intro hd
          rw [himage.fresh c _ hpiece _ (List.getLast_mem _) (hp _ hd)] at hd
          rw [hd] at hc
          cases hc
        rw [List.rdropWhile_concat_neg _ _ _ (by rw [hc]; decide), hlast, ← List.append_assoc,
          List.rdropWhile_concat_neg _ _ _ hd, List.append_assoc, ← hlast]
        exact hfront.append (.single hpiece)

omit hp in
/-- A plain text stands at the start before as after. -/
theorem prefix_iff {start : List α} (h : Mapped image text out) (hplain : ∀ c ∈ start, plain c) :
    start <+: out ↔ start <+: text := by
  induction h generalizing start with
  | nil => exact Iff.rfl
  | @cons c piece text out hpiece hrest ih =>
    cases start with
    | nil => simp
    | cons s start =>
      obtain ⟨hs, hstart⟩ := List.forall_mem_cons.mp hplain
      by_cases hc : s = c
      · subst hc
        rw [himage.kept _ _ hpiece hs, List.singleton_append, List.cons_prefix_cons, List.cons_prefix_cons,
          ih hstart]
      · obtain ⟨d, rest, rfl⟩ := List.exists_cons_of_ne_nil (himage.nonempty _ _ hpiece)
        rw [List.cons_append, List.cons_prefix_cons, List.cons_prefix_cons]
        refine iff_of_false ?_ fun hboth => hc hboth.1
        rintro ⟨rfl, -⟩
        exact hc (himage.fresh c _ hpiece s List.mem_cons_self hs)

end Mapped

end NightScout.Lib
