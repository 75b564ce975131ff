import NightScout.Workers.DnsNames

/-!
# Names under a suffix

A label before normal labels: if the name is accepted at all, only the new label may have been rewritten
(`normalizeDnsName_cons`), so the name lies under the suffix.
-/

namespace NightScout

open Lib

variable {tables : Tables} {label : List Char} {ls : List (List Char)} {host suffix : String}

theorem ne_of_isSubdomain (h : isSubdomain host suffix = true) : host ≠ suffix := by
  rintro rfl
  unfold isSubdomain at h
  have hlength := (List.isSuffixOf_iff_suffix.mp h).length_le
  rw [List.length_cons] at hlength
  omega

theorem isSubdomain_joined (hne : ls ≠ []) : isSubdomain (String.ofList (['.'].intercalate (label :: ls)))
    (String.ofList (['.'].intercalate ls)) = true := by
  obtain ⟨first, rest, rfl⟩ := List.exists_cons_of_ne_nil hne
  unfold isSubdomain
  rw [List.isSuffixOf_iff_suffix, String.toList_ofList, String.toList_ofList, List.intercalate_cons_cons]
  exact ⟨label, by rw [List.append_assoc, List.singleton_append]⟩

theorem rstripDots_of_last {cs : List Char} (h : cs.getLast? ≠ some '.') :
    rstripDots (String.ofList cs) = String.ofList cs := by
  unfold rstripDots
  rw [String.toList_ofList, List.rdropWhile_eq_self_iff.mpr]
  intro hcs hdot
  apply h
  rw [List.getLast?_eq_getLast_of_ne_nil hcs, of_decide_eq_true hdot]

/-- A name with one more label in front. -/
theorem normalizeDnsName_cons (hchars : ∀ c ∈ label, HostChar c ∧ c ≠ '.') (hlabel : label ≠ [])
    (hls : ∀ l ∈ ls, HostLabel l) (hne : ls ≠ [])
    (h : normalizeDnsName tables (String.ofList (['.'].intercalate (label :: ls))) = .ok host) :
    ∃ encoded, HostLabel encoded ∧ host = String.ofList (['.'].intercalate (encoded :: ls)) := by
  have hhost : ∀ c ∈ ['.'].intercalate (label :: ls), HostChar c := by
    intro c hc
    rcases mem_intercalate hc with rfl | ⟨l, hl, hmem⟩
    · exact .inr (.inr (.inr rfl))
    · rcases List.mem_cons.mp hl with rfl | hl
      · exact (hchars c hmem).1
      · exact (hls l hl).hostChar hmem
  have hdots : ∀ l ∈ label :: ls, '.' ∉ l := by
    intro l hl
    rcases List.mem_cons.mp hl with rfl | hl
    · exact fun hmem => (hchars '.' hmem).2 rfl
    · exact (hls l hl).dot_notMem
  have hlast : (['.'].intercalate (label :: ls)).getLast? ≠ some '.' := by
    have hnil : ∀ l ∈ label :: ls, l ≠ [] := by
      intro l hl
      rcases List.mem_cons.mp hl with rfl | hl
      · exact hlabel
      · exact (hls l hl).2.2.1
    rw [getLast?_intercalate '.' hnil (List.cons_ne_nil label ls)]
    exact fun hdot => hdots _ (List.getLast_mem _) (List.mem_of_getLast? hdot)
  obtain ⟨encoded, hencoded, -, -, hjoined⟩ := normalizeDnsName_encoded h
  rw [strip_hostChars hhost, strLower_hostChars hhost, rstripDots_of_last hlast] at hencoded
  have hlabels : labels (String.ofList (['.'].intercalate (label :: ls))) = label :: ls := by
    unfold labels
    rw [String.toList_ofList]
    exact List.splitOn_intercalate '.' hdots (List.cons_ne_nil label ls)
  rw [hlabels, List.mapM_cons] at hencoded
  obtain ⟨first, hfirst, hencoded⟩ := bind_ok hencoded
  rw [mapM_encodeHostLabel hls, ok_bind] at hencoded
  cases hencoded
  exact ⟨first, encodeHostLabel_ok hfirst, hjoined⟩

/-- Such a name lies under the suffix. -/
theorem isSubdomain_of_cons (hchars : ∀ c ∈ label, HostChar c ∧ c ≠ '.') (hlabel : label ≠ [])
    (hls : ∀ l ∈ ls, HostLabel l) (hne : ls ≠ [])
    (h : normalizeDnsName tables (String.ofList (['.'].intercalate (label :: ls))) = .ok host) :
    isSubdomain host (String.ofList (['.'].intercalate ls)) = true := by
  obtain ⟨encoded, -, rfl⟩ := normalizeDnsName_cons hchars hlabel hls hne h
  exact isSubdomain_joined hne

end NightScout
