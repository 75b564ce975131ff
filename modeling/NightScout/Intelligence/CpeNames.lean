import NightScout.Lib.Escapes
import NightScout.Policy.Domains

/-!
# CPE names

`render_cpe23` and `split_cpe23` of `recon/intelligence/vulnerabilities.py`: a CPE 2.3 name is thirteen components
between colons, of which the vendor, the product and the version are escaped.
-/

namespace NightScout

open Lib

inductive CpePart where
  | application | operatingSystem | hardware
  deriving DecidableEq, Repr

def CpePart.value : CpePart → String
  | application => "a"
  | operatingSystem => "o"
  | hardware => "h"

/-- The characters that `escape_cpe_component` escapes. -/
def isCpeSpecial (c : Char) : Bool :=
  c ∈ ['\\', ':', '*', '?', '!', '"', '#', '$', '%', '&', '\x27', '(', ')', '+', ',', '/', ';', '<', '=', '>', '@', '[',
    ']', '^', '\x60', '\x7b', '|', '\x7d', '~']

/-- The text that a component stands for: stripped, in lower case. -/
def cpeNormalized (tables : Tables) (value : String) : String := strLower tables (strip value)

def escapeCpeComponent (tables : Tables) (value : String) : String :=
  String.ofList (escapeText '\\' isCpeSpecial (cpeNormalized tables value).toList)

def unescapeCpeComponent (value : String) : String := String.ofList (unescapeText '\\' false value.toList)

/-- The components of `render_cpe23`. -/
def cpeComponents (tables : Tables) (part : CpePart) (vendor product version : String) : List String :=
  ["cpe", "2.3", part.value, escapeCpeComponent tables vendor, escapeCpeComponent tables product,
    escapeCpeComponent tables version, "*", "*", "*", "*", "*", "*", "*"]

def renderCpe23 (tables : Tables) (part : CpePart) (vendor product version : String) : String :=
  String.intercalate ":" (cpeComponents tables part vendor product version)

def splitCpe23 (value : String) : Option (List String) :=
  let components := (splitEscaped '\\' ':' false [] value.toList).map String.ofList
  if components.length ≠ 13 ∨ components[0]? ≠ some "cpe" ∨ components[1]? ≠ some "2.3" then none
  else some components

section RoundTrip

variable (tables : Tables)

theorem unescapeCpeComponent_escape (value : String) :
    unescapeCpeComponent (escapeCpeComponent tables value) = cpeNormalized tables value := by
  rw [unescapeCpeComponent, escapeCpeComponent, String.toList_ofList, unescapeText_escapeText (by decide),
    String.ofList_toList]

/-- No component of a name is split. -/
theorem whole_cpeComponents (part : CpePart) (vendor product version : String) :
    ∀ piece ∈ (cpeComponents tables part vendor product version).map String.toList, Whole '\\' ':' piece := by
  have hescaped : ∀ value : String, Whole '\\' ':' (escapeCpeComponent tables value).toList := by
    intro value
    rw [escapeCpeComponent, String.toList_ofList]
    exact whole_escapeText (by decide) (by decide) _
  have hplain : ∀ text : String, '\\' ∉ text.toList → ':' ∉ text.toList → Whole '\\' ':' text.toList :=
    fun text => whole_of_plain
  have hpart : Whole '\\' ':' part.value.toList := by
    cases part with
    | application => exact hplain "a" (by decide) (by decide)
    | operatingSystem => exact hplain "o" (by decide) (by decide)
    | hardware => exact hplain "h" (by decide) (by decide)
  have hany : Whole '\\' ':' "*".toList := hplain "*" (by decide) (by decide)
  have hcpe : Whole '\\' ':' "cpe".toList := hplain "cpe" (by decide) (by decide)
  have hversion : Whole '\\' ':' "2.3".toList := hplain "2.3" (by decide) (by decide)
  simp only [cpeComponents, List.map_cons, List.map_nil, List.forall_mem_cons, List.not_mem_nil, false_implies,
    implies_true, and_true]
  exact ⟨hcpe, hversion, hpart, hescaped vendor, hescaped product, hescaped version, hany, hany, hany, hany, hany, hany,
    hany⟩

/-- **What is rendered is split.** -/
theorem splitCpe23_render (part : CpePart) (vendor product version : String) :
    splitCpe23 (renderCpe23 tables part vendor product version) =
      some (cpeComponents tables part vendor product version) := by
  have hsplit : splitEscaped '\\' ':' false [] (renderCpe23 tables part vendor product version).toList =
      (cpeComponents tables part vendor product version).map String.toList := by
    have htext : (renderCpe23 tables part vendor product version).toList =
        List.intercalate [':'] ((cpeComponents tables part vendor product version).map String.toList) :=
      String.toList_intercalate
    rw [htext]
    exact splitEscaped_intercalate (by decide) (whole_cpeComponents tables part vendor product version)
  have hback : ((cpeComponents tables part vendor product version).map String.toList).map String.ofList =
      cpeComponents tables part vendor product version := by
    rw [List.map_map]
    conv_rhs => rw [← List.map_id (cpeComponents tables part vendor product version)]
    exact List.map_congr_left fun text _ => String.ofList_toList
  rw [splitCpe23, hsplit, hback]
  rfl

/-- **The CPE codec.** A rendered name has thirteen components, which give the normalised identity back, so that two
    identities have two names. -/
theorem cpe23_round_trip (tables : Tables) (part : CpePart) (vendor product version : String) :
    (∃ components, splitCpe23 (renderCpe23 tables part vendor product version) = some components ∧
      components.length = 13 ∧ components[2]? = some part.value ∧
      components[3]?.map unescapeCpeComponent = some (cpeNormalized tables vendor) ∧
      components[4]?.map unescapeCpeComponent = some (cpeNormalized tables product) ∧
      components[5]?.map unescapeCpeComponent = some (cpeNormalized tables version)) ∧
    ∀ (part' : CpePart) (vendor' product' version' : String),
      renderCpe23 tables part vendor product version = renderCpe23 tables part' vendor' product' version' →
        part = part' ∧ cpeNormalized tables vendor = cpeNormalized tables vendor' ∧
          cpeNormalized tables product = cpeNormalized tables product' ∧
          cpeNormalized tables version = cpeNormalized tables version' := by
  have hunescape := unescapeCpeComponent_escape tables
  refine ⟨⟨_, splitCpe23_render tables part vendor product version, rfl, rfl, ?_, ?_, ?_⟩, ?_⟩
  · exact congrArg some (hunescape vendor)
  · exact congrArg some (hunescape product)
  · exact congrArg some (hunescape version)
  · intro part' vendor' product' version' h
    have hsplit := splitCpe23_render tables part vendor product version
    rw [h, splitCpe23_render] at hsplit
    simp only [cpeComponents, Option.some.injEq, List.cons.injEq, true_and, and_true] at hsplit
    obtain ⟨hpart, hvendor, hproduct, hversion⟩ := hsplit
    refine ⟨?_, ?_, ?_, ?_⟩
    · revert hpart
      cases part <;> cases part' <;> decide
    · rw [← hunescape, ← hvendor, hunescape]
    · rw [← hunescape, ← hproduct, hunescape]
    · rw [← hunescape, ← hversion, hunescape]

end RoundTrip

end NightScout
