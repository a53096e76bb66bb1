import Axes.Lib.Text

/-!
# Exporters (`utils/observability/otlp.rs`)

The headers of the exporters are one variable of the environment, read without a way to
complain. `headers_spelled` says for every text what comes of it: the pieces between commas,
of which those without a key or without a value count for nothing.
-/

namespace Axes.Observability

open Axes.Lib

/-! ## The variable -/

def parsePair (pair : List Char) : Option (String × String) :=
  match Text.splitOnce '=' pair with
  | none => none
  | some (key, value) =>
      let key := Text.trim (String.ofList key)
      let value := Text.trim (String.ofList value)
      if key.isEmpty || value.isEmpty then none else some (key, value)

def parseOtlpHeaders (value : Option String) : List (String × String) :=
  (value.map fun raw => (raw.toList.splitOn ',').filterMap parsePair).getD []

/-- A piece that spells no header: it has no equals sign, or nothing on one side of the first. -/
inductive Blank : List Char → Prop
  | noSign {piece} : '=' ∉ piece → Blank piece
  | noKey {key value} : '=' ∉ key → Text.Padded "" key → Blank (key ++ '=' :: value)
  | noValue {key value} : '=' ∉ key → Text.Padded "" value → Blank (key ++ '=' :: value)

/-- What the pieces of a variable spell, in their order. -/
inductive Spells : List (List Char) → List (String × String) → Prop
  | done : Spells [] []
  | header {before after pieces headers} {key value : String} : '=' ∉ before →
      Text.Padded key before → Text.Padded value after → key ≠ "" → value ≠ "" →
      Spells pieces headers → Spells ((before ++ '=' :: after) :: pieces) ((key, value) :: headers)
  | blank {piece pieces headers} :
      Blank piece → Spells pieces headers → Spells (piece :: pieces) headers

theorem parsePair_of_splitOnce {before after : List Char} (hsign : '=' ∉ before) :
    parsePair (before ++ '=' :: after) =
      if Text.trim (String.ofList before) = "" ∨ Text.trim (String.ofList after) = "" then none
      else some (Text.trim (String.ofList before), Text.trim (String.ofList after)) := by
  rw [parsePair, Text.splitOnce_eq_some.mpr ⟨rfl, hsign⟩]
  simp

theorem padded_ofList {text : String} {cs : List Char} :
    Text.Padded text cs ↔ Text.trim (String.ofList cs) = text := by
  rw [Text.trim_eq_iff, String.toList_ofList]

theorem parsePair_header {before after : List Char} {key value : String} (hsign : '=' ∉ before)
    (hkey : Text.Padded key before) (hvalue : Text.Padded value after) (hkeyNe : key ≠ "")
    (hvalueNe : value ≠ "") : parsePair (before ++ '=' :: after) = some (key, value) := by
  rw [parsePair_of_splitOnce hsign, padded_ofList.mp hkey, padded_ofList.mp hvalue, if_neg]
  simp [hkeyNe, hvalueNe]

theorem parsePair_blank {piece : List Char} (h : Blank piece) : parsePair piece = none := by
  cases h with
  | noSign hsign => rw [parsePair, Text.splitOnce_eq_none.mpr hsign]
  | noKey hsign hkey =>
      rw [parsePair_of_splitOnce hsign]
      exact if_pos (.inl (padded_ofList.mp hkey))
  | noValue hsign hvalue =>
      rw [parsePair_of_splitOnce hsign]
      exact if_pos (.inr (padded_ofList.mp hvalue))

/-- Reading the pieces one by one gives something that they spell. -/
theorem spells_filterMap (pieces : List (List Char)) :
    Spells pieces (pieces.filterMap parsePair) := by
  induction pieces with
  | nil => exact .done
  | cons piece pieces ih =>
      -- a blank piece leaves no header
      have hskip : Blank piece →
          Spells (piece :: pieces) ((piece :: pieces).filterMap parsePair) := by
        intro hblank
        rw [List.filterMap_cons_none (parsePair_blank hblank)]
        exact .blank hblank ih
      cases hsplit : Text.splitOnce '=' piece with
      | none => exact hskip (.noSign (Text.splitOnce_eq_none.mp hsplit))
      | some split =>
          obtain ⟨before, after⟩ := split
          obtain ⟨rfl, hsign⟩ := Text.splitOnce_eq_some.mp hsplit
          by_cases hkey : Text.trim (String.ofList before) = ""
          · exact hskip (.noKey hsign (padded_ofList.mpr hkey))
          by_cases hvalue : Text.trim (String.ofList after) = ""
          · exact hskip (.noValue hsign (padded_ofList.mpr hvalue))
          have hheader := parsePair_header hsign (padded_ofList.mpr rfl) (padded_ofList.mpr rfl)
            hkey hvalue
          rw [List.filterMap_cons_some hheader]
          exact .header hsign (padded_ofList.mpr rfl) (padded_ofList.mpr rfl) hkey hvalue ih

/-- Nothing else is spelled by them. -/
theorem Spells.filterMap {pieces : List (List Char)} {headers : List (String × String)}
    (h : Spells pieces headers) : pieces.filterMap parsePair = headers := by
  induction h with
  | done => rfl
  | header hsign hkey hvalue hkeyNe hvalueNe _ ih =>
      rw [List.filterMap_cons_some (parsePair_header hsign hkey hvalue hkeyNe hvalueNe), ih]
  | blank hblank _ ih => rw [List.filterMap_cons_none (parsePair_blank hblank), ih]

/-- **What the variable spells is what is read from it.** -/
theorem headers_spelled (raw : String) (headers : List (String × String)) :
    parseOtlpHeaders (some raw) = headers ↔
      ∃ pieces, pieces ≠ [] ∧ (∀ piece ∈ pieces, ',' ∉ piece) ∧
        raw.toList = [','].intercalate pieces ∧ Spells pieces headers := by
  constructor
  · rintro rfl
    exact ⟨raw.toList.splitOn ',', List.splitOn_ne_nil _ _,
      fun _ hpiece => Text.not_mem_of_mem_splitOn hpiece,
      (List.intercalate_splitOn ',').symm, spells_filterMap _⟩
  · rintro ⟨pieces, hne, hcommas, hraw, hspells⟩
    show (raw.toList.splitOn ',').filterMap parsePair = headers
    rw [hraw, List.splitOn_intercalate ',' hcommas hne, hspells.filterMap]

end Axes.Observability
