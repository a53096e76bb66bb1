import Axes.Lib.JsonGrammar

/-!
# JSON lines

Values written one to a line. A printed value has no control characters, so it stays on its
line whatever strings it holds, and the lines are read back as the values.
-/

namespace Axes.Lib

namespace Json

/-! ## Printed values have no control characters -/

/-- A text that may stand on a line of its own. -/
def Printable (cs : List Char) : Prop := ∀ c ∈ cs, 32 ≤ c.toNat

instance {cs : List Char} : Decidable (Printable cs) :=
  List.decidableBAll (fun c : Char => 32 ≤ c.toNat) cs

theorem Printable.append {cs ds : List Char} (hcs : Printable cs) (hds : Printable ds) :
    Printable (cs ++ ds) := by
  intro c hc
  rcases List.mem_append.mp hc with h | h
  · exact hcs c h
  · exact hds c h

theorem Printable.cons {c : Char} {cs : List Char} (hc : 32 ≤ c.toNat) (hcs : Printable cs) :
    Printable (c :: cs) := by
  intro d hd
  rcases List.mem_cons.mp hd with rfl | h
  · exact hc
  · exact hcs d h

theorem printable_nil : Printable [] := fun _ h => (List.not_mem_nil h).elim

theorem printable_of_digits {cs : List Char} (h : ∀ c ∈ cs, c.isDigit = true) : Printable cs := by
  intro c hc
  have hdigit := h c hc
  simp only [Char.isDigit, Bool.and_eq_true, decide_eq_true_eq] at hdigit
  have hzero : (48 : UInt32) ≤ c.val := hdigit.1
  have hnat : 48 ≤ c.val.toNat := hzero
  exact Nat.le_trans (by omega) hnat

theorem printable_toDigits (n : Nat) : Printable (Nat.toDigits 10 n) :=
  printable_of_digits fun _ hc => Nat.isDigit_of_mem_toDigits (by decide) (by decide) hc

theorem printable_hexDigit : ∀ {n : Nat}, n < 16 → 32 ≤ (hexDigit n).toNat := by
  decide

theorem printable_escape (c : Char) : Printable (escape c) := by
  unfold escape
  split
  · decide
  split
  · decide
  split
  · decide
  split
  · decide
  split
  · decide
  split
  · decide
  split
  · decide
  split
  · next hcontrol =>
      have hhigh := printable_hexDigit (n := c.toNat / 16) (by omega)
      have hlow := printable_hexDigit (n := c.toNat % 16) (by omega)
      exact .cons (by decide) (.cons (by decide) (.cons (by decide) (.cons (by decide)
        (.cons hhigh (.cons hlow printable_nil)))))
  · next hprintable =>
      refine .cons ?_ printable_nil
      omega

theorem printable_string (s : Option String) : Printable (printString s) := by
  cases s with
  | none =>
      show Printable ['"', '\\', 'u', 'd', '8', '0', '0', '"']
      decide
  | some s =>
      refine .cons (by decide) (.append ?_ (.cons (by decide) printable_nil))
      intro c hc
      obtain ⟨d, -, hescaped⟩ := List.mem_flatMap.mp hc
      exact printable_escape d c hescaped

theorem printable_number (n : Number) : Printable (printNumber n) := by
  have hfraction : Printable (printFraction n.fraction) := by
    cases n.fraction with
    | none => exact printable_nil
    | some ds => exact .cons (by decide) (printable_of_digits ds.digits)
  have hexponent : Printable (printExponent n.exponent) := by
    cases n.exponent with
    | none => exact printable_nil
    | some e =>
        obtain ⟨upper, s, ds⟩ := e
        have hsign : Printable (printSign s) := by
          rcases s with _ | _ | _
          · exact printable_nil
          · exact .cons (by decide) printable_nil
          · exact .cons (by decide) printable_nil
        have hdigits := hsign.append (printable_of_digits ds.digits)
        cases upper with
        | false => exact .cons (show 32 ≤ 'e'.toNat by decide) hdigits
        | true => exact .cons (show 32 ≤ 'E'.toNat by decide) hdigits
  have hunsigned : Printable (printUnsigned n) :=
    (printable_toDigits n.whole).append (hfraction.append hexponent)
  unfold printNumber
  split
  · exact .cons (by decide) hunsigned
  · exact hunsigned

mutual

/-- A printed value has no control characters, whatever its strings are. -/
theorem printable_print : ∀ j : Json, Printable (print j)
  | .null => by unfold print; decide
  | .bool true => by unfold print; decide
  | .bool false => by unfold print; decide
  | .num n => printable_number n
  | .str s => printable_string s
  | .arr items =>
      .cons (by decide) ((printable_items items).append (.cons (by decide) printable_nil))
  | .obj members =>
      .cons (by decide) ((printable_members members).append (.cons (by decide) printable_nil))

theorem printable_items : ∀ js : List Json, Printable (printItems js)
  | [] => printable_nil
  | [j] => printable_print j
  | j :: k :: js =>
      (printable_print j).append (.cons (by decide) (printable_items (k :: js)))

theorem printable_members : ∀ ms : List (Option String × Json), Printable (printMembers ms)
  | [] => printable_nil
  | [(key, j)] => (printable_string key).append (.cons (by decide) (printable_print j))
  | (key, j) :: m :: ms =>
      (printable_string key).append (.cons (by decide)
        ((printable_print j).append (.cons (by decide) (printable_members (m :: ms)))))

end

/-! ## Lines -/

def writeLine (j : Json) : List Char := print j ++ ['\n']

/-- Each line is a value; the text ends with the last line. -/
def readLines (text : List Char) : Option (List Json) :=
  (text.splitOn '\n').dropLast.mapM parse

theorem splitOn_lines (js : List Json) :
    (js.flatMap writeLine).splitOn '\n' = js.map print ++ [[]] := by
  induction js with
  | nil => rfl
  | cons j js ih =>
      have hline : '\n' ∉ print j := by
        intro hmem
        have hprintable := printable_print j '\n' hmem
        have hnewline : '\n'.toNat = 10 := rfl
        omega
      rw [List.flatMap_cons, writeLine, List.append_assoc, List.singleton_append,
        List.splitOn_append_cons_self_of_not_mem hline, ih]
      rfl

/-- **Lines are read back as they were written.** -/
theorem readLines_writeLines (js : List Json) : readLines (js.flatMap writeLine) = some js := by
  rw [readLines, splitOn_lines, List.dropLast_concat]
  induction js with
  | nil => rfl
  | cons j js ih =>
      rw [List.map_cons, List.mapM_cons, parse_print, ih]
      rfl

end Json

end Axes.Lib
