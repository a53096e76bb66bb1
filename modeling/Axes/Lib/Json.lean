import Mathlib.Data.List.Basic
import Axes.Lib.Text

/-!
# JSON texts

What a JSON library does with a text, over lists of characters: `print` writes a value without
white space, `parse` reads a text, with white space, escapes and surrogate pairs. Numbers are
read as they are written (`number_print`).

A number is kept as it is written; a string is a text, or has unpaired surrogates.
-/

namespace Axes.Lib

namespace Json

/-- Digits, at least one. -/
structure Digits where
  chars : List Char
  nonempty : chars ≠ []
  digits : ∀ c ∈ chars, c.isDigit = true

inductive Sign
  | plus
  | minus

structure Exponent where
  upper : Bool
  sign : Option Sign
  digits : Digits

/-- A number as it is written; its whole part has no leading zero. -/
structure Number where
  negative : Bool
  whole : Nat
  fraction : Option Digits
  exponent : Option Exponent

/-- What a reader of integers makes of a number: a fraction, an exponent and a negative zero
are no integers. -/
def Number.toInt (n : Number) : Option Int :=
  match n.fraction, n.exponent with
  | none, none =>
      if n.negative then if n.whole = 0 then none else some (-n.whole) else some n.whole
  | _, _ => none

def Number.ofInt (n : Int) : Number := ⟨decide (n < 0), n.natAbs, none, none⟩

@[simp] theorem Number.toInt_ofInt (n : Int) : (ofInt n).toInt = some n := by
  by_cases h : n < 0
  · have habs : n.natAbs ≠ 0 := by omega
    simp only [toInt, ofInt, h, decide_true, if_true, if_neg habs, Option.some.injEq]
    omega
  · simp only [toInt, ofInt, h, decide_false, Bool.false_eq_true, if_false, Option.some.injEq]
    omega

end Json

inductive Json
  | null
  | bool (b : Bool)
  | num (n : Json.Number)
  /-- `none` for a string with unpaired surrogates. -/
  | str (s : Option String)
  | arr (items : List Json)
  | obj (members : List (Option String × Json))

namespace Json

/-! ## Printing -/

def hexDigit (n : Nat) : Char := Nat.digitChar n

def escape (c : Char) : List Char :=
  if c = '"' then ['\\', '"']
  else if c = '\\' then ['\\', '\\']
  else if c.toNat = 8 then ['\\', 'b']
  else if c.toNat = 9 then ['\\', 't']
  else if c.toNat = 10 then ['\\', 'n']
  else if c.toNat = 12 then ['\\', 'f']
  else if c.toNat = 13 then ['\\', 'r']
  else if c.toNat < 32 then ['\\', 'u', '0', '0', hexDigit (c.toNat / 16), hexDigit (c.toNat % 16)]
  else [c]

/-- A string in quotes. -/
def printString : Option String → List Char
  | some s => '"' :: (s.toList.flatMap escape ++ ['"'])
  | none => ['"', '\\', 'u', 'd', '8', '0', '0', '"']

def printFraction : Option Digits → List Char
  | none => []
  | some ds => '.' :: ds.chars

def printSign : Option Sign → List Char
  | none => []
  | some .plus => ['+']
  | some .minus => ['-']

def printExponent : Option Exponent → List Char
  | none => []
  | some e => (if e.upper then 'E' else 'e') :: (printSign e.sign ++ e.digits.chars)

def printUnsigned (n : Number) : List Char :=
  Nat.toDigits 10 n.whole ++ (printFraction n.fraction ++ printExponent n.exponent)

def printNumber (n : Number) : List Char :=
  if n.negative then '-' :: printUnsigned n else printUnsigned n

mutual

def print : Json → List Char
  | .null => ['n', 'u', 'l', 'l']
  | .bool true => ['t', 'r', 'u', 'e']
  | .bool false => ['f', 'a', 'l', 's', 'e']
  | .num n => printNumber n
  | .str s => printString s
  | .arr items => '[' :: (printItems items ++ [']'])
  | .obj members => '{' :: (printMembers members ++ ['}'])

/-- The items, with commas between them. -/
def printItems : List Json → List Char
  | [] => []
  | [j] => print j
  | j :: k :: rest => print j ++ ',' :: printItems (k :: rest)

def printMembers : List (Option String × Json) → List Char
  | [] => []
  | [(key, j)] => printString key ++ ':' :: print j
  | (key, j) :: m :: rest => printString key ++ ':' :: (print j ++ ',' :: printMembers (m :: rest))

end

/-! ## Parsing -/

def isSpace (c : Char) : Bool := c = ' ' || c = '\n' || c = '\t' || c = '\r'

def skipSpace (cs : List Char) : List Char := cs.dropWhile isSpace

/-- A character of a string, or a `\u` escape. -/
inductive StringItem
  | char (c : Char)
  | unit (u : Nat)

def hexValue (c : Char) : Option Nat :=
  if '0' ≤ c ∧ c ≤ '9' then some (c.toNat - '0'.toNat)
  else if 'a' ≤ c ∧ c ≤ 'f' then some (c.toNat - 'a'.toNat + 10)
  else if 'A' ≤ c ∧ c ≤ 'F' then some (c.toNat - 'A'.toNat + 10)
  else none

def unescape : Char → Option Char
  | '"' => some '"'
  | '\\' => some '\\'
  | '/' => some '/'
  | 'b' => some (Char.ofNat 8)
  | 'f' => some (Char.ofNat 12)
  | 'n' => some '\n'
  | 'r' => some '\r'
  | 't' => some '\t'
  | _ => none

def hex4 (a b c d : Char) : Option Nat :=
  match hexValue a, hexValue b, hexValue c, hexValue d with
  | some a, some b, some c, some d => some (((a * 16 + b) * 16 + c) * 16 + d)
  | _, _, _, _ => none

/-- The rest of a string, after its opening quote. -/
def stringItems : List Char → Option (List StringItem × List Char)
  | [] => none
  | '"' :: rest => some ([], rest)
  | '\\' :: 'u' :: a :: b :: c :: d :: rest =>
      match hex4 a b c d with
      | none => none
      | some u => (stringItems rest).map fun r => (.unit u :: r.1, r.2)
  | '\\' :: e :: rest =>
      match unescape e with
      | none => none
      | some c => (stringItems rest).map fun r => (.char c :: r.1, r.2)
  | c :: rest =>
      -- control characters have to be escaped
      if c.toNat < 32 then none else (stringItems rest).map fun r => (.char c :: r.1, r.2)

def isHigh (u : Nat) : Bool := 0xD800 ≤ u && u ≤ 0xDBFF

def isLow (u : Nat) : Bool := 0xDC00 ≤ u && u ≤ 0xDFFF

/-- The text of a string, when its surrogates are paired. -/
def decodeItems : List StringItem → Option (List Char)
  | [] => some []
  | .char c :: rest => (decodeItems rest).map (c :: ·)
  | .unit u :: rest =>
      if isHigh u then
        match rest with
        | .unit v :: rest =>
            if isLow v then
              (decodeItems rest).map
                (Char.ofNat (0x10000 + (u - 0xD800) * 0x400 + (v - 0xDC00)) :: ·)
            else none
        | _ => none
      else if isLow u then none
      else (decodeItems rest).map (Char.ofNat u :: ·)

def string (cs : List Char) : Option (Option String × List Char) :=
  (stringItems cs).map fun r => ((decodeItems r.1).map String.ofList, r.2)

/-- Digits without a leading zero. -/
def natural (cs : List Char) : Option (Nat × List Char) :=
  match cs.takeWhile Char.isDigit with
  | [] => none
  | '0' :: _ :: _ => none
  | digits => some (Nat.ofDigitChars 10 digits 0, cs.dropWhile Char.isDigit)

def someDigits (cs : List Char) : Option (Digits × List Char) :=
  if h : cs.takeWhile Char.isDigit = [] then none
  else some (⟨cs.takeWhile Char.isDigit, h, fun _ => List.mem_takeWhile_imp⟩,
    cs.dropWhile Char.isDigit)

def fraction : List Char → Option (Option Digits × List Char)
  | '.' :: rest => (someDigits rest).map fun r => (some r.1, r.2)
  | rest => some (none, rest)

def sign : List Char → Option Sign × List Char
  | '+' :: rest => (some .plus, rest)
  | '-' :: rest => (some .minus, rest)
  | rest => (none, rest)

/-- After the `e`. -/
def signedDigits (upper : Bool) (cs : List Char) : Option (Option Exponent × List Char) :=
  (someDigits (sign cs).2).map fun r => (some ⟨upper, (sign cs).1, r.1⟩, r.2)

def exponent : List Char → Option (Option Exponent × List Char)
  | 'e' :: rest => signedDigits false rest
  | 'E' :: rest => signedDigits true rest
  | rest => some (none, rest)

def unsigned (negative : Bool) (cs : List Char) : Option (Number × List Char) := do
  let (whole, rest) ← natural cs
  let (fraction, rest) ← fraction rest
  let (exponent, rest) ← exponent rest
  some (⟨negative, whole, fraction, exponent⟩, rest)

def number : List Char → Option (Number × List Char)
  | '-' :: rest => unsigned true rest
  | rest => unsigned false rest

mutual

/-- A value, after white space. -/
def value : Nat → List Char → Option (Json × List Char)
  | 0, _ => none
  | n + 1, cs =>
      match skipSpace cs with
      | 'n' :: 'u' :: 'l' :: 'l' :: rest => some (.null, rest)
      | 't' :: 'r' :: 'u' :: 'e' :: rest => some (.bool true, rest)
      | 'f' :: 'a' :: 'l' :: 's' :: 'e' :: rest => some (.bool false, rest)
      | '"' :: rest => (string rest).map fun r => (.str r.1, r.2)
      | '[' :: rest =>
          match skipSpace rest with
          | ']' :: rest => some (.arr [], rest)
          | rest => (items n rest).map fun r => (.arr r.1, r.2)
      | '{' :: rest =>
          match skipSpace rest with
          | '}' :: rest => some (.obj [], rest)
          | rest => (members n rest).map fun r => (.obj r.1, r.2)
      | rest => (number rest).map fun r => (.num r.1, r.2)

/-- The items of an array that is not empty, up to its end. -/
def items : Nat → List Char → Option (List Json × List Char)
  | 0, _ => none
  | n + 1, cs =>
      match value n cs with
      | none => none
      | some (j, rest) =>
          match skipSpace rest with
          | ']' :: rest => some ([j], rest)
          | ',' :: rest => (items n rest).map fun r => (j :: r.1, r.2)
          | _ => none

/-- The members of an object that is not empty, up to its end. -/
def members : Nat → List Char → Option (List (Option String × Json) × List Char)
  | 0, _ => none
  | n + 1, cs =>
      match skipSpace cs with
      | '"' :: rest =>
          match string rest with
          | none => none
          | some (key, rest) =>
              match skipSpace rest with
              | ':' :: rest =>
                  match value n rest with
                  | none => none
                  | some (j, rest) =>
                      match skipSpace rest with
                      | '}' :: rest => some ([(key, j)], rest)
                      | ',' :: rest => (members n rest).map fun r => ((key, j) :: r.1, r.2)
                      | _ => none
              | _ => none
      | _ => none

end

/-- A text that is one value and white space. -/
def parse (cs : List Char) : Option Json :=
  match value (cs.length + 1) cs with
  | some (j, rest) => if skipSpace rest = [] then some j else none
  | none => none

/-! ## Printed numbers -/

/-- No number goes on with what comes next. -/
def Ends (rest : List Char) : Prop :=
  ∀ c ∈ rest.head?, c.isDigit = false ∧ c ≠ '.' ∧ c ≠ 'e' ∧ c ≠ 'E'

/-- A decimal starts with no zero, but for zero itself. -/
theorem toDigits_head {n : Nat} (h : 0 < n) :
    ∃ c cs, Nat.toDigits 10 n = c :: cs ∧ c ≠ '0' := by
  induction n using Nat.strongRecOn with
  | _ n ih =>
      rcases Nat.lt_or_ge n 10 with hlt | hge
      · refine ⟨n.digitChar, [], Nat.toDigits_of_lt_base hlt, ?_⟩
        intro hzero
        have hvalue := congrArg Char.toNat hzero
        rw [Nat.toNat_digitChar_of_lt_ten hlt] at hvalue
        have : '0'.toNat = 48 := rfl
        omega
      · obtain ⟨c, cs, hdigits, hc⟩ := ih (n / 10) (by omega) (by omega)
        refine ⟨c, cs ++ [(n % 10).digitChar], ?_, hc⟩
        rw [Nat.toDigits_of_base_le (by decide) hge, hdigits]
        rfl

/-- What comes next is no digit. -/
def NoDigit (rest : List Char) : Prop := ∀ c ∈ rest.head?, c.isDigit = false

theorem NoDigit.cons {c : Char} (h : c.isDigit = false) (cs : List Char) : NoDigit (c :: cs) := by
  intro d hd
  obtain rfl : c = d := Option.some.inj hd
  exact h

theorem Ends.noDigit {rest : List Char} (h : Ends rest) : NoDigit rest :=
  fun c hc => (h c hc).1

/-- Digits are read up to what is no digit. -/
theorem span_digits {ds rest : List Char} (hds : ∀ c ∈ ds, c.isDigit = true)
    (hrest : NoDigit rest) :
    (ds ++ rest).takeWhile Char.isDigit = ds ∧ (ds ++ rest).dropWhile Char.isDigit = rest := by
  rw [List.takeWhile_append_of_pos hds, List.dropWhile_append_of_pos hds]
  cases rest with
  | nil => exact ⟨List.append_nil ds, rfl⟩
  | cons c cs =>
      have hc : ¬c.isDigit = true := by simp [hrest c rfl]
      rw [List.takeWhile_cons_of_neg hc, List.dropWhile_cons_of_neg hc]
      exact ⟨List.append_nil ds, rfl⟩

/-- A printed natural number, with what comes after it. -/
theorem natural_toDigits (n : Nat) {rest : List Char} (h : NoDigit rest) :
    natural (Nat.toDigits 10 n ++ rest) = some (n, rest) := by
  have hdigits : ∀ c ∈ Nat.toDigits 10 n, c.isDigit = true := fun c hc =>
    Nat.isDigit_of_mem_toDigits (by decide) (by decide) hc
  obtain ⟨htake, hdrop⟩ := span_digits hdigits h
  unfold natural
  rw [htake, hdrop]
  split
  · next hnil => exact absurd hnil Nat.toDigits_ne_nil
  · next c cs hzero =>
      -- a second digit, so the first is no zero
      rcases Nat.eq_zero_or_pos n with rfl | hpos
      · cases hzero
      · obtain ⟨d, ds, hhead, hd⟩ := toDigits_head hpos
        rw [hhead] at hzero
        exact absurd (List.cons.inj hzero).1 hd
  · rw [Nat.ofDigitChars_ten_toDigits]

theorem someDigits_chars (ds : Digits) {rest : List Char} (h : NoDigit rest) :
    someDigits (ds.chars ++ rest) = some (ds, rest) := by
  obtain ⟨htake, hdrop⟩ := span_digits ds.digits h
  unfold someDigits
  split
  · next hnil =>
      rw [htake] at hnil
      exact absurd hnil ds.nonempty
  · simp only [htake, hdrop]

/-- Digits are not taken for a sign. -/
theorem sign_print (s : Option Sign) (ds : Digits) (rest : List Char) :
    sign (printSign s ++ (ds.chars ++ rest)) = (s, ds.chars ++ rest) := by
  rcases s with _ | _ | _
  · obtain ⟨c, cs, hhead⟩ := List.exists_cons_of_ne_nil ds.nonempty
    have hc : c.isDigit = true := ds.digits c (hhead ▸ List.mem_cons_self)
    show sign (ds.chars ++ rest) = _
    rw [hhead, List.cons_append]
    unfold sign
    split
    · next heq =>
        rw [(List.cons.inj heq).1] at hc
        cases hc
    · next heq =>
        rw [(List.cons.inj heq).1] at hc
        cases hc
    · rfl
  · rfl
  · rfl

theorem exponent_none {rest : List Char} (h : Ends rest) :
    exponent rest = some (none, rest) := by
  unfold exponent
  split
  · exact absurd rfl (h _ rfl).2.2.1
  · exact absurd rfl (h _ rfl).2.2.2
  · rfl

theorem exponent_print (e : Option Exponent) {rest : List Char} (h : Ends rest) :
    exponent (printExponent e ++ rest) = some (e, rest) := by
  cases e with
  | none => exact exponent_none h
  | some e =>
      have hread : signedDigits e.upper (printSign e.sign ++ e.digits.chars ++ rest) =
          some (some e, rest) := by
        simp only [signedDigits, List.append_assoc, sign_print,
          someDigits_chars e.digits h.noDigit, Option.map_some]
      rw [← hread]
      obtain ⟨upper, s, ds⟩ := e
      cases upper with
      | false => rfl
      | true => rfl

/-- An exponent does not go on with the digits before it. -/
theorem noDigit_exponent (e : Option Exponent) {rest : List Char} (h : Ends rest) :
    NoDigit (printExponent e ++ rest) := by
  cases e with
  | none => exact h.noDigit
  | some e =>
      refine .cons ?_ _
      cases e.upper with
      | false => rfl
      | true => rfl

theorem fraction_print (f : Option Digits) (e : Option Exponent) {rest : List Char}
    (h : Ends rest) : fraction (printFraction f ++ (printExponent e ++ rest)) =
      some (f, printExponent e ++ rest) := by
  cases f with
  | none =>
      cases e with
      | none =>
          show fraction rest = some (none, rest)
          unfold fraction
          split
          · exact absurd rfl (h _ rfl).2.1
          · rfl
      | some e =>
          obtain ⟨upper, s, ds⟩ := e
          cases upper with
          | false => rfl
          | true => rfl
  | some ds =>
      show (someDigits (ds.chars ++ (printExponent e ++ rest))).map _ = _
      rw [someDigits_chars ds (noDigit_exponent e h)]
      rfl

theorem noDigit_fraction (f : Option Digits) (e : Option Exponent) {rest : List Char}
    (h : Ends rest) : NoDigit (printFraction f ++ (printExponent e ++ rest)) := by
  cases f with
  | none => exact noDigit_exponent e h
  | some ds => exact .cons rfl _

theorem unsigned_print (n : Number) {rest : List Char} (h : Ends rest) :
    unsigned n.negative (printUnsigned n ++ rest) = some (n, rest) := by
  rw [printUnsigned, List.append_assoc, List.append_assoc]
  simp only [unsigned, natural_toDigits n.whole (noDigit_fraction n.fraction n.exponent h),
    fraction_print n.fraction n.exponent h, exponent_print n.exponent h, Option.bind_eq_bind,
    Option.bind_some]

/-- An unsigned number starts with a digit. -/
theorem printUnsigned_head (n : Number) :
    ∃ c cs, printUnsigned n = c :: cs ∧ c.isDigit = true := by
  obtain ⟨c, cs, hdigits⟩ :=
    List.exists_cons_of_ne_nil (Nat.toDigits_ne_nil (b := 10) (n := n.whole))
  refine ⟨c, cs ++ (printFraction n.fraction ++ printExponent n.exponent), ?_, ?_⟩
  · rw [printUnsigned, hdigits]
    rfl
  · exact Nat.isDigit_of_mem_toDigits (b := 10) (n := n.whole) (by decide) (by decide)
      (hdigits ▸ List.mem_cons_self)

/-- A printed number is read back. -/
theorem number_print (n : Number) {rest : List Char} (h : Ends rest) :
    number (printNumber n ++ rest) = some (n, rest) := by
  have hread := unsigned_print n h
  unfold printNumber
  split
  · next hnegative =>
      rw [hnegative] at hread
      exact hread
  · next hpositive =>
      rw [Bool.not_eq_true] at hpositive
      obtain ⟨c, cs, hhead, hc⟩ := printUnsigned_head n
      rw [hpositive, hhead, List.cons_append] at hread
      rw [hhead, List.cons_append]
      unfold number
      split
      · next heq =>
          rw [(List.cons.inj heq).1] at hc
          cases hc
      · exact hread

end Json

end Axes.Lib
