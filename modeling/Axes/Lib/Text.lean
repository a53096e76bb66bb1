import Mathlib.Data.List.DropRight
import Mathlib.Data.Option.Basic
import Std.Data.String.ToInt

/-!
# Text: trimming and decimal integers

What the standard library of the modelled language does to a string slice,
stated over `String`: `trim` with Unicode white space, `parse` of a signed
decimal, and the decimal that `format!` prints.
-/

namespace Axes.Lib.Text

/-- The `White_Space` property of Unicode. -/
def isWhitespace (c : Char) : Bool :=
  let n := c.toNat
  (9 ≤ n && n ≤ 13) || n == 0x20 || n == 0x85 || n == 0xA0 || n == 0x1680 ||
    (0x2000 ≤ n && n ≤ 0x200A) || n == 0x2028 || n == 0x2029 || n == 0x202F ||
    n == 0x205F || n == 0x3000

/-- Drop white space at both ends. -/
def trim (s : String) : String :=
  String.ofList (((s.toList.dropWhile isWhitespace).reverse.dropWhile isWhitespace).reverse)

theorem toList_trim (s : String) :
    (trim s).toList = (s.toList.dropWhile isWhitespace).rdropWhile isWhitespace := by
  simp [trim, List.rdropWhile]

/-- A trimmed text has nothing left to trim. -/
@[simp] theorem trim_trim (s : String) : trim (trim s) = trim s := by
  rw [← String.toList_inj, toList_trim, toList_trim]
  have htrimmed := List.rdropWhile_prefix isWhitespace (s.toList.dropWhile isWhitespace)
  have hdrop : ((s.toList.dropWhile isWhitespace).rdropWhile isWhitespace).dropWhile isWhitespace =
      (s.toList.dropWhile isWhitespace).rdropWhile isWhitespace := by
    refine List.dropWhile_eq_self_iff.mpr ?_
    intro hlength
    have hnonempty : s.toList.dropWhile isWhitespace ≠ [] :=
      List.ne_nil_of_length_pos (Nat.lt_of_lt_of_le hlength htrimmed.length_le)
    have hhead := List.head_dropWhile_not isWhitespace hnonempty
    rw [htrimmed.getElem hlength, ← List.head_eq_getElem hnonempty, hhead]
    exact Bool.false_ne_true
  rw [hdrop, List.rdropWhile_idempotent]

/-- `text` with white space on both sides of it, and none at its own ends. -/
def Padded (text : String) (cs : List Char) : Prop :=
  ∃ before after, (∀ c ∈ before, isWhitespace c) ∧ (∀ c ∈ after, isWhitespace c) ∧
    cs = before ++ text.toList ++ after ∧
    (∀ c ∈ text.toList.head?, ¬ isWhitespace c) ∧ ∀ c ∈ text.toList.getLast?, ¬ isWhitespace c

theorem padded_trim (s : String) : Padded (trim s) s.toList := by
  have htrimmed := trim_trim s
  rw [← String.toList_inj, toList_trim] at htrimmed
  refine ⟨s.toList.takeWhile isWhitespace,
    (s.toList.dropWhile isWhitespace).rtakeWhile isWhitespace,
    fun c hc => List.mem_takeWhile_imp hc, fun c hc => List.mem_rtakeWhile_imp hc, ?_, ?_, ?_⟩
  · rw [toList_trim, List.append_assoc, List.rdropWhile_append_rtakeWhile,
      List.takeWhile_append_dropWhile]
  · intro c hc
    -- a head that is white space would have been dropped
    have hlength := (List.rdropWhile_prefix isWhitespace
      ((trim s).toList.dropWhile isWhitespace)).length_le
    rw [htrimmed] at hlength
    cases hlist : (trim s).toList with
    | nil => simp [hlist] at hc
    | cons d rest =>
        rw [hlist, List.head?_cons, Option.mem_some_iff] at hc
        subst hc
        intro hspace
        rw [hlist, List.dropWhile_cons_of_pos hspace] at hlength
        have hrest := (List.dropWhile_suffix (l := rest) isWhitespace).length_le
        rw [List.length_cons] at hlength
        omega
  · intro c hc
    rw [toList_trim] at hc
    obtain ⟨hne, rfl⟩ := List.mem_getLast?_eq_getLast hc
    exact List.rdropWhile_last_not isWhitespace _ hne

/-- A text comes out of trimming just if the slice is it with white space around it. -/
theorem trim_eq_iff {s text : String} : trim s = text ↔ Padded text s.toList := by
  constructor
  · rintro rfl
    exact padded_trim s
  · rintro ⟨before, after, hbefore, hafter, hs, hhead, hlast⟩
    rw [← String.toList_inj, toList_trim, hs, List.append_assoc,
      List.dropWhile_append_of_pos hbefore]
    cases htext : text.toList with
    | nil =>
        rw [List.nil_append, List.dropWhile_eq_nil_iff.mpr hafter, List.rdropWhile_nil]
    | cons c rest =>
        rw [htext, List.head?_cons] at hhead
        rw [List.cons_append, List.dropWhile_cons_of_neg (hhead c rfl), ← List.cons_append,
          ← htext, List.rdropWhile, List.reverse_append,
          List.dropWhile_append_of_pos (by simpa using hafter)]
        have hself := (List.rdropWhile_eq_self_iff (p := isWhitespace) (l := text.toList)).mpr
          fun hne => hlast _ (List.getLast?_eq_getLast_of_ne_nil hne)
        exact hself

/-- `str::split_once`: what is before the first separator and what is after it. -/
def splitOnce (sep : Char) : List Char → Option (List Char × List Char)
  | [] => none
  | c :: cs => if c = sep then some ([], cs) else (splitOnce sep cs).map (Prod.map (c :: ·) id)

theorem splitOnce_eq_some {sep : Char} {cs before after : List Char} :
    splitOnce sep cs = some (before, after) ↔ cs = before ++ sep :: after ∧ sep ∉ before := by
  induction cs generalizing before with
  | nil => simp [splitOnce]
  | cons c cs ih =>
      rw [splitOnce]
      split
      · next hsep => cases before <;> grind
      · next hsep =>
          cases before with
          | nil => simp [hsep]
          | cons d before =>
              have hstep : (splitOnce sep cs).map (Prod.map (c :: ·) id) =
                  some (d :: before, after) ↔
                    c = d ∧ splitOnce sep cs = some (before, after) := by
                cases splitOnce sep cs <;> simp [Prod.ext_iff, and_assoc]
              rw [hstep, ih]
              grind

theorem splitOnce_eq_none {sep : Char} {cs : List Char} : splitOnce sep cs = none ↔ sep ∉ cs := by
  induction cs with
  | nil => simp [splitOnce]
  | cons c cs ih =>
      rw [splitOnce]
      split
      · next hsep => simp [hsep]
      · next hsep => simp [ih, Ne.symm hsep]

/-- The pieces of `str::split` hold no separator. -/
theorem not_mem_of_mem_splitOn {sep : Char} {cs piece : List Char} (h : piece ∈ cs.splitOn sep) :
    sep ∉ piece := by
  induction cs generalizing piece with
  | nil => simp_all
  | cons c cs ih =>
      rw [List.splitOn_cons_eq_if_modifyHead] at h
      split at h
      · cases List.mem_cons.mp h with
        | inl hempty => simp [hempty]
        | inr hrest => exact ih hrest
      · next hsep =>
          cases hpieces : cs.splitOn sep with
          | nil => exact absurd hpieces (List.splitOn_ne_nil sep cs)
          | cons first rest =>
              rw [hpieces, List.modifyHead_cons] at h
              rw [hpieces] at ih
              cases List.mem_cons.mp h with
              | inl hfirst =>
                  rw [hfirst, List.mem_cons, not_or]
                  exact ⟨fun hc => hsep (by simp [hc]), ih List.mem_cons_self⟩
              | inr hrest => exact ih (List.mem_cons_of_mem _ hrest)

/-- A nonempty run of ASCII digits, read in base ten. -/
def digits? (cs : List Char) : Option Nat :=
  if cs ≠ [] ∧ cs.all Char.isDigit then some (Nat.ofDigitChars 10 cs 0) else none

/-- `str::parse` for a signed integer, before the range check of its width:
at most one sign, then digits. -/
def parseInt (s : String) : Option Int :=
  match s.toList with
  | '-' :: ds => (digits? ds).map Int.negOfNat
  | '+' :: ds => (digits? ds).map Int.ofNat
  | ds => (digits? ds).map Int.ofNat

theorem digits?_toDigits (n : Nat) : digits? (Nat.toDigits 10 n) = some n := by
  have hdigits : (Nat.toDigits 10 n).all Char.isDigit = true := by
    rw [List.all_eq_true]
    intro c hc
    exact Nat.isDigit_of_mem_toDigits (by decide) (by decide) hc
  simp [digits?, hdigits]

theorem natRepr_injective : Function.Injective Nat.repr := by
  intro m n h
  have hdigits : Nat.toDigits 10 m = Nat.toDigits 10 n := by
    simpa using congrArg String.toList h
  have hread := congrArg digits? hdigits
  simpa only [digits?_toDigits, Option.some.injEq] using hread

/-- A fixed text followed by a counter names each value once. -/
theorem append_natRepr_inj {s : String} {m n : Nat} (h : s ++ m.repr = s ++ n.repr) : m = n := by
  have hlist := congrArg String.toList h
  simp only [String.toList_append, List.append_cancel_left_eq] at hlist
  exact natRepr_injective (String.toList_inj.mp hlist)

/-- Reading back the decimal of a natural number. -/
theorem parseInt_natRepr (n : Nat) : parseInt n.repr = some (n : Int) := by
  have hlist : n.repr.toList = Nat.toDigits 10 n := by simp
  have hsign : ∀ c ∈ Nat.toDigits 10 n, c ≠ '-' ∧ c ≠ '+' := by
    intro c hc
    have hdigit : c.isDigit = true :=
      Nat.isDigit_of_mem_toDigits (by decide) (by decide) hc
    constructor <;> rintro rfl <;> exact absurd hdigit (by decide)
  unfold parseInt
  rw [hlist]
  split
  · next ds heq => exact absurd rfl (hsign '-' (by simp [heq])).1
  · next ds heq => exact absurd rfl (hsign '+' (by simp [heq])).2
  · simp [digits?_toDigits]

/-- Reading back the decimal of an integer. -/
@[simp] theorem parseInt_repr (n : Int) : parseInt n.repr = some n := by
  rw [Int.repr_eq_if]
  split
  · next hpos =>
      rw [parseInt_natRepr]
      simp only [Option.some.injEq]
      omega
  · next hneg =>
      have hlist : ("-" ++ (-n).toNat.repr).toList = '-' :: Nat.toDigits 10 (-n).toNat := by
        simp
      unfold parseInt
      rw [hlist]
      simp only [digits?_toDigits, Option.map_some, Option.some.injEq, Int.negOfNat_eq,
        Int.ofNat_eq_natCast]
      omega

/-- No integer starts with anything but a sign or a digit. -/
theorem parseInt_eq_none {s : String} {c : Char} {cs : List Char} (h : s.toList = c :: cs)
    (hminus : c ≠ '-') (hplus : c ≠ '+') (hdigit : c.isDigit = false) : parseInt s = none := by
  unfold parseInt
  rw [h]
  split
  · next heq => exact absurd (List.cons.inj heq).1 hminus
  · next heq => exact absurd (List.cons.inj heq).1 hplus
  · simp [digits?, hdigit]

/-- The integer a text is the canonical decimal of: no `+`, no leading zero. -/
def canonicalInt? (s : String) : Option Int :=
  (parseInt s).filter fun n => n.repr == s

@[simp] theorem canonicalInt?_repr (n : Int) : canonicalInt? n.repr = some n := by
  simp [canonicalInt?, Option.filter]

end Axes.Lib.Text
