import Mathlib.Algebra.BigOperators.Group.List.Basic
import Mathlib.Algebra.Ring.Int.Defs
import Mathlib.Algebra.Ring.Nat
import Mathlib.Data.List.Nodup
import Mathlib.Data.List.Permutation
import Axes.Lib.JsonGrammar

/-!
# Reading values of declared types

What a derived serializer and deserializer do with a JSON value. A `Codec` writes the values
of a type and reads them back. A struct is an object with one member for each field, in
declared order; it is read from its members in any order and beside unknown ones, or from an
array of the fields, but for a struct that is a variant of an enum. An enum may be written
with a tag and a content beside each other.
-/

namespace Axes.Lib.Serde

open Axes.Lib

/-- How the values of a type are written and read; what is written is read back. -/
structure Codec (α : Type*) where
  write : α → Json
  read : Json → Option α
  read_write : ∀ a, read (write a) = some a

attribute [simp] Codec.read_write

variable {α : Type*}

/-! ## Scalars, options and lists -/

def string : Codec String where
  write s := .str (some s)
  read
    | .str s => s
    | _ => none
  read_write _ := rfl

@[simp] theorem string_read (s : String) : string.read (.str (some s)) = some s := rfl

def bool : Codec Bool where
  write b := .bool b
  read
    | .bool b => some b
    | _ => none
  read_write _ := rfl

/-- A number that is written as an integer. -/
def readInt : Json → Option Int
  | .num n => n.toInt
  | _ => none

def int : Codec Int where
  write n := .num (.ofInt n)
  read := readInt
  read_write n := Json.Number.toInt_ofInt n

def nat : Codec Nat where
  write n := .num (.ofInt n)
  read j := (readInt j).bind fun n => if 0 ≤ n then some n.toNat else none
  read_write n := by
    have hread : readInt (.num (.ofInt n)) = some (n : Int) := Json.Number.toInt_ofInt n
    simp [hread]

def int32 : Codec Int32 where
  write n := .num (.ofInt n.toInt)
  read j := (readInt j).bind fun n =>
    if -2 ^ 31 ≤ n ∧ n < 2 ^ 31 then some (Int32.ofInt n) else none
  read_write n := by
    have hread : readInt (.num (.ofInt n.toInt)) = some n.toInt := Json.Number.toInt_ofInt _
    rw [hread, Option.bind_some, if_pos ⟨n.le_toInt, n.toInt_lt⟩, Int32.ofInt_toInt]

def int64 : Codec Int64 where
  write n := .num (.ofInt n.toInt)
  read j := (readInt j).bind fun n =>
    if -2 ^ 63 ≤ n ∧ n < 2 ^ 63 then some (Int64.ofInt n) else none
  read_write n := by
    have hread : readInt (.num (.ofInt n.toInt)) = some n.toInt := Json.Number.toInt_ofInt _
    rw [hread, Option.bind_some, if_pos ⟨n.le_toInt, n.toInt_lt⟩, Int64.ofInt_toInt]

/-- A list, when each item is read. -/
def list (codec : Codec α) : Codec (List α) where
  write as := .arr (as.map codec.write)
  read
    | .arr items => items.mapM codec.read
    | _ => none
  read_write as := by
    show (as.map codec.write).mapM codec.read = some as
    induction as with
    | nil => rfl
    | cons a as ih => simp [ih]

/-! ## UUIDs -/

/-- The last `k` hexadecimal digits. -/
def hexDigits : Nat → Nat → List Char
  | 0, _ => []
  | k + 1, n => hexDigits k (n / 16) ++ [Json.hexDigit (n % 16)]

def hexNumber (cs : List Char) : Option Nat :=
  cs.foldlM (fun n c => (Json.hexValue c).map (n * 16 + ·)) 0

theorem length_hexDigits (k n : Nat) : (hexDigits k n).length = k := by
  induction k generalizing n with
  | zero => rfl
  | succ k ih => rw [hexDigits, List.length_append, ih]; rfl

theorem hexNumber_hexDigits (k n : Nat) : hexNumber (hexDigits k n) = some (n % 16 ^ k) := by
  induction k generalizing n with
  | zero => rw [pow_zero, Nat.mod_one]; rfl
  | succ k ih =>
      have hhigh := ih (n / 16)
      have hlow := Json.hexValue_hexDigit (n := n % 16) (Nat.mod_lt n (by decide))
      unfold hexNumber at hhigh ⊢
      rw [hexDigits, List.foldlM_append, hhigh]
      show (Json.hexValue (Json.hexDigit (n % 16))).map _ >>= pure = _
      rw [hlow, pow_succ', Nat.mod_mul]
      show some (n / 16 % 16 ^ k * 16 + n % 16) = some (n % 16 + 16 * (n / 16 % 16 ^ k))
      congr 1
      omega

/-- Groups of characters, with hyphens between them. -/
def hyphenate : List Nat → List Char → List Char
  | g :: g' :: gs, cs => cs.take g ++ '-' :: hyphenate (g' :: gs) (cs.drop g)
  | _, cs => cs

def unhyphenate : List Nat → List Char → Option (List Char)
  | g :: g' :: gs, cs =>
      match cs.drop g with
      | '-' :: rest => (unhyphenate (g' :: gs) rest).map (cs.take g ++ ·)
      | _ => none
  | gs, cs => if cs.length = gs.sum then some cs else none

theorem unhyphenate_hyphenate (gs : List Nat) (cs : List Char) (h : cs.length = gs.sum) :
    unhyphenate gs (hyphenate gs cs) = some cs := by
  induction gs generalizing cs with
  | nil => rw [hyphenate, unhyphenate, if_pos h] <;> simp
  | cons g gs ih =>
      cases gs with
      | nil => rw [hyphenate, unhyphenate, if_pos h] <;> simp
      | cons g' gs =>
          rw [List.sum_cons] at h
          have hlength : (cs.take g).length = g := by
            rw [List.length_take]
            omega
          have hrest := ih (cs.drop g) (by rw [List.length_drop]; omega)
          rw [hyphenate, unhyphenate, List.drop_append_of_le_length (by omega),
            List.drop_of_length_le (by omega), List.take_append_of_le_length (by omega),
            List.take_of_length_le (by omega)]
          simp [hrest]

def uuidGroups : List Nat := [8, 4, 4, 4, 12]

def printUuid (u : BitVec 128) : List Char := hyphenate uuidGroups (hexDigits 32 u.toNat)

def parseHyphenated (cs : List Char) : Option (BitVec 128) :=
  (unhyphenate uuidGroups cs).bind fun cs => (hexNumber cs).map (BitVec.ofNat 128)

/-- `Uuid::parse_str`: with or without hyphens, in braces, or as a URN, whatever its case. -/
def parseUuid (cs : List Char) : Option (BitVec 128) :=
  if cs.length = 32 then (hexNumber cs).map (BitVec.ofNat 128)
  else if cs.length = 36 then parseHyphenated cs
  else if cs.length = 38 ∧ cs.head? = some '{' ∧ cs.getLast? = some '}' then
    parseHyphenated cs.tail.dropLast
  else if cs.length = 45 ∧ (cs.take 9).map Char.toLower = "urn:uuid:".toList then
    parseHyphenated (cs.drop 9)
  else none

theorem parseUuid_printUuid (u : BitVec 128) : parseUuid (printUuid u) = some u := by
  have hdigits : (hexDigits 32 u.toNat).length = uuidGroups.sum := length_hexDigits 32 _
  have hread := unhyphenate_hyphenate uuidGroups _ hdigits
  have hlength : (printUuid u).length = 36 := by
    simp [printUuid, uuidGroups, hyphenate, length_hexDigits]
  have hnumber : u.toNat % 16 ^ 32 = u.toNat := Nat.mod_eq_of_lt u.isLt
  rw [parseUuid, if_neg (by omega), if_pos hlength, parseHyphenated, printUuid, hread,
    Option.bind_some, hexNumber_hexDigits, hnumber, Option.map_some, BitVec.ofNat_toNat,
    BitVec.setWidth_eq]

def uuid : Codec (BitVec 128) where
  write u := .str (some (String.ofList (printUuid u)))
  read j := (string.read j).bind fun s => parseUuid s.toList
  read_write u := by
    rw [string_read, Option.bind_some, String.toList_ofList, parseUuid_printUuid]

/-! ## Structs -/

/-- The member of a field. -/
def field (codec : Codec α) (member : Option Json) : Option α := member.bind codec.read

/-- The member of a field of type `Option`, which may be missing or null. -/
def optionalField (codec : Codec α) : Option Json → Option (Option α)
  | none | some .null => some none
  | some j => (codec.read j).map some

def writeOptional (codec : Codec α) : Option α → Json
  | none => .null
  | some a => codec.write a

theorem optionalField_write (codec : Codec α) (hnull : ∀ a, codec.write a ≠ .null)
    (a : Option α) : optionalField codec (some (writeOptional codec a)) = some a := by
  cases a with
  | none => rfl
  | some a =>
      have hwritten := hnull a
      have hread := codec.read_write a
      show optionalField codec (some (codec.write a)) = _
      unfold optionalField
      split
      · next heq => cases heq
      · next heq => exact absurd (Option.some.inj heq) hwritten
      · next heq => rw [← Option.some.inj heq, hread, Option.map_some]

/-- The fields of a struct: written in order, read by name. -/
structure Fields (α : Type*) where
  names : List String
  distinct : names.Nodup
  write : α → List (String × Json)
  read : (String → Option Json) → Option α
  names_write : ∀ a, (write a).map (·.1) = names
  read_write : ∀ a get, (∀ m ∈ write a, get m.1 = some m.2) → read get = some a

/-- The members with their names, when every name is a text. -/
def named : List (Option String × Json) → Option (List (String × Json))
  | [] => some []
  | (some name, j) :: ms => (named ms).map ((name, j) :: ·)
  | (none, _) :: _ => none

/-- The members of the fields. A field may not be given twice; unknown members are left out. -/
def fieldMembers (names : List String) : Json → Option (List (String × Json))
  | .obj ms =>
      (named ms).bind fun ms =>
        let ms := ms.filter fun m => m.1 ∈ names
        if (ms.map (·.1)).Nodup then some ms else none
  | .arr items => if items.length = names.length then some (names.zip items) else none
  | _ => none

namespace Fields

variable (fields : Fields α)

def toJson (a : α) : Json := .obj ((fields.write a).map fun m => (some m.1, m.2))

def ofJson (j : Json) : Option α :=
  (fieldMembers fields.names j).bind fun ms => fields.read fun name => ms.lookup name

/-- A struct that is a variant of an enum is read from no array. -/
def ofVariant : Json → Option α
  | .obj ms => fields.ofJson (.obj ms)
  | _ => none

@[simp] theorem ofVariant_obj (ms : List (Option String × Json)) :
    fields.ofVariant (.obj ms) = fields.ofJson (.obj ms) := rfl

end Fields

/-- Members of distinct names are found under their names. -/
theorem lookup_of_mem {ms : List (String × Json)} (hdistinct : (ms.map (·.1)).Nodup)
    {m : String × Json} (h : m ∈ ms) : ms.lookup m.1 = some m.2 := by
  induction ms with
  | nil => cases h
  | cons m' ms ih =>
      rw [List.map_cons, List.nodup_cons] at hdistinct
      rcases List.mem_cons.mp h with rfl | h
      · rw [List.lookup_cons_self]
      · have hne : (m.1 == m'.1) = false := by
          refine beq_eq_false_iff_ne.mpr ?_
          intro heq
          exact hdistinct.1 (heq ▸ List.mem_map_of_mem h)
        rw [List.lookup_cons, hne]
        exact ih hdistinct.2 h

theorem named_map (ms : List (String × Json)) :
    named (ms.map fun m => (some m.1, m.2)) = some ms := by
  induction ms with
  | nil => rfl
  | cons m ms ih => rw [List.map_cons, named, ih, Option.map_some]

namespace Fields

variable (fields : Fields α)

/-- Members are looked up among those of known names. -/
theorem ofJson_obj {ms : List (String × Json)}
    (h : ((ms.filter fun m => m.1 ∈ fields.names).map (·.1)).Nodup) :
    fields.ofJson (.obj (ms.map fun m => (some m.1, m.2))) =
      fields.read fun name => (ms.filter fun m => m.1 ∈ fields.names).lookup name := by
  simp only [ofJson, fieldMembers, named_map, Option.bind_some, if_pos h]

/-- **A struct is read from its members in any order**, beside members of other names. -/
theorem ofJson_of_perm {a : α} {ms unknown : List (String × Json)}
    (hperm : ms.Perm (fields.write a ++ unknown)) (hunknown : ∀ m ∈ unknown, m.1 ∉ fields.names) :
    fields.ofJson (.obj (ms.map fun m => (some m.1, m.2))) = some a := by
  have hknown : (ms.filter fun m => m.1 ∈ fields.names).Perm (fields.write a) := by
    have hfiltered := hperm.filter fun m => decide (m.1 ∈ fields.names)
    rw [List.filter_append] at hfiltered
    have hwritten : (fields.write a).filter (fun m => decide (m.1 ∈ fields.names)) =
        fields.write a := by
      rw [List.filter_eq_self]
      intro m hm
      rw [decide_eq_true_eq, ← fields.names_write a]
      exact List.mem_map_of_mem hm
    have hleft : unknown.filter (fun m => decide (m.1 ∈ fields.names)) = [] := by
      rw [List.filter_eq_nil_iff]
      intro m hm
      rw [decide_eq_true_eq]
      exact hunknown m hm
    rwa [hwritten, hleft, List.append_nil] at hfiltered
  have hdistinct : ((ms.filter fun m => m.1 ∈ fields.names).map (·.1)).Nodup := by
    rw [(hknown.map (·.1)).nodup_iff, fields.names_write a]
    exact fields.distinct
  rw [fields.ofJson_obj hdistinct]
  refine fields.read_write a _ ?_
  intro m hm
  exact lookup_of_mem hdistinct (hknown.mem_iff.mpr hm)

/-- What a struct is written as is read back. -/
@[simp] theorem ofJson_toJson (a : α) : fields.ofJson (fields.toJson a) = some a := by
  have hperm : (fields.write a).Perm (fields.write a ++ []) := by rw [List.append_nil]
  exact fields.ofJson_of_perm hperm fun _ hm => (List.not_mem_nil hm).elim

@[simp] theorem ofVariant_toJson (a : α) : fields.ofVariant (fields.toJson a) = some a :=
  fields.ofJson_toJson a

/-- A struct, written as an object. -/
def codec : Codec α where
  write := fields.toJson
  read := fields.ofJson
  read_write := fields.ofJson_toJson

end Fields

/-! ## Tag and content -/

mutual

/-- Whether a value can be set aside, to be read when its type is known: its texts decode,
its numbers are in the range of a double, and it is nested no deeper than allowed. -/
def storable (finite : Json.Number → Bool) : Nat → Json → Bool
  | _, .null | _, .bool _ => true
  | _, .num n => finite n
  | _, .str s => s.isSome
  | 0, .arr _ | 0, .obj _ => false
  | depth + 1, .arr items => storableItems finite depth items
  | depth + 1, .obj ms => storableMembers finite depth ms

def storableItems (finite : Json.Number → Bool) : Nat → List Json → Bool
  | _, [] => true
  | depth, j :: js => storable finite depth j && storableItems finite depth js

def storableMembers (finite : Json.Number → Bool) :
    Nat → List (Option String × Json) → Bool
  | _, [] => true
  | depth, m :: ms => m.1.isSome && storable finite depth m.2 && storableMembers finite depth ms

end

/-- How deep a content may be nested: 127 levels, and it stands in an object. -/
def contentDepth : Nat := 126

/-- The name of a variant: a string, or an object with this one member, and nothing in it. -/
def readTag : Json → Option String
  | .str s => s
  | .obj [(name, .null)] => name
  | _ => none

/-- The tag and the content of an enum that is written with both beside each other. A content
that comes before its tag is set aside. -/
def tagged (finite : Json.Number → Bool) (tag content : String) : Json → Option (String × Json)
  | .obj ms =>
      (named ms).bind fun ms =>
        match ms.filter fun m => m.1 = tag ∨ m.1 = content with
        | [first, second] =>
            if first.1 = tag ∧ second.1 = content then
              (readTag first.2).map (·, second.2)
            else if first.1 = content ∧ second.1 = tag ∧ storable finite contentDepth first.2 then
              (readTag second.2).map (·, first.2)
            else none
        | _ => none
  | .arr [t, c] => (readTag t).map (·, c)
  | _ => none

def writeTagged (tag content : String) (t : String) (c : Json) : Json :=
  .obj [(some tag, .str (some t)), (some content, c)]

section Tagged

variable {finite : Json.Number → Bool} {tag content t : String} {c name : Json}
  {ms unknown : List (String × Json)}

/-- **Tag and content are found in either order**, beside members of other names. -/
theorem tagged_of_perm (hne : tag ≠ content) (hname : readTag name = some t)
    (hstorable : [content, tag].Sublist (ms.map (·.1)) → storable finite contentDepth c = true)
    (hperm : ms.Perm ([(tag, name), (content, c)] ++ unknown))
    (hunknown : ∀ m ∈ unknown, m.1 ≠ tag ∧ m.1 ≠ content) :
    tagged finite tag content (.obj (ms.map fun m => (some m.1, m.2))) = some (t, c) := by
  have hleft : unknown.filter (fun m => decide (m.1 = tag ∨ m.1 = content)) = [] := by
    rw [List.filter_eq_nil_iff]
    intro m hm
    simp [hunknown m hm]
  have hknown := hperm.filter fun m => decide (m.1 = tag ∨ m.1 = content)
  rw [List.filter_append, hleft, List.append_nil] at hknown
  have hboth : [(tag, name), (content, c)].filter
      (fun m => decide (m.1 = tag ∨ m.1 = content)) = [(tag, name), (content, c)] := by
    simp
  rw [hboth, List.perm_pair] at hknown
  simp only [tagged, named_map, Option.bind_some]
  rcases hknown with h | h
  · rw [h]
    simp [hname]
  · have hbefore : [content, tag].Sublist (ms.map (·.1)) := by
      have hsub := (List.filter_sublist (l := ms)
        (p := fun m => decide (m.1 = tag ∨ m.1 = content))).map (·.1)
      rw [h] at hsub
      exact hsub
    rw [h]
    simp [hname, hne.symm, hstorable hbefore]

/-- A tag that comes first is found whatever the content is. -/
@[simp] theorem tagged_writeTagged :
    tagged finite tag content (writeTagged tag content t c) = some (t, c) := by
  simp [writeTagged, tagged, named, readTag]

end Tagged

end Axes.Lib.Serde
