import Axes.Lib.BTree
import Axes.Lib.Json

/-!
# Objects built from maps

An object as a JSON library builds it: its members sit in an ordered map, so a key is there
once, and the last value it was given is the one that counts.
-/

namespace Axes.Lib

namespace Json

/-- The value of a member of an object. -/
def get? (key : String) : Json → Option Json
  | .obj members => (members.find? (·.1 == some key)).map (·.2)
  | _ => none

/-- The object of a map, its members in the order of their keys. -/
def ofMap (m : BTreeMap String Json) : Json := .obj (m.toList.map fun e => (some e.1, e.2))

/-- The object whose members are inserted one after the other. -/
def object (members : List (String × Json)) : Json :=
  ofMap (members.foldl (fun m e => m.insert e.1 e.2) ∅)

@[simp] theorem get?_ofMap (m : BTreeMap String Json) (key : String) :
    (ofMap m).get? key = m[key]? := by
  show ((m.toList.map fun e => (some e.1, e.2)).find? (·.1 == some key)).map (·.2) = m[key]?
  have hpred : ((fun e : Option String × Json => e.1 == some key) ∘
      fun e : String × Json => (some e.1, e.2)) = fun e => e.1 == key := by
    funext e
    exact Option.some_beq_some
  rw [List.find?_map, hpred, Option.map_map]
  cases hfind : m.toList.find? (fun e => e.1 == key) with
  | none =>
      have habsent : m[key]? = none := by
        by_contra hsome
        obtain ⟨v, hv⟩ := Option.ne_none_iff_exists'.mp hsome
        have hmem := Std.ExtTreeMap.mem_toList_iff_getElem?_eq_some.mpr hv
        exact List.find?_eq_none.mp hfind _ hmem (beq_self_eq_true key)
      rw [habsent]
      rfl
  | some e =>
      have hpass : (e.1 == key) = true := by
        have hfound := List.find?_some hfind
        exact hfound
      have hmem := List.mem_of_find?_eq_some hfind
      have hvalue := Std.ExtTreeMap.mem_toList_iff_getElem?_eq_some.mp hmem
      rw [← eq_of_beq hpass, hvalue]
      rfl

@[simp] theorem get?_object (members : List (String × Json)) (key : String) :
    (object members).get? key = (members.reverse.find? (·.1 == key)).map (·.2) := by
  rw [object, get?_ofMap, BTreeMap.getElem?_foldl_insert, Std.ExtTreeMap.getElem?_empty,
    Option.or_none]

end Json

end Axes.Lib
