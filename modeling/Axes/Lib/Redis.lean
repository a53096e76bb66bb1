import Mathlib.Algebra.Group.Nat.Defs
import Mathlib.Algebra.Ring.Int.Defs
import Mathlib.Data.Finset.Card
import Mathlib.Data.Set.Insert
import Axes.Lib.Text

/-!
# Redis keys, commands and footprints

A keyspace of strings and sets, the commands on one key with the errors Redis
reports for the wrong type, and scripts as command sequences: an error aborts
the rest of a script but keeps what it has written.

`Local K c` says that `c` reads and writes only keys in `K`. It is closed under
sequencing, so the footprint of a script is read off its commands, and
`execAll_filter` turns disjoint footprints into noninterference over whole
interleavings.
-/

namespace Axes.Lib.Redis

/-- What a key can hold. -/
inductive Value
  | string (text : String)
  | set (members : Finset String)
  deriving DecidableEq

/-- An absent key is `none`. -/
abbrev Keyspace := String → Option Value

inductive Error
  /-- `WRONGTYPE Operation against a key holding the wrong kind of value` -/
  | wrongType
  /-- `ERR value is not an integer or out of range` -/
  | notInteger
  /-- `ERR increment or decrement would overflow` -/
  | overflow
  /-- A script raised an error of its own. -/
  | script
  /-- The reply does not have the shape the client asked for. -/
  | reply
  deriving DecidableEq

/-- A command or a script: state first, so an error keeps earlier writes. -/
abbrev Command (α : Type) := ExceptT Error (StateM Keyspace) α

/-- Reply and keyspace after running a command. -/
def exec {α : Type} (c : Command α) (ks : Keyspace) : Except Error α × Keyspace := c ks

/-! ## Commands -/

def get (key : String) : Command (Option String) := fun ks =>
  match ks key with
  | none => (.ok none, ks)
  | some (.string text) => (.ok (some text), ks)
  | some (.set _) => (.error .wrongType, ks)

/-- `SET` overwrites a value of any type. -/
def set (key text : String) : Command Unit := fun ks =>
  (.ok (), Function.update ks key (some (.string text)))

def del (key : String) : Command Unit := fun ks =>
  (.ok (), Function.update ks key none)

/-- `DECR`: an absent key counts as 0; the text must be a canonical 64-bit
decimal. -/
def decr (key : String) : Command Int := fun ks =>
  match ks key with
  | some (.set _) => (.error .wrongType, ks)
  | none => (.ok (-1), Function.update ks key (some (.string "-1")))
  | some (.string text) =>
      match Text.canonicalInt? text with
      | none => (.error .notInteger, ks)
      | some n =>
          if n < -2 ^ 63 ∨ 2 ^ 63 ≤ n then (.error .notInteger, ks)
          else if n = -2 ^ 63 then (.error .overflow, ks)
          else (.ok (n - 1), Function.update ks key (some (.string (n - 1).repr)))

def sismember (key member : String) : Command Bool := fun ks =>
  match ks key with
  | none => (.ok false, ks)
  | some (.set members) => (.ok (decide (member ∈ members)), ks)
  | some (.string _) => (.error .wrongType, ks)

def sadd (key member : String) : Command Unit := fun ks =>
  match ks key with
  | none => (.ok (), Function.update ks key (some (.set {member})))
  | some (.set members) => (.ok (), Function.update ks key (some (.set (insert member members))))
  | some (.string _) => (.error .wrongType, ks)

@[simp] theorem exec_pure {α : Type} (a : α) (ks : Keyspace) :
    exec (pure a) ks = (.ok a, ks) := rfl

/-- Sequencing stops at the first error and keeps the keyspace it left. -/
theorem exec_bind {α β : Type} (c : Command α) (f : α → Command β) (ks : Keyspace) :
    exec (c >>= f) ks =
      match exec c ks with
      | (.ok a, ks') => exec (f a) ks'
      | (.error e, ks') => (.error e, ks') := by
  show (ExceptT.bindCont f (c ks).1) (c ks).2 = _
  unfold exec
  rcases c ks with ⟨result, ks'⟩
  cases result <;> rfl

/-- A sequence that answers has answered at every command. -/
theorem exec_bind_ok {α β : Type} {c : Command α} {f : α → Command β} {ks ks' : Keyspace}
    {b : β} (h : exec (c >>= f) ks = (.ok b, ks')) :
    ∃ a mid, exec c ks = (.ok a, mid) ∧ exec (f a) mid = (.ok b, ks') := by
  rw [exec_bind] at h
  rcases hc : exec c ks with ⟨result, mid⟩
  rw [hc] at h
  cases result with
  | ok a => exact ⟨a, mid, rfl, h⟩
  | error e => cases h

/-- A set as the value of a key: Redis keeps no empty set. -/
def setValue (members : Finset String) : Option Value :=
  if members = ∅ then none else some (.set members)

section Evaluation

variable {ks : Keyspace} {key : String}

theorem exec_get_none (h : ks key = none) : exec (get key) ks = (.ok none, ks) := by
  simp [exec, get, h]

theorem exec_get_string {text : String} (h : ks key = some (.string text)) :
    exec (get key) ks = (.ok (some text), ks) := by
  simp [exec, get, h]

theorem exec_set (text : String) :
    exec (set key text) ks = (.ok (), Function.update ks key (some (.string text))) := rfl

theorem exec_decr_repr {n : Int} (h : ks key = some (.string n.repr))
    (hlow : -2 ^ 63 < n) (hhigh : n < 2 ^ 63) :
    exec (decr key) ks =
      (.ok (n - 1), Function.update ks key (some (.string (n - 1).repr))) := by
  have hrange : ¬(n < -2 ^ 63 ∨ 2 ^ 63 ≤ n) := by omega
  have hmin : n ≠ -2 ^ 63 := by omega
  simp only [exec, decr, h, Text.canonicalInt?_repr, if_neg hrange, if_neg hmin]

theorem exec_sismember_setValue {members : Finset String} (h : ks key = setValue members)
    (member : String) :
    exec (sismember key member) ks = (.ok (decide (member ∈ members)), ks) := by
  unfold setValue at h
  split at h
  · next hempty => simp [exec, sismember, h, hempty]
  · simp [exec, sismember, h]

theorem exec_sadd_setValue {members : Finset String} (h : ks key = setValue members)
    (member : String) :
    exec (sadd key member) ks =
      (.ok (), Function.update ks key (setValue (insert member members))) := by
  have hne : insert member members ≠ ∅ := Finset.insert_ne_empty _ _
  unfold setValue at h ⊢
  rw [if_neg hne]
  split at h
  · next hempty =>
      subst hempty
      simp [exec, sadd, h]
  · simp [exec, sadd, h]

end Evaluation

/-! ## Footprints -/

/-- `c` neither reads nor writes outside `K`. -/
structure Local {α : Type} (K : Set String) (c : Command α) : Prop where
  reads : ∀ ks ks', (∀ k ∈ K, ks k = ks' k) → (exec c ks).1 = (exec c ks').1 ∧
    ∀ k ∈ K, (exec c ks).2 k = (exec c ks').2 k
  writes : ∀ ks, ∀ k ∉ K, (exec c ks).2 k = ks k

namespace Local

variable {α β : Type} {K L : Set String}

theorem pure (a : α) : Local K (Pure.pure a : Command α) where
  reads _ _ h := ⟨rfl, h⟩
  writes _ _ _ := rfl

theorem throw (e : Error) : Local K (throwThe Error e : Command α) where
  reads _ _ h := ⟨rfl, h⟩
  writes _ _ _ := rfl

theorem bind {c : Command α} {f : α → Command β} (hc : Local K c)
    (hf : ∀ a, Local K (f a)) : Local K (c >>= f) where
  reads ks ks' h := by
    obtain ⟨hreply, hstate⟩ := hc.reads ks ks' h
    simp only [exec_bind]
    rcases hks : exec c ks with ⟨result, after⟩
    rcases hks' : exec c ks' with ⟨result', after'⟩
    simp only [hks, hks'] at hreply hstate
    subst hreply
    cases result with
    | ok a => exact (hf a).reads after after' hstate
    | error e => exact ⟨rfl, hstate⟩
  writes ks k hk := by
    have hfirst := hc.writes ks k hk
    simp only [exec_bind]
    rcases hks : exec c ks with ⟨result, after⟩
    simp only [hks] at hfirst
    cases result with
    | ok a => exact ((hf a).writes after k hk).trans hfirst
    | error e => exact hfirst

theorem mono {c : Command α} (hc : Local K c) (h : K ⊆ L) : Local L c where
  reads ks ks' hagree := by
    obtain ⟨hreply, hstate⟩ := hc.reads ks ks' (fun k hk => hagree k (h hk))
    refine ⟨hreply, ?_⟩
    intro k hk
    by_cases hin : k ∈ K
    · exact hstate k hin
    · rw [hc.writes ks k hin, hc.writes ks' k hin, hagree k hk]
  writes ks k hk := hc.writes ks k (fun hin => hk (h hin))

/-- A command whose reply and whose new value of `key` are functions of the old
value of `key`, and which writes nothing else, is local to `key`. -/
theorem of_key {c : Command α} {key : String}
    (reply : Option Value → Except Error α) (value : Option Value → Option Value)
    (h : ∀ ks, exec c ks = (reply (ks key), Function.update ks key (value (ks key)))) :
    Local {key} c where
  reads ks ks' hagree := by
    have hkey : ks key = ks' key := hagree key rfl
    refine ⟨by rw [h, h, hkey], ?_⟩
    rintro k rfl
    simp [h, hkey]
  writes ks k hk := by
    rw [h]
    exact Function.update_of_ne hk _ _

end Local

/-- Writing back the value a key has is no write. -/
private theorem update_same (ks : Keyspace) (key : String) :
    Function.update ks key (ks key) = ks := Function.update_eq_self key ks

theorem local_get (key : String) : Local {key} (get key) :=
  .of_key
    (fun
      | none => .ok none
      | some (.string text) => .ok (some text)
      | some (.set _) => .error .wrongType)
    id
    (fun ks => by
      rw [id, update_same]
      unfold exec get
      cases ks key with
      | none => rfl
      | some v => cases v <;> rfl)

theorem local_set (key text : String) : Local {key} (set key text) :=
  .of_key (fun _ => .ok ()) (fun _ => some (.string text)) (fun _ => rfl)

theorem local_del (key : String) : Local {key} (del key) :=
  .of_key (fun _ => .ok ()) (fun _ => none) (fun _ => rfl)

theorem local_decr (key : String) : Local {key} (decr key) where
  reads ks ks' hagree := by
    have hkey : ks key = ks' key := hagree key rfl
    unfold exec decr
    rw [hkey]
    split
    · exact ⟨rfl, hagree⟩
    · exact ⟨rfl, by simp⟩
    · split
      · exact ⟨rfl, hagree⟩
      · split
        · exact ⟨rfl, hagree⟩
        · split
          · exact ⟨rfl, hagree⟩
          · exact ⟨rfl, by simp⟩
  writes ks k hk := by
    have hne : k ≠ key := hk
    unfold exec decr
    split
    · rfl
    · exact Function.update_of_ne hne _ _
    · split
      · rfl
      · split
        · rfl
        · split
          · rfl
          · exact Function.update_of_ne hne _ _

theorem local_sismember (key member : String) : Local {key} (sismember key member) :=
  .of_key
    (fun
      | none => .ok false
      | some (.set members) => .ok (decide (member ∈ members))
      | some (.string _) => .error .wrongType)
    id
    (fun ks => by
      rw [id, update_same]
      unfold exec sismember
      cases ks key with
      | none => rfl
      | some v => cases v <;> rfl)

theorem local_sadd (key member : String) : Local {key} (sadd key member) :=
  .of_key
    (fun
      | none => .ok ()
      | some (.set _) => .ok ()
      | some (.string _) => .error .wrongType)
    (fun
      | none => some (.set {member})
      | some (.set members) => some (.set (insert member members))
      | some (.string text) => some (.string text))
    (fun ks => by
      unfold exec sadd
      cases h : ks key with
      | none => rfl
      | some v =>
          cases v with
          | set members => rfl
          | string text => simp [← h])

/-! ## Invariants of scripts -/

/-- `c` keeps `P`, whether it answers or fails. -/
def Preserves {α : Type} (P : Keyspace → Prop) (c : Command α) : Prop :=
  ∀ ks, P ks → P (exec c ks).2

namespace Preserves

variable {α β : Type} {P : Keyspace → Prop}

theorem pure (a : α) : Preserves P (Pure.pure a : Command α) := fun _ h => h

theorem throw (e : Error) : Preserves P (throwThe Error e : Command α) := fun _ h => h

theorem bind {c : Command α} {f : α → Command β} (hc : Preserves P c)
    (hf : ∀ a, Preserves P (f a)) : Preserves P (c >>= f) := by
  intro ks h
  have hmid := hc ks h
  rw [exec_bind]
  rcases hks : exec c ks with ⟨result, mid⟩
  rw [hks] at hmid
  cases result with
  | ok a => exact hf a mid hmid
  | error e => exact hmid

/-- A command keeps what is said about the keys it does not touch. -/
theorem of_local {c : Command α} {K : Set String} (hc : Local K c) {key : String}
    (hkey : key ∉ K) (Q : Option Value → Prop) : Preserves (fun ks => Q (ks key)) c := by
  intro ks h
  rw [hc.writes ks key hkey]
  exact h

end Preserves

/-- `key` holds a set with `member` in it. -/
def Holds (member : String) (value : Option Value) : Prop :=
  ∃ members, value = some (.set members) ∧ member ∈ members

theorem exec_sismember_ok {ks ks' : Keyspace} {key member : String} {answer : Bool}
    (h : exec (sismember key member) ks = (.ok answer, ks')) :
    ks' = ks ∧ (answer = true ↔ Holds member (ks key)) := by
  unfold exec sismember at h
  split at h
  · next hnone =>
      cases h
      exact ⟨rfl, by simp [Holds, hnone]⟩
  · next members hset =>
      cases h
      exact ⟨rfl, by simp [Holds, hset]⟩
  · cases h

theorem exec_get_state (ks : Keyspace) (key : String) : (exec (get key) ks).2 = ks := by
  unfold exec get
  split <;> rfl

theorem exec_sadd_ok {ks ks' : Keyspace} {key member : String}
    (h : exec (sadd key member) ks = (.ok (), ks')) : Holds member (ks' key) := by
  unfold exec sadd at h
  split at h
  · cases h
    exact ⟨{member}, by simp, by simp⟩
  · next members hset =>
      cases h
      exact ⟨insert member members, by simp, by simp⟩
  · cases h

/-- Members are only removed with their key. -/
theorem preserves_sadd (key added member : String) :
    Preserves (fun ks => Holds member (ks key)) (sadd key added) := by
  rintro ks ⟨members, hset, hmem⟩
  refine ⟨insert added members, ?_, Finset.mem_insert_of_mem hmem⟩
  simp [exec, sadd, hset]

/-! ## Interleavings of commands -/

section Interleaving

variable {ι α : Type} (command : ι → Command α)

/-- Run commands one after another, keeping every reply. -/
def execAll : List ι → Keyspace → List (ι × Except Error α) × Keyspace
  | [], ks => ([], ks)
  | i :: rest, ks =>
      let (reply, ks') := exec (command i) ks
      let (replies, final) := execAll rest ks'
      ((i, reply) :: replies, final)

@[simp] theorem execAll_nil (ks : Keyspace) : execAll command [] ks = ([], ks) := rfl

theorem execAll_cons (i : ι) (rest : List ι) (ks : Keyspace) :
    execAll command (i :: rest) ks =
      ((i, (exec (command i) ks).1) :: (execAll command rest (exec (command i) ks).2).1,
        (execAll command rest (exec (command i) ks).2).2) := rfl

theorem execAll_append (run rest : List ι) (ks : Keyspace) :
    execAll command (run ++ rest) ks =
      ((execAll command run ks).1 ++ (execAll command rest (execAll command run ks).2).1,
        (execAll command rest (execAll command run ks).2).2) := by
  induction run generalizing ks with
  | nil => rfl
  | cons i run ih => simp only [List.cons_append, execAll_cons, ih]

/-- **Noninterference.** Deleting from an interleaving every command that leaves
the keys in `K` alone changes neither the replies of the commands local to `K`
nor the final values of `K`. -/
theorem execAll_filter (keep : ι → Bool) (K : Set String) (run : List ι)
    (hkeep : ∀ i ∈ run, keep i = true → Local K (command i))
    (hdrop : ∀ i ∈ run, keep i = false → ∀ ks, ∀ k ∈ K, (exec (command i) ks).2 k = ks k)
    (ks ks' : Keyspace) (hagree : ∀ k ∈ K, ks k = ks' k) :
    (execAll command run ks).1.filter (fun r => keep r.1) =
        (execAll command (run.filter keep) ks').1 ∧
      ∀ k ∈ K, (execAll command run ks).2 k = (execAll command (run.filter keep) ks').2 k := by
  induction run generalizing ks ks' with
  | nil => exact ⟨rfl, hagree⟩
  | cons i run ih =>
      have hrest := ih (fun j hj => hkeep j (List.mem_cons_of_mem _ hj))
        (fun j hj => hdrop j (List.mem_cons_of_mem _ hj))
      rw [execAll_cons]
      cases hi : keep i with
      | true =>
          obtain ⟨hreply, hstate⟩ :=
            (hkeep i List.mem_cons_self hi).reads ks ks' hagree
          obtain ⟨hreplies, hfinal⟩ := hrest _ _ hstate
          simp only [List.filter_cons, hi, if_true, execAll_cons]
          exact ⟨by rw [hreply, hreplies], hfinal⟩
      | false =>
          have hstate : ∀ k ∈ K, (exec (command i) ks).2 k = ks' k := fun k hk =>
            (hdrop i List.mem_cons_self hi ks k hk).trans (hagree k hk)
          obtain ⟨hreplies, hfinal⟩ := hrest _ _ hstate
          simp only [List.filter_cons, hi, Bool.false_eq_true, if_false]
          exact ⟨hreplies, hfinal⟩

end Interleaving

end Axes.Lib.Redis
