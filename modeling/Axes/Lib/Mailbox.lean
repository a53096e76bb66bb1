import Mathlib.Data.List.Perm.Basic
import Mathlib.Data.List.Pairwise

/-!
# Dispatch under a lock, send after it

Workers dispatch items under a lock, which a log records in order, and send them one by
one after the lock is released. An item carries its place in the log. `select` says which
items a recipient gets, and as what. Whatever the interleaving, the recipient's queue and
what is still pending for it make up its share of the log (`Accounted`); and if no item
overtakes an earlier one (`InOrder`), its queue is a prefix of that share.
-/

namespace Axes.Lib.Mailbox

variable {ε β : Type*} {select : ε → Option β}

/-- What the recipient gets of an item, with the item's place. -/
def pick (select : ε → Option β) (entry : ε × Nat) : Option (β × Nat) :=
  (select entry.1).map fun b => (b, entry.2)

/-- The recipient's share of some placed items. -/
def share (select : ε → Option β) (entries : List (ε × Nat)) : List (β × Nat) :=
  entries.filterMap (pick select)

@[simp] theorem share_append (left right : List (ε × Nat)) :
    share select (left ++ right) = share select left ++ share select right :=
  List.filterMap_append ..

theorem mem_share {entries : List (ε × Nat)} {b : β} {n : Nat} :
    (b, n) ∈ share select entries ↔ ∃ e, (e, n) ∈ entries ∧ select e = some b := by
  simp only [share, pick, List.mem_filterMap, Option.map_eq_some_iff, Prod.mk.injEq]
  constructor
  · rintro ⟨⟨e, m⟩, hentry, b', hselect, rfl, rfl⟩
    exact ⟨e, hentry, hselect⟩
  · rintro ⟨e, hentry, hselect⟩
    exact ⟨(e, n), hentry, b, hselect, rfl, rfl⟩

theorem share_map_fst (log : List ε) (n : Nat) :
    (share select (log.zipIdx n)).map (·.1) = log.filterMap select := by
  induction log generalizing n with
  | nil => rfl
  | cons e log ih =>
      simp only [share] at ih
      simp only [share, List.zipIdx_cons, List.filterMap_cons, pick]
      cases select e with
      | none => exact ih (n + 1)
      | some b => simpa using ih (n + 1)

/-- Places grow along the log. -/
theorem pairwise_zipIdx (log : List ε) (n : Nat) :
    (log.zipIdx n).Pairwise (fun x y => x.2 < y.2) := by
  have hrange : ((log.zipIdx n).map (·.2)).Pairwise (· < ·) := by
    rw [List.zipIdx_map_snd]
    exact List.pairwise_lt_range'
  exact List.pairwise_map.mp hrange

theorem pairwise_share (log : List ε) (n : Nat) :
    (share select (log.zipIdx n)).Pairwise (fun x y => x.2 < y.2) := by
  refine (pairwise_zipIdx log n).filterMap _ ?_
  intro x y hxy x' hx y' hy
  obtain ⟨_, _, rfl⟩ := Option.map_eq_some_iff.mp hx
  obtain ⟨_, _, rfl⟩ := Option.map_eq_some_iff.mp hy
  exact hxy

/-- The queue and the pending items make up the recipient's share of the log. -/
def Accounted (select : ε → Option β) (log : List ε) (queue : List (β × Nat))
    (pending : List (ε × Nat)) : Prop :=
  (queue ++ share select pending).Perm (share select log.zipIdx)

section Accounted

variable {log new : List ε} {queue : List (β × Nat)} {pending pending' : List (ε × Nat)}

theorem accounted_nil : Accounted select [] [] [] := .refl _

theorem Accounted.perm (h : Accounted select log queue pending) (hp : pending.Perm pending') :
    Accounted select log queue pending' :=
  ((hp.filterMap _).append_left queue).symm.trans h

/-- New items are dispatched. -/
theorem Accounted.dispatch (h : Accounted select log queue pending)
    (hp : pending'.Perm (pending ++ new.zipIdx log.length)) :
    Accounted select (log ++ new) queue pending' := by
  unfold Accounted
  rw [List.zipIdx_append, share_append, Nat.zero_add]
  refine ((hp.filterMap _).append_left queue).trans ?_
  show (queue ++ share select (pending ++ new.zipIdx log.length)).Perm _
  rw [share_append, ← List.append_assoc]
  exact List.Perm.append_right _ h

/-- A pending item is sent; only its recipient's queue grows. -/
theorem Accounted.send (h : Accounted select log queue pending) {entry : ε × Nat}
    (hp : pending.Perm (entry :: pending')) :
    Accounted select log (queue ++ (pick select entry).toList) pending' := by
  have hshare := (h.perm hp)
  unfold Accounted at hshare ⊢
  refine List.Perm.trans ?_ hshare
  rw [List.append_assoc]
  refine List.Perm.append_left queue ?_
  unfold share
  rw [List.filterMap_cons]
  cases pick select entry with
  | none => exact .refl _
  | some x => exact .refl _

/-- Of what the recipient gets, look only at what `p` holds of. -/
theorem Accounted.restrict (h : Accounted select log queue pending) (p : β → Bool) :
    Accounted (fun e => (select e).filter p) log (queue.filter fun x => p x.1) pending := by
  have hshare (entries : List (ε × Nat)) : share (fun e => (select e).filter p) entries =
      (share select entries).filter fun x => p x.1 := by
    unfold share
    rw [List.filter_filterMap]
    refine List.filterMap_congr ?_
    intro entry _
    simp only [pick]
    cases select entry.1 with
    | none => rfl
    | some b => by_cases hp : p b = true <;> simp [hp, Option.filter]
  unfold Accounted
  rw [hshare, hshare, ← List.filter_append]
  exact h.filter _

theorem Accounted.place_lt (h : Accounted select log queue pending) {x : β × Nat}
    (hx : x ∈ queue) : x.2 < log.length := by
  obtain ⟨b, n⟩ := x
  obtain ⟨e, hmem, -⟩ := mem_share.mp (h.subset (List.mem_append_left _ hx))
  simpa using List.snd_lt_of_mem_zipIdx hmem

/-- Nothing is lost and nothing is made up. -/
theorem Accounted.values (h : Accounted select log queue pending) :
    (queue.map (·.1) ++ (share select pending).map (·.1)).Perm (log.filterMap select) := by
  rw [← share_map_fst log 0, ← List.map_append]
  exact h.map _

end Accounted

/-! ## Order -/

/-- A sorted front of a permutation of a sorted list is a prefix of it, when nothing
outside the front belongs before it. -/
theorem isPrefix_of_perm {α : Type*} {r : α → α → Prop} (hasymm : ∀ a b, r a b → ¬r b a)
    {front back sorted : List α} (hperm : (front ++ back).Perm sorted)
    (hfront : front.Pairwise r) (hcross : ∀ x ∈ front, ∀ y ∈ back, r x y)
    (hsorted : sorted.Pairwise r) : front <+: sorted := by
  -- On the front; what is left of it is a front of the rest.
  induction front generalizing sorted with
  | nil => exact List.nil_prefix
  | cons x front ih =>
      obtain ⟨hx, hfront⟩ := List.pairwise_cons.mp hfront
      cases sorted with
      | nil => exact absurd hperm.length_eq (by simp)
      | cons e sorted =>
          obtain ⟨he, htail⟩ := List.pairwise_cons.mp hsorted
          -- the least element of the whole is the first of the front
          obtain rfl : x = e := by
            by_contra hne
            have hxe : r e x := by
              rcases List.mem_cons.mp (hperm.subset List.mem_cons_self) with h | h
              · exact absurd h hne
              · exact he x h
            have hex : r x e := by
              rcases List.mem_cons.mp (hperm.symm.subset List.mem_cons_self) with h | h
              · exact absurd h.symm hne
              · rcases List.mem_append.mp h with h | h
                · exact hx e h
                · exact hcross x List.mem_cons_self e h
            exact hasymm _ _ hxe hex
          refine List.cons_prefix_cons.mpr ⟨rfl, ih (List.Perm.cons_inv hperm) hfront ?_ htail⟩
          exact fun y hy => hcross y (List.mem_cons_of_mem _ hy)

/-- What was sent was sent in the order of dispatching, and all of it before what is
pending. -/
structure InOrder (select : ε → Option β) (queue : List (β × Nat))
    (pending : List (ε × Nat)) : Prop where
  sorted : queue.Pairwise (fun x y => x.2 < y.2)
  ahead : ∀ x ∈ queue, ∀ y ∈ share select pending, x.2 < y.2

section InOrder

variable {log new : List ε} {queue : List (β × Nat)} {pending pending' : List (ε × Nat)}

theorem inOrder_nil : InOrder select [] [] := ⟨.nil, by simp⟩

theorem InOrder.dispatch (h : InOrder select queue pending)
    (haccounted : Accounted select log queue pending)
    (hp : pending'.Perm (pending ++ new.zipIdx log.length)) : InOrder select queue pending' where
  sorted := h.sorted
  ahead x hx y hy := by
    have hsub := (hp.filterMap (pick select)).subset hy
    rw [List.filterMap_append] at hsub
    rcases List.mem_append.mp hsub with hold | hnew
    · exact h.ahead x hx y hold
    · obtain ⟨b, n⟩ := y
      obtain ⟨e, hmem, -⟩ := mem_share.mp hnew
      have hplace : log.length ≤ n := List.le_snd_of_mem_zipIdx hmem
      exact Nat.lt_of_lt_of_le (haccounted.place_lt hx) hplace

/-- Sending keeps the order when nothing earlier is pending for the recipient. -/
theorem InOrder.send (h : InOrder select queue pending)
    (haccounted : Accounted select log queue pending) {entry : ε × Nat}
    (hp : pending.Perm (entry :: pending'))
    (hfirst : ∀ x, pick select entry = some x → ∀ y ∈ share select pending', x.2 ≤ y.2) :
    InOrder select (queue ++ (pick select entry).toList) pending' := by
  have hshare :
      (share select pending).Perm ((pick select entry).toList ++ share select pending') := by
    refine (hp.filterMap _).trans ?_
    rw [List.filterMap_cons]
    cases pick select entry with
    | none => exact .refl _
    | some x => exact .refl _
  -- Places are distinct, so `hfirst` is strict.
  have hdistinct : (((pick select entry).toList ++ share select pending').map (·.2)).Nodup := by
    have hlog : ((share select log.zipIdx).map (·.2)).Nodup :=
      (List.pairwise_map.mpr (pairwise_share log 0)).imp Nat.ne_of_lt
    have hall := (haccounted.map (·.2)).nodup_iff.mpr hlog
    rw [List.map_append] at hall
    exact (hshare.map (·.2)).nodup_iff.mp (List.nodup_append.mp hall).2.1
  cases hpick : pick select entry with
  | none =>
      rw [hpick] at hshare
      refine ⟨by simpa using h.sorted, ?_⟩
      intro x hx y hy
      exact h.ahead x (by simpa using hx) y (hshare.symm.subset hy)
  | some z =>
      rw [hpick] at hshare hdistinct
      have hz : ∀ x ∈ queue, x.2 < z.2 := fun x hx =>
        h.ahead x hx z (hshare.symm.subset List.mem_cons_self)
      constructor
      · refine List.pairwise_append.mpr ⟨h.sorted, List.pairwise_singleton _ _, ?_⟩
        intro x hx y hy
        obtain rfl := List.mem_singleton.mp hy
        exact hz x hx
      · intro x hx y hy
        rcases List.mem_append.mp hx with hx | hx
        · exact h.ahead x hx y (hshare.symm.subset (List.mem_cons_of_mem _ hy))
        · obtain rfl := List.mem_singleton.mp hx
          refine Nat.lt_of_le_of_ne (hfirst x hpick y hy) ?_
          intro heq
          have hfresh : x.2 ∉ (share select pending').map (·.2) := (List.nodup_cons.mp hdistinct).1
          rw [heq] at hfresh
          exact hfresh (List.mem_map_of_mem hy)

/-- **In order means a prefix.** -/
theorem InOrder.isPrefix (h : InOrder select queue pending)
    (haccounted : Accounted select log queue pending) :
    queue.map (·.1) <+: log.filterMap select := by
  rw [← share_map_fst log 0]
  exact (isPrefix_of_perm (fun _ _ h => Nat.not_lt_of_gt h) haccounted
    h.sorted h.ahead (pairwise_share log 0)).map _

/-- With nothing pending, the queue is the whole share. -/
theorem InOrder.complete (h : InOrder select queue pending)
    (haccounted : Accounted select log queue pending) (hquiet : share select pending = []) :
    queue.map (·.1) = log.filterMap select := by
  have hlength := haccounted.values.length_eq
  rw [hquiet, List.map_nil, List.append_nil] at hlength
  exact (h.isPrefix haccounted).eq_of_length hlength

end InOrder

end Axes.Lib.Mailbox
