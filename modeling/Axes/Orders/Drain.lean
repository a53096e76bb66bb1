import Axes.Lib.Progress
import Axes.Orders.Lane

/-!
# Emptying an outbox (`orders/worker.rs`)

What one publisher can do with an outbox alone: as long as a row is neither published nor in
its batch, it can list, and each record of the batch it can send and mark. The measure is the
number of rows that are not published, and then the length of the batch.
-/

namespace Axes.Orders

open Axes.Lib Axes.Lib.Table

namespace Lane

variable {ε ω : Type} {now : DateTime} {w : Nat}

/-- A lane and its outbox, at one time. -/
def system (now : DateTime) (ε ω : Type) : TSys (List (OutboxRow ε) × Lane ε ω) LaneAction where
  init s := s = ([], .start)
  step s action := s.2.step now s.1 action

/-- Steps of publisher `w`. -/
def Publishes (w : Nat) (_ : List (OutboxRow ε) × Lane ε ω) (action : LaneAction) : Prop :=
  ∃ step, action = .publish w step

/-- The publisher is between two sends, and what is not published is in its batch or can be
claimed. -/
structure Emptying (now : DateTime) (w : Nat) (consumers : Nat → Consumer (Option ε) ω)
    (s : List (OutboxRow ε) × Lane ε ω) : Prop where
  between : ∃ claimedAt batch, s.2.publishers w = .resume claimedAt batch
  consumers : s.2.consumers = consumers
  reachable : ∀ row ∈ s.1, row.publishedOnUtc = none →
    row.claimable now = true ∨ row.id ∈ (s.2.publishers w).unmarked.map (·.id)

/-- The rows that are not published. -/
def unpublished (table : List (OutboxRow ε)) : Nat :=
  table.countP fun row => row.publishedOnUtc.isNone

theorem unpublished_mark_le (utcNow : DateTime) (id : Int) (table : List (OutboxRow ε)) :
    unpublished (markOutboxPublished utcNow id table) ≤ unpublished table :=
  countP_updateWhere_le fun _ h => by cases h

theorem unpublished_mark_lt (utcNow : DateTime) {row : OutboxRow ε} {table : List (OutboxRow ε)}
    (hrow : row ∈ table) (hunpublished : row.publishedOnUtc = none) :
    unpublished (markOutboxPublished utcNow row.id table) < unpublished table := by
  refine countP_updateWhere_lt (fun _ h => by cases h) ⟨row, hrow, decide_eq_true rfl, ?_, rfl⟩
  rw [hunpublished]
  rfl

theorem length_markPublished (utcNow : DateTime) (id : Int) (table : List (OutboxRow ε)) :
    (markOutboxPublished utcNow id table).length = table.length :=
  List.length_map _

theorem length_listed (now : DateTime) (limit : Nat) (table : List (OutboxRow ε)) :
    (listUnpublishedOutbox now limit table).2.length = table.length :=
  List.length_map _

/-- Locking rows publishes none. -/
theorem unpublished_list (now : DateTime) (limit : Nat) (table : List (OutboxRow ε)) :
    unpublished (listUnpublishedOutbox now limit table).2 = unpublished table := by
  have hcolumn : (listUnpublishedOutbox now limit table).2.map (·.publishedOnUtc) =
      table.map (·.publishedOnUtc) := map_updateWhere fun _ => rfl
  have hcount : ∀ t : List (OutboxRow ε),
      unpublished t = (t.map (·.publishedOnUtc)).countP (·.isNone) := by
    intro t
    rw [List.countP_map]
    rfl
  rw [hcount, hcount, hcolumn]

variable {consumers : Nat → Consumer (Option ε) ω} {s : List (OutboxRow ε) × Lane ε ω}

/-- The publisher sends the first record of its batch, and marks it. -/
theorem Emptying.mark (h : Emptying now w consumers s) {claimedAt : DateTime}
    {message : OutboxMessageRecord ε} {rest : List (OutboxMessageRecord ε)}
    (hbatch : s.2.publishers w = .sending claimedAt (message :: rest)) :
    (system now ε ω).CanReach (Publishes w) (fun t => Emptying now w consumers t ∧
      t.1 = markOutboxPublished now message.id s.1 ∧ (t.2.publishers w).unmarked = rest) s := by
  rcases s with ⟨table, lane⟩
  dsimp only at hbatch
  refine TSys.CanReach.step (a := .publish w (.send 0 (.acknowledged 0))) ⟨_, rfl⟩
    (t := (table, ((lane.setPublisher w (.marking claimedAt message (.ok ()) rest)).store
      (some (0, message.payload))).acknowledge [message])) ?_ ?_
  · simp [system, Lane.step, Publisher.step, hbatch, SendOutcome.result, SendOutcome.stored,
      acknowledges]
  refine TSys.CanReach.one (a := .publish w (.mark now)) ⟨_, rfl⟩
    (t := (markOutboxPublished now message.id table,
      (((lane.setPublisher w (.marking claimedAt message (.ok ()) rest)).store
        (some (0, message.payload))).acknowledge [message]).setPublisher w
          (.resume claimedAt rest))) ?_ ?_
  · simp [system, Lane.step, Publisher.step, acknowledge, store, setPublisher, markOutbox,
      acknowledges]
  refine ⟨⟨⟨claimedAt, rest, setPublisher_self ..⟩, h.consumers, ?_⟩, rfl, ?_⟩
  · intro row' hrow' hunpublished
    obtain ⟨row, hrow, rfl⟩ := mem_updateWhere.mp hrow'
    dsimp only
    rw [setPublisher_self, Publisher.unmarked_resume]
    by_cases hid : row.id = message.id
    · rw [if_pos (decide_eq_true hid)] at hunpublished
      cases hunpublished
    · rw [if_neg (by simpa using hid)] at hunpublished ⊢
      have hreachable := h.reachable row hrow hunpublished
      dsimp only at hreachable
      rw [hbatch] at hreachable
      refine hreachable.imp_right ?_
      intro hmem
      exact (List.mem_cons.mp hmem).resolve_left hid
  · dsimp only
    rw [setPublisher_self, Publisher.unmarked_resume]

/-- When some row can be claimed, a list claims one. -/
theorem exists_listed {table : List (OutboxRow ε)} {row : OutboxRow ε} (hrow : row ∈ table)
    (hclaimable : row.claimable now = true) :
    ∃ message rest, (listUnpublishedOutbox now 50 table).1 = message :: rest ∧
      rest.length < table.length ∧
      ∃ row ∈ (listUnpublishedOutbox now 50 table).2,
        row.id = message.id ∧ row.publishedOnUtc = none := by
  have hsorted : row.id ∈ ((table.filter (OutboxRow.claimable now)).map (·.id)).insertionSort
      (· ≤ ·) :=
    (List.mem_insertionSort _).mpr
      (List.mem_map_of_mem (List.mem_filter.mpr ⟨hrow, hclaimable⟩))
  obtain ⟨id, hid⟩ : ∃ id, id ∈ pickedIds now 50 table := by
    unfold pickedIds
    cases hlist : ((table.filter (OutboxRow.claimable now)).map (·.id)).insertionSort (· ≤ ·) with
    | nil =>
        rw [hlist] at hsorted
        cases hsorted
    | cons id ids => exact ⟨id, List.mem_cons_self⟩
  obtain ⟨picked, hpicked, rfl, -⟩ := exists_claimable hid
  have hlisted : picked.record ∈ (listUnpublishedOutbox now 50 table).1 :=
    List.mem_map_of_mem (List.mem_filter.mpr ⟨hpicked, decide_eq_true hid⟩)
  cases hbatch : (listUnpublishedOutbox now 50 table).1 with
  | nil =>
      rw [hbatch] at hlisted
      cases hlisted
  | cons message rest =>
      have hmessage : message ∈ (listUnpublishedOutbox now 50 table).1 := by
        rw [hbatch]
        exact List.mem_cons_self
      obtain ⟨other, hother, hsame, hclaimable⟩ := exists_claimable (mem_listed hmessage).1
      have hlength : (message :: rest).length ≤ table.length := by
        rw [← hbatch]
        exact (List.length_map _).trans_le (List.length_filter_le _ _)
      refine ⟨message, rest, rfl, hlength, _, mem_updateWhere.mpr ⟨other, hother, rfl⟩, ?_⟩
      have hunpublished := (OutboxRow.claimable_iff.mp hclaimable).1
      split
      · exact ⟨hsame, hunpublished⟩
      · exact ⟨hsame, hunpublished⟩

/-- The publisher lists, when there is something to publish. -/
theorem Emptying.list (h : Emptying now w consumers s) (hidle : s.2.publishers w = .idle)
    {row : OutboxRow ε} (hrow : row ∈ s.1) (hunpublished : row.publishedOnUtc = none) :
    (system now ε ω).CanReach (Publishes w) (fun t => Emptying now w consumers t ∧
      t.1 = (listUnpublishedOutbox now 50 s.1).2 ∧
      ∃ message rest, t.2.publishers w = .sending now (message :: rest) ∧
        rest.length < s.1.length ∧
        ∃ row ∈ t.1, row.id = message.id ∧ row.publishedOnUtc = none) s := by
  rcases s with ⟨table, lane⟩
  dsimp only at hidle hrow
  have hclaimable : ∀ row ∈ table, row.publishedOnUtc = none → row.claimable now = true := by
    intro row hrow hunpublished
    have hreachable := h.reachable row hrow hunpublished
    dsimp only at hreachable
    rw [hidle] at hreachable
    exact hreachable.resolve_right List.not_mem_nil
  obtain ⟨message, rest, hbatch, hlength, hunsent⟩ :=
    exists_listed hrow (hclaimable row hrow hunpublished)
  refine TSys.CanReach.one (a := .publish w .list) ⟨_, rfl⟩
    (t := ((listUnpublishedOutbox now 50 table).2,
      lane.setPublisher w (.resume now (listUnpublishedOutbox now 50 table).1))) ?_ ?_
  · simp [system, Lane.step, Publisher.step, hidle, acknowledges]
  refine ⟨⟨⟨now, _, setPublisher_self ..⟩, h.consumers, ?_⟩, rfl, message, rest, ?_, hlength,
    hunsent⟩
  · intro row' hrow' hunpublished'
    obtain ⟨other, hother, rfl⟩ := mem_updateWhere.mp hrow'
    dsimp only
    rw [setPublisher_self, Publisher.unmarked_resume]
    by_cases hpicked : other.id ∈ pickedIds now 50 table
    · rw [if_pos (decide_eq_true hpicked)]
      exact .inr (List.mem_map.mpr ⟨other.record,
        List.mem_map_of_mem (List.mem_filter.mpr ⟨hother, decide_eq_true hpicked⟩), rfl⟩)
    · rw [if_neg (by simpa using hpicked)] at hunpublished' ⊢
      exact .inl (hclaimable other hother hunpublished')
  · dsimp only
    rw [setPublisher_self, hbatch]
    rfl

/-- **A publisher alone empties an outbox** whose locks are over. -/
theorem publishes (hidle : s.2.publishers w = .idle)
    (hunlocked : ∀ row ∈ s.1, row.publishedOnUtc = none → row.claimable now = true) :
    (system now ε ω).CanReach (Publishes w) (fun t =>
      (∀ row ∈ t.1, row.publishedOnUtc ≠ none) ∧ t.2.publishers w = .idle ∧
        t.2.consumers = s.2.consumers) s := by
  -- a mark publishes a row of a new batch, and shortens one that was begun
  refine TSys.CanReach.variant (P := Emptying now w s.2.consumers)
    (fun t => (t.1.length + 1) * unpublished t.1 + (t.2.publishers w).unmarked.length) ?_
    ⟨⟨now, [], by rw [hidle]; rfl⟩, rfl, fun row hrow h => .inl (hunlocked row hrow h)⟩
  intro t ht
  obtain ⟨claimedAt, batch, hbetween⟩ := ht.between
  cases batch with
  | cons message rest =>
      refine .inr ((ht.mark hbetween).mono ?_)
      rintro u ⟨hu, htable, hrest⟩
      refine ⟨hu, ?_⟩
      have hle := Nat.mul_le_mul_left (t.1.length + 1) (unpublished_mark_le now message.id t.1)
      rw [htable, hrest, hbetween, length_markPublished]
      show _ < (t.1.length + 1) * unpublished t.1 + (message :: rest).length
      rw [List.length_cons]
      omega
  | nil =>
      by_cases hdone : ∀ row ∈ t.1, row.publishedOnUtc ≠ none
      · exact .inl ⟨hdone, hbetween, ht.consumers⟩
      · push Not at hdone
        obtain ⟨row, hrow, hunpublished⟩ := hdone
        refine .inr ((ht.list hbetween hrow hunpublished).trans ?_)
        rintro u ⟨hu, hlisted, message, rest, hbatch, hlength, hunsent⟩
        refine (hu.mark hbatch).mono ?_
        rintro v ⟨hv, hmarked, hrest⟩
        refine ⟨hv, ?_⟩
        have hlt : unpublished (markOutboxPublished now message.id u.1) < unpublished t.1 := by
          obtain ⟨first, hfirst, hid, hfirst_unpublished⟩ := hunsent
          rw [← unpublished_list now 50 t.1, ← hlisted, ← hid]
          exact unpublished_mark_lt now hfirst hfirst_unpublished
        have hle := Nat.mul_le_mul_left (t.1.length + 1) (Nat.succ_le_of_lt hlt)
        have hsame : u.1.length = t.1.length := by rw [hlisted, length_listed]
        rw [hmarked, hrest, hbetween, length_markPublished, hsame]
        rw [Nat.mul_succ] at hle
        show _ < (t.1.length + 1) * unpublished t.1 + 0
        omega

end Lane

end Axes.Orders
