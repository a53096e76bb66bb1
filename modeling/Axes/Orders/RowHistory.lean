import Mathlib.Data.List.Perm.Basic
import Axes.Orders.Published

/-!
# What a row of an outbox tells of its past

The columns the publishers write, over whole runs. A lock is there because a publisher has the
row in its batch, or crashed while it had; `token.cancelled()` is only awaited between two
batches, so publishers that were stopped and not killed leave no lock behind. The other columns
say what the marks of the row were: how many failed, when the last one succeeded, and what the
last one said.
-/

namespace Axes.Orders

open Axes.Lib Axes.Lib.Table

namespace OutboxWorld

variable {ε : Type} {world world' s₀ s : OutboxWorld ε} {action : OutboxAction ε}
  {ts : List (Transition (OutboxWorld ε) (OutboxAction ε))}

/-- Publisher `w` has the row in its batch, not marked yet. -/
def Has (world : OutboxWorld ε) (w : Nat) (id : Int) : Prop :=
  id ∈ (world.publishers w).unmarked.map (·.id)

/-! ## Locks -/

/-- The row was in the batch of a publisher that crashed. -/
def Orphaned (ts : List (Transition (OutboxWorld ε) (OutboxAction ε))) (id : Int) : Prop :=
  ∃ tr ∈ ts, ∃ w, tr.action = .crash w ∧ tr.pre.Has w id

/-- No lock is longer than a lease from now, and each has a publisher to it. -/
structure Locked (ts : List (Transition (OutboxWorld ε) (OutboxAction ε))) (world : OutboxWorld ε)
    (row : OutboxRow ε) (lockedUntil : DateTime) : Prop where
  bounded : lockedUntil ≤ world.now + seconds outboxLockSeconds
  owned : (∃ w, world.Has w row.id) ∨ Orphaned ts row.id

theorem Orphaned.mono {id : Int} (h : Orphaned ts id)
    (tr : Transition (OutboxWorld ε) (OutboxAction ε)) : Orphaned (ts ++ [tr]) id := by
  obtain ⟨crash, hcrash, hw⟩ := h
  exact ⟨crash, List.mem_append_left _ hcrash, hw⟩

/-- A publisher other than `w` keeps what it has. -/
theorem has_of_ne {v w : Nat} {id : Int} {publisher : Publisher ε} (hne : v ≠ w)
    (hworld : world'.publishers = Function.update world.publishers w publisher) :
    world'.Has v id ↔ world.Has v id := by
  unfold Has
  rw [hworld, Function.update_of_ne hne]

theorem has_self {w : Nat} {id : Int} {publisher : Publisher ε}
    (hworld : world'.publishers = Function.update world.publishers w publisher) :
    world'.Has w id ↔ id ∈ publisher.unmarked.map (·.id) := by
  unfold Has
  rw [hworld, Function.update_self]

/-- What `w` has left of a row decides whether the row still has a publisher. -/
theorem Has.keep {v w : Nat} {id : Int} {publisher : Publisher ε} (h : world.Has v id)
    (hworld : world'.publishers = Function.update world.publishers w publisher)
    (hself : world.Has w id → id ∈ publisher.unmarked.map (·.id)) : world'.Has v id := by
  by_cases hvw : v = w
  · subst hvw
    exact (has_self hworld).mpr (hself h)
  · exact (has_of_ne hvw hworld).mpr h

/-- A lock that a step leaves alone. -/
theorem Locked.keep {row : OutboxRow ε} {lockedUntil : DateTime}
    {tr : Transition (OutboxWorld ε) (OutboxAction ε)} (h : Locked ts world row lockedUntil)
    (hnow : world.now ≤ world'.now) (hhas : ∀ v, world.Has v row.id → world'.Has v row.id) :
    Locked (ts ++ [tr]) world' row lockedUntil := by
  obtain ⟨hbound, howned⟩ := h
  refine ⟨hbound.trans (Int.add_le_add_right hnow _), ?_⟩
  rcases howned with ⟨v, hv⟩ | horphaned
  · exact .inl ⟨v, hhas v hv⟩
  · exact .inr (horphaned.mono tr)

/-- The lock a step leaves on a row was there before, or is new. -/
theorem Locked.step (h : ∀ row ∈ world.table, ∀ lockedUntil,
      row.lockedUntilUtc = some lockedUntil → Locked ts world row lockedUntil)
    (hstep : world.step action = some world') :
    ∀ row ∈ world'.table, ∀ lockedUntil, row.lockedUntilUtc = some lockedUntil →
      Locked (ts ++ [⟨world, action, world'⟩]) world' row lockedUntil := by
  intro row' hrow' lockedUntil hlock
  cases step_cases hstep with
  | @ticked d =>
      refine (h row' hrow' lockedUntil hlock).keep ?_ fun _ hhas => hhas
      exact Int.le_add_of_nonneg_right (Int.natCast_nonneg d)
  | inserted _ =>
      rcases List.mem_append.mp hrow' with hrow | hnew
      · exact (h row' hrow lockedUntil hlock).keep (le_refl _) fun _ hhas => hhas
      · obtain rfl := List.mem_singleton.mp hnew
        cases hlock
  | @listed w hidle =>
      obtain ⟨row, hrow, rfl⟩ := mem_updateWhere.mp hrow'
      by_cases hpicked : row.id ∈ pickedIds world.now 50 world.table
      · -- the row is in the batch now
        rw [if_pos (decide_eq_true hpicked)] at hlock ⊢
        obtain rfl := Option.some.inj hlock
        refine ⟨le_refl _, .inl ⟨w, (has_self rfl).mpr ?_⟩⟩
        rw [Publisher.unmarked_resume]
        exact List.mem_map.mpr ⟨row.record,
          List.mem_map_of_mem (List.mem_filter.mpr ⟨hrow, decide_eq_true hpicked⟩), rfl⟩
      · rw [if_neg (by simpa using hpicked)] at hlock ⊢
        refine (h row hrow lockedUntil hlock).keep (le_refl _) fun v hhas => hhas.keep rfl ?_
        intro hself
        unfold Has at hself
        rw [hidle] at hself
        cases hself
  | @sent w index outcome claimedAt batch message hsending hfound =>
      refine (h row' hrow' lockedUntil hlock).keep (le_refl _) fun v hhas => hhas.keep rfl ?_
      intro hself
      unfold Has at hself
      rw [hsending] at hself
      obtain ⟨other, hother, hid⟩ := List.mem_map.mp hself
      refine List.mem_map.mpr ⟨other, ?_, hid⟩
      -- it is the message that is being sent, or waits in the rest of the batch
      show other ∈ message :: batch.eraseIdx index
      obtain ⟨hindex, rfl⟩ := List.getElem?_eq_some_iff.mp hfound
      exact (List.getElem_cons_eraseIdx_perm hindex).mem_iff.mpr hother
  | @marked w utcNow claimedAt message result rest hmarking =>
      dsimp only at hrow'
      rw [markOutbox_eq] at hrow'
      obtain ⟨row, hrow, rfl⟩ := mem_updateWhere.mp hrow'
      by_cases hid : row.id = message.id
      · -- a mark unlocks its row
        rw [if_pos (decide_eq_true hid)] at hlock
        cases result with
        | ok | error => cases hlock
      · rw [if_neg (by simpa using hid)] at hlock ⊢
        refine (h row hrow lockedUntil hlock).keep (le_refl _) fun v hhas => hhas.keep rfl ?_
        intro hself
        rw [Publisher.unmarked_resume]
        unfold Has at hself
        rw [hmarking] at hself
        exact (List.mem_cons.mp hself).resolve_left hid
  | @crashed w =>
      obtain ⟨hbound, howned⟩ := h row' hrow' lockedUntil hlock
      refine ⟨hbound, ?_⟩
      rcases howned with ⟨v, hhas⟩ | horphaned
      · by_cases hvw : v = w
        · exact .inr ⟨_, List.mem_append_right _ List.mem_cons_self, w, rfl, hvw ▸ hhas⟩
        · exact .inl ⟨v, (has_of_ne hvw rfl).mpr hhas⟩
      · exact .inr (horphaned.mono _)

theorem Locked.run (hunlocked : ∀ row ∈ s₀.table, row.lockedUntilUtc = none)
    (hrun : (system ε).Run s₀ ts s) : ∀ row ∈ s.table, ∀ lockedUntil,
      row.lockedUntilUtc = some lockedUntil → Locked ts s row lockedUntil := by
  induction hrun with
  | refl =>
      intro row hrow lockedUntil hlock
      rw [hunlocked row hrow] at hlock
      cases hlock
  | step _ hstep ih => exact Locked.step ih hstep

/-- **A lock outlives its publisher only by a crash.** In every state that a table without locks
gets to, a locked row is in the batch of a publisher, or was in the batch of one when it crashed,
and its lock is over in five minutes. So when no publisher has crashed and each is between two
batches, all that is not published can be claimed at once. -/
theorem locks_outlived_by_crash (hunlocked : ∀ row ∈ s₀.table, row.lockedUntilUtc = none)
    (hrun : (system ε).Run s₀ ts s) :
    (∀ row ∈ s.table, ∀ lockedUntil, row.lockedUntilUtc = some lockedUntil →
      lockedUntil ≤ s.now + seconds outboxLockSeconds ∧
        ((∃ w, s.Has w row.id) ∨ Orphaned ts row.id)) ∧
    ((∀ tr ∈ ts, ∀ w, tr.action ≠ .crash w) → (∀ w, s.publishers w = .idle) →
      ∀ row ∈ s.table, row.publishedOnUtc = none → row.claimable s.now = true) := by
  have hlocked := Locked.run hunlocked hrun
  refine ⟨?_, ?_⟩
  · intro row hrow lockedUntil hlock
    exact ⟨(hlocked row hrow lockedUntil hlock).bounded, (hlocked row hrow lockedUntil hlock).owned⟩
  · intro hcrash hidle row hrow hunpublished
    refine OutboxRow.claimable_iff.mpr ⟨hunpublished, ?_⟩
    intro lockedUntil hlock
    rcases (hlocked row hrow lockedUntil hlock).owned with ⟨w, hhas⟩ | ⟨tr, htr, w, hw, -⟩
    · unfold Has at hhas
      rw [hidle w] at hhas
      cases hhas
    · exact absurd hw (hcrash tr htr w)

/-- Publisher 0 crashed after it had claimed the only row, and the row is still locked. -/
theorem locks_outlived_by_crash_oneRow : ∃ ts s, (system String).Run oneRow ts s ∧
    (∃ row ∈ s.table, row.lockedUntilUtc ≠ none) ∧
    ∀ row ∈ s.table, ∀ lockedUntil, row.lockedUntilUtc = some lockedUntil →
      lockedUntil ≤ s.now + seconds outboxLockSeconds ∧
        ((∃ w, s.Has w row.id) ∨ Orphaned ts row.id) := by
  have hchecked : ((system String).exec [] oneRow [.publisher 0 .list, .crash 0]).any
      (fun r => ∃ row ∈ r.2.table, row.lockedUntilUtc ≠ none) = true := by decide
  obtain ⟨ts, s, hrun, hlocked⟩ := TSys.exists_run hchecked
  have hunlocked : ∀ row ∈ oneRow.table, row.lockedUntilUtc = none := by decide
  exact ⟨ts, s, hrun, of_decide_eq_true hlocked, (locks_outlived_by_crash hunlocked hrun).1⟩

/-! ## Marks -/

/-- The marks a run made of the row with an id, oldest first. -/
def marksOf (id : Int) (ts : List (Transition (OutboxWorld ε) (OutboxAction ε))) :
    List (DateTime × Except String Unit) :=
  ts.filterMap fun tr =>
    match tr.action with
    | .publisher w (.mark utcNow) =>
        match tr.pre.publishers w with
        | .marking _ message result _ =>
            if message.id = id then some (utcNow, result) else none
        | _ => none
    | _ => none

/-- The errors of the marks that failed. -/
def failures (marks : List (DateTime × Except String Unit)) : List String :=
  marks.filterMap fun mark =>
    match mark.2 with
    | .ok () => none
    | .error error => some error

/-- The times of the marks that succeeded. -/
def successes (marks : List (DateTime × Except String Unit)) : List DateTime :=
  marks.filterMap fun mark =>
    match mark.2 with
    | .ok () => some mark.1
    | .error _ => none

/-- What a row says, when it was `first` and got `marks` since. -/
structure Recorded (first : OutboxRow ε) (marks : List (DateTime × Except String Unit))
    (row : OutboxRow ε) : Prop where
  same : row = { first with
    publishedOnUtc := row.publishedOnUtc
    lockedUntilUtc := row.lockedUntilUtc
    retryCount := row.retryCount
    lastError := row.lastError }
  retryCount : row.retryCount = first.retryCount + (failures marks).length
  published : row.publishedOnUtc = (successes marks).getLast?.or first.publishedOnUtc
  lastError : row.lastError = match marks.getLast? with
    | none => first.lastError
    | some (_, .ok ()) => none
    | some (_, .error error) => some error

theorem Recorded.first (row : OutboxRow ε) : Recorded row [] row where
  same := rfl
  retryCount := (Int.add_zero _).symm
  published := rfl
  lastError := rfl

theorem Recorded.lock {first row : OutboxRow ε} {marks : List (DateTime × Except String Unit)}
    (h : Recorded first marks row) (lockedUntil : Option DateTime) :
    Recorded first marks { row with lockedUntilUtc := lockedUntil } where
  same := by
    rw [h.same]
  retryCount := h.retryCount
  published := h.published
  lastError := h.lastError

theorem Recorded.marked {first row : OutboxRow ε} {marks : List (DateTime × Except String Unit)}
    (h : Recorded first marks row) (utcNow : DateTime) (result : Except String Unit) :
    Recorded first (marks ++ [(utcNow, result)]) (row.marked utcNow result) := by
  cases result with
  | ok =>
      constructor
      · rw [h.same]
        rfl
      · simpa [failures, OutboxRow.marked] using h.retryCount
      · simp [successes, OutboxRow.marked]
      · simp [OutboxRow.marked]
  | error error =>
      constructor
      · rw [h.same]
        rfl
      · have hcount := h.retryCount
        simp [failures, OutboxRow.marked] at hcount ⊢
        omega
      · simpa [successes, OutboxRow.marked] using h.published
      · simp [OutboxRow.marked]

/-- The row a run started with, or inserted. -/
def Origin (s₀ : OutboxWorld ε) (ts : List (Transition (OutboxWorld ε) (OutboxAction ε)))
    (first : OutboxRow ε) : Prop :=
  first ∈ s₀.table ∨ ∃ tr ∈ ts, ∃ id messageId correlationId eventType payload,
    tr.action = .insert id messageId correlationId eventType payload ∧
      first = .new id messageId correlationId eventType payload tr.pre.now

/-- The rows of a table say what was done to them, and only they were marked. -/
structure Told (s₀ : OutboxWorld ε) (ts : List (Transition (OutboxWorld ε) (OutboxAction ε)))
    (world : OutboxWorld ε) : Prop where
  rows : ∀ row ∈ world.table, ∃ first, Origin s₀ ts first ∧ Recorded first (marksOf row.id ts) row
  known : ∀ w id, world.Has w id → id ∈ world.table.map (·.id)
  unmarked : ∀ id, id ∉ world.table.map (·.id) → marksOf id ts = []

theorem Origin.mono {first : OutboxRow ε} (h : Origin s₀ ts first)
    (tr : Transition (OutboxWorld ε) (OutboxAction ε)) : Origin s₀ (ts ++ [tr]) first :=
  h.imp id fun ⟨insert, hinsert, hfirst⟩ => ⟨insert, List.mem_append_left _ hinsert, hfirst⟩

theorem marksOf_concat {id : Int} {tr : Transition (OutboxWorld ε) (OutboxAction ε)} :
    marksOf id (ts ++ [tr]) = marksOf id ts ++ marksOf id [tr] :=
  List.filterMap_append ..

theorem marksOf_marking {id : Int} {w : Nat} {utcNow claimedAt : DateTime}
    {message : OutboxMessageRecord ε} {result : Except String Unit}
    {rest : List (OutboxMessageRecord ε)}
    (hmarking : world.publishers w = .marking claimedAt message result rest) :
    marksOf id [⟨world, .publisher w (.mark utcNow), world'⟩] =
      if message.id = id then [(utcNow, result)] else [] := by
  simp only [marksOf, List.filterMap_cons, List.filterMap_nil, hmarking]
  split
  · next h => simp_all
  · next h => simp_all

theorem marksOf_quiet {id : Int} (h : ∀ w utcNow, action ≠ .publisher w (.mark utcNow)) :
    marksOf id (ts ++ [⟨world, action, world'⟩]) = marksOf id ts := by
  rw [marksOf_concat, List.append_right_eq_self]
  refine List.filterMap_eq_nil_iff.mpr ?_
  intro tr htr
  obtain rfl := List.mem_singleton.mp htr
  split
  · next w utcNow hmark => exact absurd hmark (h w utcNow)
  · rfl

/-- A step that marks nothing, and leaves the rows as they are but for their locks. -/
theorem Told.quiet (h : Told s₀ ts world)
    (hunmarked : ∀ w utcNow, action ≠ .publisher w (.mark utcNow))
    (hrows : ∀ row' ∈ world'.table, ∃ row ∈ world.table, ∃ lockedUntil,
      row' = { row with lockedUntilUtc := lockedUntil })
    (hids : world'.table.map (·.id) = world.table.map (·.id))
    (hknown : ∀ w id, world'.Has w id → id ∈ world.table.map (·.id)) :
    Told s₀ (ts ++ [⟨world, action, world'⟩]) world' where
  rows row' hrow' := by
    obtain ⟨row, hrow, lockedUntil, rfl⟩ := hrows row' hrow'
    obtain ⟨first, horigin, hrecorded⟩ := h.rows row hrow
    refine ⟨first, horigin.mono _, ?_⟩
    rw [marksOf_quiet hunmarked]
    exact hrecorded.lock lockedUntil
  known w id hhas := by
    rw [hids]
    exact hknown w id hhas
  unmarked id hid := by
    rw [marksOf_quiet hunmarked]
    exact h.unmarked id (hids ▸ hid)

/-- One more row. -/
theorem Told.insert (h : Told s₀ ts world) {id : Int} {messageId correlationId : Uuid}
    {eventType : String} {payload : ε} (hfresh : id ∉ world.table.map (·.id))
    (hworld : world'.table =
      world.table ++ [.new id messageId correlationId eventType payload world.now])
    (hpublishers : world'.publishers = world.publishers) :
    Told s₀ (ts ++ [⟨world, .insert id messageId correlationId eventType payload, world'⟩])
      world' where
  rows row hrow := by
    rw [marksOf_quiet (by simp)]
    rw [hworld] at hrow
    rcases List.mem_append.mp hrow with hold | hnew
    · obtain ⟨first, horigin, hrecorded⟩ := h.rows row hold
      exact ⟨first, horigin.mono _, hrecorded⟩
    · obtain rfl := List.mem_singleton.mp hnew
      refine ⟨_, .inr ⟨_, List.mem_append_right _ List.mem_cons_self, id, messageId,
        correlationId, eventType, payload, rfl, rfl⟩, ?_⟩
      -- the id is new, so nothing was marked by it
      rw [show OutboxRow.id _ = id from rfl, h.unmarked id hfresh]
      exact .first _
  known w other hhas := by
    rw [hworld, List.map_append]
    unfold Has at hhas
    rw [hpublishers] at hhas
    exact List.mem_append_left _ (h.known w other hhas)
  unmarked other hother := by
    rw [marksOf_quiet (by simp)]
    rw [hworld, List.map_append] at hother
    exact h.unmarked other fun hmem => hother (List.mem_append_left _ hmem)

/-- A mark is told by its row. -/
theorem Told.mark (h : Told s₀ ts world) {w : Nat} {utcNow claimedAt : DateTime}
    {message : OutboxMessageRecord ε} {result : Except String Unit}
    {rest : List (OutboxMessageRecord ε)}
    (hmarking : world.publishers w = .marking claimedAt message result rest)
    (htable : world'.table = updateWhere (fun row => decide (row.id = message.id))
      (·.marked utcNow result) world.table)
    (hpublishers : world'.publishers =
      Function.update world.publishers w (.resume claimedAt rest)) :
    Told s₀ (ts ++ [⟨world, .publisher w (.mark utcNow), world'⟩]) world' := by
  have hids : world'.table.map (·.id) = world.table.map (·.id) := by
    rw [htable]
    exact map_updateWhere fun _ => OutboxRow.id_marked
  constructor
  case rows =>
    intro row' hrow'
    rw [htable] at hrow'
    obtain ⟨row, hrow, rfl⟩ := mem_updateWhere.mp hrow'
    obtain ⟨first, horigin, hrecorded⟩ := h.rows row hrow
    refine ⟨first, horigin.mono _, ?_⟩
    rw [marksOf_concat, marksOf_marking hmarking]
    by_cases hid : row.id = message.id
    · rw [if_pos (decide_eq_true hid), OutboxRow.id_marked, if_pos hid.symm]
      exact hrecorded.marked utcNow result
    · rw [if_neg (by simpa using hid), if_neg (Ne.symm hid), List.append_nil]
      exact hrecorded
  case known =>
    intro v id hhas
    rw [hids]
    by_cases hvw : v = w
    · subst hvw
      refine h.known v id ?_
      have hrest := (has_self hpublishers).mp hhas
      rw [Publisher.unmarked_resume] at hrest
      unfold Has
      rw [hmarking]
      exact List.mem_cons_of_mem _ hrest
    · exact h.known v id ((has_of_ne hvw hpublishers).mp hhas)
  case unmarked =>
    intro id hid
    rw [hids] at hid
    have hne : message.id ≠ id := by
      rintro rfl
      refine hid (h.known w message.id ?_)
      unfold Has
      rw [hmarking]
      exact List.mem_cons_self
    rw [marksOf_concat, h.unmarked id hid, marksOf_marking hmarking, if_neg hne]
    rfl

theorem Told.step (h : Told s₀ ts world) (hstep : world.step action = some world') :
    Told s₀ (ts ++ [⟨world, action, world'⟩]) world' := by
  have hsame : ∀ row ∈ world.table, ∃ row₀ ∈ world.table, ∃ lockedUntil,
      row = { row₀ with lockedUntilUtc := lockedUntil } :=
    fun row hrow => ⟨row, hrow, row.lockedUntilUtc, rfl⟩
  cases step_cases hstep with
  | ticked => exact h.quiet (by simp) hsame rfl h.known
  | inserted hfresh => exact h.insert hfresh rfl rfl
  | marked hmarking => exact h.mark hmarking (markOutbox_eq _ _ _ _) rfl
  | @listed w hidle =>
      refine h.quiet (by simp) ?_ (map_updateWhere fun _ => rfl) ?_
      · intro row' hrow'
        obtain ⟨row, hrow, rfl⟩ := mem_updateWhere.mp hrow'
        split
        · exact ⟨row, hrow, _, rfl⟩
        · exact hsame row hrow
      · intro v id hhas
        by_cases hvw : v = w
        · subst hvw
          have hlisted := (has_self rfl).mp hhas
          rw [Publisher.unmarked_resume] at hlisted
          obtain ⟨message, hmessage, rfl⟩ := List.mem_map.mp hlisted
          obtain ⟨-, row, hrow, rfl⟩ := mem_listed hmessage
          exact List.mem_map_of_mem hrow
        · exact h.known v id ((has_of_ne hvw rfl).mp hhas)
  | @sent w index outcome claimedAt batch message hsending hfound =>
      refine h.quiet (by simp) hsame rfl ?_
      intro v id hhas
      by_cases hvw : v = w
      · subst hvw
        have hbatch := (has_self rfl).mp hhas
        obtain ⟨other, hother, rfl⟩ := List.mem_map.mp hbatch
        obtain ⟨hindex, rfl⟩ := List.getElem?_eq_some_iff.mp hfound
        refine h.known v other.id ?_
        unfold Has
        rw [hsending]
        exact List.mem_map_of_mem ((List.getElem_cons_eraseIdx_perm hindex).mem_iff.mp hother)
      · exact h.known v id ((has_of_ne hvw rfl).mp hhas)
  | @crashed w =>
      refine h.quiet (by simp) hsame rfl ?_
      intro v id hhas
      by_cases hvw : v = w
      · subst hvw
        cases (has_self rfl).mp hhas
      · exact h.known v id ((has_of_ne hvw rfl).mp hhas)

/-- **A row says what its marks were.** After any run, each row is one that was there at the start
or was inserted, but for the columns of the publishers. Of these the retry count has gone up by one
for each failed mark, the time is that of the last mark that succeeded, and the error is that of
the last mark, if it failed. -/
theorem row_recorded (hinit : (system ε).init s₀) (hrun : (system ε).Run s₀ ts s) :
    ∀ row ∈ s.table, ∃ first, Origin s₀ ts first ∧ Recorded first (marksOf row.id ts) row := by
  have htold : Told s₀ ts s := by
    induction hrun with
    | refl =>
        constructor
        case rows => exact fun row hrow => ⟨row, .inl hrow, .first row⟩
        case known =>
          intro w id hhas
          unfold Has at hhas
          rw [hinit.1 w] at hhas
          cases hhas
        case unmarked => exact fun _ _ => rfl
    | step _ hstep ih => exact ih.step hstep
  exact htold.rows

/-- A run with a late failure: publisher 1 has published the row before publisher 0 records its
failure, and the row has a retry and an error beside its time. -/
theorem row_recorded_latePublished : ∃ ts s, (system String).Run oneRow ts s ∧
    (∃ row ∈ s.table, row.retryCount = 1 ∧ row.publishedOnUtc = some 301000000 ∧
      row.lastError ≠ none) ∧
    ∀ row ∈ s.table, ∃ first, Origin oneRow ts first ∧ Recorded first (marksOf row.id ts) row := by
  have hchecked : ((system String).exec [] oneRow latePublished).any
      (fun r => ∃ row ∈ r.2.table, row.retryCount = 1 ∧
        row.publishedOnUtc = some 301000000 ∧ row.lastError ≠ none) = true := by decide
  obtain ⟨ts, s, hrun, hrow⟩ := TSys.exists_run hchecked
  exact ⟨ts, s, hrun, of_decide_eq_true hrow, row_recorded ⟨fun _ => rfl, rfl⟩ hrun⟩

end OutboxWorld

end Axes.Orders
