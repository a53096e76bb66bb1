import Mathlib.Logic.Function.Basic
import Axes.Lib.Run
import Axes.Orders.Outbox

/-!
# Outbox leases

Any number of publishers over one outbox table. A publisher holds a row from the
call that returned it until its own mark for that claim, or until the lock time has
passed; `leases` records who holds what and is read by no step.

`mark_outbox_failed` clears the lock of its row whoever holds it, so a publisher
that outlived its lease can take the row away from the one that claimed it since.
Where that does not happen, leases are exclusive.
-/

namespace Axes.Orders

open Axes.Lib Axes.Lib.Table

/-- `publisher` was handed `row` at `since` and has not marked it. -/
structure Lease where
  publisher : Nat
  row : Int
  since : DateTime
  deriving DecidableEq

def Lease.active (now : DateTime) (lease : Lease) : Prop :=
  now < lease.since + seconds outboxLockSeconds

instance (now : DateTime) (lease : Lease) : Decidable (lease.active now) :=
  inferInstanceAs (Decidable (_ < _))

structure OutboxWorld (ε : Type) where
  now : DateTime
  table : List (OutboxRow ε)
  publishers : Nat → Publisher ε
  leases : List Lease

inductive OutboxAction (ε : Type)
  | tick (microseconds : Nat)
  | insert (id : Int) (messageId correlationId : Uuid) (eventType : String) (payload : ε)
  | publisher (w : Nat) (action : PublisherAction)
  | crash (w : Nat)

namespace OutboxWorld

variable {ε : Type}

/-- The leases after publisher `w` has taken a step: a list adds one for each row it
returned, a mark ends the one of its claim. -/
def leasesAfter (world : OutboxWorld ε) (w : Nat) (action : PublisherAction) : List Lease :=
  match world.publishers w, action with
  | .idle, .list =>
      world.leases ++ (listUnpublishedOutbox world.now 50 world.table).1.map fun message =>
        ⟨w, message.id, world.now⟩
  | .marking claimedAt message _ _, .mark _ =>
      world.leases.filter fun lease => decide (lease ≠ ⟨w, message.id, claimedAt⟩)
  | _, _ => world.leases

def step (world : OutboxWorld ε) : OutboxAction ε → Option (OutboxWorld ε)
  | .tick microseconds => some { world with now := world.now + microseconds }
  | .insert id messageId correlationId eventType payload =>
      if id ∈ world.table.map (·.id) then none
      else some { world with table := world.table ++
        [.new id messageId correlationId eventType payload world.now] }
  | .publisher w action =>
      match Publisher.step world.now world.table (world.publishers w) action with
      | none => none
      | some (publisher, table, _) => some { world with
          table := table
          publishers := Function.update world.publishers w publisher
          leases := world.leasesAfter w action }
  | .crash w =>
      some { world with publishers := Function.update world.publishers w .idle }

/-- **What a step can do.** -/
inductive Steps (world : OutboxWorld ε) : OutboxAction ε → OutboxWorld ε → Prop
  | ticked {d} : Steps world (.tick d) { world with now := world.now + d }
  | inserted {id messageId correlationId eventType payload}
      (fresh : id ∉ world.table.map (·.id)) :
      Steps world (.insert id messageId correlationId eventType payload) { world with
        table := world.table ++ [.new id messageId correlationId eventType payload world.now] }
  | listed {w} (idle : world.publishers w = .idle) :
      Steps world (.publisher w .list) { world with
        table := (listUnpublishedOutbox world.now 50 world.table).2
        publishers := Function.update world.publishers w
          (.resume world.now (listUnpublishedOutbox world.now 50 world.table).1)
        leases := world.leases ++ (listUnpublishedOutbox world.now 50 world.table).1.map
          fun message => ⟨w, message.id, world.now⟩ }
  | sent {w index outcome claimedAt batch message}
      (sending : world.publishers w = .sending claimedAt batch)
      (found : batch[index]? = some message) :
      Steps world (.publisher w (.send index outcome)) { world with
        publishers := Function.update world.publishers w
          (.marking claimedAt message outcome.result (batch.eraseIdx index)) }
  | marked {w utcNow claimedAt message result rest}
      (marking : world.publishers w = .marking claimedAt message result rest) :
      Steps world (.publisher w (.mark utcNow)) { world with
        table := markOutbox utcNow message.id result world.table
        publishers := Function.update world.publishers w (.resume claimedAt rest)
        leases := world.leases.filter fun lease =>
          decide (lease ≠ ⟨w, message.id, claimedAt⟩) }
  | crashed {w} : Steps world (.crash w)
      { world with publishers := Function.update world.publishers w .idle }

theorem step_cases {world world' : OutboxWorld ε} {action : OutboxAction ε}
    (h : world.step action = some world') : world.Steps action world' := by
  cases action with
  | tick d =>
      cases h
      exact .ticked
  | insert id messageId correlationId eventType payload =>
      simp only [step] at h
      split at h
      · cases h
      · next fresh =>
          cases h
          exact .inserted fresh
  | crash w =>
      cases h
      exact .crashed
  | publisher w action =>
      simp only [step] at h
      split at h
      · cases h
      · next publisher table sent hpublisher =>
          cases h
          obtain ⟨idle, rfl, rfl, rfl, -⟩ |
            ⟨claimedAt, batch, index, outcome, message, sending, rfl, found, rfl, rfl, -⟩ |
            ⟨claimedAt, message, result, rest, utcNow, marking, rfl, rfl, rfl, -⟩ :=
            Publisher.step_cases hpublisher
          · simp only [leasesAfter, idle]
            exact .listed idle
          · simp only [leasesAfter, sending]
            exact .sent sending found
          · simp only [leasesAfter, marking]
            exact .marked marking

/-- Any table, and no publisher has started. -/
def system (ε : Type) : TSys (OutboxWorld ε) (OutboxAction ε) where
  init world := (∀ w, world.publishers w = .idle) ∧ world.leases = []
  step := step

/-- A list returns no row that another publisher holds. -/
def Exclusive (tr : Transition (OutboxWorld ε) (OutboxAction ε)) : Prop :=
  match tr.action with
  | .publisher w .list =>
      ∀ message ∈ (listUnpublishedOutbox tr.pre.now 50 tr.pre.table).1,
        ∀ lease ∈ tr.pre.leases, lease.row = message.id → lease.active tr.pre.now →
          lease.publisher = w
  | _ => True

/-- The failure mark a publisher is about to make, if any, is not of an unpublished row
that another publisher holds. -/
def Spares (world : OutboxWorld ε) (w : Nat) : Publisher ε → Prop
  | .marking _ message (.error _) _ =>
      ∀ lease ∈ world.leases, lease.row = message.id → lease.active world.now →
        lease.publisher ≠ w →
        ∀ row ∈ world.table, row.id = message.id → row.publishedOnUtc ≠ none
  | _ => True

instance (world : OutboxWorld ε) (w : Nat) (publisher : Publisher ε) :
    Decidable (world.Spares w publisher) :=
  match publisher with
  | .marking _ _ (.error _) _ =>
      inferInstanceAs (Decidable (∀ _ ∈ _, _ → _ → _ → ∀ _ ∈ _, _ → _))
  | .marking _ _ (.ok _) _ | .idle | .sending _ _ => .isTrue trivial

/-- `mark_outbox_failed` is not called on an unpublished row that another publisher
holds. -/
def Timely (tr : Transition (OutboxWorld ε) (OutboxAction ε)) : Prop :=
  match tr.action with
  | .publisher w (.mark _) => tr.pre.Spares w (tr.pre.publishers w)
  | _ => True

instance (tr : Transition (OutboxWorld ε) (OutboxAction ε)) : Decidable (Timely tr) :=
  match tr with
  | ⟨_, .publisher _ (.mark _), _⟩ => inferInstanceAs (Decidable (Spares _ _ _))
  | ⟨_, .publisher _ (.send _ _), _⟩ | ⟨_, .publisher _ .list, _⟩
  | ⟨_, .tick _, _⟩ | ⟨_, .insert _ _ _ _ _, _⟩ | ⟨_, .crash _, _⟩ => .isTrue trivial

instance (tr : Transition (OutboxWorld ε) (OutboxAction ε)) : Decidable (Exclusive tr) :=
  match tr with
  | ⟨_, .publisher _ .list, _⟩ => inferInstanceAs (Decidable (∀ _ ∈ _, ∀ _ ∈ _, _ → _ → _))
  | ⟨_, .publisher _ (.send _ _), _⟩ | ⟨_, .publisher _ (.mark _), _⟩
  | ⟨_, .tick _, _⟩ | ⟨_, .insert _ _ _ _ _, _⟩ | ⟨_, .crash _, _⟩ => .isTrue trivial

/-- What the lock column says about the leases. -/
structure Leased (world : OutboxWorld ε) : Prop where
  /-- A held row is in the table. -/
  known : ∀ lease ∈ world.leases, lease.row ∈ world.table.map (·.id)
  /-- A held row is locked, or published. -/
  locked : ∀ lease ∈ world.leases, lease.active world.now →
    ∀ row ∈ world.table, row.id = lease.row → row.publishedOnUtc = none →
      ∃ lockedUntil, row.lockedUntilUtc = some lockedUntil ∧
        lease.since + seconds outboxLockSeconds ≤ lockedUntil
  /-- A publisher holds an unmarked message through its last claim only. -/
  own : ∀ w, ∀ message ∈ (world.publishers w).unmarked, ∀ lease ∈ world.leases,
    lease.publisher = w → lease.row = message.id → lease.active world.now →
      lease.since = (world.publishers w).claimedAt

/-- A claimable row is not held. -/
theorem Leased.not_active {world : OutboxWorld ε} (h : world.Leased) {row : OutboxRow ε}
    (hrow : row ∈ world.table) (hclaimable : row.claimable world.now = true)
    {lease : Lease} (hlease : lease ∈ world.leases) (hid : lease.row = row.id) :
    ¬lease.active world.now := by
  intro hactive
  obtain ⟨hunpublished, hover⟩ := OutboxRow.claimable_iff.mp hclaimable
  obtain ⟨lockedUntil, hlock, hle⟩ :=
    h.locked lease hlease hactive row hrow hid.symm hunpublished
  exact absurd (hle.trans (hover lockedUntil hlock)) (not_le.mpr hactive)

/-- A listed row is not held. -/
theorem Leased.not_active_listed {world : OutboxWorld ε} (h : world.Leased) {limit : Nat}
    {message : OutboxMessageRecord ε}
    (hlisted : message ∈ (listUnpublishedOutbox world.now limit world.table).1)
    {lease : Lease} (hlease : lease ∈ world.leases) (hid : lease.row = message.id) :
    ¬lease.active world.now := by
  obtain ⟨row, hrow, hrowid, hclaimable⟩ := exists_claimable (mem_listed hlisted).1
  exact h.not_active hrow hclaimable hlease (hid.trans hrowid.symm)

theorem Leased.exclusive {tr : Transition (OutboxWorld ε) (OutboxAction ε)}
    (h : tr.pre.Leased) : Exclusive tr := by
  unfold Exclusive
  split
  · intro message hmessage lease hlease hid hactive
    exact absurd hactive (h.not_active_listed hmessage hlease hid)
  · trivial

/-! ## What each step preserves -/

theorem Lease.active_of_later {now : DateTime} {d : Nat} {lease : Lease}
    (h : lease.active (now + d)) : lease.active now :=
  lt_of_le_of_lt (Int.le_add_of_nonneg_right (Int.natCast_nonneg d)) h

theorem Leased.tick {world : OutboxWorld ε} (h : world.Leased) (d : Nat) :
    Leased { world with now := world.now + d } where
  known := h.known
  locked lease hlease hactive := h.locked lease hlease (Lease.active_of_later hactive)
  own w message hmessage lease hlease hw hid hactive :=
    h.own w message hmessage lease hlease hw hid (Lease.active_of_later hactive)

theorem Leased.insert {world : OutboxWorld ε} (h : world.Leased) {row : OutboxRow ε}
    (hfresh : row.id ∉ world.table.map (·.id)) :
    Leased { world with table := world.table ++ [row] } where
  known lease hlease := by
    rw [List.map_append]
    exact List.mem_append_left _ (h.known lease hlease)
  locked lease hlease hactive other hother hid hunpublished := by
    rcases List.mem_append.mp hother with hold | hnew
    · exact h.locked lease hlease hactive other hold hid hunpublished
    · obtain rfl := List.mem_singleton.mp hnew
      exact absurd (hid ▸ h.known lease hlease) hfresh
  own := h.own

theorem Leased.crash {world : OutboxWorld ε} (h : world.Leased) (w : Nat) :
    Leased { world with publishers := Function.update world.publishers w .idle } where
  known := h.known
  locked := h.locked
  own v message hmessage lease hlease hv hid hactive := by
    by_cases hvw : v = w
    · subst hvw
      simp [Publisher.unmarked] at hmessage
    · dsimp only at hmessage ⊢
      rw [Function.update_of_ne hvw] at hmessage ⊢
      exact h.own v message hmessage lease hlease hv hid hactive

theorem Leased.list {world : OutboxWorld ε} (h : world.Leased) (w : Nat) :
    Leased { world with
      table := (listUnpublishedOutbox world.now 50 world.table).2
      publishers := Function.update world.publishers w
        (.resume world.now (listUnpublishedOutbox world.now 50 world.table).1)
      leases := world.leases ++ (listUnpublishedOutbox world.now 50 world.table).1.map
        fun message => ⟨w, message.id, world.now⟩ } where
  known lease hlease := by
    have hids : (listUnpublishedOutbox world.now 50 world.table).2.map (·.id) =
        world.table.map (·.id) := map_updateWhere fun _ => rfl
    rw [hids]
    rcases List.mem_append.mp hlease with hold | hnew
    · exact h.known lease hold
    · obtain ⟨message, hmessage, rfl⟩ := List.mem_map.mp hnew
      obtain ⟨-, row, hrow, rfl⟩ := mem_listed hmessage
      exact List.mem_map_of_mem hrow
  locked lease hlease hactive row' hrow' hid hunpublished := by
    obtain ⟨row, hrow, rfl⟩ := mem_updateWhere.mp hrow'
    rcases List.mem_append.mp hlease with hold | hnew
    · -- a lease from before: its row was locked, so it was not picked
      have hpicked : row.id ∉ pickedIds world.now 50 world.table := by
        intro hpicked
        obtain ⟨other, hother, hotherid, hclaimable⟩ := exists_claimable hpicked
        refine h.not_active hother hclaimable hold ?_ hactive
        rw [hotherid, ← hid, if_pos (decide_eq_true hpicked)]
      rw [if_neg (by simpa using hpicked)] at hid hunpublished ⊢
      exact h.locked lease hold hactive row hrow hid hunpublished
    · obtain ⟨message, hmessage, rfl⟩ := List.mem_map.mp hnew
      have hpicked := (mem_listed hmessage).1
      have hrowid : row.id = message.id := by
        refine Eq.trans ?_ hid
        split <;> rfl
      rw [if_pos (by simpa [hrowid] using hpicked)]
      exact ⟨_, rfl, le_refl _⟩
  own v message hmessage lease hlease hv hid hactive := by
    by_cases hvw : v = w
    · subst hvw
      dsimp only at hmessage hactive ⊢
      rw [Function.update_self] at hmessage ⊢
      rw [Publisher.unmarked_resume] at hmessage
      rw [Publisher.claimedAt_resume hmessage]
      rcases List.mem_append.mp hlease with hold | hnew
      -- An own lease on a listed row has passed, so only the new ones are left.
      · exact absurd hactive (h.not_active_listed hmessage hold hid)
      · obtain ⟨other, -, rfl⟩ := List.mem_map.mp hnew
        rfl
    · dsimp only at hmessage ⊢
      rw [Function.update_of_ne hvw] at hmessage ⊢
      rcases List.mem_append.mp hlease with hold | hnew
      · exact h.own v message hmessage lease hold hv hid hactive
      · obtain ⟨other, -, rfl⟩ := List.mem_map.mp hnew
        exact absurd hv.symm hvw

theorem Leased.send {world : OutboxWorld ε} (h : world.Leased) {w : Nat}
    {claimedAt : DateTime} {batch : List (OutboxMessageRecord ε)} {index : Nat}
    {message : OutboxMessageRecord ε} {result : Except String Unit}
    (hsending : world.publishers w = .sending claimedAt batch)
    (hmessage : batch[index]? = some message) :
    Leased { world with
      publishers := Function.update world.publishers w
        (.marking claimedAt message result (batch.eraseIdx index)) } where
  known := h.known
  locked := h.locked
  own v other hother lease hlease hv hid hactive := by
    by_cases hvw : v = w
    · subst hvw
      dsimp only at hother ⊢
      rw [Function.update_self] at hother ⊢
      have hbatch : other ∈ batch := by
        rcases List.mem_cons.mp hother with rfl | hrest
        · exact List.mem_of_getElem? hmessage
        · exact List.mem_of_mem_eraseIdx hrest
      have hown := h.own v other (by rw [hsending]; exact hbatch) lease hlease hv hid hactive
      rwa [hsending] at hown
    · dsimp only at hother ⊢
      rw [Function.update_of_ne hvw] at hother ⊢
      exact h.own v other hother lease hlease hv hid hactive

/-- A mark that clears no lock another publisher relies on. -/
theorem Leased.mark {world : OutboxWorld ε} (h : world.Leased) {w : Nat}
    {claimedAt : DateTime} {message : OutboxMessageRecord ε} {result : Except String Unit}
    {rest : List (OutboxMessageRecord ε)} (utcNow : DateTime)
    (hmarking : world.publishers w = .marking claimedAt message result rest)
    (htimely : world.Spares w (world.publishers w)) :
    Leased { world with
      table := markOutbox utcNow message.id result world.table
      publishers := Function.update world.publishers w (.resume claimedAt rest)
      leases := world.leases.filter fun lease =>
        decide (lease ≠ ⟨w, message.id, claimedAt⟩) } where
  known lease hlease := by
    have hids : (markOutbox utcNow message.id result world.table).map (·.id) =
        world.table.map (·.id) := by
      cases result <;> exact map_updateWhere fun _ => rfl
    rw [hids]
    exact h.known lease (List.mem_of_mem_filter hlease)
  locked lease hlease hactive row' hrow' hid hunpublished := by
    obtain ⟨hold, hother⟩ := List.mem_filter.mp hlease
    have hother : lease ≠ ⟨w, message.id, claimedAt⟩ := of_decide_eq_true hother
    cases result with
    | ok =>
        obtain ⟨row, hrow, rfl⟩ := mem_updateWhere.mp hrow'
        by_cases hrowid : row.id = message.id
        · rw [if_pos (decide_eq_true hrowid)] at hunpublished
          cases hunpublished
        · rw [if_neg (by simpa using hrowid)] at hid hunpublished ⊢
          exact h.locked lease hold hactive row hrow hid hunpublished
    | error error =>
        rw [hmarking] at htimely
        obtain ⟨row, hrow, rfl⟩ := mem_updateWhere.mp hrow'
        by_cases hrowid : row.id = message.id
        · -- the lock is cleared: no lease on the row may be left
          rw [if_pos (decide_eq_true hrowid)] at hid hunpublished
          have hrow_lease : lease.row = message.id := hid.symm.trans hrowid
          by_cases hw : lease.publisher = w
          · have hsince := h.own w message (by rw [hmarking]; exact List.mem_cons_self)
              lease hold hw hrow_lease hactive
            rw [hmarking] at hsince
            refine absurd ?_ hother
            cases lease
            simp_all [Publisher.claimedAt]
          · exact absurd hunpublished
              (htimely lease hold hrow_lease hactive hw row hrow hrowid)
        · rw [if_neg (by simpa using hrowid)] at hid hunpublished ⊢
          exact h.locked lease hold hactive row hrow hid hunpublished
  own v other hmem lease hlease hv hid hactive := by
    have hold := List.mem_of_mem_filter hlease
    by_cases hvw : v = w
    · subst hvw
      dsimp only at hmem ⊢
      rw [Function.update_self] at hmem ⊢
      rw [Publisher.unmarked_resume] at hmem
      rw [Publisher.claimedAt_resume hmem]
      have hown := h.own v other (by rw [hmarking]; exact List.mem_cons_of_mem _ hmem)
        lease hold hv hid hactive
      rwa [hmarking] at hown
    · dsimp only at hmem ⊢
      rw [Function.update_of_ne hvw] at hmem ⊢
      exact h.own v other hmem lease hold hv hid hactive

/-- Every timely step keeps leases and locks in agreement. -/
theorem Leased.step {world world' : OutboxWorld ε} {action : OutboxAction ε}
    (h : world.Leased) (htimely : Timely ⟨world, action, world'⟩)
    (hstep : world.step action = some world') : world'.Leased := by
  cases step_cases hstep with
  | ticked => exact h.tick _
  | inserted fresh => exact h.insert fresh
  | listed => exact h.list _
  | sent sending found => exact h.send sending found
  | marked marking => exact h.mark _ marking htimely
  | crashed => exact h.crash _

/-- **A mark that is not timely takes a lock away from who holds it**: it is a failure mark, and
the row is unpublished, held by another publisher, and unlocked. -/
theorem unlocked_of_not_timely {world world' : OutboxWorld ε} {action : OutboxAction ε}
    (hstep : world.step action = some world') (hlate : ¬Timely ⟨world, action, world'⟩) :
    ∃ w utcNow, action = .publisher w (.mark utcNow) ∧
      ∃ lease ∈ world'.leases, lease.active world'.now ∧ lease.publisher ≠ w ∧
        ∃ row ∈ world'.table, row.id = lease.row ∧ row.publishedOnUtc = none ∧
          row.lockedUntilUtc = none := by
  cases step_cases hstep with
  | ticked | inserted | listed | sent | crashed => exact absurd trivial hlate
  | @marked w utcNow claimedAt message result rest marking =>
      have hspares : ¬world.Spares w (world.publishers w) := hlate
      rw [marking] at hspares
      cases result with
      | ok => exact absurd trivial hspares
      | error error =>
          unfold Spares at hspares
          push Not at hspares
          obtain ⟨lease, hlease, hid, hactive, hother, row, hrow, hrowid, hunpublished⟩ := hspares
          refine ⟨w, utcNow, rfl, lease, ?_, hactive, hother, _,
            mem_updateWhere.mpr ⟨row, hrow, rfl⟩, ?_⟩
          · refine List.mem_filter.mpr ⟨hlease, decide_eq_true fun hsame => hother ?_⟩
            rw [hsame]
          · rw [if_pos (decide_eq_true hrowid)]
            exact ⟨hrowid.trans hid.symm, hunpublished, rfl⟩

/-- **Leases are exclusive unless a late failure mark breaks them.** In a run whose
`mark_outbox_failed` calls never hit an unpublished row another publisher holds, no
list returns a row that another publisher holds. -/
theorem leases_exclusive {s₀ s : OutboxWorld ε}
    {ts : List (Transition (OutboxWorld ε) (OutboxAction ε))} (hinit : (system ε).init s₀)
    (hrun : (system ε).Run s₀ ts s) (htimely : ∀ tr ∈ ts, Timely tr) :
    ∀ tr ∈ ts, Exclusive tr := by
  have hleased : s₀.Leased := by
    obtain ⟨hidle, hnone⟩ := hinit
    constructor
    · simp [hnone]
    · simp [hnone]
    · simp [hnone]
  have hpre := (hrun.always hleased (fun _ _ _ h ht hstep => h.step ht hstep) htimely).2
  exact fun tr htr => (hpre tr htr).exclusive

/-! ## The late failure mark -/

/-- One unpublished row, three publishers. -/
def oneRow : OutboxWorld String where
  now := 0
  table := [.new 1 ⟨10⟩ ⟨20⟩ orderCreatedEventType "payload" 0]
  publishers _ := .idle
  leases := []

/-- Publisher 0 claims the row and its send times out; 301 s later publisher 1 claims
it; publisher 0 records its failure; publisher 2 lists. -/
def lateFailure : List (OutboxAction String) :=
  [.publisher 0 .list,
    .publisher 0 (.send 0 (.failed "Local: Message timed out" none)),
    .tick 301000000,
    .publisher 1 .list,
    .publisher 0 (.mark 301000000),
    .publisher 2 .list]

/-- Leases are not exclusive in all runs. -/
theorem not_leases_exclusive : ¬∀ (s₀ s : OutboxWorld String)
    (ts : List (Transition (OutboxWorld String) (OutboxAction String))),
    (system String).init s₀ → (system String).Run s₀ ts s → ∀ tr ∈ ts, Exclusive tr := by
  intro h
  have hbroken : ((system String).exec [] oneRow lateFailure).any
      (fun r => ∃ tr ∈ r.1, ¬Exclusive tr) = true := by decide
  obtain ⟨ts, s, hrun, hnot⟩ := TSys.exists_run hbroken
  obtain ⟨tr, htr, hnot⟩ := of_decide_eq_true hnot
  exact hnot (h oneRow s ts ⟨fun _ => rfl, rfl⟩ hrun tr htr)

/-- The same run up to the late mark: publisher 1 gets the row only after the lease of
publisher 0 has passed. -/
theorem leases_exclusive_two_publishers :
    ∃ ts s, (system String).Run oneRow ts s ∧ ts.length = 4 ∧ ∀ tr ∈ ts, Exclusive tr := by
  have hchecked : ((system String).exec [] oneRow (lateFailure.take 4)).any
      (fun r => r.1.length = 4 ∧ ∀ tr ∈ r.1, Timely tr) = true := by decide
  obtain ⟨ts, s, hrun, hchecked⟩ := TSys.exists_run hchecked
  obtain ⟨hlength, htimely⟩ := of_decide_eq_true hchecked
  exact ⟨ts, s, hrun, hlength, leases_exclusive ⟨fun _ => rfl, rfl⟩ hrun htimely⟩

end OutboxWorld

end Axes.Orders
