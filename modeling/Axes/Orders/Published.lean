import Axes.Orders.Lease

/-!
# Published rows

`mark_outbox_published` clears the lock and the error of its row, and
`list_unpublished_outbox` passes published rows over. Both marks select their row by id
alone, so a late one reaches a row that was published since. Where none does, published
is final.
-/

namespace Axes.Orders

open Axes.Lib Axes.Lib.Table

variable {ε : Type}

namespace OutboxRow

/-- Once published, a row has no lock and no error. -/
def Clean (row : OutboxRow ε) : Prop :=
  row.publishedOnUtc ≠ none → row.lockedUntilUtc = none ∧ row.lastError = none

/-- What the mark for a result writes to its row. -/
def marked (utcNow : DateTime) (result : Except String Unit) (row : OutboxRow ε) : OutboxRow ε :=
  match result with
  | .ok () => { row with
      publishedOnUtc := some utcNow, lockedUntilUtc := none, lastError := none }
  | .error error => { row with
      retryCount := row.retryCount + 1, lockedUntilUtc := none, lastError := some error }

/-- The mark is for a success, at the very time the row was published. -/
def Repeats (utcNow : DateTime) (result : Except String Unit) (row : OutboxRow ε) : Prop :=
  match result with
  | .ok () => row.publishedOnUtc = some utcNow
  | .error _ => False

instance {utcNow : DateTime} {result : Except String Unit} {row : OutboxRow ε} :
    Decidable (row.Repeats utcNow result) :=
  match result with
  | .ok () => inferInstanceAs (Decidable (_ = _))
  | .error _ => .isFalse not_false

variable {row : OutboxRow ε} {utcNow : DateTime} {result : Except String Unit}

@[simp] theorem id_marked : (row.marked utcNow result).id = row.id := by
  cases result with
  | ok | error => rfl

theorem clean_marked (h : row.publishedOnUtc = none ∨ row.Repeats utcNow result) :
    (row.marked utcNow result).Clean := by
  cases result with
  | ok => exact fun _ => ⟨rfl, rfl⟩
  | error error =>
      rcases h with hunpublished | hrepeats
      · intro hpublished
        exact absurd hunpublished hpublished
      · cases hrepeats

/-- A mark leaves a published row alone when it repeats what is there. -/
theorem marked_eq_self (hpublished : row.publishedOnUtc ≠ none) (hclean : row.Clean) :
    row.marked utcNow result = row ↔ row.Repeats utcNow result := by
  obtain ⟨hlock, herror⟩ := hclean hpublished
  cases result with
  | ok =>
      constructor
      · intro h
        exact (congrArg OutboxRow.publishedOnUtc h).symm
      · intro hat
        have hat : row.publishedOnUtc = some utcNow := hat
        cases row
        simp_all [marked]
  | error error =>
      constructor
      · intro h
        have hretry : row.retryCount + 1 = row.retryCount := congrArg OutboxRow.retryCount h
        omega
      · intro h
        cases h

end OutboxRow

theorem markOutbox_eq (utcNow : DateTime) (id : Int) (result : Except String Unit)
    (table : List (OutboxRow ε)) : markOutbox utcNow id result table =
      updateWhere (fun row => decide (row.id = id)) (·.marked utcNow result) table := by
  cases result with
  | ok | error => rfl

/-- A picked row is not published, ids being unique. -/
theorem unpublished_of_picked {now : DateTime} {limit : Nat} {table : List (OutboxRow ε)}
    (hids : (table.map (·.id)).Nodup) {row : OutboxRow ε} (hrow : row ∈ table)
    (hpicked : row.id ∈ pickedIds now limit table) : row.publishedOnUtc = none := by
  obtain ⟨other, hother, hid, hclaimable⟩ := exists_claimable hpicked
  obtain rfl := List.inj_on_of_nodup_map hids hother hrow hid
  exact (OutboxRow.claimable_iff.mp hclaimable).1

namespace OutboxWorld

/-- Every published row is clean. -/
def Clean (world : OutboxWorld ε) : Prop := ∀ row ∈ world.table, row.Clean

/-- A step changes no published row and lists none. -/
structure Final (tr : Transition (OutboxWorld ε) (OutboxAction ε)) : Prop where
  kept : ∀ (i : Nat) row, tr.pre.table[i]? = some row → row.publishedOnUtc ≠ none →
    tr.post.table[i]? = some row
  unlisted : ∀ w, tr.action = .publisher w .list →
    ∀ message ∈ (listUnpublishedOutbox tr.pre.now 50 tr.pre.table).1,
      ∀ row ∈ tr.pre.table, row.id = message.id → row.publishedOnUtc = none

/-- The mark a publisher is about to make, if any, reaches no published row, unless to
repeat it. -/
def Avoids (table : List (OutboxRow ε)) (utcNow : DateTime) : Publisher ε → Prop
  | .marking _ message result _ => ∀ row ∈ table, row.id = message.id →
      row.publishedOnUtc = none ∨ row.Repeats utcNow result
  | .idle | .sending _ _ => True

/-- No mark reaches a published row, unless to repeat it. -/
def Harmless (tr : Transition (OutboxWorld ε) (OutboxAction ε)) : Prop :=
  match tr.action with
  | .publisher w (.mark utcNow) => Avoids tr.pre.table utcNow (tr.pre.publishers w)
  | _ => True

instance (table : List (OutboxRow ε)) (utcNow : DateTime) (publisher : Publisher ε) :
    Decidable (Avoids table utcNow publisher) :=
  match publisher with
  | .marking _ _ _ _ => inferInstanceAs (Decidable (∀ _ ∈ _, _ → _ ∨ _))
  | .idle | .sending _ _ => .isTrue trivial

instance (tr : Transition (OutboxWorld ε) (OutboxAction ε)) : Decidable (Harmless tr) :=
  match tr with
  | ⟨_, .publisher _ (.mark _), _⟩ => inferInstanceAs (Decidable (Avoids _ _ _))
  | ⟨_, .publisher _ (.send _ _), _⟩ | ⟨_, .publisher _ .list, _⟩
  | ⟨_, .tick _, _⟩ | ⟨_, .insert _ _ _ _ _, _⟩ | ⟨_, .crash _, _⟩ => .isTrue trivial

variable {world world' : OutboxWorld ε} {action : OutboxAction ε}

/-! ## One step -/

/-- What a step does to the table. -/
inductive Writes (world : OutboxWorld ε) (action : OutboxAction ε) (table : List (OutboxRow ε)) :
    Prop
  | nothing (quiet : ∀ w, action ≠ .publisher w .list) (same : table = world.table)
      (unmarked : ∀ w utcNow, action ≠ .publisher w (.mark utcNow)) : Writes world action table
  | inserted {row} (quiet : ∀ w, action ≠ .publisher w .list)
      (unmarked : ∀ w utcNow, action ≠ .publisher w (.mark utcNow))
      (fresh : row.id ∉ world.table.map (·.id)) (unpublished : row.publishedOnUtc = none)
      (added : table = world.table ++ [row]) : Writes world action table
  | listed {w} (lists : action = .publisher w .list)
      (locked : table = (listUnpublishedOutbox world.now 50 world.table).2) :
      Writes world action table
  | marked {w utcNow claimedAt message result rest} (marks : action = .publisher w (.mark utcNow))
      (marking : world.publishers w = .marking claimedAt message result rest)
      (updated : table = updateWhere (fun row => decide (row.id = message.id))
        (·.marked utcNow result) world.table) : Writes world action table

theorem step_writes (h : world.step action = some world') : world.Writes action world'.table := by
  cases step_cases h with
  | ticked | sent | crashed => exact .nothing (by simp) rfl (by simp)
  | inserted fresh => exact .inserted (by simp) (by simp) fresh rfl rfl
  | listed => exact .listed rfl rfl
  | marked marking => exact .marked rfl marking (markOutbox_eq _ _ _ _)

theorem nodup_writes {table : List (OutboxRow ε)} (hids : (world.table.map (·.id)).Nodup)
    (h : world.Writes action table) : (table.map (·.id)).Nodup := by
  cases h with
  | nothing _ hsame =>
      rw [hsame]
      exact hids
  | inserted _ _ hfresh _ hadded =>
      rw [hadded, List.map_append]
      exact List.nodup_append.mpr ⟨hids, List.nodup_singleton _, by
        intro id hid id' hid'
        obtain rfl := List.mem_singleton.mp hid'
        exact ne_of_mem_of_not_mem hid hfresh⟩
  | listed _ hlocked =>
      have hsame : (listUnpublishedOutbox world.now 50 world.table).2.map (·.id) =
          world.table.map (·.id) := map_updateWhere fun _ => rfl
      rw [hlocked, hsame]
      exact hids
  | marked _ _ hupdated =>
      rw [hupdated, map_updateWhere fun _ => OutboxRow.id_marked]
      exact hids

theorem getElem?_updateWhere {p : OutboxRow ε → Bool} {f : OutboxRow ε → OutboxRow ε}
    {table : List (OutboxRow ε)} {i : Nat} {row : OutboxRow ε} (h : table[i]? = some row) :
    (updateWhere p f table)[i]? = some (if p row then f row else row) := by
  rw [updateWhere, List.getElem?_map, h, Option.map_some]

/-- Rows that are listed are unpublished, so listing is final. -/
theorem final_listed (hids : (world.table.map (·.id)).Nodup) (hclean : world.Clean)
    (hlocked : world'.table = (listUnpublishedOutbox world.now 50 world.table).2) :
    world'.Clean ∧ Final ⟨world, action, world'⟩ := by
  refine ⟨?_, ?_, ?_⟩
  · intro row' hrow'
    rw [hlocked] at hrow'
    obtain ⟨row, hrow, rfl⟩ := mem_updateWhere.mp hrow'
    by_cases hpicked : row.id ∈ pickedIds world.now 50 world.table
    · rw [if_pos (decide_eq_true hpicked)]
      intro hpublished
      exact absurd (unpublished_of_picked hids hrow hpicked) hpublished
    · rw [if_neg (by simpa using hpicked)]
      exact hclean row hrow
  · intro i row hrow hpublished
    have hpicked : row.id ∉ pickedIds world.now 50 world.table := by
      intro hpicked
      exact hpublished (unpublished_of_picked hids (List.mem_of_getElem? hrow) hpicked)
    show world'.table[i]? = _
    rw [hlocked, listUnpublishedOutbox, getElem?_updateWhere hrow,
      if_neg (by simpa using hpicked)]
  · intro v _ message hmessage row hrow hid
    have hpicked := (mem_listed hmessage).1
    exact unpublished_of_picked hids hrow (hid ▸ hpicked)

section Mark

variable {w : Nat} {utcNow : DateTime} {message : OutboxMessageRecord ε}
  {result : Except String Unit}

/-- A mark that spares the published rows, or repeats what they say. -/
theorem final_marked (hclean : world.Clean) (hmarks : action = .publisher w (.mark utcNow))
    (hupdated : world'.table = updateWhere (fun row => decide (row.id = message.id))
      (·.marked utcNow result) world.table)
    (hspares : ∀ row ∈ world.table, row.id = message.id →
      row.publishedOnUtc = none ∨ row.Repeats utcNow result) :
    world'.Clean ∧ Final ⟨world, action, world'⟩ := by
  refine ⟨?_, ?_, ?_⟩
  · intro row' hrow'
    rw [hupdated] at hrow'
    obtain ⟨row, hrow, rfl⟩ := mem_updateWhere.mp hrow'
    by_cases hid : row.id = message.id
    · rw [if_pos (decide_eq_true hid)]
      exact OutboxRow.clean_marked (hspares row hrow hid)
    · rw [if_neg (by simpa using hid)]
      exact hclean row hrow
  · intro i row hrow hpublished
    have hmem := List.mem_of_getElem? hrow
    show world'.table[i]? = _
    rw [hupdated, getElem?_updateWhere hrow]
    by_cases hid : row.id = message.id
    · rw [if_pos (decide_eq_true hid)]
      have hrepeats := (hspares row hmem hid).resolve_left hpublished
      rw [(OutboxRow.marked_eq_self hpublished (hclean row hmem)).mpr hrepeats]
    · rw [if_neg (by simpa using hid)]
  · rintro v rfl
    cases hmarks

/-- A published row that is kept got the mark it had. -/
theorem repeats_of_final (hclean : world.Clean)
    (hupdated : world'.table = updateWhere (fun row => decide (row.id = message.id))
      (·.marked utcNow result) world.table)
    (hfinal : Final ⟨world, action, world'⟩) :
    ∀ row ∈ world.table, row.id = message.id →
      row.publishedOnUtc = none ∨ row.Repeats utcNow result := by
  intro row hrow hid
  by_cases hpublished : row.publishedOnUtc = none
  · exact .inl hpublished
  · obtain ⟨i, hi⟩ := List.getElem?_of_mem hrow
    have hsame := hfinal.kept i row hi hpublished
    change world'.table[i]? = _ at hsame
    rw [hupdated, getElem?_updateWhere hi, if_pos (decide_eq_true hid),
      Option.some.injEq] at hsame
    exact .inr ((OutboxRow.marked_eq_self hpublished (hclean row hrow)).mp hsame)

end Mark

theorem harmless_of_unmarked (hunmarked : ∀ w utcNow, action ≠ .publisher w (.mark utcNow)) :
    Harmless ⟨world, action, world'⟩ := by
  unfold Harmless
  split
  · next w utcNow hmark => exact absurd hmark (hunmarked w utcNow)
  · trivial

/-- **One step**: it is final and leaves the table clean exactly when it is harmless. -/
theorem final_iff (hids : (world.table.map (·.id)).Nodup) (hclean : world.Clean)
    (h : world.step action = some world') :
    (world'.Clean ∧ Final ⟨world, action, world'⟩) ↔ Harmless ⟨world, action, world'⟩ := by
  cases step_writes h with
  | nothing hquiet hsame hunmarked =>
      refine iff_of_true ⟨?_, ?_, ?_⟩ (harmless_of_unmarked hunmarked)
      · rw [Clean, hsame]
        exact hclean
      · intro i row hrow _
        show world'.table[i]? = _
        rw [hsame]
        exact hrow
      · intro w hlist
        exact absurd hlist (hquiet w)
  | @inserted new hquiet hunmarked hfresh hunpublished hadded =>
      refine iff_of_true ⟨?_, ?_, ?_⟩ (harmless_of_unmarked hunmarked)
      · intro row hrow
        rw [hadded] at hrow
        rcases List.mem_append.mp hrow with hold | hnew
        · exact hclean row hold
        · obtain rfl := List.mem_singleton.mp hnew
          intro hpublished
          exact absurd hunpublished hpublished
      · intro i row hrow _
        obtain ⟨hi, -⟩ := List.getElem?_eq_some_iff.mp hrow
        show world'.table[i]? = _
        rw [hadded, List.getElem?_append_left hi]
        exact hrow
      · intro w hlist
        exact absurd hlist (hquiet w)
  | @listed w hlists hlocked =>
      refine iff_of_true (final_listed hids hclean hlocked) (harmless_of_unmarked ?_)
      rintro v utcNow rfl
      cases hlists
  | @marked w utcNow claimedAt message result rest hmarks hmarking hupdated =>
      have havoids : Harmless ⟨world, action, world'⟩ ↔ ∀ row ∈ world.table,
          row.id = message.id → row.publishedOnUtc = none ∨ row.Repeats utcNow result := by
        rw [hmarks]
        show Avoids world.table utcNow (world.publishers w) ↔ _
        rw [hmarking]
        exact Iff.rfl
      rw [havoids]
      exact ⟨fun h => repeats_of_final hclean hupdated h.2, final_marked hclean hmarks hupdated⟩

/-! ## Whole runs -/

/-- Ids are unique, and published rows clean. -/
def Sound (world : OutboxWorld ε) : Prop := (world.table.map (·.id)).Nodup ∧ world.Clean

/-- **Published is final exactly when no mark reaches a published row.** Over a run from a
clean table, every state is clean and no step changes or lists a published row, if and
only if every mark is harmless. -/
theorem published_final_iff {s₀ s : OutboxWorld ε}
    {ts : List (Transition (OutboxWorld ε) (OutboxAction ε))}
    (hids : (s₀.table.map (·.id)).Nodup) (hrun : (system ε).Run s₀ ts s) :
    (s₀.Clean ∧ ∀ tr ∈ ts, tr.post.Clean ∧ Final tr) ↔ s₀.Clean ∧ ∀ tr ∈ ts, Harmless tr := by
  constructor
  · rintro ⟨hclean, hfinal⟩
    refine ⟨hclean, ?_⟩
    intro tr htr
    have hstep := hrun.step_of_mem htr
    obtain ⟨hids', hclean'⟩ := (hrun.always (P := Sound) ⟨hids, hclean⟩
      (fun _ _ _ h hq hstep => ⟨nodup_writes h.1 (step_writes hstep), hq.1⟩) hfinal).2 tr htr
    exact (final_iff hids' hclean' hstep).mp (hfinal tr htr)
  · rintro ⟨hclean, hharmless⟩
    refine ⟨hclean, ?_⟩
    intro tr htr
    have hstep := hrun.step_of_mem htr
    obtain ⟨hids', hclean'⟩ := (hrun.always (P := Sound) ⟨hids, hclean⟩
      (fun _ _ _ h hq hstep => ⟨nodup_writes h.1 (step_writes hstep),
        ((final_iff h.1 h.2 hstep).mpr hq).1⟩) hharmless).2 tr htr
    exact (final_iff hids' hclean' hstep).mpr (hharmless tr htr)

/-- Publisher 0 claims the row and its send times out; 301 s later publisher 1 claims,
sends and marks it; then publisher 0 records its failure. -/
def latePublished : List (OutboxAction String) :=
  [.publisher 0 .list,
    .publisher 0 (.send 0 (.failed "Local: Message timed out" none)),
    .tick 301000000,
    .publisher 1 .list,
    .publisher 1 (.send 0 (.acknowledged 0)),
    .publisher 1 (.mark 301000000),
    .publisher 0 (.mark 301000001)]

theorem clean_oneRow : oneRow.Clean := by
  intro row hrow hpublished
  obtain rfl := List.mem_singleton.mp hrow
  exact absurd rfl hpublished

/-- Published is not final in all runs. -/
theorem not_published_final : ¬∀ (s₀ s : OutboxWorld String)
    (ts : List (Transition (OutboxWorld String) (OutboxAction String))),
    (system String).init s₀ → (s₀.table.map (·.id)).Nodup → s₀.Clean →
    (system String).Run s₀ ts s → ∀ tr ∈ ts, tr.post.Clean ∧ Final tr := by
  intro h
  have hbroken : ((system String).exec [] oneRow latePublished).any
      (fun r => ∃ tr ∈ r.1, ∃ row ∈ tr.post.table,
        row.publishedOnUtc ≠ none ∧ row.lastError ≠ none) = true := by decide
  obtain ⟨ts, s, hrun, hbroken⟩ := TSys.exists_run hbroken
  obtain ⟨tr, htr, row, hrow, hpublished, herror⟩ := of_decide_eq_true hbroken
  have hids : (oneRow.table.map (·.id)).Nodup := List.nodup_singleton _
  have hclean := (h oneRow s ts ⟨fun _ => rfl, rfl⟩ hids clean_oneRow hrun tr htr).1
  exact herror (hclean row hrow hpublished).2

/-- The same run up to the late mark. -/
theorem published_final_in_time :
    ∃ ts s, (system String).Run oneRow ts s ∧ ts.length = 6 ∧
      ∀ tr ∈ ts, tr.post.Clean ∧ Final tr := by
  have hchecked : ((system String).exec [] oneRow (latePublished.take 6)).any
      (fun r => r.1.length = 6 ∧ ∀ tr ∈ r.1, Harmless tr) = true := by decide
  obtain ⟨ts, s, hrun, hchecked⟩ := TSys.exists_run hchecked
  obtain ⟨hlength, hharmless⟩ := of_decide_eq_true hchecked
  have hids : (oneRow.table.map (·.id)).Nodup := List.nodup_singleton _
  exact ⟨ts, s, hrun, hlength,
    ((published_final_iff hids hrun).mpr ⟨clean_oneRow, hharmless⟩).2⟩

end OutboxWorld

end Axes.Orders
