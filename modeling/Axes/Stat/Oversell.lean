import Mathlib.Data.List.Basic
import Axes.Stat.ClaimLedger

/-!
# Stock claims never oversell and never grant a user twice

A sequence of claims on one item, starting from absent keys, is a run of the
ledger; its initial stock is the first nonnegative `initial_stock` of the
sequence, and its granted users are those some reply said `applied` to.
-/

namespace Axes.Stat

open Axes.Lib Axes.Lib.Redis

/-! ## What one ledger step changes -/

namespace ClaimLedger

variable (l : ClaimLedger) (payload : ClaimStockRequest) (hexact : Exact payload.offer)

@[simp] theorem offered_granted : (l.offered payload.offer hexact).granted = l.granted := by
  unfold offered
  split <;> rfl

theorem offered_initial : (l.offered payload.offer hexact).initial =
    l.initial.or (if 0 ≤ payload.offer then some payload.offer else none) := by
  unfold offered
  split
  · next hopen => simp [hopen]
  · next hclosed =>
      by_cases hnone : l.initial = none
      · have hoffer : ¬0 ≤ payload.offer := fun hoffer => hclosed ⟨hnone, hoffer⟩
        simp [hnone, hoffer]
      · obtain ⟨s₀, hs₀⟩ := Option.ne_none_iff_exists'.mp hnone
        simp [hs₀]

@[simp] theorem settle_initial (userKey : String) :
    (l.settle userKey).2.initial = l.initial := by
  unfold settle
  split
  · rfl
  · split <;> rfl

theorem settle_granted (userKey : String) : (l.settle userKey).2.granted =
    if (l.settle userKey).1.applied then insert userKey l.granted else l.granted := by
  unfold settle
  split
  · rfl
  · split <;> rfl

theorem settle_applied (userKey : String) : (l.settle userKey).1.applied = true ↔
    userKey ∉ l.granted ∧ 0 < l.remaining := by
  unfold settle remaining
  split
  · next hdup => simp [hdup]
  · next hnew =>
      split
      · simp only [hnew, not_false_eq_true, true_and, true_iff]
        omega
      · simp only [hnew, not_false_eq_true, true_and, Bool.false_eq_true, false_iff]
        omega

theorem settle_duplicate (userKey : String) :
    (l.settle userKey).1.duplicate = true ↔ userKey ∈ l.granted := by
  unfold settle
  split
  · next hdup => simp [hdup]
  · next hnew => split <;> simp [hnew]

theorem settle_remaining (userKey : String) :
    (l.settle userKey).1.remainingStock = (l.settle userKey).2.remaining := by
  unfold settle
  split
  · rfl
  · next hnew =>
      split
      · next hleft => exact (grant_remaining hnew hleft).symm
      · rfl

/-- A claim on a ledger that stays closed. -/
theorem claim_of_closed (h : (l.offered payload.offer hexact).initial = none) :
    l.claim payload hexact = (⟨false, false, -1⟩, l) := by
  unfold claim
  rw [if_pos h]

/-- A claim on a ledger that is open, or that it opens. -/
theorem claim_of_open {s₀ : Int} (h : (l.offered payload.offer hexact).initial = some s₀) :
    l.claim payload hexact = (l.offered payload.offer hexact).settle payload.userKey := by
  unfold claim
  rw [if_neg (by simp [h])]

theorem claim_initial : (l.claim payload hexact).2.initial =
    l.initial.or (if 0 ≤ payload.offer then some payload.offer else none) := by
  rw [← offered_initial l payload hexact]
  cases h : (l.offered payload.offer hexact).initial with
  | none =>
      rw [l.claim_of_closed payload hexact h]
      rw [offered_initial, Option.or_eq_none_iff] at h
      exact h.1
  | some s₀ => rw [l.claim_of_open payload hexact h, settle_initial, h]

theorem claim_granted : (l.claim payload hexact).2.granted =
    if (l.claim payload hexact).1.applied then insert payload.userKey l.granted
    else l.granted := by
  cases h : (l.offered payload.offer hexact).initial with
  | none => simp [l.claim_of_closed payload hexact h]
  | some s₀ =>
      rw [l.claim_of_open payload hexact h, settle_granted, offered_granted]

theorem claim_applied_fresh (h : (l.claim payload hexact).1.applied = true) :
    payload.userKey ∉ l.granted := by
  cases hinit : (l.offered payload.offer hexact).initial with
  | none => simp [l.claim_of_closed payload hexact hinit] at h
  | some s₀ =>
      rw [l.claim_of_open payload hexact hinit, settle_applied, offered_granted] at h
      exact h.1

/-- What a claim on an open ledger is answered. -/
theorem claim_answers {s₀ : Int} (h : (l.offered payload.offer hexact).initial = some s₀) :
    ((l.claim payload hexact).1.applied = true ↔
      payload.userKey ∉ l.granted ∧ 0 < s₀ - l.granted.card) ∧
    ((l.claim payload hexact).1.duplicate = true ↔ payload.userKey ∈ l.granted) ∧
    (l.claim payload hexact).1.remainingStock = (l.claim payload hexact).2.remaining := by
  have hbefore : (l.offered payload.offer hexact).remaining = s₀ - l.granted.card := by
    simp [remaining, h]
  rw [l.claim_of_open payload hexact h]
  refine ⟨?_, ?_, ?_⟩
  · rw [settle_applied, offered_granted, hbefore]
  · rw [settle_duplicate, offered_granted]
  · exact settle_remaining _ payload.userKey

end ClaimLedger

/-! ## Sequences of claims -/

/-- The first nonnegative `initial_stock` of a sequence of requests. -/
def firstInitialStock (payloads : List ClaimStockRequest) : Option Int :=
  payloads.findSome? fun payload => payload.initialStock.bind fun n =>
    if 0 ≤ n.toInt then some n.toInt else none

/-- The users whose claims were answered `applied`, one entry for each answer. -/
def appliedUsers (replies : List (ClaimStockRequest × Except Error ClaimStockResult)) :
    List String :=
  replies.filterMap fun r =>
    match r.2 with
    | .ok result => if result.applied then some r.1.userKey else none
    | .error _ => none

/-- Every `initial_stock` is absent or at most `2 ^ 53` in absolute value. -/
def ExactStocks (payloads : List ClaimStockRequest) : Prop :=
  ∀ payload ∈ payloads, ∀ n, payload.initialStock = some n → Exact n.toInt

theorem offer_exact {payload : ClaimStockRequest}
    (h : ∀ n, payload.initialStock = some n → Exact n.toInt) : Exact payload.offer := by
  unfold ClaimStockRequest.offer
  cases hstock : payload.initialStock with
  | none => decide
  | some n => exact h n hstock

theorem firstInitialStock_snoc (before : List ClaimStockRequest) (payload : ClaimStockRequest) :
    firstInitialStock (before ++ [payload]) = (firstInitialStock before).or
      (if 0 ≤ payload.offer then some payload.offer else none) := by
  unfold firstInitialStock ClaimStockRequest.offer
  rw [List.findSome?_append]
  cases hstock : payload.initialStock with
  | none => simp [hstock]
  | some n => simp [hstock]

section Sequence

variable (lua : Lua) (itemId : Int64)

/-- The replies and the keyspace after a sequence of claims. -/
abbrev claimAll (payloads : List ClaimStockRequest) (ks : Keyspace) :=
  execAll (claimStock lua itemId) payloads ks

/-- What the ledger behind the keys is after a sequence of claims. -/
structure Tracks (payloads : List ClaimStockRequest) (ks : Keyspace) (l : ClaimLedger) :
    Prop where
  represents : Represents itemId (claimAll lua itemId payloads ks).2 l
  initial : l.initial = firstInitialStock payloads
  granted : l.granted = (appliedUsers (claimAll lua itemId payloads ks).1).toFinset
  once : (appliedUsers (claimAll lua itemId payloads ks).1).Nodup

variable {lua itemId}

theorem appliedUsers_snoc (before : List ClaimStockRequest) (payload : ClaimStockRequest)
    (ks : Keyspace) {result : ClaimStockResult} {after : Keyspace}
    (heval : exec (claimStock lua itemId payload) (claimAll lua itemId before ks).2 =
      (.ok result, after)) :
    appliedUsers (claimAll lua itemId (before ++ [payload]) ks).1 =
        appliedUsers (claimAll lua itemId before ks).1 ++
          (if result.applied then [payload.userKey] else []) ∧
      (claimAll lua itemId (before ++ [payload]) ks).2 = after := by
  simp only [claimAll, execAll_append, execAll_cons, execAll_nil, heval, appliedUsers,
    List.filterMap_append, and_true]
  cases happlied : result.applied <;> simp [happlied]

/-- One more claim. -/
theorem Tracks.snoc {before : List ClaimStockRequest} {ks : Keyspace} {l : ClaimLedger}
    (h : Tracks lua itemId before ks l) (payload : ClaimStockRequest)
    (hexact : Exact payload.offer) :
    Tracks lua itemId (before ++ [payload]) ks (l.claim payload hexact).2 := by
  obtain ⟨after, heval, hrep⟩ := claimStock_represents lua h.represents payload hexact
  obtain ⟨husers, hafter⟩ := appliedUsers_snoc before payload ks heval
  constructor
  · rw [hafter]
    exact hrep
  · rw [ClaimLedger.claim_initial, firstInitialStock_snoc, h.initial]
  · rw [ClaimLedger.claim_granted, husers, h.granted]
    cases (l.claim payload hexact).1.applied with
    | false => simp
    | true =>
        rw [if_pos rfl, if_pos rfl, List.toFinset_append, Finset.union_comm]
        rfl
  · rw [husers]
    cases happlied : (l.claim payload hexact).1.applied with
    | false => simpa using h.once
    | true =>
        have hfresh := l.claim_applied_fresh payload hexact happlied
        rw [h.granted, List.mem_toFinset] at hfresh
        rw [if_pos rfl]
        exact List.Nodup.append h.once (List.nodup_singleton _)
          (by simpa using hfresh)

/-- Once the stock key exists, the script does not look at the initial stock. -/
theorem exec_claimStock_of_present {ks : Keyspace} {text : String}
    (h : ks (redisStockKey itemId) = some (.string text)) (payload : ClaimStockRequest)
    (other : Option Int64) :
    exec (claimStock lua itemId { payload with initialStock := other }) ks =
      exec (claimStock lua itemId payload) ks := by
  unfold claimStock claimStockScript
  simp only [exec_bind, exec_get_string h]

/-- Once a stock has been offered, a claim is answered alike whatever it offers. -/
theorem Tracks.ignores_offer {before : List ClaimStockRequest} {ks : Keyspace} {l : ClaimLedger}
    (h : Tracks lua itemId before ks l) (hsome : firstInitialStock before ≠ none)
    (payload : ClaimStockRequest) (other : Option Int64) :
    exec (claimStock lua itemId { payload with initialStock := other })
        (claimAll lua itemId before ks).2 =
      exec (claimStock lua itemId payload) (claimAll lua itemId before ks).2 := by
  obtain ⟨s₀, hs₀⟩ := Option.ne_none_iff_exists'.mp hsome
  have hpresent := h.represents.stock
  rw [h.initial, hs₀, Option.map_some] at hpresent
  exact exec_claimStock_of_present hpresent payload other

theorem exists_tracks (payloads : List ClaimStockRequest) (hexact : ExactStocks payloads)
    {ks : Keyspace} (hstock : ks (redisStockKey itemId) = none)
    (husers : ks (redisStockUsersKey itemId) = none) :
    ∃ l, Tracks lua itemId payloads ks l := by
  induction payloads using List.reverseRecOn with
  | nil =>
      exact ⟨.closed, represents_closed hstock husers, rfl, rfl, List.nodup_nil⟩
  | append_singleton before payload ih =>
      obtain ⟨l, hl⟩ := ih fun p hp => hexact p (List.mem_append_left _ hp)
      have hlast : Exact payload.offer :=
        offer_exact (hexact payload (List.mem_append_right _ List.mem_cons_self))
      exact ⟨_, hl.snoc payload hlast⟩

/-- **No oversell, no double grant.** Claims on one item from absent keys: every
claim is answered; before the first nonnegative initial stock `s₀` the answer is
`-1` and the keys stay absent; from it on the keys hold `s₀` minus the number of
granted users and the set of granted users, a claim is applied iff its user is new
and a unit is left, is a duplicate iff its user was granted before, and later
initial stocks change nothing. No user is granted twice. -/
theorem claims_conserve_stock (payloads : List ClaimStockRequest)
    (hexact : ExactStocks payloads) (ks : Keyspace)
    (hstock : ks (redisStockKey itemId) = none)
    (husers : ks (redisStockUsersKey itemId) = none) :
    (appliedUsers (claimAll lua itemId payloads ks).1).Nodup ∧
    ∀ before payload later, payloads = before ++ payload :: later →
      ∃ result post,
        exec (claimStock lua itemId payload) (claimAll lua itemId before ks).2 =
          (.ok result, post) ∧
        post = (claimAll lua itemId (before ++ [payload]) ks).2 ∧
        let grantedBefore := (appliedUsers (claimAll lua itemId before ks).1).toFinset
        let granted := (appliedUsers (claimAll lua itemId (before ++ [payload]) ks).1).toFinset
        match firstInitialStock (before ++ [payload]) with
        | none =>
            result = ⟨false, false, -1⟩ ∧
            post (redisStockKey itemId) = none ∧ post (redisStockUsersKey itemId) = none
        | some s₀ =>
            post (redisStockKey itemId) = some (.string (s₀ - granted.card).repr) ∧
            0 ≤ s₀ - granted.card ∧
            post (redisStockUsersKey itemId) = setValue granted ∧
            (result.applied = true ↔
              payload.userKey ∉ grantedBefore ∧ 0 < s₀ - grantedBefore.card) ∧
            (result.duplicate = true ↔ payload.userKey ∈ grantedBefore) ∧
            result.remainingStock = s₀ - granted.card ∧
            (firstInitialStock before ≠ none →
              ∀ other : Option Int64,
                exec (claimStock lua itemId { payload with initialStock := other })
                  (claimAll lua itemId before ks).2 = (.ok result, post)) := by
  refine ⟨(exists_tracks payloads hexact hstock husers).choose_spec.once, ?_⟩
  rintro before payload later rfl
  -- The ledger behind the claims before this one; this claim is one more step of it.
  obtain ⟨l, hl⟩ : ∃ l, Tracks lua itemId before ks l := exists_tracks before
    (fun p hp => hexact p (List.mem_append_left _ hp)) hstock husers
  have hclaim : Exact payload.offer :=
    offer_exact (hexact payload (List.mem_append_right _ List.mem_cons_self))
  have hnext := hl.snoc payload hclaim
  obtain ⟨post, heval, hrep⟩ := claimStock_represents lua hl.represents payload hclaim
  have hpost := (appliedUsers_snoc before payload ks heval).2
  refine ⟨(l.claim payload hclaim).1, post, heval, hpost.symm, ?_⟩
  dsimp only
  rw [← hnext.granted, ← hl.granted, ← hnext.initial]
  have hinit := l.claim_initial payload hclaim
  rw [← l.offered_initial payload hclaim] at hinit
  cases hs₀ : (l.offered payload.offer hclaim).initial with
  | none =>
      rw [hs₀] at hinit
      -- Still closed: no claim up to this one has brought a stock.
      have hclosed := l.claim_of_closed payload hclaim hs₀
      rw [hinit]
      rw [hclosed] at hrep hinit ⊢
      refine ⟨rfl, ?_, ?_⟩
      · show post (redisStockKey itemId) = none
        rw [hrep.stock, hinit]
        rfl
      · show post (redisStockUsersKey itemId) = none
        rw [hrep.users, l.granted_of_closed hinit]
        rfl
  | some s₀ =>
      rw [hs₀] at hinit
      -- Open, perhaps by this very claim.
      obtain ⟨happlied, hduplicate, hanswer⟩ := l.claim_answers payload hclaim hs₀
      have hremaining : (l.claim payload hclaim).2.remaining =
          s₀ - (l.claim payload hclaim).2.granted.card := by
        simp [ClaimLedger.remaining, hinit]
      rw [hinit]
      refine ⟨?_, ?_, hrep.users, happlied, hduplicate, ?_, ?_⟩
      · rw [hrep.stock, hinit, hremaining]
        rfl
      · rw [← hremaining]
        exact ClaimLedger.remaining_nonneg _
      · rw [← hremaining]
        exact hanswer
      · intro hsome other
        rw [hl.ignores_offer hsome payload other, heval]

/-- Two users and a stock of one: the second user is refused, and the first user's
second claim is a duplicate. -/
theorem claims_conserve_stock_one_unit :
    let payloads : List ClaimStockRequest :=
      [⟨"alice", some 1⟩, ⟨"bob", some 7⟩, ⟨"alice", none⟩]
    let replies := (claimAll ⟨fun _ => none, Int.repr, Int.repr, id⟩ 42 payloads
      (fun _ => none)).1
    appliedUsers replies = ["alice"] ∧ (appliedUsers replies).Nodup :=
  ⟨by decide,
    (claims_conserve_stock _ (by simp [ExactStocks]; decide) (fun _ => none) rfl rfl).1⟩

end Sequence

end Axes.Stat
