import Mathlib.Data.Finset.Insert
import Mathlib.Data.Finset.Dedup
import Axes.Stat.Hot

/-!
# Stock claims as a ledger

`ClaimLedger` is what the two keys of an item stand for: the initial stock once
some claim has brought one, and the users granted so far, never more than the
initial stock. One claim on the keys is one step of the ledger
(`claimStock_represents`), so a sequence of claims is a run of it, and the
statements about whole sequences are read off the ledger.
-/

namespace Axes.Stat

open Axes.Lib Axes.Lib.Redis

/-- The state of the claims on one item. -/
@[ext] structure ClaimLedger where
  initial : Option Int
  granted : Finset String
  fits : (granted.card : Int) ≤ initial.getD 0
  exact : Exact (initial.getD 0)

/-- The initial stock a request brings; the handler sends `-1` for none. -/
def ClaimStockRequest.offer (payload : ClaimStockRequest) : Int :=
  (payload.initialStock.getD (-1)).toInt

namespace ClaimLedger

/-- No claim has brought an initial stock. -/
def closed : ClaimLedger := ⟨none, ∅, by simp, by simp [Exact]⟩

/-- Units left. -/
def remaining (l : ClaimLedger) : Int := l.initial.getD 0 - l.granted.card

/-- The first nonnegative offer becomes the initial stock. -/
def offered (l : ClaimLedger) (offer : Int) (h : Exact offer) : ClaimLedger :=
  if hopen : l.initial = none ∧ 0 ≤ offer then
    ⟨some offer, l.granted, by
      have hfits := l.fits
      rw [hopen.1] at hfits
      exact hfits.trans hopen.2, h⟩
  else l

/-- Grant one unit to a user who has none. -/
def grant (l : ClaimLedger) (userKey : String) (h : (l.granted.card : Int) < l.initial.getD 0) :
    ClaimLedger where
  initial := l.initial
  granted := insert userKey l.granted
  fits := by
    have := Finset.card_insert_le userKey l.granted
    omega
  exact := l.exact

/-- One claim against an opened ledger. -/
def settle (l : ClaimLedger) (userKey : String) : ClaimStockResult × ClaimLedger :=
  if userKey ∈ l.granted then (⟨false, true, l.remaining⟩, l)
  else if h : (l.granted.card : Int) < l.initial.getD 0 then
    (⟨true, false, l.remaining - 1⟩, l.grant userKey h)
  else (⟨false, false, l.remaining⟩, l)

/-- One claim. -/
def claim (l : ClaimLedger) (payload : ClaimStockRequest) (h : Exact payload.offer) :
    ClaimStockResult × ClaimLedger :=
  if (l.offered payload.offer h).initial = none then (⟨false, false, -1⟩, l)
  else (l.offered payload.offer h).settle payload.userKey

theorem remaining_nonneg (l : ClaimLedger) : 0 ≤ l.remaining := by
  have := l.fits
  unfold remaining
  omega

theorem remaining_exact (l : ClaimLedger) : Exact l.remaining := by
  have hfits := l.fits
  have hexact := l.exact
  unfold remaining Exact at *
  omega

theorem granted_of_closed {l : ClaimLedger} (h : l.initial = none) : l.granted = ∅ := by
  have hfits := l.fits
  rw [h] at hfits
  simpa using hfits

theorem grant_remaining {l : ClaimLedger} {userKey : String} (hnew : userKey ∉ l.granted)
    (h : (l.granted.card : Int) < l.initial.getD 0) :
    (l.grant userKey h).remaining = l.remaining - 1 := by
  simp only [remaining, grant, Finset.card_insert_of_notMem hnew]
  omega

theorem offered_of_some {l : ClaimLedger} {s₀ : Int} (h : l.initial = some s₀) (offer : Int)
    (hexact : Exact offer) : l.offered offer hexact = l := by
  simp [offered, h]

end ClaimLedger

/-! ## The keys of an item represent a ledger -/

structure Represents (itemId : Int64) (ks : Keyspace) (l : ClaimLedger) : Prop where
  stock : ks (redisStockKey itemId) =
    l.initial.map fun _ => Value.string l.remaining.repr
  users : ks (redisStockUsersKey itemId) = setValue l.granted

theorem represents_closed {itemId : Int64} {ks : Keyspace}
    (hstock : ks (redisStockKey itemId) = none)
    (husers : ks (redisStockUsersKey itemId) = none) : Represents itemId ks .closed where
  stock := by simp [hstock, ClaimLedger.closed]
  users := by simp [husers, ClaimLedger.closed, setValue]

/-- The integer pair the script answers with. -/
def ClaimStockResult.reply (result : ClaimStockResult) : Int × Int :=
  (if result.applied then 1 else if result.duplicate then 2 else 0, result.remainingStock)

section Step

variable (lua : Lua) {itemId : Int64} {ks : Keyspace} {l : ClaimLedger}

/-- The script from the duplicate check on settles a claim against an opened
ledger. When the ledger was opened by this very claim, `currentStock` went through
`tostring`, but then nobody has been granted and it is not read. -/
theorem claimFrom_represents (h : Represents itemId ks l) {s₀ : Int}
    (hopen : l.initial = some s₀) (currentStock : String)
    (hcurrent : l.granted ≠ ∅ → lua.toNumber currentStock = some l.remaining)
    (userKey : String) :
    ∃ ks', exec (claimFrom lua (redisStockKey itemId) (redisStockUsersKey itemId) userKey
        currentStock) ks = (.ok (l.settle userKey).1.reply, ks') ∧
      Represents itemId ks' (l.settle userKey).2 := by
  have hstock : ks (redisStockKey itemId) = some (.string l.remaining.repr) := by
    rw [h.stock, hopen]
    rfl
  have hread : lua.toNumber l.remaining.repr = some l.remaining :=
    lua.toNumber_repr l.remaining_exact
  have hnonneg := l.remaining_nonneg
  have hexact : l.remaining.natAbs ≤ 2 ^ 53 := l.remaining_exact
  unfold claimFrom
  rw [exec_bind, exec_sismember_setValue h.users]
  by_cases hdup : userKey ∈ l.granted
  · -- already granted: nothing is written
    have hne : l.granted ≠ ∅ := Finset.ne_empty_of_mem hdup
    refine ⟨ks, ?_, ?_⟩
    · simp [hdup, hcurrent hne, ClaimLedger.settle, ClaimStockResult.reply]
    · simpa [ClaimLedger.settle, hdup] using h
  · simp only [hdup, decide_false, Bool.false_eq_true, if_false]
    rw [exec_bind, exec_get_string hstock]
    simp only [Option.getD_some, hread]
    by_cases hleft : (l.granted.card : Int) < l.initial.getD 0
    · -- one unit is taken and the user is recorded
      have hpos : ¬l.remaining ≤ 0 := by
        unfold ClaimLedger.remaining
        omega
      have hgrant := ClaimLedger.grant_remaining hdup hleft
      have hless : Exact (l.remaining - 1) := by
        unfold Exact
        omega
      have hkeys : redisStockUsersKey itemId ≠ redisStockKey itemId :=
        (redisStockKey_ne_users itemId itemId).symm
      have husers : Function.update ks (redisStockKey itemId)
          (some (.string (l.remaining - 1).repr)) (redisStockUsersKey itemId) =
            setValue l.granted := by
        rw [Function.update_of_ne hkeys, h.users]
      have hsettle : l.settle userKey =
          (⟨true, false, l.remaining - 1⟩, l.grant userKey hleft) := by
        simp [ClaimLedger.settle, hdup, hleft]
      rw [if_neg hpos, exec_bind, exec_decr_repr hstock (by omega) (by omega)]
      simp only
      rw [exec_bind, exec_sadd_setValue husers]
      simp only [exec_pure, Lua.fromReply_exact lua hless, hsettle]
      refine ⟨_, rfl, ?_, ?_⟩
      · rw [Function.update_of_ne hkeys.symm, Function.update_self, hgrant]
        simp [ClaimLedger.grant, hopen]
      · simp [ClaimLedger.grant]
    · -- sold out
      have hzero : l.remaining ≤ 0 := by
        unfold ClaimLedger.remaining
        omega
      have hsettle : l.settle userKey = (⟨false, false, l.remaining⟩, l) := by
        simp [ClaimLedger.settle, hdup, hleft]
      refine ⟨ks, ?_, ?_⟩
      · simp [hzero, hsettle, ClaimStockResult.reply]
      · simpa [hsettle] using h

/-- The result the handler builds from the script's pair. -/
theorem settle_decode (l : ClaimLedger) (userKey : String) :
    ClaimStockResult.mk ((l.settle userKey).1.reply.1 == 1)
      ((l.settle userKey).1.reply.1 == 2) (l.settle userKey).1.reply.2 =
        (l.settle userKey).1 := by
  unfold ClaimLedger.settle
  split
  · rfl
  · split <;> rfl

/-- **One claim is one ledger step.** -/
theorem claimStock_represents (h : Represents itemId ks l) (payload : ClaimStockRequest)
    (hexact : Exact payload.offer) :
    ∃ ks', exec (claimStock lua itemId payload) ks =
        (.ok (l.claim payload hexact).1, ks') ∧
      Represents itemId ks' (l.claim payload hexact).2 := by
  unfold claimStock claimStockScript
  rw [exec_bind, exec_bind]
  cases hinitial : l.initial with
  | some s₀ =>
      have hstock : ks (redisStockKey itemId) = some (.string l.remaining.repr) := by
        rw [h.stock, hinitial]
        rfl
      have hclaim : l.claim payload hexact = l.settle payload.userKey := by
        simp [ClaimLedger.claim, ClaimLedger.offered_of_some hinitial, hinitial]
      -- The stock key is there, so the script reads its text and ignores the argument.
      obtain ⟨ks', heval, hrep⟩ := claimFrom_represents lua h hinitial _
        (fun _ => lua.toNumber_repr l.remaining_exact) payload.userKey
      rw [exec_get_string hstock, hclaim]
      refine ⟨ks', ?_, hrep⟩
      simp only [heval, exec_pure, settle_decode]
  | none =>
      have hstock : ks (redisStockKey itemId) = none := by
        rw [h.stock, hinitial]
        rfl
      -- No stock key: the argument decides whether one is set.
      have hread : lua.toNumber (toString (payload.initialStock.getD (-1))) =
          some payload.offer := lua.toNumber_repr hexact
      rw [exec_get_none hstock]
      simp only [hread]
      by_cases hoffer : 0 ≤ payload.offer
      · -- this claim brings the initial stock
        have hempty := l.granted_of_closed hinitial
        have hopened : l.offered payload.offer hexact =
            ⟨some payload.offer, l.granted, by simp [hempty, hoffer], hexact⟩ := by
          simp [ClaimLedger.offered, hinitial, hoffer]
        have hremaining : (l.offered payload.offer hexact).remaining = payload.offer := by
          simp [hopened, ClaimLedger.remaining, hempty]
        have hinit : (l.offered payload.offer hexact).initial = some payload.offer := by
          simp [hopened]
        have hnew : Represents itemId
            (Function.update ks (redisStockKey itemId)
              (some (.string (lua.toArgument payload.offer))))
            (l.offered payload.offer hexact) := by
          constructor
          · simp [hremaining, hinit, lua.toArgument_exact hexact]
          · rw [Function.update_of_ne (redisStockKey_ne_users itemId itemId).symm, h.users,
              hopened]
        have hgranted : (l.offered payload.offer hexact).granted = ∅ := by
          simp [hopened, hempty]
        obtain ⟨ks', heval, hrep⟩ := claimFrom_represents lua hnew hinit
          (lua.toText payload.offer) (fun hne => absurd hgranted hne) payload.userKey
        have hclaim : l.claim payload hexact =
            (l.offered payload.offer hexact).settle payload.userKey := by
          simp [ClaimLedger.claim, hinit]
        rw [if_pos hoffer, exec_bind, exec_set, hclaim]
        refine ⟨ks', ?_, hrep⟩
        simp only [heval, exec_pure, settle_decode]
      · have hclaim : l.claim payload hexact = (⟨false, false, -1⟩, l) := by
          simp [ClaimLedger.claim, ClaimLedger.offered, hinitial, hoffer]
        rw [if_neg hoffer, hclaim]
        exact ⟨ks, rfl, h⟩

end Step

end Axes.Stat
