import Mathlib.Data.Int.Order.Basic
import Mathlib.Data.String.Basic
import Axes.Lib.SortedSet
import Axes.Orders.Basic

/-!
# The hot leaderboard (`handlers/stat/hot.rs`)

One sorted set for all items, under one key with one time to live. Scores are of any
ordered type with an addition: of exact numbers, or of doubles as a server adds them. A
`u64` is a `Nat`; a `usize` has 64 bits.
-/

namespace Axes.Stat

open Axes.Lib Axes.Orders

def redisHotKey : String := "demo:hot:zset"
def defaultHotTtlSeconds : Nat := 604800
def defaultTopLimit : UInt64 := 10

variable {α : Type*}

structure IncrHotRequest (α : Type*) where
  delta : α
  ttlSeconds : Nat

/-- A request as it is deserialized. -/
def IncrHotRequest.ofFields [One α] (delta : Option α) (ttlSeconds : Option Nat) :
    IncrHotRequest α :=
  ⟨delta.getD 1, ttlSeconds.getD defaultHotTtlSeconds⟩

structure IncrHotResponse (α : Type*) where
  itemId : Int64
  delta : α
  score : α
  ttlSeconds : Nat

structure HotScoreItem (α : Type*) where
  itemId : Int64
  score : α
  deriving DecidableEq

structure HotTopResponse (α : Type*) where
  limit : UInt64
  items : List (HotScoreItem α)

def redisCommandError : AppError := .new "Redis command failed" 500

/-- Which commands of a request get through. -/
structure HotOutcome where
  connected : Bool
  zincrby : Bool
  expire : Bool

def HotOutcome.success : HotOutcome := ⟨true, true, true⟩

variable [LinearOrder α]

def incrHotScore [Add α] (outcome : HotOutcome) (itemId : Int64) (payload : IncrHotRequest α)
    (keys : SortedSet.Keys String α) :
    Except AppError (IncrHotResponse α) × SortedSet.Keys String α :=
  if outcome.connected = false then (.error redisCommandError, keys)
  else if outcome.zincrby = false then (.error redisCommandError, keys)
  else
    let (score, keys) := SortedSet.zincrby redisHotKey payload.delta (toString itemId) keys
    if outcome.expire = false then (.error redisCommandError, keys)
    else
      match SortedSet.expire redisHotKey payload.ttlSeconds keys with
      | (.error _, keys) => (.error redisCommandError, keys)
      | (.ok _, keys) => (.ok ⟨itemId, payload.delta, score, payload.ttlSeconds⟩, keys)

def sanitizedTopLimit (limit : UInt64) : UInt64 := if limit = 0 then defaultTopLimit else limit

/-- `usize::saturating_sub` -/
def saturatingSub (n m : UInt64) : UInt64 := if n < m then 0 else n - m

/-- `str::parse::<i64>` -/
def parseI64 (text : String) : Option Int64 :=
  (Text.parseInt text).bind fun n =>
    if -2 ^ 63 ≤ n ∧ n < 2 ^ 63 then some (Int64.ofInt n) else none

def buildHotTopItems (entries : List (String × α)) : Except AppError (List (HotScoreItem α)) :=
  entries.mapM fun (itemId, score) =>
    match parseI64 itemId with
    | some itemId => .ok ⟨itemId, score⟩
    | none => .error (.new "Invalid hot leaderboard member" 500)

/-- `hot_top`; `answered` when both the connection and the command get through. -/
def hotTop (answered : Bool) (limit : UInt64) (keys : SortedSet.Keys String α) :
    Except AppError (HotTopResponse α) := do
  let limit := sanitizedTopLimit limit
  let stop := (saturatingSub limit 1).toInt64
  if answered = false then .error redisCommandError
  let items ← buildHotTopItems (SortedSet.zrevrange redisHotKey 0 stop.toInt keys)
  pure ⟨limit, items⟩

/-! ## What a request does -/

/-- The score of an item on the leaderboard. -/
def scoreOf (itemId : Int64) (keys : SortedSet.Keys String α) : Option α :=
  (SortedSet.atKey keys redisHotKey).score? (toString itemId)

theorem toString_inj {itemId other : Int64} (h : toString itemId = toString other) :
    itemId = other := by
  have hrepr : itemId.toInt.repr = other.toInt.repr := h
  have hparsed := congrArg Text.parseInt hrepr
  rw [Text.parseInt_repr, Text.parseInt_repr] at hparsed
  exact Int64.toInt_inj.mp (Option.some.inj hparsed)

variable [Add α] {outcome : HotOutcome} {itemId other : Int64} {payload : IncrHotRequest α}
  {keys : SortedSet.Keys String α}

/-- The score a request leaves its item. -/
def incremented (itemId : Int64) (delta : α) (keys : SortedSet.Keys String α) : α :=
  match scoreOf itemId keys with
  | some score => score + delta
  | none => delta

/-- **What a request does.** -/
inductive Increments (itemId : Int64) (payload : IncrHotRequest α) (outcome : HotOutcome)
    (keys : SortedSet.Keys String α) :
    Except AppError (IncrHotResponse α) × SortedSet.Keys String α → Prop
  /-- Nothing has been written. -/
  | refused (h : outcome.connected = false ∨ outcome.zincrby = false) :
      Increments itemId payload outcome keys (.error redisCommandError, keys)
  /-- The score has been written, the time to live has not. -/
  | half {keys' : SortedSet.Keys String α}
      (hzincrby : outcome.connected = true ∧ outcome.zincrby = true)
      (hexpire : outcome.expire = false ∨ 2 ^ 63 ≤ payload.ttlSeconds)
      (hset : SortedSet.atKey keys' redisHotKey = (SortedSet.atKey keys redisHotKey).put
        (toString itemId) (incremented itemId payload.delta keys)) :
      Increments itemId payload outcome keys (.error redisCommandError, keys')
  | done {keys' : SortedSet.Keys String α}
      (hzincrby : outcome.connected = true ∧ outcome.zincrby = true)
      (hexpire : outcome.expire = true ∧ payload.ttlSeconds < 2 ^ 63)
      (hset : SortedSet.atKey keys' redisHotKey =
        if payload.ttlSeconds = 0 then ∅
        else (SortedSet.atKey keys redisHotKey).put
          (toString itemId) (incremented itemId payload.delta keys)) :
      Increments itemId payload outcome keys
        (.ok ⟨itemId, payload.delta, incremented itemId payload.delta keys, payload.ttlSeconds⟩,
          keys')

theorem incrHotScore_increments (outcome : HotOutcome) (itemId : Int64)
    (payload : IncrHotRequest α) (keys : SortedSet.Keys String α) :
    Increments itemId payload outcome keys (incrHotScore outcome itemId payload keys) := by
  unfold incrHotScore
  split
  · next hconnected => exact .refused (.inl hconnected)
  split
  · next hzincrby => exact .refused (.inr hzincrby)
  next hconnected hzincrby =>
  have hgiven : outcome.connected = true ∧ outcome.zincrby = true :=
    ⟨eq_true_of_ne_false hconnected, eq_true_of_ne_false hzincrby⟩
  have hset := SortedSet.atKey_zincrby keys redisHotKey payload.delta (toString itemId)
  have hscore : (SortedSet.zincrby redisHotKey payload.delta (toString itemId) keys).1 =
      incremented itemId payload.delta keys := rfl
  rcases hwritten : SortedSet.zincrby redisHotKey payload.delta (toString itemId) keys with
    ⟨score, written⟩
  rw [hwritten] at hset hscore
  obtain rfl : score = incremented itemId payload.delta keys := hscore
  dsimp only at hset ⊢
  split
  · next hexpire => exact .half hgiven (.inl hexpire) hset
  next hexpire =>
  by_cases hfits : payload.ttlSeconds < 2 ^ 63
  · obtain ⟨reply, hreply, hexpired⟩ := SortedSet.atKey_expire written redisHotKey
      (show (-2 ^ 63 : Int) ≤ payload.ttlSeconds by omega) (by omega)
    rcases hanswer : SortedSet.expire redisHotKey (payload.ttlSeconds : Int) written with
      ⟨answer, keys'⟩
    rw [hanswer] at hreply hexpired
    obtain rfl : answer = .ok reply := hreply
    refine .done hgiven ⟨eq_true_of_ne_false hexpire, hfits⟩ ?_
    rw [hexpired, hset]
    by_cases hzero : payload.ttlSeconds = 0
    · rw [if_pos hzero, if_pos (by omega)]
    · rw [if_neg hzero, if_neg (by omega)]
  · rw [SortedSet.expire_of_large written redisHotKey (by omega)]
    exact .half hgiven (.inr (by omega)) hset

end Axes.Stat
