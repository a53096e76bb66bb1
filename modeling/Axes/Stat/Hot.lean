import Axes.Lib.Redis

/-!
# Stock claims on Redis (`handlers/stat/hot.rs`)

`CLAIM_STOCK_SCRIPT` and the handler around it. The script runs in one `EVAL`,
so it is one command; Lua numbers are doubles, which are exact on the integers
up to `2 ^ 53`, and `Lua` leaves open what Redis does with other numbers.
-/

namespace Axes.Stat

open Axes.Lib Axes.Lib.Redis

def redisStockKey (itemId : Int64) : String := s!"demo:stock:{itemId}"

def redisStockUsersKey (itemId : Int64) : String := s!"demo:stock:users:{itemId}"

theorem redisStockKey_eq (itemId : Int64) :
    redisStockKey itemId = "demo:stock:" ++ itemId.toInt.repr := rfl

theorem redisStockUsersKey_eq (itemId : Int64) :
    redisStockUsersKey itemId = "demo:stock:" ++ ("users:" ++ itemId.toInt.repr) := by
  rw [← String.append_assoc]
  rfl

/-- No decimal starts with `users:`, so the two key families do not meet. -/
theorem redisStockKey_ne_users (itemId otherId : Int64) :
    redisStockKey itemId ≠ redisStockUsersKey otherId := by
  intro h
  rw [redisStockKey_eq, redisStockUsersKey_eq, String.append_right_inj] at h
  have hnone : Text.parseInt ("users:" ++ otherId.toInt.repr) = none :=
    Text.parseInt_eq_none (c := 'u') (by simp; rfl) (by decide) (by decide) (by decide)
  rw [← h, Text.parseInt_repr] at hnone
  cases hnone

/-- Integers a Lua number holds exactly. -/
def Exact (n : Int) : Prop := n.natAbs ≤ 2 ^ 53

instance (n : Int) : Decidable (Exact n) := inferInstanceAs (Decidable (_ ≤ _))

/-- Conversions of the embedded Lua outside the exact range; nothing is assumed
of them. -/
structure Lua where
  tonumber : String → Option Int
  tostring : Int → String
  argument : Int → String
  ofInteger : Int → Int

namespace Lua

variable (lua : Lua)

/-- `tonumber(text)`: exact on the canonical decimals up to `2 ^ 53`. -/
def toNumber (text : String) : Option Int :=
  match Text.canonicalInt? text with
  | some n => if Exact n then some n else lua.tonumber text
  | none => lua.tonumber text

/-- `tostring(n)` prints 14 significant digits. -/
def toText (n : Int) : String :=
  if n.natAbs < 10 ^ 14 then n.repr else lua.tostring n

/-- A number passed to `redis.call` prints 17 significant digits. -/
def toArgument (n : Int) : String := if Exact n then n.repr else lua.argument n

/-- An integer reply of `redis.call` as a Lua number. -/
def fromReply (n : Int) : Int := if Exact n then n else lua.ofInteger n

theorem toNumber_repr {n : Int} (h : Exact n) : lua.toNumber n.repr = some n := by
  simp [toNumber, h]

theorem toArgument_exact {n : Int} (h : Exact n) : lua.toArgument n = n.repr := by
  simp [toArgument, h]

theorem fromReply_exact {n : Int} (h : Exact n) : lua.fromReply n = n := by
  simp [fromReply, h]

end Lua

/-- `CLAIM_STOCK_SCRIPT` from the duplicate check on. -/
def claimFrom (lua : Lua) (stockKey usersKey userKey currentStock : String) :
    Command (Int × Int) := do
  if ← sismember usersKey userKey then
    match lua.toNumber currentStock with
    | some current => pure (2, current)
    -- `{2, nil}` ends at the `nil`, and the client wants two integers
    | none => throw .reply
  else
    let text ← get stockKey
    match lua.toNumber (text.getD "-1") with
    -- comparing `nil` with a number raises an error
    | none => throw .script
    | some stock =>
        if stock ≤ 0 then pure (0, stock)
        else do
          let newStock ← decr stockKey
          sadd usersKey userKey
          pure (1, lua.fromReply newStock)

/-- `CLAIM_STOCK_SCRIPT`. -/
def claimStockScript (lua : Lua) (stockKey usersKey userKey initialArg : String) :
    Command (Int × Int) := do
  match ← get stockKey with
  | some currentStock => claimFrom lua stockKey usersKey userKey currentStock
  | none =>
      match lua.toNumber initialArg with
      | some initialStock =>
          if 0 ≤ initialStock then do
            set stockKey (lua.toArgument initialStock)
            claimFrom lua stockKey usersKey userKey (lua.toText initialStock)
          else pure (0, -1)
      | none => pure (0, -1)

structure ClaimStockRequest where
  userKey : String
  initialStock : Option Int64
  deriving DecidableEq

structure ClaimStockResult where
  applied : Bool
  duplicate : Bool
  remainingStock : Int
  deriving DecidableEq

/-- `claim_stock` up to the mapping of the result to a response. -/
def claimStock (lua : Lua) (itemId : Int64) (payload : ClaimStockRequest) :
    Command ClaimStockResult := do
  let result ← claimStockScript lua (redisStockKey itemId) (redisStockUsersKey itemId)
    payload.userKey (toString (payload.initialStock.getD (-1)))
  pure { applied := result.1 == 1, duplicate := result.1 == 2, remainingStock := result.2 }

def claimStatusCode (result : ClaimStockResult) : Nat :=
  if result.applied then 200 else if result.duplicate then 409 else 400

/-! ## Footprint -/

theorem local_claimFrom (lua : Lua) (stockKey usersKey userKey currentStock : String) :
    Local {stockKey, usersKey} (claimFrom lua stockKey usersKey userKey currentStock) := by
  have hstock : ({stockKey} : Set String) ⊆ {stockKey, usersKey} := by simp
  have husers : ({usersKey} : Set String) ⊆ {stockKey, usersKey} := by simp
  refine ((local_sismember usersKey userKey).mono husers).bind ?_
  intro duplicate
  cases duplicate with
  | true =>
      simp only [if_true]
      split
      · exact .pure _
      · exact .throw _
  | false =>
      simp only [Bool.false_eq_true, if_false]
      refine ((local_get stockKey).mono hstock).bind ?_
      intro text
      split
      · exact .throw _
      · split
        · exact .pure _
        · exact ((local_decr stockKey).mono hstock).bind fun newStock =>
            ((local_sadd usersKey userKey).mono husers).bind fun _ => .pure _

theorem local_claimStockScript (lua : Lua) (stockKey usersKey userKey initialArg : String) :
    Local {stockKey, usersKey}
      (claimStockScript lua stockKey usersKey userKey initialArg) := by
  have hstock : ({stockKey} : Set String) ⊆ {stockKey, usersKey} := by simp
  refine ((local_get stockKey).mono hstock).bind ?_
  intro current
  cases current with
  | some currentStock => exact local_claimFrom lua stockKey usersKey userKey currentStock
  | none =>
      dsimp only
      split
      · split
        · exact ((local_set stockKey _).mono hstock).bind fun _ =>
            local_claimFrom lua stockKey usersKey userKey _
        · exact .pure _
      · exact .pure _

/-- A claim touches the two keys of its item. -/
theorem local_claimStock (lua : Lua) (itemId : Int64) (payload : ClaimStockRequest) :
    Local {redisStockKey itemId, redisStockUsersKey itemId}
      (claimStock lua itemId payload) :=
  (local_claimStockScript lua _ _ _ _).bind fun _ => .pure _

end Axes.Stat
