import Axes.Orders.Cache
import Axes.Stat.Oversell

/-!
# Order traffic and stock claims in one Redis keyspace

Both subsystems build keys under `demo:stock:`, from a sku chosen by a client and
from an item id. `Undisturbed skus` is noninterference of the two over whole
interleavings in which the order path uses only `skus`; it holds exactly when no
sku is a decimal item id or `users:` followed by one (`undisturbed_iff`).
-/

namespace Axes.Stat

open Axes.Lib Axes.Lib.Redis Axes.Orders

/-- One access to the shared keyspace. -/
inductive Access
  | claim (itemId : Int64) (payload : ClaimStockRequest)
  | precheck (sku : String)
  | refresh (sku : String) (quantity : Option Int)

inductive AccessReply
  | claimed (result : ClaimStockResult)
  | cached (available : Option Int)
  | refreshed
  deriving DecidableEq

namespace Access

def isClaim : Access → Bool
  | claim .. => true
  | precheck .. => false
  | refresh .. => false

/-- The order path uses only skus from `skus`. -/
def Uses (skus : Set String) : Access → Prop
  | claim .. => True
  | precheck sku => sku ∈ skus
  | refresh sku _ => sku ∈ skus

def command (lua : Lua) : Access → Command AccessReply
  | claim itemId payload => do
      let result ← claimStock lua itemId payload
      pure (.claimed result)
  | precheck sku => do
      let available ← redisPrecheckGet sku
      pure (.cached available)
  | refresh sku quantity => do
      refreshRedisStock sku quantity
      pure .refreshed

end Access

/-- The user to whom a reply granted a unit of an item. -/
def grantOf (itemId : Int64) : Access × Except Error AccessReply → Option String
  | (.claim id payload, .ok (.claimed result)) =>
      if id = itemId ∧ result.applied then some payload.userKey else none
  | _ => none

/-- The users a run of accesses granted a unit of an item, one entry for each grant. -/
def grants (itemId : Int64) (replies : List (Access × Except Error AccessReply)) :
    List String :=
  replies.filterMap (grantOf itemId)

/-- Order traffic on `skus` and stock claims do not interfere. -/
structure Undisturbed (lua : Lua) (skus : Set String) : Prop where
  /-- Deleting the order path from a run changes no claim key and no claim reply. -/
  claims : ∀ run : List Access, (∀ a ∈ run, a.Uses skus) → ∀ ks : Keyspace,
    (execAll (Access.command lua) run ks).1.filter (fun r => r.1.isClaim) =
        (execAll (Access.command lua) (run.filter Access.isClaim) ks).1 ∧
      ∀ itemId : Int64, ∀ key ∈ [redisStockKey itemId, redisStockUsersKey itemId],
        (execAll (Access.command lua) run ks).2 key =
          (execAll (Access.command lua) (run.filter Access.isClaim) ks).2 key
  /-- A claim does not change what the precheck of a sku reads. -/
  precheck : ∀ itemId payload, ∀ sku ∈ skus, ∀ ks : Keyspace,
    (exec (claimStock lua itemId payload) ks).2 (Orders.redisStockKey sku) =
      ks (Orders.redisStockKey sku)
  /-- No user is granted twice for one item. -/
  once : ∀ run : List Access, (∀ a ∈ run, a.Uses skus) → ∀ (ks : Keyspace) (itemId : Int64),
    (grants itemId (execAll (Access.command lua) run ks).1).Nodup

/-- The keys of all items. -/
def claimKeys : Set String :=
  {key | ∃ itemId, key = redisStockKey itemId ∨ key = redisStockUsersKey itemId}

/-- The order key of a sku is a claim key exactly for two shapes of the sku. -/
theorem stockKey_mem_claimKeys (sku : String) :
    Orders.redisStockKey sku ∈ claimKeys ↔
      ∃ itemId : Int64, sku = toString itemId ∨ sku = "users:" ++ toString itemId := by
  have hkey : Orders.redisStockKey sku = "demo:stock:" ++ sku := rfl
  constructor
  · rintro ⟨itemId, h | h⟩
    · rw [hkey, redisStockKey_eq, String.append_right_inj] at h
      exact ⟨itemId, .inl h⟩
    · rw [hkey, redisStockUsersKey_eq, String.append_right_inj] at h
      exact ⟨itemId, .inr h⟩
  · rintro ⟨itemId, rfl | rfl⟩
    · exact ⟨itemId, .inl (by rw [hkey, redisStockKey_eq]; rfl)⟩
    · exact ⟨itemId, .inr (by rw [hkey, redisStockUsersKey_eq]; rfl)⟩

/-! ## Footprints of the accesses -/

section Footprints

variable (lua : Lua)

theorem local_claim (itemId : Int64) (payload : ClaimStockRequest) :
    Local claimKeys (Access.command lua (.claim itemId payload)) := by
  have hclaim := local_claimStock lua itemId payload
  refine (hclaim.mono ?_).bind fun _ => .pure _
  rintro key (rfl | rfl)
  · exact ⟨itemId, .inl rfl⟩
  · exact ⟨itemId, .inr rfl⟩

/-- The order path touches only the order key of its sku. -/
theorem order_writes {a : Access} (ha : a.isClaim = false) {skus : Set String}
    (huses : a.Uses skus) {key : String} (hkey : ∀ sku ∈ skus, Orders.redisStockKey sku ≠ key)
    (ks : Keyspace) : (exec (a.command lua) ks).2 key = ks key := by
  cases a with
  | claim itemId payload => cases ha
  | precheck sku =>
      exact ((local_redisPrecheckGet sku).bind fun _ => .pure _).writes ks key
        (hkey sku huses).symm
  | refresh sku quantity =>
      exact ((local_refreshRedisStock sku quantity).bind fun _ => .pure _).writes ks key
        (hkey sku huses).symm

end Footprints

/-! ## A grant stays -/

section Grants

variable {lua : Lua} {itemId : Int64}

/-- A claim keeps every user already in the set of its item. -/
theorem claimStock_keeps (payload : ClaimStockRequest) (user : String) :
    Preserves (fun ks => Holds user (ks (redisStockUsersKey itemId)))
      (claimStock lua itemId payload) := by
  have hstock : redisStockUsersKey itemId ∉ ({redisStockKey itemId} : Set String) :=
    fun h => redisStockKey_ne_users itemId itemId h.symm
  have hget : Preserves (fun ks => Holds user (ks (redisStockUsersKey itemId)))
      (Redis.get (redisStockKey itemId)) := .of_local (local_get _) hstock _
  have hfrom : ∀ current, Preserves (fun ks => Holds user (ks (redisStockUsersKey itemId)))
      (claimFrom lua (redisStockKey itemId) (redisStockUsersKey itemId) payload.userKey
        current) := by
    intro current
    refine Preserves.bind ?_ fun duplicate => ?_
    · intro ks h
      unfold exec sismember
      split <;> exact h
    · cases duplicate with
      | true =>
          simp only [if_true]
          split
          · exact .pure _
          · exact .throw _
      | false =>
          simp only [Bool.false_eq_true, if_false]
          refine hget.bind ?_
          intro text
          split
          · exact .throw _
          · split
            · exact .pure _
            · exact (Preserves.of_local (local_decr _) hstock _).bind fun newStock =>
                (preserves_sadd _ _ _).bind fun _ => .pure _
  refine Preserves.bind ?_ fun _ => .pure _
  refine hget.bind ?_
  intro text
  cases text with
  | some current => exact hfrom current
  | none =>
      dsimp only
      split
      · split
        · exact (Preserves.of_local (local_set _ _) hstock _).bind fun _ => hfrom _
        · exact .pure _
      · exact .pure _

/-- The script grants only users who are not in the set, and puts them there. -/
theorem claimFrom_grant {ks ks' : Keyspace} {userKey current : String} {n : Int}
    (h : exec (claimFrom lua (redisStockKey itemId) (redisStockUsersKey itemId) userKey
      current) ks = (.ok (1, n), ks')) :
    ¬Holds userKey (ks (redisStockUsersKey itemId)) ∧
      Holds userKey (ks' (redisStockUsersKey itemId)) := by
  obtain ⟨duplicate, mid, hmember, h⟩ := exec_bind_ok h
  obtain ⟨rfl, hduplicate⟩ := exec_sismember_ok hmember
  cases duplicate with
  | true =>
      simp only [if_true] at h
      split at h <;> cases h
  | false =>
      simp only [Bool.false_eq_true, if_false] at h
      obtain ⟨text, mid, _, h⟩ := exec_bind_ok h
      -- Of the replies of this branch only the last one grants.
      split at h
      · cases h
      · split at h
        · cases h
        · obtain ⟨newStock, mid, _, h⟩ := exec_bind_ok h
          obtain ⟨⟨⟩, last, hadd, h⟩ := exec_bind_ok h
          cases h
          exact ⟨fun hold => Bool.false_ne_true (hduplicate.mpr hold), exec_sadd_ok hadd⟩

theorem claimStock_grant {ks ks' : Keyspace} {payload : ClaimStockRequest}
    {result : ClaimStockResult}
    (h : exec (claimStock lua itemId payload) ks = (.ok result, ks'))
    (happlied : result.applied = true) :
    ¬Holds payload.userKey (ks (redisStockUsersKey itemId)) ∧
      Holds payload.userKey (ks' (redisStockUsersKey itemId)) := by
  obtain ⟨⟨code, n⟩, last, hscript, h⟩ := exec_bind_ok h
  cases h
  obtain rfl : code = 1 := by simpa using happlied
  obtain ⟨text, mid, hget, hscript⟩ := exec_bind_ok hscript
  -- Reading the stock key changes nothing.
  have hmid : mid = ks := by
    have := exec_get_state ks (redisStockKey itemId)
    rwa [hget] at this
  subst hmid
  cases text with
  | some current => exact claimFrom_grant hscript
  | none =>
      dsimp only at hscript
      split at hscript
      · split at hscript
        · obtain ⟨⟨⟩, opened, hset, hscript⟩ := exec_bind_ok hscript
          cases hset
          have hgrant := claimFrom_grant hscript
          rwa [Function.update_of_ne (redisStockKey_ne_users itemId itemId).symm] at hgrant
        · cases hscript
      · cases hscript

/-- An access that grants takes the user into the set of the item. -/
theorem grantOf_step {a : Access} {ks : Keyspace} {user : String}
    (h : grantOf itemId (a, (exec (a.command lua) ks).1) = some user) :
    ¬Holds user (ks (redisStockUsersKey itemId)) ∧
      Holds user ((exec (a.command lua) ks).2 (redisStockUsersKey itemId)) := by
  rcases heval : exec (a.command lua) ks with ⟨reply, after⟩
  rw [heval] at h
  unfold grantOf at h
  split at h
  · next id payload result heq =>
      obtain ⟨rfl, rfl⟩ := Prod.mk.inj heq
      split at h
      · next happlied =>
          obtain ⟨rfl, happlied⟩ := happlied
          cases h
          obtain ⟨claimed, mid, hclaim, hpure⟩ := exec_bind_ok heval
          cases hpure
          exact claimStock_grant hclaim happlied
      · cases h
  · cases h

end Grants

theorem redisStockUsersKey_injective {itemId otherId : Int64}
    (h : redisStockUsersKey itemId = redisStockUsersKey otherId) : itemId = otherId := by
  rw [redisStockUsersKey_eq, redisStockUsersKey_eq, String.append_right_inj,
    String.append_right_inj, Int.repr_inj] at h
  exact Int64.toInt_inj.mp h

/-- Skus whose order keys are no claim keys. -/
def Apart (skus : Set String) : Prop :=
  ∀ sku ∈ skus, Orders.redisStockKey sku ∉ claimKeys

section Runs

variable {lua : Lua} {skus : Set String} (hskus : Apart skus)

include hskus

/-- No access takes a user out of the set of an item. -/
theorem access_keeps {a : Access} (huses : a.Uses skus) (itemId : Int64) (user : String) :
    Preserves (fun ks => Holds user (ks (redisStockUsersKey itemId))) (a.command lua) := by
  have hapart : ∀ sku ∈ skus, Orders.redisStockKey sku ≠ redisStockUsersKey itemId :=
    fun sku hsku heq => hskus sku hsku ⟨itemId, .inr heq⟩
  cases a with
  | claim otherId payload =>
      refine Preserves.bind ?_ fun _ => .pure _
      by_cases hid : itemId = otherId
      · subst hid
        exact claimStock_keeps payload user
      · refine .of_local (local_claimStock lua otherId payload) ?_ _
        rintro (h | h)
        · exact redisStockKey_ne_users otherId itemId h.symm
        · exact hid (redisStockUsersKey_injective h)
  | precheck sku =>
      intro ks h
      rwa [order_writes lua rfl huses hapart ks]
  | refresh sku quantity =>
      intro ks h
      rwa [order_writes lua rfl huses hapart ks]

/-- Nobody in the set of an item is granted again. -/
theorem grants_of_held (itemId : Int64) (user : String) (run : List Access)
    (huses : ∀ a ∈ run, a.Uses skus) (ks : Keyspace)
    (h : Holds user (ks (redisStockUsersKey itemId))) :
    user ∉ grants itemId (execAll (Access.command lua) run ks).1 := by
  induction run generalizing ks with
  | nil => simp [grants]
  | cons a run ih =>
      have hkeep : Preserves (fun ks => Holds user (ks (redisStockUsersKey itemId)))
          (a.command lua) := access_keeps hskus (huses a List.mem_cons_self) itemId user
      have hrest := ih (fun b hb => huses b (List.mem_cons_of_mem _ hb)) _ (hkeep ks h)
      rw [execAll_cons]
      unfold grants at hrest ⊢
      rw [List.filterMap_cons]
      split
      · exact hrest
      · next granted hgrant =>
          rw [List.mem_cons, not_or]
          refine ⟨?_, hrest⟩
          rintro rfl
          exact (grantOf_step hgrant).1 h

theorem grants_nodup (itemId : Int64) (run : List Access) (huses : ∀ a ∈ run, a.Uses skus)
    (ks : Keyspace) : (grants itemId (execAll (Access.command lua) run ks).1).Nodup := by
  induction run generalizing ks with
  | nil => exact List.nodup_nil
  | cons a run ih =>
      have huses' : ∀ b ∈ run, b.Uses skus := fun b hb => huses b (List.mem_cons_of_mem _ hb)
      rw [execAll_cons]
      unfold grants
      rw [List.filterMap_cons]
      split
      · exact ih huses' _
      · next granted hgrant =>
          exact List.nodup_cons.mpr
            ⟨grants_of_held hskus itemId granted run huses' _ (grantOf_step hgrant).2,
              ih huses' _⟩

/-- Skus whose keys are no claim keys leave the claims alone, and are left alone. -/
theorem undisturbed_of_apart : Undisturbed lua skus where
  claims run huses ks := by
    have hkeep : ∀ a ∈ run, a.isClaim = true → Local claimKeys (a.command lua) := by
      intro a _ ha
      cases a with
      | claim itemId payload => exact local_claim lua itemId payload
      | precheck sku => cases ha
      | refresh sku quantity => cases ha
    have hdrop : ∀ a ∈ run, a.isClaim = false → ∀ ks, ∀ key ∈ claimKeys,
        (exec (a.command lua) ks).2 key = ks key := by
      intro a ha hother ks key hkey
      exact order_writes lua hother (huses a ha)
        (fun sku hsku heq => hskus sku hsku (heq ▸ hkey)) ks
    -- Claims read and write claim keys only, and the order path writes none.
    obtain ⟨hreplies, hstate⟩ := execAll_filter (Access.command lua) Access.isClaim claimKeys
      run hkeep hdrop ks ks (fun _ _ => rfl)
    refine ⟨hreplies, fun itemId key hkey => hstate key ?_⟩
    simp only [List.mem_cons, List.not_mem_nil, or_false] at hkey
    exact ⟨itemId, hkey⟩
  precheck itemId payload sku hsku ks := by
    refine (local_claimStock lua itemId payload).writes ks _ fun hkey => hskus sku hsku ?_
    exact ⟨itemId, hkey⟩
  once run huses ks itemId := grants_nodup hskus itemId run huses ks

end Runs

/-- Refreshing a sku whose key is a claim key writes into the claims. -/
theorem apart_of_undisturbed {lua : Lua} {skus : Set String} (h : Undisturbed lua skus) :
    Apart skus := by
  rintro sku hsku ⟨itemId, hkey⟩
  have hmem : Orders.redisStockKey sku ∈ [redisStockKey itemId, redisStockUsersKey itemId] := by
    simpa using hkey
  have hsame := (h.claims [.refresh sku (some 0)] (by simpa [Access.Uses] using hsku)
    (fun _ => none)).2 itemId _ hmem
  have hwritten : (execAll (Access.command lua) [.refresh sku (some 0)] (fun _ => none)).2
      (Orders.redisStockKey sku) = some (.string (0 : Int).repr) := by
    simp only [execAll_cons, execAll_nil, Access.command, refreshRedisStock, exec_bind,
      exec_set, exec_pure, Function.update_self]
  rw [hwritten] at hsame
  cases hsame

theorem apart_iff {skus : Set String} : Apart skus ↔
    ∀ sku ∈ skus, ∀ itemId : Int64,
      sku ≠ toString itemId ∧ sku ≠ "users:" ++ toString itemId := by
  simp only [Apart, stockKey_mem_claimKeys, not_exists, not_or, ne_eq]

/-- **Exactly the skus that collide with no item disturb no claim.** -/
theorem undisturbed_iff (lua : Lua) (skus : Set String) :
    Undisturbed lua skus ↔
      ∀ sku ∈ skus, ∀ itemId : Int64,
        sku ≠ toString itemId ∧ sku ≠ "users:" ++ toString itemId := by
  rw [← apart_iff]
  exact ⟨apart_of_undisturbed, fun h => undisturbed_of_apart h⟩

/-- The skus of orders that pass validation. -/
def acceptedSkus : Set String :=
  {sku | ∃ quantity validated, (CreateOrderRequest.mk sku quantity).validate = .ok validated}

/-- An order for the sku `users:7`, for which there is no stock row, deletes the set of
users of item 7, and its first user is granted a second unit. -/
theorem not_undisturbed_accepted :
    ¬Undisturbed ⟨fun _ => none, Int.repr, Int.repr, id⟩ acceptedSkus := by
  intro h
  have haccepted : "users:7" ∈ acceptedSkus := ⟨1, _, rfl⟩
  have hrun : ∀ a ∈ [Access.claim 7 ⟨"alice", some 2⟩, .refresh "users:7" none,
      .claim 7 ⟨"alice", none⟩], a.Uses acceptedSkus := by
    simp [Access.Uses, haccepted]
  exact absurd (h.once _ hrun (fun _ => none) 7) (by decide)

end Axes.Stat
