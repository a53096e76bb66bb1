import Axes.Http.Access

/-!
# The table, as the clients know it

A write that was done is answered with a success, unless its reply was lost or it was never
answered. Taken together, in the order of the statements, the replies say what is in the table:
the rows under their ids are what some of the writes make of the rows at the start, every
reported one among them, once, and no others than these and those not heard of (`rows_run`).
-/

namespace Axes.Http

open Axes.Lib Axes.Lib.Web Axes.Bakeries

/-- The name and the profit margin under an id. -/
abbrev Rows := Int → Option (String × Float)

def content (row : Bakeries.Bakery) : String × Float := (row.name, row.profitMargin)

def rowsOf (table : Table) : Rows := fun id =>
  (table.rows.find? fun row => row.id = id).map content

/-! ## The writes of the table -/

variable {table table' : Table}

/-- The rows have different ids. -/
theorem rowsOf_eq_some {id : Int} {row : String × Float} :
    rowsOf table id = some row ↔ ∃ full ∈ table.rows, full.id = id ∧ content full = row := by
  constructor
  · intro h
    obtain ⟨full, hfind, hcontent⟩ := Option.map_eq_some_iff.mp h
    have hid := List.find?_some hfind
    exact ⟨full, List.mem_of_find?_eq_some hfind, of_decide_eq_true hid, hcontent⟩
  · intro h
    obtain ⟨full, hmem, hid, hcontent⟩ := h
    have hnodup : (table.rows.map (·.id)).Nodup :=
      List.pairwise_map.mpr (table.ascending.imp fun hlt => ne_of_lt hlt)
    unfold rowsOf
    cases hfind : table.rows.find? fun row => row.id = id with
    | none => exact absurd (decide_eq_true hid) (List.find?_eq_none.mp hfind full hmem)
    | some found =>
        have hfound := List.find?_some hfind
        have heq : found = full := List.inj_on_of_nodup_map hnodup
          (List.mem_of_find?_eq_some hfind) hmem ((of_decide_eq_true hfound).trans hid.symm)
        rw [heq, Option.map_some, hcontent]

theorem mem_rows_create {id : Int} {payload : CreateDto}
    (h : table.create id payload = some table') :
    id ∉ table.rows.map (·.id) ∧ ∀ row, row ∈ table'.rows ↔
      row = ⟨id, payload.name, payload.profitMargin⟩ ∨ row ∈ table.rows := by
  unfold Table.create at h
  split at h
  · next hfresh =>
      cases h
      refine ⟨hfresh.1, fun row => ?_⟩
      have hother : row ∈ table.rows → row.id < id ∨ id < row.id := by
        intro hmem
        have hne : row.id ≠ id := fun heq => hfresh.1 (heq ▸ List.mem_map_of_mem hmem)
        omega
      simp only [List.mem_append, List.mem_cons, List.mem_filter, decide_eq_true_eq]
      tauto
  · cases h

theorem rowsOf_create {id : Int} {payload : CreateDto}
    (h : table.create id payload = some table') :
    rowsOf table' =
      Function.update (rowsOf table) id (some (payload.name, payload.profitMargin)) := by
  obtain ⟨hfresh, hrows⟩ := mem_rows_create h
  funext id'
  refine Option.ext fun row => ?_
  rw [rowsOf_eq_some]
  by_cases hid : id' = id
  · rw [hid, Function.update_self]
    constructor
    · intro h
      obtain ⟨full, hmem, hfull, hcontent⟩ := h
      rcases (hrows full).mp hmem with rfl | hold
      · exact congrArg some hcontent
      · exact absurd (hfull ▸ List.mem_map_of_mem hold) hfresh
    · intro h
      exact ⟨_, (hrows _).mpr (.inl rfl), rfl, Option.some.inj h⟩
  · rw [Function.update_of_ne hid, rowsOf_eq_some]
    constructor
    · intro h
      obtain ⟨full, hmem, hfull, hcontent⟩ := h
      rcases (hrows full).mp hmem with rfl | hold
      · exact absurd hfull.symm hid
      · exact ⟨full, hold, hfull, hcontent⟩
    · intro h
      obtain ⟨full, hmem, hfull⟩ := h
      exact ⟨full, (hrows full).mpr (.inr hmem), hfull⟩

theorem rowsOf_update (payload : UpdateDto) :
    rowsOf (table.update payload) = Function.update (rowsOf table) payload.id
      ((rowsOf table payload.id).map fun _ => (payload.name, payload.profitMargin)) := by
  have hkept : ∀ id : Int, (fun row : Bakeries.Bakery => decide (row.id = id)) ∘ (fun row =>
      if row.id = payload.id then
        { row with name := payload.name, profitMargin := payload.profitMargin }
      else row) = fun row => decide (row.id = id) := by
    intro id
    funext row
    rw [Function.comp_apply]
    split <;> rfl
  funext id
  have hmap : rowsOf (table.update payload) id = _ :=
    congrArg (Option.map content) (List.find?_map ..)
  rw [hmap, hkept, Function.update_apply]
  unfold rowsOf
  cases hfind : table.rows.find? fun row => row.id = id with
  | none =>
      split
      · next hid =>
          rw [← hid, hfind]
          rfl
      · rfl
  | some row =>
      have hfound := List.find?_some hfind
      have hrow : row.id = id := of_decide_eq_true hfound
      split
      · next hid =>
          rw [← hid, hfind]
          simp only [Option.map_some, content, if_pos hrow]
      · next hid =>
          simp only [Option.map_some, if_neg fun heq => hid (hrow.symm.trans heq)]

theorem rowsOf_delete (payload : DeleteDto) :
    rowsOf (table.delete payload) = Function.update (rowsOf table) payload.id none := by
  funext id
  refine Option.ext fun row => ?_
  have hmem : ∀ full, full ∈ (table.delete payload).rows ↔
      full ∈ table.rows ∧ full.id ≠ payload.id := by
    intro full
    exact List.mem_filter.trans (and_congr_right fun _ => decide_eq_true_iff)
  rw [rowsOf_eq_some]
  by_cases hid : id = payload.id
  · rw [hid, Function.update_self]
    refine iff_of_false ?_ (by simp)
    intro h
    obtain ⟨full, hfull, hsame, -⟩ := h
    exact ((hmem full).mp hfull).2 hsame
  · rw [Function.update_of_ne hid, rowsOf_eq_some]
    refine exists_congr fun full => ?_
    rw [hmem]
    constructor
    · intro h
      exact ⟨h.1.1, h.2⟩
    · intro h
      exact ⟨⟨h.1, h.2.1 ▸ hid⟩, h.2⟩

/-! ## The writes that are reported -/

variable {σ : Type} (lib : Libraries) {others : Others σ}

/-- What a write makes of the rows. -/
def written (req : HttpRequest) (rows : Rows) : Rows :=
  if req.path = ["api", "bakery", "create"] then
    match extractJson (createDto lib) req with
    | .ok payload => Function.update rows req.ext.outside.drawn
        (some (payload.name, payload.profitMargin))
    | .error _ => rows
  else if req.path = ["api", "bakery", "update"] then
    match extractJson (updateDto lib) req with
    | .ok payload => Function.update rows payload.id
        ((rows payload.id).map fun _ => (payload.name, payload.profitMargin))
    | .error _ => rows
  else
    match extractJson deleteDto req with
    | .ok payload => Function.update rows payload.id none
    | .error _ => rows

/-- The paths of the handlers that write. -/
def writing : List (List String) :=
  [["api", "bakery", "create"], ["api", "bakery", "update"], ["api", "bakery", "delete"]]

/-- A write that its answer reports as done. -/
def reported (reply : HttpRequest × Option Response) : Prop :=
  reply.1.method = .post ∧ reply.1.path ∈ writing ∧
    reply.2.map (·.status) = success reply.1.path

instance : DecidablePred reported := fun _ => inferInstanceAs (Decidable (_ ∧ _ ∧ _))

/-- A write that may have been done without its client knowing. -/
def unreported (reply : HttpRequest × Option Response) : Prop :=
  reply.1.method = .post ∧ reply.1.path ∈ writing ∧
    (reply.2 = none ∨
      reply.1.ext.outside.sql = .lost ∧ reply.2 = some (intoResponse internalServerError))

variable {lib} {w₀ w w' : HttpWorld σ} {req req' : HttpRequest}
  {ts : List (Transition (HttpWorld σ) HttpRequest)}

theorem rowsOf_wrote {path : List String} (hpath : req.path = path)
    (h : Wrote lib req table path table') : rowsOf table' = written lib req (rowsOf table) := by
  unfold written
  cases h with
  | create hread hwrite =>
      rw [if_pos hpath, hread]
      exact rowsOf_create hwrite
  | update hread =>
      rw [hpath, if_neg (by decide), if_pos rfl, hread]
      exact rowsOf_update _
  | delete hread =>
      rw [hpath, if_neg (by decide), if_neg (by decide), hread]
      exact rowsOf_delete _

theorem capture_self (path : List String) : (capture (exactly path) path).isSome := by
  induction path with
  | nil => rfl
  | cons segment path ih =>
      show (if segment = segment then capture (exactly path) path else none).isSome
      rw [if_pos rfl]
      exact ih

/-- A path that writes is under its own template. -/
theorem answers_writing {template? : Option Template} {handler : HttpHandler σ}
    (h : Router.Answers (route lib others) req template? handler req')
    (hpath : req.path ∈ writing) : template? = some (exactly req.path) := by
  have hwriting : ∀ path ∈ writing, exactly path ∈ serviceTemplates ∧
      ∀ template ∈ serviceTemplates, overlap template (exactly path) = true →
        Router.shape template ≤ Router.shape (exactly path) → template = exactly path := by
    decide
  obtain ⟨hservice, halone⟩ := hwriting _ hpath
  exact answers_best h hservice halone (capture_self req.path)

theorem Wrote.mem_writing {path : List String} (h : Wrote lib req table path table') :
    path ∈ writing := by
  cases h <;> decide

/-- What the response of a handler says about the table. -/
theorem Served.reported {template? : Option Template} {handler : HttpHandler σ}
    {response : Response} {s s' : AppState σ}
    (h : Served (Lawful lib) lib others s req template? handler req' response s') :
    (¬reported (req, some response) ∧ s'.bakeries = s.bakeries) ∨
      (Http.reported (req, some response) ∨ ReplyLost req (some response)) ∧
        Wrote lib req s.bakeries req.path s'.bakeries := by
  by_cases hoptions : req.method = .options
  · refine .inl ⟨fun hreported => ?_, by rw [(h.options hoptions).2]⟩
    exact Method.noConfusion (hoptions.symm.trans hreported.1)
  obtain ⟨hresponse, hstate⟩ := h.handled hoptions
  have hmethod : (withUser req').method = req.method := h.answers.method
  rw [hstate]
  rcases h.holds.table (withUser req') s with ⟨hsilent, hsame⟩ |
    ⟨hanswer, -, path, htemplate, hwrote⟩
  · refine .inl ⟨fun hreported => hsilent ?_, hsame⟩
    obtain ⟨hpost, hwriting, hsuccess⟩ := hreported
    obtain ⟨body, hbody⟩ := dressed_success (success_lt hsuccess.symm)
      (congrArg Response.status hresponse.symm)
    exact ⟨hmethod.trans hpost, req.path, response.status, body,
      answers_writing h.answers hwriting, hsuccess.symm, hbody⟩
  · obtain rfl := capture_exactly (h.answers.matching _ htemplate).2
    have hwrote := hwrote.withUser h.answers.ext
    refine .inr ⟨?_, hwrote⟩
    rcases hanswer with ⟨hpost, path, done, body, htemplate', hsuccess, hreport⟩ |
      ⟨-, hpost, hlost, hreport⟩
    · obtain rfl := exactly_injective (Option.some.inj (htemplate'.symm.trans htemplate))
      have hsmall := success_lt hsuccess
      have hdone : response.status = done := by
        rw [hresponse, hreport]
        show (if done = 405 then methodNotAllowed else ⟨done, body⟩ : Response).status = done
        rw [if_neg (by omega)]
      refine .inl ⟨hmethod.symm.trans hpost, hwrote.mem_writing, ?_⟩
      exact (congrArg some hdone).trans hsuccess.symm
    · have hsql : req'.ext.outside.sql = .lost := hlost
      rw [h.answers.ext] at hsql
      refine .inr ⟨hmethod.symm.trans hpost, hsql, ?_⟩
      rw [hresponse, hreport]
      rfl

/-- **What a request does to the rows**, and what is known of it. -/
theorem step_rows (hstep : step lib others w req = some w') :
    ∃ reply, reply.1 = req ∧ w'.replies = w.replies ++ [reply] ∧
      ((¬reported reply ∧ rowsOf w'.state.bakeries = rowsOf w.state.bakeries) ∨
        (reported reply ∨ unreported reply) ∧
          rowsOf w'.state.bakeries = written lib req (rowsOf w.state.bakeries)) := by
  obtain ⟨template?, handler, req', response, s', rfl, hserved⟩ :=
    served_of_step (holds_routes _ others) hstep
  refine ⟨_, rfl, w.replies_next req response s', ?_⟩
  have hunheard : ¬reported (req, none) := by
    intro h
    obtain ⟨-, hwriting, hnone⟩ := h
    have hsuccess : ∀ path ∈ writing, success path ≠ none := by decide
    exact hsuccess _ hwriting hnone.symm
  unfold HttpWorld.next
  dsimp only
  cases req.ext.outside.ending with
  | answered =>
      rcases hserved.reported with ⟨hquiet, hsame⟩ | ⟨hanswer, hwrote⟩
      · exact .inl ⟨hquiet, congrArg rowsOf hsame⟩
      · refine .inr ⟨hanswer.imp_right ?_, rowsOf_wrote rfl hwrote⟩
        intro h
        obtain ⟨hpost, hlost, hresponse⟩ := h
        exact ⟨hpost, hwrote.mem_writing, .inr ⟨hlost, hresponse⟩⟩
  | dropped executed =>
      cases executed with
      | false => exact .inl ⟨hunheard, rfl⟩
      | true =>
          rcases hserved.table with hsame | ⟨hpost, -, hwrote⟩
          · exact .inl ⟨hunheard, congrArg rowsOf hsame⟩
          · exact .inr ⟨.inr ⟨hpost, hwrote.mem_writing, .inl rfl⟩, rowsOf_wrote rfl hwrote⟩

/-- **The replies say what is in the table.** -/
theorem rows_run (hrun : (system lib others).Run w₀ ts w) :
    ∃ replies done, w.replies = w₀.replies ++ replies ∧
      replies.map (·.1) = ts.map (·.action) ∧
      (replies.filter fun reply => reported reply).Sublist done ∧ done.Sublist replies ∧
      (∀ reply ∈ done, reported reply ∨ unreported reply) ∧
      rowsOf w.state.bakeries = done.foldl (fun rows reply => written lib reply.1 rows)
        (rowsOf w₀.state.bakeries) := by
  induction hrun with
  | refl => exact ⟨[], [], by simp, rfl, .slnil, .slnil, fun _ h => (List.not_mem_nil h).elim, rfl⟩
  | @step ts w req w' _ hstep ih =>
      obtain ⟨replies, done, hreplies, hactions, htold, hdone, hheard, hrows⟩ := ih
      rw [system_step] at hstep
      obtain ⟨reply, rfl, hreply, hcases⟩ := step_rows hstep
      have hall : w'.replies = w₀.replies ++ (replies ++ [reply]) := by
        rw [hreply, hreplies, List.append_assoc]
      have hsent : (replies ++ [reply]).map (·.1) = ts.map (·.action) ++ [reply.1] := by
        rw [List.map_append, hactions]
        rfl
      rw [← List.map_singleton (f := Transition.action) (a := ⟨w, reply.1, w'⟩),
        ← List.map_append] at hsent
      rcases hcases with ⟨hquiet, hsame⟩ | ⟨hknown, hwritten⟩
      · refine ⟨replies ++ [reply], done, hall, hsent, ?_, ?_, hheard, hsame.trans hrows⟩
        · rw [List.filter_append, List.filter_cons_of_neg (by simpa using hquiet)]
          simpa using htold
        · exact hdone.trans (List.sublist_append_left _ _)
      · refine ⟨replies ++ [reply], done ++ [reply], hall, hsent, ?_, ?_, ?_, ?_⟩
        · rw [List.filter_append]
          exact htold.append List.filter_sublist
        · exact hdone.append (.refl _)
        · intro other hother
          rcases List.mem_append.mp hother with hold | hnew
          · exact hheard other hold
          · obtain rfl := List.mem_singleton.mp hnew
            exact hknown
        · rw [hwritten, hrows, List.foldl_append]
          rfl

/-- The same write, with its reply lost. -/
def lostCreate : HttpRequest :=
  { sesameCreate with ext := { sesameCreate.ext with
    outside := { sesameCreate.ext.outside with sql := .lost } } }

/-- A row that its client does not know of, and a second one under the same id, which is not
there. -/
theorem rows_run_taken : ∃ ts w, ∃ done : List (HttpRequest × Option Response),
    (system plainLibraries noOthers).Run emptyWorld ts w ∧
      w.replies.map (fun reply => reply.2.map (·.status)) = [some 200, some 500, some 500] ∧
      done.Sublist w.replies ∧
      rowsOf w.state.bakeries = done.foldl (fun rows reply => written plainLibraries reply.1 rows)
        (rowsOf noBakeries) ∧
      rowsOf w.state.bakeries 1 = some ("Sesame", 0.5) := by
  obtain ⟨w₁, w₂, w₃, hlogin, hcreate, hagain, hstatus, hrow⟩ : ∃ w₁ w₂ w₃,
      step plainLibraries noOthers emptyWorld sesameLogin = some w₁ ∧
        step plainLibraries noOthers w₁ lostCreate = some w₂ ∧
        step plainLibraries noOthers w₂ sesameCreate = some w₃ ∧
        w₃.replies.map (fun reply => reply.2.map (·.status)) = [some 200, some 500, some 500] ∧
        rowsOf w₃.state.bakeries 1 = some ("Sesame", 0.5) :=
    ⟨_, _, _, rfl, rfl, rfl, rfl, rfl⟩
  rw [← system_step] at hlogin hcreate hagain
  have hrun := ((TSys.Run.refl.step hlogin).step hcreate).step hagain
  obtain ⟨replies, done, hreplies, -, -, hdone, -, hrows⟩ := rows_run hrun
  obtain rfl : w₃.replies = replies := hreplies
  exact ⟨_, w₃, done, hrun, hstatus, hdone, hrows, hrow⟩

end Axes.Http
