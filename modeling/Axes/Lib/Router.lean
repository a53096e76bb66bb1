import Mathlib.Data.List.MinMax
import Mathlib.Data.List.Nodup
import Axes.Lib.Json

/-!
# Routers

A router as a web framework builds it: endpoints under templates of paths, with layers around
those that are there when the layer is added. A handler passes a state on, and may panic. What
holds of every endpoint and of the fallback holds of whatever the router answers (`Holds`).
-/

namespace Axes.Lib.Web

open Axes.Lib

inductive Method
  | get | head | post | options
  | other (name : String)
  deriving DecidableEq

def Method.text : Method → String
  | .get => "GET"
  | .head => "HEAD"
  | .post => "POST"
  | .options => "OPTIONS"
  | .other name => name

/-- A segment of a template: a text, or the name of a parameter. -/
inductive Segment
  | static (text : String)
  | param (name : String)
  deriving DecidableEq

abbrev Template := List Segment

def pathText (path : List String) : String := String.join (path.map fun segment => "/" ++ segment)

def templateText (template : Template) : String :=
  pathText (template.map fun
    | .static text => text
    | .param name => "\x7b" ++ name ++ "\x7d")

/-- The parameters of a path that a template matches; no parameter is empty. -/
def capture : Template → List String → Option (List (String × String))
  | [], [] => some []
  | .static text :: template, segment :: path =>
      if text = segment then capture template path else none
  | .param name :: template, segment :: path =>
      if segment = "" then none else (capture template path).map ((name, segment) :: ·)
  | _, _ => none

/-- The bytes of a text in which `%` and two hexadecimal digits may stand for one. -/
def percentBytes : List Char → List UInt8
  | [] => []
  | '%' :: a :: b :: rest =>
      match Json.hexValue a, Json.hexValue b with
      | some high, some low => UInt8.ofNat (high * 16 + low) :: percentBytes rest
      | _, _ => String.utf8EncodeChar '%' ++ percentBytes (a :: b :: rest)
  | c :: rest => String.utf8EncodeChar c ++ percentBytes rest

/-- A parameter as an extractor gets it, if its bytes are UTF-8. -/
def percentDecode (segment : String) : Option String :=
  String.fromUTF8? (percentBytes segment.toList).toByteArray

example : percentDecode "caf%C3%A9%2" = some "café%2" := by rfl

/-- Two templates that may match one path. -/
def overlap : Template → Template → Bool
  | [], [] => true
  | .static text :: template, .static text' :: template' =>
      text = text' && overlap template template'
  | _ :: template, _ :: template' => overlap template template'
  | _, _ => false

/-- A template without parameters. -/
def exactly (path : List String) : Template := path.map .static

/-! ## Templates and paths -/

theorem capture_cons {first : Segment} {rest : Template} {segment : String} {path : List String}
    (h : (capture (first :: rest) (segment :: path)).isSome) :
    (capture rest path).isSome ∧ ∀ text, first = .static text → text = segment := by
  cases first with
  | static text =>
      have hunfold : capture (.static text :: rest) (segment :: path) =
          if text = segment then capture rest path else none := rfl
      rw [hunfold] at h
      split at h
      · next htext =>
          refine ⟨h, ?_⟩
          intro other hother
          cases hother
          exact htext
      · cases h
  | param name =>
      have hunfold : capture (.param name :: rest) (segment :: path) =
          if segment = "" then none else (capture rest path).map ((name, segment) :: ·) := rfl
      rw [hunfold] at h
      split at h
      · cases h
      · rw [Option.isSome_map] at h
        refine ⟨h, ?_⟩
        intro other hother
        cases hother

theorem exactly_injective : Function.Injective exactly :=
  List.map_injective_iff.mpr fun _ _ h => Segment.static.inj h

theorem capture_exactly {path segments : List String}
    (h : (capture (exactly path) segments).isSome) : segments = path := by
  induction path generalizing segments with
  | nil =>
      cases segments with
      | nil => rfl
      | cons segment segments => cases h
  | cons text path ih =>
      cases segments with
      | nil => cases h
      | cons segment segments =>
          obtain ⟨hrest, htext⟩ := capture_cons h
          rw [ih hrest, htext text rfl]

theorem overlap_of_capture {template template' : Template} {path : List String}
    (h : (capture template path).isSome) (h' : (capture template' path).isSome) :
    overlap template template' = true := by
  induction path generalizing template template' with
  | nil =>
      rcases template with _ | ⟨_ | _, _⟩
      · rcases template' with _ | ⟨_ | _, _⟩
        · rfl
        · cases h'
        · cases h'
      · cases h
      · cases h
  | cons segment path ih =>
      cases template with
      | nil => cases h
      | cons first rest =>
          cases template' with
          | nil => cases h'
          | cons first' rest' =>
              obtain ⟨hrest, htext⟩ := capture_cons h
              obtain ⟨hrest', htext'⟩ := capture_cons h'
              have hoverlap := ih hrest hrest'
              cases first with
              | param name => cases first' <;> exact hoverlap
              | static text =>
                  cases first' with
                  | param name => exact hoverlap
                  | static text' =>
                      have hsame : text = text' := (htext text rfl).trans (htext' text' rfl).symm
                      show (decide (text = text') && overlap rest rest') = true
                      rw [hoverlap, decide_eq_true hsame]
                      rfl

/-! ## Routers -/

/-- A path is a list of segments, the one of the root an empty one; `ext` is whatever else there
is to a request. -/
structure Request (ε : Type) where
  method : Method
  path : List String
  matchedPath : Option Template
  params : List (String × String)
  ext : ε

inductive Body
  | empty
  | text (text : String)
  | json (value : Json)
  /-- A text that the framework writes. -/
  | rejection

structure Response where
  status : Nat
  body : Body

/-- A handler that panics has no response. -/
abbrev Handler (ε σ : Type) := Request ε → σ → Option Response × σ

abbrev Layer (ε σ : Type) := Handler ε σ → Handler ε σ

structure Route (ε σ : Type) where
  template : Template
  endpoint : Handler ε σ

structure Router (ε σ : Type) where
  routes : List (Route ε σ)
  fallback : Handler ε σ

variable {ε σ : Type}

/-- An endpoint for one method; one for `GET` also answers `HEAD`, without the body. -/
def on (method : Method) (handler : Handler ε σ) : Handler ε σ := fun req s =>
  if req.method = method then handler req s
  else if req.method = .head ∧ method = .get then
    let (response, s) := handler req s
    (response.map fun response => { response with body := .empty }, s)
  else (some ⟨405, .empty⟩, s)

namespace Router

def new : Router ε σ := ⟨[], fun _ s => (some ⟨404, .empty⟩, s)⟩

def route (r : Router ε σ) (template : Template) (endpoint : Handler ε σ) : Router ε σ :=
  { r with routes := r.routes ++ [⟨template, endpoint⟩] }

/-- The layer is put around what is there. -/
def layer (r : Router ε σ) (f : Layer ε σ) : Router ε σ :=
  ⟨r.routes.map fun route => { route with endpoint := f route.endpoint }, f r.fallback⟩

theorem layer_layer (r : Router ε σ) (f g : Layer ε σ) :
    (r.layer f).layer g = r.layer fun handler => g (f handler) := by
  simp [layer]

/-- The root of a nested router has no segment of its own. -/
def nested (front template : Template) : Template :=
  if template = [.static ""] then front else front ++ template

/-- The routes of `inner` under a common front; its fallback is not taken over. -/
def nest (r : Router ε σ) (front : Template) (inner : Router ε σ) : Router ε σ :=
  { r with routes := r.routes ++
      inner.routes.map fun route => { route with template := nested front route.template } }

def withFallback (r : Router ε σ) (handler : Handler ε σ) : Router ε σ :=
  { r with fallback := handler }

/-- Where a template has parameters, in binary: among templates of a length, the least one has a
text where the next one has a parameter. -/
def shape (template : Template) : Nat :=
  template.foldl (fun n segment => match segment with
    | .static _ => 2 * n
    | .param _ => 2 * n + 1) 0

def templates (r : Router ε σ) : List Template := r.routes.map (·.template)

/-- The route for a path; among several, the one that has a text where another has a parameter. -/
def find (r : Router ε σ) (path : List String) : Option (Route ε σ) :=
  (r.routes.filter fun route => (capture route.template path).isSome).argmin
    fun route => shape route.template

def dispatch (r : Router ε σ) : Handler ε σ := fun req s =>
  match r.find req.path with
  | some route =>
      route.endpoint { req with
        matchedPath := some route.template
        params := (capture route.template req.path).getD [] } s
  | none => r.fallback { req with matchedPath := none, params := [] } s

/-! ## What holds of a router -/

/-- What holds of each endpoint, with its template, and of the fallback, without one. -/
structure Holds (P : Option Template → Handler ε σ → Prop) (r : Router ε σ) : Prop where
  routes : ∀ route ∈ r.routes, P (some route.template) route.endpoint
  fallback : P none r.fallback

variable {P : Option Template → Handler ε σ → Prop} {r inner : Router ε σ}

theorem Holds.mono {Q : Option Template → Handler ε σ → Prop} (h : Holds P r)
    (hmono : ∀ template? handler, P template? handler → Q template? handler) : Holds Q r :=
  ⟨fun route hroute => hmono _ _ (h.routes route hroute), hmono _ _ h.fallback⟩

theorem Holds.and {Q : Option Template → Handler ε σ → Prop} (h : Holds P r) (h' : Holds Q r) :
    Holds (fun template? handler => P template? handler ∧ Q template? handler) r :=
  ⟨fun route hroute => ⟨h.routes route hroute, h'.routes route hroute⟩, h.fallback, h'.fallback⟩

/-- When each template has one route, it has one endpoint. -/
theorem holds_endpoint (route : Route ε σ) (hdistinct : r.templates.Nodup)
    (hmem : route ∈ r.routes) :
    Holds (fun template? handler => template? = some route.template → handler = route.endpoint)
      r := by
  constructor
  · intro other hother htemplate
    rw [List.inj_on_of_nodup_map hdistinct hother hmem (Option.some.inj htemplate)]
  · intro h
    cases h

theorem Holds.new (h : P none fun _ s => (some ⟨404, .empty⟩, s)) : Holds P Router.new := by
  refine ⟨?_, h⟩
  intro route hroute
  cases hroute

/-- A layer makes of every handler one that `Q` holds of. -/
theorem Holds.layer {Q : Option Template → Handler ε σ → Prop} {f : Layer ε σ} (h : Holds P r)
    (hf : ∀ template? handler, P template? handler → Q template? (f handler)) :
    Holds Q (r.layer f) := by
  constructor
  · intro route hroute
    obtain ⟨bare, hbare, rfl⟩ := List.mem_map.mp hroute
    exact hf _ _ (h.routes bare hbare)
  · exact hf _ _ h.fallback

theorem Holds.route {template : Template} {endpoint : Handler ε σ} (h : Holds P r)
    (hendpoint : P (some template) endpoint) : Holds P (r.route template endpoint) := by
  refine ⟨?_, h.fallback⟩
  intro route hroute
  rcases List.mem_append.mp hroute with hold | hnew
  · exact h.routes route hold
  · obtain rfl := List.mem_singleton.mp hnew
    exact hendpoint

theorem Holds.nest {front : Template} (h : Holds P r)
    (hinner : Holds (fun template? => P (template?.map (nested front))) inner) :
    Holds P (r.nest front inner) := by
  refine ⟨?_, h.fallback⟩
  intro route hroute
  rcases List.mem_append.mp hroute with hold | hnew
  · exact h.routes route hold
  · obtain ⟨bare, hbare, rfl⟩ := List.mem_map.mp hnew
    exact hinner.routes bare hbare

theorem Holds.withFallback {handler : Handler ε σ} (h : Holds P r) (hhandler : P none handler) :
    Holds P (r.withFallback handler) :=
  ⟨h.routes, hhandler⟩

/-- The request a handler of the router answers, with the template it is under. -/
structure Answers (r : Router ε σ) (req : Request ε) (template? : Option Template)
    (handler : Handler ε σ) (req' : Request ε) : Prop where
  dispatch : ∀ s, r.dispatch req s = handler req' s
  method : req'.method = req.method
  path : req'.path = req.path
  ext : req'.ext = req.ext
  matchedPath : req'.matchedPath = template?
  params : ∀ template ∈ template?, capture template req.path = some req'.params
  matching : ∀ template ∈ template?, template ∈ r.templates ∧ (capture template req.path).isSome
  best : ∀ template' ∈ r.templates, (capture template' req.path).isSome →
    ∃ template ∈ template?, shape template ≤ shape template'

/-- **What a router answers is what one of its handlers answers**: that of the best template that
matches the path, or else the fallback. -/
theorem Holds.dispatch (h : Holds P r) (req : Request ε) :
    ∃ template? handler req', P template? handler ∧ Answers r req template? handler req' := by
  have hmatching : ∀ template ∈ r.templates, (capture template req.path).isSome →
      ∃ route ∈ r.routes.filter fun route => (capture route.template req.path).isSome,
        route.template = template := by
    intro template htemplate hcapture
    obtain ⟨route, hroute, rfl⟩ := List.mem_map.mp htemplate
    exact ⟨route, List.mem_filter.mpr ⟨hroute, hcapture⟩, rfl⟩
  cases hfind : r.find req.path with
  | none =>
      refine ⟨none, r.fallback, { req with matchedPath := none, params := [] }, h.fallback, ?_, rfl,
        rfl, rfl, rfl, ?_, ?_, ?_⟩
      · intro s
        rw [Router.dispatch, hfind]
      · intro template htemplate
        cases htemplate
      · intro template htemplate
        cases htemplate
      · intro template htemplate hcapture
        obtain ⟨route, hroute, -⟩ := hmatching template htemplate hcapture
        rw [List.argmin_eq_none.mp hfind] at hroute
        cases hroute
  | some route =>
      have hmem := List.mem_filter.mp (List.argmin_mem hfind)
      refine ⟨some route.template, route.endpoint, { req with
        matchedPath := some route.template
        params := (capture route.template req.path).getD [] }, h.routes route hmem.1, ?_, rfl, rfl,
        rfl, rfl, ?_, ?_, ?_⟩
      · intro s
        rw [Router.dispatch, hfind]
      · intro template htemplate
        obtain rfl := Option.some.inj htemplate
        obtain ⟨params, hparams⟩ := Option.isSome_iff_exists.mp hmem.2
        rw [hparams]
        rfl
      · intro template htemplate
        obtain rfl := Option.some.inj htemplate
        exact ⟨List.mem_map_of_mem hmem.1, hmem.2⟩
      · intro template htemplate hcapture
        obtain ⟨other, hother, rfl⟩ := hmatching template htemplate hcapture
        have hbest : shape route.template ≤ shape other.template :=
          List.le_of_mem_argmin (f := fun route : Route ε σ => shape route.template) hother hfind
        exact ⟨route.template, rfl, hbest⟩

end Router

end Axes.Lib.Web
