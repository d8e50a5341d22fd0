import RenditionPipeline.Library.Path

/-!
# Routes

An application is made of routers that are included one after another, each with its routes:
a method, a path of pieces that are either fixed or stand for a parameter, and an endpoint. How
the endpoint of a request is found is not said here. What is assumed of the dispatcher
(`RenditionPipeline.Routes.Dispatches`) leaves open which of two routes takes a path that
matches both; but where no two routes clash – a test of the patterns, piece by piece – the
order of the routers is of no consequence (`RenditionPipeline.Routes.Dispatches.eq_of_fill`).
Capturing the parameters of a path undoes filling them into the pattern
(`RenditionPipeline.Routes.capture_eq_some_iff`).
-/

namespace RenditionPipeline

namespace Routes

/-! ### Patterns -/

/-- A piece of a pattern. -/
inductive Piece where
  | literal (text : String)
  | param
deriving DecidableEq

/-- Whether a piece is a name in braces. -/
def isParameter (text : String) : Bool :=
  match text.toList with
  | '\x7b' :: c :: cs => (c.isAlpha || c = '_') && cs.getLast? = some '\x7d' &&
    cs.dropLast.all fun c => c.isAlphanum || c = '_'
  | _ => false

/-- The pattern that a text stands for: a name in braces is a parameter. -/
def compilePath (path : String) : List Piece :=
  (Text.split path '/').map fun text => if isParameter text then .param else .literal text

/-- The parameters of a path, if it is of the form of a pattern. -/
def capture : List Piece → List String → Option (List String)
  | [], [] => some []
  | .literal text :: ps, s :: path => if s = text then capture ps path else none
  | .param :: ps, s :: path => if s = "" then none else (capture ps path).map (s :: ·)
  | _, _ => none

/-- A pattern with its parameters filled in. -/
def fill : List Piece → List String → Option (List String)
  | [], [] => some []
  | .literal text :: ps, args => (fill ps args).map (text :: ·)
  | .param :: ps, arg :: args => if arg = "" then none else (fill ps args).map (arg :: ·)
  | _, _ => none

/-- **What is captured is what has been filled in.** -/
theorem capture_eq_some_iff {ps : List Piece} {path args : List String} :
    capture ps path = some args ↔ fill ps args = some path := by
  induction ps generalizing path args with
  | nil => cases path <;> cases args <;> simp [capture, fill]
  | cons p ps ih =>
    cases p with
    | literal text =>
      cases path with
      | nil => simp [capture, fill]
      | cons s path =>
        rw [capture, fill, Option.map_eq_some_iff]
        by_cases hs : s = text
        · rw [if_pos hs, ih, hs]
          simp
        · rw [if_neg hs]
          simp [Ne.symm hs]
    | param =>
      cases path with
      | nil => cases args <;> simp [capture, fill]
      | cons s path =>
        rw [capture]
        cases args with
        | nil => by_cases hs : s = "" <;> simp [fill, hs]
        | cons arg args =>
          rw [fill]
          by_cases hs : s = ""
          · rw [if_pos hs]
            by_cases ha : arg = ""
            · simp [ha]
            · simp [ha, hs]
          · rw [if_neg hs, Option.map_eq_some_iff]
            by_cases ha : arg = ""
            · simp [ha, hs]
            · rw [if_neg ha, Option.map_eq_some_iff]
              constructor
              · rintro ⟨args', hc, he⟩
                obtain ⟨rfl, rfl⟩ := List.cons.inj he
                exact ⟨path, ih.mp hc, rfl⟩
              · rintro ⟨path', hf, he⟩
                obtain ⟨rfl, rfl⟩ := List.cons.inj he
                exact ⟨args, ih.mpr hf, rfl⟩

/-- Whether a path may be of the form of both patterns. -/
def clash : List Piece → List Piece → Bool
  | [], [] => true
  | .literal a :: ps, .literal b :: qs => a = b && clash ps qs
  | .literal a :: ps, .param :: qs => a ≠ "" && clash ps qs
  | .param :: ps, .literal b :: qs => b ≠ "" && clash ps qs
  | .param :: ps, .param :: qs => clash ps qs
  | _, _ => false

/-- **Patterns without a clash** have no path in common. -/
theorem clash_of_capture {ps qs : List Piece} {path args args' : List String}
    (hp : capture ps path = some args) (hq : capture qs path = some args') :
    clash ps qs = true := by
  induction path generalizing ps qs args args' with
  | nil =>
    obtain rfl : ps = [] := by cases ps with
      | nil => rfl
      | cons p ps => cases p <;> cases hp
    obtain rfl : qs = [] := by cases qs with
      | nil => rfl
      | cons q qs => cases q <;> cases hq
    rfl
  | cons s path ih =>
    obtain ⟨p, ps, rfl⟩ : ∃ p ps', ps = p :: ps' := by cases ps with
      | nil => cases hp
      | cons p ps => exact ⟨p, ps, rfl⟩
    obtain ⟨q, qs, rfl⟩ : ∃ q qs', qs = q :: qs' := by cases qs with
      | nil => cases hq
      | cons q qs => exact ⟨q, qs, rfl⟩
    cases p <;> cases q <;> simp only [capture, Option.ite_none_left_eq_some,
      Option.ite_none_right_eq_some, Option.map_eq_some_iff] at hp hq <;> grind [clash]

/-! ### Routers -/

/-- A route. -/
structure Route (M E : Type) where
  method : M
  path : String
  endpoint : E
deriving DecidableEq

/-- A router: a prefix and the routes under it. -/
structure Router (M E : Type) where
  pre : String
  routes : List (Route M E)
deriving DecidableEq

/-- The routers that an application includes, each under a prefix of its own. -/
abbrev Application (M E : Type) := List (String × Router M E)

variable {M E : Type}

/-- The pattern of the paths of a route. -/
def Route.pattern (r : Route M E) : List Piece := compilePath r.path

/-- The routes of an application, with their whole paths. -/
def Application.routes (app : Application M E) : List (Route M E) :=
  app.flatMap fun (pre, router) => router.routes.map fun r =>
    { r with path := pre ++ (router.pre ++ r.path) }

/-- A prefix, if there is one, begins with a slash and does not end with one. -/
def WellPlaced (pre : String) : Prop :=
  pre = "" ∨ pre.toList.head? = some '/' ∧ pre.toList.getLast? ≠ some '/'

instance (pre : String) : Decidable (WellPlaced pre) := by
  unfold WellPlaced
  exact inferInstance

/-- A path begins with a slash, its pieces are plain texts or parameters, and no parameter
is named twice. -/
structure PlainPath (path : String) : Prop where
  slash : path.toList.head? = some '/'
  pieces : ∀ text ∈ Text.split path '/', isParameter text ∨
    '\x7b' ∉ text.toList ∧ '\x7d' ∉ text.toList
  nodup : ((Text.split path '/').filter isParameter).Nodup

instance (path : String) : Decidable (PlainPath path) :=
  decidable_of_iff (path.toList.head? = some '/' ∧ (∀ text ∈ Text.split path '/',
      isParameter text ∨ '\x7b' ∉ text.toList ∧ '\x7d' ∉ text.toList) ∧
      ((Text.split path '/').filter isParameter).Nodup)
    ⟨fun h => ⟨h.1, h.2.1, h.2.2⟩, fun h => ⟨h.1, h.2, h.3⟩⟩

/-- An application whose prefixes and paths are as they should be. -/
structure Application.Plain (app : Application M E) : Prop where
  placed : ∀ included ∈ app, WellPlaced included.1 ∧ WellPlaced included.2.pre
  paths : ∀ r ∈ app.routes, PlainPath r.path

/-- How an application finds the endpoint of a request, and the parameters of its path. -/
abbrev Dispatcher (M E : Type) := Application M E → M → String → Option (E × List String)

/-- A path whose end no pattern overlooks: there is no line feed there. -/
def EndsVisibly (path : String) : Prop := path.toList.getLast? ≠ some '\n'

instance (path : String) : Decidable (EndsVisibly path) := by
  unfold EndsVisibly
  exact inferInstance

theorem EndsVisibly.append (path : String) {last : String} (h : EndsVisibly last)
    (hne : last.toList ≠ []) : EndsVisibly (path ++ last) := by
  rw [EndsVisibly, String.toList_append, List.getLast?_append_of_ne_nil _ hne]
  exact h

/-- **What is relied on.** An endpoint is found by way of one of its routes, with the
parameters that its pattern has in the path; and a path that matches one route of its method
alone, and is none of the dispatcher's own, is taken by this route. -/
structure Dispatches (own : String → Prop) (dispatcher : Dispatcher M E) : Prop where
  sound : ∀ {app method path e args}, app.Plain → EndsVisibly path →
    dispatcher app method path = some (e, args) → ∃ r ∈ app.routes, r.method = method ∧
      r.endpoint = e ∧ capture r.pattern (Text.split path '/') = some args
  complete : ∀ {app path r args}, app.Plain → EndsVisibly path → ¬own path → r ∈ app.routes →
    capture r.pattern (Text.split path '/') = some args →
    (∀ r' ∈ app.routes, r'.method = r.method →
      (capture r'.pattern (Text.split path '/')).isSome → r' = r) →
    dispatcher app r.method path = some (r.endpoint, args)

/-- No path may be of the form of two routes with one method. -/
def Unambiguous (routes : List (Route M E)) : Prop :=
  ∀ r ∈ routes, ∀ r' ∈ routes, r.method = r'.method → clash r.pattern r'.pattern = true → r = r'

instance [DecidableEq M] [DecidableEq E] (routes : List (Route M E)) :
    Decidable (Unambiguous routes) := by
  unfold Unambiguous
  exact inferInstance

section Dispatching

variable {own : String → Prop} {dispatcher : Dispatcher M E} {app app' : Application M E}
  {method : M} {path : String} {e : E} {args : List String}

theorem Application.routes_perm (hperm : app'.Perm app) : app'.routes.Perm app.routes :=
  hperm.flatMap_right _

theorem Application.Plain.perm (h : app.Plain) (hperm : app'.Perm app) : app'.Plain :=
  ⟨fun included hi => h.placed included (hperm.mem_iff.mp hi),
    fun r hr => h.paths r ((routes_perm hperm).mem_iff.mp hr)⟩

theorem Unambiguous.perm {routes routes' : List (Route M E)} (h : Unambiguous routes)
    (hperm : routes'.Perm routes) : Unambiguous routes' :=
  fun r hr r' hr' => h r (hperm.mem_iff.mp hr) r' (hperm.mem_iff.mp hr')

/-- The endpoint that is found has a route that the parameters fill in. -/
theorem Dispatches.exists_route (h : Dispatches own dispatcher) (hplain : app.Plain)
    (hend : EndsVisibly path) (hfound : dispatcher app method path = some (e, args)) :
    ∃ r ∈ app.routes, r.method = method ∧ r.endpoint = e ∧
      fill r.pattern args = some (Text.split path '/') := by
  obtain ⟨r, hr, hmethod, he, hc⟩ := h.sound hplain hend hfound
  exact ⟨r, hr, hmethod, he, capture_eq_some_iff.mp hc⟩

/-- **An application without clashes** finds the route that has been filled in. -/
theorem Dispatches.eq_of_fill (h : Dispatches own dispatcher) (hplain : app.Plain)
    (hroutes : Unambiguous app.routes) (hend : EndsVisibly path) (hown : ¬own path)
    {r : Route M E} (hr : r ∈ app.routes)
    (hfill : fill r.pattern args = some (Text.split path '/')) :
    dispatcher app r.method path = some (r.endpoint, args) := by
  have hc := capture_eq_some_iff.mpr hfill
  refine h.complete hplain hend hown hr hc fun r' hr' hmethod hc' => ?_
  obtain ⟨args', hc'⟩ := Option.isSome_iff_exists.mp hc'
  exact hroutes r' hr' r hr hmethod (clash_of_capture hc' hc)

end Dispatching

/-! ### A dispatcher -/

section FirstMatch

variable [DecidableEq M] {app : Application M E} {method : M} {path : String} {e : E}
  {args : List String}

/-- The endpoint of the first route that matches, with the parameters of the path. -/
def firstMatch : Dispatcher M E := fun app method path =>
  app.routes.findSome? fun r => if r.method = method then
    (capture r.pattern (Text.split path '/')).map (r.endpoint, ·) else none

theorem exists_of_firstMatch (h : firstMatch app method path = some (e, args)) :
    ∃ r ∈ app.routes, r.method = method ∧ r.endpoint = e ∧
      capture r.pattern (Text.split path '/') = some args := by
  obtain ⟨r, hr, he⟩ := List.exists_of_findSome?_eq_some h
  rw [Option.ite_none_right_eq_some, Option.map_eq_some_iff] at he
  obtain ⟨hmethod, args', hc, hpair⟩ := he
  obtain ⟨rfl, rfl⟩ := Prod.mk.inj hpair
  exact ⟨r, hr, hmethod, rfl, hc⟩

/-- **The first match** is what is relied on. -/
theorem dispatches_firstMatch (own : String → Prop) :
    Dispatches own (firstMatch : Dispatcher M E) := by
  refine ⟨fun _ _ => exists_of_firstMatch, fun {app path r args} _ _ _ hr hc hone => ?_⟩
  have hsome : (firstMatch app r.method path).isSome := by
    rw [firstMatch, List.findSome?_isSome_iff]
    exact ⟨r, hr, by rw [if_pos rfl, hc]; rfl⟩
  obtain ⟨⟨e, args'⟩, hfirst⟩ := Option.isSome_iff_exists.mp hsome
  obtain ⟨r', hr', hmethod, rfl, hc'⟩ := exists_of_firstMatch hfirst
  -- the route that has been found is the one that matches
  obtain rfl := hone r' hr' hmethod (by rw [hc']; rfl)
  rw [hfirst, ← Option.some.inj (hc'.symm.trans hc)]

end FirstMatch

end Routes

end RenditionPipeline
