import DawnPatrol.Goji.Pat
import DawnPatrol.Http.Handlers

/-!
# The multiplexer

The program hands its routes to goji, each with a pattern for its path and its
methods, and goji answers with the handler of the first that matches, or with
`http.NotFound`.

The router looks for it in its tries. What it comes to is a table with five lines
(`serveHTTP_eq`), in which a path has to be spelled exactly as that of its
route.
-/

set_option autoImplicit false

namespace DawnPatrol.Http

open Foundation Go Api Execution Goji

/-- A request, with its method and the escaped path of its URL. -/
structure Incoming extends Request where
  method : String
  path : List Char

/-! ## The router of the program -/

/-- The pattern of a route. -/
def Route.pat (route : Route) : Pat.Pattern :=
  if route.method = "GET" then Pat.get route.path else Pat.post route.path

/-- `Handle`: a route of goji. -/
def Route.handle (route : Route) : Goji.Route Incoming Handler where
  pattern := route.pat.toPattern Incoming.method Incoming.path fun r _ => r
  handler := route.handler

/-- The router of the multiplexer. -/
def router (cfg : MuxConfig) : Goji.Router Incoming Handler :=
  .ofRoutes ((newMux cfg).map Route.handle)

/-- `http.NotFound`. -/
def notFound : Handler := fun _ => do
  perform (.setHeader "Content-Type" "text/plain; charset=utf-8")
  perform (.setHeader "X-Content-Type-Options" "nosniff")
  perform (.writeHeader 404)
  perform (.write "404 page not found\n")

/-- `ServeHTTP` of the multiplexer. -/
def Mux.serveHTTP (cfg : MuxConfig) (r : Incoming) : GoM Unit :=
  match (router cfg).route Incoming.method Incoming.path r with
  | some (r2, handler) => handler r2.toRequest
  | none => notFound r.toRequest

/-! ## The table of routes -/

/-- Where a request goes. -/
inductive Destination where
  | index
  | panic
  | copy
  | status
  | nowhere
  deriving DecidableEq

/-- The methods of a route that is read. -/
def isGet (method : String) : Bool := method = "GET" || method = "HEAD"

/-- The destination of a request. -/
def destination (r : Incoming) : Destination :=
  if isGet r.method && r.path = "/index.json".toList then .index
  else if isGet r.method && r.path = "/panic".toList then .panic
  else if r.method = "POST" && r.path = "/rails/copy".toList then .copy
  else if isGet r.method && r.path = "/status".toList then .status
  else .nowhere

/-- The handler at a destination, before it is instrumented. -/
def Destination.handler (cfg : MuxConfig) : Destination → Handler
  | index => (newRoot cfg.associationService cfg.eventService).serveHTTP
  | panic => TestPanic.serveHTTP
  | copy => (Copy.mk cfg.racingAssociationService).serveHTTP
  | status => Status.serveHTTP
  | nowhere => notFound

section Table

variable {cfg : MuxConfig} {r : Incoming}

/-- A route that is read is found by its path. -/
theorem tryRequest_get {path : String} (plain : ':' ∉ path.toList)
    (whole : "/*".toList.isSuffixOf path.toList = false) (handler : Handler) :
    (Route.mk "GET" path handler).handle.tryRequest r =
      if isGet r.method && r.path = path.toList then some (r, handler) else none := by
  simp only [Route.handle, Goji.Route.tryRequest, Pat.Pattern.toPattern, Route.pat, if_true,
    Pat.get, Pat.matchWith_literal plain whole, List.mem_cons, List.not_mem_nil, or_false, isGet]
  by_cases found : (r.method = "GET" ∨ r.method = "HEAD") ∧ r.path = path.toList
  · simp [found]
  · simp [found]

/-- And so is one that is posted to. -/
theorem tryRequest_post {path : String} (plain : ':' ∉ path.toList)
    (whole : "/*".toList.isSuffixOf path.toList = false) (handler : Handler) :
    (Route.mk "POST" path handler).handle.tryRequest r =
      if r.method = "POST" && r.path = path.toList then some (r, handler) else none := by
  have notGet : ¬ "POST" = "GET" := by decide
  simp only [Route.handle, Goji.Route.tryRequest, Pat.Pattern.toPattern, Route.pat,
    if_neg notGet, Pat.post, Pat.matchWith_literal plain whole, List.mem_singleton]
  by_cases found : r.method = "POST" ∧ r.path = path.toList
  · simp [found]
  · simp [found]

/-- **The multiplexer** serves each request by the handler at its destination, and
instruments all of them but the answer to requests that lead nowhere. -/
theorem serveHTTP_eq (cfg : MuxConfig) (r : Incoming) :
    Mux.serveHTTP cfg r =
      if destination r = .nowhere then notFound r.toRequest
      else newInstrumentedHandler cfg.newRelicApp ((destination r).handler cfg) r.toRequest := by
  obtain ⟨indexed, isRoutes⟩ := Router.indexed_ofRoutes ((newMux cfg).map Route.handle)
  have lawful : ∀ route ∈ (router cfg).routes,
      route.pattern.Lawful Incoming.method Incoming.path := by
    intro route member
    rw [router, isRoutes] at member
    obtain ⟨own, -, rfl⟩ := List.mem_map.mp member
    exact Pat.lawful_toPattern _ _ _ _
  rw [Mux.serveHTTP, router, Router.Indexed.route_eq indexed lawful, isRoutes]
  simp only [simpleRoute, newMux, routes, List.map_cons, List.map_nil, List.findSome?_cons,
    List.findSome?_nil]
  rw [tryRequest_get (by decide) (by decide), tryRequest_get (by decide) (by decide),
    tryRequest_post (by decide) (by decide), tryRequest_get (by decide) (by decide), destination]
  by_cases index : isGet r.method && r.path = "/index.json".toList
  · simp only [if_pos index]
    rfl
  simp only [if_neg index]
  by_cases panic : isGet r.method && r.path = "/panic".toList
  · simp only [if_pos panic]
    rfl
  simp only [if_neg panic]
  by_cases copy : r.method = "POST" && r.path = "/rails/copy".toList
  · simp only [if_pos copy]
    rfl
  simp only [if_neg copy]
  by_cases status : isGet r.method && r.path = "/status".toList
  · simp only [if_pos status]
    rfl
  · simp only [if_neg status]
    rfl

end Table

end DawnPatrol.Http
