import DawnPatrol.Goji.Trie
import Mathlib.Data.List.Induction

/-!
# The two routers of goji

The plain router tries its routes one after the other. The router that is built
by default keeps a trie for each method that a pattern names, and one for all
other methods, and tries only the routes whose prefix the path of a request has.

A pattern may say which prefix and which methods its requests have, and must
keep its word (`Pattern.Lawful`). Then the two routers send every request to the
same handler (`route_eq_simple`).
-/

set_option autoImplicit false

namespace DawnPatrol.Goji

/-- A pattern, with what it says of the requests that it matches. It says nothing of
them when it does not have the method of the interface, or has no set of
methods. -/
structure Pattern (Request : Type) where
  matchRequest : Request → Option Request
  pathPrefix : Option (List Char) := none
  httpMethods : Option (List String) := none

/-- A pattern with its handler. -/
structure Route (Request Handler : Type) where
  pattern : Pattern Request
  handler : Handler

variable {Request Handler : Type}

/-- The handler of a request that the pattern matches. -/
def Route.tryRequest (route : Route Request Handler) (r : Request) :
    Option (Request × Handler) :=
  (route.pattern.matchRequest r).map fun r2 => (r2, route.handler)

/-! ## The plain router -/

/-- `route` of the plain router: the first route whose pattern matches. -/
def simpleRoute (routes : List (Route Request Handler)) (r : Request) :
    Option (Request × Handler) :=
  routes.findSome? fun route => route.tryRequest r

/-! ## The router with tries -/

/-- The router: its routes, a trie for each method that was named, and one for all
other methods. -/
structure Router (Request Handler : Type) where
  routes : List (Route Request Handler) := []
  methods : String → Option TrieNode := fun _ => none
  wildcard : TrieNode := .empty

namespace Router

/-- The trie for a method. -/
def trieFor (rt : Router Request Handler) (method : String) : TrieNode :=
  (rt.methods method).getD rt.wildcard

/-- `add`: a route that names no methods is added to all tries. One that names some
is added to theirs, which start as copies of the trie for all other methods. -/
def add (rt : Router Request Handler) (route : Route Request Handler) :
    Router Request Handler :=
  let i := rt.routes.length
  let start := route.pattern.pathPrefix.getD []
  match route.pattern.httpMethods with
  | none => {
      routes := rt.routes ++ [route]
      wildcard := rt.wildcard.add start i
      methods := fun method => (rt.methods method).map fun sub => sub.add start i }
  | some methods => {
      routes := rt.routes ++ [route]
      wildcard := rt.wildcard
      methods := fun method =>
        if method ∈ methods then some ((rt.trieFor method).add start i)
        else rt.methods method }

/-- The router of some routes, in the order in which they are added. -/
def ofRoutes (routes : List (Route Request Handler)) : Router Request Handler :=
  routes.foldl add {}

/-- `route`: the first of the routes at the end of the walk whose pattern matches. -/
def route (method : Request → String) (path : Request → List Char)
    (rt : Router Request Handler) (r : Request) : Option (Request × Handler) :=
  ((rt.trieFor (method r)).find (path r)).findSome? fun i =>
    rt.routes[i]?.bind fun route => route.tryRequest r

end Router

/-! ## The places of routes -/

/-- A pattern may match requests with a method and a path. -/
def Pattern.admits (pattern : Pattern Request) (method : String) (path : List Char) : Bool :=
  decide (pattern.pathPrefix.getD [] <+: path) &&
    pattern.httpMethods.all fun methods => decide (method ∈ methods)

/-- The places of the routes that are selected. -/
def places (select : Route Request Handler → Bool) (routes : List (Route Request Handler)) :
    List ℕ :=
  (List.range routes.length).filter fun i => routes[i]?.any select

section Places

variable {select : Route Request Handler → Bool} {routes : List (Route Request Handler)}
  {route : Route Request Handler}

/-- One more route has the next place. -/
theorem places_append : places select (routes ++ [route]) =
    if select route = true then places select routes ++ [routes.length]
    else places select routes := by
  have before : (List.range routes.length).filter
      (fun i => (routes ++ [route])[i]?.any select) = places select routes := by
    refine List.filter_congr fun i inside => ?_
    rw [List.getElem?_append_left (List.mem_range.mp inside)]
  have last : (routes ++ [route])[routes.length]?.any select = select route := by simp
  rw [places, List.length_append, List.length_singleton, List.range_succ, List.filter_append,
    before, List.filter_singleton, last]
  cases select route <;> simp

/-- The selected places are those of the selected routes. -/
theorem filterMap_places (select : Route Request Handler → Bool)
    (routes : List (Route Request Handler)) :
    (places select routes).filterMap (fun i => routes[i]?) = routes.filter select := by
  induction routes using List.reverseRecOn with
  | nil => rfl
  | append_singleton routes route ih =>
      have earlier : (places select routes).filterMap (fun i => (routes ++ [route])[i]?) =
          routes.filter select := by
        rw [← ih]
        refine List.filterMap_congr fun i member => ?_
        have inside := List.mem_range.mp (List.mem_filter.mp member).1
        exact List.getElem?_append_left inside
      rw [places_append, List.filter_append, ← earlier]
      cases selected : select route <;> simp [selected]

/-- Trying the selected places is trying all routes, when those that are not
selected fail. -/
theorem findSome?_places {β : Type} {attempt : Route Request Handler → Option β}
    (complete : ∀ route ∈ routes, select route = false → attempt route = none) :
    ((places select routes).findSome? fun i => routes[i]?.bind attempt) =
      routes.findSome? attempt := by
  have passed : (routes.filter select).filterMap attempt = routes.filterMap attempt := by
    rw [List.filterMap_filter]
    refine List.filterMap_congr fun route member => ?_
    split
    · rfl
    · rename_i skipped
      exact (complete route member (Bool.not_eq_true _ ▸ skipped)).symm
  rw [← List.head?_filterMap, ← List.filterMap_filterMap, filterMap_places, passed,
    List.head?_filterMap]

end Places

/-! ## What the tries hold -/

namespace Router

/-- A trie holds the places of the routes that are selected for a path. -/
structure Holds (rt : Router Request Handler) (tn : TrieNode)
    (select : List Char → Route Request Handler → Bool) : Prop where
  ordered : tn.Ordered
  find : ∀ path, tn.find path = places (select path) rt.routes

/-- The routes that a path selects when no pattern has named the method. -/
def unnamedAdmits (path : List Char) (route : Route Request Handler) : Bool :=
  route.pattern.httpMethods.isNone && decide (route.pattern.pathPrefix.getD [] <+: path)

/-- The trie for a method that was named holds the routes that admit it, and that for
all others holds those that name none. -/
structure Indexed (rt : Router Request Handler) : Prop where
  wildcard : rt.Holds rt.wildcard unnamedAdmits
  named : ∀ method tn, rt.methods method = some tn →
    rt.Holds tn fun path route => route.pattern.admits method path
  unnamed : ∀ method, rt.methods method = none → ∀ route ∈ rt.routes,
    ∀ methods, route.pattern.httpMethods = some methods → method ∉ methods

section Indexed

variable {rt : Router Request Handler} {route : Route Request Handler} {tn : TrieNode}
  {select : List Char → Route Request Handler → Bool}

theorem add_routes (rt : Router Request Handler) (route : Route Request Handler) :
    (rt.add route).routes = rt.routes ++ [route] := by
  rw [Router.add]
  split <;> rfl

/-- **The trie for a method** holds the routes that admit it. -/
theorem Indexed.trieFor (indexed : rt.Indexed) (method : String) :
    rt.Holds (rt.trieFor method) fun path route => route.pattern.admits method path := by
  cases known : rt.methods method with
  | some tn =>
      rw [Router.trieFor, known]
      exact indexed.named method tn known
  | none =>
      rw [Router.trieFor, known]
      refine ⟨indexed.wildcard.ordered, fun path => (indexed.wildcard.find path).trans ?_⟩
      refine List.filter_congr fun i inside => ?_
      have within := List.mem_range.mp inside
      rw [List.getElem?_eq_getElem within]
      -- a pattern that names methods does not name this one
      have other := indexed.unnamed method known _ (List.getElem_mem within)
      cases names : (rt.routes[i]).pattern.httpMethods with
      | none => simp [unnamedAdmits, Pattern.admits, names]
      | some methods => simp [unnamedAdmits, Pattern.admits, names, other methods names]

/-- A trie with one more route, whose prefix decides whether it is selected. -/
theorem Holds.add (holds : rt.Holds tn select)
    (decides : ∀ path, select path route = decide (route.pattern.pathPrefix.getD [] <+: path)) :
    (rt.add route).Holds (tn.add (route.pattern.pathPrefix.getD []) rt.routes.length) select := by
  refine ⟨TrieNode.ordered_add holds.ordered _ _, fun path => ?_⟩
  rw [TrieNode.find_add holds.ordered, holds.find, add_routes, places_append, decides]
  simp only [decide_eq_true_eq]

/-- A trie that is left alone, when the new route is not selected. -/
theorem Holds.skip (holds : rt.Holds tn select) (skips : ∀ path, select path route = false) :
    (rt.add route).Holds tn select := by
  refine ⟨holds.ordered, fun path => ?_⟩
  rw [holds.find, add_routes, places_append, skips, if_neg Bool.false_ne_true]

/-- The router without routes. -/
theorem indexed_empty : ({} : Router Request Handler).Indexed where
  wildcard := ⟨TrieNode.ordered_empty, fun path => TrieNode.find_of_none (by simp [TrieNode.empty,
    TrieNode.children])⟩
  named _ _ impossible := by cases impossible
  unnamed _ _ _ impossible := by cases impossible

/-- **Adding a route** keeps the tries. -/
theorem Indexed.add (indexed : rt.Indexed) (route : Route Request Handler) :
    (rt.add route).Indexed := by
  cases names : route.pattern.httpMethods with
  | none =>
      have isAdd : rt.add route = {
          routes := rt.routes ++ [route]
          wildcard := rt.wildcard.add (route.pattern.pathPrefix.getD []) rt.routes.length
          methods := fun method => (rt.methods method).map fun sub =>
            sub.add (route.pattern.pathPrefix.getD []) rt.routes.length } := by
        rw [Router.add, names]
      constructor
      · have grown := @Holds.add _ _ rt route _ _ indexed.wildcard
          (fun path => by simp [unnamedAdmits, names])
        rwa [isAdd] at grown ⊢
      · intro method tn known
        rw [isAdd] at known
        obtain ⟨sub, old, rfl⟩ := Option.map_eq_some_iff.mp known
        exact Holds.add (indexed.named method sub old)
          (fun path => by simp [Pattern.admits, names])
      · intro method known other member methods named
        rw [isAdd] at known
        rw [add_routes, List.mem_append, List.mem_singleton] at member
        rcases member with old | rfl
        · exact indexed.unnamed method (Option.map_eq_none_iff.mp known) other old methods named
        · rw [names] at named
          cases named
  | some methods =>
      have isAdd : rt.add route = {
          routes := rt.routes ++ [route]
          wildcard := rt.wildcard
          methods := fun method => if method ∈ methods then
              some ((rt.trieFor method).add (route.pattern.pathPrefix.getD []) rt.routes.length)
            else rt.methods method } := by
        rw [Router.add, names]
      constructor
      · have kept := @Holds.skip _ _ rt route _ _ indexed.wildcard
          (fun path => by simp [unnamedAdmits, names])
        rwa [isAdd] at kept ⊢
      · intro method tn known
        rw [isAdd] at known
        by_cases named : method ∈ methods
        · obtain rfl := Option.some.inj ((if_pos named).symm.trans known)
          exact Holds.add (indexed.trieFor method)
            (fun path => by simp [Pattern.admits, names, named])
        · exact Holds.skip (indexed.named method tn ((if_neg named).symm.trans known))
            (fun path => by simp [Pattern.admits, names, named])
      · intro method known other member otherMethods named
        rw [isAdd] at known
        by_cases isNamed : method ∈ methods
        · exact absurd ((if_pos isNamed).symm.trans known) (Option.some_ne_none _)
        · rw [add_routes, List.mem_append, List.mem_singleton] at member
          rcases member with old | rfl
          · exact indexed.unnamed method ((if_neg isNamed).symm.trans known) other old _ named
          · rw [names] at named
            exact Option.some.inj named ▸ isNamed

/-- The router of some routes has them, and its tries hold them. -/
theorem indexed_ofRoutes (routes : List (Route Request Handler)) :
    (ofRoutes routes).Indexed ∧ (ofRoutes routes).routes = routes := by
  suffices grown : ∀ rt : Router Request Handler, rt.Indexed →
      (routes.foldl Router.add rt).Indexed ∧
        (routes.foldl Router.add rt).routes = rt.routes ++ routes from
    grown {} indexed_empty
  induction routes with
  | nil => exact fun rt indexed => ⟨indexed, (List.append_nil _).symm⟩
  | cons route routes ih =>
      intro rt indexed
      obtain ⟨still, all⟩ := ih (rt.add route) (indexed.add route)
      refine ⟨still, all.trans ?_⟩
      rw [add_routes, List.append_assoc, List.singleton_append]

end Indexed

end Router

/-! ## The two routers agree -/

/-- A pattern keeps its word: the requests that it matches have its prefix and one of
its methods. -/
structure Pattern.Lawful (method : Request → String) (path : Request → List Char)
    (pattern : Pattern Request) : Prop where
  admitted : ∀ r r2, pattern.matchRequest r = some r2 → pattern.admits (method r) (path r) = true

theorem Router.Indexed.route_eq {rt : Router Request Handler} (indexed : rt.Indexed)
    {method : Request → String} {path : Request → List Char}
    (lawful : ∀ route ∈ rt.routes, route.pattern.Lawful method path) (r : Request) :
    rt.route method path r = simpleRoute rt.routes r := by
  rw [Router.route, (indexed.trieFor (method r)).find, simpleRoute]
  refine findSome?_places fun route member skipped => ?_
  -- a route that is not in the trie does not match
  cases matched : route.pattern.matchRequest r with
  | none => simp [Route.tryRequest, matched]
  | some r2 =>
      have admitted := (lawful route member).admitted r r2 matched
      rw [skipped] at admitted
      cases admitted

/-- **The router with tries is the plain router**, when the patterns keep their
word. -/
theorem route_eq_simple (method : Request → String) (path : Request → List Char)
    {routes : List (Route Request Handler)}
    (lawful : ∀ route ∈ routes, route.pattern.Lawful method path) (r : Request) :
    (Router.ofRoutes routes).route method path r = simpleRoute routes r := by
  obtain ⟨indexed, isRoutes⟩ := Router.indexed_ofRoutes routes
  rw [indexed.route_eq (isRoutes.symm ▸ lawful), isRoutes]

end DawnPatrol.Goji
