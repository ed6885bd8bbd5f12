import RustMcpCore.Library.Text

/-! # What the server uses of axum

A router has services at paths, and a layer goes around every service the router has
so far. Putting routers together may panic. The library is a parameter; what it
documents is stated once, in `Axum.Nesting` and `Axum.Documented`.
-/
namespace RustMcpCore
open Library

/-! ## Places -/

/-- What a method router has services for: some methods, and with a fallback of its own
the others. -/
structure Methods where
  names : List String
  fallback : Bool

def Methods.disjoint (methods other : Methods) : Bool :=
  methods.names.all (!other.names.contains ·) && !(methods.fallback && other.fallback)

/-- A path with the methods that are served there. A nested service takes them all. -/
structure Place where
  path : String
  methods : Option Methods

namespace Place

/-- Method routers at one path become one, unless a method would have two services. -/
def joins (place other : Place) : Bool :=
  place.path = other.path &&
    match place.methods, other.methods with
    | some methods, some others => methods.disjoint others
    | _, _ => false

/-- The place names the method. -/
def takes (place : Place) (method : String) : Bool :=
  place.methods.all (·.names.contains method)

end Place

/-- What a router has besides its services: the fallbacks of the routers nested in it, a
fallback of its own, and whether paths in the syntax of earlier versions are refused. -/
structure Frame where
  fallbacks : List Place
  hasFallback : Bool
  checked : Bool

namespace Frame

def merge (frame other : Frame) : Frame where
  fallbacks := frame.fallbacks ++ other.fallbacks
  hasFallback := frame.hasFallback || other.hasFallback
  checked := frame.checked || other.checked

def nest (frame : Frame) (fallbacks : List Place) : Frame :=
  { frame with fallbacks := frame.fallbacks ++ fallbacks }

end Frame

/-- A call that panics has no result. -/
structure Axum (Router Service : Type) where
  new : Router
  /-- `Router::route` with a handler for `GET`. -/
  route : Router → String → Service → Option Router
  nestService : Router → String → Service → Option Router
  nest : Router → String → Router → Option Router
  merge : Router → Router → Option Router
  layer : Router → (Service → Service) → Router
  /-- The places of a router and the services at them. -/
  entries : Router → List (Place × Service)
  frame : Router → Frame
  /-- Where the fallbacks of a router stand once it is nested. -/
  fallbacksAt : String → Router → List Place
  /-- The syntax of paths does not allow the path. -/
  malformed : String → Bool
  /-- No router has both paths. -/
  overlaps : String → String → Bool

namespace Axum
variable {Router Service : Type} (ax : Axum Router Service)

def places (router : Router) : List Place := (ax.entries router).map Prod.fst

def routes (router : Router) : List (String × Service) :=
  (ax.entries router).map fun entry => (entry.1.path, entry.2)

/-! ## What can be put together -/

/-- `validate_v07_paths`: a segment begins like a parameter of earlier versions. -/
def oldSyntax (path : String) : Bool :=
  (Text.split path '/').any fun segment => segment.toList.head? ∈ [some ':', some '*']

/-- A segment stands for all the rest of a path. -/
def wildcard (path : String) : Bool :=
  (Text.split path '/').any fun segment =>
    "\x7b*".toList.isPrefixOf segment.toList && "\x7d".toList.isSuffixOf segment.toList &&
      !"\x7d\x7d".toList.isSuffixOf segment.toList

def conflicts (place other : Place) : Bool :=
  ax.overlaps place.path other.path && !place.joins other

/-- Places that can be added to the taken ones. -/
def Free (checked : Bool) (taken added : List Place) : Prop :=
  ∀ place ∈ added, (checked && oldSyntax place.path) = false ∧ ax.malformed place.path = false ∧
    ∀ other ∈ taken, ax.conflicts other place = false

/-- `validate_nest_path`: a router can be nested at the path. -/
def Leads (checked : Bool) (lead : String) : Prop :=
  lead ∉ ["", "/"] ∧ wildcard lead = false ∧ (checked && oldSyntax lead) = false

/-- Two routers can be one. The fallbacks are added to those of the router whose own
fallback is not kept. -/
def Mergeable (router other : Router) : Prop :=
  let checked := ((ax.frame router).merge (ax.frame other)).checked
  ¬ ((ax.frame router).hasFallback = true ∧ (ax.frame other).hasFallback = true) ∧
    ax.Free checked (ax.places router) (ax.places other) ∧
    if (ax.frame router).hasFallback = true
    then ax.Free checked (ax.frame other).fallbacks (ax.frame router).fallbacks
    else ax.Free checked (ax.frame router).fallbacks (ax.frame other).fallbacks

instance (checked : Bool) (taken added : List Place) : Decidable (ax.Free checked taken added) :=
  inferInstanceAs (Decidable (∀ place ∈ added, (checked && oldSyntax place.path) = false ∧
    ax.malformed place.path = false ∧ ∀ other ∈ taken, ax.conflicts other place = false))

instance (checked : Bool) (lead : String) : Decidable (Leads checked lead) :=
  inferInstanceAs (Decidable (_ ∧ _ ∧ _))

instance (router other : Router) : Decidable (ax.Mergeable router other) :=
  inferInstanceAs (Decidable (_ ∧ _ ∧ _))

/-! ## Where things end up -/

def getPlace (path : String) : Place := ⟨path, some ⟨["GET"], false⟩⟩

/-- Where a path of a nested router ends up. -/
def nestedPath (lead path : String) : String := if path = "/" then lead else lead ++ path

def nestedPlace (lead : String) (place : Place) : Place :=
  { place with path := nestedPath lead place.path }

/-- The paths of a nested service: its own one, with and without a slash, and all below. -/
def servicePaths (lead : String) : List String :=
  [lead ++ "/\x7b*__private__axum_nest_tail_param\x7d", lead, lead ++ "/"]

def servicePlaces (lead : String) : List Place := (servicePaths lead).map (⟨·, none⟩)

/-- Where a nested router's services end up. -/
def nestedPlaces (mount : String × Router) : List Place :=
  (ax.places mount.2).map (nestedPlace mount.1)

/-! ## What axum documents -/

/-- Services that are nested in an empty router, and layers around them. -/
structure Nesting : Prop where
  entries_new : ax.entries ax.new = []
  entries_nestService : ∀ router lead service added,
    ax.nestService router lead service = some added →
      ax.entries added = ax.entries router ++ (servicePlaces lead).map (·, service)
  entries_layer : ∀ router wrap, ax.entries (ax.layer router wrap) =
    (ax.entries router).map fun entry => (entry.1, wrap entry.2)

/-- What axum documents. A leading path ends with a slash only at the root. -/
structure Documented : Prop extends ax.Nesting where
  overlaps_self : ∀ path, ax.overlaps path path = true
  frame_new : ax.frame ax.new = ⟨[], false, true⟩
  frame_layer : ∀ router wrap, ax.frame (ax.layer router wrap) = ax.frame router
  route_eq : ∀ router path service,
    (ax.route router path service = none ↔ ¬ (path.toList.head? = some '/' ∧
      ax.Free (ax.frame router).checked (ax.places router) [getPlace path])) ∧
    ∀ added, ax.route router path service = some added →
      ax.entries added = ax.entries router ++ [(getPlace path, service)] ∧
      ax.frame added = ax.frame router
  nestService_eq : ∀ router lead service,
    (ax.nestService router lead service = none ↔ ¬ (lead.toList.head? = some '/' ∧
      Leads (ax.frame router).checked lead ∧
      ax.Free (ax.frame router).checked (ax.places router) (servicePlaces lead))) ∧
    ∀ added, ax.nestService router lead service = some added → ax.frame added = ax.frame router
  nest_eq : ∀ router lead inner,
    (ax.nest router lead inner = none ↔ ¬ (lead.toList.head? = some '/' ∧
      Leads (ax.frame router).checked lead ∧
      ax.Free (ax.frame router).checked (ax.places router) (ax.nestedPlaces (lead, inner)) ∧
      ax.Free (ax.frame router).checked (ax.frame router).fallbacks
        (ax.fallbacksAt lead inner))) ∧
    ∀ added, ax.nest router lead inner = some added →
      ax.entries added = ax.entries router ++
        (ax.entries inner).map (fun entry => (nestedPlace lead entry.1, entry.2)) ∧
      ax.frame added = (ax.frame router).nest (ax.fallbacksAt lead inner)
  merge_eq : ∀ router other,
    (ax.merge router other = none ↔ ¬ ax.Mergeable router other) ∧
    ∀ added, ax.merge router other = some added →
      ax.entries added = ax.entries router ++ ax.entries other ∧
      ax.frame added = (ax.frame router).merge (ax.frame other)

theorem Documented.places_new {ax : Axum Router Service} (h : ax.Documented) :
    ax.places ax.new = [] := by
  rw [places, h.entries_new]
  rfl

theorem mem_routes {router : Router} {path : String} {service : Service} :
    (path, service) ∈ ax.routes router ↔
      ∃ place, (place, service) ∈ ax.entries router ∧ place.path = path := by
  simp [routes]

/-- At one path there are only method routers that can be joined. -/
theorem Documented.joins_of_free {ax : Axum Router Service} (h : ax.Documented)
    {place other : Place} (hfree : ax.conflicts place other = false)
    (hpath : place.path = other.path) : place.joins other = true := by
  rw [conflicts, hpath, h.overlaps_self, Bool.true_and, Bool.not_eq_false'] at hfree
  exact hfree

/-! ## A table of routes -/

/-- The least that can be called a router: the table itself. -/
structure Table (Service : Type) where
  entries : List (Place × Service)
  frame : Frame

namespace Table

def empty (Service : Type) : Table Service := ⟨[], ⟨[], false, true⟩⟩

/-- Only equal paths overlap. -/
def shape (Service : Type) : Axum (Table Service) Service where
  new := empty Service
  route _ _ _ := none
  nestService _ _ _ := none
  nest _ _ _ := none
  merge _ _ := none
  layer router wrap :=
    { router with entries := router.entries.map fun entry => (entry.1, wrap entry.2) }
  entries router := router.entries
  frame router := router.frame
  fallbacksAt lead router :=
    (if router.frame.hasFallback
      then [⟨lead, none⟩, ⟨lead ++ "/\x7b*__private__axum_fallback\x7d", none⟩] else []) ++
      router.frame.fallbacks.map (nestedPlace lead)
  malformed _ := false
  overlaps path other := path = other

/-- The router with more entries, where nothing stands in the way. -/
def extend (router : Table Service) (free : Prop) [Decidable free]
    (added : List (Place × Service)) (frame : Frame) : Option (Table Service) :=
  if free then some ⟨router.entries ++ added, frame⟩ else none

theorem extend_eq (router : Table Service) (free : Prop) [Decidable free]
    (added : List (Place × Service)) (frame : Frame) :
    (router.extend free added frame = none ↔ ¬ free) ∧
      ∀ extended, router.extend free added frame = some extended →
        extended.entries = router.entries ++ added ∧ extended.frame = frame := by
  unfold extend
  split
  · rename_i hfree
    refine ⟨iff_of_false nofun (not_not_intro hfree), ?_⟩
    rintro _ ⟨⟩
    exact ⟨rfl, rfl⟩
  · rename_i hfree
    exact ⟨iff_of_true rfl hfree, nofun⟩

end Table

open Table in
def table (Service : Type) : Axum (Table Service) Service :=
  { shape Service with
    route := fun router path service =>
      router.extend (path.toList.head? = some '/' ∧ (shape Service).Free router.frame.checked
        ((shape Service).places router) [getPlace path]) [(getPlace path, service)] router.frame
    nestService := fun router lead service =>
      router.extend (lead.toList.head? = some '/' ∧ Leads router.frame.checked lead ∧
        (shape Service).Free router.frame.checked ((shape Service).places router)
          (servicePlaces lead)) ((servicePlaces lead).map (·, service)) router.frame
    nest := fun router lead inner =>
      router.extend (lead.toList.head? = some '/' ∧ Leads router.frame.checked lead ∧
        (shape Service).Free router.frame.checked ((shape Service).places router)
          ((shape Service).nestedPlaces (lead, inner)) ∧
        (shape Service).Free router.frame.checked router.frame.fallbacks
          ((shape Service).fallbacksAt lead inner))
        (inner.entries.map fun entry => (nestedPlace lead entry.1, entry.2))
        (router.frame.nest ((shape Service).fallbacksAt lead inner))
    merge := fun router other =>
      router.extend ((shape Service).Mergeable router other) other.entries
        (router.frame.merge other.frame) }

theorem table_documented : (table Service).Documented where
  entries_new := rfl
  entries_nestService router _ _ added h := ((router.extend_eq _ _ _).2 added h).1
  entries_layer _ _ := rfl
  overlaps_self path := decide_eq_true (rfl : path = path)
  frame_new := rfl
  frame_layer _ _ := rfl
  route_eq router _ _ := router.extend_eq _ _ _
  nestService_eq router _ _ :=
    ⟨(router.extend_eq _ _ _).1, fun added h => ((router.extend_eq _ _ _).2 added h).2⟩
  nest_eq router _ _ := router.extend_eq _ _ _
  merge_eq router _ := router.extend_eq _ _ _

end Axum
end RustMcpCore
