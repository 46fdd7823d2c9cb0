import SkillAtlas.Graph.Basic

/-!
# Shortest routes

From a unit the graph is explored layer by layer: the units of one layer are those that the layer before
steps to and that no earlier layer holds. Each unit is reached by one route, which is a shortest one, and
units come in the order of their distance.
-/

namespace SkillAtlas

/-- A route to a unit: where it ends, and where it came through, the nearest first. -/
structure Route where
  last : String
  through : List String
deriving DecidableEq, Repr, Inhabited

namespace Route

def start (n : String) : Route :=
  ⟨n, []⟩

def extend (r : Route) (n : String) : Route :=
  ⟨n, r.last :: r.through⟩

/-- The units on the route from its start to its end. -/
def path (r : Route) : List String :=
  (r.last :: r.through).reverse

/-- The routes that end at names not seen before; of several with one end, the first. -/
def fresh (seen : List String) : List Route → List Route
  | [] => []
  | r :: rest =>
    if seen.contains r.last then fresh seen rest else r :: fresh (r.last :: seen) rest

theorem last_not_mem_of_mem_fresh {seen : List String} {routes : List Route} {r : Route}
    (h : r ∈ fresh seen routes) : r.last ∉ seen ∧ r ∈ routes := by
  induction routes generalizing seen with
  | nil => simp [fresh] at h
  | cons q rest ih =>
    simp only [fresh, List.contains_eq_mem, decide_eq_true_eq] at h
    split at h
    · exact ⟨(ih h).1, List.mem_cons_of_mem q (ih h).2⟩
    · rcases List.mem_cons.1 h with he | hr
      · subst he
        exact ⟨by assumption, List.mem_cons_self⟩
      · exact ⟨fun hm => (ih hr).1 (List.mem_cons_of_mem _ hm), List.mem_cons_of_mem q (ih hr).2⟩

end Route

/-- The routes one step beyond some routes, to known names not seen before. -/
def nextLayer (nodes : List String) (step : String → List String) (seen : List String)
    (layer : List Route) : List Route :=
  Route.fresh seen <| (layer.flatMap fun r => (step r.last).map r.extend).filter
    fun r => nodes.contains r.last

theorem unseen_nextLayer_lt {nodes : List String} {step : String → List String} {seen : List String}
    {layer : List Route} (h : nextLayer nodes step seen layer ≠ []) :
    unseen nodes ((nextLayer nodes step seen layer).map Route.last ++ seen) < unseen nodes seen := by
  obtain ⟨r, hr⟩ := List.exists_mem_of_ne_nil _ h
  have hf := Route.last_not_mem_of_mem_fresh hr
  have hn : r.last ∈ nodes := by simpa using (List.mem_filter.1 hf.2).2
  exact unseen_lt (fun _ hm => List.mem_append_right _ hm) hn hf.1
    (List.mem_append_left _ (List.mem_map_of_mem hr))

/-- The routes beyond a layer, layer after layer. -/
def furtherRoutes (nodes : List String) (step : String → List String) (seen : List String)
    (layer : List Route) : List Route :=
  let next := nextLayer nodes step seen layer
  if _h : next = [] then []
  else next ++ furtherRoutes nodes step (next.map Route.last ++ seen) next
termination_by unseen nodes seen
decreasing_by exact unseen_nextLayer_lt _h

/-- A shortest route to every other name that can be reached, the nearest first. -/
def routesFrom (nodes : List String) (step : String → List String) (n : String) : List Route :=
  if nodes.contains n then furtherRoutes nodes step [n] [Route.start n] else []

namespace CallGraph

/-- The units that a unit reaches by calls, the nearest first, without itself. -/
def transitiveCalls (g : CallGraph) (n : String) : List String :=
  (routesFrom g.nodes g.successors n).map Route.last

/-- The units that reach a unit by calls, the nearest first, without itself. -/
def transitiveCallers (g : CallGraph) (n : String) : List String :=
  (routesFrom g.nodes g.predecessors n).map Route.last

/-- A shortest path of calls between two units, if there is one. -/
def pathBetween? (g : CallGraph) (source target : String) : Option (List String) :=
  if !g.hasNode source then none
  else if source == target then some [source]
  else ((routesFrom g.nodes g.successors source).find? fun r => r.last == target).map Route.path

end CallGraph

end SkillAtlas
