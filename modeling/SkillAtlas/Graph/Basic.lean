import SkillAtlas.Journal
import SkillAtlas.Units.Basic

/-!
# Call graphs

The calls between the units of a document. Every call is an edge; an edge whose target is a known unit
when the edge is added is also a link, and `calls` and `calledBy` are two views of the links. So each link
is seen once from its source and once from its target.
-/

namespace SkillAtlas

/-- A call from one unit to a name. -/
structure Edge where
  source : String
  target : String
  context : String
deriving DecidableEq, Repr, Inhabited

/-- A directed graph of calls; two units may be linked several times. -/
structure CallGraph where
  /-- the names of the known units -/
  nodes : List String := []
  /-- all edges in the order in which they were added -/
  edges : List Edge := []
  /-- the edges between known units, as source and target -/
  links : List (String × String) := []
deriving Repr, Inhabited

namespace CallGraph

def hasNode (g : CallGraph) (n : String) : Bool :=
  g.nodes.contains n

def addNode (g : CallGraph) (n : String) : CallGraph :=
  if g.hasNode n then g else { g with nodes := g.nodes ++ [n] }

def link (g : CallGraph) (source target : String) : CallGraph :=
  let g := g.addNode source
  { g with links := g.links ++ [(source, target)] }

/-- Adds an edge; it is a link if its target is known. -/
def addEdge (g : CallGraph) (e : Edge) : CallGraph :=
  let g := { g with edges := g.edges ++ [e] }
  if g.hasNode e.target then g.link e.source e.target else g

/-- The units that a unit calls, one for each link. -/
def calls (g : CallGraph) (n : String) : List String :=
  (g.links.filter fun l => l.1 == n).map Prod.snd

/-- The units that call a unit, one for each link. -/
def calledBy (g : CallGraph) (n : String) : List String :=
  (g.links.filter fun l => l.2 == n).map Prod.fst

def successors (g : CallGraph) (n : String) : List String :=
  (g.calls n).eraseDups

def predecessors (g : CallGraph) (n : String) : List String :=
  (g.calledBy n).eraseDups

/-- The edges to names that are no known units. -/
def danglingEdges (g : CallGraph) : List Edge :=
  g.edges.filter fun e => !g.hasNode e.target

/-- The units that call others and that none calls. -/
def roots (g : CallGraph) : List String :=
  g.nodes.filter fun n => !(g.calls n).isEmpty && (g.calledBy n).isEmpty

/-- The units that none calls. -/
def entryPoints (g : CallGraph) : List String :=
  g.nodes.filter fun n => (g.calledBy n).isEmpty

def leaves (g : CallGraph) : List String :=
  g.nodes.filter fun n => (g.calls n).isEmpty

def edgesOf (u : AnalyzedUnit) : List Edge :=
  u.calls.map fun c => ⟨u.name, c.name, c.context⟩

def ofUnits (units : List AnalyzedUnit) : CallGraph :=
  (units.flatMap edgesOf).foldl addEdge ((AnalyzedUnit.names units).foldl addNode {})

def build (units : List AnalyzedUnit) : Journal CallGraph := do
  let g := ofUnits units
  Journal.note (.graphBuilt g.nodes.length g.edges.length)
  return g

end CallGraph

/-! ### How much is left to see -/

/-- The number of names that have not been seen. -/
def unseen (nodes seen : List String) : Nat :=
  nodes.countP fun n => !seen.contains n

theorem unseen_mono {seen seen' : List String} (h : ∀ n ∈ seen, n ∈ seen') (nodes : List String) :
    unseen nodes seen' ≤ unseen nodes seen := by
  apply List.countP_mono_left
  intro n _ hn
  simp only [Bool.not_eq_true', List.contains_eq_mem, decide_eq_false_iff_not] at hn ⊢
  exact fun hm => hn (h n hm)

theorem unseen_lt {nodes seen seen' : List String} {n : String} (h : ∀ m ∈ seen, m ∈ seen')
    (hn : n ∈ nodes) (hs : n ∉ seen) (hs' : n ∈ seen') : unseen nodes seen' < unseen nodes seen := by
  induction nodes with
  | nil => simp at hn
  | cons m rest ih =>
    simp only [unseen, List.countP_cons, List.contains_eq_mem, Bool.not_eq_true',
      decide_eq_false_iff_not] at ih ⊢
    have hm := unseen_mono h rest
    simp only [unseen, List.contains_eq_mem] at hm
    by_cases he : n = m
    · subst he
      simp only [hs, hs', not_true_eq_false, not_false_eq_true, if_true, if_false]
      omega
    · have hr : n ∈ rest := by simpa [he] using hn
      have hlt := ih hr
      by_cases h1 : m ∈ seen
      · have h2 := h m h1
        simp only [h1, h2, not_true_eq_false, if_false]
        omega
      · by_cases h2 : m ∈ seen' <;> simp only [h1, h2, not_true_eq_false, not_false_eq_true, if_true,
          if_false] <;> omega

/-- Marking a name that was not seen leaves fewer to see. -/
theorem unseen_cons_lt {nodes seen : List String} {n : String} (hn : n ∈ nodes) (hs : n ∉ seen) :
    unseen nodes (n :: seen) < unseen nodes seen :=
  unseen_lt (fun _ hm => List.mem_cons_of_mem n hm) hn hs List.mem_cons_self

end SkillAtlas
