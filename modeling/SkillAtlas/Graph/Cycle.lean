import SkillAtlas.Graph.Basic

/-!
# Cycles and depth

A search, depth first, visits every unit once. A call of a unit that is still on the current path closes a
cycle; a call of any other unit that has been visited is passed over.

The depth of a unit is one more than the greatest depth of the units that it calls, those on the current
path left out. A depth is remembered when its unit is left, and is not worked out again.
-/

namespace SkillAtlas

/-- What a search for cycles has come to. -/
structure Tour where
  /-- the units that the search has entered, the latest first -/
  visited : List String := []
  /-- the cycles in the order in which they were closed -/
  cycles : List (List String) := []
deriving DecidableEq, Repr, Inhabited

namespace Tour

def enter (t : Tour) (n : String) : Tour :=
  { t with visited := n :: t.visited }

def close (t : Tour) (cycle : List String) : Tour :=
  { t with cycles := t.cycles ++ [cycle] }

end Tour

/-- The cycle that a call of `n` closes, for a path whose nearest unit comes first. -/
def closedBy (path : List String) (n : String) : List String :=
  n :: (path.takeWhile (· != n)).reverse ++ [n]

/-- Searches from some units in turn, which the unit at the head of `path` calls. -/
def tour (nodes : List String) (step : String → List String) (path : List String) :
    List String → Tour → Tour
  | [], t => t
  | n :: rest, t =>
    if path.contains n then tour nodes step path rest (t.close (closedBy path n))
    else if t.visited.contains n then tour nodes step path rest t
    else if _h : n ∈ nodes ∧ n ∉ path then
      tour nodes step path rest (tour nodes step (n :: path) (step n) (t.enter n))
    else tour nodes step path rest t
termination_by names => (unseen nodes path, names.length)
decreasing_by
  · exact Prod.Lex.right _ (by simp)
  · exact Prod.Lex.right _ (by simp)
  · exact Prod.Lex.left _ _ (unseen_cons_lt _h.1 _h.2)
  · exact Prod.Lex.right _ (by simp)
  · exact Prod.Lex.right _ (by simp)

namespace CallGraph

/-- The cycles of the graph, one for each call that closes one; each is closed on its first unit. -/
def cycles (g : CallGraph) : List (List String) :=
  (tour g.nodes g.successors [] g.nodes {}).cycles

end CallGraph

/-! ### Depth -/

/-- The depths that are remembered, in the order in which they became known. -/
abbrev Depths := List (String × Nat)

/-- The depth that calls of some units in turn give the unit at the head of `path`, if it had `depth`
before, and the depths that are remembered afterwards. -/
def deepen (nodes : List String) (step : String → List String) (path : List String) (depth : Nat) :
    List String → Depths → Nat × Depths
  | [], known => (depth, known)
  | n :: rest, known =>
    if path.contains n then deepen nodes step path depth rest known
    else
      match known.lookup n with
      | some d => deepen nodes step path (max depth (d + 1)) rest known
      | none =>
        if _h : n ∈ nodes ∧ n ∉ path then
          let (d, found) := deepen nodes step (n :: path) 0 (step n) known
          deepen nodes step path (max depth (d + 1)) rest (found ++ [(n, d)])
        else deepen nodes step path depth rest known
termination_by names => (unseen nodes path, names.length)
decreasing_by
  · exact Prod.Lex.right _ (by simp)
  · exact Prod.Lex.right _ (by simp)
  · exact Prod.Lex.left _ _ (unseen_cons_lt _h.1 _h.2)
  · exact Prod.Lex.right _ (by simp)
  · exact Prod.Lex.right _ (by simp)

namespace CallGraph

def depths (g : CallGraph) : Depths :=
  (deepen g.nodes g.successors [] 0 g.nodes []).2

def maxDepth (g : CallGraph) : Nat :=
  (g.depths.map Prod.snd).foldl max 0

end CallGraph

end SkillAtlas
