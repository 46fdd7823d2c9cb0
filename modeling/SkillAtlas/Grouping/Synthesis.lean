import SkillAtlas.Grouping.CallChain
import SkillAtlas.Grouping.CommonStart
import SkillAtlas.Grouping.Variant

/-!
# Grouping

The searches are run in an order that depends on the kind of the document, each on what the earlier ones
left. What is left in the end stands alone.
-/

namespace SkillAtlas

/-- The groups of a document, and the units that are in none. -/
structure Grouping where
  groups : List GroupProposal
  standalone : List AnalyzedUnit
deriving Inhabited

/-- Groups that have been proposed so far, with the names that they claim. -/
structure Progress where
  groups : List GroupProposal := []
  claimed : List String := []

namespace Searcher

/-- Runs one search and adds its groups. -/
def advance (find : List String → Detection) (p : Progress) : Journal Progress := do
  let (groups, claimed) ← (find p.claimed).run p.claimed
  return ⟨p.groups ++ groups, claimed⟩

/-- Runs one search, adds its groups and reports their number. -/
def search (kind : Search) (find : List String → Detection) (p : Progress) : Journal Progress := do
  let q ← advance find p
  Journal.note (.searched kind (q.groups.length - p.groups.length))
  return q

/-- The search that comes after the one for lifecycle families. -/
def secondSearch (s : Searcher) (units : List AnalyzedUnit) (kind : ContextKind) (p : Progress) :
    Journal Progress :=
  match kind with
  | .mob => search .variants (s.variantFamilies units) p
  | .skillFile =>
    if p.groups.isEmpty then search .documentPrefix (s.documentPrefix units) p else pure p

/-- The last searches, by name; mobs are not grouped by name. -/
def lastSearch (s : Searcher) (units : List AnalyzedUnit) (kind : ContextKind) (p : Progress) :
    Journal Progress :=
  match kind with
  | .mob => pure p
  | .skillFile => do
    let q ← advance (s.residualPrefixes units) p
    let r ← advance (s.residualSuffixes units) q
    Journal.note (.searched .residualNaming (r.groups.length - p.groups.length))
    return r

def synthesize (s : Searcher) (units : List AnalyzedUnit) (g : CallGraph) (kind : ContextKind) :
    Journal Grouping := do
  let p ← search .lifecycle (s.lifecycleFamilies units) {}
  let p ← s.secondSearch units kind p
  let p ← search .callChains (s.callChains units g) p
  let p ← s.lastSearch units kind p
  let standalone := AnalyzedUnit.unclaimed p.claimed units
  Journal.note (.grouped p.groups.length standalone.length)
  return ⟨p.groups, standalone⟩

end Searcher

end SkillAtlas
