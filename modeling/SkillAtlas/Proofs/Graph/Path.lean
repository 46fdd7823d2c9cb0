import Mathlib.Data.List.Chain
import Mathlib.Data.List.Nodup
import Mathlib.Order.Bounds.Basic
import SkillAtlas.Graph.Cycle

/-!
# Paths and cycles of calls

Paths, cycles and longest paths of any relation between names, given by the names that each name steps to.
The cycle that a call back to a unit on the current path closes is a cycle in this sense, and that call is
its last one.
-/

namespace SkillAtlas

/-- Known units, each of which steps to the next. -/
structure IsPath (nodes : List String) (step : String → List String) (p : List String) : Prop where
  known : p ⊆ nodes
  chain : p.IsChain fun a b => b ∈ step a

/-- A path of at least one call that ends where it starts. -/
structure IsCycle (nodes : List String) (step : String → List String) (c : List String) : Prop
    extends IsPath nodes step c where
  long : 2 ≤ c.length
  closed : c.head? = c.getLast?

/-- The greatest number of calls on the paths of a kind. -/
def IsLongest (kind : List String → Prop) (k : Nat) : Prop :=
  IsGreatest {n | ∃ p, kind p ∧ p.length - 1 = n} k

/-- The last call of a cycle, which closes it. -/
def closing? (c : List String) : Option (String × String) :=
  match c.reverse with
  | b :: a :: _ => some (a, b)
  | _ => none

section Rank

variable {nodes : List String} {step : String → List String} {p : List String} {rank : String → Nat}

/-- Along a path whose calls go down in rank, every unit is above all later ones. -/
lemma IsPath.pairwise (h : IsPath nodes step p)
    (hr : ∀ a ∈ nodes, ∀ b ∈ step a, rank b < rank a) : p.Pairwise fun a b => rank b < rank a := by
  have htrans : IsTrans String fun a b => rank b < rank a := ⟨fun a b c hab hbc => hbc.trans hab⟩
  have hchain : p.IsChain fun a b => rank b < rank a :=
    h.chain.imp_of_mem_imp fun a b ha _ hab => hr a (h.known ha) b hab
  exact hchain.pairwise

lemma IsPath.nodup (h : IsPath nodes step p)
    (hr : ∀ a ∈ nodes, ∀ b ∈ step a, rank b < rank a) : p.Nodup := by
  refine (h.pairwise hr).imp fun {a b} hab he => ?_
  rw [he] at hab
  exact lt_irrefl _ hab

/-- Calls that go down in rank form no cycle. -/
lemma not_isCycle (hr : ∀ a ∈ nodes, ∀ b ∈ step a, rank b < rank a) : ¬ IsCycle nodes step p := by
  intro h
  have hpair := h.pairwise hr
  have hlong := h.long
  have hclosed := h.closed
  cases p with
  | nil => simp at hlong
  | cons a rest =>
    have hrest : rest ≠ [] := by
      rintro rfl
      simp at hlong
    rw [List.head?_cons, List.getLast?_cons_of_ne_nil hrest, List.getLast?_eq_some_getLast hrest] at hclosed
    have hlast : a ∈ rest := Option.some.inj hclosed ▸ List.getLast_mem hrest
    exact lt_irrefl _ ((List.pairwise_cons.mp hpair).1 a hlast)

end Rank

section Closing

variable {nodes : List String} {step : String → List String} {path : List String} {u n : String}

/-- A path on which a walk is, the nearest unit first, no unit twice. -/
structure IsTrail (nodes : List String) (step : String → List String) (path : List String) : Prop where
  known : path ⊆ nodes
  distinct : path.Nodup
  chain : path.IsChain fun a b => a ∈ step b

lemma isTrail_nil (nodes : List String) (step : String → List String) : IsTrail nodes step [] :=
  ⟨List.nil_subset nodes, List.nodup_nil, List.isChain_nil⟩

lemma IsTrail.cons (h : IsTrail nodes step path) (hn : n ∈ nodes) (hp : n ∉ path)
    (hs : ∀ u, path.head? = some u → n ∈ step u) : IsTrail nodes step (n :: path) where
  known := List.cons_subset.mpr ⟨hn, h.known⟩
  distinct := List.nodup_cons.mpr ⟨hp, h.distinct⟩
  chain := List.isChain_cons.mpr ⟨hs, h.chain⟩

lemma reverse_closedBy (path : List String) (n : String) :
    (closedBy path n).reverse = n :: (path.takeWhile (· != n) ++ [n]) := by
  simp [closedBy]

lemma head?_takeWhile_append (path : List String) (n : String) (hn : n ∈ path) :
    (path.takeWhile (· != n) ++ [n]).head? = path.head? := by
  cases path with
  | nil => simp at hn
  | cons u rest =>
    by_cases he : u = n
    · simp [he]
    · simp [he]

/-- Up to `n`, what a trail to `n` has passed is the start of the trail. -/
lemma takeWhile_append_isPrefix (hn : n ∈ path) : path.takeWhile (· != n) ++ [n] <+: path := by
  induction path with
  | nil => simp at hn
  | cons u rest ih =>
    by_cases he : u = n
    · simp [he]
    · have hr : n ∈ rest := by simpa [Ne.symm he] using hn
      simpa [he] using ih hr

lemma closing?_closedBy (hu : path.head? = some u) (hn : n ∈ path) :
    closing? (closedBy path n) = some (u, n) := by
  have hhead := (head?_takeWhile_append path n hn).trans hu
  unfold closing?
  rw [reverse_closedBy]
  cases hw : path.takeWhile (· != n) ++ [n] with
  | nil => simp at hw
  | cons v rest =>
    rw [hw, List.head?_cons] at hhead
    rw [Option.some.inj hhead]

/-- The call of a unit on the trail closes a cycle. -/
lemma IsTrail.isCycle_closedBy (h : IsTrail nodes step path) (hn : n ∈ path)
    (hs : ∀ u, path.head? = some u → n ∈ step u) : IsCycle nodes step (closedBy path n) where
  known := by
    intro m hm
    rw [← List.mem_reverse, reverse_closedBy] at hm
    rcases List.mem_cons.mp hm with rfl | hm
    · exact h.known hn
    · exact h.known ((takeWhile_append_isPrefix hn).subset hm)
  chain := by
    have hpre := h.chain.prefix (takeWhile_append_isPrefix hn)
    rw [← List.isChain_reverse, reverse_closedBy, List.isChain_cons, head?_takeWhile_append path n hn]
    exact ⟨hs, hpre⟩
  long := by simp [closedBy]
  closed := by
    rw [closedBy, List.getLast?_concat]
    rfl

lemma IsTrail.nodup_closedBy (h : IsTrail nodes step path) (hn : n ∈ path) :
    (closedBy path n).dropLast.Nodup := by
  have hpre := h.distinct.sublist (takeWhile_append_isPrefix hn).sublist
  rw [closedBy, List.dropLast_concat, ← List.nodup_reverse]
  simpa using hpre

end Closing

end SkillAtlas
