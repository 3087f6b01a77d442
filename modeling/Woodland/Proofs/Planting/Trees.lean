import Mathlib.Tactic
import Woodland.Proofs.Random.Draws
import Woodland.Proofs.Words.SpeciesGrowth
import Woodland.Tree.Basic

/-! Trees as they are grown to a shape. -/

namespace Woodland.Tree

structure Grown (s : Shape Float32) (t : Tree) : Prop where
  expansion : t.expansion = (t.species.grammar.expand s.iterations).value
  whole : t.expansion.truncated = false
  clusters : t.clusters.length = t.expansion.count ']'
  leaves : ∀ c ∈ t.clusters, c.length = s.leavesPerCluster

variable {s : Shape Float32}

lemma quiet_grow (site : Site) (species : Species) (s : Shape Float32) (g : Generator) :
    (grow site species s).quiet.run g =
      let e := (species.grammar.expand s.iterations).value
      let hung := (Cluster.forWord e.symbols s.leavesPerCluster).run g
      (⟨site, species, e, hung.1⟩, hung.2) := rfl

lemma grown_grow (h : s.iterations ≤ Shape.maxIterations) (site : Site) (species : Species) (g : Generator) :
    ((grow site species s).quiet.run g).1.Grown s := by
  rw [quiet_grow]
  refine ⟨rfl, ?_, Draw.length_times _ _ g, ?_⟩
  · simp only [species.value_expand h]
  · exact Draw.forall_mem_times (fun g => Draw.length_times _ _ g) _ g

lemma quiet_random (site : Site) (s : Shape Float32) :
    (random site s).quiet = Species.random >>= fun species => (grow site species s).quiet := by
  rw [random, Growing.quiet_bind, Growing.quiet_draw]

lemma site_random (site : Site) (s : Shape Float32) (g : Generator) : ((random site s).quiet.run g).1.site = site := by
  rw [quiet_random, StateT.run_bind]
  generalize Species.random.run g = drawn
  rfl

lemma grown_random (h : s.iterations ≤ Shape.maxIterations) (site : Site) (g : Generator) :
    ((random site s).quiet.run g).1.site = site ∧ ((random site s).quiet.run g).1.Grown s := by
  rw [quiet_random, StateT.run_bind]
  generalize Species.random.run g = drawn
  exact ⟨rfl, grown_grow h site drawn.1 drawn.2⟩

lemma grown_mapM {α : Type} {k : α → Growing Tree} (place : α → Site)
    (h : ∀ a g, ((k a).quiet.run g).1.site = place a ∧ ((k a).quiet.run g).1.Grown s) (xs : List α) (g : Generator) :
    ((Growing.quiet (xs.mapM k)).run g).1.map Tree.site = xs.map place ∧
      ∀ t ∈ ((Growing.quiet (xs.mapM k)).run g).1, t.Grown s := by
  rw [Growing.quiet_mapM]
  exact ⟨Draw.map_mapM (fun a g => (h a g).1) xs g, Draw.forall_mem_mapM (fun a g => (h a g).2) xs g⟩

end Woodland.Tree
