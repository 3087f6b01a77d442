import Woodland.Forest.Plot
import Woodland.Grammar.Expansion
import Woodland.Grammar.Species
import Woodland.Tree.Turtle

/-! One tree: where it stands, the word it grew to and the leaves drawn for it. -/

namespace Woodland

abbrev Growing := StateT Generator Logged

def Growing.draw {α : Type} (d : Draw α) : Growing α := fun g => pure (d.run g)

def Species.random : Draw Species := do
  match ← Draw.third with
  | 0 => return simple3d
  | 1 => return minimal3d
  | 2 => return basic3d

structure Tree where
  site : Site
  species : Species
  expansion : Expansion
  clusters : List (Cluster Float32)
deriving DecidableEq

namespace Tree

def grow (site : Site) (species : Species) (s : Shape Float32) : Growing Tree := do
  let expansion ← (species.grammar.expand s.iterations : Logged Expansion)
  let clusters ← Growing.draw (Cluster.forWord expansion.symbols s.leavesPerCluster)
  (Logged.note
    (.grown species.name site.x site.z expansion.length clusters.length) : Logged Unit)
  return ⟨site, species, expansion, clusters⟩

def random (site : Site) (s : Shape Float32) : Growing Tree := do
  let species ← Growing.draw Species.random
  grow site species s

def regrow (t : Tree) (s : Shape Float32) : Growing Tree := grow t.site t.species s

def base (t : Tree) : Mat4 Float32 :=
  (Mat4.identity.displace ⟨t.site.x, 0.0, t.site.z⟩).rotate t.site.yaw .unitY

def draw (t : Tree) (s : Shape Float32) : Logged (Drawing Float32) :=
  (Drawing.ofWord s t.clusters t.base t.expansion.symbols).logged

end Tree

end Woodland
