import TagTemplate.Markup.Node
import TagTemplate.Scope

/-!
# Blocks and layouts of one rendering

A block keeps its nodes and the scope it was met in. The first block for a region wins. The first
layout that is asked for is applied next, after which another one may be asked for.
-/

namespace TagTemplate

/-- The nodes of a block and the scope they are to be rendered in. -/
structure Block where
  nodes : List Markup.Node
  scope : Scope

/-- What happens to the blocks and layouts of a page: a block is met, a layout is asked for, the one
asked for is taken, if any, or a region is shown with the block kept for it, if any. -/
inductive PageEvent where
  | block (region : String) (block : Block)
  | request (name : String)
  | take (taken : Option String)
  | region (name : String) (shown : Option Block)

/-- The blocks by region, the layout to apply next, and the layouts applied so far. The history, the
latest event first, says what has happened, and decides nothing. -/
structure Registry where
  blocks : OrderedMap Block := []
  pending : Option String := none
  applied : List String := []
  history : List PageEvent := []

namespace Registry

def addBlock (r : Registry) (region : String) (block : Block) : Registry :=
  { r with
    blocks := if OrderedMap.has r.blocks region then r.blocks else r.blocks ++ [(region, block)]
    history := .block region block :: r.history }

def requestLayout (r : Registry) (name : String) : Registry :=
  { r with pending := r.pending.or (some name), history := .request name :: r.history }

def takeLayout (r : Registry) : Option String × Registry :=
  (r.pending,
    { r with
      pending := none
      applied := r.applied ++ r.pending.toList
      history := .take r.pending :: r.history })

def findBlock (r : Registry) (region : String) : Option Block × Registry :=
  let shown := r.blocks.lookup region
  (shown, { r with history := .region region shown :: r.history })

theorem lookup_addBlock (r : Registry) (region : String) (block : Block) (other : String) :
    (r.addBlock region block).blocks.lookup other =
      (r.blocks.lookup other).or (if other = region then some block else none) := by
  unfold addBlock OrderedMap.has
  by_cases ho : other = region
  · subst ho
    cases hb : r.blocks.lookup other with
    | none => simp [hb, List.lookup_append]
    | some b => simp [hb]
  · cases hb : r.blocks.lookup region with
    | none => simp [ho, List.lookup_append, List.lookup_cons, beq_eq_false_iff_ne.2 ho]
    | some b => simp [ho]

theorem eq_or_lookup_of_lookup_addBlock {r : Registry} {region other : String} {block b : Block}
    (h : (r.addBlock region block).blocks.lookup other = some b) :
    b = block ∨ r.blocks.lookup other = some b := by
  rw [lookup_addBlock] at h
  rcases Option.or_eq_some_iff.1 h with h | ⟨-, h⟩
  · exact Or.inr h
  · split at h
    · exact Or.inl (Option.some.inj h).symm
    · cases h

theorem pending_addBlock (r : Registry) (region : String) (block : Block) :
    (r.addBlock region block).pending = r.pending := rfl

theorem blocks_requestLayout (r : Registry) (name : String) :
    (r.requestLayout name).blocks = r.blocks := rfl

theorem pending_requestLayout (r : Registry) (name : String) :
    (r.requestLayout name).pending = r.pending.or (some name) := rfl

theorem takeLayout_fst (r : Registry) : r.takeLayout.1 = r.pending := rfl

theorem blocks_takeLayout (r : Registry) : r.takeLayout.2.blocks = r.blocks := rfl

theorem pending_takeLayout (r : Registry) : r.takeLayout.2.pending = none := rfl

theorem pending_findBlock (r : Registry) (region : String) :
    (r.findBlock region).2.pending = r.pending := rfl

end Registry

end TagTemplate
