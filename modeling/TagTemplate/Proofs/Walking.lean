import Mathlib.Data.List.Infix
import Mathlib.Data.List.Pairwise
import TagTemplate.Markup.Node

/-!
# The walk through a tree

Every tag of a tree has an address: which of the nodes it is in, in which list of nodes inside that
tag, and so on. The walk comes once to each address that there is, and to a tag before it comes to
those inside it.
-/

namespace TagTemplate.Markup

/-- The nodes that a value holds. -/
def AttributeValue.nodes : AttributeValue → List Node
  | .literal _ => []
  | .markup nodes => nodes

/-- The lists of nodes inside a tag: those in its attributes, and last its children. -/
def Tag.slots (t : Tag) : List (List Node) :=
  t.attributes.map (fun p => p.2.nodes) ++ [t.children]

mutual

def tagAt? (nodes : List Node) : List Nat → Option Tag
  | [] => none
  | i :: address =>
    match nodes[i]? with
    | some (.tag t) => t.at? address
    | _ => none

/-- The tag at an address in a tag: this tag itself, or one inside, in the list of nodes that the
address begins with the number of. -/
def Tag.at? (t : Tag) : List Nat → Option Tag
  | [] => some t
  | i :: address =>
    match t.slots[i]? with
    | some nodes => tagAt? nodes address
    | none => none

end

/-- The tags have these addresses, in the same order. Every address is among them, and none comes
after one that it leads to. -/
structure Visits (at? : List Nat → Option Tag) (tags : List Tag) (addresses : List (List Nat)) :
    Prop where
  tags : addresses.map at? = tags.map some
  all : ∀ address t, at? address = some t → address ∈ addresses
  outward : addresses.Pairwise fun address later => ¬ later <+: address

theorem Visits.nodup {at? : List Nat → Option Tag} {tags : List Tag}
    {addresses : List (List Nat)} (h : Visits at? tags addresses) : addresses.Nodup := by
  refine h.outward.imp fun {p q} hnot heq => ?_
  rw [heq] at hnot
  exact hnot (List.prefix_refl q)

theorem Visits.exists_tag {at? : List Nat → Option Tag} {tags : List Tag}
    {addresses : List (List Nat)} (h : Visits at? tags addresses) {address : List Nat}
    (hmem : address ∈ addresses) : ∃ t, at? address = some t := by
  have hat : at? address ∈ tags.map some := h.tags ▸ List.mem_map_of_mem hmem
  obtain ⟨t, -, ht⟩ := List.mem_map.1 hat
  exact ⟨t, ht.symm⟩

/-- An address in one of several places: the number of the place, and an address in there. -/
def branch {α : Type} (at? : α → List Nat → Option Tag) (places : List α) :
    List Nat → Option Tag
  | [] => none
  | i :: address => places[i]?.bind (at? · address)

def later : List Nat → List Nat
  | [] => []
  | i :: address => (i + 1) :: address

theorem prefix_later_iff {p q : List Nat} : later q <+: later p ↔ q <+: p := by
  cases q with
  | nil => simp [later]
  | cons j q => cases p <;> simp [later]

theorem branch_later {α : Type} (at? : α → List Nat → Option Tag) (place : α) (places : List α)
    (address : List Nat) :
    branch at? (place :: places) (later address) = branch at? places address := by
  cases address <;> rfl

theorem visits_branch_nil {α : Type} (at? : α → List Nat → Option Tag) :
    Visits (branch at? []) [] [] := by
  refine ⟨rfl, fun address t ht => ?_, .nil⟩
  cases address <;> cases ht

theorem Visits.branch_cons {α : Type} {at? : α → List Nat → Option Tag} {place : α}
    {places : List α} {tags tags' : List Tag} {first rest : List (List Nat)}
    (hfirst : Visits (at? place) tags first) (hrest : Visits (branch at? places) tags' rest) :
    Visits (branch at? (place :: places)) (tags ++ tags')
      (first.map (0 :: ·) ++ rest.map later) where
  tags := by
    rw [List.map_append, List.map_append, List.map_map, List.map_map, ← hfirst.tags,
      ← hrest.tags]
    congr 1
    exact List.map_congr_left fun address _ => branch_later at? place places address
  all address t ht := by
    rw [List.mem_append]
    match address with
    | [] => cases ht
    | 0 :: address => exact Or.inl (List.mem_map_of_mem (hfirst.all address t ht))
    | (i + 1) :: address =>
      exact Or.inr (List.mem_map.2 ⟨i :: address, hrest.all (i :: address) t ht, rfl⟩)
  outward := by
    rw [List.pairwise_append, List.pairwise_map, List.pairwise_map]
    refine ⟨hfirst.outward.imp fun hnot hp => hnot (List.cons_prefix_cons.1 hp).2,
      hrest.outward.imp fun hnot hp => hnot (prefix_later_iff.1 hp), fun p hp q hq hprefix => ?_⟩
    obtain ⟨p, -, rfl⟩ := List.mem_map.1 hp
    obtain ⟨q, hmem, rfl⟩ := List.mem_map.1 hq
    obtain ⟨t, ht⟩ := hrest.exists_tag hmem
    cases q with
    | nil => cases ht
    | cons j q => cases (List.cons_prefix_cons.1 hprefix).1

def Node.at? : Node → List Nat → Option Tag
  | .text _, _ => none
  | .tag t, address => t.at? address

theorem tagAt?_eq_branch (nodes : List Node) : tagAt? nodes = branch Node.at? nodes := by
  funext address
  cases address with
  | nil => rw [tagAt?, branch]
  | cons i address =>
    rw [tagAt?, branch]
    rcases nodes[i]? with _ | _ | t <;> rfl

theorem Tag.at?_cons (t : Tag) (i : Nat) (address : List Nat) :
    t.at? (i :: address) = branch tagAt? t.slots (i :: address) := by
  rw [Tag.at?, branch]
  cases t.slots[i]? <;> rfl

theorem Visits.tag {t : Tag} {addresses : List (List Nat)}
    (h : Visits (branch tagAt? t.slots) t.innerTags addresses) :
    Visits t.at? (t :: t.innerTags) ([] :: addresses) := by
  have hinner : ∀ address ∈ addresses, ∃ i rest, address = i :: rest := by
    intro address hmem
    obtain ⟨u, hu⟩ := h.exists_tag hmem
    cases address with
    | nil => cases hu
    | cons i rest => exact ⟨i, rest, rfl⟩
  refine ⟨?_, fun address u hu => ?_, ?_⟩
  · rw [List.map_cons, List.map_cons, ← h.tags, Tag.at?]
    congr 1
    refine List.map_congr_left fun address hmem => ?_
    obtain ⟨i, rest, rfl⟩ := hinner address hmem
    exact t.at?_cons i rest
  · cases address with
    | nil => exact List.mem_cons_self
    | cons i rest => exact List.mem_cons_of_mem _ (h.all _ u (t.at?_cons i rest ▸ hu))
  · refine List.pairwise_cons.2 ⟨fun address hmem hprefix => ?_, h.outward⟩
    obtain ⟨i, rest, rfl⟩ := hinner address hmem
    cases List.prefix_nil.1 hprefix

mutual

theorem Node.visits : (n : Node) → ∃ addresses, Visits n.at? n.tags addresses
  | .text _ => ⟨[], rfl, fun _ _ ht => (nomatch ht), .nil⟩
  | .tag { name, extension, attributes, children, selfClosing } => by
    obtain ⟨addresses, h⟩ := visits_slots (visits_tagsOf children) attributes
    rw [Node.tags]
    exact ⟨_, Visits.tag (by rwa [Tag.innerTags, Tag.slots])⟩

theorem AttributeValue.visits :
    (v : AttributeValue) → ∃ addresses, Visits (tagAt? v.nodes) v.tags addresses
  | .literal _ => ⟨[], by rw [AttributeValue.nodes, tagAt?_eq_branch]; exact visits_branch_nil _⟩
  | .markup nodes => visits_tagsOf nodes

theorem visits_tagsOf : (nodes : List Node) →
    ∃ addresses, Visits (tagAt? nodes) (tagsOf nodes) addresses
  | [] => ⟨[], by rw [tagAt?_eq_branch, tagsOf]; exact visits_branch_nil _⟩
  | n :: nodes => by
    obtain ⟨first, hfirst⟩ := n.visits
    obtain ⟨rest, hrest⟩ := visits_tagsOf nodes
    rw [tagAt?_eq_branch] at hrest ⊢
    rw [tagsOf]
    exact ⟨_, hfirst.branch_cons hrest⟩

theorem visits_slots {children : List Node}
    (h : ∃ addresses, Visits (tagAt? children) (tagsOf children) addresses) :
    (as : List (String × AttributeValue)) → ∃ addresses,
      Visits (branch tagAt? (as.map (fun p => p.2.nodes) ++ [children]))
        (tagsOfAttributes as ++ tagsOf children) addresses
  | [] => by
    obtain ⟨addresses, h⟩ := h
    have hlast := h.branch_cons (visits_branch_nil tagAt?)
    rw [List.append_nil] at hlast
    rw [tagsOfAttributes]
    exact ⟨_, hlast⟩
  | (_, v) :: as => by
    obtain ⟨first, hfirst⟩ := v.visits
    obtain ⟨rest, hrest⟩ := visits_slots h as
    rw [tagsOfAttributes, List.append_assoc]
    exact ⟨_, hfirst.branch_cons hrest⟩

end

end TagTemplate.Markup
