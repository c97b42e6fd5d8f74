import TagTemplate.Proofs.Listing
import TagTemplate.Proofs.PrintedLists

/-!
# The ends of a repetition

What the tags `first` and `last` enclose is shown once by a repetition: before everything else that
its first item shows, and after everything else that its last item shows. It does not matter what
stands between the two tags, nor which tags stand around them, as long as these repeat nothing.
-/

namespace TagTemplate

open Markup (Node Tag)
open TagTemplate.Action

def Content.isEntered : Content → Bool
  | .string text => text ≠ ""
  | .number _ | .object _ => true
  | _ => false

namespace Environment

/-- The tag finds this content, and its attributes do not change what is shown. -/
structure Finds (env : Environment) (tag : Tag) (options : Options) (scope : Scope) (c : Content) :
    Prop where
  literal : tag.attributes = options.map fun p => (p.1, .literal p.2)
  wrap : options.lookup "wrap" = none
  default : options.lookup "default" = none
  filters : ∀ filter ∈ env.filters, OrderedMap.has options filter.1 = false
  positive : negated? tag.name = none
  meaning : ∃ c₀, env.meaning? tag scope = some (pure (c₀, scope)) ∧
    Occurrence.taken ⟨tag, options, scope, scope⟩ c₀ = c

/-- The tag shows what it encloses once, in the inner scope: what it finds is true, is entered, or
is an array that is shown as a whole. -/
inductive Leads (env : Environment) : Tag → Scope → Scope → Prop where
  | truth {tag options scope} (h : env.Finds tag options scope (.bool true)) :
      Leads env tag scope scope
  | entered {tag options scope c} (h : env.Finds tag options scope c) (hc : c.isEntered) :
      Leads env tag scope (scope.enter c)
  | whole {tag options scope items} (h : env.Finds tag options scope (.array items))
      (hitems : items ≠ []) (hrepeat : options.lookup "repeat" = some "false") :
      Leads env tag scope (scope.push
        { value := .array items, bindings := [("values", .array items)], collection := true })

/-- Each of the tags, the outermost first, shows what it encloses once. -/
inductive Reaches (env : Environment) : List Tag → Scope → Scope → Prop where
  | nil {scope} : Reaches env [] scope scope
  | cons {tag tags scope inner innermost} (h : env.Leads tag scope inner)
      (hrest : Reaches env tags inner innermost) : Reaches env (tag :: tags) scope innermost

end Environment

def Markup.stacked : List Tag → List Node → List Node
  | [], nodes => nodes
  | tag :: tags, nodes => [.tag (tag.around (stacked tags nodes))]

namespace Environment

section Stacks

variable {env : Environment} {render : Renderer} {budget : Nat} {tag : Tag} {tags : List Tag}
  {options : Options} {scope inner : Scope} {c : Content} {nodes : List Node}

theorem Finds.finish (h : env.Finds tag options scope c) (text : String) :
    env.finish text options = pure text := env.finish_of_no_attribute text h.filters h.wrap

theorem Finds.renderTag_around (h : env.Finds tag options scope c) (hends : ∀ f, c ≠ .callable f) :
    env.renderTag render budget (tag.around nodes) scope =
      env.showContent render ⟨tag.around nodes, options, scope, scope⟩ c := by
  let o : Occurrence := ⟨tag.around nodes, options, scope, scope⟩
  obtain ⟨c₀, hmeaning, htaken⟩ := h.meaning
  have htaken : o.taken c₀ = c := htaken
  have hmeaning : env.meaning? (tag.around nodes) scope = some (pure (c₀, scope)) := hmeaning
  have hoptions : optionsOf render scope (tag.around nodes) = pure options :=
    optionsOf_of_literal scope render h.literal
  have hpositive : negated? o.tag.name = none := h.positive
  rw [env.renderTag_of_meaning render budget hmeaning, hoptions, pure_bind, pure_bind]
  unfold renderAs renderSubject
  simp [o, hpositive, htaken, showSubject_of_ends hends, orDefault_of_no_default _ h.default]

theorem Finds.of_lookup (hliteral : tag.attributes = options.map fun p => (p.1, .literal p.2))
    (hwrap : options.lookup "wrap" = none) (hdefault : options.lookup "default" = none)
    (hfilters : ∀ filter ∈ env.filters, OrderedMap.has options filter.1 = false)
    (hextension : tag.extension = none) (hpositive : negated? tag.name = none)
    (hordinary : Structural.ofName? tag.name = none) (hlookup : scope.lookup tag.name = pure c) :
    env.Finds tag options scope c where
  literal := hliteral
  wrap := hwrap
  default := hdefault
  filters := hfilters
  positive := hpositive
  meaning := by
    have hitems : ¬ tag.ShowsItems := fun hitems => by
      cases hordinary.symm.trans hitems.kind.2.2
    refine ⟨c, ?_, Occurrence.taken_of_not_showsItems hitems⟩
    rw [env.meaning?_of_ordinary hextension hpositive hordinary, hlookup, pure_bind]

theorem Leads.renderTag_around (h : env.Leads tag scope inner) (hnodes : nodes ≠ []) :
    env.renderTag render budget (tag.around nodes) scope = render nodes inner := by
  have hchildren : (tag.around nodes).children.isEmpty = false := List.isEmpty_eq_false_iff.2 hnodes
  cases h with
  | truth h =>
    have hends : ∀ f, Content.bool true ≠ .callable f := by rintro f ⟨⟩
    rw [h.renderTag_around hends]
    simp [showContent, hchildren, Occurrence.enclosed, h.finish]
    rfl
  | @entered options _ c h hc =>
    have hends : ∀ f, c ≠ .callable f := by
      rintro f rfl
      cases hc
    rw [h.renderTag_around hends]
    cases c with
    | string text =>
      have htext : text ≠ "" := of_decide_eq_true hc
      simp [showContent, hchildren, h.finish, htext]
      rfl
    | number n =>
      simp [showContent, hchildren, h.finish]
      rfl
    | object o =>
      simp [showContent, hchildren, h.finish]
      rfl
    | _ => cases hc
  | @whole _ _ items h hitems hrepeat =>
    have hends : ∀ f, Content.array items ≠ .callable f := by rintro f ⟨⟩
    rw [h.renderTag_around hends]
    simp [showContent, collection, hchildren, h.finish, hrepeat]
    rfl

theorem Leads.nearestIteration (h : env.Leads tag scope inner) :
    inner.nearestIteration = scope.nearestIteration := by
  cases h <;> rfl

theorem Reaches.nearestIteration (h : env.Reaches tags scope inner) :
    inner.nearestIteration = scope.nearestIteration := by
  induction h with
  | nil => rfl
  | cons h _ ih => exact ih.trans h.nearestIteration

theorem stacked_ne_nil (tags : List Tag) (hnodes : nodes ≠ []) :
    Markup.stacked tags nodes ≠ [] := by
  cases tags with
  | nil => exact hnodes
  | cons tag tags => exact List.cons_ne_nil _ _

theorem Reaches.render_stacked (h : env.Reaches tags scope inner) (hnodes : nodes ≠ []) :
    env.render (budget + tags.length) (Markup.stacked tags nodes) scope =
      env.render budget nodes inner := by
  induction h with
  | nil => rfl
  | @cons tag tags scope _ _ h _ ih =>
    rw [Markup.stacked, List.length_cons, ← Nat.add_assoc, env.render_tag,
      h.renderTag_around (stacked_ne_nil tags hnodes), ih]

end Stacks

def endTag (structural : Structural) (text : String) : Tag :=
  ⟨structural.name, none, [], [.text text], false⟩

section Ends

variable {env : Environment} {budget : Nat} {tags front back : List Tag} {body : List Node}
  {scope inner : Scope} {iteration : Iteration} {text first last : String}

theorem Reaches.render_endTag (h : env.Reaches tags scope inner) {structural : Structural}
    {atEnd : Iteration → Bool}
    (hmarker : ∀ render budget o,
      env.renderStructural render budget o structural = env.renderMarker render o atEnd)
    (hnearest : scope.nearestIteration = some iteration) (hbudget : tags.length + 2 ≤ budget) :
    env.render budget (Markup.stacked tags [.tag (endTag structural text)]) scope =
      pure (if atEnd iteration then text else "") := by
  obtain ⟨more, rfl⟩ := Nat.exists_eq_add_of_le' hbudget
  have hnearest : inner.nearestIteration = some iteration := h.nearestIteration.trans hnearest
  rw [Nat.add_comm tags.length 2, ← Nat.add_assoc, h.render_stacked (List.cons_ne_nil _ _),
    env.render_tag, env.renderTag_of_no_attributes _ _ rfl,
    env.renderWith_structural _ _ structural rfl rfl, hmarker]
  unfold renderMarker Occurrence.enclosed endTag
  dsimp only
  rw [hnearest, env.render_text, pure_bind, env.finish_of_no_options]
  dsimp only
  split <;> rfl

theorem render_between_endTags {inner' : Scope} (hfront : env.Reaches front scope inner)
    (hback : env.Reaches back scope inner') (hnearest : scope.nearestIteration = some iteration)
    (hbudget : front.length + 2 ≤ budget ∧ back.length + 2 ≤ budget) :
    env.render budget (Markup.stacked front [.tag (endTag .first first)] ++
      (body ++ Markup.stacked back [.tag (endTag .last last)])) scope = (do
        return (if iteration.first then first else "") ++
          ((← env.render budget body scope) ++ if iteration.last then last else "")) := by
  rw [env.render_append, env.render_append,
    hfront.render_endTag (fun _ _ _ => rfl) hnearest hbudget.1,
    hback.render_endTag (fun _ _ _ => rfl) hnearest hbudget.2]
  simp

end Ends

end Environment

theorem join_mapM_ends {α : Type} (f : α × Nat → Action String) (first last : String) (count : Nat)
    {items : List α} (hitems : items ≠ []) (start : Nat) (hcount : start + items.length = count) :
    (do
      let parts ← (items.zipIdx start).mapM fun p => do
        return (if p.2 = 0 then first else "") ++
          ((← f p) ++ if p.2 + 1 = count then last else "")
      return String.join parts) = (do
      let parts ← (items.zipIdx start).mapM f
      return (if start = 0 then first else "") ++ (String.join parts ++ last)) := by
  induction items generalizing start with
  | nil => exact absurd rfl hitems
  | cons item items ih =>
    rw [List.zipIdx_cons, List.mapM_cons, List.mapM_cons]
    rw [List.length_cons] at hcount
    by_cases hmore : items = []
    · subst hmore
      have hend : start + 1 = count := by simpa using hcount
      simp [hend]
    · have hrest := ih hmore (start + 1) (by omega)
      have hinner : start + 1 ≠ count := by
        have := List.length_pos_iff.2 hmore
        omega
      simp only [bind_assoc, pure_bind]
      refine bind_congr fun text => ?_
      have hadded := congrArg
        (fun joined => ((if start = 0 then first else "") ++ text ++ ·) <$> joined) hrest
      simpa [hinner, String.append_assoc] using hadded

theorem Iteration.first_iff (i : Iteration) : i.first = true ↔ i.index = 0 := by
  unfold first
  simp

theorem Iteration.last_iff (i : Iteration) : i.last = true ↔ i.index + 1 = i.length := by
  unfold last
  rw [beq_iff_eq]
  omega

theorem Occurrence.itemContent_eq_pure (o : Occurrence) (render : Renderer) {v : HostValue}
    (h : v.every HostValue.isPlain) : o.itemContent render v = pure v.plainContent := by
  have hplain := v.isPlain_plainContent h
  unfold itemContent
  rw [Content.ofHost_eq_pure (HostValue.every_self h), pure_bind]
  split
  · next f hf =>
    rw [hf] at hplain
    cases hplain
  · rfl

section Repetitions

variable {env : Environment} {budget : Nat} {name : String} {scope : Scope} {items : List HostValue}
  (hpositive : Environment.negated? name = none)
  (hordinary : Environment.Structural.ofName? name = none)
  (hplain : scope.IsPlain) (hlookup : scope.lookup name = pure (.array items))

include hplain hlookup in
theorem items_plain_of_lookup : ∀ v ∈ items, v.every HostValue.isPlain := by
  obtain ⟨c, hc, hfound⟩ := Scope.lookup_eq_pure hplain name
  have heq : (.ok (.array items), {}) = ((.ok c, {}) : Except Fault Content × State) :=
    congrArg (perform · {}) (hlookup.symm.trans hfound)
  cases heq
  exact everyItem_iff.1 hc

include hpositive hordinary hplain hlookup

theorem render_repeated {children : List Node} (hchildren : children ≠ []) (closing : Bool) :
    env.render (budget + 1) [.tag ⟨name, none, [], children, closing⟩] scope = (do
      let parts ← items.zipIdx.mapM fun p =>
        env.render budget children (scope.atItem p.1.plainContent ⟨p.2, items.length⟩)
      return String.join parts) := by
  let o : Occurrence := ⟨⟨name, none, [], children, closing⟩, [], scope, scope⟩
  have hplain := items_plain_of_lookup hplain hlookup
  have hitem : ∀ p ∈ items.zipIdx, o.item (env.render budget) ⟨p.2, items.length⟩ p.1 =
      env.render budget children (scope.atItem p.1.plainContent ⟨p.2, items.length⟩) := by
    intro p hp
    unfold Occurrence.item
    rw [o.itemContent_eq_pure _ (hplain p.1 (List.fst_mem_of_mem_zipIdx hp)), pure_bind,
      if_neg (by simpa [o] using hchildren)]
    rfl
  have hshown : env.showSubject (env.render budget) budget o (.array items) =
      env.showContent (env.render budget) o (.array items) := rfl
  rw [env.render_tag, env.renderTag_bare _ _ hpositive hordinary, hlookup, pure_bind, hshown,
    env.showContent_array _ rfl, mapM_congr hitem]

end Repetitions

end TagTemplate
