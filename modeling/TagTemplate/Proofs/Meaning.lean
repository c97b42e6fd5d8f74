import TagTemplate.Proofs.Reordering.Values

/-!
# What a name means, and what a tag shows of it

A tag evaluates its attributes, then finds out what its name means, and then shows something of
that. The last step makes sense for any content: it is what the tag shows as if its name meant that
content.
-/

namespace TagTemplate

open Markup (Node Tag)
open TagTemplate.Action

/-- The tag shows the items of an array, and some attributes say which. -/
def Markup.Tag.ShowsItems (tag : Tag) : Prop := tag.extension = none ∧ tag.name = "values"

instance (tag : Tag) : Decidable tag.ShowsItems :=
  inferInstanceAs (Decidable (tag.extension = none ∧ tag.name = "values"))

def Occurrence.taken (o : Occurrence) : Content → Content
  | .array items =>
    if o.tag.ShowsItems then
      .array (Content.window items ((Environment.numberOption o.options "skip").getD 0)
        (Environment.numberOption o.options "limit"))
    else .array items
  | c => c

namespace Environment

/-- What the name of a tag means, with the scope around what the tag encloses. Of the structural
tags only those for items look a name up, and that for one item not where an array is shown as a
whole. -/
def meaning? (env : Environment) (tag : Tag) (scope : Scope) : Option (Action (Content × Scope)) :=
  match tag.extension with
  | some extension => some do
    match ← env.extension extension scope with
    | none => return (.missing, scope)
    | some home => return (← home.own ((negated? tag.name).getD tag.name), home)
  | none =>
    match negated? tag.name with
    | some name => some do return (← scope.lookup name, scope)
    | none =>
      match Structural.ofName? tag.name with
      | none => some do return (← scope.lookup tag.name, scope)
      | some .value =>
        if scope.frame.collection then none
        else some do return (← scope.lookup "value", scope)
      | some .values => some do return (← scope.lookup "values", scope)
      | some _ => none

def renderAs (env : Environment) (render : Renderer) (budget : Nat) (o : Occurrence) (c : Content) :
    Action String := do
  return orDefault
    (← env.renderSubject render budget o (negated? o.tag.name).isSome (o.taken c)) o.options

end Environment

namespace Occurrence

variable {o : Occurrence} {c : Content}

theorem taken_of_not_showsItems (h : ¬ o.tag.ShowsItems) : o.taken c = c := by
  unfold taken
  cases c with
  | array items => exact if_neg h
  | _ => rfl

theorem taken_of_not_array (h : ∀ items, c ≠ .array items) : o.taken c = c := by
  cases c with
  | array items => exact absurd rfl (h items)
  | _ => rfl

theorem taken_of_no_window (hskip : o.options.lookup "skip" = none)
    (hlimit : o.options.lookup "limit" = none) : o.taken c = c := by
  cases c with
  | array items =>
    simp [taken, Environment.numberOption, hskip, hlimit, Content.window]
  | _ => rfl

end Occurrence

theorem Html.join_nil (options : Options) : join [] options = "" := by
  unfold join
  split <;> rfl

theorem showText_empty (options : Options) : showText "" options = "" := by
  unfold showText
  split <;> rfl

theorem lookup_of_perform_optionsOf {render : Renderer} {scope : Scope} {tag : Tag}
    {options : Options} {s t : State}
    (h : perform (optionsOf render scope tag) s = (.ok options, t)) {names : List String}
    (hnames : ∀ p ∈ tag.attributes, p.1 ∈ names) {name : String} (hname : name ∉ names) :
    options.lookup name = none := by
  have hoptions := valuesOf_names (valuesOf_of_perform_optionsOf h)
  apply OrderedMap.lookup_eq_none
  intro hmem
  rw [hoptions] at hmem
  obtain ⟨p, hp, rfl⟩ := List.mem_map.1 hmem
  exact hname (hnames p hp)

theorem Markup.Tag.ShowsItems.kind {tag : Tag} (h : tag.ShowsItems) :
    tag.extension = none ∧ Environment.negated? tag.name = none ∧
      Environment.Structural.ofName? tag.name = some .values := by
  obtain ⟨hextension, hname⟩ := h
  rw [hname]
  refine ⟨hextension, ?_, ?_⟩
  · decide
  · rfl

namespace Environment

variable (env : Environment) (render : Renderer) (budget : Nat) {tag : Tag} {scope : Scope}
  {meaning : Action (Content × Scope)}

theorem renderItemValues_eq (o : Occurrence) (h : o.tag.ShowsItems) :
    env.renderItemValues render budget o = (do
      env.showSubject render budget o (o.taken (← o.scope.lookup "values"))) := by
  unfold renderItemValues
  refine bind_congr fun c => ?_
  cases c with
  | array items => simp [Occurrence.taken, h]
  | _ => rfl

theorem renderWith_of_meaning (h : env.meaning? tag scope = some meaning) (options : Options) :
    env.renderWith render budget tag options scope = (do
      let p ← meaning
      let o : Occurrence := ⟨tag, options, scope, p.2⟩
      env.renderSubject render budget o (negated? tag.name).isSome (o.taken p.1)) := by
  -- Only a tag that shows items leaves some out.
  have htaken : ¬ tag.ShowsItems → ∀ parent c,
      Occurrence.taken ⟨tag, options, scope, parent⟩ c = c :=
    fun hitems parent c => Occurrence.taken_of_not_showsItems hitems
  unfold meaning? at h
  cases hextension : tag.extension with
  | some extension =>
    have hitems : ¬ tag.ShowsItems := fun hitems => by
      cases hextension.symm.trans hitems.kind.1
    rw [hextension] at h
    cases h
    unfold renderWith renderExtensionTag
    simp only [hextension, bind_assoc, htaken hitems]
    refine bind_congr fun found => ?_
    cases found with
    | none => rfl
    | some home => simp only [bind_assoc, pure_bind]
  | none =>
    rw [hextension] at h
    cases hnegated : negated? tag.name with
    | some name =>
      have hitems : ¬ tag.ShowsItems := fun hitems => by
        cases hnegated.symm.trans hitems.kind.2.1
      rw [hnegated] at h
      cases h
      unfold renderWith
      simp [hextension, hnegated, htaken hitems]
    | none =>
      rw [hnegated] at h
      cases hstructural : Structural.ofName? tag.name with
      | none =>
        have hitems : ¬ tag.ShowsItems := fun hitems => by
          cases hstructural.symm.trans hitems.kind.2.2
        rw [hstructural] at h
        cases h
        unfold renderWith
        simp [hextension, hnegated, hstructural, htaken hitems]
      | some structural =>
        have hname := Structural.eq_name_of_ofName? hstructural
        rw [hstructural] at h
        rw [env.renderWith_structural render budget structural hextension hname]
        cases structural with
        | value =>
          have hitems : ¬ tag.ShowsItems := fun hitems => by
            cases hstructural.symm.trans hitems.kind.2.2
          dsimp only at h
          by_cases hframe : scope.frame.collection
          · rw [if_pos hframe] at h
            cases h
          · rw [if_neg hframe] at h
            cases h
            simp [renderStructural, renderItemValue, hframe, renderSubject, htaken hitems]
        | values =>
          cases h
          rw [renderStructural, env.renderItemValues_eq render budget _ ⟨hextension, hname⟩]
          simp [renderSubject]
        | _ => cases h

theorem meaning?_of_ordinary (hextension : tag.extension = none)
    (hpositive : negated? tag.name = none) (hordinary : Structural.ofName? tag.name = none) :
    env.meaning? tag scope = some (do return (← scope.lookup tag.name, scope)) := by
  unfold meaning?
  rw [hextension, hpositive, hordinary]

theorem meaning?_of_showsItems (h : tag.ShowsItems) :
    env.meaning? tag scope = some (do return (← scope.lookup "values", scope)) := by
  have hpositive : negated? "values" = none := by decide
  unfold meaning?
  rw [h.1, h.2, hpositive]
  rfl

theorem renderTag_of_meaning (h : env.meaning? tag scope = some meaning) :
    env.renderTag render budget tag scope = (do
      let options ← optionsOf render scope tag
      let p ← meaning
      env.renderAs render budget ⟨tag, options, scope, p.2⟩ p.1) := by
  unfold renderTag
  refine bind_congr fun options => ?_
  rw [env.renderWith_of_meaning render budget h]
  simp only [renderAs, bind_assoc]

theorem perform_renderTag_of_meaning {options : Options} {c : Content} {parent : Scope}
    {s s₁ s₂ : State} (h : env.meaning? tag scope = some meaning)
    (hoptions : perform (optionsOf render scope tag) s = (.ok options, s₁))
    (hsubject : perform meaning s₁ = (.ok (c, parent), s₂)) :
    perform (env.renderTag render budget tag scope) s =
      perform (env.renderAs render budget ⟨tag, options, scope, parent⟩ c) s₂ := by
  rw [env.renderTag_of_meaning render budget h, perform_bind_ok hoptions]
  exact perform_bind_ok hsubject

section Shown

variable {env : Environment} {render : Renderer} {budget : Nat} {o : Occurrence} {c : Content}

theorem showSubject_of_ends (h : ∀ f, c ≠ .callable f) :
    env.showSubject render budget o c = env.showContent render o c := by
  cases c with
  | callable f => exact absurd rfl (h f)
  | _ => rfl

theorem renderAs_of_ends (hpositive : negated? o.tag.name = none) (h : ∀ f, c ≠ .callable f)
    (htaken : o.taken c = c) : env.renderAs render budget o c = (do
      return orDefault (← env.showContent render o c) o.options) := by
  unfold renderAs renderSubject
  rw [hpositive, htaken]
  simp [showSubject_of_ends h]

variable (env) (render) (budget) in
theorem perform_renderTag_of_single {tag : Tag} {options : Options} {scope parent : Scope}
    {meaning : Action (Content × Scope)} {s s₁ s₂ : State} (hpositive : negated? tag.name = none)
    (hends : ∀ f, c ≠ .callable f) (hitems : ∀ items, c ≠ .array items)
    (hmeaning : env.meaning? tag scope = some meaning)
    (hoptions : perform (optionsOf render scope tag) s = (.ok options, s₁))
    (hsubject : perform meaning s₁ = (.ok (c, parent), s₂)) :
    perform (env.renderTag render budget tag scope) s = perform (do
      return orDefault (← env.showContent render ⟨tag, options, scope, parent⟩ c) options) s₂ := by
  let o : Occurrence := ⟨tag, options, scope, parent⟩
  rw [env.perform_renderTag_of_meaning render budget hmeaning hoptions hsubject,
    renderAs_of_ends (o := o) hpositive hends (Occurrence.taken_of_not_array hitems)]

variable (env) in
theorem showContent_repeated (hrepeat : o.options.lookup "repeat" = none)
    (items : List HostValue) :
    env.showContent render o (.array items) = env.repetition render o items := by
  cases items with
  | nil => simp [showContent, repetition, finish, Html.join_nil]
  | cons item items => simp [showContent, hrepeat]

end Shown

end Environment

end TagTemplate
