import TagTemplate.Proofs.Elementwise

/-!
# Two ways to print a list of scalars

A list of scalars can be printed by a tag that encloses nothing, or by a tag around the one for the
item. The first way shows the items inline. The second one binds each item to a name and looks it up
again. Null is not bound, so that the second way shows for it what the name means further out.
-/

namespace TagTemplate

open Markup (Node Tag)
open TagTemplate.Action

/-- The tag `<pop:value/>`. -/
def itemTag : Tag := ⟨"value", none, [], [], true⟩

/-- The tag around other nodes. -/
def Markup.Tag.around (tag : Tag) (ns : List Node) : Tag :=
  { tag with children := ns, selfClosing := ns.isEmpty }

/-- The attributes that say how a list is printed, apart from escaping. -/
def printingNames : List String := ["break", "last", "wrap", "class", "default"]

namespace HostValue

/-- Null, a truth value, a number or a text. -/
def isScalar : HostValue → Bool
  | .null | .bool _ | .number _ | .string _ => true
  | _ => false

def scalarText : HostValue → Except Fault String
  | .bool b => .ok (if b then "true" else "false")
  | .number n => if n.isShowable then .ok (Html.escape n.text) else .error .badNumber
  | .string text => .ok (Html.escape text)
  | _ => .ok ""

end HostValue

def Content.isBlank : Content → Bool
  | .missing | .null => true
  | .string text => text = ""
  | .array items => items.isEmpty
  | _ => false

/-- The scope of an item of a list. -/
def Scope.atItem (scope : Scope) (c : Content) (iteration : Iteration) : Scope :=
  scope.push { value := c, bindings := itemBindings c, iteration := some iteration }

/-- For an item that is null, the tag for the item shows nothing of what its name means around the
list. -/
def Environment.ShowsNoOuter (env : Environment) (budget : Nat) (parent : Scope) : Prop :=
  ∀ iteration s, let scope := parent.atItem .null iteration
    (perform (do
      env.showSubject (env.render budget) budget ⟨itemTag, [], scope, scope⟩
        (← parent.lookup "value")) s).1 = .ok ""

section Scopes

variable {parent : Scope} {iteration : Iteration} {c : Content}

theorem lookup_atItem (hbound : (itemBindings c).lookup "value" = some c) :
    (parent.atItem c iteration).lookup "value" = pure c := by
  unfold Scope.lookup Scope.frames
  simp only [Scope.atItem, Scope.push, Scope.lookupIn, Frame.own, hbound, pure_bind]
  cases c with
  | missing => cases hbound
  | _ => rfl

theorem lookup_atItem_null :
    (parent.atItem .null iteration).lookup "value" = parent.lookup "value" := by
  unfold Scope.lookup Scope.frames
  simp [Scope.atItem, Scope.push, Scope.lookupIn, Frame.own, itemBindings, Content.get,
    Scope.frames]

end Scopes

section Items

variable {env : Environment} {budget : Nat} {parent : Scope}

theorem render_itemTag (c : Content) (iteration : Iteration) :
    let scope := parent.atItem c iteration
    env.render (budget + 1) [.tag itemTag] scope = (do
      env.showSubject (env.render budget) budget ⟨itemTag, [], scope, scope⟩
        (← scope.lookup "value")) := by
  intro scope
  rw [env.render_tag, env.renderTag_of_no_attributes _ _ rfl,
    env.renderWith_structural _ _ .value rfl rfl]
  rfl

theorem showsNoOuter_of_isBlank
    (h : ∀ s, ∃ c t, perform (parent.lookup "value") s = (.ok c, t) ∧ c.isBlank) :
    env.ShowsNoOuter budget parent := by
  intro iteration s scope
  obtain ⟨c, t, hlookup, hblank⟩ := h s
  rw [perform_bind_ok hlookup]
  cases c with
  | missing => rfl
  | null => rfl
  | string text =>
    obtain rfl : text = "" := by simpa [Content.isBlank] using hblank
    rfl
  | array items =>
    obtain rfl : items = [] := by simpa [Content.isBlank] using hblank
    rfl
  | _ => cases hblank

theorem render_itemTag_of_bound (hfilters : env.filters = []) {c : Content} (hc : c.isCalled)
    (hbound : (itemBindings c).lookup "value" = some c) (iteration : Iteration) :
    env.render (budget + 1) [.tag itemTag] (parent.atItem c iteration) = c.inline [] := by
  let scope := parent.atItem c iteration
  have hends : ∀ f, c ≠ .callable f := by
    rintro f rfl
    cases hc
  have hshown : env.showContent (env.render budget) ⟨itemTag, [], scope, scope⟩ c = c.inline [] :=
    showContent_eq_inline hfilters rfl (fun _ _ => rfl) hc
  rw [render_itemTag, lookup_atItem hbound, pure_bind, env.showSubject_of_ends hends, hshown]

variable {tag : Tag} {options : Options} {scope : Scope} {v : HostValue}

theorem perform_inline_scalar (hescape : options.lookup "escape" = none) (hv : v.isScalar)
    (s : State) : perform (v.inline options) s = (v.scalarText, s) := by
  have htext : ∀ text, showText text options = Html.escape text := by
    intro text
    unfold showText
    rw [hescape]
    rfl
  cases v with
  | null => rfl
  | bool b => rfl
  | number n =>
    simp only [HostValue.inline, showNumber_eq, htext, HostValue.scalarText]
    split <;> rfl
  | string text =>
    simp only [HostValue.inline, htext, HostValue.scalarText]
    rfl
  | _ => cases hv

theorem exists_ofHost_scalar (hv : v.isScalar) : ∃ c, Content.ofHost v = pure c ∧
    ((v = .null ∧ c = .null) ∨ (c.isCalled ∧ (itemBindings c).lookup "value" = some c)) := by
  cases v with
  | null => exact ⟨.null, rfl, .inl ⟨rfl, rfl⟩⟩
  | bool b => exact ⟨.bool b, rfl, .inr ⟨rfl, rfl⟩⟩
  | number n => exact ⟨.number n, rfl, .inr ⟨rfl, rfl⟩⟩
  | string text => exact ⟨.string text, rfl, .inr ⟨rfl, rfl⟩⟩
  | _ => cases hv

theorem itemContent_scalar {o : Occurrence} {render : Renderer} (hv : v.isScalar) :
    o.itemContent render v = Content.ofHost v := by
  refine o.itemContent_of_not_isFunction ?_
  cases v with
  | null => rfl
  | bool b => rfl
  | number n => rfl
  | string text => rfl
  | _ => cases hv

theorem item_inline (hescape : options.lookup "escape" = none) (hv : v.isScalar)
    (render : Renderer) (iteration : Iteration) (s : State) :
    (perform (Occurrence.item ⟨tag.around [], options, scope, parent⟩ render iteration v) s).1 =
      v.scalarText := by
  rw [Occurrence.item_eq rfl, itemContent_scalar hv, ← HostValue.inline_eq,
    perform_inline_scalar hescape hv]

theorem item_looked_up (hfilters : env.filters = []) (hv : v.isScalar)
    (hnull : v = .null → env.ShowsNoOuter budget parent) (iteration : Iteration) (s : State) :
    (perform (Occurrence.item ⟨tag.around [.tag itemTag], options, scope, parent⟩
      (env.render (budget + 1)) iteration v) s).1 = v.scalarText := by
  obtain ⟨c, hc, hcases⟩ := exists_ofHost_scalar hv
  have hitem : Occurrence.item ⟨tag.around [.tag itemTag], options, scope, parent⟩
      (env.render (budget + 1)) iteration v =
        env.render (budget + 1) [.tag itemTag] (parent.atItem c iteration) := by
    unfold Occurrence.item
    rw [itemContent_scalar hv, hc, pure_bind]
    rfl
  rw [hitem]
  rcases hcases with ⟨rfl, rfl⟩ | ⟨hcalled, hbound⟩
  · rw [render_itemTag, lookup_atItem_null]
    exact hnull rfl iteration s
  · have hinline : v.inline [] = c.inline [] := by rw [HostValue.inline_eq, hc, pure_bind]
    rw [render_itemTag_of_bound hfilters hcalled hbound, ← hinline, perform_inline_scalar rfl hv]

end Items

section Tags

variable {env : Environment} {tag : Tag} {scope parent : Scope}
  {meaning : Action (Content × Scope)} {items : List HostValue} {options : Options}
  {s s₁ s₂ : State}

theorem fst_perform_renderTag_texts (hfilters : env.filters = []) {render : Renderer}
    {budget : Nat} {ns : List Node} (hnames : ∀ p ∈ tag.attributes, p.1 ∈ printingNames)
    (hpositive : Environment.negated? tag.name = none)
    (hmeaning : env.meaning? tag scope = some meaning)
    (hoptions : perform (optionsOf render scope tag) s = (.ok options, s₁))
    (hsubject : perform meaning s₁ = (.ok (.array items, parent), s₂))
    (hitems : ∀ v ∈ items, ∀ iteration s,
      (perform (Occurrence.item ⟨tag.around ns, options, scope, parent⟩ render iteration v) s).1 =
        v.scalarText) :
    (perform (env.renderTag render budget (tag.around ns) scope) s).1 = (do
      let texts ← items.mapM HostValue.scalarText
      return orDefault (Environment.wrapped (Html.join texts options) options) options) := by
  have hunnamed : ∀ name ∉ printingNames, options.lookup name = none :=
    fun name hname => lookup_of_perform_optionsOf hoptions hnames hname
  let o : Occurrence := ⟨tag.around ns, options, scope, parent⟩
  have hoptions : perform (optionsOf render scope (tag.around ns)) s = (.ok options, s₁) := hoptions
  have hmeaning : env.meaning? (tag.around ns) scope = some meaning := hmeaning
  have htaken : o.taken (.array items) = .array items :=
    Occurrence.taken_of_no_window (hunnamed "skip" (by decide)) (hunnamed "limit" (by decide))
  have hends : ∀ f, Content.array items ≠ .callable f := nofun
  have hshown : env.renderAs render budget o (.array items) = (do
      let texts ← items.zipIdx.mapM fun p => o.item render ⟨p.2, items.length⟩ p.1
      return orDefault (Environment.wrapped (Html.join texts options) options) options) := by
    rw [env.renderAs_of_ends (o := o) hpositive hends htaken,
      env.showContent_repeated (hunnamed "repeat" (by decide))]
    simp [Environment.repetition, env.finish_of_no_filters hfilters, o]
  have htexts : ∀ s, (perform (items.zipIdx.mapM fun p =>
      o.item render ⟨p.2, items.length⟩ p.1) s).1 = items.mapM HostValue.scalarText := by
    intro s
    rw [fst_perform_mapM fun p hp => hitems p.1 (List.fst_mem_of_mem_zipIdx hp) _,
      mapM_zipIdx items HostValue.scalarText]
  rw [env.perform_renderTag_of_meaning render budget hmeaning hoptions hsubject, hshown,
    bind_pure_comp, perform_map, htexts, bind_pure_comp]
  rfl

/-- A list of scalars is printed alike by the tag that encloses nothing and by the tag around the
one for the item, unless null is among the items and the name of an item means something around. -/
theorem render_around_itemTag {budget : Nat} (hfilters : env.filters = [])
    (hnames : ∀ p ∈ tag.attributes, p.1 ∈ printingNames)
    (hpositive : Environment.negated? tag.name = none)
    (hmeaning : env.meaning? tag scope = some meaning)
    (hoptions : perform (optionsOf (env.render (budget + 1)) scope tag) s = (.ok options, s₁))
    (hsubject : perform meaning s₁ = (.ok (.array items, parent), s₂))
    (hscalars : ∀ v ∈ items, v.isScalar)
    (hnull : .null ∈ items → env.ShowsNoOuter budget parent) :
    (perform (env.render (budget + 2) [.tag (tag.around [.tag itemTag])] scope) s).1 =
      (perform (env.render (budget + 2) [.tag (tag.around [])] scope) s).1 := by
  have hescape : options.lookup "escape" = none :=
    lookup_of_perform_optionsOf hoptions hnames (by decide)
  have hlooked : ∀ v ∈ items, ∀ iteration s,
      (perform (Occurrence.item ⟨tag.around [.tag itemTag], options, scope, parent⟩
        (env.render (budget + 1)) iteration v) s).1 = v.scalarText := by
    intro v hv iteration s
    exact item_looked_up hfilters (hscalars v hv) (fun h => hnull (h ▸ hv)) iteration s
  have hinline : ∀ v ∈ items, ∀ iteration s,
      (perform (Occurrence.item ⟨tag.around [], options, scope, parent⟩
        (env.render (budget + 1)) iteration v) s).1 = v.scalarText := by
    intro v hv iteration s
    exact item_inline hescape (hscalars v hv) _ iteration s
  rw [env.render_tag, env.render_tag,
    fst_perform_renderTag_texts hfilters hnames hpositive hmeaning hoptions hsubject hlooked,
    fst_perform_renderTag_texts hfilters hnames hpositive hmeaning hoptions hsubject hinline]

end Tags

/-- Null where the name of an item means an empty text around, in the item of a repetition. -/
theorem render_around_itemTag_blank :
    let items := [HostValue.string "a&b", .string "", .bool false, .null, .number (.integer 2)]
    let options : Options := [("break", ", "), ("last", " and "), ("wrap", "p"), ("default", "-")]
    let tag : Tag := ⟨"xs", none, options.map fun p => (p.1, .literal p.2), [], true⟩
    let outermost : Frame := { value := .null, bindings := [("xs", .array items)] }
    let scope := Scope.atItem ⟨outermost, []⟩ (.string "") ⟨0, 1⟩
    let meaning : Action (Content × Scope) := do return (← scope.lookup "xs", scope)
    Environment.negated? tag.name = none ∧ Environment.meaning? {} tag scope = some meaning ∧
      perform (optionsOf (Environment.render {} 1) scope tag) {} = (.ok options, {}) ∧
      perform meaning {} = (.ok (.array items, scope), {}) ∧ (∀ v ∈ items, v.isScalar) ∧
      Environment.ShowsNoOuter {} 0 scope ∧
      (perform (Environment.render {} 2 [.tag (tag.around [])] scope) {}).1 =
        .ok "<p>a&amp;b, false and 2</p>" ∧
      (perform (Environment.render {} 2 [.tag (tag.around [.tag itemTag])] scope) {}).1 =
        .ok "<p>a&amp;b, false and 2</p>" := by
  intro items options tag outermost scope meaning
  have hpositive : Environment.negated? tag.name = none := by decide
  have hmeaning : Environment.meaning? {} tag scope = some meaning :=
    Environment.meaning?_of_ordinary {} rfl hpositive (by decide)
  have hscalars : ∀ v ∈ items, v.isScalar := by simp [items, HostValue.isScalar]
  have hnull : Environment.ShowsNoOuter {} 0 scope :=
    showsNoOuter_of_isBlank fun s => ⟨.string "", s, rfl, by decide⟩
  have hinline : (perform (Environment.render {} 2 [.tag (tag.around [])] scope) {}).1 =
      .ok "<p>a&amp;b, false and 2</p>" := by decide +kernel
  refine ⟨hpositive, hmeaning, rfl, rfl, hscalars, hnull, hinline, ?_⟩
  rw [← hinline]
  exact render_around_itemTag rfl (by decide) hpositive hmeaning rfl rfl hscalars fun _ => hnull

/-- Where the name of an item means something around, it shows for null. -/
theorem render_around_itemTag_outer :
    let items := [HostValue.string "a", .null]
    let tag : Tag := ⟨"xs", none, [], [], true⟩
    let scope : Scope :=
      ⟨{ value := .null, bindings := [("xs", .array items), ("value", .string "V")] }, []⟩
    (perform (Environment.render {} 2 [.tag (tag.around [])] scope) {}).1 = .ok "a" ∧
      (perform (Environment.render {} 2 [.tag (tag.around [.tag itemTag])] scope) {}).1 =
        .ok "aV" := by
  intro items tag scope
  refine ⟨?_, ?_⟩
  · decide +kernel
  · decide +kernel

end TagTemplate
