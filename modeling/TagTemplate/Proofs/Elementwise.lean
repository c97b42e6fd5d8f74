import TagTemplate.Proofs.Inlining
import TagTemplate.Proofs.Meaning

/-!
# Lists are shown item by item

A tag that encloses nothing shows a list by showing each item alone, one after the other, and
joining what it has shown. Inside a list, items are shown in a simpler way than what a name means:
a function among them is called, but nothing that it returns is, and no function in a list in the
list. This is where the two ways differ.
-/

namespace TagTemplate

open Markup (Tag)
open TagTemplate.Action

def HostValue.isFunction : HostValue → Bool
  | .function _ | .content (.callable _) => true
  | _ => false

/-- There is nothing left to call: neither the content itself nor one of its items. -/
def Content.isCalled : Content → Bool
  | .callable _ => false
  | .array items => items.all fun v => !v.isFunction
  | _ => true

theorem Content.isCalled_array {items : List HostValue} :
    (Content.array items).isCalled ↔ ∀ v ∈ items, v.isFunction = false := by
  simp [isCalled]

theorem inlineItems_eq_mapM (items : List HostValue) (options : Options) :
    inlineItems items options = items.mapM fun v => v.inline options := by
  induction items with
  | nil => rfl
  | cons v items ih => rw [inlineItems, List.mapM_cons, ih]

theorem mapM_zipIdx {m : Type → Type} [Monad m] [LawfulMonad m] {α β : Type} (xs : List α)
    (f : α → m β) (start : Nat) :
    ((xs.zipIdx start).mapM fun p => f p.1) = xs.mapM f := by
  induction xs generalizing start with
  | nil => rfl
  | cons x xs ih => rw [List.zipIdx_cons, List.mapM_cons, List.mapM_cons, ih]

theorem Occurrence.itemContent_of_not_isFunction {o : Occurrence} {render : Renderer}
    {v : HostValue} (h : v.isFunction = false) :
    o.itemContent render v = Content.ofHost v := by
  unfold itemContent
  cases v with
  | function f => cases h
  | stream id items => simp [Content.ofHost]
  | object object => simp [Content.ofHost]
  | content c =>
    cases c with
    | callable f => cases h
    | _ => rfl
  | _ => rfl

section Items

variable {env : Environment} {render : Renderer} {budget : Nat} {o : Occurrence}
  (hfilters : env.filters = []) (hchildren : o.tag.children = [])
  (hattributes : ∀ name ∉ Options.inlineNames, o.options.lookup name = none)

include hfilters hattributes in
theorem finish_joined (text : String) : env.finish text o.options = pure text := by
  refine env.finish_of_no_attribute text ?_ (hattributes "wrap" (by decide))
  rw [hfilters]
  nofun

include hchildren in
theorem Occurrence.item_eq (iteration : Iteration) (v : HostValue) :
    o.item render iteration v = o.itemContent render v >>= fun c => c.inline o.options := by
  unfold item
  rw [hchildren]
  rfl

include hfilters hchildren hattributes

theorem showContent_items (items : List HostValue) :
    env.showContent render o (.array items) = (do
      let parts ← items.mapM fun v => o.itemContent render v >>= fun c => c.inline o.options
      return Html.join parts o.options) := by
  rw [env.showContent_repeated (hattributes "repeat" (by decide))]
  unfold Environment.repetition
  simp only [o.item_eq hchildren, finish_joined hfilters hattributes]
  rw [mapM_zipIdx items fun v => o.itemContent render v >>= fun c => c.inline o.options]

theorem showContent_eq_inline {c : Content} (hc : c.isCalled) :
    env.showContent render o c = c.inline o.options := by
  have hfinish := finish_joined hfilters hattributes
  unfold Environment.showContent
  cases c with
  | missing => rfl
  | null => rfl
  | callable f => cases hc
  | bool b => cases b <;> simp [hchildren, hfinish, Content.inline]
  | number n => simp [hchildren, hfinish, Content.inline]
  | object object => simp [hchildren, hfinish, Content.inline]
  | string text =>
    by_cases htext : text = ""
    · subst htext
      simp [Content.inline, showText_empty]
    · simp [hchildren, hfinish, Content.inline, htext]
  | array items =>
    have hitems : (items.mapM fun v => o.itemContent render v >>= fun c => c.inline o.options) =
        inlineItems items o.options := by
      rw [inlineItems_eq_mapM]
      refine mapM_congr fun v hv => ?_
      have hv := Content.isCalled_array.1 hc v hv
      rw [o.itemContent_of_not_isFunction hv, HostValue.inline_eq]
    change env.showContent render o (.array items) = _
    rw [showContent_items hfilters hchildren hattributes, hitems, Content.inline]

variable (hpositive : Environment.negated? o.tag.name = none)

include hpositive

theorem renderAs_eq_inline {c : Content} (hc : c.isCalled) :
    env.renderAs render budget o c = c.inline o.options := by
  have hends : ∀ f, c ≠ .callable f := by
    rintro f rfl
    cases hc
  have htaken : o.taken c = c :=
    Occurrence.taken_of_no_window (hattributes "skip" (by decide)) (hattributes "limit" (by decide))
  have hdefault := fun text => orDefault_of_no_default text (hattributes "default" (by decide))
  rw [env.renderAs_of_ends (o := o) hpositive hends htaken,
    showContent_eq_inline hfilters hchildren hattributes hc]
  simp only [hdefault, bind_pure]

theorem renderAs_function (hbudget : 0 < budget) {f : HostFunction}
    (hf : ∀ {s c t}, perform (o.call render f) s = (.ok c, t) → c.isCalled) :
    env.renderAs render budget o (.callable f) =
      o.call render f >>= fun c => c.inline o.options := by
  obtain ⟨budget, rfl⟩ := Nat.exists_eq_add_of_lt hbudget
  have hdefault := fun text => orDefault_of_no_default text (hattributes "default" (by decide))
  have hperform : ∀ s, perform (env.renderAs render (0 + budget + 1) o (.callable f)) s =
      perform (o.call render f >>= fun c => c.inline o.options) s := by
    intro s
    unfold Environment.renderAs Environment.renderSubject
    rw [hpositive]
    simp only [hdefault, bind_pure]
    change perform (o.settle render (0 + budget + 1) f >>= env.showReturned render o) s = _
    unfold Occurrence.settle
    rw [bind_assoc]
    refine perform_bind_congr fun c t hc => ?_
    have hcalled := hf hc
    have hshown : env.showContent render o c = c.inline o.options :=
      showContent_eq_inline hfilters hchildren hattributes hcalled
    have hreturned : env.showReturned render o c = env.showContent render o c := by
      simp [Environment.showReturned, hchildren]
    cases c with
    | callable g => cases hcalled
    | _ => rw [pure_bind, hreturned, hshown]
  exact funext hperform

theorem renderAs_item (hbudget : 0 < budget) {v : HostValue}
    (hv : ∀ s c t, perform (o.itemContent render v) s = (.ok c, t) → c.isCalled) :
    (Content.ofHost v >>= env.renderAs render budget o) =
      o.itemContent render v >>= fun c => c.inline o.options := by
  cases hfunction : v.isFunction with
  | true =>
    obtain ⟨f, hcontent, hitem⟩ : ∃ f, Content.ofHost v = pure (.callable f) ∧
        o.itemContent render v = o.call render f := by
      cases v with
      | function f => exact ⟨f, rfl, rfl⟩
      | content c =>
        cases c with
        | callable f => exact ⟨f, rfl, rfl⟩
        | _ => cases hfunction
      | _ => cases hfunction
    rw [hitem] at hv ⊢
    rw [hcontent, pure_bind]
    exact renderAs_function hfilters hchildren hattributes hpositive hbudget (hv _ _ _)
  | false =>
    rw [o.itemContent_of_not_isFunction hfunction] at hv ⊢
    have hperform : ∀ s, perform (Content.ofHost v >>= env.renderAs render budget o) s =
        perform (Content.ofHost v >>= fun c => c.inline o.options) s := by
      intro s
      refine perform_bind_congr fun c t hc => ?_
      rw [renderAs_eq_inline hfilters hchildren hattributes hpositive (hv s c t hc)]
    exact funext hperform

end Items

theorem Action.fst_perform_mapM {α β : Type} {f : α → Action β} {r : α → Except Fault β}
    {xs : List α} (h : ∀ x ∈ xs, ∀ s, (perform (f x) s).1 = r x) (s : State) :
    (perform (xs.mapM f) s).1 = xs.mapM r := by
  induction xs generalizing s with
  | nil => rfl
  | cons x xs ih =>
    have hx := h x List.mem_cons_self s
    have hxs := ih fun y hy => h y (List.mem_cons_of_mem x hy)
    rw [List.mapM_cons, List.mapM_cons, ← hx, perform_bind]
    rcases perform (f x) s with ⟨e | y, t⟩
    · rfl
    · dsimp only
      rw [bind_pure_comp, perform_map, hxs t]
      rfl

section Tags

variable {env : Environment} {render : Renderer} {budget : Nat} {tag : Tag} {options : Options}
  {scope parent : Scope} {meaning : Action (Content × Scope)} {items : List HostValue}
  {s s₁ s₂ : State}

/-- A tag that encloses nothing shows a list as it shows the items alone, one after the other, and
joined. No item may come to a function after it has been called, nor to a list with functions in
it. Where an item alone shows the same in every state, it shows that among the others too. -/
theorem renderTag_elementwise (hfilters : env.filters = []) (hchildren : tag.children = [])
    (hnames : ∀ p ∈ tag.attributes, p.1 ∈ Options.inlineNames)
    (hpositive : Environment.negated? tag.name = none)
    (hmeaning : env.meaning? tag scope = some meaning)
    (hoptions : perform (optionsOf render scope tag) s = (.ok options, s₁))
    (hsubject : perform meaning s₁ = (.ok (.array items, parent), s₂)) (hbudget : 0 < budget)
    (hitems : ∀ v ∈ items, ∀ s c t,
      perform (Occurrence.itemContent ⟨tag, options, scope, parent⟩ render v) s = (.ok c, t) →
        c.isCalled) :
    let alone (v : HostValue) : Action String :=
      Content.ofHost v >>= env.renderAs render budget ⟨tag, options, scope, parent⟩
    perform (env.renderTag render budget tag scope) s =
        perform (do return Html.join (← items.mapM alone) options) s₂ ∧
      ∀ shown : HostValue → Except Fault String,
        (∀ v ∈ items, ∀ s, (perform (alone v) s).1 = shown v) →
          (perform (env.renderTag render budget tag scope) s).1 = (do
            return Html.join (← items.mapM shown) options) := by
  intro alone
  have hattributes : ∀ name ∉ Options.inlineNames, options.lookup name = none :=
    fun name hname => lookup_of_perform_optionsOf hoptions hnames hname
  let o : Occurrence := ⟨tag, options, scope, parent⟩
  have hshown : env.renderAs render budget o (.array items) = (do
      return Html.join (← items.mapM alone) options) := by
    have htaken : o.taken (.array items) = .array items := Occurrence.taken_of_no_window
      (hattributes "skip" (by decide)) (hattributes "limit" (by decide))
    have hends : ∀ f, Content.array items ≠ .callable f := nofun
    have hdefault := fun text => orDefault_of_no_default text (hattributes "default" (by decide))
    have halone : items.mapM alone =
        items.mapM fun v => o.itemContent render v >>= fun c => c.inline options :=
      mapM_congr fun v hv =>
        renderAs_item (o := o) hfilters hchildren hattributes hpositive hbudget (hitems v hv)
    rw [env.renderAs_of_ends (o := o) hpositive hends htaken,
      showContent_items (o := o) hfilters hchildren hattributes, halone]
    simp [o, hdefault]
  have hrun : perform (env.renderTag render budget tag scope) s =
      perform (do return Html.join (← items.mapM alone) options) s₂ := by
    rw [env.perform_renderTag_of_meaning render budget hmeaning hoptions hsubject, ← hshown]
  refine ⟨hrun, fun shown hshown => ?_⟩
  rw [hrun, bind_pure_comp, perform_map, fst_perform_mapM hshown, bind_pure_comp]
  rfl

end Tags

/-- A list in the list, an object with markup of its own and a function that returns a list. -/
theorem renderTag_elementwise_nested :
    let pair : HostFunction :=
      ⟨⟨0, none, false⟩, none, .value (.list [.string "x", .string "y"])⟩
    let object : HostObject := .mapping [("html", .string "<i>")]
    let items := [HostValue.null, .string "a&b", .list [.number (.integer 1), .list [.bool true]],
      .object object, .function pair]
    let options : Options := [("break", ", "), ("last", " and ")]
    let tag : Tag := ⟨"xs", none, options.map fun p => (p.1, .literal p.2), [], true⟩
    let scope : Scope := ⟨{ value := .null, bindings := [("xs", .array items)] }, []⟩
    let o : Occurrence := ⟨tag, options, scope, scope⟩
    let meaning : Action (Content × Scope) := do return (← scope.lookup "xs", scope)
    let render := Environment.render {} 1
    let alone (v : HostValue) : Action String :=
      Content.ofHost v >>= Environment.renderAs {} render 1 o
    Environment.negated? tag.name = none ∧ Environment.meaning? {} tag scope = some meaning ∧
      perform (optionsOf render scope tag) {} = (.ok options, {}) ∧
      perform meaning {} = (.ok (.array items, scope), {}) ∧
      (∀ v ∈ items, ∀ s c t, perform (o.itemContent render v) s = (.ok c, t) → c.isCalled) ∧
      (perform (Environment.renderTag {} render 1 tag scope) {}).1 =
        .ok "a&amp;b, 1 and true, <i> and x and y" ∧
      perform (Environment.renderTag {} render 1 tag scope) {} =
        perform (do return Html.join (← items.mapM alone) options) {} := by
  intro pair object items options tag scope o meaning render alone
  have hpositive : Environment.negated? tag.name = none := by decide
  have hmeaning : Environment.meaning? {} tag scope = some meaning :=
    Environment.meaning?_of_ordinary {} rfl hpositive (by decide)
  have hitems : ∀ v ∈ items, ∀ s c t,
      perform (o.itemContent render v) s = (.ok c, t) → c.isCalled := by
    intro v hv s c t h
    simp only [items, List.mem_cons, List.not_mem_nil, or_false] at hv
    rcases hv with rfl | rfl | rfl | rfl | rfl
    · cases h
      rfl
    · cases h
      rfl
    · cases h
      rfl
    · cases h
      rfl
    · cases h
      rfl
  refine ⟨hpositive, hmeaning, rfl, rfl, hitems, by decide +kernel, ?_⟩
  exact (renderTag_elementwise rfl rfl (by decide) hpositive hmeaning rfl rfl (by decide)
    hitems).1

/-- Functions in a list in the list and functions that functions return are called for an item
alone, but not for it among others. -/
theorem renderTag_elementwise_uncalled :
    let give : HostFunction := ⟨⟨0, none, false⟩, none, .value (.string "b")⟩
    let outer : HostFunction := ⟨⟨0, none, false⟩, none, .value (.function give)⟩
    let items := [HostValue.list [.string "a", .function give], .function outer]
    let tag : Tag := ⟨"xs", none, [], [], true⟩
    let scope : Scope := ⟨{ value := .null, bindings := [("xs", .array items)] }, []⟩
    let o : Occurrence := ⟨tag, [], scope, scope⟩
    let render := Environment.render {} 1
    let alone (v : HostValue) : Action String :=
      Content.ofHost v >>= Environment.renderAs {} render 2 o
    (perform (Environment.renderTag {} render 2 tag scope) {}).1 = .ok "a" ∧
      (perform (items.mapM alone) {}).1 = .ok ["ab", "b"] ∧ Html.join ["ab", "b"] [] = "abb" := by
  intro give outer items tag scope o render alone
  refine ⟨?_, ?_, ?_⟩
  · decide +kernel
  · decide +kernel
  · decide +kernel

end TagTemplate
