import TagTemplate.Proofs.Filling
import TagTemplate.Proofs.Inlining
import TagTemplate.Proofs.PlainContent
import TagTemplate.Proofs.Promise.Render

/-!
# Finishing what a tag shows

Some attributes say what a tag shows: how the parts of a repetition are joined, or which template is
included. Others say what becomes of it: the filters that the tag names run on it, `wrap` puts it
into an element, and `default` stands in for nothing. Among plain values these two do not mix. What
a tag without the latter shows is finished once, whatever kind of tag it is.
-/

namespace TagTemplate

open Markup (Node Tag AttributeValue)
open TagTemplate.Action

def shapingNames : List String :=
  ["break", "last", "repeat", "escape", "skip", "limit", "template", "name", "region"]

namespace Environment

def isFinishing (env : Environment) (name : String) : Bool :=
  name ∈ ["wrap", "class", "default"] || OrderedMap.has env.filters name

/-- The attributes that do not say what becomes of what a tag shows. -/
def unfinished {α : Type} (env : Environment) (attributes : List (String × α)) :
    List (String × α) := attributes.filter fun p => !env.isFinishing p.1

/-- The tag without the attributes that say what becomes of what it shows. -/
def bare (env : Environment) (tag : Tag) : Tag :=
  { tag with attributes := env.unfinished tag.attributes }

/-- What becomes of what a tag shows. Unless this is nothing, the filters that the tag names run on
it in the order of their registration, and if something is left it is put into the element that the
tag names. In place of nothing the tag shows its default. -/
def finished (env : Environment) (options : Options) (text : String) : Action String := do
  let shown ←
    if text = "" then pure ""
    else do
      let filters := env.filters.filter fun p => OrderedMap.has options p.1
      let text ← filters.foldlM (fun text p => p.2.filter text options) text
      match options.lookup "wrap" with
      | none => pure text
      | some name =>
        if name = "" ∨ text = "" then pure text
        else pure (Html.element name text (options.lookup "class"))
  return if shown = "" then (options.lookup "default").getD "" else shown

variable (env : Environment) {α : Type} (attributes : List (String × α)) {name : String}

theorem unfinished_map {β : Type} (f : α → β) :
    env.unfinished (attributes.map fun p => (p.1, f p.2)) =
      (env.unfinished attributes).map fun p => (p.1, f p.2) := List.filter_map

theorem lookup_unfinished (h : env.isFinishing name = false) :
    (env.unfinished attributes).lookup name = attributes.lookup name := by
  unfold unfinished
  rw [OrderedMap.lookup_filter fun name => !env.isFinishing name, if_pos (by simp [h])]

theorem lookup_unfinished_of_isFinishing (h : env.isFinishing name) :
    (env.unfinished attributes).lookup name = none := by
  unfold unfinished
  rw [OrderedMap.lookup_filter fun name => !env.isFinishing name, if_neg (by simp [h])]

theorem isFinishing_filter {p : String × HostFunction} (h : p ∈ env.filters) :
    env.isFinishing p.1 := by
  have hlookup : env.filters.lookup p.1 ≠ none := by
    rw [Ne, List.lookup_eq_none_iff]
    intro hnone
    simpa using hnone p h
  simp [isFinishing, OrderedMap.has, Option.isSome_iff_ne_none, hlookup]

end Environment

theorem Filters.apply_eq_foldlM (filters : Filters) (text : String) (options : Options) :
    filters.apply text options =
      (filters.filter fun p => OrderedMap.has options p.1).foldlM
        (fun text p => p.2.filter text options) text := by
  induction filters generalizing text with
  | nil => rfl
  | cons p filters ih =>
    unfold Filters.apply
    by_cases hp : OrderedMap.has options p.1
    · rw [if_pos hp, List.filter_cons, if_pos hp, List.foldlM_cons]
      exact bind_congr ih
    · rw [if_neg hp, List.filter_cons, if_neg hp, ih]

namespace Environment

variable (env : Environment) (options : Options)

theorem finished_eq (text : String) :
    env.finished options text = (do return orDefault (← env.finish text options) options) := by
  unfold finished finish wrapped orDefault
  rw [Filters.apply_eq_foldlM]
  split
  · rfl
  · simp only [bind_assoc, pure_bind]
    refine bind_congr fun text => ?_
    cases options.lookup "wrap" with
    | none => simp
    | some name =>
      by_cases hname : name = ""
      · simp [hname]
      · by_cases htext : text = ""
        · simp [htext]
        · simp [hname, htext]

theorem finish_unfinished (text : String) :
    env.finish text (env.unfinished options) = pure text := by
  refine env.finish_of_no_attribute text (fun p hp => ?_)
    (env.lookup_unfinished_of_isFinishing options rfl)
  rw [OrderedMap.has, env.lookup_unfinished_of_isFinishing options (env.isFinishing_filter hp)]
  rfl

theorem orDefault_unfinished (text : String) : orDefault text (env.unfinished options) = text :=
  orDefault_of_no_default text (env.lookup_unfinished_of_isFinishing options rfl)

theorem unfinished_alikeOn (hfilters : ∀ p ∈ env.filters, p.1 ∉ shapingNames) :
    Options.AlikeOn shapingNames (env.unfinished options) options := by
  intro name hname
  refine env.lookup_unfinished options ?_
  have hengine : ∀ name ∈ shapingNames, name ∉ ["wrap", "class", "default"] := by decide
  have hfilter : env.filters.lookup name = none := by
    apply OrderedMap.lookup_eq_none
    intro hmem
    obtain ⟨p, hp, rfl⟩ := List.mem_map.1 hmem
    exact hfilters p hp hname
  simp [isFinishing, OrderedMap.has, hfilter, hengine name hname]

end Environment

/-- The occurrence of the tag without the attributes that say what becomes of what it shows. -/
def Occurrence.bare (env : Environment) (o : Occurrence) : Occurrence :=
  { o with tag := env.bare o.tag, options := env.unfinished o.options }

namespace Occurrence

variable (env : Environment) (o : Occurrence)

@[simp] theorem bare_options : (o.bare env).options = env.unfinished o.options := rfl

@[simp] theorem bare_scope : (o.bare env).scope = o.scope := rfl

end Occurrence

def Occurrence.Finishes (env : Environment) (o : Occurrence) (shown bare : Action String) : Prop :=
  shown = bare >>= fun text => env.finish text o.options

section Showing

variable {env : Environment} {o : Occurrence}

theorem finishes_nothing : o.Finishes env (pure "") (pure "") := rfl

theorem finishes_text (text : String) :
    o.Finishes env (env.finish text o.options) (env.finish text (o.bare env).options) := by
  unfold Occurrence.Finishes
  rw [o.bare_options, env.finish_unfinished, pure_bind]

theorem finishes_bind {α : Type} (a : Action α) {f g : α → Action String}
    (h : ∀ x, o.Finishes env (f x) (g x)) : o.Finishes env (a >>= f) (a >>= g) := by
  unfold Occurrence.Finishes
  rw [bind_assoc]
  exact bind_congr h

theorem finishes_ite {p : Prop} [Decidable p] {a a' b b' : Action String}
    (h : o.Finishes env a b) (h' : o.Finishes env a' b') :
    o.Finishes env (if p then a else a') (if p then b else b') := by
  split
  · exact h
  · exact h'

theorem finishes_after (a : Action String) :
    o.Finishes env (a >>= fun text => env.finish text o.options)
      (a >>= fun text => env.finish text (o.bare env).options) :=
  finishes_bind a finishes_text

variable (hfilters : ∀ p ∈ env.filters, p.1 ∉ shapingNames) (render : Renderer) {c : Content}
  {items : List HostValue}

include hfilters

theorem inline_alikeOn : Options.AlikeOn Options.inlineNames (o.bare env).options o.options :=
  (env.unfinished_alikeOn o.options hfilters).mono (by decide)

theorem inline_bare (hc : c.IsPlain) : c.inline (o.bare env).options = c.inline o.options := by
  obtain ⟨r, hr, hr'⟩ := Content.inline_of_alike (inline_alikeOn hfilters) hc
  rw [hr, hr']

theorem item_bare {v : HostValue} (hv : v.every HostValue.isPlain) (iteration : Iteration) :
    (o.bare env).item render iteration v = o.item render iteration v := by
  obtain ⟨c, hc, hcontent⟩ := Occurrence.itemContent_plain hv
  unfold Occurrence.item
  rw [hcontent, hcontent, pure_bind, pure_bind, inline_bare hfilters hc]
  rfl

theorem finishes_collection (hitems : everyItem HostValue.isPlain items) :
    o.Finishes env (env.collection render o items) (env.collection render (o.bare env) items) := by
  have hinline := inline_bare hfilters (o := o) (c := .array items) hitems
  unfold Environment.collection
  rw [hinline]
  apply finishes_ite
  · exact finishes_after _
  · exact finishes_after _

theorem finishes_repetition (hitems : everyItem HostValue.isPlain items) :
    o.Finishes env (env.repetition render o items) (env.repetition render (o.bare env) items) := by
  have hparts : (items.zipIdx.mapM fun p => (o.bare env).item render ⟨p.2, items.length⟩ p.1) =
      items.zipIdx.mapM fun p => o.item render ⟨p.2, items.length⟩ p.1 := by
    refine mapM_congr fun p hp => item_bare hfilters render ?_ _
    have hmem := List.mem_of_getElem? (List.mem_zipIdx_iff_getElem?.1 hp)
    exact everyItem_iff.1 hitems _ hmem
  unfold Environment.repetition
  rw [hparts]
  refine finishes_bind _ fun parts => ?_
  rw [← (inline_alikeOn hfilters).join]
  exact finishes_text _

theorem finishes_showContent (hc : c.IsPlain) :
    o.Finishes env (env.showContent render o c) (env.showContent render (o.bare env) c) := by
  have hinline := inline_bare hfilters (o := o) hc
  have hframe : o.Finishes env
      (if o.tag.children.isEmpty then do env.finish (← c.inline o.options) o.options
        else do env.finish (← render o.tag.children (o.parent.enter c)) o.options)
      (if (o.bare env).tag.children.isEmpty then do
          env.finish (← c.inline (o.bare env).options) (o.bare env).options
        else do
          env.finish (← render (o.bare env).tag.children ((o.bare env).parent.enter c))
            (o.bare env).options) := by
    rw [hinline]
    apply finishes_ite
    · exact finishes_after _
    · exact finishes_after _
  cases c with
  | missing => exact finishes_nothing
  | null => exact finishes_nothing
  | callable f => exact finishes_nothing
  | bool b =>
    apply finishes_ite
    · exact finishes_text _
    · apply finishes_ite
      · exact finishes_after _
      · exact finishes_nothing
  | number n => exact hframe
  | object object => exact hframe
  | string text =>
    by_cases htext : text = ""
    · subst htext
      exact finishes_nothing
    · unfold Environment.showContent
      simpa [htext] using hframe
  | array items =>
    cases items with
    | nil => exact finishes_nothing
    | cons item items =>
      have hrepeat := env.unfinished_alikeOn o.options hfilters "repeat" (by decide)
      unfold Environment.showContent
      dsimp only
      rw [o.bare_options, hrepeat]
      split
      · exact finishes_collection hfilters render hc
      · exact finishes_repetition hfilters render hc

theorem finishes_showSubject (hc : c.IsPlain) (budget : Nat) :
    o.Finishes env (env.showSubject render budget o c)
      (env.showSubject render budget (o.bare env) c) := by
  cases c with
  | callable f => cases hc
  | _ => exact finishes_showContent hfilters render hc

omit hfilters in
theorem oneDeeper_finish (name : String) (a : Action String) (options : Options) :
    env.oneDeeper name (a >>= fun text => env.finish text options) =
      env.oneDeeper name a >>= fun text => env.finish text options := by
  have hperform : ∀ s, perform (env.oneDeeper name (a >>= fun text => env.finish text options)) s =
      perform (env.oneDeeper name a >>= fun text => env.finish text options) s := by
    intro s
    rw [env.perform_oneDeeper, perform_bind, perform_bind, env.perform_oneDeeper]
    by_cases hdeep : env.maxDepth < s.depth + 1
    · rw [if_pos hdeep, if_pos hdeep]
    · rw [if_neg hdeep, if_neg hdeep]
      rcases perform a { s with depth := s.depth + 1 } with ⟨e | text, t⟩
      · rfl
      -- filters run inside the include on the left and after it on the right
      · have hhost := Lockstep.beside_host t { t with depth := t.depth - 1 }
        obtain ⟨host, hdeeper, hback⟩ :=
          Lockstep.perform_beside (hhost.finish rfl text options) rfl
        dsimp only
        rw [hdeeper, hback]
  exact funext hperform

theorem finishes_renderInclude :
    o.Finishes env (env.renderInclude render o) (env.renderInclude render (o.bare env)) := by
  have htemplate := env.unfinished_alikeOn o.options hfilters "template" (by decide)
  unfold Environment.renderInclude
  rw [o.bare_options, htemplate]
  split
  · exact finishes_bind _ fun _ => finishes_nothing
  · exact finishes_bind _ fun _ => finishes_nothing
  · refine finishes_bind _ fun found => ?_
    cases found with
    | none => exact finishes_nothing
    | some nodes =>
      unfold Occurrence.Finishes
      dsimp only
      simp only [env.finish_unfinished, bind_pure]
      exact oneDeeper_finish _ _ _

theorem finishes_renderRegion :
    o.Finishes env (env.renderRegion render o) (env.renderRegion render (o.bare env)) := by
  have hname := env.unfinished_alikeOn o.options hfilters "name" (by decide)
  unfold Environment.renderRegion
  rw [o.bare_options, hname]
  refine finishes_bind _ fun block => ?_
  cases block with
  | none => exact finishes_after _
  | some block => exact finishes_after _

omit hfilters in
theorem finishes_renderMarker (atEnd : Iteration → Bool) :
    o.Finishes env (env.renderMarker render o atEnd)
      (env.renderMarker render (o.bare env) atEnd) := by
  unfold Environment.renderMarker
  rw [o.bare_scope]
  split
  · exact finishes_nothing
  · exact finishes_ite (finishes_after _) finishes_nothing

theorem finishes_renderItemValue (hscope : o.scope.IsPlain) (budget : Nat) :
    o.Finishes env (env.renderItemValue render budget o)
      (env.renderItemValue render budget (o.bare env)) := by
  obtain ⟨c, hc, hlookup⟩ := Scope.lookup_eq_pure hscope "value"
  unfold Environment.renderItemValue
  rw [o.bare_scope, hlookup, pure_bind, pure_bind]
  exact finishes_ite finishes_nothing (finishes_showSubject hfilters render hc budget)

theorem finishes_renderItemValues (hscope : o.scope.IsPlain) (budget : Nat) :
    o.Finishes env (env.renderItemValues render budget o)
      (env.renderItemValues render budget (o.bare env)) := by
  obtain ⟨c, hc, hlookup⟩ := Scope.lookup_eq_pure hscope "values"
  have halike := env.unfinished_alikeOn o.options hfilters
  unfold Environment.renderItemValues
  rw [o.bare_scope, hlookup, pure_bind, pure_bind, o.bare_options,
    Options.numberOption_congr (halike "skip" (by decide)),
    Options.numberOption_congr (halike "limit" (by decide))]
  split
  · refine finishes_showSubject hfilters render ?_ budget
    exact everyItem_iff.2 fun v hv => everyItem_iff.1 hc v (mem_of_mem_window hv)
  · exact finishes_showSubject hfilters render hc budget

theorem finishes_renderStructural (hscope : o.scope.IsPlain) (budget : Nat)
    (structural : Environment.Structural) :
    o.Finishes env (env.renderStructural render budget o structural)
      (env.renderStructural render budget (o.bare env) structural) := by
  cases structural with
  | «include» => exact finishes_renderInclude hfilters render
  | layout =>
    have hname := env.unfinished_alikeOn o.options hfilters "name" (by decide)
    unfold Environment.renderStructural Environment.renderLayout
    dsimp only
    rw [o.bare_options, hname]
    split
    · exact finishes_nothing
    · exact finishes_nothing
    · exact finishes_bind _ fun _ => finishes_nothing
  | block =>
    have hregion := env.unfinished_alikeOn o.options hfilters "region" (by decide)
    unfold Environment.renderStructural Environment.renderBlock
    dsimp only
    rw [o.bare_options, hregion]
    split
    · exact finishes_nothing
    · exact finishes_nothing
    · exact finishes_bind _ fun _ => finishes_nothing
  | region => exact finishes_renderRegion hfilters render
  | first => exact finishes_renderMarker render _
  | last => exact finishes_renderMarker render _
  | value => exact finishes_renderItemValue hfilters render hscope budget
  | values => exact finishes_renderItemValues hfilters render hscope budget

end Showing

section Tags

variable {env : Environment} (hfilters : ∀ p ∈ env.filters, p.1 ∉ shapingNames)
  (hexports : ∀ require ∈ env.require, ∀ name v, require name = .ok (some v) →
    v.every HostValue.isPlain)
  {tag : Tag} (hpositive : Environment.negated? tag.name = none) {scope : Scope} {s : State}
  (hkept : ∀ name c, s.extensions.lookup name = some (some c) → c.IsPlain) (render : Renderer)
  (budget : Nat) (options : Options)

include hfilters hexports hpositive hkept

theorem perform_renderExtensionTag_bare (extension : String) :
    perform (env.renderExtensionTag render budget tag options scope extension) s =
      perform (env.renderExtensionTag render budget (env.bare tag) (env.unfinished options) scope
        extension >>= fun text => env.finish text options) s := by
  have hbare : Environment.negated? (env.bare tag).name = none := hpositive
  unfold Environment.renderExtensionTag
  rw [hpositive, hbare, bind_assoc]
  refine perform_bind_congr fun found t hfound => ?_
  cases found with
  | none => rfl
  | some home =>
    obtain ⟨c, hc, rfl⟩ : ∃ c : Content, c.IsPlain ∧ home = scope.enter c := by
      unfold Environment.extension at hfound
      rw [bind_pure_comp, perform_map] at hfound
      rcases hexported : perform (env.exported extension) s with ⟨_ | _ | c, t'⟩
      · rw [hexported] at hfound
        cases hfound
      · rw [hexported] at hfound
        cases hfound
      · rw [hexported] at hfound
        cases hfound
        exact ⟨c, Environment.exported_isPlain hexports (hkept extension) hexported, rfl⟩
    have hframe : (scope.enter c).frame.IsPlain := ⟨hc, nofun⟩
    obtain ⟨subject, hsubject, hown⟩ := Frame.own_eq_pure hframe tag.name
    have hlookup : (scope.enter c).own ((none : Option String).getD tag.name) = pure subject := hown
    have hlookup' : (scope.enter c).own ((none : Option String).getD (env.bare tag).name) =
        pure subject := hown
    have hshow := finishes_showSubject (o := ⟨tag, options, scope, scope.enter c⟩) hfilters render
      hsubject budget
    dsimp only
    rw [hlookup, hlookup', pure_bind, pure_bind]
    exact congrArg (perform · t) hshow

variable (hscope : scope.IsPlain)

include hscope

theorem perform_renderWith_bare :
    perform (env.renderWith render budget tag options scope) s =
      perform (env.renderWith render budget (env.bare tag) (env.unfinished options) scope >>=
        fun text => env.finish text options) s := by
  have hname : (env.bare tag).name = tag.name := rfl
  have hextension : (env.bare tag).extension = tag.extension := rfl
  unfold Environment.renderWith
  rw [hname, hextension, hpositive]
  cases tag.extension with
  | some extension =>
    exact perform_renderExtensionTag_bare hfilters hexports hpositive hkept render budget options
      extension
  | none =>
    dsimp only
    cases Environment.Structural.ofName? tag.name with
    | some structural =>
      have hshow := finishes_renderStructural (o := ⟨tag, options, scope, scope⟩) hfilters render
        hscope budget structural
      exact congrArg (perform · s) hshow
    | none =>
      obtain ⟨c, hc, hlookup⟩ := Scope.lookup_eq_pure hscope tag.name
      have hshow := finishes_showSubject (o := ⟨tag, options, scope, scope⟩) hfilters render hc
        budget
      dsimp only
      rw [hlookup, pure_bind, pure_bind]
      exact congrArg (perform · s) hshow

/-- A tag shows what it shows without the attributes that finish it, finished once by them: by the
filters it names in the order of their registration, by `wrap` and by `default`. -/
theorem renderTag_finished {attributes : Options}
    (hliteral : tag.attributes = attributes.map fun p => (p.1, AttributeValue.literal p.2)) :
    perform (env.renderTag render budget tag scope) s =
      perform (env.renderTag render budget (env.bare tag) scope >>= env.finished attributes) s := by
  have hoptions := optionsOf_of_literal scope render hliteral
  have hbare : optionsOf render scope (env.bare tag) = pure (env.unfinished attributes) := by
    apply optionsOf_of_literal
    unfold Environment.bare
    rw [hliteral, env.unfinished_map]
  have hwith := perform_renderWith_bare hfilters hexports hpositive hkept render budget attributes
    hscope
  unfold Environment.renderTag
  rw [hoptions, hbare, pure_bind, pure_bind, perform_bind, hwith, ← perform_bind]
  simp only [bind_assoc, pure_bind, env.orDefault_unfinished, env.finished_eq]

end Tags

/-- A repeated tag that names its filters in another order than that of their registration. -/
theorem renderTag_finished_list :
    let filter := fun body => (⟨⟨1, none, false⟩, none, body⟩ : HostFunction)
    let filters : Filters :=
      [("up", filter (.upper .text)), ("keep", filter (.value .null)),
        ("ask", filter (.concat [.text, .value (.string "?"), .option "ask"]))]
    let env : Environment := { filters := filters }
    let attributes : Options :=
      [("ask", "b"), ("class", "x<y"), ("wrap", "p"), ("break", "-"), ("up", ""), ("default", "-")]
    let tag : Tag := ⟨"items", none, attributes.map fun p => (p.1, .literal p.2), [], true⟩
    let items := Content.array [.string "a&b", .null, .number (.integer 1)]
    let scope : Scope := ⟨{ value := .null, bindings := [("items", items)] }, []⟩
    let render : Renderer := fun _ _ => pure ""
    (∀ p ∈ env.filters, p.1 ∉ shapingNames) ∧ Environment.negated? tag.name = none ∧ scope.IsPlain ∧
      (perform (env.renderTag render 0 (env.bare tag) scope) {}).1 = .ok "a&amp;b-1" ∧
      (perform (env.renderTag render 0 tag scope) {}).1 =
        .ok "<p class=\"x&lt;y\">A&AMP;B-1?b</p>" ∧
      perform (env.renderTag render 0 tag scope) {} =
        perform (env.renderTag render 0 (env.bare tag) scope >>= env.finished attributes) {} := by
  intro filter filters env attributes tag items scope render
  have hfilters : ∀ p ∈ env.filters, p.1 ∉ shapingNames := by
    have hnames : ∀ name ∈ env.filters.map Prod.fst, name ∉ shapingNames := by decide
    exact fun p hp => hnames p.1 (List.mem_map_of_mem hp)
  have hpositive : Environment.negated? tag.name = none := by decide
  have hscope : scope.IsPlain := by
    intro f hf
    cases List.mem_singleton.1 hf
    refine ⟨rfl, fun name c hc => ?_⟩
    cases List.mem_singleton.1 (OrderedMap.mem_of_lookup hc)
    rfl
  have hkept : ∀ name c, List.lookup name ({} : State).extensions = some (some c) → c.IsPlain := by
    rintro name c ⟨⟩
  refine ⟨hfilters, hpositive, hscope, by decide +kernel, by decide +kernel, ?_⟩
  exact renderTag_finished hfilters (by rintro _ ⟨⟩) hpositive hkept render 0 hscope rfl

end TagTemplate
