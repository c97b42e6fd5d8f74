import TagTemplate.Proofs.Lockstep.Content
import TagTemplate.Render.Tag

/-!
# Tags in lockstep

Two trees are rendered side by side. Where their tags agree in everything but the nodes inside
them, and the nodes inside them are rendered in lockstep, so are the tags. Mostly they are rendered
in the same scopes. In different scopes it is enough that they find the same there, as far as they
and the functions found ask. What the tags for includes, layouts, blocks and regions do with the
state is left to each use.
-/

namespace TagTemplate

open Markup (Node Tag AttributeValue)

theorem eq_of_lookup_itemBindings {c b : Content} {name : String}
    (h : (itemBindings c).lookup name = some b) : b = c := by
  have hmem := OrderedMap.mem_of_lookup h
  cases c with
  | bool | number | string =>
    cases List.mem_singleton.1 hmem
    rfl
  | _ => cases hmem

theorem mem_of_mem_window {items : List HostValue} {skip : Int} {limit : Option Int} {v : HostValue}
    (h : v ∈ Content.window items skip limit) : v ∈ items := by
  unfold Content.window at h
  split at h
  · exact List.mem_of_mem_drop h
  · exact List.mem_of_mem_drop (List.mem_of_mem_take h)

/-- The frame of an array that is shown as a whole. -/
def Frame.whole (items : List HostValue) : Frame :=
  { value := .array items, bindings := [("values", .array items)], collection := true }

/-- The attribute values are the same text, or markup that corresponds. -/
inductive AttributeAgrees (nodes : List Node → List Node → Prop) :
    String × AttributeValue → String × AttributeValue → Prop where
  | literal (key text) : AttributeAgrees nodes (key, .literal text) (key, .literal text)
  | markup (key) {ns ns'} :
      nodes ns ns' → AttributeAgrees nodes (key, .markup ns) (key, .markup ns')

inductive TagAgrees (nodes : List Node → List Node → Prop) : Tag → Tag → Prop where
  | mk {name extension as as' cs cs' closing} :
      List.Forall₂ (AttributeAgrees nodes) as as' → nodes cs cs' →
      TagAgrees nodes ⟨name, extension, as, cs, closing⟩ ⟨name, extension, as', cs', closing⟩

theorem TagAgrees.name_eq {nodes : List Node → List Node → Prop} {tag tag' : Tag}
    (h : TagAgrees nodes tag tag') : tag.name = tag'.name := by
  cases h
  rfl

theorem TagAgrees.extension_eq {nodes : List Node → List Node → Prop} {tag tag' : Tag}
    (h : TagAgrees nodes tag tag') : tag.extension = tag'.extension := by
  cases h
  rfl

def Follows (options : Options) (tag : Tag) : Prop :=
  ∀ key,
    match tag.attributes.lookup key with
    | none => options.lookup key = none
    | some (.literal text) => options.lookup key = some text
    | some (.markup _) => True

theorem Follows.literal {options : Options} {tag : Tag} (h : Follows options tag)
    {key text : String} (ht : tag.literal? key = some text) : options.lookup key = some text := by
  have hk := h key
  unfold Tag.literal? at ht
  split at ht
  · next v hv =>
    rw [hv] at hk
    exact Option.some.inj ht ▸ hk
  · nomatch ht

theorem Follows.cons {options : Options} {name : String} {extension : Option String}
    {as : List (String × AttributeValue)} {cs : List Node} {closing : Bool} {key text : String}
    {v : AttributeValue} (hv : ∀ t, v = .literal t → t = text)
    (h : Follows options ⟨name, extension, as, cs, closing⟩) :
    Follows ((key, text) :: options) ⟨name, extension, (key, v) :: as, cs, closing⟩ := by
  intro k
  by_cases hk : k = key
  · subst hk
    cases v with
    | literal t => simp [hv t rfl]
    | markup ns => simp
  · simpa [List.lookup_cons, beq_eq_false_iff_ne.2 hk] using h k

/-- The attribute of that name may have that text: it is literally that, or markup. -/
def MayCarry (tag : Tag) (key text : String) : Prop :=
  (key, .literal text) ∈ tag.attributes ∨ ∃ ns, (key, .markup ns) ∈ tag.attributes

theorem mayCarry_of_follows {options : Options} {tag : Tag} (h : Follows options tag)
    {key text : String} (hk : options.lookup key = some text) : MayCarry tag key text := by
  have hkey := h key
  cases hv : tag.attributes.lookup key with
  | none =>
    rw [hv] at hkey
    cases hkey.symm.trans hk
  | some v =>
    rw [hv] at hkey
    have hmem := OrderedMap.mem_of_lookup hv
    cases v with
    | literal t =>
      cases hkey.symm.trans hk
      exact Or.inl hmem
    | markup ns => exact Or.inr ⟨ns, hmem⟩

/-- The name of a structural tag. -/
def Environment.Structural.name : Environment.Structural → String
  | .include => "include"
  | .layout => "layout"
  | .block => "block"
  | .region => "region"
  | .first => "first"
  | .last => "last"
  | .value => "value"
  | .values => "values"

theorem Environment.Structural.eq_name_of_ofName? {name : String} {s : Environment.Structural}
    (h : ofName? name = some s) : name = s.name := by
  unfold ofName? at h
  split at h <;> cases h <;> rfl

theorem Environment.renderWith_structural (env : Environment) (render : Renderer) (budget : Nat)
    {tag : Tag} (s : Environment.Structural) (he : tag.extension = none) (hn : tag.name = s.name)
    (options : Options) (scope : Scope) :
    env.renderWith render budget tag options scope =
      env.renderStructural render budget ⟨tag, options, scope, scope⟩ s := by
  have hneg : negated? s.name = none := by cases s <;> rfl
  have hname : Structural.ofName? s.name = some s := by cases s <;> rfl
  unfold renderWith
  simp only [he, hn, hneg, hname]

namespace Lockstep

open TagTemplate.Action
open Environment (Structural)

/-- What two runs see: scopes that correspond, of some kind of host code, where their tags mention
some names and extensions only. -/
structure View where
  kind : HostKind := .any
  scopes : Scope → Scope → Prop := Eq
  name : String → Prop := fun _ => True
  extension : String → Prop := fun _ => True

namespace View

def same : View := {}

def Mentions (V : View) (tag : Tag) : Prop :=
  (tag.extension = none → V.name ((Environment.negated? tag.name).getD tag.name)) ∧
    ∀ extension ∈ tag.extension, V.extension extension

/-- Corresponding scopes give the mentioned names, and what functions ask for, equal meanings. -/
structure Sound (V : View) (L : Lockstep) : Prop where
  kind : V.kind.Sound
  push : ∀ {scope scope'}, V.scopes scope scope' → ∀ {f}, V.kind.IsFrame f →
    V.scopes (scope.push f) (scope'.push f)
  nearestIteration : ∀ {scope scope'}, V.scopes scope scope' →
    scope.nearestIteration = scope'.nearestIteration
  collection : ∀ {scope scope'}, V.scopes scope scope' →
    scope.frame.collection = scope'.frame.collection
  lookup : ∀ {scope scope'}, V.scopes scope scope' → ∀ {name}, V.name name →
    L.Gives V.kind.content (scope.lookup name) (scope'.lookup name)
  access : ∀ {scope scope'}, V.scopes scope scope' →
    L.AccessAgrees V.kind scope.access scope'.access

theorem same_mentions (tag : Tag) : same.Mentions tag := ⟨fun _ => trivial, fun _ _ => trivial⟩

theorem same_sound {L : Lockstep} (host : L.HostClosed) : same.Sound L := by
  have hframe : ∀ f, HostKind.any.IsFrame f := fun f => ⟨trivial, fun _ _ _ => trivial⟩
  have hlookup : ∀ (scope : Scope) (name : String),
      L.Gives HostKind.any.content (scope.lookup name) (scope.lookup name) :=
    fun scope name => host.gives_lookupIn HostKind.any_sound (fun f _ => hframe f) name
  refine ⟨HostKind.any_sound, ?_, ?_, ?_, ?_, ?_⟩
  · rintro scope _ rfl f _
    rfl
  · rintro scope _ rfl
    rfl
  · rintro scope _ rfl
    rfl
  · rintro scope _ rfl name _
    exact hlookup scope name
  · rintro scope _ rfl
    refine ⟨fun name _ => ?_, fun name _ => host.gives_own HostKind.any_sound (hframe _) name⟩
    cases name with
    | none => exact gives_pure trivial
    | some name => exact hlookup scope name

end View

/-- Two environments and two ways to render what tags enclose that go in lockstep. -/
structure Pairing (L : Lockstep) (V : View) (nodes : List Node → List Node → Prop)
    (env env' : Environment) (render render' : Renderer) (budget budget' : Nat) : Prop where
  host : L.HostClosed
  view : V.Sound L
  filters : env.filters = env'.filters
  exported : ∀ name, V.extension name →
    L.Gives (fun m => ∀ c ∈ m, V.kind.content c) (env.exported name) (env'.exported name)
  isEmpty : ∀ {ns ns'}, nodes ns ns' → ns.isEmpty = ns'.isEmpty
  render : ∀ {ns ns'}, nodes ns ns' → ∀ {scope scope'}, V.scopes scope scope' →
    L.Agrees (render ns scope) (render' ns' scope')
  budget : budget = budget' ∧ L.allowed .exhausted ∨ budget ≤ budget' ∧ L.excused .exhausted

/-- Two tags that are being rendered in corresponding scopes and with the same attribute values. -/
structure OccurrenceAgrees (V : View) (nodes : List Node → List Node → Prop) (o o' : Occurrence) :
    Prop where
  children : nodes o.tag.children o'.tag.children
  options : o.options = o'.options
  scope : V.scopes o.scope o'.scope
  parent : V.scopes o.parent o'.parent

theorem OccurrenceAgrees.of_tags {V : View} {nodes : List Node → List Node → Prop} {tag tag' : Tag}
    (ht : TagAgrees nodes tag tag') (options : Options) {scope scope' parent parent' : Scope}
    (hs : V.scopes scope scope') (hp : V.scopes parent parent') :
    OccurrenceAgrees V nodes ⟨tag, options, scope, parent⟩ ⟨tag', options, scope', parent'⟩ := by
  cases ht with
  | mk _ hc => exact ⟨hc, rfl, hs, hp⟩

theorem isFrame_item {K : HostKind} {c : Content} (hc : K.content c)
    (iteration : Option Iteration) :
    K.IsFrame { value := c, bindings := itemBindings c, iteration } :=
  ⟨hc, fun _ _ hb => eq_of_lookup_itemBindings hb ▸ hc⟩

theorem isFrame_whole {K : HostKind} {items : List HostValue} (hi : K.content (.array items)) :
    K.IsFrame (.whole items) := by
  refine ⟨hi, fun name b hb => ?_⟩
  cases List.mem_singleton.1 (OrderedMap.mem_of_lookup hb)
  exact hi

namespace Pairing

variable {L : Lockstep} {V : View} {nodes : List Node → List Node → Prop} {env env' : Environment}
  {render render' : Renderer} {budget budget' : Nat} {o o' : Occurrence} {c : Content}
  (h : L.Pairing V nodes env env' render render' budget budget')

include h

theorem finish (text : String) {options options' : Options} (ho : options = options') :
    L.Agrees (env.finish text options) (env'.finish text options') :=
  ho ▸ h.host.finish h.filters text options

theorem attributeText {p p' : String × AttributeValue} (hp : AttributeAgrees nodes p p')
    {scope scope' : Scope} (hs : V.scopes scope scope') :
    L.Relates (fun t t' => t = t' ∧ ∀ s, p.2 = .literal s → s = t)
      (attributeText render scope p.2) (attributeText render' scope' p'.2) := by
  cases hp with
  | literal key text => exact relates_pure ⟨rfl, fun _ h => (AttributeValue.literal.inj h).symm⟩
  | markup key hns => exact (h.render hns hs).mono fun _ _ ht => ⟨ht, nofun⟩

theorem optionsOf {tag tag' : Tag} (ht : TagAgrees nodes tag tag') {scope scope' : Scope}
    (hs : V.scopes scope scope') :
    L.Relates (fun r r' => r = r' ∧ Follows r tag) (optionsOf render scope tag)
      (optionsOf render' scope' tag') := by
  obtain ⟨ha, -⟩ := ht
  unfold TagTemplate.optionsOf
  induction ha with
  | nil => exact relates_pure ⟨rfl, fun _ => rfl⟩
  | cons hp _ ih =>
    simp only [List.mapM_cons, bind_assoc, pure_bind]
    refine Relates.bind (h.attributeText hp hs) ?_
    rintro t _ ⟨rfl, hlit⟩
    refine Relates.bind ih ?_
    rintro r _ ⟨rfl, hr⟩
    refine relates_pure ⟨?_, ?_⟩
    · cases hp <;> rfl
    · exact hr.cons fun s hs => hlit s hs

theorem enclosed (ho : OccurrenceAgrees V nodes o o') :
    L.Agrees (o.enclosed render) (o'.enclosed render') :=
  h.render ho.children ho.scope

theorem call (ho : OccurrenceAgrees V nodes o o') {f : HostFunction}
    (hf : V.kind.content (.callable f)) :
    L.Gives V.kind.content (o.call render f) (o'.call render' f) := by
  refine Gives.bind (h.host.gives_invoke h.view.kind hf ?_) fun v hv =>
    h.host.gives_ofHost h.view.kind hv
  unfold Occurrence.arguments
  rw [← ho.options]
  exact .cons (.options _)
    (.cons (.enclosing (h.enclosed ho)) (.cons (.scope (h.view.access ho.scope)) .nil))

theorem settleWithin (ho : OccurrenceAgrees V nodes o o') : ∀ n n' {f},
    V.kind.content (.callable f) →
    (n = n' ∧ L.allowed .exhausted ∨ n ≤ n' ∧ L.excused .exhausted) →
      L.Gives V.kind.content (o.settle render n f) (o'.settle render' n' f) := by
  intro n
  induction n with
  | zero =>
    rintro n' f - (⟨rfl, hx⟩ | ⟨-, hx⟩)
    · exact relates_fail hx
    · exact relates_of_excused hx
  | succ n ih =>
    intro n' f hf hn
    cases n' with
    | zero => omega
    | succ n' =>
      refine Gives.bind (h.call ho hf) fun c hc => ?_
      cases c with
      | callable g =>
        refine ih n' hc ?_
        rcases hn with ⟨hn, hx⟩ | ⟨hn, hx⟩
        · exact Or.inl ⟨Nat.succ.inj hn, hx⟩
        · exact Or.inr ⟨Nat.le_of_succ_le_succ hn, hx⟩
      | _ => exact gives_pure hc

theorem settle (ho : OccurrenceAgrees V nodes o o') {f : HostFunction}
    (hf : V.kind.content (.callable f)) :
    L.Gives V.kind.content (o.settle render budget f) (o'.settle render' budget' f) :=
  h.settleWithin ho _ _ hf h.budget

theorem itemContent (ho : OccurrenceAgrees V nodes o o') {item : HostValue}
    (hi : V.kind.value item) :
    L.Gives V.kind.content (o.itemContent render item) (o'.itemContent render' item) := by
  refine Gives.bind (h.host.gives_ofHost h.view.kind hi) fun c hc => ?_
  cases c with
  | callable f => exact h.call ho hc
  | _ => exact gives_pure hc

theorem item (ho : OccurrenceAgrees V nodes o o') (iteration : Iteration) {item : HostValue}
    (hi : V.kind.value item) :
    L.Agrees (o.item render iteration item) (o'.item render' iteration item) := by
  refine Gives.bind (h.itemContent ho hi) fun value hvalue => ?_
  rw [h.isEmpty ho.children, ho.options]
  split
  · exact h.host.inlineContent _ value
  · exact h.render ho.children (h.view.push ho.parent (isFrame_item hvalue _))

theorem collection (ho : OccurrenceAgrees V nodes o o') {items : List HostValue}
    (hi : V.kind.content (.array items)) :
    L.Agrees (env.collection render o items) (env'.collection render' o' items) := by
  unfold Environment.collection
  rw [h.isEmpty ho.children, ho.options]
  dsimp only
  split
  · exact Agrees.bind (h.host.inlineContent _ _) fun body => h.finish body rfl
  · refine Agrees.bind (h.render ho.children ?_) fun body => h.finish body rfl
    exact h.view.push ho.parent (isFrame_whole hi)

theorem repetition (ho : OccurrenceAgrees V nodes o o') {items : List HostValue}
    (hi : V.kind.content (.array items)) :
    L.Agrees (env.repetition render o items) (env'.repetition render' o' items) := by
  unfold Environment.repetition
  rw [ho.options]
  refine Agrees.bind ?_ fun parts => h.finish _ rfl
  refine agrees_mapM (R := fun p p' => p = p' ∧ V.kind.value p.1)
    (List.forall₂_same.2 fun p hp => ⟨rfl, ?_⟩) ?_
  · exact h.view.kind.array.1 hi _ (List.fst_mem_of_mem_zipIdx hp)
  · rintro p _ ⟨rfl, hp⟩
    exact h.item ho _ hp

theorem showContent (ho : OccurrenceAgrees V nodes o o') (hc : V.kind.content c) :
    L.Agrees (env.showContent render o c) (env'.showContent render' o' c) := by
  have hframe : V.kind.IsFrame { value := c } := ⟨hc, nofun⟩
  have hentered : L.Agrees
      (if o.tag.children.isEmpty then do env.finish (← c.inline o.options) o.options
        else do env.finish (← render o.tag.children (o.parent.enter c)) o.options)
      (if o'.tag.children.isEmpty then do env'.finish (← c.inline o'.options) o'.options
        else do env'.finish (← render' o'.tag.children (o'.parent.enter c)) o'.options) := by
    rw [h.isEmpty ho.children, ho.options]
    split
    · exact Agrees.bind (h.host.inlineContent _ c) fun t => h.finish t rfl
    · exact Agrees.bind (h.render ho.children (h.view.push ho.parent hframe)) fun t =>
        h.finish t rfl
  unfold Environment.showContent
  split
  · exact agrees_pure _
  · exact agrees_pure _
  · exact agrees_pure _
  · exact agrees_pure _
  · exact agrees_pure _
  · rw [ho.options]
    split
    · exact h.collection ho hc
    · exact h.repetition ho hc
  · next b =>
    rw [h.isEmpty ho.children]
    split
    · exact h.finish _ ho.options
    · split
      · exact Agrees.bind (h.enclosed ho) fun t => h.finish t ho.options
      · exact agrees_pure _
  · exact hentered

theorem showReturned (ho : OccurrenceAgrees V nodes o o') (hc : V.kind.content c) :
    L.Agrees (env.showReturned render o c) (env'.showReturned render' o' c) := by
  unfold Environment.showReturned
  rw [h.isEmpty ho.children]
  split
  · exact h.showContent ho hc
  · split
    · exact h.finish _ ho.options
    · exact Agrees.bind (h.host.written _) fun text => h.finish text ho.options
    · exact h.showContent ho hc

theorem showSubject (ho : OccurrenceAgrees V nodes o o') (hc : V.kind.content c) :
    L.Agrees (env.showSubject render budget o c) (env'.showSubject render' budget' o' c) := by
  unfold Environment.showSubject
  split
  · exact Gives.bind (h.settle ho hc) fun c hc => h.showReturned ho hc
  · exact h.showContent ho hc

theorem isPresent (ho : OccurrenceAgrees V nodes o o') (hc : V.kind.content c) :
    L.Agrees (Environment.isPresent render budget o c)
      (Environment.isPresent render' budget' o' c) := by
  unfold Environment.isPresent
  split
  · exact (h.settle ho hc).agrees.map
  · exact agrees_pure _

theorem renderSubject (ho : OccurrenceAgrees V nodes o o') (isNegated : Bool)
    (hc : V.kind.content c) :
    L.Agrees (env.renderSubject render budget o isNegated c)
      (env'.renderSubject render' budget' o' isNegated c) := by
  unfold Environment.renderSubject
  split
  · refine Agrees.bind (h.isPresent ho hc) fun present => ?_
    split
    · exact agrees_pure _
    · exact h.enclosed ho
  · exact h.showSubject ho hc

theorem renderMarker (ho : OccurrenceAgrees V nodes o o') (atEnd : Iteration → Bool) :
    L.Agrees (env.renderMarker render o atEnd) (env'.renderMarker render' o' atEnd) := by
  unfold Environment.renderMarker
  rw [h.view.nearestIteration ho.scope]
  split
  · exact agrees_pure _
  · split
    · exact Agrees.bind (h.enclosed ho) fun t => h.finish t ho.options
    · exact agrees_pure _

theorem renderItemValue (ho : OccurrenceAgrees V nodes o o') (hn : V.name "value") :
    L.Agrees (env.renderItemValue render budget o) (env'.renderItemValue render' budget' o') := by
  unfold Environment.renderItemValue
  rw [h.view.collection ho.scope]
  split
  · exact agrees_pure _
  · exact Gives.bind (h.view.lookup ho.scope hn) fun c hc => h.showSubject ho hc

theorem renderItemValues (ho : OccurrenceAgrees V nodes o o') (hn : V.name "values") :
    L.Agrees (env.renderItemValues render budget o)
      (env'.renderItemValues render' budget' o') := by
  unfold Environment.renderItemValues
  rw [ho.options]
  refine Gives.bind (h.view.lookup ho.scope hn) fun c hc => ?_
  split
  · next items =>
    have hitems := h.view.kind.array.1 hc
    refine h.showSubject ho (h.view.kind.array.2 fun v hv => hitems v ?_)
    exact mem_of_mem_window hv
  · exact h.showSubject ho hc

theorem extension {name : String} (hn : V.extension name) {scope scope' : Scope}
    (hs : V.scopes scope scope') :
    L.Relates (Option.Rel fun home home' => V.scopes home home' ∧
        ∀ name, L.Gives V.kind.content (home.own name) (home'.own name))
      (env.extension name scope) (env'.extension name scope') := by
  refine Gives.bind (h.exported name hn) fun found hfound => ?_
  cases found with
  | none => exact relates_pure .none
  | some c =>
    have hframe : V.kind.IsFrame { value := c } := ⟨hfound c rfl, nofun⟩
    refine relates_pure (.some ⟨h.view.push hs hframe, fun name => ?_⟩)
    exact h.host.gives_own h.view.kind hframe name

end Pairing

/-- What is left to show of two tags: that the tags of the template language that fetch nodes or
keep them go in lockstep. -/
structure HandlersIn (L : Lockstep) (V : View) (env env' : Environment)
    (render render' : Renderer) (tag tag' : Tag) : Prop where
  includes : tag.extension = none → tag.name = "include" → ∀ options {scope scope'},
    V.scopes scope scope' → Follows options tag →
    L.Agrees (env.renderInclude render ⟨tag, options, scope, scope⟩)
      (env'.renderInclude render' ⟨tag', options, scope', scope'⟩)
  layouts : tag.extension = none → tag.name = "layout" → ∀ options {scope scope'},
    V.scopes scope scope' → Follows options tag →
    L.Agrees (Environment.renderLayout ⟨tag, options, scope, scope⟩)
      (Environment.renderLayout ⟨tag', options, scope', scope'⟩)
  blocks : tag.extension = none → tag.name = "block" → ∀ options {scope scope'},
    V.scopes scope scope' → Follows options tag →
    L.Agrees (Environment.renderBlock ⟨tag, options, scope, scope⟩)
      (Environment.renderBlock ⟨tag', options, scope', scope'⟩)
  regions : tag.extension = none → tag.name = "region" → ∀ options {scope scope'},
    V.scopes scope scope' → Follows options tag →
    L.Agrees (env.renderRegion render ⟨tag, options, scope, scope⟩)
      (env'.renderRegion render' ⟨tag', options, scope', scope'⟩)

/-- The same is left to show where both tags are rendered in the same scopes. -/
structure Handlers (L : Lockstep) (env env' : Environment) (render render' : Renderer)
    (tag tag' : Tag) : Prop where
  includes : tag.extension = none → tag.name = "include" → ∀ options scope, Follows options tag →
    L.Agrees (env.renderInclude render ⟨tag, options, scope, scope⟩)
      (env'.renderInclude render' ⟨tag', options, scope, scope⟩)
  layouts : tag.extension = none → tag.name = "layout" → ∀ options scope, Follows options tag →
    L.Agrees (Environment.renderLayout ⟨tag, options, scope, scope⟩)
      (Environment.renderLayout ⟨tag', options, scope, scope⟩)
  blocks : tag.extension = none → tag.name = "block" → ∀ options scope, Follows options tag →
    L.Agrees (Environment.renderBlock ⟨tag, options, scope, scope⟩)
      (Environment.renderBlock ⟨tag', options, scope, scope⟩)
  regions : tag.extension = none → tag.name = "region" → ∀ options scope, Follows options tag →
    L.Agrees (env.renderRegion render ⟨tag, options, scope, scope⟩)
      (env'.renderRegion render' ⟨tag', options, scope, scope⟩)

theorem Handlers.inSame {L : Lockstep} {env env' : Environment} {render render' : Renderer}
    {tag tag' : Tag} (h : L.Handlers env env' render render' tag tag') :
    L.HandlersIn .same env env' render render' tag tag' := by
  refine ⟨?_, ?_, ?_, ?_⟩
  · rintro he hn options scope _ rfl hf
    exact h.includes he hn options scope hf
  · rintro he hn options scope _ rfl hf
    exact h.layouts he hn options scope hf
  · rintro he hn options scope _ rfl hf
    exact h.blocks he hn options scope hf
  · rintro he hn options scope _ rfl hf
    exact h.regions he hn options scope hf

section Handling

variable {L : Lockstep} {env env' : Environment} {render render' : Renderer} {tag tag' : Tag}
  {options : Options} {scope scope' : Scope}

theorem agrees_renderInclude {nodes : List Node → List Node → Prop}
    (warn : L.Agrees (warn .unnamedInclude) (warn .unnamedInclude))
    (template : ∀ name, options.lookup "template" = some name →
      L.Relates (Option.Rel nodes) (env.template name) (env'.template name))
    (deeper : ∀ name {ns ns'}, nodes ns ns' →
      L.Agrees (env.oneDeeper name do env.finish (← render ns scope) options)
        (env'.oneDeeper name do env'.finish (← render' ns' scope') options)) :
    L.Agrees (env.renderInclude render ⟨tag, options, scope, scope⟩)
      (env'.renderInclude render' ⟨tag', options, scope', scope'⟩) := by
  unfold Environment.renderInclude
  dsimp only
  split
  · exact Agrees.bind warn fun _ => agrees_pure _
  · exact Agrees.bind warn fun _ => agrees_pure _
  · next name _ ho =>
    refine Relates.bind (template name ho) ?_
    rintro _ _ (hns | _)
    · exact deeper name hns
    · exact agrees_pure _

theorem agrees_renderLayout
    (request : ∀ name, options.lookup "name" = some name → name ≠ "" → ∀ s t, L.states s t →
      L.states { s with registry := s.registry.requestLayout name }
        { t with registry := t.registry.requestLayout name }) :
    L.Agrees (Environment.renderLayout ⟨tag, options, scope, scope⟩)
      (Environment.renderLayout ⟨tag', options, scope', scope'⟩) := by
  unfold Environment.renderLayout
  dsimp only
  split
  · exact agrees_pure _
  · exact agrees_pure _
  · next name hn ho => exact Agrees.bind (agrees_update (request name ho hn)) fun _ => agrees_pure _

theorem agrees_renderBlock
    (keep : ∀ region, region ≠ "" → ∀ s t, L.states s t →
      L.states { s with registry := s.registry.addBlock region ⟨tag.children, scope⟩ }
        { t with registry := t.registry.addBlock region ⟨tag'.children, scope'⟩ }) :
    L.Agrees (Environment.renderBlock ⟨tag, options, scope, scope⟩)
      (Environment.renderBlock ⟨tag', options, scope', scope'⟩) := by
  unfold Environment.renderBlock
  dsimp only
  split
  · exact agrees_pure _
  · exact agrees_pure _
  · next region hr _ => exact Agrees.bind (agrees_update (keep region hr)) fun _ => agrees_pure _

theorem agrees_renderRegion {blocks : Block → Block → Prop}
    (lookup : ∀ s t, L.states s t →
      Option.Rel blocks (s.registry.blocks.lookup ((options.lookup "name").getD ""))
        (t.registry.blocks.lookup ((options.lookup "name").getD "")))
    (find : ∀ region s t, L.states s t →
      L.states { s with registry := (s.registry.findBlock region).2 }
        { t with registry := (t.registry.findBlock region).2 })
    (finish : ∀ text, L.Agrees (env.finish text options) (env'.finish text options))
    (enclosed : L.Agrees (render tag.children scope) (render' tag'.children scope'))
    (kept : ∀ b b', blocks b b' → L.Agrees (render b.nodes b.scope) (render' b'.nodes b'.scope)) :
    L.Agrees (env.renderRegion render ⟨tag, options, scope, scope⟩)
      (env'.renderRegion render' ⟨tag', options, scope', scope'⟩) := by
  have found : L.Relates (Option.Rel blocks)
      (Environment.findBlock ((options.lookup "name").getD ""))
      (Environment.findBlock ((options.lookup "name").getD "")) :=
    fun s t hs => .ok (lookup s t hs) (find _ s t hs)
  refine Relates.bind found ?_
  rintro _ _ (hb | _)
  · exact Agrees.bind (kept _ _ hb) finish
  · exact Agrees.bind enclosed finish

end Handling

namespace Pairing

variable {L : Lockstep} {V : View} {nodes : List Node → List Node → Prop} {env env' : Environment}
  {render render' : Renderer} {budget budget' : Nat} {tag tag' : Tag}

section View

variable (h : L.Pairing V nodes env env' render render' budget budget')

include h

theorem renderStructural (ht : TagAgrees nodes tag tag') (hm : V.Mentions tag)
    (hh : L.HandlersIn V env env' render render' tag tag') (he : tag.extension = none)
    {options : Options} (hf : Follows options tag) {scope scope' : Scope}
    (hs : V.scopes scope scope') {structural : Structural}
    (hstructural : Structural.ofName? tag.name = some structural)
    (hneg : Environment.negated? tag.name = none) :
    L.Agrees (env.renderStructural render budget ⟨tag, options, scope, scope⟩ structural)
      (env'.renderStructural render' budget' ⟨tag', options, scope', scope'⟩ structural) := by
  have ho := OccurrenceAgrees.of_tags ht options hs hs
  have hn := Structural.eq_name_of_ofName? hstructural
  have hname := hm.1 he
  rw [hneg, Option.getD_none, hn] at hname
  cases structural with
  | «include» => exact hh.includes he hn options hs hf
  | layout => exact hh.layouts he hn options hs hf
  | block => exact hh.blocks he hn options hs hf
  | region => exact hh.regions he hn options hs hf
  | first => exact h.renderMarker ho _
  | last => exact h.renderMarker ho _
  | value => exact h.renderItemValue ho hname
  | values => exact h.renderItemValues ho hname

theorem renderExtensionTag (ht : TagAgrees nodes tag tag') (options : Options)
    {scope scope' : Scope} (hs : V.scopes scope scope') {extension : String}
    (hextension : V.extension extension) :
    L.Agrees (env.renderExtensionTag render budget tag options scope extension)
      (env'.renderExtensionTag render' budget' tag' options scope' extension) := by
  unfold Environment.renderExtensionTag
  rw [ht.name_eq]
  refine Relates.bind (h.extension hextension hs) fun home home' hhome => ?_
  cases hhome with
  | none => exact h.renderSubject (.of_tags ht options hs hs) _ h.view.kind.null
  | some hhome =>
    refine Gives.bind (hhome.2 _) fun c hc => ?_
    exact h.renderSubject (.of_tags ht options hs hhome.1) _ hc

theorem renderWith (ht : TagAgrees nodes tag tag') (hm : V.Mentions tag)
    (hh : L.HandlersIn V env env' render render' tag tag') {options : Options}
    (hf : Follows options tag) {scope scope' : Scope} (hs : V.scopes scope scope') :
    L.Agrees (env.renderWith render budget tag options scope)
      (env'.renderWith render' budget' tag' options scope') := by
  have ho := OccurrenceAgrees.of_tags ht options hs hs
  unfold Environment.renderWith
  rw [← ht.extension_eq, ← ht.name_eq]
  cases he : tag.extension with
  | some extension => exact h.renderExtensionTag ht options hs (hm.2 extension he)
  | none =>
    have hname := hm.1 he
    cases hneg : Environment.negated? tag.name with
    | some name =>
      rw [hneg] at hname
      exact Gives.bind (h.view.lookup hs hname) fun c hc => h.renderSubject ho _ hc
    | none =>
      rw [hneg] at hname
      cases hstructural : Structural.ofName? tag.name with
      | some structural => exact h.renderStructural ht hm hh he hf hs hstructural hneg
      | none => exact Gives.bind (h.view.lookup hs hname) fun c hc => h.renderSubject ho _ hc

theorem renderTag (ht : TagAgrees nodes tag tag') (hm : V.Mentions tag)
    (hh : L.HandlersIn V env env' render render' tag tag') {scope scope' : Scope}
    (hs : V.scopes scope scope') :
    L.Agrees (env.renderTag render budget tag scope)
      (env'.renderTag render' budget' tag' scope') := by
  refine Relates.bind (h.optionsOf ht hs) ?_
  rintro options _ ⟨rfl, hf⟩
  exact (h.renderWith ht hm hh hf hs).map

end View

section Same

variable (h : L.Pairing .same nodes env env' render render' budget budget')

include h

theorem renderWith_same (ht : TagAgrees nodes tag tag')
    (hh : L.Handlers env env' render render' tag tag') {options : Options}
    (hf : Follows options tag) (scope : Scope) :
    L.Agrees (env.renderWith render budget tag options scope)
      (env'.renderWith render' budget' tag' options scope) :=
  h.renderWith ht (View.same_mentions tag) hh.inSame hf rfl

theorem renderTag_same (ht : TagAgrees nodes tag tag')
    (hh : L.Handlers env env' render render' tag tag') (scope : Scope) :
    L.Agrees (env.renderTag render budget tag scope)
      (env'.renderTag render' budget' tag' scope) :=
  h.renderTag ht (View.same_mentions tag) hh.inSame rfl

end Same

end Pairing

end Lockstep

end TagTemplate
