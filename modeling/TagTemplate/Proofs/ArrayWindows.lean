import TagTemplate.Proofs.HiddenItems
import TagTemplate.Proofs.Inlining
import TagTemplate.Proofs.Lockstep.Plain
import TagTemplate.Proofs.Meaning

/-!
# Windows are slices

An array that is shown as a whole is shown in part by a tag that skips some items and is limited to
some. It shows what it would show without these attributes if the array were just this part, with
the same ends of the repetition. Parts of equal size, each after the one before, have every item
once and in order.
-/

namespace TagTemplate

open Markup (Node Tag AttributeValue tagsOf)
open TagTemplate.Action

/-- The attributes that say which items of an array are shown. -/
def boundNames : List String := ["skip", "limit"]

def unbounded {α : Type} (attributes : List (String × α)) : List (String × α) :=
  attributes.filter fun p => decide (p.1 ∉ boundNames)

namespace Markup.Tag

def withoutBounds (tag : Tag) : Tag := { tag with attributes := unbounded tag.attributes }

def bound? (tag : Tag) (name : String) : Option Int :=
  (tag.literal? name).bind Text.readInteger?

def slice (tag : Tag) (items : List HostValue) : List HostValue :=
  let rest := items.drop ((tag.bound? "skip").getD 0).toNat
  (tag.bound? "limit").elim rest fun limit => rest.take limit.toNat

theorem slice_eq_window (tag : Tag) (items : List HostValue) :
    tag.slice items =
      Content.window items ((tag.bound? "skip").getD 0) (tag.bound? "limit") := by
  unfold slice Content.window
  cases tag.bound? "limit" with
  | none => rfl
  | some limit => rfl

theorem isPlain_slice (tag : Tag) {items : List HostValue}
    (h : everyItem HostValue.isPlain items) : everyItem HostValue.isPlain (tag.slice items) := by
  rw [everyItem_iff, slice_eq_window]
  exact fun v hv => everyItem_iff.1 h v (mem_of_mem_window hv)

end Markup.Tag

/-- Besides the tag nothing tells which array is shown as a whole right around it. Neither what is
rendered for the tag looks `values` up nor any function within its reach. If `inner` allows functions
to ask for what the innermost frame was entered with, the tag has no markup in its attributes, which
would be rendered where that is the array. -/
structure Environment.Unseen (env : Environment) (s : State) (tag : Tag) (parent : Scope)
    (inner : Bool) : Prop where
  tags : ∀ t, env.Unfolds s tag t → ¬ t.LooksUp "values"
  scope : ∀ f ∈ parent.frames, (HostKind.blind "values" inner).IsFrame f
  loaded : ∀ require ∈ env.require, ∀ name, env.Asks s tag name → ∀ v,
    require name = .ok (some v) → v.isBlind "values" inner
  kept : ∀ name, env.Asks s tag name → ∀ c, s.extensions.lookup name = some (some c) →
    c.isBlind "values" inner
  attributes : inner → ∀ p ∈ tag.attributes, ∃ text, p.2 = .literal text

theorem Follows.lookup_eq {options : Options} {tag : Tag} (h : Follows options tag) {name : String}
    (hwritten : ∀ p ∈ tag.attributes, p.1 = name → ∃ text, p.2 = .literal text) :
    options.lookup name = tag.literal? name := by
  have hkey := h name
  unfold Markup.Tag.literal?
  cases hv : tag.attributes.lookup name with
  | none =>
    rw [hv] at hkey
    exact hkey
  | some v =>
    obtain ⟨text, rfl⟩ := hwritten _ (OrderedMap.mem_of_lookup hv) rfl
    rw [hv] at hkey
    exact hkey

theorem Follows.lookup_eq_none {options : Options} {tag : Tag} (h : Follows options tag)
    {name : String} (hname : name ∉ tag.attributes.map Prod.fst) : options.lookup name = none := by
  have hkey := h name
  rw [OrderedMap.lookup_eq_none hname] at hkey
  exact hkey

theorem Lockstep.relates_optionsOf_filter {L : Lockstep} {render render' : Renderer}
    {scope scope' : Scope} (keep : String → Bool) {tag : Tag}
    (hrender : ∀ key ns, (key, .markup ns) ∈ tag.attributes →
      L.Agrees (render ns scope) (render' ns scope'))
    (hwritten : ∀ p ∈ tag.attributes, keep p.1 = false → ∃ text, p.2 = .literal text) :
    L.Relates (fun o o' => Follows o tag ∧ o' = o.filter fun p => keep p.1)
      (optionsOf render scope tag)
      (optionsOf render' scope'
        { tag with attributes := tag.attributes.filter fun p => keep p.1 }) := by
  obtain ⟨name, extension, as, cs, closing⟩ := tag
  unfold optionsOf
  dsimp only at hrender hwritten ⊢
  induction as with
  | nil => exact relates_pure ⟨fun _ => rfl, rfl⟩
  | cons p as ih =>
    obtain ⟨key, v⟩ := p
    have hrest := ih (fun key ns h => hrender key ns (List.mem_cons_of_mem _ h))
      fun p hp => hwritten p (List.mem_cons_of_mem _ hp)
    have htext : L.Relates (fun t t' => t = t' ∧ ∀ s, v = .literal s → s = t)
        (attributeText render scope v) (attributeText render' scope' v) := by
      cases v with
      | literal text => exact relates_pure ⟨rfl, fun _ h => (AttributeValue.literal.inj h).symm⟩
      | markup ns => exact (hrender key ns List.mem_cons_self).mono fun _ _ ht => ⟨ht, nofun⟩
    cases hkeep : keep key with
    | true =>
      rw [List.filter_cons, if_pos hkeep]
      simp only [List.mapM_cons, bind_assoc, pure_bind]
      refine Relates.bind htext ?_
      rintro t _ ⟨rfl, hliteral⟩
      refine Relates.bind hrest ?_
      rintro r _ ⟨hr, rfl⟩
      refine relates_pure ⟨hr.cons hliteral, ?_⟩
      rw [List.filter_cons, if_pos hkeep]
    | false =>
      obtain ⟨text, rfl⟩ := hwritten _ List.mem_cons_self hkeep
      rw [List.filter_cons_of_neg (by simp [hkeep]), ← bind_pure (List.mapM _ (List.filter _ as))]
      simp only [List.mapM_cons, attributeText, pure_bind]
      refine Relates.bind hrest ?_
      rintro r _ ⟨hr, rfl⟩
      refine relates_pure ⟨hr.cons fun t ht => (AttributeValue.literal.inj ht).symm, ?_⟩
      rw [List.filter_cons_of_neg (by simp [hkeep])]

theorem lookup_unbounded {α : Type} (attributes : List (String × α)) {name : String}
    (h : name ∉ boundNames) : (unbounded attributes).lookup name = attributes.lookup name := by
  unfold unbounded
  rw [OrderedMap.lookup_filter fun name => decide (name ∉ boundNames), if_pos (decide_eq_true h)]

theorem numberOption_unbounded (options : Options) {name : String} (h : name ∈ boundNames) :
    Environment.numberOption (unbounded options) name = none := by
  unfold unbounded Environment.numberOption
  rw [OrderedMap.lookup_filter fun name => decide (name ∉ boundNames), if_neg (by simpa using h)]
  rfl

theorem Follows.numberOption_eq {options : Options} {tag : Tag} (h : Follows options tag)
    (hwritten : ∀ p ∈ tag.attributes, p.1 ∈ boundNames → ∃ text, p.2 = .literal text)
    {name : String} (hname : name ∈ boundNames) :
    Environment.numberOption options name = tag.bound? name := by
  unfold Environment.numberOption Markup.Tag.bound?
  rw [h.lookup_eq fun p hp heq => hwritten p hp (heq ▸ hname)]

theorem Environment.finish_unbounded (env : Environment) {options : Options}
    (hfilters : ∀ p ∈ env.filters, options.lookup p.1 = none) (text : String) :
    env.finish text (unbounded options) = env.finish text options := by
  have hnone : ∀ p ∈ env.filters, OrderedMap.has options p.1 = false := by
    intro p hp
    rw [OrderedMap.has, hfilters p hp]
    rfl
  have hnone' : ∀ p ∈ env.filters, OrderedMap.has (unbounded options) p.1 = false := by
    intro p hp
    unfold unbounded
    rw [OrderedMap.has, OrderedMap.lookup_filter fun name => decide (name ∉ boundNames),
      hfilters p hp, ite_self]
    rfl
  unfold finish wrapped
  rw [Filters.apply_of_no_attribute _ _ hnone, Filters.apply_of_no_attribute _ _ hnone',
    lookup_unbounded _ (by decide), lookup_unbounded _ (by decide)]

theorem Scope.lookup_whole (parent : Scope) (items : List HostValue) :
    (parent.push (.whole items)).lookup "values" = pure (.array items) := rfl

theorem Environment.renderTag_whole (env : Environment) (render : Renderer) (budget : Nat)
    {tag : Tag} (h : tag.ShowsItems) (parent : Scope) (items : List HostValue) :
    let scope := parent.push (.whole items)
    env.renderTag render budget tag scope = (do
      let options ← optionsOf render scope tag
      let shown := Content.window items ((numberOption options "skip").getD 0)
        (numberOption options "limit")
      return orDefault (← env.showContent render ⟨tag, options, scope, scope⟩ (.array shown))
        options) := by
  intro scope
  rw [env.renderTag_of_meaning render budget (env.meaning?_of_showsItems h)]
  simp only [scope, Scope.lookup_whole, pure_bind]
  refine bind_congr fun options => ?_
  simp [renderAs, renderSubject, showSubject, Occurrence.taken, h, h.kind.2.1]

namespace Lockstep

variable {env : Environment} {s : State} {tag : Tag} {parent : Scope} {inner : Bool}
  {xs ys : List HostValue} (h : env.Unseen s tag parent inner)
  (hxs : everyItem HostValue.isPlain xs)

theorem blind_whole (hxs : everyItem HostValue.isPlain xs) :
    (HostKind.blind "values" inner).IsFrame (.whole xs) :=
  HostKind.blind_sound.isFrame (isPlain_whole hxs)

include h hxs

theorem blind_around : ∀ f ∈ (parent.push (.whole xs)).frames,
    (HostKind.blind "values" inner).IsFrame f :=
  List.forall_mem_cons.2 ⟨blind_whole hxs, h.scope⟩

theorem alike_attributes (hinner : inner = false) :
    (parent.push (.whole xs)).Alike inner (parent.push (.whole ys)) := by
  refine ⟨.cons (.whole xs ys) (Frame.alike_refl _), fun hset => ?_, blind_around h hxs⟩
  rw [hinner] at hset
  cases hset

theorem alike_inside {f : Frame} (hf : f.IsPlain) :
    ((parent.push (.whole xs)).push f).Alike inner ((parent.push (.whole ys)).push f) :=
  ⟨.cons (.same f) (.cons (.whole xs ys) (Frame.alike_refl _)), fun _ => rfl,
    List.forall_mem_cons.2 ⟨HostKind.blind_sound.isFrame hf, blind_around h hxs⟩⟩

theorem relates_unbounded
    (hwritten : ∀ p ∈ tag.attributes, p.1 ∈ boundNames → ∃ text, p.2 = .literal text)
    (budget : Nat) :
    (hidden env s tag inner).Relates (fun o o' => Follows o tag ∧ o' = unbounded o)
      (optionsOf (env.render budget) (parent.push (.whole xs)) tag)
      (optionsOf (env.render budget) (parent.push (.whole ys)) tag.withoutBounds) := by
  refine relates_optionsOf_filter (fun name => decide (name ∉ boundNames)) (fun key ns hmem => ?_)
    fun p hp hkeep => hwritten p hp (by simpa using hkeep)
  have hinner : inner = false := by
    by_contra hset
    obtain ⟨text, htext⟩ := h.attributes (Bool.not_eq_false _ ▸ hset) _ hmem
    cases htext
  exact hidden_render h.tags h.loaded budget (Environment.unfolds_inside (.inr ⟨key, hmem⟩))
    (alike_attributes h hxs hinner)

theorem plainAgrees_unbounded {options : Options}
    (hfilters : ∀ p ∈ env.filters, options.lookup p.1 = none) (budget : Nat) :
    (hidden env s tag inner).PlainAgrees env env (env.render budget) (env.render budget)
      ⟨tag, options, parent.push (.whole xs), parent.push (.whole xs)⟩
      ⟨tag.withoutBounds, unbounded options, parent.push (.whole ys),
        parent.push (.whole ys)⟩ := by
  have hnames : ∀ name ∈ Options.arrayNames, name ∉ boundNames := by decide
  refine ⟨fun _ => trivial, rfl, ?_, fun text => ?_, fun f hf => ?_⟩
  · exact fun name hname => (lookup_unbounded options (hnames name hname)).symm
  · rw [env.finish_unbounded hfilters]
    exact hidden_host.finish rfl text options
  · exact hidden_render h.tags h.loaded budget (Environment.unfolds_inside (.inl rfl))
      (alike_inside h hxs hf)

theorem agrees_slice (hitems : tag.ShowsItems)
    (hwritten : ∀ p ∈ tag.attributes, p.1 ∈ boundNames → ∃ text, p.2 = .literal text)
    (hfilters : ∀ p ∈ env.filters, p.1 ∉ tag.attributes.map Prod.fst) (budget : Nat) :
    (hidden env s tag inner).Agrees
      (env.renderTag (env.render budget) budget tag (parent.push (.whole xs)))
      (env.renderTag (env.render budget) budget tag.withoutBounds
        (parent.push (.whole (tag.slice xs)))) := by
  have hitems' : tag.withoutBounds.ShowsItems := hitems
  rw [env.renderTag_whole _ _ hitems, env.renderTag_whole _ _ hitems']
  refine Relates.bind (relates_unbounded h hxs hwritten budget) ?_
  rintro options _ ⟨hfollows, rfl⟩
  -- on the left the window is the slice, on the right it is all of it
  rw [hfollows.numberOption_eq hwritten (by decide), hfollows.numberOption_eq hwritten (by decide),
    ← tag.slice_eq_window, numberOption_unbounded options (by decide),
    numberOption_unbounded options (by decide)]
  have hnone := fun p hp => hfollows.lookup_eq_none (hfilters p hp)
  refine Agrees.bind ((plainAgrees_unbounded h hxs hnone budget).showArray (tag.isPlain_slice hxs))
    fun text => ?_
  unfold orDefault
  rw [lookup_unbounded options (by decide)]
  exact agrees_pure _

end Lockstep

theorem take_pages {α : Type} (xs : List α) (k n : Nat) :
    (List.range n).flatMap (fun i => (xs.drop (i * k)).take k) = xs.take (n * k) := by
  induction n with
  | zero => simp
  | succ n ih => simp [List.range_succ, ih, Nat.succ_mul, List.take_add]

end TagTemplate
