import TagTemplate.Proofs.Fetching
import TagTemplate.Proofs.Lockstep.Page
import TagTemplate.Proofs.Termination

/-!
# Pages that are akin

Two pages are compared that are made of different things. Their values correspond as far as they are
looked into, and their trees tag by tag, where the text between the tags may be left out of the
comparison. Scopes and states then correspond as what is in them does, and so does what a name means
in two scopes.
-/

namespace TagTemplate

open Markup (Node Tag AttributeValue)
open TagTemplate.Action

/-- How two pages correspond: their values and the content of these, their trees with the text that
they show or without, and what their hosts leave behind. Only some names and extensions need to mean
something alike in both. -/
structure Kinship where
  value : HostValue → HostValue → Prop
  content : Content → Content → Prop
  nodes : Prop → List Node → List Node → Prop
  name : String → Prop := fun _ => True
  extension : String → Prop := fun _ => True
  host : HostState → HostState → Prop := fun _ _ => True

def Shown (seen : Prop) (text text' : String) : Prop := seen → text = text'

theorem Shown.of_eq {seen : Prop} {text text' : String} (h : text = text') :
    Shown seen text text' := fun _ => h

theorem Shown.map {seen : Prop} {text text' : String} (f : String → String)
    (h : Shown seen text text') : Shown seen (f text) (f text') :=
  fun hseen => congrArg f (h hseen)

theorem Shown.list {seen : Prop} {texts texts' : List String}
    (h : List.Forall₂ (Shown seen) texts texts') (hseen : seen) : texts = texts' := by
  induction h with
  | nil => rfl
  | cons ht _ ih => rw [ht hseen, ih]

namespace Kinship

variable (K : Kinship)

/-- The contents are of one form, and of the forms that values without functions have. -/
inductive Form : Content → Content → Prop where
  | missing : Form .missing .missing
  | null : Form .null .null
  | bool (b) : Form (.bool b) (.bool b)
  | number (n) : Form (.number n) (.number n)
  | string (s) : Form (.string s) (.string s)
  | array {items items'} : List.Forall₂ K.value items items' → Form (.array items) (.array items')
  | object (o o') : Form (.object o) (.object o')

structure Frames (f f' : Frame) : Prop where
  value : K.content f.value f'.value
  bindings : ∀ name, Option.Rel K.content (f.bindings.lookup name) (f'.bindings.lookup name)
  iteration : f.iteration = f'.iteration
  collection : f.collection = f'.collection

def Scopes (s s' : Scope) : Prop := List.Forall₂ K.Frames s.frames s'.frames

def Mentions (tag : Tag) : Prop :=
  K.name ((Environment.negated? tag.name).getD tag.name) ∧
    ∀ extension ∈ tag.extension, K.extension extension

/-- Tags that differ at most in what they enclose. All of a block's body may be shown later, so that
its text is compared also where text is not seen. -/
structure Tags (seen : Prop) (tag tag' : Tag) : Prop where
  name : tag.name = tag'.name
  extension : tag.extension = tag'.extension
  attributes : tag.attributes = tag'.attributes
  mentioned : K.Mentions tag
  values : ∀ key ns, (key, .markup ns) ∈ tag.attributes → K.nodes True ns ns
  children : K.nodes seen tag.children tag'.children
  body : IsBlock tag → K.nodes True tag.children tag'.children

inductive Items (seen : Prop) : Node → Node → Prop where
  | text {text text'} : Shown seen text text' → Items seen (.text text) (.text text')
  | tag {tag tag'} : K.Tags seen tag tag' → Items seen (.tag tag) (.tag tag')

structure Blocks (b b' : Block) : Prop where
  nodes : K.nodes True b.nodes b'.nodes
  scope : K.Scopes b.scope b'.scope

/-- What has been kept in two renderings corresponds, and they are equally deep in includes. -/
structure States (s t : State) : Prop where
  host : K.host s.host t.host
  templates : ∀ name, Option.Rel (Option.Rel (K.nodes True)) (s.templates.lookup name)
    (t.templates.lookup name)
  extensions : ∀ name, K.extension name → Option.Rel (Option.Rel K.content)
    (s.extensions.lookup name) (t.extensions.lookup name)
  blocks : ∀ region, Option.Rel K.Blocks (s.registry.blocks.lookup region)
    (t.registry.blocks.lookup region)
  pending : s.registry.pending = t.registry.pending
  depth : s.depth = t.depth

def lockstep : Lockstep where
  states := K.States

theorem result_eq {α : Type} {r r' : Except Fault α × State} (h : K.lockstep.Outcome Eq r r') :
    r.1 = r'.1 := by
  cases h with
  | ok hx => exact congrArg Except.ok hx
  | error => rfl
  | excused he => exact he.elim

/-- What is looked up and shown of corresponding values corresponds. -/
structure Looks (L : Lockstep) : Prop where
  form : ∀ {c c'}, K.content c c' → K.Form c c'
  missing : K.content .missing .missing
  array : ∀ {items items'}, List.Forall₂ K.value items items' →
    K.content (.array items) (.array items')
  ofHost : ∀ {v v'}, K.value v v' → L.Relates K.content (Content.ofHost v) (Content.ofHost v')
  get : ∀ {c c'}, K.content c c' → ∀ {name}, K.name name →
    L.Relates K.content (c.get name) (c'.get name)
  inline : ∀ {c c'}, K.content c c' → ∀ options,
    L.Agrees (c.inline options) (c'.inline options)
  nodes : ∀ {seen ns ns'}, K.nodes seen ns ns' → List.Forall₂ (K.Items seen) ns ns'

/-- So does what is copied, and what hosts leave behind. -/
structure Sound : Prop extends K.Looks K.lockstep where
  isNull : ∀ {v v'}, K.value v v' → (v = .null ↔ v' = .null)
  refresh : ∀ {v v'}, K.value v v' → K.lockstep.Relates K.value v.refresh v'.refresh
  host : ∀ {h h'}, K.host h h' → ∀ calls warnings,
    K.host { h with calls := h.calls ++ calls, warnings := h.warnings ++ warnings }
      { h' with calls := h'.calls ++ calls, warnings := h'.warnings ++ warnings }

variable {K}

theorem items_of_everywhere {P : Tag → Prop} {seen : Prop}
    (hnodes : ∀ {seen ns}, Everywhere P ns → K.nodes seen ns ns)
    (hmentions : ∀ tag, P tag → K.Mentions tag) {ns : List Node} (h : Everywhere P ns) :
    List.Forall₂ (K.Items seen) ns ns := by
  induction ns with
  | nil => exact .nil
  | cons n ns ih =>
    cases n with
    | text text => exact .cons (.text (Shown.of_eq rfl)) (ih h.of_text)
    | tag tag =>
      obtain ⟨ht, hinner, hrest⟩ := everywhere_tag.1 h
      have hchildren := everywhere_children hinner
      refine .cons (.tag ⟨rfl, rfl, rfl, hmentions tag ht, fun key values hmem => ?_,
        hnodes hchildren, fun _ => hnodes hchildren⟩) (ih hrest)
      refine hnodes fun t hmem' => hinner t ?_
      rw [innerTags_eq]
      exact List.mem_append_left _ ((sublist_tagsOfAttributes hmem).subset hmem')

theorem Scopes.push {s s' : Scope} (h : K.Scopes s s') {f f' : Frame} (hf : K.Frames f f') :
    K.Scopes (s.push f) (s'.push f') := .cons hf h

theorem Scopes.enter {s s' : Scope} (h : K.Scopes s s') {c c' : Content} (hc : K.content c c') :
    K.Scopes (s.enter c) (s'.enter c') := h.push ⟨hc, fun _ => .none, rfl, rfl⟩

theorem Scopes.frame {s s' : Scope} (h : K.Scopes s s') : K.Frames s.frame s'.frame := by
  obtain _ | ⟨hf, -⟩ := h
  exact hf

theorem Scopes.nearestIteration {s s' : Scope} (h : K.Scopes s s') :
    s.nearestIteration = s'.nearestIteration := by
  unfold Scope.nearestIteration
  unfold Scopes at h
  generalize s.frames = fs at h
  generalize s'.frames = fs' at h
  induction h with
  | nil => rfl
  | cons hf _ ih => rw [List.findSome?_cons, List.findSome?_cons, hf.iteration, ih]

open Lockstep

namespace Looks

variable {L : Lockstep} (h : K.Looks L)

include h

theorem own {f f' : Frame} (hf : K.Frames f f') {name : String} (hn : K.name name) :
    L.Relates K.content (f.own name) (f'.own name) := by
  have hb := hf.bindings name
  unfold Frame.own
  generalize f.bindings.lookup name = m at hb
  generalize f'.bindings.lookup name = m' at hb
  cases hb with
  | none => exact h.get hf.value hn
  | some hc => exact relates_pure hc

theorem lookup {s s' : Scope} (hs : K.Scopes s s') {name : String} (hn : K.name name) :
    L.Relates K.content (s.lookup name) (s'.lookup name) := by
  unfold Scope.lookup
  unfold Scopes at hs
  generalize s.frames = fs at hs
  generalize s'.frames = fs' at hs
  induction hs with
  | nil => exact relates_pure h.missing
  | cons hf _ ih =>
    refine Relates.bind (h.own hf hn) fun c c' hc => ?_
    have hform := h.form hc
    cases hform with
    | missing => exact ih
    | _ => exact relates_pure hc

theorem isEmpty {seen : Prop} {ns ns' : List Node} (hns : K.nodes seen ns ns') :
    ns.isEmpty = ns'.isEmpty := by
  cases h.nodes hns <;> rfl

end Looks

namespace Sound

variable (h : K.Sound)

include h

theorem traced (call : Call) : K.lockstep.Agrees (Action.trace call) (Action.trace call) :=
  agrees_update fun _ _ hs => { hs with host := by simpa using h.host hs.host [call] [] }

theorem warned (warning : Warning) :
    K.lockstep.Agrees (Action.warn warning) (Action.warn warning) :=
  agrees_update fun _ _ hs => { hs with host := by simpa using h.host hs.host [] [warning] }

end Sound

theorem Form.itemBindings {c c' : Content} (h : K.Form c c') (hc : K.content c c') (name : String) :
    Option.Rel K.content ((TagTemplate.itemBindings c).lookup name)
      ((TagTemplate.itemBindings c').lookup name) := by
  have hvalue : Option.Rel K.content (List.lookup name [("value", c)])
      (List.lookup name [("value", c')]) := OrderedMap.rel_lookup_cons hc .none
  cases h with
  | bool | number | string => exact hvalue
  | _ => exact .none

theorem Form.present {c c' : Content} (h : K.Form c c') : c.present = c'.present := by
  cases h with
  | array hitems => cases hitems <;> rfl
  | _ => rfl

end Kinship

end TagTemplate
