import TagTemplate.Proofs.Lockstep.Render
import TagTemplate.Proofs.PlainContent

/-!
# Plain arrays in lockstep

Two tags show the same of an array of plain items if the attributes that an array is shown by have
the same values, and what the tags enclose is rendered alike inside plain frames. Where the tags
stand and what their other attributes are does not matter.
-/

namespace TagTemplate

open TagTemplate.Action
open Lockstep

def Options.arrayNames : List String := "repeat" :: inlineNames

mutual

theorem HostKind.Sound.plain {K : HostKind} (h : K.Sound) :
    (v : HostValue) → v.every HostValue.isPlain → K.value v
  | .list items, hv => by
    rw [HostValue.every, Bool.and_eq_true] at hv
    exact h.list.2 (plainItems h items hv.2)
  | .object o, hv => by
    rw [HostValue.every, Bool.and_eq_true] at hv
    exact plainObject h o hv.1 hv.2
  | .null, _ => h.null
  | .bool b, _ => h.bool b
  | .number n, _ => h.number n
  | .string s, _ => h.string s
  | .stream .., hv => by cases HostValue.every_self hv
  | .function _, hv => by cases HostValue.every_self hv
  | .content _, hv => by cases HostValue.every_self hv

theorem HostKind.Sound.plainObject {K : HostKind} (h : K.Sound) :
    (o : HostObject) → (HostValue.object o).isPlain → o.every HostValue.isPlain →
      K.value (.object o)
  | .mapping entries, _, ho => h.mapping.2 (plainEntries h entries ho)
  | .record fields computed, hself, ho => by
    obtain rfl : computed = [] := List.isEmpty_iff.1 hself
    exact h.record.2 ⟨plainEntries h fields ho, List.forall_mem_nil _⟩
  | .unprintable, _, _ => h.unprintable

theorem HostKind.Sound.plainItems {K : HostKind} (h : K.Sound) :
    (vs : List HostValue) → everyItem HostValue.isPlain vs → ∀ v ∈ vs, K.value v
  | [], _ => List.forall_mem_nil _
  | v :: vs, hvs => by
    rw [everyItem, Bool.and_eq_true] at hvs
    exact List.forall_mem_cons.2 ⟨plain h v hvs.1, plainItems h vs hvs.2⟩

theorem HostKind.Sound.plainEntries {K : HostKind} (h : K.Sound) :
    (es : List (String × HostValue)) → everyEntry HostValue.isPlain es → ∀ p ∈ es, K.value p.2
  | [], _ => List.forall_mem_nil _
  | (_, v) :: es, hes => by
    rw [everyEntry, Bool.and_eq_true] at hes
    exact List.forall_mem_cons.2 ⟨plain h v hes.1, plainEntries h es hes.2⟩

end

theorem HostKind.Sound.isFrame {K : HostKind} (h : K.Sound) {f : Frame} (hf : f.IsPlain) :
    K.IsFrame f :=
  ⟨h.plain _ hf.value.raw, fun name c hc => h.plain _ (hf.bindings name c hc).raw⟩

theorem isPlain_item {c : Content} (hc : c.IsPlain) (iteration : Option Iteration) :
    Frame.IsPlain { value := c, bindings := itemBindings c, iteration } :=
  ⟨hc, fun _ _ hb => eq_of_lookup_itemBindings hb ▸ hc⟩

theorem isPlain_whole {items : List HostValue} (hi : everyItem HostValue.isPlain items) :
    (Frame.whole items).IsPlain := by
  refine ⟨hi, fun name b hb => ?_⟩
  cases List.mem_singleton.1 (OrderedMap.mem_of_lookup hb)
  exact hi

namespace Lockstep

/-- Two tags that are being rendered, so that what they enclose is rendered alike inside plain
frames, with attributes that are alike where it matters for an array. -/
structure PlainAgrees (L : Lockstep) (env env' : Environment) (render render' : Renderer)
    (o o' : Occurrence) : Prop where
  allowed : ∀ e, L.allowed e
  isEmpty : o.tag.children.isEmpty = o'.tag.children.isEmpty
  options : Options.AlikeOn Options.arrayNames o.options o'.options
  finish : ∀ text, L.Agrees (env.finish text o.options) (env'.finish text o'.options)
  render : ∀ f : Frame, f.IsPlain →
    L.Agrees (render o.tag.children (o.parent.push f)) (render' o'.tag.children (o'.parent.push f))

namespace PlainAgrees

variable {L : Lockstep} {env env' : Environment} {render render' : Renderer} {o o' : Occurrence}
  (h : L.PlainAgrees env env' render render' o o')

include h

theorem inlineOptions : Options.AlikeOn Options.inlineNames o.options o'.options :=
  h.options.mono (List.subset_cons_self _ _)

theorem inline {c : Content} (hc : c.IsPlain) :
    L.Agrees (c.inline o.options) (c.inline o'.options) := by
  obtain ⟨r, hr, hr'⟩ := Content.inline_of_alike h.inlineOptions hc
  rw [hr, hr']
  exact agrees_ofExcept fun e _ => h.allowed e

theorem item (iteration : Iteration) {v : HostValue} (hv : v.every HostValue.isPlain) :
    L.Agrees (o.item render iteration v) (o'.item render' iteration v) := by
  obtain ⟨c, hc, hcontent⟩ := Occurrence.itemContent_plain hv
  unfold Occurrence.item
  rw [hcontent, hcontent, pure_bind, pure_bind, h.isEmpty]
  split
  · exact h.inline hc
  · exact h.render _ (isPlain_item hc _)

theorem collection {items : List HostValue} (hi : everyItem HostValue.isPlain items) :
    L.Agrees (env.collection render o items) (env'.collection render' o' items) := by
  unfold Environment.collection
  rw [h.isEmpty]
  dsimp only
  split
  · exact Agrees.bind (h.inline hi) h.finish
  · exact Agrees.bind (h.render _ (isPlain_whole hi)) h.finish

theorem repetition {items : List HostValue} (hi : everyItem HostValue.isPlain items) :
    L.Agrees (env.repetition render o items) (env'.repetition render' o' items) := by
  unfold Environment.repetition
  refine Agrees.bind ?_ fun parts => ?_
  · refine agrees_mapM (R := fun p p' => p = p' ∧ p.1.every HostValue.isPlain)
      (List.forall₂_same.2 fun p hp => ⟨rfl, ?_⟩) ?_
    · exact everyItem_iff.1 hi _ (List.fst_mem_of_mem_zipIdx hp)
    · rintro p _ ⟨rfl, hp⟩
      exact h.item _ hp
  · rw [h.inlineOptions.join]
    exact h.finish _

theorem showArray {items : List HostValue} (hi : everyItem HostValue.isPlain items) :
    L.Agrees (env.showContent render o (.array items))
      (env'.showContent render' o' (.array items)) := by
  cases items with
  | nil => exact agrees_pure _
  | cons item items =>
    unfold Environment.showContent
    dsimp only
    rw [h.options "repeat" List.mem_cons_self]
    split
    · exact h.collection hi
    · exact h.repetition hi

end PlainAgrees

end Lockstep

end TagTemplate
