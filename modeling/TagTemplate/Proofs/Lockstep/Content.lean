import TagTemplate.Proofs.Lockstep.Host
import TagTemplate.Render.Value

/-!
# Content in lockstep

Looking at a value, looking a name up and showing content without enclosed tags do nothing but call
host code, so both runs come to the same content and to the same text. What is found in host code of
some kind is of that kind.
-/

namespace TagTemplate

namespace Lockstep

open TagTemplate.Action

variable {α β : Type} {L : Lockstep} {K : HostKind}

namespace HostClosed

variable (h : L.HostClosed)
include h

section Attributes

variable (hK : K.Sound)
include hK

theorem gives_readAttribute {o : HostObject} (ho : K.value (.object o)) (name : String) :
    L.Gives (fun m => ∀ v ∈ m, K.value v) (o.attribute? name) (o.attribute? name) := by
  have hnothing : ∀ v ∈ (none : Option HostValue), K.value v := fun _ hv => by cases hv
  cases o with
  | record fields computed =>
    obtain ⟨hfields, hcomputed⟩ := hK.record.1 ho
    rw [HostObject.attribute?]
    split
    · next v hv =>
      refine gives_pure fun _ hmem => ?_
      cases hmem
      exact hfields _ (OrderedMap.mem_of_lookup hv)
    · split
      · next e he =>
        have heval := h.gives_eval hK .none e (hcomputed _ (OrderedMap.mem_of_lookup he))
        refine Gives.bind heval fun v hv => gives_pure fun _ hmem => ?_
        cases hmem
        exact hv
      · exact gives_pure hnothing
  | _ => exact gives_pure hnothing

theorem gives_attributeOrNone {o : HostObject} (ho : K.value (.object o)) (name : String) :
    L.Gives (fun m => ∀ v ∈ m, K.value v) (o.attributeOrNone name) (o.attributeOrNone name) := by
  refine Gives.bind (h.strict.gives_readAttribute hK ho name).attempt fun r hr => ?_
  split
  · exact gives_pure (hr.1 _ rfl)
  · exact gives_pure fun _ hv => by cases hv
  · exact relates_fail (hr.2 _ rfl)

end Attributes

theorem readAttribute (o : HostObject) (name : String) :
    L.Agrees (o.attribute? name) (o.attribute? name) :=
  (h.gives_readAttribute HostKind.any_sound trivial name).agrees

theorem attributeOrNone (o : HostObject) (name : String) :
    L.Agrees (o.attributeOrNone name) (o.attributeOrNone name) :=
  (h.gives_attributeOrNone HostKind.any_sound trivial name).agrees

theorem hasMarkup (o : HostObject) : L.Agrees o.hasMarkup o.hasMarkup :=
  (h.attributeOrNone o "__html__").map

section Kind

variable (hK : K.Sound)
include hK

theorem gives_ofHost {v : HostValue} (hv : K.value v) :
    L.Gives K.content (Content.ofHost v) (Content.ofHost v) := by
  cases v with
  | stream id items =>
    refine Agrees.bind (h.openStream id) fun unread => gives_pure (hK.array.2 ?_)
    cases unread with
    | true => exact hK.stream.1 hv
    | false => exact List.forall_mem_nil _
  | object o =>
    exact Agrees.bind (h.hasMarkup o) fun _ => gives_pure hv
  | content c => exact gives_pure (hK.content.1 hv)
  | _ => exact gives_pure hv

theorem gives_property {o : HostObject} (ho : K.value (.object o)) (name : String) :
    L.Gives K.content (o.get name) (o.get name) := by
  have hmissing : K.content .missing := hK.null
  cases o with
  | mapping entries =>
    rw [HostObject.get]
    split
    · next v hv => exact h.gives_ofHost hK (hK.mapping.1 ho _ (OrderedMap.mem_of_lookup hv))
    · exact gives_pure hmissing
  | record fields computed =>
    rw [HostObject.get]
    split
    · exact gives_pure hmissing
    · refine Gives.bind (h.gives_attributeOrNone hK ho "lookup") fun found hfound => ?_
      split
      · next f =>
        have hf := hK.function.1 (hfound _ rfl)
        refine Gives.bind (h.gives_apply hK hf (.cons (.text name) .nil)) fun v hv => ?_
        split
        · exact gives_pure hmissing
        · exact h.gives_ofHost hK hv
      · refine Gives.bind (h.gives_attributeOrNone hK ho name) fun found hfound => ?_
        split
        · exact h.gives_ofHost hK (hfound _ rfl)
        · exact gives_pure hmissing
  | unprintable => exact gives_pure hmissing

theorem gives_get {c : Content} (hc : K.content c) (name : String) :
    L.Gives K.content (c.get name) (c.get name) := by
  cases c with
  | object o => exact h.gives_property hK hc name
  | _ => exact gives_pure hK.null

theorem gives_own {f : Frame} (hf : K.IsFrame f) (name : String) :
    L.Gives K.content (f.own name) (f.own name) := by
  unfold Frame.own
  split
  · next c hc => exact gives_pure (hf.bindings name c hc)
  · exact h.gives_get hK hf.value name

theorem gives_lookupIn {fs : List Frame} (hfs : ∀ f ∈ fs, K.IsFrame f) (name : String) :
    L.Gives K.content (Scope.lookupIn name fs) (Scope.lookupIn name fs) := by
  induction fs with
  | nil => exact gives_pure hK.null
  | cons f fs ih =>
    rw [List.forall_mem_cons] at hfs
    refine Gives.bind (h.gives_own hK hfs.1 name) fun c hc => ?_
    cases c with
    | missing => exact ih hfs.2
    | _ => exact gives_pure hc

end Kind

theorem ofHost (v : HostValue) : L.Agrees (Content.ofHost v) (Content.ofHost v) :=
  (h.gives_ofHost HostKind.any_sound trivial).agrees

theorem lookupIn (name : String) (fs : List Frame) :
    L.Agrees (Scope.lookupIn name fs) (Scope.lookupIn name fs) :=
  (h.gives_lookupIn HostKind.any_sound (fun _ _ => ⟨trivial, fun _ _ _ => trivial⟩) name).agrees

theorem producer (o : HostObject) : L.Agrees o.producer o.producer := by
  cases o with
  | record fields computed =>
    rw [HostObject.producer]
    refine Agrees.bind (h.hasMarkup _) fun has => ?_
    cases has with
    | true => exact (h.readAttribute _ _).map
    | false => exact (h.attributeOrNone _ _).map
  | _ => exact agrees_pure _

theorem written (n : Number) : L.Agrees n.written n.written := by
  unfold Number.written
  split
  · exact agrees_pure _
  · exact h.fail .badNumber trivial

theorem reference (r : HostReference) : L.Agrees r.written r.written :=
  Gives.bind h.program fun _ _ => agrees_pure _

theorem text (o : HostObject) (name : String) : L.Agrees (o.text? name) (o.text? name) := by
  refine Agrees.bind (h.readAttribute o name) fun found => ?_
  split
  · exact agrees_pure _
  · exact agrees_pure _
  · exact h.fail _ trivial

end HostClosed

mutual

theorem HostClosed.literal (h : L.HostClosed) : (v : HostValue) → L.Agrees v.literal v.literal
  | .null | .bool _ | .string _ => by
    rw [HostValue.literal]
    exact agrees_pure _
  | .number n => by
    rw [HostValue.literal]
    exact h.written n
  | .list items => by
    rw [HostValue.literal]
    exact (literals h items).map
  | .stream .. | .function _ => by
    rw [HostValue.literal]
    exact h.reference _
  | .object o => by
    rw [HostValue.literal]
    exact objectLiteral h o
  | .content c => by
    rw [HostValue.literal]
    exact contentLiteral h c

theorem HostClosed.objectLiteral (h : L.HostClosed) : (o : HostObject) → L.Agrees o.literal o.literal
  | .mapping entries => by
    rw [HostObject.literal]
    exact (entryLiterals h entries).map
  | .record fields computed => by
    rw [HostObject.literal]
    refine Agrees.bind (h.text _ "__repr__") fun found => ?_
    split
    · exact agrees_pure _
    · exact h.reference _
  | .unprintable => by
    rw [HostObject.literal]
    exact h.fail _ trivial

theorem HostClosed.contentLiteral (h : L.HostClosed) : (c : Content) → L.Agrees c.literal c.literal
  | .missing | .null | .bool _ | .string _ => by
    rw [Content.literal]
    exact agrees_pure _
  | .number n => by
    rw [Content.literal]
    exact (h.written n).map
  | .array items => by
    rw [Content.literal]
    exact (literals h items).map
  | .callable _ => by
    rw [Content.literal]
    exact (h.reference _).map
  | .object o => by
    rw [Content.literal]
    exact (objectLiteral h o).map

theorem HostClosed.literals (h : L.HostClosed) : (vs : List HostValue) →
    L.Agrees (TagTemplate.literals vs) (TagTemplate.literals vs)
  | [] => by
    rw [TagTemplate.literals]
    exact agrees_pure _
  | v :: vs => by
    rw [TagTemplate.literals]
    exact (literal h v).bind fun _ => (literals h vs).map

theorem HostClosed.entryLiterals (h : L.HostClosed) : (es : List (String × HostValue)) →
    L.Agrees (TagTemplate.entryLiterals es) (TagTemplate.entryLiterals es)
  | [] => by
    rw [TagTemplate.entryLiterals]
    exact agrees_pure _
  | (_, v) :: es => by
    rw [TagTemplate.entryLiterals]
    exact (literal h v).bind fun _ => (entryLiterals h es).map

end

namespace HostClosed

variable (h : L.HostClosed)
include h

theorem shown (v : HostValue) : L.Agrees v.shown v.shown := by
  unfold HostValue.shown
  split
  · exact agrees_pure _
  · refine Agrees.bind (h.text _ "__str__") fun found => ?_
    split
    · exact agrees_pure _
    · exact h.objectLiteral _
  · exact h.literal _

/-- A producer is given the attributes of the tag and nothing that could render, so that its
failures are equal in both runs before they are dropped. -/
theorem markup (o : HostObject) (options : Options) :
    L.Agrees (o.markup options) (o.markup options) := by
  refine Agrees.bind (h.producer o) fun p => ?_
  split
  · exact agrees_pure _
  · exact agrees_pure _
  · refine Relates.bind (Relates.attempt ?_) ?_
    · refine Agrees.bind (h.strict.invoke p (.cons (.options options) .nil)) fun v => ?_
      split
      · exact agrees_pure _
      · exact h.strict.shown _
    · rintro r _ ⟨rfl, -⟩
      split <;> exact agrees_pure _

theorem showNumber (n : Number) (options : Options) :
    L.Agrees (TagTemplate.showNumber n options) (TagTemplate.showNumber n options) :=
  (h.written n).map

theorem filtered (filters : Filters) (text : String) (options : Options) :
    L.Agrees (filters.apply text options) (filters.apply text options) := by
  induction filters generalizing text with
  | nil => exact agrees_pure _
  | cons p rest ih =>
    unfold Filters.apply
    split
    · refine Agrees.bind ?_ fun text => ih text
      refine Agrees.bind (h.apply p.2 (.cons (.text text) (.cons (.options options) .nil)))
        fun v => ?_
      split
      · exact agrees_pure _
      · exact h.shown _
    · exact ih text

theorem finish {env env' : Environment} (hf : env.filters = env'.filters) (text : String)
    (options : Options) : L.Agrees (env.finish text options) (env'.finish text options) := by
  unfold Environment.finish
  rw [hf]
  split
  · exact agrees_pure _
  · exact (h.filtered _ text options).map

end HostClosed

mutual

theorem HostClosed.inline (h : L.HostClosed) (options : Options) : (v : HostValue) →
    L.Agrees (v.inline options) (v.inline options)
  | .null => by
    rw [HostValue.inline]
    exact agrees_pure _
  | .function _ => by
    rw [HostValue.inline]
    exact agrees_pure _
  | .bool _ => by
    rw [HostValue.inline]
    exact agrees_pure _
  | .number n => by
    rw [HostValue.inline]
    exact h.showNumber n options
  | .string _ => by
    rw [HostValue.inline]
    exact agrees_pure _
  | .list items => by
    rw [HostValue.inline]
    exact (inlineItems h options items).map
  | .stream id items => by
    rw [HostValue.inline]
    refine Agrees.bind (h.openStream id) fun unread => ?_
    split
    · exact (inlineItems h options items).map
    · exact agrees_pure _
  | .object o => by
    rw [HostValue.inline]
    exact (h.hasMarkup o).bind fun _ => h.markup o options
  | .content c => by
    rw [HostValue.inline]
    exact inlineContent h options c

theorem HostClosed.inlineContent (h : L.HostClosed) (options : Options) : (c : Content) →
    L.Agrees (c.inline options) (c.inline options)
  | .missing => by
    rw [Content.inline]
    exact agrees_pure _
  | .null => by
    rw [Content.inline]
    exact agrees_pure _
  | .callable _ => by
    rw [Content.inline]
    exact agrees_pure _
  | .bool _ => by
    rw [Content.inline]
    exact agrees_pure _
  | .number n => by
    rw [Content.inline]
    exact h.showNumber n options
  | .string _ => by
    rw [Content.inline]
    exact agrees_pure _
  | .array items => by
    rw [Content.inline]
    exact (inlineItems h options items).map
  | .object o => by
    rw [Content.inline]
    exact h.markup o options

theorem HostClosed.inlineItems (h : L.HostClosed) (options : Options) : (vs : List HostValue) →
    L.Agrees (TagTemplate.inlineItems vs options) (TagTemplate.inlineItems vs options)
  | [] => by
    rw [TagTemplate.inlineItems]
    exact agrees_pure _
  | v :: vs => by
    rw [TagTemplate.inlineItems]
    exact (inline h options v).bind fun _ => (inlineItems h options vs).map

end

end Lockstep

end TagTemplate
