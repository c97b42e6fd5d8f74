import TagTemplate.Proofs.Replay.Host
import TagTemplate.Render.Value

/-!
# Content in a host with a past

What values are made of, what names mean and what is shown without enclosed tags is the same after a
past, as long as the numbers of the streams are known.
-/

namespace TagTemplate

open TagTemplate.Action
open Replay

variable {past : HostState} {n m : Nat}

theorem HostObject.replays_attribute? {o : HostObject} (ho : o.Known n) (name : String) :
    Replays past n (fun m => Option.Rel (Values past m)) (o.attribute? name)
      ((o.renumber past.nextStream).attribute? name) := by
  cases o with
  | record fields computed =>
    rw [renumber, attribute?, attribute?, lookup_renumberEntries]
    cases hf : fields.lookup name with
    | some v =>
      have hv := ho.1.lookup hf
      exact replays_pure fun _ hm => .some ⟨hv.mono hm, rfl⟩
    | none =>
      dsimp only [Option.map_none]
      cases hc : computed.lookup name with
      | none => exact replays_pure fun _ _ => .none
      | some e =>
        refine Replays.bind (HostExpr.replays_eval .none e (isStateless_of_lookup ho.2 hc)) ?_
        exact fun m _ v v' hv => replays_pure fun _ hm => .some (hv.mono hm)
  | _ => exact replays_pure fun _ _ => .none

theorem HostObject.replays_attributeOrNone {o : HostObject} (ho : o.Known n) (name : String) :
    Replays past n (fun m => Option.Rel (Values past m)) (o.attributeOrNone name)
      ((o.renumber past.nextStream).attributeOrNone name) := by
  refine Replays.bind (o.replays_attribute? ho name).attempt ?_
  rintro m - r r' (hv | e)
  · exact replays_pure fun _ hm => rel_mono (Values.mono hm) hv
  · split
    · next h => cases h
    · exact replays_pure fun _ _ => .none
    · exact replays_fail _

theorem HostObject.repeats_hasMarkup {o : HostObject} (ho : o.Known n) :
    Repeats past n o.hasMarkup (o.renumber past.nextStream).hasMarkup := by
  refine Replays.bind (o.replays_attributeOrNone ho _) fun m _ found found' hfound => ?_
  cases hfound <;> exact repeats_pure _

section Settled

variable (hpast : past.Settled)

include hpast

theorem Content.replays_ofHost {v : HostValue} (hv : v.Known n) :
    Replays past n (Contents past) (ofHost v) (ofHost (v.renumber past.nextStream)) := by
  cases v with
  | stream id items =>
    refine Repeats.bind (repeats_openStream hpast hv.1) fun m hm unread => ?_
    cases unread with
    | true => exact replays_content (c := .array items) (hv.2.mono hm)
    | false => exact replays_content (c := .array []) trivial
  | object o =>
    refine Repeats.bind (o.repeats_hasMarkup hv) fun m hm _ => ?_
    exact replays_content (c := .object o) (HostObject.Known.mono hm hv)
  | list items => exact replays_content (c := .array items) hv
  | function f => exact replays_content (c := .callable f) hv
  | content c => exact replays_content hv
  | null => exact replays_content (c := .null) trivial
  | bool b => exact replays_content (c := .bool b) trivial
  | number n => exact replays_content (c := .number n) trivial
  | string s => exact replays_content (c := .string s) trivial

theorem Replay.contentOf {found found' : Option HostValue} :
    Option.Rel (Values past n) found found' → Replays past n (Contents past)
      (match found with
        | some v => Content.ofHost v
        | none => return .missing)
      (match found' with
        | some v => Content.ofHost v
        | none => return .missing) := by
  intro h
  cases h with
  | none => exact replays_content (c := .missing) trivial
  | some hv =>
    obtain ⟨hv, rfl⟩ := hv
    exact Content.replays_ofHost hpast hv

theorem HostObject.replays_get {o : HostObject} (ho : o.Known n) (name : String) :
    Replays past n (Contents past) (o.get name) ((o.renumber past.nextStream).get name) := by
  have hmissing : ∀ {m}, Replays past m (Contents past) (pure .missing) (pure .missing) :=
    replays_content (c := .missing) trivial
  cases o with
  | mapping entries =>
    refine Replay.contentOf hpast ?_
    rw [lookup_renumberEntries]
    cases hv : entries.lookup name with
    | none => exact .none
    | some v => exact .some ⟨KnownEntries.lookup ho hv, rfl⟩
  | record fields computed =>
    have hattribute : ∀ {m}, n ≤ m → Replays past m (Contents past)
        (do
          match ← (HostObject.record fields computed).attributeOrNone name with
          | some v => Content.ofHost v
          | none => return .missing)
        (do
          match ← ((HostObject.record fields computed).renumber past.nextStream).attributeOrNone
            name with
          | some v => Content.ofHost v
          | none => return .missing) := by
      intro m hm
      refine Replays.bind (replays_attributeOrNone (ho.mono hm) name) fun _ _ _ _ hfound => ?_
      exact Replay.contentOf hpast hfound
    rw [renumber] at hattribute ⊢
    unfold get
    dsimp only
    split
    · exact hmissing
    · refine Replays.bind (replays_attributeOrNone ho "lookup") fun m hm found found' hfound => ?_
      cases hfound with
      | none => exact hattribute hm
      | @some v v' hv =>
        obtain ⟨hv, rfl⟩ := hv
        cases v with
        | function f =>
          refine Replays.bind (f.replays_call hv (.cons (.text name) .nil)) ?_
          rintro k - w _ ⟨hw, rfl⟩
          cases w with
          | null => exact hmissing
          | _ => exact Content.replays_ofHost hpast hw
        | _ => exact hattribute hm
  | unprintable => exact hmissing

theorem Content.replays_get {c : Content} (hc : c.Known n) (name : String) :
    Replays past n (Contents past) (c.get name) ((c.renumber past.nextStream).get name) := by
  cases c with
  | object o => exact HostObject.replays_get hpast hc name
  | _ => exact replays_content (c := .missing) trivial

theorem Frame.replays_own {f : Frame} (hf : f.Known n) (name : String) :
    Replays past n (Contents past) (f.own name) ((f.renumber past.nextStream).own name) := by
  unfold Frame.own
  rw [Frame.lookup_renumber]
  cases hb : f.bindings.lookup name with
  | some c => exact replays_content (hf.bindings name c hb)
  | none => exact Content.replays_get hpast hf.value name

theorem Scope.replays_lookup {s : Scope} (hs : s.Known n) (name : String) :
    Replays past n (Contents past) (s.lookup name)
      ((s.renumber past.nextStream).lookup name) := by
  unfold Scope.lookup
  rw [Scope.frames_renumber]
  unfold Scope.Known at hs
  generalize s.frames = fs at hs
  induction fs generalizing n with
  | nil => exact replays_content (c := .missing) trivial
  | cons f fs ih =>
    rw [List.forall_mem_cons] at hs
    refine Replays.bind (f.replays_own hpast hs.1 name) ?_
    rintro m hm c _ ⟨hc, rfl⟩
    cases c with
    | missing => exact ih fun g hg => (hs.2 g hg).mono hm
    | _ => exact replays_content hc

theorem Scope.accesses {s : Scope} (hs : s.Known n) :
    Accesses past n s.access (s.renumber past.nextStream).access where
  lookup
    | none => replays_content hs.frame.value
    | some name => s.replays_lookup hpast hs name
  own := Frame.replays_own hpast hs.frame

end Settled

theorem HostObject.replays_producer {o : HostObject} (ho : o.Known n) :
    Replays past n (Values past) o.producer (o.renumber past.nextStream).producer := by
  have hvalue : ∀ {m} {found found' : Option HostValue},
      Option.Rel (Values past m) found found' →
      Replays past m (Values past) (pure (found.getD .null)) (pure (found'.getD .null)) := by
    intro m found found' h
    cases h with
    | none => exact replays_fixed rfl
    | some hv => exact replays_pure fun _ hm => hv.mono hm
  cases o with
  | mapping entries =>
    refine hvalue ?_
    rw [lookup_renumberEntries]
    cases hv : entries.lookup "html" with
    | none => exact .none
    | some v => exact .some ⟨KnownEntries.lookup ho hv, rfl⟩
  | record fields computed =>
    refine Repeats.bind (repeats_hasMarkup ho) fun m hm has => ?_
    cases has with
    | true =>
      exact Replays.bind (replays_attribute? (ho.mono hm) _) fun _ _ _ _ hfound => hvalue hfound
    | false =>
      exact Replays.bind (replays_attributeOrNone (ho.mono hm) _) fun _ _ _ _ hfound =>
        hvalue hfound
  | unprintable => exact replays_fixed rfl

theorem repeats_written (number : Number) : Repeats past n number.written number.written := by
  unfold Number.written
  split
  · exact repeats_pure _
  · exact replays_fail _

theorem repeats_reference (r : HostReference) : Repeats past n r.written r.written :=
  Repeats.bind repeats_program fun _ _ p => repeats_pure (p.reference r)

theorem HostObject.repeats_text {o : HostObject} (ho : o.Known n) (name : String) :
    Repeats past n (o.text? name) ((o.renumber past.nextStream).text? name) := by
  refine Replays.bind (o.replays_attribute? ho name) fun m _ found found' hfound => ?_
  cases hfound with
  | none => exact repeats_pure none
  | @some v v' hv =>
    obtain ⟨-, rfl⟩ := hv
    cases v with
    | string s => exact repeats_pure (some s)
    | _ => exact replays_fail _

mutual

theorem HostValue.repeats_literal {n : Nat} : (v : HostValue) → v.Known n →
    Repeats past n v.literal (v.renumber past.nextStream).literal
  | .null, _ => repeats_pure _
  | .bool _, _ => repeats_pure _
  | .string _, _ => repeats_pure _
  | .number number, _ => repeats_written number
  | .stream .., _ => repeats_reference .stream
  | .function _, _ => repeats_reference .function
  | .list items, h => by
    rw [HostValue.renumber, HostValue.literal, HostValue.literal]
    exact (repeats_literals items h).map _
  | .object o, h => by
    rw [HostValue.renumber, HostValue.literal, HostValue.literal]
    exact HostObject.repeats_literal o h
  | .content c, h => by
    rw [HostValue.renumber, HostValue.literal, HostValue.literal]
    exact Content.repeats_literal c h

theorem HostObject.repeats_literal {n : Nat} : (o : HostObject) → o.Known n →
    Repeats past n o.literal (o.renumber past.nextStream).literal
  | .mapping entries, h => by
    rw [HostObject.renumber, HostObject.literal, HostObject.literal]
    exact (repeats_entryLiterals entries h).map _
  | .record fields computed, h => by
    rw [HostObject.renumber, HostObject.literal, HostObject.literal]
    refine Repeats.bind (HostObject.repeats_text h "__repr__") fun _ _ found => ?_
    cases found with
    | none => exact repeats_reference .record
    | some text => exact repeats_pure text
  | .unprintable, _ => replays_fail _

theorem Content.repeats_literal {n : Nat} : (c : Content) → c.Known n →
    Repeats past n c.literal (c.renumber past.nextStream).literal
  | .missing, _ => repeats_pure _
  | .null, _ => repeats_pure _
  | .bool _, _ => repeats_pure _
  | .string _, _ => repeats_pure _
  | .number number, _ => (repeats_written number).map _
  | .callable _, _ => (repeats_reference .function).map _
  | .array items, h => by
    rw [Content.renumber, Content.literal, Content.literal]
    exact (repeats_literals items h).map _
  | .object o, h => by
    rw [Content.renumber, Content.literal, Content.literal]
    exact (HostObject.repeats_literal o h).map _

theorem repeats_literals {n : Nat} : (vs : List HostValue) → KnownItems n vs →
    Repeats past n (literals vs) (literals (renumberItems past.nextStream vs))
  | [], _ => repeats_pure []
  | v :: vs, h => by
    rw [renumberItems, literals, literals]
    refine Repeats.bind (HostValue.repeats_literal v h.1) fun m hm _ => ?_
    exact (repeats_literals vs (h.2.mono hm)).map _

theorem repeats_entryLiterals {n : Nat} : (es : List (String × HostValue)) → KnownEntries n es →
    Repeats past n (entryLiterals es) (entryLiterals (renumberEntries past.nextStream es))
  | [], _ => repeats_pure []
  | (_, v) :: es, h => by
    rw [renumberEntries, entryLiterals, entryLiterals]
    refine Repeats.bind (HostValue.repeats_literal v h.1) fun m hm _ => ?_
    exact (repeats_entryLiterals es (h.2.mono hm)).map _

end

theorem HostValue.repeats_shown {v : HostValue} (hv : v.Known n) :
    Repeats past n v.shown (v.renumber past.nextStream).shown := by
  have hliteral : Repeats past n v.literal _ := HostValue.repeats_literal v hv
  cases v with
  | string s => exact repeats_pure s
  | object o =>
    cases o with
    | record fields computed =>
      refine Repeats.bind (HostObject.repeats_text hv "__str__") fun _ hm found => ?_
      cases found with
      | none => exact HostObject.repeats_literal _ (HostObject.Known.mono hm hv)
      | some text => exact repeats_pure text
    | _ => exact hliteral
  | _ => exact hliteral

theorem Replay.shownOr (text : String) {v : HostValue} (hv : v.Known n) :
    Repeats past n
      (match v with
        | .null => pure text
        | v => v.shown)
      (match v.renumber past.nextStream with
        | .null => pure text
        | v => v.shown) := by
  have hshown : Repeats past n v.shown _ := HostValue.repeats_shown hv
  cases v with
  | null => exact repeats_pure text
  | _ => exact hshown

theorem HostObject.repeats_markup {o : HostObject} (ho : o.Known n) (options : Options) :
    Repeats past n (o.markup options) ((o.renumber past.nextStream).markup options) := by
  have hinvoke : ∀ {m} {v : HostValue}, v.Known m → Repeats past m
      (do
        match ← v.invoke [.options options] with
        | .null => return ""
        | v => v.shown)
      (do
        match ← (v.renumber past.nextStream).invoke [.options options] with
        | .null => return ""
        | v => v.shown) := by
    intro m v hv
    refine Replays.bind (v.replays_invoke hv (.cons (.options options) .nil)) ?_
    rintro k - w _ ⟨hw, rfl⟩
    exact Replay.shownOr "" hw
  refine Replays.bind (o.replays_producer ho) ?_
  rintro m - v _ ⟨hv, rfl⟩
  cases v with
  | null => exact repeats_pure ""
  | string s => exact repeats_pure s
  | _ =>
    refine Replays.bind (hinvoke hv).attempt ?_
    rintro k - r r' (⟨rfl⟩ | e)
    · exact repeats_pure _
    · exact repeats_pure ""

theorem repeats_showNumber (number : Number) (options : Options) :
    Repeats past n (showNumber number options) (showNumber number options) :=
  (repeats_written number).map _

mutual

theorem HostValue.repeats_inline (hpast : past.Settled) (options : Options) {n : Nat} :
    (v : HostValue) → v.Known n →
      Repeats past n (v.inline options) ((v.renumber past.nextStream).inline options)
  | .null, _ => repeats_pure ""
  | .function _, _ => repeats_pure ""
  | .bool _, _ => repeats_pure _
  | .number number, _ => repeats_showNumber number options
  | .string _, _ => repeats_pure _
  | .list items, h => by
    rw [HostValue.renumber, HostValue.inline, HostValue.inline]
    exact (repeats_inlineItems hpast options items h).map _
  | .stream id items, h => by
    rw [HostValue.renumber, HostValue.inline, HostValue.inline]
    refine Repeats.bind (repeats_openStream hpast h.1) fun m hm unread => ?_
    split
    · exact (repeats_inlineItems hpast options items (h.2.mono hm)).map _
    · exact repeats_pure _
  | .object o, h => by
    rw [HostValue.renumber, HostValue.inline, HostValue.inline]
    refine Repeats.bind (HostObject.repeats_hasMarkup h) fun m hm _ => ?_
    exact HostObject.repeats_markup (HostObject.Known.mono hm h) options
  | .content c, h => by
    rw [HostValue.renumber, HostValue.inline, HostValue.inline]
    exact Content.repeats_inline hpast options c h

theorem Content.repeats_inline (hpast : past.Settled) (options : Options) {n : Nat} :
    (c : Content) → c.Known n →
      Repeats past n (c.inline options) ((c.renumber past.nextStream).inline options)
  | .missing, _ => repeats_pure ""
  | .null, _ => repeats_pure ""
  | .callable _, _ => repeats_pure ""
  | .bool _, _ => repeats_pure _
  | .number number, _ => repeats_showNumber number options
  | .string _, _ => repeats_pure _
  | .array items, h => by
    rw [Content.renumber, Content.inline, Content.inline]
    exact (repeats_inlineItems hpast options items h).map _
  | .object o, h => by
    rw [Content.renumber, Content.inline, Content.inline]
    exact o.repeats_markup h options

theorem repeats_inlineItems (hpast : past.Settled) (options : Options) {n : Nat} :
    (vs : List HostValue) → KnownItems n vs →
      Repeats past n (inlineItems vs options)
        (inlineItems (renumberItems past.nextStream vs) options)
  | [], _ => by
    rw [renumberItems, inlineItems]
    exact repeats_pure []
  | v :: vs, h => by
    rw [renumberItems, inlineItems, inlineItems]
    refine Repeats.bind (HostValue.repeats_inline hpast options v h.1) fun m hm text => ?_
    exact (repeats_inlineItems hpast options vs (h.2.mono hm)).map _

end

theorem Filters.repeats_apply {filters : Filters} (hf : ∀ p ∈ filters, p.2.isStateless)
    (text : String) (options : Options) :
    Repeats past n (filters.apply text options) (filters.apply text options) := by
  induction filters generalizing text n with
  | nil => exact repeats_pure text
  | cons p rest ih =>
    rw [List.forall_mem_cons] at hf
    unfold Filters.apply
    split
    · refine Repeats.bind ?_ fun m hm text => ih hf.2 text
      refine Replays.bind
        (p.2.replays_call hf.1 (.cons (.text text) (.cons (.options options) .nil))) ?_
      rintro m - v _ ⟨hv, rfl⟩
      exact Replay.shownOr text hv
    · exact ih hf.2 text

theorem Environment.repeats_finish {env : Environment} (hf : ∀ p ∈ env.filters, p.2.isStateless)
    (text : String) (options : Options) :
    Repeats past n (env.finish text options) (env.finish text options) := by
  unfold Environment.finish
  split
  · exact repeats_pure ""
  · exact (Filters.repeats_apply hf text options).map _

end TagTemplate
