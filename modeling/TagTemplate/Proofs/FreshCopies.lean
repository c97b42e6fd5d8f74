import TagTemplate.Content
import TagTemplate.Proofs.Lockstep

/-!
# Fresh copies

A rendering starts from a fresh copy of its content. Copying succeeds whatever the content is made
of, it changes nothing but the host's part of the state, and the copy differs from the value in the
identities of its streams only.
-/

namespace TagTemplate

open TagTemplate.Action

def HostValue.IsLeaf : HostValue → Prop
  | .list _ | .stream .. | .object (.mapping _) | .object (.record ..) => False
  | _ => True

/-- The second value is the first one with other identities for its streams. -/
inductive Copied : HostValue → HostValue → Prop where
  | leaf {v} : v.IsLeaf → Copied v v
  | list {items items'} : List.Forall₂ Copied items items' → Copied (.list items) (.list items')
  | stream {id id' items items'} : List.Forall₂ Copied items items' →
      Copied (.stream id items) (.stream id' items')
  | mapping {entries entries' : OrderedMap HostValue} :
      (∀ key, Option.Rel Copied (entries.lookup key) (entries'.lookup key)) →
      Copied (.object (.mapping entries)) (.object (.mapping entries'))
  | record {fields fields' : OrderedMap HostValue} {computed} :
      (∀ key, Option.Rel Copied (fields.lookup key) (fields'.lookup key)) →
      Copied (.object (.record fields computed)) (.object (.record fields' computed))

section Lookup

variable {fields fields' : OrderedMap HostValue}
  (h : ∀ key, Option.Rel Copied (fields.lookup key) (fields'.lookup key))

include h

theorem lookup_copied_leaf {key : String} {v : HostValue} (hv : fields.lookup key = some v)
    (hl : v.IsLeaf) : fields'.lookup key = some v := by
  have hk := h key
  rw [hv] at hk
  generalize fields'.lookup key = found at hk
  obtain ⟨hc⟩ := hk
  cases hc with
  | leaf _ => rfl
  | _ => cases hl

theorem lookup_copied_list {key : String} {items : List HostValue}
    (hv : fields.lookup key = some (.list items)) :
    ∃ items', fields'.lookup key = some (.list items') ∧ List.Forall₂ Copied items items' := by
  have hk := h key
  rw [hv] at hk
  generalize fields'.lookup key = found at hk
  obtain ⟨hc⟩ := hk
  cases hc with
  | leaf hl => cases hl
  | list hitems => exact ⟨_, rfl, hitems⟩

end Lookup

theorem perform_freshStream (s : State) :
    ∃ id host, perform freshStream s = (.ok id, { s with host }) :=
  ⟨_, _, rfl⟩

mutual

theorem HostValue.perform_refresh (s : State) : (v : HostValue) →
    ∃ v' host, perform v.refresh s = (.ok v', { s with host }) ∧ Copied v v'
  | .list items => by
    obtain ⟨items', host, hi, hc⟩ := perform_refreshItems s items
    refine ⟨.list items', host, ?_, .list hc⟩
    rw [HostValue.refresh, perform_bind_ok hi]
    rfl
  | .stream id items => by
    obtain ⟨items', host, hi, hc⟩ := perform_refreshItems s items
    obtain ⟨id', host', hid⟩ := perform_freshStream { s with host }
    refine ⟨.stream id' items', host', ?_, .stream hc⟩
    rw [HostValue.refresh, perform_bind_ok hi, perform_bind_ok hid]
    rfl
  | .object o => by
    obtain ⟨o', host, ho, hc⟩ := HostObject.perform_refresh s o
    refine ⟨.object o', host, ?_, hc⟩
    rw [HostValue.refresh, perform_bind_ok ho]
    rfl
  | .null => ⟨_, s.host, rfl, .leaf trivial⟩
  | .bool _ => ⟨_, s.host, rfl, .leaf trivial⟩
  | .number _ => ⟨_, s.host, rfl, .leaf trivial⟩
  | .string _ => ⟨_, s.host, rfl, .leaf trivial⟩
  | .function _ => ⟨_, s.host, rfl, .leaf trivial⟩
  | .content _ => ⟨_, s.host, rfl, .leaf trivial⟩

theorem HostObject.perform_refresh (s : State) : (o : HostObject) →
    ∃ o' host, perform o.refresh s = (.ok o', { s with host }) ∧ Copied (.object o) (.object o')
  | .mapping entries => by
    obtain ⟨entries', host, he, hc⟩ := perform_refreshEntries s entries
    refine ⟨.mapping entries', host, ?_, .mapping hc⟩
    rw [HostObject.refresh, perform_bind_ok he]
    rfl
  | .record fields computed => by
    obtain ⟨fields', host, hf, hc⟩ := perform_refreshEntries s fields
    refine ⟨.record fields' computed, host, ?_, .record hc⟩
    rw [HostObject.refresh, perform_bind_ok hf]
    rfl
  | .unprintable => ⟨_, s.host, rfl, .leaf trivial⟩

theorem perform_refreshItems (s : State) : (vs : List HostValue) →
    ∃ vs' host, perform (refreshItems vs) s = (.ok vs', { s with host }) ∧
      List.Forall₂ Copied vs vs'
  | [] => ⟨[], s.host, rfl, .nil⟩
  | v :: vs => by
    obtain ⟨v', host, hv, hc⟩ := HostValue.perform_refresh s v
    obtain ⟨vs', host', hvs, hcs⟩ := perform_refreshItems { s with host } vs
    refine ⟨v' :: vs', host', ?_, .cons hc hcs⟩
    rw [refreshItems, perform_bind_ok hv, perform_bind_ok hvs]
    rfl

theorem perform_refreshEntries (s : State) : (es : List (String × HostValue)) →
    ∃ es' host, perform (refreshEntries es) s = (.ok es', { s with host }) ∧
      ∀ key, Option.Rel Copied (es.lookup key) (es'.lookup key)
  | [] => ⟨[], s.host, rfl, fun _ => .none⟩
  | (name, v) :: es => by
    obtain ⟨v', host, hv, hc⟩ := HostValue.perform_refresh s v
    obtain ⟨es', host', hes, hcs⟩ := perform_refreshEntries { s with host } es
    refine ⟨(name, v') :: es', host', ?_, fun key => ?_⟩
    · rw [refreshEntries, perform_bind_ok hv, perform_bind_ok hes]
      rfl
    · exact OrderedMap.rel_lookup_cons hc (hcs key)

end

end TagTemplate
