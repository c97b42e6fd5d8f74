import Mathlib.Data.List.Induction
import TagTemplate.OrderedMap

/-!
# The last value of a name

Binding pairs one after the other keeps, for each name, the last value at the place of the first.
-/

namespace TagTemplate

namespace OrderedMap

variable {α : Type}

/-- Of several pairs for one name the last one counts, at the place of the first. -/
structure KeepsLast (pairs : List (String × α)) (m : OrderedMap α) : Prop where
  names : m.map Prod.fst = (pairs.map Prod.fst).eraseDups
  lookup : ∀ name, m.lookup name = pairs.reverse.lookup name

theorem names_insert (m : OrderedMap α) (name : String) (value : α) :
    (insert m name value).map Prod.fst =
      m.map Prod.fst ++ if name ∈ m.map Prod.fst then [] else [name] := by
  induction m with
  | nil => simp [insert]
  | cons p m ih =>
    obtain ⟨k, v⟩ := p
    by_cases h : name = k
    · simp [insert, h]
    · rw [insert, if_neg (by simpa using h), List.map_cons, List.map_cons, ih, List.cons_append]
      have hmem : name ∈ k :: m.map Prod.fst ↔ name ∈ m.map Prod.fst := by
        simp only [List.mem_cons, h, false_or]
      simp only [hmem]

theorem insert_of_new {m : OrderedMap α} {name : String} (h : name ∉ m.map Prod.fst)
    (value : α) : insert m name value = m ++ [(name, value)] := by
  induction m with
  | nil => rfl
  | cons p m ih =>
    simp only [List.map_cons, List.mem_cons, not_or] at h
    rw [insert, beq_eq_false_iff_ne.2 h.1, ih h.2]
    rfl

theorem ofPairs_concat (pairs : List (String × α)) (p : String × α) :
    ofPairs (pairs ++ [p]) = insert (ofPairs pairs) p.1 p.2 := by
  simp [ofPairs]

theorem nodup_ofPairs (pairs : List (String × α)) : ((ofPairs pairs).map Prod.fst).Nodup := by
  induction pairs using List.reverseRecOn with
  | nil => exact List.nodup_nil
  | append_singleton pairs p ih =>
    rw [ofPairs_concat, names_insert]
    by_cases h : p.1 ∈ (ofPairs pairs).map Prod.fst
    · rwa [if_pos h, List.append_nil]
    · rw [if_neg h, List.nodup_append]
      refine ⟨ih, by simp, fun name hname other hother => ?_⟩
      rw [List.mem_singleton.1 hother]
      rintro rfl
      exact h hname

theorem keepsLast_ofPairs (pairs : List (String × α)) : KeepsLast pairs (ofPairs pairs) := by
  induction pairs using List.reverseRecOn with
  | nil => exact ⟨rfl, fun name => rfl⟩
  | append_singleton pairs p ih =>
    rw [ofPairs_concat]
    constructor
    · rw [names_insert, ih.names, List.map_append, List.eraseDups_append]
      by_cases h : p.1 ∈ pairs.map Prod.fst
      · simp [List.removeAll, List.mem_eraseDups.2 h, h]
      · simp [List.removeAll, mt List.mem_eraseDups.1 h, h, List.eraseDups_cons]
    · intro name
      rw [List.reverse_append, List.reverse_singleton, List.singleton_append, List.lookup_cons]
      by_cases h : name = p.1
      · subst h
        simp [lookup_insert_self]
      · simp [lookup_insert_of_ne _ _ h, beq_eq_false_iff_ne.2 h, ih.lookup]

theorem lookup_eq_none {m : OrderedMap α} {name : String} (h : name ∉ m.map Prod.fst) :
    m.lookup name = none := by
  rw [List.lookup_eq_none_iff]
  intro p hp
  rw [bne_iff_ne]
  rintro rfl
  exact h (List.mem_map_of_mem hp)

theorem lookup_eq_some_iff {m : OrderedMap α} (hnodup : (m.map Prod.fst).Nodup) {name : String}
    {value : α} : m.lookup name = some value ↔ (name, value) ∈ m := by
  refine ⟨mem_of_lookup, fun hmem => ?_⟩
  induction m with
  | nil => cases hmem
  | cons p m ih =>
    rw [List.map_cons, List.nodup_cons] at hnodup
    rcases List.mem_cons.1 hmem with rfl | hmem
    · simp
    · have hne : name ≠ p.1 := by
        rintro rfl
        exact hnodup.1 (List.mem_map.2 ⟨_, hmem, rfl⟩)
      rw [List.lookup_cons, beq_eq_false_iff_ne.2 hne]
      exact ih hnodup.2 hmem

theorem eq_of_lookup {m m' : OrderedMap α} (hnodup : (m.map Prod.fst).Nodup)
    (hnames : m.map Prod.fst = m'.map Prod.fst) (h : ∀ name, m.lookup name = m'.lookup name) :
    m = m' := by
  induction m generalizing m' with
  | nil => simpa using hnames
  | cons p m ih =>
    cases m' with
    | nil => cases hnames
    | cons p' m' =>
      obtain ⟨k, v⟩ := p
      obtain ⟨k', v'⟩ := p'
      simp only [List.map_cons, List.cons.injEq] at hnames
      obtain ⟨rfl, hnames⟩ := hnames
      rw [List.map_cons, List.nodup_cons] at hnodup
      obtain rfl : v = v' := by simpa using h k
      congr 1
      refine ih hnodup.2 hnames fun name => ?_
      by_cases hname : name = k
      · subst hname
        rw [lookup_eq_none hnodup.1, lookup_eq_none (hnames ▸ hnodup.1)]
      · simpa [List.lookup_cons, beq_eq_false_iff_ne.2 hname] using h name

theorem keepsLast_iff {pairs : List (String × α)} {m : OrderedMap α} :
    KeepsLast pairs m ↔ m = ofPairs pairs := by
  have hpairs := keepsLast_ofPairs pairs
  constructor
  · intro h
    have hnames : m.map Prod.fst = (ofPairs pairs).map Prod.fst := h.names.trans hpairs.names.symm
    exact eq_of_lookup (hnames ▸ nodup_ofPairs pairs) hnames fun name =>
      (h.lookup name).trans (hpairs.lookup name).symm
  · rintro rfl
    exact hpairs

theorem KeepsLast.subset {pairs : List (String × α)} {m : OrderedMap α} (h : KeepsLast pairs m) :
    m ⊆ pairs := by
  intro p hp
  have hnodup : (m.map Prod.fst).Nodup := keepsLast_iff.1 h ▸ nodup_ofPairs pairs
  have hlookup := (lookup_eq_some_iff hnodup).2 hp
  rw [h.lookup] at hlookup
  exact List.mem_reverse.1 (mem_of_lookup hlookup)

theorem ofPairs_of_nodup {pairs : List (String × α)} (h : (pairs.map Prod.fst).Nodup) :
    ofPairs pairs = pairs := by
  induction pairs using List.reverseRecOn with
  | nil => rfl
  | append_singleton pairs p ih =>
    rw [List.map_append, List.nodup_append] at h
    rw [ofPairs_concat, ih h.1, insert_of_new]
    exact fun hp => h.2.2 p.1 hp p.1 (by simp) rfl

end OrderedMap

end TagTemplate
