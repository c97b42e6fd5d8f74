import Mathlib.Data.List.Basic
import Mathlib.Data.List.TakeWhile
import TagTemplate.Markup.Parser

/-!
# What tag names say

A name is an optional extension and dotted names. It is read as the one path that is written like
it.
-/

namespace TagTemplate

namespace Text

variable {c : Char}

theorem pieces_append_cons {front : List Char} (h : c ∉ front) (cs : List Char) :
    pieces c (front ++ c :: cs) = front :: pieces c cs := by
  induction front with
  | nil => simp [pieces]
  | cons x front ih =>
    simp only [List.mem_cons, not_or] at h
    rw [List.cons_append, pieces, if_neg (Ne.symm h.1), ih h.2]

theorem pieces_eq_singleton {cs : List Char} (h : c ∉ cs) : pieces c cs = [cs] := by
  induction cs with
  | nil => rfl
  | cons x cs ih =>
    simp only [List.mem_cons, not_or] at h
    rw [pieces, if_neg (Ne.symm h.1), ih h.2]

theorem pieces_intercalate {parts : List (List Char)} (hne : parts ≠ [])
    (h : ∀ part ∈ parts, c ∉ part) : pieces c (List.intercalate [c] parts) = parts := by
  match parts with
  | [] => exact absurd rfl hne
  | [part] => simpa using pieces_eq_singleton (h part List.mem_cons_self)
  | part :: part' :: parts =>
    rw [List.forall_mem_cons] at h
    rw [List.intercalate_cons_cons, List.append_assoc, List.singleton_append,
      pieces_append_cons h.1, pieces_intercalate (List.cons_ne_nil _ _) h.2]

theorem intercalate_pieces (cs : List Char) : List.intercalate [c] (pieces c cs) = cs := by
  induction cs with
  | nil => rfl
  | cons x cs ih =>
    unfold pieces
    split
    · next hx =>
      subst hx
      obtain ⟨part, parts, hparts⟩ := List.exists_cons_of_ne_nil (pieces_ne_nil x cs)
      rw [hparts, List.intercalate_cons_cons, ← hparts, ih]
      rfl
    · split
      · next hnil => exact absurd hnil (pieces_ne_nil c cs)
      · next part parts hparts =>
        rw [hparts] at ih
        cases parts with
        | nil => simpa using ih
        | cons part' parts =>
          rw [List.intercalate_cons_cons] at ih ⊢
          rw [← ih]
          rfl

theorem not_mem_of_mem_pieces {cs part : List Char} (h : part ∈ pieces c cs) : c ∉ part := by
  induction cs generalizing part with
  | nil => simp_all [pieces]
  | cons x cs ih =>
    unfold pieces at h
    split at h
    · rcases List.mem_cons.1 h with rfl | h
      · exact List.not_mem_nil
      · exact ih h
    · next hx =>
      split at h
      · next hnil => exact absurd hnil (pieces_ne_nil c cs)
      · next first parts hparts =>
        rw [hparts] at ih
        rcases List.mem_cons.1 h with rfl | h
        · have hfirst : c ∉ first := ih List.mem_cons_self
          simpa [Ne.symm hx] using hfirst
        · exact ih (List.mem_cons_of_mem _ h)

theorem mem_of_mem_pieces {x : Char} {cs part : List Char} (h : part ∈ pieces c cs)
    (hx : x ∈ part) : x ∈ cs := by
  induction cs generalizing part with
  | nil => simp_all [pieces]
  | cons y cs ih =>
    unfold pieces at h
    split at h
    · rcases List.mem_cons.1 h with rfl | h
      · cases hx
      · exact List.mem_cons_of_mem _ (ih h hx)
    · split at h
      · next hnil => exact absurd hnil (pieces_ne_nil c cs)
      · next first parts hparts =>
        rw [hparts] at ih
        rcases List.mem_cons.1 h with rfl | h
        · rcases List.mem_cons.1 hx with rfl | hx
          · exact List.mem_cons_self
          · exact List.mem_cons_of_mem _ (ih List.mem_cons_self hx)
        · exact List.mem_cons_of_mem _ (ih (List.mem_cons_of_mem _ h) hx)

theorem mem_of_mem_intercalate {x : Char} {parts : List (List Char)}
    (h : x ∈ List.intercalate [c] parts) : x = c ∨ ∃ part ∈ parts, x ∈ part := by
  match parts with
  | [] => simp at h
  | [part] => exact Or.inr ⟨part, List.mem_cons_self, by simpa using h⟩
  | part :: part' :: parts =>
    rw [List.intercalate_cons_cons, List.append_assoc, List.mem_append, List.singleton_append,
      List.mem_cons] at h
    rcases h with h | h | h
    · exact Or.inr ⟨part, List.mem_cons_self, h⟩
    · exact Or.inl h
    · rcases mem_of_mem_intercalate h with h | ⟨part, hpart, hx⟩
      · exact Or.inl h
      · exact Or.inr ⟨part, List.mem_cons_of_mem _ hpart, hx⟩

end Text

namespace Markup

def TagPath.segments (path : TagPath) : List String := path.outer ++ [path.name]

/-- The path as it is written: an extension has a colon after it, names have dots between them. -/
def TagPath.written (path : TagPath) : List Char :=
  (path.extension.elim [] fun extension => extension.toList ++ [':']) ++
    List.intercalate ['.'] (path.segments.map String.toList)

structure TagPath.Proper (path : TagPath) : Prop where
  extension : ∀ extension ∈ path.extension, extension ≠ "" ∧ ':' ∉ extension.toList
  segments : ∀ segment ∈ path.segments,
    segment ≠ "" ∧ '.' ∉ segment.toList ∧ ':' ∉ segment.toList

def TagPath.ofParts? (extension : Option (List Char)) (names : List Char) : Option TagPath :=
  if extension = some [] || names.contains ':' || (Text.pieces '.' names).any List.isEmpty then none
  else
    match (Text.pieces '.' names).getLast? with
    | none => none
    | some last =>
      some ⟨extension.map String.ofList, (Text.pieces '.' names).dropLast.map String.ofList,
        String.ofList last⟩

theorem TagPath.ofName?_of_colon {name : String} {extension names : List Char}
    (hname : name.toList = extension ++ ':' :: names) (h : ':' ∉ extension) :
    ofName? name = ofParts? (some extension) names := by
  have hall : ∀ c ∈ extension, (c != ':') = true := by
    intro c hc
    rw [bne_iff_ne]
    rintro rfl
    exact h hc
  have hdrop : (extension ++ ':' :: names).dropWhile (· != ':') = ':' :: names := by
    rw [List.dropWhile_append_of_pos hall]
    rfl
  have htake : (extension ++ ':' :: names).takeWhile (· != ':') = extension := by
    rw [List.takeWhile_append_of_pos hall]
    simp
  unfold ofName?
  dsimp only
  rw [hname, hdrop, htake]
  rfl

theorem TagPath.ofName?_of_not_mem {name : String} (h : ':' ∉ name.toList) :
    ofName? name = ofParts? none name.toList := by
  have hdrop : name.toList.dropWhile (· != ':') = [] := by
    rw [List.dropWhile_eq_nil_iff]
    intro c hc
    rw [bne_iff_ne]
    rintro rfl
    exact h hc
  unfold ofName?
  dsimp only
  rw [hdrop]
  rfl

theorem toList_segments (path : TagPath) :
    path.segments.map String.toList = path.outer.map String.toList ++ [path.name.toList] := by
  simp [TagPath.segments]

theorem TagPath.ofParts?_eq_some {extension : Option (List Char)} {names : List Char}
    {path : TagPath} (h : ofParts? extension names = some path) :
    path.extension = extension.map String.ofList ∧ extension ≠ some [] ∧
      List.intercalate ['.'] (path.segments.map String.toList) = names ∧
      ∀ s ∈ path.segments, s ≠ "" ∧ '.' ∉ s.toList ∧ ':' ∉ s.toList := by
  unfold ofParts? at h
  split at h
  · cases h
  · next hok =>
    split at h
    · cases h
    · next last hlast =>
      simp only [Bool.or_eq_true, decide_eq_true_eq, List.contains_iff_mem, List.any_eq_true,
        List.isEmpty_iff, not_or, not_exists, not_and] at hok
      obtain ⟨⟨hextension, hcolon⟩, hempty⟩ := hok
      obtain rfl := Option.some.inj h
      have hsegments : (Text.pieces '.' names).dropLast.map String.ofList ++ [String.ofList last] =
          (Text.pieces '.' names).map String.ofList := by
        rw [← List.map_singleton, ← List.map_append, List.dropLast_append_getLast? last hlast]
      refine ⟨rfl, hextension, ?_, ?_⟩
      · rw [segments, hsegments]
        simpa using Text.intercalate_pieces names
      · intro s hs
        rw [segments, hsegments, List.mem_map] at hs
        obtain ⟨piece, hpiece, rfl⟩ := hs
        rw [String.toList_ofList]
        refine ⟨?_, Text.not_mem_of_mem_pieces hpiece, fun h =>
          hcolon (Text.mem_of_mem_pieces hpiece h)⟩
        intro hnil
        exact hempty piece hpiece (by simpa using hnil)

section Proper

variable {path : TagPath} (hpath : path.Proper)

include hpath

theorem TagPath.Proper.pieces : Text.pieces '.' (List.intercalate ['.']
    (path.segments.map String.toList)) = path.segments.map String.toList := by
  have hne : path.segments.map String.toList ≠ [] := by
    simp [TagPath.segments]
  refine Text.pieces_intercalate hne fun part hpart => ?_
  obtain ⟨s, hs, rfl⟩ := List.mem_map.1 hpart
  exact (hpath.segments s hs).2.1

theorem TagPath.Proper.colon_not_mem :
    ':' ∉ List.intercalate ['.'] (path.segments.map String.toList) := by
  intro h
  rcases Text.mem_of_mem_intercalate h with h | ⟨part, hpart, h⟩
  · cases h
  · obtain ⟨s, hs, rfl⟩ := List.mem_map.1 hpart
    exact (hpath.segments s hs).2.2 h

theorem TagPath.ofParts?_intercalate {extension : Option (List Char)}
    (hextension : path.extension = extension.map String.ofList) :
    ofParts? extension (List.intercalate ['.'] (path.segments.map String.toList)) = some path := by
  have hnil : extension ≠ some [] := by
    rintro rfl
    exact (hpath.extension "" (by simp [hextension])).1 rfl
  have hempty : "" ∉ path.segments := fun hs => (hpath.segments "" hs).1 rfl
  have hlast : (path.segments.map String.toList).getLast? = some path.name.toList := by
    simp [toList_segments]
  unfold ofParts?
  rw [hpath.pieces, if_neg, hlast]
  · dsimp only
    simp [toList_segments, ← hextension]
  · simpa [hnil, hpath.colon_not_mem] using hempty

end Proper

theorem TagPath.ofName?_eq_some_iff {name : String} {path : TagPath} :
    ofName? name = some path ↔ path.Proper ∧ name.toList = path.written := by
  constructor
  · intro h
    by_cases hcolon : ':' ∈ name.toList
    · obtain ⟨extension, names, hname, hcolon⟩ := List.eq_append_cons_of_mem hcolon
      rw [ofName?_of_colon hname hcolon] at h
      obtain ⟨hextension, hnil, hnames, hsegments⟩ := ofParts?_eq_some h
      refine ⟨⟨fun e he => ?_, hsegments⟩, ?_⟩
      · obtain rfl : String.ofList extension = e := by simpa [hextension] using he
        refine ⟨?_, by simpa using hcolon⟩
        intro hempty
        exact hnil (by simpa using hempty)
      · simp [written, hextension, hnames, hname]
    · rw [ofName?_of_not_mem hcolon] at h
      obtain ⟨hextension, -, hnames, hsegments⟩ := ofParts?_eq_some h
      exact ⟨⟨by simp [hextension], hsegments⟩, by simp [written, hextension, hnames]⟩
  · rintro ⟨hpath, hname⟩
    cases hextension : path.extension with
    | none =>
      rw [written, hextension, Option.elim, List.nil_append] at hname
      have hcolon : ':' ∉ name.toList := hname ▸ hpath.colon_not_mem
      rw [ofName?_of_not_mem hcolon, hname]
      exact ofParts?_intercalate hpath hextension
    | some extension =>
      rw [written, hextension, Option.elim, List.append_assoc, List.singleton_append] at hname
      rw [ofName?_of_colon hname (hpath.extension extension hextension).2]
      exact ofParts?_intercalate hpath (by simpa using hextension)

end Markup

end TagTemplate
