import TagTemplate.Proofs.Shifting
import TagTemplate.Proofs.Tiling

/-!
# Where a compile error points

Every failure shows a piece of the text that begins with the mark of a tag, and gives the offset of
that piece in the whole text, also from inside attribute values. Lines and columns grow with the
offset, so that no other offset has the same ones.
-/

namespace TagTemplate.Text

/-- The place is on an earlier line, or further left on the same one. -/
def Position.Before (p q : Position) : Prop := p.line < q.line ∨ p.line = q.line ∧ p.column < q.column

theorem Position.Before.ne {p q : Position} (h : p.Before q) : p ≠ q := by
  rintro rfl
  rcases h with hline | ⟨-, hcolumn⟩
  · exact Nat.lt_irrefl _ hline
  · exact Nat.lt_irrefl _ hcolumn

theorem Position.Before.trans {p q r : Position} (hpq : p.Before q) (hqr : q.Before r) :
    p.Before r := by
  unfold Position.Before at *
  omega

theorem Position.before_next (p : Position) (c : Char) : p.Before (p.next c) := by
  unfold Position.next
  split
  · exact Or.inl (Nat.lt_succ_self _)
  · exact Or.inr ⟨rfl, Nat.lt_succ_self _⟩

theorem Position.before_foldl (p : Position) {cs : List Char} (hne : cs ≠ []) :
    p.Before (cs.foldl Position.next p) := by
  induction cs generalizing p with
  | nil => exact absurd rfl hne
  | cons c cs ih =>
    rw [List.foldl_cons]
    by_cases hcs : cs = []
    · subst hcs
      exact p.before_next c
    · exact (p.before_next c).trans (ih (p.next c) hcs)

theorem position_of_le {text : List Char} {offset : Nat} (h : offset ≤ text.length) :
    position text offset = (text.take offset).foldl Position.next Position.start := by
  unfold position
  rw [Nat.sub_eq_zero_of_le h]
  rfl

theorem position_before {text : List Char} {o₁ o₂ : Nat} (hlt : o₁ < o₂)
    (hle : o₂ ≤ text.length) : (position text o₁).Before (position text o₂) := by
  have hsplit : text.take o₂ = text.take o₁ ++ (text.drop o₁).take (o₂ - o₁) := by
    rw [← List.take_add, Nat.add_sub_cancel' hlt.le]
  rw [position_of_le (hlt.le.trans hle), position_of_le hle, hsplit, List.foldl_append]
  apply Position.before_foldl
  intro hnil
  have hlength := congrArg List.length hnil
  rw [List.length_take, List.length_drop, List.length_nil] at hlength
  omega

theorem position_injective {text : List Char} {o₁ o₂ : Nat} (h₁ : o₁ ≤ text.length)
    (h₂ : o₂ ≤ text.length) (h : position text o₁ = position text o₂) : o₁ = o₂ := by
  rcases Nat.lt_trichotomy o₁ o₂ with hlt | heq | hlt
  · exact absurd h (position_before hlt h₂).ne
  · exact heq
  · exact absurd h.symm (position_before hlt h₁).ne

end TagTemplate.Text

namespace TagTemplate.Markup

open TagTemplate.Text (Position position position_before position_injective)

def BeginsTag (cs : List Char) : Prop := openMark <+: cs ∨ closeMark <+: cs

def Failure.Shows (f : Failure) (offset : Nat) (cs : List Char) : Prop :=
  BeginsTag f.fragment.toList ∧
    ∃ before after, cs = before ++ (f.fragment.toList ++ after) ∧ f.offset = offset + before.length

theorem beginsTag_iff {cs : List Char} : BeginsTag cs ↔ atTag cs = true := by
  simp [BeginsTag, atTag]

theorem BeginsTag.ne_nil {cs : List Char} (h : BeginsTag cs) : cs ≠ [] := by
  rintro rfl
  rcases h with h | h <;> cases List.prefix_nil.1 h

theorem Failure.Shows.append {f : Failure} {offset : Nat} {cs : List Char} (h : f.Shows offset cs)
    (more : List Char) : f.Shows offset (cs ++ more) := by
  obtain ⟨hmark, before, after, rfl, hoffset⟩ := h
  exact ⟨hmark, before, after ++ more, by simp, hoffset⟩

theorem Failure.Shows.after {f : Failure} {offset : Nat} {front cs : List Char}
    (h : f.Shows (offset + front.length) cs) : f.Shows offset (front ++ cs) := by
  obtain ⟨hmark, before, after, rfl, hoffset⟩ := h
  refine ⟨hmark, front ++ before, after, by simp, ?_⟩
  rw [hoffset, List.length_append, Nat.add_assoc]

/-- What is shown of a tag that cannot be read: a mark has no line break and is not cut. -/
theorem fragment_shows {cs : List Char} (h : atTag cs = true) :
    BeginsTag (fragment cs).toList ∧ (fragment cs).toList <+: cs := by
  constructor
  · rw [fragment, String.toList_ofList]
    refine (beginsTag_iff.2 h).imp ?_ ?_
    · rintro ⟨rest, rfl⟩
      simp [openMark, fragmentWidth]
    · rintro ⟨rest, rfl⟩
      simp [closeMark, fragmentWidth]
  · rw [fragment, String.toList_ofList]
    exact (List.takeWhile_prefix _).trans (List.take_prefix _ _)

theorem readTag_beginsTag {beyond : Option Char} {offset : Nat} {cs rest : List Char} {t : Token}
    (h : readTag beyond offset cs = .ok (t, rest)) (ht : atTag cs = true) :
    BeginsTag t.source.toList := by
  have hsource : t.source.toList <+: cs := ⟨rest, (readTag_ok h ht).1.symm⟩
  have hlength := congrArg List.length (readTag_ok h ht).1
  rw [List.length_append] at hlength
  unfold readTag at h
  split at h
  · next hclose =>
    unfold readClosing at h
    split at h
    · cases h
    · next name r hname =>
      split at h
      · cases h
      · next rest' hend =>
        cases h
        have hshort := (length_readClosingEnd hend).trans (length_readName hname)
        rw [List.length_drop] at hshort
        refine Or.inr (List.prefix_of_prefix_length_le (List.isPrefixOf_iff_prefix.1 hclose)
          hsource ?_)
        omega
  · next hclose =>
    have hopen : openMark.isPrefixOf cs = true := by simpa [atTag, hclose] using ht
    unfold readOpening at h
    split at h
    · cases h
    · next name r hname =>
      split at h
      · cases h
      · next as closed rest' hattributes =>
        cases h
        have hshort := (length_readAttributes hattributes).1.trans (length_readName hname)
        rw [List.length_drop] at hshort
        refine Or.inl (List.prefix_of_prefix_length_le (List.isPrefixOf_iff_prefix.1 hopen)
          hsource ?_)
        omega

theorem lex_error_shows {beyond : Option Char} {offset : Nat} {cs : List Char} {f : Failure}
    (h : lex beyond offset cs = .error f) : f.Shows offset cs := by
  fun_induction lex beyond offset cs generalizing f with
  | case1 => cases h
  | case2 offset cs _ ht fault _ =>
    cases h
    obtain ⟨hmark, rest, hrest⟩ := fragment_shows ht
    exact ⟨hmark, [], rest, hrest.symm, rfl⟩
  | case3 offset cs _ ht t rest hr _ failure _ ih =>
    cases h
    obtain ⟨rfl, -⟩ := readTag_ok hr ht
    apply Failure.Shows.after
    simpa [Nat.add_sub_cancel] using ih (by assumption)
  | case4 => cases h
  | case5 offset cs _ _ _ failure _ ih =>
    cases h
    have hrest := Failure.Shows.after (ih (by assumption))
    rwa [textRun_append] at hrest
  | case6 => cases h

theorem lex_beginsTag {beyond : Option Char} {offset : Nat} {cs : List Char} {ts : List Token}
    (h : lex beyond offset cs = .ok ts) :
    ∀ t ∈ ts, t.isText = false → BeginsTag t.source.toList := by
  fun_induction lex beyond offset cs generalizing ts with
  | case1 =>
    cases h
    exact List.forall_mem_nil _
  | case2 => cases h
  | case3 => cases h
  | case4 offset cs _ ht t rest hr _ ts' hts ih =>
    cases h
    exact List.forall_mem_cons.2 ⟨fun _ => readTag_beginsTag hr ht, ih hts⟩
  | case5 => cases h
  | case6 offset cs _ _ _ ts' hts ih =>
    cases h
    refine List.forall_mem_cons.2 ⟨fun htag => ?_, ih hts⟩
    cases htag

theorem lex_source_shows {beyond : Option Char} {offset : Nat} {cs : List Char} {ts : List Token}
    (h : lex beyond offset cs = .ok ts) {t : Token} (ht : t ∈ ts) (htag : t.isText = false)
    (fault : Fault) : (⟨fault, t.offset, t.source⟩ : Failure).Shows offset cs := by
  have htiles := lex_tiles h
  refine ⟨lex_beginsTag h t ht htag, ?_⟩
  obtain ⟨before, after, rfl⟩ := List.append_of_mem ht
  refine ⟨written before, written after, ?_, htiles.offset before t after rfl⟩
  rw [← htiles.written, written, List.flatMap_append, List.flatMap_cons]
  rfl

theorem lex_value_shows {beyond : Option Char} {offset : Nat} {cs : List Char} {ts : List Token}
    (h : lex beyond offset cs = .ok ts) {t : Token} (ht : t ∈ ts) {a : RawAttribute}
    (ha : a ∈ t.attributes) {f : Failure} (hf : f.Shows a.offset a.value) : f.Shows offset cs := by
  have htiles := lex_tiles h
  obtain ⟨front, back, hsource, hoffset, -⟩ := htiles.attributes t ht a ha
  obtain ⟨before, after, rfl⟩ := List.append_of_mem ht
  rw [htiles.offset before t after rfl] at hoffset
  have hcs : cs = (written before ++ front ++ [a.quote]) ++
      (a.value ++ (a.quote :: back ++ written after)) := by
    rw [← htiles.written, written, List.flatMap_append, List.flatMap_cons, hsource]
    simp [written]
  rw [hcs]
  apply Failure.Shows.after
  apply Failure.Shows.append
  have hplace : a.offset = offset + (written before ++ front ++ [a.quote]).length := by
    rw [hoffset]
    simp only [List.length_append, List.length_singleton]
    omega
  rwa [hplace] at hf

section Assembling

variable {value : RawAttribute → Except Failure AttributeValue} {P : Failure → Prop}

/-- Whatever goes wrong with a tag is its own failure or one of its values. -/
structure Blames (value : RawAttribute → Except Failure AttributeValue) (P : Failure → Prop)
    (t : Token) : Prop where
  own : t.isText = false → ∀ fault, P ⟨fault, t.offset, t.source⟩
  value : ∀ a ∈ t.attributes, ∀ f, value a = .error f → P f

theorem compileAttributes_error {as : List RawAttribute}
    (has : ∀ a ∈ as, ∀ f, value a = .error f → P f) {f : Failure}
    (h : compileAttributes value as = .error f) : P f := by
  induction as with
  | nil => cases h
  | cons a as ih =>
    rw [List.forall_mem_cons] at has
    rw [compileAttributes] at h
    split at h
    · next hvalue =>
      cases h
      exact has.1 f hvalue
    · split at h
      · next hrest =>
        cases h
        exact ih has.2 hrest
      · cases h

theorem build_error {tag : Opening} (htag : Blames value P (.opening tag)) {children : List Node}
    {f : Failure} (h : tag.build value children = .error f) : P f := by
  unfold Opening.build at h
  split at h
  · cases h
    exact htag.own rfl .invalidName
  · split at h
    · next hattributes =>
      cases h
      exact compileAttributes_error htag.value hattributes
    · cases h

theorem assemble_error {frames : List OpenTag} {nodes : List Node} {ts : List Token}
    (hframes : ∀ frame ∈ frames, Blames value P (.opening frame.tag))
    (hts : ∀ t ∈ ts, Blames value P t) {f : Failure}
    (h : assemble value frames nodes ts = .error f) : P f := by
  induction ts generalizing frames nodes with
  | nil =>
    cases frames with
    | nil => cases h
    | cons frame frames =>
      cases h
      exact (hframes frame List.mem_cons_self).own rfl .unclosed
  | cons t ts ih =>
    rw [List.forall_mem_cons] at hts
    obtain ⟨ht, hts⟩ := hts
    cases t with
    | text text offset =>
      rw [assemble_text] at h
      exact ih hframes hts h
    | opening tag =>
      cases hclosed : tag.selfClosing with
      | true =>
        rw [assemble_selfClosing hclosed] at h
        cases hbuild : tag.build value [] with
        | error failure =>
          rw [hbuild] at h
          cases h
          exact build_error ht hbuild
        | ok node =>
          rw [hbuild] at h
          exact ih hframes hts h
      | false =>
        rw [assemble_opening hclosed] at h
        exact ih (List.forall_mem_cons.2 ⟨ht, hframes⟩) hts h
    | closing name source offset =>
      cases frames with
      | nil =>
        cases h
        exact ht.own rfl .strayClosing
      | cons frame frames =>
        rw [List.forall_mem_cons] at hframes
        by_cases hname : frame.tag.name = name
        · rw [assemble_closing hname] at h
          cases hbuild : frame.tag.build value nodes.reverse with
          | error failure =>
            rw [hbuild] at h
            cases h
            exact build_error hframes.1 hbuild
          | ok node =>
            rw [hbuild] at h
            exact ih hframes.2 hts h
        · rw [assemble_mismatch hname] at h
          cases h
          exact ht.own rfl (.mismatchedClosing frame.tag.name)

end Assembling

/-- The induction is on the length of the window: a value is a shorter one, and stands in it. -/
theorem parseWindow_error_shows {beyond : Option Char} {offset : Nat} {cs : List Char}
    {f : Failure} (h : parseWindow beyond offset cs = .error f) : f.Shows offset cs := by
  induction hn : cs.length using Nat.strongRecOn generalizing beyond offset cs f with
  | ind n ih =>
    rw [parseWindow_eq] at h
    cases hts : lex beyond offset cs with
    | error failure =>
      rw [hts] at h
      cases h
      exact lex_error_shows hts
    | ok ts =>
      rw [hts] at h
      refine assemble_error (P := (·.Shows offset cs)) (List.forall_mem_nil _) (fun t ht => ?_) h
      refine ⟨lex_source_shows hts ht, fun a ha f hf => lex_value_shows hts ht ha ?_⟩
      have hshort := length_lex hts t ht a ha
      unfold RawAttribute.compiled at hf
      split at hf
      · cases hvalue : parseWindow (some a.quote) a.offset a.value with
        | error failure =>
          rw [hvalue] at hf
          cases hf
          exact ih a.value.length (hn ▸ hshort) hvalue rfl
        | ok nodes =>
          rw [hvalue] at hf
          cases hf
      · cases hf

/-- The line and the column of a compile error are those of one offset inside the text and of no
other, where the text goes on with what is shown, the beginning of a tag. Lines and columns grow
strictly with the offset. -/
theorem compile_error_points (text : String) :
    (∀ template e, compile text template = .error e →
      ∃ o < text.length, position text.toList o = e.position ∧
        (∀ o' < text.length, position text.toList o' = e.position → o' = o) ∧
        (text.toList.drop o).take e.fragment.length = e.fragment.toList ∧
        (openMark <+: e.fragment.toList ∨ closeMark <+: e.fragment.toList)) ∧
      ∀ o₁ o₂, o₁ < o₂ → o₂ ≤ text.length →
        (position text.toList o₁).Before (position text.toList o₂) := by
  constructor
  · intro template e he
    unfold compile at he
    split at he
    · cases he
    · next f hf =>
      cases he
      obtain ⟨hmark, before, after, htext, hoffset⟩ := parseWindow_error_shows hf
      rw [Nat.zero_add] at hoffset
      have hinside : f.offset < text.length := by
        have hshown := List.length_pos_iff.2 hmark.ne_nil
        rw [← String.length_toList, htext, hoffset]
        simp only [List.length_append]
        omega
      refine ⟨f.offset, hinside, rfl, fun o ho hposition => ?_, ?_, hmark⟩
      · rw [← String.length_toList] at hinside ho
        exact position_injective ho.le hinside.le hposition
      · show (text.toList.drop f.offset).take f.fragment.length = f.fragment.toList
        rw [htext, hoffset, List.drop_left, ← String.length_toList, List.take_left]
  · intro o₁ o₂ hlt hle
    exact position_before hlt (by rwa [String.length_toList])

/-- A tag inside a value inside a value, each on a line of its own. -/
theorem compile_error_points_nested :
    let text := "a\n<pop:a b=\"\n<pop:c d='\n <pop:e'/>\"/>"
    let e : CompileError := ⟨.malformed, "<pop:e", ⟨4, 2⟩, none⟩
    compile text none = .error e ∧
      (∃ o < text.length, position text.toList o = e.position ∧
        (∀ o' < text.length, position text.toList o' = e.position → o' = o) ∧
        (text.toList.drop o).take e.fragment.length = e.fragment.toList ∧
        (openMark <+: e.fragment.toList ∨ closeMark <+: e.fragment.toList)) ∧
      (1 < 2 ∧ 2 ≤ text.length) ∧ (position text.toList 1).Before (position text.toList 2) := by
  intro text e
  have hfault : (compile text none).map (fun _ => ()) = .error e := by decide +kernel
  have herror := map_eq_error.1 hfault
  have hle : 2 ≤ text.length := by decide
  obtain ⟨hpoints, hgrow⟩ := compile_error_points text
  exact ⟨herror, hpoints none e herror, ⟨Nat.lt_succ_self 1, hle⟩,
    hgrow 1 2 (Nat.lt_succ_self 1) hle⟩

end TagTemplate.Markup
