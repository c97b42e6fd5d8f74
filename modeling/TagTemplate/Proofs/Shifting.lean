import TagTemplate.Markup.Parser

/-!
# Where a text stands

A text is read alike wherever it stands: tokens and failures only carry other offsets. What follows
the text can turn one failure into another one, but makes no difference where reading succeeds.
-/

namespace TagTemplate.Markup

section Results

variable {ε ε' α β : Type} {x : Except ε α} {b : β}

theorem bind_eq_ok {f : α → Except ε β} : x.bind f = .ok b ↔ ∃ a, x = .ok a ∧ f a = .ok b := by
  cases x <;> simp [Except.bind]

theorem map_eq_ok {f : α → β} : x.map f = .ok b ↔ ∃ a, x = .ok a ∧ f a = b := by
  cases x <;> simp [Except.map]

theorem map_eq_error {f : α → β} {e : ε} : x.map f = .error e ↔ x = .error e := by
  cases x <;> simp [Except.map]

theorem mapError_error (f : ε → ε') (e : ε) :
    (Except.error e : Except ε α).mapError f = .error (f e) := rfl

theorem mapError_ok (f : ε → ε') (a : α) : (Except.ok a : Except ε α).mapError f = .ok a := rfl

theorem mapError_eq_ok {f : ε → ε'} {a : α} : x.mapError f = .ok a ↔ x = .ok a := by
  cases x <;> simp [mapError_error, mapError_ok]

theorem mapError_id : x.mapError (fun e => e) = x := by
  cases x <;> rfl

end Results

section Steps

variable {beyond : Option Char} {offset : Nat} {cs : List Char}

theorem readAttributes_of_end {closed : Bool} {rest : List Char}
    (h : readTagEnd cs = some (closed, rest)) :
    readAttributes beyond offset cs = .ok ([], closed, rest) := by
  rw [readAttributes, h]

theorem readAttributes_of_attribute (h : readTagEnd cs = none) :
    readAttributes beyond offset cs =
      (readAttribute beyond offset cs).bind fun p =>
        (readAttributes beyond (offset + (cs.length - p.2.length)) p.2).map fun q =>
          (p.1 :: q.1, q.2) := by
  rw [readAttributes, h]
  dsimp only
  split
  · next hfault => rw [hfault, Except.bind]
  · next a rest ha =>
    rw [ha, Except.bind]
    dsimp only
    cases readAttributes beyond (offset + (cs.length - rest.length)) rest <;> rfl

theorem lex_nil : lex beyond offset [] = .ok [] := by
  rw [lex]
  rfl

theorem lex_of_tag (h : atTag cs = true) :
    lex beyond offset cs =
      ((readTag beyond offset cs).mapError fun fault => ⟨fault, offset, fragment cs⟩).bind fun p =>
        (lex beyond (offset + (cs.length - p.2.length)) p.2).map (p.1 :: ·) := by
  have hne : cs ≠ [] := by
    rintro rfl
    cases h
  rw [lex, dif_neg hne, dif_pos h]
  split
  · next hfault => rw [hfault, mapError_error, Except.bind]
  · next t rest ht =>
    dsimp only
    rw [ht, mapError_ok, Except.bind]
    dsimp only
    cases lex beyond (offset + (cs.length - rest.length)) rest <;> rfl

theorem lex_of_text (hne : cs ≠ []) (h : atTag cs = false) :
    lex beyond offset cs =
      (lex beyond (offset + (textRun .plain cs).1.length) (textRun .plain cs).2).map
        (.text (String.ofList (textRun .plain cs).1) offset :: ·) := by
  rw [lex, dif_neg hne, dif_neg (Bool.eq_false_iff.1 h)]
  cases lex beyond (offset + (textRun .plain cs).1.length) (textRun .plain cs).2 <;> rfl

end Steps

def RawAttribute.shift (d : Nat) (a : RawAttribute) : RawAttribute :=
  { a with offset := a.offset + d }

def Opening.shift (d : Nat) (tag : Opening) : Opening :=
  { tag with attributes := tag.attributes.map (·.shift d), offset := tag.offset + d }

def Token.shift (d : Nat) : Token → Token
  | .text value offset => .text value (offset + d)
  | .opening tag => .opening (tag.shift d)
  | .closing name source offset => .closing name source (offset + d)

def Failure.shift (d : Nat) (f : Failure) : Failure := { f with offset := f.offset + d }

section Tokens

variable (beyond : Option Char) (d : Nat)

theorem readAttribute_shift (offset : Nat) (cs : List Char) :
    readAttribute beyond (offset + d) cs =
      (readAttribute beyond offset cs).map fun p => (p.1.shift d, p.2) := by
  unfold readAttribute
  cases readAttributeName cs with
  | none => rfl
  | some p =>
    obtain ⟨name, r⟩ := p
    dsimp only
    cases readValue beyond r with
    | error fault => rfl
    | ok p =>
      obtain ⟨quote, value, inner, rest⟩ := p
      simp only [Except.map, RawAttribute.shift, Nat.add_right_comm]

theorem readAttributes_shift (offset : Nat) (cs : List Char) :
    readAttributes beyond (offset + d) cs =
      (readAttributes beyond offset cs).map fun p => (p.1.map (·.shift d), p.2) := by
  induction hn : cs.length using Nat.strongRecOn generalizing offset cs with
  | ind n ih =>
    cases hend : readTagEnd cs with
    | some p => rw [readAttributes_of_end hend, readAttributes_of_end hend]; rfl
    | none =>
      rw [readAttributes_of_attribute hend, readAttributes_of_attribute hend, readAttribute_shift]
      cases ha : readAttribute beyond offset cs with
      | error fault => rfl
      | ok p =>
        obtain ⟨a, rest⟩ := p
        have hlt := (length_readAttribute ha).1
        simp only [Except.map, Except.bind]
        rw [Nat.add_right_comm, ih rest.length (hn ▸ hlt) _ rest rfl]
        cases readAttributes beyond (offset + (cs.length - rest.length)) rest <;> rfl

theorem readTag_shift (offset : Nat) (cs : List Char) :
    readTag beyond (offset + d) cs =
      (readTag beyond offset cs).map fun p => (p.1.shift d, p.2) := by
  unfold readTag readClosing readOpening
  split
  · cases readName (cs.drop closeMark.length) with
    | none => rfl
    | some p =>
      obtain ⟨name, r⟩ := p
      dsimp only
      cases readClosingEnd r <;> rfl
  · cases readName (cs.drop openMark.length) with
    | none => rfl
    | some p =>
      obtain ⟨name, r⟩ := p
      dsimp only
      rw [Nat.add_right_comm, readAttributes_shift]
      cases readAttributes beyond (offset + (cs.length - r.length)) r <;> rfl

theorem lex_shift (offset : Nat) (cs : List Char) :
    lex beyond (offset + d) cs =
      ((lex beyond offset cs).map (·.map (·.shift d))).mapError (·.shift d) := by
  induction hn : cs.length using Nat.strongRecOn generalizing offset cs with
  | ind n ih =>
    by_cases hne : cs = []
    · subst hne
      rw [lex_nil, lex_nil]
      rfl
    cases ht : atTag cs with
    | true =>
      rw [lex_of_tag ht, lex_of_tag ht, readTag_shift]
      cases hr : readTag beyond offset cs with
      | error fault => rfl
      | ok p =>
        obtain ⟨t, rest⟩ := p
        have hlt := (length_readTag hr).1
        simp only [Except.map, mapError_ok, Except.bind]
        rw [Nat.add_right_comm, ih rest.length (hn ▸ hlt) _ rest rfl]
        cases lex beyond (offset + (cs.length - rest.length)) rest <;> rfl
    | false =>
      have hlt := length_textRun_plain hne ht
      rw [lex_of_text hne ht, lex_of_text hne ht, Nat.add_right_comm, ih _ (hn ▸ hlt) _ _ rfl]
      cases lex beyond (offset + (textRun .plain cs).1.length) (textRun .plain cs).2 <;> rfl

end Tokens

section Beyond

variable {beyond : Option Char} (beyond' : Option Char)

theorem readAttribute_beyond {offset : Nat} {cs : List Char} {p : RawAttribute × List Char}
    (h : readAttribute beyond offset cs = .ok p) : readAttribute beyond' offset cs = .ok p := by
  unfold readAttribute at h ⊢
  cases hname : readAttributeName cs with
  | none => simp [hname] at h
  | some q =>
    obtain ⟨name, r⟩ := q
    simp only [hname] at h ⊢
    cases r with
    | nil =>
      have hnone : ∀ q, readValue beyond [] ≠ .ok q := by
        intro q hq
        unfold readValue at hq
        dsimp only at hq
        split at hq
        · split at hq <;> cases hq
        · cases hq
      cases hv : readValue beyond [] with
      | error fault => simp [hv] at h
      | ok q => exact absurd hv (hnone q)
    | cons c r => exact h

theorem readAttributes_beyond {offset : Nat} {cs : List Char}
    {p : List RawAttribute × Bool × List Char} (h : readAttributes beyond offset cs = .ok p) :
    readAttributes beyond' offset cs = .ok p := by
  induction hn : cs.length using Nat.strongRecOn generalizing offset cs p with
  | ind n ih =>
    cases hend : readTagEnd cs with
    | some q =>
      rw [readAttributes_of_end hend] at h ⊢
      exact h
    | none =>
      rw [readAttributes_of_attribute hend] at h ⊢
      obtain ⟨q, ha, h⟩ := bind_eq_ok.1 h
      obtain ⟨r, hr, h⟩ := map_eq_ok.1 h
      have hlt := (length_readAttribute ha).1
      refine bind_eq_ok.2 ⟨q, readAttribute_beyond beyond' ha, map_eq_ok.2 ⟨r, ?_, h⟩⟩
      exact ih q.2.length (hn ▸ hlt) hr rfl

theorem readTag_beyond {offset : Nat} {cs : List Char} {p : Token × List Char}
    (h : readTag beyond offset cs = .ok p) : readTag beyond' offset cs = .ok p := by
  unfold readTag at h ⊢
  split
  · next hclose => rwa [if_pos hclose] at h
  · next hclose =>
    rw [if_neg hclose] at h
    unfold readOpening at h ⊢
    cases hname : readName (cs.drop openMark.length) with
    | none => simp [hname] at h
    | some q =>
      obtain ⟨name, r⟩ := q
      simp only [hname] at h ⊢
      cases hr : readAttributes beyond (offset + (cs.length - r.length)) r with
      | error fault => simp [hr] at h
      | ok q =>
        rw [hr] at h
        rw [readAttributes_beyond beyond' hr]
        exact h

theorem lex_beyond {offset : Nat} {cs : List Char} {ts : List Token}
    (h : lex beyond offset cs = .ok ts) : lex beyond' offset cs = .ok ts := by
  induction hn : cs.length using Nat.strongRecOn generalizing offset cs ts with
  | ind n ih =>
    by_cases hne : cs = []
    · subst hne
      rw [lex_nil] at h ⊢
      exact h
    cases ht : atTag cs with
    | true =>
      rw [lex_of_tag ht] at h ⊢
      obtain ⟨p, hr, h⟩ := bind_eq_ok.1 h
      obtain ⟨ts', hts, h⟩ := map_eq_ok.1 h
      rw [mapError_eq_ok] at hr
      have hlt := (length_readTag hr).1
      refine bind_eq_ok.2 ⟨p, mapError_eq_ok.2 (readTag_beyond beyond' hr), ?_⟩
      exact map_eq_ok.2 ⟨ts', ih p.2.length (hn ▸ hlt) hts rfl, h⟩
    | false =>
      rw [lex_of_text hne ht] at h ⊢
      obtain ⟨ts', hts, h⟩ := map_eq_ok.1 h
      exact map_eq_ok.2 ⟨ts', ih _ (hn ▸ length_textRun_plain hne ht) hts rfl, h⟩

end Beyond

section Assembling

variable {value : RawAttribute → Except Failure AttributeValue} {frames : List OpenTag}
  {frame : OpenTag} {nodes : List Node} {tag : Opening} {ts : List Token}

theorem assemble_text (text : String) (offset : Nat) :
    assemble value frames nodes (.text text offset :: ts) =
      assemble value frames (.text text :: nodes) ts := by
  cases frames <;> rw [assemble]

theorem assemble_selfClosing (h : tag.selfClosing = true) :
    assemble value frames nodes (.opening tag :: ts) =
      (tag.build value []).bind fun node => assemble value frames (node :: nodes) ts := by
  cases frames <;> rw [assemble, if_pos h] <;> cases tag.build value [] <;> rfl

theorem assemble_opening (h : tag.selfClosing = false) :
    assemble value frames nodes (.opening tag :: ts) =
      assemble value (⟨tag, nodes⟩ :: frames) [] ts := by
  cases frames <;> simp [assemble, h]

theorem assemble_closing {name : String} (h : frame.tag.name = name) (source : String)
    (offset : Nat) :
    assemble value (frame :: frames) nodes (.closing name source offset :: ts) =
      (frame.tag.build value nodes.reverse).bind fun node =>
        assemble value frames (node :: frame.before) ts := by
  rw [assemble, if_pos h]
  cases frame.tag.build value nodes.reverse <;> rfl

theorem assemble_mismatch {name : String} (h : frame.tag.name ≠ name) (source : String)
    (offset : Nat) :
    assemble value (frame :: frames) nodes (.closing name source offset :: ts) =
      .error ⟨.mismatchedClosing frame.tag.name, offset, source⟩ := by
  rw [assemble, if_neg h]

end Assembling

def OpenTag.shift (d : Nat) (frame : OpenTag) : OpenTag := { frame with tag := frame.tag.shift d }

section Values

variable {d : Nat} {value value' : RawAttribute → Except Failure AttributeValue}

theorem compileAttributes_shift {as : List RawAttribute}
    (h : ∀ a ∈ as, value' (a.shift d) = (value a).mapError (·.shift d)) :
    compileAttributes value' (as.map (·.shift d)) =
      (compileAttributes value as).mapError (·.shift d) := by
  induction as with
  | nil => rfl
  | cons a as ih =>
    rw [List.forall_mem_cons] at h
    rw [List.map_cons, compileAttributes, compileAttributes, h.1, ih h.2]
    cases value a with
    | error failure => rfl
    | ok v => cases compileAttributes value as <;> rfl

theorem build_shift {tag : Opening} {children : List Node}
    (h : ∀ a ∈ tag.attributes, value' (a.shift d) = (value a).mapError (·.shift d)) :
    (tag.shift d).build value' children = (tag.build value children).mapError (·.shift d) := by
  unfold Opening.build Opening.shift
  dsimp only
  rw [compileAttributes_shift h]
  cases TagPath.ofName? tag.name with
  | none => rfl
  | some path => cases compileAttributes value tag.attributes <;> rfl

theorem assemble_shift {frames : List OpenTag} {nodes : List Node} {ts : List Token}
    (hframes : ∀ frame ∈ frames, ∀ a ∈ frame.tag.attributes,
      value' (a.shift d) = (value a).mapError (·.shift d))
    (hts : ∀ t ∈ ts, ∀ a ∈ t.attributes, value' (a.shift d) = (value a).mapError (·.shift d)) :
    assemble value' (frames.map (·.shift d)) nodes (ts.map (·.shift d)) =
      (assemble value frames nodes ts).mapError (·.shift d) := by
  induction ts generalizing frames nodes with
  | nil => cases frames <;> rfl
  | cons t ts ih =>
    rw [List.forall_mem_cons] at hts
    cases t with
    | text text offset =>
      rw [List.map_cons, Token.shift, assemble_text, assemble_text]
      exact ih hframes hts.2
    | opening tag =>
      rw [List.map_cons, Token.shift]
      by_cases hclosed : tag.selfClosing = true
      · have hclosed' : (tag.shift d).selfClosing = true := hclosed
        rw [assemble_selfClosing hclosed, assemble_selfClosing hclosed', build_shift hts.1]
        cases tag.build value [] with
        | error failure => rfl
        | ok node => exact ih hframes hts.2
      · rw [Bool.not_eq_true] at hclosed
        have hclosed' : (tag.shift d).selfClosing = false := hclosed
        have hframes' : ∀ frame ∈ (⟨tag, nodes⟩ : OpenTag) :: frames,
            ∀ a ∈ frame.tag.attributes, value' (a.shift d) = (value a).mapError (·.shift d) :=
          List.forall_mem_cons.2 ⟨hts.1, hframes⟩
        rw [assemble_opening hclosed, assemble_opening hclosed']
        exact ih hframes' hts.2
    | closing name source offset =>
      cases frames with
      | nil => rfl
      | cons frame frames =>
        rw [List.forall_mem_cons] at hframes
        rw [List.map_cons, List.map_cons, Token.shift]
        by_cases hname : frame.tag.name = name
        · have hname' : (frame.shift d).tag.name = name := hname
          rw [assemble_closing hname, assemble_closing hname', OpenTag.shift,
            build_shift hframes.1]
          cases frame.tag.build value nodes.reverse with
          | error failure => rfl
          | ok node => exact ih hframes.2 hts.2
        · have hname' : (frame.shift d).tag.name ≠ name := hname
          rw [assemble_mismatch hname, assemble_mismatch hname']
          rfl

end Values

@[simp] theorem RawAttribute.shift_zero (a : RawAttribute) : a.shift 0 = a := rfl

@[simp] theorem Opening.shift_zero (tag : Opening) : tag.shift 0 = tag := by
  simp [Opening.shift]

@[simp] theorem OpenTag.shift_zero (frame : OpenTag) : frame.shift 0 = frame := by
  simp [OpenTag.shift]

@[simp] theorem Token.shift_zero (t : Token) : t.shift 0 = t := by
  cases t <;> simp [Token.shift]

@[simp] theorem Failure.shift_zero (f : Failure) : f.shift 0 = f := rfl

theorem assemble_congr {value value' : RawAttribute → Except Failure AttributeValue}
    {ts : List Token} (h : ∀ t ∈ ts, ∀ a ∈ t.attributes, value' a = value a) :
    assemble value' [] [] ts = assemble value [] [] ts := by
  have hzero : assemble value' (List.map (OpenTag.shift 0) []) [] (ts.map (·.shift 0)) =
      (assemble value [] [] ts).mapError (·.shift 0) :=
    assemble_shift (List.forall_mem_nil _) (by simpa [mapError_id] using h)
  simpa [mapError_id] using hzero

/-- The value of an attribute, compiled where it stands. -/
def RawAttribute.compiled (a : RawAttribute) : Except Failure AttributeValue :=
  if holdsTag a.value then (parseWindow (some a.quote) a.offset a.value).map .markup
  else .ok (.literal (String.ofList a.value))

theorem parseWindow_eq (beyond : Option Char) (offset : Nat) (cs : List Char) :
    parseWindow beyond offset cs =
      (lex beyond offset cs).bind (assemble RawAttribute.compiled [] []) := by
  rw [parseWindow]
  cases hts : lex beyond offset cs with
  | error failure => rfl
  | ok ts =>
    refine (assemble_congr fun t ht a ha => ?_).symm
    rw [dif_pos (length_lex hts t ht a ha), RawAttribute.compiled]
    cases parseWindow (some a.quote) a.offset a.value <;> rfl

theorem parseWindow_shift (beyond : Option Char) (d offset : Nat) (cs : List Char) :
    parseWindow beyond (offset + d) cs = (parseWindow beyond offset cs).mapError (·.shift d) := by
  induction hn : cs.length using Nat.strongRecOn generalizing beyond offset cs with
  | ind n ih =>
    rw [parseWindow_eq, parseWindow_eq, lex_shift]
    cases hts : lex beyond offset cs with
    | error failure => rfl
    | ok ts =>
      refine assemble_shift (List.forall_mem_nil _) fun t ht a ha => ?_
      have hlt := length_lex hts t ht a ha
      unfold RawAttribute.compiled
      by_cases hholds : holdsTag a.value = true
      · rw [if_pos hholds, if_pos (show holdsTag (a.shift d).value = true from hholds)]
        have hvalue := ih _ (hn ▸ hlt) (some a.quote) a.offset a.value rfl
        refine (congrArg (Except.map AttributeValue.markup) hvalue).trans ?_
        cases parseWindow (some a.quote) a.offset a.value <;> rfl
      · rw [if_neg hholds, if_neg (show ¬holdsTag (a.shift d).value = true from hholds)]
        rfl

theorem parseWindow_beyond {beyond : Option Char} (beyond' : Option Char) {offset : Nat}
    {cs : List Char} {nodes : List Node} (h : parseWindow beyond offset cs = .ok nodes) :
    parseWindow beyond' offset cs = .ok nodes := by
  rw [parseWindow_eq, bind_eq_ok] at h ⊢
  obtain ⟨ts, hts, h⟩ := h
  exact ⟨ts, lex_beyond beyond' hts, h⟩

theorem parseWindow_eq_ok_iff {beyond : Option Char} {offset : Nat} {cs : List Char}
    {nodes : List Node} :
    parseWindow beyond offset cs = .ok nodes ↔ parseWindow none 0 cs = .ok nodes := by
  have hshift : parseWindow beyond offset cs = .ok nodes ↔ parseWindow beyond 0 cs = .ok nodes := by
    rw [← Nat.zero_add offset, parseWindow_shift, mapError_eq_ok]
  exact hshift.trans ⟨parseWindow_beyond none, parseWindow_beyond beyond⟩

end TagTemplate.Markup
