import TagTemplate.Proofs.Appending

/-!
# Windows and texts of their own

A window has the tokens that its characters have as a text of their own, further on by its start. It
has their failure too, with one exception: where a value is due right at the end of a window, a
quotation mark after the window is taken for the one that begins the value. The failure is then the
one of the text that has this mark at its end.
-/

namespace TagTemplate.Markup

/-- The characters of a window, as a text of their own. -/
def Window.alone (w : Window) : Window := .whole w.content

/-- Where `beyond` follows, the fault of a text becomes `fault'`. That is the same fault unless a
value is missing and a quotation mark follows, and then it is the fault of the longer text. -/
structure Becomes {α : Type} (beyond : Option Char) (fault : Fault) (there : Except Fault α)
    (longer : Char → Except Fault α) (fault' : Fault) : Prop where
  there : there = .error fault'
  same : (fault = .unquotedValue → ∀ q ∈ beyond, isQuote q = false) → fault' = fault
  longer : fault = .unquotedValue → ∀ q ∈ beyond, isQuote q = true → longer q = .error fault'

section Tags

variable {beyond : Option Char} {offset : Nat} {cs : List Char} {fault : Fault}

theorem becomes_self {α : Type} {there : Except Fault α} {longer : Char → Except Fault α}
    (hthere : there = .error fault) (hfault : fault ≠ .unquotedValue) :
    Becomes beyond fault there longer fault :=
  ⟨hthere, fun _ => rfl, fun h => absurd h hfault⟩

theorem skipBlank_quote {q : Char} (hq : isQuote q = true) : skipBlank [q] = [q] := by
  have hmark : q = '"' ∨ q = '\'' := by simpa [isQuote] using hq
  apply skipBlank_cons
  rcases hmark with rfl | rfl <;> rfl

theorem breaksMarks_quote {q : Char} (hq : isQuote q = true) : ∀ c ∈ [q].head?, BreaksMarks c := by
  have hmark : q = '"' ∨ q = '\'' := by simpa [isQuote] using hq
  rintro c ⟨⟩
  rcases hmark with rfl | rfl <;> decide

variable (beyond) in
theorem readValue_becomes (h : readValue none cs = .error fault) : ∃ fault',
    Becomes beyond fault (readValue beyond cs) (fun q => readValue none (cs ++ [q])) fault' := by
  cases cs with
  | nil =>
    cases h
    cases beyond with
    | none => exact ⟨_, rfl, fun _ => rfl, fun _ => nofun⟩
    | some c =>
      cases hc : isQuote c with
      | true =>
        refine ⟨.unterminatedValue, by rw [readValue, if_pos hc], fun hsame => ?_, ?_⟩
        · rw [hsame rfl c rfl] at hc
          cases hc
        · rintro - q ⟨⟩ -
          rw [List.nil_append, readValue, if_pos hc]
          rfl
      | false =>
        refine ⟨.unquotedValue, by simp [readValue, hc], fun _ => rfl, ?_⟩
        rintro - q ⟨⟩ hq
        rw [hc] at hq
        cases hq
  | cons c r =>
    refine ⟨fault, h, fun _ => rfl, fun hfault q _ _ => ?_⟩
    -- the value begins with something else than a quotation mark, and so it does in the longer text
    subst hfault
    rw [readValue] at h
    split at h
    · split at h <;> cases h
    · next hc => rw [List.cons_append, readValue, if_neg hc]

variable (beyond) in
theorem readAttribute_becomes (h : readAttribute none offset cs = .error fault) : ∃ fault',
    Becomes beyond fault (readAttribute beyond offset cs)
      (fun q => readAttribute none offset (cs ++ [q])) fault' := by
  unfold readAttribute at h
  split at h
  · next hname =>
    cases h
    exact ⟨.malformed, becomes_self (by rw [readAttribute, hname]) (by decide)⟩
  · next name r hname =>
    split at h
    · next hvalue =>
      cases h
      obtain ⟨fault', hthere, hsame, hlonger⟩ := readValue_becomes beyond hvalue
      refine ⟨fault', ?_, hsame, fun hfault q hbeyond hq => ?_⟩
      · rw [readAttribute, hname]
        dsimp only
        rw [hthere]
      · rw [readAttribute, readAttributeName_append [q] hname (.inr (skipBlank_quote hq))]
        dsimp only
        rw [hlonger hfault q hbeyond hq]
    · cases h

theorem readAttributeName_of_unquoted (h : readAttribute none offset cs = .error .unquotedValue) :
    ∃ name r, readAttributeName cs = some (name, r) := by
  unfold readAttribute at h
  split at h
  · cases h
  · next name r hname => exact ⟨name, r, hname⟩

variable (beyond) in
theorem readAttributes_becomes (h : readAttributes none offset cs = .error fault) : ∃ fault',
    Becomes beyond fault (readAttributes beyond offset cs)
      (fun q => readAttributes none offset (cs ++ [q])) fault' := by
  induction hn : cs.length using Nat.strongRecOn generalizing offset cs with
  | ind n ih =>
    cases hend : readTagEnd cs with
    | some p =>
      rw [readAttributes_of_end hend] at h
      cases h
    | none =>
      rw [readAttributes_of_attribute hend] at h ⊢
      cases ha : readAttribute none offset cs with
      | error e =>
        rw [ha] at h
        cases h
        obtain ⟨fault', hthere, hsame, hlonger⟩ := readAttribute_becomes beyond ha
        refine ⟨fault', by rw [hthere]; rfl, hsame, fun hfault q hbeyond hq => ?_⟩
        obtain ⟨name, r, hname⟩ := readAttributeName_of_unquoted (hfault ▸ ha)
        have hname' := readAttributeName_append [q] hname (.inr (skipBlank_quote hq))
        rw [readAttributes_of_attribute (readTagEnd_of_readAttributeName hname'),
          hlonger hfault q hbeyond hq]
        rfl
      | ok p =>
        obtain ⟨a, rest⟩ := p
        have hlt := (length_readAttribute ha).1
        rw [ha] at h
        obtain ⟨fault', hthere, hsame, hlonger⟩ :=
          ih rest.length (hn ▸ hlt) (map_eq_error.1 h) rfl
        refine ⟨fault', ?_, hsame, fun hfault q hbeyond hq => ?_⟩
        · rw [readAttribute_beyond beyond ha, Except.bind]
          dsimp only
          rw [hthere]
          rfl
        · have happend := readAttribute_append [q] none ha
          rw [readAttributes_of_attribute (readTagEnd_of_readAttribute happend), happend,
            Except.bind, List.length_append, List.length_append, Nat.add_sub_add_right,
            hlonger hfault q hbeyond hq]
          rfl

variable (beyond) in
theorem readTag_becomes (ht : atTag cs = true) (h : readTag none offset cs = .error fault) :
    ∃ fault', Becomes beyond fault (readTag beyond offset cs)
      (fun q => readTag none offset (cs ++ [q])) fault' := by
  unfold readTag at h
  split at h
  · next hclose =>
    refine ⟨fault, becomes_self (by rw [readTag, if_pos hclose, h]) ?_⟩
    rintro rfl
    unfold readClosing at h
    split at h
    · cases h
    · split at h <;> cases h
  · next hclose =>
    unfold readOpening at h
    split at h
    · next hname =>
      cases h
      exact ⟨_, becomes_self (by rw [readTag, if_neg hclose, readOpening, hname]) (by decide)⟩
    · next name r hname =>
      split at h
      · next hattributes =>
        cases h
        obtain ⟨fault', hthere, hsame, hlonger⟩ := readAttributes_becomes beyond hattributes
        refine ⟨fault', ?_, hsame, fun hfault q hbeyond hq => ?_⟩
        · rw [readTag, if_neg hclose, readOpening, hname]
          dsimp only
          rw [hthere]
        · have hopen : openMark.isPrefixOf cs = true := by simpa [atTag, hclose] using ht
          have hclose' : closeMark.isPrefixOf (cs ++ [q]) = false := by
            obtain ⟨body, rfl⟩ := List.isPrefixOf_iff_prefix.1 hopen
            rfl
          have hdrop : (cs ++ [q]).drop openMark.length = cs.drop openMark.length ++ [q] :=
            List.drop_append_of_le_length (List.isPrefixOf_iff_prefix.1 hopen).length_le
          have hr : r ≠ [] := by
            rintro rfl
            rw [hfault, readAttributes] at hattributes
            cases hattributes
          rw [readTag, hclose', if_neg Bool.false_ne_true, hdrop, readOpening,
            readName_append [q] hname hr]
          dsimp only
          rw [List.length_append, List.length_append, Nat.add_sub_add_right,
            hlonger hfault q hbeyond hq]
      · cases h

end Tags

theorem lex_error (beyond : Option Char) {offset : Nat} {cs : List Char} {f : Failure}
    (h : lex none offset cs = .error f) : ∃ fault,
      lex beyond offset cs = .error { f with fault } ∧
      ((f.fault = .unquotedValue → ∀ q ∈ beyond, isQuote q = false) → fault = f.fault) ∧
      (f.fault = .unquotedValue → ∀ q ∈ beyond, isQuote q = true →
        ∃ fragment, lex none offset (cs ++ [q]) = .error ⟨fault, f.offset, fragment⟩) := by
  induction hn : cs.length using Nat.strongRecOn generalizing offset cs with
  | ind n ih =>
    by_cases hne : cs = []
    · rw [hne, lex_nil] at h
      cases h
    cases ht : atTag cs with
    | true =>
      rw [lex_of_tag ht] at h ⊢
      cases hr : readTag none offset cs with
      | error e =>
        rw [hr] at h
        cases h
        obtain ⟨fault', hthere, hsame, hlonger⟩ := readTag_becomes beyond ht hr
        refine ⟨fault', by rw [hthere]; rfl, hsame, fun hfault q hbeyond hq => ?_⟩
        rw [lex_of_tag (atTag_append [q] ht), hlonger hfault q hbeyond hq]
        exact ⟨_, rfl⟩
      | ok p =>
        obtain ⟨t, rest⟩ := p
        have hlt := (length_readTag hr).1
        rw [hr] at h
        obtain ⟨fault', hthere, hsame, hlonger⟩ :=
          ih rest.length (hn ▸ hlt) (map_eq_error.1 h) rfl
        refine ⟨fault', ?_, hsame, fun hfault q hbeyond hq => ?_⟩
        · rw [readTag_beyond beyond hr, mapError_ok, Except.bind]
          dsimp only
          rw [hthere]
          rfl
        · obtain ⟨fragment, hrest⟩ := hlonger hfault q hbeyond hq
          refine ⟨fragment, ?_⟩
          rw [lex_of_tag (atTag_append [q] ht), readTag_append [q] none hr ht, mapError_ok,
            Except.bind, List.length_append, List.length_append, Nat.add_sub_add_right, hrest]
          rfl
    | false =>
      rw [lex_of_text hne ht] at h ⊢
      have hlt := length_textRun_plain hne ht
      obtain ⟨fault', hthere, hsame, hlonger⟩ := ih _ (hn ▸ hlt) (map_eq_error.1 h) rfl
      refine ⟨fault', by rw [hthere]; rfl, hsame, fun hfault q hbeyond hq => ?_⟩
      obtain ⟨fragment, hrest⟩ := hlonger hfault q hbeyond hq
      have hstop : (textRun .plain cs).2 ≠ [] := by
        intro hall
        rw [hall, lex_nil] at h
        cases h
      have hplain : atTag (cs ++ [q]) = false :=
        (atTag_append_eq hne (breaksMarks_quote hq)).trans ht
      refine ⟨fragment, ?_⟩
      rw [lex_of_text (List.append_ne_nil_of_left_ne_nil hne _) hplain,
        textRun_append_of_stop (breaksMarks_quote hq) hstop, hrest]
      rfl

theorem Window.tokens_of_inside {w : Window} (h : w.stop ≤ w.text.length) :
    w.tokens = lex w.beyond w.start w.content := by
  unfold Window.tokens
  cases lex w.beyond w.start w.content with
  | error f => rfl
  | ok ts =>
    have hinside : ¬ w.text.length < w.stop := Nat.not_lt.2 h
    simp [hinside]

theorem Window.tokens_whole (text : List Char) : (Window.whole text).tokens = lex none 0 text := by
  rw [tokens_of_inside (w := .whole text) (Nat.le_refl _)]
  simp [Window.whole, Window.beyond, Window.content]

/-- A window inside a text has the tokens that its characters have as a text of their own, with
every offset moved on by its start. It fails where they fail, and shows the same fragment: with the
same fault, unless a value that has no quotation mark is what is wrong and a mark stands right after
the window. Then the fault is that of the text with this mark as its last character. -/
theorem Window.tokens_alone (w : Window) (hstop : w.stop ≤ w.text.length) :
    (∀ ts, w.alone.tokens = .ok ts → w.tokens = .ok (ts.map (·.shift w.start))) ∧
      ∀ f, w.alone.tokens = .error f → ∃ fault,
        w.tokens = .error ⟨fault, w.start + f.offset, f.fragment⟩ ∧
        ((f.fault = .unquotedValue → ∀ q ∈ w.beyond, isQuote q = false) → fault = f.fault) ∧
        (f.fault = .unquotedValue → ∀ q ∈ w.beyond, isQuote q = true → ∃ fragment,
          (Window.whole (w.content ++ [q])).tokens = .error ⟨fault, f.offset, fragment⟩) := by
  have hshift := lex_shift w.beyond w.start 0 w.content
  rw [Nat.zero_add, ← tokens_of_inside hstop] at hshift
  rw [Window.alone, tokens_whole, hshift]
  constructor
  · intro ts hts
    rw [lex_beyond w.beyond hts]
    rfl
  · intro f hf
    obtain ⟨fault, hthere, hsame, hlonger⟩ := lex_error w.beyond hf
    refine ⟨fault, ?_, hsame, fun hfault q hbeyond hq => ?_⟩
    · rw [hthere, Nat.add_comm w.start f.offset]
      rfl
    · rw [tokens_whole]
      exact hlonger hfault q hbeyond hq

/-- The mark after an attribute value that ends where a value of its own is due. -/
theorem Window.tokens_alone_value :
    let w : Window := ⟨"<pop:x y='<pop:a b='/>".toList, 10, 19⟩
    let f : Failure := ⟨.unquotedValue, 0, "<pop:a b="⟩
    w.stop ≤ w.text.length ∧ w.alone.tokens = .error f ∧
      ∃ fault, w.tokens = .error ⟨fault, w.start + f.offset, f.fragment⟩ ∧
        ∃ fragment, (Window.whole (w.content ++ ['\''])).tokens =
          .error ⟨fault, f.offset, fragment⟩ := by
  intro w f
  have hstop : w.stop ≤ w.text.length := by decide +kernel
  have halone : w.alone.tokens = .error f := by decide +kernel
  obtain ⟨fault, hthere, -, hlonger⟩ := (w.tokens_alone hstop).2 f halone
  exact ⟨hstop, halone, fault, hthere, hlonger rfl '\'' (by decide +kernel) rfl⟩

/-- A window with a quotation mark after it can fail with another fault than its characters. -/
theorem Window.tokens_ne_alone :
    let w : Window := ⟨"<pop:a b=\"".toList, 0, 9⟩
    w.alone.tokens = .error ⟨.unquotedValue, 0, "<pop:a b="⟩ ∧
      w.tokens = .error ⟨.unterminatedValue, 0, "<pop:a b="⟩ := by
  decide +kernel

end TagTemplate.Markup
