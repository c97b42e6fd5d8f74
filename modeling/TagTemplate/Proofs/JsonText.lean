import TagTemplate.Json.Printer
import TagTemplate.Json.Reader

/-!
# Reading and printing JSON

A text that stands for a value is read as that value, whatever blanks and escapes it is written with
and whatever follows. What is printed of a value is one of its texts. Numbers are left out, since
where one ends depends on what follows.
-/

namespace TagTemplate.Json

def Reading.Gives {cs : List Char} {α : Type} (r : Reading cs α) (value : α)
    (rest : List Char) : Prop :=
  ∃ h, r = .done value rest h

theorem readChars_cons {c : Char} (hq : c ≠ '"') (hb : c ≠ '\\') (hc : ¬ c.toNat < 0x20)
    (cs : List Char) : readChars (c :: cs) = (readChars cs).map fun p => (c :: p.1, p.2) := by
  rw [readChars]
  · rw [if_neg hc]
  · exact hq
  · exact hb

theorem readChars_escape {c : Char} {written rest : List Char}
    (h : readEscape written = some (c, rest)) :
    readChars ('\\' :: written) = (readChars rest).map fun p => (c :: p.1, p.2) := by
  rw [readChars]
  split
  · next hnone => simp [h] at hnone
  · next x r hsome =>
    rw [h] at hsome
    cases hsome
    rfl

theorem CharText.readChars_append {c : Char} {written : List Char} (h : CharText c written)
    (cs : List Char) :
    readChars (written ++ cs) = (readChars cs).map fun p => (c :: p.1, p.2) := by
  cases h with
  | plain hquote hbackslash hcontrol => exact readChars_cons hquote hbackslash (by omega) cs
  | @short letter h =>
    refine readChars_escape ?_
    have hu : letter ≠ 'u' := by
      rintro rfl
      cases h
    simp [readEscape, hu, h]
  | unit hquad hunit =>
    refine readChars_escape ?_
    simp [readEscape, readCodeEscape, hquad, hunit]
  | @pair _ _ _ _ high _ _ _ _ low hhigh hlow hpair =>
    refine readChars_escape ?_
    have hunit : unitChar? high = none := by
      unfold pairChar? at hpair
      split at hpair
      · unfold unitChar?
        rw [if_pos (by omega)]
      · cases hpair
    simp [readEscape, readCodeEscape, readLowSurrogate, hhigh, hunit, hlow, hpair]

theorem CharsText.readChars_append {xs cs : List Char} (h : CharsText xs cs) (rest : List Char) :
    readChars (cs ++ '"' :: rest) = some (xs, rest) := by
  induction h with
  | nil => simp [readChars]
  | cons hc _ ih =>
    rw [List.append_assoc, hc.readChars_append, ih]
    rfl

theorem skipSpace_of_not_space {c : Char} (h : isSpace c = false) (cs : List Char) :
    skipSpace (c :: cs) = c :: cs := by
  simp [skipSpace, h]

theorem AllBlank.skipSpace_append {blanks : List Char} (h : AllBlank blanks) (cs : List Char) :
    skipSpace (blanks ++ cs) = skipSpace cs :=
  List.dropWhile_append_of_pos h

section Steps

variable {cs r rest xs : List Char} {v : Json}

theorem readValue_string (h : skipSpace cs = '"' :: r) (hr : readChars r = some (xs, rest)) :
    (readValue cs).Gives (.string (String.ofList xs)) rest := by
  unfold readValue
  split
  case h_2 r' h' =>
    rw [h] at h'
    cases h'
    split
    · next hnone => simp [hr] at hnone
    · next hsome =>
      rw [hr] at hsome
      cases hsome
      exact ⟨_, rfl⟩
  all_goals simp_all

theorem readValue_scalar {c : Char} (h : skipSpace cs = c :: r)
    (hc : c ∉ ['"', '[', '\x7b']) (hr : readScalar (c :: r) = some (v, rest)) :
    (readValue cs).Gives v rest := by
  unfold readValue
  split
  case h_1 h' => simp [h] at h'
  case h_5 c' r' _ _ _ h' =>
    rw [h] at h'
    cases h'
    split
    · next hnone => simp [hr] at hnone
    · next hsome =>
      rw [hr] at hsome
      cases hsome
      exact ⟨_, rfl⟩
  all_goals
    next h' =>
    rw [h] at h'
    cases h'
    simp at hc

theorem readValue_emptyArray (h : skipSpace cs = '[' :: r) (hr : skipSpace r = ']' :: rest) :
    (readValue cs).Gives (.array []) rest := by
  unfold readValue
  split
  case h_3 r' h' =>
    rw [h] at h'
    cases h'
    split
    · next hclose =>
      rw [hr] at hclose
      cases hclose
      exact ⟨_, rfl⟩
    · next hne => exact absurd hr (hne rest)
  all_goals simp_all

theorem readValue_array {vs : List Json} (h : skipSpace cs = '[' :: r)
    (hne : ∀ r', skipSpace r ≠ ']' :: r') (hr : (readItems r).Gives vs rest) :
    (readValue cs).Gives (.array vs) rest := by
  obtain ⟨hlt, hr⟩ := hr
  unfold readValue
  split
  case h_3 r' h' =>
    rw [h] at h'
    cases h'
    split
    · next hclose => exact absurd hclose (hne _)
    · rw [hr]
      exact ⟨_, rfl⟩
  all_goals simp_all

theorem readItems_gives {vs : List Json} (hv : (readValue cs).Gives v r)
    (hr : vs = [] ∧ skipSpace r = ']' :: rest ∨
      ∃ r', skipSpace r = ',' :: r' ∧ (readItems r').Gives vs rest) :
    (readItems cs).Gives (v :: vs) rest := by
  obtain ⟨hlt, hv⟩ := hv
  unfold readItems
  rw [hv]
  dsimp only
  rcases hr with ⟨rfl, hr⟩ | ⟨r', hr, hlt', hvs⟩
  · split
    · next hcomma => simp [hr] at hcomma
    · next hclose =>
      rw [hr] at hclose
      cases hclose
      exact ⟨_, rfl⟩
    · next hne => exact absurd hr (hne rest)
  · split
    · next hcomma =>
      rw [hr] at hcomma
      cases hcomma
      rw [hvs]
      exact ⟨_, rfl⟩
    · next hclose => simp [hr] at hclose
    · next hne _ => exact absurd hr (hne r')

theorem readValue_emptyObject (h : skipSpace cs = '\x7b' :: r) (hr : skipSpace r = '\x7d' :: rest) :
    (readValue cs).Gives (.object []) rest := by
  unfold readValue
  split
  case h_4 r' h' =>
    rw [h] at h'
    cases h'
    split
    · next hclose =>
      rw [hr] at hclose
      cases hclose
      exact ⟨_, rfl⟩
    · next hne => exact absurd hr (hne rest)
  all_goals simp_all

theorem readValue_object {ms : List (String × Json)} (h : skipSpace cs = '\x7b' :: r)
    (hne : ∀ r', skipSpace r ≠ '\x7d' :: r') (hr : (readMembers r).Gives ms rest) :
    (readValue cs).Gives (.object ms) rest := by
  obtain ⟨hlt, hr⟩ := hr
  unfold readValue
  split
  case h_4 r' h' =>
    rw [h] at h'
    cases h'
    split
    · next hclose => exact absurd hclose (hne _)
    · rw [hr]
      exact ⟨_, rfl⟩
  all_goals simp_all

theorem readMembers_gives {r₁ r₂ r₃ : List Char} {ms : List (String × Json)}
    (h : skipSpace cs = '"' :: r) (hk : readChars r = some (xs, r₁))
    (hc : skipSpace r₁ = ':' :: r₂) (hv : (readValue r₂).Gives v r₃)
    (hr : ms = [] ∧ skipSpace r₃ = '\x7d' :: rest ∨
      ∃ r₄, skipSpace r₃ = ',' :: r₄ ∧ (readMembers r₄).Gives ms rest) :
    (readMembers cs).Gives ((String.ofList xs, v) :: ms) rest := by
  obtain ⟨hlt, hv⟩ := hv
  unfold readMembers
  split
  case h_2 hne => exact absurd h (hne r)
  next h' =>
  rw [h] at h'
  cases h'
  split
  case h_1 hnone => simp [hk] at hnone
  next hsome =>
  rw [hk] at hsome
  cases hsome
  split
  case h_2 hne => exact absurd hc (hne r₂)
  next hcolon =>
  rw [hc] at hcolon
  cases hcolon
  dsimp only
  rw [hv]
  dsimp only
  rcases hr with ⟨rfl, hr⟩ | ⟨r₄, hr, hlt', hms⟩
  · split
    · next hcomma => simp [hr] at hcomma
    · next hclose =>
      rw [hr] at hclose
      cases hclose
      exact ⟨_, rfl⟩
    · next hne => exact absurd hr (hne rest)
  · split
    · next hcomma =>
      rw [hr] at hcomma
      cases hcomma
      rw [hms]
      exact ⟨_, rfl⟩
    · next hclose => simp [hr] at hclose
    · next hne _ => exact absurd hr (hne r₄)

end Steps

theorem ValueText.begins {v : Json} {cs : List Char} (h : ValueText v cs) :
    ∃ c ds, cs = c :: ds ∧ isSpace c = false ∧ c ≠ ']' := by
  cases h <;> exact ⟨_, _, rfl, by decide, by decide⟩

theorem ElementText.begins {v : Json} {cs : List Char} (h : ElementText v cs) (rest : List Char) :
    ∃ c ds, skipSpace (cs ++ rest) = c :: ds ∧ c ≠ ']' := by
  obtain @⟨_, before, cs, after, hbefore, h, -⟩ := h
  obtain ⟨c, ds, rfl, hspace, hc⟩ := h.begins
  refine ⟨c, ds ++ after ++ rest, ?_, hc⟩
  rw [List.append_assoc, hbefore.skipSpace_append, List.cons_append, List.cons_append,
    skipSpace_of_not_space hspace]

theorem ItemsText.begins {vs : List Json} {cs : List Char} (h : ItemsText vs cs)
    (rest : List Char) : ∃ c ds, skipSpace (cs ++ rest) = c :: ds ∧ c ≠ ']' := by
  cases h with
  | last hv => exact hv.begins rest
  | more hv hvs =>
    rw [List.append_assoc]
    exact hv.begins _

theorem MemberText.begins {m : String × Json} {cs : List Char} (h : MemberText m cs)
    (rest : List Char) : ∃ ds, skipSpace (cs ++ rest) = '"' :: ds := by
  obtain ⟨hbefore, -, -, -⟩ := h
  rw [List.append_assoc, hbefore.skipSpace_append]
  exact ⟨_, skipSpace_of_not_space rfl _⟩

theorem MembersText.begins {ms : List (String × Json)} {cs : List Char} (h : MembersText ms cs)
    (rest : List Char) : ∃ ds, skipSpace (cs ++ rest) = '"' :: ds := by
  cases h with
  | last hm => exact hm.begins rest
  | more hm hms =>
    rw [List.append_assoc]
    exact hm.begins _

mutual

theorem ValueText.gives {v : Json} {cs text rest : List Char} :
    ValueText v cs → skipSpace text = cs ++ rest → (readValue text).Gives v rest
  | .null, htext | .yes, htext | .no, htext => readValue_scalar htext (by decide) rfl
  | @ValueText.string s cs h, htext => by
    rw [List.cons_append, List.append_assoc] at htext
    conv in Json.string s => rw [← String.ofList_toList (s := s)]
    exact readValue_string htext (h.readChars_append rest)
  | .emptyArray h, htext => by
    rw [List.cons_append, List.append_assoc] at htext
    refine readValue_emptyArray htext ?_
    rw [h.skipSpace_append]
    exact skipSpace_of_not_space rfl _
  | .array h, htext => by
    rw [List.cons_append, List.append_assoc] at htext
    refine readValue_array htext ?_ (h.gives rest)
    obtain ⟨c, ds, hbegins, hc⟩ := h.begins (']' :: rest)
    intro r' hclose
    rw [List.singleton_append, hbegins] at hclose
    exact hc (List.cons.inj hclose).1
  | .emptyObject h, htext => by
    rw [List.cons_append, List.append_assoc] at htext
    refine readValue_emptyObject htext ?_
    rw [h.skipSpace_append]
    exact skipSpace_of_not_space rfl _
  | .object h, htext => by
    rw [List.cons_append, List.append_assoc] at htext
    refine readValue_object htext ?_ (h.gives rest)
    obtain ⟨ds, hbegins⟩ := h.begins ('\x7d' :: rest)
    intro r' hclose
    rw [List.singleton_append, hbegins] at hclose
    cases hclose

theorem ElementText.gives {v : Json} {cs : List Char} :
    ElementText v cs → ∀ rest, ∃ r, (readValue (cs ++ rest)).Gives v r ∧
      skipSpace r = skipSpace rest
  | @ElementText.mk _ before cs after hbefore h hafter, rest => by
    refine ⟨after ++ rest, h.gives ?_, hafter.skipSpace_append rest⟩
    obtain ⟨c, ds, rfl, hspace, -⟩ := h.begins
    rw [List.append_assoc, hbefore.skipSpace_append, List.append_assoc, List.cons_append,
      skipSpace_of_not_space hspace]

theorem ItemsText.gives {vs : List Json} {cs : List Char} :
    ItemsText vs cs → ∀ rest, (readItems (cs ++ ']' :: rest)).Gives vs rest
  | .last hv, rest => by
    obtain ⟨r, hr, hafter⟩ := hv.gives (']' :: rest)
    exact readItems_gives hr (.inl ⟨rfl, hafter.trans (skipSpace_of_not_space rfl _)⟩)
  | .more hv hvs, rest => by
    rw [List.append_assoc]
    obtain ⟨r, hr, hafter⟩ := hv.gives (',' :: (_ ++ ']' :: rest))
    exact readItems_gives hr
      (.inr ⟨_, hafter.trans (skipSpace_of_not_space rfl _), hvs.gives rest⟩)

theorem MemberText.gives {m : String × Json} {ms : List (String × Json)} {cs after : List Char} :
    MemberText m cs → ∀ rest,
      (ms = [] ∧ skipSpace after = '\x7d' :: rest ∨
        ∃ r, skipSpace after = ',' :: r ∧ (readMembers r).Gives ms rest) →
      (readMembers (cs ++ after)).Gives (m :: ms) rest
  | @MemberText.mk k v before key between cs hbefore hk hbetween hv, rest, hnext => by
    obtain ⟨r, hr, hafter⟩ := hv.gives after
    have hbegins : skipSpace ((before ++ '"' :: (key ++ '"' :: (between ++ ':' :: cs))) ++ after) =
        '"' :: (key ++ '"' :: (between ++ ':' :: (cs ++ after))) := by
      rw [List.append_assoc, hbefore.skipSpace_append, List.cons_append,
        skipSpace_of_not_space rfl]
      simp
    rw [← String.ofList_toList (s := k)]
    refine readMembers_gives hbegins (hk.readChars_append _) ?_ hr ?_
    · rw [hbetween.skipSpace_append]
      exact skipSpace_of_not_space rfl _
    · rw [hafter]
      exact hnext

theorem MembersText.gives {ms : List (String × Json)} {cs : List Char} :
    MembersText ms cs → ∀ rest, (readMembers (cs ++ '\x7d' :: rest)).Gives ms rest
  | .last hm, rest => hm.gives rest (.inl ⟨rfl, skipSpace_of_not_space rfl _⟩)
  | .more hm hms, rest => by
    rw [List.append_assoc]
    exact hm.gives rest (.inr ⟨_, skipSpace_of_not_space rfl _, hms.gives rest⟩)

end

theorem TextOf.readText {text : String} {v : Json} (h : TextOf text v) :
    readText text.toList = (v, true) := by
  obtain ⟨r, hgives, hafter⟩ := ElementText.gives h []
  rw [List.append_nil] at hgives
  obtain ⟨hlt, hr⟩ := hgives
  rw [Json.readText, hr]
  dsimp only
  rw [hafter]
  rfl

mutual

theorem ValueText.complete {v : Json} {cs : List Char} : ValueText v cs → v.complete = true
  | .null | .yes | .no | .string _ | .emptyArray _ | .emptyObject _ => rfl
  | .array h => h.complete
  | .object h => h.complete

theorem ElementText.complete {v : Json} {cs : List Char} : ElementText v cs → v.complete = true
  | .mk _ h _ => h.complete

theorem ItemsText.complete {vs : List Json} {cs : List Char} :
    ItemsText vs cs → completeItems vs = true
  | .last hv => by rw [completeItems, hv.complete]; rfl
  | .more hv hvs => by rw [completeItems, hv.complete, hvs.complete]; rfl

theorem MemberText.complete {m : String × Json} {cs : List Char} :
    MemberText m cs → m.2.complete = true
  | .mk _ _ _ hv => hv.complete

theorem MembersText.complete {ms : List (String × Json)} {cs : List Char} :
    MembersText ms cs → completeMembers ms = true
  | .last hm => by rw [completeMembers, hm.complete]; rfl
  | .more hm hms => by rw [completeMembers, hm.complete, hms.complete]; rfl

end

/-- A value without numbers, nothing of which is malformed. -/
inductive Plain : Json → Prop where
  | null : Plain .null
  | bool (b) : Plain (.bool b)
  | string (s) : Plain (.string s)
  | array {items} : (∀ v ∈ items, Plain v) → Plain (.array items)
  | object {members} : (∀ m ∈ members, Plain m.2) → Plain (.object members)

theorem allBlank_nil : AllBlank [] := nofun

theorem ValueText.element {v : Json} {cs : List Char} (h : ValueText v cs) : ElementText v cs := by
  have helement := ElementText.mk allBlank_nil h allBlank_nil
  rwa [List.append_nil] at helement

theorem hexValue_hexDigit : ∀ d < 16, hexValue? (Text.hexDigit d) = some d := by decide

theorem charText_hexDigits {c : Char} (h : c.toNat < 0x20) :
    CharText c ('\\' :: 'u' :: Text.hexDigits 4 c.toNat) := by
  have hunit : unitChar? c.toNat = some c := by
    unfold unitChar?
    rw [if_neg (by omega), Char.ofNat_toNat]
  have hquad : hexQuad? (Text.hexDigit (c.toNat / 16 / 16 / 16 % 16))
      (Text.hexDigit (c.toNat / 16 / 16 % 16)) (Text.hexDigit (c.toNat / 16 % 16))
      (Text.hexDigit (c.toNat % 16)) = some c.toNat := by
    unfold hexQuad?
    rw [hexValue_hexDigit _ (by omega), hexValue_hexDigit _ (by omega),
      hexValue_hexDigit _ (by omega), hexValue_hexDigit _ (by omega)]
    simp only [Option.bind_eq_bind, Option.bind_some, pure, Option.some.injEq]
    omega
  exact .unit hquad hunit

theorem charText_printChar (c : Char) : CharText c (printChar c) := by
  by_cases hquote : c = '"'
  · exact hquote ▸ .short rfl
  by_cases hback : c = '\\'
  · exact hback ▸ .short rfl
  by_cases hb : c = '\x08'
  · exact hb ▸ .short rfl
  by_cases hf : c = '\x0c'
  · exact hf ▸ .short rfl
  by_cases hn : c = '\n'
  · exact hn ▸ .short rfl
  by_cases hr : c = '\r'
  · exact hr ▸ .short rfl
  by_cases ht : c = '\t'
  · exact ht ▸ .short rfl
  unfold printChar
  rw [if_neg hquote, if_neg hback, if_neg hb, if_neg hf, if_neg hn, if_neg hr, if_neg ht]
  by_cases hc : c.toNat < 0x20
  · rw [if_pos hc]
    exact charText_hexDigits hc
  · rw [if_neg hc]
    exact .plain hquote hback (by omega)

theorem charsText_flatMap (cs : List Char) : CharsText cs (cs.flatMap printChar) := by
  induction cs with
  | nil => exact .nil
  | cons c cs ih => exact .cons (charText_printChar c) ih

theorem memberText_print {m : String × Json} (hv : ValueText m.2 m.2.print) :
    MemberText m (printString m.1 ++ ':' :: m.2.print) := by
  have hmember := MemberText.mk allBlank_nil (charsText_flatMap m.1.toList) allBlank_nil hv.element
  simpa [printString] using hmember

theorem itemsText_printItems {vs : List Json} (hne : vs ≠ [])
    (h : ∀ v ∈ vs, ValueText v v.print) : ∃ cs, ItemsText vs cs ∧ printItems vs = cs ++ [']'] := by
  induction vs with
  | nil => exact absurd rfl hne
  | cons v vs ih =>
    have hv := (h v List.mem_cons_self).element
    cases vs with
    | nil => exact ⟨v.print, .last hv, by rw [printItems]⟩
    | cons w ws =>
      obtain ⟨cs, hcs, hprint⟩ := ih nofun fun w hw => h w (List.mem_cons_of_mem v hw)
      refine ⟨v.print ++ ',' :: cs, .more hv hcs, ?_⟩
      rw [printItems, hprint]
      simp

theorem membersText_printMembers {ms : List (String × Json)} (hne : ms ≠ [])
    (h : ∀ m ∈ ms, ValueText m.2 m.2.print) :
    ∃ cs, MembersText ms cs ∧ printMembers ms = cs ++ ['\x7d'] := by
  induction ms with
  | nil => exact absurd rfl hne
  | cons m ms ih =>
    have hm := memberText_print (h m List.mem_cons_self)
    cases ms with
    | nil => exact ⟨_, .last hm, by simp [printMembers]⟩
    | cons m' ms =>
      obtain ⟨cs, hcs, hprint⟩ := ih nofun fun m' hm => h m' (List.mem_cons_of_mem m hm)
      refine ⟨_, .more hm hcs, ?_⟩
      rw [printMembers, hprint]
      simp

theorem Plain.valueText {v : Json} (hv : v.Plain) : ValueText v v.print := by
  induction hv with
  | null => exact .null
  | bool b =>
    cases b with
    | true => exact .yes
    | false => exact .no
  | string s => exact .string (charsText_flatMap s.toList)
  | @array vs _ ih =>
    rw [print]
    by_cases hne : vs = []
    · exact hne ▸ .emptyArray allBlank_nil
    · obtain ⟨cs, hcs, hprint⟩ := itemsText_printItems hne ih
      rw [hprint]
      exact .array hcs
  | @object ms _ ih =>
    rw [print]
    by_cases hne : ms = []
    · exact hne ▸ .emptyObject allBlank_nil
    · obtain ⟨cs, hcs, hprint⟩ := membersText_printMembers hne ih
      rw [hprint]
      exact .object hcs

theorem Plain.textOf {v : Json} (hv : v.Plain) : TextOf v.text v := by
  rw [TextOf, text, String.toList_ofList]
  exact hv.valueText.element

end TagTemplate.Json
