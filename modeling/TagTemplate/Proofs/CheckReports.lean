import TagTemplate.CommandLine.Command
import TagTemplate.Proofs.InsideRoot
import TagTemplate.Proofs.References

/-!
# Reports on templates

A template that is read by its name compiles if it can be fetched, and all templates that its text
refers to. The command `check` prints one report for each name, in the order of the names, and its
exit code says whether all compile. It goes on after a template error, but not after any other: a
file that cannot be read or decoded, in a template or in one that it refers to, ends the command
without a report, and so does a report that the console refuses.
-/

namespace TagTemplate

open Markup (Node)
open TagTemplate.Action

theorem Template.compiled_fst (settings : Settings) (budget : Nat) (host : HostState) :
    (compiled ⟨settings, none⟩ budget host).1 =
      (perform (settings.compile budget) (State.start host)).1 := by
  unfold compiled
  rcases perform (settings.compile budget) (State.start host) with ⟨_ | _, s⟩ <;> rfl

namespace Settings

def Compiles (settings : Settings) (name : String) : Prop :=
  ∃ entry, settings.environment.found name = .ok (some entry) ∧
    ∀ other, settings.Reaches entry other → other ≠ name →
      ∃ nodes, settings.environment.found other = .ok nodes

/-- Compiling the template may take the other one: it is the template itself, or its text refers to
it. -/
def Involves (settings : Settings) (name other : String) : Prop :=
  other = name ∨ ∃ entry, settings.environment.found name = .ok (some entry) ∧
    settings.Reaches entry other

/-- The faults that keep the template from being compiled. -/
inductive CompileFault (settings : Settings) (name : String) (budget : Nat) : Fault → Prop where
  | missing (h : settings.environment.found name = .ok none) :
      CompileFault settings name budget (.resolution sourceKind name)
  | unfetched {other : String} {fault : Fault} (hinvolved : settings.Involves name other)
      (h : settings.environment.found other = .error fault) :
      CompileFault settings name budget fault
  | exhausted {names : List String} (hnodup : names.Nodup)
      (hinvolved : ∀ other ∈ names, settings.Involves name other) (h : budget ≤ names.length) :
      CompileFault settings name budget .exhausted

variable {settings : Settings} {name : String}

theorem not_compiles_of_unfetched {other : String} {fault : Fault}
    (hinvolved : settings.Involves name other)
    (h : settings.environment.found other = .error fault) : ¬ settings.Compiles name := by
  rintro ⟨entry, hentry, hothers⟩
  by_cases hname : other = name
  · rw [hname, hentry] at h
    cases h
  · obtain ⟨entry', hentry', hreached⟩ := hinvolved.resolve_left hname
    cases hentry.symm.trans hentry'
    obtain ⟨nodes, hnodes⟩ := hothers other hreached hname
    cases hnodes.symm.trans h

theorem CompileFault.not_compiles {budget : Nat} {fault : Fault}
    (h : settings.CompileFault name budget fault) (hbudget : fault ≠ .exhausted) :
    ¬ settings.Compiles name := by
  cases h with
  | missing h =>
    rintro ⟨entry, hentry, -⟩
    cases h.symm.trans hentry
  | unfetched hinvolved h => exact not_compiles_of_unfetched hinvolved h
  | exhausted => exact absurd rfl hbudget

section Named

variable {read : String → Except Fault (Option String)}
  (hread : settings.environment.read = some read)

include hread

theorem found_read (other : String) :
    settings.environment.found other =
      match read other with
      | .error fault => .error fault
      | .ok none => .ok none
      | .ok (some source) =>
        match Markup.compile source (some other) with
        | .error error => .error (.compile error)
        | .ok nodes => .ok (some nodes) := by
  unfold Environment.found
  rcases hresult : read other with fault | (_ | source)
  · simp [hread, hresult]
  · simp [hread, hresult]
  · cases hnodes : Markup.compile source (some other) <;> simp [hread, hresult, hnodes]

theorem read_error_or_compile {other : String} {fault : Fault}
    (h : settings.environment.found other = .error fault) :
    read other = .error fault ∨ ∃ error, fault = .compile error := by
  rw [found_read hread] at h
  rcases hsource : read other with fault' | (_ | source)
  · rw [hsource] at h
    cases h
    exact .inl rfl
  · rw [hsource] at h
    cases h
  · rw [hsource] at h
    dsimp only at h
    cases hnodes : Markup.compile source (some other) with
    | error error =>
      rw [hnodes] at h
      cases h
      exact .inr ⟨error, rfl⟩
    | ok nodes =>
      rw [hnodes] at h
      cases h

variable (htext : settings.text = none) (hname : settings.name = some name)

include htext hname

theorem perform_source_named (s : State) :
    perform settings.source s =
      (match read name with
        | .error fault => .error fault
        | .ok none => .error (.resolution sourceKind name)
        | .ok (some text) => .ok text,
      { s with host := { s.host with calls := s.host.calls ++ [.read name] } }) := by
  unfold source
  rw [htext, hname]
  rcases hsource : read name with fault | (_ | source) <;>
    simp [Environment.readSource, perform_bind, perform_map, hread, hsource, trace, updateHost,
      Action.ofExcept, Except.map]

theorem compile_named (budget : Nat) (host : HostState) :
    (settings.Compiles name ∧
      ∃ entry, (perform (settings.compile budget) (State.start host)).1 = .ok entry) ∨
    ∃ fault, settings.CompileFault name budget fault ∧
      (perform (settings.compile budget) (State.start host)).1 = .error fault := by
  have hfound := found_read hread name
  have hsource := perform_source_named hread htext hname (State.start host)
  rcases hresult : read name with fault | (_ | source)
  · rw [hresult] at hfound hsource
    exact .inr ⟨fault, .unfetched (.inl rfl) hfound, perform_bind_error (congrArg Prod.fst hsource)⟩
  · rw [hresult] at hfound hsource
    exact .inr ⟨_, .missing hfound, perform_bind_error (congrArg Prod.fst hsource)⟩
  · rw [hresult] at hfound hsource
    obtain ⟨t, hkept, hsource⟩ : ∃ t, t.templates = [] ∧
        perform settings.source (State.start host) = (.ok source, t) := ⟨_, rfl, hsource⟩
    rw [perform_compile budget hsource, hname]
    dsimp only at hfound
    cases hentry : Markup.compile source (some name) with
    | error error =>
      rw [hentry] at hfound
      exact .inr ⟨.compile error, .unfetched (.inl rfl) hfound, rfl⟩
    | ok entry =>
      rw [hentry] at hfound
      have hinvolved : ∀ other, settings.Reaches entry other → settings.Involves name other :=
        fun other hreached => .inr ⟨entry, hfound, hreached⟩
      have hend := (Searching.start settings entry hkept).followAll (by simp [hread]) budget
      rw [hname, Nat.zero_add] at hend
      dsimp only
      generalize perform (settings.followAll budget ⟨(some name).toList, [entry]⟩) t = r at hend
      cases hend with
      | complete _ _ hmem hothers =>
        refine .inl ⟨⟨entry, hfound, fun other hreached hother => ?_⟩, entry, rfl⟩
        refine hothers other ((hmem other).2 ⟨hreached, fun hown => ?_⟩)
        exact hother (Option.some.inj (hown.symm.trans hname))
      | @error other fault _ hreached _ hfault =>
        exact .inr ⟨fault, .unfetched (hinvolved other hreached) hfault, rfl⟩
      | @exhausted names _ hnodup hreached hlength =>
        exact .inr ⟨.exhausted,
          .exhausted hnodup (fun other h => hinvolved other (hreached other h)) hlength, rfl⟩

end Named

end Settings

namespace CommandLine

open Settings FileSystem

variable (console : Console) (fs : FileSystem) (templates : String)

def Compiles (name : String) : Prop := (settingsFor fs name templates none).Compiles name

/-- What there is to say about a template: it compiles, or a fault keeps it from that, in the
wording of the fault. -/
inductive Verdict (name : String) : Option String → Prop where
  | compiles (h : Compiles fs templates name) : Verdict name none
  | fails {fault : Fault} {message : String} (hfails : ¬ Compiles fs templates name)
      (hfault : (settingsFor fs name templates none).CompileFault name nestingBudget fault)
      (hmessage : fault.message? = some message) : Verdict name (some message)

/-- What the console prints about a template: one report, with the verdict on it. -/
def Reported (name text : String) : Prop :=
  ∃ message, Verdict fs templates name message ∧ console.print (report name message) = .ok text

/-- What ends the command at a name without a report: a file that cannot be read or decoded, a
report that the console refuses, or too many templates. -/
inductive Escapes (name : String) : Fault → Prop where
  | unreadable {other : String} {fault : FileFault}
      (hinvolved : (settingsFor fs name templates none).Involves name other)
      (h : TemplateDirectory.read ⟨Path.resolve fs.directory templates, ".html", .utf8 false⟩
        fs other = .error fault) : Escapes name (.file fault)
  | unshowable {message : Option String} {fault : Console.MarkupFault}
      (hverdict : Verdict fs templates name message)
      (h : console.print (report name message) = .error fault) : Escapes name (.report fault)
  | exhausted {others : List String} (hnodup : others.Nodup)
      (hinvolved : ∀ other ∈ others, (settingsFor fs name templates none).Involves name other)
      (h : nestingBudget ≤ others.length) : Escapes name .exhausted

variable {console fs templates} {name : String}

theorem exists_message {fault : Fault} (h : fault.isTemplateError = true) :
    ∃ message, fault.message? = some message := by
  cases fault with
  | compile error => exact ⟨_, rfl⟩
  | resolution kind name => exact ⟨_, rfl⟩
  | nesting depth tag => exact ⟨_, rfl⟩
  | _ => cases h

theorem escapes_of_compileFault {fault : Fault}
    (h : (settingsFor fs name templates none).CompileFault name nestingBudget fault)
    (hkind : fault.isTemplateError = false) : Escapes console fs templates name fault := by
  cases h with
  | missing => cases hkind
  | @unfetched other fault hinvolved h =>
    rcases read_error_or_compile rfl h with hread | ⟨error, rfl⟩
    · obtain ⟨f, hf, rfl⟩ : ∃ f, TemplateDirectory.read
          ⟨Path.resolve fs.directory templates, ".html", .utf8 false⟩ fs other = .error f ∧
            fault = .file f := by
        cases hresult : TemplateDirectory.read
            ⟨Path.resolve fs.directory templates, ".html", .utf8 false⟩ fs other with
        | error f =>
          rw [hresult] at hread
          cases hread
          exact ⟨f, rfl, rfl⟩
        | ok text =>
          rw [hresult] at hread
          cases hread
      exact .unreadable hinvolved hf
    · cases hkind
  | exhausted hnodup hinvolved h => exact .exhausted hnodup hinvolved h

theorem checkAll_cons (name : String) (o : Outcome) (names : List String) :
    (∃ text errors code, Reported console fs templates name text ∧
      (Compiles fs templates name → code = o.exitCode) ∧ (¬ Compiles fs templates name → code = 1) ∧
      checkAll console fs templates o (name :: names) =
        checkAll console fs templates
          { o with exitCode := code, output := o.output ++ text, errors } names) ∨
    ∃ fault errors, Escapes console fs templates name fault ∧
      checkAll console fs templates o (name :: names) =
        { o with exitCode := 1, escaped := some fault, errors } := by
  have hname : (settingsFor fs name templates none).name = some name := rfl
  have hcompile := compile_named rfl rfl hname nestingBudget {}
  rw [← Template.compiled_fst] at hcompile
  rw [checkAll]
  generalize Template.compiled ⟨settingsFor fs name templates none, none⟩ nestingBudget {} = r
    at hcompile ⊢
  obtain ⟨result, t, host⟩ := r
  rcases hcompile with ⟨hcompiles, entry, rfl⟩ | ⟨fault, hfault, rfl⟩
  · have hverdict : Verdict fs templates name none := .compiles hcompiles
    cases hprint : console.print (report name none) with
    | error fault =>
      refine .inr ⟨.report fault, o.errors ++ warningText console host,
        .unshowable hverdict hprint, ?_⟩
      simp [hprint]
    | ok text =>
      refine .inl ⟨text, o.errors ++ warningText console host, o.exitCode,
        ⟨none, hverdict, hprint⟩, fun _ => rfl, fun hfails => absurd hcompiles hfails, ?_⟩
      simp [hprint]
  · by_cases hkind : fault.isTemplateError = true
    · have hfails : ¬ Compiles fs templates name :=
        hfault.not_compiles fun h => by rw [h] at hkind; cases hkind
      obtain ⟨message, hmessage⟩ := exists_message hkind
      have hverdict : Verdict fs templates name (some message) := .fails hfails hfault hmessage
      cases hprint : console.print (report name (some message)) with
      | error markup =>
        refine .inr ⟨.report markup, o.errors ++ warningText console host,
          .unshowable hverdict hprint, ?_⟩
        simp [hkind, hmessage, hprint]
      | ok text =>
        refine .inl ⟨text, o.errors ++ warningText console host, 1,
          ⟨some message, hverdict, hprint⟩, fun h => absurd h hfails, fun _ => rfl, ?_⟩
        simp [hkind, hmessage, hprint]
    · have hescapes : Escapes console fs templates name fault :=
        escapes_of_compileFault hfault (by simpa using hkind)
      refine .inr ⟨fault, o.errors ++ warningText console host, hescapes, ?_⟩
      simp [hkind]

/-- How the command ends: with a report on each name, or with an error that escapes at one of them,
after a report on each name before it. -/
inductive CheckEnd (console : Console) (fs : FileSystem) (templates : String) (o : Outcome)
    (names : List String) : Outcome → Prop where
  | all {texts : List String} {result : Outcome}
      (hreported : List.Forall₂ (Reported console fs templates) names texts)
      (houtput : result.output = o.output ++ String.join texts)
      (hescaped : result.escaped = o.escaped)
      (hsuccess : (∀ name ∈ names, Compiles fs templates name) → result.exitCode = o.exitCode)
      (hfailure : (∃ name ∈ names, ¬ Compiles fs templates name) → result.exitCode = 1) :
      CheckEnd console fs templates o names result
  | escaped {done rest texts : List String} {name : String} {fault : Fault} {result : Outcome}
      (hnames : names = done ++ name :: rest)
      (hreported : List.Forall₂ (Reported console fs templates) done texts)
      (houtput : result.output = o.output ++ String.join texts)
      (hescapes : Escapes console fs templates name fault) (hescaped : result.escaped = some fault)
      (hcode : result.exitCode = 1) : CheckEnd console fs templates o names result

theorem checkAll_end (o : Outcome) (names : List String) :
    CheckEnd console fs templates o names (checkAll console fs templates o names) := by
  induction names generalizing o with
  | nil => exact .all .nil (by simp [checkAll]) rfl (fun _ => rfl) nofun
  | cons name names ih =>
    have hcons := @checkAll_cons console fs templates name o names
    rcases hcons with ⟨text, errors, code, hreport, hcompiles, hfails, hnext⟩ |
      ⟨fault, errors, hescapes, hend⟩
    · rw [hnext]
      cases ih { o with exitCode := code, output := o.output ++ text, errors } with
      | all hreported houtput hescaped hsuccess hfailure =>
        refine .all (.cons hreport hreported) ?_ hescaped (fun hall => ?_) fun hsome => ?_
        · rw [houtput]
          simp [String.append_assoc]
        · rw [hsuccess fun n hn => hall n (List.mem_cons_of_mem name hn)]
          exact hcompiles (hall name List.mem_cons_self)
        · obtain ⟨n, hn, hn'⟩ := hsome
          by_cases hrest : ∃ m ∈ names, ¬ Compiles fs templates m
          · exact hfailure hrest
          · rw [hsuccess fun m hm => by_contra fun hm' => hrest ⟨m, hm, hm'⟩]
            rcases List.mem_cons.1 hn with rfl | hn
            · exact hfails hn'
            · exact absurd ⟨n, hn, hn'⟩ hrest
      | @escaped done rest texts other fault _ hnames hreported houtput hescapes hescaped hcode =>
        have hmore : name :: names = (name :: done) ++ other :: rest := by rw [hnames]; rfl
        refine .escaped hmore (.cons hreport hreported) ?_ hescapes hescaped hcode
        rw [houtput]
        simp [String.append_assoc]
    · rw [hend]
      have hnames : name :: names = [] ++ name :: names := rfl
      exact .escaped hnames .nil (by simp) hescapes rfl rfl

/-- Whatever the console, the command prints one report on each name, in their order, and goes on
whatever the reports say. Its exit code is 0 if all templates compile and 1 otherwise. Only an error
that is no template error ends it before, and escapes. -/
theorem run_check (console : Console) (fs : FileSystem) (templates : String)
    (names : List String) :
    let o := (Command.check names templates).run fs console
    ∃ done texts, List.Forall₂ (Reported console fs templates) done texts ∧
      o.output = String.join texts ∧
      (done = names ∧ o.escaped = none ∧
          ((∀ name ∈ names, Compiles fs templates name) → o.exitCode = 0) ∧
          ((∃ name ∈ names, ¬ Compiles fs templates name) → o.exitCode = 1) ∨
        ∃ name rest fault, names = done ++ name :: rest ∧ Escapes console fs templates name fault ∧
          o.escaped = some fault ∧ o.exitCode = 1) := by
  intro o
  have hend : CheckEnd console fs templates {} names o := checkAll_end {} names
  cases hend with
  | @all texts _ hreported houtput hescaped hsuccess hfailure =>
    exact ⟨names, texts, hreported, by simpa using houtput,
      .inl ⟨rfl, hescaped, hsuccess, hfailure⟩⟩
  | @escaped done rest texts name fault _ hnames hreported houtput hescapes hescaped hcode =>
    exact ⟨done, texts, hreported, by simpa using houtput,
      .inr ⟨name, rest, fault, hnames, hescapes, hescaped, hcode⟩⟩

/-- A file that is no text ends the command, though the template after it compiles. -/
theorem run_check_undecodable :
    let fs : FileSystem :=
      { directory := ["w"]
        files := [(["w", "bad.html"], ⟨#[0xff]⟩), (["w", "page.html"], "ok".toUTF8)] }
    let o := (Command.check ["bad", "page"] ".").run fs
    Compiles fs "." "page" ∧ o.output = "" ∧ o.escaped = some (.file .undecodable) ∧
      o.exitCode = 1 := by
  intro fs o
  have hresolve : ∀ name ∈ ["bad", "bad.html", "page", "page.html"],
      FileSystem.resolve ["w"] name = .ok ["w", name] := by
    have hwritable : ∀ name ∈ ["bad", "bad.html", "page", "page.html"],
        Text.canNameFile name = true ∧ '\x00' ∉ name.toList := by decide +kernel
    have hpath : ∀ name ∈ ["bad", "bad.html", "page", "page.html"],
        Path.resolve ["w"] name = ["w", name] := by decide +kernel
    intro name hname
    rw [resolve_of_usable (checkName_ok (hwritable name hname).1 (hwritable name hname).2),
      hpath name hname]
  let d : TemplateDirectory := ⟨["w"], ".html", .utf8 false⟩
  have hbad : d.read fs "bad" = .error .undecodable := by
    have hmissing : fs.regular? ["w", "bad"] = .ok none := by decide +kernel
    have hfound : fs.regular? ["w", "bad.html"] = .ok (some ⟨#[0xff]⟩) := by decide +kernel
    exact TemplateDirectory.read_suffixed (d := d) (hresolve "bad" (by decide))
      (hresolve "bad.html" (by decide)) rfl rfl hmissing hfound
  have hpage : d.read fs "page" = .ok (some "ok") := by
    have hmissing : fs.regular? ["w", "page"] = .ok none := by decide +kernel
    have hfound : fs.regular? ["w", "page.html"] = .ok (some "ok".toUTF8) := by decide +kernel
    exact TemplateDirectory.read_suffixed (d := d) (hresolve "page" (by decide))
      (hresolve "page.html" (by decide)) rfl rfl hmissing hfound
  have hread : ∀ name, (settingsFor fs name "." none).environment.read =
      some fun n => (d.read fs n).mapError Fault.file := by
    have hroot : Path.resolve fs.directory "." = ["w"] := by decide +kernel
    intro name
    unfold settingsFor
    rw [hroot]
  have hcompiles : Compiles fs "." "page" := by
    have htags : (match Markup.compile "ok" (some "page") with
      | .ok entry => (Markup.tagsOf entry).isEmpty
      | .error _ => false) = true := by decide +kernel
    cases hentry : Markup.compile "ok" (some "page") with
    | error error =>
      rw [hentry] at htags
      cases htags
    | ok entry =>
      rw [hentry] at htags
      refine ⟨entry, ?_, fun other hreached => ?_⟩
      · rw [found_read (hread "page"), hpage]
        simp [Except.mapError, hentry]
      · have hnone : other ∈ [] :=
          hreached.mem_of_closed (by simp [references, List.isEmpty_iff.1 htags]) (by simp)
        cases hnone
  have hfault : (Template.compiled ⟨settingsFor fs "bad" "." none, none⟩ nestingBudget {}).1 =
      .error (.file .undecodable) := by
    have hsource := perform_source_named (hread "bad") rfl rfl (State.start {})
    rw [hbad] at hsource
    rw [Template.compiled_fst]
    exact perform_bind_error (congrArg Prod.fst hsource)
  have hrun : o = checkAll .unwrapped fs "." {} ["bad", "page"] := rfl
  rw [hrun, checkAll]
  generalize Template.compiled ⟨settingsFor fs "bad" "." none, none⟩ nestingBudget {} = r
    at hfault ⊢
  obtain ⟨result, t, host⟩ := r
  obtain rfl : result = .error (.file .undecodable) := hfault
  exact ⟨hcompiles, rfl, rfl, rfl⟩

end CommandLine

end TagTemplate
