import Mathlib.Data.List.Induction
import TagTemplate.Files.Provider

/-!
# Providers stay inside their root

A provider tries some names and gives what stands in the first one that means a regular file under
its root, however the names are written. Nothing else is read: what files outside the root hold
makes no difference. Names that the system does not take are the exception. They are not passed over
but end the search with an error.
-/

namespace TagTemplate

namespace Path

theorem isUnder_iff {path root : Path} : path.isUnder root = true ↔ root <+: path :=
  List.isPrefixOf_iff_prefix

/-- The components are names: none of them means to stay or to go up. -/
def IsNormal (path : Path) : Prop := ∀ c ∈ path, c ≠ "." ∧ c ≠ ".."

instance (path : Path) : Decidable path.IsNormal :=
  inferInstanceAs (Decidable (∀ c ∈ path, c ≠ "." ∧ c ≠ ".."))

theorem step_of_name {c : String} (h : c ≠ "." ∧ c ≠ "..") (path : Path) :
    path.step c = path ++ [c] := by
  unfold step
  rw [if_neg h.2, if_neg h.1]

theorem isNormal_step {path : Path} (h : path.IsNormal) (c : String) : (path.step c).IsNormal := by
  unfold step
  split
  · exact fun d hd => h d (List.dropLast_subset path hd)
  · next hup =>
    split
    · exact h
    · next hstay =>
      intro d hd
      rcases List.mem_append.1 hd with hd | hd
      · exact h d hd
      · rw [List.mem_singleton.1 hd]
        exact ⟨hstay, hup⟩

theorem isNormal_resolve {directory : Path} (h : directory.IsNormal) (name : String) :
    (resolve directory name).IsNormal := by
  have hsteps : ∀ (names : List String) (path : Path), path.IsNormal →
      (names.foldl step path).IsNormal := by
    intro names
    induction names with
    | nil => exact fun path hpath => hpath
    | cons c names ih => exact fun path hpath => ih _ (isNormal_step hpath c)
  unfold resolve
  split
  · exact hsteps _ [] nofun
  · exact hsteps _ directory h

end Path

namespace FileSystem

/-- What was made stands in a directory, and all names are ones that the system allows. -/
structure IsTree (fs : FileSystem) : Prop where
  made_parent : ∀ path ∈ fs.made, fs.isDirectory path.dropLast = true
  directory_short : ∀ c ∈ fs.directory, c.utf8ByteSize ≤ Path.maxComponentBytes
  files_short : ∀ f ∈ fs.files, ∀ c ∈ f.1, c.utf8ByteSize ≤ Path.maxComponentBytes
  made_short : ∀ path ∈ fs.made, ∀ c ∈ path, c.utf8ByteSize ≤ Path.maxComponentBytes

def PathTooLong (fs : FileSystem) (path : Path) : Prop :=
  (Pathname.ofPath path).tooLong = true ∨
    ∃ before c after, path = before ++ c :: after ∧ fs.isDirectory before = true ∧
      Path.maxComponentBytes < c.utf8ByteSize

variable {fs : FileSystem}

theorem isDirectory_iff {path : Path} : fs.isDirectory path = true ↔
    path <+: fs.directory ∨ path ∈ fs.made ∨
      ∃ f ∈ fs.files, path.length < f.1.length ∧ path <+: f.1 := by
  simp [isDirectory, or_assoc]

theorem isDirectory_of_bytes? {path rest : Path} {bytes : ByteArray} (hrest : rest ≠ [])
    (h : fs.bytes? (path ++ rest) = some bytes) : fs.isDirectory path = true := by
  have hmem : (path ++ rest, bytes) ∈ fs.files := by
    obtain ⟨front, back, hfiles, -⟩ := List.lookup_eq_some_iff.1 h
    rw [hfiles]
    simp
  have hlength : path.length < (path ++ rest).length := by
    have := List.length_pos_iff.2 hrest
    rw [List.length_append]
    omega
  exact isDirectory_iff.2 (.inr (.inr ⟨_, hmem, hlength, List.prefix_append path rest⟩))

namespace IsTree

theorem isDirectory_dropLast (htree : fs.IsTree) {path : Path}
    (h : fs.isDirectory path = true) : fs.isDirectory path.dropLast = true := by
  have hfront : path.dropLast <+: path := List.dropLast_prefix path
  rcases isDirectory_iff.1 h with h | h | ⟨f, hf, hlength, h⟩
  · exact isDirectory_iff.2 (.inl (hfront.trans h))
  · exact htree.made_parent path h
  · refine isDirectory_iff.2 (.inr (.inr ⟨f, hf, ?_, hfront.trans h⟩))
    exact Nat.lt_of_le_of_lt hfront.length_le hlength

theorem isDirectory_of_append (htree : fs.IsTree) {path rest : Path}
    (h : fs.isDirectory (path ++ rest) = true) : fs.isDirectory path = true := by
  induction rest using List.reverseRecOn with
  | nil => simpa using h
  | append_singleton rest c ih =>
    apply ih
    have hparent := htree.isDirectory_dropLast h
    rwa [← List.append_assoc, List.dropLast_concat] at hparent

theorem short_of_isDirectory (htree : fs.IsTree) {path : Path} (h : fs.isDirectory path = true) :
    ∀ c ∈ path, c.utf8ByteSize ≤ Path.maxComponentBytes := by
  intro c hc
  rcases isDirectory_iff.1 h with h | h | ⟨f, hf, -, h⟩
  · exact htree.directory_short c (h.subset hc)
  · exact htree.made_short path h c hc
  · exact htree.files_short f hf c (h.subset hc)

end IsTree

theorem enter_name {path : Path} {c : String} (hdirectory : fs.isDirectory path = true)
    (hshort : c.utf8ByteSize ≤ Path.maxComponentBytes) (hname : c ≠ "." ∧ c ≠ "..") :
    fs.enter path c = .ok (path ++ [c]) := by
  unfold enter
  rw [hdirectory, if_neg (by simp), if_neg (Nat.not_lt.2 hshort), Path.step_of_name hname]

theorem follow_long {path : Path} {c : String} (hdirectory : fs.isDirectory path = true)
    (hlong : Path.maxComponentBytes < c.utf8ByteSize) :
    fs.follow path c = .error .nameTooLong := by
  unfold follow enter
  rw [hdirectory, if_neg (by simp), if_pos hlong]
  rfl

theorem follow_name {path : Path} {c : String} (hdirectory : fs.isDirectory path = true)
    (hshort : c.utf8ByteSize ≤ Path.maxComponentBytes) (hname : c ≠ "." ∧ c ≠ "..") :
    fs.follow path c =
      if fs.has (path ++ [c]) then .ok (path ++ [c]) else .error .notFound := by
  unfold follow
  rw [enter_name hdirectory hshort hname]
  rfl

theorem walk_long (htree : fs.IsTree) {path before after : Path} {c : String}
    (hnormal : before.IsNormal) (hdirectory : fs.isDirectory (path ++ before) = true)
    (hlong : Path.maxComponentBytes < c.utf8ByteSize) :
    (before ++ c :: after).foldlM fs.follow path = .error .nameTooLong := by
  induction before generalizing path with
  | nil =>
    rw [List.append_nil] at hdirectory
    rw [List.nil_append, List.foldlM_cons, follow_long hdirectory hlong]
    rfl
  | cons d before ih =>
    have hmore : path ++ d :: before = (path ++ [d]) ++ before := by simp
    rw [hmore] at hdirectory
    have hnext := htree.isDirectory_of_append hdirectory
    have hshort := htree.short_of_isDirectory hnext d (by simp)
    have hhas : fs.has (path ++ [d]) = true := by simp [has, hnext]
    rw [List.cons_append, List.foldlM_cons,
      follow_name (htree.isDirectory_of_append hnext) hshort (hnormal d List.mem_cons_self),
      if_pos hhas]
    exact ih (fun e he => hnormal e (List.mem_cons_of_mem d he)) hdirectory

theorem walk_short {path rest : Path} (hnormal : rest.IsNormal)
    (hshort : ¬ ∃ before c after, rest = before ++ c :: after ∧
      fs.isDirectory (path ++ before) = true ∧ Path.maxComponentBytes < c.utf8ByteSize) :
    rest.foldlM fs.follow path = .ok (path ++ rest) ∨
      ∃ fault, fault ≠ .nameTooLong ∧ rest.foldlM fs.follow path = .error fault ∧
        fs.bytes? (path ++ rest) = none := by
  induction rest generalizing path with
  | nil => exact .inl (by simp; rfl)
  | cons c rest ih =>
    have hmore : path ++ c :: rest = (path ++ [c]) ++ rest := by simp
    rw [List.foldlM_cons]
    by_cases hdirectory : fs.isDirectory path = true
    · have hc : c.utf8ByteSize ≤ Path.maxComponentBytes := by
        by_contra hlong
        exact hshort ⟨[], c, rest, rfl, by simpa using hdirectory, Nat.lt_of_not_le hlong⟩
      rw [follow_name hdirectory hc (hnormal c List.mem_cons_self)]
      by_cases hhas : fs.has (path ++ [c]) = true
      · rw [if_pos hhas, hmore]
        refine ih (fun d hd => hnormal d (List.mem_cons_of_mem c hd)) ?_
        rintro ⟨before, d, after, rfl, hd, hlong⟩
        exact hshort ⟨c :: before, d, after, rfl, by simpa using hd, hlong⟩
      · rw [if_neg hhas]
        refine .inr ⟨.notFound, nofun, rfl, ?_⟩
        rw [hmore]
        by_contra hbytes
        obtain ⟨bytes, hbytes⟩ := Option.ne_none_iff_exists'.1 hbytes
        apply hhas
        cases rest with
        | nil =>
          rw [List.append_nil] at hbytes
          simp [has, hbytes]
        | cons d rest => simp [has, isDirectory_of_bytes? (List.cons_ne_nil d rest) hbytes]
    · refine .inr ⟨.notDirectory, nofun, ?_, ?_⟩
      · have hfollow : fs.follow path c = .error .notDirectory := by
          unfold follow enter
          rw [if_pos (by simpa using hdirectory)]
          rfl
        rw [hfollow]
        rfl
      · by_contra hbytes
        obtain ⟨bytes, hbytes⟩ := Option.ne_none_iff_exists'.1 hbytes
        exact hdirectory (isDirectory_of_bytes? (List.cons_ne_nil c rest) hbytes)

theorem locate_ofPath {path : Path} (hshort : (Pathname.ofPath path).tooLong = false) :
    fs.locate (.ofPath path) = path.foldlM fs.follow [] := by
  have htext : (Pathname.ofPath path).text ≠ "" := by
    intro h
    have hlist := congrArg String.toList h
    simp [Pathname.ofPath, Pathname.ofComponents] at hlist
  have hstart : fs.start (.ofPath path) = .ok [] := by
    unfold start
    rw [hshort, if_neg (by simp), if_neg htext]
    rfl
  unfold locate
  rw [hstart]
  rfl

theorem regular?_of_pathTooLong (htree : fs.IsTree) {path : Path} (hnormal : path.IsNormal)
    (h : fs.PathTooLong path) : fs.regular? path = .error .nameTooLong := by
  have hlocate : fs.locate (.ofPath path) = .error .nameTooLong := by
    by_cases hlong : (Pathname.ofPath path).tooLong = true
    · unfold locate start
      rw [if_pos hlong]
      rfl
    · rw [locate_ofPath (by simpa using hlong)]
      obtain ⟨before, c, after, rfl, hdirectory, hc⟩ := h.resolve_left hlong
      refine walk_long htree (fun d hd => hnormal d ?_) (by simpa using hdirectory) hc
      exact List.mem_append_left _ hd
  unfold regular?
  rw [hlocate]

theorem regular?_of_not_pathTooLong {path : Path} (hnormal : path.IsNormal)
    (h : ¬ fs.PathTooLong path) : fs.regular? path = .ok (fs.bytes? path) := by
  obtain ⟨hshort, hcomponents⟩ := not_or.1 h
  have hlocate : fs.locate (.ofPath path) = path.foldlM fs.follow [] :=
    locate_ofPath (by simpa using hshort)
  have hwalk := @walk_short fs [] path hnormal (by simpa using hcomponents)
  unfold regular?
  rw [hlocate]
  rcases hwalk with hwalk | ⟨fault, hfault, hwalk, hbytes⟩
  · rw [hwalk]
    rfl
  · rw [hwalk]
    rw [List.nil_append] at hbytes
    rw [hbytes]
    cases fault <;> first | rfl | exact absurd rfl hfault

theorem checkName_ok {name : String} (hwritable : Text.canNameFile name = true)
    (hzero : '\x00' ∉ name.toList) : checkName name = .ok () := by
  simp [checkName, hwritable, hzero]

theorem checkName_zero {name : String} (hwritable : Text.canNameFile name = true)
    (hzero : '\x00' ∈ name.toList) : checkName name = .error .badName := by
  simp [checkName, hwritable, hzero]

theorem resolve_of_unusable {root : Path} {name : String} {fault : FileFault}
    (h : checkName name = .error fault) : FileSystem.resolve root name = .error fault := by
  unfold FileSystem.resolve
  rw [h]
  rfl

theorem resolve_of_usable {root : Path} {name : String} (h : checkName name = .ok ()) :
    FileSystem.resolve root name = .ok (Path.resolve root name) := by
  unfold FileSystem.resolve
  rw [h]
  rfl

/-- The name means a regular file strictly under the root, which holds these bytes. -/
structure Holds (fs : FileSystem) (root : Path) (name : String) (bytes : ByteArray) : Prop where
  under : root <+: Path.resolve root name
  strict : Path.resolve root name ≠ root
  regular : fs.bytes? (Path.resolve root name) = some bytes

/-- The system does not take the name: it has a character that no name can have, or the path it
means is under the root and too long. -/
inductive Refuses (fs : FileSystem) (root : Path) (name : String) : Prop where
  | unusable {fault : FileFault} (h : checkName name = .error fault)
  | tooLong (hunder : root <+: Path.resolve root name)
      (h : fs.PathTooLong (Path.resolve root name))

def Passes (fs : FileSystem) (root : Path) (name : String) : Prop :=
  ¬ fs.Refuses root name ∧ ∀ bytes, ¬ fs.Holds root name bytes

section Search

variable {root : Path} {name : String} (names : List String) (htree : fs.IsTree)
  (hnormal : root.IsNormal) (hroot : fs.bytes? root = none)

theorem resolve_of_not_refuses (h : ¬ fs.Refuses root name) :
    FileSystem.resolve root name = .ok (Path.resolve root name) := by
  cases hcheck : checkName name with
  | error fault => exact absurd (.unusable hcheck) h
  | ok _ => exact resolve_of_usable hcheck

include hnormal in
theorem regular?_of_not_refuses (h : ¬ fs.Refuses root name)
    (hunder : root <+: Path.resolve root name) :
    fs.regular? (Path.resolve root name) = .ok (fs.bytes? (Path.resolve root name)) :=
  regular?_of_not_pathTooLong (Path.isNormal_resolve hnormal name) fun hlong =>
    h (.tooLong hunder hlong)

include htree hnormal in
theorem firstUnder_refused (h : fs.Refuses root name) :
    ∃ fault, fs.firstUnder root (name :: names) = .error fault := by
  unfold firstUnder
  cases hcheck : checkName name with
  | error fault =>
    rw [resolve_of_unusable hcheck]
    exact ⟨fault, rfl⟩
  | ok _ =>
    cases h with
    | unusable h => cases hcheck.symm.trans h
    | tooLong hunder hlong =>
      have hregular := regular?_of_pathTooLong htree (Path.isNormal_resolve hnormal name) hlong
      rw [resolve_of_usable hcheck]
      simp only [Path.isUnder_iff.2 hunder, Bool.not_true, Bool.false_eq_true, if_false, hregular]
      exact ⟨.nameTooLong, rfl⟩

include hnormal in
theorem firstUnder_holds {bytes : ByteArray} (htaken : ¬ fs.Refuses root name)
    (h : fs.Holds root name bytes) :
    fs.firstUnder root (name :: names) = .ok (some bytes) := by
  unfold firstUnder
  rw [resolve_of_not_refuses htaken]
  simp only [Path.isUnder_iff.2 h.under, Bool.not_true, Bool.false_eq_true, if_false,
    regular?_of_not_refuses hnormal htaken h.under, h.regular]
  rfl

include hnormal hroot in
theorem firstUnder_passes (h : fs.Passes root name) :
    fs.firstUnder root (name :: names) = fs.firstUnder root names := by
  rw [firstUnder, resolve_of_not_refuses h.1]
  by_cases hunder : root <+: Path.resolve root name
  · have hbytes : fs.bytes? (Path.resolve root name) = none := by
      by_cases hstrict : Path.resolve root name = root
      · rw [hstrict, hroot]
      · by_contra hbytes
        obtain ⟨bytes, hbytes⟩ := Option.ne_none_iff_exists'.1 hbytes
        exact h.2 bytes ⟨hunder, hstrict, hbytes⟩
    simp only [Path.isUnder_iff.2 hunder, Bool.not_true, Bool.false_eq_true, if_false,
      regular?_of_not_refuses hnormal h.1 hunder, hbytes]
    rfl
  · have houtside : Path.isUnder (Path.resolve root name) root = false :=
      Bool.eq_false_iff.2 fun h => hunder (Path.isUnder_iff.1 h)
    simp [houtside]

include hnormal hroot in
theorem firstUnder_append {before : List String} (h : ∀ m ∈ before, fs.Passes root m) :
    fs.firstUnder root (before ++ names) = fs.firstUnder root names := by
  induction before with
  | nil => rfl
  | cons m before ih =>
    rw [List.cons_append, firstUnder_passes _ hnormal hroot (h m List.mem_cons_self)]
    exact ih fun k hk => h k (List.mem_cons_of_mem m hk)

theorem passes_or_first (fs : FileSystem) (root : Path) (names : List String) :
    (∀ name ∈ names, fs.Passes root name) ∨ ∃ before name after,
      names = before ++ name :: after ∧ (∀ m ∈ before, fs.Passes root m) ∧
        ¬ fs.Passes root name := by
  induction names with
  | nil => exact .inl (List.forall_mem_nil _)
  | cons name names ih =>
    by_cases hname : fs.Passes root name
    · rcases ih with ih | ⟨before, first, after, rfl, hbefore, hfirst⟩
      · exact .inl (List.forall_mem_cons.2 ⟨hname, ih⟩)
      · exact .inr ⟨name :: before, first, after, rfl,
          List.forall_mem_cons.2 ⟨hname, hbefore⟩, hfirst⟩
    · exact .inr ⟨[], name, names, rfl, List.forall_mem_nil _, hname⟩

end Search

/-- The result is made of the file that the first of the names means. -/
structure Serves {ε α : Type} (fs : FileSystem) (root : Path) (names : List String)
    (decode : ByteArray → Except ε α) (result : Except ε (Option α)) : Prop where
  /-- There is nothing exactly when all names are passed over. -/
  nothing : result = .ok none ↔ ∀ name ∈ names, fs.Passes root name
  /-- The first name that is not passed over decides. -/
  first : ∀ before name after bytes, names = before ++ name :: after →
    (∀ m ∈ before, fs.Passes root m) → ¬ fs.Refuses root name → fs.Holds root name bytes →
      result = (decode bytes).map some
  /-- It may be one that the system does not take. -/
  refused : ∀ before name after, names = before ++ name :: after →
    (∀ m ∈ before, fs.Passes root m) → fs.Refuses root name → ∃ fault, result = .error fault
  /-- What is given has been read from a regular file under the root. -/
  inside : ∀ x, result = .ok (some x) →
    ∃ name ∈ names, ∃ bytes, fs.Holds root name bytes ∧ decode bytes = .ok x

def served {ε α : Type} (fail : FileFault → ε) (decode : ByteArray → Except ε α) :
    Except FileFault (Option ByteArray) → Except ε (Option α)
  | .error fault => .error (fail fault)
  | .ok none => .ok none
  | .ok (some bytes) => (decode bytes).map some

theorem serves_firstUnder {ε α : Type} {root : Path} (htree : fs.IsTree) (hnormal : root.IsNormal)
    (hroot : fs.bytes? root = none) (names : List String) (fail : FileFault → ε)
    (decode : ByteArray → Except ε α) :
    fs.Serves root names decode (served fail decode (fs.firstUnder root names)) := by
  have hfirst : ∀ before name after bytes, names = before ++ name :: after →
      (∀ m ∈ before, fs.Passes root m) → ¬ fs.Refuses root name → fs.Holds root name bytes →
      served fail decode (fs.firstUnder root names) = (decode bytes).map some := by
    rintro before name after bytes rfl hbefore htaken hholds
    rw [firstUnder_append _ hnormal hroot hbefore, firstUnder_holds _ hnormal htaken hholds]
    rfl
  have hrefused : ∀ before name after, names = before ++ name :: after →
      (∀ m ∈ before, fs.Passes root m) → fs.Refuses root name →
      ∃ fault, served fail decode (fs.firstUnder root names) = .error fault := by
    rintro before name after rfl hbefore hrefuses
    obtain ⟨fault, hfault⟩ := firstUnder_refused after htree hnormal hrefuses
    rw [firstUnder_append _ hnormal hroot hbefore, hfault]
    exact ⟨fail fault, rfl⟩
  have hnothing : (∀ name ∈ names, fs.Passes root name) →
      served fail decode (fs.firstUnder root names) = .ok none := by
    intro hpasses
    have happend := firstUnder_append [] hnormal hroot hpasses
    rw [List.append_nil] at happend
    rw [happend]
    rfl
  -- in all other cases a first name decides, which has a file or is refused
  have hdecided : (∃ before name after, names = before ++ name :: after ∧
      (∀ m ∈ before, fs.Passes root m) ∧ ¬ fs.Passes root name) →
      (∃ fault, served fail decode (fs.firstUnder root names) = .error fault) ∨
      ∃ name ∈ names, ∃ bytes, fs.Holds root name bytes ∧
        served fail decode (fs.firstUnder root names) = (decode bytes).map some := by
    rintro ⟨before, name, after, hnames, hbefore, hname⟩
    by_cases hrefuses : fs.Refuses root name
    · exact .inl (hrefused before name after hnames hbefore hrefuses)
    · obtain ⟨bytes, hholds⟩ : ∃ bytes, fs.Holds root name bytes := by
        by_contra hnone
        exact hname ⟨hrefuses, not_exists.1 hnone⟩
      have hmem : name ∈ names := by simp [hnames]
      exact .inr ⟨name, hmem, bytes, hholds,
        hfirst before name after bytes hnames hbefore hrefuses hholds⟩
  refine ⟨⟨fun hresult => ?_, hnothing⟩, hfirst, hrefused, fun x hresult => ?_⟩
  · rcases passes_or_first fs root names with hpasses | hother
    · exact hpasses
    · rcases hdecided hother with ⟨fault, hfault⟩ | ⟨-, -, bytes, -, hfile⟩
      · cases hfault.symm.trans hresult
      · rw [hfile] at hresult
        cases hdecode : decode bytes <;> rw [hdecode] at hresult <;> cases hresult
  · rcases passes_or_first fs root names with hpasses | hother
    · cases (hnothing hpasses).symm.trans hresult
    · rcases hdecided hother with ⟨fault, hfault⟩ | ⟨name, hmem, bytes, hholds, hfile⟩
      · cases hfault.symm.trans hresult
      · refine ⟨name, hmem, bytes, hholds, ?_⟩
        rw [hfile] at hresult
        cases hdecode : decode bytes with
        | error e => rw [hdecode] at hresult; cases hresult
        | ok y => rw [hdecode] at hresult; cases hresult; rfl

/-- The second file system differs at most in what files outside the root hold. -/
structure SameUnder (root : Path) (fs other : FileSystem) : Prop where
  isDirectory : ∀ path, other.isDirectory path = fs.isDirectory path
  isFile : ∀ path, (other.bytes? path).isSome = (fs.bytes? path).isSome
  bytes : ∀ path, root <+: path → path ≠ root → other.bytes? path = fs.bytes? path

theorem eq_of_follow {path next : Path} {c : String} (hname : c ≠ "." ∧ c ≠ "..")
    (h : fs.follow path c = .ok next) : next = path ++ [c] := by
  unfold follow enter at h
  rw [Path.step_of_name hname] at h
  split at h
  · cases h
  · split at h
    · cases h
    · simp only [bind, Except.bind] at h
      split at h
      · cases h; rfl
      · cases h

theorem eq_of_walk {path rest last : Path} (hnormal : rest.IsNormal)
    (h : rest.foldlM fs.follow path = .ok last) : last = path ++ rest := by
  induction rest generalizing path with
  | nil =>
    cases h
    simp
  | cons c rest ih =>
    rw [List.foldlM_cons] at h
    cases hfollow : fs.follow path c with
    | error fault => rw [hfollow] at h; cases h
    | ok next =>
      rw [hfollow] at h
      have hlast := ih (fun d hd => hnormal d (List.mem_cons_of_mem c hd)) h
      rw [hlast, eq_of_follow (hnormal c List.mem_cons_self) hfollow]
      simp

namespace SameUnder

variable {root : Path} {other : FileSystem} (h : SameUnder root fs other)

include h

theorem follow : other.follow = fs.follow := by
  funext path c
  have hhas : ∀ next, other.has next = fs.has next := fun next => by
    unfold has
    rw [h.isDirectory, h.isFile]
  have henter : other.enter path c = fs.enter path c := by
    unfold enter
    rw [h.isDirectory]
  unfold FileSystem.follow
  simp only [henter, hhas]

theorem locate (path : Path) : other.locate (.ofPath path) = fs.locate (.ofPath path) := by
  have hstart : other.start (.ofPath path) = fs.start (.ofPath path) := rfl
  unfold FileSystem.locate
  rw [hstart, h.follow]

theorem regular? {path : Path} (hunder : root <+: path) (hnormal : path.IsNormal)
    (hroot : fs.bytes? root = none) : other.regular? path = fs.regular? path := by
  unfold FileSystem.regular?
  rw [h.locate]
  cases hlocate : fs.locate (.ofPath path) with
  | error fault => cases fault <;> rfl
  | ok last =>
    have hshort : (Pathname.ofPath path).tooLong = false := by
      by_contra hlong
      unfold FileSystem.locate start at hlocate
      rw [if_pos (by simpa using hlong)] at hlocate
      cases hlocate
    rw [locate_ofPath hshort] at hlocate
    have hlast : last = path := eq_of_walk hnormal hlocate
    have hbytes : other.bytes? path = fs.bytes? path := by
      by_cases hstrict : path = root
      · have hsome := h.isFile root
        rw [hroot, Option.isSome_none, Option.isSome_eq_false_iff, Option.isNone_iff_eq_none]
          at hsome
        rw [hstrict, hroot, hsome]
      · exact h.bytes path hunder hstrict
    simp [hlast, hbytes]

theorem firstUnder (hnormal : root.IsNormal) (hroot : fs.bytes? root = none)
    (names : List String) : other.firstUnder root names = fs.firstUnder root names := by
  induction names with
  | nil => rfl
  | cons name names ih =>
    unfold FileSystem.firstUnder
    cases hresolve : FileSystem.resolve root name with
    | error fault => rfl
    | ok path =>
      have hpath : path = Path.resolve root name := by
        cases hcheck : checkName name with
        | error fault => cases (resolve_of_unusable hcheck).symm.trans hresolve
        | ok _ => cases (resolve_of_usable hcheck).symm.trans hresolve; rfl
      by_cases hunder : Path.isUnder path root = true
      · have hregular := h.regular? (Path.isUnder_iff.1 hunder)
          (hpath ▸ Path.isNormal_resolve hnormal name) hroot
        simp only [hunder, hregular, ih]
      · simp [hunder, ih]

end SameUnder

end FileSystem

theorem TemplateDirectory.read_eq (d : TemplateDirectory) (fs : FileSystem) (name : String) :
    d.read fs name = FileSystem.served id d.encoding.text
      (fs.firstUnder d.root [name, name ++ d.suffix]) := by
  unfold read
  cases fs.firstUnder d.root [name, name ++ d.suffix] with
  | error fault => rfl
  | ok found =>
    cases found with
    | none => rfl
    | some bytes =>
      simp only [FileSystem.served, bind, Except.bind]
      cases d.encoding.text bytes <;> rfl

theorem TemplateDirectory.read_suffixed {d : TemplateDirectory} {fs : FileSystem} {name : String}
    {path longer : Path} {bytes : ByteArray}
    (hname : FileSystem.resolve d.root name = .ok path)
    (hlonger : FileSystem.resolve d.root (name ++ d.suffix) = .ok longer)
    (hunder : path.isUnder d.root = true) (hunder' : longer.isUnder d.root = true)
    (hmissing : fs.regular? path = .ok none) (hfound : fs.regular? longer = .ok (some bytes)) :
    d.read fs name = (d.encoding.text bytes).map some := by
  have hfirst : fs.firstUnder d.root [name, name ++ d.suffix] = .ok (some bytes) := by
    simp only [FileSystem.firstUnder, hname, hlonger, hunder, hunder', hmissing, hfound]
    rfl
  rw [read_eq, hfirst]
  rfl

theorem DataDirectory.load_eq (d : DataDirectory) (fs : FileSystem) (name : String)
    (parse : DocumentReader) :
    d.load fs name parse = FileSystem.served Fault.file (loadDocument parse)
      (fs.firstUnder d.root (suffixes.map (name ++ ·))) := by
  unfold load
  cases fs.firstUnder d.root (suffixes.map (name ++ ·)) with
  | error fault => rfl
  | ok found =>
    cases found with
    | none => rfl
    | some bytes =>
      simp only [FileSystem.served, Except.mapError, bind, Except.bind]
      cases loadDocument parse bytes <;> rfl

theorem loadDocument_ne_null (parse : DocumentReader) (bytes : ByteArray) :
    loadDocument parse bytes ≠ .ok (.scalar .null) := by
  unfold loadDocument
  simp only [bind, Except.bind]
  split
  · nofun
  · split
    · nofun
    · split
      · nofun
      · next hdata => exact fun h => hdata (Except.ok.inj h)

/-- Both providers give what stands in the first of their candidates that means a regular file
strictly under the root, and nothing exactly when none does, unless the system does not take a
candidate that is tried. What files outside the root hold makes no difference to them. How the text
of a data file is understood is up to its reader. -/
theorem FileSystem.providers_serve {fs : FileSystem} {root : Path} (htree : fs.IsTree)
    (hnormal : root.IsNormal) (hroot : fs.bytes? root = none) (name : String)
    (parse : DocumentReader) :
    (∀ suffix encoding, fs.Serves root [name, name ++ suffix] encoding.text
      (TemplateDirectory.read ⟨root, suffix, encoding⟩ fs name)) ∧
    fs.Serves root [name ++ ".yaml", name ++ ".yml", name ++ ".json"] (loadDocument parse)
      (DataDirectory.load ⟨root⟩ fs name parse) ∧
    DataDirectory.load ⟨root⟩ fs name parse ≠ .ok (some (.scalar .null)) ∧
    ∀ other, SameUnder root fs other →
      (∀ suffix encoding, TemplateDirectory.read ⟨root, suffix, encoding⟩ other name =
        TemplateDirectory.read ⟨root, suffix, encoding⟩ fs name) ∧
      DataDirectory.load ⟨root⟩ other name parse = DataDirectory.load ⟨root⟩ fs name parse := by
  have hload := DataDirectory.load_eq ⟨root⟩ fs name parse
  have hserves := serves_firstUnder htree hnormal hroot
    (DataDirectory.suffixes.map (name ++ ·)) Fault.file (loadDocument parse)
  rw [← hload] at hserves
  refine ⟨fun suffix encoding => ?_, hserves, fun hnull => ?_, fun other hother => ⟨?_, ?_⟩⟩
  · rw [TemplateDirectory.read_eq]
    exact serves_firstUnder htree hnormal hroot _ id encoding.text
  · obtain ⟨-, -, bytes, -, hbytes⟩ := hserves.inside _ hnull
    exact loadDocument_ne_null parse bytes hbytes
  · intro suffix encoding
    rw [TemplateDirectory.read_eq, TemplateDirectory.read_eq, hother.firstUnder hnormal hroot]
  · rw [hload, DataDirectory.load_eq, hother.firstUnder hnormal hroot]

/-- A name goes up and comes back, and its suffix is left out. -/
theorem FileSystem.providers_serve_reentry :
    let page : ByteArray := "x".toUTF8
    let fs : FileSystem :=
      { directory := ["w"], files := [(["w", "t", "page.html"], page), (["w", "page"], page)] }
    let root : Path := ["w", "t"]
    let name := "../t//./page"
    fs.IsTree ∧ root.IsNormal ∧ fs.bytes? root = none ∧ fs.Holds root (name ++ ".html") page ∧
      fs.Serves root [name, name ++ ".html"] (Encoding.utf8 false).text
        (TemplateDirectory.read ⟨root, ".html", .utf8 false⟩ fs name) ∧
      TemplateDirectory.read ⟨root, ".html", .utf8 false⟩ fs name = .ok (some "x") := by
  intro page fs root name
  have htree : fs.IsTree := ⟨by decide, by decide +kernel, by decide +kernel, by decide⟩
  have hnormal : root.IsNormal := by decide
  have hroot : fs.bytes? root = none := by decide
  have hserves := providers_serve htree hnormal hroot name Yaml.read
  have hholds : fs.Holds root (name ++ ".html") page :=
    ⟨by decide +kernel, by decide +kernel, by decide +kernel⟩
  have hname : checkName name = .ok () := checkName_ok (by decide +kernel) (by decide +kernel)
  have hread := TemplateDirectory.read_suffixed (d := ⟨root, ".html", .utf8 false⟩)
    (resolve_of_usable hname)
    (resolve_of_usable (checkName_ok (by decide +kernel) (by decide +kernel)))
    (by decide +kernel) (by decide +kernel)
    (show fs.regular? (Path.resolve root name) = .ok none by decide +kernel)
    (show fs.regular? (Path.resolve root (name ++ ".html")) = .ok (some "x".toUTF8) by
      decide +kernel)
  exact ⟨htree, hnormal, hroot, hholds, hserves.1 ".html" (.utf8 false), hread⟩

/-- A name with a zero character means no file and is an error all the same. -/
theorem FileSystem.providers_serve_zero :
    let fs : FileSystem := { directory := ["w"], files := [(["w", "t", "page.html"], "x".toUTF8)] }
    let root : Path := ["w", "t"]
    let name := "a\x00b"
    (∀ n ∈ [name, name ++ ".html"], ∀ bytes, ¬ fs.Holds root n bytes) ∧
      TemplateDirectory.read ⟨root, ".html", .utf8 false⟩ fs name = .error .badName := by
  intro fs root name
  have hmissing : ∀ n ∈ [name, name ++ ".html"], fs.bytes? (Path.resolve root n) = none := by
    decide +kernel
  have hname : checkName name = .error .badName :=
    checkName_zero (by decide +kernel) (by decide +kernel)
  constructor
  · intro n hn bytes hholds
    cases (hmissing n hn).symm.trans hholds.regular
  · rw [TemplateDirectory.read_eq]
    unfold firstUnder
    rw [resolve_of_unusable hname]
    rfl

end TagTemplate
