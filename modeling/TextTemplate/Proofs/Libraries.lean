import Mathlib
import TextTemplate.Library
import TextTemplate.Proofs.Except

/-!
# What the library of a folder holds

Loading a library goes through the group files of a folder in the order of their names, and puts
each group under the stem of its file.  The names are distinct and ascending
(`pairwise_groupFiles`), and so nearly are their stems: all that two different names can have in
common is the stem of `.stg` and `.stg.stg` (`eq_or_hidden_of_stem_eq`).

So the library has an entry for every group file, in the order of the names, as long as a folder
has only one of these two; if it has both, the group in `.stg.stg` takes the place of that in `.stg`
(`loadGroups_of_holds`).
-/

namespace List

/-- Of equal items the first is kept. -/
theorem nodup_eraseDups {α : Type} [DecidableEq α] (l : List α) : l.eraseDups.Nodup := by
  induction l using List.reverseRecOn with
  | nil => simp
  | append_singleton l a ih =>
    rw [List.eraseDups_append]
    by_cases hm : a ∈ l
    · simpa [hm, List.removeAll] using ih
    · have hne : ∀ b ∈ l, ¬b = a := fun b hb h => hm (h ▸ hb)
      simpa [hm, List.removeAll, List.eraseDups_cons, List.nodup_append] using ⟨ih, hne⟩

end List

namespace TextTemplate

namespace Library

variable {folder : Folder} {name bare bare' : String} {names : List String} {group : Group}
  {e : LoadError}

/-! ### Group files -/

/-- The file directly in the folder can be read, and its text compiles to the group. -/
def Holds (folder : Folder) (name : String) (group : Group) : Prop :=
  ∃ text, folder.readText [name] = .ok text ∧ compileGroup text = .ok group

/-- The file directly in the folder cannot be read, or its text does not compile. -/
def Refuses (folder : Folder) (name : String) : LoadError → Prop
  | .read e => folder.readText [name] = .error e
  | .compile e => ∃ text, folder.readText [name] = .ok text ∧ compileGroup text = .error e

theorem loadGroup_eq_ok_iff : loadGroup folder [name] = .ok group ↔ Holds folder name group := by
  unfold loadGroup Holds
  cases folder.readText [name] with
  | error e => simp
  | ok text => cases h : compileGroup text <;> simp [h]

theorem loadGroup_eq_error_iff : loadGroup folder [name] = .error e ↔ Refuses folder name e := by
  unfold loadGroup
  cases hread : folder.readText [name] with
  | error r => cases e <;> simp [Refuses, hread]
  | ok text => cases e <;> cases hcompile : compileGroup text <;> simp [Refuses, hread, hcompile]

theorem not_holds_of_refuses (h : Refuses folder name e) : ¬Holds folder name group := by
  intro hholds
  exact nomatch (loadGroup_eq_ok_iff.2 hholds).symm.trans (loadGroup_eq_error_iff.2 h)

/-! ### The names of the group files -/

theorem insertName_eq (name : String) (names : List String) :
    insertName name names = names.orderedInsert (· ≤ ·) name := by
  induction names with
  | nil => rfl
  | cons a rest ih => simp only [insertName, List.orderedInsert, ih]

theorem groupFiles_eq (folder : Folder) :
    groupFiles folder = (folder.names.filter isGroupFile).insertionSort (· ≤ ·) := by
  rw [groupFiles, List.insertionSort]
  congr 1
  funext name names
  exact insertName_eq name names

theorem isGroupFile_iff : isGroupFile name = true ↔ ∃ bare, name = bare ++ ".stg" := by
  rw [isGroupFile, List.isSuffixOf_iff_suffix]
  constructor
  · rintro ⟨bare, h⟩
    refine ⟨String.ofList bare, String.toList_inj.1 ?_⟩
    rw [String.toList_append, String.toList_ofList, ← h]
    rfl
  · rintro ⟨bare, rfl⟩
    exact ⟨bare.toList, by rw [String.toList_append]; rfl⟩

/-- The group files are the files and folders directly in the folder whose names end in `.stg`. -/
theorem mem_groupFiles : name ∈ groupFiles folder ↔
    (∃ entry ∈ folder.entries, entry.1.head? = some name) ∧ ∃ bare, name = bare ++ ".stg" := by
  rw [groupFiles_eq, List.mem_insertionSort, List.mem_filter, isGroupFile_iff, Folder.names,
    List.mem_eraseDups, List.mem_filterMap]

theorem pairwise_groupFiles (folder : Folder) : (groupFiles folder).Pairwise (· < ·) := by
  have hnodup : (groupFiles folder).Nodup := by
    rw [groupFiles_eq, (List.perm_insertionSort _ _).nodup_iff]
    exact (List.nodup_eraseDups _).filter _
  have hsorted : (groupFiles folder).Pairwise (· ≤ ·) := by
    rw [groupFiles_eq]
    exact List.pairwise_insertionSort _ _
  exact hsorted.imp₂ (fun _ _ hle hne => lt_of_le_of_ne hle hne) hnodup

/-! ### Stems -/

theorem stem_append (bare : String) :
    stem (bare ++ ".stg") = if bare = "" then ".stg" else bare := by
  have htake : (bare ++ ".stg").toList.take
      ((bare ++ ".stg").toList.length - ending.length) = bare.toList := by
    simp [ending, String.toList_append]
  rw [stem, htake]
  by_cases h : bare = ""
  · subst h
    rfl
  · have : bare.toList.isEmpty = false := by simpa using h
    simp [this, h]

/-- Names of group files with the same stem are equal, or they are `.stg` and `.stg.stg`. -/
theorem eq_or_hidden_of_stem_eq (h : stem (bare ++ ".stg") = stem (bare' ++ ".stg")) :
    bare = bare' ∨ bare = "" ∧ bare' = ".stg" ∨ bare = ".stg" ∧ bare' = "" := by
  rw [stem_append, stem_append] at h
  split at h <;> split at h <;> simp_all

/-- A name of a group file is its stem and the ending, unless it is the ending alone. -/
theorem stem_of_isGroupFile (h : isGroupFile name = true) :
    name = stem name ++ ".stg" ∧ stem name ≠ "" ∨ name = ".stg" ∧ stem name = ".stg" := by
  obtain ⟨bare, rfl⟩ := isGroupFile_iff.1 h
  rw [stem_append]
  by_cases hbare : bare = ""
  · subst hbare
    exact .inr ⟨rfl, rfl⟩
  · rw [if_neg hbare]
    exact .inl ⟨rfl, hbare⟩

/-! ### Loading one file after the other -/

theorem loadAll_of_holds {groups : String → Group}
    (h : ∀ name ∈ names, Holds folder name (groups name)) :
    loadAll folder names = .ok (names.map fun name => (stem name, groups name)) := by
  induction names with
  | nil => rfl
  | cons name rest ih =>
    obtain ⟨hname, hrest⟩ := List.forall_mem_cons.1 h
    rw [loadAll, loadGroup_eq_ok_iff.2 hname, ih hrest]
    rfl

theorem holds_of_loadAll_eq_ok {loaded : List (String × Group)}
    (h : loadAll folder names = .ok loaded) : ∀ name ∈ names, ∃ group, Holds folder name group := by
  induction names generalizing loaded with
  | nil => simp
  | cons name rest ih =>
    rw [loadAll] at h
    cases hname : loadGroup folder [name] with
    | error e => simp [hname] at h
    | ok group =>
      simp only [hname, Except.map_eq_ok_iff] at h
      obtain ⟨loaded, hloaded, -⟩ := h
      exact List.forall_mem_cons.2 ⟨⟨group, loadGroup_eq_ok_iff.1 hname⟩, ih hloaded⟩

/-- Loading fails with the first file that is refused. -/
theorem loadAll_eq_error_iff : loadAll folder names = .error e ↔
    ∃ before name after, names = before ++ name :: after ∧
      (∀ earlier ∈ before, ∃ group, Holds folder earlier group) ∧ Refuses folder name e := by
  induction names with
  | nil => simp [loadAll]
  | cons name rest ih =>
    rw [loadAll]
    cases h : loadGroup folder [name] with
    | error e' =>
      have hrefuses : Refuses folder name e' := loadGroup_eq_error_iff.1 h
      constructor
      · intro he
        obtain rfl := Except.error.inj he
        exact ⟨[], name, rest, rfl, by simp, hrefuses⟩
      · rintro ⟨before, name', after, hcut, hbefore, he⟩
        cases before with
        | nil =>
          obtain ⟨rfl, rfl⟩ := List.cons.inj hcut
          obtain rfl : e' = e := Except.error.inj (h.symm.trans (loadGroup_eq_error_iff.2 he))
          rfl
        | cons earlier before =>
          obtain ⟨rfl, -⟩ := List.cons.inj hcut
          obtain ⟨group, hgroup⟩ := hbefore name (by simp)
          cases h.symm.trans (loadGroup_eq_ok_iff.2 hgroup)
    | ok group =>
      have hholds : Holds folder name group := loadGroup_eq_ok_iff.1 h
      simp only [Except.map_eq_error_iff, ih]
      constructor
      · rintro ⟨before, name', after, rfl, hbefore, he⟩
        exact ⟨name :: before, name', after, rfl,
          List.forall_mem_cons.2 ⟨⟨group, hholds⟩, hbefore⟩, he⟩
      · rintro ⟨before, name', after, hcut, hbefore, he⟩
        cases before with
        | nil =>
          obtain ⟨rfl, rfl⟩ := List.cons.inj hcut
          cases h.symm.trans (loadGroup_eq_error_iff.2 he)
        | cons earlier before =>
          obtain ⟨rfl, rfl⟩ := List.cons.inj hcut
          exact ⟨before, name', after, rfl, (List.forall_mem_cons.1 hbefore).2, he⟩

/-! ### Libraries -/

/-- Group files have distinct stems, if not both `.stg` and `.stg.stg` are there. -/
theorem nodup_stems (hnodup : names.Nodup) (hfiles : ∀ name ∈ names, isGroupFile name = true)
    (hboth : ¬(".stg" ∈ names ∧ ".stg.stg" ∈ names)) : (names.map stem).Nodup := by
  refine hnodup.map_on fun a ha b hb hstem => ?_
  obtain ⟨bare, rfl⟩ := isGroupFile_iff.1 (hfiles a ha)
  obtain ⟨bare', rfl⟩ := isGroupFile_iff.1 (hfiles b hb)
  obtain rfl | ⟨rfl, rfl⟩ | ⟨rfl, rfl⟩ := eq_or_hidden_of_stem_eq hstem
  · rfl
  · exact absurd ⟨ha, hb⟩ hboth
  · exact absurd ⟨hb, ha⟩ hboth

/-- In ascending names with both `.stg` and `.stg.stg` the shorter one stands in front. -/
theorem exists_both_eq_append (hsorted : names.Pairwise (· < ·)) (hshort : ".stg" ∈ names)
    (hlong : ".stg.stg" ∈ names) : ∃ before between after,
      names = before ++ ".stg" :: between ++ ".stg.stg" :: after := by
  obtain ⟨front, after, rfl⟩ := List.append_of_mem hlong
  have hbehind : ∀ name ∈ after, ".stg.stg" < name :=
    (List.pairwise_cons.1 (List.pairwise_append.1 hsorted).2.1).1
  have hfront : ".stg" ∈ front := by
    rcases List.mem_append.1 hshort with h | h
    · exact h
    · rcases List.mem_cons.1 h with h | h
      · exact absurd h (by decide)
      · exact absurd (hbehind _ h) (by decide)
  obtain ⟨before, between, rfl⟩ := List.append_of_mem hfront
  exact ⟨before, between, after, rfl⟩

/-- Of `.stg` and `.stg.stg` the group of the second is kept, in the place of the first. -/
theorem ofList_stems_of_both {groups : String → Group} (hsorted : names.Pairwise (· < ·))
    (hfiles : ∀ name ∈ names, isGroupFile name = true) (hshort : ".stg" ∈ names)
    (hlong : ".stg.stg" ∈ names) :
    Entries.ofList (names.map fun name => (stem name, groups name)) =
      (names.erase ".stg.stg").map fun name =>
        (stem name, groups (if name = ".stg" then ".stg.stg" else name)) := by
  have hnodup : names.Nodup := hsorted.imp ne_of_lt
  obtain ⟨before, between, after, rfl⟩ := exists_both_eq_append hsorted hshort hlong
  have herase : (before ++ ".stg" :: between ++ ".stg.stg" :: after).erase ".stg.stg" =
      before ++ ".stg" :: between ++ after := by
    rw [List.erase_append_right, List.erase_cons_head]
    intro hm
    exact (List.nodup_append.1 hnodup).2.2 _ hm _ (by simp) rfl
  have hkept : (before ++ ".stg" :: between ++ after).Nodup := herase ▸ hnodup.erase _
  have hgone : ".stg.stg" ∉ before ++ ".stg" :: between ++ after :=
    herase ▸ hnodup.not_mem_erase
  have hstems : ((before ++ ".stg" :: between ++ after).map stem).Nodup := by
    refine nodup_stems hkept (fun name hname => hfiles name ?_) fun h => hgone h.2
    rw [← herase] at hname
    exact List.mem_of_mem_erase hname
  have hothers : ".stg" ∉ before ++ between ++ after := by
    rw [List.append_assoc, List.cons_append, List.nodup_middle] at hkept
    simpa using (List.nodup_cons.1 hkept).1
  let entry (name : String) := (stem name, groups name)
  let kept (name : String) := (stem name, groups (if name = ".stg" then ".stg.stg" else name))
  have hsame : ∀ part : List String, ".stg" ∉ part → part.map kept = part.map entry := by
    intro part hpart
    refine List.map_congr_left fun name hname => ?_
    have hne : name ≠ ".stg" := fun h => hpart (h ▸ hname)
    simp only [kept, entry, if_neg hne]
  simp only [List.mem_append, not_or] at hothers
  have hshortStem : stem ".stg" = ".stg" := by decide
  have hlongStem : stem ".stg.stg" = ".stg" := by decide
  calc Entries.ofList ((before ++ ".stg" :: between ++ ".stg.stg" :: after).map entry)
      = Entries.ofList (before.map entry ++ (".stg", groups ".stg") :: between.map entry ++
          (".stg", groups ".stg.stg") :: after.map entry) := by
        simp [entry, hshortStem, hlongStem]
    _ = before.map entry ++ (".stg", groups ".stg.stg") :: between.map entry ++
          after.map entry := by
        refine Entries.ofList_of_repeated ?_
        simpa [Entries.keys, entry, hshortStem, Function.comp_def] using hstems
    _ = ((before ++ ".stg" :: between ++ ".stg.stg" :: after).erase ".stg.stg").map kept := by
        rw [herase, List.map_append, List.map_append, List.map_cons, hsame _ hothers.1.1,
          hsame _ hothers.1.2, hsame _ hothers.2]
        simp [kept, hshortStem]

theorem isGroupFile_of_mem_groupFiles (h : name ∈ groupFiles folder) : isGroupFile name = true :=
  isGroupFile_iff.2 (mem_groupFiles.1 h).2

theorem loadGroups_eq_error_iff :
    loadGroups folder = .error e ↔ loadAll folder (groupFiles folder) = .error e :=
  Except.map_eq_error_iff

/-- The library of a folder whose group files all hold groups. -/
theorem loadGroups_of_holds {groups : String → Group}
    (h : ∀ name ∈ groupFiles folder, Holds folder name (groups name)) :
    ∃ library, loadGroups folder = .ok library ∧ (Entries.keys library).Nodup ∧
      library =
        if ".stg" ∈ groupFiles folder ∧ ".stg.stg" ∈ groupFiles folder then
          ((groupFiles folder).erase ".stg.stg").map fun name =>
            (stem name, groups (if name = ".stg" then ".stg.stg" else name))
        else (groupFiles folder).map fun name => (stem name, groups name) := by
  have hsorted : (groupFiles folder).Pairwise (· < ·) := pairwise_groupFiles folder
  have hnodup : (groupFiles folder).Nodup := hsorted.imp ne_of_lt
  have hfiles : ∀ name ∈ groupFiles folder, isGroupFile name = true := fun _ =>
    isGroupFile_of_mem_groupFiles
  have hload : loadGroups folder =
      .ok (Entries.ofList ((groupFiles folder).map fun name => (stem name, groups name))) := by
    rw [loadGroups, loadAll_of_holds h]
    rfl
  refine ⟨_, hload, ?_⟩
  split
  next hboth =>
    have hgone : ".stg.stg" ∉ (groupFiles folder).erase ".stg.stg" := hnodup.not_mem_erase
    have hkept : ∀ name ∈ (groupFiles folder).erase ".stg.stg", isGroupFile name = true :=
      fun name hname => hfiles name (List.mem_of_mem_erase hname)
    rw [ofList_stems_of_both hsorted hfiles hboth.1 hboth.2, Entries.keys, List.map_map]
    exact ⟨nodup_stems (hnodup.erase _) hkept fun hm => hgone hm.2, rfl⟩
  next hboth =>
    have hkeys :
        (Entries.keys ((groupFiles folder).map fun name => (stem name, groups name))).Nodup := by
      rw [Entries.keys, List.map_map]
      exact nodup_stems hnodup hfiles hboth
    rw [Entries.ofList_of_nodup hkeys]
    exact ⟨hkeys, rfl⟩

/-- Loading a library fails only because of a group file that holds no group. -/
theorem exists_loadGroups_eq_error_iff : (∃ e, loadGroups folder = .error e) ↔
    ∃ name ∈ groupFiles folder, ∀ group, ¬Holds folder name group := by
  simp only [loadGroups_eq_error_iff]
  constructor
  · rintro ⟨e, he⟩
    obtain ⟨before, name, after, hcut, -, hrefuses⟩ := loadAll_eq_error_iff.1 he
    exact ⟨name, hcut ▸ by simp, fun group => not_holds_of_refuses hrefuses⟩
  · rintro ⟨name, hname, hnone⟩
    cases h : loadAll folder (groupFiles folder) with
    | error e => exact ⟨e, rfl⟩
    | ok loaded =>
      obtain ⟨group, hgroup⟩ := holds_of_loadAll_eq_ok h name hname
      exact absurd hgroup (hnone group)

/-- **A library has the group of every group file, but for one under the bare ending.**  The group
files of a folder are the files and folders directly in it whose names end in `.stg`, each once and
in ascending order; the stem of a name is what stands in front of the ending, or the whole name
where nothing does.

* If every group file can be read and compiles, the library has for each of them, in this order, its
  stem with its group, and the stems are distinct.  Only if both `.stg` and `.stg.stg` are there,
  which have the same stem, is one entry missing: the group of `.stg.stg` stands in the place of
  that of `.stg`.
* Otherwise loading fails, with the failure of the first group file in this order that cannot be
  read or does not compile. -/
theorem library_has_every_group_but_one_under_the_ending (folder : Folder) :
    let files := groupFiles folder
    (files.Pairwise (· < ·) ∧ ∀ name, name ∈ files ↔
      (∃ entry ∈ folder.entries, entry.1.head? = some name) ∧ ∃ bare, name = bare ++ ".stg") ∧
    (∀ name ∈ files,
      name = stem name ++ ".stg" ∧ stem name ≠ "" ∨ name = ".stg" ∧ stem name = ".stg") ∧
    (∀ groups : String → Group, (∀ name ∈ files, Holds folder name (groups name)) →
      ∃ library, loadGroups folder = .ok library ∧ (Entries.keys library).Nodup ∧
        library =
          if ".stg" ∈ files ∧ ".stg.stg" ∈ files then
            (files.erase ".stg.stg").map fun name =>
              (stem name, groups (if name = ".stg" then ".stg.stg" else name))
          else files.map fun name => (stem name, groups name)) ∧
    ((∃ e, loadGroups folder = .error e) ↔ ∃ name ∈ files, ∀ group, ¬Holds folder name group) ∧
    ∀ e, loadGroups folder = .error e ↔
      ∃ before name after, files = before ++ name :: after ∧
        (∀ earlier ∈ before, ∃ group, Holds folder earlier group) ∧ Refuses folder name e := by
  intro files
  refine ⟨⟨pairwise_groupFiles folder, fun name => mem_groupFiles⟩, fun name hname => ?_,
    fun groups => loadGroups_of_holds, exists_loadGroups_eq_error_iff, fun e => ?_⟩
  · exact stem_of_isGroupFile (isGroupFile_of_mem_groupFiles hname)
  · exact loadGroups_eq_error_iff.trans loadAll_eq_error_iff

/-- Neither other files nor files in folders inside count, and the groups come in the order of the
names. -/
theorem library_has_every_group_but_one_under_the_ending_of_three_files :
    let file (name body : String) : Path × Option (List UInt8) :=
      ([name], some ("x() ::= \"" ++ body ++ "\"").toUTF8.data.toList)
    let folder : Folder := ⟨[file "b.stg" "B", (["sub", "c.stg"], some []),
      (["notes.txt"], some []), file ".stg.stg" "H", file "a.b.stg" "A"]⟩
    let group (body : String) : Group := ⟨[("x", ⟨body, [.literal body], some .empty⟩)]⟩
    (∀ name ∈ groupFiles folder, Holds folder name
        (if name = ".stg.stg" then group "H" else if name = "a.b.stg" then group "A"
          else group "B")) ∧
      loadGroups folder = .ok [(".stg", group "H"), ("a.b", group "A"), ("b", group "B")] := by
  intro file folder group
  have hfiles : groupFiles folder = [".stg.stg", "a.b.stg", "b.stg"] := by decide
  have hholds : ∀ name ∈ groupFiles folder, Holds folder name
      (if name = ".stg.stg" then group "H" else if name = "a.b.stg" then group "A"
        else group "B") := by
    rw [hfiles]
    simp only [List.forall_mem_cons]
    refine ⟨⟨"x() ::= \"H\"", by decide, by cbv⟩, ⟨"x() ::= \"A\"", by decide, by cbv⟩,
      ⟨"x() ::= \"B\"", by decide, by cbv⟩, by simp⟩
  obtain ⟨library, hload, -, hlibrary⟩ :=
    (library_has_every_group_but_one_under_the_ending folder).2.2.1 _ hholds
  refine ⟨hholds, ?_⟩
  rw [hload, hlibrary, hfiles, if_neg (by decide)]
  rfl

/-- A folder with the files `.stg` and `.stg.stg` has two groups, and its library has one. -/
theorem library_lacks_a_group :
    let file (name template : String) : Path × Option (List UInt8) :=
      ([name], some (template ++ "() ::= \"x\"").toUTF8.data.toList)
    let folder : Folder := ⟨[file ".stg" "a", file ".stg.stg" "b"]⟩
    let group (name : String) : Group := ⟨[(name, ⟨"x", [.literal "x"], some .empty⟩)]⟩
    groupFiles folder = [".stg", ".stg.stg"] ∧ Holds folder ".stg" (group "a") ∧
      Holds folder ".stg.stg" (group "b") ∧ loadGroups folder = .ok [(".stg", group "b")] := by
  intro file folder group
  have hfiles : groupFiles folder = [".stg", ".stg.stg"] := by decide
  have ha : Holds folder ".stg" (group "a") := ⟨"a() ::= \"x\"", by decide, by cbv⟩
  have hb : Holds folder ".stg.stg" (group "b") := ⟨"b() ::= \"x\"", by decide, by cbv⟩
  refine ⟨hfiles, ha, hb, ?_⟩
  rw [loadGroups, hfiles, loadAll, loadGroup_eq_ok_iff.2 ha, loadAll, loadGroup_eq_ok_iff.2 hb]
  rfl

end Library

end TextTemplate
