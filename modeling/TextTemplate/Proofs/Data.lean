import TextTemplate.Attributes
import TextTemplate.Value.Data
import TextTemplate.Proofs.Except

/-!
# Data

*Data* are the trees that values are turned into: null, truth values, numbers that are finite,
texts, lists of data and maps from distinct texts to data (`Value.IsData`).  What paths lead to in
data is data, and so is what accumulates of data.

Assumptions on hosts are made by name where a result needs them: what is dumped is data
(`Host.DumpsData`), data are dumped as they stand, if they are dumped at all (`Host.KeepsData`), and
nothing goes wrong in the host but that data are lacking (`Host.LacksDataOnly`).  All of them hold
of the standard host.  Under the first one all that is taken over of values is data, unless a
context brings in something else (`Host.isData_of_data`), under the second one a template is taken
over as the map of its attributes (`Attributes.AreData.data_template`), and under the third one
nothing is taken over of a value for want of data only (`Host.LacksDataOnly.of_data`).
-/

namespace TextTemplate

namespace Value

/-- Null, truth values, finite numbers, texts, lists of data and maps from distinct texts to
data. -/
inductive IsData : Value → Prop
  | null : IsData .null
  | bool (b : Bool) : IsData (.bool b)
  | int (n : Int) : IsData (.int n)
  | float {x : Binary64} : x.isFinite = true → IsData (.float x)
  | text (s : String) : IsData (.text s)
  | list {items : List Value} : (∀ item ∈ items, IsData item) → IsData (.list items)
  | map {entries : List (String × Value)} : (Entries.keys entries).Nodup →
      (∀ entry ∈ entries, IsData entry.2) → IsData (ofAttributes entries)

/-! ### What values are turned into -/

/-- What holds of a value and of all that is there holds of all that is there after the value is
put under a key. -/
theorem forall_mem_put {P : Value → Prop} {key : String} {value : Value}
    {entries : List (String × Value)} (hv : P value) (he : ∀ entry ∈ entries, P entry.2) :
    ∀ entry ∈ Entries.put key value entries, P entry.2 := by
  induction entries with
  | nil => simpa [Entries.put] using hv
  | cons entry rest ih =>
    obtain ⟨k, v⟩ := entry
    have hr := ih fun entry hm => he entry (List.mem_cons_of_mem _ hm)
    unfold Entries.put
    split
    · intro entry hm
      rcases List.mem_cons.1 hm with rfl | hm
      · exact hv
      · exact he entry (List.mem_cons_of_mem _ hm)
    · intro entry hm
      rcases List.mem_cons.1 hm with rfl | hm
      · exact he _ List.mem_cons_self
      · exact hr entry hm

mutual

theorem isData_of_dataAt {depth : Nat} {v data : Value} (h : dataAt depth v = .ok data) :
    data.IsData := by
  unfold dataAt at h
  split at h
  · cases h
  · cases v with
    | null => cases h; exact .null
    | bool b => cases h; exact .bool b
    | int n => cases h; exact .int n
    | text s => cases h; exact .text s
    | float x =>
      cases h
      split
      · next hx => exact .float hx
      · exact .null
    | bytes encoded =>
      obtain ⟨s, -, rfl⟩ := Except.map_eq_ok_iff.1 h
      exact .text s
    | list items | tuple items | set items =>
      obtain ⟨data, hd, rfl⟩ := Except.map_eq_ok_iff.1 h
      exact .list (isData_of_dataItems hd)
    | map entries =>
      obtain ⟨data, hd, rfl⟩ := Except.map_eq_ok_iff.1 h
      obtain ⟨hk, hv⟩ := isData_of_dataEntries hd (by simp) (by simp)
      exact .map hk hv
    | template | staticGroup | group | context | foreign => cases h

theorem isData_of_dataItems {depth : Nat} {items data : List Value}
    (h : dataItems depth items = .ok data) : ∀ item ∈ data, item.IsData := by
  cases items with
  | nil => cases h; simp
  | cons item rest =>
    unfold dataItems at h
    split at h
    · cases h
    · next v hv =>
      obtain ⟨later, hl, rfl⟩ := Except.map_eq_ok_iff.1 h
      exact List.forall_mem_cons.2 ⟨isData_of_dataAt hv, isData_of_dataItems hl⟩
termination_by structural items

theorem isData_of_dataEntries {depth : Nat} {before after : List (String × Value)}
    {entries : List (Value × Value)} (h : dataEntries depth before entries = .ok after)
    (hk : (Entries.keys before).Nodup) (hb : ∀ entry ∈ before, entry.2.IsData) :
    (Entries.keys after).Nodup ∧ ∀ entry ∈ after, entry.2.IsData := by
  cases entries with
  | nil => cases h; exact ⟨hk, hb⟩
  | cons entry rest =>
    obtain ⟨key, value⟩ := entry
    unfold dataEntries at h
    split at h
    · cases h
    · split at h
      · cases h
      · next v hv =>
        exact isData_of_dataEntries h (Entries.nodup_keys_put hk)
          (forall_mem_put (isData_of_dataAt hv) hb)
termination_by structural entries

end

/-! ### Data stay as they are -/

theorem dataItems_eq {depth : Nat} {items : List Value}
    (h : ∀ item ∈ items, dataAt depth item = .ok item ∨ dataAt depth item = .error .tooDeep) :
    dataItems depth items = .ok items ∨ dataItems depth items = .error .tooDeep := by
  induction items with
  | nil => exact .inl rfl
  | cons item rest ih =>
    obtain ⟨hi, hr⟩ := List.forall_mem_cons.1 h
    unfold dataItems
    rcases hi with hi | hi
    · rw [hi]
      rcases ih hr with hr | hr
      · exact .inl (by rw [hr]; rfl)
      · exact .inr (by rw [hr]; rfl)
    · exact .inr (by rw [hi])

/-- Entries whose keys are texts that are new and distinct are put at the end, one after the
other. -/
theorem dataEntries_eq {depth : Nat} {before entries : List (String × Value)}
    (hk : (Entries.keys (before ++ entries)).Nodup)
    (h : ∀ entry ∈ entries, dataAt depth entry.2 = .ok entry.2 ∨
      dataAt depth entry.2 = .error .tooDeep) :
    dataEntries depth before (entries.map fun (key, value) => (.text key, value)) =
        .ok (before ++ entries) ∨
      dataEntries depth before (entries.map fun (key, value) => (.text key, value)) =
        .error .tooDeep := by
  induction entries generalizing before with
  | nil => exact .inl (by rw [List.append_nil]; rfl)
  | cons entry rest ih =>
    obtain ⟨key, value⟩ := entry
    obtain ⟨hv, hr⟩ := List.forall_mem_cons.1 h
    rw [List.append_cons] at hk
    have hnew : key ∉ Entries.keys before := by
      rw [Entries.keys_append] at hk
      exact (Entries.nodup_keys_append_singleton.1 (List.nodup_append.1 hk).1).2
    simp only [List.map_cons, dataEntries, keyText]
    rcases hv with hv | hv
    · rw [List.append_cons]
      simp only [hv, Entries.put_of_not_mem hnew]
      exact ih hk hr
    · exact .inr (by simp only [hv])

/-- **Data stay as they are**, unless they are nested too deep. -/
theorem IsData.dataAt_eq {v : Value} (h : v.IsData) (depth : Nat) :
    dataAt depth v = .ok v ∨ dataAt depth v = .error .tooDeep := by
  induction h generalizing depth with
  | null | bool | int | text =>
    unfold dataAt
    split
    · exact .inr rfl
    · exact .inl rfl
  | float hx =>
    unfold dataAt
    split
    · exact .inr rfl
    · exact .inl (congrArg Except.ok (if_pos hx))
  | list _ ih =>
    unfold dataAt
    split
    · exact .inr rfl
    · dsimp only
      rcases dataItems_eq fun item hm => ih item hm (depth + 1) with hi | hi
      · exact .inl (by rw [hi]; rfl)
      · exact .inr (by rw [hi]; rfl)
  | map hk _ ih =>
    unfold dataAt
    split
    · exact .inr rfl
    · rw [ofAttributes]
      dsimp only
      have hcases := @dataEntries_eq (depth + 1) [] _ hk fun entry hm => ih entry hm (depth + 1)
      rcases hcases with he | he
      · exact .inl (by rw [he]; rfl)
      · exact .inr (by rw [he]; rfl)

end Value

/-! ### What hosts are assumed to do -/

namespace Host

/-- What the host dumps is data. -/
def DumpsData (host : Host) : Prop := ∀ v data, host.dump v = .ok data → data.IsData

/-- Data are dumped as they stand, if they are dumped at all. -/
def KeepsData (host : Host) : Prop := ∀ v data, v.IsData → host.dump v = .ok data → data = v

/-- Whatever goes wrong in the host, it is data that are lacking. -/
structure LacksDataOnly (host : Host) : Prop where
  dump : ∀ v e, host.dump v = .error (.raised e) → ∃ d, e = .noData d
  form? : ∀ typeName number e, host.form? typeName number = some (.error e) → ∃ d, e = .noData d
  copyObject : ∀ v e, host.copyObject v = .error e → ∃ d, e = .noData d

theorem dumpsData_standard : standard.DumpsData := fun _ _ h =>
  Value.isData_of_dataAt (Except.mapError_eq_ok_iff.1 h)

theorem keepsData_standard : standard.KeepsData := by
  intro v data hv h
  have h : Value.dataAt 0 v = .ok data := Except.mapError_eq_ok_iff.1 h
  rcases hv.dataAt_eq 0 with he | he
  · exact Except.ok.inj (h.symm.trans he)
  · cases h.symm.trans he

theorem lacksDataOnly_standard : standard.LacksDataOnly where
  dump v e h := by
    unfold standard at h
    cases hv : Value.dataAt 0 v <;> simp [hv] at h
  form? _ _ _ h := nomatch h
  copyObject _ _ h := nomatch h

variable {host : Host} {v data : Value}

/-! ### Copies of data -/

theorem copyItems_eq {items : List Value} (h : ∀ item ∈ items, host.copy item = .ok item) :
    host.copyItems items = .ok items := by
  induction items with
  | nil => rfl
  | cons item rest ih =>
    obtain ⟨hi, hr⟩ := List.forall_mem_cons.1 h
    rw [copyItems, hi]
    exact congrArg (Except.map (item :: ·)) (ih hr)

theorem copyEntries_eq {entries : List (String × Value)}
    (h : ∀ entry ∈ entries, host.copy entry.2 = .ok entry.2) :
    host.copyEntries (entries.map fun (name, value) => (.text name, value)) =
      .ok (entries.map fun (name, value) => (.text name, value)) := by
  induction entries with
  | nil => rfl
  | cons entry rest ih =>
    obtain ⟨name, value⟩ := entry
    obtain ⟨hv, hr⟩ := List.forall_mem_cons.1 h
    rw [List.map_cons, copyEntries, hv]
    exact congrArg (Except.map (((.text name : Value), value) :: ·)) (ih hr)

/-- What is taken over of anything but a context is dumped. -/
theorem data_eq_ok_iff (hv : ∀ held, v ≠ .context held) : host.data v = .ok data ↔
    ∃ form, host.form v = .ok form ∧ host.dump form = .ok data := by
  unfold Host.data
  split
  · next held => exact absurd rfl (hv held)
  · cases host.form v <;> simp

/-! ### What goes wrong -/

mutual

/-- Values are not copied for want of data only. -/
theorem LacksDataOnly.of_copy (h : host.LacksDataOnly) {v : Value} {e : HostError}
    (hc : host.copy v = .error e) : ∃ d, e = .noData d := by
  cases v with
  | list items | tuple items | set items =>
    exact LacksDataOnly.of_copyItems h (Except.map_eq_error_iff.1 hc)
  | map entries => exact LacksDataOnly.of_copyEntries h (Except.map_eq_error_iff.1 hc)
  | context held => exact LacksDataOnly.of_copy h (Except.map_eq_error_iff.1 hc)
  | template | staticGroup | group | foreign => exact h.copyObject _ _ hc
  | null | bool | int | float | text | bytes => cases hc

theorem LacksDataOnly.of_copyItems (h : host.LacksDataOnly) {items : List Value} {e : HostError}
    (hc : host.copyItems items = .error e) : ∃ d, e = .noData d := by
  cases items with
  | nil => cases hc
  | cons item rest =>
    rw [copyItems] at hc
    split at hc
    · next e' hi =>
      obtain rfl : e' = e := Except.error.inj hc
      exact LacksDataOnly.of_copy h hi
    · exact LacksDataOnly.of_copyItems h (Except.map_eq_error_iff.1 hc)
termination_by structural items

theorem LacksDataOnly.of_copyEntries (h : host.LacksDataOnly) {entries : List (Value × Value)}
    {e : HostError} (hc : host.copyEntries entries = .error e) : ∃ d, e = .noData d := by
  cases entries with
  | nil => cases hc
  | cons entry rest =>
    obtain ⟨key, value⟩ := entry
    rw [copyEntries] at hc
    split at hc
    · next e' hv =>
      obtain rfl : e' = e := Except.error.inj hc
      exact LacksDataOnly.of_copy h hv
    · split at hc
      · next e' hk =>
        obtain rfl : e' = e := Except.error.inj hc
        exact LacksDataOnly.of_copy h hk
      · exact LacksDataOnly.of_copyEntries h (Except.map_eq_error_iff.1 hc)
termination_by structural entries

end

theorem LacksDataOnly.of_copyAttributes (h : host.LacksDataOnly)
    {attributes : List (String × Value)} {e : HostError}
    (hc : host.copyAttributes attributes = .error e) : ∃ d, e = .noData d := by
  induction attributes with
  | nil => cases hc
  | cons entry rest ih =>
    rw [copyAttributes] at hc
    split at hc
    · next e' hv =>
      obtain rfl : e' = e := Except.error.inj hc
      exact h.of_copy hv
    · exact ih (Except.map_eq_error_iff.1 hc)

theorem LacksDataOnly.of_form (h : host.LacksDataOnly) {e : HostError}
    (hf : host.form v = .error e) : ∃ d, e = .noData d := by
  cases v with
  | template attributes => exact h.of_copyAttributes (Except.map_eq_error_iff.1 hf)
  | staticGroup => exact ⟨_, (Except.error.inj hf).symm⟩
  | foreign typeName number =>
    rw [Host.form] at hf
    cases ho : host.form? typeName number with
    | none => rw [ho] at hf; cases hf
    | some answer =>
      rw [ho] at hf
      exact h.form? typeName number e (ho.trans (congrArg some hf))
  | _ => cases hf

/-- **Nothing is taken over of a value for want of data only.** -/
theorem LacksDataOnly.of_data (h : host.LacksDataOnly) {e : HostError}
    (hd : host.data v = .error e) : ∃ d, e = .noData d := by
  unfold Host.data at hd
  split at hd
  · next held => exact h.of_copy hd
  · split at hd
    · next e' hf =>
      obtain rfl : e' = e := Except.error.inj hd
      exact h.of_form hf
    · next form hf =>
      cases hdump : host.dump form with
      | ok data => rw [hdump] at hd; cases hd
      | error failure =>
        rw [hdump] at hd
        obtain rfl := Except.error.inj hd
        cases failure with
        | problem p => exact ⟨_, rfl⟩
        | raised e => exact h.dump form e hdump

end Host

namespace Value

/-- A copy of data is the data themselves. -/
theorem IsData.copy_eq {v : Value} (h : v.IsData) (host : Host) : host.copy v = .ok v := by
  induction h with
  | list _ ih => rw [Host.copy, Host.copyItems_eq ih]; rfl
  | map _ _ ih => rw [ofAttributes, Host.copy, Host.copyEntries_eq ih]; rfl
  | _ => rfl

/-- A context that is handed in holds data. -/
def HoldsData (v : Value) : Prop := ∀ held, v = .context held → held.IsData

/-! ### Reaching into data and accumulating them -/

theorem lookup_ofAttributes (entries : List (String × Value)) (segment : String) :
    (entries.map fun (name, value) => ((.text name : Value), value)).lookup (.text segment) =
      entries.lookup segment := by
  induction entries with
  | nil => rfl
  | cons entry rest ih =>
    obtain ⟨name, value⟩ := entry
    rw [List.map_cons, List.lookup_cons, List.lookup_cons, ih]
    rfl

/-- A path into a map of attributes goes on in the attribute that its first segment names. -/
theorem navigate_ofAttributes (entries : List (String × Value)) (segment : String)
    (path : List String) : (ofAttributes entries).navigate (segment :: path) =
      ((entries.lookup segment).getD .null).navigate path := by
  rw [ofAttributes, navigate, lookup_ofAttributes]

theorem IsData.navigate {v : Value} (h : v.IsData) (path : List String) :
    (v.navigate path).IsData := by
  induction path generalizing v with
  | nil => unfold Value.navigate; exact h
  | cons segment path ih =>
    cases h with
    | @map entries _ hv =>
      rw [navigate_ofAttributes]
      cases he : entries.lookup segment with
      | none => exact ih .null
      | some value =>
        obtain ⟨before, after, rfl, -⟩ := List.lookup_eq_some_iff.1 he
        exact ih (hv (segment, value) (by simp))
    | _ => unfold Value.navigate; exact .null

theorem IsData.accumulate {old new : Value} (ho : old.IsData) (hn : new.IsData) :
    (old.accumulate new).IsData := by
  have hpair : IsData (.list [old, new]) := .list (by simp [ho, hn])
  cases ho with
  | null => exact hn
  | list hi =>
    refine .list fun item hm => ?_
    rcases List.mem_append.1 hm with hm | hm
    · exact hi item hm
    · obtain rfl := List.mem_singleton.1 hm
      exact hn
  | _ => exact hpair

end Value

/-! ### Attributes -/

namespace Attributes

/-- The names are distinct, and what they hold is data. -/
structure AreData (attributes : Attributes) : Prop where
  distinct : attributes.names.Nodup
  isData : ∀ entry ∈ attributes.entries, entry.2.IsData

theorem areData_empty : AreData ∅ := ⟨List.nodup_nil, fun _ hm => nomatch hm⟩

variable {attributes : Attributes}

theorem AreData.isData_get (h : attributes.AreData) {name : String} {v : Value}
    (hv : attributes.get? name = some v) : v.IsData := by
  obtain ⟨before, after, he, -⟩ := List.lookup_eq_some_iff.1 hv
  exact h.isData (name, v) (by simp [he])

theorem AreData.insert (h : attributes.AreData) (name : String) {data : Value}
    (hd : data.IsData) : (attributes.insert name data).AreData := by
  refine ⟨Entries.nodup_keys_put h.distinct, Value.forall_mem_put ?_ h.isData⟩
  cases hg : attributes.get? name with
  | none => exact hd
  | some old => exact (h.isData_get hg).accumulate hd

theorem AreData.isData_toValue (h : attributes.AreData) : attributes.toValue.IsData :=
  .map h.distinct h.isData

theorem copyAttributes_eq {host : Host} {entries : List (String × Value)}
    (h : ∀ entry ∈ entries, entry.2.IsData) : host.copyAttributes entries = .ok entries := by
  induction entries with
  | nil => rfl
  | cons entry rest ih =>
    obtain ⟨hv, hr⟩ := List.forall_mem_cons.1 h
    rw [Host.copyAttributes, hv.copy_eq]
    exact congrArg (Except.map (entry :: ·)) (ih hr)

/-- A template that holds data is dumped as the map of its attributes. -/
theorem AreData.form_template (h : attributes.AreData) (host : Host) :
    host.form (.template attributes.entries) = .ok attributes.toValue := by
  rw [Host.form, copyAttributes_eq h.isData]
  rfl

/-- A template that is given as a value is taken over as the map of its attributes. -/
theorem AreData.data_template {host : Host} (hk : host.KeepsData) {data : Value}
    (h : attributes.AreData) (hd : host.data (.template attributes.entries) = .ok data) :
    data = attributes.toValue := by
  obtain ⟨form, hf, hdump⟩ := (Host.data_eq_ok_iff fun _ => Value.noConfusion).1 hd
  obtain rfl := Except.ok.inj (hf.symm.trans (h.form_template host))
  exact hk _ _ h.isData_toValue hdump

end Attributes

/-- **What is taken over of values is data**, unless a context brings in something else. -/
theorem Host.isData_of_data {host : Host} (hd : host.DumpsData) {v data : Value}
    (hv : v.HoldsData) (h : host.data v = .ok data) : data.IsData := by
  by_cases hc : ∃ held, v = .context held
  · obtain ⟨held, rfl⟩ := hc
    have hheld : held.IsData := hv held rfl
    obtain rfl : held = data := Except.ok.inj ((hheld.copy_eq host).symm.trans h)
    exact hheld
  · obtain ⟨form, -, hdump⟩ := (data_eq_ok_iff fun held he => hc ⟨held, he⟩).1 h
    exact hd form data hdump

end TextTemplate
