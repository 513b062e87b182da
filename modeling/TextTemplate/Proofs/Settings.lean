import TextTemplate.Proofs.Except
import TextTemplate.Settings.Load

/-!
# How settings files are checked

The checks of a settings file come one after the other, and each has a condition for passing it and
one for failing it.  Put together they say which settings a document gives (`Gives`) and why it is
refused (`Refuses`), and one of the two is so for every document (`ofDocument_eq_ok_iff`,
`ofDocument_eq_error_iff`).

All refusals are the failures meant for them but one: a map with a key that names no setting is to
be refused by listing such keys, and they cannot be listed when one of them is no text.
-/

namespace TextTemplate

namespace Value

/-- A value equals a text as data only if it is the text. -/
theorem beq_text_iff {v : Value} {s : String} : (v == .text s) = true ↔ v = .text s := by
  change equal v (.text s) = true ↔ _
  cases v <;> simp [equal, equalNumbers, integer?]

end Value

namespace Settings

variable {entries : List (Value × Value)} {key given : Value} {settings : Settings}
  {e : LoadError}

/-! ### Keys -/

/-- The key is that of the version or of a setting. -/
def IsKnown (key : Value) : Prop :=
  key = .text versionKey ∨ key = .text limitKey ∨ key = .text warnsKey

theorem mem_unknownKeys :
    key ∈ unknownKeys entries ↔ key ∈ Entries.keys entries ∧ ¬IsKnown key := by
  simp [unknownKeys, IsKnown, Value.beq_text_iff, ← Bool.not_eq_true]

theorem unknownKeys_eq_nil_iff :
    unknownKeys entries = [] ↔ ∀ key ∈ Entries.keys entries, IsKnown key := by
  rw [List.eq_nil_iff_forall_not_mem]
  simp only [mem_unknownKeys, not_and, Classical.not_not]

theorem allTexts_eq_some_iff {values : List Value} {names : List String} :
    allTexts values = some names ↔ values = names.map .text := by
  induction values generalizing names with
  | nil => cases names <;> simp [allTexts]
  | cons v rest ih =>
    cases v with
    | text s =>
      cases names with
      | nil => simp [allTexts]
      | cons name names => simpa [allTexts, ih] using and_comm
    | _ => cases names <;> simp [allTexts]

theorem allTexts_eq_none_iff {values : List Value} :
    allTexts values = none ↔ ∃ v ∈ values, ∀ s, v ≠ .text s := by
  induction values with
  | nil => simp [allTexts]
  | cons v rest ih => cases v <;> simp [allTexts, ih]

/-! ### The order of keys -/

/-- Texts have an order among themselves only. -/
theorem isText_iff_of_before? {v w : Value} {b : Bool} (h : v.before? w = some b) :
    (∃ s, v = .text s) ↔ ∃ s, w = .text s := by
  cases v <;> cases w <;> simp_all [Value.before?, Value.isNumber]

/-- The first value in order is one of the values, and is no text if any of them is none. -/
theorem firstInOrder_eq_ok {least first : Value} {values : List Value}
    (h : firstInOrder least values = .ok first) : first ∈ least :: values ∧
      ∀ v ∈ least :: values, (∃ s, v = .text s) ↔ ∃ s, first = .text s := by
  induction values generalizing least with
  | nil =>
    obtain rfl := Except.ok.inj h
    simp
  | cons v rest ih =>
    rw [firstInOrder] at h
    cases hbefore : v.before? least with
    | none => simp [hbefore] at h
    | some b =>
      have hkind := isText_iff_of_before? hbefore
      cases b with
      | true =>
        obtain ⟨hmem, hall⟩ := ih (by simpa [hbefore] using h)
        refine ⟨List.mem_cons_of_mem _ hmem, ?_⟩
        exact List.forall_mem_cons.2 ⟨hkind.symm.trans (hall v (by simp)), hall⟩
      | false =>
        obtain ⟨hmem, hall⟩ := ih (by simpa [hbefore] using h)
        obtain ⟨hleast, hrest⟩ := List.forall_mem_cons.1 hall
        refine ⟨?_, List.forall_mem_cons.2 ⟨hleast, List.forall_mem_cons.2
          ⟨hkind.trans hleast, hrest⟩⟩⟩
        rcases List.mem_cons.1 hmem with hfirst | hfirst
        · simp [hfirst]
        · simp [hfirst]

theorem firstInOrder_eq_error {least v w : Value} {values : List Value}
    (h : firstInOrder least values = .error (v, w)) :
    v ∈ least :: values ∧ w ∈ least :: values ∧ v.before? w = none := by
  induction values generalizing least with
  | nil => cases h
  | cons a rest ih =>
    rw [firstInOrder] at h
    cases hbefore : a.before? least with
    | none =>
      obtain ⟨rfl, rfl⟩ : a = v ∧ least = w := by simpa [hbefore] using h
      exact ⟨by simp, by simp, hbefore⟩
    | some b =>
      cases b with
      | true =>
        obtain ⟨hv, hw, hnone⟩ := ih (by simpa [hbefore] using h)
        exact ⟨List.mem_cons_of_mem _ hv, List.mem_cons_of_mem _ hw, hnone⟩
      | false =>
        obtain ⟨hv, hw, hnone⟩ := ih (by simpa [hbefore] using h)
        have hsub : least :: rest ⊆ least :: a :: rest := by simp
        exact ⟨hsub hv, hsub hw, hnone⟩

/-- The failure names one of the values that is no text, or two of them that have no order. -/
def KeyFault.Names (values : List Value) : KeyFault → Prop
  | .noText first => first ∈ values ∧ ∀ s, first ≠ .text s
  | .noOrder v w => v ∈ values ∧ w ∈ values ∧ v.before? w = none

theorem keyFault_names {rest : List Value} (h : ∃ v ∈ key :: rest, ∀ s, v ≠ .text s) :
    (keyFault key rest).Names (key :: rest) := by
  unfold keyFault
  cases hfirst : firstInOrder key rest with
  | ok first =>
    obtain ⟨hmem, hall⟩ := firstInOrder_eq_ok hfirst
    obtain ⟨v, hv, hnoText⟩ := h
    refine ⟨hmem, fun s hs => ?_⟩
    obtain ⟨s, rfl⟩ := (hall v hv).2 ⟨s, hs⟩
    exact hnoText s rfl
  | error pair => exact firstInOrder_eq_error hfirst

/-! ### What the checks ask for -/

/-- The version is not given, or it is the current one. -/
def HasVersion (entries : List (Value × Value)) : Prop :=
  ∀ given, entries.lookup (.text versionKey) = some given → (given == .int formVersion) = true

/-- The limit that a value stands for: none for null, and a positive integer for itself. -/
inductive IsLimit : Value → Option Int → Prop
  | null : IsLimit .null none
  | int {n : Int} (positive : 1 ≤ n) : IsLimit (.int n) (some n)

/-- The truth value that a value stands for. -/
inductive IsWarns : Value → Bool → Prop
  | bool (b : Bool) : IsWarns (.bool b) b

/-- The setting is what the value under its key stands for, or the default value. -/
def IsSet {α : Type} (entries : List (Value × Value)) (key : String) (default : α)
    (StandsFor : Value → α → Prop) (setting : α) : Prop :=
  match entries.lookup (.text key) with
  | none => setting = default
  | some given => StandsFor given setting

/-- A map with known keys gives settings. -/
structure Gives (entries : List (Value × Value)) (settings : Settings) : Prop where
  version : HasVersion entries
  known : ∀ key ∈ Entries.keys entries, IsKnown key
  limit : IsSet entries limitKey (some 64) IsLimit settings.includeLimit?
  warns : IsSet entries warnsKey false IsWarns settings.warnsOfMissing

/-- A map has unknown keys: they are listed, if all of them are texts. -/
inductive RefusesKeys (entries : List (Value × Value)) : LoadError → Prop
  | unknown {names : NameSet} (unknown : ∃ key ∈ Entries.keys entries, ¬IsKnown key)
      (listed : ∀ key, key ∈ Entries.keys entries ∧ ¬IsKnown key ↔
        ∃ name ∈ names.toList, key = .text name) : RefusesKeys entries (.unknown names)
  | unnamed {key : Value} {rest : List Value} (unknown : unknownKeys entries = key :: rest)
      (noText : ∃ v ∈ key :: rest, ∀ s, v ≠ .text s) :
      RefusesKeys entries (.unnamed (keyFault key rest))

/-- A document does not give settings: the first check that it fails. -/
inductive Refuses : Value → LoadError → Prop
  | noMap {document : Value} (something : isNothing document = false)
      (noMap : ∀ entries, document ≠ .map entries) : Refuses document .noMap
  | version {entries : List (Value × Value)} {given : Value}
      (isGiven : entries.lookup (.text versionKey) = some given)
      (differs : (given == .int formVersion) = false) : Refuses (.map entries) (.version given)
  | keys {entries : List (Value × Value)} {e : LoadError} (version : HasVersion entries)
      (keys : RefusesKeys entries e) : Refuses (.map entries) e
  | limit {entries : List (Value × Value)} {given : Value} (version : HasVersion entries)
      (known : ∀ key ∈ Entries.keys entries, IsKnown key)
      (isGiven : entries.lookup (.text limitKey) = some given)
      (noLimit : ∀ limit?, ¬IsLimit given limit?) : Refuses (.map entries) (.limit given)
  | warns {entries : List (Value × Value)} {given : Value} {limit? : Option Int}
      (version : HasVersion entries) (known : ∀ key ∈ Entries.keys entries, IsKnown key)
      (limit : IsSet entries limitKey (some 64) IsLimit limit?)
      (isGiven : entries.lookup (.text warnsKey) = some given)
      (noWarns : ∀ warns, ¬IsWarns given warns) : Refuses (.map entries) (.warns given)

/-! ### The single checks -/

theorem checkVersion_eq_ok_iff {u : Unit} : checkVersion entries = .ok u ↔ HasVersion entries := by
  unfold checkVersion HasVersion
  cases entries.lookup (.text versionKey) with
  | none => simp
  | some given => cases h : given == .int formVersion <;> simp [h]

theorem checkVersion_eq_error_iff : checkVersion entries = .error e ↔
    ∃ given, entries.lookup (.text versionKey) = some given ∧
      (given == .int formVersion) = false ∧ .version given = e := by
  unfold checkVersion
  cases entries.lookup (.text versionKey) with
  | none => simp
  | some given => cases h : given == .int formVersion <;> simp [h]

theorem checkKeys_eq_ok_iff {u : Unit} :
    checkKeys entries = .ok u ↔ ∀ key ∈ Entries.keys entries, IsKnown key := by
  rw [← unknownKeys_eq_nil_iff, checkKeys]
  cases unknownKeys entries with
  | nil => simp
  | cons key rest => cases h : allTexts (key :: rest) <;> simp [h]

theorem checkKeys_eq_error_iff : checkKeys entries = .error e ↔ RefusesKeys entries e := by
  have hmem (key : Value) : key ∈ Entries.keys entries ∧ ¬IsKnown key ↔
      key ∈ unknownKeys entries := mem_unknownKeys.symm
  rw [checkKeys]
  constructor
  · intro h
    cases hunknown : unknownKeys entries with
    | nil => simp [hunknown] at h
    | cons key rest =>
      cases htexts : allTexts (key :: rest) with
      | some names =>
        simp only [hunknown, htexts] at h
        obtain rfl := Except.error.inj h
        refine .unknown ⟨key, (hmem key).2 (by simp [hunknown])⟩ fun key' => ?_
        rw [hmem, hunknown, allTexts_eq_some_iff.1 htexts]
        simp [NameSet.mem_toList, eq_comm]
      | none =>
        simp only [hunknown, htexts] at h
        obtain rfl := Except.error.inj h
        exact .unnamed hunknown (allTexts_eq_none_iff.1 htexts)
  · intro h
    cases h with
    | @unknown names hsome hlisted =>
      cases hunknown : unknownKeys entries with
      | nil =>
        obtain ⟨key, hkey, hk⟩ := hsome
        exact absurd (unknownKeys_eq_nil_iff.1 hunknown key hkey) hk
      | cons key rest =>
        simp only [hmem, hunknown] at hlisted
        cases htexts : allTexts (key :: rest) with
        | some names' =>
          -- both sets have the texts among the unknown keys as members
          have hsame : NameSet.ofList names' = names := by
            refine NameSet.ext_of_mem fun name => ?_
            have hname := hlisted (.text name)
            rw [allTexts_eq_some_iff.1 htexts] at hname
            simpa [NameSet.mem_toList] using hname
          simp only [htexts, hsame]
        | none =>
          obtain ⟨v, hv, hnoText⟩ := allTexts_eq_none_iff.1 htexts
          obtain ⟨name, -, rfl⟩ := (hlisted v).1 hv
          exact absurd rfl (hnoText name)
    | unnamed hunknown hnoText =>
      rw [hunknown]
      simp only [allTexts_eq_none_iff.2 hnoText]

/-- Reading a setting decides what a value stands for, and fails where that is nothing. -/
structure Decides {α : Type} (valueOf : Value → Except LoadError α) (StandsFor : Value → α → Prop)
    (failure : Value → LoadError) : Prop where
  ok {given : Value} {a : α} : valueOf given = .ok a ↔ StandsFor given a
  failure_eq {given : Value} {e : LoadError} : valueOf given = .error e → failure given = e

theorem limitOf_decides : Decides limitOf IsLimit .limit where
  ok {given limit?} := by
    constructor
    · intro h
      cases given with
      | null =>
        obtain rfl := Except.ok.inj h
        exact .null
      | int n =>
        by_cases hn : 1 ≤ n
        · rw [limitOf, if_pos hn] at h
          obtain rfl := Except.ok.inj h
          exact .int hn
        · rw [limitOf, if_neg hn] at h
          cases h
      | _ => cases h
    · rintro (_ | hn)
      · rfl
      · exact if_pos hn
  failure_eq {given e} h := by
    cases given with
    | null => cases h
    | int n =>
      by_cases hn : 1 ≤ n
      · rw [limitOf, if_pos hn] at h
        cases h
      · rw [limitOf, if_neg hn] at h
        exact Except.error.inj h
    | _ => exact Except.error.inj h

theorem warnsOf_decides : Decides warnsOf IsWarns .warns where
  ok {given warns} := by
    constructor
    · intro h
      cases given with
      | bool b =>
        obtain rfl := Except.ok.inj h
        exact .bool b
      | _ => cases h
    · rintro ⟨⟩
      rfl
  failure_eq {given e} h := by
    cases given with
    | bool b => cases h
    | _ => exact Except.error.inj h

section Setting

variable {α : Type} {key : String} {default a : α} {valueOf : Value → Except LoadError α}
  {StandsFor : Value → α → Prop} {failure : Value → LoadError}

theorem Decides.error_iff (h : Decides valueOf StandsFor failure) : valueOf given = .error e ↔
    (∀ a, ¬StandsFor given a) ∧ failure given = e := by
  constructor
  · intro herror
    exact ⟨fun a ha => (nomatch herror.symm.trans (h.ok.2 ha)), h.failure_eq herror⟩
  · rintro ⟨hnone, rfl⟩
    cases hv : valueOf given with
    | ok a => exact absurd (h.ok.1 hv) (hnone a)
    | error e => rw [h.failure_eq hv]

theorem setting_eq_ok_iff (h : Decides valueOf StandsFor failure) :
    setting key default valueOf entries = .ok a ↔ IsSet entries key default StandsFor a := by
  unfold setting IsSet
  cases entries.lookup (.text key) with
  | none => simp [eq_comm]
  | some given => exact h.ok

theorem setting_eq_error_iff (h : Decides valueOf StandsFor failure) :
    setting key default valueOf entries = .error e ↔ ∃ given,
      entries.lookup (.text key) = some given ∧ (∀ a, ¬StandsFor given a) ∧ failure given = e := by
  unfold setting
  cases entries.lookup (.text key) with
  | none => simp
  | some given => simp [h.error_iff]

end Setting

/-! ### Documents -/

theorem ofEntries_eq_ok_iff : ofEntries entries = .ok settings ↔ Gives entries settings := by
  simp only [ofEntries, Except.bind_eq_ok_iff, checkVersion_eq_ok_iff, checkKeys_eq_ok_iff,
    setting_eq_ok_iff limitOf_decides, setting_eq_ok_iff warnsOf_decides]
  constructor
  · rintro ⟨-, hversion, -, hknown, limit?, hlimit, warns, hwarns, h⟩
    obtain rfl := Except.ok.inj h
    exact ⟨hversion, hknown, hlimit, hwarns⟩
  · rintro ⟨hversion, hknown, hlimit, hwarns⟩
    exact ⟨(), hversion, (), hknown, _, hlimit, _, hwarns, rfl⟩

theorem ofEntries_eq_error_iff : ofEntries entries = .error e ↔ Refuses (.map entries) e := by
  simp only [ofEntries, Except.bind_eq_error_iff, checkVersion_eq_ok_iff, checkKeys_eq_ok_iff,
    setting_eq_ok_iff limitOf_decides, checkVersion_eq_error_iff, checkKeys_eq_error_iff,
    setting_eq_error_iff limitOf_decides, setting_eq_error_iff warnsOf_decides]
  constructor
  · rintro (⟨given, hgiven, hv, rfl⟩ | ⟨-, hversion, hkeys | ⟨-, hknown,
      ⟨given, hgiven, hnone, rfl⟩ | ⟨limit?, hlimit, ⟨given, hgiven, hnone, rfl⟩ |
        ⟨warns, -, h⟩⟩⟩⟩)
    · exact .version hgiven hv
    · exact .keys hversion hkeys
    · exact .limit hversion hknown hgiven hnone
    · exact .warns hversion hknown hlimit hgiven hnone
    · cases h
  · intro h
    cases h with
    | noMap _ hnoMap => exact absurd rfl (hnoMap entries)
    | version hgiven hv => exact .inl ⟨_, hgiven, hv, rfl⟩
    | keys hversion hkeys => exact .inr ⟨(), hversion, .inl hkeys⟩
    | limit hversion hknown hgiven hnone =>
      exact .inr ⟨(), hversion, .inr ⟨(), hknown, .inl ⟨_, hgiven, hnone, rfl⟩⟩⟩
    | warns hversion hknown hlimit hgiven hnone =>
      exact .inr ⟨(), hversion, .inr ⟨(), hknown, .inr ⟨_, hlimit,
        .inl ⟨_, hgiven, hnone, rfl⟩⟩⟩⟩

theorem eq_nil_of_isNothing_map (h : isNothing (.map entries) = true) : entries = [] :=
  List.isEmpty_iff.1 h

/-- A document that holds nothing gives the default settings. -/
theorem ofDocument_eq_ok_iff {document : Value} : ofDocument document = .ok settings ↔
    isNothing document = true ∧ settings = {} ∨
      ∃ entries, document = .map entries ∧ Gives entries settings := by
  unfold ofDocument
  constructor
  · intro h
    split at h
    next hnothing =>
      obtain rfl := Except.ok.inj h
      exact .inl ⟨hnothing, rfl⟩
    next =>
      cases document with
      | map entries => exact .inr ⟨entries, rfl, ofEntries_eq_ok_iff.1 h⟩
      | _ => cases h
  · rintro (⟨hnothing, rfl⟩ | ⟨entries, rfl, hgives⟩)
    · rw [if_pos hnothing]
    · have hload : ofEntries entries = .ok settings := ofEntries_eq_ok_iff.2 hgives
      split
      next hnothing =>
        obtain rfl := eq_nil_of_isNothing_map hnothing
        exact hload
      next => exact hload

theorem ofDocument_eq_error_iff {document : Value} :
    ofDocument document = .error e ↔ Refuses document e := by
  unfold ofDocument
  constructor
  · intro h
    split at h
    next => cases h
    next hsome =>
      cases document with
      | map entries => exact ofEntries_eq_error_iff.1 h
      | _ =>
        obtain rfl := Except.error.inj h
        exact .noMap (Bool.eq_false_iff.2 hsome) fun _ => nofun
  · intro h
    cases document with
    | map entries =>
      have hload : ofEntries entries = .error e := ofEntries_eq_error_iff.2 h
      split
      next hnothing =>
        obtain rfl := eq_nil_of_isNothing_map hnothing
        exact hload
      next => exact hload
    | _ =>
      obtain ⟨hsome, -⟩ := h
      exact if_neg (Bool.eq_false_iff.1 hsome)

/-! ### Settings that are given, and failures -/

/-- What keeps unknown keys of a map from being listed is one or two of them. -/
theorem RefusesKeys.names_unknownKeys {fault : KeyFault}
    (h : RefusesKeys entries (.unnamed fault)) : fault.Names (unknownKeys entries) := by
  cases h with
  | unnamed hunknown hnoText =>
    rw [hunknown]
    exact keyFault_names hnoText

/-- A limit that is given or the default one is positive. -/
theorem Gives.one_le (h : Gives entries settings) {n : Int} (hn : settings.includeLimit? = some n) :
    1 ≤ n := by
  have hlimit := h.limit
  rw [IsSet, hn] at hlimit
  split at hlimit
  next =>
    obtain rfl := Option.some.inj hlimit
    decide
  next =>
    cases hlimit with
    | int hpositive => exact hpositive

/-- A refusal is the failure meant for it, unless a map of the right version has an unknown key that
is no text. -/
theorem Refuses.isConfigError_eq_false_iff {document : Value} (h : Refuses document e) :
    e.isConfigError = false ↔ ∃ entries, document = .map entries ∧ HasVersion entries ∧
      ∃ key ∈ Entries.keys entries, ¬IsKnown key ∧ ∀ s, key ≠ .text s := by
  cases h with
  | noMap _ hnoMap =>
    refine ⟨nofun, ?_⟩
    rintro ⟨entries, rfl, -⟩
    exact absurd rfl (hnoMap entries)
  | version hgiven hdiffers =>
    refine ⟨nofun, ?_⟩
    rintro ⟨entries, ⟨⟩, hversion, -⟩
    exact absurd (hversion _ hgiven) (by simp [hdiffers])
  | keys hversion hkeys =>
    cases hkeys with
    | unknown _ hlisted =>
      refine ⟨nofun, ?_⟩
      rintro ⟨entries, ⟨⟩, -, key, hkey, hunknown, hnoText⟩
      obtain ⟨name, -, rfl⟩ := (hlisted key).1 ⟨hkey, hunknown⟩
      exact absurd rfl (hnoText name)
    | @unnamed key rest hunknown hnoText =>
      obtain ⟨v, hv, hnoText⟩ := hnoText
      rw [← hunknown, mem_unknownKeys] at hv
      exact ⟨fun _ => ⟨_, rfl, hversion, v, hv.1, hv.2, hnoText⟩, fun _ => rfl⟩
  | limit _ hknown _ _ =>
    refine ⟨nofun, ?_⟩
    rintro ⟨entries, ⟨⟩, -, key, hkey, hunknown, -⟩
    exact absurd (hknown key hkey) hunknown
  | warns _ hknown _ _ _ =>
    refine ⟨nofun, ?_⟩
    rintro ⟨entries, ⟨⟩, -, key, hkey, hunknown, -⟩
    exact absurd (hknown key hkey) hunknown

/-- **Settings files are checked completely.**  Whatever reads documents from texts, a missing file
gives the default settings, and a text without a document is refused.  For a text with a document:

* Settings are given exactly if the document holds nothing, which gives the default ones, or is a
  map with known keys, of the right version, whose limit is null or a positive integer and whose
  other setting is a truth value, where they are given; what is not given has its default value.
* The limit is positive, if there is one.
* Otherwise the failure is that of the first check the document fails.
* A map with an unknown key always fails.
* The failure is the one meant for refused settings, except for maps of the right version with an
  unknown key that is no text. -/
theorem settings_are_given_or_refused (read : String → Option Value) (folder : Folder)
    (path : Path) :
    let answer := loadWith read folder path
    (folder.readText path = .error .missing → answer = .ok {}) ∧
    ∀ text, folder.readText path = .ok text →
      (read text = none → answer = .error .noDocument) ∧
      ∀ document, read text = some document →
        (∀ settings, answer = .ok settings ↔
          isNothing document = true ∧ settings = {} ∨
            ∃ entries, document = .map entries ∧ Gives entries settings) ∧
        (∀ settings n, answer = .ok settings → settings.includeLimit? = some n → 1 ≤ n) ∧
        (∀ e, answer = .error e ↔ Refuses document e) ∧
        (∀ entries, document = .map entries → (∃ key ∈ Entries.keys entries, ¬IsKnown key) →
          ∃ e, answer = .error e) ∧
        ∀ e, answer = .error e → (e.isConfigError = false ↔
          ∃ entries, document = .map entries ∧ HasVersion entries ∧
            ∃ key ∈ Entries.keys entries, ¬IsKnown key ∧ ∀ s, key ≠ .text s) := by
  intro answer
  refine ⟨fun hmissing => by simp only [answer, loadWith, hmissing], fun text htext => ⟨fun hread =>
    by simp only [answer, loadWith, htext, hread], fun document hread => ?_⟩⟩
  have hanswer : answer = ofDocument document := by simp only [answer, loadWith, htext, hread]
  rw [hanswer]
  refine ⟨fun settings => ofDocument_eq_ok_iff, fun settings n hok hn => ?_,
    fun e => ofDocument_eq_error_iff, ?_, fun e he =>
    (ofDocument_eq_error_iff.1 he).isConfigError_eq_false_iff⟩
  · rcases ofDocument_eq_ok_iff.1 hok with ⟨-, rfl⟩ | ⟨entries, -, hgives⟩
    · obtain rfl := Option.some.inj hn
      decide
    · exact hgives.one_le hn
  · rintro entries rfl ⟨key, hkey, hunknown⟩
    cases hload : ofDocument (.map entries) with
    | error e => exact ⟨e, rfl⟩
    | ok settings =>
      rcases ofDocument_eq_ok_iff.1 hload with ⟨hnothing, -⟩ | ⟨_, ⟨⟩, hgives⟩
      · obtain rfl := eq_nil_of_isNothing_map hnothing
        cases hkey
      · exact absurd (hgives.known key hkey) hunknown

theorem settings_are_given_or_refused_of_limit :
    let folder : Folder :=
      ⟨[(["strtpl.yaml"], some "max_include_depth: 3".toUTF8.data.toList)]⟩
    folder.readText ["strtpl.yaml"] = .ok "max_include_depth: 3" ∧
      Document.read "max_include_depth: 3" = some (.map [(.text limitKey, .int 3)]) ∧
      load folder ["strtpl.yaml"] = .ok ⟨some 3, false⟩ := by
  intro folder
  have htext : folder.readText ["strtpl.yaml"] = .ok "max_include_depth: 3" := by rfl
  have hread : Document.read "max_include_depth: 3" = some (.map [(.text limitKey, .int 3)]) := by
    rfl
  obtain ⟨hok, -⟩ := ((settings_are_given_or_refused Document.read folder
    ["strtpl.yaml"]).2 _ htext).2 _ hread
  refine ⟨htext, hread, (hok ⟨some 3, false⟩).2 (.inr ⟨_, rfl, ?_⟩)⟩
  exact {
    version := nofun
    known := by simp [IsKnown]
    limit := .int (by decide)
    warns := rfl }

/-- A file whose only key is the number 1 is not refused as settings are to be. -/
theorem unknown_key_that_is_no_text_is_not_listed :
    let folder : Folder := ⟨[(["strtpl.yaml"], some "1: x".toUTF8.data.toList)]⟩
    Document.read "1: x" = some (.map [(.int 1, .text "x")]) ∧
      load folder ["strtpl.yaml"] = .error (.unnamed (.noText (.int 1))) ∧
      (LoadError.unnamed (.noText (.int 1))).isConfigError = false := by
  intro folder
  have htext : folder.readText ["strtpl.yaml"] = .ok "1: x" := by rfl
  have hread : Document.read "1: x" = some (.map [(.int 1, .text "x")]) := by rfl
  refine ⟨hread, ?_, rfl⟩
  simp only [load, loadWith, htext, hread]
  rfl

end Settings

end TextTemplate
