import GuixP2p.Dashboard.Removal
import GuixP2p.Dashboard.SeedConfig

/-!
# GuixP2p.Dashboard.ConfigFrame

**What is left of the user's config file** when a seed path is persisted or removed. `ListChanged` is
what should happen: one list changes, and every other key keeps its value. It cannot happen to a file
that is no document, or whose `seed_paths` is no list; a removal then leaves the file alone, while
persisting a path writes an empty document with that path over it.
-/

namespace GuixP2p.SeedConfig

open GuixP2p.Lib TomlEditLib

/-! ### Lists of seed paths -/

theorem mem_addOnce (storePath : Text) (values : List Text) : storePath ∈ addOnce storePath values := by
  unfold addOnce
  split
  next hmem => exact hmem
  next => exact List.mem_append_right _ (List.mem_singleton.mpr rfl)

theorem filter_addOnce {storePath : Text} {values : List Text} (h : storePath ∉ values) :
    (addOnce storePath values).filter (fun value => decide (value ≠ storePath)) = values := by
  have hself : values.filter (fun value => decide (value ≠ storePath)) = values :=
    List.filter_eq_self.mpr fun value hvalue => decide_eq_true (ne_of_mem_of_not_mem hvalue h)
  rw [addOnce, if_neg h, List.filter_append, hself]
  simp

section

variable {V : Type}

/-- The list of a document. Without the key it is empty; it is none if the key is something else. -/
def seedList (doc : Document V) : Option (List (Element V)) :=
  match doc.lookup seedPathsKey with
  | none => some []
  | some item => item.asArray

def strings (elements : List (Element V)) : List Text := elements.filterMap Element.asStr

/-- Every element is a string. -/
def AllStrings (elements : List (Element V)) : Prop := ∀ e ∈ elements, ∃ value, e = .string value

/-- The list with the path in it, once more only if it was absent. -/
def withPath (storePath : Text) (former : List (Element V)) : List (Element V) :=
  if storePath ∈ strings former then former else former ++ [.string storePath]

def withoutPath (storePath : Text) (former : List (Element V)) : List (Element V) :=
  former.filter fun e => decide (e.asStr ≠ some storePath)

theorem allStrings_map (values : List Text) : AllStrings (values.map (Element.string (V := V))) := by
  intro e he
  obtain ⟨value, -, rfl⟩ := List.mem_map.mp he
  exact ⟨value, rfl⟩

@[simp] theorem strings_map (values : List Text) : strings (values.map (Element.string (V := V))) = values := by
  unfold strings
  rw [List.filterMap_map]
  exact List.filterMap_some

/-- A list of strings is its strings, and no other list is. -/
theorem map_strings_iff {elements : List (Element V)} : (strings elements).map .string = elements ↔ AllStrings elements := by
  constructor
  · intro h
    rw [← h]
    exact allStrings_map _
  · intro h
    induction elements with
    | nil => rfl
    | cons e elements ih =>
        have htail := ih fun e he => h e (List.mem_cons_of_mem _ he)
        obtain ⟨value, rfl⟩ := h e List.mem_cons_self
        exact congrArg (Element.string value :: ·) htail

theorem mem_withPath_of_mem (storePath : Text) {former : List (Element V)} {e : Element V} (h : e ∈ former) :
    e ∈ withPath storePath former := by
  unfold withPath
  split
  · exact h
  · exact List.mem_append_left _ h

/-- On strings, the code adds the path as it should. -/
theorem withPath_of_allStrings {storePath : Text} {former : List (Element V)} (h : AllStrings former) :
    withPath storePath former = (addOnce storePath (strings former)).map .string := by
  have hself := map_strings_iff.mpr h
  unfold withPath addOnce
  split
  · exact hself.symm
  · rw [List.map_append, hself]
    rfl

/-- A list of at most the path becomes the path. -/
theorem withPath_eq_singleton_iff {storePath : Text} {former : List (Element V)} :
    withPath storePath former = [.string storePath] ↔
      AllStrings former ∧ (strings former = [] ∨ strings former = [storePath]) := by
  constructor
  · intro h
    have hall : AllStrings former := by
      intro e he
      have hmem := mem_withPath_of_mem storePath he
      rw [h, List.mem_singleton] at hmem
      exact ⟨storePath, hmem⟩
    refine ⟨hall, ?_⟩
    rw [withPath_of_allStrings hall] at h
    have hvalues := congrArg strings h
    rw [strings_map] at hvalues
    unfold addOnce at hvalues
    split at hvalues
    · exact Or.inr hvalues
    · exact Or.inl (List.append_left_eq_self.mp hvalues)
  · intro h'
    obtain ⟨hall, hvalues⟩ := h'
    rw [withPath_of_allStrings hall]
    rcases hvalues with hvalues | hvalues <;> rw [hvalues] <;> simp [addOnce]

/-- What is no string is not the path. -/
theorem mem_withoutPath_of_other (storePath : Text) {former : List (Element V)} {value : V}
    (h : .other value ∈ former) : .other value ∈ withoutPath storePath former :=
  List.mem_filter.mpr ⟨h, rfl⟩

/-- On strings, the code removes the path as it should. -/
theorem withoutPath_of_allStrings {storePath : Text} {former : List (Element V)} (h : AllStrings former) :
    withoutPath storePath former =
      ((strings former).filter fun value => decide (value ≠ storePath)).map .string := by
  have hself := map_strings_iff.mpr h
  unfold withoutPath
  conv_lhs => rw [← hself]
  rw [List.filter_map]
  congr 1
  refine List.filter_congr fun value _ => ?_
  simp [Element.asStr]

theorem seedPaths_of_seedList {doc : Document V} {former : List (Element V)} (h : seedList doc = some former) :
    seedPaths doc = strings former := by
  unfold seedList at h
  unfold seedPaths seedArray
  cases hlookup : doc.lookup seedPathsKey with
  | none =>
      rw [hlookup] at h
      obtain rfl := Option.some.inj h
      rfl
  | some item =>
      rw [hlookup] at h
      dsimp only at h
      rw [Option.bind_some, h]
      rfl

/-- A list that is an array is the list of the document. -/
theorem seedList_of_seedArray {doc : Document V} {elements : List (Element V)}
    (h : seedArray doc = some elements) : seedList doc = some elements := by
  obtain ⟨item, hlookup, harray⟩ := Option.bind_eq_some_iff.mp h
  unfold seedList
  rw [hlookup]
  exact harray

theorem lookup_writeSeedPaths_self (doc : Document V) (values : List Text) :
    (writeSeedPaths doc values).lookup seedPathsKey = some (.array (values.map .string)) :=
  AList.lookup_insert doc

theorem lookup_writeSeedPaths_of_ne {key : Text} (h : key ≠ seedPathsKey) (doc : Document V) (values : List Text) :
    (writeSeedPaths doc values).lookup key = doc.lookup key :=
  AList.lookup_insert_ne h

end

/-! ### What is held and what is written -/

section

variable [TomlEditLib]

/-- The document that the file is, if it is one. -/
def heldDocument : ConfigFile → Option (Document Value)
  | none => some ∅
  | some (.file bytes) => (Text.fromUtf8 bytes).bind parse
  | some .dir => none

/-- The list of the file changes, and no other key. -/
def ListChanged (change : List (Element Value) → List (Element Value)) (before after : ConfigFile) : Prop :=
  ∃ doc doc' former, heldDocument before = some doc ∧ heldDocument after = some doc' ∧
    (∀ key, key ≠ seedPathsKey → doc'.lookup key = doc.lookup key) ∧
    seedList doc = some former ∧ seedList doc' = some (change former)

/-- The file that has a document with this list. -/
def writtenFile (doc : Document Value) (values : List Text) : ConfigFile :=
  some (.file (Text.utf8 (TomlEditLib.toString (writeSeedPaths doc values))))

/-- What the code relies on: an empty text is an empty document, and a document that was parsed, and got
a list of seed paths, is read back as it was printed. -/
class LosslessTomlEdit : Prop where
  parse_nil : parse [] = some ∅
  parse_toString : ∀ {content doc} values, parse content = some doc →
    ∃ doc', parse (TomlEditLib.toString (writeSeedPaths doc values)) = some doc' ∧
      ∀ key, doc'.lookup key = (writeSeedPaths doc values).lookup key

omit [TomlEditLib] in
/-- When a change comes to be written. -/
theorem writeFile_eq {file : ConfigFile} (h : file ≠ some .dir) (data : Text) (outcome : ConfigWrite) :
    writeFile data outcome file =
      match outcome with
      | .written => (some (.file (Text.utf8 data)), true)
      | .failed left => (left, false) := by
  unfold writeFile
  cases outcome <;> split <;> simp_all

variable [LosslessTomlEdit]

/-- Every change starts from a document that some text is. -/
theorem exists_parse_start (readable : Bool) (file : ConfigFile) : ∃ c, parse c = some (startDocument readable file) := by
  unfold startDocument parseOrNew
  cases hparse : parse ((readToString readable file).getD []) with
  | none => exact ⟨[], LosslessTomlEdit.parse_nil⟩
  | some doc => exact ⟨_, hparse⟩

theorem exists_parse_of_held {file : ConfigFile} {doc : Document Value} (h : heldDocument file = some doc) :
    ∃ c, parse c = some doc := by
  match file with
  | none => exact ⟨[], LosslessTomlEdit.parse_nil.trans h⟩
  | some .dir => cases h
  | some (.file bytes) =>
      obtain ⟨content, -, hparse⟩ := Option.bind_eq_some_iff.mp h
      exact ⟨content, hparse⟩

/-- A file that may be read and is a document is changed as that document. -/
theorem startDocument_of_held {file : ConfigFile} {doc : Document Value} (h : heldDocument file = some doc) :
    startDocument true file = doc := by
  unfold startDocument parseOrNew
  match file with
  | none =>
      obtain rfl := Option.some.inj h
      show (parse []).getD ∅ = ∅
      rw [LosslessTomlEdit.parse_nil]
      rfl
  | some .dir => cases h
  | some (.file bytes) =>
      obtain ⟨content, hcontent, hparse⟩ := Option.bind_eq_some_iff.mp h
      simp only [readToString, if_true, hcontent, Option.getD_some, hparse]

/-- A file that may not be read is changed as an empty one. -/
theorem startDocument_unreadable (file : ConfigFile) : startDocument false file = ∅ := by
  have hread : readToString false file = none := by
    unfold readToString
    split <;> simp
  simp only [startDocument, parseOrNew, hread, Option.getD_none, LosslessTomlEdit.parse_nil, Option.getD_some]

/-- **What is written is held.** -/
theorem held_writtenFile {content : Text} {doc : Document Value} (h : parse content = some doc) (values : List Text) :
    ∃ doc', heldDocument (writtenFile doc values) = some doc' ∧
      (∀ key, key ≠ seedPathsKey → doc'.lookup key = doc.lookup key) ∧
      doc'.lookup seedPathsKey = some (.array (values.map .string)) := by
  obtain ⟨doc', hparse, hlookup⟩ := LosslessTomlEdit.parse_toString values h
  refine ⟨doc', ?_, fun key hkey => ?_, ?_⟩
  · simp only [heldDocument, writtenFile, Text.fromUtf8_utf8, Option.bind_some, hparse]
  · rw [hlookup, lookup_writeSeedPaths_of_ne hkey]
  · rw [hlookup, lookup_writeSeedPaths_self]

/-- When a file that is written has the change that should be made. -/
theorem listChanged_writtenFile_iff {content : Text} {doc₀ : Document Value} (h : parse content = some doc₀)
    {values : List Text} {change : List (Element Value) → List (Element Value)} {file : ConfigFile} :
    ListChanged change file (writtenFile doc₀ values) ↔
      ∃ doc former, heldDocument file = some doc ∧
        (∀ key, key ≠ seedPathsKey → doc₀.lookup key = doc.lookup key) ∧
        seedList doc = some former ∧ change former = values.map .string := by
  obtain ⟨written, hheld, hkeys, hself⟩ := held_writtenFile h values
  have hlist : seedList written = some (values.map .string) := by
    unfold seedList
    rw [hself]
    rfl
  constructor
  · intro h'
    obtain ⟨doc, doc', former, hdoc, hdoc', hsame, hformer, hchange⟩ := h'
    rw [hheld] at hdoc'
    obtain rfl := Option.some.inj hdoc'
    rw [hlist] at hchange
    exact ⟨doc, former, hdoc, fun key hkey => (hkeys key hkey).symm.trans (hsame key hkey), hformer,
      (Option.some.inj hchange).symm⟩
  · intro h'
    obtain ⟨doc, former, hdoc, hsame, hformer, hchange⟩ := h'
    exact ⟨doc, written, former, hdoc, hheld, fun key hkey => (hkeys key hkey).trans (hsame key hkey), hformer,
      hlist.trans (congrArg some hchange.symm)⟩

/-! ### Persisting a path -/

/-- An error leaves the file unchanged, and otherwise the path is in the list and nothing else changes. -/
def PersistSafe (world : ConfigWorld) (storePath : Text) (file : ConfigFile) : Prop :=
  let r := persistSeedPathToConfig world storePath file
  r.2 = false ∧ r.1 = file ∨ r.2 = true ∧ ListChanged (withPath storePath) file r.1

/-- None of the defaults is needed: the file is a document with a list of strings, and it may be read.
A file that may not be read has no other key, and no other path. -/
def Kept (readable : Bool) (storePath : Text) (file : ConfigFile) : Prop :=
  ∃ doc former, heldDocument file = some doc ∧ seedList doc = some former ∧ AllStrings former ∧
    (readable = true ∨
      (∀ key, key ≠ seedPathsKey → doc.lookup key = none) ∧ (strings former = [] ∨ strings former = [storePath]))

def PersistKeeps (world : ConfigWorld) (storePath : Text) (file : ConfigFile) : Prop :=
  world.dirReady = true → file ≠ some .dir →
    match world.write with
    | .written => Kept world.readable storePath file
    | .failed left => left = file

omit [LosslessTomlEdit] in
theorem persist_early {world : ConfigWorld} {storePath : Text} {file : ConfigFile}
    (h : world.dirReady = false ∨ file = some .dir) : persistSeedPathToConfig world storePath file = (file, false) := by
  unfold persistSeedPathToConfig
  rcases h with hready | rfl
  · rw [hready]
    rfl
  · split <;> rfl

omit [LosslessTomlEdit] in
theorem persist_eq {world : ConfigWorld} {storePath : Text} {file : ConfigFile} (hready : world.dirReady = true)
    (hdir : file ≠ some .dir) :
    persistSeedPathToConfig world storePath file =
      match world.write with
      | .written =>
        (writtenFile (startDocument world.readable file)
          (addOnce storePath (seedPaths (startDocument world.readable file))), true)
      | .failed left => (left, false) := by
  unfold persistSeedPathToConfig
  rw [if_pos hready]
  exact writeFile_eq hdir _ _

theorem listChanged_persisted_iff {readable : Bool} {storePath : Text} {file : ConfigFile} :
    ListChanged (withPath storePath) file
        (writtenFile (startDocument readable file) (addOnce storePath (seedPaths (startDocument readable file)))) ↔
      Kept readable storePath file := by
  obtain ⟨content, hparse⟩ := exists_parse_start readable file
  rw [listChanged_writtenFile_iff hparse]
  unfold Kept
  refine exists_congr fun doc => exists_congr fun former => and_congr_right fun hdoc => ?_
  cases readable with
  | true =>
      have hstart : startDocument true file = doc := startDocument_of_held hdoc
      rw [hstart]
      constructor
      · intro h
        obtain ⟨-, hformer, hchange⟩ := h
        refine ⟨hformer, fun e he => ?_, Or.inl rfl⟩
        have hmem := mem_withPath_of_mem storePath he
        rw [hchange] at hmem
        exact allStrings_map _ e hmem
      · intro h
        obtain ⟨hformer, hall, -⟩ := h
        refine ⟨fun key _ => rfl, hformer, ?_⟩
        rw [withPath_of_allStrings hall, seedPaths_of_seedList hformer]
  | false =>
      have hstart := startDocument_unreadable file
      have hnew : addOnce storePath (seedPaths (∅ : Document Value)) = [storePath] := rfl
      rw [hstart, hnew]
      simp only [List.map_cons, List.map_nil, withPath_eq_singleton_iff, AList.lookup_empty, Bool.false_eq_true, false_or,
        eq_comm (a := none)]
      tauto

theorem persistSafe_iff (world : ConfigWorld) (storePath : Text) (file : ConfigFile) :
    PersistSafe world storePath file ↔ PersistKeeps world storePath file := by
  unfold PersistSafe PersistKeeps
  by_cases hready : world.dirReady = true
  · by_cases hdir : file = some .dir
    · rw [persist_early (Or.inr hdir)]
      exact iff_of_true (Or.inl ⟨rfl, rfl⟩) fun _ hne => absurd hdir hne
    · rw [persist_eq hready hdir]
      cases world.write with
      | written => simp [hready, hdir, listChanged_persisted_iff]
      | failed left => simp [hready, hdir]
  · rw [persist_early (Or.inl (by simpa using hready))]
    exact iff_of_true (Or.inl ⟨rfl, rfl⟩) fun h => absurd h hready

/-! ### Removing a path -/

/-- The file is left alone, or the path is gone from the list and nothing else changes. -/
def RemoveSafe (world : ConfigWorld) (storePath : Text) (file : ConfigFile) : Prop :=
  let r := removeSeedPathFromConfig world storePath file
  r.1 = file ∨ r.2 = true ∧ ListChanged (withoutPath storePath) file r.1

/-- A list that can be read has strings only, and a write that fails leaves the file as it was. -/
def RemoveKeeps (world : ConfigWorld) (file : ConfigFile) : Prop :=
  ∀ doc elements, world.readable = true → heldDocument file = some doc → seedArray doc = some elements →
    match world.write with
    | .written => AllStrings elements
    | .failed left => left = file

/-- The list that is written. -/
def listWithout (storePath : Text) (elements : List (Element Value)) : List Text :=
  (strings elements).filter fun value => decide (value ≠ storePath)

omit [LosslessTomlEdit] in
/-- A removal does something to a list that can be read. -/
theorem remove_eq {world : ConfigWorld} {storePath : Text} {file : ConfigFile} {doc : Document Value}
    {elements : List (Element Value)} (hreadable : world.readable = true) (hheld : heldDocument file = some doc)
    (harray : seedArray doc = some elements) :
    removeSeedPathFromConfig world storePath file =
      match world.write with
      | .written => (writtenFile doc (listWithout storePath elements), true)
      | .failed left => (left, false) := by
  match file with
  | none =>
      obtain rfl := Option.some.inj hheld
      cases harray
  | some .dir => cases hheld
  | some (.file bytes) =>
      obtain ⟨content, hcontent, hparse⟩ := Option.bind_eq_some_iff.mp hheld
      have hread : readToString world.readable (some (.file bytes)) = some content := by
        rw [hreadable]
        exact hcontent
      have hdoc : parseOrNew content = doc := by rw [parseOrNew, hparse, Option.getD_some]
      simp only [removeSeedPathFromConfig, hread, hdoc, harray]
      exact writeFile_eq (by simp) _ _

omit [LosslessTomlEdit] in
/-- To anything else it does nothing. -/
theorem remove_untouched {world : ConfigWorld} {storePath : Text} {file : ConfigFile}
    (h : ∀ doc elements, world.readable = true → heldDocument file = some doc → seedArray doc ≠ some elements) :
    removeSeedPathFromConfig world storePath file = (file, true) := by
  unfold removeSeedPathFromConfig
  cases hread : readToString world.readable file with
  | none => rfl
  | some content =>
      have hnone : seedArray (parseOrNew content) = none := by
        unfold parseOrNew
        cases hparse : parse content with
        | none => rfl
        | some doc =>
            refine Option.eq_none_iff_forall_ne_some.mpr fun elements => ?_
            unfold readToString at hread
            split at hread
            next bytes =>
              split at hread
              next hreadable => exact h doc elements hreadable (Option.bind_eq_some_iff.mpr ⟨content, hread, hparse⟩)
              next => cases hread
            next => cases hread
      simp only [hnone]

/-- Strings are all that a rewritten list can have. -/
theorem removeSafe_written_iff {storePath : Text} {file : ConfigFile} {doc : Document Value}
    {elements : List (Element Value)} (hheld : heldDocument file = some doc) (harray : seedArray doc = some elements) :
    (writtenFile doc (listWithout storePath elements) = file ∨
      ListChanged (withoutPath storePath) file (writtenFile doc (listWithout storePath elements))) ↔
      AllStrings elements := by
  have hlist := seedList_of_seedArray harray
  obtain ⟨content, hparse⟩ := exists_parse_of_held hheld
  rw [listChanged_writtenFile_iff hparse]
  constructor
  · intro h
    rcases h with hsame | ⟨doc', former, hdoc', -, hformer, hchange⟩
    · -- the list is read back as it was written
      obtain ⟨written, hwritten, -, hself⟩ := held_writtenFile hparse (listWithout storePath elements)
      rw [hsame, hheld] at hwritten
      obtain rfl := Option.some.inj hwritten
      unfold seedArray at harray
      rw [hself] at harray
      have hself : (listWithout storePath elements).map .string = elements := Option.some.inj harray
      rw [← hself]
      exact allStrings_map _
    · rw [hheld] at hdoc'
      obtain rfl := Option.some.inj hdoc'
      rw [hlist] at hformer
      obtain rfl := Option.some.inj hformer
      intro e he
      cases e with
      | string value => exact ⟨value, rfl⟩
      | other value =>
          have hmem := mem_withoutPath_of_other storePath he
          rw [hchange] at hmem
          exact allStrings_map _ _ hmem
  · intro hall
    exact Or.inr ⟨doc, elements, hheld, fun _ _ => rfl, hlist, withoutPath_of_allStrings hall⟩

theorem removeSafe_iff (world : ConfigWorld) (storePath : Text) (file : ConfigFile) :
    RemoveSafe world storePath file ↔ RemoveKeeps world file := by
  unfold RemoveSafe
  by_cases hlist : ∃ doc elements, world.readable = true ∧ heldDocument file = some doc ∧ seedArray doc = some elements
  · obtain ⟨doc, elements, hreadable, hheld, harray⟩ := hlist
    have hkeeps : RemoveKeeps world file ↔
        match world.write with
        | .written => AllStrings elements
        | .failed left => left = file := by
      constructor
      · intro h
        exact h doc elements hreadable hheld harray
      · intro h doc' elements' _ hheld' harray'
        rw [hheld] at hheld'
        obtain rfl := Option.some.inj hheld'
        rw [harray] at harray'
        obtain rfl := Option.some.inj harray'
        exact h
    rw [hkeeps, remove_eq hreadable hheld harray]
    cases world.write with
    | written => simpa using removeSafe_written_iff hheld harray
    | failed left => simp
  · have huntouched : ∀ doc elements, world.readable = true → heldDocument file = some doc →
        seedArray doc ≠ some elements := fun doc elements h1 h2 h3 => hlist ⟨doc, elements, h1, h2, h3⟩
    rw [remove_untouched huntouched]
    exact iff_of_true (Or.inl rfl) fun doc elements h1 h2 h3 => absurd h3 (huntouched doc elements h1 h2)

/-! ### Persisting and removing -/

/-- To persist a path that was absent and to remove it gives the former list back. -/
def Restores (persisting removing : ConfigWorld) (storePath : Text) (file : ConfigFile) : Prop :=
  let persisted := persistSeedPathToConfig persisting storePath file
  let removed := removeSeedPathFromConfig removing storePath persisted.1
  ∀ former, (heldDocument file).bind seedList = some former → storePath ∉ strings former →
    persisted.2 = true → removed.2 = true → (heldDocument removed.1).bind seedList = some former

/-- The list has strings only, the file may be read both times, and neither write fails. A file that may
not be read at first has no list. -/
def RestoreKeeps (persisting removing : ConfigWorld) (storePath : Text) (file : ConfigFile) : Prop :=
  ∀ former, (heldDocument file).bind seedList = some former → storePath ∉ strings former →
    persisting.dirReady = true → persisting.write = .written →
    (removing.readable = true → removing.write = .written) →
      removing.readable = true ∧ AllStrings former ∧ (persisting.readable = true ∨ former = [])

/-- The list that persisting and removing leaves. -/
theorem listWithout_persisted_iff {readable : Bool} {storePath : Text} {file : ConfigFile}
    {former : List (Element Value)} (hformer : (heldDocument file).bind seedList = some former)
    (habsent : storePath ∉ strings former) :
    ((addOnce storePath (seedPaths (startDocument readable file))).filter
        (fun value => decide (value ≠ storePath))).map .string = former ↔
      AllStrings former ∧ (readable = true ∨ former = []) := by
  cases readable with
  | true =>
      obtain ⟨doc, hheld, hlist⟩ := Option.bind_eq_some_iff.mp hformer
      rw [startDocument_of_held hheld, seedPaths_of_seedList hlist, filter_addOnce habsent, map_strings_iff]
      simp
  | false =>
      have hnew : seedPaths (∅ : Document Value) = [] := rfl
      rw [startDocument_unreadable, hnew, filter_addOnce List.not_mem_nil]
      constructor
      · intro h
        obtain rfl := h
        exact ⟨allStrings_map [], Or.inr rfl⟩
      · intro h
        obtain ⟨-, hempty⟩ := h
        rw [hempty.resolve_left Bool.false_ne_true]
        rfl

theorem restores_iff (persisting removing : ConfigWorld) (storePath : Text) (file : ConfigFile) :
    Restores persisting removing storePath file ↔ RestoreKeeps persisting removing storePath file := by
  unfold Restores RestoreKeeps
  refine forall_congr' fun former => imp_congr_right fun hformer => imp_congr_right fun habsent => ?_
  have hdir : file ≠ some .dir := by
    intro h'
    obtain rfl := h'
    cases hformer
  by_cases hready : persisting.dirReady = true
  · rw [persist_eq hready hdir]
    cases hwrite : persisting.write with
    | failed left => simp
    | written =>
        let values := addOnce storePath (seedPaths (startDocument persisting.readable file))
        obtain ⟨content, hparse⟩ := exists_parse_start persisting.readable file
        obtain ⟨doc, hheld, -, hlookup⟩ := held_writtenFile hparse values
        have harray : seedArray doc = some (values.map .string) := by
          unfold seedArray
          rw [hlookup]
          rfl
        cases hreadable : removing.readable with
        | false =>
            -- the path stays in the list
            have hkept : (heldDocument (writtenFile (startDocument persisting.readable file) values)).bind seedList ≠
                some former := by
              rw [hheld, Option.bind_some, seedList_of_seedArray harray]
              intro heq
              rw [← Option.some.inj heq, strings_map] at habsent
              exact habsent (mem_addOnce storePath _)
            rw [remove_untouched fun _ _ h => absurd h (by rw [hreadable]; exact Bool.false_ne_true)]
            simp [hready, hkept, values]
        | true =>
            rw [remove_eq hreadable hheld harray]
            cases hwrite' : removing.write with
            | failed left => simp
            | written =>
                obtain ⟨doc', hheld', -, hlookup'⟩ := held_writtenFile
                  (exists_parse_of_held hheld).choose_spec (listWithout storePath (values.map .string))
                have hlist : seedList doc' = some ((values.filter fun value => decide (value ≠ storePath)).map .string) := by
                  unfold seedList
                  rw [hlookup', listWithout, strings_map]
                  rfl
                simp only [hready, hheld', Option.bind_some, hlist, Option.some.injEq, true_and, forall_const]
                exact listWithout_persisted_iff hformer habsent
  · rw [persist_early (Or.inl (by simpa using hready))]
    simp [hready]

/-- **When the config file is safe.** For whatever is at its path, for every path, and however the changes
go: persisting a path keeps the rest of the file, removing one touches that path only, and removing what
was persisted gives the list back, each exactly under its condition on the file and on the changes. -/
theorem config_file_safe_iff (persisting removing : ConfigWorld) (storePath : Text) (file : ConfigFile) :
    (PersistSafe persisting storePath file ↔ PersistKeeps persisting storePath file) ∧
      (RemoveSafe removing storePath file ↔ RemoveKeeps removing file) ∧
      (Restores persisting removing storePath file ↔ RestoreKeeps persisting removing storePath file) :=
  ⟨persistSafe_iff persisting storePath file, removeSafe_iff removing storePath file,
    restores_iff persisting removing storePath file⟩

end

/-! ### Files with no other key -/

/-- An array with a number in it. -/
def numberText : Text := "seed_paths = [7]\n".toList

def numberDocument : Document Nat := AList.insert seedPathsKey (.array [.other 7]) ∅

def parseSeedPaths (content : Text) : Option (Document Nat) :=
  if content = numberText then some numberDocument
  else (tomlSeedPaths content).map fun field => (field.map (writeSeedPaths ∅)).getD ∅

def printDocument (doc : Document Nat) : Text := printSeedPaths ((seedArray doc).map strings)

/-- Config files with no other key than a list of strings, and one with a number. -/
@[reducible] def seedPathsTomlEdit : TomlEditLib := ⟨Nat, parseSeedPaths, printDocument⟩

theorem lookup_of_parseSeedPaths {content : Text} {doc : Document Nat} (h : parseSeedPaths content = some doc)
    {key : Text} (hkey : key ≠ seedPathsKey) : doc.lookup key = none := by
  unfold parseSeedPaths at h
  split at h
  · obtain rfl := Option.some.inj h
    exact AList.lookup_insert_ne hkey
  · obtain ⟨field, -, rfl⟩ := Option.map_eq_some_iff.mp h
    cases field with
    | none => rfl
    | some former => exact lookup_writeSeedPaths_of_ne hkey ∅ former

theorem printDocument_writeSeedPaths (doc : Document Nat) (values : List Text) :
    printDocument (writeSeedPaths doc values) = printSeedPaths (some values) := by
  have harray : seedArray (writeSeedPaths doc values) = some (values.map .string) := by
    rw [seedArray, lookup_writeSeedPaths_self]
    rfl
  rw [printDocument, harray, Option.map_some, strings_map]

theorem parseSeedPaths_printSeedPaths (values : List Text) :
    parseSeedPaths (printSeedPaths (some values)) = some (writeSeedPaths ∅ values) := by
  have hread := tomlSeedPaths_printSeedPaths values
  have hnumber : printSeedPaths (some values) ≠ numberText := by
    intro heq
    have hnone : tomlSeedPaths numberText = none := by decide +kernel
    rw [heq, hnone] at hread
    cases hread
  rw [parseSeedPaths, if_neg hnumber, hread]
  rfl

theorem lawful_seedPathsTomlEdit : @LosslessTomlEdit seedPathsTomlEdit := by
  refine @LosslessTomlEdit.mk seedPathsTomlEdit rfl fun {content doc} values hparse => ?_
  refine ⟨writeSeedPaths ∅ values, ?_, fun key => ?_⟩
  · show parseSeedPaths (printDocument (writeSeedPaths doc values)) = _
    rw [printDocument_writeSeedPaths, parseSeedPaths_printSeedPaths]
  · by_cases hkey : key = seedPathsKey
    · rw [hkey, lookup_writeSeedPaths_self, lookup_writeSeedPaths_self]
    · rw [lookup_writeSeedPaths_of_ne hkey, lookup_writeSeedPaths_of_ne hkey, lookup_of_parseSeedPaths hparse hkey]
      rfl

/-- The file can be read, and writes go through. -/
def workingConfig : ConfigWorld := ⟨true, true, .written⟩

def newPath : Text := "/gnu/store/bbbb-new".toList

/-- A file with one path in its list. -/
def existingConfig : ConfigFile := some (.file (Text.utf8 (printSeedPaths (some ["/gnu/store/aaaa-existing".toList]))))

theorem held_text (content : Text) :
    @heldDocument seedPathsTomlEdit (some (.file (Text.utf8 content))) = parseSeedPaths content := by
  show (Text.fromUtf8 (Text.utf8 content)).bind parseSeedPaths = _
  rw [Text.fromUtf8_utf8, Option.bind_some]

theorem held_existingConfig :
    @heldDocument seedPathsTomlEdit existingConfig = some (writeSeedPaths ∅ ["/gnu/store/aaaa-existing".toList]) :=
  (held_text _).trans (parseSeedPaths_printSeedPaths _)

/-- The file with one path, when another is persisted and removed. -/
theorem config_file_safe_sample :
    let _ := seedPathsTomlEdit
    PersistSafe workingConfig newPath existingConfig ∧ RemoveSafe workingConfig newPath existingConfig ∧
      Restores workingConfig workingConfig newPath existingConfig := by
  intro lib
  have hiff := @config_file_safe_iff lib lawful_seedPathsTomlEdit workingConfig workingConfig newPath existingConfig
  let doc : Document Nat := writeSeedPaths ∅ ["/gnu/store/aaaa-existing".toList]
  have harray : seedArray doc = some (["/gnu/store/aaaa-existing".toList].map .string) := rfl
  refine ⟨hiff.1.mpr fun _ _ => ?_, hiff.2.1.mpr ?_, hiff.2.2.mpr ?_⟩
  · exact ⟨doc, _, held_existingConfig, seedList_of_seedArray harray, allStrings_map _, Or.inl rfl⟩
  · intro doc' elements _ hheld helements
    obtain rfl := Option.some.inj (held_existingConfig.symm.trans hheld)
    obtain rfl := Option.some.inj (harray.symm.trans helements)
    exact allStrings_map _
  · intro former hformer _ _ _ _
    rw [held_existingConfig, Option.bind_some, seedList_of_seedArray harray] at hformer
    obtain rfl := Option.some.inj hformer
    exact ⟨rfl, allStrings_map _, Or.inl rfl⟩

/-- A file with settings and a string that is not closed: it is replaced by the path alone. An array with
a number in it loses the number. -/
theorem config_file_is_lost :
    let _ := seedPathsTomlEdit
    let broken : ConfigFile := some (.file (Text.utf8 "block_size = 1048576\ncache_dir = \"/var/cache".toList))
    let numbers : ConfigFile := some (.file (Text.utf8 numberText))
    let onlyPath : ConfigFile := some (.file (Text.utf8 (printSeedPaths (some [newPath]))))
    persistSeedPathToConfig workingConfig newPath broken = (onlyPath, true) ∧
      ¬ PersistSafe workingConfig newPath broken ∧
      persistSeedPathToConfig workingConfig newPath numbers = (onlyPath, true) ∧
      ¬ PersistSafe workingConfig newPath numbers ∧
      ¬ RemoveSafe workingConfig newPath numbers := by
  intro lib broken numbers onlyPath
  have hpersist : ∀ content : Text, seedPaths (@parseOrNew lib content) = [] →
      persistSeedPathToConfig workingConfig newPath (some (.file (Text.utf8 content))) = (onlyPath, true) := by
    intro content hseeds
    have hstart : startDocument workingConfig.readable (some (.file (Text.utf8 content))) = @parseOrNew lib content := by
      simp only [startDocument, readToString, workingConfig, if_true, Text.fromUtf8_utf8, Option.getD_some]
    have htext := printDocument_writeSeedPaths (@parseOrNew lib content) [newPath]
    rw [persist_eq rfl (by simp), hstart, hseeds]
    exact congrArg (fun text => (some (Entry.file (Text.utf8 text)), true)) htext
  have hbroken : heldDocument broken = none := held_text _
  have hnumbers : heldDocument numbers = some numberDocument := held_text _
  have hseven : ¬ AllStrings [Element.other 7] := by
    intro hall
    obtain ⟨value, hvalue⟩ := hall _ List.mem_cons_self
    cases hvalue
  refine ⟨hpersist _ rfl, fun hsafe => ?_, hpersist _ rfl, fun hsafe => ?_, fun hsafe => ?_⟩
  · obtain ⟨doc, -, hheld, -⟩ := (@persistSafe_iff lib lawful_seedPathsTomlEdit _ _ _).mp hsafe rfl (by simp [broken])
    rw [hbroken] at hheld
    cases hheld
  · obtain ⟨doc, former, hheld, hformer, hall, -⟩ :=
      (@persistSafe_iff lib lawful_seedPathsTomlEdit _ _ _).mp hsafe rfl (by simp [numbers])
    obtain rfl := Option.some.inj (hnumbers.symm.trans hheld)
    obtain rfl := Option.some.inj hformer
    exact hseven hall
  · exact hseven ((@removeSafe_iff lib lawful_seedPathsTomlEdit _ _ _).mp hsafe _ _ rfl hnumbers rfl)

end GuixP2p.SeedConfig
